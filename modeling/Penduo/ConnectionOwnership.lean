import Penduo.ServerRuns

set_option autoImplicit false

namespace Penduo

open LabelledRuns

namespace World

variable {w w0 : World} {life : ℕ → Life} {fds : BaseFds} {serverName : String} {es : List ServerEvent} {k : ℕ}

/-- Every connection that has gone through `connect_destoryed` is destroyed, and the accepted
descriptors that are open belong to `connections_`. -/
structure Released (w : World) : Prop where
  destroyed : ∀ k i, (.connectDestoryed, i) ∈ w.trace k →
    w.strongRefs k = 0 ∧ w.closedFds.count (k, (w.poller.channel (.connection k)).fd) = 1
  accepted : ∀ fd, fd ∈ w.acceptedFds ∧ fd ∈ w.openFds ↔
    ∃ name k conn, w.server.connections.find name = some k ∧ w.connection k = some conn ∧ conn.socketFd = fd

theorem Inv.released (h : w.Inv life) (hlive : ∀ k, life k = .absent ∨ life k = .opened) : w.Released where
  destroyed k i hmem := by
    have htrace := h.trace k
    exfalso
    rcases hlive k with hk | hk <;> rw [hk] at htrace
    · simp [htrace.absent_shape] at hmem
    · simpa using htrace.opened_mem hmem
  accepted fd := by
    constructor
    · rintro ⟨haccepted, _⟩
      obtain ⟨k, hk, hfd⟩ := (h.descriptors.accepted fd).mp haccepted
      obtain ⟨conn, hconn, _, hkeeps⟩ := h.object k hk
      have hopened : life k = .opened := by
        rcases hlive k with hlife | hlife
        · exact absurd hk (not_lt.mpr ((h.absent k).mp hlife))
        · exact hlife
      exact ⟨_, k, conn, (h.connections _ k).mpr ⟨hopened, rfl⟩, hconn, hkeeps.socketFd.trans hfd⟩
    · rintro ⟨name, k, conn, hfind, hconn, rfl⟩
      have hopened := ((h.connections name k).mp hfind).1
      have hlt := h.lt_created (k := k) (by simp [hopened])
      rw [(h.of_object hconn).2.socketFd]
      exact ⟨(h.descriptors.accepted _).mpr ⟨k, hlt, rfl⟩, h.descriptors.isOpen (.connection k) hlt⟩

theorem Inv.not_released (h : w.Inv life) (hk : life k = .closed) : ¬ w.Released := by
  intro hreleased
  have htrace := h.trace k
  rw [hk] at htrace
  obtain ⟨i, hmem⟩ := htrace.closed_destoryed
  exact (h.strongRefs_pos (k := k) (by simp [hk])).ne' (hreleased.destroyed k i hmem).1

/-- Between two iterations nothing has leaked exactly if no `read_fd` has returned 0 so far. -/
theorem released_iff (hw0 : construct .debug fds serverName = .ok w0) (hrun : Run Next w0 es w)
    (hstage : w.stage = .between ∨ w.stage = .outside) :
    w.Released ↔ ∀ k i, (.read 0, i) ∉ w.trace k := by
  obtain ⟨life, h⟩ := run_inv hw0 hrun
  have hread : ∀ k, (∃ i, (.read 0, i) ∈ w.trace k) ↔ life k = .closed := by
    intro k
    rw [(h.trace k).read_zero_iff]
    have hquiet := h.quiet hstage k
    constructor
    · rintro (hk | ⟨n, hk⟩)
      · exact hk
      · simp [hk, Life.isClosing] at hquiet
    · exact Or.inl
  constructor
  · intro hreleased k i hmem
    exact h.not_released ((hread k).mp ⟨i, hmem⟩) hreleased
  · intro hnone
    apply h.released
    intro k
    have hopen : life k ≠ .closed := by
      intro hk
      obtain ⟨i, hmem⟩ := (hread k).mpr hk
      exact hnone k i hmem
    have hquiet := h.quiet hstage k
    cases hk : life k with
    | absent => exact Or.inl rfl
    | opened => exact Or.inr rfl
    | closing n => simp [hk, Life.isClosing] at hquiet
    | closed => exact absurd hk hopen

def oneAccepted : List ServerEvent :=
  [.user [.start], .enter, .poll (readable [2]), .handle (accepts 10 []), .takePending, .finish]

theorem released_iff_accepted : ∃ w0 w, construct .debug exampleFds "server" = .ok w0 ∧ Run Next w0 oneAccepted w ∧
    w.openFds = [10, 3, 4, 5, 6] ∧ (w.Released ↔ ∀ k i, (.read 0, i) ∉ w.trace k) := by
  obtain ⟨w0, w, hw0, hrun, hend⟩ := run_of_advance exampleFds "server" oneAccepted
    (fun w => (w.stage, w.openFds)) (a := (.between, [10, 3, 4, 5, 6])) (by decide +kernel)
  obtain ⟨hstage, hopen⟩ := Prod.mk.inj hend
  exact ⟨w0, w, hw0, hrun, hopen, released_iff hw0 hrun (Or.inl hstage)⟩

def oneClosed : List ServerEvent :=
  oneAccepted ++ [.poll (readable [3]), .handle (reads 0), .takePending, .run [], .finish]

def oneClosedTrace : List Mark :=
  Lifecycle.up ⟨1, .dispatch⟩ ++ Lifecycle.down ⟨2, .dispatch⟩ ++ Lifecycle.gone ⟨2, .pending⟩

theorem closed_connection_leaks : ∃ w0 w, construct .debug exampleFds "server" = .ok w0 ∧ Run Next w0 oneClosed w ∧
    w.stage = .between ∧ w.trace 0 = oneClosedTrace ∧ w.server.connections.size = 0 ∧ w.strongRefs 0 = 1 ∧
      w.openFds = [10, 3, 4, 5, 6] ∧ ¬ w.Released := by
  obtain ⟨w0, w, hw0, hrun, hend⟩ := run_of_advance exampleFds "server" oneClosed
    (fun w => (w.stage, w.trace 0, w.server.connections.size, w.strongRefs 0, w.openFds))
    (a := (.between, oneClosedTrace, 0, 1, [10, 3, 4, 5, 6])) (by decide +kernel)
  simp only [Prod.mk.injEq] at hend
  obtain ⟨hstage, htrace, hsize, hrefs, hopen⟩ := hend
  refine ⟨w0, w, hw0, hrun, hstage, htrace, hsize, hrefs, hopen, fun hreleased => ?_⟩
  have hfreed := (hreleased.destroyed 0 ⟨2, .pending⟩ (by simp [htrace, oneClosedTrace, Lifecycle.gone])).1
  omega

end World

end Penduo
