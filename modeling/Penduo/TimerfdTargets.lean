import Penduo.TimerfdSimulation

set_option autoImplicit false

namespace Penduo

open LabelledRuns

namespace Timerfds

variable {capacity : ℕ} {s s' : Timerfds} {e : TimerfdEvent} {i : ℕ} {t : TimerfdThreadSimulation} {r : Reset}
  {clock : Timestamp} {es : List TimerfdEvent}

def Owned (s : Timerfds) (r : Reset) : Prop :=
  r ∈ s.thread.resets ∧ ∃ t, s.timerfd r.caller = some t ∧ r.writeFd = t.writeFd

def Stale (s : Timerfds) (r : Reset) : Prop := s.fds r.writeFd = .closed ∨ ∃ j, s.fds r.writeFd = .readEnd j

def pending (s : Timerfds) (fd : ℕ) : Bool :=
  (s.thread.timerSet ++ s.thread.timerFunc.popped).any fun r => r.writeFd = fd

def avoidsPending (s : Timerfds) : TimerfdEvent → Bool
  | .create _ writeFd => !s.pending writeFd
  | .openFd fd => !s.pending fd
  | _ => true

structure Reaches (s : Timerfds) (token : Token) : Prop where
  asked : token.reset ∈ s.thread.resets
  target : token.target = .writeEnd token.reset.caller
  alive : token.alive = true

section Owned

theorem pending_of_holds (hr : s.thread.Holds r) : s.pending r.writeFd = true := by
  simp only [pending, List.any_eq_true, decide_eq_true_eq]
  exact ⟨r, List.mem_append.mpr hr, rfl⟩

theorem Attached.entering_owned (h : s.Attached) (hcall : s.thread.call i = .entering r) : s.Owned r := by
  obtain ⟨t, ht, hreset⟩ := h.call i r (by simp [hcall, ResetCall.reset])
  obtain ⟨hcaller, hfd, _, hmem⟩ := h.resetting i t ht r hreset
  exact ⟨hmem, t, by rw [hcaller]; exact ht, hfd⟩

theorem Attached.owned_fd (h : s.Attached) (hr : s.Owned r) : s.fds r.writeFd = .writeEnd r.caller := by
  obtain ⟨_, t, ht, hfd⟩ := hr
  rw [hfd]
  exact h.writeFd _ t ht

theorem Moves.resets_subset (hm : Moves capacity s e s') : s.thread.resets ⊆ s'.thread.resets := by
  cases hm with
  | thread e thread hm he hwrite =>
    dsimp only
    rw [hm.resets_eq he]
    exact List.Subset.refl _
  | reset => exact List.subset_append_left _ _
  | _ => exact List.Subset.refl _

theorem setTimerfd_writeFd {j : ℕ} {u : TimerfdThreadSimulation} (ht : s.timerfd i = some t)
    (hfd : u.writeFd = t.writeFd) {t' : TimerfdThreadSimulation} (ht' : s.timerfd j = some t') :
    ∃ u', (s.setTimerfd i (some u)).timerfd j = some u' ∧ t'.writeFd = u'.writeFd := by
  by_cases hj : j = i
  · subst hj
    obtain rfl := Option.some.inj (ht.symm.trans ht')
    exact ⟨u, setTimerfd_self s j (some u), hfd.symm⟩
  · exact ⟨t', by rw [setTimerfd_of_ne s _ hj]; exact ht', rfl⟩

theorem Owned.step (h : s.Attached) (hm : Moves capacity s e s') (hr : s.Owned r) (he : e ≠ .destroy r.caller) :
    s'.Owned r := by
  have hresets := hm.resets_subset
  obtain ⟨hmem, t, ht, hfd⟩ := hr
  refine ⟨hresets hmem, ?_⟩
  rw [hfd]
  cases hm with
  | written r' rest hfunc => exact ⟨t, by simpa using ht, rfl⟩
  | create readFd writeFd hread hwrite hne =>
    have hold : r.caller ≠ s.created := by
      intro hcreated
      simp [hcreated, h.created _ le_rfl] at ht
    exact ⟨t, by rw [setTimerfd_of_ne s _ hold]; exact ht, rfl⟩
  | reset t' r' ht' hnone hidle hid hfd' hold =>
    obtain ⟨u, hu, hsame⟩ := setTimerfd_writeFd (u := { t' with resetting := some r' }) ht' rfl ht
    exact ⟨u, hu, hsame⟩
  | returned i t' r' ht' hr' hidle =>
    obtain ⟨u, hu, hsame⟩ := setTimerfd_writeFd
      (u := { t' with expirationTs := r'.newTimestamp, resetting := none, completed := some r' }) ht' rfl ht
    exact ⟨u, hu, hsame⟩
  | destroy i t' ht' hnone =>
    have hne : r.caller ≠ i := by
      rintro rfl
      exact he rfl
    exact ⟨t, by rw [setTimerfd_of_ne s _ hne]; exact ht, rfl⟩
  | thread | read | openFd | closeFd => exact ⟨t, ht, rfl⟩

theorem Moves.holds (h : s.Attached) (hm : Moves capacity s e s') (hr : s'.thread.Holds r) :
    s.thread.Holds r ∨ s.Owned r := by
  cases hm with
  | thread e thread hm he hwrite =>
    rcases hm.holds hr with hr | ⟨i, hcall⟩
    · exact Or.inl hr
    · exact Or.inr (h.entering_owned hcall)
  | written r' rest hfunc =>
    left
    rcases hr with hr | hr
    · exact Or.inl hr
    · right
      rw [hfunc]
      exact List.mem_cons_of_mem _ hr
  | _ => exact Or.inl hr

end Owned

section Stale

theorem Stale.update (hr : s.Stale r) {fds : ℕ → Descriptor} (hfds : fds r.writeFd = s.fds r.writeFd ∨
    fds r.writeFd = .closed ∨ ∃ j, fds r.writeFd = .readEnd j) : ({ s with fds := fds } : Timerfds).Stale r := by
  rcases hfds with hsame | hfds
  · rcases hr with hr | ⟨j, hr⟩
    · exact Or.inl (hsame.trans hr)
    · exact Or.inr ⟨j, hsame.trans hr⟩
  · exact hfds

theorem Stale.step (hm : Moves capacity s e s') (hheld : s.thread.Holds r) (hr : s.Stale r)
    (havoids : s.avoidsPending e = true) : s'.Stale r := by
  have hpending := pending_of_holds hheld
  cases hm with
  | written r' rest hfunc => simpa [Stale] using hr
  | create readFd writeFd hread hwrite hne =>
    have hfd : r.writeFd ≠ writeFd := by
      rintro rfl
      simp [avoidsPending, hpending] at havoids
    apply hr.update
    rw [Function.update_of_ne hfd]
    by_cases hreadFd : r.writeFd = readFd
    · right
      right
      exact ⟨s.created, by rw [hreadFd, Function.update_self]⟩
    · left
      rw [Function.update_of_ne hreadFd]
  | destroy i t ht hnone =>
    apply hr.update
    by_cases hwriteFd : r.writeFd = t.writeFd
    · right
      left
      rw [hwriteFd, Function.update_self]
    · rw [Function.update_of_ne hwriteFd]
      by_cases hreadFd : r.writeFd = t.readFd
      · right
        left
        rw [hreadFd, Function.update_self]
      · left
        rw [Function.update_of_ne hreadFd]
  | openFd fd hfd =>
    have hne : r.writeFd ≠ fd := by
      rintro rfl
      simp [avoidsPending, hpending] at havoids
    apply hr.update
    left
    rw [Function.update_of_ne hne]
  | closeFd fd hfd =>
    apply hr.update
    by_cases hne : r.writeFd = fd
    · right
      left
      rw [hne, Function.update_self]
    · left
      rw [Function.update_of_ne hne]
  | thread | reset | returned | read => exact hr

theorem Owned.destroyed (hm : Moves capacity s (.destroy r.caller) s') (hr : s.Owned r) : s'.Stale r := by
  obtain ⟨_, u, hu, hfd⟩ := hr
  cases hm with
  | destroy _ t ht hnone =>
    obtain rfl := Option.some.inj (hu.symm.trans ht)
    left
    dsimp only
    rw [hfd, Function.update_self]

theorem deliver_stale (hr : s.Stale r) : (s.deliver r).tokens = s.tokens := by
  rcases hr with hr | ⟨j, hr⟩ <;> simp [deliver, hr]

end Stale

theorem Reaches.step (hm : Moves capacity s e s') {token : Token} (h : s.Reaches token) : s'.Reaches token :=
  ⟨hm.resets_subset h.asked, h.target, h.alive⟩

structure Targeted (s : Timerfds) : Prop where
  attached : s.Attached
  holds : ∀ r, s.thread.Holds r → s.Owned r ∨ s.Stale r
  tokens : ∀ token ∈ s.tokens, s.Reaches token

theorem Targeted.deliver (h : s.Targeted) (hr : s.thread.Holds r) :
    ∀ token ∈ (s.deliver r).tokens, s.Reaches token := by
  intro token htoken
  rcases h.holds r hr with howned | hstale
  · have hfd := h.attached.owned_fd howned
    obtain ⟨hmem, t, ht, _⟩ := howned
    rw [deliver_tokens hfd] at htoken
    rcases List.mem_append.mp htoken with hold | hnew
    · exact h.tokens token hold
    · obtain rfl := List.mem_singleton.mp hnew
      exact ⟨hmem, rfl, by simp [ht]⟩
  · rw [deliver_stale hstale] at htoken
    exact h.tokens token htoken

theorem Moves.tokens (h : s.Targeted) (hm : Moves capacity s e s') : ∀ token ∈ s'.tokens, s.Reaches token := by
  cases hm with
  | written r rest hfunc =>
    apply h.deliver
    right
    rw [hfunc]
    exact List.mem_cons_self
  | _ => exact h.tokens

theorem Moves.targeted (h : s.Targeted) (havoids : s.avoidsPending e = true) (hm : Moves capacity s e s') :
    s'.Targeted where
  attached := hm.attached h.attached
  holds r hr := by
    have hold : s.Owned r ∨ s.thread.Holds r ∧ s.Stale r := by
      rcases hm.holds h.attached hr with hr | howned
      · exact (h.holds r hr).imp_right fun hstale => ⟨hr, hstale⟩
      · exact Or.inl howned
    rcases hold with howned | ⟨hheld, hstale⟩
    · by_cases he : e = .destroy r.caller
      · subst he
        exact Or.inr (howned.destroyed hm)
      · exact Or.inl (howned.step h.attached hm he)
    · exact Or.inr (hstale.step hm hheld havoids)
  tokens token htoken := (hm.tokens h token htoken).step hm

/-- While no number that the timer thread still has is given out again, each token goes to the instance
that asked for it. -/
theorem tokens_reach_owner
    (h : Run (Guarded (Next (step capacity)) fun s e => s.avoidsPending e = true) (init clock) es s) :
    ∀ token ∈ s.tokens, s.Reaches token := by
  have htargeted : s.Targeted := by
    apply h.invariant (I := Targeted)
    · rintro s e s' hs ⟨hn, havoids⟩
      exact (moves_of_step hn).targeted hs havoids
    · refine ⟨init_attached clock, fun r hr => ?_, fun token htoken => absurd htoken List.not_mem_nil⟩
      rcases hr with hr | hr <;> exact absurd hr List.not_mem_nil
  exact htargeted.tokens

def firstToken : List TimerfdEvent :=
  [.create 3 4, .reset 0 ⟨1000⟩, .thread (.lock 0), .thread (.write 0), .thread (.unlock 0), .returned 0,
    .thread (.tick ⟨2000⟩), .thread .test, .thread (.poll 1), .thread .readClock, .thread .readWeakup, .thread .expire,
    .thread .writeToken]

theorem tokens_reach_owner_later : ∃ s : Timerfds,
    Run (Guarded (Next (step 65536)) fun s e => s.avoidsPending e = true) (init ⟨0⟩)
      (firstToken ++ [.destroy 0, .openFd 4]) s ∧ s.tokens.length = 1 ∧ ∀ token ∈ s.tokens, s.Reaches token := by
  have hexec : (exec (guardedStep (step 65536) avoidsPending) (init ⟨0⟩) (firstToken ++ [.destroy 0, .openFd 4])).map
      (fun s => s.tokens.length) = some 1 := by decide +kernel
  obtain ⟨s, hrun, hlength⟩ := run_of_exec_map _ hexec
  exact ⟨s, hrun.guarded, hlength, tokens_reach_owner hrun.guarded⟩

def reusedFd : List TimerfdEvent :=
  firstToken.take 6 ++ [.destroy 0, .create 3 4] ++ firstToken.drop 6

theorem token_after_destroy : ∃ s : Timerfds, Run (Next (step 65536)) (init ⟨0⟩) reusedFd s ∧
    s.thread.resets.map Reset.caller = [0] ∧
      ∃ token ∈ s.tokens, token.target = .writeEnd 1 ∧ token.alive = false ∧ ¬ s.Reaches token := by
  have hexec : (exec (step 65536) (init ⟨0⟩) reusedFd).map
      (fun s => (s.thread.resets.map Reset.caller, s.tokens.map fun token => (token.target, token.alive))) =
        some ([0], [(.writeEnd 1, false)]) := by decide +kernel
  obtain ⟨s, hrun, hend⟩ := run_of_exec_map _ hexec
  obtain ⟨hresets, htokens⟩ := Prod.mk.inj hend
  obtain ⟨token, rest, hs⟩ : ∃ token rest, s.tokens = token :: rest := by
    cases hs : s.tokens with
    | nil => simp [hs] at htokens
    | cons token rest => exact ⟨token, rest, rfl⟩
  simp only [hs, List.map_cons, List.cons.injEq, Prod.mk.injEq] at htokens
  obtain ⟨⟨htarget, halive⟩, _⟩ := htokens
  refine ⟨s, hrun, hresets, token, by simp [hs], htarget, halive, fun hreaches => ?_⟩
  exact Bool.false_ne_true (halive.symm.trans hreaches.alive)

end Timerfds

end Penduo
