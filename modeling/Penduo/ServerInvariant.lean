import Penduo.PollReports
import Penduo.UserCode

set_option autoImplicit false

namespace Penduo

def ChannelId.Live (created : ℕ) : ChannelId → Prop
  | .connection k => k < created
  | _ => True

structure TcpConnection.Keeps (server : TcpServer) (fd k : ℕ) (conn : TcpConnection) : Prop where
  name : conn.name = server.connectionName (k + 1)
  socketFd : conn.socketFd = fd
  connectionCallback : conn.connectionCallback = true
  messageCallback : conn.messageCallback = true
  closeCallback : conn.closeCallback = some (.removeConnection k)

def LoopStage.Inv (life : ℕ → Life) (p : Poller ChannelId) (pendingFunctors : List Functor) : LoopStage → Prop
  | .outside | .between => ∀ k, (life k).isClosing = false
  | .dispatch rest => rest.Nodup ∧ ∀ c ∈ rest, p.Enabled c
  | .pending _ functors =>
    (∀ k, .connectDestoryed k ∉ pendingFunctors) ∧ ∀ k, .connectDestoryed k ∈ functors → life k ≠ .absent

theorem LoopStage.Inv.mono {life life' : ℕ → Life} {p p' : Poller ChannelId} {fs : List Functor} {st : LoopStage}
    (h : st.Inv life p fs) (hclosing : ∀ k, (life' k).isClosing = true → (life k).isClosing = true)
    (habsent : ∀ k, life' k = .absent → life k = .absent) (hp : ∀ c, p.Enabled c → p'.Enabled c) :
    st.Inv life' p' fs := by
  have hquiet : (∀ k, (life k).isClosing = false) → ∀ k, (life' k).isClosing = false := by
    intro hno k
    by_contra hk
    have hyes := hclosing k (by simpa using hk)
    rw [hno k] at hyes
    exact Bool.false_ne_true hyes
  cases st with
  | outside => exact hquiet h
  | between => exact hquiet h
  | dispatch rest => exact ⟨h.1, fun c hc => hp c (h.2 c hc)⟩
  | pending rest functors => exact ⟨h.1, fun k hk hlife => h.2 k hk (habsent k hlife)⟩

namespace World

variable {w w' : World} {life : ℕ → Life} {k : ℕ} {c : ChannelId}

structure Descriptors (w : World) : Prop where
  distinct : ∀ c d, c.Live w.created → d.Live w.created →
    (w.poller.channel c).fd = (w.poller.channel d).fd → c = d
  isOpen : ∀ c, c.Live w.created → (w.poller.channel c).fd ∈ w.openFds
  accepted : ∀ fd, fd ∈ w.acceptedFds ↔ ∃ k < w.created, (w.poller.channel (.connection k)).fd = fd
  noneClosed : w.closedFds = []

theorem Descriptors.of_eq (h : w.Descriptors)
    (hfd : ∀ c, (w'.poller.channel c).fd = (w.poller.channel c).fd) (hcreated : w'.created = w.created)
    (hfds : w'.openFds = w.openFds ∧ w'.acceptedFds = w.acceptedFds ∧ w'.closedFds = w.closedFds) :
    w'.Descriptors where
  distinct c d hc hd he := by
    rw [hcreated] at hc hd
    rw [hfd, hfd] at he
    exact h.distinct c d hc hd he
  isOpen c hc := by
    rw [hcreated] at hc
    rw [hfd, hfds.1]
    exact h.isOpen c hc
  accepted fd := by
    rw [hfds.2.1, h.accepted, hcreated]
    simp only [hfd]
  noneClosed := hfds.2.2.trans h.noneClosed

/-- How the server, its connections, the Poller and the queued functors hang together while the
connections lead the lives `life`. -/
structure Inv (w : World) (life : ℕ → Life) : Prop where
  wellFormed : w.poller.WellFormed
  acceptReady : AcceptReady w.poller
  wakeup : w.poller.Enabled .wakeup
  timerfd : w.poller.Enabled .timerfd
  absent : ∀ k, life k = .absent ↔ w.created ≤ k
  trace : ∀ k, Lifecycle (life k) (w.trace k)
  noObject : ∀ k, w.created ≤ k → w.connection k = none
  object : ∀ k < w.created, ∃ conn, w.connection k = some conn ∧ conn.state = (life k).state ∧
    conn.Keeps w.server (w.poller.channel (.connection k)).fd k
  registered : ∀ k, w.poller.Registered (.connection k) ↔ (life k).registered = true
  enabled : ∀ k, life k = .opened → (w.poller.channel (.connection k)).events = Channel.kReadEvent
  disabled : ∀ k n, life k = .closing n → (w.poller.channel (.connection k)).events = Channel.kNoneEvent
  descriptors : w.Descriptors
  connections : ∀ n k, w.server.connections.find n = some k ↔
    life k = .opened ∧ n = w.server.connectionName (k + 1)
  callbacks : w.server.newConnectionCallback = true ∧ w.server.connectionCallback = true ∧
    w.server.messageCallback = true
  nextConnectId : w.server.nextConnectId = w.created
  functors : ∀ k, (w.loop.pendingFunctors ++ w.stage.unstarted).count (.connectDestoryed k) =
    if (life k).isClosing then 1 else 0
  closing : ∀ k n, life k = .closing n → n = w.iteration
  looping : w.stage = .outside → w.loop.looping = false
  stage : w.stage.Inv life w.poller w.loop.pendingFunctors

theorem Inv.live_of_registered (h : w.Inv life) (hc : w.poller.Registered c) : c.Live w.created := by
  cases c with
  | connection k =>
    by_contra hlive
    have habs := (h.absent k).mpr (not_lt.mp hlive)
    have hreg := (h.registered k).mp hc
    simp [habs, Life.registered] at hreg
  | _ => trivial

theorem Inv.events (h : w.Inv life) (hc : w.poller.Registered c) :
    w.poller.Enabled c ∨ ∃ k n, c = .connection k ∧ life k = .closing n := by
  cases c with
  | wakeup => exact Or.inl h.wakeup
  | timerfd => exact Or.inl h.timerfd
  | accept =>
    rcases h.acceptReady with ha | ⟨ha, _⟩
    · exact Or.inl ha
    · exact absurd hc ha
  | connection k =>
    have hreg := (h.registered k).mp hc
    cases hk : life k with
    | absent => simp [hk, Life.registered] at hreg
    | opened => exact Or.inl ⟨hc, h.enabled k hk⟩
    | closing n => exact Or.inr ⟨k, n, rfl, hk⟩
    | closed => simp [hk, Life.registered] at hreg

theorem Inv.opened_of_enabled (h : w.Inv life) (hc : w.poller.Enabled (.connection k)) : life k = .opened := by
  rcases h.events hc.1 with _ | ⟨k', n, hk, hlife⟩
  · have hreg := (h.registered k).mp hc.1
    cases hk : life k with
    | absent => simp [hk, Life.registered] at hreg
    | opened => rfl
    | closing n => exact absurd (hc.2.symm.trans (h.disabled k n hk)) Channel.kReadEvent_ne_none
    | closed => simp [hk, Life.registered] at hreg
  · obtain rfl : k = k' := by simpa using hk
    exact absurd (hc.2.symm.trans (h.disabled k n hlife)) Channel.kReadEvent_ne_none

section Frame

theorem Frame.enabled (hf : Frame w w') (hc : w.poller.Enabled c) : w'.poller.Enabled c := hf.poller.enabled hc

theorem Frame.trace (hf : Frame w w') (k : ℕ) : w'.trace k = w.trace k := by rw [World.trace, hf.log, World.trace]

theorem Frame.connectionName (hf : Frame w w') (k : ℕ) : w'.server.connectionName k = w.server.connectionName k := by
  obtain ⟨s, l, hs⟩ := hf.server
  rw [hs]
  rfl

theorem Frame.count (hf : Frame w w') (k : ℕ) :
    w'.loop.pendingFunctors.count (.connectDestoryed k) = w.loop.pendingFunctors.count (.connectDestoryed k) := by
  obtain ⟨fs, hfs⟩ := hf.functors
  have huser : (fs.map Functor.user).count (.connectDestoryed k) = 0 := by
    apply List.count_eq_zero.mpr
    simp
  rw [hfs, List.count_append, huser, add_zero]

theorem Frame.object (hf : Frame w w') {conn : TcpConnection} (hconn : w.connection k = some conn) :
    ∃ buf, w'.connection k = some { conn with inputBuffer := buf } := by
  rcases hf.connection k with ⟨hn, _⟩ | ⟨conn', buf, hc, hc'⟩
  · simp [hn] at hconn
  · obtain rfl : conn' = conn := by simpa [hc] using hconn
    exact ⟨buf, hc'⟩

theorem Frame.stageInv (hf : Frame w w') {st : LoopStage} (h : st.Inv life w.poller w.loop.pendingFunctors) :
    st.Inv life w'.poller w'.loop.pendingFunctors := by
  cases st with
  | outside => exact h
  | between => exact h
  | dispatch rest => exact ⟨h.1, fun c hc => hf.enabled (h.2 c hc)⟩
  | pending rest functors =>
    refine ⟨fun k => ?_, h.2⟩
    apply List.count_eq_zero.mp
    rw [hf.count k]
    exact List.count_eq_zero.mpr (h.1 k)

theorem Inv.frame (h : w.Inv life) (hf : Frame w w') : w'.Inv life where
  wellFormed := hf.poller.wellFormed
  acceptReady := hf.poller.acceptReady
  wakeup := hf.enabled h.wakeup
  timerfd := hf.enabled h.timerfd
  absent k := by rw [h.absent k, hf.created]
  trace k := hf.trace k ▸ h.trace k
  noObject k hk := by
    have hnone := h.noObject k (hf.created ▸ hk)
    rcases hf.connection k with ⟨_, hn⟩ | ⟨conn, _, hc, _⟩
    · exact hn
    · simp [hnone] at hc
  object k hk := by
    obtain ⟨conn, hconn, hstate, hkeeps⟩ := h.object k (hf.created ▸ hk)
    obtain ⟨buf, hbuf⟩ := hf.object hconn
    refine ⟨_, hbuf, hstate, ?_⟩
    exact ⟨by rw [hf.connectionName]; exact hkeeps.name, by rw [hf.poller.fd]; exact hkeeps.socketFd,
      hkeeps.connectionCallback, hkeeps.messageCallback, hkeeps.closeCallback⟩
  registered k := (hf.poller.registered _ (by simp)).trans (h.registered k)
  enabled k hk := by
    rw [hf.poller.events _ (by simp)]
    exact h.enabled k hk
  disabled k n hk := by
    rw [hf.poller.events _ (by simp)]
    exact h.disabled k n hk
  descriptors := h.descriptors.of_eq hf.poller.fd hf.created hf.fds
  connections n k := by
    rw [hf.connectionName]
    obtain ⟨s, l, hs⟩ := hf.server
    rw [hs]
    exact h.connections n k
  callbacks := by
    obtain ⟨s, l, hs⟩ := hf.server
    rw [hs]
    exact h.callbacks
  nextConnectId := by
    obtain ⟨s, l, hs⟩ := hf.server
    rw [hs, hf.created]
    exact h.nextConnectId
  functors k := by
    rw [List.count_append, hf.count, hf.stage, ← List.count_append]
    exact h.functors k
  closing k n hk := by
    rw [hf.iteration]
    exact h.closing k n hk
  looping hstage := hf.looping.trans (h.looping (hf.stage ▸ hstage))
  stage := by
    rw [hf.stage]
    exact hf.stageInv h.stage

theorem Inv.userCode (h : w.Inv life) (acts : List UserAction) :
    ∃ w', w.userCode .debug acts = .ok w' ∧ w'.Inv life ∧ Frame w w' := by
  obtain ⟨w', hok, hf⟩ := userCode_ok (b := .debug) acts h.wellFormed h.acceptReady
  exact ⟨w', hok, h.frame hf, hf⟩

theorem Inv.sameTable (h : w.Inv life) {p : Poller ChannelId} (hs : Poller.SameTable w.poller p) :
    ({ w with poller := p } : World).Inv life := by
  apply h.frame
  exact { Frame.refl h.wellFormed h.acceptReady with poller := .of_sameTable hs h.wellFormed h.acceptReady }

end Frame

end World

end Penduo
