import Penduo.PollReports
import Penduo.ServerLoop

set_option autoImplicit false

namespace Penduo

def Poller.Enabled {κ : Type} [DecidableEq κ] (p : Poller κ) (c : κ) : Prop :=
  p.Registered c ∧ (p.channel c).events = Channel.kReadEvent

def AcceptReady (p : Poller ChannelId) : Prop :=
  p.Enabled .accept ∨
    ¬ p.Registered .accept ∧ (p.channel .accept).pollfdsIndex < 0 ∧
      ((p.channel .accept).fd : ℤ) ∉ p.channels

theorem AcceptReady.rewrite {p : Poller ChannelId} {k : ℕ} {ev : Int32} (h : AcceptReady p) :
    AcceptReady (p.rewrite (.connection k) ev) := by
  rcases h with ⟨hreg, hev⟩ | ⟨hreg, hidx, hfd⟩
  · left
    refine ⟨(Poller.rewrite_registered _).mpr hreg, ?_⟩
    rw [Poller.rewrite_events, if_neg (by simp)]
    exact hev
  · right
    rw [Poller.rewrite_registered, Poller.rewrite_index, Poller.rewrite_fd]
    exact ⟨hreg, hidx, hfd⟩

theorem AcceptReady.unregister {p : Poller ChannelId} {k : ℕ} (h : AcceptReady p)
    (hreg : p.Registered (.connection k)) : AcceptReady (p.unregister (.connection k)) := by
  have hregistered := Poller.unregister_registered hreg
  rcases h with ⟨ha, hev⟩ | ⟨ha, hidx, hfd⟩
  · exact Or.inl ⟨(hregistered _).mpr ⟨ha, by simp⟩, by rw [Poller.unregister_events, hev]⟩
  · right
    refine ⟨fun hu => ha ((hregistered _).mp hu).1, ?_, ?_⟩
    · simpa [Poller.unregister, ha] using hidx
    · rw [Poller.unregister_fd]
      intro hmem
      exact hfd (AList.mem_erase.mp hmem).2

structure PollerFrame (p p' : Poller ChannelId) : Prop where
  wellFormed : p'.WellFormed
  acceptReady : AcceptReady p'
  fd : ∀ c, (p'.channel c).fd = (p.channel c).fd
  events : ∀ c, c ≠ .accept → (p'.channel c).events = (p.channel c).events
  registered : ∀ c, c ≠ .accept → (p'.Registered c ↔ p.Registered c)
  accept : p.Registered .accept → p'.Registered .accept
  masked : ∀ c, c ≠ .accept → p.Registered c → p.Masked c → p'.Masked c

namespace PollerFrame

variable {p p' q : Poller ChannelId}

theorem refl (h : p.WellFormed) (ha : AcceptReady p) : PollerFrame p p :=
  ⟨h, ha, fun _ => rfl, fun _ _ => rfl, fun _ _ => Iff.rfl, id, fun _ _ _ => id⟩

theorem trans (h : PollerFrame p p') (h' : PollerFrame p' q) : PollerFrame p q where
  wellFormed := h'.wellFormed
  acceptReady := h'.acceptReady
  fd c := (h'.fd c).trans (h.fd c)
  events c hc := (h'.events c hc).trans (h.events c hc)
  registered c hc := (h'.registered c hc).trans (h.registered c hc)
  accept ha := h'.accept (h.accept ha)
  masked c hc hreg hm := h'.masked c hc ((h.registered c hc).mpr hreg) (h.masked c hc hreg hm)

theorem of_sameTable (hs : Poller.SameTable p p') (h : p.WellFormed) (ha : AcceptReady p) : PollerFrame p p' where
  wellFormed := hs.wellFormed h
  acceptReady := by
    simpa only [AcceptReady, Poller.Enabled, hs.registered, hs.events, hs.index, hs.fd, hs.channels] using ha
  fd := hs.fd
  events c _ := hs.events c
  registered c _ := hs.registered c
  accept := (hs.registered _).mpr
  masked c _ _ hm := by
    obtain ⟨pfd, hpfd, hfd⟩ := hm
    obtain ⟨r, hr⟩ := hs.entry _ pfd hpfd
    exact ⟨_, by rw [Poller.slotIndex, hs.index]; exact hr, by rw [hs.fd]; exact hfd⟩

theorem enabled (h : PollerFrame p p') {c : ChannelId} (hc : p.Enabled c) : p'.Enabled c := by
  by_cases ha : c = .accept
  · subst ha
    have hreg := h.accept hc.1
    rcases h.acceptReady with henabled | ⟨hnot, _⟩
    · exact henabled
    · exact absurd hreg hnot
  · rw [Poller.Enabled, h.registered c ha, h.events c ha]
    exact hc

theorem enableReading {b : Build} (h : p.WellFormed) (ha : AcceptReady p) :
    ∃ p', Channel.enableReading b p .accept = .ok p' ∧ PollerFrame p p' := by
  have hmask : (p.channel .accept).events ||| Channel.kReadEvent = Channel.kReadEvent := (h.events .accept).or_read
  rw [Poller.enableReading_eq, hmask]
  rcases ha with ⟨hreg, _⟩ | ⟨_, hidx, hfd⟩
  · refine ⟨_, Poller.setEvents_old h hreg b, ?_⟩
    have hregistered : ∀ c, (p.rewrite .accept Channel.kReadEvent).Registered c ↔ p.Registered c :=
      Poller.rewrite_registered
    constructor
    · exact Poller.rewrite_wellFormed h hreg (Or.inr rfl)
    · exact Or.inl ⟨(hregistered .accept).mpr hreg, by simp [Poller.rewrite_events]⟩
    · exact Poller.rewrite_fd
    · intro c hc
      rw [Poller.rewrite_events, if_neg hc]
    · intro c _
      exact hregistered c
    · exact (hregistered .accept).mpr
    · intro c hc hcreg hm
      exact hm.rewrite h hreg hcreg hc
  · refine ⟨_, Poller.setEvents_new hidx hfd b, ?_⟩
    have hregistered : ∀ c, (p.append .accept Channel.kReadEvent).Registered c ↔ c = .accept ∨ p.Registered c :=
      Poller.append_registered hfd
    constructor
    · exact Poller.append_wellFormed h hfd (Or.inr rfl)
    · exact Or.inl ⟨(hregistered .accept).mpr (Or.inl rfl), by simp [Poller.append_events]⟩
    · exact Poller.append_fd
    · intro c hc
      rw [Poller.append_events, if_neg hc]
    · intro c hc
      rw [hregistered c]
      simp [hc]
    · intro _
      exact (hregistered .accept).mpr (Or.inl rfl)
    · intro c hc _ hm
      exact hm.append hc

theorem unregister (hwf : p.WellFormed) (h : PollerFrame p p') {k : ℕ} (hreg : p.Registered (.connection k)) :
    PollerFrame (p.unregister (.connection k)) (p'.unregister (.connection k)) := by
  have hreg' := (h.registered _ (by simp)).mpr hreg
  have hp := Poller.unregister_registered hreg
  have hp' := Poller.unregister_registered hreg'
  constructor
  · exact Poller.unregister_wellFormed h.wellFormed hreg'
  · exact h.acceptReady.unregister hreg'
  · intro c
    rw [Poller.unregister_fd, Poller.unregister_fd, h.fd]
  · intro c hc
    rw [Poller.unregister_events, Poller.unregister_events, h.events c hc]
  · intro c hc
    rw [hp, hp', h.registered c hc]
  · intro ha
    exact (hp' _).mpr ⟨h.accept ((hp _).mp ha).1, by simp⟩
  · intro c hc hcreg hm
    obtain ⟨hcreg, hck⟩ := (hp c).mp hcreg
    have hcreg' := (h.registered c hc).mpr hcreg
    rw [Poller.unregister_masked h.wellFormed hreg' hcreg' hck]
    exact h.masked c hc hcreg ((Poller.unregister_masked hwf hreg hcreg hck).mp hm)

end PollerFrame

namespace World

variable {w w' v : World} {b : Build}

structure Frame (w w' : World) : Prop where
  poller : PollerFrame w.poller w'.poller
  functors : ∃ fs : List ℕ, w'.loop.pendingFunctors = w.loop.pendingFunctors ++ fs.map Functor.user
  looping : w'.loop.looping = w.loop.looping
  connection : ∀ k, (w.connection k = none ∧ w'.connection k = none) ∨
    ∃ conn buf, w.connection k = some conn ∧ w'.connection k = some { conn with inputBuffer := buf }
  server : ∃ started listening, w'.server = { w.server with started := started, listening := listening }
  created : w'.created = w.created
  fds : w'.openFds = w.openFds ∧ w'.acceptedFds = w.acceptedFds ∧ w'.closedFds = w.closedFds
  stage : w'.stage = w.stage
  iteration : w'.iteration = w.iteration
  log : w'.log = w.log

namespace Frame

theorem connection_refl (w : World) (k : ℕ) : (w.connection k = none ∧ w.connection k = none) ∨
    ∃ conn buf, w.connection k = some conn ∧ w.connection k = some { conn with inputBuffer := buf } := by
  cases h : w.connection k with
  | none => exact Or.inl ⟨rfl, rfl⟩
  | some conn => exact Or.inr ⟨conn, conn.inputBuffer, rfl, rfl⟩

theorem refl (h : w.poller.WellFormed) (ha : AcceptReady w.poller) : Frame w w where
  poller := .refl h ha
  functors := ⟨[], by simp⟩
  looping := rfl
  connection := connection_refl w
  server := ⟨_, _, rfl⟩
  created := rfl
  fds := ⟨rfl, rfl, rfl⟩
  stage := rfl
  iteration := rfl
  log := rfl

theorem trans (h : Frame w w') (h' : Frame w' v) : Frame w v where
  poller := h.poller.trans h'.poller
  functors := by
    obtain ⟨fs, hfs⟩ := h.functors
    obtain ⟨fs', hfs'⟩ := h'.functors
    exact ⟨fs ++ fs', by rw [hfs', hfs, List.map_append, List.append_assoc]⟩
  looping := h'.looping.trans h.looping
  connection k := by
    rcases h.connection k with ⟨hn, hn'⟩ | ⟨conn, buf, hc, hc'⟩
    · rcases h'.connection k with ⟨_, hv⟩ | ⟨conn', _, hc, _⟩
      · exact Or.inl ⟨hn, hv⟩
      · simp [hn'] at hc
    · rcases h'.connection k with ⟨hn, _⟩ | ⟨conn', buf', hw', hv⟩
      · simp [hn] at hc'
      · obtain rfl : { conn with inputBuffer := buf } = conn' := by simpa [hc'] using hw'
        exact Or.inr ⟨conn, buf', hc, hv⟩
  server := by
    obtain ⟨s, l, hs⟩ := h.server
    obtain ⟨s', l', hs'⟩ := h'.server
    exact ⟨s', l', by rw [hs', hs]⟩
  created := h'.created.trans h.created
  fds := ⟨h'.fds.1.trans h.fds.1, h'.fds.2.1.trans h.fds.2.1, h'.fds.2.2.trans h.fds.2.2⟩
  stage := h'.stage.trans h.stage
  iteration := h'.iteration.trans h.iteration
  log := h'.log.trans h.log

end Frame

theorem userAction_ok (h : w.poller.WellFormed) (ha : AcceptReady w.poller) (act : UserAction) :
    ∃ w', w.userAction b act = .ok w' ∧ Frame w w' := by
  have hrefl : Frame w w := .refl h ha
  cases act with
  | queueInLoop f =>
    exact ⟨_, rfl, { hrefl with functors := ⟨[f], by simp [queueInLoop]⟩, looping := by simp [queueInLoop] }⟩
  | queueElsewhere f => exact ⟨_, rfl, { hrefl with functors := ⟨[f], rfl⟩ }⟩
  | quit => exact ⟨_, rfl, { hrefl with }⟩
  | receive k =>
    refine ⟨_, rfl, { hrefl with connection := fun j => ?_ }⟩
    by_cases hjk : j = k
    · subst hjk
      cases hj : w.connection j with
      | none => exact Or.inl ⟨rfl, by simp [updateConnection, hj]⟩
      | some conn => exact Or.inr ⟨conn, _, rfl, by simp [updateConnection, hj]; rfl⟩
    · simp only [updateConnection, Function.update_of_ne hjk]
      exact Frame.connection_refl w j
  | start =>
    obtain ⟨p', hok, hframe⟩ := PollerFrame.enableReading (b := b) h ha
    refine ⟨{ w with server := { w.server with started := true, listening := true }, poller := p' }, ?_, ?_⟩
    · simp only [userAction, start, Sockets.listenOrDie_zero, hok, ok_bind, pure_eq_ok]
    · exact { hrefl with poller := hframe, server := ⟨_, _, rfl⟩ }

theorem userCode_ok (acts : List UserAction) (h : w.poller.WellFormed) (ha : AcceptReady w.poller) :
    ∃ w', w.userCode b acts = .ok w' ∧ Frame w w' := by
  induction acts generalizing w with
  | nil => exact ⟨w, rfl, .refl h ha⟩
  | cons act acts ih =>
    obtain ⟨v, hv, hframe⟩ := userAction_ok (b := b) h ha act
    obtain ⟨w', hw', hframe'⟩ := ih hframe.poller.wellFormed hframe.poller.acceptReady
    refine ⟨w', ?_, hframe.trans hframe'⟩
    simp only [userCode_cons, perform_userAction, hv, ok_bind]
    exact hw'

end World

end Penduo
