import Penduo.PollerRuns
import Penduo.ServerSteps

set_option autoImplicit false

namespace Penduo

open LabelledRuns

namespace World

variable {w w0 : World} {life : ℕ → Life} {fds : BaseFds} {serverName : String} {es : List ServerEvent}

section Construct

def built (fds : BaseFds) : Poller ChannelId :=
  ((Poller.new fds.fd).append .timerfd Channel.kReadEvent).append .wakeup Channel.kReadEvent

theorem timerfd_absent (fds : BaseFds) :
    (((Poller.new fds.fd).channel .timerfd).fd : ℤ) ∉ (Poller.new fds.fd).channels := by
  simp [Poller.new]

theorem wakeup_absent (fds : BaseFds) :
    ((((Poller.new fds.fd).append .timerfd Channel.kReadEvent).channel .wakeup).fd : ℤ) ∉
      ((Poller.new fds.fd).append .timerfd Channel.kReadEvent).channels := by
  have hdistinct := fds.distinct
  simp only [List.nodup_cons, List.mem_cons, not_or] at hdistinct
  rw [← FiniteMap.find_eq_none, Poller.append, FiniteMap.find_assign, if_neg]
  · exact FiniteMap.find_empty
  · simp [Poller.new, Channel.new, BaseFds.fd]
    omega

theorem construct_eq (b : Build) (fds : BaseFds) (serverName : String) :
    construct b fds serverName = .ok { blank fds serverName with poller := built fds } := by
  have htimerfd : Channel.enableReading b (Poller.new fds.fd) .timerfd =
      .ok ((Poller.new fds.fd).append .timerfd Channel.kReadEvent) := by
    apply Poller.enableReading_new
    · exact (Poller.new_wellFormed _).events _
    · simp [Poller.new, Channel.new]
    · exact timerfd_absent fds
  have hwakeup : Channel.enableReading b ((Poller.new fds.fd).append .timerfd Channel.kReadEvent) .wakeup =
      .ok (built fds) := by
    apply Poller.enableReading_new
    · simp [Poller.append, Poller.new, Channel.new, Channel.EventMask]
    · simp [Poller.append, Poller.new, Channel.new]
    · exact wakeup_absent fds
  simp [construct, blank, htimerfd, hwakeup]

theorem built_wellFormed (fds : BaseFds) : (built fds).WellFormed := by
  apply Poller.append_wellFormed
  · exact Poller.append_wellFormed (Poller.new_wellFormed _) (timerfd_absent fds) (Or.inr rfl)
  · exact wakeup_absent fds
  · exact Or.inr rfl

theorem built_fd (fds : BaseFds) (c : ChannelId) : ((built fds).channel c).fd = fds.fd c := by
  rw [built, Poller.append_fd, Poller.append_fd]
  rfl

theorem built_registered (fds : BaseFds) (c : ChannelId) :
    (built fds).Registered c ↔ c = .wakeup ∨ c = .timerfd := by
  rw [built, Poller.append_registered (wakeup_absent fds), Poller.append_registered (timerfd_absent fds)]
  simp [Poller.Registered, Poller.new]

theorem built_find (fds : BaseFds) (fd : ℤ) :
    (built fds).channels.find fd =
      if fd = fds.wakeupRead then some .wakeup else if fd = fds.timerfd then some .timerfd else none := by
  simp only [built, Poller.append, FiniteMap.find_assign]
  simp [Poller.new, Channel.new, BaseFds.fd]

theorem built_acceptReady (fds : BaseFds) : AcceptReady (built fds) := by
  have hdistinct := fds.distinct
  simp only [List.nodup_cons, List.mem_cons, not_or] at hdistinct
  right
  refine ⟨by simp [built_registered], by simp [built, Poller.append, Poller.new, Channel.new], ?_⟩
  rw [← FiniteMap.find_eq_none, built_find, built_fd, BaseFds.fd, if_neg, if_neg]
  · omega
  · omega

theorem fd_injective (fds : BaseFds) {c d : ChannelId} (hc : c.Live 0) (hd : d.Live 0) (h : fds.fd c = fds.fd d) :
    c = d := by
  have hdistinct := fds.distinct
  simp only [List.nodup_cons, List.mem_cons, not_or] at hdistinct
  cases c <;> cases d <;> simp_all [BaseFds.fd, ChannelId.Live]

theorem construct_inv (h : construct .debug fds serverName = .ok w0) : w0.Inv fun _ => .absent := by
  rw [construct_eq, Except.ok.injEq] at h
  subst h
  constructor
  case wellFormed => exact built_wellFormed fds
  case acceptReady => exact built_acceptReady fds
  case wakeup => exact ⟨(built_registered fds _).mpr (Or.inl rfl), by simp [built, Poller.append]⟩
  case timerfd => exact ⟨(built_registered fds _).mpr (Or.inr rfl), by simp [built, Poller.append]⟩
  case absent => simp [blank]
  case trace => exact fun _ => .absent
  case noObject => exact fun _ _ => rfl
  case object => exact fun k hk => absurd hk (Nat.not_lt_zero k)
  case registered => simp [built_registered, Life.registered]
  case enabled => simp
  case disabled => simp
  case descriptors =>
    constructor
    · intro c d hc hd hfd
      simp only [built_fd] at hfd
      exact fd_injective fds hc hd hfd
    · intro c hc
      simp only [built_fd]
      cases c with
      | connection k => exact absurd hc (Nat.not_lt_zero k)
      | _ => simp [blank, BaseFds.fd]
    · simp [blank]
    · rfl
  case connections => simp [blank]
  case callbacks => exact ⟨rfl, rfl, rfl⟩
  case nextConnectId => rfl
  case functors => exact fun _ => rfl
  case closing => simp
  case looping => exact fun _ => rfl
  case stage => exact fun _ => rfl

end Construct

section Run

def Next {α : Type} [UserCode α] (w : World) (e : ServerEvent α) (w' : World) : Prop := w.step .debug e = some (.ok w')

theorem Inv.next {w' : World} {e : ServerEvent} (h : w.Inv life) (hn : w.Next e w') : ∃ life', w'.Inv life' := by
  obtain ⟨x, hx⟩ : ∃ x, x = Except.ok (ε := Fault) w' := ⟨_, rfl⟩
  have hends := h.step (hn.trans (congrArg some hx.symm))
  cases hends with
  | returns life h =>
    obtain rfl := Except.ok.inj hx
    exact ⟨_, h⟩
  | fatal => exact absurd hx (by simp)
  | overflow => exact absurd hx (by simp)

theorem run_inv (hw0 : construct .debug fds serverName = .ok w0) (hrun : Run Next w0 es w) : ∃ life, w.Inv life :=
  hrun.invariant (I := fun w => ∃ life, w.Inv life) (fun _ _ _ ⟨_, h⟩ hn => h.next hn) ⟨_, construct_inv hw0⟩

structure Settled (w : World) : Prop where
  connections : ∀ name k, w.server.connections.find name = some k ↔
    ∃ conn, w.connection k = some conn ∧ conn.state = .connected ∧ conn.name = name
  names : ∀ j k conn conn', w.connection j = some conn → w.connection k = some conn' → conn.name = conn'.name → j = k
  entry : ∀ k conn, w.connection k = some conn → conn.state = .connected →
    ∃ r, w.poller.pollfds.filter (fun e => e.fd = (conn.socketFd : ℤ) ∨ e.fd = ~~~(conn.socketFd : ℤ)) =
      [⟨conn.socketFd, Channel.kReadEvent.toInt16, r⟩]
  ran : ∀ k i, (.queued, i) ∈ w.trace k → (.connectDestoryed, ⟨i.iteration, .pending⟩) ∈ w.trace k

theorem Inv.of_object (h : w.Inv life) {k : ℕ} {conn : TcpConnection} (hconn : w.connection k = some conn) :
    conn.state = (life k).state ∧ conn.Keeps w.server (w.poller.channel (.connection k)).fd k := by
  have hk : k < w.created := by
    by_contra hlt
    simp [h.noObject k (not_lt.mp hlt)] at hconn
  obtain ⟨conn', hconn', hstate, hkeeps⟩ := h.object k hk
  obtain rfl : conn' = conn := Option.some.inj (hconn'.symm.trans hconn)
  exact ⟨hstate, hkeeps⟩

theorem Inv.opened_of_connected (h : w.Inv life) (hquiet : ∀ k, (life k).isClosing = false) {k : ℕ}
    {conn : TcpConnection} (hconn : w.connection k = some conn) (hstate : conn.state = .connected) : life k = .opened := by
  rw [(h.of_object hconn).1] at hstate
  have hclosing := hquiet k
  cases hk : life k with
  | opened => rfl
  | closing n => simp [hk, Life.isClosing] at hclosing
  | absent => simp [hk, Life.state] at hstate
  | closed => simp [hk, Life.state] at hstate

theorem Inv.entry_of_enabled (h : w.Inv life) {c : ChannelId} (hc : w.poller.Enabled c) :
    ∃ r, w.poller.pollfds.filter
      (fun e => e.fd = ((w.poller.channel c).fd : ℤ) ∨ e.fd = ~~~((w.poller.channel c).fd : ℤ)) =
        [⟨(w.poller.channel c).fd, Channel.kReadEvent.toInt16, r⟩] := by
  obtain ⟨⟨fd, events, r⟩, hfilter, hfd, hevents⟩ := h.wellFormed.entries_of_fd hc.1
  refine ⟨r, hfilter.trans ?_⟩
  rw [hc.2] at hevents
  rcases hfd with hfd | ⟨_, hnone⟩
  · rw [← hevents, Int16.toInt16_toInt32, ← hfd]
  · exact absurd (hc.2.symm.trans hnone) Channel.kReadEvent_ne_none

theorem Inv.settled (h : w.Inv life) (hquiet : ∀ k, (life k).isClosing = false) : w.Settled where
  connections name k := by
    rw [h.connections]
    constructor
    · rintro ⟨hk, rfl⟩
      obtain ⟨conn, hconn, hstate, hkeeps⟩ := h.object k (h.lt_created (by simp [hk]))
      exact ⟨conn, hconn, by rw [hstate, hk]; rfl, hkeeps.name⟩
    · rintro ⟨conn, hconn, hstate, rfl⟩
      exact ⟨h.opened_of_connected hquiet hconn hstate, (h.of_object hconn).2.name⟩
  names j k conn conn' hj hk hname := by
    rw [(h.of_object hj).2.name, (h.of_object hk).2.name] at hname
    simpa using w.server.connectionName_inj hname
  entry k conn hconn hstate := by
    have hk := h.opened_of_connected hquiet hconn hstate
    have hreg := (h.registered k).mpr (by simp [hk, Life.registered])
    rw [(h.of_object hconn).2.socketFd]
    exact h.entry_of_enabled ⟨hreg, h.enabled k hk⟩
  ran k i hmem := by
    have htrace := h.trace k
    have hclosing := hquiet k
    cases hk : life k with
    | absent =>
      rw [hk] at htrace
      simp [htrace.absent_shape] at hmem
    | opened =>
      rw [hk] at htrace
      simpa using htrace.opened_mem hmem
    | closing n => simp [hk, Life.isClosing] at hclosing
    | closed =>
      rw [hk] at htrace
      exact htrace.closed_ran hmem

/-- Whatever the kernel and the peers do, every connection leads one orderly life, the tables agree
between iterations, and only `LOG_FATAL` or the end of the connection numbers stops the server. -/
theorem connections_orderly (hw0 : construct .debug fds serverName = .ok w0) (hrun : Run Next w0 es w) :
    (∀ k, Orderly (w.trace k)) ∧
      (∀ k conn, w.connection k = some conn → (states (w.trace k)).getLast? = some conn.state) ∧
      (w.stage = .between ∨ w.stage = .outside → w.Settled) ∧
      ∀ (e : ServerEvent) f, w.step .debug e = some (.error f) → f = .fatal ∨ f = .undefinedBehaviour ∧ 2 ^ 31 ≤ w.created + 1 := by
  obtain ⟨life, h⟩ := run_inv hw0 hrun
  refine ⟨fun k => (h.trace k).orderly, fun k conn hconn => ?_, fun hstage => h.settled (h.quiet hstage), ?_⟩
  · rw [(h.of_object hconn).1]
    apply (h.trace k).getLast_states
    intro hlife
    simp [h.noObject k ((h.absent k).mp hlife)] at hconn
  · intro e f hstep
    obtain ⟨x, hx⟩ : ∃ x, x = Except.error (α := World) f := ⟨_, rfl⟩
    have hends := h.step (hstep.trans (congrArg some hx.symm))
    cases hends with
    | returns _ _ => exact absurd hx (by simp)
    | fatal => exact Or.inl (Except.error.inj hx).symm
    | overflow hfull => exact Or.inr ⟨(Except.error.inj hx).symm, hfull⟩

section Advance

variable {α : Type} [UserCode α]

def advance (w : World) (e : ServerEvent α) : Option World := (w.step .debug e).bind Except.toOption

theorem next_of_advance {w' : World} {e : ServerEvent α} (h : LabelledRuns.Next advance w e w') : w.Next e w' := by
  obtain ⟨x, hx, hok⟩ := Option.bind_eq_some_iff.mp h
  cases x with
  | error f => simp [Except.toOption] at hok
  | ok v =>
    obtain rfl : v = w' := by simpa [Except.toOption] using hok
    exact hx

theorem run_of_advance {β : Type} (fds : BaseFds) (serverName : String) (es : List (ServerEvent α)) (f : World → β) {a : β}
    (h : (exec advance { blank fds serverName with poller := built fds } es).map f = some a) :
    ∃ w0 w, construct .debug fds serverName = .ok w0 ∧ Run Next w0 es w ∧ f w = a := by
  obtain ⟨w, hrun, hf⟩ := run_of_exec_map f h
  exact ⟨_, w, construct_eq _ _ _, hrun.mono fun _ _ _ hn => next_of_advance hn, hf⟩

end Advance

def exampleFds : BaseFds := ⟨3, 4, 5, 6, by decide⟩

def readable (is : List ℕ) : PollResult := ⟨is.length, fun i => if i ∈ is then Poll.pollin.toInt16 else 0⟩

def accepts (fd : ℕ) (acts : List UserAction) : HandlerInput :=
  { accepted := .connected fd, errno := 0, readFd := ⟨1, ⟨[]⟩⟩, acts }

def reads (n : Int64) : HandlerInput :=
  { accepted := .failed Errno.eagain, errno := 0, readFd := ⟨n, ⟨[]⟩⟩, acts := [] }

end Run

end World

end Penduo
