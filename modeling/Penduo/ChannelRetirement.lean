import Penduo.OwnerSteps

set_option autoImplicit false

namespace Penduo

namespace Owners

open LabelledRuns

namespace Program

variable {p p' q : Program} {s k : ℕ} {a : AcceptorId} {c : ChannelId}

theorem ChannelsSound.retired (h : p.ChannelsSound) (hc : ¬ p.InUse c) : p.Retired c where
  noneEvent := h.lists.noneEvent c hc
  added := h.not_added hc
  absent fd hfind := by
    have hreg := ((h.lists.wellFormed.find_iff fd c).mp hfind).1
    exact hc ((h.lists.registered c).mp hreg)

theorem Retired.of_poller (h : p.Retired c) (hpoller : q.poller = p.poller) : q.Retired c := by
  constructor
  · rw [hpoller]
    exact h.noneEvent
  · rw [hpoller]
    exact h.added
  · rw [hpoller]
    exact h.absent

theorem ChannelsSound.not_inUse_of_retired (h : p.ChannelsSound) (hr : p.Retired c) : ¬ p.InUse c := by
  rw [← h.lists.added_iff, hr.added]
  simp

theorem ChannelsSound.acceptor_destroy (h : p.ChannelsSound) (ha : p.listening a = some false) :
    Acceptor.destroy .debug p a = .ok { p with acceptors := AList.erase a p.acceptors } := by
  obtain ⟨acceptor, hacceptor, _⟩ := Option.map_eq_some_iff.mp ha
  have hnot : ¬ p.InUse (.accept a) := by simp [InUse, ha]
  simp only [Acceptor.destroy, hacceptor, require, h.destroy_idle hnot, ok_bind, pure_eq_ok]

theorem Sound.acceptor_retires (h : p.Sound) {a : ℕ} (ha : .alone a ∈ p.acceptors) :
    p.Retires (.acceptor a) ↔ p.Inactive (.acceptor a) := by
  obtain ⟨acceptor, hacceptor⟩ := FiniteMap.mem_iff_find.mp ha
  have hlistening : p.listening (.alone a) = some acceptor.listening := by rw [listening, hacceptor, Option.map_some]
  constructor
  · rintro ⟨_, hretired⟩
    have hnot := h.channels.not_inUse_of_retired hretired
    simp only [InUse, hlistening, Option.some.injEq, Bool.not_eq_true] at hnot
    simp [Inactive, hacceptor, hnot]
  · intro hinactive
    have hfalse : p.listening (.alone a) = some false := hinactive
    have hnot : ¬ p.InUse (.accept (.alone a)) := by simp [InUse, hfalse]
    exact ⟨⟨_, h.channels.acceptor_destroy hfalse⟩, h.channels.retired hnot⟩

theorem Sound.server_retires (h : p.Sound) (hs : s ∈ p.servers) :
    p.Retires (.tcpServer s) ↔ p.Inactive (.tcpServer s) := by
  obtain ⟨server, hserver⟩ := FiniteMap.mem_iff_find.mp hs
  have hstarted : p.started s = some server.started := by rw [started, hserver, Option.map_some]
  constructor
  · rintro ⟨q, hok, _⟩
    obtain ⟨_, hfound, hok⟩ := bind_eq_ok.mp hok
    obtain rfl := Option.some.inj (hserver.symm.trans (require_eq_ok.mp hfound))
    obtain ⟨v, hv, hok⟩ := bind_eq_ok.mp hok
    obtain ⟨u, hu, _⟩ := bind_eq_ok.mp hok
    have hcleared : ({ p with servers := p.servers.assign s { server with connections := ∅ } } : Program).Sound :=
      ⟨{ h.channels with }, h.servers.update hserver _ rfl fun _ => rfl⟩
    obtain ⟨hreleased, hpoller⟩ := releaseConnections_sound hcleared _ v hv
    have hadded := hreleased.channels.not_added (acceptorDestroy_ok hreleased hu).1
    rw [hpoller] at hadded
    have hnot : ¬ p.InUse (.accept (.ofServer s)) := by
      rw [← h.channels.lists.added_iff, hadded]
      simp
    simp only [InUse, ← h.servers.started s, hstarted, Option.some.injEq, Bool.not_eq_true] at hnot
    simp [Inactive, hserver, hnot]
  · intro hinactive
    have hfalse : p.started s = some false := hinactive
    have hnot : ¬ p.InUse (.accept (.ofServer s)) := by simp [InUse, ← h.servers.started s, hfalse]
    have hunstarted : server.started = false := Option.some.inj (hstarted.symm.trans hfalse)
    have hempty : server.connections = ∅ := h.servers.unstarted s server hserver hunstarted
    have hlistening : p.listening (.ofServer s) = some false := (h.servers.started s).symm.trans hfalse
    have hentries : server.connections.entries = [] := by rw [hempty]; rfl
    have hcleared : ({ p with servers := p.servers.assign s { server with connections := ∅ } } :
      Program).ChannelsSound := { h.channels with }
    have hok := hcleared.acceptor_destroy hlistening
    have hdestroy : ∃ q, TcpServer.destroy .debug p s = .ok q ∧ q.poller = p.poller := by
      simp only [TcpServer.destroy, hserver, require, hentries, List.map_nil, List.foldlM_nil, hok, ok_bind,
        pure_eq_ok]
      exact ⟨_, rfl, rfl⟩
    obtain ⟨q, hq, hpoller⟩ := hdestroy
    refine ⟨q, hq, (h.channels.retired hnot).of_poller hpoller, fun k hmaker => ?_⟩
    have htrue := h.servers.maker k s hmaker
    simp [hfalse] at htrue

theorem Sound.connection_retires (h : p.Sound) (hk : k ∈ p.connections) (hrefs : p.strongRefs k = 0) :
    p.Retires (.tcpConnection k) ↔ p.Inactive (.tcpConnection k) := by
  obtain ⟨conn, hconn⟩ := FiniteMap.mem_iff_find.mp hk
  have hstate : p.state k = some conn.state := by rw [state, hconn, Option.map_some]
  constructor
  · rintro ⟨_, hretired⟩
    have hnot := h.channels.not_inUse_of_retired hretired
    have hestablished := h.channels.established k
    simp only [InUse, not_or] at hnot
    rw [Inactive, hconn, Option.map_some]
    cases hst : conn.state with
    | connecting => simp [hstate, hst] at hestablished
    | connected => simp [hstate, hst] at hnot
    | disConnected => rfl
  · intro hinactive
    have hnot : ¬ p.InUse (.connection k) := by
      have hdisConnected : p.state k = some .disConnected := hinactive
      rintro (hconnected | hdestorying)
      · simp [hdisConnected] at hconnected
      · have hmem := h.channels.unfinished _ (Stage.mem_unfinished hdestorying)
        have hpos := List.count_pos_iff.mpr hmem
        unfold strongRefs at hrefs
        omega
    refine ⟨⟨{ p with connections := AList.erase k p.connections }, ?_⟩, h.channels.retired hnot⟩
    simp only [destroyConnection, hconn, require, h.channels.destroy_idle hnot, ok_bind, pure_eq_ok]

/-- The owners whose destruction goes well are those that are inactive. -/
theorem retires_iff {timerfd wakeupfd : ℕ} {p0 : Program} {es : List Event}
    (hp0 : EventLoop.construct .debug timerfd wakeupfd = .ok p0) (hrun : Run Next p0 es p)
    {owner : Owner} (howner : p.Destroyable owner) : p.Retires owner ↔ p.Inactive owner := by
  have h := run_sound hp0 hrun
  cases owner with
  | eventLoop =>
    have hfails : ¬ p.Retires .eventLoop := fun hr => h.channels.not_inUse_of_retired hr.2.1 trivial
    simp [hfails, Inactive]
  | timerQueue =>
    have hfails : ¬ p.Retires .timerQueue := fun hr => h.channels.not_inUse_of_retired hr.2 trivial
    simp [hfails, Inactive]
  | acceptor a => exact h.acceptor_retires howner
  | tcpServer s => exact h.server_retires howner
  | tcpConnection k => exact h.connection_retires howner.1 howner.2

def advance (p : Program) (e : Event) : Option Program := (p.step .debug e).bind Except.toOption

theorem next_of_advance {e : Event} (h : LabelledRuns.Next advance p e p') : p.Next e p' := by
  obtain ⟨x, hx, hok⟩ := Option.bind_eq_some_iff.mp h
  cases x with
  | error f => simp [Except.toOption] at hok
  | ok v =>
    obtain rfl : v = p' := by simpa [Except.toOption] using hok
    exact hx

theorem run_of_constructed {α : Type} {es : List Event} (f : Program → α) {x : α}
    (h : ((EventLoop.construct .debug 3 4).toOption.bind fun p => exec advance p es).map f = some x) :
    ∃ p0 p, EventLoop.construct .debug 3 4 = .ok p0 ∧ Run Next p0 es p ∧ f p = x := by
  cases hp0 : EventLoop.construct .debug 3 4 with
  | error f => simp [hp0, Except.toOption] at h
  | ok p0 =>
    simp only [hp0, Except.toOption, Option.bind_some] at h
    obtain ⟨p, hrun, hf⟩ := run_of_exec_map f h
    exact ⟨p0, p, rfl, hrun.mono fun _ _ _ hn => next_of_advance hn, hf⟩

def readyAt (slot : ℕ) : PollResult := ⟨1, fun i => if i = slot then Poll.pollin.toInt16 else 0⟩

-- One server accepts a client that closes again, another is never started, and an acceptor never listens. The
-- connection callback resets the close callback, which holds the last pointer.
def closedConnection : List Event :=
  [.newAcceptor 0 6 0, .newServer 0 "started" 7 0, .newServer 1 "idle" 8 0, .setServerCallbacks 0 true true,
    .start 0 0, .enter, .poll (readyAt 2), .handle ⟨.connected 9, 0, 0, 0⟩, .handled, .takePending, .finish,
    .finished, .poll (readyAt 3), .handle ⟨.failed 0, 0, 0, 1⟩, .handled, .takePending, .run,
    .setCloseCallback 0 false, .ran, .finish, .release]

theorem retires_iff_closed : ∃ p0 p, EventLoop.construct .debug 3 4 = .ok p0 ∧ Run Next p0 closedConnection p ∧
    ∀ owner ∈ [Owner.acceptor 0, .tcpServer 1, .tcpConnection 0], p.Retires owner := by
  obtain ⟨p0, p, hp0, hrun, hend⟩ := run_of_constructed
    (fun p => (p.listening (.alone 0), p.started 1, p.state 0, p.strongRefs 0))
    (show ((EventLoop.construct .debug 3 4).toOption.bind fun p => exec advance p closedConnection).map _ =
      some (some false, some false, some .disConnected, 0) by decide +kernel)
  simp only [Prod.mk.injEq] at hend
  obtain ⟨hacceptor, hserver, hconnection, hrefs⟩ := hend
  obtain ⟨_, ha, _⟩ := Option.map_eq_some_iff.mp hacceptor
  obtain ⟨_, hs, _⟩ := Option.map_eq_some_iff.mp hserver
  obtain ⟨_, hk, _⟩ := Option.map_eq_some_iff.mp hconnection
  refine ⟨p0, p, hp0, hrun, fun owner howner => ?_⟩
  simp only [List.mem_cons, List.not_mem_nil, or_false] at howner
  rcases howner with rfl | rfl | rfl
  · have hdestroyable : p.Destroyable (.acceptor 0) := FiniteMap.mem_of_find ha
    exact (retires_iff hp0 hrun hdestroyable).mpr hacceptor
  · have hdestroyable : p.Destroyable (.tcpServer 1) := FiniteMap.mem_of_find hs
    exact (retires_iff hp0 hrun hdestroyable).mpr hserver
  · have hdestroyable : p.Destroyable (.tcpConnection 0) := ⟨FiniteMap.mem_of_find hk, hrefs⟩
    exact (retires_iff hp0 hrun hdestroyable).mpr hconnection

def destroyed (p : Program) : List (Option Fault) :=
  [faultOf (TcpServer.destroy .debug p 0), faultOf (Acceptor.destroy .debug p (.alone 0)),
    faultOf (EventLoop.destroy .debug p), faultOf (TimerQueue.destroy .debug p)]

theorem started_server_asserts : ∃ p0 p, EventLoop.construct .debug 3 4 = .ok p0 ∧
    Run Next p0 [.newServer 0 "server" 7 0, .start 0 0, .newAcceptor 0 8 0, .listen 0 0] p ∧
      ∀ owner ∈ [Owner.tcpServer 0, .acceptor 0, .eventLoop, .timerQueue],
        p.Destroyable owner ∧ ¬ p.Retires owner := by
  obtain ⟨p0, p, hp0, hrun, hend⟩ := run_of_constructed
    (fun p => (decide (0 ∈ p.servers), decide (.alone 0 ∈ p.acceptors), destroyed p))
    (show ((EventLoop.construct .debug 3 4).toOption.bind fun p => exec advance p
        [.newServer 0 "server" 7 0, .start 0 0, .newAcceptor 0 8 0, .listen 0 0]).map _ =
      some (true, true, List.replicate 4 (some (.assertion .destroyAdded))) by decide +kernel)
  simp only [destroyed, Prod.mk.injEq, List.replicate, List.cons.injEq, faultOf_eq_some, and_true,
    decide_eq_true_eq] at hend
  obtain ⟨hserver, hacceptor, htcpServer, halone, heventLoop, htimerQueue⟩ := hend
  refine ⟨p0, p, hp0, hrun, fun owner howner => ?_⟩
  simp only [List.mem_cons, List.not_mem_nil, or_false] at howner
  rcases howner with rfl | rfl | rfl | rfl
  · exact ⟨hserver, by simp [Retires, htcpServer]⟩
  · exact ⟨hacceptor, by simp [Retires, halone]⟩
  · exact ⟨trivial, by simp [Retires, heventLoop]⟩
  · exact ⟨trivial, by simp [Retires, htimerQueue]⟩

end Program

end Owners

end Penduo
