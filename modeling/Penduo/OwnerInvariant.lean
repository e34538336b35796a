import Penduo.ChannelOwners
import Penduo.ChannelsInUse

set_option autoImplicit false

namespace Penduo

namespace Owners

@[simp] def Stage.unfinished : Stage → List Functor
  | .pending rest _ => rest
  | .running f rest _ => f :: rest
  | _ => []

theorem Stage.mem_unfinished {stage : Stage} {k : ℕ} (h : stage.destorying = some k) :
    .connectDestoryed k ∈ stage.unfinished := by
  cases stage with
  | running f rest functors =>
    cases f with
    | connectDestoryed j =>
      obtain rfl : j = k := Option.some.inj h
      exact List.mem_cons_self
    | user f => simp at h
  | _ => simp at h

theorem Stage.mem_dispatched {stage : Stage} {c : ChannelId} (h : stage.handled = some c) :
    c ∈ stage.dispatched := by
  cases stage with
  | handling d rest =>
    obtain rfl : d = c := Option.some.inj h
    exact List.mem_cons_self
  | _ => simp at h

namespace Program

variable {p p' : Program} {a : AcceptorId} {s k : ℕ} {c : ChannelId}

def listening (p : Program) (a : AcceptorId) : Option Bool := (p.acceptors.find a).map Acceptor.listening

def started (p : Program) (s : ℕ) : Option Bool := (p.servers.find s).map TcpServer.started

def state (p : Program) (k : ℕ) : Option StateE := (p.connections.find k).map TcpConnection.state

/-- The channels that have been enabled and are not removed yet. -/
def InUse (p : Program) : ChannelId → Prop
  | .wakeup | .timerfd => True
  | .accept a => p.listening a = some true
  | .connection k => p.state k = some .connected ∨ p.stage.destorying = some k

structure ChannelsSound (p : Program) : Prop where
  lists : p.poller.Lists p.InUse p.stage.handled
  dispatched : ∀ c ∈ p.stage.dispatched, p.InUse c
  unfinished : ∀ f ∈ p.stage.unfinished, f ∈ p.stage.functors
  established : ∀ k, p.state k ≠ some .connecting
  destorying : ∀ k, p.stage.destorying = some k → p.state k = some .disConnected

structure ServersSound (p : Program) : Prop where
  bound : ∀ a acceptor s, p.acceptors.find a = some acceptor →
    acceptor.newConnectionCallback = some (.newConnection s) → a = .ofServer s
  started : ∀ s, p.started s = p.listening (.ofServer s)
  unstarted : ∀ s server, p.servers.find s = some server → server.started = false → server.connections = ∅
  maker : ∀ k s, p.maker k = some s → p.started s = some true

structure Sound (p : Program) : Prop where
  channels : p.ChannelsSound
  servers : p.ServersSound

section Destroy

theorem ChannelsSound.not_handled (h : p.ChannelsSound) (hc : ¬ p.InUse c) :
    (p.poller.channel c).eventHandling = false := by
  rw [← Bool.not_eq_true]
  intro hhandling
  exact hc (h.dispatched c (Stage.mem_dispatched (h.lists.handling c hhandling)))

theorem ChannelsSound.not_added (h : p.ChannelsSound) (hc : ¬ p.InUse c) :
    (p.poller.channel c).addedToLoop = false := by
  rw [← Bool.not_eq_true, h.lists.added_iff]
  exact hc

theorem ChannelsSound.destroy_idle (h : p.ChannelsSound) (hc : ¬ p.InUse c) (b : Build) :
    Channel.destroy b (p.poller.channel c) = .ok () := by
  have hnone : (p.poller.channel c).isNoneEvent := h.lists.noneEvent c hc
  simp only [Channel.destroy, check_of (h.not_handled hc), check_of (h.not_added hc), check_of hnone, ok_bind]

theorem ChannelsSound.destroy_inUse (h : p.ChannelsSound) :
    Yields (fun _ => ¬ p.InUse c) (Channel.destroy .debug (p.poller.channel c)) := by
  intro u hok
  simp only [Channel.destroy, bind_eq_ok, check_debug_eq_ok] at hok
  obtain ⟨_, _, _, hadded, _⟩ := hok
  rw [← h.lists.added_iff, hadded]
  simp

end Destroy

section Channels

theorem inUse_congr (hlistening : ∀ a, p'.listening a = p.listening a) (hstate : ∀ k, p'.state k = p.state k)
    (hstage : p'.stage.destorying = p.stage.destorying) (c : ChannelId) : p'.InUse c ↔ p.InUse c := by
  cases c with
  | wakeup => exact Iff.rfl
  | timerfd => exact Iff.rfl
  | accept a => simp only [InUse, hlistening]
  | connection k => simp only [InUse, hstate, hstage]

theorem ChannelsSound.same (h : p.ChannelsSound) (hpoller : p'.poller = p.poller) (hstage : p'.stage = p.stage)
    (hlistening : ∀ a, p'.listening a = p.listening a) (hstate : ∀ k, p'.state k = p.state k) :
    p'.ChannelsSound := by
  have huse := inUse_congr hlistening hstate (congrArg Stage.destorying hstage)
  constructor
  · rw [hpoller, hstage]
    exact h.lists.congr huse
  · intro c hc
    rw [hstage] at hc
    exact (huse c).mpr (h.dispatched c hc)
  · rw [hstage]
    exact h.unfinished
  · intro k
    rw [hstate]
    exact h.established k
  · intro k hk
    rw [hstage] at hk
    rw [hstate]
    exact h.destorying k hk

theorem ChannelsSound.restage (h : p.ChannelsSound) {stage : Stage} (loop : EventLoop Functor)
    (hhandled : stage.handled = p.stage.handled) (hdestorying : stage.destorying = p.stage.destorying)
    (hdispatched : ∀ c ∈ stage.dispatched, c ∈ p.stage.dispatched)
    (hunfinished : ∀ f ∈ stage.unfinished, f ∈ stage.functors) :
    ({ p with stage, loop } : Program).ChannelsSound := by
  have huse : ∀ c, ({ p with stage, loop } : Program).InUse c ↔ p.InUse c :=
    inUse_congr (fun _ => rfl) (fun _ => rfl) hdestorying
  constructor
  · have hlists := h.lists.congr huse
    rwa [← hhandled] at hlists
  · intro c hc
    exact (huse c).mpr (h.dispatched c (hdispatched c hc))
  · exact hunfinished
  · exact h.established
  · intro k hk
    exact h.destorying k (hdestorying.symm.trans hk)

theorem ChannelsSound.construct (h : p.ChannelsSound) (ha : a ∉ p.acceptors) (fd : ℕ) (acceptor : Acceptor)
    (hlistening : acceptor.listening = false) :
    ({ p with
        acceptors := p.acceptors.assign a acceptor
        poller := p.poller.setChannel (.accept a) (Channel.new fd) } : Program).ChannelsSound := by
  have hnone : p.listening a = none := by rw [listening, FiniteMap.find_eq_none.mpr ha]; rfl
  have huse : ∀ c, ({ p with
      acceptors := p.acceptors.assign a acceptor
      poller := p.poller.setChannel (.accept a) (Channel.new fd) } : Program).InUse c ↔ p.InUse c := by
    intro c
    cases c with
    | accept a' =>
      simp only [InUse, listening, FiniteMap.map_find_assign]
      split_ifs with ha'
      · simp [ha', hlistening, FiniteMap.find_eq_none.mpr ha]
      · rfl
    | _ => exact Iff.rfl
  constructor
  · apply Poller.Lists.congr _ huse
    exact h.lists.setChannel_new (by simp [InUse, hnone]) fd
  · intro c hc
    exact (huse c).mpr (h.dispatched c hc)
  · exact h.unfinished
  · exact h.established
  · exact h.destorying

theorem ChannelsSound.disableAll (h : p.ChannelsSound) (hc : p.InUse c) {poller : Poller ChannelId}
    (hok : Channel.disableAll .debug p.poller c = .ok poller) : ({ p with poller } : Program).ChannelsSound where
  lists := by
    apply (h.lists.disableAll hok).congr
    intro d
    have hd : d = c ∨ p.InUse d ↔ p.InUse d := or_iff_right_of_imp fun hd => hd ▸ hc
    exact hd.symm
  dispatched := h.dispatched
  unfinished := h.unfinished
  established := h.established
  destorying := h.destorying

end Channels

section Servers

variable {server : TcpServer}

theorem ServersSound.update (h : p.ServersSound) (hs : p.servers.find s = some server) (server' : TcpServer)
    (hstarted : server'.started = server.started) (hempty : server'.started = false → server'.connections = ∅) :
    ({ p with servers := p.servers.assign s server' } : Program).ServersSound := by
  have hsame : ∀ s', ({ p with servers := p.servers.assign s server' } : Program).started s' = p.started s' :=
    FiniteMap.map_find_update hs hstarted
  constructor
  · exact h.bound
  · intro s'
    rw [hsame]
    exact h.started s'
  · intro s' found hfound hnot
    rw [FiniteMap.find_assign] at hfound
    split_ifs at hfound
    · obtain rfl := Option.some.inj hfound
      exact hempty hnot
    · exact h.unstarted s' found hfound hnot
  · intro k s' hmaker
    rw [hsame]
    exact h.maker k s' hmaker

theorem ServersSound.alone (h : p.ServersSound) (a : ℕ) (acceptor : Acceptor)
    (hcallback : ∀ s, acceptor.newConnectionCallback ≠ some (.newConnection s)) :
    ({ p with acceptors := p.acceptors.assign (.alone a) acceptor } : Program).ServersSound where
  bound a' found s hfound hbound := by
    rw [FiniteMap.find_assign] at hfound
    split_ifs at hfound
    · obtain rfl := Option.some.inj hfound
      exact absurd hbound (hcallback s)
    · exact h.bound a' found s hfound hbound
  started s := by
    rw [listening, FiniteMap.map_find_assign, if_neg (by simp)]
    exact h.started s
  unstarted := h.unstarted
  maker := h.maker

theorem ServersSound.alone_callback (h : p.ServersSound) {a : ℕ} {acceptor : Acceptor}
    (ha : p.acceptors.find (.alone a) = some acceptor) (s : ℕ) :
    acceptor.newConnectionCallback ≠ some (.newConnection s) := by
  intro hbound
  exact AcceptorId.noConfusion (h.bound _ _ s ha hbound)

end Servers

section Acceptors

theorem construct_ok {socketFd : ℤ} {bound : Int32} (hok : Acceptor.construct p a socketFd bound = .ok p') :
    ∃ fd, p' = { p with
      acceptors := p.acceptors.assign a { listening := false, newConnectionCallback := none }
      poller := p.poller.setChannel (.accept a) (Channel.new fd) } := by
  obtain ⟨fd, _, hok⟩ := bind_eq_ok.mp hok
  split_ifs at hok
  exact ⟨fd, (Except.ok.inj hok).symm⟩

theorem newAcceptor_sound (h : p.Sound) {a : ℕ} (ha : .alone a ∉ p.acceptors) {socketFd : ℤ} {bound : Int32} :
    Yields Sound (Acceptor.construct p (.alone a) socketFd bound) := by
  intro p' hok
  obtain ⟨fd, rfl⟩ := construct_ok hok
  have hservers := h.servers.alone a { listening := false, newConnectionCallback := none } (by simp)
  exact ⟨h.channels.construct ha fd _ rfl, { hservers with }⟩

theorem setNewConnectionCallback_sound (h : p.Sound) {a : ℕ} {cb : Option NewConnectionCallback}
    (hcb : ∀ s, cb ≠ some (.newConnection s)) :
    Yields Sound (Acceptor.setNewConnectionCallback p (.alone a) cb) := by
  intro p' hok
  obtain ⟨acceptor, hacceptor, hok⟩ := bind_eq_ok.mp hok
  obtain rfl := Except.ok.inj hok
  refine ⟨h.channels.same rfl rfl ?_ fun _ => rfl, h.servers.alone a _ hcb⟩
  exact FiniteMap.map_find_update (require_eq_ok.mp hacceptor) rfl

theorem listen_ok {ret : Int32} (hok : Acceptor.listen .debug p a ret = .ok p') :
    ∃ acceptor poller, p.acceptors.find a = some acceptor ∧
      Channel.enableReading .debug p.poller (.accept a) = .ok poller ∧
      p' = { p with acceptors := p.acceptors.assign a { acceptor with listening := true }, poller } := by
  obtain ⟨acceptor, hacceptor, hok⟩ := bind_eq_ok.mp hok
  obtain ⟨_, _, hok⟩ := bind_eq_ok.mp hok
  obtain ⟨poller, hpoller, hok⟩ := bind_eq_ok.mp hok
  exact ⟨acceptor, poller, require_eq_ok.mp hacceptor, hpoller, (Except.ok.inj hok).symm⟩

theorem ChannelsSound.listen (h : p.ChannelsSound) (acceptor : Acceptor) {poller : Poller ChannelId}
    (hlistening : acceptor.listening = true) (hok : Channel.enableReading .debug p.poller (.accept a) = .ok poller) :
    ({ p with acceptors := p.acceptors.assign a acceptor, poller } : Program).ChannelsSound := by
  have huse : ∀ c, ({ p with acceptors := p.acceptors.assign a acceptor, poller } : Program).InUse c ↔
      c = .accept a ∨ p.InUse c := by
    intro c
    cases c with
    | accept a' =>
      simp only [InUse, listening, FiniteMap.map_find_assign, ChannelId.accept.injEq]
      split_ifs with ha <;> simp [ha, hlistening]
    | _ => simp [InUse, state]
  constructor
  · exact (h.lists.enableReading hok).congr huse
  · intro c hc
    exact (huse c).mpr (Or.inr (h.dispatched c hc))
  · exact h.unfinished
  · exact h.established
  · exact h.destorying

theorem listen_sound (h : p.Sound) {a : ℕ} {ret : Int32} :
    Yields Sound (Acceptor.listen .debug p (.alone a) ret) := by
  intro p' hok
  obtain ⟨acceptor, poller, hacceptor, hpoller, rfl⟩ := listen_ok hok
  have hcallback := h.servers.alone_callback hacceptor
  have hservers := h.servers.alone a { acceptor with listening := true } hcallback
  exact ⟨h.channels.listen _ rfl hpoller, { hservers with }⟩

theorem start_sound (h : p.Sound) {ret : Int32} : Yields Sound (TcpServer.start .debug p s ret) := by
  intro p' hok
  obtain ⟨server, hserver, hok⟩ := bind_eq_ok.mp hok
  obtain ⟨acceptor, poller, hacceptor, hpoller, rfl⟩ := listen_ok hok
  have hchannels := h.channels.listen { acceptor with listening := true } rfl hpoller
  refine ⟨{ hchannels with }, ?_⟩
  constructor
  · intro a' found s' hfound hbound
    rw [FiniteMap.find_assign] at hfound
    split_ifs at hfound with ha'
    · obtain rfl := Option.some.inj hfound
      rw [ha']
      exact h.servers.bound _ acceptor s' hacceptor hbound
    · exact h.servers.bound a' found s' hfound hbound
  · intro s'
    simp only [started, listening, FiniteMap.map_find_assign, AcceptorId.ofServer.injEq]
    split_ifs
    · rfl
    · exact h.servers.started s'
  · intro s' found hfound hnot
    rw [FiniteMap.find_assign] at hfound
    split_ifs at hfound
    · obtain rfl := Option.some.inj hfound
      exact Bool.noConfusion hnot
    · exact h.servers.unstarted s' found hfound hnot
  · intro k s' hmaker
    simp only [started, FiniteMap.map_find_assign]
    split_ifs
    · rfl
    · exact h.servers.maker k s' hmaker

theorem newServer_sound (h : p.Sound) (hs : s ∉ p.servers) {name : String} {socketFd : ℤ} {bound : Int32} :
    Yields Sound (TcpServer.construct p s name socketFd bound) := by
  intro p' hok
  obtain ⟨v, hv, hok⟩ := bind_eq_ok.mp hok
  obtain ⟨fd, rfl⟩ := construct_ok hv
  obtain ⟨u, hu, hok⟩ := bind_eq_ok.mp hok
  obtain ⟨acceptor, hacceptor, hu⟩ := bind_eq_ok.mp hu
  obtain rfl := Except.ok.inj hu
  obtain rfl := Except.ok.inj hok
  have hnone : p.started s = none := by rw [started, FiniteMap.find_eq_none.mpr hs]; rfl
  have ha : .ofServer s ∉ p.acceptors := by
    rw [h.servers.started s] at hnone
    exact FiniteMap.find_eq_none.mp (Option.map_eq_none_iff.mp hnone)
  have hlistening : acceptor.listening = false := by
    rw [require_eq_ok, FiniteMap.find_assign, if_pos rfl] at hacceptor
    rw [← Option.some.inj hacceptor]
  constructor
  · have hbuilt := h.channels.construct ha fd { listening := false, newConnectionCallback := none } rfl
    refine ChannelsSound.same hbuilt rfl rfl ?_ fun _ => rfl
    exact FiniteMap.map_find_update (require_eq_ok.mp hacceptor) rfl
  · constructor
    · intro a' found s' hfound hbound
      simp only [FiniteMap.find_assign] at hfound
      split_ifs at hfound with ha'
      · obtain rfl := Option.some.inj hfound
        rw [ha']
        simp only [Option.some.injEq, NewConnectionCallback.newConnection.injEq] at hbound
        rw [hbound]
      · exact h.servers.bound a' found s' hfound hbound
    · intro s'
      simp only [started, listening, FiniteMap.map_find_assign, AcceptorId.ofServer.injEq]
      split_ifs
      · rw [hlistening]
      · exact h.servers.started s'
    · intro s' found hfound hnot
      rw [FiniteMap.find_assign] at hfound
      split_ifs at hfound
      · obtain rfl := Option.some.inj hfound
        rfl
      · exact h.servers.unstarted s' found hfound hnot
    · intro k s' hmaker
      have hstarted := h.servers.maker k s' hmaker
      have hne : s' ≠ s := by
        rintro rfl
        simp [hnone] at hstarted
      simp only [started, FiniteMap.map_find_assign, if_neg hne]
      exact hstarted

theorem setServerCallbacks_sound (h : p.Sound) {connectionCallback messageCallback : Bool} :
    Yields Sound (TcpServer.setCallbacks p s connectionCallback messageCallback) := by
  intro p' hok
  obtain ⟨server, hserver, hok⟩ := bind_eq_ok.mp hok
  obtain rfl := Except.ok.inj hok
  have hs := require_eq_ok.mp hserver
  exact ⟨{ h.channels with }, h.servers.update hs _ rfl (h.servers.unstarted s server hs)⟩

end Acceptors

section Connections

theorem setConnection_sound (h : p.Sound) {conn conn' : TcpConnection} (hk : p.connections.find k = some conn)
    (hstate : conn'.state = conn.state) :
    ({ p with connections := p.connections.assign k conn' } : Program).Sound :=
  ⟨h.channels.same rfl rfl (fun _ => rfl) (FiniteMap.map_find_update hk hstate), { h.servers with }⟩

theorem setConnectionCallbacks_sound (h : p.Sound) {connectionCallback messageCallback : Bool} :
    Yields Sound (TcpConnection.setCallbacks p k connectionCallback messageCallback) := by
  intro p' hok
  obtain ⟨conn, hconn, hok⟩ := bind_eq_ok.mp hok
  obtain rfl := Except.ok.inj hok
  exact setConnection_sound h (require_eq_ok.mp hconn) rfl

theorem setCloseCallback_sound (h : p.Sound) {cb : Option CloseCallback} :
    Yields Sound (TcpConnection.setCloseCallback p k cb) := by
  intro p' hok
  obtain ⟨conn, hconn, hok⟩ := bind_eq_ok.mp hok
  obtain rfl := Except.ok.inj hok
  exact setConnection_sound h (require_eq_ok.mp hconn) rfl

theorem callConnectionCallback_ok : Yields (fun p' => p' = p) (TcpConnection.callConnectionCallback p k) := by
  apply Yields.skip
  intro conn _
  split_ifs
  · exact yields_ok rfl
  · exact yields_error _

structure Opened (p : Program) (s k : ℕ) (p' : Program) : Prop where
  poller : ∃ fd : ℕ, Channel.enableReading .debug
    (p.poller.setChannel (.connection k) (Channel.new fd)) (.connection k) = .ok p'.poller
  stage : p'.stage = p.stage
  acceptors : p'.acceptors = p.acceptors
  servers : ∃ server server', p.servers.find s = some server ∧ server'.started = server.started ∧
    p'.servers = p.servers.assign s server'
  maker : p'.maker = Function.update p.maker k (some s)
  state : ∀ j, p'.state j = if j = k then some .connected else p.state j

theorem newConnection_opened {fd : ℕ} : Yields (Opened p s k) (TcpServer.newConnection .debug p s fd k) := by
  intro p' hok
  obtain ⟨server, hserver, hok⟩ := bind_eq_ok.mp hok
  dsimp only at hok
  split_ifs at hok
  obtain ⟨conn, hconn, hok⟩ := bind_eq_ok.mp hok
  obtain ⟨_, _, hok⟩ := bind_eq_ok.mp hok
  obtain ⟨_, _, hok⟩ := bind_eq_ok.mp hok
  obtain ⟨poller, hpoller, hok⟩ := bind_eq_ok.mp hok
  obtain rfl := callConnectionCallback_ok p' hok
  refine ⟨⟨fd, hpoller⟩, rfl, rfl, ⟨server, _, require_eq_ok.mp hserver, ?_, rfl⟩, rfl, fun j => ?_⟩
  · rfl
  · simp only [Program.state, setState, FiniteMap.map_find_assign]
    split_ifs <;> rfl

theorem Opened.sound (ho : p.Opened s k p') (h : p.Sound) (hk : k ∉ p.connections) (hs : p.started s = some true) :
    p'.Sound := by
  obtain ⟨fd, hpoller⟩ := ho.poller
  obtain ⟨server, server', hserver, hstarted, hservers⟩ := ho.servers
  have hnone : p.state k = none := by rw [Program.state, FiniteMap.find_eq_none.mpr hk]; rfl
  have hnot : ¬ p.InUse (.connection k) := by
    rintro (hstate | hdestorying)
    · simp [hnone] at hstate
    · have hstate := h.channels.destorying k hdestorying
      simp [hnone] at hstate
  have hlistening : ∀ a, p'.listening a = p.listening a := fun a => by rw [listening, ho.acceptors, listening]
  have huse : ∀ c, p'.InUse c ↔ c = .connection k ∨ p.InUse c := by
    intro c
    cases c with
    | connection j =>
      simp only [InUse, ho.state, ho.stage, ChannelId.connection.injEq]
      split_ifs with hj <;> simp [hj]
    | accept a => simp [InUse, hlistening]
    | _ => simp [InUse]
  constructor
  · constructor
    · rw [ho.stage]
      exact ((h.channels.lists.setChannel_new hnot fd).enableReading hpoller).congr huse
    · intro c hc
      rw [ho.stage] at hc
      exact (huse c).mpr (Or.inr (h.channels.dispatched c hc))
    · rw [ho.stage]
      exact h.channels.unfinished
    · intro j
      rw [ho.state]
      split_ifs
      · simp
      · exact h.channels.established j
    · intro j hj
      rw [ho.stage] at hj
      have hstate := h.channels.destorying j hj
      have hjk : j ≠ k := by
        rintro rfl
        simp [hnone] at hstate
      rw [ho.state, if_neg hjk]
      exact hstate
  · have hfind : (p.servers.find s).map TcpServer.started = some true := hs
    simp only [hserver, Option.map_some, Option.some.injEq] at hfind
    have hupdated := h.servers.update hserver server' hstarted (by simp [hstarted, hfind])
    have hsame : ∀ s', p'.started s' = ({ p with servers := p.servers.assign s server' } : Program).started s' :=
      fun s' => by rw [started, hservers, started]
    constructor
    · rw [ho.acceptors]
      exact hupdated.bound
    · intro s'
      rw [hsame, hlistening]
      exact hupdated.started s'
    · rw [hservers]
      exact hupdated.unstarted
    · intro j s' hmaker
      rw [hsame]
      rw [ho.maker] at hmaker
      by_cases hj : j = k
      · rw [hj, Function.update_self, Option.some.injEq] at hmaker
        simp only [started, FiniteMap.map_find_assign, if_pos hmaker.symm, hstarted, hfind]
      · rw [Function.update_of_ne hj] at hmaker
        exact hupdated.maker j s' hmaker

theorem removeConnection_sound (h : p.Sound) : Yields Sound (TcpServer.removeConnection .debug p s k) := by
  intro p' hok
  obtain ⟨server, hserver, hok⟩ := bind_eq_ok.mp hok
  obtain ⟨conn, _, hok⟩ := bind_eq_ok.mp hok
  obtain ⟨connections, herased, hok⟩ := bind_eq_ok.mp hok
  obtain rfl := Except.ok.inj hok
  have hs := require_eq_ok.mp hserver
  have hcount := (checkEffect_debug_eq_ok.mp herased).1
  have hservers := h.servers.update hs { server with connections } rfl (by
    intro hnot
    simp [h.servers.unstarted s server hs hnot] at hcount)
  exact ⟨{ h.channels with }, { hservers with }⟩

theorem handleClose_sound (h : p.Sound) (hk : p.InUse (.connection k)) :
    Yields Sound (TcpConnection.handleClose .debug p k) := by
  apply Yields.skip
  intro conn _
  apply Yields.skip
  intro _ _
  apply Yields.skip
  intro poller hpoller
  have hsound : ({ p with poller } : Program).Sound := ⟨h.channels.disableAll hk hpoller, { h.servers with }⟩
  cases conn.closeCallback with
  | none => exact yields_ok hsound
  | some cb =>
    cases cb with
    | removeConnection s bound => exact removeConnection_sound hsound
    | user => exact yields_ok hsound

theorem connectionRead_sound (h : p.Sound) (hk : p.InUse (.connection k)) (ret : Int64) :
    Yields Sound (TcpConnection.handleRead .debug p k ret) := by
  apply Yields.skip
  intro conn _
  cases readBranch ret with
  | message =>
    dsimp only
    split_ifs
    · exact yields_ok h
    · exact yields_error _
  | close => exact handleClose_sound h hk
  | error => exact yields_ok h

theorem acceptorRead_sound (h : p.Sound) (ha : p.InUse (.accept a)) (hk : k ∉ p.connections) (r : Accepted)
    (errno : Int32) : Yields Sound (Acceptor.handleRead .debug p a r errno k) := by
  apply Yields.skip
  intro acceptor hacceptor
  apply Yields.skip
  rintro ⟨fd, _⟩ _
  dsimp only
  split_ifs
  · cases hcallback : acceptor.newConnectionCallback with
    | none => exact yields_ok h
    | some cb =>
      cases cb with
      | user => exact yields_ok h
      | newConnection s =>
        obtain rfl := h.servers.bound a acceptor s (require_eq_ok.mp hacceptor) hcallback
        intro p' hok
        exact (newConnection_opened p' hok).sound h hk ((h.servers.started s).trans ha)
  · exact yields_ok h

theorem readCallback_sound (h : p.Sound) (hc : p.InUse c) {input : HandlerInput}
    (hk : input.address ∉ p.connections) : Yields Sound (p.readCallback .debug input c) := by
  cases c with
  | wakeup => exact yields_ok ⟨{ h.channels with }, { h.servers with }⟩
  | timerfd => exact yields_ok h
  | accept a => exact acceptorRead_sound h hc hk _ _
  | connection k => exact connectionRead_sound h hc _

end Connections

end Program

end Owners

end Penduo
