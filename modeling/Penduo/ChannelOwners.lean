import Penduo.TcpServer

set_option autoImplicit false

namespace Penduo

def Sockets.createNonblockingOrDie (ret : ℤ) : Except Fault ℕ := if ret < 0 then .error .fatal else pure ret.toNat

/-! The objects around one loop that own channels: any number of acceptors, servers and connections. -/

namespace Owners

inductive AcceptorId
  | alone (a : ℕ)
  | ofServer (s : ℕ)
deriving DecidableEq, Repr

inductive ChannelId
  | wakeup
  | timerfd
  | accept (a : AcceptorId)
  | connection (k : ℕ)
deriving DecidableEq, Repr

inductive NewConnectionCallback
  | newConnection (s : ℕ)
  | user
deriving DecidableEq, Repr

structure Acceptor where
  listening : Bool
  newConnectionCallback : Option NewConnectionCallback
deriving DecidableEq, Repr

structure TcpServer where
  name : String
  started : Bool
  connectionCallback : Bool
  messageCallback : Bool
  nextConnectId : ℕ
  connections : FiniteMap String ℕ

inductive CloseCallback
  | removeConnection (s k : ℕ)
  | user
deriving DecidableEq, Repr

def CloseCallback.bound : CloseCallback → Option ℕ
  | .removeConnection _ k => some k
  | .user => none

structure TcpConnection where
  name : String
  state : StateE
  connectionCallback : Bool
  messageCallback : Bool
  closeCallback : Option CloseCallback
deriving DecidableEq, Repr

inductive Stage
  | outside
  | between
  | dispatch (rest : List ChannelId)
  | handling (c : ChannelId) (rest : List ChannelId)
  | pending (rest functors : List Functor)
  | running (f : Functor) (rest functors : List Functor)
  | finishing (functors : List Functor)
deriving DecidableEq, Repr

namespace Stage

@[simp] def userCode : Stage → Bool
  | .outside | .handling .. | .running .. | .finishing _ => true
  | _ => false

@[simp] def handled : Stage → Option ChannelId
  | .handling c _ => some c
  | _ => none

@[simp] def dispatched : Stage → List ChannelId
  | .dispatch rest => rest
  | .handling c rest => c :: rest
  | _ => []

@[simp] def functors : Stage → List Functor
  | .pending _ functors | .running _ _ functors | .finishing functors => functors
  | _ => []

@[simp] def destorying : Stage → Option ℕ
  | .running (.connectDestoryed k) _ _ => some k
  | _ => none

end Stage

/-- An object goes by its address, so a new one gets a name that no living object of its kind has. -/
structure Program where
  loop : EventLoop Functor
  poller : Poller ChannelId
  acceptors : FiniteMap AcceptorId Acceptor
  servers : FiniteMap ℕ TcpServer
  connections : FiniteMap ℕ TcpConnection
  -- the server that has made each connection
  maker : ℕ → Option ℕ
  -- the connections that user code keeps pointers to
  held : List ℕ
  stage : Stage

def EventLoop.construct (b : Build) (timerfd wakeupfd : ℕ) : Except Fault Program := do
  let fd : ChannelId → ℕ
    | .timerfd => timerfd
    | .wakeup => wakeupfd
    | _ => 0
  let poller ← Channel.enableReading b (Poller.new fd) .timerfd
  let poller ← Channel.enableReading b poller .wakeup
  pure { loop := .new, poller, acceptors := ∅, servers := ∅, connections := ∅, maker := fun _ => none,
         held := [], stage := .outside }

namespace Program

def queueInLoop (p : Program) (f : Functor) : Program := { p with loop := p.loop.queueInLoop f }

def setState (p : Program) (k : ℕ) (conn : TcpConnection) (st : StateE) : Program :=
  { p with connections := p.connections.assign k { conn with state := st } }

end Program

section Acceptor

def Acceptor.construct (p : Program) (a : AcceptorId) (socketFd : ℤ) (bound : Int32) : Except Fault Program := do
  let fd ← Sockets.createNonblockingOrDie socketFd
  if bound < 0 then .error .fatal
  else
    pure { p with
      acceptors := p.acceptors.assign a { listening := false, newConnectionCallback := none }
      poller := p.poller.setChannel (.accept a) (Channel.new fd) }

def Acceptor.setNewConnectionCallback (p : Program) (a : AcceptorId) (cb : Option NewConnectionCallback) :
    Except Fault Program := do
  let acceptor ← require .undefinedBehaviour (p.acceptors.find a)
  pure { p with acceptors := p.acceptors.assign a { acceptor with newConnectionCallback := cb } }

def Acceptor.listen (b : Build) (p : Program) (a : AcceptorId) (ret : Int32) : Except Fault Program := do
  let acceptor ← require .undefinedBehaviour (p.acceptors.find a)
  let p := { p with acceptors := p.acceptors.assign a { acceptor with listening := true } }
  Sockets.listenOrDie ret
  let poller ← Channel.enableReading b p.poller (.accept a)
  pure { p with poller }

def TcpServer.construct (p : Program) (s : ℕ) (name : String) (socketFd : ℤ) (bound : Int32) :
    Except Fault Program := do
  let p ← Acceptor.construct p (.ofServer s) socketFd bound
  let p ← Acceptor.setNewConnectionCallback p (.ofServer s) (some (.newConnection s))
  let server : TcpServer :=
    { name, started := false, connectionCallback := false, messageCallback := false, nextConnectId := 0,
      connections := ∅ }
  pure { p with servers := p.servers.assign s server }

def TcpServer.setCallbacks (p : Program) (s : ℕ) (connectionCallback messageCallback : Bool) :
    Except Fault Program := do
  let server ← require .undefinedBehaviour (p.servers.find s)
  pure { p with servers := p.servers.assign s { server with connectionCallback, messageCallback } }

def TcpServer.start (b : Build) (p : Program) (s : ℕ) (ret : Int32) : Except Fault Program := do
  let server ← require .undefinedBehaviour (p.servers.find s)
  let p := { p with servers := p.servers.assign s { server with started := true } }
  Acceptor.listen b p (.ofServer s) ret

end Acceptor

section Connection

-- The user code that the callback runs is in the steps that follow.
def TcpConnection.callConnectionCallback (p : Program) (k : ℕ) : Except Fault Program := do
  let conn ← require .undefinedBehaviour (p.connections.find k)
  if conn.connectionCallback then pure p else .error .badFunctionCall

def TcpConnection.setCallbacks (p : Program) (k : ℕ) (connectionCallback messageCallback : Bool) :
    Except Fault Program := do
  let conn ← require .undefinedBehaviour (p.connections.find k)
  pure { p with connections := p.connections.assign k { conn with connectionCallback, messageCallback } }

def TcpConnection.setCloseCallback (p : Program) (k : ℕ) (cb : Option CloseCallback) : Except Fault Program := do
  let conn ← require .undefinedBehaviour (p.connections.find k)
  pure { p with connections := p.connections.assign k { conn with closeCallback := cb } }

def TcpConnection.connectEstablish (b : Build) (p : Program) (k : ℕ) : Except Fault Program := do
  let conn ← require .undefinedBehaviour (p.connections.find k)
  b.check .establishConnecting (conn.state = .connecting)
  let p := p.setState k conn .connected
  b.check .establishConnected ((p.connections.find k).map TcpConnection.state = some .connected)
  let poller ← Channel.enableReading b p.poller (.connection k)
  TcpConnection.callConnectionCallback { p with poller } k

-- `connect_destoryed` up to its connection callback.
def TcpConnection.connectDestoryed (b : Build) (p : Program) (k : ℕ) : Except Fault Program := do
  let conn ← require .undefinedBehaviour (p.connections.find k)
  b.check .destoryedConnected (conn.state = .connected)
  let p := p.setState k conn .disConnected
  let poller ← Channel.disableAll b p.poller (.connection k)
  TcpConnection.callConnectionCallback { p with poller } k

def TcpConnection.removeChannel (b : Build) (p : Program) (k : ℕ) : Except Fault Program := do
  let _ ← require .undefinedBehaviour (p.connections.find k)
  let poller ← Channel.remove b p.poller (.connection k)
  pure { p with poller }

def TcpServer.removeConnection (b : Build) (p : Program) (s k : ℕ) : Except Fault Program := do
  let server ← require .undefinedBehaviour (p.servers.find s)
  let conn ← require .undefinedBehaviour (p.connections.find k)
  let connections ← b.checkEffect .connectionErased server.connections
    (fun m => (if conn.name ∈ m then 1 else 0, m.erase conn.name)) 1
  let p := { p with servers := p.servers.assign s { server with connections } }
  pure (p.queueInLoop (.connectDestoryed k))

def TcpConnection.handleClose (b : Build) (p : Program) (k : ℕ) : Except Fault Program := do
  let conn ← require .undefinedBehaviour (p.connections.find k)
  b.check .closeConnected (conn.state = .connected)
  let poller ← Channel.disableAll b p.poller (.connection k)
  let p := { p with poller }
  match conn.closeCallback with
  | some (.removeConnection s bound) => TcpServer.removeConnection b p s bound
  | some .user => pure p
  | none => pure p

def TcpConnection.handleRead (b : Build) (p : Program) (k : ℕ) (ret : Int64) : Except Fault Program := do
  let conn ← require .undefinedBehaviour (p.connections.find k)
  match readBranch ret with
  | .message => if conn.messageCallback then pure p else .error .badFunctionCall
  | .close => TcpConnection.handleClose b p k
  | .error => pure p

def TcpServer.newConnection (b : Build) (p : Program) (s socketFd k : ℕ) : Except Fault Program := do
  let server ← require .undefinedBehaviour (p.servers.find s)
  let nextConnectId := server.nextConnectId + 1
  if 2 ^ 31 ≤ nextConnectId then .error .undefinedBehaviour
  else
    let connectionName := server.name ++ "#" ++ toString nextConnectId
    let conn : TcpConnection :=
      { name := connectionName, state := .connecting,
        connectionCallback := server.connectionCallback, messageCallback := server.messageCallback,
        closeCallback := some (.removeConnection s k) }
    let connections := server.connections.assign connectionName k
    TcpConnection.connectEstablish b
      { p with
        servers := p.servers.assign s { server with nextConnectId, connections }
        connections := p.connections.assign k conn
        maker := Function.update p.maker k (some s)
        poller := p.poller.setChannel (.connection k) (Channel.new socketFd) } k

def Acceptor.handleRead (b : Build) (p : Program) (a : AcceptorId) (r : Accepted) (errno : Int32) (k : ℕ) :
    Except Fault Program := do
  let acceptor ← require .undefinedBehaviour (p.acceptors.find a)
  let (connectFd, _) ← Sockets.accept r errno
  if 0 ≤ connectFd then
    match acceptor.newConnectionCallback with
    | some (.newConnection s) => TcpServer.newConnection b p s connectFd.toNat k
    | some .user => pure p
    | none => pure p
  else pure p

end Connection

structure HandlerInput where
  accepted : Accepted
  errno : Int32
  ret : Int64
  address : ℕ
deriving DecidableEq, Repr

namespace Program

def readCallback (b : Build) (input : HandlerInput) (p : Program) : ChannelId → Except Fault Program
  | .wakeup => pure { p with loop := p.loop.wakeupfdHandleRead }
  -- after its constructor `TimerQueue` calls no method of a channel
  | .timerfd => pure p
  | .accept a => Acceptor.handleRead b p a input.accepted input.errno input.address
  | .connection k => TcpConnection.handleRead b p k input.ret

def setEventHandling (p : Program) (c : ChannelId) (handling : Bool) : Program :=
  { p with poller := p.poller.setChannel c { p.poller.channel c with eventHandling := handling } }

-- `Channel::handle_event` up to the end of the read callback, which is where user code runs.
def handleEvent (b : Build) (p : Program) (c : ChannelId) (input : HandlerInput) : Except Fault Program :=
  let callbacks : Callbacks Program :=
    { read := some fun p => p.readCallback b input c, write := none, error := none, close := none }
  Channel.handleEvents callbacks (p.poller.channel c).revents (p.setEventHandling c true)

def strongRefs (p : Program) (k : ℕ) : ℕ :=
  p.held.count k + (p.servers.entries.flatMap fun s => s.2.connections.entries.map fun e => e.2).count k +
    p.loop.pendingFunctors.count (.connectDestoryed k) + p.stage.functors.count (.connectDestoryed k) +
    p.connections.entries.countP fun conn => conn.2.closeCallback.bind CloseCallback.bound = some k

def destroyConnection (b : Build) (p : Program) (k : ℕ) : Except Fault Program := do
  let _ ← require .undefinedBehaviour (p.connections.find k)
  Channel.destroy b (p.poller.channel (.connection k))
  pure { p with connections := AList.erase k p.connections }

def releaseConnection (b : Build) (p : Program) (k : ℕ) : Except Fault Program :=
  if p.strongRefs k = 0 then p.destroyConnection b k else pure p

end Program

def Acceptor.destroy (b : Build) (p : Program) (a : AcceptorId) : Except Fault Program := do
  let _ ← require .undefinedBehaviour (p.acceptors.find a)
  Channel.destroy b (p.poller.channel (.accept a))
  pure { p with acceptors := AList.erase a p.acceptors }

-- `TcpServer::~TcpServer`: `connections_` lets go of its connections before `acceptor_` is destroyed.
def TcpServer.destroy (b : Build) (p : Program) (s : ℕ) : Except Fault Program := do
  let server ← require .undefinedBehaviour (p.servers.find s)
  let p := { p with servers := p.servers.assign s { server with connections := ∅ } }
  let p ← (server.connections.entries.map fun e => e.2).foldlM (Program.releaseConnection b) p
  let p ← Acceptor.destroy b p (.ofServer s)
  pure { p with servers := AList.erase s p.servers }

def TimerQueue.destroy (b : Build) (p : Program) : Except Fault Unit := Channel.destroy b (p.poller.channel .timerfd)

def Functor.connection : Functor → Option ℕ
  | .connectDestoryed k => some k
  | .user _ => none

-- `EventLoop::~EventLoop`, with `pending_functors_`, `wakeup_channel_` and `timer_queue_` in this order.
def EventLoop.destroy (b : Build) (p : Program) : Except Fault Unit := do
  b.check .destroyNotLooping (p.loop.looping = false)
  let connections := p.loop.pendingFunctors.filterMap Functor.connection
  let p := { p with loop := { p.loop with pendingFunctors := [] } }
  let p ← connections.foldlM (Program.releaseConnection b) p
  Channel.destroy b (p.poller.channel .wakeup)
  TimerQueue.destroy b p

inductive Event
  | newAcceptor (a : ℕ) (socketFd : ℤ) (bound : Int32)
  | setNewConnectionCallback (a : ℕ) (set : Bool)
  | listen (a : ℕ) (ret : Int32)
  | destroyAcceptor (a : ℕ)
  | newServer (s : ℕ) (name : String) (socketFd : ℤ) (bound : Int32)
  | setServerCallbacks (s : ℕ) (connectionCallback messageCallback : Bool)
  | start (s : ℕ) (ret : Int32)
  | destroyServer (s : ℕ)
  | setConnectionCallbacks (k : ℕ) (connectionCallback messageCallback : Bool)
  | setCloseCallback (k : ℕ) (set : Bool)
  | keep (k : ℕ)
  | drop (k : ℕ)
  | destroyConnection (k : ℕ)
  | queueInLoop (f : ℕ)
  | queueElsewhere (f : ℕ)
  | quit
  | quitElsewhere
  | enter
  | leave
  | poll (r : PollResult)
  | handle (input : HandlerInput)
  | handled
  | takePending
  | run
  | ran
  | finish
  | release
  | finished

namespace Program

def runFunctor (b : Build) (p : Program) : Functor → Except Fault Program
  | .user _ => pure p
  | .connectDestoryed k => TcpConnection.connectDestoryed b p k

def endFunctor (b : Build) (p : Program) : Functor → Except Fault Program
  | .user _ => pure p
  | .connectDestoryed k => TcpConnection.removeChannel b p k

/-- One step. The calls that only the loop thread may make need it to be in user code; a connection is
destroyed once its last pointer has gone. -/
def step (b : Build) (p : Program) : Event → Option (Except Fault Program)
  | .newAcceptor a socketFd bound =>
    if .alone a ∉ p.acceptors then some (Acceptor.construct p (.alone a) socketFd bound) else none
  | .setNewConnectionCallback a set =>
    some (Acceptor.setNewConnectionCallback p (.alone a) (if set then some .user else none))
  | .listen a ret => if p.stage.userCode then some (Acceptor.listen b p (.alone a) ret) else none
  | .destroyAcceptor a => some (Acceptor.destroy b p (.alone a))
  | .newServer s name socketFd bound =>
    if s ∉ p.servers then some (TcpServer.construct p s name socketFd bound) else none
  | .setServerCallbacks s connectionCallback messageCallback =>
    some (TcpServer.setCallbacks p s connectionCallback messageCallback)
  | .start s ret => if p.stage.userCode then some (TcpServer.start b p s ret) else none
  | .destroyServer s => some (TcpServer.destroy b p s)
  | .setConnectionCallbacks k connectionCallback messageCallback =>
    some (TcpConnection.setCallbacks p k connectionCallback messageCallback)
  | .setCloseCallback k set => some (TcpConnection.setCloseCallback p k (if set then some .user else none))
  | .keep k => if p.strongRefs k ≠ 0 then some (pure { p with held := k :: p.held }) else none
  | .drop k => if k ∈ p.held then some (pure { p with held := p.held.erase k }) else none
  | .destroyConnection k => if p.strongRefs k = 0 then some (p.destroyConnection b k) else none
  | .queueInLoop f => if p.stage.userCode then some (pure (p.queueInLoop (.user f))) else none
  | .queueElsewhere f => some (pure { p with loop := (p.loop.pushFunctor (.user f)).wakeup })
  | .quit => if p.stage.userCode then some (pure { p with loop := { p.loop with quit := true } }) else none
  | .quitElsewhere => some (pure { p with loop := { p.loop with quit := true }.wakeup })
  | .enter =>
    if p.stage = .outside then
      some do
        b.check .loopNotLooping (p.loop.looping = false)
        pure { p with stage := .between, loop := { p.loop with looping := true, quit := false } }
    else none
  | .leave =>
    if p.stage = .between ∧ p.loop.quit = true then
      some (pure { p with stage := .outside, loop := { p.loop with looping := false } })
    else none
  | .poll r =>
    if p.stage = .between ∧ p.loop.quit = false then
      some do
        let (poller, active) ← p.poller.poll b r []
        pure { p with poller, stage := .dispatch active }
    else none
  | .handle input =>
    match p.stage with
    | .dispatch (c :: rest) =>
      if input.address ∉ p.connections then
        some (({ p with stage := .handling c rest } : Program).handleEvent b c input)
      else none
    | _ => none
  | .handled =>
    match p.stage with
    | .handling c rest => some (pure (({ p with stage := .dispatch rest } : Program).setEventHandling c false))
    | _ => none
  | .takePending =>
    if p.stage = .dispatch [] then
      some (pure { p with
        stage := .pending p.loop.pendingFunctors p.loop.pendingFunctors
        loop := { p.loop with callingPendingFunctors := true, pendingFunctors := [] } })
    else none
  | .run =>
    match p.stage with
    | .pending (f :: rest) functors =>
      some (({ p with stage := .running f rest functors } : Program).runFunctor b f)
    | _ => none
  | .ran =>
    match p.stage with
    | .running f rest functors => some (({ p with stage := .pending rest functors } : Program).endFunctor b f)
    | _ => none
  | .finish =>
    match p.stage with
    | .pending [] functors =>
      some (pure { p with stage := .finishing functors, loop := { p.loop with callingPendingFunctors := false } })
    | _ => none
  | .release =>
    match p.stage with
    | .finishing (_ :: functors) => some (pure { p with stage := .finishing functors })
    | _ => none
  | .finished => if p.stage = .finishing [] then some (pure { p with stage := .between }) else none

def Next (p : Program) (e : Event) (p' : Program) : Prop := p.step .debug e = some (.ok p')

end Program

inductive Owner
  | eventLoop
  | timerQueue
  | acceptor (a : ℕ)
  | tcpServer (s : ℕ)
  | tcpConnection (k : ℕ)
deriving DecidableEq, Repr

namespace Program

def Destroyable (p : Program) : Owner → Prop
  | .eventLoop | .timerQueue => True
  | .acceptor a => .alone a ∈ p.acceptors
  | .tcpServer s => s ∈ p.servers
  | .tcpConnection k => k ∈ p.connections ∧ p.strongRefs k = 0

structure Retired (p : Program) (c : ChannelId) : Prop where
  noneEvent : (p.poller.channel c).isNoneEvent
  added : (p.poller.channel c).addedToLoop = false
  absent : ∀ fd, p.poller.channels.find fd ≠ some c

/-- The destructor of the owner returns, and leaves no channel behind that is still in use. -/
def Retires (p : Program) : Owner → Prop
  | .eventLoop => EventLoop.destroy .debug p = .ok () ∧ p.Retired .wakeup ∧ p.Retired .timerfd
  | .timerQueue => TimerQueue.destroy .debug p = .ok () ∧ p.Retired .timerfd
  | .acceptor a => (∃ q, Acceptor.destroy .debug p (.alone a) = .ok q) ∧ p.Retired (.accept (.alone a))
  | .tcpServer s =>
    ∃ q, TcpServer.destroy .debug p s = .ok q ∧ q.Retired (.accept (.ofServer s)) ∧
      ∀ k, p.maker k = some s → ∀ fd, q.poller.channels.find fd ≠ some (.connection k)
  | .tcpConnection k => (∃ q, p.destroyConnection .debug k = .ok q) ∧ p.Retired (.connection k)

/-- An owner that has registered nothing, or has taken it back. -/
def Inactive (p : Program) : Owner → Prop
  | .eventLoop | .timerQueue => False
  | .acceptor a => (p.acceptors.find (.alone a)).map Acceptor.listening = some false
  | .tcpServer s => (p.servers.find s).map TcpServer.started = some false
  | .tcpConnection k => (p.connections.find k).map TcpConnection.state = some .disConnected

end Program

end Owners

end Penduo
