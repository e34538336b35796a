import Penduo.ConnectionInput
import Penduo.EventLoop
import Penduo.Lifecycle
import Penduo.Poller

set_option autoImplicit false

namespace Penduo

inductive ChannelId
  | wakeup
  | timerfd
  | accept
  | connection (k : ℕ)
deriving DecidableEq, Repr

inductive Functor
  | connectDestoryed (k : ℕ)
  | user (f : ℕ)
deriving DecidableEq, Repr

inductive CloseCallback
  | removeConnection (bound : ℕ)
  | user
deriving DecidableEq, Repr

structure TcpConnection where
  name : String
  state : StateE
  socketFd : ℕ
  connectionCallback : Bool
  messageCallback : Bool
  closeCallback : Option CloseCallback
  inputBuffer : Buffer
deriving DecidableEq, Repr

structure TcpServer where
  name : String
  started : Bool
  listening : Bool
  newConnectionCallback : Bool
  connectionCallback : Bool
  messageCallback : Bool
  nextConnectId : ℕ
  connections : FiniteMap String ℕ

inductive LoopStage
  | outside
  | between
  | dispatch (rest : List ChannelId)
  | pending (rest functors : List Functor)
deriving DecidableEq, Repr

def LoopStage.stage : LoopStage → Stage
  | .outside => .outside
  | .between => .between
  | .dispatch _ => .dispatch
  | .pending .. => .pending

def LoopStage.functors : LoopStage → List Functor
  | .pending _ functors => functors
  | _ => []

def LoopStage.unstarted : LoopStage → List Functor
  | .pending rest _ => rest
  | _ => []

structure World where
  loop : EventLoop Functor
  poller : Poller ChannelId
  server : TcpServer
  connection : ℕ → Option TcpConnection
  created : ℕ
  openFds : List ℕ
  -- the descriptors that `::accept` has returned, and those that the `~Socket` of a connection has closed
  acceptedFds : List ℕ
  closedFds : List (ℕ × ℕ)
  stage : LoopStage
  iteration : ℕ
  log : List (ℕ × Mark)

-- What user code does on the loop thread while it is called, with what other threads queue meanwhile.
inductive UserAction
  | queueInLoop (f : ℕ)
  | queueElsewhere (f : ℕ)
  | quit
  | receive (k : ℕ)
  | start
deriving DecidableEq, Repr

def Sockets.listenOrDie (ret : Int32) : Except Fault Unit := if ret < 0 then .error .fatal else pure ()

@[simp] theorem Sockets.listenOrDie_zero : Sockets.listenOrDie 0 = .ok () := rfl

structure ReadFd where
  ret : Int64
  inputBuffer : Buffer
deriving DecidableEq, Repr

namespace World

def observe (w : World) (k : ℕ) (o : Observation) : World :=
  { w with log := w.log ++ [(k, o, ⟨w.iteration, w.stage.stage⟩)] }

def trace (w : World) (k : ℕ) : List Mark := (w.log.filter fun m => m.1 = k).map Prod.snd

def updateConnection (w : World) (k : ℕ) (f : TcpConnection → TcpConnection) : World :=
  { w with connection := Function.update w.connection k ((w.connection k).map f) }

def setState (w : World) (k : ℕ) (st : StateE) : World :=
  (w.updateConnection k fun conn => { conn with state := st }).observe k (.state st)

def queueInLoop (w : World) (f : Functor) : World := { w with loop := w.loop.queueInLoop f }

def queueElsewhere (w : World) (f : ℕ) : World := { w with loop := (w.loop.pushFunctor (.user f)).wakeup }

def start (b : Build) (w : World) (ret : Int32) : Except Fault World := do
  Sockets.listenOrDie ret
  let poller ← Channel.enableReading b w.poller .accept
  pure { w with server := { w.server with started := true, listening := true }, poller }

def userAction (b : Build) (w : World) : UserAction → Except Fault World
  | .queueInLoop f => pure (w.queueInLoop (.user f))
  | .queueElsewhere f => pure (w.queueElsewhere f)
  | .quit => pure { w with loop := { w.loop with quit := true } }
  | .receive k =>
    pure (w.updateConnection k fun conn => { conn with inputBuffer := conn.inputBuffer.receiveAsString.2 })
  | .start => w.start b 0

end World

class UserCode (α : Type) where
  perform (b : Build) (w : World) : α → Except Fault World

instance : UserCode UserAction := ⟨World.userAction⟩

def World.userCode {α : Type} [UserCode α] (b : Build) (w : World) (acts : List α) : Except Fault World :=
  acts.foldlM (UserCode.perform b) w

theorem perform_userAction (b : Build) (w : World) (act : UserAction) :
    UserCode.perform b w act = w.userAction b act := rfl

theorem World.userCode_cons {α : Type} [UserCode α] (b : Build) (w : World) (act : α) (acts : List α) :
    w.userCode b (act :: acts) = UserCode.perform b w act >>= fun v => v.userCode b acts :=
  List.foldlM_cons

namespace TcpConnection

variable {α : Type} [UserCode α]

def callConnectionCallback (b : Build) (w : World) (k : ℕ) (acts : List α) : Except Fault World := do
  let conn ← require .undefinedBehaviour (w.connection k)
  if conn.connectionCallback then
    (w.observe k (.connectionCallback (decide (conn.state = .connected)))).userCode b acts
  else .error .badFunctionCall

def callMessageCallback (b : Build) (w : World) (k : ℕ) (acts : List α) : Except Fault World := do
  let conn ← require .undefinedBehaviour (w.connection k)
  if conn.messageCallback then (w.observe k .messageCallback).userCode b acts else .error .badFunctionCall

def connectEstablish (b : Build) (w : World) (k : ℕ) (acts : List α) : Except Fault World := do
  let conn ← require .undefinedBehaviour (w.connection k)
  b.check .establishConnecting (conn.state = .connecting)
  let w := w.setState k .connected
  b.check .establishConnected ((w.connection k).map TcpConnection.state = some .connected)
  let poller ← Channel.enableReading b w.poller (.connection k)
  callConnectionCallback b { w with poller } k acts

def connectDestoryed (b : Build) (w : World) (k : ℕ) (acts : List α) : Except Fault World := do
  let w := w.observe k .connectDestoryed
  let conn ← require .undefinedBehaviour (w.connection k)
  b.check .destoryedConnected (conn.state = .connected)
  let w := w.setState k .disConnected
  let poller ← Channel.disableAll b w.poller (.connection k)
  let w ← callConnectionCallback b { w with poller } k acts
  let poller ← Channel.remove b w.poller (.connection k)
  pure { w with poller }

end TcpConnection

def TcpServer.removeConnection (b : Build) (w : World) (k : ℕ) : Except Fault World := do
  let conn ← require .undefinedBehaviour (w.connection k)
  let connections ← b.checkEffect .connectionErased w.server.connections
    (fun m => (if conn.name ∈ m then 1 else 0, m.erase conn.name)) 1
  let w := { w with server := { w.server with connections } }
  pure ((w.queueInLoop (.connectDestoryed k)).observe k .queued)

namespace TcpConnection

variable {α : Type} [UserCode α]

def handleClose (b : Build) (w : World) (k : ℕ) (acts : List α) : Except Fault World := do
  let w := w.observe k .handleClose
  let conn ← require .undefinedBehaviour (w.connection k)
  b.check .closeConnected (conn.state = .connected)
  let poller ← Channel.disableAll b w.poller (.connection k)
  let w := { w with poller }
  match conn.closeCallback with
  | some (.removeConnection bound) => TcpServer.removeConnection b w bound
  | some .user => w.userCode b acts
  | none => pure w

def handleRead (b : Build) (w : World) (k : ℕ) (r : ReadFd) (acts : List α) : Except Fault World := do
  let _ ← require .undefinedBehaviour (w.connection k)
  let w := (w.updateConnection k fun conn => { conn with inputBuffer := r.inputBuffer }).observe k (.read r.ret)
  match readBranch r.ret with
  | .message => callMessageCallback b w k acts
  | .close => handleClose b w k acts
  | .error => pure (w.observe k .handleError)

end TcpConnection

end Penduo
