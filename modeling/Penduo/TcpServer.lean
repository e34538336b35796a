import Penduo.TcpConnection

set_option autoImplicit false

namespace Penduo

namespace Errno

def eperm : Int32 := 1
def eintr : Int32 := 4
def ebadf : Int32 := 9
def eagain : Int32 := 11
def emfile : Int32 := 24
def eproto : Int32 := 71
def econnaborted : Int32 := 103

end Errno

inductive Accepted
  | connected (fd : ℕ)
  | failed (errno : Int32)
deriving DecidableEq, Repr

namespace Sockets

-- `errno` after `set_nonblocking_and_close_on_exec`, whose `::fcntl` calls fail on a negative
-- descriptor.
def setNonblockingAndCloseOnExec (socketFd : ℤ) (errno : Int32) : Int32 :=
  if socketFd < 0 then Errno.ebadf else errno

def expectedErrors : List Int32 :=
  [Errno.eagain, Errno.econnaborted, Errno.eintr, Errno.eproto, Errno.eperm, Errno.emfile]

def accept (r : Accepted) (errno : Int32) : Except Fault (ℤ × Int32) :=
  let (connectFd, errno) : ℤ × Int32 := match r with
    | .connected fd => (fd, errno)
    | .failed errno => (-1, errno)
  let errno := setNonblockingAndCloseOnExec connectFd errno
  if connectFd < 0 then
    let savedErrno := errno
    if savedErrno ∈ expectedErrors then pure (connectFd, savedErrno) else .error .fatal
  else pure (connectFd, errno)

theorem accept_connected (fd : ℕ) (errno : Int32) : accept (.connected fd) errno = .ok (fd, errno) := by
  have hfd : ¬ (fd : ℤ) < 0 := by omega
  simp [accept, setNonblockingAndCloseOnExec, hfd]

-- The `errno` of a failed `::accept` is lost before it is looked at.
theorem accept_failed (e errno : Int32) : accept (.failed e) errno = .error .fatal := by
  have hebadf : Errno.ebadf ∉ expectedErrors := by decide
  simp [accept, setNonblockingAndCloseOnExec, hebadf]

end Sockets

namespace TcpServer

def connectionName (server : TcpServer) (id : ℕ) : String := server.name ++ "#" ++ toString id

theorem connectionName_inj (server : TcpServer) {i j : ℕ} (h : server.connectionName i = server.connectionName j) :
    i = j := by
  have hdigits := congrArg String.toList ((String.append_right_inj _).mp h)
  rw [Nat.toString_eq_repr, Nat.toString_eq_repr, Nat.toList_repr, Nat.toList_repr] at hdigits
  rw [← Nat.ofDigitChars_ten_toDigits (n := i), hdigits, Nat.ofDigitChars_ten_toDigits]

def makeConnection (w : World) (name : String) (socketFd : ℕ) : World :=
  let k := w.created
  let conn : TcpConnection :=
    { name, state := .connecting, socketFd,
      connectionCallback := w.server.connectionCallback, messageCallback := w.server.messageCallback,
      closeCallback := some (.removeConnection k), inputBuffer := { buffer := [] } }
  ({ w with
    connection := Function.update w.connection k (some conn)
    created := k + 1
    poller := w.poller.setChannel (.connection k) (Channel.new socketFd) } : World).observe k (.state .connecting)

def newConnection {α : Type} [UserCode α] (b : Build) (w : World) (socketFd : ℕ) (acts : List α) :
    Except Fault World := do
  let nextConnectId := w.server.nextConnectId + 1
  if 2 ^ 31 ≤ nextConnectId then .error .undefinedBehaviour
  else
    let connectionName := w.server.connectionName nextConnectId
    let connection := w.created
    let w := makeConnection w connectionName socketFd
    let server := { w.server with
      nextConnectId, connections := w.server.connections.assign connectionName connection }
    TcpConnection.connectEstablish b { w with server } connection acts

end TcpServer

def Acceptor.handleRead {α : Type} [UserCode α] (b : Build) (w : World) (r : Accepted) (errno : Int32)
    (acts : List α) : Except Fault World := do
  let (connectFd, _) ← Sockets.accept r errno
  if 0 ≤ connectFd then
    let fd := connectFd.toNat
    let w := { w with openFds := fd :: w.openFds, acceptedFds := fd :: w.acceptedFds }
    if w.server.newConnectionCallback then TcpServer.newConnection b w fd acts
    else pure { w with openFds := w.openFds.erase fd }
  else pure w

structure Callbacks (σ : Type) where
  read : Option (σ → Except Fault σ)
  write : Option (σ → Except Fault σ)
  error : Option (σ → Except Fault σ)
  close : Option (σ → Except Fault σ)

def callIfSet {σ : Type} (callback : Option (σ → Except Fault σ)) (s : σ) : Except Fault σ :=
  match callback with
  | some f => f s
  | none => pure s

def Channel.handleEvents {σ : Type} (callbacks : Callbacks σ) (revents : Int32) (s : σ) : Except Fault σ := do
  let s ← if revents &&& Poll.pollhup ≠ 0 ∧ revents &&& Poll.pollin = 0 then callIfSet callbacks.close s else pure s
  let s ← if revents &&& (Poll.pollerr ||| Poll.pollnval) ≠ 0 then callIfSet callbacks.error s else pure s
  let s ← if revents &&& (Poll.pollin ||| Poll.pollpri) ≠ 0 then callIfSet callbacks.read s else pure s
  if revents &&& Poll.pollout ≠ 0 then callIfSet callbacks.write s else pure s

theorem Channel.handleEvents_read {σ : Type} (f : σ → Except Fault σ) (revents : Int32) (s : σ) :
    Channel.handleEvents { read := some f, write := none, error := none, close := none } revents s =
      if revents &&& (Poll.pollin ||| Poll.pollpri) ≠ 0 then f s else .ok s := by
  unfold Channel.handleEvents
  simp only [callIfSet, pure_eq_ok, ite_self, ok_bind]
  split_ifs with hread
  · cases f s <;> rfl
  · rfl

structure HandlerInput (α : Type := UserAction) where
  accepted : Accepted
  errno : Int32
  readFd : ReadFd
  acts : List α
deriving DecidableEq, Repr

namespace World

variable {α : Type} [UserCode α]

def readCallback (b : Build) (input : HandlerInput α) (w : World) : ChannelId → Except Fault World
  | .wakeup => pure { w with loop := w.loop.wakeupfdHandleRead }
  | .timerfd => w.userCode b input.acts
  | .accept => Acceptor.handleRead b w input.accepted input.errno input.acts
  | .connection k => TcpConnection.handleRead b w k input.readFd input.acts

def callbacks (b : Build) (input : HandlerInput α) (c : ChannelId) : Callbacks World :=
  { read := some fun w => w.readCallback b input c, write := none, error := none, close := none }

def setEventHandling (w : World) (c : ChannelId) (handling : Bool) : World :=
  { w with poller := w.poller.setChannel c { w.poller.channel c with eventHandling := handling } }

def handleEvent (b : Build) (w : World) (c : ChannelId) (input : HandlerInput α) : Except Fault World := do
  let w := w.setEventHandling c true
  let w ← Channel.handleEvents (callbacks b input c) (w.poller.channel c).revents w
  pure (w.setEventHandling c false)

end World

end Penduo
