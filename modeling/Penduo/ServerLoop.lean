import Penduo.TcpServer

set_option autoImplicit false

namespace Penduo

structure BaseFds where
  timerfd : ℕ
  wakeupRead : ℕ
  wakeupWrite : ℕ
  listen : ℕ
  distinct : [timerfd, wakeupRead, wakeupWrite, listen].Nodup

def BaseFds.fd (fds : BaseFds) : ChannelId → ℕ
  | .wakeup => fds.wakeupRead
  | .timerfd => fds.timerfd
  | .accept => fds.listen
  | .connection _ => 0

inductive ServerEvent (α : Type := UserAction)
  | user (acts : List α)
  | queueElsewhere (f : ℕ)
  | quitElsewhere
  | enter
  | leave
  | poll (r : PollResult)
  | handle (input : HandlerInput α)
  | takePending
  | run (acts : List α)
  -- what the destructors of the user's functors do, one list for each functor
  | finish (acts : List (List α) := [])

namespace World

def blank (fds : BaseFds) (serverName : String) : World :=
  { loop := .new
    poller := Poller.new fds.fd
    server := { name := serverName, started := false, listening := false, newConnectionCallback := true,
                connectionCallback := true, messageCallback := true, nextConnectId := 0, connections := ∅ }
    connection := fun _ => none
    created := 0
    openFds := [fds.timerfd, fds.wakeupRead, fds.wakeupWrite, fds.listen]
    acceptedFds := []
    closedFds := []
    stage := .outside
    iteration := 0
    log := [] }

def construct (b : Build) (fds : BaseFds) (serverName : String) : Except Fault World := do
  let w := blank fds serverName
  let poller ← Channel.enableReading b w.poller .timerfd
  let poller ← Channel.enableReading b poller .wakeup
  pure { w with poller }

/-- Strong references to connection `k`: in `connections_`, in queued functors, in the functors
being run, and in the callbacks of the connections that exist. -/
def strongRefs (w : World) (k : ℕ) : ℕ :=
  (w.server.connections.entries.map fun e => e.2).count k +
    w.loop.pendingFunctors.count (.connectDestoryed k) + w.stage.functors.count (.connectDestoryed k) +
    (List.range w.created).countP fun j => (w.connection j).any fun conn => conn.closeCallback = some (.removeConnection k)

-- `TcpConnection::~TcpConnection`, with the destructors of its `Channel` and its `Socket`.
def destroyConnection (b : Build) (w : World) (k : ℕ) : Except Fault World := do
  let conn ← require .undefinedBehaviour (w.connection k)
  Channel.destroy b (w.poller.channel (.connection k))
  pure { w with
    connection := Function.update w.connection k none
    openFds := w.openFds.erase conn.socketFd
    closedFds := w.closedFds ++ [(k, conn.socketFd)] }

def releaseConnection (b : Build) (w : World) (k : ℕ) : Except Fault World :=
  if w.strongRefs k = 0 then w.destroyConnection b k else pure w

section

variable {α : Type} [UserCode α]

-- The end of `do_pending_functors`: the functors of the local vector are destroyed in order.
def releaseFunctors (b : Build) : World → List (List α) → List Functor → Except Fault World
  | w, _, [] => pure { w with stage := .between }
  | w, acts, .user _ :: functors => do
    let w ← World.userCode b { w with stage := .pending [] functors } (acts.headD [])
    releaseFunctors b w acts.tail functors
  | w, acts, .connectDestoryed k :: functors => do
    let w ← releaseConnection b { w with stage := .pending [] functors } k
    releaseFunctors b w acts functors

def runFunctor (b : Build) (w : World) (acts : List α) : Functor → Except Fault World
  | .user _ => w.userCode b acts
  | .connectDestoryed k => TcpConnection.connectDestoryed b w k acts

def fresh (w : World) : Accepted → Bool
  | .connected fd => decide (fd ∉ w.openFds)
  | .failed _ => true

def step (b : Build) (w : World) : ServerEvent α → Option (Except Fault World)
  | .user acts => if w.stage = .outside then some (w.userCode b acts) else none
  | .queueElsewhere f => some (pure (w.queueElsewhere f))
  | .quitElsewhere => some (pure { w with loop := { w.loop with quit := true }.wakeup })
  | .enter =>
    if w.stage = .outside then
      some do
        b.check .loopNotLooping (w.loop.looping = false)
        pure { w with stage := .between, loop := { w.loop with looping := true, quit := false } }
    else none
  | .leave =>
    if w.stage = .between ∧ w.loop.quit = true then
      some (pure { w with stage := .outside, loop := { w.loop with looping := false } })
    else none
  | .poll r =>
    if w.stage = .between ∧ w.loop.quit = false then
      some do
        let (poller, active) ← w.poller.poll b r []
        pure { w with poller, stage := .dispatch active, iteration := w.iteration + 1 }
    else none
  | .handle input =>
    match w.stage with
    | .dispatch (c :: rest) =>
      if w.fresh input.accepted then some (({ w with stage := .dispatch rest }).handleEvent b c input) else none
    | _ => none
  | .takePending =>
    if w.stage = .dispatch [] then
      some (pure { w with
        stage := .pending w.loop.pendingFunctors w.loop.pendingFunctors
        loop := { w.loop with callingPendingFunctors := true, pendingFunctors := [] } })
    else none
  | .run acts =>
    match w.stage with
    | .pending (f :: rest) functors => some (({ w with stage := .pending rest functors }).runFunctor b acts f)
    | _ => none
  | .finish acts =>
    match w.stage with
    | .pending [] functors =>
      some (({ w with loop := { w.loop with callingPendingFunctors := false } }).releaseFunctors b acts functors)
    | _ => none

end

end World

end Penduo
