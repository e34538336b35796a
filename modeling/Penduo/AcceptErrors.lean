import Penduo.ServerRuns

set_option autoImplicit false

namespace Penduo

open LabelledRuns

namespace World

variable {w : World}

structure Unharmed (b : Build) (w : World) (e errno : Int32) (acts : List UserAction) : Prop where
  reported : Sockets.accept (.failed e) errno = .ok (-1, e)
  returns : ∃ w', Acceptor.handleRead b w (.failed e) errno acts = .ok w' ∧ w'.server = w.server ∧
    w'.poller = w.poller ∧ w'.openFds = w.openFds ∧ w'.log = w.log

theorem handleRead_failed (b : Build) (w : World) (e errno : Int32) (acts : List UserAction) :
    Acceptor.handleRead b w (.failed e) errno acts = .error .fatal := by
  rw [Acceptor.handleRead, Sockets.accept_failed, error_bind]

theorem handleEvent_failed {b : Build} {input : HandlerInput} {e : Int32} (hinput : input.accepted = .failed e)
    (hready : (w.poller.channel .accept).revents &&& (Poll.pollin ||| Poll.pollpri) ≠ 0) :
    w.handleEvent b .accept input = .error .fatal := by
  have hrevents : ((w.setEventHandling .accept true).poller.channel .accept).revents =
      (w.poller.channel .accept).revents := by simp [setEventHandling, Poller.setChannel]
  rw [handleEvent, callbacks, Channel.handleEvents_read, hrevents, if_pos hready, readCallback, hinput,
    handleRead_failed, error_bind]

/-- Whatever the server has been doing, the first `::accept` that fails ends the process. -/
theorem failed_accept_fatal (b : Build) (w : World) (e errno : Int32) (acts : List UserAction) :
    ¬ w.Unharmed b e errno acts ∧
      ∀ rest (input : HandlerInput), w.stage = .dispatch (.accept :: rest) →
        (w.poller.channel .accept).revents &&& (Poll.pollin ||| Poll.pollpri) ≠ 0 → input.accepted = .failed e →
        w.step b (.handle input) = some (.error .fatal) := by
  constructor
  · rintro ⟨_, w', hok, _⟩
    rw [handleRead_failed] at hok
    exact absurd hok (by simp)
  · intro rest input hstage hready hinput
    have hfresh : w.fresh input.accepted = true := by
      rw [hinput]
      rfl
    simp only [step, hstage, if_pos hfresh]
    exact congrArg some (handleEvent_failed hinput hready)

def acceptReported : List ServerEvent :=
  [.user [.start], .enter, .poll (readable [2]), .handle (accepts 10 []), .takePending, .finish, .poll (readable [2])]

theorem aborted_connection_fatal : ∃ w0 w, construct .debug exampleFds "server" = .ok w0 ∧
    Run Next w0 acceptReported w ∧ w.server.started = true ∧ w.created = 1 ∧ Errno.eagain ∈ Sockets.expectedErrors ∧
      (w.step .debug (.handle (reads 0))).map faultOf = some (some .fatal) ∧ ¬ w.Unharmed .debug Errno.eagain 0 [] := by
  obtain ⟨w0, w, hw0, hrun, hend⟩ := run_of_advance exampleFds "server" acceptReported
    (fun w => (w.server.started, w.created, (w.step .debug (.handle (reads 0))).map faultOf))
    (a := (true, 1, some (some .fatal))) (by decide +kernel)
  simp only [Prod.mk.injEq] at hend
  refine ⟨w0, w, hw0, hrun, hend.1, hend.2.1, by decide, hend.2.2, ?_⟩
  rintro ⟨hreported, _⟩
  rw [Sockets.accept_failed] at hreported
  exact absurd hreported (by simp)

end World

end Penduo
