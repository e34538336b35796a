import Penduo.ReadOutcomes

set_option autoImplicit false

namespace Penduo

open LabelledRuns

namespace Poll

def HungUp (revents : Int32) : Prop := revents &&& pollhup ≠ 0 ∧ revents &&& pollin = 0

def Broken (revents : Int32) : Prop := revents &&& (pollerr ||| pollnval) ≠ 0

end Poll

namespace World

variable {w w' w0 v : World} {life : ℕ → Life} {fds : BaseFds} {serverName : String} {es : List ServerEvent}
  {k : ℕ} {rest : List ChannelId} {c : ChannelId} {input : HandlerInput} {revents : Int32}

/-- What a terminal condition of a connection asks of `handle_event`. -/
structure Answers (w : World) (k : ℕ) (revents : Int32) (w' : World) : Prop where
  hungUp : Poll.HungUp revents → CloseStarted w k w'
  broken : Poll.Broken revents → w.calls k .handleError < w'.calls k .handleError ∨ CloseStarted w k w'

section Handling

theorem setEventHandling_sameTable (w : World) (c : ChannelId) (handling : Bool) :
    Poller.SameTable w.poller (w.setEventHandling c handling).poller :=
  Poller.sameTable_setChannel w.poller c (w.poller.channel c).revents handling

theorem CloseStarted.handled (h : CloseStarted (w.entered c rest) k v) :
    CloseStarted w k (v.setEventHandling c false) where
  once := h.once
  disabled := by
    rw [(setEventHandling_sameTable v c false).events]
    exact h.disabled
  erased := h.erased
  queued := h.queued

theorem not_closeStarted (h : w'.calls k .handleClose = w.calls k .handleClose) : ¬ CloseStarted w k w' := by
  intro hclose
  have honce := hclose.once
  omega

theorem ignored (rest : List ChannelId) (input : HandlerInput)
    (hquiet : (w.poller.channel (.connection k)).revents &&& (Poll.pollin ||| Poll.pollpri) = 0) :
    ∃ w', ({ w with stage := .dispatch rest } : World).handleEvent .debug (.connection k) input = .ok w' ∧
      Poller.SameTable w.poller w'.poller ∧ w'.connection = w.connection ∧ w'.server = w.server ∧
      w'.loop = w.loop ∧ w'.log = w.log := by
  refine ⟨(w.entered (.connection k) rest).setEventHandling (.connection k) false, ?_, ?_, rfl, rfl, rfl, rfl⟩
  · rw [handleEvent_entered, if_neg (not_not.mpr hquiet)]
  · have hentered : Poller.SameTable w.poller (w.entered (.connection k) rest).poller :=
      setEventHandling_sameTable ({ w with stage := .dispatch rest } : World) _ _
    exact hentered.trans (setEventHandling_sameTable _ _ _)

theorem Inv.closed_by_read (h : w.Inv life) (hstage : w.stage = .dispatch (.connection k :: rest))
    (hready : (w.poller.channel (.connection k)).revents &&& (Poll.pollin ||| Poll.pollpri) ≠ 0)
    (hret : input.readFd.ret = 0) :
    ∃ w', ({ w with stage := .dispatch rest } : World).handleEvent .debug (.connection k) input = .ok w' ∧
      CloseStarted w k w' := by
  obtain ⟨hinv, henabled, _⟩ := h.entered hstage
  have hread : TcpConnection.handleRead .debug (w.entered (.connection k) rest) k input.readFd input.acts = _ :=
    handleRead_close hinv (hinv.opened_of_enabled henabled) hret
  refine ⟨_, by rw [handleEvent_entered, if_pos hready, World.readCallback, hread, ok_bind, pure_eq_ok], ?_⟩
  exact (hinv.closeStarted_shape k input.readFd.inputBuffer).1.handled

theorem Inv.offered_by_read (h : w.Inv life) (input : HandlerInput)
    (hstage : w.stage = .dispatch (.connection k :: rest))
    (hready : (w.poller.channel (.connection k)).revents &&& (Poll.pollin ||| Poll.pollpri) ≠ 0)
    (hret : input.readFd.ret ≠ 0) :
    ∃ w', ({ w with stage := .dispatch rest } : World).handleEvent .debug (.connection k) input = .ok w' ∧
      ∃ i, w'.trace k = w.trace k ++ Lifecycle.message input.readFd.ret i := by
  obtain ⟨hinv, henabled, _⟩ := h.entered hstage
  obtain ⟨v, hv, _, htrace⟩ := hinv.handleRead_calls (hinv.opened_of_enabled henabled) input.readFd hret input.acts
  refine ⟨v.setEventHandling (.connection k) false, ?_, _, htrace⟩
  rw [handleEvent_entered, if_pos hready, World.readCallback, hv, ok_bind, pure_eq_ok]

theorem calls_of_log (hlog : w'.log = w.log) (o : Observation) : w'.calls k o = w.calls k o := by
  rw [calls, World.trace, hlog, calls, World.trace]

/-- A step that neither closes the connection nor handles an error of it. -/
def Overlooks (w : World) (k : ℕ) (w' : World) : Prop :=
  w'.calls k .handleClose = w.calls k .handleClose ∧ w'.calls k .handleError = w.calls k .handleError

theorem Inv.overlooked (h : w.Inv life) (hstage : w.stage = .dispatch (.connection k :: rest))
    (hnot : ¬ ((w.poller.channel (.connection k)).revents &&& (Poll.pollin ||| Poll.pollpri) ≠ 0 ∧
      input.readFd.ret = 0)) :
    ∃ w', ({ w with stage := .dispatch rest } : World).handleEvent .debug (.connection k) input = .ok w' ∧
      w.Overlooks k w' := by
  by_cases hready : (w.poller.channel (.connection k)).revents &&& (Poll.pollin ||| Poll.pollpri) = 0
  · obtain ⟨w', hw', _, _, _, _, hlog⟩ := ignored rest input hready
    exact ⟨w', hw', calls_of_log hlog _, calls_of_log hlog _⟩
  · obtain ⟨w', hw', i, htrace⟩ := h.offered_by_read input hstage hready fun hret => hnot ⟨hready, hret⟩
    refine ⟨w', hw', ?_, ?_⟩
    · rw [calls_append htrace]
      rfl
    · rw [calls_append htrace]
      rfl

theorem Inv.connection_returns (h : w.Inv life) (input : HandlerInput)
    (hstage : w.stage = .dispatch (.connection k :: rest)) :
    ∃ w', ({ w with stage := .dispatch rest } : World).handleEvent .debug (.connection k) input = .ok w' := by
  by_cases hends : (w.poller.channel (.connection k)).revents &&& (Poll.pollin ||| Poll.pollpri) ≠ 0 ∧
      input.readFd.ret = 0
  · obtain ⟨w', hw', _⟩ := h.closed_by_read hstage hends.1 hends.2
    exact ⟨w', hw'⟩
  · obtain ⟨w', hw', _⟩ := h.overlooked hstage hends
    exact ⟨w', hw'⟩

end Handling

/-- Wherever the server has got to, `handle_event` answers a terminal condition only through a read
that finds the end of the stream. -/
theorem answers_iff (hw0 : construct .debug fds serverName = .ok w0) (hrun : Run Next w0 es w)
    (hstage : w.stage = .dispatch (.connection k :: rest))
    (hrevents : (w.poller.channel (.connection k)).revents = revents) (input : HandlerInput) :
    (∃ w', ({ w with stage := .dispatch rest } : World).handleEvent .debug (.connection k) input = .ok w' ∧
        w.Answers k revents w') ↔
      (Poll.HungUp revents ∨ Poll.Broken revents →
        revents &&& (Poll.pollin ||| Poll.pollpri) ≠ 0 ∧ input.readFd.ret = 0) := by
  obtain ⟨life, h⟩ := run_inv hw0 hrun
  subst hrevents
  constructor
  · rintro ⟨w', hw', hanswers⟩ hterminal
    by_contra hnot
    obtain ⟨v, hv, hclose, herror⟩ := h.overlooked hstage hnot
    obtain rfl : v = w' := Except.ok.inj (hv.symm.trans hw')
    rcases hterminal with hhup | hbroken
    · exact not_closeStarted hclose (hanswers.hungUp hhup)
    · rcases hanswers.broken hbroken with hless | hstarted
      · omega
      · exact not_closeStarted hclose hstarted
  · intro hcond
    by_cases hterminal : Poll.HungUp (w.poller.channel (.connection k)).revents ∨
        Poll.Broken (w.poller.channel (.connection k)).revents
    · obtain ⟨hready, hret⟩ := hcond hterminal
      obtain ⟨w', hw', hclose⟩ := h.closed_by_read hstage hready hret
      exact ⟨w', hw', fun _ => hclose, fun _ => Or.inr hclose⟩
    · obtain ⟨w', hw'⟩ := h.connection_returns input hstage
      exact ⟨w', hw', fun hhup => absurd (Or.inl hhup) hterminal, fun hbroken => absurd (Or.inr hbroken) hterminal⟩

def reports (revents : Int32) (is : List ℕ) : PollResult :=
  ⟨is.length, fun i => if i ∈ is then revents.toInt16 else 0⟩

def brokenReported : List ServerEvent := oneConnection ++ [.poll (reports (Poll.pollin ||| Poll.pollerr) [3])]

theorem answers_iff_ended : ∃ w0 w, construct .debug exampleFds "server" = .ok w0 ∧ Run Next w0 brokenReported w ∧
    Poll.Broken (Poll.pollin ||| Poll.pollerr) ∧
    ∃ w', ({ w with stage := .dispatch [] } : World).handleEvent .debug (.connection 0) (reads 0) = .ok w' ∧
      w.Answers 0 (Poll.pollin ||| Poll.pollerr) w' := by
  obtain ⟨w0, w, hw0, hrun, hend⟩ := run_of_advance exampleFds "server" brokenReported
    (fun w => (w.stage, (w.poller.channel (.connection 0)).revents))
    (a := (.dispatch [.connection 0], Poll.pollin ||| Poll.pollerr)) (by decide +kernel)
  obtain ⟨hstage, hrevents⟩ := Prod.mk.inj hend
  refine ⟨w0, w, hw0, hrun, by unfold Poll.Broken; decide, (answers_iff hw0 hrun hstage hrevents (reads 0)).mpr ?_⟩
  exact fun _ => ⟨by decide, by decide⟩

def resetRevents : Int32 := Poll.pollin ||| Poll.pollerr ||| Poll.pollhup

def resetReported : List ServerEvent := oneConnection ++ [.poll (reports resetRevents [3])]

theorem reset_ignored : ∃ w0 w, construct .debug exampleFds "server" = .ok w0 ∧ Run Next w0 resetReported w ∧
    w.stage = .dispatch [.connection 0] ∧ (w.poller.channel (.connection 0)).revents = resetRevents ∧
    (w.connection 0).map TcpConnection.state = some .connected ∧ Poll.Broken resetRevents ∧
    ¬ ∃ w', ({ w with stage := .dispatch [] } : World).handleEvent .debug (.connection 0) (reads (-1)) = .ok w' ∧
      w.Answers 0 resetRevents w' := by
  obtain ⟨w0, w, hw0, hrun, hend⟩ := run_of_advance exampleFds "server" resetReported
    (fun w => (w.stage, (w.poller.channel (.connection 0)).revents, (w.connection 0).map TcpConnection.state))
    (a := (.dispatch [.connection 0], resetRevents, some .connected)) (by decide +kernel)
  simp only [Prod.mk.injEq] at hend
  obtain ⟨hstage, hrevents, hstate⟩ := hend
  have hbroken : Poll.Broken resetRevents := by
    unfold Poll.Broken
    decide
  refine ⟨w0, w, hw0, hrun, hstage, hrevents, hstate, hbroken, ?_⟩
  rintro ⟨w', hw', hanswers⟩
  obtain ⟨life, h⟩ := run_inv hw0 hrun
  have hfailed : (reads (-1)).readFd.ret ≠ 0 := by decide
  obtain ⟨v, hv, hclose, herror⟩ := h.overlooked hstage fun hends => hfailed hends.2
  obtain rfl : v = w' := Except.ok.inj (hv.symm.trans hw')
  rcases hanswers.broken hbroken with hless | hstarted
  · omega
  · exact not_closeStarted hclose hstarted

end World

end Penduo
