import Penduo.UserCalls

set_option autoImplicit false

namespace Penduo

namespace Poller

variable {κ : Type} [DecidableEq κ] {p p' : Poller κ} {b : Build} {c d : κ} {ev : Int32}

def revents (p : Poller κ) (c : κ) : Int32 := (p.channel c).revents

theorem setChannel_revents {ch : Channel} (hch : ch.revents = p.revents c) :
    (p.setChannel c ch).revents d = p.revents d := by
  by_cases hdc : d = c
  · subst hdc
    simpa [revents, setChannel] using hch
  · simp [revents, setChannel, Function.update_of_ne hdc]

theorem updateChannel_revents : Yields (fun p' => p'.revents d = p.revents d) (p.updateChannel b c) := by
  intro p' hok
  simp only [updateChannel] at hok
  split_ifs at hok
  · obtain ⟨_, _, hok⟩ := bind_eq_ok.mp hok
    obtain rfl := Except.ok.inj hok
    exact setChannel_revents rfl
  all_goals
    obtain ⟨_, _, hok⟩ := bind_eq_ok.mp hok
    obtain ⟨_, _, hok⟩ := bind_eq_ok.mp hok
    obtain ⟨_, _, hok⟩ := bind_eq_ok.mp hok
    obtain ⟨_, _, hok⟩ := bind_eq_ok.mp hok
    obtain ⟨_, _, hok⟩ := bind_eq_ok.mp hok
    obtain rfl := Except.ok.inj hok
    rfl

theorem setEvents_revents : Yields (fun p' => p'.revents d = p.revents d) (p.setEvents b c ev) := by
  intro p' hok
  obtain ⟨q, hq, hok⟩ := bind_eq_ok.mp hok
  obtain rfl := Except.ok.inj hok
  refine (setChannel_revents ?_).trans ((updateChannel_revents q hq).trans (setChannel_revents ?_))
  · rfl
  · rfl

theorem renumberMoved_revents (idx : ℤ) : Yields (fun p' => p'.revents d = p.revents d) (p.renumberMoved b idx) := by
  unfold renumberMoved
  iterate 3
    apply Yields.skip
    intro _ _
  exact yields_ok (setChannel_revents rfl)

theorem removeChannel_revents : Yields (fun p' => p'.revents d = p.revents d) (p.removeChannel b c) := by
  unfold removeChannel
  iterate 7
    apply Yields.skip
    intro _ _
  intro p' hok
  dsimp only at hok
  split_ifs at hok
  · obtain ⟨q, hq, hok⟩ := bind_eq_ok.mp hok
    obtain rfl := Except.ok.inj hok
    have hrevents := renumberMoved_revents (d := d) _ q hq
    exact hrevents
  · obtain rfl := Except.ok.inj hok
    rfl

theorem remove_revents : Yields (fun p' => p'.revents d = p.revents d) (Channel.remove b p c) := by
  unfold Channel.remove
  apply Yields.skip
  intro _ _
  apply Yields.skip
  intro _ _ q hok
  rw [removeChannel_revents q hok]
  exact setChannel_revents rfl

end Poller

inductive LoopCall
  | queueInLoop (f : Functor)
  | queueElsewhere (f : ℕ)
  | quit
  | quitElsewhere
deriving DecidableEq, Repr

def EventLoop.perform (l : EventLoop Functor) : LoopCall → EventLoop Functor
  | .queueInLoop f => l.queueInLoop f
  | .queueElsewhere f => (l.pushFunctor (.user f)).wakeup
  | .quit => { l with quit := true }
  | .quitElsewhere => { l with quit := true }.wakeup

theorem EventLoop.perform_wakeupTokens (l : EventLoop Functor) (c : LoopCall) :
    l.wakeupTokens ≤ (l.perform c).wakeupTokens := by
  cases c with
  | queueInLoop f =>
    simp only [perform, queueInLoop]
    split_ifs
    · exact Nat.le_succ _
    · exact le_rfl
  | quit => exact le_rfl
  | queueElsewhere | quitElsewhere => exact Nat.le_succ _

theorem EventLoop.foldl_wakeupTokens (l : EventLoop Functor) (calls : List LoopCall) :
    l.wakeupTokens ≤ (calls.foldl perform l).wakeupTokens := by
  induction calls generalizing l with
  | nil => exact le_rfl
  | cons c calls ih => exact (l.perform_wakeupTokens c).trans (ih _)

def UserAction.loopCall : UserAction → Option LoopCall
  | .queueInLoop f => some (.queueInLoop (.user f))
  | .queueElsewhere f => some (.queueElsewhere f)
  | .quit => some .quit
  | .receive _ | .start => none

namespace World

variable {w w' v : World} {b : Build} {k : ℕ} {c : ChannelId} {cs ds : List LoopCall}

structure Performs (calls : List LoopCall) (w w' : World) : Prop where
  loop : w'.loop = calls.foldl EventLoop.perform w.loop
  stage : w'.stage = w.stage
  revents : w'.poller.revents .wakeup = w.poller.revents .wakeup

theorem Performs.trans (h : Performs cs w v) (h' : Performs ds v w') : Performs (cs ++ ds) w w' where
  loop := by rw [h'.loop, h.loop, List.foldl_append]
  stage := h'.stage.trans h.stage
  revents := h'.revents.trans h.revents

def Calls (w w' : World) : Prop := ∃ calls, Performs calls w w'

theorem Performs.calls (h : Performs cs w w') : Calls w w' := ⟨cs, h⟩

theorem calls_ok (h : Performs [] w w') : Yields (Calls w) (.ok w') := yields_ok h.calls

theorem calls_bind {x : Except Fault World} {f : World → Except Fault World} (hx : Yields (Calls w) x)
    (hf : ∀ v, Yields (Calls v) (f v)) : Yields (Calls w) (x >>= f) := by
  intro w' hok
  obtain ⟨v, hv, hok⟩ := bind_eq_ok.mp hok
  obtain ⟨cs, hcs⟩ := hx v hv
  obtain ⟨ds, hds⟩ := hf v w' hok
  exact (hcs.trans hds).calls

theorem calls_from {x : Except Fault World} (h : Performs [] w v) (hx : Yields (Calls v) x) :
    Yields (Calls w) x := by
  intro w' hok
  obtain ⟨cs, hcs⟩ := hx w' hok
  exact (h.trans hcs).calls

theorem userAction_performs (act : UserAction) : Yields (Performs act.loopCall.toList w) (w.userAction b act) := by
  cases act with
  | start =>
    intro w' hok
    obtain ⟨_, _, hok⟩ := bind_eq_ok.mp hok
    obtain ⟨p, hp, hok⟩ := bind_eq_ok.mp hok
    obtain rfl := Except.ok.inj hok
    rw [Poller.enableReading_eq] at hp
    exact ⟨rfl, rfl, Poller.setEvents_revents p hp⟩
  | _ => exact yields_ok ⟨rfl, rfl, rfl⟩

theorem userCode_performs (acts : List UserAction) :
    Yields (Performs (acts.filterMap UserAction.loopCall) w) (w.userCode b acts) := by
  induction acts generalizing w with
  | nil => exact yields_ok ⟨rfl, rfl, rfl⟩
  | cons act acts ih =>
    intro w' hok
    rw [userCode_cons] at hok
    obtain ⟨v, hv, hok⟩ := bind_eq_ok.mp hok
    have hboth := (userAction_performs act v hv).trans (ih w' hok)
    cases hact : act.loopCall <;> simpa [hact] using hboth

theorem userCode_calls (acts : List UserAction) : Yields (Calls w) (w.userCode b acts) := fun w' hok =>
  (userCode_performs acts w' hok).calls

section Channels

variable {f : Poller ChannelId → Except Fault World}
  (hf : ∀ p, p.revents .wakeup = w.poller.revents .wakeup → Yields (Calls w) (f p))

include hf

theorem calls_enableReading : Yields (Calls w) (Channel.enableReading b w.poller c >>= f) := by
  intro w' hok
  obtain ⟨p, hp, hok⟩ := bind_eq_ok.mp hok
  exact hf p (Poller.setEvents_revents p hp) w' hok

theorem calls_disableAll : Yields (Calls w) (Channel.disableAll b w.poller c >>= f) := by
  intro w' hok
  obtain ⟨p, hp, hok⟩ := bind_eq_ok.mp hok
  exact hf p (Poller.setEvents_revents p hp) w' hok

theorem calls_remove : Yields (Calls w) (Channel.remove b w.poller c >>= f) := by
  intro w' hok
  obtain ⟨p, hp, hok⟩ := bind_eq_ok.mp hok
  exact hf p (Poller.remove_revents p hp) w' hok

end Channels

theorem callConnectionCallback_calls (acts : List UserAction) :
    Yields (Calls w) (TcpConnection.callConnectionCallback b w k acts) := by
  apply Yields.skip
  intro conn _
  split_ifs
  · apply calls_from ?_ (userCode_calls acts)
    exact ⟨rfl, rfl, rfl⟩
  · exact yields_error _

theorem callMessageCallback_calls (acts : List UserAction) :
    Yields (Calls w) (TcpConnection.callMessageCallback b w k acts) := by
  apply Yields.skip
  intro conn _
  split_ifs
  · apply calls_from ?_ (userCode_calls acts)
    exact ⟨rfl, rfl, rfl⟩
  · exact yields_error _

theorem connectEstablish_calls (acts : List UserAction) :
    Yields (Calls w) (TcpConnection.connectEstablish b w k acts) := by
  iterate 3
    apply Yields.skip
    intro _ _
  apply calls_enableReading
  intro p hp
  apply calls_from ?_ (callConnectionCallback_calls acts)
  exact ⟨rfl, rfl, hp⟩

theorem connectDestoryed_calls (acts : List UserAction) :
    Yields (Calls w) (TcpConnection.connectDestoryed b w k acts) := by
  iterate 2
    apply Yields.skip
    intro _ _
  apply calls_disableAll
  intro p hp
  apply calls_bind
  · apply calls_from ?_ (callConnectionCallback_calls acts)
    exact ⟨rfl, rfl, hp⟩
  · intro v
    apply calls_remove
    intro q hq
    exact calls_ok ⟨rfl, rfl, hq⟩

theorem removeConnection_calls : Yields (Calls w) (TcpServer.removeConnection b w k) := by
  apply Yields.skip
  intro _ _
  apply Yields.skip
  intro _ _
  exact yields_ok ⟨[.queueInLoop (.connectDestoryed k)], rfl, rfl, rfl⟩

theorem handleClose_calls (acts : List UserAction) : Yields (Calls w) (TcpConnection.handleClose b w k acts) := by
  apply Yields.skip
  intro conn _
  apply Yields.skip
  intro _ _
  apply calls_disableAll
  intro p hp
  dsimp only
  cases conn.closeCallback with
  | some callback =>
    cases callback with
    | removeConnection bound =>
      apply calls_from ?_ removeConnection_calls
      exact ⟨rfl, rfl, hp⟩
    | user =>
      apply calls_from ?_ (userCode_calls acts)
      exact ⟨rfl, rfl, hp⟩
  | none => exact calls_ok ⟨rfl, rfl, hp⟩

theorem connectionRead_calls (r : ReadFd) (acts : List UserAction) :
    Yields (Calls w) (TcpConnection.handleRead b w k r acts) := by
  apply Yields.skip
  intro _ _
  dsimp only
  cases readBranch r.ret with
  | message =>
    apply calls_from ?_ (callMessageCallback_calls acts)
    exact ⟨rfl, rfl, rfl⟩
  | close =>
    apply calls_from ?_ (handleClose_calls acts)
    exact ⟨rfl, rfl, rfl⟩
  | error => exact calls_ok ⟨rfl, rfl, rfl⟩

theorem newConnection_calls (fd : ℕ) (acts : List UserAction) :
    Yields (Calls w) (TcpServer.newConnection b w fd acts) := by
  unfold TcpServer.newConnection
  dsimp only
  split_ifs
  · exact yields_error _
  · apply calls_from ?_ (connectEstablish_calls acts)
    refine ⟨rfl, rfl, ?_⟩
    simp [TcpServer.makeConnection, observe, Poller.setChannel, Poller.revents]

theorem acceptorRead_calls (r : Accepted) (errno : Int32) (acts : List UserAction) :
    Yields (Calls w) (Acceptor.handleRead b w r errno acts) := by
  apply Yields.skip
  rintro ⟨fd, _⟩ _
  dsimp only
  split_ifs
  · apply calls_from ?_ (newConnection_calls _ acts)
    exact ⟨rfl, rfl, rfl⟩
  · exact calls_ok ⟨rfl, rfl, rfl⟩
  · exact calls_ok ⟨rfl, rfl, rfl⟩

theorem readCallback_calls {input : HandlerInput} (hc : c ≠ .wakeup) :
    Yields (Calls w) (w.readCallback b input c) := by
  cases c with
  | wakeup => exact absurd rfl hc
  | timerfd => exact userCode_calls _
  | accept => exact acceptorRead_calls _ _ _
  | connection k => exact connectionRead_calls _ _

theorem setEventHandling_revents (w : World) (c d : ChannelId) (handling : Bool) :
    (w.setEventHandling c handling).poller.revents d = w.poller.revents d :=
  Poller.setChannel_revents rfl

theorem handleEvent_calls {input : HandlerInput} (hc : c ≠ .wakeup) :
    Yields (Calls w) (w.handleEvent b c input) := by
  unfold handleEvent
  apply calls_bind
  · have hrevents := setEventHandling_revents w c .wakeup true
    rw [callbacks, Channel.handleEvents_read]
    split_ifs
    · apply calls_from ?_ (readCallback_calls hc)
      exact ⟨rfl, rfl, hrevents⟩
    · exact calls_ok ⟨rfl, rfl, hrevents⟩
  · intro v
    exact calls_ok ⟨rfl, rfl, setEventHandling_revents v c .wakeup false⟩

theorem runFunctor_calls (acts : List UserAction) (f : Functor) : Yields (Calls w) (w.runFunctor b acts f) := by
  cases f with
  | user f => exact userCode_calls acts
  | connectDestoryed k => exact connectDestoryed_calls acts

theorem releaseConnection_loop : Yields (fun w' => w'.loop = w.loop) (w.releaseConnection b k) := by
  unfold releaseConnection
  split_ifs
  · iterate 2
      apply Yields.skip
      intro _ _
    exact yields_ok rfl
  · exact yields_ok rfl

theorem releaseFunctors_loop (acts : List (List UserAction)) (functors : List Functor) :
    Yields (fun w' => w'.loop =
        ((destructorCalls acts functors).filterMap UserAction.loopCall).foldl EventLoop.perform w.loop ∧
      w'.stage = .between) (w.releaseFunctors b acts functors) := by
  induction functors generalizing w acts with
  | nil => exact yields_ok ⟨rfl, rfl⟩
  | cons f functors ih =>
    intro w' hok
    cases f with
    | user f =>
      obtain ⟨v, hv, hok⟩ := bind_eq_ok.mp hok
      obtain ⟨hloop, hstage⟩ := ih acts.tail w' hok
      have hperforms := userCode_performs (acts.headD []) v hv
      rw [hperforms.loop] at hloop
      rw [destructorCalls, List.filterMap_append, List.foldl_append]
      exact ⟨hloop, hstage⟩
    | connectDestoryed k =>
      obtain ⟨v, hv, hok⟩ := bind_eq_ok.mp hok
      obtain ⟨hloop, hstage⟩ := ih acts w' hok
      rw [releaseConnection_loop v hv] at hloop
      exact ⟨hloop, hstage⟩

end World

end Penduo
