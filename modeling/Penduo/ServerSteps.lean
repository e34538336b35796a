import Penduo.ConnectionSteps

set_option autoImplicit false

namespace Penduo

namespace World

variable {w w' : World} {life : ℕ → Life} {k : ℕ} {c : ChannelId} {input : HandlerInput}

inductive Ends (created : ℕ) : Except Fault World → Prop
  | returns {w : World} (life : ℕ → Life) (h : w.Inv life) : Ends created (.ok w)
  | fatal : Ends created (.error .fatal)
  | overflow (h : 2 ^ 31 ≤ created + 1) : Ends created (.error .undefinedBehaviour)

theorem Inv.restage (h : w.Inv life) {st : LoopStage} (loop : EventLoop Functor)
    (hcount : ∀ k, (loop.pendingFunctors ++ st.unstarted).count (.connectDestoryed k) =
      (w.loop.pendingFunctors ++ w.stage.unstarted).count (.connectDestoryed k))
    (hlooping : st = .outside → loop.looping = false)
    (hst : st.Inv life w.poller loop.pendingFunctors) : ({ w with stage := st, loop } : World).Inv life :=
  { h with
    descriptors := h.descriptors.of_eq (fun _ => rfl) rfl ⟨rfl, rfl, rfl⟩
    functors := fun k => (hcount k).trans (h.functors k)
    looping := hlooping
    stage := hst }

theorem Inv.called (h : w.Inv life) (calling : Bool) :
    ({ w with loop := { w.loop with callingPendingFunctors := calling } } : World).Inv life := by
  have hold := h.stage
  exact h.restage { w.loop with callingPendingFunctors := calling } (fun _ => rfl) h.looping hold

theorem Inv.userCode_ends (h : w.Inv life) (created : ℕ) (acts : List UserAction) :
    Ends created (w.userCode .debug acts) := by
  obtain ⟨w', hw', hinv, _⟩ := h.userCode acts
  rw [hw']
  exact .returns _ hinv

section Handle

theorem Inv.readCallback (h : w.Inv life) {rest : List ChannelId} (hstage : w.stage = .dispatch rest)
    (henabled : w.poller.Enabled c) (hc : c ∉ rest) (hfresh : w.fresh input.accepted = true) :
    Ends w.created (w.readCallback .debug input c) := by
  cases c with
  | wakeup =>
    apply Ends.returns life
    apply h.frame
    exact { Frame.refl h.wellFormed h.acceptReady with functors := ⟨[], by simp [EventLoop.wakeupfdHandleRead]⟩ }
  | timerfd => exact h.userCode_ends _ _
  | accept =>
    cases haccepted : input.accepted with
    | connected fd =>
      have hfd : fd ∉ w.openFds := by simpa [fresh, haccepted] using hfresh
      by_cases hid : w.created + 1 < 2 ^ 31
      · simp only [World.readCallback, haccepted, handleRead_connected h hfd hid]
        exact (h.established hfd).userCode_ends _ _
      · simp only [World.readCallback, haccepted, handleRead_overflow h (not_lt.mp hid)]
        exact .overflow (not_lt.mp hid)
    | failed e =>
      simp only [World.readCallback, haccepted, Acceptor.handleRead, Sockets.accept_failed, error_bind]
      exact .fatal
  | connection k =>
    have hk := h.opened_of_enabled henabled
    by_cases hret : input.readFd.ret = 0
    · simp only [World.readCallback, handleRead_close h hk hret]
      exact .returns _ ((h.buffered k _).closeStarted hk hstage hc)
    · simp only [World.readCallback, handleRead_message h hk hret]
      exact ((h.buffered k _).received hk hret).userCode_ends _ _

theorem Inv.setEventHandling (h : w.Inv life) (c : ChannelId) (handling : Bool) :
    (w.setEventHandling c handling).Inv life :=
  h.sameTable (Poller.sameTable_setChannel _ _ _ _)

theorem Ends.setEventHandling {created : ℕ} {x : Except Fault World} (h : Ends created x) (c : ChannelId)
    (handling : Bool) : Ends created (x >>= fun w => pure (w.setEventHandling c handling)) := by
  cases h with
  | returns life h => exact .returns _ (h.setEventHandling c handling)
  | fatal => exact .fatal
  | overflow h => exact .overflow h

def entered (w : World) (c : ChannelId) (rest : List ChannelId) : World :=
  ({ w with stage := .dispatch rest } : World).setEventHandling c true

theorem entered_revents (w : World) (c : ChannelId) (rest : List ChannelId) :
    ((w.entered c rest).poller.channel c).revents = (w.poller.channel c).revents := by
  simp [World.entered, setEventHandling, Poller.setChannel]

theorem handleEvent_entered {α : Type} [UserCode α] (b : Build) (w : World) (c : ChannelId) (rest : List ChannelId)
    (input : HandlerInput α) :
    ({ w with stage := .dispatch rest } : World).handleEvent b c input =
      if (w.poller.channel c).revents &&& (Poll.pollin ||| Poll.pollpri) ≠ 0 then
        (w.entered c rest).readCallback b input c >>= fun v => pure (v.setEventHandling c false)
      else .ok ((w.entered c rest).setEventHandling c false) := by
  have hentered : ({ w with stage := .dispatch rest } : World).setEventHandling c true = w.entered c rest := rfl
  simp only [handleEvent, hentered, callbacks, Channel.handleEvents_read, entered_revents]
  split_ifs
  · rfl
  · rfl

theorem Inv.entered (h : w.Inv life) {rest : List ChannelId} (hstage : w.stage = .dispatch (c :: rest)) :
    (w.entered c rest).Inv life ∧ (w.entered c rest).poller.Enabled c ∧ c ∉ rest := by
  have hold := h.stage
  rw [hstage] at hold
  obtain ⟨hnodup, hall⟩ := hold
  obtain ⟨hc, hrest⟩ := List.nodup_cons.mp hnodup
  have hmoved : ({ w with stage := .dispatch rest } : World).Inv life := by
    apply h.restage w.loop
    · simp [hstage, LoopStage.unstarted]
    · intro houtside
      exact LoopStage.noConfusion houtside
    · exact ⟨hrest, fun d hd => hall d (List.mem_cons_of_mem _ hd)⟩
  have hsame := Poller.sameTable_setChannel w.poller c (w.poller.channel c).revents true
  have henabled := (PollerFrame.of_sameTable hsame h.wellFormed h.acceptReady).enabled (hall c List.mem_cons_self)
  exact ⟨hmoved.setEventHandling c true, henabled, hc⟩

theorem Inv.handleEvent (h : w.Inv life) {rest : List ChannelId} (hstage : w.stage = .dispatch (c :: rest))
    (hfresh : w.fresh input.accepted = true) :
    Ends w.created (({ w with stage := .dispatch rest } : World).handleEvent .debug c input) := by
  obtain ⟨hinv, henabled, hc⟩ := h.entered hstage
  rw [handleEvent_entered]
  split_ifs
  · apply Ends.setEventHandling
    exact hinv.readCallback rfl henabled hc hfresh
  · exact .returns _ (hinv.setEventHandling c false)

end Handle

section Release

theorem strongRefs_pos {conn : TcpConnection} (hk : k < w.created) (hconn : w.connection k = some conn)
    (hclose : conn.closeCallback = some (.removeConnection k)) : 0 < w.strongRefs k := by
  have hself : 0 < (List.range w.created).countP fun j =>
      (w.connection j).any fun conn => conn.closeCallback = some (.removeConnection k) := by
    apply List.countP_pos_iff.mpr
    exact ⟨k, List.mem_range.mpr hk, by simp [hconn, hclose]⟩
  unfold strongRefs
  omega

theorem Inv.strongRefs_pos (h : w.Inv life) (hk : life k ≠ .absent) : 0 < w.strongRefs k := by
  have hlt := h.lt_created hk
  obtain ⟨conn, hconn, _, hkeeps⟩ := h.object k hlt
  exact World.strongRefs_pos hlt hconn hkeeps.closeCallback

theorem Inv.releaseConnection (h : w.Inv life) (hk : life k ≠ .absent) : w.releaseConnection .debug k = .ok w :=
  if_neg (Nat.ne_of_gt (h.strongRefs_pos hk))

theorem Inv.popFunctor (h : w.Inv life) {f : Functor} {fs : List Functor} (hstage : w.stage = .pending [] (f :: fs)) :
    ({ w with stage := .pending [] fs } : World).Inv life := by
  have hold := h.stage
  rw [hstage] at hold
  apply h.restage w.loop
  · simp [hstage, LoopStage.unstarted]
  · intro houtside
    exact LoopStage.noConfusion houtside
  · exact ⟨hold.1, fun k hk => hold.2 k (List.mem_cons_of_mem f hk)⟩

theorem Inv.releaseFunctors {fs : List Functor} (h : w.Inv life) (hstage : w.stage = .pending [] fs)
    (acts : List (List UserAction)) :
    ∃ v : World, w.releaseFunctors .debug acts fs = .ok { v with stage := .between } ∧ v.Inv life ∧
      v.stage = .pending [] [] := by
  induction fs generalizing w acts with
  | nil => exact ⟨w, rfl, h, hstage⟩
  | cons f fs ih =>
    have hpopped := h.popFunctor hstage
    cases f with
    | user f =>
      obtain ⟨u, hu, hinv, hframe⟩ := hpopped.userCode (acts.headD [])
      obtain ⟨v, hv, hend⟩ := ih hinv hframe.stage acts.tail
      refine ⟨v, ?_, hend⟩
      simp only [World.releaseFunctors, hu, ok_bind, hv]
    | connectDestoryed k =>
      have hold := h.stage
      rw [hstage] at hold
      obtain ⟨v, hv, hend⟩ := ih hpopped rfl acts
      refine ⟨v, ?_, hend⟩
      simp only [World.releaseFunctors, hpopped.releaseConnection (hold.2 k List.mem_cons_self), ok_bind, hv]

end Release

section Step

variable {e : ServerEvent} {x : Except Fault World}

theorem Inv.quiet (h : w.Inv life) (hstage : w.stage = .between ∨ w.stage = .outside) (k : ℕ) :
    (life k).isClosing = false := by
  have hold := h.stage
  rcases hstage with hstage | hstage <;> rw [hstage] at hold <;> exact hold k

-- `::poll` is never asked to skip an entry, so none that it should skip is reported.
theorem Inv.skips (h : w.Inv life) (hquiet : ∀ k, (life k).isClosing = false) (r : PollResult) :
    Poller.PollResult.Skips r w.poller := by
  intro i pfd hpfd hneg
  obtain ⟨hi, rfl⟩ := List.getElem?_eq_some_iff.mp hpfd
  obtain ⟨c, hc, rfl⟩ := h.wellFormed.slots.covered i hi
  obtain ⟨e, hslot, hentry⟩ := h.wellFormed.slots.slot c hc
  rw [List.getElem?_eq_getElem hi, Option.some.injEq] at hslot
  exfalso
  rcases h.events hc with henabled | ⟨k, n, _, hk⟩
  · rcases hentry.1 with hfd | ⟨_, hnone⟩
    · rw [hslot, hfd] at hneg
      omega
    · exact Channel.kReadEvent_ne_none (henabled.2.symm.trans hnone)
  · have := hquiet k
    simp [hk, Life.isClosing] at this

theorem Inv.enabled_of_quiet (h : w.Inv life) (hquiet : ∀ k, (life k).isClosing = false)
    (hc : w.poller.Registered c) : w.poller.Enabled c := by
  rcases h.events hc with henabled | ⟨k, n, _, hk⟩
  · exact henabled
  · have := hquiet k
    simp [hk, Life.isClosing] at this

theorem Inv.poll (h : w.Inv life) (hstage : w.stage = .between) (r : PollResult) :
    ∃ p active, w.poller.poll .debug r [] = .ok (p, active) ∧
      ({ w with poller := p, stage := .dispatch active, iteration := w.iteration + 1 } : World).Inv life := by
  have hquiet := h.quiet (Or.inl hstage)
  obtain ⟨p, active, hok, hsame, hnodup, hactive⟩ := Poller.poll_ok (b := .debug) h.wellFormed r (h.skips hquiet r)
  refine ⟨p, active, hok, ?_⟩
  have hinv := h.sameTable hsame
  have hmoved : ({ w with poller := p, stage := .dispatch active } : World).Inv life := by
    apply hinv.restage w.loop
    · simp [hstage, LoopStage.unstarted]
    · intro houtside
      exact LoopStage.noConfusion houtside
    · exact ⟨hnodup, fun c hc => hinv.enabled_of_quiet hquiet ((hsame.registered c).mpr (hactive c hc))⟩
  have hclosing : ∀ k n, life k = .closing n → n = w.iteration + 1 := by
    intro k n hk
    have hnot := hquiet k
    simp [hk, Life.isClosing] at hnot
  exact { hmoved with
    closing := hclosing
    descriptors := hmoved.descriptors.of_eq (fun _ => rfl) rfl ⟨rfl, rfl, rfl⟩ }

theorem Inv.quiet_of_finish (h : w.Inv life) {functors : List Functor} (hstage : w.stage = .pending [] functors)
    (k : ℕ) :
    (life k).isClosing = false := by
  have hold := h.stage
  rw [hstage] at hold
  have hcount := h.functors k
  simp only [hstage, LoopStage.unstarted, List.append_nil, List.count_eq_zero.mpr (hold.1 k)] at hcount
  split_ifs at hcount with hk
  exact Bool.eq_false_of_not_eq_true hk

theorem Inv.step_finish (h : w.Inv life) {functors : List Functor} (hstage : w.stage = .pending [] functors)
    (acts : List (List UserAction)) :
    ∃ v : World, w.step .debug (.finish acts) = some (.ok { v with stage := .between }) ∧
      ({ v with stage := .between } : World).Inv life := by
  have hstep : w.step .debug (.finish acts) = some (World.releaseFunctors .debug
      { w with loop := { w.loop with callingPendingFunctors := false } } acts functors) := by
    unfold World.step
    rw [hstage]
  have hcalled := h.called false
  obtain ⟨v, hv, hinv, hstage'⟩ := hcalled.releaseFunctors hstage acts
  refine ⟨v, hstep.trans (congrArg some hv), ?_⟩
  apply hinv.restage v.loop
  · simp [hstage', LoopStage.unstarted]
  · intro houtside
    exact LoopStage.noConfusion houtside
  · exact hinv.quiet_of_finish hstage'

theorem Inv.step (h : w.Inv life) (hx : w.step .debug e = some x) : Ends w.created x := by
  cases e with
  | user acts =>
    simp only [World.step] at hx
    split_ifs at hx
    obtain rfl := Option.some.inj hx
    exact h.userCode_ends _ _
  | queueElsewhere f =>
    obtain rfl := Option.some.inj hx
    apply Ends.returns life
    apply h.frame
    exact { Frame.refl h.wellFormed h.acceptReady with functors := ⟨[f], rfl⟩ }
  | quitElsewhere =>
    obtain rfl := Option.some.inj hx
    apply Ends.returns life
    apply h.frame
    exact { Frame.refl h.wellFormed h.acceptReady with }
  | enter =>
    simp only [World.step] at hx
    split_ifs at hx with hstage
    obtain rfl := Option.some.inj hx
    simp only [check_of (h.looping hstage), ok_bind, pure_eq_ok]
    apply Ends.returns life
    apply h.restage
    · simp [hstage, LoopStage.unstarted]
    · intro houtside
      exact LoopStage.noConfusion houtside
    · exact h.quiet (Or.inr hstage)
  | leave =>
    simp only [World.step] at hx
    split_ifs at hx with hleave
    obtain rfl := Option.some.inj hx
    apply Ends.returns life
    apply h.restage
    · simp [hleave.1, LoopStage.unstarted]
    · intro _
      rfl
    · exact h.quiet (Or.inl hleave.1)
  | poll r =>
    simp only [World.step] at hx
    split_ifs at hx with hpoll
    obtain rfl := Option.some.inj hx
    obtain ⟨p, active, hok, hinv⟩ := h.poll hpoll.1 r
    simp only [hok, ok_bind, pure_eq_ok]
    exact .returns _ hinv
  | handle input =>
    simp only [World.step] at hx
    split at hx
    case h_1 c rest hstage =>
      split_ifs at hx with hfresh
      obtain rfl := Option.some.inj hx
      exact h.handleEvent hstage hfresh
    case h_2 => simp at hx
  | takePending =>
    simp only [World.step] at hx
    split_ifs at hx with hstage
    obtain rfl := Option.some.inj hx
    apply Ends.returns life
    apply h.restage
    · simp [hstage, LoopStage.unstarted]
    · intro houtside
      exact LoopStage.noConfusion houtside
    · refine ⟨fun k => by simp, fun k hk hlife => ?_⟩
      have hcount := h.functors k
      rw [hlife] at hcount
      simp only [hstage, LoopStage.unstarted, List.append_nil] at hcount
      exact List.count_eq_zero.mp hcount hk
  | run acts =>
    simp only [World.step] at hx
    split at hx
    case h_1 f rest functors hstage =>
      obtain rfl := Option.some.inj hx
      cases f with
      | user f =>
        have hold := h.stage
        rw [hstage] at hold
        have hmoved : ({ w with stage := .pending rest functors } : World).Inv life := by
          apply h.restage w.loop
          · simp [hstage, LoopStage.unstarted]
          · intro houtside
            exact LoopStage.noConfusion houtside
          · exact hold
        exact hmoved.userCode_ends _ _
      | connectDestoryed k =>
        obtain ⟨w', hok, hinv⟩ := h.connectDestoryed acts hstage
        simp only [runFunctor, hok]
        exact .returns _ hinv
    case h_2 => simp at hx
  | finish acts =>
    have hfinish := hx
    simp only [World.step] at hx
    split at hx
    case h_1 functors hstage =>
      obtain ⟨v, hv, hinv⟩ := h.step_finish hstage acts
      obtain rfl := Option.some.inj (hfinish.symm.trans hv)
      exact .returns _ hinv
    case h_2 => simp at hx

end Step

end World

end Penduo
