import Penduo.LoopCalls
import Penduo.SelfWakeup
import Penduo.WakeupPipe

set_option autoImplicit false

namespace Penduo

open LabelledRuns

def EventLoop.map {F G : Type} (f : F → G) (l : EventLoop F) : EventLoop G :=
  { looping := l.looping, quit := l.quit, callingPendingFunctors := l.callingPendingFunctors,
    pendingFunctors := l.pendingFunctors.map f, wakeupTokens := l.wakeupTokens }

def LoopCall.thread : LoopCall → Thread Unit
  | .queueInLoop _ | .quit => .loop
  | .queueElsewhere _ | .quitElsewhere => .other ()

def LoopStage.phase : LoopStage → Phase
  | .outside => .outside
  | .between => .testing
  | .dispatch _ => .dispatching
  | .pending .. => .running

namespace LoopState

variable {capacity : ℕ} {quiet : Bool} {s s' : LoopState Unit Functor} {l l' : EventLoop Functor} {phase phase' : Phase}
  {wakeReported wakeReported' : Bool} {batch batch' : List Functor} {c : LoopCall}

/-- `s` is a loop as the server knows it, with no call on the way. -/
structure Mirrors (s : LoopState Unit Functor) (l : EventLoop Functor) (phase : Phase) (wakeReported : Bool)
    (batch : List Functor) : Prop where
  loop : s.loop.map Pushed.functor = l
  idle : ∀ t, s.calls t = .idle
  phase : s.phase = phase
  wakeReported : s.wakeReported = wakeReported
  batch : s.batch.map Pushed.functor = batch

-- `quiet` asks the loop thread to queue functors only where its flag looks after them.
abbrev QuietNext (capacity : ℕ) (quiet : Bool) :
    LoopState Unit Functor → LoopEvent Unit Functor → LoopState Unit Functor → Prop :=
  Guarded (Next (step capacity)) fun s e => quiet = true → s.covered e = true

abbrev quietStep (capacity : ℕ) (quiet : Bool) :
    LoopState Unit Functor → LoopEvent Unit Functor → Option (LoopState Unit Functor) :=
  guardedStep (step capacity) fun s e => !quiet || s.covered e

theorem run_quiet {es : List (LoopEvent Unit Functor)}
    (h : exec (quietStep capacity quiet) s es = some s') :
    Run (QuietNext capacity quiet) s es s' := by
  apply (run_of_exec h).guarded.mono
  rintro s e t ⟨hn, hguard⟩
  exact ⟨hn, fun hquiet => by simpa [hquiet] using hguard⟩

def Reaches (capacity : ℕ) (quiet : Bool) (s : LoopState Unit Functor) (l : EventLoop Functor) (phase : Phase)
    (wakeReported : Bool) (batch : List Functor) : Prop :=
  ∃ es s', Run (QuietNext capacity quiet) s es s' ∧ s'.Mirrors l phase wakeReported batch

theorem Reaches.trans (h : Reaches capacity quiet s l phase wakeReported batch)
    (h' : ∀ t : LoopState Unit Functor, t.Mirrors l phase wakeReported batch →
      Reaches capacity quiet t l' phase' wakeReported' batch') :
    Reaches capacity quiet s l' phase' wakeReported' batch' := by
  obtain ⟨es, t, hrun, ht⟩ := h
  obtain ⟨es', s', hrun', hs'⟩ := h' t ht
  exact ⟨es ++ es', s', hrun.append hrun', hs'⟩

theorem Mirrors.reaches (h : s.Mirrors l phase wakeReported batch) :
    Reaches capacity quiet s l phase wakeReported batch := ⟨[], s, .nil, h⟩

theorem update_idle (hidle : ∀ t, s.calls t = .idle) (t : Thread Unit) :
    Function.update s.calls t .idle = s.calls := by
  rw [Function.update_eq_self_iff, hidle]

theorem Mirrors.perform (h : s.Mirrors l phase wakeReported batch)
    (hmay : c.thread = .loop → phase.userCode = true)
    (hcovered : ∀ f, c = .queueInLoop f → quiet = false ∨ phase = .dispatching ∨ phase = .inFunctor)
    (hroom : (l.perform c).wakeupTokens ≤ capacity) :
    Reaches capacity quiet s (l.perform c) phase wakeReported batch := by
  obtain ⟨rfl, hidle, rfl, rfl, rfl⟩ := h
  cases c with
  | queueInLoop f =>
    have hphase := hmay rfl
    have hguard := hcovered f rfl
    cases hcalling : s.loop.callingPendingFunctors with
    | false =>
      have hexec : exec (quietStep capacity quiet) s [.push .loop f, .test .loop] =
          some { s with
            loop := s.loop.pushFunctor (s.nextPushed .loop f), pushes := s.pushes ++ [s.nextPushed .loop f] } := by
        simp [exec, quietStep, guardedStep, step, covered, hguard, hidle, CallState.isIdle, mayCall, hphase, setCall,
          EventLoop.needsWakeup, EventLoop.pushFunctor, hcalling, update_idle]
      refine ⟨_, _, run_quiet hexec, ?_, hidle, rfl, rfl, rfl⟩
      simp [EventLoop.map, EventLoop.perform, EventLoop.queueInLoop, EventLoop.needsWakeup, EventLoop.pushFunctor,
        hcalling, nextPushed]
    | true =>
      have hroom' : s.loop.wakeupTokens < capacity := by
        simp [EventLoop.map, EventLoop.perform, EventLoop.queueInLoop, EventLoop.needsWakeup, EventLoop.pushFunctor,
          hcalling, EventLoop.wakeup] at hroom
        exact hroom
      have hexec : exec (quietStep capacity quiet) s
          [.push .loop f, .test .loop, .write .loop] =
          some { s with
            loop := (s.loop.pushFunctor (s.nextPushed .loop f)).wakeup
            pushes := s.pushes ++ [s.nextPushed .loop f] } := by
        simp [exec, quietStep, guardedStep, step, covered, hguard, hidle, CallState.isIdle, mayCall, hphase, setCall,
          EventLoop.needsWakeup, EventLoop.pushFunctor, hcalling, hroom', update_idle]
      refine ⟨_, _, run_quiet hexec, ?_, hidle, rfl, rfl, rfl⟩
      simp [EventLoop.map, EventLoop.perform, EventLoop.queueInLoop, EventLoop.needsWakeup, EventLoop.pushFunctor,
        EventLoop.wakeup, hcalling, nextPushed]
  | queueElsewhere f =>
    have hexec : exec (quietStep capacity quiet) s
        [.push (.other ()) (.user f), .test (.other ()), .write (.other ())] =
        some { s with
          loop := (s.loop.pushFunctor (s.nextPushed (.other ()) (.user f))).wakeup
          pushes := s.pushes ++ [s.nextPushed (.other ()) (.user f)] } := by
      have hroom' : s.loop.wakeupTokens < capacity := hroom
      simp [exec, quietStep, guardedStep, step, covered, hidle, CallState.isIdle, mayCall, setCall, EventLoop.needsWakeup,
        EventLoop.pushFunctor, hroom', update_idle]
    refine ⟨_, _, run_quiet hexec, ?_, hidle, rfl, rfl, rfl⟩
    simp [EventLoop.map, EventLoop.perform, EventLoop.pushFunctor, EventLoop.wakeup, nextPushed]
  | quit =>
    have hphase := hmay rfl
    have hexec : exec (quietStep capacity quiet) s [.quit .loop, .test .loop] =
        some { s with loop := { s.loop with quit := true } } := by
      simp [exec, quietStep, guardedStep, step, covered, hidle, CallState.isIdle, mayCall, hphase, setCall, update_idle]
    exact ⟨_, _, run_quiet hexec, rfl, hidle, rfl, rfl, rfl⟩
  | quitElsewhere =>
    have hexec : exec (quietStep capacity quiet) s
        [.quit (.other ()), .test (.other ()), .write (.other ())] =
        some { s with loop := { s.loop with quit := true }.wakeup, quitReturned := true } := by
      have hroom' : s.loop.wakeupTokens < capacity := hroom
      simp [exec, quietStep, guardedStep, step, covered, hidle, CallState.isIdle, mayCall, setCall, hroom', update_idle]
    exact ⟨_, _, run_quiet hexec, rfl, hidle, rfl, rfl, rfl⟩

theorem Mirrors.performs {cs : List LoopCall} (h : s.Mirrors l phase wakeReported batch)
    (hmay : ∀ c ∈ cs, c.thread = .loop → phase.userCode = true)
    (hcovered : ∀ f, .queueInLoop f ∈ cs → quiet = false ∨ phase = .dispatching ∨ phase = .inFunctor)
    (hroom : (cs.foldl EventLoop.perform l).wakeupTokens ≤ capacity) :
    Reaches capacity quiet s (cs.foldl EventLoop.perform l) phase wakeReported batch := by
  induction cs generalizing s l with
  | nil => exact h.reaches
  | cons c cs ih =>
    have hfirst : Reaches capacity quiet s (l.perform c) phase wakeReported batch := by
      apply h.perform
      · exact hmay c List.mem_cons_self
      · rintro f rfl
        exact hcovered f List.mem_cons_self
      · exact ((l.perform c).foldl_wakeupTokens cs).trans hroom
    apply hfirst.trans
    intro t ht
    apply ih ht
    · exact fun c hc => hmay c (List.mem_cons_of_mem _ hc)
    · exact fun f hf => hcovered f (List.mem_cons_of_mem _ hf)
    · exact hroom

theorem Mirrors.enter (h : s.Mirrors l .outside wakeReported batch) (hlooping : l.looping = false) :
    Reaches capacity quiet s { l with looping := true, quit := false } .testing wakeReported batch := by
  obtain ⟨rfl, hidle, hphase, rfl, rfl⟩ := h
  have hlooping' : s.loop.looping = false := hlooping
  have hexec : exec (quietStep capacity quiet) s [.enter, .clear] =
      some { s with phase := .testing, loop := { s.loop with looping := true, quit := false } } := by
    simp [exec, quietStep, guardedStep, step, covered, hphase, loopFree, hidle, CallState.isIdle, hlooping']
  exact ⟨_, _, run_quiet hexec, rfl, hidle, rfl, rfl, rfl⟩

theorem Mirrors.leave (h : s.Mirrors l .testing wakeReported batch) (hquit : l.quit = true) :
    Reaches capacity quiet s { l with looping := false } .outside wakeReported batch := by
  obtain ⟨rfl, hidle, hphase, rfl, rfl⟩ := h
  have hquit' : s.loop.quit = true := hquit
  have hexec : exec (quietStep capacity quiet) s [.check] =
      some { s with phase := .outside, loop := { s.loop with looping := false } } := by
    simp [exec, quietStep, guardedStep, step, covered, hphase, hquit']
  exact ⟨_, _, run_quiet hexec, rfl, hidle, rfl, rfl, rfl⟩

theorem Mirrors.poll (h : s.Mirrors l .testing wakeReported batch) (hquit : l.quit = false)
    (hreported : wakeReported' = true → 0 < l.wakeupTokens) :
    Reaches capacity quiet s l .dispatching wakeReported' batch := by
  obtain ⟨rfl, hidle, hphase, rfl, rfl⟩ := h
  have hquit' : s.loop.quit = false := hquit
  have hexec : exec (quietStep capacity quiet) s [.check, .poll wakeReported'] =
      some { s with phase := .dispatching, wakeReported := wakeReported' && decide (0 < s.loop.wakeupTokens) } := by
    simp [exec, quietStep, guardedStep, step, covered, hphase, hquit']
  refine ⟨_, _, run_quiet hexec, rfl, hidle, rfl, ?_, rfl⟩
  cases wakeReported' with
  | false => rfl
  | true => exact decide_eq_true (hreported rfl)

theorem Mirrors.readToken (h : s.Mirrors l .dispatching true batch) :
    Reaches capacity quiet s l.wakeupfdHandleRead .dispatching false batch := by
  obtain ⟨rfl, hidle, hphase, hreported, rfl⟩ := h
  have hexec : exec (quietStep capacity quiet) s [.readToken] =
      some { s with wakeReported := false, loop := s.loop.wakeupfdHandleRead } := by
    simp [exec, quietStep, guardedStep, step, covered, hphase, loopFree, hidle, CallState.isIdle, hreported]
  exact ⟨_, _, run_quiet hexec, rfl, hidle, hphase, rfl, rfl⟩

theorem Mirrors.takePending (h : s.Mirrors l .dispatching false batch) :
    Reaches capacity quiet s { l with callingPendingFunctors := true, pendingFunctors := [] } .running false
      l.pendingFunctors := by
  obtain ⟨rfl, hidle, hphase, hreported, rfl⟩ := h
  have hexec : exec (quietStep capacity quiet) s [.dispatched, .swap] =
      some { s with
        phase := .running, batch := s.loop.pendingFunctors, batches := s.batches + 1
        loop := { s.loop with callingPendingFunctors := true, pendingFunctors := [] } } := by
    simp [exec, quietStep, guardedStep, step, covered, hphase, loopFree, hidle, CallState.isIdle, hreported]
  exact ⟨_, _, run_quiet hexec, rfl, hidle, rfl, hreported, rfl⟩

theorem Mirrors.start {f : Functor} {rest : List Functor} (h : s.Mirrors l .running wakeReported (f :: rest)) :
    Reaches capacity quiet s l .inFunctor wakeReported rest := by
  obtain ⟨rfl, hidle, hphase, rfl, hbatch⟩ := h
  obtain ⟨q, rest', hbatch', rfl, rfl⟩ := List.map_eq_cons_iff.mp hbatch
  have hexec : exec (quietStep capacity quiet) s [.start] =
      some { s with phase := .inFunctor, batch := rest', started := s.started ++ [(q, s.batches)] } := by
    simp [exec, quietStep, guardedStep, step, covered, hphase, hbatch']
  exact ⟨_, _, run_quiet hexec, rfl, hidle, rfl, rfl, rfl⟩

theorem Mirrors.ret (h : s.Mirrors l .inFunctor wakeReported batch) :
    Reaches capacity quiet s l .running wakeReported batch := by
  obtain ⟨rfl, hidle, hphase, rfl, rfl⟩ := h
  have hexec : exec (quietStep capacity quiet) s [.ret] =
      some { s with phase := .running } := by
    simp [exec, quietStep, guardedStep, step, covered, hphase, loopFree, hidle, CallState.isIdle]
  exact ⟨_, _, run_quiet hexec, rfl, hidle, rfl, rfl, rfl⟩

theorem Mirrors.batchDone (h : s.Mirrors l .running wakeReported []) :
    Reaches capacity quiet s { l with callingPendingFunctors := false } .unwinding wakeReported [] := by
  obtain ⟨rfl, hidle, hphase, rfl, hbatch⟩ := h
  have hbatch' : s.batch = [] := List.map_eq_nil_iff.mp hbatch
  have hexec : exec (quietStep capacity quiet) s [.batchDone] =
      some { s with phase := .unwinding, loop := { s.loop with callingPendingFunctors := false } } := by
    simp [exec, quietStep, guardedStep, step, covered, hphase, hbatch']
  exact ⟨_, _, run_quiet hexec, rfl, hidle, rfl, rfl, hbatch⟩

theorem Mirrors.unwound (h : s.Mirrors l .unwinding wakeReported []) :
    Reaches capacity quiet s l .testing wakeReported [] := by
  obtain ⟨rfl, hidle, hphase, rfl, hbatch⟩ := h
  have hexec : exec (quietStep capacity quiet) s [.unwound] = some { s with phase := .testing } := by
    simp [exec, quietStep, guardedStep, step, covered, hphase, loopFree, hidle, CallState.isIdle]
  exact ⟨_, _, run_quiet hexec, rfl, hidle, rfl, rfl, hbatch⟩

end LoopState

def LoopStage.wakeReported : LoopStage → Bool
  | .dispatch rest => decide (.wakeup ∈ rest)
  | _ => false

def UserAction.queues : UserAction → Bool
  | .queueInLoop _ => true
  | _ => false

-- User code outside `loop()`, and the destructors of functors that have run, queue nothing on the loop thread.
def ServerEvent.quiet : ServerEvent → Bool
  | .user acts => acts.all fun act => !act.queues
  | .finish acts => acts.flatten.all fun act => !act.queues
  | _ => true

namespace World

variable {capacity : ℕ} {quiet : Bool} {w w0 w' : World} {s : LoopState Unit Functor} {life : ℕ → Life} {e : ServerEvent}
  {cs : List LoopCall} {fds : BaseFds} {serverName : String} {es : List ServerEvent}

/-- A step of the server whose wake-up pipe does what the kernel promises: a write that returns has
found room, and the pipe is reported when it can be read only. -/
structure PipeNext (capacity : ℕ) (w : World) (e : ServerEvent) (w' : World) : Prop where
  next : w.Next e w'
  room : w'.loop.wakeupTokens ≤ capacity
  reported : w.stage = .between → w'.stage.wakeReported = true →
    0 < w.loop.wakeupTokens ∧ w'.poller.revents .wakeup &&& (Poll.pollin ||| Poll.pollpri) ≠ 0

def Readable (w : World) : Prop :=
  w.stage.wakeReported = true → w.poller.revents .wakeup &&& (Poll.pollin ||| Poll.pollpri) ≠ 0

def Matches (w : World) (s : LoopState Unit Functor) : Prop :=
  s.Mirrors w.loop w.stage.phase w.stage.wakeReported w.stage.unstarted

theorem handleEvent_wakeup {input : HandlerInput}
    (hread : w.poller.revents .wakeup &&& (Poll.pollin ||| Poll.pollpri) ≠ 0)
    (hok : w.handleEvent .debug .wakeup input = .ok w') :
    w'.loop = w.loop.wakeupfdHandleRead ∧ w'.stage = w.stage := by
  obtain ⟨v, hv, hok⟩ := bind_eq_ok.mp hok
  obtain rfl := Except.ok.inj hok
  rw [← setEventHandling_revents w .wakeup .wakeup true] at hread
  rw [callbacks, Channel.handleEvents_read] at hv
  obtain rfl := Except.ok.inj ((if_pos hread).symm.trans hv)
  exact ⟨rfl, rfl⟩

inductive LoopMoves (w : World) : ServerEvent → World → Prop
  | user (acts : List UserAction) {w' : World} (hstage : w.stage = .outside)
      (hperforms : Performs (acts.filterMap UserAction.loopCall) w w') : LoopMoves w (.user acts) w'
  | elsewhere (e : ServerEvent) (c : LoopCall) {w' : World} (hthread : c.thread = .other ())
      (hperforms : Performs [c] w w') : LoopMoves w e w'
  | enter {w' : World} (hstage : w.stage = .outside) (hlooping : w.loop.looping = false)
      (hloop : w'.loop = { w.loop with looping := true, quit := false }) (hstage' : w'.stage = .between) :
      LoopMoves w .enter w'
  | leave {w' : World} (hstage : w.stage = .between) (hquit : w.loop.quit = true)
      (hloop : w'.loop = { w.loop with looping := false }) (hstage' : w'.stage = .outside) : LoopMoves w .leave w'
  | poll (r : PollResult) (active : List ChannelId) {w' : World} (hstage : w.stage = .between)
      (hquit : w.loop.quit = false) (hloop : w'.loop = w.loop) (hstage' : w'.stage = .dispatch active) :
      LoopMoves w (.poll r) w'
  | readToken (input : HandlerInput) (rest : List ChannelId) {w' : World}
      (hstage : w.stage = .dispatch (.wakeup :: rest)) (hrest : .wakeup ∉ rest)
      (hloop : w'.loop = w.loop.wakeupfdHandleRead) (hstage' : w'.stage = .dispatch rest) :
      LoopMoves w (.handle input) w'
  | handle (input : HandlerInput) (c : ChannelId) (rest : List ChannelId) (cs : List LoopCall) {w' : World}
      (hstage : w.stage = .dispatch (c :: rest)) (hc : c ≠ .wakeup)
      (hperforms : Performs cs { w with stage := .dispatch rest } w') : LoopMoves w (.handle input) w'
  | takePending {w' : World} (hstage : w.stage = .dispatch [])
      (hloop : w'.loop = { w.loop with callingPendingFunctors := true, pendingFunctors := [] })
      (hstage' : w'.stage = .pending w.loop.pendingFunctors w.loop.pendingFunctors) : LoopMoves w .takePending w'
  | run (acts : List UserAction) (f : Functor) (rest functors : List Functor) (cs : List LoopCall) {w' : World}
      (hstage : w.stage = .pending (f :: rest) functors)
      (hperforms : Performs cs { w with stage := .pending rest functors } w') : LoopMoves w (.run acts) w'
  | finish (acts : List (List UserAction)) (cs : List LoopCall) (functors : List Functor) {w' : World}
      (hstage : w.stage = .pending [] functors)
      (hcs : cs ⊆ acts.flatten.filterMap UserAction.loopCall)
      (hloop : w'.loop = cs.foldl EventLoop.perform { w.loop with callingPendingFunctors := false })
      (hstage' : w'.stage = .between) : LoopMoves w (.finish acts) w'

theorem Inv.loopMoves (h : w.Inv life) (hreadable : w.Readable) (hn : w.Next e w') : LoopMoves w e w' := by
  unfold Next at hn
  cases e with
  | user acts =>
    simp only [World.step] at hn
    split_ifs at hn with hstage
    exact .user acts hstage (userCode_performs acts w' (Option.some.inj hn))
  | queueElsewhere f =>
    obtain rfl := Except.ok.inj (Option.some.inj hn)
    exact .elsewhere _ (.queueElsewhere f) rfl ⟨rfl, rfl, rfl⟩
  | quitElsewhere =>
    obtain rfl := Except.ok.inj (Option.some.inj hn)
    exact .elsewhere _ .quitElsewhere rfl ⟨rfl, rfl, rfl⟩
  | enter =>
    simp only [World.step] at hn
    split_ifs at hn with hstage
    obtain ⟨_, _, hok⟩ := bind_eq_ok.mp (Option.some.inj hn)
    obtain rfl := Except.ok.inj hok
    exact .enter hstage (h.looping hstage) rfl rfl
  | leave =>
    simp only [World.step] at hn
    split_ifs at hn with hleave
    obtain rfl := Except.ok.inj (Option.some.inj hn)
    exact .leave hleave.1 hleave.2 rfl rfl
  | poll r =>
    simp only [World.step] at hn
    split_ifs at hn with hpoll
    obtain ⟨⟨p, active⟩, _, hok⟩ := bind_eq_ok.mp (Option.some.inj hn)
    obtain rfl := Except.ok.inj hok
    exact .poll r active hpoll.1 hpoll.2 rfl rfl
  | handle input =>
    simp only [World.step] at hn
    split at hn
    case h_1 c rest hstage =>
      split_ifs at hn
      by_cases hc : c = .wakeup
      · subst hc
        have hread := hreadable (by simp [hstage, LoopStage.wakeReported])
        obtain ⟨hloop, hstage'⟩ := handleEvent_wakeup (w := { w with stage := .dispatch rest }) hread
          (Option.some.inj hn)
        have hnodup := h.stage
        rw [hstage] at hnodup
        exact .readToken input rest hstage (List.nodup_cons.mp hnodup.1).1 hloop hstage'
      · obtain ⟨cs, hcs⟩ := handleEvent_calls hc w' (Option.some.inj hn)
        exact .handle input c rest cs hstage hc hcs
    case h_2 => simp at hn
  | takePending =>
    simp only [World.step] at hn
    split_ifs at hn with hstage
    obtain rfl := Except.ok.inj (Option.some.inj hn)
    exact .takePending hstage rfl rfl
  | run acts =>
    simp only [World.step] at hn
    split at hn
    case h_1 f rest functors hstage =>
      obtain ⟨cs, hcs⟩ := runFunctor_calls acts f w' (Option.some.inj hn)
      exact .run acts f rest functors cs hstage hcs
    case h_2 => simp at hn
  | finish acts =>
    simp only [World.step] at hn
    split at hn
    case h_1 functors hstage =>
      obtain ⟨hloop, hstage'⟩ := releaseFunctors_loop acts functors w' (Option.some.inj hn)
      exact .finish acts _ functors hstage (List.filterMap_subset _ (destructorCalls_subset acts functors)) hloop hstage'
    case h_2 => simp at hn

theorem Readable.performs (h : w.Readable) (hp : Performs cs w w') : w'.Readable := by
  rw [Readable, hp.stage, hp.revents]
  exact h

theorem Readable.next (h : w.Readable) (hm : LoopMoves w e w') (hn : PipeNext capacity w e w') : w'.Readable := by
  cases hm with
  | user _ _ hp | elsewhere _ _ _ hp => exact h.performs hp
  | poll r active hstage hquit hloop hstage' => exact fun hr => (hn.reported hstage hr).2
  | readToken input rest hstage hrest hloop hstage' =>
    intro hr
    rw [hstage'] at hr
    exact absurd (of_decide_eq_true hr) hrest
  | handle input c rest cs hstage hc hp =>
    have hentered : World.Readable { w with stage := .dispatch rest } := by
      intro hr
      apply h
      rw [hstage]
      exact decide_eq_true (List.mem_cons_of_mem _ (of_decide_eq_true hr))
    exact hentered.performs hp
  | run acts f rest functors cs hstage hp =>
    have hentered : World.Readable { w with stage := .pending rest functors } := nofun
    exact hentered.performs hp
  | enter _ _ _ hstage' | leave _ _ _ hstage' | takePending _ _ hstage' | finish _ _ _ _ _ _ hstage' =>
    intro hr
    rw [hstage'] at hr
    cases hr

open LoopState in
theorem Matches.performs {phase : Phase} {wakeReported : Bool} {batch : List Functor}
    (h : s.Mirrors w.loop phase wakeReported batch) (hp : Performs cs w w')
    (hmay : ∀ c ∈ cs, c.thread = .loop → phase.userCode = true)
    (hcovered : ∀ f, .queueInLoop f ∈ cs → quiet = false ∨ phase = .dispatching ∨ phase = .inFunctor)
    (hroom : w'.loop.wakeupTokens ≤ capacity) : Reaches capacity quiet s w'.loop phase wakeReported batch := by
  rw [hp.loop] at hroom ⊢
  exact h.performs hmay hcovered hroom

theorem queueInLoop_mem {acts : List UserAction} {f : Functor}
    (h : .queueInLoop f ∈ acts.filterMap UserAction.loopCall) : (acts.all fun act => !act.queues) = false := by
  obtain ⟨act, hact, hcall⟩ := List.mem_filterMap.mp h
  cases act with
  | queueInLoop g =>
    rw [List.all_eq_false]
    exact ⟨_, hact, by simp [UserAction.queues]⟩
  | _ => simp [UserAction.loopCall] at hcall

open LoopState in
theorem Matches.next (h : w.Matches s) (hm : LoopMoves w e w') (hn : PipeNext capacity w e w')
    (hquiet : quiet = true → e.quiet = true) :
    Reaches capacity quiet s w'.loop w'.stage.phase w'.stage.wakeReported w'.stage.unstarted := by
  have hroom := hn.room
  cases hm with
  | user acts hstage hp =>
    rw [Matches, hstage] at h
    rw [hp.stage, hstage]
    apply Matches.performs h hp
    · exact fun _ _ _ => rfl
    · intro f hf
      left
      by_contra hon
      have hloud := queueInLoop_mem hf
      have hsilent : (acts.all fun act => !act.queues) = true := hquiet (by simpa using hon)
      rw [hsilent] at hloud
      cases hloud
    · exact hroom
  | elsewhere e c hthread hp =>
    rw [hp.stage]
    apply Matches.performs h hp
    · intro c' hc' hloop
      obtain rfl := List.mem_singleton.mp hc'
      rw [hthread] at hloop
      cases hloop
    · intro f hf
      obtain rfl := List.mem_singleton.mp hf
      cases hthread
    · exact hroom
  | enter hstage hlooping hloop hstage' =>
    rw [Matches, hstage] at h
    rw [hloop, hstage']
    exact h.enter hlooping
  | leave hstage hquit hloop hstage' =>
    rw [Matches, hstage] at h
    rw [hloop, hstage']
    exact h.leave hquit
  | poll r active hstage hquit hloop hstage' =>
    rw [Matches, hstage] at h
    have hreported := hn.reported hstage
    rw [hstage'] at hreported
    rw [hloop, hstage']
    exact h.poll hquit fun hr => (hreported hr).1
  | readToken input rest hstage hrest hloop hstage' =>
    rw [Matches, hstage] at h
    have hbefore : (LoopStage.dispatch (.wakeup :: rest)).wakeReported = true := by simp [LoopStage.wakeReported]
    have hafter : (LoopStage.dispatch rest).wakeReported = false := by simp [LoopStage.wakeReported, hrest]
    rw [hbefore] at h
    rw [hloop, hstage', hafter]
    exact h.readToken
  | handle input c rest cs hstage hc hp =>
    rw [Matches, hstage] at h
    have hsame : (LoopStage.dispatch (c :: rest)).wakeReported = (LoopStage.dispatch rest).wakeReported := by
      simp [LoopStage.wakeReported, Ne.symm hc]
    rw [hsame] at h
    rw [hp.stage]
    apply Matches.performs (w := { w with stage := .dispatch rest }) h hp
    · exact fun _ _ _ => rfl
    · exact fun _ _ => Or.inr (Or.inl rfl)
    · exact hroom
  | takePending hstage hloop hstage' =>
    rw [Matches, hstage] at h
    rw [hloop, hstage']
    exact h.takePending
  | run acts f rest functors cs hstage hp =>
    rw [Matches, hstage] at h
    rw [hp.stage]
    apply Reaches.trans h.start
    intro t ht
    have hbody : Reaches capacity quiet t w'.loop .inFunctor false rest := by
      apply Matches.performs (w := { w with stage := .pending rest functors }) ht hp
      · exact fun _ _ _ => rfl
      · exact fun _ _ => Or.inr (Or.inr rfl)
      · exact hroom
    exact hbody.trans fun u hu => hu.ret
  | finish acts cs functors hstage hcs hloop hstage' =>
    rw [Matches, hstage] at h
    rw [hloop] at hroom
    rw [hloop, hstage']
    apply Reaches.trans h.batchDone
    intro t ht
    have hcalled : Reaches capacity quiet t (cs.foldl EventLoop.perform { w.loop with callingPendingFunctors := false })
        .unwinding false [] := by
      apply ht.performs
      · exact fun _ _ _ => rfl
      · intro f hf
        left
        by_contra hon
        have hloud := queueInLoop_mem (hcs hf)
        have hsilent : (acts.flatten.all fun act => !act.queues) = true := hquiet (by simpa using hon)
        rw [hsilent] at hloud
        cases hloud
      · exact hroom
    exact hcalled.trans fun u hu => hu.unwound

abbrev ServerRun (capacity : ℕ) (quiet : Bool) : World → List ServerEvent → World → Prop :=
  Run (Guarded (PipeNext capacity) fun _ e => quiet = true → e.quiet = true)

theorem blank_matches (fds : BaseFds) (serverName : String) :
    ({ blank fds serverName with poller := built fds } : World).Matches LoopState.init :=
  ⟨rfl, fun _ => rfl, rfl, rfl, rfl⟩

open LoopState in
theorem run_matches (hw0 : construct .debug fds serverName = .ok w0) (hrun : ServerRun capacity quiet w0 es w) :
    ∃ ds s, Run (QuietNext capacity quiet) LoopState.init ds s ∧ w.Matches s := by
  have hinv0 := construct_inv hw0
  rw [construct_eq, Except.ok.injEq] at hw0
  subst hw0
  have hsim : ∃ ds s, Run (QuietNext capacity quiet) LoopState.init ds s ∧
      (∃ life, w.Inv life) ∧ w.Readable ∧ w.Matches s :=
    hrun.simulation (R := fun w s => (∃ life, w.Inv life) ∧ w.Readable ∧ w.Matches s) ?_ ?_
  · obtain ⟨ds, s, hds, _, _, hs⟩ := hsim
    exact ⟨ds, s, hds, hs⟩
  · rintro w e w' s ⟨⟨life, hinv⟩, hreadable, hs⟩ ⟨hn, hquiet⟩
    have hm := hinv.loopMoves hreadable hn.next
    obtain ⟨ds, s', hds, hs'⟩ := hs.next hm hn hquiet
    exact ⟨ds, s', hds, hinv.next hn.next, hreadable.next hm hn, hs'⟩
  · exact ⟨⟨_, hinv0⟩, nofun, blank_matches fds serverName⟩

/-- Whatever the server does, its `EventLoop` does among other threads, one atomic step at a time. -/
theorem loop_refined (hw0 : construct .debug fds serverName = .ok w0) (hrun : Run (PipeNext capacity) w0 es w) :
    ∃ ds s, LoopState.LoopRun capacity LoopState.init ds s ∧ w.Matches s := by
  have hloud : ServerRun capacity false w0 es w := hrun.mono fun _ _ _ hn => ⟨hn, nofun⟩
  obtain ⟨ds, s, hds, hs⟩ := run_matches hw0 hloud
  exact ⟨ds, s, hds.mono fun _ _ _ hn => hn.1, hs⟩

def pipeAdvance (capacity : ℕ) (w : World) (e : ServerEvent) : Option World :=
  (w.advance e).filter fun w' => decide (w'.loop.wakeupTokens ≤ capacity ∧
    (w.stage = .between → w'.stage.wakeReported = true →
      0 < w.loop.wakeupTokens ∧ w'.poller.revents .wakeup &&& (Poll.pollin ||| Poll.pollpri) ≠ 0))

theorem pipeNext_of_advance (h : LabelledRuns.Next (pipeAdvance capacity) w e w') : PipeNext capacity w e w' := by
  obtain ⟨hadvance, hguard⟩ := Option.filter_eq_some_iff.mp h
  obtain ⟨hroom, hreported⟩ := of_decide_eq_true hguard
  exact ⟨next_of_advance hadvance, hroom, hreported⟩

theorem run_of_pipeAdvance {α : Type} (fds : BaseFds) (serverName : String) (es : List ServerEvent) (f : World → α)
    {a : α} (h : (exec (pipeAdvance capacity) { blank fds serverName with poller := built fds } es).map f = some a) :
    ∃ w0 w, construct .debug fds serverName = .ok w0 ∧ Run (PipeNext capacity) w0 es w ∧ f w = a := by
  obtain ⟨w, hrun, hf⟩ := run_of_exec_map f h
  exact ⟨_, w, construct_eq _ _ _, hrun.mono fun _ _ _ hn => pipeNext_of_advance hn, hf⟩

def closingConnection : List ServerEvent :=
  [.user [.start], .enter,
    .poll (readable [2]), .handle (accepts 10 [.queueElsewhere 7]), .takePending, .run [.queueInLoop 8], .finish,
    .poll (readable [1, 3]), .handle (reads 0), .handle (reads 0), .queueElsewhere 9]

theorem loop_refined_closing : ∃ w0 w, construct .debug exampleFds "server" = .ok w0 ∧
    Run (PipeNext 8192) w0 closingConnection w ∧
    (w.loop.pendingFunctors, w.loop.wakeupTokens) = ([.user 8, .connectDestoryed 0, .user 9], 2) ∧
    ∃ ds s, LoopState.LoopRun 8192 LoopState.init ds s ∧ w.Matches s := by
  have hexec : (exec (pipeAdvance 8192) { blank exampleFds "server" with poller := built exampleFds }
      closingConnection).map (fun w => (w.loop.pendingFunctors, w.loop.wakeupTokens)) =
        some ([.user 8, .connectDestoryed 0, .user 9], 2) := by decide +kernel
  obtain ⟨w0, w, hw0, hrun, hend⟩ := run_of_pipeAdvance exampleFds "server" closingConnection _ hexec
  exact ⟨w0, w, hw0, hrun, hend, loop_refined hw0 hrun⟩

end World

end Penduo
