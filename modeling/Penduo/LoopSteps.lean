import Penduo.EventLoop

set_option autoImplicit false
set_option linter.unusedSectionVars false

namespace Penduo

open LabelledRuns

theorem CallState.isIdle_iff {T F : Type} {c : CallState T F} : c.isIdle = true ↔ c = .idle := by
  cases c <;> simp [CallState.isIdle]

namespace LoopState

variable {T F : Type} [DecidableEq T] {capacity : ℕ} {s s' : LoopState T F} {e : LoopEvent T F}

/-- Everything a step can do, with the guard under which it does it. -/
inductive Moves (capacity : ℕ) (s : LoopState T F) : LoopEvent T F → LoopState T F → Prop
  | push (t : Thread T) (f : F) (hidle : s.calls t = .idle) (hmay : s.mayCall t = true) :
      Moves capacity s (.push t f)
        { s with
          loop := s.loop.pushFunctor (s.nextPushed t f)
          pushes := s.pushes ++ [s.nextPushed t f]
          calls := Function.update s.calls t (.pushed (s.nextPushed t f)) }
  | testPushed (t : Thread T) (q : Pushed T F) (hcall : s.calls t = .pushed q) :
      Moves capacity s (.test t) (s.setCall t (if s.loop.needsWakeup (t = .loop) then .waking q else .idle))
  | testQuit (t : Thread T) (hcall : s.calls t = .quitSet) :
      Moves capacity s (.test t) (s.setCall t (if t = .loop then .idle else .quitWaking))
  | write (t : Thread T) (q : Pushed T F) (hcall : s.calls t = .waking q)
      (hroom : s.loop.wakeupTokens < capacity) :
      Moves capacity s (.write t) { s.setCall t .idle with loop := s.loop.wakeup }
  | writeQuit (t : Thread T) (hcall : s.calls t = .quitWaking) (hroom : s.loop.wakeupTokens < capacity) :
      Moves capacity s (.write t) { s.setCall t .idle with loop := s.loop.wakeup, quitReturned := true }
  | quit (t : Thread T) (hidle : s.calls t = .idle) (hmay : s.mayCall t = true) :
      Moves capacity s (.quit t) { s.setCall t .quitSet with loop := { s.loop with quit := true } }
  | enter (hphase : s.phase = .outside) (hfree : s.calls .loop = .idle) (hlooping : s.loop.looping = false) :
      Moves capacity s .enter { s with phase := .entered, loop := { s.loop with looping := true } }
  | clear (hphase : s.phase = .entered) :
      Moves capacity s .clear { s with phase := .testing, loop := { s.loop with quit := false } }
  | leave (hphase : s.phase = .testing) (hquit : s.loop.quit = true) :
      Moves capacity s .check { s with phase := .outside, loop := { s.loop with looping := false } }
  | iterate (hphase : s.phase = .testing) (hquit : s.loop.quit = false) :
      Moves capacity s .check { s with phase := .polling }
  | poll (succeeded : Bool) (hphase : s.phase = .polling) :
      Moves capacity s (.poll succeeded)
        { s with phase := .dispatching, wakeReported := succeeded && decide (0 < s.loop.wakeupTokens) }
  | readToken (hphase : s.phase = .dispatching) (hfree : s.calls .loop = .idle)
      (hreported : s.wakeReported = true) :
      Moves capacity s .readToken { s with wakeReported := false, loop := s.loop.wakeupfdHandleRead }
  | dispatched (hphase : s.phase = .dispatching) (hfree : s.calls .loop = .idle)
      (hreported : s.wakeReported = false) :
      Moves capacity s .dispatched
        { s with phase := .swapping, loop := { s.loop with callingPendingFunctors := true } }
  | swap (hphase : s.phase = .swapping) :
      Moves capacity s .swap
        { s with phase := .running, batch := s.loop.pendingFunctors, batches := s.batches + 1,
                 loop := { s.loop with pendingFunctors := [] } }
  | start (q : Pushed T F) (rest : List (Pushed T F)) (hphase : s.phase = .running)
      (hbatch : s.batch = q :: rest) :
      Moves capacity s .start
        { s with phase := .inFunctor, batch := rest, started := s.started ++ [(q, s.batches)] }
  | ret (hphase : s.phase = .inFunctor) (hfree : s.calls .loop = .idle) :
      Moves capacity s .ret { s with phase := .running }
  | batchDone (hphase : s.phase = .running) (hbatch : s.batch = []) :
      Moves capacity s .batchDone
        { s with phase := .unwinding, loop := { s.loop with callingPendingFunctors := false } }
  | unwound (hphase : s.phase = .unwinding) (hfree : s.calls .loop = .idle) :
      Moves capacity s .unwound { s with phase := .testing }

theorem moves_of_step (h : step capacity s e = some s') : Moves capacity s e s' := by
  cases e with
  | push t f =>
    simp only [step, Option.ite_none_right_eq_some, Bool.and_eq_true, CallState.isIdle_iff,
      Option.some.injEq] at h
    obtain ⟨⟨hidle, hmay⟩, rfl⟩ := h
    exact .push t f hidle hmay
  | test t =>
    simp only [step] at h
    split at h <;> simp only [Option.some.injEq, reduceCtorEq] at h <;> subst h
    · exact .testPushed t _ ‹_›
    · exact .testQuit t ‹_›
  | write t =>
    simp only [step] at h
    split at h <;> simp only [Option.ite_none_right_eq_some, Option.some.injEq, reduceCtorEq] at h <;>
      obtain ⟨hroom, rfl⟩ := h
    · exact .write t _ ‹_› hroom
    · exact .writeQuit t ‹_› hroom
  | quit t =>
    simp only [step, Option.ite_none_right_eq_some, Bool.and_eq_true, CallState.isIdle_iff,
      Option.some.injEq] at h
    obtain ⟨⟨hidle, hmay⟩, rfl⟩ := h
    exact .quit t hidle hmay
  | enter =>
    simp only [step, Option.ite_none_right_eq_some, Option.some.injEq] at h
    obtain ⟨⟨hphase, hfree, hlooping⟩, rfl⟩ := h
    exact .enter hphase (CallState.isIdle_iff.mp hfree) hlooping
  | clear =>
    simp only [step, Option.ite_none_right_eq_some, Option.some.injEq] at h
    obtain ⟨hphase, rfl⟩ := h
    exact .clear hphase
  | check =>
    simp only [step, Option.ite_none_right_eq_some] at h
    obtain ⟨hphase, h⟩ := h
    split_ifs at h with hquit <;> simp only [Option.some.injEq] at h <;> subst h
    · exact .leave hphase hquit
    · exact .iterate hphase (Bool.not_eq_true _ ▸ hquit)
  | poll succeeded =>
    simp only [step, Option.ite_none_right_eq_some, Option.some.injEq] at h
    obtain ⟨hphase, rfl⟩ := h
    exact .poll succeeded hphase
  | readToken =>
    simp only [step, Option.ite_none_right_eq_some, Option.some.injEq] at h
    obtain ⟨⟨hphase, hfree, hreported⟩, rfl⟩ := h
    exact .readToken hphase (CallState.isIdle_iff.mp hfree) hreported
  | dispatched =>
    simp only [step, Option.ite_none_right_eq_some, Option.some.injEq] at h
    obtain ⟨⟨hphase, hfree, hreported⟩, rfl⟩ := h
    exact .dispatched hphase (CallState.isIdle_iff.mp hfree) hreported
  | swap =>
    simp only [step, Option.ite_none_right_eq_some, Option.some.injEq] at h
    obtain ⟨hphase, rfl⟩ := h
    exact .swap hphase
  | start =>
    simp only [step] at h
    split at h <;> simp only [Option.ite_none_right_eq_some, Option.some.injEq, reduceCtorEq] at h
    obtain ⟨hphase, rfl⟩ := h
    exact .start _ _ hphase ‹_›
  | ret =>
    simp only [step, Option.ite_none_right_eq_some, Option.some.injEq] at h
    obtain ⟨⟨hphase, hfree⟩, rfl⟩ := h
    exact .ret hphase (CallState.isIdle_iff.mp hfree)
  | batchDone =>
    simp only [step, Option.ite_none_right_eq_some, List.isEmpty_iff, Option.some.injEq] at h
    obtain ⟨⟨hphase, hbatch⟩, rfl⟩ := h
    exact .batchDone hphase hbatch
  | unwound =>
    simp only [step, Option.ite_none_right_eq_some, Option.some.injEq] at h
    obtain ⟨⟨hphase, hfree⟩, rfl⟩ := h
    exact .unwound hphase (CallState.isIdle_iff.mp hfree)

abbrev LoopRun (capacity : ℕ) (s : LoopState T F) (es : List (LoopEvent T F)) (s' : LoopState T F) : Prop :=
  Run (Next (step capacity)) s es s'

theorem LoopRun.keeps {I : LoopState T F → Prop} {es : List (LoopEvent T F)}
    (h : LoopRun capacity init es s) (hinit : I init)
    (hstep : ∀ s e s', I s → Moves capacity s e s' → I s') : I s :=
  Run.invariant (fun s e s' hs hn => hstep s e s' hs (moves_of_step hn)) h hinit

section LoopCalls

structure LoopCalls (s : LoopState T F) : Prop where
  calling : s.loop.callingPendingFunctors = true ↔
    s.phase = .swapping ∨ s.phase = .running ∨ s.phase = .inFunctor
  busy : s.calls .loop ≠ .idle → s.phase.userCode = true
  waking : ∀ q, s.calls .loop = .waking q → s.phase = .inFunctor

theorem LoopCalls.of_setCall_other {t : T} {c : CallState T F} (h : s.LoopCalls)
    (hphase : s'.phase = s.phase)
    (hcalling : s'.loop.callingPendingFunctors = s.loop.callingPendingFunctors)
    (hcalls : s'.calls = Function.update s.calls (.other t) c) : s'.LoopCalls := by
  have hloop : s'.calls .loop = s.calls .loop := by
    rw [hcalls]
    exact Function.update_of_ne (by simp) _ _
  exact ⟨by rw [hcalling, hphase]; exact h.calling, by rw [hloop, hphase]; exact h.busy,
    by rw [hloop, hphase]; exact h.waking⟩

theorem LoopCalls.of_free {s : LoopState T F} (hfree : s.calls .loop = .idle)
    (hcalling : s.loop.callingPendingFunctors = true ↔
      s.phase = .swapping ∨ s.phase = .running ∨ s.phase = .inFunctor) : s.LoopCalls where
  calling := hcalling
  busy h := absurd hfree h
  waking q h := by simp [hfree] at h

theorem LoopCalls.free (h : s.LoopCalls) (hphase : s.phase.userCode = false) : s.calls .loop = .idle := by
  by_contra hne
  simp [h.busy hne] at hphase

theorem Moves.loopCalls (h : s.LoopCalls) (hm : Moves capacity s e s') : s'.LoopCalls := by
  cases hm with
  | push t f hidle hmay =>
    cases t with
    | other t => exact h.of_setCall_other rfl rfl rfl
    | loop => exact ⟨h.calling, fun _ => hmay, fun q hq => by simp at hq⟩
  | testPushed t q hcall =>
    cases t with
    | other t => exact h.of_setCall_other rfl rfl rfl
    | loop =>
      have huser := h.busy (by simp [hcall])
      refine ⟨h.calling, fun _ => huser, fun q' hq' => ?_⟩
      simp only [setCall, Function.update_self, EventLoop.needsWakeup] at hq'
      split_ifs at hq' with hcalling
      rcases h.calling.mp (by simpa using hcalling) with hp | hp | hp
      · simp [hp, Phase.userCode] at huser
      · simp [hp, Phase.userCode] at huser
      · exact hp
  | testQuit t hcall =>
    cases t with
    | other t => exact h.of_setCall_other rfl rfl rfl
    | loop => exact .of_free (by simp [setCall]) h.calling
  | write t q hcall hroom =>
    cases t with
    | other t => exact h.of_setCall_other rfl rfl rfl
    | loop => exact .of_free (by simp [setCall]) h.calling
  | writeQuit t hcall hroom =>
    cases t with
    | other t => exact h.of_setCall_other rfl rfl rfl
    | loop => exact .of_free (by simp [setCall]) h.calling
  | quit t hidle hmay =>
    cases t with
    | other t => exact h.of_setCall_other rfl rfl rfl
    | loop => exact ⟨h.calling, fun _ => hmay, fun q hq => by simp [setCall] at hq⟩
  | enter hphase hfree _ => exact .of_free hfree (by simpa [hphase] using h.calling)
  | clear hphase =>
    exact .of_free (h.free (by simp [hphase, Phase.userCode])) (by simpa [hphase] using h.calling)
  | leave hphase _ =>
    exact .of_free (h.free (by simp [hphase, Phase.userCode])) (by simpa [hphase] using h.calling)
  | iterate hphase _ =>
    exact .of_free (h.free (by simp [hphase, Phase.userCode])) (by simpa [hphase] using h.calling)
  | poll succeeded hphase =>
    exact .of_free (h.free (by simp [hphase, Phase.userCode])) (by simpa [hphase] using h.calling)
  | readToken hphase hfree _ => exact .of_free hfree h.calling
  | dispatched hphase hfree _ => exact .of_free hfree (by simp)
  | swap hphase =>
    exact .of_free (h.free (by simp [hphase, Phase.userCode])) (by simpa [hphase] using h.calling)
  | start q rest hphase hbatch =>
    exact .of_free (h.free (by simp [hphase, Phase.userCode])) (by simpa [hphase] using h.calling)
  | ret hphase hfree => exact .of_free hfree (by simpa [hphase] using h.calling)
  | batchDone hphase _ => exact .of_free (h.free (by simp [hphase, Phase.userCode])) (by simp)
  | unwound hphase hfree => exact .of_free hfree (by simpa [hphase] using h.calling)

theorem run_loopCalls {es : List (LoopEvent T F)} (h : LoopRun capacity init es s) : s.LoopCalls :=
  h.keeps (.of_free rfl (by simp [init, EventLoop.new])) fun _ _ _ hs hm => hm.loopCalls hs

end LoopCalls

end LoopState

end Penduo
