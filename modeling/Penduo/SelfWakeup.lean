import Penduo.LoopSteps

set_option autoImplicit false
set_option linter.unusedSectionVars false

namespace Penduo

open LabelledRuns

namespace LoopState

variable {T F : Type} [DecidableEq T] {capacity : ℕ} {s s' : LoopState T F} {e : LoopEvent T F}

section SelfAnnounced

/-- `queue_in_loop` is called on the loop thread by a handler or by a functor of the batch only. -/
def covered (s : LoopState T F) : LoopEvent T F → Bool
  | .push .loop _ => s.phase == .dispatching || s.phase == .inFunctor
  | _ => true

def Writing (s : LoopState T F) : Prop :=
  s.phase = .inFunctor ∧ ∃ q, s.calls .loop = .pushed q ∨ s.calls .loop = .waking q

/-- A functor that the loop thread has queued is swapped out before the next poll, or has its token. -/
def SelfAnnounced (s : LoopState T F) : Prop :=
  (∃ q ∈ s.loop.pendingFunctors, q.thread = .loop) →
    s.phase = .dispatching ∨ s.phase = .swapping ∨ 0 < s.loop.wakeupTokens ∨ s.Writing

theorem SelfAnnounced.of_token (h : 0 < s.loop.wakeupTokens) : s.SelfAnnounced :=
  fun _ => Or.inr (Or.inr (Or.inl h))

theorem SelfAnnounced.token (h : s.SelfAnnounced) (hd : s.phase ≠ .dispatching) (hw : s.phase ≠ .swapping)
    (hfree : s.calls .loop = .idle) (hq : ∃ q ∈ s.loop.pendingFunctors, q.thread = .loop) :
    0 < s.loop.wakeupTokens := by
  rcases h hq with hp | hp | hp | ⟨_, q, hc⟩
  · exact absurd hp hd
  · exact absurd hp hw
  · exact hp
  · simp [hfree] at hc

theorem SelfAnnounced.keep (h : s.SelfAnnounced) (hd : s.phase ≠ .dispatching) (hw : s.phase ≠ .swapping)
    (hfree : s.calls .loop = .idle) (hpending : s'.loop.pendingFunctors = s.loop.pendingFunctors)
    (htokens : s'.loop.wakeupTokens = s.loop.wakeupTokens) : s'.SelfAnnounced := by
  intro hq
  rw [hpending] at hq
  have htoken := h.token hd hw hfree hq
  rw [← htokens] at htoken
  exact Or.inr (Or.inr (Or.inl htoken))

theorem SelfAnnounced.other {t : T} {c : CallState T F} (h : s.SelfAnnounced) (hphase : s'.phase = s.phase)
    (htokens : s'.loop.wakeupTokens = s.loop.wakeupTokens)
    (hpending : (∃ q ∈ s'.loop.pendingFunctors, q.thread = .loop) → ∃ q ∈ s.loop.pendingFunctors, q.thread = .loop)
    (hcalls : s'.calls = Function.update s.calls (.other t) c) : s'.SelfAnnounced := by
  have hloop : s'.calls .loop = s.calls .loop := by
    rw [hcalls]
    exact Function.update_of_ne (by simp) _ _
  intro hq
  have hold := h (hpending hq)
  rwa [Writing, hphase, htokens, hloop]

theorem Moves.selfAnnounced (hl : s.LoopCalls) (hs : s.SelfAnnounced) (hcovered : s.covered e = true)
    (h : Moves capacity s e s') : s'.SelfAnnounced := by
  cases h with
  | push t f hidle hmay =>
    cases t with
    | other t =>
      apply hs.other
      · rfl
      · rfl
      · rintro ⟨q, hq, hthread⟩
        rcases List.mem_append.mp hq with hq | hq
        · exact ⟨q, hq, hthread⟩
        · obtain rfl := List.mem_singleton.mp hq
          simp [nextPushed] at hthread
      · rfl
    | loop =>
      intro _
      simp only [covered, Bool.or_eq_true, beq_iff_eq] at hcovered
      rcases hcovered with hp | hp
      · exact Or.inl hp
      · exact Or.inr (Or.inr (Or.inr ⟨hp, s.nextPushed .loop f, Or.inl (by simp)⟩))
  | testPushed t q hcall =>
    cases t with
    | other t => exact hs.other rfl rfl id rfl
    | loop =>
      intro hq
      rcases hs hq with hp | hp | hp | ⟨hp, _⟩
      · exact Or.inl hp
      · exact Or.inr (Or.inl hp)
      · exact Or.inr (Or.inr (Or.inl hp))
      · -- inside a functor the flag is set, so the test leads to `wakeup()`
        have hcalling := hl.calling.mpr (Or.inr (Or.inr hp))
        refine Or.inr (Or.inr (Or.inr ⟨hp, q, Or.inr ?_⟩))
        simp [setCall, EventLoop.needsWakeup, hcalling]
  | testQuit t hcall =>
    cases t with
    | other t => exact hs.other rfl rfl id rfl
    | loop =>
      intro hq
      rcases hs hq with hp | hp | hp | ⟨_, q, hc⟩
      · exact Or.inl hp
      · exact Or.inr (Or.inl hp)
      · exact Or.inr (Or.inr (Or.inl hp))
      · simp [hcall] at hc
  | write t q hcall hroom => exact .of_token (Nat.succ_pos _)
  | writeQuit t hcall hroom => exact .of_token (Nat.succ_pos _)
  | quit t hidle hmay =>
    cases t with
    | other t => exact hs.other rfl rfl id rfl
    | loop =>
      intro hq
      rcases hs hq with hp | hp | hp | ⟨_, q, hc⟩
      · exact Or.inl hp
      · exact Or.inr (Or.inl hp)
      · exact Or.inr (Or.inr (Or.inl hp))
      · simp [hidle] at hc
  | enter hphase hfree _ => exact hs.keep (by simp [hphase]) (by simp [hphase]) hfree rfl rfl
  | clear hphase =>
    exact hs.keep (by simp [hphase]) (by simp [hphase]) (hl.free (by simp [hphase, Phase.userCode])) rfl rfl
  | leave hphase _ =>
    exact hs.keep (by simp [hphase]) (by simp [hphase]) (hl.free (by simp [hphase, Phase.userCode])) rfl rfl
  | iterate hphase _ =>
    exact hs.keep (by simp [hphase]) (by simp [hphase]) (hl.free (by simp [hphase, Phase.userCode])) rfl rfl
  | poll succeeded hphase => exact fun _ => Or.inl rfl
  | readToken hphase _ _ => exact fun _ => Or.inl hphase
  | dispatched hphase _ _ => exact fun _ => Or.inr (Or.inl rfl)
  | swap hphase =>
    rintro ⟨q, hq, _⟩
    simp at hq
  | start q rest hphase hbatch =>
    exact hs.keep (by simp [hphase]) (by simp [hphase]) (hl.free (by simp [hphase, Phase.userCode])) rfl rfl
  | ret hphase hfree => exact hs.keep (by simp [hphase]) (by simp [hphase]) hfree rfl rfl
  | batchDone hphase _ =>
    exact hs.keep (by simp [hphase]) (by simp [hphase]) (hl.free (by simp [hphase, Phase.userCode])) rfl rfl
  | unwound hphase hfree => exact hs.keep (by simp [hphase]) (by simp [hphase]) hfree rfl rfl

abbrev CoveredRun (capacity : ℕ) (s : LoopState T F) (es : List (LoopEvent T F)) (s' : LoopState T F) : Prop :=
  Run (Guarded (Next (step capacity)) fun s e => s.covered e = true) s es s'

theorem run_selfAnnounced {es : List (LoopEvent T F)} (h : CoveredRun capacity init es s) :
    s.LoopCalls ∧ s.SelfAnnounced := by
  apply h.invariant (I := fun s => s.LoopCalls ∧ s.SelfAnnounced)
  · rintro s e s' ⟨hl, hs⟩ hn
    have hm := moves_of_step hn.1
    exact ⟨hm.loopCalls hl, hm.selfAnnounced hl hs hn.2⟩
  · refine ⟨.of_free rfl (by simp [init, EventLoop.new]), ?_⟩
    rintro ⟨q, hq, _⟩
    simp [init, EventLoop.new] at hq

/-- While the loop thread is in `::poll`, no functor that it has queued itself waits without a token. -/
theorem self_queued_announced {es : List (LoopEvent T F)} (h : CoveredRun capacity init es s)
    (hpoll : s.phase = .polling) : ∀ q ∈ s.loop.pendingFunctors, q.thread = .loop → 0 < s.loop.wakeupTokens := by
  intro q hq hthread
  obtain ⟨hl, hs⟩ := run_selfAnnounced h
  have hfree := hl.free (by simp [hpoll, Phase.userCode])
  exact hs.token (by simp [hpoll]) (by simp [hpoll]) hfree ⟨q, hq, hthread⟩

theorem self_queued_announced_nested : ∃ s : LoopState Unit Unit,
    s.phase = .polling ∧ s.loop.pendingFunctors.map Pushed.thread = [.loop] ∧
      ∀ q ∈ s.loop.pendingFunctors, q.thread = .loop → 0 < s.loop.wakeupTokens := by
  have hexec : (exec (guardedStep (step 8192) covered) (init : LoopState Unit Unit)
      [.push (.other ()) (), .enter, .clear, .check, .poll true, .dispatched, .swap, .start,
        .push .loop (), .test .loop, .write .loop, .ret, .batchDone, .unwound, .check]).map
        (fun s => (s.phase, s.loop.pendingFunctors.map Pushed.thread)) = some (.polling, [.loop]) := by decide
  obtain ⟨s, hrun, hs⟩ := run_of_exec_map _ hexec
  obtain ⟨hpoll, hpending⟩ := Prod.mk.inj hs
  exact ⟨s, hpoll, hpending, self_queued_announced hrun.guarded hpoll⟩

end SelfAnnounced

section Uncovered

def Outside (s : LoopState T F) : Prop := s.phase = .outside → s.loop.looping = false

theorem Moves.outside (hs : s.Outside) (h : Moves capacity s e s') : s'.Outside := by
  cases h with
  | leave => exact fun _ => rfl
  | enter | clear | iterate | poll | dispatched | swap | start | ret | batchDone | unwound => exact nofun
  | _ => exact hs

theorem run_outside {es : List (LoopEvent T F)} (h : LoopRun capacity init es s) : s.Outside :=
  h.keeps (fun _ => rfl) fun _ _ _ hs hm => hm.outside hs

def Stranded (s : LoopState T F) (q : Pushed T F) : Prop :=
  s.phase = .polling ∧ q ∈ s.loop.pendingFunctors ∧ s.loop.wakeupTokens = 0

theorem outside_stranded {q : Pushed T F} (hphase : s.phase = .outside) (hfree : s.calls .loop = .idle)
    (hlooping : s.loop.looping = false) (hq : q ∈ s.loop.pendingFunctors) (htokens : s.loop.wakeupTokens = 0) :
    ∃ es t, LoopRun capacity s es t ∧ t.Stranded q := by
  have hexec : exec (step capacity) s [.enter, .clear, .check] =
      some { s with phase := .polling, loop := { s.loop with looping := true, quit := false } } := by
    simp [exec, step, hphase, loopFree, hfree, CallState.isIdle, hlooping]
  exact ⟨_, _, run_of_exec hexec, rfl, hq, htokens⟩

theorem unwinding_stranded {q : Pushed T F} (hphase : s.phase = .unwinding) (hfree : s.calls .loop = .idle)
    (hq : q ∈ s.loop.pendingFunctors) (htokens : s.loop.wakeupTokens = 0) :
    ∃ es t, LoopRun capacity s es t ∧ t.Stranded q := by
  by_cases hquit : s.loop.quit = true
  · have hexec : exec (step capacity) s [.unwound, .check] =
        some { s with phase := .outside, loop := { s.loop with looping := false } } := by
      simp [exec, step, hphase, loopFree, hfree, CallState.isIdle, hquit]
    have hleft : ∃ es t, LoopRun capacity { s with phase := .outside, loop := { s.loop with looping := false } } es t ∧
        t.Stranded q := outside_stranded rfl hfree rfl hq htokens
    obtain ⟨es, t, hrun, ht⟩ := hleft
    exact ⟨_, t, (run_of_exec hexec).append hrun, ht⟩
  · have hexec : exec (step capacity) s [.unwound, .check] = some { s with phase := .polling } := by
      simp [exec, step, hphase, loopFree, hfree, CallState.isIdle, hquit]
    exact ⟨_, _, run_of_exec hexec, rfl, hq, htokens⟩

theorem returned_stranded {q : Pushed T F} (hphase : s.phase = .outside ∨ s.phase = .unwinding)
    (hfree : s.calls .loop = .idle) (hout : s.Outside) (hq : q ∈ s.loop.pendingFunctors)
    (htokens : s.loop.wakeupTokens = 0) : ∃ es t, LoopRun capacity s es t ∧ t.Stranded q := by
  rcases hphase with hphase | hphase
  · exact outside_stranded hphase hfree (hout hphase) hq htokens
  · exact unwinding_stranded hphase hfree hq htokens

theorem pushed_stranded {q : Pushed T F} (hphase : s.phase = .outside ∨ s.phase = .unwinding)
    (hcall : s.calls .loop = .pushed q) (hcalling : s.loop.callingPendingFunctors = false) (hout : s.Outside)
    (hq : q ∈ s.loop.pendingFunctors) (htokens : s.loop.wakeupTokens = 0) :
    ∃ es t, LoopRun capacity s es t ∧ t.Stranded q := by
  have htest : step capacity s (.test .loop) = some (s.setCall .loop .idle) := by
    simp [step, hcall, EventLoop.needsWakeup, hcalling]
  have hreturned : ∃ es t, LoopRun capacity (s.setCall .loop .idle) es t ∧ t.Stranded q :=
    returned_stranded hphase (by simp [setCall]) hout hq htokens
  obtain ⟨es, t, hrun, ht⟩ := hreturned
  exact ⟨_, t, Run.cons htest hrun, ht⟩

theorem uncovered_push_stranded {es : List (LoopEvent T F)} {f : F} (h : LoopRun capacity init es s)
    (hstep : step capacity s (.push .loop f) = some s') (huncovered : s.covered (.push .loop f) = false)
    (htokens : s.loop.wakeupTokens = 0) :
    ∃ es t, LoopRun capacity s' es t ∧ t.Stranded (s.nextPushed .loop f) := by
  have hl := run_loopCalls h
  have hout := run_outside h
  cases moves_of_step hstep with
  | push t f hidle hmay =>
    have hphase : s.phase = .outside ∨ s.phase = .unwinding := by
      simp only [mayCall] at hmay
      simp only [covered, Bool.or_eq_false_iff, beq_eq_false_iff_ne] at huncovered
      cases hp : s.phase <;> simp_all [Phase.userCode]
    have hcalling : s.loop.callingPendingFunctors = false := by
      rw [Bool.eq_false_iff]
      intro hc
      rcases hl.calling.mp hc with hp | hp | hp <;> simp [hp] at hphase
    apply pushed_stranded
    · exact hphase
    · simp
    · exact hcalling
    · exact hout
    · simp [EventLoop.pushFunctor]
    · exact htokens

def waiting (s : LoopState T F) : Phase × List (Thread T) × ℕ :=
  (s.phase, s.loop.pendingFunctors.map Pushed.thread, s.loop.wakeupTokens)

def queuedBeforeLoop : List (LoopEvent Unit Unit) := [.push .loop (), .test .loop, .enter, .clear, .check]

def queuedByDestructor : List (LoopEvent Unit Unit) :=
  [.push (.other ()) (), .test (.other ()), .write (.other ()), .enter, .clear, .check, .poll true, .readToken,
    .dispatched, .swap, .start, .ret, .batchDone, .push .loop (), .test .loop, .unwound, .check]

theorem self_queued_stranded : ∃ s t : LoopState Unit Unit, LoopRun 8192 init queuedBeforeLoop s ∧
    LoopRun 8192 init queuedByDestructor t ∧ s.waiting = (.polling, [.loop], 0) ∧ t.waiting = (.polling, [.loop], 0) := by
  have hbefore : ∃ s, LoopRun 8192 init queuedBeforeLoop s ∧ s.waiting = (.polling, [.loop], 0) :=
    run_of_exec_map waiting (by decide)
  have hdestructor : ∃ t, LoopRun 8192 init queuedByDestructor t ∧ t.waiting = (.polling, [.loop], 0) :=
    run_of_exec_map waiting (by decide)
  obtain ⟨s, hs, hsend⟩ := hbefore
  obtain ⟨t, ht, htend⟩ := hdestructor
  exact ⟨s, t, hs, ht, hsend, htend⟩

end Uncovered

end LoopState

end Penduo
