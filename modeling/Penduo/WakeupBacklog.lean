import Penduo.Library.LeakyBucket
import Penduo.LoopSteps

set_option autoImplicit false
set_option linter.unusedSectionVars false

namespace Penduo

open LabelledRuns LeakyBucket

namespace LoopState

variable {T F : Type} [DecidableEq T] {capacity : ℕ} {s s' : LoopState T F} {e : LoopEvent T F}
  {es : List (LoopEvent T F)}

def isWrite : LoopEvent T F → Bool
  | .write _ => true
  | _ => false

def isPoll : LoopEvent T F → Bool
  | .poll true => true
  | _ => false

/-- The unread tokens, less the one the running iteration is going to read, are the level of a
bucket that every write fills and every iteration drains. -/
structure Backlog (es : List (LoopEvent T F)) (s : LoopState T F) : Prop where
  tokens : level isWrite isPoll es + (if s.wakeReported then 1 else 0) = s.loop.wakeupTokens
  reported : s.wakeReported = true → s.phase = .dispatching

theorem Backlog.quiet (h : Backlog es s) (hw : isWrite e = false) (hp : isPoll e = false)
    (htokens : s'.loop.wakeupTokens = s.loop.wakeupTokens) (hrep : s'.wakeReported = s.wakeReported)
    (hphase : s.wakeReported = true → s'.phase = .dispatching) : Backlog (es ++ [e]) s' where
  tokens := by simpa [level_snoc, stepLevel, hw, hp, htokens, hrep] using h.tokens
  reported hr := hphase (hrep ▸ hr)

theorem Backlog.notReported (h : Backlog es s) (hphase : s.phase ≠ .dispatching) : s.wakeReported = false := by
  by_contra hne
  exact hphase (h.reported (by simpa using hne))

theorem Backlog.write {t : Thread T} (h : Backlog es s) (hloop : s'.loop = s.loop.wakeup)
    (hrep : s'.wakeReported = s.wakeReported) (hphase : s'.phase = s.phase) :
    Backlog (es ++ [.write t]) s' where
  tokens := by
    have := h.tokens
    simp only [level_snoc, stepLevel, isWrite, if_true, hrep, hloop, EventLoop.wakeup]
    omega
  reported hr := by
    rw [hphase]
    exact h.reported (hrep ▸ hr)

theorem Moves.backlog (h : Backlog es s) (hm : Moves capacity s e s') : Backlog (es ++ [e]) s' := by
  have hleft {p : Phase} (hp : s.phase = p) (hne : p ≠ .dispatching) (q : Phase) :
      s.wakeReported = true → q = .dispatching := by
    intro hr
    rw [h.notReported (hp ▸ hne)] at hr
    cases hr
  cases hm with
  | push t f _ _ => exact h.quiet rfl rfl rfl rfl h.reported
  | testPushed t q _ => exact h.quiet rfl rfl rfl rfl h.reported
  | testQuit t _ => exact h.quiet rfl rfl rfl rfl h.reported
  | write t q _ _ => exact h.write rfl rfl rfl
  | writeQuit t _ _ => exact h.write rfl rfl rfl
  | quit t _ _ => exact h.quiet rfl rfl rfl rfl h.reported
  | enter hphase _ _ => exact h.quiet rfl rfl rfl rfl (hleft hphase (by simp) _)
  | clear hphase => exact h.quiet rfl rfl rfl rfl (hleft hphase (by simp) _)
  | leave hphase _ => exact h.quiet rfl rfl rfl rfl (hleft hphase (by simp) _)
  | iterate hphase _ => exact h.quiet rfl rfl rfl rfl (hleft hphase (by simp) _)
  | poll succeeded hphase =>
    have hrep := h.notReported (by simp [hphase])
    have htok := h.tokens
    refine ⟨?_, fun _ => rfl⟩
    cases succeeded with
    | false => simpa [level_snoc, stepLevel, isWrite, isPoll, hrep] using htok
    | true =>
      simp only [hrep, Bool.false_eq_true, if_false, Nat.add_zero] at htok
      simp only [level_snoc, stepLevel, isWrite, isPoll, Bool.false_eq_true, if_false, if_true,
        Bool.true_and, decide_eq_true_eq, htok]
      split_ifs <;> omega
  | readToken hphase _ hreported =>
    have htok := h.tokens
    refine ⟨?_, fun hr => by simp at hr⟩
    simp only [hreported, if_true] at htok
    simp only [level_snoc, stepLevel, isWrite, isPoll, Bool.false_eq_true, if_false,
      EventLoop.wakeupfdHandleRead]
    omega
  | dispatched hphase _ hreported => exact h.quiet rfl rfl rfl rfl (by simp [hreported])
  | swap hphase => exact h.quiet rfl rfl rfl rfl (hleft hphase (by simp) _)
  | start q rest hphase _ => exact h.quiet rfl rfl rfl rfl (hleft hphase (by simp) _)
  | ret hphase _ => exact h.quiet rfl rfl rfl rfl (hleft hphase (by simp) _)
  | batchDone hphase _ => exact h.quiet rfl rfl rfl rfl (hleft hphase (by simp) _)
  | unwound hphase _ => exact h.quiet rfl rfl rfl rfl (hleft hphase (by simp) _)

theorem run_backlog (h : LoopRun capacity init es s) : Backlog es s := by
  refine Run.history (fun es s e s' hs hn => (moves_of_step hn).backlog hs) h ⟨rfl, ?_⟩
  simp [init]

def InWakeup (s : LoopState T F) : Prop := ∃ q, s.calls .loop = .waking q

def Blocked (capacity : ℕ) (s : LoopState T F) : Prop := s.InWakeup ∧ capacity ≤ s.loop.wakeupTokens

def Paced (capacity : ℕ) (es : List (LoopEvent T F)) : Prop :=
  ∀ before stretch, es = before ++ stretch → stretch.countP isWrite < stretch.countP isPoll + capacity

theorem drained_eq : drained isWrite isPoll = (isPoll : LoopEvent T F → Bool) := by
  funext e
  cases e <;> simp [drained, isWrite, isPoll]

theorem InWakeup.tokens (h : LoopRun capacity init es s) (hw : s.InWakeup) :
    s.loop.wakeupTokens = level isWrite isPoll es := by
  obtain ⟨q, hq⟩ := hw
  have hphase := (run_loopCalls h).waking q hq
  have hback := run_backlog h
  rw [← hback.tokens, hback.notReported (by simp [hphase])]
  simp

theorem InWakeup.not_blocked_iff (h : LoopRun capacity init es s) (hw : s.InWakeup) :
    ¬ s.Blocked capacity ↔ Paced capacity es := by
  rw [Blocked, not_and, InWakeup.tokens h hw, le_level_iff, drained_eq]
  simp only [hw, true_imp_iff, not_exists, not_and, Nat.not_le, Paced]

/-- The loop thread stays clear of a full pipe in every state of a schedule exactly when the
schedule is paced wherever it has the thread in `wakeup()`. -/
theorem never_blocked_iff (capacity : ℕ) (es : List (LoopEvent T F)) :
    (∀ before after s, es = before ++ after → LoopRun capacity init before s → ¬ s.Blocked capacity) ↔
      ∀ before after s, es = before ++ after → LoopRun capacity init before s → s.InWakeup →
        Paced capacity before := by
  constructor
  · intro h before after s he hrun hw
    exact (InWakeup.not_blocked_iff hrun hw).mp (h before after s he hrun)
  · intro h before after s he hrun hblocked
    exact (InWakeup.not_blocked_iff hrun hblocked.1).mpr (h before after s he hrun hblocked.1) hblocked

section Overflow

structure Queuing (s : LoopState T F) : Prop where
  phase : s.phase = .inFunctor
  calling : s.loop.callingPendingFunctors = true
  idle : s.calls .loop = .idle

theorem Queuing.push_test (h : s.Queuing) (capacity : ℕ) (f : F) :
    ∃ s', LoopRun capacity s [.push .loop f, .test .loop] s' ∧
    s'.InWakeup ∧ s'.loop.wakeupTokens = s.loop.wakeupTokens ∧ s'.phase = .inFunctor ∧
    s'.loop.callingPendingFunctors = true := by
  have hexec : exec (step capacity) s [.push .loop f, .test .loop] = some
      { s with
        loop := s.loop.pushFunctor (s.nextPushed .loop f)
        pushes := s.pushes ++ [s.nextPushed .loop f]
        calls := Function.update s.calls .loop (.waking (s.nextPushed .loop f)) } := by
    simp [exec, step, h.idle, mayCall, h.phase, Phase.userCode, CallState.isIdle,
      EventLoop.needsWakeup, EventLoop.pushFunctor, h.calling, setCall]
  exact ⟨_, run_of_exec hexec, ⟨s.nextPushed .loop f, by simp⟩, rfl, h.phase, h.calling⟩

theorem Queuing.queue (h : s.Queuing) (capacity : ℕ) (f : F) (hroom : s.loop.wakeupTokens < capacity) :
    ∃ es s', LoopRun capacity s es s' ∧ s'.Queuing ∧ s'.loop.wakeupTokens = s.loop.wakeupTokens + 1 := by
  obtain ⟨u, hrun, ⟨q, hq⟩, htok, hphase, hcalling⟩ := h.push_test capacity f
  have hwrite : step capacity u (.write .loop) = some { u.setCall .loop .idle with loop := u.loop.wakeup } := by
    simp [step, hq, htok, hroom]
  refine ⟨_, _, hrun.snoc hwrite, ⟨hphase, hcalling, by simp [setCall]⟩, ?_⟩
  simp [EventLoop.wakeup, htok]

theorem Queuing.fill (h : s.Queuing) (capacity : ℕ) (f : F) (n : ℕ) (hn : s.loop.wakeupTokens + n ≤ capacity) :
    ∃ es s', LoopRun capacity s es s' ∧ s'.Queuing ∧ s'.loop.wakeupTokens = s.loop.wakeupTokens + n := by
  induction n with
  | zero => exact ⟨[], s, .nil, h, rfl⟩
  | succ n ih =>
    obtain ⟨es, u, hrun, hu, htok⟩ := ih (by omega)
    obtain ⟨fs, v, hrun', hv, htok'⟩ := hu.queue capacity f (by omega)
    exact ⟨es ++ fs, v, hrun.append hrun', hv, by omega⟩

theorem reach_queuing (capacity : ℕ) (f : F) :
    ∃ es, ∃ s : LoopState T F, LoopRun capacity init es s ∧ s.Queuing ∧ s.loop.wakeupTokens = 0 := by
  have hexec : ∃ s : LoopState T F, exec (step capacity) init
      [.push .loop f, .test .loop, .enter, .clear, .check, .poll true, .dispatched, .swap, .start] = some s ∧
        s.phase = .inFunctor ∧ s.loop.callingPendingFunctors = true ∧ s.calls .loop = .idle ∧
        s.loop.wakeupTokens = 0 := by
    simp [exec, step, init, EventLoop.new, mayCall, Phase.userCode, CallState.isIdle, loopFree,
      EventLoop.needsWakeup, EventLoop.pushFunctor, setCall]
  obtain ⟨s, hs, hphase, hcalling, hidle, htok⟩ := hexec
  exact ⟨_, s, run_of_exec hs, ⟨hphase, hcalling, hidle⟩, htok⟩

theorem loop_blocks_itself :
    ¬ ∀ es, ∀ s : LoopState Unit Unit, LoopRun 8192 init es s → ¬ s.Blocked 8192 := by
  intro h
  obtain ⟨es, s, hrun, hs, htok⟩ : ∃ es, ∃ s : LoopState Unit Unit, LoopRun 8192 init es s ∧ s.Queuing ∧
      s.loop.wakeupTokens = 0 := reach_queuing 8192 ()
  obtain ⟨fs, t, hrun', ht, htok'⟩ := hs.fill 8192 () 8192 (by omega)
  obtain ⟨u, hrun'', hu, htok'', -⟩ := ht.push_test 8192 ()
  exact h _ u ((hrun.append hrun').append hrun'') ⟨hu, by omega⟩

end Overflow

end LoopState

end Penduo
