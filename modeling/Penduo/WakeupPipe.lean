import Penduo.LoopSteps

set_option autoImplicit false
set_option linter.unusedSectionVars false

namespace Penduo

open LabelledRuns

namespace LoopState

variable {T F : Type} [DecidableEq T] {capacity : ℕ} {s s' : LoopState T F} {e : LoopEvent T F}

section Signalled

def Between (s : LoopState T F) (t : T) (q : Pushed T F) : Prop :=
  s.calls (.other t) = .pushed q ∨ s.calls (.other t) = .waking q

/-- Every functor that another thread queued has its wake-up in the pipe or on the way. -/
def Announced (s : LoopState T F) : Prop :=
  ∀ q ∈ s.loop.pendingFunctors, ∀ t, q.thread = .other t → 0 < s.loop.wakeupTokens ∨ s.Between t q

def Signalled (s : LoopState T F) : Prop := s.phase ≠ .dispatching → s.phase ≠ .swapping → s.Announced

def NotQueuing (s : LoopState T F) (t : Thread T) : Prop := ∀ q, s.calls t ≠ .pushed q ∧ s.calls t ≠ .waking q

theorem Between.frame {t : Thread T} {u : T} {q : Pushed T F} {c : CallState T F} (h : s.Between u q)
    (hquiet : s.NotQueuing t) (hcalls : s'.calls = Function.update s.calls t c) : s'.Between u q := by
  have hne : Thread.other u ≠ t := by
    rintro rfl
    rcases h with hc | hc
    · exact (hquiet q).1 hc
    · exact (hquiet q).2 hc
  simpa only [Between, hcalls, Function.update_of_ne hne] using h

theorem notQueuing_of_idle {t : Thread T} (h : s.calls t = .idle) : s.NotQueuing t := by
  simp [NotQueuing, h]

theorem Moves.signalled (hs : s.Signalled) (h : Moves capacity s e s') : s'.Signalled := by
  cases h with
  | push t f hidle hmay =>
    intro hd hw q hq u hu
    simp only [EventLoop.pushFunctor, List.mem_append, List.mem_singleton] at hq
    rcases hq with hq | rfl
    · exact (hs hd hw q hq u hu).imp_right fun hbet => hbet.frame (notQueuing_of_idle hidle) rfl
    · simp only [nextPushed] at hu
      subst hu
      exact Or.inr (Or.inl (Function.update_self _ _ _))
  | testPushed t q' hcall =>
    intro hd hw q hq u hu
    refine (hs hd hw q hq u hu).imp_right fun hbet => ?_
    by_cases hut : t = .other u
    · subst hut
      -- the thread test of another thread always leads to `wakeup()`
      rcases hbet with hc | hc <;> rw [hcall] at hc
      · obtain rfl := CallState.pushed.inj hc
        exact Or.inr (by simp [setCall, EventLoop.needsWakeup])
      · cases hc
    · simpa only [Between, setCall, Function.update_of_ne (Ne.symm hut)] using hbet
  | testQuit t hcall =>
    intro hd hw q hq u hu
    refine (hs hd hw q hq u hu).imp_right fun hbet => hbet.frame (t := t) ?_ rfl
    simp [NotQueuing, hcall]
  | write t q' hcall hroom => exact fun _ _ _ _ _ _ => Or.inl (Nat.succ_pos _)
  | writeQuit t hcall hroom => exact fun _ _ _ _ _ _ => Or.inl (Nat.succ_pos _)
  | quit t hidle hmay =>
    intro hd hw q hq u hu
    exact (hs hd hw q hq u hu).imp_right fun hbet => hbet.frame (notQueuing_of_idle hidle) rfl
  | enter hphase _ _ => exact fun _ _ => hs (by simp [hphase]) (by simp [hphase])
  | clear hphase => exact fun _ _ => hs (by simp [hphase]) (by simp [hphase])
  | leave hphase _ => exact fun _ _ => hs (by simp [hphase]) (by simp [hphase])
  | iterate hphase _ => exact fun _ _ => hs (by simp [hphase]) (by simp [hphase])
  | poll succeeded hphase => exact fun hd => absurd rfl hd
  | readToken hphase _ _ => exact fun hd => absurd hphase hd
  | dispatched hphase _ _ => exact fun _ hw => absurd rfl hw
  | swap hphase => exact fun _ _ q hq => by simp at hq
  | start q rest hphase hbatch => exact fun _ _ => hs (by simp [hphase]) (by simp [hphase])
  | ret hphase _ => exact fun _ _ => hs (by simp [hphase]) (by simp [hphase])
  | batchDone hphase _ => exact fun _ _ => hs (by simp [hphase]) (by simp [hphase])
  | unwound hphase _ => exact fun _ _ => hs (by simp [hphase]) (by simp [hphase])

theorem run_signalled {es : List (LoopEvent T F)} (h : LoopRun capacity init es s) : s.Signalled := by
  refine h.keeps ?_ fun _ _ _ hs hm => hm.signalled hs
  intro _ _ q hq
  simp [init, EventLoop.new] at hq

/-- While the loop thread is in `::poll`, a functor that another thread queued has a token in the
pipe, or its caller has not come to its write yet. -/
theorem polling_announced {es : List (LoopEvent T F)} (h : LoopRun capacity init es s)
    (hpoll : s.phase = .polling) :
    ∀ q ∈ s.loop.pendingFunctors, ∀ t, q.thread = .other t → 0 < s.loop.wakeupTokens ∨
      s.calls (.other t) = .pushed q ∨ s.calls (.other t) = .waking q :=
  run_signalled h (by simp [hpoll]) (by simp [hpoll])

theorem polling_announced_early : ∃ s : LoopState Unit Unit,
    s.phase = .polling ∧ s.loop.pendingFunctors.length = 1 ∧
      ∀ q ∈ s.loop.pendingFunctors, ∀ t, q.thread = .other t → 0 < s.loop.wakeupTokens ∨
        s.calls (.other t) = .pushed q ∨ s.calls (.other t) = .waking q := by
  have hexec : (exec (step 8192) (init : LoopState Unit Unit)
      [.push (.other ()) (), .enter, .clear, .check]).map
        (fun s => (s.phase, s.loop.pendingFunctors.length)) = some (.polling, 1) := by decide
  obtain ⟨s, hrun, hs⟩ := run_of_exec_map _ hexec
  obtain ⟨hpoll, hlen⟩ := Prod.mk.inj hs
  exact ⟨s, hpoll, hlen, polling_announced hrun hpoll⟩

end Signalled

end LoopState

end Penduo
