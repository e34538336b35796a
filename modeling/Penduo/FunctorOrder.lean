import Mathlib.Data.List.Nodup
import Mathlib.Data.List.Range
import Penduo.Library.FifoQueue
import Penduo.LoopSteps

set_option autoImplicit false
set_option linter.unusedSectionVars false

namespace Penduo

open LabelledRuns

namespace LoopState

variable {T F : Type} [DecidableEq T] {capacity : ℕ} {s s' : LoopState T F} {e : LoopEvent T F}
  {es : List (LoopEvent T F)}

def fifo (s : LoopState T F) : FifoQueue (Pushed T F) :=
  { arrived := s.pushes, served := s.started.map Prod.fst, waiting := s.batch ++ s.loop.pendingFunctors }

def BatchLocal (s : LoopState T F) : Prop := s.phase ≠ .running → s.phase ≠ .inFunctor → s.batch = []

theorem Moves.batchLocal (h : s.BatchLocal) (hm : Moves capacity s e s') : s'.BatchLocal := by
  cases hm with
  | push t f _ _ => exact h
  | testPushed t q _ => exact h
  | testQuit t _ => exact h
  | write t q _ _ => exact h
  | writeQuit t _ _ => exact h
  | quit t _ _ => exact h
  | enter hphase _ _ => exact fun _ _ => h (by simp [hphase]) (by simp [hphase])
  | clear hphase => exact fun _ _ => h (by simp [hphase]) (by simp [hphase])
  | leave hphase _ => exact fun _ _ => h (by simp [hphase]) (by simp [hphase])
  | iterate hphase _ => exact fun _ _ => h (by simp [hphase]) (by simp [hphase])
  | poll succeeded hphase => exact fun _ _ => h (by simp [hphase]) (by simp [hphase])
  | readToken hphase _ _ => exact fun _ _ => h (by simp [hphase]) (by simp [hphase])
  | dispatched hphase _ _ => exact fun _ _ => h (by simp [hphase]) (by simp [hphase])
  | swap hphase => exact fun hr _ => absurd rfl hr
  | start q rest hphase _ => exact fun _ hf => absurd rfl hf
  | ret hphase _ => exact fun hr _ => absurd rfl hr
  | batchDone hphase hbatch => exact fun _ _ => hbatch
  | unwound hphase _ => exact fun _ _ => h (by simp [hphase]) (by simp [hphase])

theorem run_batchLocal (h : LoopRun capacity init es s) : s.BatchLocal :=
  h.keeps (fun _ _ => rfl) fun _ _ _ hs hm => hm.batchLocal hs

theorem Moves.fifo (h : s.BatchLocal) (hm : Moves capacity s e s') :
    ∃ ds, Run FifoQueue.Step s.fifo ds s'.fifo := by
  cases hm with
  | push t f _ _ =>
    refine ⟨[.enqueue (s.nextPushed t f)], .single ?_⟩
    have hstep := FifoQueue.Step.enqueue s.fifo (s.nextPushed t f)
    simp only [LoopState.fifo, List.append_assoc] at hstep
    exact hstep
  | swap hphase =>
    have hbatch := h (by simp [hphase]) (by simp [hphase])
    refine ⟨[], ?_⟩
    simp only [LoopState.fifo, hbatch, List.append_nil, List.nil_append]
    exact .nil
  | start q rest hphase hbatch =>
    refine ⟨[.serve], .single ?_⟩
    have hstep := FifoQueue.Step.serve s.fifo q (rest ++ s.loop.pendingFunctors) (by simp [LoopState.fifo, hbatch])
    simpa [LoopState.fifo] using hstep
  | _ => exact ⟨[], .nil⟩

theorem run_fifo (h : LoopRun capacity init es s) : ∃ ds, Run FifoQueue.Step .empty ds s.fifo := by
  obtain ⟨ds, q, hq, ⟨rfl, _⟩⟩ := Run.simulation
    (R := fun (s : LoopState T F) q => s.fifo = q ∧ s.BatchLocal)
    (fun s e s' q ⟨hr, hb⟩ hn => by
      obtain ⟨ds, hds⟩ := (moves_of_step hn).fifo hb
      exact ⟨ds, _, hr ▸ hds, rfl, (moves_of_step hn).batchLocal hb⟩)
    h (a := FifoQueue.empty) ⟨rfl, fun _ _ => rfl⟩
  exact ⟨ds, hq⟩

def Numbered (s : LoopState T F) : Prop := s.pushes.map (·.serial) = List.range s.pushes.length

theorem Moves.numbered (h : s.Numbered) (hm : Moves capacity s e s') : s'.Numbered := by
  cases hm with
  | push t f _ _ =>
    simp only [Numbered, nextPushed, List.map_append, List.map_singleton, List.length_append,
      List.length_singleton] at h ⊢
    rw [h, List.range_succ]
  | _ => exact h

theorem Numbered.nodup (h : s.Numbered) : s.pushes.Nodup := by
  apply List.Nodup.of_map (·.serial)
  rw [h]
  exact List.nodup_range

structure Epochs (s : LoopState T F) : Prop where
  pending : ∀ q ∈ s.loop.pendingFunctors, q.epoch ≤ s.batches
  batch : ∀ q ∈ s.batch, q.epoch < s.batches
  started : ∀ r ∈ s.started, r.1.epoch < r.2

theorem Moves.epochs (h : s.Epochs) (hm : Moves capacity s e s') : s'.Epochs := by
  cases hm with
  | push t f _ _ =>
    refine ⟨fun q hq => ?_, h.batch, h.started⟩
    simp only [EventLoop.pushFunctor, List.mem_append, List.mem_singleton] at hq
    rcases hq with hq | rfl
    · exact h.pending q hq
    · exact le_rfl
  | swap hphase =>
    refine ⟨fun q hq => ?_, fun q hq => ?_, h.started⟩
    · simp at hq
    · exact Nat.lt_succ_of_le (h.pending q hq)
  | start q rest hphase hbatch =>
    refine ⟨h.pending, fun q' hq' => h.batch q' (by simp [hbatch, hq']), fun r hr => ?_⟩
    simp only [List.mem_append, List.mem_singleton] at hr
    rcases hr with hr | rfl
    · exact h.started r hr
    · exact h.batch q (by simp [hbatch])
  | _ => exact ⟨h.pending, h.batch, h.started⟩

theorem run_epochs (h : LoopRun capacity init es s) : s.Epochs := by
  refine h.keeps ⟨?_, ?_, ?_⟩ fun _ _ _ hs hm => hm.epochs hs <;> simp [init, EventLoop.new]

theorem Moves.started_thread (hm : Moves capacity s e s') (hne : s'.started ≠ s.started) : e.thread = .loop := by
  cases hm with
  | start q rest _ _ => rfl
  | _ => exact absurd rfl hne

/-- Functors are started in the order of their pushes by the loop thread, each at most once, none is
lost, and none in the batch during which it was pushed. -/
theorem functors_in_push_order (h : LoopRun capacity init es s) :
    s.started.map Prod.fst ++ s.batch ++ s.loop.pendingFunctors = s.pushes ∧
      s.started.map Prod.fst <+: s.pushes ∧ (s.started.map Prod.fst).Nodup ∧
      (∀ r ∈ s.started, r.1.epoch < r.2) ∧ (s.phase = .outside → s.batch = []) ∧
      ∀ e s', step capacity s e = some s' → s'.started ≠ s.started → e.thread = .loop := by
  obtain ⟨ds, hds⟩ := run_fifo h
  have hord := FifoQueue.run_ordered hds
  have hnum : s.Numbered := h.keeps rfl fun _ _ _ hs hm => hm.numbered hs
  refine ⟨?_, hord.served_prefix, hord.served_nodup hnum.nodup, (run_epochs h).started, fun hout => ?_,
    fun e s' hstep hne => (moves_of_step hstep).started_thread hne⟩
  · rw [List.append_assoc]
    exact hord
  · exact run_batchLocal h (by simp [hout]) (by simp [hout])

theorem functors_in_push_order_nested : ∃ s : LoopState Unit ℕ,
    s.started.map (fun r => (r.1.functor, r.2)) = [(1, 1), (2, 1)] ∧
      s.loop.pendingFunctors.map (·.functor) = [3] ∧
      (s.started.map Prod.fst ++ s.batch ++ s.loop.pendingFunctors = s.pushes ∧
        s.started.map Prod.fst <+: s.pushes ∧ (s.started.map Prod.fst).Nodup ∧
        (∀ r ∈ s.started, r.1.epoch < r.2) ∧ (s.phase = .outside → s.batch = []) ∧
        ∀ e s', step 8192 s e = some s' → s'.started ≠ s.started → e.thread = .loop) := by
  have hexec : (exec (step 8192) (init : LoopState Unit ℕ)
      [.push (.other ()) 1, .push .loop 2, .test .loop, .enter, .clear, .check, .poll true, .dispatched,
        .swap, .start, .push .loop 3, .test .loop, .write .loop, .ret, .start, .ret]).map
        (fun s => (s.started.map fun r => (r.1.functor, r.2), s.loop.pendingFunctors.map (·.functor))) =
      some ([(1, 1), (2, 1)], [3]) := by decide
  obtain ⟨s, hrun, hs⟩ := run_of_exec_map _ hexec
  obtain ⟨hstarted, hpending⟩ := Prod.mk.inj hs
  exact ⟨s, hstarted, hpending, functors_in_push_order hrun⟩

end LoopState

end Penduo
