import Penduo.Library.Generations
import Penduo.ResponseTime

set_option autoImplicit false
set_option linter.unusedSectionVars false

namespace Penduo

open LabelledRuns Generations

inductive Callback
  | done
  | work (id : ℕ) (next : Callback)
  | runInLoop (cb next : Callback)
  | queueInLoop (cb next : Callback)
deriving DecidableEq, Repr

namespace Callback

def now : Callback → List ℕ
  | .done => []
  | .work id next => id :: next.now
  | .runInLoop cb next => cb.now ++ next.now
  | .queueInLoop _ next => next.now

def later : Callback → List Callback
  | .done => []
  | .work _ next => next.later
  | .runInLoop cb next => cb.later ++ next.later
  | .queueInLoop cb next => cb :: next.later

end Callback

structure CallbackLoop (T : Type) where
  state : LoopState T Callback
  stack : List Callback
  -- The callbacks queued by other threads and handlers, each with the number of batches before it.
  queued : List (ℕ × Callback)
  -- The work done so far, each with the number of its batch.
  worked : List (ℕ × ℕ)

inductive CallbackEvent (T : Type)
  | loop (e : LoopEvent T Callback)
  | call
deriving DecidableEq, Repr

namespace CallbackLoop

variable {T : Type} [DecidableEq T] {capacity b : ℕ} {s s' : CallbackLoop T} {e : LoopEvent T Callback}
  {es : List (CallbackEvent T)}

def init : CallbackLoop T := { state := .init, stack := [], queued := [], worked := [] }

def allows (s : CallbackLoop T) : LoopEvent T Callback → Bool
  | .push .loop _ => s.state.phase ≠ .inFunctor
  | .ret => s.stack.isEmpty
  | _ => true

def stackAfter (s : CallbackLoop T) : LoopEvent T Callback → List Callback
  | .start => s.state.batch.head?.toList.map (·.functor)
  | _ => s.stack

def queuedAfter (s : CallbackLoop T) : LoopEvent T Callback → List (ℕ × Callback)
  | .push _ cb => s.queued ++ [(s.state.batches, cb)]
  | _ => s.queued

def call (capacity : ℕ) (s : CallbackLoop T) : Option (CallbackLoop T) :=
  match s.stack with
  | [] => none
  | .done :: rest => some { s with stack := rest }
  | .work id next :: rest => some { s with stack := next :: rest, worked := s.worked ++ [(s.state.batches, id)] }
  | .runInLoop cb next :: rest => some { s with stack := cb :: next :: rest }
  | .queueInLoop cb next :: rest =>
    (s.state.step capacity (.push .loop cb)).map fun state => { s with state := state, stack := next :: rest }

def step (capacity : ℕ) (s : CallbackLoop T) : CallbackEvent T → Option (CallbackLoop T)
  | .loop e =>
    if s.allows e then
      (s.state.step capacity e).map fun state =>
        { s with state := state, stack := s.stackAfter e, queued := s.queuedAfter e }
    else none
  | .call => if s.state.phase = .inFunctor ∧ s.state.loopFree then s.call capacity else none

inductive Moves (capacity : ℕ) (s : CallbackLoop T) : CallbackEvent T → CallbackLoop T → Prop
  | loop (e : LoopEvent T Callback) (state : LoopState T Callback) (hallows : s.allows e = true)
      (hm : s.state.Moves capacity e state) :
      Moves capacity s (.loop e) { s with state := state, stack := s.stackAfter e, queued := s.queuedAfter e }
  | done (rest : List Callback) (hphase : s.state.phase = .inFunctor) (hstack : s.stack = .done :: rest) :
      Moves capacity s .call { s with stack := rest }
  | work (id : ℕ) (next : Callback) (rest : List Callback) (hphase : s.state.phase = .inFunctor)
      (hstack : s.stack = .work id next :: rest) :
      Moves capacity s .call { s with stack := next :: rest, worked := s.worked ++ [(s.state.batches, id)] }
  | runInLoop (cb next : Callback) (rest : List Callback) (hphase : s.state.phase = .inFunctor)
      (hstack : s.stack = .runInLoop cb next :: rest) :
      Moves capacity s .call { s with stack := cb :: next :: rest }
  | queueInLoop (cb next : Callback) (rest : List Callback) (state : LoopState T Callback)
      (hphase : s.state.phase = .inFunctor) (hstack : s.stack = .queueInLoop cb next :: rest)
      (hm : s.state.Moves capacity (.push .loop cb) state) :
      Moves capacity s .call { s with state := state, stack := next :: rest }

theorem moves_of_call (hphase : s.state.phase = .inFunctor) (h : s.call capacity = some s') :
    Moves capacity s .call s' := by
  unfold call at h
  split at h
  · cases h
  · obtain rfl := Option.some.inj h
    exact .done _ hphase ‹_›
  · obtain rfl := Option.some.inj h
    exact .work _ _ _ hphase ‹_›
  · obtain rfl := Option.some.inj h
    exact .runInLoop _ _ _ hphase ‹_›
  · obtain ⟨state, hstate, rfl⟩ := Option.map_eq_some_iff.mp h
    exact .queueInLoop _ _ _ state hphase ‹_› (LoopState.moves_of_step hstate)

theorem moves_of_step {e : CallbackEvent T} (h : step capacity s e = some s') : Moves capacity s e s' := by
  cases e with
  | loop e =>
    simp only [step, Option.ite_none_right_eq_some] at h
    obtain ⟨hallows, h⟩ := h
    obtain ⟨state, hstate, rfl⟩ := Option.map_eq_some_iff.mp h
    exact .loop e state hallows (LoopState.moves_of_step hstate)
  | call =>
    simp only [step, Option.ite_none_right_eq_some] at h
    exact moves_of_call h.1.1 h.2

abbrev CallbackRun (capacity : ℕ) (es : List (CallbackEvent T)) (s : CallbackLoop T) : Prop :=
  Run (Next (step capacity)) init es s

theorem CallbackRun.keeps {I : CallbackLoop T → Prop} (h : CallbackRun capacity es s) (hinit : I init)
    (hstep : ∀ s e s', I s → Moves capacity s e s' → I s') : I s :=
  Run.invariant (fun s e s' hs hn => hstep s e s' hs (moves_of_step hn)) h hinit

theorem Moves.keeps_state {I : LoopState T Callback → Prop} {e : CallbackEvent T}
    (hstep : ∀ s e s', I s → LoopState.Moves capacity s e s' → I s') (h : I s.state) (hm : Moves capacity s e s') :
    I s'.state := by
  cases hm with
  | loop e state _ hm => exact hstep _ _ _ h hm
  | queueInLoop cb next rest state _ _ hm => exact hstep _ _ _ h hm
  | _ => exact h

theorem CallbackRun.keeps_state {I : LoopState T Callback → Prop} (h : CallbackRun capacity es s) (hinit : I .init)
    (hstep : ∀ s e s', I s → LoopState.Moves capacity s e s' → I s') : I s.state :=
  h.keeps hinit fun _ _ _ hs hm => hm.keeps_state hstep hs

def ran (state : LoopState T Callback) : List (ℕ × Callback) := state.started.map fun r => (r.2, r.1.functor)

def arrived (state : LoopState T Callback) : List (ℕ × Callback) := state.pushes.map fun q => (q.epoch, q.functor)

/-- What has been done, with what the callbacks on the stack have yet to do, is what the started callbacks say. -/
structure Interprets (s : CallbackLoop T) : Prop where
  returned : s.state.phase ≠ .inFunctor → s.stack = []
  worked : s.worked ++ (s.stack.flatMap Callback.now).map (Prod.mk s.state.batches) =
    (ran s.state).flatMap fun r => (Callback.now r.2).map (Prod.mk r.1)
  arrived : (arrived s.state ++ (s.stack.flatMap Callback.later).map (Prod.mk s.state.batches)).Perm
    (s.queued ++ (ran s.state).flatMap fun r => (Callback.later r.2).map (Prod.mk r.1))

theorem Moves.interprets {e : CallbackEvent T} (h : s.Interprets) (hm : Moves capacity s e s') : s'.Interprets := by
  have hworked := h.worked
  have harrived := h.arrived
  cases hm with
  | loop e state hallows hm =>
    cases hm with
    | push t f _ _ =>
      refine ⟨h.returned, hworked, ?_⟩
      simp only [arrived, stackAfter, queuedAfter, LoopState.nextPushed, List.map_append, List.map_singleton,
        List.append_assoc, List.singleton_append] at harrived ⊢
      exact List.perm_middle.trans ((harrived.cons _).trans List.perm_middle.symm)
    | start q rest hphase hbatch =>
      have hstack := h.returned (by simp [hphase])
      simp only [hstack, List.flatMap_nil, List.map_nil, List.append_nil] at hworked harrived
      refine ⟨fun hne => absurd rfl hne, ?_, ?_⟩
      · simp [ran, stackAfter, hbatch, hworked]
      · simpa [ran, arrived, stackAfter, queuedAfter, hbatch] using harrived.append_right _
    | ret hphase _ =>
      exact ⟨fun _ => by simpa [allows, stackAfter] using hallows, hworked, harrived⟩
    | swap hphase =>
      have hstack := h.returned (by simp [hphase])
      refine ⟨fun _ => hstack, ?_, ?_⟩
      · simpa [stackAfter, hstack, ran] using hworked
      · simpa [stackAfter, queuedAfter, hstack, ran, arrived] using harrived
    | testPushed | testQuit | write | writeQuit | quit => exact ⟨h.returned, hworked, harrived⟩
    | enter hphase | clear hphase | leave hphase | iterate hphase | poll _ hphase | readToken hphase
    | dispatched hphase | batchDone hphase | unwound hphase =>
      exact ⟨fun _ => h.returned (by simp [hphase]), hworked, harrived⟩
  | done rest hphase hstack =>
    rw [hstack] at hworked harrived
    exact ⟨fun hne => absurd hphase hne, hworked, harrived⟩
  | work id next rest hphase hstack =>
    rw [hstack] at hworked harrived
    refine ⟨fun hne => absurd hphase hne, ?_, harrived⟩
    simpa [Callback.now] using hworked
  | runInLoop cb next rest hphase hstack =>
    rw [hstack] at hworked harrived
    refine ⟨fun hne => absurd hphase hne, ?_, ?_⟩
    · simpa [Callback.now] using hworked
    · simpa [Callback.later] using harrived
  | queueInLoop cb next rest state hphase hstack hm =>
    rw [hstack] at hworked harrived
    cases hm with
    | push t f _ _ =>
      refine ⟨fun hne => absurd hphase hne, hworked, ?_⟩
      simpa [ran, arrived, Callback.later, LoopState.nextPushed] using harrived

theorem run_interprets (h : CallbackRun capacity es s) : s.Interprets :=
  h.keeps ⟨fun _ => rfl, rfl, .refl _⟩ fun _ _ _ hs hm => hm.interprets hs

structure NextBatch (state : LoopState T Callback) : Prop where
  batchLocal : state.BatchLocal
  fifo : state.fifo.Ordered
  pending : ∀ q ∈ state.loop.pendingFunctors, q.epoch = state.batches
  batch : ∀ q ∈ state.batch, q.epoch + 1 = state.batches
  started : ∀ r ∈ state.started, r.1.epoch + 1 = r.2

theorem nextBatch_moves {state state' : LoopState T Callback} (h : NextBatch state)
    (hm : state.Moves capacity e state') : NextBatch state' := by
  have hlocal := hm.batchLocal h.batchLocal
  have hfifo := hm.ordered h.fifo h.batchLocal
  cases hm with
  | push t f _ _ =>
    refine ⟨hlocal, hfifo, fun q hq => ?_, h.batch, h.started⟩
    simp only [EventLoop.pushFunctor, List.mem_append, List.mem_singleton] at hq
    rcases hq with hq | rfl
    · exact h.pending q hq
    · rfl
  | swap hphase =>
    refine ⟨hlocal, hfifo, fun q hq => ?_, fun q hq => ?_, h.started⟩
    · simp at hq
    · exact congrArg (· + 1) (h.pending q hq)
  | start q rest hphase hbatch =>
    refine ⟨hlocal, hfifo, h.pending, fun q' hq' => h.batch q' (by simp [hbatch, hq']), fun r hr => ?_⟩
    simp only [List.mem_append, List.mem_singleton] at hr
    rcases hr with hr | rfl
    · exact h.started r hr
    · exact h.batch q (by simp [hbatch])
  | _ => exact ⟨hlocal, hfifo, h.pending, h.batch, h.started⟩

theorem run_nextBatch (h : CallbackRun capacity es s) : NextBatch s.state := by
  refine h.keeps_state ⟨fun _ _ => rfl, rfl, ?_, ?_, ?_⟩ fun _ _ _ hs hm => nextBatch_moves hs hm <;>
    simp [LoopState.init, EventLoop.new]

def Returned (s : CallbackLoop T) (b : ℕ) : Prop :=
  b < s.state.batches ∨ b = s.state.batches ∧ s.state.batch = [] ∧ s.state.phase ≠ .inFunctor

theorem Returned.le (h : s.Returned b) : b ≤ s.state.batches := by
  rcases h with hlt | ⟨rfl, _, _⟩
  · exact hlt.le
  · exact le_rfl

theorem Returned.earlier {c : ℕ} (h : s.Returned b) (hc : c < b) : s.Returned (c + 1) := by
  rcases Nat.lt_or_eq_of_le (Nat.succ_le_of_lt hc) with hlt | rfl
  · exact .inl (Nat.lt_of_lt_of_le hlt h.le)
  · exact h

theorem arrived_during (h : NextBatch s.state) (hb : s.Returned (b + 1)) :
    during b (arrived s.state) = during (b + 1) (ran s.state) := by
  have hpushes : s.state.pushes = s.state.started.map Prod.fst ++ (s.state.batch ++ s.state.loop.pendingFunctors) :=
    h.fifo.symm
  have hbatch : during b (s.state.batch.map fun q => (q.epoch, q.functor)) = [] := by
    refine during_eq_nil fun r hr hrb => ?_
    obtain ⟨q, hq, rfl⟩ := List.mem_map.mp hr
    have hepoch := h.batch q hq
    rcases hb with hlt | ⟨_, hnil, _⟩
    · dsimp only at hrb
      omega
    · simp [hnil] at hq
  have hpending : during b (s.state.loop.pendingFunctors.map fun q => (q.epoch, q.functor)) = [] := by
    refine during_eq_nil fun r hr hrb => ?_
    obtain ⟨q, hq, rfl⟩ := List.mem_map.mp hr
    have hepoch := h.pending q hq
    have hle := hb.le
    dsimp only at hrb
    omega
  have hstarted : s.state.started.filter (fun r => r.1.epoch = b) = s.state.started.filter fun r => r.2 = b + 1 := by
    refine List.filter_congr fun r hr => ?_
    have hepoch := h.started r hr
    simp only [decide_eq_decide]
    omega
  calc during b (arrived s.state)
      = during b (s.state.started.map fun r => (r.1.epoch, r.1.functor)) := by
        rw [arrived, hpushes, List.map_append, List.map_append, during_append, during_append, hbatch, hpending,
          List.append_nil, List.append_nil, List.map_map]
        rfl
    _ = during (b + 1) (ran s.state) := by
        have hepochs := during_pairs (fun r : Pushed T Callback × ℕ => r.1.epoch) (·.1.functor) s.state.started b
        have hbatches := during_pairs (fun r : Pushed T Callback × ℕ => r.2) (·.1.functor) s.state.started (b + 1)
        rw [ran, hepochs, hstarted, hbatches]

theorem ran_zero (h : NextBatch s.state) : during 0 (ran s.state) = [] := by
  refine during_eq_nil fun r hr hzero => ?_
  obtain ⟨q, hq, rfl⟩ := List.mem_map.mp hr
  have hepoch := h.started q hq
  dsimp only at hzero
  omega

theorem ran_succ (h : s.Interprets) (hn : NextBatch s.state) (hb : s.Returned (b + 1)) :
    (during (b + 1) (ran s.state)).Perm
      (during b s.queued ++ (during b (ran s.state)).flatMap Callback.later) := by
  have hperm := during_perm b h.arrived
  have hother : s.state.batches ≠ b := Nat.ne_of_gt hb.le
  rwa [during_append, during_append, during_flatMap, during_other _ hother, List.append_nil, arrived_during hn hb]
    at hperm

theorem worked_during (h : s.Interprets) (hb : s.Returned b) :
    during b s.worked = (during b (ran s.state)).flatMap Callback.now := by
  have hleft : during b ((s.stack.flatMap Callback.now).map (Prod.mk s.state.batches)) = [] := by
    rcases hb with hlt | ⟨_, _, hphase⟩
    · exact during_other _ (Nat.ne_of_gt hlt)
    · simp [h.returned hphase, during]
  have hworked := congrArg (during b) h.worked
  rwa [during_append, during_flatMap, hleft, List.append_nil] at hworked

/-- Work that is asked for directly is done at once and in order, and work that is queued is done in as many batches
as it was put off: nothing is done twice, early, late or not at all. -/
theorem callbacks_run (h : CallbackRun capacity es s) (hb : s.Returned b) :
    during b s.worked = (during b (ran s.state)).flatMap Callback.now ∧
      (during b s.worked : Multiset ℕ) = ∑ e ∈ Finset.range b,
        (((during e s.queued).flatMap (descendants Callback.later (b - 1 - e))).flatMap Callback.now : Multiset ℕ) := by
  have hinterprets := run_interprets h
  have hnext := run_nextBatch h
  have hworked := worked_during hinterprets hb
  refine ⟨hworked, ?_⟩
  have hran : (during b (ran s.state) : Multiset Callback) = ∑ e ∈ Finset.range b,
      ((during e s.queued).flatMap (descendants Callback.later (b - 1 - e)) : Multiset Callback) :=
    @ran_eq_descendants _ b _ (fun e => during e s.queued) (fun c => during c (ran s.state)) (ran_zero hnext)
      fun c hc => ran_succ hinterprets hnext (hb.earlier hc)
  rw [hworked, ← Multiset.coe_bind, hran, sum_flatMap]

def putOff : Callback := .work 1 (.queueInLoop (.work 3 .done) (.runInLoop (.work 2 .done) .done))

def putOffRun : List (CallbackEvent Unit) :=
  [.loop (.push (.other ()) putOff), .loop (.test (.other ())), .loop (.write (.other ())), .loop .enter, .loop .clear,
    .loop .check, .loop (.poll true), .loop .readToken, .loop .dispatched, .loop .swap, .loop .start, .call, .call,
    .loop (.test .loop), .loop (.write .loop), .call, .call, .call, .call, .loop .ret, .loop .batchDone,
    .loop .unwound, .loop .check, .loop (.poll true), .loop .readToken, .loop .dispatched, .loop .swap, .loop .start,
    .call, .call, .loop .ret]

theorem callbacks_run_put_off : ∃ s : CallbackLoop Unit, CallbackRun 8192 putOffRun s ∧
    s.worked = [(1, 1), (1, 2), (2, 3)] ∧ during 2 s.worked = (during 2 (ran s.state)).flatMap Callback.now ∧
      (during 2 s.worked : Multiset ℕ) = ∑ e ∈ Finset.range 2,
        (((during e s.queued).flatMap (descendants Callback.later (2 - 1 - e))).flatMap Callback.now : Multiset ℕ) := by
  have hexec : (exec (step 8192) (init : CallbackLoop Unit) putOffRun).map
      (fun s => (s.worked, s.state.batches, s.state.batch, s.state.phase)) =
        some ([(1, 1), (1, 2), (2, 3)], 2, [], .running) := by decide
  obtain ⟨s, hrun, hs⟩ := run_of_exec_map _ hexec
  obtain ⟨hworked, hs⟩ := Prod.mk.inj hs
  obtain ⟨hbatches, hs⟩ := Prod.mk.inj hs
  obtain ⟨hbatch, hphase⟩ := Prod.mk.inj hs
  exact ⟨s, hrun, hworked, callbacks_run hrun (.inr ⟨hbatches.symm, hbatch, by simp [hphase]⟩)⟩

end CallbackLoop

end Penduo
