import Penduo.FunctorOrder
import Penduo.Library.Potential

set_option autoImplicit false
set_option linter.unusedSectionVars false

namespace Penduo

open LabelledRuns

def LoopEvent.advances {T F : Type} : LoopEvent T F → Bool
  | .push .. | .test _ | .write _ | .quit _ => false
  | _ => true

def LoopEvent.isPush {T F : Type} : LoopEvent T F → Bool
  | .push .. => true
  | _ => false

def LoopEvent.isCheck {T F : Type} : LoopEvent T F → Bool
  | .check => true
  | _ => false

namespace LoopState

variable {T F : Type} [DecidableEq T] {capacity : ℕ} {s s' t : LoopState T F} {e : LoopEvent T F}
  {es fs : List (LoopEvent T F)} {q : Pushed T F} {serial : ℕ}

section Served

def stays (s : LoopState T F) : LoopEvent T F → Bool
  | .check => !s.loop.quit
  | _ => true

def overhead (s : LoopState T F) (serial : ℕ) : ℕ :=
  match s.phase with
  | .outside => 7
  | .entered => 6
  | .testing => 5
  | .polling => 4
  | .dispatching => if s.wakeReported then 3 else 2
  | .swapping => 1
  | .running => if serial < s.started.length + s.batch.length then 0 else 7
  | .inFunctor => if serial < s.started.length + s.batch.length then 1 else 8
  | .unwinding => 6

def distance (s : LoopState T F) (serial : ℕ) : ℕ := 2 * (serial - s.started.length) + 1 + s.overhead serial

structure Waits (s : LoopState T F) (serial : ℕ) : Prop where
  fifo : s.fifo.Ordered
  batchLocal : s.BatchLocal
  pushed : serial < s.pushes.length
  unstarted : s.started.length ≤ serial

theorem fifo_length (h : s.fifo.Ordered) :
    s.started.length + s.batch.length + s.loop.pendingFunctors.length = s.pushes.length := by
  have hlength := congrArg List.length h
  simpa [fifo, Nat.add_assoc] using hlength

theorem Moves.ordered (h : s.fifo.Ordered) (hb : s.BatchLocal) (hm : Moves capacity s e s') : s'.fifo.Ordered := by
  obtain ⟨ds, hds⟩ := hm.fifo hb
  exact hds.invariant (I := FifoQueue.Ordered) (fun _ _ _ hq hn => hn.ordered hq) h

theorem Moves.started_le (hm : Moves capacity s e s') : s.started.length ≤ s'.started.length := by
  cases hm with
  | start => simp
  | _ => exact le_rfl

theorem Moves.nearer (h : s.Waits serial) (hstays : s.stays e = true) (hm : Moves capacity s e s') :
    serial < s'.started.length ∨
      s'.distance serial + (if e.advances then 1 else 0) ≤ s.distance serial := by
  have hlength := fifo_length h.fifo
  have hpushed := h.pushed
  have hunstarted := h.unstarted
  cases hm with
  | push | testPushed | testQuit | write | writeQuit | quit => exact Or.inr le_rfl
  | enter hphase _ _ | clear hphase | iterate hphase _ =>
    right
    simp only [distance, overhead, hphase, LoopEvent.advances, if_true]
    omega
  | poll succeeded hphase =>
    right
    simp only [distance, overhead, hphase, LoopEvent.advances, if_true]
    split_ifs <;> omega
  | readToken hphase _ hreported =>
    right
    simp [distance, overhead, hphase, LoopEvent.advances, hreported]
  | leave hphase hquit => simp [stays, hquit] at hstays
  | dispatched hphase _ hreported =>
    right
    simp [distance, overhead, hphase, LoopEvent.advances, hreported]
  | swap hphase =>
    right
    have hbatch := h.batchLocal (by simp [hphase]) (by simp [hphase])
    simp only [hbatch, List.length_nil] at hlength
    simp only [distance, overhead, hphase, LoopEvent.advances, if_true]
    rw [if_pos (by omega)]
  | start q rest hphase hbatch =>
    by_cases hfirst : serial = s.started.length
    · left
      simp [hfirst]
    · right
      simp only [hbatch, List.length_cons] at hlength
      simp only [distance, overhead, hphase, LoopEvent.advances, if_true, List.length_append, hbatch, List.length_cons]
      split_ifs <;> omega
  | ret hphase _ =>
    right
    simp only [distance, overhead, hphase, LoopEvent.advances, if_true]
    split_ifs <;> omega
  | batchDone hphase hbatch =>
    right
    simp only [distance, overhead, hphase, LoopEvent.advances, if_true, hbatch, List.length_nil, Nat.add_zero]
    rw [if_neg (by omega)]
  | unwound hphase _ =>
    right
    simp only [distance, overhead, hphase, LoopEvent.advances, if_true]
    omega

theorem Moves.pushes_extended (hm : Moves capacity s e s') : s.pushes <+: s'.pushes := by
  cases hm with
  | push t f _ _ => exact List.prefix_append _ _
  | _ => exact List.prefix_refl _

theorem Waits.next (h : s.Waits serial) (hstays : s.stays e = true) (hm : Moves capacity s e s') :
    serial < s'.started.length ∨ s'.Waits serial ∧
      s'.distance serial + (if e.advances then 1 else 0) ≤ s.distance serial := by
  rcases hm.nearer h hstays with hdone | hle
  · exact Or.inl hdone
  · by_cases hdone : serial < s'.started.length
    · exact Or.inl hdone
    · refine Or.inr ⟨⟨hm.ordered h.fifo h.batchLocal, hm.batchLocal h.batchLocal, ?_, not_lt.mp hdone⟩, hle⟩
      exact h.pushed.trans_le hm.pushes_extended.length_le

theorem overhead_le (s : LoopState T F) (serial : ℕ) : s.overhead serial ≤ 8 := by
  unfold overhead
  split
  any_goals split_ifs
  all_goals omega

theorem started_of_serial (h : s.fifo.Ordered) (hq : s.pushes[serial]? = some q) (hdone : serial < s.started.length) :
    q ∈ s.started.map Prod.fst := by
  have hlt : serial < (s.started.map Prod.fst).length := by simpa using hdone
  have hpushes : s.pushes[serial]? = (s.started.map Prod.fst)[serial]? := by
    rw [show s.pushes = s.started.map Prod.fst ++ _ from h.symm]
    exact List.getElem?_append_left hlt
  exact List.mem_of_getElem? (hpushes.symm.trans hq)

/-- Whatever the other threads do, a functor is started within two steps of the loop thread for each functor
before it and nine for the way to the next swap. -/
theorem served_within {ahead later : List (Pushed T F)} (h : LoopRun capacity init es s)
    (hq : s.batch ++ s.loop.pendingFunctors = ahead ++ q :: later)
    (hrun : Run (Guarded (Next (step capacity)) fun s e => s.stays e = true) s fs t)
    (hlong : 2 * ahead.length + 9 ≤ fs.countP LoopEvent.advances) : q ∈ t.started.map Prod.fst := by
  obtain ⟨_, hfifo⟩ := run_fifo h
  have hordered : s.fifo.Ordered := FifoQueue.run_ordered hfifo
  have hserial : s.pushes[s.started.length + ahead.length]? = some q := by
    rw [show s.pushes = s.started.map Prod.fst ++ (s.batch ++ s.loop.pendingFunctors) from hordered.symm, hq]
    simp
  have hwaits : s.Waits (s.started.length + ahead.length) := by
    refine ⟨hordered, run_batchLocal h, ?_, Nat.le_add_right _ _⟩
    exact (List.getElem?_eq_some_iff.mp hserial).1
  have hend := hrun.potential (fun u => u.distance (s.started.length + ahead.length))
    (fun e => if e.advances then 1 else 0) (fun _ => 0)
    (fun u => u.Waits (s.started.length + ahead.length)) (fun u => s.started.length + ahead.length < u.started.length)
    (fun _ _ _ hw hn => hw.next hn.2 (moves_of_step hn.1))
    (fun _ _ _ hd hn => hd.trans_le (moves_of_step hn.1).started_le) hwaits
  rcases hend with hdone | ⟨_, hle⟩
  · have hloop : LoopRun capacity init (es ++ fs) t := h.append (hrun.mono fun _ _ _ hn => hn.1)
    obtain ⟨_, hfifo'⟩ := run_fifo hloop
    apply started_of_serial (FifoQueue.run_ordered hfifo') ?_ hdone
    have hprefix : s.pushes <+: t.pushes := hrun.invariant (I := fun u => s.pushes <+: u.pushes)
      (fun _ _ _ hp hn => hp.trans (moves_of_step hn.1).pushes_extended) (List.prefix_refl _)
    obtain ⟨more, hmore⟩ := hprefix
    rw [← hmore, List.getElem?_append_left hwaits.pushed, hserial]
  · have hoverhead := s.overhead_le (s.started.length + ahead.length)
    have hearn : total (fun _ : LoopEvent T F => 0) fs = 0 := by simp [total]
    rw [total_countP, hearn] at hle
    simp only [distance] at hle
    omega

def functorQueued : List (LoopEvent Unit Unit) := [.push (.other ()) (), .test (.other ()), .write (.other ())]

def functorReturned : List (LoopEvent Unit Unit) :=
  [.enter, .clear, .push (.other ()) (), .check, .test (.other ()), .poll true, .readToken, .dispatched, .swap,
    .start, .ret]

theorem served_within_first : ∃ (s t : LoopState Unit Unit) (q : Pushed Unit Unit),
    s.batch ++ s.loop.pendingFunctors = [q] ∧
      Run (Guarded (Next (step 8192)) fun s e => s.stays e = true) s functorReturned t ∧
        q ∈ t.started.map Prod.fst := by
  have hexec : ((exec (step 8192) (init : LoopState Unit Unit) functorQueued).bind fun s =>
      (exec (guardedStep (step 8192) stays) s functorReturned).map fun _ => s.batch ++ s.loop.pendingFunctors) =
        some [⟨0, .other (), (), 0⟩] := by decide
  obtain ⟨s, hs, hexec⟩ := Option.bind_eq_some_iff.mp hexec
  obtain ⟨t, hrun, hqueued⟩ := run_of_exec_map _ hexec
  have hlong : 2 * ([] : List (Pushed Unit Unit)).length + 9 ≤ functorReturned.countP LoopEvent.advances := by decide
  exact ⟨s, t, _, hqueued, hrun.guarded, served_within (run_of_exec hs) hqueued hrun.guarded hlong⟩

end Served

section Left

def remaining (s : LoopState T F) : ℕ :=
  match s.phase with
  | .outside | .entered | .testing => 0
  | .polling => 2 * s.loop.pendingFunctors.length + 6
  | .dispatching => 2 * s.loop.pendingFunctors.length + if s.wakeReported then 5 else 4
  | .swapping => 2 * s.loop.pendingFunctors.length + 3
  | .running => 2 * s.batch.length + 2
  | .inFunctor => 2 * s.batch.length + 3
  | .unwinding => 1

theorem remaining_push (s : LoopState T F) (p : Pushed T F) (pushes : List (Pushed T F))
    (calls : Thread T → CallState T F) :
    { s with loop := s.loop.pushFunctor p, pushes := pushes, calls := calls }.remaining ≤ s.remaining + 2 := by
  cases hphase : s.phase
  all_goals
    simp only [remaining, hphase, EventLoop.pushFunctor, List.length_append, List.length_singleton]
    omega

structure Quitting (s : LoopState T F) : Prop where
  quit : s.loop.quit = true
  inside : s.phase ≠ .outside ∧ s.phase ≠ .entered

theorem Moves.quitting_next (h : s.Quitting) (hcheck : e.isCheck = false) (hm : Moves capacity s e s') :
    s'.Quitting ∧ s'.remaining + (if e.advances then 1 else 0) ≤ s.remaining + if e.isPush then 2 else 0 := by
  obtain ⟨hquit, hout, hin⟩ := h
  cases hm with
  | push t f _ _ =>
    refine ⟨⟨hquit, hout, hin⟩, ?_⟩
    have hpushes : (LoopEvent.push t f).isPush = true := rfl
    have hadvances : (LoopEvent.push t f).advances = false := rfl
    simp only [hpushes, hadvances, if_true]
    have hrest := s.remaining_push (s.nextPushed t f) (s.pushes ++ [s.nextPushed t f])
      (Function.update s.calls t (.pushed (s.nextPushed t f)))
    simpa using hrest
  | testPushed | testQuit | write | writeQuit => exact ⟨⟨hquit, hout, hin⟩, le_rfl⟩
  | quit t _ _ => exact ⟨⟨rfl, hout, hin⟩, le_rfl⟩
  | enter hphase _ _ => exact absurd hphase hout
  | clear hphase => exact absurd hphase hin
  | leave | iterate => cases hcheck
  | poll succeeded hphase =>
    refine ⟨⟨hquit, by simp, by simp⟩, ?_⟩
    simp only [remaining, hphase, LoopEvent.advances, LoopEvent.isPush, if_true]
    split_ifs <;> simp
  | readToken hphase _ hreported =>
    refine ⟨⟨hquit, hout, hin⟩, ?_⟩
    simp [remaining, hphase, LoopEvent.advances, LoopEvent.isPush, hreported, EventLoop.wakeupfdHandleRead]
  | dispatched hphase _ hreported =>
    refine ⟨⟨hquit, by simp, by simp⟩, ?_⟩
    simp [remaining, hphase, LoopEvent.advances, LoopEvent.isPush, hreported]
  | swap hphase =>
    refine ⟨⟨hquit, by simp, by simp⟩, ?_⟩
    simp [remaining, hphase, LoopEvent.advances, LoopEvent.isPush]
  | start q rest hphase hbatch =>
    refine ⟨⟨hquit, by simp, by simp⟩, ?_⟩
    simp [remaining, hphase, hbatch, LoopEvent.advances, LoopEvent.isPush]
    omega
  | ret hphase _ =>
    refine ⟨⟨hquit, by simp, by simp⟩, ?_⟩
    simp [remaining, hphase, LoopEvent.advances, LoopEvent.isPush]
  | batchDone hphase hbatch =>
    refine ⟨⟨hquit, by simp, by simp⟩, ?_⟩
    simp [remaining, hphase, hbatch, LoopEvent.advances, LoopEvent.isPush]
  | unwound hphase _ =>
    refine ⟨⟨hquit, by simp, by simp⟩, ?_⟩
    simp [remaining, hphase, LoopEvent.advances, LoopEvent.isPush]

theorem remaining_le (s : LoopState T F) :
    s.remaining ≤ 2 * (s.batch.length + s.loop.pendingFunctors.length) + 6 := by
  unfold remaining
  split
  any_goals split_ifs
  all_goals omega

/-- Once `quit_` is set the loop thread looks at it within a number of steps that only the functors queued
meanwhile add to, and then it leaves. -/
theorem left_within (hquit : s.loop.quit = true) (hinside : s.phase ≠ .outside ∧ s.phase ≠ .entered)
    (hrun : Run (Guarded (Next (step capacity)) fun _ e => e.isCheck = false) s fs t) :
    fs.countP LoopEvent.advances ≤
        2 * (s.batch.length + s.loop.pendingFunctors.length + fs.countP LoopEvent.isPush) + 6 ∧
      ∀ u, Next (step capacity) t .check u → u.phase = .outside := by
  have hend := hrun.potential remaining (fun e => if e.advances then 1 else 0) (fun e => if e.isPush then 2 else 0)
    Quitting (fun _ => False) (fun _ _ _ hs hn => Or.inr ((moves_of_step hn.1).quitting_next hs hn.2))
    (fun _ _ _ hd _ => hd) ⟨hquit, hinside⟩
  obtain ⟨ht, hle⟩ := hend.resolve_left id
  constructor
  · have hremaining := s.remaining_le
    rw [total_countP, total_countP] at hle
    omega
  · intro u hn
    cases moves_of_step hn with
    | leave => rfl
    | iterate hphase hunset => simp [ht.quit] at hunset

def quitInFunctor : List (LoopEvent Unit Unit) :=
  functorQueued ++ [.enter, .clear, .check, .poll true, .readToken, .dispatched, .swap, .start, .quit .loop,
    .test .loop]

def batchUnwound : List (LoopEvent Unit Unit) := [.push .loop (), .test .loop, .write .loop, .ret, .batchDone, .unwound]

theorem left_within_functor : ∃ s t : LoopState Unit Unit, s.phase = .inFunctor ∧
    Run (Guarded (Next (step 8192)) fun _ e => e.isCheck = false) s batchUnwound t ∧
      batchUnwound.countP LoopEvent.advances ≤
        2 * (s.batch.length + s.loop.pendingFunctors.length + batchUnwound.countP LoopEvent.isPush) + 6 ∧
      ∀ u, Next (step 8192) t .check u → u.phase = .outside := by
  have hexec : ((exec (step 8192) (init : LoopState Unit Unit) quitInFunctor).bind fun s =>
      (exec (guardedStep (step 8192) fun _ e => !e.isCheck) s batchUnwound).map fun _ => (s.loop.quit, s.phase)) =
        some (true, .inFunctor) := by decide
  obtain ⟨s, _, hexec⟩ := Option.bind_eq_some_iff.mp hexec
  obtain ⟨t, hrun, hs⟩ := run_of_exec_map _ hexec
  obtain ⟨hquit, hphase⟩ := Prod.mk.inj hs
  have hunchecked : Run (Guarded (Next (step 8192)) fun _ e => e.isCheck = false) s batchUnwound t :=
    hrun.guarded.mono fun _ _ _ hn => ⟨hn.1, by simpa using hn.2⟩
  exact ⟨s, t, hphase, hunchecked, left_within hquit (by simp [hphase]) hunchecked⟩

end Left

end LoopState

end Penduo
