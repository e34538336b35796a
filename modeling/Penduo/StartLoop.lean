import Penduo.EventLoopThread
import Penduo.Library.Monitor

set_option autoImplicit false
set_option linter.unusedSectionVars false

namespace Penduo

open LabelledRuns

/-- An `EventLoopThread` with the threads that call `start_loop()`. Its `mutex_` and `cond_` are a monitor
whose flag says that `loop_` is not null. -/
structure StartLoop (T F : Type) where
  monitor : Monitor T
  thread : EventLoopThread T F

inductive StartLoopEvent (T F : Type)
  | monitor (e : Monitor.Event T)
  | thread (e : ThreadEvent T F)

def StartLoopEvent.isSpurious {T F : Type} : StartLoopEvent T F → Bool
  | .monitor e => Monitor.isSpurious e
  | .thread _ => false

-- `loop_ = &loop` is what makes the loop known to the other threads.
def StartLoopEvent.threadEvent {T F : Type} : StartLoopEvent T F → Option (ThreadEvent T F)
  | .monitor .set => some .publish
  | .monitor _ => none
  | .thread e => some e

def StartLoopEvent.monitorEvent {T F : Type} : StartLoopEvent T F → Option (Monitor.Event T)
  | .monitor e => some e
  | .thread _ => none

namespace StartLoop

variable {T F : Type} [DecidableEq T] {capacity : ℕ} {s s' t : StartLoop T F} {e : StartLoopEvent T F}
  {es fs : List (StartLoopEvent T F)} {i : T}

def init : StartLoop T F := { monitor := .init, thread := .init }

-- A thread uses the loop once `start_loop()` has given it the pointer, `thread_func` after its critical section.
def mayUse (s : StartLoop T F) (e : LoopEvent T F) : Bool :=
  match e.thread with
  | .other t => s.monitor.waiter t = .returned
  | .loop => s.monitor.setter = .finished && EventLoopThread.allowed s.thread.pc e

def step (capacity : ℕ) (s : StartLoop T F) : StartLoopEvent T F → Option (StartLoop T F)
  | .monitor .otherLock => none
  | .monitor .set =>
    (s.monitor.step .set).map fun monitor => { monitor, thread := { s.thread with pc := .published } }
  | .monitor e => (s.monitor.step e).map fun monitor => { s with monitor }
  | .thread .publish => none
  | .thread (.step e) =>
    if s.mayUse e then
      (s.thread.state.step capacity e).map fun l =>
        { s with thread := { pc := EventLoopThread.pcAfter s.thread.pc e l, state := l } }
    else none
  | .thread .destroy => (s.thread.step capacity .destroy).map fun thread => { s with thread }

inductive Moves (capacity : ℕ) (s : StartLoop T F) : StartLoopEvent T F → StartLoop T F → Prop
  | set (monitor : Monitor T) (hm : s.monitor.step .set = some monitor) :
      Moves capacity s (.monitor .set) { monitor, thread := { s.thread with pc := .published } }
  | monitor (e : Monitor.Event T) (monitor : Monitor T) (hset : e ≠ .set)
      (hm : s.monitor.step e = some monitor) : Moves capacity s (.monitor e) { s with monitor }
  | use (e : LoopEvent T F) (l : LoopState T F) (hmay : s.mayUse e = true)
      (hl : s.thread.state.step capacity e = some l) :
      Moves capacity s (.thread (.step e))
        { s with thread := { pc := EventLoopThread.pcAfter s.thread.pc e l, state := l } }
  | destroy (thread : EventLoopThread T F) (hthread : s.thread.step capacity .destroy = some thread) :
      Moves capacity s (.thread .destroy) { s with thread }

theorem moves_of_step (h : s.step capacity e = some s') : Moves capacity s e s' := by
  cases e with
  | monitor e =>
    cases e with
    | set =>
      obtain ⟨monitor, hm, rfl⟩ := Option.map_eq_some_iff.mp h
      exact .set monitor hm
    | otherLock => cases h
    | _ =>
      obtain ⟨monitor, hm, rfl⟩ := Option.map_eq_some_iff.mp h
      exact .monitor _ monitor (by simp) hm
  | thread e =>
    cases e with
    | publish => cases h
    | step e =>
      simp only [step, Option.ite_none_right_eq_some, Option.map_eq_some_iff] at h
      obtain ⟨hmay, l, hl, rfl⟩ := h
      exact .use e l hmay hl
    | destroy =>
      obtain ⟨thread, hthread, rfl⟩ := Option.map_eq_some_iff.mp h
      exact .destroy thread hthread

structure Linked (s : StartLoop T F) : Prop where
  monitor : s.monitor.Inv
  flag : s.monitor.flag = true ↔ s.thread.pc ≠ .constructed

theorem Moves.linked (h : s.Linked) (hm : Moves capacity s e s') : s'.Linked := by
  cases hm with
  | set monitor hm =>
    have hset := Monitor.moves_of_step hm
    refine ⟨hset.inv h.monitor, ?_⟩
    cases hset with
    | set hsetting => simp
  | monitor e monitor hset hm =>
    have hmoves := Monitor.moves_of_step hm
    refine ⟨hmoves.inv h.monitor, ?_⟩
    cases hmoves with
    | set => exact absurd rfl hset
    | _ => exact h.flag
  | use e l hmay hl =>
    refine ⟨h.monitor, h.flag.trans (not_congr ?_)⟩
    cases e with
    | enter =>
      have hallowed : s.thread.pc = .published := by
        simp only [mayUse, LoopEvent.thread, EventLoopThread.allowed, Bool.and_eq_true, decide_eq_true_eq] at hmay
        simpa using hmay.2
      simp [EventLoopThread.pcAfter, hallowed]
    | check =>
      have hallowed : s.thread.pc = .looping := by
        simp only [mayUse, LoopEvent.thread, EventLoopThread.allowed, Bool.and_eq_true, decide_eq_true_eq] at hmay
        simpa using hmay.2
      simp only [EventLoopThread.pcAfter]
      split_ifs <;> simp [hallowed]
    | _ => rfl
  | destroy thread hthread =>
    refine ⟨h.monitor, h.flag.trans (not_congr ?_)⟩
    simp only [EventLoopThread.step, Option.ite_none_right_eq_some, Option.some.injEq] at hthread
    obtain ⟨hpc, rfl⟩ := hthread
    simp [hpc]

theorem init_linked : (init : StartLoop T F).Linked := ⟨Monitor.init_inv, by simp [init, Monitor.init, EventLoopThread.init]⟩

theorem run_linked (h : Run (Next (step capacity)) init es s) : s.Linked :=
  h.invariant (I := Linked) (fun _ _ _ hs hn => (moves_of_step hn).linked hs) init_linked

theorem Linked.allowed (h : s.Linked) {e : LoopEvent T F} (hmay : s.mayUse e = true) :
    EventLoopThread.allowed s.thread.pc e = true := by
  unfold mayUse at hmay
  split at hmay
  · rename_i t hthread
    have hflag := h.monitor.seen t (Or.inr (of_decide_eq_true hmay))
    simpa [EventLoopThread.allowed, hthread] using h.flag.mp hflag
  · exact (Bool.and_eq_true_iff.mp hmay).2

theorem Moves.threadStep (h : s.Linked) (hm : Moves capacity s e s') :
    e.threadEvent = none ∧ s'.thread = s.thread ∨
      ∃ te, e.threadEvent = some te ∧ s.thread.step capacity te = some s'.thread := by
  cases hm with
  | set monitor hm =>
    right
    refine ⟨.publish, rfl, ?_⟩
    have hunset : s.monitor.flag = false := by
      cases Monitor.moves_of_step hm with
      | set hsetting => rw [h.monitor.flag, hsetting]; rfl
    have hpc : s.thread.pc = .constructed := by
      by_contra hpc
      simp [h.flag.mpr hpc] at hunset
    simp [EventLoopThread.step, hpc]
  | monitor e monitor hset hm =>
    left
    refine ⟨?_, rfl⟩
    cases e with
    | set => exact absurd rfl hset
    | _ => rfl
  | use e l hmay hl =>
    right
    refine ⟨.step e, rfl, ?_⟩
    simp [EventLoopThread.step, h.allowed hmay, hl]
  | destroy thread hthread => exact Or.inr ⟨.destroy, rfl, hthread⟩

/-- Threads that use the loop only through the pointer they got from `start_loop()` keep to the order that
the thread's life asks for. -/
theorem callers_wait (h : Run (Next (step capacity)) init es s) :
    Run (Next (EventLoopThread.step capacity)) EventLoopThread.init (es.filterMap StartLoopEvent.threadEvent) s.thread := by
  have hkept := h.history (I := fun es s => s.Linked ∧ Run (Next (EventLoopThread.step capacity)) EventLoopThread.init
    (es.filterMap StartLoopEvent.threadEvent) s.thread) ?_ ⟨init_linked, .nil⟩
  · exact hkept.2
  · rintro es s e s' ⟨hlinked, hrun⟩ hn
    have hm := moves_of_step hn
    refine ⟨hm.linked hlinked, ?_⟩
    rw [List.filterMap_append]
    rcases hm.threadStep hlinked with ⟨hnone, hsame⟩ | ⟨te, hte, hstep⟩
    · simpa [List.filterMap_cons, hnone, hsame] using hrun
    · apply hrun.append
      have hone : Run (Next (EventLoopThread.step capacity)) s.thread [te] s'.thread := Run.single hstep
      simpa [List.filterMap_cons, hte] using hone

theorem callers_wait_quit : ∃ s : StartLoop Unit Unit,
    s.thread.pc = .looping ∧ s.thread.state.loop.quit = true ∧
      Run (Next (EventLoopThread.step 8192)) EventLoopThread.init
        [.publish, .step .enter, .step .clear, .step (.quit (.other ()))] s.thread := by
  have hexec : (exec (step 8192) (init : StartLoop Unit Unit)
      [.monitor (.call ()), .monitor (.lock ()), .monitor (.test ()), .monitor .setterLock, .monitor .set,
        .monitor (.notify (some ())), .monitor .setterUnlock, .monitor (.lock ()), .thread (.step .enter),
        .monitor (.test ()), .monitor (.ret ()), .thread (.step .clear), .thread (.step (.quit (.other ())))]).map
        (fun s => (s.thread.pc, s.thread.state.loop.quit)) = some (.looping, true) := by decide
  obtain ⟨s, hrun, hs⟩ := run_of_exec_map _ hexec
  obtain ⟨hpc, hquit⟩ := Prod.mk.inj hs
  exact ⟨s, hpc, hquit, callers_wait hrun⟩

-- No thread wakes up without having been notified.
abbrev QuietNext (capacity : ℕ) : StartLoop T F → StartLoopEvent T F → StartLoop T F → Prop :=
  Guarded (Next (step capacity)) fun _ e => e.isSpurious = false

theorem Moves.monitorStep (hm : Moves capacity s e s') :
    e.monitorEvent = none ∧ s'.monitor = s.monitor ∨
      ∃ me, e.monitorEvent = some me ∧ s.monitor.step me = some s'.monitor := by
  cases hm with
  | set monitor hm => exact Or.inr ⟨.set, rfl, hm⟩
  | monitor e monitor hset hm => exact Or.inr ⟨e, rfl, hm⟩
  | use | destroy => exact Or.inl ⟨rfl, rfl⟩

theorem run_monitor (h : Run (QuietNext capacity) s es t) :
    Run (Guarded (Next Monitor.step) fun _ e => Monitor.isSpurious e = false) s.monitor
      (es.filterMap StartLoopEvent.monitorEvent) t.monitor := by
  induction h with
  | nil => exact .nil
  | @snoc es t e u _ hn ih =>
    obtain ⟨hn, hquiet⟩ := hn
    rw [List.filterMap_append]
    rcases (moves_of_step hn).monitorStep with ⟨hnone, hsame⟩ | ⟨me, hme, hstep⟩
    · simpa [List.filterMap_cons, hnone, hsame] using ih
    · apply ih.append
      have hspurious : Monitor.isSpurious me = false := by
        cases e with
        | monitor e =>
          obtain rfl := Option.some.inj hme
          exact hquiet
        | thread e => cases hme
      have hone : Run (Guarded (Next Monitor.step) fun _ e => Monitor.isSpurious e = false)
          t.monitor [me] u.monitor := Run.single ⟨hstep, hspurious⟩
      simpa [List.filterMap_cons, hme] using hone

theorem run_plain {ms : List (Monitor.Event T)} {m m' : Monitor T} (hm : s.monitor = m)
    (h : Run (Guarded (Next Monitor.step) fun _ e => Monitor.plain e = true) m ms m') :
    Run (QuietNext capacity) s (ms.map .monitor) { s with monitor := m' } := by
  induction h with
  | nil =>
    subst hm
    exact .nil
  | @snoc ms m' e m'' _ hn ih =>
    obtain ⟨hn, hplain⟩ := hn
    rw [List.map_append]
    refine ih.append (Run.single ⟨?_, ?_⟩)
    · have hstep : m'.step e = some m'' := hn
      cases e with
      | set | otherLock => cases hplain
      | _ => simp [Next, step, hstep]
    · cases e with
      | spurious => cases hplain
      | _ => rfl

def Returns (capacity : ℕ) (s : StartLoop T F) (i : T) : Prop :=
  ∃ es t, Run (QuietNext capacity) s es t ∧ t.monitor.waiter i = .returned

theorem run_notified (hlinked : s.Linked) (hnotified : s.monitor.setter.notified = true)
    (hempty : s.monitor.waitSet = []) (h : Run (QuietNext capacity) s es t) :
    t.monitor.Inv ∧ t.monitor.setter.notified = true ∧ t.monitor.waitSet = [] := by
  apply (run_monitor h).invariant (I := fun m => m.Inv ∧ m.setter.notified = true ∧ m.waitSet = [])
  · rintro m e m' ⟨hinv, hnotified, hempty⟩ ⟨hn, _⟩
    have hm := Monitor.moves_of_step hn
    refine ⟨hm.inv hinv, hm.notified hnotified, ?_⟩
    apply List.subset_nil.mp
    rw [← hempty]
    exact hm.waitSet_subset (hinv.published hnotified)
  · exact ⟨hlinked.monitor, hnotified, hempty⟩

/-- Whatever happens after `loop_` is published, every `start_loop()` can return, exactly if the one
notification found at most one thread asleep. -/
theorem start_loop_returns_iff {woken : Option T} (h : Run (Next (step capacity)) init es s)
    (hn : Next (step capacity) s (.monitor (.notify woken)) s') :
    (∀ fs t, Run (QuietNext capacity) s' fs t → ∀ i, t.monitor.waiter i ≠ .idle → t.Returns capacity i) ↔
      s.monitor.waitSet.length ≤ 1 := by
  have hm := moves_of_step hn
  have hlinked := hm.linked (run_linked h)
  obtain ⟨hnone, _⟩ | ⟨me, hme, hstep⟩ := hm.monitorStep
  · cases hnone
  obtain rfl := Option.some.inj hme
  have hnotify := Monitor.moves_of_step hstep
  have hnotified := hnotify.notify_notified
  constructor
  · intro hall
    by_contra hlength
    obtain ⟨i, hi⟩ := hnotify.notify_left (Nat.lt_of_not_le hlength)
    have hasleep := (hlinked.monitor.asleep i).mpr hi
    obtain ⟨gs, u, hrun, hreturned⟩ := hall [] s' .nil i (by simp [hasleep])
    have hstuck := Monitor.run_asleep hnotified hasleep (run_monitor hrun)
    rw [hreturned] at hstuck
    cases hstuck
  · intro hlength fs t hrun i hi
    obtain ⟨hinv, hnotified', hempty⟩ := run_notified hlinked hnotified (hnotify.notify_empty hlength) hrun
    obtain ⟨ms, m, hplain, hreturned⟩ := hinv.returns hnotified' hempty hi
    exact ⟨_, _, run_plain rfl hplain, hreturned⟩

def bothAsleep : List (StartLoopEvent Bool Unit) :=
  [.monitor (.call false), .monitor (.lock false), .monitor (.test false), .monitor (.call true),
    .monitor (.lock true), .monitor (.test true), .monitor .setterLock, .monitor .set]

theorem start_loop_returns_iff_two : ∃ s s' : StartLoop Bool Unit,
    s.monitor.waitSet = [false, true] ∧
      ((∀ fs t, Run (QuietNext 8192) s' fs t → ∀ i, t.monitor.waiter i ≠ .idle → t.Returns 8192 i) ↔
        s.monitor.waitSet.length ≤ 1) := by
  have hexec : (exec (step 8192) (init : StartLoop Bool Unit) bothAsleep).map
      (fun s => (s.monitor.waitSet, s.monitor.setter)) = some ([false, true], .notifying) := by decide
  obtain ⟨s, hrun, hs⟩ := run_of_exec_map _ hexec
  obtain ⟨hwaitSet, hsetter⟩ := Prod.mk.inj hs
  obtain ⟨s', hn⟩ : ∃ s', Next (step 8192) s (.monitor (.notify (some false))) s' := by
    simp [Next, step, Monitor.step, hwaitSet, hsetter]
  exact ⟨s, s', hwaitSet, start_loop_returns_iff hrun hn⟩

end StartLoop

end Penduo
