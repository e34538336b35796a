import Penduo.Library.Monitor
import Penduo.Library.Potential
import Penduo.TimerThreadLife

set_option autoImplicit false

namespace Penduo

open LabelledRuns

def Instance.startup : Instance → Bool
  | .starting | .piping | .awaiting => true
  | _ => false

def FuncPhase.announced : FuncPhase → Bool
  | .looping | .returned => true
  | _ => false

def LifeEvent.takesMutex : LifeEvent → Bool
  | .clearRunning | .test | .thread .expire | .thread (.lock _) => true
  | _ => false

/-- A `TimerThread` whose constructor waits on `cond_` step by step. Its `mutex_` and `cond_` are a monitor with
one waiter, whose flag is `thread_running`. -/
structure TimerThreadAwait where
  monitor : Monitor Unit
  life : TimerThreadLife

inductive AwaitEvent
  | monitor (e : Monitor.Event Unit)
  | life (e : LifeEvent)

def AwaitEvent.lifeEvent : AwaitEvent → Option LifeEvent
  | .monitor .set => some .setRunning
  | .monitor (.ret _) => some .awaitRunning
  | .monitor _ => none
  | .life e => some e

namespace TimerThreadAwait

variable {capacity : ℕ} {clock : Timestamp} {s s' : TimerThreadAwait} {e : AwaitEvent} {es : List AwaitEvent}

def init (clock : Timestamp) : TimerThreadAwait := { monitor := .init, life := .init clock }

def mayStep (s : TimerThreadAwait) : LifeEvent → Bool
  | .awaitRunning | .setRunning => false
  | e => (e ≠ .test || s.monitor.setter = .finished) && (!e.takesMutex || s.monitor.mutex = none)

def step (capacity : ℕ) (s : TimerThreadAwait) : AwaitEvent → Option TimerThreadAwait
  | .monitor .otherLock => none
  | .monitor (.call i) =>
    if s.life.owner = .awaiting then (s.monitor.step (.call i)).map fun monitor => { s with monitor } else none
  | .monitor (.lock i) =>
    if s.life.timer.mutex = none then (s.monitor.step (.lock i)).map fun monitor => { s with monitor } else none
  | .monitor .setterLock =>
    if s.life.func = .announcing ∧ s.life.timer.mutex = none then
      (s.monitor.step .setterLock).map fun monitor => { s with monitor }
    else none
  | .monitor .set =>
    (s.monitor.step .set).map fun monitor =>
      { monitor, life := { s.life with func := .looping, threadRunning := true } }
  | .monitor (.ret i) =>
    (s.monitor.step (.ret i)).map fun monitor => { monitor, life := { s.life with owner := .constructed } }
  | .monitor e => (s.monitor.step e).map fun monitor => { s with monitor }
  | .life e => if s.mayStep e then (s.life.step capacity e).map fun life => { s with life } else none

inductive Moves (capacity : ℕ) (s : TimerThreadAwait) : AwaitEvent → TimerThreadAwait → Prop
  | call (monitor : Monitor Unit) (howner : s.life.owner = .awaiting)
      (hm : Monitor.Moves s.monitor (.call ()) monitor) : Moves capacity s (.monitor (.call ())) { s with monitor }
  | setterLock (monitor : Monitor Unit) (hfunc : s.life.func = .announcing)
      (hm : Monitor.Moves s.monitor .setterLock monitor) : Moves capacity s (.monitor .setterLock) { s with monitor }
  | set (monitor : Monitor Unit) (hm : Monitor.Moves s.monitor .set monitor) :
      Moves capacity s (.monitor .set)
        { monitor, life := { s.life with func := .looping, threadRunning := true } }
  | ret (monitor : Monitor Unit) (hm : Monitor.Moves s.monitor (.ret ()) monitor) :
      Moves capacity s (.monitor (.ret ())) { monitor, life := { s.life with owner := .constructed } }
  | monitor (e : Monitor.Event Unit) (monitor : Monitor Unit) (hcall : e ≠ .call ()) (hlock : e ≠ .setterLock)
      (hset : e ≠ .set) (hret : e ≠ .ret ()) (hother : e ≠ .otherLock) (hm : Monitor.Moves s.monitor e monitor) :
      Moves capacity s (.monitor e) { s with monitor }
  | life (e : LifeEvent) (life : TimerThreadLife) (hawait : e ≠ .awaitRunning) (hset : e ≠ .setRunning)
      (hlife : s.life.step capacity e = some life) : Moves capacity s (.life e) { s with life }

theorem moves_of_step (h : s.step capacity e = some s') : Moves capacity s e s' := by
  cases e with
  | monitor e =>
    cases e with
    | call i =>
      simp only [step, Option.ite_none_right_eq_some, Option.map_eq_some_iff] at h
      obtain ⟨howner, monitor, hm, rfl⟩ := h
      exact .call monitor howner (Monitor.moves_of_step hm)
    | lock i =>
      simp only [step, Option.ite_none_right_eq_some, Option.map_eq_some_iff] at h
      obtain ⟨_, monitor, hm, rfl⟩ := h
      exact .monitor _ monitor nofun nofun nofun nofun nofun (Monitor.moves_of_step hm)
    | setterLock =>
      simp only [step, Option.ite_none_right_eq_some, Option.map_eq_some_iff] at h
      obtain ⟨⟨hfunc, _⟩, monitor, hm, rfl⟩ := h
      exact .setterLock monitor hfunc (Monitor.moves_of_step hm)
    | set =>
      obtain ⟨monitor, hm, rfl⟩ := Option.map_eq_some_iff.mp h
      exact .set monitor (Monitor.moves_of_step hm)
    | ret i =>
      obtain ⟨monitor, hm, rfl⟩ := Option.map_eq_some_iff.mp h
      exact .ret monitor (Monitor.moves_of_step hm)
    | otherLock => cases h
    | _ =>
      obtain ⟨monitor, hm, rfl⟩ := Option.map_eq_some_iff.mp h
      exact .monitor _ monitor nofun nofun nofun nofun nofun (Monitor.moves_of_step hm)
  | life e =>
    simp only [step, Option.ite_none_right_eq_some, Option.map_eq_some_iff] at h
    obtain ⟨hmay, life, hlife, rfl⟩ := h
    refine .life e life ?_ ?_ hlife
    · rintro rfl
      cases hmay
    · rintro rfl
      cases hmay

structure Linked (s : TimerThreadAwait) : Prop where
  monitor : s.monitor.Inv
  other : s.monitor.mutex ≠ some .other
  returned : s.monitor.waiter () = .returned ↔ s.life.owner.startup = false
  called : s.monitor.waiter () ≠ .idle → s.life.owner ≠ .starting ∧ s.life.owner ≠ .piping
  unstarted : s.life.func = .unstarted ↔ s.life.owner = .starting
  announced : s.monitor.setter.published = s.life.func.announced
  setting : s.monitor.setter = .setting → s.life.func = .announcing
  flag : s.life.owner.startup = true → s.life.threadRunning = s.monitor.flag
  uncalled : s.life.owner.startup = true → s.life.timer.mutex = none ∧ ∀ c, s.life.timer.call c = .idle
  notified : s.monitor.setter.notified = true → s.monitor.waitSet = []

theorem init_linked : (init clock).Linked where
  monitor := Monitor.init_inv
  other := nofun
  returned := by simp [init, Monitor.init, TimerThreadLife.init, Instance.startup]
  called := by simp [init, Monitor.init]
  unstarted := by simp [init, TimerThreadLife.init]
  announced := rfl
  setting := nofun
  flag _ := rfl
  uncalled _ := ⟨rfl, fun _ => rfl⟩
  notified := nofun

theorem setWaiter_unit (m : Monitor Unit) (i : Unit) (w : Monitor.Waiter) : (m.setWaiter i w).waiter () = w := by
  rw [Monitor.setWaiter_waiter, if_pos rfl]

theorem waitSet_length_le {m : Monitor Unit} (h : m.Inv) : m.waitSet.length ≤ 1 := by
  match hw : m.waitSet with
  | [] => exact Nat.zero_le _
  | [_] => exact le_rfl
  | () :: () :: rest => exact absurd List.mem_cons_self (List.nodup_cons.mp (hw ▸ h.nodup)).1

theorem Linked.monitorStep {e : Monitor.Event Unit} {monitor : Monitor Unit} (h : s.Linked) (hcall : e ≠ .call ())
    (hlock : e ≠ .setterLock) (hset : e ≠ .set) (hret : e ≠ .ret ()) (hother : e ≠ .otherLock)
    (hm : Monitor.Moves s.monitor e monitor) : Linked { s with monitor } := by
  have hinv := hm.inv h.monitor
  cases hm with
  | call | setterLock | set | ret | otherLock => contradiction
  | lock i hlocking hfree =>
    refine { h with monitor := hinv, other := nofun, returned := ?_, called := ?_ }
    · rw [setWaiter_unit, ← h.returned]
      rcases hlocking with hw | hw <;> simp [hw]
    · exact fun _ => h.called (by rcases hlocking with hw | hw <;> simp [hw])
  | see i htesting hflag =>
    refine { h with monitor := hinv, returned := ?_, called := ?_ }
    · rw [setWaiter_unit, ← h.returned, htesting]
      simp
    · exact fun _ => h.called (by simp [htesting])
  | sleep i htesting hflag =>
    refine { h with monitor := hinv, other := nofun, returned := ?_, called := ?_, notified := ?_ }
    · rw [setWaiter_unit, ← h.returned, htesting]
      simp
    · exact fun _ => h.called (by simp [htesting])
    · intro hnotified
      simp [h.monitor.published hnotified] at hflag
  | spurious i hmem =>
    have hasleep := (h.monitor.asleep i).mpr hmem
    refine { h with monitor := hinv, returned := ?_, called := ?_, notified := ?_ }
    · rw [setWaiter_unit, ← h.returned, hasleep]
      simp
    · exact fun _ => h.called (by simp [hasleep])
    · intro hnotified
      simp [h.notified hnotified] at hmem
  | notifyNone hnotifying hempty =>
    exact { h with monitor := hinv, announced := by rw [← h.announced, hnotifying]; rfl, setting := nofun,
                   notified := fun _ => hempty }
  | notifySome i hnotifying hmem =>
    have hasleep := (h.monitor.asleep i).mpr hmem
    have hempty := (Monitor.Moves.notifySome i hnotifying hmem).notify_empty (waitSet_length_le h.monitor)
    refine { h with monitor := hinv, returned := ?_, called := ?_, announced := ?_, setting := nofun,
                    notified := fun _ => hempty }
    · rw [setWaiter_unit, ← h.returned, hasleep]
      simp
    · exact fun _ => h.called (by simp [hasleep])
    · rw [← h.announced, hnotifying]
      rfl
  | setterUnlock hleaving =>
    refine { h with monitor := hinv, other := nofun, announced := ?_, setting := nofun, notified := ?_ }
    · rw [← h.announced, hleaving]
      rfl
    · exact fun _ => h.notified (by rw [hleaving]; rfl)
  | otherUnlock hheld => exact absurd hheld h.other

theorem Linked.lifeStep {e : LifeEvent} {life : TimerThreadLife} (h : s.Linked) (hawait : e ≠ .awaitRunning)
    (hset : e ≠ .setRunning) (hlife : s.life.step capacity e = some life) : Linked { s with life } := by
  cases TimerThreadLife.moves_of_step hlife with
  | awaitRunning | setRunning => contradiction
  | start howner =>
    have hunstarted := h.unstarted.mpr howner
    refine { h with returned := ?_, called := ?_, unstarted := ?_, announced := ?_, setting := ?_, flag := ?_,
                    uncalled := ?_ }
    · rw [h.returned, howner]
      rfl
    · exact fun hw => absurd howner (h.called hw).1
    · simp
    · rw [h.announced, hunstarted]
      rfl
    · intro hsetting
      have hannouncing := h.setting hsetting
      simp [hunstarted] at hannouncing
    · exact fun _ => h.flag (by rw [howner]; rfl)
    · exact fun _ => h.uncalled (by rw [howner]; rfl)
  | pipe readFd howner =>
    refine { h with returned := ?_, called := ?_, unstarted := ?_, flag := ?_, uncalled := ?_ }
    · rw [h.returned, howner]
      rfl
    · exact fun hw => absurd howner (h.called hw).2
    · rw [h.unstarted, howner]
      simp
    · exact fun _ => h.flag (by rw [howner]; rfl)
    · exact fun _ => h.uncalled (by rw [howner]; rfl)
  | clearRunning howner =>
    refine { h with returned := ?_, called := ?_, unstarted := ?_, flag := nofun, uncalled := nofun }
    · rw [h.returned, howner]
      rfl
    · simp
    · rw [h.unstarted, howner]
      simp
  | join howner hfunc =>
    refine { h with returned := ?_, called := ?_, unstarted := ?_, flag := nofun, uncalled := nofun }
    · rw [h.returned, howner]
      rfl
    · simp
    · rw [h.unstarted, howner]
      simp
  | copyFd hfunc =>
    refine { h with unstarted := ?_, announced := ?_, setting := fun _ => rfl }
    · rw [← h.unstarted, hfunc]
      simp
    · rw [h.announced, hfunc]
      rfl
  | test hfunc hrunning => exact { h with }
  | leave hfunc htesting hrunning =>
    refine { h with unstarted := ?_, announced := ?_, setting := ?_ }
    · rw [← h.unstarted, hfunc]
      simp
    · rw [h.announced, hfunc]
      rfl
    · intro hsetting
      simp [h.setting hsetting] at hfunc
  | enterPoll waitMs hpolling hsince => exact { h with }
  | poll ret hpolling => exact { h with }
  | readWeakup now weakup hreading => exact { h with }
  | reset caller writeFd newTimestamp oldTimestamp timer hm =>
    have howner : s.life.owner = .constructed := by
      simp only [TimerThreadLife.step, Option.ite_none_right_eq_some] at hlife
      exact hlife.1
    refine { h with uncalled := ?_ }
    intro hstartup
    rw [howner] at hstartup
    cases hstartup
  | thread te timer he hm =>
    refine { h with uncalled := fun hstartup => ?_ }
    have huncalled := h.uncalled hstartup
    cases hm with
    | lock c r hcall | write c r hcall | unlock c r hcall => simp [huncalled.2 c] at hcall
    | reset | test | poll | readWeakup => cases he
    | _ => exact huncalled

theorem Moves.linked (h : s.Linked) (hm : Moves capacity s e s') : s'.Linked := by
  cases hm with
  | call monitor howner hm =>
    have hinv := hm.inv h.monitor
    cases hm with
    | call i hidle =>
      refine { h with monitor := hinv, returned := ?_, called := ?_ }
      · rw [setWaiter_unit, ← h.returned, hidle]
        simp
      · simp [howner]
  | setterLock monitor hfunc hm =>
    have hinv := hm.inv h.monitor
    cases hm with
    | setterLock hworking hfree =>
      refine { h with monitor := hinv, other := nofun, announced := ?_, setting := fun _ => hfunc, notified := nofun }
      rw [hfunc]
      rfl
  | set monitor hm =>
    have hinv := hm.inv h.monitor
    cases hm with
    | set hsetting =>
      refine { h with monitor := hinv, unstarted := ?_, announced := rfl, setting := nofun, flag := fun _ => rfl,
                      notified := nofun }
      rw [← h.unstarted, h.setting hsetting]
      simp
  | ret monitor hm =>
    have hinv := hm.inv h.monitor
    cases hm with
    | ret i hreturning =>
      have howner := h.called (by simp [hreturning])
      refine { h with monitor := hinv, other := nofun, returned := ?_, called := by simp, unstarted := ?_,
                      flag := nofun, uncalled := nofun }
      · rw [setWaiter_unit]
        simp [Instance.startup]
      · rw [h.unstarted]
        simp [howner.1]
  | monitor e monitor hcall hlock hset hret hother hm => exact h.monitorStep hcall hlock hset hret hother hm
  | life e life hawait hset hlife => exact h.lifeStep hawait hset hlife

theorem run_linked (h : Run (Next (step capacity)) (init clock) es s) : s.Linked :=
  h.invariant (I := Linked) (fun _ _ _ hs hn => (moves_of_step hn).linked hs) init_linked

theorem Linked.awaiting (h : s.Linked) (hw : s.monitor.waiter () ≠ .idle) (hreturned : s.monitor.waiter () ≠ .returned) :
    s.life.owner = .awaiting := by
  have hcalled := h.called hw
  have hstartup := mt h.returned.mpr hreturned
  cases howner : s.life.owner <;> simp [howner, Instance.startup] at hcalled hstartup ⊢

theorem Moves.lifeStep (h : s.Linked) (hm : Moves capacity s e s') :
    e.lifeEvent = none ∧ s'.life = s.life ∨
      ∃ le, e.lifeEvent = some le ∧ s.life.step capacity le = some s'.life := by
  cases hm with
  | call | setterLock => exact Or.inl ⟨rfl, rfl⟩
  | set monitor hm =>
    right
    refine ⟨.setRunning, rfl, ?_⟩
    cases hm with
    | set hsetting =>
      have hfunc := h.setting hsetting
      have hstartup : s.life.owner.startup = true := by
        rw [← Bool.not_eq_false, ← h.returned]
        intro hreturned
        have hflag := h.monitor.seen () (Or.inr hreturned)
        rw [h.monitor.flag, hsetting] at hflag
        cases hflag
      simp [TimerThreadLife.step, hfunc, (h.uncalled hstartup).1]
  | ret monitor hm =>
    right
    refine ⟨.awaitRunning, rfl, ?_⟩
    cases hm with
    | ret i hreturning =>
      have howner := h.awaiting (by simp [hreturning]) (by simp [hreturning])
      have hstartup : s.life.owner.startup = true := by rw [howner]; rfl
      have hrunning : s.life.threadRunning = true :=
        (h.flag hstartup).trans (h.monitor.seen () (Or.inl hreturning))
      simp [TimerThreadLife.step, howner, hrunning, (h.uncalled hstartup).1]
  | monitor e monitor hcall hlock hset hret hother hm =>
    left
    refine ⟨?_, rfl⟩
    cases e with
    | set => exact absurd rfl hset
    | ret i => exact absurd rfl hret
    | _ => rfl
  | life e life hawait hset hlife => exact Or.inr ⟨e, rfl, hlife⟩

/-- The waiting of the constructor, step by step, comes to no more than the one step it stands for. -/
theorem waiting_refined (h : Run (Next (step capacity)) (init clock) es s) :
    Run (Next (TimerThreadLife.step capacity)) (.init clock) (es.filterMap AwaitEvent.lifeEvent) s.life := by
  have hkept := h.history (I := fun es s => s.Linked ∧
    Run (Next (TimerThreadLife.step capacity)) (.init clock) (es.filterMap AwaitEvent.lifeEvent) s.life) ?_
    ⟨init_linked, .nil⟩
  · exact hkept.2
  · rintro es s e s' ⟨hlinked, hrun⟩ hn
    have hm := moves_of_step hn
    refine ⟨hm.linked hlinked, ?_⟩
    rw [List.filterMap_append]
    rcases hm.lifeStep hlinked with ⟨hnone, hsame⟩ | ⟨le, hle, hstep⟩
    · simpa [List.filterMap_cons, hnone, hsame] using hrun
    · apply hrun.append
      have hone : Run (Next (TimerThreadLife.step capacity)) s.life [le] s'.life := Run.single hstep
      simpa [List.filterMap_cons, hle] using hone

section Completion

def ownerSteps : Instance → ℕ
  | .starting => 2
  | .piping => 1
  | _ => 0

def funcSteps : FuncPhase → ℕ
  | .unstarted | .copying => 1
  | _ => 0

def setterSteps : Monitor.Setter → ℕ
  | .working => 4
  | .setting => 3
  | .notifying => 2
  | .leaving => 1
  | .finished => 0

-- A constructor that finds `thread_running` unset has to wait, be woken and look again.
def waiterSteps (running : Bool) : Monitor.Waiter → ℕ
  | .idle => 7
  | .locking => 6
  | .testing => if running then 2 else 5
  | .asleep => 4
  | .woken => 3
  | .returning => 1
  | .returned => 0

def rank (s : TimerThreadAwait) : ℕ :=
  ownerSteps s.life.owner + funcSteps s.life.func + setterSteps s.monitor.setter +
    waiterSteps s.monitor.flag (s.monitor.waiter ())

def Progress (capacity : ℕ) (s : TimerThreadAwait) : Prop :=
  ∃ e s', Next (step capacity) s e s' ∧ s'.rank < s.rank ∧
    (s'.life.owner.startup = true ∨ s'.life.owner = .constructed)

theorem progress_held (h : s.Linked) (howner : s.life.owner = .awaiting) (hmutex : s.monitor.mutex = some (.waiter ())) :
    s.Progress capacity := by
  have hholds := (h.monitor.waiters ()).mpr hmutex
  cases hw : s.monitor.waiter () with
  | testing =>
    cases hflag : s.monitor.flag with
    | true =>
      refine ⟨.monitor (.test ()), { s with monitor := s.monitor.setWaiter () .returning }, ?_, ?_, ?_⟩
      · simp [Next, step, Monitor.step, hw, hflag]
      · simp [rank, Monitor.setWaiter, hw, hflag, waiterSteps]
      · exact Or.inl (by rw [howner]; rfl)
    | false =>
      refine ⟨.monitor (.test ()),
        { s with monitor := { s.monitor.setWaiter () .asleep with
          mutex := none, waitSet := s.monitor.waitSet ++ [()] } }, ?_, ?_, ?_⟩
      · simp [Next, step, Monitor.step, hw, hflag]
      · simp [rank, Monitor.setWaiter, hw, hflag, waiterSteps]
      · exact Or.inl (by rw [howner]; rfl)
  | returning =>
    refine ⟨.monitor (.ret ()),
      { monitor := { s.monitor.setWaiter () .returned with mutex := none },
        life := { s.life with owner := .constructed } }, ?_, ?_, Or.inr rfl⟩
    · simp [Next, step, Monitor.step, hw]
    · simp [rank, Monitor.setWaiter, hw, waiterSteps, howner, ownerSteps]
  | _ => simp [hw, Monitor.Waiter.holds] at hholds

theorem progress_setter (h : s.Linked) (howner : s.life.owner = .awaiting) (hmutex : s.monitor.mutex = some .setter) :
    s.Progress capacity := by
  have hholds := h.monitor.setter.mpr hmutex
  have hstartup : s.life.owner.startup = true := by rw [howner]; rfl
  cases hs : s.monitor.setter with
  | setting =>
    have hflag : s.monitor.flag = false := by rw [h.monitor.flag, hs]; rfl
    have htesting : s.monitor.waiter () ≠ .testing := by
      intro hw
      have hheld := (h.monitor.waiters ()).mp (by rw [hw]; rfl)
      simp [hmutex] at hheld
    refine ⟨.monitor .set, ⟨{ s.monitor with setter := .notifying, flag := true },
      { s.life with func := .looping, threadRunning := true }⟩, ?_, ?_, Or.inl hstartup⟩
    · simp [Next, step, Monitor.step, hs]
    · simp only [rank, hs, h.setting hs, setterSteps, funcSteps, hflag]
      cases hw : s.monitor.waiter () <;> simp_all [waiterSteps]
  | notifying =>
    cases hwait : s.monitor.waitSet with
    | nil =>
      refine ⟨.monitor (.notify none), { s with monitor := { s.monitor with setter := .leaving } }, ?_, ?_,
        Or.inl hstartup⟩
      · simp [Next, step, Monitor.step, hs, hwait]
      · simp [rank, hs, setterSteps]
    | cons i rest =>
      have hasleep := (h.monitor.asleep ()).mpr (by simp [hwait])
      refine ⟨.monitor (.notify (some ())),
        { s with monitor := { s.monitor.setWaiter () .woken with
          setter := .leaving, waitSet := s.monitor.waitSet.erase () } }, ?_, ?_, Or.inl hstartup⟩
      · simp [Next, step, Monitor.step, hs, hwait]
      · simp [rank, Monitor.setWaiter, hs, hasleep, setterSteps, waiterSteps]
  | leaving =>
    refine ⟨.monitor .setterUnlock, { s with monitor := { s.monitor with setter := .finished, mutex := none } }, ?_, ?_,
      Or.inl hstartup⟩
    · simp [Next, step, Monitor.step, hs]
    · simp [rank, hs, setterSteps]
  | _ => simp [hs, Monitor.Setter.holds] at hholds

theorem progress_copying (howner : s.life.owner = .awaiting) (hfunc : s.life.func = .copying) : s.Progress capacity := by
  refine ⟨.life .copyFd,
    { s with life := { s.life with func := .announcing, polledFd := s.life.weakupFd.getD 0 } }, ?_, ?_, Or.inl ?_⟩
  · simp [Next, step, mayStep, LifeEvent.takesMutex, TimerThreadLife.step, hfunc]
  · simp [rank, hfunc, funcSteps]
  · rw [howner]
    rfl

theorem progress_announcing (h : s.Linked) (howner : s.life.owner = .awaiting) (hmutex : s.monitor.mutex = none)
    (hfunc : s.life.func = .announcing) (hholds : s.monitor.setter.holds = false) : s.Progress capacity := by
  have hstartup : s.life.owner.startup = true := by rw [howner]; rfl
  have hpublished : s.monitor.setter.published = false := by rw [h.announced, hfunc]; rfl
  have hworking : s.monitor.setter = .working := by
    cases hs : s.monitor.setter <;> simp [hs, Monitor.Setter.holds, Monitor.Setter.published] at hholds hpublished ⊢
  refine ⟨.monitor .setterLock,
    { s with monitor := { s.monitor with setter := .setting, mutex := some .setter } }, ?_, ?_, Or.inl hstartup⟩
  · simp [Next, step, Monitor.step, hfunc, hworking, hmutex, (h.uncalled hstartup).1]
  · simp [rank, hworking, setterSteps]

theorem progress_announced (h : s.Linked) (howner : s.life.owner = .awaiting) (hmutex : s.monitor.mutex = none)
    (hfunc : s.life.func.announced = true) (hholds : s.monitor.setter.holds = false) : s.Progress capacity := by
  have hstartup : s.life.owner.startup = true := by rw [howner]; rfl
  have hfree := (h.uncalled hstartup).1
  have hpublished : s.monitor.setter.published = true := h.announced.trans hfunc
  have hflag : s.monitor.flag = true := h.monitor.flag.trans hpublished
  have hnotified : s.monitor.setter.notified = true := by
    cases hs : s.monitor.setter <;>
      simp [hs, Monitor.Setter.holds, Monitor.Setter.published, Monitor.Setter.notified] at hholds hpublished ⊢
  have hwaiter : (s.monitor.waiter ()).holds = false := by
    rw [Bool.eq_false_iff]
    intro hheld
    simp [(h.monitor.waiters ()).mp hheld] at hmutex
  cases hw : s.monitor.waiter () with
  | idle =>
    refine ⟨.monitor (.call ()), { s with monitor := s.monitor.setWaiter () .locking }, ?_, ?_, Or.inl hstartup⟩
    · simp [Next, step, Monitor.step, howner, hw]
    · simp [rank, Monitor.setWaiter, hw, waiterSteps]
  | locking | woken =>
    refine ⟨.monitor (.lock ()),
      { s with monitor := { s.monitor.setWaiter () .testing with mutex := some (.waiter ()) } }, ?_, ?_,
      Or.inl hstartup⟩
    · simp [Next, step, Monitor.step, hfree, hw, hmutex]
    · simp [rank, Monitor.setWaiter, hw, hflag, waiterSteps]
  | asleep =>
    have hmem := (h.monitor.asleep ()).mp hw
    simp [h.notified hnotified] at hmem
  | testing | returning => simp [hw, Monitor.Waiter.holds] at hwaiter
  | returned =>
    have hdone := h.returned.mp hw
    simp [hstartup] at hdone

theorem progress_free (h : s.Linked) (howner : s.life.owner = .awaiting) (hmutex : s.monitor.mutex = none) :
    s.Progress capacity := by
  have hholds : s.monitor.setter.holds = false := by
    rw [Bool.eq_false_iff]
    intro hheld
    simp [h.monitor.setter.mp hheld] at hmutex
  cases hfunc : s.life.func with
  | unstarted => simp [h.unstarted.mp hfunc] at howner
  | copying => exact progress_copying howner hfunc
  | announcing => exact progress_announcing h howner hmutex hfunc hholds
  | looping | returned => exact progress_announced h howner hmutex (by rw [hfunc]; rfl) hholds

theorem Linked.progress (h : s.Linked) (hstartup : s.life.owner.startup = true) : s.Progress capacity := by
  cases howner : s.life.owner with
  | starting =>
    have hfunc := h.unstarted.mpr howner
    refine ⟨.life .start, { s with life := { s.life with owner := .piping, func := .copying } }, ?_, ?_, Or.inl rfl⟩
    · simp [Next, step, mayStep, LifeEvent.takesMutex, TimerThreadLife.step, howner]
    · simp [rank, howner, hfunc, ownerSteps, funcSteps]
  | piping =>
    refine ⟨.life (.pipe 0), { s with life := { s.life with owner := .awaiting, weakupFd := some 0 } }, ?_, ?_,
      Or.inl rfl⟩
    · simp [Next, step, mayStep, LifeEvent.takesMutex, TimerThreadLife.step, howner]
    · simp [rank, howner, ownerSteps]
  | awaiting =>
    cases hmutex : s.monitor.mutex with
    | none => exact progress_free h howner hmutex
    | some holder =>
      cases holder with
      | waiter i => exact progress_held h howner hmutex
      | setter => exact progress_setter h howner hmutex
      | other => exact absurd hmutex h.other
  | _ =>
    rw [howner] at hstartup
    cases hstartup

/-- However the constructor and `TimerFunc` have come to where they are, the constructor can return. -/
theorem constructor_returns (h : Run (Next (step capacity)) (init clock) es s)
    (hstartup : s.life.owner.startup = true) :
    ∃ fs s', Run (Next (step capacity)) s fs s' ∧ s'.life.owner = .constructed := by
  have hreaches : ∃ fs s', Run (Next (step capacity)) s fs s' ∧ fs.length ≤ s.rank + 1 ∧
      s'.life.owner = .constructed := by
    apply reaches_of_progress rank
      (fun s => s.Linked ∧ (s.life.owner.startup = true ∨ s.life.owner = .constructed)) _ _
      ⟨run_linked h, Or.inl hstartup⟩
    rintro s ⟨hlinked, hstartup | hdone⟩
    · right
      have hprogress : s.Progress capacity := hlinked.progress hstartup
      obtain ⟨e, s', hn, hlt, howner⟩ := hprogress
      exact ⟨e, s', hn, Or.inr ⟨⟨(moves_of_step hn).linked hlinked, howner⟩, hlt⟩⟩
    · exact Or.inl hdone
  obtain ⟨fs, s', hrun, _, hdone⟩ := hreaches
  exact ⟨fs, s', hrun, hdone⟩

def wokenTooEarly : List AwaitEvent :=
  [.life .start, .life (.pipe 8), .monitor (.call ()), .monitor (.lock ()), .monitor (.test ()),
    .monitor (.spurious ()), .monitor (.lock ()), .life .copyFd, .monitor (.test ())]

theorem constructor_returns_asleep : ∃ s : TimerThreadAwait,
    s.monitor.waiter () = .asleep ∧ s.life.func = .announcing ∧
      ∃ fs s', Run (Next (step 65536)) s fs s' ∧ s'.life.owner = .constructed := by
  have hexec : (exec (step 65536) (init ⟨1000⟩) wokenTooEarly).map
      (fun s => (s.monitor.waiter (), s.life.func, s.life.owner)) = some (.asleep, .announcing, .awaiting) := by decide
  obtain ⟨s, hrun, hs⟩ := run_of_exec_map _ hexec
  simp only [Prod.mk.injEq] at hs
  obtain ⟨hasleep, hfunc, howner⟩ := hs
  exact ⟨s, hasleep, hfunc, constructor_returns hrun (by rw [howner]; rfl)⟩

end Completion

def awaitedRunning : List AwaitEvent :=
  wokenTooEarly ++ [.monitor .setterLock, .monitor .set, .monitor (.notify (some ())), .monitor .setterUnlock,
    .life .test, .monitor (.lock ()), .monitor (.test ()), .monitor (.ret ()), .life (.reset 1 9 ⟨5000⟩ ⟨0⟩)]

theorem waiting_refined_reset : ∃ s : TimerThreadAwait, s.life.owner = .constructed ∧
    Run (Next (TimerThreadLife.step 65536)) (.init ⟨1000⟩)
      [.start, .pipe 8, .copyFd, .setRunning, .test, .awaitRunning, .reset 1 9 ⟨5000⟩ ⟨0⟩] s.life := by
  have hexec : (exec (step 65536) (init ⟨1000⟩) awaitedRunning).map (fun s => s.life.owner) = some .constructed := by
    decide +kernel
  obtain ⟨s, hrun, howner⟩ := run_of_exec_map _ hexec
  exact ⟨s, howner, waiting_refined hrun⟩

end TimerThreadAwait

end Penduo
