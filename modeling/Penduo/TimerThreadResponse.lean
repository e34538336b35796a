import Penduo.Library.Potential
import Penduo.SimulatedTimers
import Penduo.TimerThreadStart
import Penduo.TimerThreadWait

set_option autoImplicit false

namespace Penduo

open LabelledRuns

def TimerThreadEvent.advances : TimerThreadEvent → Bool
  | .test | .poll _ | .readClock | .readWeakup | .expire | .writeToken | .next => true
  | _ => false

-- What a step adds to the way of `TimerFunc`: an entry of `timer_set_`, or a `::poll` that fails.
def TimerThreadEvent.delays : TimerThreadEvent → ℕ
  | .lock _ => 1
  | .poll ret => if ret < 0 then 3 else 0
  | _ => 0

def TimerfdEvent.advances : TimerfdEvent → Bool
  | .thread te => te.advances
  | _ => false

def TimerfdEvent.delays : TimerfdEvent → ℕ
  | .thread te => te.delays
  | _ => 0

def SimulatedEvent.advances : SimulatedEvent → Bool
  | .elsewhere e => e.advances
  | _ => false

def SimulatedEvent.delays : SimulatedEvent → ℕ
  | .elsewhere e => e.delays
  | _ => 0

def SimulatedEvent.waits : SimulatedEvent → Bool
  | .elsewhere _ | .addTimerElsewhere .. => true
  | _ => false

namespace TimerThread

variable {capacity : ℕ} {s s' : TimerThread} {e : TimerThreadEvent} {now : Timestamp} {l : List Reset} {r : Reset}

theorem popExpired_complete (hsorted : OrderedSet.Increasing Reset.key l) (hr : r ∈ l) (hdue : r.newTimestamp ≤ now) :
    r ∈ (popExpired now l).1 := by
  induction l with
  | nil => exact hr
  | cons first rest ih =>
    have hle : first.newTimestamp ≤ r.newTimestamp :=
      Prod.Lex.monotone_fst _ _ (OrderedSet.head?_le hsorted rfl hr)
    rw [popExpired, if_pos (hle.trans hdue)]
    rcases List.mem_cons.mp hr with rfl | hr
    · exact List.mem_cons_self
    · exact List.mem_cons_of_mem _ (ih (List.pairwise_cons.mp hsorted).2 hr)

theorem rearm_length_le (l : List Reset) (r : Reset) : (rearm l r).length ≤ l.length + 1 := by
  refine (OrderedSet.length_insert_le _ _ _).trans (Nat.succ_le_succ ?_)
  split_ifs
  · exact List.length_filter_le _ _
  · exact le_rfl

def overhead (s : TimerThread) (r : Reset) : ℕ :=
  match s.timerFunc with
  | .testing => 5
  | .polling _ => 4
  | .polled ret => if ret < 0 then 6 else 3
  | .reading now => if r.newTimestamp ≤ now then 2 else 8
  | .expiring now => if r.newTimestamp ≤ now then 1 else 7
  | .writing expirationFds => if r ∈ expirationFds then 0 else 6

def tokenDistance (s : TimerThread) (r : Reset) : ℕ :=
  s.timerFunc.popped.length + s.timerSet.length + s.overhead r

structure Due (s : TimerThread) (r : Reset) : Prop where
  sorted : OrderedSet.Increasing Reset.key s.timerSet
  nodup : (s.timerSet ++ s.timerFunc.popped).Nodup
  due : r.newTimestamp ≤ s.clock
  holds : s.Holds r

theorem Due.nearer (h : s.Due r) (hn : s.step capacity e = some s') (hholds : s'.Holds r) :
    s'.tokenDistance r + (if e.advances then 1 else 0) ≤ s.tokenDistance r + e.delays := by
  have hm := moves_of_step hn
  cases hm with
  | tick | reset | write | unlock => exact le_rfl
  | lock caller r' _ _ =>
    have hle := rearm_length_le s.timerSet r'
    simp only [tokenDistance, overhead, setCall, TimerThreadEvent.advances, TimerThreadEvent.delays,
      Bool.false_eq_true, if_false]
    omega
  | test hfunc _ =>
    simp [tokenDistance, overhead, hfunc, TimerThreadEvent.advances, TimerThreadEvent.delays, TimerFunc.popped]
  | poll ret waitMs hfunc _ =>
    simp only [tokenDistance, overhead, hfunc, TimerThreadEvent.advances, TimerThreadEvent.delays, TimerFunc.popped]
    split_ifs <;> omega
  | failed ret hfunc hret =>
    simp [tokenDistance, overhead, hfunc, TimerThreadEvent.advances, TimerThreadEvent.delays, TimerFunc.popped, hret]
  | timeout hfunc =>
    simp [tokenDistance, overhead, hfunc, TimerThreadEvent.advances, TimerThreadEvent.delays, TimerFunc.popped, h.due]
  | ready ret hfunc hret =>
    simp [tokenDistance, overhead, hfunc, TimerThreadEvent.advances, TimerThreadEvent.delays, TimerFunc.popped, h.due,
      hret.not_gt]
  | readWeakup now hfunc =>
    simp only [tokenDistance, overhead, hfunc, TimerThreadEvent.advances, TimerThreadEvent.delays, TimerFunc.popped]
    split_ifs <;> simp
  | expire now expirationFds timerSet hfunc hmutex hset hdue =>
    have hpopped : expirationFds = (popExpired now s.timerSet).1 := by
      simp only [step, hfunc, hmutex, if_true, Option.some.injEq, mk.injEq, TimerFunc.writing.injEq] at hn
      exact hn.2.2.2.2.1.symm
    have hlength := congrArg List.length hset
    rw [List.length_append] at hlength
    simp only [tokenDistance, overhead, hfunc, TimerThreadEvent.advances, TimerThreadEvent.delays, TimerFunc.popped,
      List.length_nil, if_true]
    by_cases hr : r.newTimestamp ≤ now
    · have hmem : r ∈ s.timerSet := h.holds.resolve_right (by simp [hfunc, TimerFunc.popped])
      rw [if_pos hr, if_pos (hpopped ▸ popExpired_complete h.sorted hmem hr)]
      omega
    · rw [if_neg hr, if_neg fun hmem => hr (hdue r hmem)]
      omega
  | writeToken r' rest hfunc =>
    have hnodup := h.nodup
    simp only [Holds, hfunc, TimerFunc.popped] at hnodup hholds
    have hrest : r ∈ rest ↔ r ∈ r' :: rest := by
      refine ⟨List.mem_cons_of_mem _, fun hmem => ?_⟩
      rcases hholds with hset | hrest
      · exact absurd hmem ((List.nodup_append.mp hnodup).2.2 r hset r · rfl)
      · exact hrest
    simp only [tokenDistance, overhead, hfunc, TimerThreadEvent.advances, TimerThreadEvent.delays, TimerFunc.popped,
      hrest, List.length_cons, if_true]
    omega
  | next hfunc =>
    simp [tokenDistance, overhead, hfunc, TimerThreadEvent.advances, TimerThreadEvent.delays, TimerFunc.popped]

section Advance

/-- Nothing keeps `TimerFunc` from its next steps: it need not wait for `mutex_`, nor forever in `::poll`. -/
structure Unhindered (s : TimerThread) : Prop where
  mutex : s.mutex = none
  wait : ∀ waitMs, s.timerFunc = .polling waitMs → 0 ≤ waitMs
  times : ∀ r ∈ s.timerSet, 0 ≤ r.newTimestamp.nanoseconds

theorem Unhindered.timerFunc (h : s.Unhindered) {f : TimerFunc} {timerSet : List Reset} {weakup : ℕ}
    (hset : timerSet ⊆ s.timerSet) (hwait : ∀ waitMs, f = .polling waitMs → 0 ≤ waitMs) :
    Unhindered { s with timerFunc := f, timerSet := timerSet, weakup := weakup } where
  mutex := h.mutex
  wait := hwait
  times r hr := h.times r (hset hr)

theorem Due.waitMs_nonneg (h : s.Due r) (hfree : s.Unhindered) (hr : r ∈ s.timerSet) : 0 ≤ s.waitMs := by
  obtain ⟨first, hfirst⟩ := Option.isSome_iff_exists.mp (List.isSome_head?.mpr (List.ne_nil_of_mem hr))
  have hle : first.newTimestamp ≤ s.clock :=
    (Prod.Lex.monotone_fst _ _ (OrderedSet.head?_le h.sorted hfirst hr)).trans h.due
  have htime := hfree.times first (List.mem_of_mem_head? hfirst)
  have hnanoseconds : first.newTimestamp.nanoseconds ≤ s.clock.nanoseconds := hle
  have hwait := waitMs_near hfirst (htime.trans hnanoseconds) htime (by omega)
  rw [Int32.le_iff_toInt_le, hwait]
  exact zero_le_one.trans (le_max_left _ _)

theorem Due.advance (capacity : ℕ) (h : s.Due r) (hfree : s.Unhindered) : ∃ e s',
    e.advances = true ∧ e.delays = 0 ∧ s.step capacity e = some s' ∧ s'.Unhindered := by
  have hmutex := hfree.mutex
  cases hfunc : s.timerFunc with
  | testing =>
    have hr : r ∈ s.timerSet := h.holds.resolve_right (by simp [hfunc, TimerFunc.popped])
    have hwait := h.waitMs_nonneg hfree hr
    refine ⟨.test, { s with timerFunc := .polling s.waitMs }, rfl, rfl, by simp [step, hfunc, hmutex], ?_⟩
    apply hfree.timerFunc (List.Subset.refl _)
    rintro _ ⟨⟩
    exact hwait
  | polling waitMs =>
    have hwait := hfree.wait waitMs hfunc
    -- the wake-up pipe is ready, or the time passes
    rcases Nat.eq_zero_or_pos s.weakup with hempty | hready
    · refine ⟨.poll 0, { s with timerFunc := .polled 0 }, rfl, rfl, by simp [step, hfunc, hempty, hwait], ?_⟩
      exact hfree.timerFunc (List.Subset.refl _) (by simp)
    · refine ⟨.poll 1, { s with timerFunc := .polled 1 }, rfl, rfl, by simp [step, hfunc, hready], ?_⟩
      exact hfree.timerFunc (List.Subset.refl _) (by simp)
  | polled ret =>
    refine ⟨.readClock, _, rfl, rfl, by simp only [step, hfunc]; rfl, ?_⟩
    apply hfree.timerFunc (List.Subset.refl _)
    split_ifs <;> simp
  | reading now =>
    refine ⟨.readWeakup, { s with timerFunc := .expiring now, weakup := s.weakup - weakFdReadSize }, rfl, rfl,
      by simp only [step, hfunc], ?_⟩
    exact hfree.timerFunc (List.Subset.refl _) (by simp)
  | expiring now =>
    refine ⟨.expire, { s with
      timerFunc := .writing (popExpired now s.timerSet).1
      timerSet := (popExpired now s.timerSet).2 }, rfl, rfl, by simp [step, hfunc, hmutex], ?_⟩
    refine hfree.timerFunc ?_ (by simp)
    intro x hx
    rw [← popExpired_append now s.timerSet]
    exact List.mem_append_right _ hx
  | writing expirationFds =>
    cases expirationFds with
    | nil =>
      refine ⟨.next, { s with timerFunc := .testing }, rfl, rfl, by simp [step, hfunc], ?_⟩
      exact hfree.timerFunc (List.Subset.refl _) (by simp)
    | cons first rest =>
      refine ⟨.writeToken, { s with timerFunc := .writing rest }, rfl, rfl, by simp only [step, hfunc], ?_⟩
      exact hfree.timerFunc (List.Subset.refl _) (by simp)

end Advance

end TimerThread

namespace Timerfds

variable {capacity : ℕ} {s s' : Timerfds} {e : TimerfdEvent} {i : ℕ} {r : Reset}

theorem thread_of_step {te : TimerThreadEvent} (h : s.step capacity (.thread te) = some s') :
    s.thread.step capacity te = some s'.thread := by
  cases te with
  | reset => cases h
  | writeToken =>
    simp only [step] at h
    split at h <;> simp only [Option.map_eq_some_iff, reduceCtorEq] at h
    obtain ⟨thread, hstep, rfl⟩ := h
    exact hstep
  | _ =>
    simp only [step, Option.map_eq_some_iff] at h
    obtain ⟨thread, hstep, rfl⟩ := h
    exact hstep

theorem step_of_thread {te : TimerThreadEvent} {thread : TimerThread} (hreset : te.isReset = false)
    (h : s.thread.step capacity te = some thread) :
    ∃ s', s.step capacity (.thread te) = some s' ∧ s'.thread = thread := by
  cases te with
  | reset => cases hreset
  | writeToken =>
    cases TimerThread.moves_of_step h with
    | writeToken r rest hfunc => exact ⟨_, by simp only [step, hfunc, h, Option.map_some]; rfl, rfl⟩
  | _ => exact ⟨_, by simp only [step, h, Option.map_some]; rfl, rfl⟩

theorem Moves.increasing (h : OrderedSet.Increasing Reset.key s.thread.timerSet) (hm : Moves capacity s e s') :
    OrderedSet.Increasing Reset.key s'.thread.timerSet := by
  cases hm with
  | thread e thread hm _ _ => exact TimerThreadLife.timer_increasing h hm
  | _ => exact h

theorem Moves.unread_le (hread : e ≠ .read i) (hm : Moves capacity s e s') : s.unread i ≤ s'.unread i := by
  cases hm with
  | written r rest _ => exact deliver_unread_le s r i
  | read j =>
    have hne : i ≠ j := fun hj => hread (congrArg TimerfdEvent.read hj.symm)
    simp [Function.update_of_ne hne]
  | _ => exact le_rfl

theorem nearer (h : s.thread.Due r) (hn : s.step capacity e = some s') (hholds : s'.thread.Holds r) :
    s'.thread.tokenDistance r + (if e.advances then 1 else 0) ≤ s.thread.tokenDistance r + e.delays := by
  cases e with
  | thread te => exact h.nearer (thread_of_step hn) hholds
  | _ =>
    cases moves_of_step hn
    exact le_rfl

end Timerfds

namespace SimulatedLoop

variable {capacity : ℕ} {s s' s0 t : SimulatedLoop} {e : SimulatedEvent} {timerfds : Timerfds} {first : Timer}
  {r : Reset}

structure Waits (s : SimulatedLoop) (first : Timer) (r : Reset) : Prop where
  idle : s.handleRead = .idle
  returned : s.resetting = false
  head : s.timerList.head? = some first
  due : first.expirationTs ≤ s.clock
  asked : s.timerfds.asked s.timerfd = some r

theorem Waits.next (h : s.Waits first r) (htended : s.Tended) (hwaits : e.waits = true) (hm : Moves capacity s e s') :
    s'.Waits first r := by
  cases hm with
  | elsewhere te timerfds hother hm =>
    have hsame := hm.timerfd_other htended.tracked.attached htended.own hother
    refine ⟨h.idle, ?_, h.head, h.due.trans hm.clock_le, ?_⟩
    · have hreturned := h.returned
      rw [resetting] at hreturned ⊢
      rwa [hsame]
    · exact (hm.asked_other htended.tracked.attached htended.own hother).trans h.asked
  | addTimerElsewhere => exact ⟨h.idle, h.returned, h.head, h.due, h.asked⟩
  | _ => cases hwaits

theorem Moves.waits_unread (hwaits : e.waits = true) (hm : Moves capacity s e s') :
    s.timerfds.unread s.timerfd ≤ s'.timerfds.unread s'.timerfd := by
  cases hm with
  | elsewhere te timerfds hother hm =>
    apply hm.unread_le
    rintro rfl
    exact hother rfl
  | addTimerElsewhere => exact le_rfl
  | _ => cases hwaits

theorem Waits.due_entry (h : s.Waits first r) (htended : s.Tended)
    (hsorted : OrderedSet.Increasing Reset.key s.timerfds.thread.timerSet)
    (hunread : ¬ 0 < s.timerfds.unread s.timerfd) : s.timerfds.thread.Due r := by
  obtain ⟨_, r', _, _, hasked, htime, hholds⟩ := htended.holds_or_told h.idle h.returned h.head
  obtain rfl := Option.some.inj (hasked.symm.trans h.asked)
  refine ⟨hsorted, ?_, htime.trans_le h.due, hholds.resolve_right hunread⟩
  have hnodup := htended.tracked.counted.nodup
  rw [Timerfds.whereabouts, ← List.append_assoc] at hnodup
  exact (List.nodup_append.mp hnodup).1

theorem Waits.nearer (h : s.Waits first r) (htended : s.Tended) (htended' : s'.Tended)
    (hsorted : OrderedSet.Increasing Reset.key s.timerfds.thread.timerSet)
    (hsorted' : OrderedSet.Increasing Reset.key s'.timerfds.thread.timerSet) (hwaits : e.waits = true)
    (hn : s.step capacity e = some s') (hunread : ¬ 0 < s'.timerfds.unread s'.timerfd) :
    s'.Waits first r ∧ s'.timerfds.thread.tokenDistance r + (if e.advances then 1 else 0) ≤
      s.timerfds.thread.tokenDistance r + e.delays := by
  have hm := moves_of_step hn
  have hwaits' := h.next htended hwaits hm
  have hdue := h.due_entry htended hsorted fun hpos => hunread (hpos.trans_le (hm.waits_unread hwaits))
  refine ⟨hwaits', ?_⟩
  have hholds := (hwaits'.due_entry htended' hsorted' hunread).holds
  cases e with
  | elsewhere te =>
    simp only [step, Option.ite_none_right_eq_some, Option.map_eq_some_iff] at hn
    obtain ⟨_, timerfds, hstep, rfl⟩ := hn
    exact Timerfds.nearer hdue hstep hholds
  | addTimerElsewhere =>
    cases hm
    exact le_rfl
  | _ => cases hwaits

theorem Waits.advance (h : s.Waits first r) (htended : s.Tended)
    (hsorted : OrderedSet.Increasing Reset.key s.timerfds.thread.timerSet)
    (hunread : ¬ 0 < s.timerfds.unread s.timerfd) (hfree : s.timerfds.thread.Unhindered) : ∃ e s',
      e.waits = true ∧ validTimes e = true ∧ e.advances = true ∧ e.delays = 0 ∧ s.step capacity e = some s' ∧
        s'.timerfds.thread.Unhindered := by
  obtain ⟨te, thread, hadvances, hdelays, hstep, hfree'⟩ := (h.due_entry htended hsorted hunread).advance capacity hfree
  have hreset : te.isReset = false := by
    cases te with
    | reset => cases hadvances
    | _ => rfl
  obtain ⟨timerfds, hfds, rfl⟩ := Timerfds.step_of_thread hreset hstep
  exact ⟨.elsewhere (.thread te), { s with timerfds := timerfds }, rfl, rfl, hadvances, hdelays,
    by simp [step, TimerfdEvent.client, hfds], hfree'⟩

section Run

variable {clock : Timestamp} {readFd writeFd : ℕ} {fs : List TimerfdEvent} {es es' : List SimulatedEvent}

section Token

variable (hclock : 0 ≤ clock.nanoseconds)
  (hfds : Run (Guarded (Next (Timerfds.step capacity)) fun _ e => Timerfds.keeps e = true)
    (Timerfds.init clock) fs timerfds)
  (h0 : construct capacity timerfds readFd writeFd = some s0)

include hclock hfds h0

end Token

end Run

end SimulatedLoop

end Penduo
