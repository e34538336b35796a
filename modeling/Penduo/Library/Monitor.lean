import Mathlib.Data.List.Basic
import Mathlib.Logic.Function.Basic
import Penduo.Library.Runs

set_option autoImplicit false
set_option linter.unusedSectionVars false

/-!
A mutex and a condition variable over one flag. Any number of threads wait until the flag is set, and one
thread sets it once and then notifies one of those that are asleep.
-/

namespace Monitor

open LabelledRuns

inductive Waiter
  | idle
  | locking
  | testing
  | asleep
  | woken
  | returning
  | returned
deriving DecidableEq, Repr

def Waiter.holds : Waiter → Bool
  | .testing | .returning => true
  | _ => false

theorem Waiter.awake {w : Waiter} (hidle : w ≠ .idle) (hasleep : w ≠ .asleep) (hholds : w.holds = false)
    (hreturned : w ≠ .returned) : w = .locking ∨ w = .woken := by
  cases w <;> simp_all [Waiter.holds]

inductive Setter
  | working
  | setting
  | notifying
  | leaving
  | finished
deriving DecidableEq, Repr

def Setter.holds : Setter → Bool
  | .setting | .notifying | .leaving => true
  | _ => false

def Setter.published : Setter → Bool
  | .notifying | .leaving | .finished => true
  | _ => false

def Setter.notified : Setter → Bool
  | .leaving | .finished => true
  | _ => false

inductive Holder (ι : Type)
  | waiter (i : ι)
  | setter
  | other
deriving DecidableEq, Repr

inductive Event (ι : Type)
  | call (i : ι)
  | lock (i : ι)
  | test (i : ι)
  | spurious (i : ι)
  | ret (i : ι)
  | setterLock
  | set
  | notify (woken : Option ι)
  | setterUnlock
  | otherLock
  | otherUnlock
deriving DecidableEq, Repr

end Monitor

structure Monitor (ι : Type) where
  mutex : Option (Monitor.Holder ι)
  waitSet : List ι
  flag : Bool
  setter : Monitor.Setter
  waiter : ι → Monitor.Waiter

namespace Monitor

open LabelledRuns

variable {ι : Type} [DecidableEq ι] {s s' t : Monitor ι} {e : Event ι} {es : List (Event ι)} {i j : ι}

def init : Monitor ι :=
  { mutex := none, waitSet := [], flag := false, setter := .working, waiter := fun _ => .idle }

def setWaiter (s : Monitor ι) (i : ι) (w : Waiter) : Monitor ι := { s with waiter := Function.update s.waiter i w }

def step (s : Monitor ι) : Event ι → Option (Monitor ι)
  | .call i => if s.waiter i = .idle then some (s.setWaiter i .locking) else none
  | .lock i =>
    if (s.waiter i = .locking ∨ s.waiter i = .woken) ∧ s.mutex = none then
      some { s.setWaiter i .testing with mutex := some (.waiter i) }
    else none
  | .test i =>
    if s.waiter i = .testing then
      if s.flag then some (s.setWaiter i .returning)
      else some { s.setWaiter i .asleep with mutex := none, waitSet := s.waitSet ++ [i] }
    else none
  | .spurious i =>
    if i ∈ s.waitSet then some { s.setWaiter i .woken with waitSet := s.waitSet.erase i } else none
  | .ret i => if s.waiter i = .returning then some { s.setWaiter i .returned with mutex := none } else none
  | .setterLock =>
    if s.setter = .working ∧ s.mutex = none then some { s with setter := .setting, mutex := some .setter } else none
  | .set => if s.setter = .setting then some { s with setter := .notifying, flag := true } else none
  | .notify none => if s.setter = .notifying ∧ s.waitSet = [] then some { s with setter := .leaving } else none
  | .notify (some i) =>
    if s.setter = .notifying ∧ i ∈ s.waitSet then
      some { s.setWaiter i .woken with setter := .leaving, waitSet := s.waitSet.erase i }
    else none
  | .setterUnlock => if s.setter = .leaving then some { s with setter := .finished, mutex := none } else none
  | .otherLock => if s.mutex = none then some { s with mutex := some .other } else none
  | .otherUnlock => if s.mutex = some .other then some { s with mutex := none } else none

inductive Moves (s : Monitor ι) : Event ι → Monitor ι → Prop
  | call (i : ι) (hidle : s.waiter i = .idle) : Moves s (.call i) (s.setWaiter i .locking)
  | lock (i : ι) (hlocking : s.waiter i = .locking ∨ s.waiter i = .woken) (hfree : s.mutex = none) :
      Moves s (.lock i) { s.setWaiter i .testing with mutex := some (.waiter i) }
  | see (i : ι) (htesting : s.waiter i = .testing) (hflag : s.flag = true) :
      Moves s (.test i) (s.setWaiter i .returning)
  | sleep (i : ι) (htesting : s.waiter i = .testing) (hflag : s.flag = false) :
      Moves s (.test i) { s.setWaiter i .asleep with mutex := none, waitSet := s.waitSet ++ [i] }
  | spurious (i : ι) (hmem : i ∈ s.waitSet) :
      Moves s (.spurious i) { s.setWaiter i .woken with waitSet := s.waitSet.erase i }
  | ret (i : ι) (hreturning : s.waiter i = .returning) :
      Moves s (.ret i) { s.setWaiter i .returned with mutex := none }
  | setterLock (hworking : s.setter = .working) (hfree : s.mutex = none) :
      Moves s .setterLock { s with setter := .setting, mutex := some .setter }
  | set (hsetting : s.setter = .setting) : Moves s .set { s with setter := .notifying, flag := true }
  | notifyNone (hnotifying : s.setter = .notifying) (hempty : s.waitSet = []) :
      Moves s (.notify none) { s with setter := .leaving }
  | notifySome (i : ι) (hnotifying : s.setter = .notifying) (hmem : i ∈ s.waitSet) :
      Moves s (.notify (some i)) { s.setWaiter i .woken with setter := .leaving, waitSet := s.waitSet.erase i }
  | setterUnlock (hleaving : s.setter = .leaving) : Moves s .setterUnlock { s with setter := .finished, mutex := none }
  | otherLock (hfree : s.mutex = none) : Moves s .otherLock { s with mutex := some .other }
  | otherUnlock (hother : s.mutex = some .other) : Moves s .otherUnlock { s with mutex := none }

theorem moves_of_step (h : s.step e = some s') : Moves s e s' := by
  cases e with
  | call i =>
    simp only [step, Option.ite_none_right_eq_some, Option.some.injEq] at h
    obtain ⟨hidle, rfl⟩ := h
    exact .call i hidle
  | lock i =>
    simp only [step, Option.ite_none_right_eq_some, Option.some.injEq] at h
    obtain ⟨⟨hlocking, hfree⟩, rfl⟩ := h
    exact .lock i hlocking hfree
  | test i =>
    simp only [step, Option.ite_none_right_eq_some] at h
    obtain ⟨htesting, h⟩ := h
    split_ifs at h with hflag
    · obtain rfl := Option.some.inj h
      exact .see i htesting hflag
    · obtain rfl := Option.some.inj h
      exact .sleep i htesting (by simpa using hflag)
  | spurious i =>
    simp only [step, Option.ite_none_right_eq_some, Option.some.injEq] at h
    obtain ⟨hmem, rfl⟩ := h
    exact .spurious i hmem
  | ret i =>
    simp only [step, Option.ite_none_right_eq_some, Option.some.injEq] at h
    obtain ⟨hreturning, rfl⟩ := h
    exact .ret i hreturning
  | setterLock =>
    simp only [step, Option.ite_none_right_eq_some, Option.some.injEq] at h
    obtain ⟨⟨hworking, hfree⟩, rfl⟩ := h
    exact .setterLock hworking hfree
  | set =>
    simp only [step, Option.ite_none_right_eq_some, Option.some.injEq] at h
    obtain ⟨hsetting, rfl⟩ := h
    exact .set hsetting
  | notify woken =>
    cases woken with
    | none =>
      simp only [step, Option.ite_none_right_eq_some, Option.some.injEq] at h
      obtain ⟨⟨hnotifying, hempty⟩, rfl⟩ := h
      exact .notifyNone hnotifying hempty
    | some i =>
      simp only [step, Option.ite_none_right_eq_some, Option.some.injEq] at h
      obtain ⟨⟨hnotifying, hmem⟩, rfl⟩ := h
      exact .notifySome i hnotifying hmem
  | setterUnlock =>
    simp only [step, Option.ite_none_right_eq_some, Option.some.injEq] at h
    obtain ⟨hleaving, rfl⟩ := h
    exact .setterUnlock hleaving
  | otherLock =>
    simp only [step, Option.ite_none_right_eq_some, Option.some.injEq] at h
    obtain ⟨hfree, rfl⟩ := h
    exact .otherLock hfree
  | otherUnlock =>
    simp only [step, Option.ite_none_right_eq_some, Option.some.injEq] at h
    obtain ⟨hother, rfl⟩ := h
    exact .otherUnlock hother

structure Inv (s : Monitor ι) : Prop where
  waiters : ∀ i, (s.waiter i).holds = true ↔ s.mutex = some (.waiter i)
  setter : s.setter.holds = true ↔ s.mutex = some .setter
  asleep : ∀ i, s.waiter i = .asleep ↔ i ∈ s.waitSet
  nodup : s.waitSet.Nodup
  flag : s.flag = s.setter.published
  seen : ∀ i, s.waiter i = .returning ∨ s.waiter i = .returned → s.flag = true

theorem init_inv : (init : Monitor ι).Inv := by
  constructor <;> simp [init, Waiter.holds, Setter.holds, Setter.published]

theorem setWaiter_waiter (s : Monitor ι) (i j : ι) (w : Waiter) :
    (s.setWaiter i w).waiter j = if j = i then w else s.waiter j := Function.update_apply _ _ _ _

theorem Moves.inv (h : s.Inv) (hm : Moves s e s') : s'.Inv := by
  obtain ⟨hwaiters, hsetter, hasleep, hnodup, hflag, hseen⟩ := h
  cases hm with
  | call i hidle =>
    constructor <;> simp only [setWaiter, Function.update_apply] <;> grind [Waiter.holds]
  | lock i hlocking hfree =>
    constructor <;> simp only [setWaiter, Function.update_apply] <;> grind [Waiter.holds]
  | see i htesting hflag' =>
    constructor <;> simp only [setWaiter, Function.update_apply] <;> grind [Waiter.holds]
  | sleep i htesting hflag' =>
    constructor <;> simp only [setWaiter, Function.update_apply] <;> grind [Waiter.holds]
  | spurious i hmem =>
    constructor <;> simp only [setWaiter, Function.update_apply] <;> grind [Waiter.holds]
  | ret i hreturning =>
    constructor <;> simp only [setWaiter, Function.update_apply] <;> grind [Waiter.holds]
  | setterLock hworking hfree =>
    constructor <;> grind [Waiter.holds, Setter.holds, Setter.published]
  | set hsetting =>
    constructor <;> grind [Waiter.holds, Setter.holds, Setter.published]
  | notifyNone hnotifying hempty =>
    constructor <;> grind [Waiter.holds, Setter.holds, Setter.published]
  | notifySome i hnotifying hmem =>
    constructor <;> simp only [setWaiter, Function.update_apply] <;>
      grind [Waiter.holds, Setter.holds, Setter.published]
  | setterUnlock hleaving =>
    constructor <;> grind [Waiter.holds, Setter.holds, Setter.published]
  | otherLock hfree =>
    constructor <;> grind [Waiter.holds, Setter.holds, Setter.published]
  | otherUnlock hother =>
    constructor <;> grind [Waiter.holds, Setter.holds, Setter.published]

theorem run_inv (h : Run (Next step) init es s) : s.Inv :=
  h.invariant (I := Inv) (fun _ _ _ hs hn => (moves_of_step hn).inv hs) init_inv

theorem Moves.notified (hnotified : s.setter.notified = true) (hm : Moves s e s') : s'.setter.notified = true := by
  cases hm with
  | setterLock hworking _ => simp [hworking, Setter.notified] at hnotified
  | set hsetting => simp [hsetting, Setter.notified] at hnotified
  | notifyNone | notifySome | setterUnlock => rfl
  | _ => exact hnotified

theorem Moves.waitSet_subset (hflag : s.flag = true) (hm : Moves s e s') : s'.waitSet ⊆ s.waitSet := by
  cases hm with
  | sleep i htesting hunset => simp [hflag] at hunset
  | spurious i hmem => exact List.erase_subset
  | notifySome i hnotifying hmem => exact List.erase_subset
  | _ => exact List.Subset.refl _

def plain : Event ι → Bool
  | .lock _ | .test _ | .ret _ | .setterUnlock | .otherUnlock => true
  | _ => false

def isSpurious : Event ι → Bool
  | .spurious _ => true
  | _ => false

theorem Moves.asleep (hnotified : s.setter.notified = true) (hi : s.waiter i = .asleep)
    (hspurious : isSpurious e = false) (hm : Moves s e s') : s'.waiter i = .asleep := by
  have hother : ∀ j w, s.waiter j ≠ .asleep → (s.setWaiter j w).waiter i = .asleep := by
    intro j w hj
    rw [setWaiter_waiter, if_neg, hi]
    rintro rfl
    exact hj hi
  cases hm with
  | call j hidle => exact hother j _ (by simp [hidle])
  | lock j hlocking _ => exact hother j _ (by rcases hlocking with hj | hj <;> simp [hj])
  | see j htesting _ => exact hother j _ (by simp [htesting])
  | sleep j htesting _ => exact hother j _ (by simp [htesting])
  | spurious j hmem => cases hspurious
  | ret j hreturning => exact hother j _ (by simp [hreturning])
  | notifySome j hnotifying hmem => simp [hnotifying, Setter.notified] at hnotified
  | _ => exact hi

theorem run_asleep (hnotified : s.setter.notified = true) (hi : s.waiter i = .asleep)
    (h : Run (Guarded (Next step) fun _ e => isSpurious e = false) s es t) : t.waiter i = .asleep := by
  have hkept := h.invariant (I := fun s => s.setter.notified = true ∧ s.waiter i = .asleep) ?_ ⟨hnotified, hi⟩
  · exact hkept.2
  · rintro s e s' ⟨hnotified, hi⟩ ⟨hn, hspurious⟩
    have hm := moves_of_step hn
    exact ⟨hm.notified hnotified, hm.asleep hnotified hi hspurious⟩

theorem Moves.notify_notified {woken : Option ι} (hm : Moves s (.notify woken) s') : s'.setter.notified = true := by
  cases hm with
  | notifyNone | notifySome => rfl

theorem Moves.notify_empty {woken : Option ι} (hm : Moves s (.notify woken) s') (hlength : s.waitSet.length ≤ 1) :
    s'.waitSet = [] := by
  cases hm with
  | notifyNone hnotifying hempty => exact hempty
  | notifySome i hnotifying hmem =>
    have herase := List.length_erase_of_mem hmem
    apply List.eq_nil_of_length_eq_zero
    dsimp only
    omega

theorem Moves.notify_left {woken : Option ι} (hm : Moves s (.notify woken) s') (hlength : 1 < s.waitSet.length) :
    ∃ i, i ∈ s'.waitSet := by
  cases hm with
  | notifyNone hnotifying hempty => simp [hempty] at hlength
  | notifySome i hnotifying hmem =>
    have herase := List.length_erase_of_mem hmem
    apply List.exists_mem_of_length_pos
    dsimp only
    omega

def Returns (s : Monitor ι) (i : ι) : Prop :=
  ∃ es t, Run (Guarded (Next step) fun _ e => plain e = true) s es t ∧ t.waiter i = .returned

theorem run_plain (h : exec (guardedStep step fun _ e => plain e) s es = some t) :
    Run (Guarded (Next step) fun _ e => plain e = true) s es t :=
  (run_of_exec h).guarded

theorem Inv.published (h : s.Inv) (hnotified : s.setter.notified = true) : s.flag = true := by
  rw [h.flag]
  cases hs : s.setter <;> simp [hs, Setter.notified, Setter.published] at hnotified ⊢

theorem Inv.free (h : s.Inv) (hnotified : s.setter.notified = true) :
    ∃ es t, Run (Guarded (Next step) fun _ e => plain e = true) s es t ∧ t.mutex = none ∧
      t.waitSet = s.waitSet ∧ t.setter.notified = true ∧ t.Inv ∧
        (t.waiter i = s.waiter i ∨ t.waiter i = .returned) := by
  have hflag := h.published hnotified
  have hend : ∀ es t, exec (guardedStep step fun _ e => plain e) s es = some t → t.mutex = none →
      t.waitSet = s.waitSet → (t.waiter i = s.waiter i ∨ t.waiter i = .returned) →
      ∃ es t, Run (Guarded (Next step) fun _ e => plain e = true) s es t ∧ t.mutex = none ∧
        t.waitSet = s.waitSet ∧ t.setter.notified = true ∧ t.Inv ∧
          (t.waiter i = s.waiter i ∨ t.waiter i = .returned) := by
    intro es t hexec hmutex hwaitSet hwaiter
    have hrun := run_plain hexec
    have hkept := hrun.invariant (I := fun s => s.Inv ∧ s.setter.notified = true) (fun _ _ _ hs hn =>
      ⟨(moves_of_step hn.1).inv hs.1, (moves_of_step hn.1).notified hs.2⟩) ⟨h, hnotified⟩
    exact ⟨es, t, hrun, hmutex, hwaitSet, hkept.2, hkept.1, hwaiter⟩
  cases hmutex : s.mutex with
  | none => exact hend [] s rfl hmutex rfl (Or.inl rfl)
  | some holder =>
    cases holder with
    | waiter j =>
      have hholds := (h.waiters j).mpr hmutex
      by_cases htesting : s.waiter j = .testing
      · apply hend [.test j, .ret j] { s.setWaiter j .returned with mutex := none }
        · simp [exec, guardedStep, plain, step, htesting, hflag, setWaiter]
        · rfl
        · rfl
        · dsimp only
          rw [setWaiter_waiter]
          split_ifs
          · exact Or.inr rfl
          · exact Or.inl rfl
      · have hreturning : s.waiter j = .returning := by
          cases hj : s.waiter j <;> simp_all [Waiter.holds]
        apply hend [.ret j] { s.setWaiter j .returned with mutex := none }
        · simp [exec, guardedStep, plain, step, hreturning]
        · rfl
        · rfl
        · dsimp only
          rw [setWaiter_waiter]
          split_ifs
          · exact Or.inr rfl
          · exact Or.inl rfl
    | setter =>
      have hleaving : s.setter = .leaving := by
        have hholds := h.setter.mpr hmutex
        cases hs : s.setter <;> simp_all [Setter.holds, Setter.notified]
      apply hend [.setterUnlock] { s with setter := .finished, mutex := none }
      · simp [exec, guardedStep, plain, step, hleaving]
      · rfl
      · rfl
      · exact Or.inl rfl
    | other =>
      apply hend [.otherUnlock] { s with mutex := none }
      · simp [exec, guardedStep, plain, step, hmutex]
      · rfl
      · rfl
      · exact Or.inl rfl

theorem Inv.returns (h : s.Inv) (hnotified : s.setter.notified = true) (hempty : s.waitSet = [])
    (hi : s.waiter i ≠ .idle) : s.Returns i := by
  obtain ⟨es, t, hrun, hmutex, hwaitSet, hnotified', hinv, hwaiter⟩ := h.free (i := i) hnotified
  rcases hwaiter with hsame | hreturned
  · have hflag := hinv.published hnotified'
    have hasleep : t.waiter i ≠ .asleep := by
      intro hasleep
      have hmem := (hinv.asleep i).mp hasleep
      rw [hwaitSet, hempty] at hmem
      cases hmem
    have hholds : (t.waiter i).holds = false := by
      rw [Bool.eq_false_iff]
      intro hholds
      simp [(hinv.waiters i).mp hholds] at hmutex
    by_cases hreturned : t.waiter i = .returned
    · exact ⟨es, t, hrun, hreturned⟩
    · have hlocking := Waiter.awake (hsame ▸ hi) hasleep hholds hreturned
      have hexec : exec (guardedStep step fun _ e => plain e) t [.lock i, .test i, .ret i] =
          some { t.setWaiter i .returned with mutex := none } := by
        simp [exec, guardedStep, plain, step, hlocking, hmutex, hflag, setWaiter]
      refine ⟨_, _, hrun.append (run_plain hexec), ?_⟩
      dsimp only
      rw [setWaiter_waiter, if_pos rfl]
  · exact ⟨es, t, hrun, hreturned⟩

end Monitor
