import Mathlib.Data.Prod.Lex
import Penduo.Library.OrderedSet
import Penduo.Library.Runs
import Penduo.Timestamp

set_option autoImplicit false

namespace Penduo

def Timestamp.tsMilliseconds : Int64 := 1000 * 1000

def Timestamp.valid (t : Timestamp) : Bool := t.timePoint ≠ 0

/-- A call of `TimerThread::reset`. An entry of `timer_set_` is kept as the call that put it there. -/
structure Reset where
  id : ℕ
  caller : ℕ
  writeFd : ℕ
  newTimestamp : Timestamp
  oldTimestamp : Timestamp
deriving DecidableEq, Repr

def Reset.key (r : Reset) : Timestamp ×ₗ ℕ := toLex (r.newTimestamp, r.writeFd)

inductive ResetCall
  | idle
  | entering (r : Reset)
  | writing (r : Reset)
  | unlocking (r : Reset)
deriving DecidableEq, Repr

def ResetCall.reset : ResetCall → Option Reset
  | .idle => none
  | .entering r | .writing r | .unlocking r => some r

inductive TimerFunc
  | testing
  | polling (waitMs : Int32)
  | polled (ret : ℤ)
  | reading (now : Timestamp)
  | expiring (now : Timestamp)
  | writing (expirationFds : List Reset)
deriving DecidableEq, Repr

def TimerFunc.popped : TimerFunc → List Reset
  | .writing expirationFds => expirationFds
  | _ => []

structure TimerThread where
  -- the caller of `reset` that holds `mutex_`; what `TimerFunc` does under it is one step
  mutex : Option ℕ
  timerSet : List Reset
  weakup : ℕ
  call : ℕ → ResetCall
  timerFunc : TimerFunc
  clock : Timestamp
  resets : List Reset

inductive TimerThreadEvent
  | tick (now : Timestamp)
  | reset (caller writeFd : ℕ) (newTimestamp oldTimestamp : Timestamp)
  | lock (caller : ℕ)
  | write (caller : ℕ)
  | unlock (caller : ℕ)
  | test
  | poll (ret : ℤ)
  | readClock
  | readWeakup
  | expire
  | writeToken
  | next
deriving DecidableEq, Repr

def TimerThreadEvent.isReset : TimerThreadEvent → Bool
  | .reset .. => true
  | _ => false

namespace TimerThread

def init (clock : Timestamp) : TimerThread :=
  { mutex := none, timerSet := [], weakup := 0, call := fun _ => .idle, timerFunc := .testing, clock, resets := [] }

def weakFdWriteSize : ℕ := 8
def weakFdReadSize : ℕ := 4

def setCall (s : TimerThread) (caller : ℕ) (c : ResetCall) : TimerThread :=
  { s with call := Function.update s.call caller c }

def rearm (timerSet : List Reset) (r : Reset) : List Reset :=
  let timerSet := if r.oldTimestamp.valid then OrderedSet.erase Reset.key (toLex (r.oldTimestamp, r.writeFd)) timerSet
    else timerSet
  OrderedSet.insert Reset.key r timerSet

def waitMs (s : TimerThread) : Int32 :=
  match s.timerSet.head? with
  | some first => (max 1 (Timestamp.differ Timestamp.tsMilliseconds s.clock first.newTimestamp)).toInt32
  | none => 10000

def popExpired (now : Timestamp) : List Reset → List Reset × List Reset
  | [] => ([], [])
  | first :: rest =>
    if first.newTimestamp ≤ now then
      let (expirationFds, timerSet) := popExpired now rest
      (first :: expirationFds, timerSet)
    else ([], first :: rest)

def step (capacity : ℕ) (s : TimerThread) : TimerThreadEvent → Option TimerThread
  | .tick now => if s.clock ≤ now then some { s with clock := now } else none
  | .reset caller writeFd newTimestamp oldTimestamp =>
    if s.call caller = .idle then
      let r : Reset := ⟨s.resets.length, caller, writeFd, newTimestamp, oldTimestamp⟩
      some { s.setCall caller (.entering r) with resets := s.resets ++ [r] }
    else none
  | .lock caller =>
    match s.call caller with
    | .entering r =>
      if s.mutex = none then
        some { s.setCall caller (.writing r) with mutex := some caller, timerSet := rearm s.timerSet r }
      else none
    | _ => none
  | .write caller =>
    match s.call caller with
    | .writing r =>
      if s.weakup + weakFdWriteSize ≤ capacity then
        some { s.setCall caller (.unlocking r) with weakup := s.weakup + weakFdWriteSize }
      else none
    | _ => none
  | .unlock caller =>
    match s.call caller with
    | .unlocking _ => some { s.setCall caller .idle with mutex := none }
    | _ => none
  | .test =>
    if s.timerFunc = .testing ∧ s.mutex = none then some { s with timerFunc := .polling s.waitMs } else none
  | .poll ret =>
    match s.timerFunc with
    | .polling waitMs =>
      if (0 < ret → 0 < s.weakup) ∧ (ret = 0 → s.weakup = 0 ∧ 0 ≤ waitMs) then
        some { s with timerFunc := .polled ret }
      else none
    | _ => none
  | .readClock =>
    match s.timerFunc with
    | .polled ret =>
      let timerFunc : TimerFunc :=
        if 0 ≤ ret then if ret = 0 then .expiring s.clock else .reading s.clock else .testing
      some { s with timerFunc }
    | _ => none
  | .readWeakup =>
    match s.timerFunc with
    | .reading now => some { s with timerFunc := .expiring now, weakup := s.weakup - weakFdReadSize }
    | _ => none
  | .expire =>
    match s.timerFunc with
    | .expiring now =>
      if s.mutex = none then
        let (expirationFds, timerSet) := popExpired now s.timerSet
        some { s with timerFunc := .writing expirationFds, timerSet }
      else none
    | _ => none
  | .writeToken =>
    match s.timerFunc with
    | .writing (_ :: rest) => some { s with timerFunc := .writing rest }
    | _ => none
  | .next => if s.timerFunc = .writing [] then some { s with timerFunc := .testing } else none

variable {capacity : ℕ} {s s' : TimerThread} {e : TimerThreadEvent} {now : Timestamp} {l : List Reset}

theorem popExpired_append (now : Timestamp) (l : List Reset) : (popExpired now l).1 ++ (popExpired now l).2 = l := by
  induction l with
  | nil => rfl
  | cons first rest ih =>
    rw [popExpired]
    split_ifs
    · exact congrArg (first :: ·) ih
    · rfl

theorem popExpired_due (now : Timestamp) (l : List Reset) : ∀ r ∈ (popExpired now l).1, r.newTimestamp ≤ now := by
  induction l with
  | nil => simp [popExpired]
  | cons first rest ih =>
    rw [popExpired]
    split_ifs with hdue
    · intro r hr
      rcases List.mem_cons.mp hr with rfl | hr
      · exact hdue
      · exact ih r hr
    · simp

inductive Moves (capacity : ℕ) (s : TimerThread) : TimerThreadEvent → TimerThread → Prop
  | tick (now : Timestamp) (hle : s.clock ≤ now) : Moves capacity s (.tick now) { s with clock := now }
  | reset (r : Reset) (hcall : s.call r.caller = .idle) (hid : r.id = s.resets.length) :
      Moves capacity s (.reset r.caller r.writeFd r.newTimestamp r.oldTimestamp)
        { s.setCall r.caller (.entering r) with resets := s.resets ++ [r] }
  | lock (caller : ℕ) (r : Reset) (hcall : s.call caller = .entering r) (hmutex : s.mutex = none) :
      Moves capacity s (.lock caller)
        { s.setCall caller (.writing r) with mutex := some caller, timerSet := rearm s.timerSet r }
  | write (caller : ℕ) (r : Reset) (hcall : s.call caller = .writing r)
      (hroom : s.weakup + weakFdWriteSize ≤ capacity) :
      Moves capacity s (.write caller)
        { s.setCall caller (.unlocking r) with weakup := s.weakup + weakFdWriteSize }
  | unlock (caller : ℕ) (r : Reset) (hcall : s.call caller = .unlocking r) :
      Moves capacity s (.unlock caller) { s.setCall caller .idle with mutex := none }
  | test (hfunc : s.timerFunc = .testing) (hmutex : s.mutex = none) :
      Moves capacity s .test { s with timerFunc := .polling s.waitMs }
  | poll (ret : ℤ) (waitMs : Int32) (hfunc : s.timerFunc = .polling waitMs) (hready : 0 < ret → 0 < s.weakup) :
      Moves capacity s (.poll ret) { s with timerFunc := .polled ret }
  | failed (ret : ℤ) (hfunc : s.timerFunc = .polled ret) (hret : ret < 0) :
      Moves capacity s .readClock { s with timerFunc := .testing }
  | timeout (hfunc : s.timerFunc = .polled 0) : Moves capacity s .readClock { s with timerFunc := .expiring s.clock }
  | ready (ret : ℤ) (hfunc : s.timerFunc = .polled ret) (hret : 0 < ret) :
      Moves capacity s .readClock { s with timerFunc := .reading s.clock }
  | readWeakup (now : Timestamp) (hfunc : s.timerFunc = .reading now) :
      Moves capacity s .readWeakup { s with timerFunc := .expiring now, weakup := s.weakup - weakFdReadSize }
  | expire (now : Timestamp) (expirationFds timerSet : List Reset) (hfunc : s.timerFunc = .expiring now)
      (hmutex : s.mutex = none) (hset : s.timerSet = expirationFds ++ timerSet)
      (hdue : ∀ r ∈ expirationFds, r.newTimestamp ≤ now) :
      Moves capacity s .expire { s with timerFunc := .writing expirationFds, timerSet := timerSet }
  | writeToken (r : Reset) (rest : List Reset) (hfunc : s.timerFunc = .writing (r :: rest)) :
      Moves capacity s .writeToken { s with timerFunc := .writing rest }
  | next (hfunc : s.timerFunc = .writing []) : Moves capacity s .next { s with timerFunc := .testing }

theorem moves_of_step (h : s.step capacity e = some s') : Moves capacity s e s' := by
  cases e with
  | tick now =>
    simp only [step, Option.ite_none_right_eq_some, Option.some.injEq] at h
    obtain ⟨hle, rfl⟩ := h
    exact .tick now hle
  | reset caller writeFd newTimestamp oldTimestamp =>
    simp only [step, Option.ite_none_right_eq_some, Option.some.injEq] at h
    obtain ⟨hcall, rfl⟩ := h
    exact .reset ⟨s.resets.length, caller, writeFd, newTimestamp, oldTimestamp⟩ hcall rfl
  | lock caller =>
    simp only [step] at h
    split at h <;> simp only [Option.ite_none_right_eq_some, Option.some.injEq, reduceCtorEq] at h
    obtain ⟨hmutex, rfl⟩ := h
    exact .lock caller _ ‹_› hmutex
  | write caller =>
    simp only [step] at h
    split at h <;> simp only [Option.ite_none_right_eq_some, Option.some.injEq, reduceCtorEq] at h
    obtain ⟨hroom, rfl⟩ := h
    exact .write caller _ ‹_› hroom
  | unlock caller =>
    simp only [step] at h
    split at h <;> simp only [Option.some.injEq, reduceCtorEq] at h
    subst h
    exact .unlock caller _ ‹_›
  | test =>
    simp only [step, Option.ite_none_right_eq_some, Option.some.injEq] at h
    obtain ⟨⟨hfunc, hmutex⟩, rfl⟩ := h
    exact .test hfunc hmutex
  | poll ret =>
    simp only [step] at h
    split at h <;> simp only [Option.ite_none_right_eq_some, Option.some.injEq, reduceCtorEq] at h
    obtain ⟨⟨hready, _⟩, rfl⟩ := h
    exact .poll ret _ ‹_› hready
  | readClock =>
    simp only [step] at h
    split at h <;> simp only [Option.some.injEq, reduceCtorEq] at h
    rename_i ret hfunc
    subst h
    rcases lt_trichotomy ret 0 with hret | rfl | hret
    · rw [if_neg (by omega)]
      exact .failed ret hfunc hret
    · exact .timeout hfunc
    · rw [if_pos (by omega), if_neg (by omega)]
      exact .ready ret hfunc hret
  | readWeakup =>
    simp only [step] at h
    split at h <;> simp only [Option.some.injEq, reduceCtorEq] at h
    subst h
    exact .readWeakup _ ‹_›
  | expire =>
    simp only [step] at h
    split at h <;> simp only [Option.ite_none_right_eq_some, Option.some.injEq, reduceCtorEq] at h
    obtain ⟨hmutex, rfl⟩ := h
    exact .expire _ _ _ ‹_› hmutex (popExpired_append _ _).symm (popExpired_due _ _)
  | writeToken =>
    simp only [step] at h
    split at h <;> simp only [Option.some.injEq, reduceCtorEq] at h
    subst h
    exact .writeToken _ _ ‹_›
  | next =>
    simp only [step, Option.ite_none_right_eq_some, Option.some.injEq] at h
    obtain ⟨hfunc, rfl⟩ := h
    exact .next hfunc

section Moves

variable {r : Reset} {i : ℕ}

theorem setCall_self (s : TimerThread) (i : ℕ) (c : ResetCall) : (s.setCall i c).call i = c := by
  simp [setCall]

theorem setCall_of_ne {j : ℕ} (s : TimerThread) (c : ResetCall) (hj : j ≠ i) : (s.setCall i c).call j = s.call j := by
  simp [setCall, hj]

theorem Moves.resets_eq (hm : Moves capacity s e s') (he : e.isReset = false) : s'.resets = s.resets := by
  cases hm with
  | reset => exact absurd he (by simp [TimerThreadEvent.isReset])
  | _ => rfl

theorem setCall_reset {c : ResetCall} (hc : ∀ r, c.reset = some r → (s.call i).reset = some r) {j : ℕ} {r : Reset}
    (hj : ((s.setCall i c).call j).reset = some r) : (s.call j).reset = some r := by
  by_cases hji : j = i
  · subst hji
    rw [setCall_self] at hj
    exact hc r hj
  · rwa [setCall_of_ne s c hji] at hj

theorem Moves.call_reset (hm : Moves capacity s e s') (he : e.isReset = false) {j : ℕ}
    (hj : (s'.call j).reset = some r) : (s.call j).reset = some r := by
  cases hm with
  | reset => exact absurd he (by simp [TimerThreadEvent.isReset])
  | lock i r' hcall => exact setCall_reset (by simp [hcall, ResetCall.reset]) hj
  | write i r' hcall => exact setCall_reset (by simp [hcall, ResetCall.reset]) hj
  | unlock i r' hcall => exact setCall_reset (by simp [ResetCall.reset]) hj
  | _ => exact hj

theorem mem_rearm {r x : Reset} (h : x ∈ rearm l r) : x = r ∨ x ∈ l := by
  rcases OrderedSet.mem_insert h with rfl | hx
  · exact Or.inl rfl
  · split_ifs at hx
    · exact Or.inr (OrderedSet.mem_erase.mp hx).1
    · exact Or.inr hx

def Holds (s : TimerThread) (r : Reset) : Prop := r ∈ s.timerSet ∨ r ∈ s.timerFunc.popped

theorem Moves.holds (hm : Moves capacity s e s') (hr : s'.Holds r) : s.Holds r ∨ ∃ i, s.call i = .entering r := by
  cases hm with
  | lock i r' hcall hmutex =>
    rcases hr with hr | hr
    · rcases mem_rearm hr with rfl | hr
      · exact Or.inr ⟨i, hcall⟩
      · exact Or.inl (Or.inl hr)
    · exact Or.inl (Or.inr hr)
  | expire now expirationFds timerSet hfunc hmutex hset hdue =>
    left
    left
    rw [hset, List.mem_append]
    exact hr.symm
  | writeToken r' rest hfunc =>
    rcases hr with hr | hr
    · exact Or.inl (Or.inl hr)
    · left
      right
      rw [hfunc]
      exact List.mem_cons_of_mem _ hr
  | test | poll | failed | timeout | ready | readWeakup | next =>
    rcases hr with hr | hr
    · exact Or.inl (Or.inl hr)
    · exact absurd hr List.not_mem_nil
  | _ => exact Or.inl hr

/-- Only the caller that has `mutex_` is past the lock in `reset`. -/
def Held (s : TimerThread) : Prop :=
  ∀ caller r, s.call caller = .writing r ∨ s.call caller = .unlocking r → s.mutex = some caller

theorem Held.other (h : s.Held) {caller caller' : ℕ} (hmutex : s.mutex = some caller)
    (hcall : s.call caller' = .writing r ∨ s.call caller' = .unlocking r) : caller' = caller :=
  Option.some.inj ((h caller' r hcall).symm.trans hmutex)

theorem Moves.held (h : s.Held) (hm : Moves capacity s e s') : s'.Held := by
  cases hm with
  | reset r hcall hid =>
    intro caller r' hcall'
    by_cases hc : caller = r.caller
    · subst hc
      simp [setCall] at hcall'
    · simp only [setCall, Function.update_of_ne hc] at hcall'
      exact h caller r' hcall'
  | lock caller r hcall hmutex =>
    intro caller' r' hcall'
    by_cases hc : caller' = caller
    · rw [hc]
    · simp only [setCall, Function.update_of_ne hc] at hcall'
      have hheld := h caller' r' hcall'
      simp [hmutex] at hheld
  | write caller r hcall hroom =>
    intro caller' r' hcall'
    by_cases hc : caller' = caller
    · rw [hc]
      exact h caller r (Or.inl hcall)
    · simp only [setCall, Function.update_of_ne hc] at hcall'
      exact h caller' r' hcall'
  | unlock caller r hcall =>
    intro caller' r' hcall'
    by_cases hc : caller' = caller
    · subst hc
      simp [setCall] at hcall'
    · simp only [setCall, Function.update_of_ne hc] at hcall'
      exact absurd (h.other (h caller r (Or.inr hcall)) hcall') hc
  | _ => exact h

end Moves

end TimerThread

end Penduo
