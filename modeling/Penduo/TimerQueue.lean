import Penduo.Library.OrderedSet
import Penduo.Library.Runs
import Penduo.Timestamp
import Mathlib.Data.Prod.Lex

set_option autoImplicit false

namespace Penduo

structure TimerfdNaive where
  armed : Option ℤ
  readable : Bool
  resetAt : Timestamp
deriving DecidableEq, Repr

namespace TimerfdNaive

def new : TimerfdNaive := { armed := none, readable := false, resetAt := ⟨0⟩ }

-- `timerfd_settime` with a relative value; a zero value disarms.
def settime (fd : TimerfdNaive) (now : Timestamp) (value : TimeSpec) : TimerfdNaive :=
  if value.valid then
    { fd with armed := if value.nanoseconds = 0 then none else some (now.nanoseconds + value.nanoseconds),
              readable := false }
  else fd

def read (fd : TimerfdNaive) : TimerfdNaive := { fd with readable := false }

def reset (fd : TimerfdNaive) (now expiration : Timestamp) : TimerfdNaive :=
  { fd.settime now (howMuchTimeFromNow now expiration) with resetAt := now }

def expire (fd : TimerfdNaive) : TimerfdNaive := { fd with armed := none, readable := true }

end TimerfdNaive

structure Timer where
  serial : ℕ
  address : ℕ
  expirationTs : Timestamp
deriving DecidableEq, Repr

def Timer.key (t : Timer) : Timestamp ×ₗ ℕ := toLex (t.expirationTs, t.address)

theorem Timer.expirationTs_le {t u : Timer} (h : t.key ≤ u.key) : t.expirationTs ≤ u.expirationTs := by
  rcases Prod.Lex.toLex_le_toLex.mp h with h | h
  · exact h.le
  · exact h.1.le

theorem Timer.key_ne {t u : Timer} (h : t.address ≠ u.address) : t.key ≠ u.key := by
  intro hkey
  have hpair := toLex.injective hkey
  exact h (Prod.mk.inj hpair).2

structure TimerQueue where
  timerfd : TimerfdNaive
  timerList : List Timer
deriving DecidableEq, Repr

namespace TimerQueue

def new : TimerQueue := { timerfd := .new, timerList := [] }

def insert (q : TimerQueue) (timer : Timer) : Bool × TimerQueue :=
  let earliestChanged := match q.timerList.head? with
    | none => true
    | some first => decide (timer.expirationTs < first.expirationTs)
  (earliestChanged, { q with timerList := OrderedSet.insert Timer.key timer q.timerList })

def addTimerInLoop (q : TimerQueue) (now : Timestamp) (timer : Timer) : TimerQueue :=
  let (earliestChanged, q) := q.insert timer
  if earliestChanged then { q with timerfd := q.timerfd.reset now timer.expirationTs } else q

def getExpired (now : Timestamp) : List Timer → List Timer × List Timer
  | [] => ([], [])
  | first :: rest =>
    if first.expirationTs ≤ now then
      let (expired, timerList) := getExpired now rest
      (first :: expired, timerList)
    else ([], first :: rest)

def reset (q : TimerQueue) (now : Timestamp) : TimerQueue :=
  match q.timerList.head? with
  | some first => { q with timerfd := q.timerfd.reset now first.expirationTs }
  | none => q

variable {q : TimerQueue} {now : Timestamp} {timer : Timer}

theorem getExpired_append (now : Timestamp) (l : List Timer) :
    (getExpired now l).1 ++ (getExpired now l).2 = l := by
  induction l with
  | nil => rfl
  | cons first rest ih =>
    rw [getExpired]
    split_ifs
    · exact congrArg (first :: ·) ih
    · rfl

theorem getExpired_due (now : Timestamp) (l : List Timer) : ∀ t ∈ (getExpired now l).1, t.expirationTs ≤ now := by
  induction l with
  | nil => simp [getExpired]
  | cons first rest ih =>
    rw [getExpired]
    split_ifs with hdue
    · intro t ht
      rcases List.mem_cons.mp ht with rfl | ht
      · exact hdue
      · exact ih t ht
    · simp

theorem addTimerInLoop_timerList (q : TimerQueue) (now : Timestamp) (timer : Timer) :
    (q.addTimerInLoop now timer).timerList = OrderedSet.insert Timer.key timer q.timerList := by
  unfold addTimerInLoop insert
  dsimp only
  split_ifs <;> rfl

theorem reset_timerList (q : TimerQueue) (now : Timestamp) : (q.reset now).timerList = q.timerList := by
  unfold reset
  split <;> rfl

def Armed (q : TimerQueue) : Prop :=
  ∀ first, q.timerList.head? = some first → q.timerfd.readable = true ∨
    ∃ expiry, q.timerfd.armed = some expiry ∧
      expiry ≤ max first.expirationTs.nanoseconds (q.timerfd.resetAt.nanoseconds + 100000)

theorem reset_armed {fd : TimerfdNaive} {expiration : Timestamp} (hnow : 0 ≤ now.nanoseconds)
    (hexp : 0 ≤ expiration.nanoseconds) :
    ∃ expiry, (fd.reset now expiration).armed = some expiry ∧
      expiry ≤ max expiration.nanoseconds ((fd.reset now expiration).resetAt.nanoseconds + 100000) := by
  have hvalid := howMuchTimeFromNow_valid hnow hexp
  have hnano := howMuchTimeFromNow_nanoseconds hnow hexp
  have hpos : 100 ≤ waitMicroseconds now expiration := le_max_right _ _
  have hne : waitMicroseconds now expiration * 1000 ≠ 0 := by omega
  refine ⟨now.nanoseconds + waitMicroseconds now expiration * 1000, ?_, ?_⟩
  · simp only [TimerfdNaive.reset, TimerfdNaive.settime, hvalid, hnano, hne, if_true, if_false]
  · exact waitMicroseconds_le now expiration

theorem armed_of_reset (hnow : 0 ≤ now.nanoseconds) (hlist : ∀ t ∈ q.timerList, 0 ≤ t.expirationTs.nanoseconds) :
    (q.reset now).Armed := by
  intro first hfirst
  rw [reset_timerList] at hfirst
  have hexp := hlist first (List.mem_of_mem_head? hfirst)
  right
  rw [reset, hfirst]
  exact reset_armed hnow hexp

theorem Armed.addTimerInLoop (h : q.Armed) (hnow : 0 ≤ now.nanoseconds)
    (hexp : 0 ≤ timer.expirationTs.nanoseconds) (hfresh : ∀ t ∈ q.timerList, t.key ≠ timer.key) :
    (q.addTimerInLoop now timer).Armed := by
  intro first hfirst
  rw [addTimerInLoop_timerList] at hfirst
  have hhead := OrderedSet.head?_insert hfresh
  rw [hfirst] at hhead
  unfold TimerQueue.addTimerInLoop insert
  dsimp only
  cases hold : q.timerList.head? with
  | none =>
    obtain ⟨hnew, _⟩ | ⟨x, hx, _⟩ := hhead
    · obtain rfl := Option.some.inj hnew
      right
      exact reset_armed hnow hexp
    · simp [hold] at hx
  | some old =>
    dsimp only
    split_ifs with hlt
    · rw [decide_eq_true_eq] at hlt
      obtain ⟨hnew, _⟩ | ⟨x, hx, hkey, _⟩ := hhead
      · obtain rfl := Option.some.inj hnew
        right
        exact reset_armed hnow hexp
      · obtain rfl : old = x := by simpa [hold] using hx
        exact absurd (Timer.expirationTs_le hkey) (not_le.mpr hlt)
    · have hle : old.expirationTs ≤ timer.expirationTs := by simpa using hlt
      have hsame : first.expirationTs = old.expirationTs := by
        obtain ⟨hnew, hkey⟩ | ⟨x, hx, _, hnew⟩ := hhead
        · obtain rfl := Option.some.inj hnew
          exact le_antisymm (Timer.expirationTs_le (hkey old hold)) hle
        · obtain rfl : old = x := by simpa [hold] using hx
          rw [Option.some.inj hnew]
      rw [hsame]
      exact h old hold

end TimerQueue

end Penduo
