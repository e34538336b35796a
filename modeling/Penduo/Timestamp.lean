import Mathlib.Algebra.Order.Ring.Int
import Mathlib.Data.Prod.Lex

set_option autoImplicit false

namespace Penduo

structure Timestamp where
  timePoint : Int64
deriving DecidableEq, Repr

namespace Timestamp

def nanoseconds (t : Timestamp) : ℤ := t.timePoint.toInt

theorem nanoseconds_injective : Function.Injective nanoseconds := by
  rintro ⟨a⟩ ⟨b⟩ h
  exact congrArg mk (Int64.toInt_inj.mp h)

instance : LinearOrder Timestamp := LinearOrder.lift' nanoseconds nanoseconds_injective

def tsMicroseconds : Int64 := 1000

def microSecondsPerSecond : Int64 := 1000 * 1000

-- `differ<T>`, with `T` given by its length in nanoseconds.
def differ (unit : Int64) (st ed : Timestamp) : Int64 := (ed.timePoint - st.timePoint) / unit

def add (unit : Int64) (timestamp : Timestamp) (count : Int64) : Timestamp := ⟨timestamp.timePoint + count * unit⟩

theorem nanoseconds_lt (t : Timestamp) : t.nanoseconds < 2 ^ 63 := t.timePoint.toInt_lt

end Timestamp

structure TimeSpec where
  tvSec : Int64
  tvNsec : Int64
deriving DecidableEq, Repr

namespace TimeSpec

def nanoseconds (ts : TimeSpec) : ℤ := ts.tvSec.toInt * 1000000000 + ts.tvNsec.toInt

def valid (ts : TimeSpec) : Bool := decide (0 ≤ ts.tvSec) && decide (0 ≤ ts.tvNsec) && decide (ts.tvNsec < 1000000000)

end TimeSpec

def howMuchTimeFromNow (now when : Timestamp) : TimeSpec :=
  let microseconds := Timestamp.differ Timestamp.tsMicroseconds now when
  let microseconds := max microseconds 100
  { tvSec := microseconds / Timestamp.microSecondsPerSecond
    tvNsec := microseconds % Timestamp.microSecondsPerSecond * 1000 }

section HowMuchTime

variable {now when : Timestamp}

theorem toInt_max (a b : Int64) : (max a b).toInt = max a.toInt b.toInt := by
  by_cases h : a ≤ b
  · rw [show max a b = b from if_pos h, max_eq_right (Int64.le_iff_toInt_le.mp h)]
  · have hlt := Int64.le_iff_toInt_le.not.mp h
    rw [show max a b = a from if_neg h, max_eq_left (not_le.mp hlt).le]

theorem sub_timePoint (hnow : 0 ≤ now.nanoseconds) (hwhen : 0 ≤ when.nanoseconds) :
    (when.timePoint - now.timePoint).toInt = when.nanoseconds - now.nanoseconds := by
  have hn := now.nanoseconds_lt
  have hw := when.nanoseconds_lt
  rw [Int64.toInt_sub]
  apply Int.bmod_eq_of_le
  · simp only [Timestamp.nanoseconds] at *
    omega
  · simp only [Timestamp.nanoseconds] at *
    omega

theorem differ_toInt {unit : Int64} (hunit : unit ≠ -1) (hnow : 0 ≤ now.nanoseconds) (hwhen : 0 ≤ when.nanoseconds) :
    (Timestamp.differ unit now when).toInt = (when.nanoseconds - now.nanoseconds).tdiv unit.toInt := by
  rw [Timestamp.differ, Int64.toInt_div_of_ne_right _ _ hunit, sub_timePoint hnow hwhen]

theorem differ_microseconds (hnow : 0 ≤ now.nanoseconds) (hwhen : 0 ≤ when.nanoseconds) :
    (Timestamp.differ Timestamp.tsMicroseconds now when).toInt =
      (when.nanoseconds - now.nanoseconds).tdiv 1000 :=
  differ_toInt (by decide) hnow hwhen

def waitMicroseconds (now when : Timestamp) : ℤ := max ((when.nanoseconds - now.nanoseconds).tdiv 1000) 100

theorem howMuchTimeFromNow_eq (hnow : 0 ≤ now.nanoseconds) (hwhen : 0 ≤ when.nanoseconds) :
    (howMuchTimeFromNow now when).tvSec.toInt = waitMicroseconds now when / 1000000 ∧
      (howMuchTimeFromNow now when).tvNsec.toInt = waitMicroseconds now when % 1000000 * 1000 := by
  have hmax : (max (Timestamp.differ Timestamp.tsMicroseconds now when) 100).toInt = waitMicroseconds now when := by
    rw [toInt_max, differ_microseconds hnow hwhen]
    rfl
  have hunit : Timestamp.microSecondsPerSecond.toInt = 1000000 := by decide
  have hpos : 100 ≤ waitMicroseconds now when := le_max_right _ _
  constructor
  · rw [howMuchTimeFromNow, Int64.toInt_div_of_ne_right _ _ (by decide), hmax, hunit]
    exact Int.tdiv_eq_ediv_of_nonneg (by omega)
  · have hmod : (waitMicroseconds now when).tmod 1000000 = waitMicroseconds now when % 1000000 :=
      Int.tmod_eq_emod_of_nonneg (by omega)
    have hthousand : (1000 : Int64).toInt = 1000 := by decide
    rw [howMuchTimeFromNow, Int64.toInt_mul, Int64.toInt_mod, hmax, hunit, hthousand, hmod]
    apply Int.bmod_eq_of_le
    · omega
    · omega

theorem howMuchTimeFromNow_valid (hnow : 0 ≤ now.nanoseconds) (hwhen : 0 ≤ when.nanoseconds) :
    (howMuchTimeFromNow now when).valid = true := by
  obtain ⟨hsec, hnsec⟩ := howMuchTimeFromNow_eq hnow hwhen
  have hpos : 100 ≤ waitMicroseconds now when := le_max_right _ _
  have hbillion : (1000000000 : Int64).toInt = 1000000000 := by decide
  simp only [TimeSpec.valid, Bool.and_eq_true, decide_eq_true_eq, Int64.le_iff_toInt_le,
    Int64.lt_iff_toInt_lt, Int64.toInt_zero, hbillion, hsec, hnsec]
  omega

theorem howMuchTimeFromNow_nanoseconds (hnow : 0 ≤ now.nanoseconds) (hwhen : 0 ≤ when.nanoseconds) :
    (howMuchTimeFromNow now when).nanoseconds = waitMicroseconds now when * 1000 := by
  obtain ⟨hsec, hnsec⟩ := howMuchTimeFromNow_eq hnow hwhen
  rw [TimeSpec.nanoseconds, hsec, hnsec]
  omega

theorem waitMicroseconds_le (now when : Timestamp) :
    now.nanoseconds + waitMicroseconds now when * 1000 ≤ max when.nanoseconds (now.nanoseconds + 100000) := by
  rw [waitMicroseconds]
  rcases le_total 0 (when.nanoseconds - now.nanoseconds) with h | h
  · rw [Int.tdiv_eq_ediv_of_nonneg h]
    omega
  · have hneg := Int.tdiv_le_tdiv (c := 1000) (by omega) h
    rw [Int.zero_tdiv] at hneg
    omega

end HowMuchTime

end Penduo
