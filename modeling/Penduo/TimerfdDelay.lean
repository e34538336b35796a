import Penduo.TimerQueue

set_option autoImplicit false

namespace Penduo

variable {now when later : Timestamp}

structure TimeSpec.Arming (ts : TimeSpec) : Prop where
  seconds : 0 ≤ ts.tvSec.toInt
  nonneg : 0 ≤ ts.tvNsec.toInt
  lt : ts.tvNsec.toInt < 1000000000
  nonzero : ¬ (ts.tvSec = 0 ∧ ts.tvNsec = 0)

def clampedMicroseconds (now when : Timestamp) : Int64 :=
  max (Timestamp.differ Timestamp.tsMicroseconds now when) 100

/-- No operation of `how_much_time_from_now` leaves the range of its type. -/
structure ExactDelay (now when : Timestamp) : Prop where
  difference : (when.timePoint - now.timePoint).toInt = when.nanoseconds - now.nanoseconds
  microseconds : (Timestamp.differ Timestamp.tsMicroseconds now when).toInt =
    (when.nanoseconds - now.nanoseconds).tdiv 1000
  clamped : (clampedMicroseconds now when).toInt = max ((when.nanoseconds - now.nanoseconds).tdiv 1000) 100
  seconds : (howMuchTimeFromNow now when).tvSec.toInt = (clampedMicroseconds now when).toInt / 1000000
  remainder : (clampedMicroseconds now when % Timestamp.microSecondsPerSecond).toInt =
    (clampedMicroseconds now when).toInt % 1000000
  scaled : (howMuchTimeFromNow now when).tvNsec.toInt =
    (clampedMicroseconds now when % Timestamp.microSecondsPerSecond).toInt * 1000

theorem clampedMicroseconds_toInt (hnow : 0 ≤ now.nanoseconds) (hwhen : 0 ≤ when.nanoseconds) :
    (clampedMicroseconds now when).toInt = waitMicroseconds now when := by
  rw [clampedMicroseconds, toInt_max, differ_microseconds hnow hwhen]
  rfl

theorem exactDelay (hnow : 0 ≤ now.nanoseconds) (hwhen : 0 ≤ when.nanoseconds) : ExactDelay now when := by
  have hclamped := clampedMicroseconds_toInt hnow hwhen
  have hpos : 100 ≤ waitMicroseconds now when := le_max_right _ _
  have hunit : Timestamp.microSecondsPerSecond.toInt = 1000000 := by decide
  have hremainder : (clampedMicroseconds now when % Timestamp.microSecondsPerSecond).toInt =
      (clampedMicroseconds now when).toInt % 1000000 := by
    rw [Int64.toInt_mod, hunit]
    exact Int.tmod_eq_emod_of_nonneg (by omega)
  constructor
  case difference => exact sub_timePoint hnow hwhen
  case microseconds => exact differ_microseconds hnow hwhen
  case clamped => exact hclamped
  case seconds =>
    obtain ⟨hsec, _⟩ := howMuchTimeFromNow_eq hnow hwhen
    rw [hsec, hclamped]
  case remainder => exact hremainder
  case scaled =>
    obtain ⟨_, hnsec⟩ := howMuchTimeFromNow_eq hnow hwhen
    rw [hnsec, hremainder, hclamped]

theorem arming (hnow : 0 ≤ now.nanoseconds) (hwhen : 0 ≤ when.nanoseconds) :
    (howMuchTimeFromNow now when).Arming := by
  obtain ⟨hsec, hnsec⟩ := howMuchTimeFromNow_eq hnow hwhen
  have hpos : 100 ≤ waitMicroseconds now when := le_max_right _ _
  constructor
  · rw [hsec]
    omega
  · rw [hnsec]
    omega
  · rw [hnsec]
    omega
  · rintro ⟨hsec', hnsec'⟩
    rw [hsec', Int64.toInt_zero] at hsec
    rw [hnsec', Int64.toInt_zero] at hnsec
    omega

theorem waitMicroseconds_mono (hle : when ≤ later) : waitMicroseconds now when ≤ waitMicroseconds now later := by
  have hle' : when.nanoseconds ≤ later.nanoseconds := hle
  exact max_le_max_right _ (Int.tdiv_le_tdiv (by omega) (by omega))

theorem TimerfdNaive.reset_armedAt (hnow : 0 ≤ now.nanoseconds) (hwhen : 0 ≤ when.nanoseconds) (fd : TimerfdNaive) :
    (fd.reset now when).armed = some (now.nanoseconds + (howMuchTimeFromNow now when).nanoseconds) := by
  have hvalid := howMuchTimeFromNow_valid hnow hwhen
  have hpos : 100 ≤ waitMicroseconds now when := le_max_right _ _
  have hne : (howMuchTimeFromNow now when).nanoseconds ≠ 0 := by
    rw [howMuchTimeFromNow_nanoseconds hnow hwhen]
    omega
  simp only [TimerfdNaive.reset, TimerfdNaive.settime, hvalid, hne, if_true, if_false]

/-- The loop's timer is always armed, for the time left in whole microseconds or for 100 of them. -/
theorem TimerfdNaive.reset_arms (hnow : 0 ≤ now.nanoseconds) (hwhen : 0 ≤ when.nanoseconds) (fd : TimerfdNaive) :
    ExactDelay now when ∧ (howMuchTimeFromNow now when).Arming ∧
      (fd.reset now when).armed = some (now.nanoseconds + (howMuchTimeFromNow now when).nanoseconds) ∧
      (when.nanoseconds - now.nanoseconds < 100000 → (howMuchTimeFromNow now when).nanoseconds = 100000) ∧
      (100000 ≤ when.nanoseconds - now.nanoseconds →
        when.nanoseconds - now.nanoseconds - 1000 < (howMuchTimeFromNow now when).nanoseconds ∧
          (howMuchTimeFromNow now when).nanoseconds ≤ when.nanoseconds - now.nanoseconds) ∧
      ∀ later, when ≤ later →
        (howMuchTimeFromNow now when).nanoseconds ≤ (howMuchTimeFromNow now later).nanoseconds := by
  have hlength := howMuchTimeFromNow_nanoseconds hnow hwhen
  refine ⟨exactDelay hnow hwhen, arming hnow hwhen, fd.reset_armedAt hnow hwhen, ?_, ?_, ?_⟩
  · intro hnear
    have hdiv : (when.nanoseconds - now.nanoseconds).tdiv 1000 ≤ (99999 : ℤ).tdiv 1000 :=
      Int.tdiv_le_tdiv (by omega) (by omega)
    have hwait : waitMicroseconds now when = 100 := max_eq_right (hdiv.trans (by decide))
    rw [hlength, hwait]
    rfl
  · intro hfar
    have hdiv : (when.nanoseconds - now.nanoseconds).tdiv 1000 = (when.nanoseconds - now.nanoseconds) / 1000 :=
      Int.tdiv_eq_ediv_of_nonneg (by omega)
    rw [hlength, waitMicroseconds, hdiv]
    omega
  · intro later hle
    have hlater : 0 ≤ later.nanoseconds := hwhen.trans hle
    have hmono : waitMicroseconds now when ≤ waitMicroseconds now later := waitMicroseconds_mono hle
    rw [hlength, howMuchTimeFromNow_nanoseconds hnow hlater]
    omega

theorem TimerfdNaive.reset_arms_second :
    ExactDelay ⟨5⟩ ⟨1000000005⟩ ∧ (howMuchTimeFromNow ⟨5⟩ ⟨1000000005⟩).Arming ∧
      (TimerfdNaive.new.reset ⟨5⟩ ⟨1000000005⟩).armed = some 1000000005 := by
  have hnow : 0 ≤ (⟨5⟩ : Timestamp).nanoseconds := by decide
  have hwhen : 0 ≤ (⟨1000000005⟩ : Timestamp).nanoseconds := by decide
  obtain ⟨hexact, harming, harmed, _⟩ := TimerfdNaive.reset_arms hnow hwhen TimerfdNaive.new
  refine ⟨hexact, harming, harmed.trans ?_⟩
  decide

end Penduo
