import Penduo.TimerPass
import Penduo.TimerThread

set_option autoImplicit false

namespace Penduo

open LabelledRuns

namespace Timestamp

variable {now : Timestamp} {delayMs : Int64}

def maxNanoseconds : ℤ := 2 ^ 63 - 1

theorem milliseconds_toInt (hnonneg : 0 ≤ delayMs.toInt) (hbound : delayMs.toInt * 1000000 ≤ maxNanoseconds) :
    (delayMs * tsMilliseconds).toInt = delayMs.toInt * 1000000 := by
  have hunit : tsMilliseconds.toInt = 1000000 := by decide
  rw [maxNanoseconds] at hbound
  rw [Int64.toInt_mul, hunit]
  apply Int.bmod_eq_of_le
  · omega
  · omega

theorem add_toInt (hnow : 0 ≤ now.nanoseconds) (hnonneg : 0 ≤ delayMs.toInt)
    (hbound : now.nanoseconds + delayMs.toInt * 1000000 ≤ maxNanoseconds) :
    (now.timePoint + delayMs * tsMilliseconds).toInt = now.timePoint.toInt + (delayMs * tsMilliseconds).toInt := by
  have hscaled := milliseconds_toInt hnonneg (by omega)
  rw [maxNanoseconds] at hbound
  rw [Int64.toInt_add, hscaled]
  apply Int.bmod_eq_of_le
  · simp only [nanoseconds] at *
    omega
  · simp only [nanoseconds] at *
    omega

theorem add_nanoseconds (hnow : 0 ≤ now.nanoseconds) (hnonneg : 0 ≤ delayMs.toInt)
    (hbound : now.nanoseconds + delayMs.toInt * 1000000 ≤ maxNanoseconds) :
    (add tsMilliseconds now delayMs).nanoseconds = now.nanoseconds + delayMs.toInt * 1000000 := by
  have hscaled := milliseconds_toInt hnonneg (by omega)
  calc (add tsMilliseconds now delayMs).nanoseconds = now.timePoint.toInt + (delayMs * tsMilliseconds).toInt :=
        add_toInt hnow hnonneg hbound
    _ = now.nanoseconds + delayMs.toInt * 1000000 := by rw [hscaled, nanoseconds]

end Timestamp

namespace TimerLoop

open Timestamp (tsMilliseconds maxNanoseconds)

variable {s s' : TimerLoop} {e : TimerEvent} {now clock : Timestamp} {delayMs : Int64} {es : List TimerEvent}

def runAfter (now : Timestamp) (delayMs : Int64) (address : ℕ) (elsewhere : Bool) : TimerEvent :=
  let when := Timestamp.add tsMilliseconds now delayMs
  if elsewhere then .addTimerElsewhere address when else .addTimer address when

/-- What `run_after` is for: the delay is neither wrapped nor cut, and puts the timer behind all
those with shorter delays. -/
structure Delayed (now : Timestamp) (delayMs : Int64) : Prop where
  conversion : (delayMs * tsMilliseconds).toInt = delayMs.toInt * 1000000
  addition : (now.timePoint + delayMs * tsMilliseconds).toInt = now.timePoint.toInt + (delayMs * tsMilliseconds).toInt
  expiration : (Timestamp.add tsMilliseconds now delayMs).nanoseconds =
    min (now.nanoseconds + delayMs.toInt * 1000000) maxNanoseconds
  notEarly : ∀ (clock : Timestamp) (before after : List TimerEvent) (s s' s'' : TimerLoop) (address : ℕ)
    (elsewhere : Bool) (n : Timestamp), Run (Next stepAnyTime) (init clock) before s →
    s.stepAnyTime (runAfter now delayMs address elsewhere) = some s' → Run (Next stepAnyTime) s' after s'' →
    (⟨s.added.length, address, Timestamp.add tsMilliseconds now delayMs⟩, n) ∈ s''.runs →
    now.nanoseconds + delayMs.toInt * 1000000 ≤ n.nanoseconds
  ordered : ∀ shorter : Int64, 0 ≤ shorter → shorter < delayMs → ∀ t u : Timer,
    t.expirationTs = Timestamp.add tsMilliseconds now shorter →
    u.expirationTs = Timestamp.add tsMilliseconds now delayMs → t.key < u.key

theorem stepAnyTime_due (h : s.Due) (hn : s.stepAnyTime e = some s') : s'.Due := by
  cases e with
  | addTimer address when =>
    simp only [stepAnyTime, Option.ite_none_right_eq_some, Option.map_eq_some_iff] at hn
    obtain ⟨_, t, _, rfl⟩ := hn
    exact ⟨h.waiting, h.ran⟩
  | addTimerElsewhere address when =>
    simp only [stepAnyTime, Option.map_eq_some_iff] at hn
    obtain ⟨t, _, rfl⟩ := hn
    exact ⟨h.waiting, h.ran⟩
  | _ =>
    simp only [stepAnyTime] at hn
    exact (moves_of_step hn).due h

theorem run_anyTime_due (h : Run (Next stepAnyTime) (init clock) es s) : s.Due :=
  h.invariant (fun _ _ _ hs hn => stepAnyTime_due hs hn)
    ⟨fun _ _ hrun => by simp [init] at hrun, fun _ hr => by simp [init] at hr⟩

theorem key_lt {t u : Timer} (hlt : t.expirationTs.nanoseconds < u.expirationTs.nanoseconds) : t.key < u.key :=
  Prod.Lex.toLex_lt_toLex.mpr (Or.inl hlt)

theorem delayed_of_representable (hnow : 0 ≤ now.nanoseconds) (hdelay : 0 ≤ delayMs)
    (hbound : now.nanoseconds + delayMs.toInt * 1000000 ≤ maxNanoseconds) : Delayed now delayMs := by
  have hnonneg : 0 ≤ delayMs.toInt := Int64.le_iff_toInt_le.mp hdelay
  have hexact := Timestamp.add_nanoseconds hnow hnonneg hbound
  constructor
  case conversion => exact Timestamp.milliseconds_toInt hnonneg (by omega)
  case addition => exact Timestamp.add_toInt hnow hnonneg hbound
  case expiration => rw [hexact, min_eq_left hbound]
  case notEarly =>
    intro clock before after s s' s'' address elsewhere n hbefore hstep hafter hran
    have hrun := (hbefore.snoc hstep).append hafter
    have hle : (Timestamp.add tsMilliseconds now delayMs).nanoseconds ≤ n.nanoseconds :=
      (run_anyTime_due hrun).ran _ hran
    omega
  case ordered =>
    intro shorter hshorter hlt t u ht hu
    have hshort : 0 ≤ shorter.toInt := Int64.le_iff_toInt_le.mp hshorter
    have hlt' := Int64.lt_iff_toInt_lt.mp hlt
    apply key_lt
    rw [ht, hu, hexact, Timestamp.add_nanoseconds hnow hshort (by omega)]
    omega

/-- A delay is served in full exactly when the time at which it ends can be represented. -/
theorem delayed_iff (hnow : 0 ≤ now.nanoseconds) (hdelay : 0 ≤ delayMs) :
    Delayed now delayMs ↔ now.nanoseconds + delayMs.toInt * 1000000 ≤ maxNanoseconds := by
  constructor
  · intro h
    have hlt := Int64.toInt_lt (now.timePoint + delayMs * tsMilliseconds)
    rw [h.addition, h.conversion] at hlt
    rw [Timestamp.nanoseconds, maxNanoseconds]
    omega
  · exact delayed_of_representable hnow hdelay

theorem delayed_iff_second : Delayed ⟨1000000000⟩ 1000 ↔
    (⟨1000000000⟩ : Timestamp).nanoseconds + (1000 : Int64).toInt * 1000000 ≤ maxNanoseconds := by
  have hnow : 0 ≤ (⟨1000000000⟩ : Timestamp).nanoseconds := by decide
  exact delayed_iff hnow (by decide)

theorem longest_delay_runs_at_once :
    (Timestamp.add tsMilliseconds ⟨1000000000⟩ Int64.maxValue).nanoseconds = 999000000 ∧
      (∃ (s : TimerLoop) (n : Timestamp), Run (Next stepAnyTime) (init ⟨1000000000⟩)
        [runAfter ⟨1000000000⟩ Int64.maxValue 7 false, .tick ⟨1000100000⟩, .expire, .readClock, .readFd,
          .getExpired, .call] s ∧
        s.runs = [(⟨0, 7, Timestamp.add tsMilliseconds ⟨1000000000⟩ Int64.maxValue⟩, n)] ∧
          n.nanoseconds = 1000100000) ∧
      ¬ Delayed ⟨1000000000⟩ Int64.maxValue := by
  refine ⟨by decide, ?_, ?_⟩
  · have hexec : (exec stepAnyTime (init ⟨1000000000⟩)
        [runAfter ⟨1000000000⟩ Int64.maxValue 7 false, .tick ⟨1000100000⟩, .expire, .readClock, .readFd,
          .getExpired, .call]).map TimerLoop.runs =
        some [(⟨0, 7, Timestamp.add tsMilliseconds ⟨1000000000⟩ Int64.maxValue⟩, ⟨1000100000⟩)] := by decide +kernel
    obtain ⟨s, hrun, hruns⟩ := run_of_exec_map _ hexec
    exact ⟨s, ⟨1000100000⟩, hrun, hruns, by decide⟩
  · intro h
    exact absurd h.conversion (by decide)

end TimerLoop

end Penduo
