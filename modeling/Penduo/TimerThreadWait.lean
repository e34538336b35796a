import Mathlib.Data.Int.Order.Lemmas
import Penduo.TimerThread

set_option autoImplicit false

namespace Penduo

open LabelledRuns

namespace TimerThread

variable {capacity : ℕ} {s s' u : TimerThread} {first x : Reset} {now : Timestamp} {l : List Reset}
  {r : Timestamp × List Reset} {rounds : List (Timestamp × List Reset)}

/-- `TimerFunc` is about to compute its wait, and no wake-up is left to be read. -/
structure Waiting (s : TimerThread) : Prop where
  testing : s.timerFunc = .testing
  mutex : s.mutex = none
  drained : s.weakup = 0

def roundEvents (now : Timestamp) (popped : ℕ) : List TimerThreadEvent :=
  [.test, .tick now, .poll 0, .readClock, .expire] ++ List.replicate popped .writeToken ++ [.next]

/-- One turn of `TimerFunc`'s loop in which `poll` returns when its timeout has elapsed: when the
clock is read and what is popped. -/
def Round (capacity : ℕ) (s : TimerThread) (r : Timestamp × List Reset) (s' : TimerThread) : Prop :=
  r.1.nanoseconds = s.clock.nanoseconds + s.waitMs.toInt * 1000000 ∧ r.2 = (popExpired r.1 s.timerSet).1 ∧
    Run (Next (step capacity)) s (roundEvents r.1 r.2.length) s'

def Unpopped (first : Reset) (rounds : List (Timestamp × List Reset)) : Prop := ∀ r ∈ rounds, first ∉ r.2

def wholeMs (s : TimerThread) (first : Reset) : ℤ :=
  (first.newTimestamp.nanoseconds - s.clock.nanoseconds).tdiv 1000000

/-- How the loop serves the first entry of `timer_set_` when nothing is reset meanwhile. -/
structure Serves (capacity : ℕ) (s : TimerThread) (first : Reset) : Prop where
  timeout : ∀ rounds u, Run (Round capacity) s rounds u → Unpopped first rounds →
    0 < u.waitMs.toInt ∧ u.waitMs.toInt ≤ max 1 (u.wholeMs first)
  popped : ∀ rounds u r u', Run (Round capacity) s rounds u → Unpopped first rounds → Round capacity u r u' →
    first ∈ r.2 → first.newTimestamp ≤ r.1 ∧
      r.1.nanoseconds ≤ max first.newTimestamp.nanoseconds s.clock.nanoseconds + 1000000
  notEarly : ∀ rounds u, Run (Round capacity) s rounds u → ∀ r ∈ rounds, ∀ x ∈ r.2, x.newTimestamp ≤ r.1
  soon : ∀ rounds u, Run (Round capacity) s rounds u → 2 ≤ rounds.length → ¬ Unpopped first rounds
  proceeds : ∀ rounds u, Run (Round capacity) s rounds u → Unpopped first rounds →
    u.clock.nanoseconds + u.waitMs.toInt * 1000000 < 2 ^ 63 → ∃ r u', Round capacity u r u'

section Round

def afterRound (s : TimerThread) (now : Timestamp) : TimerThread :=
  { s with clock := now, timerSet := (popExpired now s.timerSet).2, timerFunc := .testing }

theorem writeToken_run (expirationFds : List Reset) (h : s.timerFunc = .writing expirationFds) :
    Run (Next (step capacity)) s (List.replicate expirationFds.length .writeToken)
      { s with timerFunc := .writing [] } := by
  induction expirationFds generalizing s with
  | nil =>
    rw [← h]
    exact .nil
  | cons x rest ih =>
    have hstep : s.step capacity .writeToken = some { s with timerFunc := .writing rest } := by
      simp only [step, h]
    exact Run.cons hstep (ih rfl)

theorem round_run (h : s.Waiting) (hwait : 0 ≤ s.waitMs) (hnow : s.clock ≤ now) :
    Run (Next (step capacity)) s (roundEvents now (popExpired now s.timerSet).1.length) (s.afterRound now) := by
  have hwaited : Run (Next (step capacity)) s [.test, .tick now, .poll 0, .readClock, .expire]
      { s with clock := now, timerSet := (popExpired now s.timerSet).2,
               timerFunc := .writing (popExpired now s.timerSet).1 } := by
    apply run_of_exec
    simp [exec, step, h.testing, h.mutex, h.drained, hwait, hnow]
  apply (hwaited.append (writeToken_run _ rfl)).snoc
  simp only [Next, step, if_true]
  rfl

theorem Round.spec (h : s.Waiting) (hr : Round capacity s r s') : s' = s.afterRound r.1 ∧ 0 ≤ s.waitMs.toInt := by
  obtain ⟨hclock, hpopped, hrun⟩ := hr
  have hsplit : roundEvents r.1 r.2.length =
      ([.test] ++ [.tick r.1]) ++
        ([.poll 0, .readClock, .expire] ++ List.replicate r.2.length .writeToken ++ [.next]) :=
    rfl
  obtain ⟨v, hv, _⟩ := (hsplit ▸ hrun).split
  obtain ⟨t, ht, htick⟩ := hv.snoc_inv
  have htest : s.step capacity .test = some { s with timerFunc := .polling s.waitMs } :=
    if_pos ⟨h.testing, h.mutex⟩
  obtain rfl := ht.unique (Run.single htest)
  simp only [Next, step, Option.ite_none_right_eq_some] at htick
  have hle : s.clock.nanoseconds ≤ r.1.nanoseconds := htick.1
  have hwait : 0 ≤ s.waitMs.toInt := by omega
  have hwait' : 0 ≤ s.waitMs := Int32.le_iff_toInt_le.mpr (by simpa using hwait)
  rw [hpopped] at hrun
  exact ⟨hrun.unique (round_run h hwait' htick.1), hwait⟩

theorem Waiting.afterRound (h : s.Waiting) (now : Timestamp) : (s.afterRound now).Waiting := ⟨rfl, h.mutex, h.drained⟩

theorem round_exists (capacity : ℕ) (h : s.Waiting) (hclock : 0 ≤ s.clock.nanoseconds) (hwait : 0 ≤ s.waitMs.toInt)
    (hrange : s.clock.nanoseconds + s.waitMs.toInt * 1000000 < 2 ^ 63) :
    ∃ now : Timestamp, now.nanoseconds = s.clock.nanoseconds + s.waitMs.toInt * 1000000 ∧
      Round capacity s (now, (popExpired now s.timerSet).1) (s.afterRound now) := by
  have hnow : (⟨Int64.ofInt (s.clock.nanoseconds + s.waitMs.toInt * 1000000)⟩ : Timestamp).nanoseconds =
      s.clock.nanoseconds + s.waitMs.toInt * 1000000 := Int64.toInt_ofInt_of_le (by omega) hrange
  have hwait' : 0 ≤ s.waitMs := Int32.le_iff_toInt_le.mpr (by simpa using hwait)
  refine ⟨_, hnow, hnow, rfl, round_run h hwait' ?_⟩
  show s.clock.nanoseconds ≤ _
  rw [hnow]
  omega

theorem popExpired_of_lt (hfirst : l.head? = some first) (hlt : now < first.newTimestamp) :
    popExpired now l = ([], l) := by
  cases l with
  | nil => simp at hfirst
  | cons y rest =>
    obtain rfl : y = first := by simpa using hfirst
    rw [popExpired, if_neg (not_le.mpr hlt)]

theorem mem_popExpired (hfirst : l.head? = some first) (hle : first.newTimestamp ≤ now) :
    first ∈ (popExpired now l).1 := by
  cases l with
  | nil => simp at hfirst
  | cons y rest =>
    obtain rfl : y = first := by simpa using hfirst
    rw [popExpired, if_pos hle]
    exact List.mem_cons_self

end Round

section Wait

theorem waitMs_toInt (hfirst : s.timerSet.head? = some first) (hclock : 0 ≤ s.clock.nanoseconds)
    (htime : 0 ≤ first.newTimestamp.nanoseconds) : s.waitMs.toInt = (max 1 (s.wholeMs first)).bmod (2 ^ 32) := by
  have hunit : Timestamp.tsMilliseconds.toInt = 1000000 := by decide
  have hone : (1 : Int64).toInt = 1 := by decide
  simp only [waitMs, hfirst, Int64.toInt_toInt32, toInt_max, hone]
  rw [differ_toInt (by decide) hclock htime, hunit]
  rfl

theorem wholeMs_cases (s : TimerThread) (first : Reset) :
    first.newTimestamp.nanoseconds - s.clock.nanoseconds < 1000000 ∧ s.wholeMs first ≤ 0 ∨
      1000000 ≤ first.newTimestamp.nanoseconds - s.clock.nanoseconds ∧
        s.wholeMs first = (first.newTimestamp.nanoseconds - s.clock.nanoseconds) / 1000000 := by
  rcases lt_or_ge (first.newTimestamp.nanoseconds - s.clock.nanoseconds) 1000000 with hlt | hle
  · left
    refine ⟨hlt, ?_⟩
    calc s.wholeMs first ≤ (999999 : ℤ).tdiv 1000000 := Int.tdiv_le_tdiv (by omega) (by omega)
      _ = 0 := by decide
  · exact Or.inr ⟨hle, Int.tdiv_eq_ediv_of_nonneg (by omega)⟩

theorem waitMs_near (hfirst : s.timerSet.head? = some first) (hclock : 0 ≤ s.clock.nanoseconds)
    (htime : 0 ≤ first.newTimestamp.nanoseconds)
    (hnear : first.newTimestamp.nanoseconds - s.clock.nanoseconds < 2 ^ 31 * 1000000) :
    s.waitMs.toInt = max 1 (s.wholeMs first) := by
  rw [waitMs_toInt hfirst hclock htime]
  have hcases := wholeMs_cases s first
  apply Int.bmod_eq_of_le
  · omega
  · omega

end Wait

section Near

structure Progress (s : TimerThread) (first : Reset) (rounds : List (Timestamp × List Reset))
    (u : TimerThread) : Prop where
  head : u.timerSet.head? = some first
  clock : rounds = [] ∧ u.clock = s.clock ∨
    rounds.length = 1 ∧ s.clock.nanoseconds ≤ u.clock.nanoseconds ∧
      u.clock.nanoseconds < first.newTimestamp.nanoseconds ∧
      first.newTimestamp.nanoseconds < u.clock.nanoseconds + 1000000

variable (hfirst : s.timerSet.head? = some first) (hclock : 0 ≤ s.clock.nanoseconds)
  (htime : 0 ≤ first.newTimestamp.nanoseconds)
  (hnear : first.newTimestamp.nanoseconds - s.clock.nanoseconds < 2 ^ 31 * 1000000)

include hclock htime hnear

theorem Progress.wait (h : Progress s first rounds u) :
    0 ≤ u.clock.nanoseconds ∧ u.waitMs.toInt = max 1 (u.wholeMs first) := by
  have hu : 0 ≤ u.clock.nanoseconds ∧
      first.newTimestamp.nanoseconds - u.clock.nanoseconds < 2 ^ 31 * 1000000 := by
    rcases h.clock with ⟨_, heq⟩ | ⟨_, _⟩
    · rw [heq]
      exact ⟨hclock, hnear⟩
    · omega
  exact ⟨hu.1, waitMs_near h.head hu.1 htime hu.2⟩

theorem Progress.snoc (h : Progress s first rounds u) (hwaiting : u.Waiting) (hr : Round capacity u r s')
    (hnot : first ∉ r.2) : Progress s first (rounds ++ [r]) s' := by
  obtain ⟨rfl, _⟩ := hr.spec hwaiting
  obtain ⟨hnow, hpopped, _⟩ := hr
  have hlt : r.1.nanoseconds < first.newTimestamp.nanoseconds := by
    by_contra hge
    exact hnot (hpopped ▸ mem_popExpired h.head (not_lt.mp hge))
  obtain ⟨_, hwait⟩ := h.wait hclock htime hnear
  have hcases := wholeMs_cases u first
  constructor
  · rw [afterRound, popExpired_of_lt h.head hlt]
    exact h.head
  · right
    rcases h.clock with ⟨rfl, heq⟩ | ⟨_, _⟩
    · simp only [heq] at hnow hcases hwait
      refine ⟨rfl, ?_⟩
      dsimp only [afterRound]
      omega
    · omega

include hfirst

theorem run_progress (hwaiting : s.Waiting) (h : Run (Round capacity) s rounds u) :
    u.Waiting ∧ (Unpopped first rounds → Progress s first rounds u) := by
  induction h with
  | nil => exact ⟨hwaiting, fun _ => ⟨hfirst, Or.inl ⟨rfl, rfl⟩⟩⟩
  | @snoc rounds u r u' _ hr ih =>
    refine ⟨?_, fun hun => ?_⟩
    · rw [(hr.spec ih.1).1]
      exact ih.1.afterRound _
    · have hbefore : Unpopped first rounds := fun x hx => hun x (List.mem_append_left _ hx)
      exact (ih.2 hbefore).snoc hclock htime hnear ih.1 hr (hun r (by simp))

theorem serves_of_near (hwaiting : s.Waiting) : Serves capacity s first := by
  constructor
  case timeout =>
    intro rounds u hrun hun
    have hprogress := (run_progress hfirst hclock htime hnear hwaiting hrun).2 hun
    obtain ⟨_, hwait⟩ := hprogress.wait hclock htime hnear
    rw [hwait]
    exact ⟨by omega, le_rfl⟩
  case popped =>
    intro rounds u r u' hrun hun hr hmem
    have hprogress := (run_progress hfirst hclock htime hnear hwaiting hrun).2 hun
    obtain ⟨_, hwait⟩ := hprogress.wait hclock htime hnear
    obtain ⟨hnow, hpopped, _⟩ := hr
    have hcases := wholeMs_cases u first
    refine ⟨popExpired_due _ _ first (hpopped ▸ hmem), ?_⟩
    rcases hprogress.clock with ⟨_, heq⟩ | ⟨_, _⟩
    · simp only [heq] at hnow hcases hwait
      omega
    · omega
  case notEarly =>
    intro rounds u hrun
    induction hrun with
    | nil => simp
    | @snoc rounds u r u' _ hr ih =>
      intro r' hr' x hx
      rcases List.mem_append.mp hr' with hr' | hr'
      · exact ih r' hr' x hx
      · obtain rfl := List.mem_singleton.mp hr'
        exact popExpired_due _ _ x (hr.2.1 ▸ hx)
  case soon =>
    intro rounds u hrun hlen hun
    have hprogress := (run_progress hfirst hclock htime hnear hwaiting hrun).2 hun
    rcases hprogress.clock with ⟨rfl, _⟩ | ⟨hone, _⟩
    · simp at hlen
    · omega
  case proceeds =>
    intro rounds u hrun hun hrange
    obtain ⟨hwaiting', hprogress⟩ := run_progress hfirst hclock htime hnear hwaiting hrun
    obtain ⟨hu, hwait⟩ := (hprogress hun).wait hclock htime hnear
    obtain ⟨now, _, hr⟩ := round_exists capacity hwaiting' hu (by omega) hrange
    exact ⟨_, _, hr⟩

end Near

section Far

variable (hfirst : s.timerSet.head? = some first) (hclock : 0 ≤ s.clock.nanoseconds)
  (htime : 0 ≤ first.newTimestamp.nanoseconds)
  (hfar : 2 ^ 31 * 1000000 ≤ first.newTimestamp.nanoseconds - s.clock.nanoseconds)

include hfirst hclock htime hfar

theorem not_serves_of_far (hwaiting : s.Waiting) : ¬ Serves capacity s first := by
  intro h
  obtain ⟨hpos, _⟩ := h.timeout [] s .nil (by simp [Unpopped])
  have hwhole : s.wholeMs first = (first.newTimestamp.nanoseconds - s.clock.nanoseconds) / 1000000 :=
    Int.tdiv_eq_ediv_of_nonneg (by omega)
  have hwait := waitMs_toInt hfirst hclock htime
  have hmax : max 1 (s.wholeMs first) = s.wholeMs first := max_eq_right (by omega)
  rw [hmax, Int.bmod_def] at hwait
  have hlow : s.waitMs.toInt < 2 ^ 31 := s.waitMs.toInt_lt
  have htop := first.newTimestamp.nanoseconds_lt
  obtain ⟨now, hnow, hr⟩ := round_exists capacity hwaiting hclock hpos.le (by omega)
  have hlt : now < first.newTimestamp := by
    show now.nanoseconds < first.newTimestamp.nanoseconds
    omega
  have hpopped := popExpired_of_lt hfirst hlt
  have hun : Unpopped first [(now, (popExpired now s.timerSet).1)] := by simp [Unpopped, hpopped]
  obtain ⟨hpos', _⟩ := h.timeout _ _ (Run.single hr) hun
  have hhead : (s.afterRound now).timerSet.head? = some first := by
    rw [afterRound, hpopped]
    exact hfirst
  have hnow0 : 0 ≤ (s.afterRound now).clock.nanoseconds := by
    show 0 ≤ now.nanoseconds
    omega
  have hleft : (s.afterRound now).wholeMs first = (first.newTimestamp.nanoseconds - now.nanoseconds) / 1000000 :=
    Int.tdiv_eq_ediv_of_nonneg (by show 0 ≤ first.newTimestamp.nanoseconds - now.nanoseconds; omega)
  have hwait' := waitMs_toInt hhead hnow0 htime
  rw [hleft, Int.bmod_def] at hwait'
  split_ifs at hwait hwait' <;> omega

end Far

/-- The loop serves the first timer as it should exactly when the milliseconds left fit an `int`. -/
theorem serves_iff (hwaiting : s.Waiting) (hfirst : s.timerSet.head? = some first) (hclock : 0 ≤ s.clock.nanoseconds)
    (htime : 0 ≤ first.newTimestamp.nanoseconds) :
    Serves capacity s first ↔ first.newTimestamp.nanoseconds - s.clock.nanoseconds < 2 ^ 31 * 1000000 := by
  constructor
  · intro h
    by_contra hfar
    exact not_serves_of_far hfirst hclock htime (not_lt.mp hfar) hwaiting h
  · intro hnear
    exact serves_of_near hfirst hclock htime hnear hwaiting

def farReset (ms : Int64) : List TimerThreadEvent :=
  [.reset 0 9 ⟨1000000000 + ms * 1000000⟩ ⟨0⟩, .lock 0, .write 0, .unlock 0, .test, .poll 1, .readClock,
    .readWeakup, .expire, .next, .test, .poll 1, .readClock, .readWeakup, .expire, .next]

theorem serves_iff_second : ∃ (s : TimerThread) (first : Reset),
    Run (Next (step 65536)) (init ⟨1000000000⟩) (farReset 1500) s ∧ first.newTimestamp.nanoseconds = 2500000000 ∧
      (Serves 65536 s first ↔ first.newTimestamp.nanoseconds - s.clock.nanoseconds < 2 ^ 31 * 1000000) := by
  have hexec : (exec (step 65536) (init ⟨1000000000⟩) (farReset 1500)).map
      (fun s => (s.timerFunc, s.mutex, s.weakup, s.timerSet, s.clock)) =
        some (.testing, none, 0, [⟨0, 0, 9, ⟨2500000000⟩, ⟨0⟩⟩], ⟨1000000000⟩) := by decide +kernel
  obtain ⟨s, hrun, hs⟩ := run_of_exec_map _ hexec
  simp only [Prod.mk.injEq] at hs
  obtain ⟨htesting, hmutex, hdrained, hset, hclock⟩ := hs
  have hclock0 : 0 ≤ s.clock.nanoseconds := by
    rw [hclock]
    decide
  have htime : 0 ≤ (⟨0, 0, 9, ⟨2500000000⟩, ⟨0⟩⟩ : Reset).newTimestamp.nanoseconds := by decide
  exact ⟨s, _, hrun, by decide, serves_iff ⟨htesting, hmutex, hdrained⟩ (by rw [hset]; rfl) hclock0 htime⟩

theorem far_timer_never_served : ∃ (s : TimerThread) (first : Reset),
    Run (Next (step 65536)) (init ⟨1000000000⟩) (farReset 2147483648) s ∧ s.timerSet = [first] ∧
      first.newTimestamp.nanoseconds = 1000000000 + 2 ^ 31 * 1000000 ∧ s.waitMs = -2147483648 ∧
      ¬ Serves 65536 s first := by
  have hexec : (exec (step 65536) (init ⟨1000000000⟩) (farReset 2147483648)).map
      (fun s => (s.timerSet, s.waitMs)) =
        some ([⟨0, 0, 9, ⟨2147484648000000⟩, ⟨0⟩⟩], -2147483648) := by decide +kernel
  obtain ⟨s, hrun, hs⟩ := run_of_exec_map _ hexec
  simp only [Prod.mk.injEq] at hs
  obtain ⟨hset, hwait⟩ := hs
  refine ⟨s, _, hrun, hset, by decide, hwait, ?_⟩
  intro h
  obtain ⟨hpos, _⟩ := h.timeout [] s .nil (by simp [Unpopped])
  rw [hwait] at hpos
  exact absurd hpos (by decide)

end TimerThread

end Penduo
