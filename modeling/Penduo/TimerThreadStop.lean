import Penduo.TimerThreadLife

set_option autoImplicit false

namespace Penduo

open LabelledRuns

namespace TimerThreadLife

variable {capacity : ℕ} {s s' : TimerThreadLife} {e : LifeEvent} {clock : Timestamp} {es : List LifeEvent}

/-- `TimerFunc` will neither find a wake-up byte in the pipe nor see its timeout elapsed. -/
def Asleep (s : TimerThreadLife) : Prop :=
  s.timer.weakup = 0 ∧ ∃ waitMs, s.timer.timerFunc = .polling waitMs ∧ ¬ s.Waited waitMs

/-- The destructor waits for a `TimerFunc` that waits for its timers. -/
structure StopIgnored (s : TimerThreadLife) : Prop where
  cleared : s.threadRunning = false
  joining : s.owner = .joining
  asleep : s.Asleep

structure Stoppable (s : TimerThreadLife) : Prop where
  unstarted : s.owner = .starting → s.func = .unstarted
  running : s.threadRunning = true → s.func = .looping
  constructed : s.owner = .constructed → s.threadRunning = true
  joining : s.owner = .joining → s.threadRunning = false ∧ (s.func = .looping ∨ s.func = .returned) ∧ ¬ s.Asleep

theorem asleep_of_timer {timer : TimerThread} {te : TimerThreadEvent} (he : te ≠ .test)
    (hm : TimerThread.Moves capacity s.timer te timer) (h : ({ s with timer := timer } : TimerThreadLife).Asleep) :
    s.Asleep := by
  obtain ⟨hweakup, waitMs, hpolling, hwaited⟩ := h
  cases hm with
  | tick now hle =>
    refine ⟨hweakup, waitMs, hpolling, ?_⟩
    rintro ⟨since, hsince, hwait, hdue⟩
    exact hwaited ⟨since, hsince, hwait, hdue.trans hle⟩
  | reset | lock | unlock => exact ⟨hweakup, waitMs, hpolling, hwaited⟩
  | write =>
    have hbytes : s.timer.weakup + TimerThread.weakFdWriteSize = 0 := hweakup
    exact ⟨(Nat.add_eq_zero_iff.mp hbytes).1, waitMs, hpolling, hwaited⟩
  | test => exact absurd rfl he
  | _ => simp at hpolling

theorem Stoppable.timer {timer : TimerThread} {te : TimerThreadEvent} (h : s.Stoppable) (he : te ≠ .test)
    (hm : TimerThread.Moves capacity s.timer te timer) : ({ s with timer := timer } : TimerThreadLife).Stoppable where
  unstarted := h.unstarted
  running := h.running
  constructed := h.constructed
  joining howner := by
    obtain ⟨hcleared, hfunc, hawake⟩ := h.joining howner
    exact ⟨hcleared, hfunc, fun hasleep => hawake (asleep_of_timer he hm hasleep)⟩

theorem Moves.stoppable (h : s.Stoppable) (hnoticed : e = .clearRunning → ¬ s.Asleep) (hm : Moves capacity s e s') :
    s'.Stoppable := by
  have hunstarted := h.unstarted
  have hrunning := h.running
  have hconstructed := h.constructed
  have hjoining := h.joining
  cases hm with
  | start howner =>
    refine ⟨by simp, fun hset => ?_, by simp, by simp⟩
    simp [hunstarted howner] at hrunning
    simp [hrunning] at hset
  | pipe readFd howner => exact ⟨by simp, hrunning, by simp, by simp⟩
  | awaitRunning howner hset => exact ⟨by simp, hrunning, fun _ => hset, by simp⟩
  | clearRunning howner =>
    refine ⟨by simp, by simp, by simp, fun _ => ⟨rfl, Or.inl (hrunning (hconstructed howner)), ?_⟩⟩
    exact hnoticed rfl
  | join howner hfunc => exact ⟨by simp, hrunning, by simp, by simp⟩
  | copyFd hfunc =>
    refine ⟨fun howner => ?_, fun hset => ?_, hconstructed, fun howner => ?_⟩
    · simp [hunstarted howner] at hfunc
    · simp [hrunning hset] at hfunc
    · simp [hfunc] at hjoining
      exact absurd howner hjoining
  | setRunning hfunc =>
    refine ⟨fun howner => ?_, fun _ => rfl, fun _ => rfl, fun howner => ?_⟩
    · simp [hunstarted howner] at hfunc
    · simp [hfunc] at hjoining
      exact absurd howner hjoining
  | test hfunc hset =>
    refine ⟨hunstarted, fun _ => hfunc, hconstructed, fun howner => ?_⟩
    simp [(hjoining howner).1] at hset
  | leave hfunc htesting hcleared =>
    refine ⟨fun howner => ?_, fun hset => ?_, hconstructed, fun howner => ⟨hcleared, Or.inr rfl, ?_⟩⟩
    · simp [hunstarted howner] at hfunc
    · simp [hcleared] at hset
    · exact (hjoining howner).2.2
  | enterPoll waitMs hpolling hsince =>
    refine ⟨hunstarted, hrunning, hconstructed, fun howner => ?_⟩
    obtain ⟨hcleared, hfunc, hawake⟩ := hjoining howner
    refine ⟨hcleared, hfunc, ?_⟩
    rintro ⟨hweakup, waitMs', hpolling', _⟩
    refine hawake ⟨hweakup, waitMs', hpolling', ?_⟩
    rintro ⟨since, hmem, _⟩
    simp [hsince] at hmem
  | poll ret hpolling =>
    refine ⟨hunstarted, hrunning, hconstructed, fun howner => ⟨(hjoining howner).1, (hjoining howner).2.1, ?_⟩⟩
    rintro ⟨_, waitMs', hpolling', _⟩
    simp at hpolling'
  | readWeakup now weakup hreading =>
    refine ⟨hunstarted, hrunning, hconstructed, fun howner => ⟨(hjoining howner).1, (hjoining howner).2.1, ?_⟩⟩
    rintro ⟨_, waitMs', hpolling', _⟩
    simp at hpolling'
  | reset caller writeFd newTimestamp oldTimestamp timer hm => exact h.timer (by simp) hm
  | thread te timer he hm =>
    apply h.timer _ hm
    rintro rfl
    simp [TimerThreadEvent.unaffected] at he

theorem init_stoppable (clock : Timestamp) : (init clock).Stoppable :=
  ⟨fun _ => rfl, by simp [init], by simp [init], by simp [init]⟩

theorem run_stoppable (h : Run (Next (step capacity)) (init clock) es s)
    (hnoticed : ∀ before after q, es = before ++ .clearRunning :: after →
      Run (Next (step capacity)) (init clock) before q → ¬ q.Asleep) : s.Stoppable := by
  induction h with
  | nil => exact init_stoppable clock
  | @snoc es s e s' hrun hn ih =>
    have hbefore : s.Stoppable := by
      apply ih
      rintro before after q rfl hq
      exact hnoticed before (after ++ [e]) q (by simp) hq
    apply (moves_of_step hn).stoppable hbefore
    rintro rfl
    exact hnoticed es [] s rfl hrun

/-- The destructor never waits for timers exactly when, each time the flag was cleared, `TimerFunc`
was awake or about to be woken up by something else. -/
theorem stop_noticed_iff (h : Run (Next (step capacity)) (init clock) es s) :
    (∀ before after q, es = before ++ after → Run (Next (step capacity)) (init clock) before q → ¬ q.StopIgnored) ↔
      ∀ before after q, es = before ++ .clearRunning :: after → Run (Next (step capacity)) (init clock) before q →
        ¬ q.Asleep := by
  constructor
  · rintro hall before after q rfl hq hasleep
    have hsplit : before ++ .clearRunning :: after = (before ++ [.clearRunning]) ++ after := by simp
    obtain ⟨u, hu, _⟩ := (hsplit ▸ h).split
    obtain ⟨q', hq', hn⟩ := hu.snoc_inv
    obtain rfl := hq.unique hq'
    have hm := moves_of_step hn
    apply hall (before ++ [.clearRunning]) after u hsplit hu
    cases hm with
    | clearRunning howner => exact ⟨rfl, rfl, hasleep⟩
  · rintro hnoticed before after q rfl hq hignored
    have hstoppable := run_stoppable hq fun b a u hb hu => hnoticed b (a ++ after) u (by simp [hb]) hu
    exact (hstoppable.joining hignored.joining).2.2 hignored.asleep

def stoppedAfterReset : List LifeEvent :=
  [.start, .pipe 3, .copyFd, .setRunning, .awaitRunning, .test, .enterPoll, .reset 0 9 ⟨5⟩ ⟨0⟩, .thread (.lock 0),
    .thread (.write 0), .thread (.unlock 0), .clearRunning]

theorem stop_noticed_iff_woken : ∃ s : TimerThreadLife,
    Run (Next (step 65536)) (init ⟨1⟩) stoppedAfterReset s ∧ s.owner = .joining ∧ s.timer.weakup = 8 ∧
      ((∀ before after q, stoppedAfterReset = before ++ after →
          Run (Next (step 65536)) (init ⟨1⟩) before q → ¬ q.StopIgnored) ↔
        ∀ before after q, stoppedAfterReset = before ++ .clearRunning :: after →
          Run (Next (step 65536)) (init ⟨1⟩) before q → ¬ q.Asleep) := by
  have hexec : (exec (step 65536) (init ⟨1⟩) stoppedAfterReset).map (fun s => (s.owner, s.timer.weakup)) =
      some (.joining, 8) := by decide +kernel
  obtain ⟨s, hrun, hs⟩ := run_of_exec_map _ hexec
  simp only [Prod.mk.injEq] at hs
  exact ⟨s, hrun, hs.1, hs.2, stop_noticed_iff hrun⟩

def stoppedAsleep : List LifeEvent :=
  [.start, .pipe 3, .copyFd, .setRunning, .awaitRunning, .test, .enterPoll, .clearRunning]

theorem stop_waits_for_poll : ∃ s : TimerThreadLife,
    Run (Next (step 65536)) (init ⟨1⟩) stoppedAsleep s ∧ s.timer.timerSet = [] ∧ s.StopIgnored := by
  have hexec : (exec (step 65536) (init ⟨1⟩) stoppedAsleep).map
      (fun s => (s.owner, s.threadRunning, s.timer.timerSet, s.timer.weakup, s.timer.timerFunc)) =
        some (.joining, false, [], 0, .polling 10000) := by decide +kernel
  have hwaited : (exec (step 65536) (init ⟨1⟩) stoppedAsleep).map (fun s => decide (s.Waited 10000)) =
      some false := by decide +kernel
  obtain ⟨s, hrun, hs⟩ := run_of_exec_map _ hexec
  obtain ⟨s', hrun', hs'⟩ := run_of_exec_map _ hwaited
  obtain rfl := hrun.unique hrun'
  simp only [Prod.mk.injEq] at hs
  obtain ⟨howner, hcleared, hset, hweakup, hpolling⟩ := hs
  exact ⟨s, hrun, hset, hcleared, howner, hweakup, 10000, hpolling, by simpa using hs'⟩

end TimerThreadLife

end Penduo
