import Penduo.Library.Deadlines
import Penduo.SimulatedLoop
import Penduo.TimerRuns

set_option autoImplicit false

namespace Penduo

open LabelledRuns

def HandleRead.now : HandleRead → Option Timestamp
  | .idle => none
  | .reading now | .expiring now | .running now _ | .calling now _ => some now

namespace TimerLoop

variable {s s' : TimerLoop} {e : TimerEvent} {clock : Timestamp} {es : List TimerEvent}

/-- What the timers of a loop look like to the code that adds them. -/
def deadlines (s : TimerLoop) : Deadlines Timer Timestamp :=
  { clock := s.clock, added := s.added, fired := s.runs,
    waiting := s.pendingFunctors + s.functors + s.queue.timerList + s.handleRead.rest }

theorem Moves.now_le (h : ∀ now, s.handleRead.now = some now → now ≤ s.clock) (hm : Moves s e s') :
    ∀ now, s'.handleRead.now = some now → now ≤ s'.clock := by
  cases hm with
  | tick now hle => exact fun now' hnow => (h now' hnow).trans hle
  | readClock hidle =>
    rintro now ⟨⟩
    exact le_rfl
  | readFd now hread | getExpired now _ _ hread | call now _ _ hread | ret now _ hread =>
    rintro now' ⟨⟩
    exact h now (by rw [hread]; rfl)
  | reset now hread =>
    rintro now' ⟨⟩
  | _ => exact h

theorem Accounted.not_added (h : s.Accounted) {t : Timer} (hserial : t.serial = s.added.length) : t ∉ s.added := by
  intro hmem
  have hlt := List.mem_map_of_mem (f := Timer.serial) hmem
  rw [h.serials, List.mem_range, hserial] at hlt
  exact lt_irrefl _ hlt

theorem Moves.deadlines (hk : s.Kept) (ha : s.Accounted) (hd : s.Due)
    (hnow : ∀ now, s.handleRead.now = some now → now ≤ s.clock) (hm : Moves s e s') :
    s'.deadlines = s.deadlines ∨ ∃ a, Deadlines.Step Timer.expirationTs s.deadlines a s'.deadlines := by
  cases hm with
  | tick now hle => exact Or.inr ⟨_, .tick now hle⟩
  | expire expiry _ _ => exact Or.inl rfl
  | addTimer t huser hnew =>
    have hstep : Deadlines.Step Timer.expirationTs s.deadlines (.add t) _ :=
      .add t (ha.not_added (newTimer_spec hnew).2.1)
    refine Or.inr ⟨.add t, ?_⟩
    convert hstep using 1
    simp only [TimerLoop.deadlines, TimerQueue.addTimerInLoop_timerList, coe_insert (fresh_newTimer hnew),
      Deadlines.mk.injEq, true_and, and_true, ← Multiset.singleton_add]
    abel
  | addTimerElsewhere t hnew =>
    have hstep : Deadlines.Step Timer.expirationTs s.deadlines (.add t) _ :=
      .add t (ha.not_added (newTimer_spec hnew).2.1)
    refine Or.inr ⟨.add t, ?_⟩
    convert hstep using 1
    simp only [TimerLoop.deadlines, coe_snoc, Deadlines.mk.injEq, true_and, and_true, ← Multiset.singleton_add]
    abel
  | swap hidle hempty =>
    left
    simp [TimerLoop.deadlines, hempty]
  | runFunctor t functors hidle hfunctors =>
    left
    simp only [TimerLoop.deadlines, TimerQueue.addTimerInLoop_timerList, coe_insert (hk.fresh_functor hfunctors),
      hfunctors, coe_cons, Deadlines.mk.injEq, true_and, and_true]
    abel
  | readClock hread | readFd _ hread | ret _ _ hread =>
    left
    simp [TimerLoop.deadlines, hread, HandleRead.rest]
  | reset now hread =>
    left
    simp [TimerLoop.deadlines, hread, HandleRead.rest, TimerQueue.reset_timerList]
  | getExpired now expired timerList hread hlist _ =>
    left
    simp only [TimerLoop.deadlines, hread, HandleRead.rest, hlist, ← Multiset.coe_add, Multiset.coe_nil,
      Deadlines.mk.injEq, true_and, and_true]
    abel
  | call now t rest hread =>
    right
    refine ⟨.fire t now, .fire t _ now ?_ ?_ ?_⟩
    · simp only [TimerLoop.deadlines, hread, HandleRead.rest, coe_cons, ← Multiset.singleton_add]
      abel
    · exact hd.waiting now _ (Or.inl hread) t (by simp)
    · exact hnow now (by rw [hread]; rfl)

theorem run_deadlines (hclock : 0 ≤ clock.nanoseconds) (h : Run (Next step) (init clock) es s) :
    ∃ ds, Run (Deadlines.Step Timer.expirationTs) (Deadlines.start clock) ds s.deadlines := by
  have hsim : ∃ ds a, Run (Deadlines.Step Timer.expirationTs) (Deadlines.start clock) ds a ∧
      (s.Kept ∧ s.Accounted) ∧ s.Due ∧ (∀ now, s.handleRead.now = some now → now ≤ s.clock) ∧ s.deadlines = a :=
    h.simulation (R := fun s a => (s.Kept ∧ s.Accounted) ∧ s.Due ∧
      (∀ now, s.handleRead.now = some now → now ≤ s.clock) ∧ s.deadlines = a) ?_ ?_
  · obtain ⟨ds, _, hrun, _, _, _, rfl⟩ := hsim
    exact ⟨ds, hrun⟩
  · rintro s e s' _ ⟨⟨hk, ha⟩, hd, hnow, rfl⟩ hn
    have hm := moves_of_step hn
    have hkept := And.intro (hm.kept hk) (hm.accounted hk ha)
    rcases hm.deadlines hk ha hd hnow with hsame | ⟨a, hstep⟩
    · exact ⟨[], _, .nil, hkept, hm.due hd, hm.now_le hnow, hsame⟩
    · exact ⟨[a], _, Run.single hstep, hkept, hm.due hd, hm.now_le hnow, rfl⟩
  · refine ⟨⟨init_kept hclock, rfl, rfl, rfl⟩, ⟨?_, ?_⟩, ?_, rfl⟩
    · simp [init]
    · simp [init]
    · simp [init, HandleRead.now]

end TimerLoop

namespace Timerfds

variable {capacity : ℕ} {s s' : Timerfds} {e : TimerfdEvent} {i : ℕ}

theorem Moves.clock_le (hm : Moves capacity s e s') : s.thread.clock ≤ s'.thread.clock := by
  cases hm with
  | thread e thread hm he hwrite =>
    cases hm with
    | tick now hle => exact hle
    | _ => exact le_rfl
  | _ => exact le_rfl

theorem Moves.clock_of_client (hm : Moves capacity s e s') (hclient : e.client = some i) :
    s'.thread.clock = s.thread.clock := by
  cases hm with
  | thread | written | create | openFd | closeFd => cases hclient
  | _ => rfl

end Timerfds

namespace SimulatedLoop

variable {capacity : ℕ} {s s' s0 : SimulatedLoop} {e : SimulatedEvent} {timerfds : Timerfds} {readFd writeFd : ℕ}
  {es : List SimulatedEvent}

def deadlines (s : SimulatedLoop) : Deadlines Timer Timestamp :=
  { clock := s.clock, added := s.added, fired := s.runs,
    waiting := s.pendingFunctors + s.functors + s.timerList + s.handleRead.rest }

def withNaive (s : SimulatedLoop) (timerfd : TimerfdNaive) : TimerLoop :=
  { clock := s.clock, queue := { timerfd, timerList := s.timerList }, handleRead := s.handleRead,
    expired := s.expired, pendingFunctors := s.pendingFunctors, functors := s.functors, added := s.added,
    inserted := s.inserted, taken := s.taken, runs := s.runs }

theorem addTimerInLoop_eq (q : TimerQueue) (now : Timestamp) (t : Timer) : q.addTimerInLoop now t =
    { timerfd := (q.addTimerInLoop now t).timerfd, timerList := OrderedSet.insert Timer.key t q.timerList } := by
  rw [← TimerQueue.addTimerInLoop_timerList q now t]

theorem reset_eq (q : TimerQueue) (now : Timestamp) :
    q.reset now = { timerfd := (q.reset now).timerfd, timerList := q.timerList } := by
  rw [← TimerQueue.reset_timerList q now]

theorem Rearms.clock {timer : Timer} (h : s.Rearms capacity timer timerfds) :
    timerfds.thread.clock = s.clock := by
  cases h with
  | reset _ _ hm => exact hm.clock_of_client rfl
  | keep first _ _ => rfl

theorem Resets.clock (h : s.Resets capacity timerfds) : timerfds.thread.clock = s.clock := by
  cases h with
  | first _ first _ hm => exact hm.clock_of_client rfl
  | none _ => rfl

theorem Moves.withNaive (hm : Moves capacity s e s') (timerfd : TimerfdNaive) :
    ∃ fs timerfd', Run (Next TimerLoop.step) (s.withNaive timerfd) fs (s'.withNaive timerfd') := by
  cases hm with
  | elsewhere e timerfds hother hm =>
    refine ⟨[.tick timerfds.thread.clock], timerfd, Run.single ?_⟩
    exact if_pos hm.clock_le
  | returned timerfds hm =>
    refine ⟨[], timerfd, ?_⟩
    have hsame : SimulatedLoop.withNaive { s with timerfds } timerfd = s.withNaive timerfd := by
      simp only [SimulatedLoop.withNaive, SimulatedLoop.clock, hm.clock_of_client rfl]
    rw [hsame]
    exact .nil
  | addTimer t timerfds huser hnew hrearms =>
    refine ⟨[.addTimer t.address t.expirationTs],
      ((s.withNaive timerfd).queue.addTimerInLoop s.clock t).timerfd, Run.single ?_⟩
    have hadded : (s.withNaive timerfd).newTimer t.address t.expirationTs = some t := hnew
    have huser' : (s.withNaive timerfd).handleRead.userCode = true := huser
    simp only [Next, TimerLoop.step, if_pos huser', hadded, Option.map_some]
    rw [addTimerInLoop_eq]
    simp [SimulatedLoop.withNaive, SimulatedLoop.clock, hrearms.clock]
  | addTimerElsewhere t hnew =>
    refine ⟨[.addTimerElsewhere t.address t.expirationTs], timerfd, Run.single ?_⟩
    have hadded : (s.withNaive timerfd).newTimer t.address t.expirationTs = some t := hnew
    simp only [Next, TimerLoop.step, hadded, Option.map_some]
    rfl
  | swap hidle hempty => exact ⟨[.swap], timerfd, Run.single (if_pos ⟨hidle, hempty⟩)⟩
  | runFunctor t functors timerfds hidle hfunctors hrearms =>
    refine ⟨[.runFunctor], ((s.withNaive timerfd).queue.addTimerInLoop s.clock t).timerfd, Run.single ?_⟩
    have hidle' : (s.withNaive timerfd).handleRead = .idle := hidle
    have hfunctors' : (s.withNaive timerfd).functors = t :: functors := hfunctors
    simp only [Next, TimerLoop.step, if_pos hidle', hfunctors']
    rw [addTimerInLoop_eq]
    simp [SimulatedLoop.withNaive, SimulatedLoop.clock, hrearms.clock]
  | readClock hidle hempty hunread => exact ⟨[.readClock], timerfd, Run.single (if_pos ⟨hidle, hempty⟩)⟩
  | readFd now timerfds hread hm =>
    refine ⟨[.readFd], timerfd.read, Run.single ?_⟩
    have hread' : (s.withNaive timerfd).handleRead = .reading now := hread
    simp only [Next, TimerLoop.step, hread']
    simp [SimulatedLoop.withNaive, SimulatedLoop.clock, hm.clock_of_client rfl]
  | getExpired now hread =>
    refine ⟨[.getExpired], timerfd, Run.single ?_⟩
    have hread' : (s.withNaive timerfd).handleRead = .expiring now := hread
    simp only [Next, TimerLoop.step, hread']
    rfl
  | call now t rest hread =>
    refine ⟨[.call], timerfd, Run.single ?_⟩
    have hread' : (s.withNaive timerfd).handleRead = .running now (t :: rest) := hread
    simp only [Next, TimerLoop.step, hread']
    rfl
  | ret now rest hread =>
    refine ⟨[.ret], timerfd, Run.single ?_⟩
    have hread' : (s.withNaive timerfd).handleRead = .calling now rest := hread
    simp only [Next, TimerLoop.step, hread']
    rfl
  | reset now timerfds hread hresets =>
    refine ⟨[.reset], ((s.withNaive timerfd).queue.reset s.clock).timerfd, Run.single ?_⟩
    have hread' : (s.withNaive timerfd).handleRead = .running now [] := hread
    simp only [Next, TimerLoop.step, hread']
    rw [reset_eq]
    simp [SimulatedLoop.withNaive, SimulatedLoop.clock, hresets.clock]

theorem run_withNaive (h : Run (Next (step capacity)) s0 es s) (timerfd : TimerfdNaive) :
    ∃ fs timerfd', Run (Next TimerLoop.step) (s0.withNaive timerfd) fs (s.withNaive timerfd') := by
  have hsim : ∃ fs t, Run (Next TimerLoop.step) (s0.withNaive timerfd) fs t ∧ ∃ timerfd', t = s.withNaive timerfd' :=
    h.simulation (R := fun s t => ∃ timerfd, t = s.withNaive timerfd) ?_ ⟨timerfd, rfl⟩
  · obtain ⟨fs, _, hrun, timerfd', rfl⟩ := hsim
    exact ⟨fs, timerfd', hrun⟩
  · rintro s e s' _ ⟨timerfd, rfl⟩ hn
    obtain ⟨fs, timerfd', hrun⟩ := (moves_of_step hn).withNaive timerfd
    exact ⟨fs, _, hrun, timerfd', rfl⟩

end SimulatedLoop

end Penduo
