import Penduo.TimerLoop
import Penduo.TimerfdTokens

set_option autoImplicit false

namespace Penduo

open LabelledRuns

/-- The timers of an `EventLoop` built with `TimerfdThreadSimulation`: its `TimerQueue`, and the
process's timer thread with the instances of all loops. -/
structure SimulatedLoop where
  timerfds : Timerfds
  timerfd : ℕ
  timerList : List Timer
  handleRead : HandleRead
  expired : List Timer
  pendingFunctors : List Timer
  functors : List Timer
  added : List Timer
  inserted : List Timer
  taken : List Timer
  runs : List (Timer × Timestamp)

inductive SimulatedEvent
  | elsewhere (e : TimerfdEvent)
  | addTimer (address : ℕ) (when : Timestamp)
  | addTimerElsewhere (address : ℕ) (when : Timestamp)
  | swap
  | runFunctor
  | readClock
  | readFd
  | getExpired
  | call
  | ret
  | reset
  | returned
deriving DecidableEq, Repr

def TimerfdEvent.client : TimerfdEvent → Option ℕ
  | .reset i _ | .returned i | .read i | .destroy i => some i
  | _ => none

namespace SimulatedLoop

def construct (capacity : ℕ) (timerfds : Timerfds) (readFd writeFd : ℕ) : Option SimulatedLoop :=
  (timerfds.step capacity (.create readFd writeFd)).map fun timerfds' =>
    { timerfds := timerfds', timerfd := timerfds.created, timerList := [], handleRead := .idle, expired := [],
      pendingFunctors := [], functors := [], added := [], inserted := [], taken := [], runs := [] }

def clock (s : SimulatedLoop) : Timestamp := s.timerfds.thread.clock

def resetting (s : SimulatedLoop) : Bool := (s.timerfds.timerfd s.timerfd).any fun t => t.resetting.isSome

def live (s : SimulatedLoop) : List Timer := s.pendingFunctors ++ s.functors ++ s.timerList ++ s.expired

def newTimer (s : SimulatedLoop) (address : ℕ) (when : Timestamp) : Option Timer :=
  if 0 ≤ when.nanoseconds ∧ ∀ t ∈ s.live, t.address ≠ address then some ⟨s.added.length, address, when⟩
  else none

def insert (s : SimulatedLoop) (timer : Timer) : Bool × SimulatedLoop :=
  let earliestChanged := match s.timerList.head? with
    | none => true
    | some first => decide (timer.expirationTs < first.expirationTs)
  (earliestChanged, { s with timerList := OrderedSet.insert Timer.key timer s.timerList })

-- `timerfd_->reset(expiration)`, up to the lock of `TimerThread::reset`.
def resetTimerfd (capacity : ℕ) (s : SimulatedLoop) (expiration : Timestamp) : Option SimulatedLoop :=
  (s.timerfds.step capacity (.reset s.timerfd expiration)).map fun timerfds => { s with timerfds }

def addTimerInLoop (capacity : ℕ) (s : SimulatedLoop) (timer : Timer) : Option SimulatedLoop :=
  let (earliestChanged, s) := s.insert timer
  if earliestChanged then s.resetTimerfd capacity timer.expirationTs else some s

def reset (capacity : ℕ) (s : SimulatedLoop) : Option SimulatedLoop :=
  match s.timerList.head? with
  | some first => s.resetTimerfd capacity first.expirationTs
  | none => some s

def step (capacity : ℕ) (s : SimulatedLoop) : SimulatedEvent → Option SimulatedLoop
  | .elsewhere e =>
    if e.client ≠ some s.timerfd then (s.timerfds.step capacity e).map fun timerfds => { s with timerfds } else none
  | .returned => (s.timerfds.step capacity (.returned s.timerfd)).map fun timerfds => { s with timerfds }
  | .addTimer address when =>
    if s.handleRead.userCode ∧ s.resetting = false then
      (s.newTimer address when).bind fun t =>
        { s with added := s.added ++ [t], inserted := s.inserted ++ [t] }.addTimerInLoop capacity t
    else none
  | .addTimerElsewhere address when =>
    (s.newTimer address when).map fun t =>
      { s with pendingFunctors := s.pendingFunctors ++ [t], added := s.added ++ [t] }
  | .swap =>
    if s.handleRead = .idle ∧ s.functors = [] ∧ s.resetting = false then
      some { s with functors := s.pendingFunctors, pendingFunctors := [] }
    else none
  | .runFunctor =>
    match s.functors with
    | t :: functors =>
      if s.handleRead = .idle ∧ s.resetting = false then
        { s with functors, inserted := s.inserted ++ [t] }.addTimerInLoop capacity t
      else none
    | [] => none
  -- `handle_read` is called when `::poll` has found a token in the pipe
  | .readClock =>
    if s.handleRead = .idle ∧ s.functors = [] ∧ s.resetting = false ∧ 0 < s.timerfds.unread s.timerfd then
      some { s with handleRead := .reading s.clock }
    else none
  | .readFd =>
    match s.handleRead with
    | .reading now =>
      (s.timerfds.step capacity (.read s.timerfd)).map fun timerfds =>
        { s with timerfds, handleRead := .expiring now }
    | _ => none
  | .getExpired =>
    match s.handleRead with
    | .expiring now =>
      let (expired, timerList) := TimerQueue.getExpired now s.timerList
      some { s with handleRead := .running now expired, expired, timerList, taken := s.taken ++ expired }
    | _ => none
  | .call =>
    match s.handleRead with
    | .running now (t :: rest) =>
      if s.resetting = false then some { s with handleRead := .calling now rest, runs := s.runs ++ [(t, now)] }
      else none
    | _ => none
  | .ret =>
    match s.handleRead with
    | .calling now rest => if s.resetting = false then some { s with handleRead := .running now rest } else none
    | _ => none
  | .reset =>
    match s.handleRead with
    | .running _ [] => { s with handleRead := .idle, expired := [] }.reset capacity
    | _ => none

variable {capacity : ℕ} {s s' : SimulatedLoop} {e : SimulatedEvent} {timer : Timer}

inductive Rearms (capacity : ℕ) (s : SimulatedLoop) (timer : Timer) : Timerfds → Prop
  | reset (timerfds : Timerfds)
      (hfirst : ∀ first, s.timerList.head? = some first → timer.expirationTs < first.expirationTs)
      (hm : s.timerfds.Moves capacity (.reset s.timerfd timer.expirationTs) timerfds) : Rearms capacity s timer timerfds
  | keep (first : Timer) (hfirst : s.timerList.head? = some first)
      (hle : first.expirationTs ≤ timer.expirationTs) : Rearms capacity s timer s.timerfds

inductive Resets (capacity : ℕ) (s : SimulatedLoop) : Timerfds → Prop
  | first (timerfds : Timerfds) (first : Timer) (hfirst : s.timerList.head? = some first)
      (hm : s.timerfds.Moves capacity (.reset s.timerfd first.expirationTs) timerfds) : Resets capacity s timerfds
  | none (hnone : s.timerList.head? = none) : Resets capacity s s.timerfds

inductive Moves (capacity : ℕ) (s : SimulatedLoop) : SimulatedEvent → SimulatedLoop → Prop
  | elsewhere (e : TimerfdEvent) (timerfds : Timerfds) (hother : e.client ≠ some s.timerfd)
      (hm : s.timerfds.Moves capacity e timerfds) : Moves capacity s (.elsewhere e) { s with timerfds := timerfds }
  | returned (timerfds : Timerfds) (hm : s.timerfds.Moves capacity (.returned s.timerfd) timerfds) :
      Moves capacity s .returned { s with timerfds := timerfds }
  | addTimer (t : Timer) (timerfds : Timerfds) (huser : s.handleRead.userCode = true)
      (hnew : s.newTimer t.address t.expirationTs = some t) (hrearms : s.Rearms capacity t timerfds) :
      Moves capacity s (.addTimer t.address t.expirationTs)
        { s with timerfds := timerfds, timerList := OrderedSet.insert Timer.key t s.timerList,
                 added := s.added ++ [t], inserted := s.inserted ++ [t] }
  | addTimerElsewhere (t : Timer) (hnew : s.newTimer t.address t.expirationTs = some t) :
      Moves capacity s (.addTimerElsewhere t.address t.expirationTs)
        { s with pendingFunctors := s.pendingFunctors ++ [t], added := s.added ++ [t] }
  | swap (hidle : s.handleRead = .idle) (hempty : s.functors = []) :
      Moves capacity s .swap { s with functors := s.pendingFunctors, pendingFunctors := [] }
  | runFunctor (t : Timer) (functors : List Timer) (timerfds : Timerfds) (hidle : s.handleRead = .idle)
      (hfunctors : s.functors = t :: functors) (hrearms : s.Rearms capacity t timerfds) :
      Moves capacity s .runFunctor
        { s with timerfds := timerfds, timerList := OrderedSet.insert Timer.key t s.timerList,
                 functors := functors, inserted := s.inserted ++ [t] }
  | readClock (hidle : s.handleRead = .idle) (hempty : s.functors = []) (hunread : 0 < s.timerfds.unread s.timerfd) :
      Moves capacity s .readClock { s with handleRead := .reading s.clock }
  | readFd (now : Timestamp) (timerfds : Timerfds) (hread : s.handleRead = .reading now)
      (hm : s.timerfds.Moves capacity (.read s.timerfd) timerfds) :
      Moves capacity s .readFd { s with timerfds := timerfds, handleRead := .expiring now }
  | getExpired (now : Timestamp) (hread : s.handleRead = .expiring now) :
      Moves capacity s .getExpired
        { s with handleRead := .running now (TimerQueue.getExpired now s.timerList).1,
                 expired := (TimerQueue.getExpired now s.timerList).1,
                 timerList := (TimerQueue.getExpired now s.timerList).2,
                 taken := s.taken ++ (TimerQueue.getExpired now s.timerList).1 }
  | call (now : Timestamp) (t : Timer) (rest : List Timer) (hread : s.handleRead = .running now (t :: rest)) :
      Moves capacity s .call { s with handleRead := .calling now rest, runs := s.runs ++ [(t, now)] }
  | ret (now : Timestamp) (rest : List Timer) (hread : s.handleRead = .calling now rest) :
      Moves capacity s .ret { s with handleRead := .running now rest }
  | reset (now : Timestamp) (timerfds : Timerfds) (hread : s.handleRead = .running now [])
      (hresets : s.Resets capacity timerfds) :
      Moves capacity s .reset { s with timerfds := timerfds, handleRead := .idle, expired := [] }

theorem newTimer_eq {address : ℕ} {when : Timestamp} {t : Timer} (h : s.newTimer address when = some t) :
    t.address = address ∧ t.expirationTs = when := by
  simp only [newTimer, Option.ite_none_right_eq_some, Option.some.injEq] at h
  obtain ⟨_, rfl⟩ := h
  exact ⟨rfl, rfl⟩

theorem resetTimerfd_moves {expiration : Timestamp} (h : s.resetTimerfd capacity expiration = some s') :
    ∃ timerfds, s.timerfds.Moves capacity (.reset s.timerfd expiration) timerfds ∧
      s' = { s with timerfds := timerfds } := by
  obtain ⟨timerfds, hstep, rfl⟩ := Option.map_eq_some_iff.mp h
  exact ⟨timerfds, Timerfds.moves_of_step hstep, rfl⟩

theorem addTimerInLoop_rearms (h : s.addTimerInLoop capacity timer = some s') :
    ∃ timerfds, s.Rearms capacity timer timerfds ∧
      s' = { s with timerfds := timerfds, timerList := OrderedSet.insert Timer.key timer s.timerList } := by
  unfold addTimerInLoop insert at h
  dsimp only at h
  split_ifs at h with hearliest
  · obtain ⟨timerfds, hm, rfl⟩ := resetTimerfd_moves h
    refine ⟨timerfds, .reset timerfds ?_ hm, rfl⟩
    intro first hfirst
    simpa [hfirst] using hearliest
  · obtain rfl := Option.some.inj h
    cases hhead : s.timerList.head? with
    | none => simp [hhead] at hearliest
    | some first => exact ⟨_, .keep first hhead (by simpa [hhead] using hearliest), rfl⟩

theorem reset_resets (h : s.reset capacity = some s') :
    ∃ timerfds, s.Resets capacity timerfds ∧ s' = { s with timerfds := timerfds } := by
  unfold reset at h
  split at h
  case h_1 first hfirst =>
    obtain ⟨timerfds, hm, rfl⟩ := resetTimerfd_moves h
    exact ⟨timerfds, .first timerfds first hfirst hm, rfl⟩
  case h_2 hnone =>
    obtain rfl := Option.some.inj h
    exact ⟨_, .none hnone, rfl⟩

theorem Rearms.of_same {timerfds : Timerfds} (h : s'.Rearms capacity timer timerfds)
    (hlist : s'.timerList = s.timerList) (hfds : s'.timerfds = s.timerfds) (hfd : s'.timerfd = s.timerfd) :
    s.Rearms capacity timer timerfds := by
  cases h with
  | reset _ hfirst hm =>
    rw [hfds, hfd] at hm
    rw [hlist] at hfirst
    exact .reset _ hfirst hm
  | keep first hfirst hle =>
    rw [hfds]
    rw [hlist] at hfirst
    exact .keep first hfirst hle

theorem moves_of_step (h : s.step capacity e = some s') : Moves capacity s e s' := by
  cases e with
  | elsewhere e =>
    simp only [step, Option.ite_none_right_eq_some, Option.map_eq_some_iff] at h
    obtain ⟨hother, timerfds, hstep, rfl⟩ := h
    exact .elsewhere e timerfds hother (Timerfds.moves_of_step hstep)
  | returned =>
    simp only [step, Option.map_eq_some_iff] at h
    obtain ⟨timerfds, hstep, rfl⟩ := h
    exact .returned timerfds (Timerfds.moves_of_step hstep)
  | addTimer address when =>
    simp only [step, Option.ite_none_right_eq_some, Option.bind_eq_some_iff] at h
    obtain ⟨⟨huser, _⟩, t, hnew, hadd⟩ := h
    obtain ⟨rfl, rfl⟩ := newTimer_eq hnew
    obtain ⟨timerfds, hrearms, rfl⟩ := addTimerInLoop_rearms hadd
    exact .addTimer t timerfds huser hnew (hrearms.of_same rfl rfl rfl)
  | addTimerElsewhere address when =>
    simp only [step, Option.map_eq_some_iff] at h
    obtain ⟨t, hnew, rfl⟩ := h
    obtain ⟨rfl, rfl⟩ := newTimer_eq hnew
    exact .addTimerElsewhere t hnew
  | swap =>
    simp only [step, Option.ite_none_right_eq_some, Option.some.injEq] at h
    obtain ⟨⟨hidle, hempty, _⟩, rfl⟩ := h
    exact .swap hidle hempty
  | runFunctor =>
    simp only [step] at h
    split at h <;> simp only [Option.ite_none_right_eq_some, reduceCtorEq] at h
    obtain ⟨⟨hidle, _⟩, hadd⟩ := h
    obtain ⟨timerfds, hrearms, rfl⟩ := addTimerInLoop_rearms hadd
    exact .runFunctor _ _ timerfds hidle ‹_› (hrearms.of_same rfl rfl rfl)
  | readClock =>
    simp only [step, Option.ite_none_right_eq_some, Option.some.injEq] at h
    obtain ⟨⟨hidle, hempty, _, hunread⟩, rfl⟩ := h
    exact .readClock hidle hempty hunread
  | readFd =>
    simp only [step] at h
    split at h <;> simp only [Option.map_eq_some_iff, reduceCtorEq] at h
    obtain ⟨timerfds, hstep, rfl⟩ := h
    exact .readFd _ timerfds ‹_› (Timerfds.moves_of_step hstep)
  | getExpired =>
    simp only [step] at h
    split at h <;> simp only [Option.some.injEq, reduceCtorEq] at h
    subst h
    exact .getExpired _ ‹_›
  | call =>
    simp only [step] at h
    split at h <;> simp only [Option.ite_none_right_eq_some, Option.some.injEq, reduceCtorEq] at h
    obtain ⟨_, rfl⟩ := h
    exact .call _ _ _ ‹_›
  | ret =>
    simp only [step] at h
    split at h <;> simp only [Option.ite_none_right_eq_some, Option.some.injEq, reduceCtorEq] at h
    obtain ⟨_, rfl⟩ := h
    exact .ret _ _ ‹_›
  | reset =>
    simp only [step] at h
    split at h
    case h_1 now hread =>
      obtain ⟨timerfds, hresets, rfl⟩ := reset_resets h
      apply Moves.reset now timerfds hread
      cases hresets with
      | first _ first hfirst hm => exact .first _ first hfirst hm
      | none hnone => exact .none hnone
    case h_2 => cases h

end SimulatedLoop

end Penduo
