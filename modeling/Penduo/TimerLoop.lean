import Penduo.TimerQueue

set_option autoImplicit false

namespace Penduo

open LabelledRuns

inductive HandleRead
  | idle
  | reading (now : Timestamp)
  | expiring (now : Timestamp)
  | running (now : Timestamp) (rest : List Timer)
  | calling (now : Timestamp) (rest : List Timer)
deriving DecidableEq, Repr

def HandleRead.rest : HandleRead → List Timer
  | .running _ rest | .calling _ rest => rest
  | _ => []

def HandleRead.userCode : HandleRead → Bool
  | .idle | .calling .. => true
  | _ => false

structure TimerLoop where
  clock : Timestamp
  queue : TimerQueue
  handleRead : HandleRead
  expired : List Timer
  -- `add_timer_in_loop` calls queued by other threads, and the batch of them being run
  pendingFunctors : List Timer
  functors : List Timer
  added : List Timer
  inserted : List Timer
  taken : List Timer
  runs : List (Timer × Timestamp)
deriving DecidableEq, Repr

inductive TimerEvent
  | tick (now : Timestamp)
  | expire
  | addTimer (address : ℕ) (when : Timestamp)
  | addTimerElsewhere (address : ℕ) (when : Timestamp)
  | swap
  | runFunctor
  | readClock
  | readFd
  | getExpired
  | call
  | ret
  | reset
deriving DecidableEq, Repr

namespace TimerLoop

def init (clock : Timestamp) : TimerLoop :=
  { clock, queue := .new, handleRead := .idle, expired := [], pendingFunctors := [], functors := [],
    added := [], inserted := [], taken := [], runs := [] }

def live (s : TimerLoop) : List Timer := s.pendingFunctors ++ s.functors ++ s.queue.timerList ++ s.expired

-- `new Timer`, at an address that no live object has.
def newTimer (s : TimerLoop) (address : ℕ) (when : Timestamp) : Option Timer :=
  if 0 ≤ when.nanoseconds ∧ ∀ t ∈ s.live, t.address ≠ address then some ⟨s.added.length, address, when⟩
  else none

def step (s : TimerLoop) : TimerEvent → Option TimerLoop
  | .tick now => if s.clock ≤ now then some { s with clock := now } else none
  | .expire =>
    match s.queue.timerfd.armed with
    | some expiry =>
      if expiry ≤ s.clock.nanoseconds then
        some { s with queue := { s.queue with timerfd := s.queue.timerfd.expire } }
      else none
    | none => none
  | .addTimer address when =>
    if s.handleRead.userCode then
      (s.newTimer address when).map fun t =>
        { s with queue := s.queue.addTimerInLoop s.clock t, added := s.added ++ [t], inserted := s.inserted ++ [t] }
    else none
  | .addTimerElsewhere address when =>
    (s.newTimer address when).map fun t =>
      { s with pendingFunctors := s.pendingFunctors ++ [t], added := s.added ++ [t] }
  | .swap =>
    if s.handleRead = .idle ∧ s.functors = [] then
      some { s with functors := s.pendingFunctors, pendingFunctors := [] }
    else none
  | .runFunctor =>
    match s.functors with
    | t :: functors =>
      if s.handleRead = .idle then
        some { s with functors, queue := s.queue.addTimerInLoop s.clock t, inserted := s.inserted ++ [t] }
      else none
    | [] => none
  | .readClock =>
    if s.handleRead = .idle ∧ s.functors = [] then some { s with handleRead := .reading s.clock } else none
  | .readFd =>
    match s.handleRead with
    | .reading now =>
      some { s with handleRead := .expiring now, queue := { s.queue with timerfd := s.queue.timerfd.read } }
    | _ => none
  | .getExpired =>
    match s.handleRead with
    | .expiring now =>
      let (expired, timerList) := TimerQueue.getExpired now s.queue.timerList
      some { s with handleRead := .running now expired, expired, queue := { s.queue with timerList },
                    taken := s.taken ++ expired }
    | _ => none
  | .call =>
    match s.handleRead with
    | .running now (t :: rest) => some { s with handleRead := .calling now rest, runs := s.runs ++ [(t, now)] }
    | _ => none
  | .ret =>
    match s.handleRead with
    | .calling now rest => some { s with handleRead := .running now rest }
    | _ => none
  | .reset =>
    match s.handleRead with
    | .running _ [] => some { s with handleRead := .idle, queue := s.queue.reset s.clock, expired := [] }
    | _ => none

variable {s s' : TimerLoop} {e : TimerEvent}

inductive Moves (s : TimerLoop) : TimerEvent → TimerLoop → Prop
  | tick (now : Timestamp) (hle : s.clock ≤ now) : Moves s (.tick now) { s with clock := now }
  | expire (expiry : ℤ) (harmed : s.queue.timerfd.armed = some expiry) (hdue : expiry ≤ s.clock.nanoseconds) :
      Moves s .expire { s with queue := { s.queue with timerfd := s.queue.timerfd.expire } }
  | addTimer (t : Timer) (huser : s.handleRead.userCode = true) (hnew : s.newTimer t.address t.expirationTs = some t) :
      Moves s (.addTimer t.address t.expirationTs)
        { s with queue := s.queue.addTimerInLoop s.clock t, added := s.added ++ [t], inserted := s.inserted ++ [t] }
  | addTimerElsewhere (t : Timer) (hnew : s.newTimer t.address t.expirationTs = some t) :
      Moves s (.addTimerElsewhere t.address t.expirationTs)
        { s with pendingFunctors := s.pendingFunctors ++ [t], added := s.added ++ [t] }
  | swap (hidle : s.handleRead = .idle) (hempty : s.functors = []) :
      Moves s .swap { s with functors := s.pendingFunctors, pendingFunctors := [] }
  | runFunctor (t : Timer) (functors : List Timer) (hidle : s.handleRead = .idle)
      (hfunctors : s.functors = t :: functors) :
      Moves s .runFunctor
        { s with functors := functors, queue := s.queue.addTimerInLoop s.clock t, inserted := s.inserted ++ [t] }
  | readClock (hidle : s.handleRead = .idle) : Moves s .readClock { s with handleRead := .reading s.clock }
  | readFd (now : Timestamp) (hread : s.handleRead = .reading now) :
      Moves s .readFd
        { s with handleRead := .expiring now, queue := { s.queue with timerfd := s.queue.timerfd.read } }
  | getExpired (now : Timestamp) (expired timerList : List Timer) (hread : s.handleRead = .expiring now)
      (hlist : s.queue.timerList = expired ++ timerList) (hdue : ∀ t ∈ expired, t.expirationTs ≤ now) :
      Moves s .getExpired
        { s with handleRead := .running now expired, expired := expired,
                 queue := { s.queue with timerList := timerList }, taken := s.taken ++ expired }
  | call (now : Timestamp) (t : Timer) (rest : List Timer) (hread : s.handleRead = .running now (t :: rest)) :
      Moves s .call { s with handleRead := .calling now rest, runs := s.runs ++ [(t, now)] }
  | ret (now : Timestamp) (rest : List Timer) (hread : s.handleRead = .calling now rest) :
      Moves s .ret { s with handleRead := .running now rest }
  | reset (now : Timestamp) (hread : s.handleRead = .running now []) :
      Moves s .reset { s with handleRead := .idle, queue := s.queue.reset s.clock, expired := [] }

theorem newTimer_eq {address : ℕ} {when : Timestamp} {t : Timer} (h : s.newTimer address when = some t) :
    t.address = address ∧ t.expirationTs = when := by
  simp only [newTimer, Option.ite_none_right_eq_some, Option.some.injEq] at h
  obtain ⟨_, rfl⟩ := h
  exact ⟨rfl, rfl⟩

theorem moves_of_step (h : s.step e = some s') : Moves s e s' := by
  cases e with
  | tick now =>
    simp only [step, Option.ite_none_right_eq_some, Option.some.injEq] at h
    obtain ⟨hle, rfl⟩ := h
    exact .tick now hle
  | expire =>
    simp only [step] at h
    split at h <;> simp only [Option.ite_none_right_eq_some, Option.some.injEq, reduceCtorEq] at h
    obtain ⟨hdue, rfl⟩ := h
    exact .expire _ ‹_› hdue
  | addTimer address when =>
    simp only [step, Option.ite_none_right_eq_some, Option.map_eq_some_iff] at h
    obtain ⟨huser, t, hnew, rfl⟩ := h
    obtain ⟨rfl, rfl⟩ := newTimer_eq hnew
    exact .addTimer t huser hnew
  | addTimerElsewhere address when =>
    simp only [step, Option.map_eq_some_iff] at h
    obtain ⟨t, hnew, rfl⟩ := h
    obtain ⟨rfl, rfl⟩ := newTimer_eq hnew
    exact .addTimerElsewhere t hnew
  | swap =>
    simp only [step, Option.ite_none_right_eq_some, Option.some.injEq] at h
    obtain ⟨⟨hidle, hempty⟩, rfl⟩ := h
    exact .swap hidle hempty
  | runFunctor =>
    simp only [step] at h
    split at h <;> simp only [Option.ite_none_right_eq_some, Option.some.injEq, reduceCtorEq] at h
    obtain ⟨hidle, rfl⟩ := h
    exact .runFunctor _ _ hidle ‹_›
  | readClock =>
    simp only [step, Option.ite_none_right_eq_some, Option.some.injEq] at h
    obtain ⟨⟨hidle, _⟩, rfl⟩ := h
    exact .readClock hidle
  | readFd =>
    simp only [step] at h
    split at h <;> simp only [Option.some.injEq, reduceCtorEq] at h
    subst h
    exact .readFd _ ‹_›
  | getExpired =>
    simp only [step] at h
    split at h <;> simp only [Option.some.injEq, reduceCtorEq] at h
    subst h
    exact .getExpired _ _ _ ‹_› (TimerQueue.getExpired_append _ _).symm (TimerQueue.getExpired_due _ _)
  | call =>
    simp only [step] at h
    split at h <;> simp only [Option.some.injEq, reduceCtorEq] at h
    subst h
    exact .call _ _ _ ‹_›
  | ret =>
    simp only [step] at h
    split at h <;> simp only [Option.some.injEq, reduceCtorEq] at h
    subst h
    exact .ret _ _ ‹_›
  | reset =>
    simp only [step] at h
    split at h <;> simp only [Option.some.injEq, reduceCtorEq] at h
    subst h
    exact .reset _ ‹_›

end TimerLoop

end Penduo
