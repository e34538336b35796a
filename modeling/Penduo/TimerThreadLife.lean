import Penduo.TimerThread

set_option autoImplicit false

namespace Penduo

open LabelledRuns

inductive Instance
  | starting
  | piping
  | awaiting
  | constructed
  | joining
  | destroyed
deriving DecidableEq, Repr

inductive FuncPhase
  | unstarted
  | copying
  | announcing
  | looping
  | returned
deriving DecidableEq, Repr

structure TimerThreadLife where
  owner : Instance
  func : FuncPhase
  weakupFd : Option ℕ
  polledFd : ℕ
  threadRunning : Bool
  -- what the wait was computed from, and when `::poll` was entered with it
  basis : Option Reset
  pollSince : Option Timestamp
  timer : TimerThread

inductive LifeEvent
  | start
  | pipe (readFd : ℕ)
  | awaitRunning
  | clearRunning
  | join
  | copyFd
  | setRunning
  | test
  | enterPoll
  | poll (ret : ℤ)
  | readWeakup
  | reset (caller writeFd : ℕ) (newTimestamp oldTimestamp : Timestamp)
  | thread (e : TimerThreadEvent)
deriving DecidableEq, Repr

def TimerThreadEvent.unaffected : TimerThreadEvent → Bool
  | .test | .poll _ | .readWeakup | .reset .. => false
  | _ => true

namespace TimerThreadLife

def init (clock : Timestamp) : TimerThreadLife :=
  { owner := .starting, func := .unstarted, weakupFd := none, polledFd := 0, threadRunning := false,
    basis := none, pollSince := none, timer := .init clock }

abbrev PollsPipe (s : TimerThreadLife) : Prop := s.weakupFd = some s.polledFd

def Waited (s : TimerThreadLife) (waitMs : Int32) : Prop :=
  ∃ since ∈ s.pollSince, 0 ≤ waitMs ∧ since.nanoseconds + waitMs.toInt * 1000000 ≤ s.timer.clock.nanoseconds

instance (s : TimerThreadLife) (waitMs : Int32) : Decidable (s.Waited waitMs) :=
  inferInstanceAs (Decidable (∃ since ∈ s.pollSince, _))

def step (capacity : ℕ) (s : TimerThreadLife) : LifeEvent → Option TimerThreadLife
  | .start => if s.owner = .starting then some { s with owner := .piping, func := .copying } else none
  | .pipe readFd => if s.owner = .piping then some { s with owner := .awaiting, weakupFd := some readFd } else none
  | .awaitRunning =>
    if s.owner = .awaiting ∧ s.threadRunning = true ∧ s.timer.mutex = none then some { s with owner := .constructed }
    else none
  | .clearRunning =>
    if s.owner = .constructed ∧ s.timer.mutex = none then some { s with owner := .joining, threadRunning := false }
    else none
  | .join => if s.owner = .joining ∧ s.func = .returned then some { s with owner := .destroyed } else none
  | .copyFd => if s.func = .copying then some { s with func := .announcing, polledFd := s.weakupFd.getD 0 } else none
  | .setRunning =>
    if s.func = .announcing ∧ s.timer.mutex = none then some { s with func := .looping, threadRunning := true }
    else none
  | .test =>
    if s.func = .looping ∧ s.timer.timerFunc = .testing ∧ s.timer.mutex = none then
      if s.threadRunning then
        some { s with basis := s.timer.timerSet.head?, pollSince := none,
                      timer := { s.timer with timerFunc := .polling s.timer.waitMs } }
      else some { s with func := .returned }
    else none
  | .enterPoll =>
    match s.timer.timerFunc with
    | .polling _ => if s.pollSince = none then some { s with pollSince := some s.timer.clock } else none
    | _ => none
  | .poll ret =>
    match s.timer.timerFunc with
    | .polling waitMs =>
      -- what any other descriptor has to be read is not known
      if s.pollSince ≠ none ∧ (0 < ret → s.PollsPipe → 0 < s.timer.weakup) ∧
          (ret = 0 → s.Waited waitMs ∧ (s.PollsPipe → s.timer.weakup = 0)) then
        some { s with timer := { s.timer with timerFunc := .polled ret } }
      else none
    | _ => none
  | .readWeakup =>
    match s.timer.timerFunc with
    | .reading now =>
      let weakup := if s.PollsPipe then s.timer.weakup - TimerThread.weakFdReadSize else s.timer.weakup
      some { s with timer := { s.timer with timerFunc := .expiring now, weakup } }
    | _ => none
  | .reset caller writeFd newTimestamp oldTimestamp =>
    if s.owner = .constructed then
      (s.timer.step capacity (.reset caller writeFd newTimestamp oldTimestamp)).map fun timer => { s with timer }
    else none
  | .thread e =>
    if e.unaffected then (s.timer.step capacity e).map fun timer => { s with timer } else none

variable {capacity : ℕ} {s s' : TimerThreadLife} {e : LifeEvent}

inductive Moves (capacity : ℕ) (s : TimerThreadLife) : LifeEvent → TimerThreadLife → Prop
  | start (howner : s.owner = .starting) : Moves capacity s .start { s with owner := .piping, func := .copying }
  | pipe (readFd : ℕ) (howner : s.owner = .piping) :
      Moves capacity s (.pipe readFd) { s with owner := .awaiting, weakupFd := some readFd }
  | awaitRunning (howner : s.owner = .awaiting) (hrunning : s.threadRunning = true) :
      Moves capacity s .awaitRunning { s with owner := .constructed }
  | clearRunning (howner : s.owner = .constructed) :
      Moves capacity s .clearRunning { s with owner := .joining, threadRunning := false }
  | join (howner : s.owner = .joining) (hfunc : s.func = .returned) :
      Moves capacity s .join { s with owner := .destroyed }
  | copyFd (hfunc : s.func = .copying) :
      Moves capacity s .copyFd { s with func := .announcing, polledFd := s.weakupFd.getD 0 }
  | setRunning (hfunc : s.func = .announcing) :
      Moves capacity s .setRunning { s with func := .looping, threadRunning := true }
  | test (hfunc : s.func = .looping) (hrunning : s.threadRunning = true) :
      Moves capacity s .test
        { s with basis := s.timer.timerSet.head?, pollSince := none,
                 timer := { s.timer with timerFunc := .polling s.timer.waitMs } }
  | leave (hfunc : s.func = .looping) (htesting : s.timer.timerFunc = .testing) (hrunning : s.threadRunning = false) :
      Moves capacity s .test { s with func := .returned }
  | enterPoll (waitMs : Int32) (hpolling : s.timer.timerFunc = .polling waitMs) (hsince : s.pollSince = none) :
      Moves capacity s .enterPoll { s with pollSince := some s.timer.clock }
  | poll (ret : ℤ) {waitMs : Int32} (hpolling : s.timer.timerFunc = .polling waitMs) :
      Moves capacity s (.poll ret) { s with timer := { s.timer with timerFunc := .polled ret } }
  | readWeakup (now : Timestamp) (weakup : ℕ) (hreading : s.timer.timerFunc = .reading now) :
      Moves capacity s .readWeakup { s with timer := { s.timer with timerFunc := .expiring now, weakup := weakup } }
  | reset (caller writeFd : ℕ) (newTimestamp oldTimestamp : Timestamp) (timer : TimerThread)
      (hm : TimerThread.Moves capacity s.timer (.reset caller writeFd newTimestamp oldTimestamp) timer) :
      Moves capacity s (.reset caller writeFd newTimestamp oldTimestamp) { s with timer := timer }
  | thread (te : TimerThreadEvent) (timer : TimerThread) (he : te.unaffected = true)
      (hm : TimerThread.Moves capacity s.timer te timer) : Moves capacity s (.thread te) { s with timer := timer }

theorem moves_of_step (h : s.step capacity e = some s') : Moves capacity s e s' := by
  cases e with
  | start =>
    simp only [step, Option.ite_none_right_eq_some, Option.some.injEq] at h
    obtain ⟨howner, rfl⟩ := h
    exact .start howner
  | pipe readFd =>
    simp only [step, Option.ite_none_right_eq_some, Option.some.injEq] at h
    obtain ⟨howner, rfl⟩ := h
    exact .pipe readFd howner
  | awaitRunning =>
    simp only [step, Option.ite_none_right_eq_some, Option.some.injEq] at h
    obtain ⟨⟨howner, hrunning, _⟩, rfl⟩ := h
    exact .awaitRunning howner hrunning
  | clearRunning =>
    simp only [step, Option.ite_none_right_eq_some, Option.some.injEq] at h
    obtain ⟨⟨howner, _⟩, rfl⟩ := h
    exact .clearRunning howner
  | join =>
    simp only [step, Option.ite_none_right_eq_some, Option.some.injEq] at h
    obtain ⟨⟨howner, hfunc⟩, rfl⟩ := h
    exact .join howner hfunc
  | copyFd =>
    simp only [step, Option.ite_none_right_eq_some, Option.some.injEq] at h
    obtain ⟨hfunc, rfl⟩ := h
    exact .copyFd hfunc
  | setRunning =>
    simp only [step, Option.ite_none_right_eq_some, Option.some.injEq] at h
    obtain ⟨⟨hfunc, _⟩, rfl⟩ := h
    exact .setRunning hfunc
  | test =>
    simp only [step, Option.ite_none_right_eq_some] at h
    obtain ⟨⟨hfunc, htesting, _⟩, h⟩ := h
    split_ifs at h with hrunning
    · obtain rfl := Option.some.inj h
      exact .test hfunc hrunning
    · obtain rfl := Option.some.inj h
      exact .leave hfunc htesting (by simpa using hrunning)
  | enterPoll =>
    simp only [step] at h
    split at h <;> simp only [Option.ite_none_right_eq_some, Option.some.injEq, reduceCtorEq] at h
    obtain ⟨hsince, rfl⟩ := h
    exact .enterPoll _ ‹_› hsince
  | poll ret =>
    simp only [step] at h
    split at h <;> simp only [Option.ite_none_right_eq_some, Option.some.injEq, reduceCtorEq] at h
    obtain ⟨_, rfl⟩ := h
    exact .poll ret ‹_›
  | readWeakup =>
    simp only [step] at h
    split at h <;> simp only [Option.some.injEq, reduceCtorEq] at h
    subst h
    exact .readWeakup _ _ ‹_›
  | reset caller writeFd newTimestamp oldTimestamp =>
    simp only [step, Option.ite_none_right_eq_some, Option.map_eq_some_iff] at h
    obtain ⟨_, timer, htimer, rfl⟩ := h
    exact .reset _ _ _ _ timer (TimerThread.moves_of_step htimer)
  | thread te =>
    simp only [step, Option.ite_none_right_eq_some, Option.map_eq_some_iff] at h
    obtain ⟨he, timer, htimer, rfl⟩ := h
    exact .thread te timer he (TimerThread.moves_of_step htimer)

end TimerThreadLife

end Penduo
