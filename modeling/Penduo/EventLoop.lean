import Mathlib.Logic.Function.Basic
import Penduo.Library.Runs

set_option autoImplicit false

namespace Penduo

structure EventLoop (F : Type) where
  looping : Bool
  quit : Bool
  callingPendingFunctors : Bool
  pendingFunctors : List F
  wakeupTokens : ℕ
deriving DecidableEq, Repr

namespace EventLoop

variable {F : Type}

def new : EventLoop F :=
  { looping := false, quit := false, callingPendingFunctors := false, pendingFunctors := [], wakeupTokens := 0 }

def pushFunctor (l : EventLoop F) (f : F) : EventLoop F :=
  { l with pendingFunctors := l.pendingFunctors ++ [f] }

def needsWakeup (l : EventLoop F) (inLoopThread : Bool) : Bool := !inLoopThread || l.callingPendingFunctors

def wakeup (l : EventLoop F) : EventLoop F := { l with wakeupTokens := l.wakeupTokens + 1 }

def wakeupfdHandleRead (l : EventLoop F) : EventLoop F := { l with wakeupTokens := l.wakeupTokens - 1 }

def queueInLoop (l : EventLoop F) (f : F) : EventLoop F :=
  let l := l.pushFunctor f
  if l.needsWakeup true then l.wakeup else l

@[simp] theorem queueInLoop_pendingFunctors (l : EventLoop F) (f : F) :
    (l.queueInLoop f).pendingFunctors = l.pendingFunctors ++ [f] := by
  unfold queueInLoop
  dsimp only
  split_ifs <;> rfl

@[simp] theorem queueInLoop_looping (l : EventLoop F) (f : F) : (l.queueInLoop f).looping = l.looping := by
  unfold queueInLoop
  dsimp only
  split_ifs <;> rfl

end EventLoop

/-! The loop thread and any number of other threads, one atomic step at a time. -/

inductive Thread (T : Type)
  | loop
  | other (t : T)
deriving DecidableEq, Repr

structure Pushed (T F : Type) where
  serial : ℕ
  thread : Thread T
  functor : F
  epoch : ℕ
deriving DecidableEq, Repr

inductive CallState (T F : Type)
  | idle
  | pushed (q : Pushed T F)
  | waking (q : Pushed T F)
  | quitSet
  | quitWaking
deriving DecidableEq, Repr

def CallState.isIdle {T F : Type} : CallState T F → Bool
  | .idle => true
  | _ => false

inductive Phase
  | outside
  | entered
  | testing
  | polling
  | dispatching
  -- `calling_pending_functors_` is set, the functors not swapped out yet.
  | swapping
  | running
  | inFunctor
  -- `calling_pending_functors_` is cleared, the local vector being destroyed.
  | unwinding
deriving DecidableEq, Repr

def Phase.userCode : Phase → Bool
  | .outside | .dispatching | .inFunctor | .unwinding => true
  | _ => false

structure LoopState (T F : Type) where
  loop : EventLoop (Pushed T F)
  phase : Phase
  wakeReported : Bool
  batch : List (Pushed T F)
  calls : Thread T → CallState T F
  pushes : List (Pushed T F)
  -- The functors started so far, each with the number of its batch.
  started : List (Pushed T F × ℕ)
  batches : ℕ
  quitReturned : Bool

inductive LoopEvent (T F : Type)
  | push (t : Thread T) (f : F)
  | test (t : Thread T)
  | write (t : Thread T)
  | quit (t : Thread T)
  | enter
  | clear
  | check
  | poll (succeeded : Bool)
  | readToken
  | dispatched
  | swap
  | start
  | ret
  | batchDone
  | unwound
deriving DecidableEq, Repr

def LoopEvent.thread {T F : Type} : LoopEvent T F → Thread T
  | .push t _ | .test t | .write t | .quit t => t
  | _ => .loop

namespace LoopState

variable {T F : Type} [DecidableEq T]

def init : LoopState T F :=
  { loop := .new, phase := .outside, wakeReported := false, batch := [], calls := fun _ => .idle,
    pushes := [], started := [], batches := 0, quitReturned := false }

def setCall (s : LoopState T F) (t : Thread T) (c : CallState T F) : LoopState T F :=
  { s with calls := Function.update s.calls t c }

def mayCall (s : LoopState T F) : Thread T → Bool
  | .loop => s.phase.userCode
  | .other _ => true

def loopFree (s : LoopState T F) : Bool := (s.calls .loop).isIdle

def nextPushed (s : LoopState T F) (t : Thread T) (f : F) : Pushed T F := ⟨s.pushes.length, t, f, s.batches⟩

/-- One atomic step of one thread; `capacity` is the number of tokens the blocking pipe holds. -/
def step (capacity : ℕ) (s : LoopState T F) : LoopEvent T F → Option (LoopState T F)
  | .push t f =>
    if (s.calls t).isIdle && s.mayCall t then
      let q := s.nextPushed t f
      some { s with loop := s.loop.pushFunctor q, pushes := s.pushes ++ [q],
                    calls := Function.update s.calls t (.pushed q) }
    else none
  | .test t =>
    match s.calls t with
    | .pushed q => some (s.setCall t (if s.loop.needsWakeup (t = .loop) then .waking q else .idle))
    | .quitSet => some (s.setCall t (if t = .loop then .idle else .quitWaking))
    | _ => none
  | .write t =>
    match s.calls t with
    | .waking _ =>
      if s.loop.wakeupTokens < capacity then some { s.setCall t .idle with loop := s.loop.wakeup } else none
    | .quitWaking =>
      if s.loop.wakeupTokens < capacity then
        some { s.setCall t .idle with loop := s.loop.wakeup, quitReturned := true }
      else none
    | _ => none
  | .quit t =>
    if (s.calls t).isIdle && s.mayCall t then
      some { s.setCall t .quitSet with loop := { s.loop with quit := true } }
    else none
  | .enter =>
    if s.phase = .outside ∧ s.loopFree ∧ s.loop.looping = false then
      some { s with phase := .entered, loop := { s.loop with looping := true } }
    else none
  | .clear =>
    if s.phase = .entered then some { s with phase := .testing, loop := { s.loop with quit := false } } else none
  | .check =>
    if s.phase = .testing then
      if s.loop.quit then some { s with phase := .outside, loop := { s.loop with looping := false } }
      else some { s with phase := .polling }
    else none
  | .poll succeeded =>
    -- a failed `::poll` reports no channel, a successful one every readable one
    if s.phase = .polling then
      some { s with phase := .dispatching, wakeReported := succeeded && decide (0 < s.loop.wakeupTokens) }
    else none
  | .readToken =>
    if s.phase = .dispatching ∧ s.loopFree ∧ s.wakeReported then
      some { s with wakeReported := false, loop := s.loop.wakeupfdHandleRead }
    else none
  | .dispatched =>
    if s.phase = .dispatching ∧ s.loopFree ∧ s.wakeReported = false then
      some { s with phase := .swapping, loop := { s.loop with callingPendingFunctors := true } }
    else none
  | .swap =>
    if s.phase = .swapping then
      some { s with phase := .running, batch := s.loop.pendingFunctors, batches := s.batches + 1,
                    loop := { s.loop with pendingFunctors := [] } }
    else none
  | .start =>
    match s.batch with
    | q :: rest =>
      if s.phase = .running then
        some { s with phase := .inFunctor, batch := rest, started := s.started ++ [(q, s.batches)] }
      else none
    | [] => none
  | .ret => if s.phase = .inFunctor ∧ s.loopFree then some { s with phase := .running } else none
  | .batchDone =>
    if s.phase = .running ∧ s.batch.isEmpty then
      some { s with phase := .unwinding, loop := { s.loop with callingPendingFunctors := false } }
    else none
  | .unwound => if s.phase = .unwinding ∧ s.loopFree then some { s with phase := .testing } else none

end LoopState

end Penduo
