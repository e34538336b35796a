import Mathlib.Data.List.Basic

set_option autoImplicit false

namespace Penduo

inductive Build
  | debug
  | ndebug
deriving DecidableEq, Repr

inductive Assertion
  | loopNotLooping
  | fillCount
  | fillFd
  | updateAbsent
  | updatePresent
  | updateSame
  | updateIndex
  | updateFd
  | removePresent
  | removeSame
  | removeNoneEvent
  | removeIndex
  | removeEntry
  | removeErased
  | removeMoved
  | channelNoneEvent
  | channelAdded
  | destroyHandling
  | destroyAdded
  | destroyNoneEvent
  | destroyNotLooping
  | establishConnecting
  | establishConnected
  | destoryedConnected
  | closeConnected
  | connectionErased
  | readLength
deriving DecidableEq, Repr

inductive Fault
  | assertion (a : Assertion)
  | outOfRange
  | badFunctionCall
  -- An access outside an array or a destroyed object.
  | undefinedBehaviour
  -- `LOG_FATAL`, which aborts the process.
  | fatal
deriving DecidableEq, Repr

def Build.check (b : Build) (a : Assertion) (p : Prop) [Decidable p] : Except Fault Unit :=
  match b with
  | .debug => if p then .ok () else .error (.assertion a)
  | .ndebug => .ok ()

/-- `assert(effect == expected)` where evaluating `effect` changes the state `s`. -/
def Build.checkEffect {σ : Type} (b : Build) (a : Assertion) (s : σ) (effect : σ → ℕ × σ)
    (expected : ℕ) : Except Fault σ :=
  match b with
  | .debug => if (effect s).1 = expected then .ok (effect s).2 else .error (.assertion a)
  | .ndebug => .ok s

def require {α : Type} (f : Fault) : Option α → Except Fault α
  | some a => .ok a
  | none => .error f

def faultOf {α : Type} (x : Except Fault α) : Option Fault :=
  match x with
  | .ok _ => none
  | .error f => some f

section Returning

variable {α β : Type} {b : Build} {a : Assertion} {p : Prop} [Decidable p]

@[simp] theorem ok_bind (x : α) (f : α → Except Fault β) : ((Except.ok x : Except Fault α) >>= f) = f x := rfl

@[simp] theorem error_bind (e : Fault) (f : α → Except Fault β) :
    ((Except.error e : Except Fault α) >>= f) = .error e := rfl

@[simp] theorem pure_eq_ok (x : α) : (pure x : Except Fault α) = .ok x := rfl

theorem bind_eq_ok {x : Except Fault α} {f : α → Except Fault β} {y : β} :
    (x >>= f) = .ok y ↔ ∃ z, x = .ok z ∧ f z = .ok y := by
  cases x <;> simp [bind, Except.bind]

@[simp] theorem check_debug_eq_ok {u : Unit} : Build.debug.check a p = .ok u ↔ p := by
  by_cases h : p <;> simp [Build.check, h]

@[simp] theorem check_ndebug : Build.ndebug.check a p = .ok () := rfl

theorem check_of (h : p) : b.check a p = .ok () := by
  cases b <;> simp [Build.check, h]

@[simp] theorem require_eq_ok {f : Fault} {o : Option α} {x : α} : require f o = .ok x ↔ o = some x := by
  cases o <;> simp [require]

theorem checkEffect_debug_eq_ok {σ : Type} {s t : σ} {effect : σ → ℕ × σ} {n : ℕ} :
    Build.debug.checkEffect a s effect n = .ok t ↔ (effect s).1 = n ∧ t = (effect s).2 := by
  by_cases h : (effect s).1 = n <;> simp [Build.checkEffect, h, eq_comm]

def Yields {α : Type} (P : α → Prop) (x : Except Fault α) : Prop := ∀ y, x = .ok y → P y

section Yields

variable {P : α → Prop} {Q : β → Prop} {x : Except Fault α}

theorem Yields.skip {f : α → Except Fault β} (hf : ∀ y, x = .ok y → Yields Q (f y)) : Yields Q (x >>= f) := by
  intro z hz
  obtain ⟨y, hy, hz⟩ := bind_eq_ok.mp hz
  exact hf y hy z hz

theorem yields_ok {y : α} (hy : P y) : Yields P (.ok y) := by
  intro z hz
  rwa [← Except.ok.inj hz]

theorem yields_error (f : Fault) : Yields P (.error f : Except Fault α) := by
  intro y hy
  cases hy

end Yields

theorem faultOf_eq_some {x : Except Fault α} {f : Fault} : faultOf x = some f ↔ x = .error f := by
  cases x <;> simp [faultOf]

end Returning

end Penduo
