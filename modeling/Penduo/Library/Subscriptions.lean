import Penduo.Library.Runs

set_option autoImplicit false

/-!
The subscribers of a notifier. Each has a key, those that are listed at one time have different
keys, and one that has left is not taken back.
-/

namespace Subscriptions

open LabelledRuns

inductive Request
  | enable
  | disable
  | leave
deriving DecidableEq, Repr

inductive Status
  | fresh
  -- listed under its own key, although nothing is wanted for it
  | exposed
  | enabled
  | disabled
  | left
deriving DecidableEq, Repr

namespace Status

def listed : Status → Bool
  | .exposed | .enabled | .disabled => true
  | .fresh | .left => false

def visible : Status → Bool
  | .exposed | .enabled => true
  | _ => false

def after : Status → Request → Option Status
  | .left, _ => none
  | _, .enable => some .enabled
  | .fresh, .disable => some .exposed
  | _, .disable => some .disabled
  | .disabled, .leave => some .left
  | _, .leave => none

theorem listed_of_visible {s : Status} (h : s.visible = true) : s.listed = true := by
  cases s with
  | exposed | enabled => rfl
  | fresh | disabled | left => cases h

theorem listed_or_fresh {s s' : Status} {r : Request} (h : s.after r = some s') : s.listed = true ∨ s = .fresh := by
  cases s with
  | exposed | enabled | disabled => exact Or.inl rfl
  | fresh => exact Or.inr rfl
  | left => cases h

end Status

variable {κ ν : Type*} {key : κ → ν} {t t' : κ → Status} {r : κ × Request} {rs : List (κ × Request)}

structure Step (key : κ → ν) (t : κ → Status) (r : κ × Request) (t' : κ → Status) : Prop where
  after : (t r.1).after r.2 = some (t' r.1)
  free : t r.1 = .fresh → ∀ d, (t d).listed = true → key d ≠ key r.1
  other : ∀ d, d ≠ r.1 → t' d = t d

def Distinct (key : κ → ν) (t : κ → Status) : Prop :=
  ∀ c d, (t c).listed = true → (t d).listed = true → key c = key d → c = d

theorem Step.listed_or (h : Step key t r t') {c : κ} (hc : (t' c).listed = true) :
    (t c).listed = true ∨ c = r.1 ∧ t c = .fresh := by
  by_cases hcr : c = r.1
  · subst hcr
    exact (Status.listed_or_fresh h.after).imp_right fun hfresh => ⟨rfl, hfresh⟩
  · rw [h.other c hcr] at hc
    exact Or.inl hc

theorem Step.distinct (h : Step key t r t') (hd : Distinct key t) : Distinct key t' := by
  intro c d hc hd' hkey
  rcases h.listed_or hc with hc | ⟨rfl, hfresh⟩
  · rcases h.listed_or hd' with hd' | ⟨rfl, hfresh⟩
    · exact hd c d hc hd' hkey
    · exact absurd hkey (h.free hfresh c hc)
  · rcases h.listed_or hd' with hd' | ⟨rfl, _⟩
    · exact absurd hkey.symm (h.free hfresh d hd')
    · rfl

theorem run_distinct (h : Run (Step key) (fun _ => .fresh) rs t) : Distinct key t :=
  h.invariant (fun _ _ _ hd hstep => hstep.distinct hd) fun _ _ hc => by cases hc

end Subscriptions
