import Penduo.Assertions

set_option autoImplicit false

namespace Penduo

/-! How a program with assertions and the program without them end. -/

def Fault.isAssertion : Fault → Bool
  | .assertion _ => true
  | _ => false

def assertionFails {α : Type} : Except Fault α → Bool
  | .error f => f.isAssertion
  | .ok _ => false

/-- `y` does what `x` does, unless `x` ends in a fault that is excused. -/
def DoesAs {α : Type} (excused : Fault → Bool) (x y : Except Fault α) : Prop :=
  (∀ f, x = .error f → excused f = false) → y = x

namespace DoesAs

variable {α β : Type} {excused : Fault → Bool} {x y : Except Fault α} {f g : α → Except Fault β}

theorem refl (x : Except Fault α) : DoesAs excused x x := fun _ => rfl

theorem ok (h : DoesAs excused x y) {r : α} (hr : x = .ok r) : y = .ok r := by
  subst hr
  exact h nofun

theorem error (h : DoesAs excused x y) {e : Fault} (he : x = .error e) (hnot : excused e = false) : y = .error e := by
  subst he
  exact h fun f hf => Except.error.inj hf ▸ hnot

theorem bind (hx : DoesAs excused x y) (hf : ∀ a, DoesAs excused (f a) (g a)) :
    DoesAs excused (x >>= f) (y >>= g) := by
  intro h
  cases x with
  | error e =>
    rw [hx.error rfl (h e rfl)]
    rfl
  | ok a =>
    rw [hx.ok rfl]
    exact hf a h

theorem skip (hf : ∀ a, DoesAs excused (f a) (g a)) : DoesAs excused (x >>= f) (x >>= g) := (refl x).bind hf

theorem ite {p : Prop} [Decidable p] {x' y' : Except Fault α} (hx : DoesAs excused x y) (hx' : DoesAs excused x' y') :
    DoesAs excused (if p then x else x') (if p then y else y') := by
  split_ifs
  · exact hx
  · exact hx'

theorem foldlM {γ : Type} {step step' : α → γ → Except Fault α}
    (h : ∀ a c, DoesAs excused (step a c) (step' a c)) (cs : List γ) (a : α) :
    DoesAs excused (cs.foldlM step a) (cs.foldlM step' a) := by
  induction cs generalizing a with
  | nil => exact .refl _
  | cons c cs ih =>
    rw [List.foldlM_cons, List.foldlM_cons]
    exact (h a c).bind ih

end DoesAs

abbrev Survives {α : Type} (x y : Except Fault α) : Prop := DoesAs Fault.isAssertion x y

theorem survives_check (a : Assertion) (p : Prop) [Decidable p] :
    Survives (Build.debug.check a p) (Build.ndebug.check a p) := by
  intro h
  by_cases hp : p
  · rw [check_of hp, check_of hp]
  · have hfails : Build.debug.check a p = .error (.assertion a) := by simp [Build.check, hp]
    exact absurd (h _ hfails) (by simp [Fault.isAssertion])

def OnlyAsserts {α : Type} (x : Except Fault α) : Prop := ∀ f, x = .error f → f.isAssertion = true

namespace OnlyAsserts

variable {α β : Type} {x : Except Fault α} {f : α → Except Fault β}

theorem ok (a : α) : OnlyAsserts (.ok a) := by
  intro f hf
  simp at hf

theorem check (a : Assertion) (p : Prop) [Decidable p] : OnlyAsserts (Build.debug.check a p) := by
  intro f hf
  simp only [Build.check] at hf
  split_ifs at hf
  rw [← Except.error.inj hf]
  rfl

theorem checkEffect {σ : Type} (a : Assertion) (s : σ) (effect : σ → ℕ × σ) (expected : ℕ) :
    OnlyAsserts (Build.debug.checkEffect a s effect expected) := by
  intro f hf
  simp only [Build.checkEffect] at hf
  split_ifs at hf
  rw [← Except.error.inj hf]
  rfl

theorem require {o : Option α} {a : α} (ho : o = some a) (fault : Fault) :
    OnlyAsserts (Penduo.require fault o) := by
  rw [ho]
  exact ok a

theorem bind (hx : OnlyAsserts x) (hf : ∀ a, x = .ok a → OnlyAsserts (f a)) : OnlyAsserts (x >>= f) := by
  intro e he
  cases x with
  | error e' => exact hx e (by rw [← Except.error.inj he])
  | ok a => exact hf a rfl e he

end OnlyAsserts

def SameFaults {α : Type} (x y : Except Fault α) : Prop :=
  ∀ f, f.isAssertion = false → x = .error f → y = .error f

theorem SameFaults.of_onlyAsserts {α : Type} {x y : Except Fault α} (hx : OnlyAsserts x) : SameFaults x y := by
  intro f hf he
  simp [hx f he] at hf

theorem SameFaults.bind {α β : Type} {x y : Except Fault α} {f g : α → Except Fault β} (hx : Survives x y)
    (hf : ∀ a, SameFaults (f a) (g a)) : SameFaults (x >>= f) (y >>= g) := by
  intro e he hr
  cases x with
  | error e' =>
    obtain rfl : e' = e := Except.error.inj hr
    rw [hx.error rfl he]
    rfl
  | ok a =>
    rw [hx.ok rfl]
    exact hf a e he hr

theorem SameFaults.returns {α β : Type} {x y : Except Fault α} (hxy : SameFaults x y) (f : α → β) :
    SameFaults (x >>= fun a => pure (f a)) (y >>= fun a => pure (f a)) := by
  intro e he hr
  cases x with
  | error e' =>
    obtain rfl : e' = e := Except.error.inj hr
    rw [hxy e' he rfl]
    rfl
  | ok a => simp at hr

end Penduo
