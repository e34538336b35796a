import Mathlib.Data.List.Basic
import Mathlib.Data.List.Induction

set_option autoImplicit false

/-!
A counter that some events raise by one and others lower by one, stopping at zero.
-/

namespace LeakyBucket

variable {ε : Type*}

def stepLevel (fills drains : ε → Bool) (n : ℕ) (e : ε) : ℕ :=
  if fills e then n + 1 else if drains e then n - 1 else n

def level (fills drains : ε → Bool) (es : List ε) : ℕ := es.foldl (stepLevel fills drains) 0

variable (fills drains : ε → Bool)

@[simp] theorem level_nil : level fills drains [] = 0 := rfl

theorem level_snoc (es : List ε) (e : ε) :
    level fills drains (es ++ [e]) = stepLevel fills drains (level fills drains es) e := by
  simp [level]

def drained (e : ε) : Bool := drains e && !fills e

/-- The level is at least `n` exactly when some stretch that ends now filled the bucket `n` times
more often than it drained it. -/
theorem le_level_iff (n : ℕ) (es : List ε) :
    n ≤ level fills drains es ↔
      ∃ before stretch, es = before ++ stretch ∧
        stretch.countP (drained fills drains) + n ≤ stretch.countP fills := by
  induction es using List.reverseRecOn generalizing n with
  | nil =>
    constructor
    · intro h
      exact ⟨[], [], rfl, by simpa using h⟩
    · rintro ⟨before, stretch, he, h⟩
      obtain ⟨rfl, rfl⟩ := List.append_eq_nil_iff.mp he.symm
      simpa using h
  | append_singleton es e ih =>
    have hcases : n = 0 ∨ 0 < n := Nat.eq_zero_or_pos n
    rcases hcases with rfl | hpos
    · exact ⟨fun _ => ⟨es ++ [e], [], by simp, by simp⟩, fun _ => Nat.zero_le _⟩
    have hlast : (∃ before stretch, es ++ [e] = before ++ stretch ∧
          stretch.countP (drained fills drains) + n ≤ stretch.countP fills) ↔
        ∃ before stretch, es = before ++ stretch ∧
          (stretch ++ [e]).countP (drained fills drains) + n ≤ (stretch ++ [e]).countP fills := by
      constructor
      · rintro ⟨before, stretch, he, h⟩
        rcases List.eq_nil_or_concat stretch with rfl | ⟨stretch, e', rfl⟩
        · simp at h
          omega
        · rw [List.concat_eq_append, ← List.append_assoc] at he
          obtain ⟨hes, hee⟩ := List.append_inj' he rfl
          obtain rfl : e = e' := by simpa using hee
          exact ⟨before, stretch, hes, by simpa using h⟩
      · rintro ⟨before, stretch, rfl, h⟩
        exact ⟨before, stretch ++ [e], by simp, h⟩
    rw [hlast, level_snoc, stepLevel]
    simp only [List.countP_append, List.countP_singleton, drained]
    by_cases hf : fills e
    · have hn : n ≤ level fills drains es + 1 ↔ n - 1 ≤ level fills drains es := by omega
      simp only [hf, if_true, hn, ih, Bool.not_true, Bool.and_false, Bool.false_eq_true, if_false]
      refine exists_congr fun before => exists_congr fun stretch => and_congr_right fun _ => ?_
      omega
    · by_cases hd : drains e
      · have hn : n ≤ level fills drains es - 1 ↔ n + 1 ≤ level fills drains es := by omega
        simp only [hf, hd, if_true, hn, ih, Bool.not_false, Bool.and_true, Bool.false_eq_true, if_false]
        refine exists_congr fun before => exists_congr fun stretch => and_congr_right fun _ => ?_
        omega
      · simp [hf, hd, ih]

end LeakyBucket
