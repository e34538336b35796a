import Mathlib.Data.List.TakeWhile
import Mathlib.Data.Nat.Notation

set_option autoImplicit false

/-!
Strings that end at the first terminator of an array.
-/

namespace TerminatedStrings

variable {α : Type*} [DecidableEq α]

def strlen (nul : α) (array : List α) : Option ℕ := array.findIdx? fun a => decide (a = nul)

def text (nul : α) (array : List α) : Option (List α) := (strlen nul array).map array.take

variable {nul : α} {xs : List α} {k : ℕ}

theorem strlen_of_mem (h : nul ∈ xs) :
    strlen nul xs = some (xs.takeWhile fun a => !decide (a = nul)).length := by
  induction xs with
  | nil => simp at h
  | cons x xs ih =>
    by_cases hx : x = nul
    · simp [strlen, List.findIdx?_cons, hx]
    · have hmem : nul ∈ xs := by simpa [Ne.symm hx] using h
      have ih := ih hmem
      simp only [strlen] at ih
      simp [strlen, List.findIdx?_cons, hx, ih]

theorem text_of_mem (h : nul ∈ xs) : text nul xs = some (xs.takeWhile fun a => !decide (a = nul)) := by
  have hpre := List.takeWhile_prefix (l := xs) fun a => !decide (a = nul)
  simp [text, strlen_of_mem h, (List.prefix_iff_eq_take.mp hpre).symm]

theorem text_padded (hk : 0 < k) :
    text nul (xs ++ List.replicate k nul) = some (xs.takeWhile fun a => !decide (a = nul)) := by
  rw [text_of_mem (by simp; omega)]
  congr 1
  induction xs with
  | nil => simp
  | cons x xs ih => by_cases hx : x = nul <;> simp [hx, ih]

theorem strlen_padded_iff :
    strlen nul (xs ++ List.replicate k nul) = some xs.length ↔ nul ∉ xs ∧ 0 < k := by
  induction xs with
  | nil => cases k <;> simp [strlen, List.replicate_succ, List.findIdx?_cons]
  | cons x xs ih =>
    by_cases hx : x = nul
    · simp [strlen, List.findIdx?_cons, hx]
    · have hx' : nul ≠ x := fun h => hx h.symm
      have hmem : nul ∉ x :: xs ↔ nul ∉ xs := by simp [hx']
      rw [hmem, ← ih]
      simp only [strlen, List.cons_append, List.findIdx?_cons, hx, decide_false, List.length_cons]
      generalize List.findIdx? _ (xs ++ _) = found
      simp

end TerminatedStrings
