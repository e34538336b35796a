import Mathlib.Data.List.Sort

set_option autoImplicit false

/-!
Sets kept as lists that are strictly increasing in a key.
-/

namespace OrderedSet

variable {α κ : Type*} [LinearOrder κ] {key : α → κ} {a x : α} {xs : List α}

def insert (key : α → κ) (a : α) (xs : List α) : List α :=
  if ∃ x ∈ xs, key x = key a then xs else xs.orderedInsert (fun x y => key x ≤ key y) a

def erase (key : α → κ) (k : κ) (xs : List α) : List α := xs.filter fun x => key x ≠ k

def Increasing (key : α → κ) (xs : List α) : Prop := xs.Pairwise fun x y => key x < key y

theorem insert_of_fresh (h : ∀ x ∈ xs, key x ≠ key a) :
    insert key a xs = xs.orderedInsert (fun x y => key x ≤ key y) a := by
  apply if_neg
  rintro ⟨x, hx, hkey⟩
  exact h x hx hkey

theorem perm_insert (h : ∀ x ∈ xs, key x ≠ key a) : (insert key a xs).Perm (a :: xs) := by
  rw [insert_of_fresh h]
  apply List.perm_orderedInsert

theorem mem_insert (h : x ∈ insert key a xs) : x = a ∨ x ∈ xs := by
  unfold insert at h
  split_ifs at h
  · exact Or.inr h
  · exact (List.mem_orderedInsert _).mp h

theorem subset_insert : xs ⊆ insert key a xs := by
  intro x hx
  unfold insert
  split_ifs
  · exact hx
  · exact (List.mem_orderedInsert _).mpr (Or.inr hx)

theorem length_insert_le (key : α → κ) (a : α) (xs : List α) : (insert key a xs).length ≤ xs.length + 1 := by
  unfold insert
  split_ifs
  · exact Nat.le_succ _
  · exact (List.orderedInsert_length _ _ _).le

theorem idxOf_orderedInsert_le {α : Type*} [DecidableEq α] (r : α → α → Prop) [DecidableRel r] (a x : α)
    (xs : List α) : (xs.orderedInsert r a).idxOf x ≤ xs.idxOf x + 1 := by
  induction xs with
  | nil => exact List.idxOf_le_length
  | cons y ys ih =>
    rw [List.orderedInsert_cons]
    split_ifs
    · by_cases hax : a = x
      · simp [hax]
      · rw [List.idxOf_cons_ne _ hax]
    · by_cases hyx : y = x
      · simp [hyx]
      · rw [List.idxOf_cons_ne _ hyx, List.idxOf_cons_ne _ hyx]
        exact Nat.succ_le_succ ih

theorem idxOf_insert_le [DecidableEq α] (key : α → κ) (a x : α) (xs : List α) :
    (insert key a xs).idxOf x ≤ xs.idxOf x + 1 := by
  unfold insert
  split_ifs
  · exact Nat.le_succ _
  · exact idxOf_orderedInsert_le _ _ _ _

theorem head?_le (h : Increasing key xs) (ha : xs.head? = some a) (hx : x ∈ xs) : key a ≤ key x := by
  cases xs with
  | nil => cases hx
  | cons y ys =>
    obtain rfl := Option.some.inj ha
    rcases List.mem_cons.mp hx with rfl | hx
    · exact le_rfl
    · exact ((List.pairwise_cons.mp h).1 x hx).le

theorem mem_erase {k : κ} : x ∈ erase key k xs ↔ x ∈ xs ∧ key x ≠ k := by
  simp [erase]

theorem insert_increasing (hxs : Increasing key xs) : Increasing key (insert key a xs) := by
  by_cases h : ∃ x ∈ xs, key x = key a
  · rw [insert, if_pos h]
    exact hxs
  · push Not at h
    rw [insert_of_fresh h]
    induction xs with
    | nil => simp [Increasing]
    | cons y ys ih =>
      obtain ⟨hy, hys⟩ := List.pairwise_cons.mp hxs
      have hya : key y ≠ key a := h y (by simp)
      rw [List.orderedInsert_cons]
      split_ifs with hle
      · have hlt : key a < key y := lt_of_le_of_ne hle hya.symm
        apply List.pairwise_cons.mpr
        refine ⟨fun z hz => ?_, hxs⟩
        rcases List.mem_cons.mp hz with rfl | hz
        · exact hlt
        · exact hlt.trans (hy z hz)
      · apply List.pairwise_cons.mpr
        refine ⟨fun z hz => ?_, ih hys fun z hz => h z (by simp [hz])⟩
        rcases (List.mem_orderedInsert _).mp hz with rfl | hz
        · exact not_le.mp hle
        · exact hy z hz

theorem head?_insert (h : ∀ x ∈ xs, key x ≠ key a) :
    (insert key a xs).head? = some a ∧ (∀ x, xs.head? = some x → key a ≤ key x) ∨
      ∃ x, xs.head? = some x ∧ key x ≤ key a ∧ (insert key a xs).head? = some x := by
  rw [insert_of_fresh h]
  cases xs with
  | nil => simp
  | cons y ys =>
    rw [List.orderedInsert_cons]
    split_ifs with hle
    · left
      simpa using hle
    · right
      exact ⟨y, rfl, (not_le.mp hle).le, rfl⟩

end OrderedSet
