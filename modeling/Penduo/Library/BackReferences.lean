import Mathlib.Data.List.Basic

set_option autoImplicit false

/-!
A list whose entries belong to owners that each remember the position of their own entry.
Entries are removed by exchanging them with the last one, so the owner of the last entry has to
be told its new position.
-/

namespace BackReferences

variable {α κ : Type*}

def swapBack (xs : List α) (i : ℕ) : List α :=
  match xs[i]?, xs[xs.length - 1]? with
  | some x, some y => (xs.set i y).set (xs.length - 1) x
  | _, _ => xs

@[simp] theorem swapBack_length (xs : List α) (i : ℕ) : (swapBack xs i).length = xs.length := by
  unfold swapBack
  split <;> simp

theorem swapBack_eq {xs : List α} {i : ℕ} (hi : i < xs.length) (hl : xs.length - 1 < xs.length) :
    swapBack xs i = (xs.set i xs[xs.length - 1]).set (xs.length - 1) xs[i] := by
  simp [swapBack, List.getElem?_eq_getElem hi, List.getElem?_eq_getElem hl]

theorem swapBack_last (xs : List α) : swapBack xs (xs.length - 1) = xs := by
  by_cases h : xs.length - 1 < xs.length
  · rw [swapBack_eq h h]
    simp
  · have hx : xs = [] := by
      apply List.eq_nil_of_length_eq_zero
      omega
    simp [swapBack, hx]

theorem swapBack_map {β : Type*} (f : α → β) (xs : List α) (i : ℕ) :
    (swapBack xs i).map f = swapBack (xs.map f) i := by
  unfold swapBack
  rw [List.getElem?_map, List.getElem?_map, List.length_map]
  cases xs[i]? with
  | none => rfl
  | some x =>
    cases xs[xs.length - 1]? with
    | none => rfl
    | some y => simp [List.map_set]

theorem swapBack_get_self {xs : List α} {i : ℕ} (hi : i < xs.length) :
    (swapBack xs i)[i]? = xs[xs.length - 1]? := by
  have hl : xs.length - 1 < xs.length := by omega
  rw [swapBack_eq hi hl, List.getElem?_set, List.getElem?_set]
  split_ifs with h <;> simp_all

theorem dropLast_swapBack_get {xs : List α} {i j : ℕ} (hi : i < xs.length) (hj : j < xs.length - 1) :
    (swapBack xs i).dropLast[j]? = if j = i then xs[xs.length - 1]? else xs[j]? := by
  have hl : xs.length - 1 < xs.length := by omega
  rw [List.getElem?_dropLast, swapBack_length, if_pos hj, swapBack_eq hi hl,
    List.getElem?_set_ne (by omega), List.getElem?_set]
  by_cases h : i = j
  · subst h
    simp [hi, List.getElem?_eq_getElem hl]
  · simp [h, Ne.symm h]

/-- Every owner's index names a slot that fits it, no two owners share a slot, and every slot has
an owner. -/
structure Indexed (owner : κ → Prop) (index : κ → ℕ) (fits : κ → α → Prop) (xs : List α) : Prop where
  slot : ∀ c, owner c → ∃ x, xs[index c]? = some x ∧ fits c x
  injective : ∀ c d, owner c → owner d → index c = index d → c = d
  covered : ∀ i < xs.length, ∃ c, owner c ∧ index c = i

variable {owner owner' : κ → Prop} {index index' : κ → ℕ} {fits fits' : κ → α → Prop}
  {xs : List α} {c d : κ} {x : α}

theorem Indexed.lt (h : Indexed owner index fits xs) (hc : owner c) : index c < xs.length := by
  obtain ⟨x, hx, _⟩ := h.slot c hc
  exact (List.getElem?_eq_some_iff.mp hx).1

theorem Indexed.empty (howner : ∀ c, ¬ owner c) : Indexed owner index fits [] where
  slot c hc := absurd hc (howner c)
  injective c d hc _ _ := absurd hc (howner c)
  covered i hi := by simp at hi

theorem Indexed.push (h : Indexed owner index fits xs) (hc : ¬ owner c)
    (howner : ∀ d, owner' d ↔ d = c ∨ owner d) (hindex : index' c = xs.length)
    (hframe : ∀ d, owner d → index' d = index d) (hx : fits' c x)
    (hfits : ∀ d y, owner d → fits d y → fits' d y) : Indexed owner' index' fits' (xs ++ [x]) where
  slot d hd := by
    rcases (howner d).mp hd with rfl | hd
    · exact ⟨x, by simp [hindex], hx⟩
    · obtain ⟨y, hy, hf⟩ := h.slot d hd
      refine ⟨y, ?_, hfits d y hd hf⟩
      rw [hframe d hd, List.getElem?_append_left (h.lt hd), hy]
  injective d e hd he heq := by
    rcases (howner d).mp hd with rfl | hd <;> rcases (howner e).mp he with rfl | he
    · rfl
    · have := h.lt he
      rw [hindex, hframe e he] at heq
      omega
    · have := h.lt hd
      rw [hindex, hframe d hd] at heq
      omega
    · rw [hframe d hd, hframe e he] at heq
      exact h.injective d e hd he heq
  covered i hi := by
    rcases Nat.lt_or_ge i xs.length with hlt | hge
    · obtain ⟨d, hd, rfl⟩ := h.covered i hlt
      exact ⟨d, (howner d).mpr (Or.inr hd), hframe d hd⟩
    · refine ⟨c, (howner c).mpr (Or.inl rfl), ?_⟩
      simp only [List.length_append, List.length_singleton] at hi
      omega

theorem Indexed.set (h : Indexed owner index fits xs) (hc : owner c) (hx : fits' c x)
    (hfits : ∀ d y, owner d → d ≠ c → fits d y → fits' d y) :
    Indexed owner index fits' (xs.set (index c) x) where
  slot d hd := by
    by_cases hdc : d = c
    · subst hdc
      exact ⟨x, by simp [h.lt hd], hx⟩
    · obtain ⟨y, hy, hf⟩ := h.slot d hd
      have hne : index c ≠ index d := fun he => hdc (h.injective c d hc hd he).symm
      exact ⟨y, by rw [List.getElem?_set_ne hne, hy], hfits d y hd hdc hf⟩
  injective := h.injective
  covered i hi := h.covered i (by simpa using hi)

def Renumbered (owner : κ → Prop) (index index' : κ → ℕ) (last : ℕ) (c : κ) : Prop :=
  ∀ d, owner d → d ≠ c → index' d = if index d = last then index c else index d

theorem Indexed.remove_slot (h : Indexed owner index fits xs) (hc : owner c)
    (hnum : Renumbered owner index index' (xs.length - 1) c) (hd : owner d) (hdc : d ≠ c) :
    (swapBack xs (index c)).dropLast[index' d]? = xs[index d]? := by
  have hlc := h.lt hc
  have hld := h.lt hd
  have hne : index d ≠ index c := fun he => hdc (h.injective d c hd hc he)
  rw [hnum d hd hdc]
  split_ifs with hlast
  · rw [dropLast_swapBack_get hlc (by omega), if_pos rfl, hlast]
  · rw [dropLast_swapBack_get hlc (by omega), if_neg hne]

theorem Indexed.remove (h : Indexed owner index fits xs) (hc : owner c)
    (hnum : Renumbered owner index index' (xs.length - 1) c)
    (howner : ∀ d, owner' d ↔ owner d ∧ d ≠ c)
    (hfits : ∀ d y, owner d → d ≠ c → fits d y → fits' d y) :
    Indexed owner' index' fits' (swapBack xs (index c)).dropLast where
  slot d hd := by
    obtain ⟨hd, hdc⟩ := (howner d).mp hd
    obtain ⟨y, hy, hf⟩ := h.slot d hd
    exact ⟨y, by rw [h.remove_slot hc hnum hd hdc, hy], hfits d y hd hdc hf⟩
  injective d e hd he heq := by
    obtain ⟨hd, hdc⟩ := (howner d).mp hd
    obtain ⟨he, hec⟩ := (howner e).mp he
    have hned : index d ≠ index c := fun hi => hdc (h.injective d c hd hc hi)
    have hnee : index e ≠ index c := fun hi => hec (h.injective e c he hc hi)
    apply h.injective d e hd he
    rw [hnum d hd hdc, hnum e he hec] at heq
    split_ifs at heq <;> omega
  covered i hi := by
    simp only [List.length_dropLast, swapBack_length] at hi
    by_cases hic : i = index c
    · obtain ⟨d, hd, hlast⟩ := h.covered (xs.length - 1) (by omega)
      have hdc : d ≠ c := by
        rintro rfl
        omega
      exact ⟨d, (howner d).mpr ⟨hd, hdc⟩, by rw [hnum d hd hdc, if_pos hlast, hic]⟩
    · obtain ⟨d, hd, rfl⟩ := h.covered i (by omega)
      have hdc : d ≠ c := by
        rintro rfl
        exact hic rfl
      exact ⟨d, (howner d).mpr ⟨hd, hdc⟩, by rw [hnum d hd hdc, if_neg (by omega)]⟩

end BackReferences
