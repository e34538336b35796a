import Mathlib.Data.List.AList

set_option autoImplicit false

abbrev FiniteMap (α β : Type) := AList (fun _ : α => β)

namespace FiniteMap

variable {α β : Type} [DecidableEq α] {m : FiniteMap α β} {a a' : α} {b b' : β}

def find (m : FiniteMap α β) (a : α) : Option β := m.lookup a

def size (m : FiniteMap α β) : ℕ := m.keys.length

def insertNew (m : FiniteMap α β) (a : α) (b : β) : FiniteMap α β := if a ∈ m then m else m.insert a b

def assign (m : FiniteMap α β) (a : α) (b : β) : FiniteMap α β := m.insert a b

@[simp] theorem find_empty : find (∅ : FiniteMap α β) a = none := AList.lookup_empty a

theorem mem_iff_find : a ∈ m ↔ ∃ b, m.find a = some b := by
  rw [← Option.isSome_iff_exists]
  exact AList.lookup_isSome.symm

theorem find_eq_none : m.find a = none ↔ a ∉ m := AList.lookup_eq_none

theorem mem_of_find (h : m.find a = some b) : a ∈ m := mem_iff_find.mpr ⟨b, h⟩

theorem find_assign (m : FiniteMap α β) (a a' : α) (b : β) :
    (m.assign a b).find a' = if a' = a then some b else m.find a' := by
  split_ifs with h
  · subst h
    exact AList.lookup_insert m
  · exact AList.lookup_insert_ne h

theorem insertNew_eq (h : a ∉ m) : m.insertNew a b = m.assign a b := if_neg h

theorem find_erase (m : FiniteMap α β) (a a' : α) :
    find (AList.erase a m) a' = if a' = a then none else m.find a' := by
  split_ifs with h
  · subst h
    exact AList.lookup_erase a' m
  · exact AList.lookup_erase_ne h

theorem map_find_assign {γ : Type} (f : β → γ) (m : FiniteMap α β) (a a' : α) (b : β) :
    ((m.assign a b).find a').map f = if a' = a then some (f b) else (m.find a').map f := by
  rw [find_assign]
  split_ifs <;> rfl

theorem map_find_update {γ : Type} {f : β → γ} (hb : m.find a = some b) (hf : f b' = f b) (a' : α) :
    ((m.assign a b').find a').map f = (m.find a').map f := by
  rw [map_find_assign]
  split_ifs with h
  · rw [h, hb, hf]
    rfl
  · rfl

theorem map_find_erase {γ : Type} (f : β → γ) (m : FiniteMap α β) (a a' : α) :
    (find (AList.erase a m) a').map f = if a' = a then none else (m.find a').map f := by
  rw [find_erase]
  split_ifs <;> rfl

theorem size_assign (h : a ∉ m) : (m.assign a b).size = m.size + 1 := by
  have hk : a ∉ m.keys := h
  simp [size, assign, AList.keys_insert, List.erase_of_not_mem hk]

theorem size_erase (h : a ∈ m) : size (AList.erase a m) + 1 = m.size := by
  have hk : a ∈ m.keys := h
  have hpos := List.length_pos_of_mem hk
  simp only [size, AList.keys_erase, List.length_erase_of_mem hk]
  omega

end FiniteMap
