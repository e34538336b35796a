import Mathlib.Algebra.BigOperators.Group.Finset.Basic
import Mathlib.Algebra.Order.BigOperators.Group.Finset
import Mathlib.Data.Multiset.Bind

set_option autoImplicit false

/-!
Jobs that are run in batches. What a job spawns is run in the batch after its own, as is what comes from outside
while that batch is run.
-/

namespace Generations

variable {α β : Type*} {l l' : List (ℕ × α)} {b e : ℕ}

def during (b : ℕ) (l : List (ℕ × α)) : List α := (l.filter fun r => r.1 = b).map Prod.snd

theorem during_append (b : ℕ) (l l' : List (ℕ × α)) : during b (l ++ l') = during b l ++ during b l' := by
  simp [during]

theorem during_perm (b : ℕ) (h : l.Perm l') : (during b l).Perm (during b l') := (h.filter _).map _

theorem during_eq_nil (h : ∀ r ∈ l, r.1 ≠ b) : during b l = [] := by
  have hfilter : l.filter (fun r => r.1 = b) = [] := List.filter_eq_nil_iff.mpr fun r hr => by simpa using h r hr
  rw [during, hfilter, List.map_nil]

theorem during_pairs {γ : Type*} (batch : γ → ℕ) (f : γ → α) (l : List γ) (b : ℕ) :
    during b (l.map fun c => (batch c, f c)) = (l.filter fun c => batch c = b).map f := by
  rw [during, List.filter_map, List.map_map]
  rfl

theorem during_self (as : List α) (b : ℕ) : during b (as.map (Prod.mk b)) = as := by
  induction as with
  | nil => rfl
  | cons a as ih => simpa [during] using ih

theorem during_other (as : List α) (h : e ≠ b) : during b (as.map (Prod.mk e)) = [] :=
  during_eq_nil fun r hr => by
    obtain ⟨a, _, rfl⟩ := List.mem_map.mp hr
    exact h

theorem during_flatMap (f : α → List β) (l : List (ℕ × α)) (b : ℕ) :
    during b (l.flatMap fun r => (f r.2).map (Prod.mk r.1)) = (during b l).flatMap f := by
  induction l with
  | nil => rfl
  | cons r l ih =>
    rw [List.flatMap_cons, during_append, ih]
    by_cases h : r.1 = b
    · rw [h, during_self]
      simp [during, h]
    · rw [during_other _ h]
      simp [during, h]

def descendants (spawn : α → List α) : ℕ → α → List α
  | 0, a => [a]
  | d + 1, a => (descendants spawn d a).flatMap spawn

variable {spawn : α → List α} {roots ran : ℕ → List α}

theorem sum_flatMap (ls : ℕ → List α) (f : α → List β) (b : ℕ) :
    (∑ e ∈ Finset.range b, (ls e : Multiset α)).bind (fun a => (f a : Multiset β)) =
      ∑ e ∈ Finset.range b, ((ls e).flatMap f : Multiset β) := by
  induction b with
  | zero => simp
  | succ b ih => rw [Finset.sum_range_succ, Finset.sum_range_succ, Multiset.add_bind, ih, Multiset.coe_bind]

theorem flatMap_descendants_zero (as : List α) : as.flatMap (descendants spawn 0) = as := by
  have hzero : descendants spawn 0 = fun a => [a] := rfl
  rw [hzero, List.flatMap_singleton']

theorem flatMap_descendants_succ (as : List α) (d : ℕ) :
    (as.flatMap (descendants spawn d)).flatMap spawn = as.flatMap (descendants spawn (d + 1)) :=
  List.flatMap_assoc

theorem ran_eq_descendants (hzero : ran 0 = [])
    (hsucc : ∀ c < b, (ran (c + 1)).Perm (roots c ++ (ran c).flatMap spawn)) :
    (ran b : Multiset α) =
      ∑ e ∈ Finset.range b, ((roots e).flatMap (descendants spawn (b - 1 - e)) : Multiset α) := by
  induction b with
  | zero => simp [hzero]
  | succ b ih =>
    have hran := ih fun c hc => hsucc c (hc.trans (Nat.lt_succ_self b))
    have hlater : ∀ e ∈ Finset.range b, ((roots e).flatMap (descendants spawn (b - 1 - e))).flatMap spawn =
        (roots e).flatMap (descendants spawn (b + 1 - 1 - e)) := by
      intro e he
      have hlt := Finset.mem_range.mp he
      rw [flatMap_descendants_succ, show b - 1 - e + 1 = b + 1 - 1 - e by omega]
    calc (ran (b + 1) : Multiset α)
        = (roots b : Multiset α) + ((ran b).flatMap spawn : Multiset α) := by
          rw [Multiset.coe_eq_coe.mpr (hsucc b (Nat.lt_succ_self b)), Multiset.coe_add]
      _ = (roots b : Multiset α) +
            ∑ e ∈ Finset.range b, (((roots e).flatMap (descendants spawn (b - 1 - e))).flatMap spawn : Multiset α) := by
          rw [← Multiset.coe_bind, hran, sum_flatMap]
      _ = ∑ e ∈ Finset.range (b + 1), ((roots e).flatMap (descendants spawn (b + 1 - 1 - e)) : Multiset α) := by
          rw [Finset.sum_range_succ, add_comm, Finset.sum_congr rfl fun e he => congrArg _ (hlater e he)]
          congr 1
          rw [show b + 1 - 1 - b = 0 by omega, flatMap_descendants_zero]

end Generations
