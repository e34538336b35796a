import Mathlib.Algebra.Order.Group.Multiset
import Penduo.Library.Runs

set_option autoImplicit false

/-- What a timer service is for: each thing that was added waits for its deadline, and is then fired
once, with the time that was read for it. -/
structure Deadlines (α τ : Type*) where
  clock : τ
  added : List α
  waiting : Multiset α
  fired : List (α × τ)

namespace Deadlines

open LabelledRuns

variable {α τ : Type*}

inductive Action (α τ : Type*)
  | tick (now : τ)
  | add (a : α)
  | fire (a : α) (now : τ)

section Service

variable [LinearOrder τ] {deadline : α → τ} {s s' : Deadlines α τ}

inductive Step (deadline : α → τ) (s : Deadlines α τ) : Action α τ → Deadlines α τ → Prop
  | tick (now : τ) (hle : s.clock ≤ now) : Step deadline s (.tick now) { s with clock := now }
  | add (a : α) (hnew : a ∉ s.added) :
      Step deadline s (.add a) { s with added := s.added ++ [a], waiting := a ::ₘ s.waiting }
  | fire (a : α) (rest : Multiset α) (now : τ) (hwaiting : s.waiting = a ::ₘ rest) (hdue : deadline a ≤ now)
      (hnow : now ≤ s.clock) :
      Step deadline s (.fire a now) { s with waiting := rest, fired := s.fired ++ [(a, now)] }

def start (clock : τ) : Deadlines α τ := ⟨clock, [], 0, []⟩

structure Kept (deadline : α → τ) (s : Deadlines α τ) : Prop where
  distinct : s.added.Nodup
  accounted : s.waiting + (s.fired.map Prod.fst : List α) = s.added
  timely : ∀ f ∈ s.fired, deadline f.1 ≤ f.2 ∧ f.2 ≤ s.clock

theorem Step.kept {e : Action α τ} (h : s.Kept deadline) (hs : Step deadline s e s') : s'.Kept deadline := by
  cases hs with
  | tick now hle => exact ⟨h.distinct, h.accounted, fun f hf => ⟨(h.timely f hf).1, (h.timely f hf).2.trans hle⟩⟩
  | add a hnew =>
    refine ⟨by simpa using h.distinct.concat hnew, ?_, h.timely⟩
    have hsnoc : ((s.added ++ [a] : List α) : Multiset α) = a ::ₘ s.added := by
      rw [← Multiset.coe_add, add_comm]
      rfl
    rw [hsnoc, ← h.accounted, Multiset.cons_add]
  | fire a rest now hwaiting hdue hnow =>
    refine ⟨h.distinct, ?_, ?_⟩
    · have hacc := h.accounted
      rw [hwaiting, Multiset.cons_add] at hacc
      rw [← hacc, List.map_append, ← Multiset.coe_add, ← add_assoc, add_comm]
      rfl
    · intro f hf
      rcases List.mem_append.mp hf with hf | hf
      · exact h.timely f hf
      · obtain rfl := List.mem_singleton.mp hf
        exact ⟨hdue, hnow⟩

theorem run_kept {clock : τ} {es : List (Action α τ)} (h : Run (Step deadline) (start clock) es s) :
    s.Kept deadline :=
  h.invariant (fun _ _ _ hs hn => hn.kept hs) ⟨List.nodup_nil, rfl, fun _ hf => absurd hf List.not_mem_nil⟩

theorem Kept.fired_nodup (h : s.Kept deadline) : (s.fired.map Prod.fst).Nodup := by
  have hle : ((s.fired.map Prod.fst : List α) : Multiset α) ≤ s.added := by
    rw [← h.accounted]
    exact Multiset.le_add_left _ _
  exact Multiset.coe_nodup.mp (Multiset.nodup_of_le hle (Multiset.coe_nodup.mpr h.distinct))

end Service

end Deadlines
