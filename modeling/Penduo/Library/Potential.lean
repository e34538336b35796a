import Mathlib.Tactic.Ring
import Penduo.Library.Runs

set_option autoImplicit false

/-!
Runs that use up a potential. A step lowers it by what it spends and raises it by what it earns,
until something is done that stays done.
-/

namespace LabelledRuns

variable {σ ε : Type*} {next : σ → ε → σ → Prop} {s t : σ} {es : List ε}

def total (f : ε → ℕ) (es : List ε) : ℕ := (es.map f).sum

theorem total_snoc (f : ε → ℕ) (es : List ε) (e : ε) : total f (es ++ [e]) = total f es + f e := by
  simp [total]

theorem total_countP (n : ℕ) (p : ε → Bool) (es : List ε) :
    total (fun e => if p e then n else 0) es = n * es.countP p := by
  induction es with
  | nil => rfl
  | cons e es ih =>
    have hcons : total (fun e => if p e then n else 0) (e :: es) =
        (if p e then n else 0) + total (fun e => if p e then n else 0) es := rfl
    rw [hcons, ih, List.countP_cons]
    split_ifs <;> ring

theorem Run.potential (Φ : σ → ℕ) (spend earn : ε → ℕ) (pending done : σ → Prop)
    (hstep : ∀ s e t, pending s → next s e t → done t ∨ pending t ∧ Φ t + spend e ≤ Φ s + earn e)
    (hdone : ∀ s e t, done s → next s e t → done t) (h : Run next s es t) (hs : pending s) :
    done t ∨ pending t ∧ Φ t + total spend es ≤ Φ s + total earn es := by
  induction h with
  | nil => exact Or.inr ⟨hs, le_rfl⟩
  | @snoc es t e u _ hn ih =>
    rcases ih with hd | ⟨ht, hle⟩
    · exact Or.inl (hdone _ _ _ hd hn)
    · rcases hstep _ _ _ ht hn with hd | ⟨hu, hle'⟩
      · exact Or.inl hd
      · refine Or.inr ⟨hu, ?_⟩
        rw [total_snoc, total_snoc]
        omega

/-- Where something can always be done that finishes or lowers the potential, one step more than it has is enough. -/
theorem reaches_of_progress (Φ : σ → ℕ) (pending done : σ → Prop)
    (h : ∀ s, pending s → done s ∨ ∃ e t, next s e t ∧ (done t ∨ pending t ∧ Φ t < Φ s)) (hs : pending s) :
    ∃ es t, Run next s es t ∧ es.length ≤ Φ s + 1 ∧ done t := by
  induction hn : Φ s using Nat.strong_induction_on generalizing s with
  | _ n ih =>
    rcases h s hs with hd | ⟨e, t, hstep, hd | ⟨ht, hlt⟩⟩
    · exact ⟨[], s, .nil, Nat.zero_le _, hd⟩
    · exact ⟨[e], t, Run.cons hstep .nil, by simp, hd⟩
    · obtain ⟨es, u, hrun, hlength, hu⟩ := ih (Φ t) (hn ▸ hlt) ht rfl
      refine ⟨e :: es, u, Run.cons hstep hrun, ?_, hu⟩
      rw [List.length_cons]
      omega

end LabelledRuns
