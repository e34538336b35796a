import Mathlib.Data.List.Induction

set_option autoImplicit false

namespace LabelledRuns

variable {σ ε τ δ : Type*}

inductive Run (next : σ → ε → σ → Prop) (s : σ) : List ε → σ → Prop
  | nil : Run next s [] s
  | snoc {es : List ε} {t : σ} {e : ε} {u : σ} :
      Run next s es t → next t e u → Run next s (es ++ [e]) u

variable {next : σ → ε → σ → Prop} {s t u : σ} {es fs : List ε}

theorem Run.single {e : ε} (h : next s e t) : Run next s [e] t :=
  Run.snoc .nil h

theorem Run.append (h : Run next s es t) (h' : Run next t fs u) : Run next s (es ++ fs) u := by
  induction h' with
  | nil => simpa using h
  | snoc _ hn ih =>
    rw [← List.append_assoc]
    exact ih.snoc hn

theorem Run.cons {e : ε} (h : next s e t) (h' : Run next t es u) : Run next s (e :: es) u :=
  (Run.single h).append h'

theorem Run.snoc_inv {e : ε} (h : Run next s (es ++ [e]) u) :
    ∃ t, Run next s es t ∧ next t e u := by
  generalize hl : es ++ [e] = l at h
  cases h with
  | nil => simp at hl
  | @snoc es' t e' _ h hn =>
    obtain ⟨rfl, rfl⟩ : es = es' ∧ e = e' := by simpa using List.append_inj' hl rfl
    exact ⟨t, h, hn⟩

theorem Run.split (h : Run next s (es ++ fs) u) : ∃ t, Run next s es t ∧ Run next t fs u := by
  induction fs using List.reverseRecOn generalizing u with
  | nil => exact ⟨u, by simpa using h, .nil⟩
  | append_singleton fs f ih =>
    rw [← List.append_assoc] at h
    obtain ⟨v, hv, hn⟩ := h.snoc_inv
    obtain ⟨t, ht, hr⟩ := ih hv
    exact ⟨t, ht, hr.snoc hn⟩

theorem Run.invariant {I : σ → Prop} (hstep : ∀ s e t, I s → next s e t → I t)
    (h : Run next s es t) (hs : I s) : I t := by
  induction h with
  | nil => exact hs
  | snoc _ hn ih => exact hstep _ _ _ ih hn

theorem Run.history {I : List ε → σ → Prop}
    (hstep : ∀ es s e t, I es s → next s e t → I (es ++ [e]) t)
    (h : Run next s es t) (hs : I [] s) : I es t := by
  induction h with
  | nil => exact hs
  | snoc _ hn ih => exact hstep _ _ _ _ ih hn

theorem Run.mono {next' : σ → ε → σ → Prop} (hm : ∀ s e t, next s e t → next' s e t)
    (h : Run next s es t) : Run next' s es t := by
  induction h with
  | nil => exact .nil
  | snoc _ hn ih => exact ih.snoc (hm _ _ _ hn)

def Guarded (next : σ → ε → σ → Prop) (guard : σ → ε → Prop) (s : σ) (e : ε) (t : σ) : Prop := next s e t ∧ guard s e

theorem Run.simulation {next' : τ → δ → τ → Prop} {R : σ → τ → Prop}
    (hstep : ∀ s e t a, R s a → next s e t → ∃ ds b, Run next' a ds b ∧ R t b)
    (h : Run next s es t) {a : τ} (hs : R s a) : ∃ ds b, Run next' a ds b ∧ R t b := by
  induction h with
  | nil => exact ⟨[], a, .nil, hs⟩
  | snoc _ hn ih =>
    obtain ⟨ds, b, hb, hr⟩ := ih
    obtain ⟨ds', b', hb', hr'⟩ := hstep _ _ _ _ hr hn
    exact ⟨ds ++ ds', b', hb.append hb', hr'⟩

def Next (step : σ → ε → Option σ) (s : σ) (e : ε) (t : σ) : Prop := step s e = some t

def exec (step : σ → ε → Option σ) : σ → List ε → Option σ
  | s, [] => some s
  | s, e :: es => (step s e).bind fun t => exec step t es

theorem run_of_exec {step : σ → ε → Option σ} (h : exec step s es = some t) :
    Run (Next step) s es t := by
  induction es generalizing s with
  | nil =>
    obtain rfl : s = t := by simpa [exec] using h
    exact .nil
  | cons e es ih =>
    obtain ⟨u, hu, h⟩ := Option.bind_eq_some_iff.mp h
    exact Run.cons hu (ih h)

theorem exec_append {step : σ → ε → Option σ} (s : σ) (es fs : List ε) :
    exec step s (es ++ fs) = (exec step s es).bind fun t => exec step t fs := by
  induction es generalizing s with
  | nil => rfl
  | cons e es ih =>
    cases hn : step s e with
    | none => simp [exec, hn]
    | some t => simpa [exec, hn] using ih t

theorem exec_of_run {step : σ → ε → Option σ} (h : Run (Next step) s es t) : exec step s es = some t := by
  induction h with
  | nil => rfl
  | @snoc es t e u h hn ih =>
    have hn' : step t e = some u := hn
    simp [exec_append, ih, exec, hn']

theorem Run.unique {step : σ → ε → Option σ} (h : Run (Next step) s es t) (h' : Run (Next step) s es u) : t = u :=
  Option.some.inj ((exec_of_run h).symm.trans (exec_of_run h'))

/-- Where a step keeps `I` exactly if it is allowed, every state on the way has `I` exactly if every step is. -/
theorem Run.kept_iff {step : σ → ε → Option σ} {I : σ → Prop} {guard : σ → ε → Prop}
    (hstep : ∀ s e t, I s → Next step s e t → (I t ↔ guard s e)) (hs : I s) (h : Run (Next step) s es t) :
    (∀ fs u, fs <+: es → Run (Next step) s fs u → I u) ↔ Run (Guarded (Next step) guard) s es t := by
  induction h with
  | nil =>
    refine ⟨fun _ => .nil, fun _ fs u hfs hu => ?_⟩
    obtain rfl := List.prefix_nil.mp hfs
    rwa [hu.unique .nil]
  | @snoc es t e u h hn ih =>
    constructor
    · intro hkept
      have ht := hkept es t (List.prefix_append _ _) h
      have hu := hkept (es ++ [e]) u (List.prefix_refl _) (h.snoc hn)
      have hguarded := ih.mp fun fs v hfs => hkept fs v (hfs.trans (List.prefix_append _ _))
      exact hguarded.snoc ⟨hn, (hstep t e u ht hn).mp hu⟩
    · intro hguarded fs v hfs hv
      obtain ⟨t', hrun, hn', hguard⟩ := hguarded.snoc_inv
      obtain rfl := (hrun.mono fun _ _ _ hn => hn.1).unique h
      rcases List.prefix_concat_iff.mp hfs with rfl | hfs
      · rw [hv.unique (h.snoc hn)]
        exact (hstep t' e u (ih.mpr hrun es t' (List.prefix_refl _) h) hn).mpr hguard
      · exact ih.mpr hrun fs v hfs hv

def guardedStep (step : σ → ε → Option σ) (guard : σ → ε → Bool) (s : σ) (e : ε) : Option σ :=
  if guard s e then step s e else none

theorem Run.guarded {step : σ → ε → Option σ} {guard : σ → ε → Bool}
    (h : Run (Next (guardedStep step guard)) s es t) :
    Run (Guarded (Next step) fun s e => guard s e = true) s es t := by
  apply h.mono
  intro s e t hn
  simp only [Next, guardedStep, Option.ite_none_right_eq_some] at hn
  exact ⟨hn.2, hn.1⟩

theorem run_of_exec_map {α : Type*} {step : σ → ε → Option σ} (f : σ → α) {a : α}
    (h : (exec step s es).map f = some a) : ∃ t, Run (Next step) s es t ∧ f t = a := by
  obtain ⟨t, ht, hf⟩ := Option.map_eq_some_iff.mp h
  exact ⟨t, run_of_exec ht, hf⟩

end LabelledRuns
