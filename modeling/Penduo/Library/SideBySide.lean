import Mathlib.Logic.Function.Basic

set_option autoImplicit false

/-!
Machines that run side by side. Each event is for one of them and leaves the others as they are.
-/

namespace SideBySide

variable {ι σ ε φ : Type*} [DecidableEq ι] {i j : ι} {es ds : List (ι × ε)}

def eventsAt (i : ι) (es : List (ι × ε)) : List ε := (es.filter fun e => e.1 = i).map Prod.snd

theorem eventsAt_cons_self (i : ι) (e : ε) (es : List (ι × ε)) : eventsAt i ((i, e) :: es) = e :: eventsAt i es := by
  simp [eventsAt]

theorem eventsAt_cons_of_ne (h : j ≠ i) (e : ε) (es : List (ι × ε)) : eventsAt i ((j, e) :: es) = eventsAt i es := by
  simp [eventsAt, h]

theorem eventsAt_append (i : ι) (ds es : List (ι × ε)) : eventsAt i (ds ++ es) = eventsAt i ds ++ eventsAt i es := by
  simp [eventsAt]

theorem mem_eventsAt {e : ε} : e ∈ eventsAt i es ↔ (i, e) ∈ es := by
  simp [eventsAt]

variable {move : σ → ε → Except φ σ} {ss ts us : ι → σ}

def step (move : σ → ε → Except φ σ) (ss : ι → σ) (e : ι × ε) : Except φ (ι → σ) :=
  match move (ss e.1) e.2 with
  | .ok t => .ok (Function.update ss e.1 t)
  | .error f => .error f

def run (move : σ → ε → Except φ σ) : (ι → σ) → List (ι × ε) → Except φ (ι → σ)
  | ss, [] => .ok ss
  | ss, e :: es =>
    match step move ss e with
    | .ok ts => run move ts es
    | .error f => .error f

theorem run_cons (e : ε) (es : List (ι × ε)) :
    run move ss ((i, e) :: es) = .ok ts ↔
      ∃ t, move (ss i) e = .ok t ∧ run move (Function.update ss i t) es = .ok ts := by
  cases h : move (ss i) e with
  | ok t => simp [run, step, h]
  | error f => simp [run, step, h]

theorem run_single {e : ε} {t : σ} (h : move (ss i) e = .ok t) :
    run move ss [(i, e)] = .ok (Function.update ss i t) := (run_cons e []).mpr ⟨t, h, rfl⟩

theorem run_append (h : run move ss ds = .ok ts) (h' : run move ts es = .ok us) : run move ss (ds ++ es) = .ok us := by
  induction ds generalizing ss with
  | nil =>
    obtain rfl := Except.ok.inj h
    exact h'
  | cons d ds ih =>
    obtain ⟨i, d⟩ := d
    obtain ⟨t, ht, hrun⟩ := (run_cons d ds).mp h
    exact (run_cons d (ds ++ es)).mpr ⟨t, ht, ih hrun⟩

theorem foldlM_cons_ok {s t : σ} (e : ε) (es : List ε) :
    (e :: es).foldlM move s = .ok t ↔ ∃ u, move s e = .ok u ∧ es.foldlM move u = .ok t := by
  rw [List.foldlM_cons]
  cases move s e with
  | ok u => simp [bind, Except.bind]
  | error f => simp [bind, Except.bind]

/-- What the machines do in any interleaving is what each of them does on its own events. -/
theorem run_iff : run move ss es = .ok ts ↔ ∀ i, (eventsAt i es).foldlM move (ss i) = .ok (ts i) := by
  induction es generalizing ss with
  | nil => simp [run, eventsAt, funext_iff, pure, Except.pure]
  | cons e es ih =>
    obtain ⟨j, e⟩ := e
    simp only [run_cons, ih]
    constructor
    · rintro ⟨t, ht, hrest⟩ i
      have hi := hrest i
      by_cases hij : i = j
      · subst hij
        rw [Function.update_self] at hi
        rw [eventsAt_cons_self]
        exact (foldlM_cons_ok e _).mpr ⟨t, ht, hi⟩
      · rw [Function.update_of_ne hij] at hi
        rw [eventsAt_cons_of_ne (Ne.symm hij)]
        exact hi
    · intro hall
      have hj := hall j
      rw [eventsAt_cons_self] at hj
      obtain ⟨t, ht, hrest⟩ := (foldlM_cons_ok e _).mp hj
      refine ⟨t, ht, fun i => ?_⟩
      by_cases hij : i = j
      · subst hij
        rw [Function.update_self]
        exact hrest
      · rw [Function.update_of_ne hij, ← eventsAt_cons_of_ne (Ne.symm hij) e es]
        exact hall i

end SideBySide
