import Mathlib.Logic.Function.Basic
import Penduo.Assertions
import Penduo.Library.Runs

set_option autoImplicit false

/-!
The loops of a process, each known to the thread that has constructed it.
-/

namespace Penduo

open LabelledRuns

structure LoopRegistry (T : Type) where
  loopInThisThread : T → Option ℕ
  threadId : ℕ → Option T
  looping : ℕ → Bool
  channelsAdded : ℕ → Bool
  created : ℕ

inductive RegistryEvent (T : Type)
  | construct (t : T)
  | loop (t : T) (l : ℕ)
  | leave (l : ℕ)
  | destroy (t : T) (l : ℕ)
  -- The thread ends, and its identifier may be that of a later one.
  | exit (t : T)
deriving DecidableEq, Repr

namespace LoopRegistry

variable {T : Type} [DecidableEq T] {b : Build} {s s' : LoopRegistry T} {e : RegistryEvent T}
  {es : List (RegistryEvent T)} {t : T} {l : ℕ}

def init : LoopRegistry T :=
  { loopInThisThread := fun _ => none, threadId := fun _ => none, looping := fun _ => false,
    channelsAdded := fun _ => false, created := 0 }

def getEventLoopOfCurrentThread (s : LoopRegistry T) (t : T) : Option ℕ := s.loopInThisThread t

def isInLoopThread (s : LoopRegistry T) (t : T) (l : ℕ) : Bool := s.threadId l = some t

def assertInLoopThread (s : LoopRegistry T) (t : T) (l : ℕ) : Except Fault Unit :=
  if s.isInLoopThread t l then pure () else .error .fatal

def construct (s : LoopRegistry T) (t : T) : Except Fault (LoopRegistry T) :=
  match s.loopInThisThread t with
  | some _ => .error .fatal
  | none =>
    pure { s with loopInThisThread := Function.update s.loopInThisThread t (some s.created)
                  threadId := Function.update s.threadId s.created (some t)
                  channelsAdded := Function.update s.channelsAdded s.created true
                  created := s.created + 1 }

def loop (b : Build) (s : LoopRegistry T) (t : T) (l : ℕ) : Except Fault (LoopRegistry T) := do
  b.check .loopNotLooping (s.looping l = false)
  s.assertInLoopThread t l
  pure { s with looping := Function.update s.looping l true }

def destroy (b : Build) (s : LoopRegistry T) (t : T) (l : ℕ) : Except Fault (LoopRegistry T) := do
  b.check .destroyNotLooping (s.looping l = false)
  let s := { s with loopInThisThread := Function.update s.loopInThisThread t none }
  b.check .destroyAdded (s.channelsAdded l = false)
  pure { s with threadId := Function.update s.threadId l none }

def apply (b : Build) (s : LoopRegistry T) : RegistryEvent T → Except Fault (LoopRegistry T)
  | .construct t => s.construct t
  | .loop t l => if s.threadId l = none then .error .undefinedBehaviour else s.loop b t l
  | .leave l =>
    if s.threadId l = none ∨ s.looping l = false then .error .undefinedBehaviour
    else pure { s with looping := Function.update s.looping l false }
  | .destroy t l => if s.threadId l = none then .error .undefinedBehaviour else s.destroy b t l
  | .exit t => pure { s with loopInThisThread := Function.update s.loopInThisThread t none }

def step (b : Build) (s : LoopRegistry T) (e : RegistryEvent T) : Option (LoopRegistry T) := (s.apply b e).toOption

inductive Moves (s : LoopRegistry T) : RegistryEvent T → LoopRegistry T → Prop
  | construct (t : T) (hnone : s.loopInThisThread t = none) :
      Moves s (.construct t)
        { s with loopInThisThread := Function.update s.loopInThisThread t (some s.created)
                 threadId := Function.update s.threadId s.created (some t)
                 channelsAdded := Function.update s.channelsAdded s.created true
                 created := s.created + 1 }
  | loop (t : T) (l : ℕ) (hthread : s.threadId l = some t) :
      Moves s (.loop t l) { s with looping := Function.update s.looping l true }
  | leave (l : ℕ) : Moves s (.leave l) { s with looping := Function.update s.looping l false }
  | destroy (t : T) (l : ℕ) (hlive : s.threadId l ≠ none) :
      Moves s (.destroy t l)
        { s with loopInThisThread := Function.update s.loopInThisThread t none
                 threadId := Function.update s.threadId l none }
  | exit (t : T) : Moves s (.exit t) { s with loopInThisThread := Function.update s.loopInThisThread t none }

theorem moves_of_step (h : s.step b e = some s') : Moves s e s' := by
  have hok : s.apply b e = .ok s' := by
    unfold step at h
    cases hresult : s.apply b e with
    | error fault => simp [hresult, Except.toOption] at h
    | ok t => simpa [hresult, Except.toOption] using h
  cases e with
  | construct t =>
    simp only [apply, construct] at hok
    split at hok
    · cases hok
    · obtain rfl := Except.ok.inj hok
      exact .construct t ‹_›
  | loop t l =>
    simp only [apply] at hok
    split_ifs at hok
    obtain ⟨_, _, hok⟩ := bind_eq_ok.mp hok
    obtain ⟨_, hassert, hok⟩ := bind_eq_ok.mp hok
    obtain rfl := Except.ok.inj hok
    simp only [assertInLoopThread, isInLoopThread, decide_eq_true_eq] at hassert
    split_ifs at hassert with hthread
    exact .loop t l hthread
  | leave l =>
    simp only [apply] at hok
    split_ifs at hok
    obtain rfl := Except.ok.inj hok
    exact .leave l
  | destroy t l =>
    simp only [apply] at hok
    split_ifs at hok with hnone
    obtain ⟨_, _, hok⟩ := bind_eq_ok.mp hok
    obtain ⟨_, _, hok⟩ := bind_eq_ok.mp hok
    obtain rfl := Except.ok.inj hok
    exact .destroy t l hnone
  | exit t =>
    obtain rfl := Except.ok.inj hok
    exact .exit t

def Exact (s : LoopRegistry T) : Prop :=
  ∀ t l, s.getEventLoopOfCurrentThread t = some l ↔ s.isInLoopThread t l = true

def Fresh (s : LoopRegistry T) : Prop := ∀ l, s.created ≤ l → s.threadId l = none

def KeepsOrder (s : LoopRegistry T) : RegistryEvent T → Prop
  | .destroy t l => s.isInLoopThread t l = true
  | .exit t => ∀ l, s.isInLoopThread t l = false
  | _ => True

theorem exact_iff : s.Exact ↔ ∀ t l, s.loopInThisThread t = some l ↔ s.threadId l = some t := by
  simp [Exact, getEventLoopOfCurrentThread, isInLoopThread]

theorem Moves.fresh (h : s.Fresh) (hm : Moves s e s') : s'.Fresh := by
  cases hm with
  | construct t _ =>
    intro l hl
    have hne : l ≠ s.created := by
      dsimp only at hl
      omega
    dsimp only
    rw [Function.update_of_ne hne]
    exact h l (Nat.le_of_succ_le hl)
  | destroy t l _ =>
    intro l' hl'
    dsimp only at hl' ⊢
    by_cases hsame : l' = l
    · rw [hsame, Function.update_self]
    · rw [Function.update_of_ne hsame]
      exact h l' hl'
  | _ => exact h

theorem exact_construct (h : s.Exact) (hfresh : s.Fresh) (hnone : s.loopInThisThread t = none) :
    Exact { s with loopInThisThread := Function.update s.loopInThisThread t (some s.created)
                   threadId := Function.update s.threadId s.created (some t)
                   channelsAdded := Function.update s.channelsAdded s.created true
                   created := s.created + 1 } := by
  rw [exact_iff] at h ⊢
  intro u l
  dsimp only
  rw [Function.update_apply, Function.update_apply]
  have hcreated := hfresh s.created (Nat.le_refl _)
  have hu := h u l
  split_ifs with hthread hloop hloop
  · simp [hthread, hloop]
  · subst hthread
    simp [← hu, hnone, Ne.symm hloop]
  · subst hloop
    simp [hu, hcreated, Ne.symm hthread]
  · exact hu

theorem exact_destroy (h : s.Exact) (hlive : s.threadId l ≠ none) :
    Exact { s with loopInThisThread := Function.update s.loopInThisThread t none
                   threadId := Function.update s.threadId l none } ↔ s.threadId l = some t := by
  rw [exact_iff] at h ⊢
  constructor
  · intro h'
    obtain ⟨u, hu⟩ := Option.ne_none_iff_exists'.mp hlive
    by_contra hother
    have hut : u ≠ t := by
      rintro rfl
      exact hother hu
    have hkept := h' u l
    dsimp only at hkept
    rw [Function.update_of_ne hut, Function.update_self, (h u l).mpr hu] at hkept
    simp at hkept
  · intro hthread u l'
    dsimp only
    rw [Function.update_apply, Function.update_apply]
    have hl := h t l
    have hu := h u l'
    split_ifs with hsame hloop hloop
    · simp
    · subst hsame
      rw [← hu, hl.mpr hthread]
      simpa using Ne.symm hloop
    · subst hloop
      rw [hu, hthread]
      simpa using Ne.symm hsame
    · exact hu

theorem exact_exit (h : s.Exact) :
    Exact { s with loopInThisThread := Function.update s.loopInThisThread t none } ↔
      ∀ l, s.threadId l ≠ some t := by
  rw [exact_iff] at h ⊢
  constructor
  · intro h' l hthread
    have hkept := h' t l
    dsimp only at hkept
    rw [Function.update_self] at hkept
    simp [hthread] at hkept
  · intro hnone u l
    dsimp only
    rw [Function.update_apply]
    split_ifs with hsame
    · subst hsame
      simp [hnone l]
    · exact h u l

theorem Moves.exact_iff (h : s.Exact) (hfresh : s.Fresh) (hm : Moves s e s') : s'.Exact ↔ s.KeepsOrder e := by
  cases hm with
  | construct t hnone => exact iff_of_true (exact_construct h hfresh hnone) trivial
  | loop | leave => exact iff_of_true h trivial
  | destroy t l hlive => simpa [KeepsOrder, isInLoopThread] using exact_destroy h hlive
  | exit t => simpa [KeepsOrder, isInLoopThread] using exact_exit h

theorem init_exact : (init : LoopRegistry T).Exact := by
  simp [Exact, init, getEventLoopOfCurrentThread, isInLoopThread]

theorem run_fresh (h : Run (Next (step b)) init es s) : s.Fresh :=
  h.invariant (I := Fresh) (fun _ _ _ hs hn => (moves_of_step hn).fresh hs) fun _ _ => rfl

/-- `get_event_loop_of_current_thread` and `is_in_loop_thread` agree about every thread and every loop all the
time exactly if each loop is destroyed by its own thread while this thread runs. -/
theorem registry_exact_iff (h : Run (Next (step b)) init es s) :
    (∀ fs u, fs <+: es → Run (Next (step b)) init fs u →
        ∀ t l, u.getEventLoopOfCurrentThread t = some l ↔ u.isInLoopThread t l = true) ↔
      Run (Guarded (Next (step b)) KeepsOrder) init es s := by
  have hstep : ∀ (s : LoopRegistry T) e s', (s.Exact ∧ s.Fresh) → Next (step b) s e s' →
      (s'.Exact ∧ s'.Fresh ↔ s.KeepsOrder e) := by
    rintro s e s' ⟨hexact, hfresh⟩ hn
    have hm := moves_of_step hn
    rw [and_iff_left (hm.fresh hfresh)]
    exact hm.exact_iff hexact hfresh
  rw [← h.kept_iff hstep ⟨init_exact, fun _ _ => rfl⟩]
  constructor
  · intro hexact fs u hfs hu
    exact ⟨hexact fs u hfs hu, run_fresh hu⟩
  · intro hkept fs u hfs hu
    exact (hkept fs u hfs hu).1

def destroyedInOrder : List (RegistryEvent Bool) :=
  [.construct false, .construct true, .loop true 1, .leave 1, .destroy true 1, .exit true, .construct true,
    .destroy false 0]

theorem registry_exact_iff_inOrder : ∃ s : LoopRegistry Bool,
    Run (Next (step .ndebug)) init destroyedInOrder s ∧ s.getEventLoopOfCurrentThread true = some 2 ∧
      ((∀ fs u, fs <+: destroyedInOrder → Run (Next (step .ndebug)) init fs u →
          ∀ t l, u.getEventLoopOfCurrentThread t = some l ↔ u.isInLoopThread t l = true) ↔
        Run (Guarded (Next (step .ndebug)) KeepsOrder) init destroyedInOrder s) := by
  have hexec : (exec (step .ndebug) (init : LoopRegistry Bool) destroyedInOrder).map
      (fun s => s.getEventLoopOfCurrentThread true) = some (some 2) := by decide
  obtain ⟨s, hrun, hend⟩ := run_of_exec_map _ hexec
  exact ⟨s, hrun, hend, registry_exact_iff hrun⟩

end LoopRegistry

/-! Threads that run `EventLoopThread::thread_func` up to its end. -/

inductive LoopThreadPc
  | idle
  | constructed (l : ℕ)
  | looping (l : ℕ)
  | returned (l : ℕ)
  | destroyed
deriving DecidableEq, Repr

def LoopThreadPc.local : LoopThreadPc → Option ℕ
  | .constructed l | .looping l | .returned l => some l
  | .idle | .destroyed => none

structure LoopThreads (T : Type) where
  registry : LoopRegistry T
  pc : T → LoopThreadPc

namespace LoopThreads

variable {T : Type} [DecidableEq T] {b : Build} {s s' : LoopThreads T} {t : T} {ts : List T}

def init : LoopThreads T := { registry := .init, pc := fun _ => .idle }

def event (s : LoopThreads T) (t : T) : RegistryEvent T :=
  match s.pc t with
  | .idle => .construct t
  | .constructed l => .loop t l
  | .looping l => .leave l
  | .returned l => .destroy t l
  | .destroyed => .exit t

def pcAfter (s : LoopThreads T) (t : T) : LoopThreadPc :=
  match s.pc t with
  | .idle => .constructed s.registry.created
  | .constructed l => .looping l
  | .looping l => .returned l
  | .returned _ => .destroyed
  | .destroyed => .idle

def advance (b : Build) (s : LoopThreads T) (t : T) : Except Fault (LoopThreads T) := do
  let registry ← s.registry.apply b (s.event t)
  pure { registry, pc := Function.update s.pc t (s.pcAfter t) }

def run (b : Build) (s : LoopThreads T) : List T → Except Fault (LoopThreads T)
  | [] => pure s
  | t :: ts => do
    let s ← s.advance b t
    s.run b ts

structure Inv (s : LoopThreads T) : Prop where
  exact : s.registry.Exact
  fresh : s.registry.Fresh
  own : ∀ t, s.registry.loopInThisThread t = (s.pc t).local
  looping : ∀ l, s.registry.looping l = true ↔ ∃ t, s.pc t = .looping l
  added : ∀ l, s.registry.threadId l ≠ none → s.registry.channelsAdded l = true

theorem init_inv : (init : LoopThreads T).Inv where
  exact := LoopRegistry.init_exact
  fresh _ _ := rfl
  own _ := rfl
  looping l := by simp [init, LoopRegistry.init]
  added l hl := absurd rfl hl

theorem Inv.threadId (h : s.Inv) {l : ℕ} (hl : (s.pc t).local = some l) : s.registry.threadId l = some t :=
  (LoopRegistry.exact_iff.mp h.exact t l).mp ((h.own t).trans hl)

theorem Inv.not_looping (h : s.Inv) {l : ℕ} (hl : (s.pc t).local = some l) (hpc : s.pc t ≠ .looping l) :
    s.registry.looping l = false := by
  rw [Bool.eq_false_iff]
  intro hlooping
  obtain ⟨u, hu⟩ := (h.looping l).mp hlooping
  have hu' : (s.pc u).local = some l := by simp [hu, LoopThreadPc.local]
  have hsame : u = t := Option.some.inj ((h.threadId hu').symm.trans (h.threadId hl))
  exact hpc (hsame ▸ hu)

theorem looping_update {p : LoopThreadPc} {l : ℕ} (hold : s.pc t ≠ .looping l) (hnew : p ≠ .looping l) :
    (∃ u, Function.update s.pc t p u = .looping l) ↔ ∃ u, s.pc u = .looping l := by
  constructor
  · rintro ⟨u, hu⟩
    by_cases hut : u = t
    · subst hut
      rw [Function.update_self] at hu
      exact absurd hu hnew
    · rw [Function.update_of_ne hut] at hu
      exact ⟨u, hu⟩
  · rintro ⟨u, hu⟩
    have hut : u ≠ t := by
      rintro rfl
      exact hold hu
    exact ⟨u, by rwa [Function.update_of_ne hut]⟩

theorem own_update {f : T → Option ℕ} {p : LoopThreadPc} (hown : ∀ u, f u = (s.pc u).local) (u : T) :
    Function.update f t p.local u = (Function.update s.pc t p u).local := by
  by_cases hut : u = t
  · subst hut
    rw [Function.update_self, Function.update_self]
  · rw [Function.update_of_ne hut, Function.update_of_ne hut, hown u]

theorem advance_of_apply {registry : LoopRegistry T} (h : s.registry.apply b (s.event t) = .ok registry) :
    s.advance b t = .ok { registry, pc := Function.update s.pc t (s.pcAfter t) } := by
  rw [advance, h]
  rfl

theorem Inv.advance (h : s.Inv) (b : Build) (t : T) :
    (∃ s', s.advance b t = .ok s' ∧ s'.Inv) ∨
      b = .debug ∧ s.advance b t = .error (.assertion .destroyAdded) := by
  have hown := h.own t
  cases hpc : s.pc t with
  | idle =>
    left
    have hnone : s.registry.loopInThisThread t = none := by rw [hown, hpc]; rfl
    have happly : ∃ r, s.registry.apply b (s.event t) = .ok r ∧ r = { s.registry with
        loopInThisThread := Function.update s.registry.loopInThisThread t (some s.registry.created)
        threadId := Function.update s.registry.threadId s.registry.created (some t)
        channelsAdded := Function.update s.registry.channelsAdded s.registry.created true
        created := s.registry.created + 1 } := by
      simp [event, hpc, LoopRegistry.apply, LoopRegistry.construct, hnone]
    obtain ⟨_, happly, rfl⟩ := happly
    refine ⟨_, advance_of_apply happly, ?_⟩
    simp only [pcAfter, hpc]
    constructor
    · exact LoopRegistry.exact_construct h.exact h.fresh hnone
    · exact (LoopRegistry.Moves.construct t hnone).fresh h.fresh
    · exact own_update (p := .constructed s.registry.created) h.own
    · intro l
      exact (h.looping l).trans (looping_update (by simp [hpc]) (by simp)).symm
    · intro l hl
      dsimp only at hl ⊢
      rw [Function.update_apply] at hl ⊢
      split_ifs at hl ⊢
      · rfl
      · exact h.added l hl
  | constructed l =>
    left
    have hlocal : (s.pc t).local = some l := by simp [hpc, LoopThreadPc.local]
    have hthread := h.threadId hlocal
    have hlooping := h.not_looping hlocal (by simp [hpc])
    have happly : s.registry.apply b (s.event t) =
        .ok { s.registry with looping := Function.update s.registry.looping l true } := by
      simp only [event, hpc, LoopRegistry.apply, LoopRegistry.loop, check_of hlooping, hthread,
        LoopRegistry.assertInLoopThread, LoopRegistry.isInLoopThread]
      rfl
    refine ⟨_, advance_of_apply happly, ?_⟩
    simp only [pcAfter, hpc]
    refine ⟨h.exact, h.fresh, ?_, ?_, h.added⟩
    · intro u
      rw [← own_update (p := .looping l) h.own]
      simp only [LoopThreadPc.local]
      rw [← hlocal, ← hown, Function.update_eq_self]
    · intro l'
      dsimp only
      by_cases hsame : l' = l
      · subst hsame
        simp only [Function.update_self, true_iff]
        exact ⟨t, Function.update_self _ _ _⟩
      · rw [Function.update_of_ne hsame, looping_update (by simp [hpc]) (by simpa using Ne.symm hsame)]
        exact h.looping l'
  | looping l =>
    left
    have hlocal : (s.pc t).local = some l := by simp [hpc, LoopThreadPc.local]
    have hthread := h.threadId hlocal
    have hlooping := (h.looping l).mpr ⟨t, hpc⟩
    have happly : s.registry.apply b (s.event t) =
        .ok { s.registry with looping := Function.update s.registry.looping l false } := by
      simp [event, hpc, LoopRegistry.apply, hthread, hlooping]
    refine ⟨_, advance_of_apply happly, ?_⟩
    simp only [pcAfter, hpc]
    refine ⟨h.exact, h.fresh, ?_, ?_, h.added⟩
    · intro u
      rw [← own_update (p := .returned l) h.own]
      simp only [LoopThreadPc.local]
      rw [← hlocal, ← hown, Function.update_eq_self]
    · intro l'
      dsimp only
      by_cases hsame : l' = l
      · subst hsame
        simp only [Function.update_self, Bool.false_eq_true, false_iff]
        rintro ⟨u, hu⟩
        by_cases hut : u = t
        · subst hut
          simp at hu
        · rw [Function.update_of_ne hut] at hu
          have hu' : (s.pc u).local = some l' := by simp [hu, LoopThreadPc.local]
          exact hut (Option.some.inj ((h.threadId hu').symm.trans hthread))
      · rw [Function.update_of_ne hsame, looping_update (by simpa [hpc] using Ne.symm hsame) (by simp)]
        exact h.looping l'
  | returned l =>
    have hlocal : (s.pc t).local = some l := by simp [hpc, LoopThreadPc.local]
    have hthread := h.threadId hlocal
    have hlooping := h.not_looping hlocal (by simp [hpc])
    have hlive : s.registry.threadId l ≠ none := by simp [hthread]
    have hadded := h.added l hlive
    cases b with
    | debug =>
      right
      have happly : s.registry.apply .debug (s.event t) = .error (.assertion .destroyAdded) := by
        simp [event, hpc, LoopRegistry.apply, hlive, LoopRegistry.destroy, Build.check, hlooping, hadded]
      rw [LoopThreads.advance, happly]
      exact ⟨rfl, rfl⟩
    | ndebug =>
      left
      have happly : ∃ r, s.registry.apply .ndebug (s.event t) = .ok r ∧ r = { s.registry with
          loopInThisThread := Function.update s.registry.loopInThisThread t none
          threadId := Function.update s.registry.threadId l none } := by
        simp [event, hpc, LoopRegistry.apply, hlive, LoopRegistry.destroy, check_ndebug]
      obtain ⟨_, happly, rfl⟩ := happly
      refine ⟨_, advance_of_apply happly, ?_⟩
      simp only [pcAfter, hpc]
      constructor
      · exact (LoopRegistry.exact_destroy h.exact hlive).mpr hthread
      · exact (LoopRegistry.Moves.destroy t l hlive).fresh h.fresh
      · exact own_update (p := .destroyed) h.own
      · intro l'
        exact (h.looping l').trans (looping_update (by simp [hpc]) (by simp)).symm
      · intro l' hl'
        dsimp only at hl'
        rw [Function.update_apply] at hl'
        split_ifs at hl'
        · exact absurd rfl hl'
        · exact h.added l' hl'
  | destroyed =>
    left
    have happly : ∃ r, s.registry.apply b (s.event t) = .ok r ∧
        r = { s.registry with loopInThisThread := Function.update s.registry.loopInThisThread t none } := by
      simp [event, hpc, LoopRegistry.apply]
    obtain ⟨_, happly, rfl⟩ := happly
    have hnone : ∀ l, s.registry.threadId l ≠ some t := by
      intro l hl
      have hloop := (LoopRegistry.exact_iff.mp h.exact t l).mpr hl
      rw [hown, hpc] at hloop
      cases hloop
    refine ⟨_, advance_of_apply happly, ?_⟩
    simp only [pcAfter, hpc]
    constructor
    · exact (LoopRegistry.exact_exit h.exact).mpr hnone
    · exact (LoopRegistry.Moves.exit t).fresh h.fresh
    · exact own_update (p := .idle) h.own
    · intro l'
      exact (h.looping l').trans (looping_update (by simp [hpc]) (by simp)).symm
    · exact h.added

theorem Inv.run (h : s.Inv) (b : Build) (ts : List T) :
    (∃ s', s.run b ts = .ok s' ∧ s'.Inv) ∨ b = .debug ∧ s.run b ts = .error (.assertion .destroyAdded) := by
  induction ts generalizing s with
  | nil => exact Or.inl ⟨s, rfl, h⟩
  | cons t ts ih =>
    rw [LoopThreads.run]
    rcases h.advance b t with ⟨s', hadvance, h'⟩ | ⟨hb, hfails⟩
    · rw [hadvance]
      exact ih h'
    · rw [hfails]
      exact Or.inr ⟨hb, rfl⟩

/-- Whatever the schedule, no thread that runs `thread_func` aborts the process, unless by the assertion that the
channels of a loop are removed before it is destroyed, and each finds its own loop and no other. -/
theorem threads_find_loops (b : Build) (ts : List T) :
    (∃ s : LoopThreads T, init.run b ts = .ok s ∧
      ∀ t l, (s.registry.getEventLoopOfCurrentThread t = some l ↔ (s.pc t).local = some l) ∧
        (s.registry.isInLoopThread t l = true ↔ (s.pc t).local = some l)) ∨
      b = .debug ∧ (init : LoopThreads T).run b ts = .error (.assertion .destroyAdded) := by
  apply (init_inv.run b ts).imp_left
  rintro ⟨s, hrun, h⟩
  refine ⟨s, hrun, fun t l => ?_⟩
  have hfound : s.registry.getEventLoopOfCurrentThread t = some l ↔ (s.pc t).local = some l := by
    rw [← h.own t]
    exact Iff.rfl
  exact ⟨hfound, (h.exact t l).symm.trans hfound⟩

end LoopThreads

end Penduo
