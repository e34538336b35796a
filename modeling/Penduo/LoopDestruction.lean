import Penduo.EventLoopThread

set_option autoImplicit false
set_option linter.unusedSectionVars false

namespace Penduo

open LabelledRuns

def CallState.quitting {T F : Type} : CallState T F → Bool
  | .quitSet | .quitWaking => true
  | _ => false

namespace LoopState

variable {T F : Type} [DecidableEq T] {capacity : ℕ} {s s' : LoopState T F} {e : LoopEvent T F} {t u : Thread T}

theorem setCall_quitting {c : CallState T F} (hc : c.quitting = true → (s.calls u).quitting = true)
    (h : (Function.update s.calls u c t).quitting = true) : (s.calls t).quitting = true := by
  by_cases htu : t = u
  · subst htu
    rw [Function.update_self] at h
    exact hc h
  · rwa [Function.update_of_ne htu] at h

theorem Moves.quitting (hm : s.Moves capacity e s') (hnot : e ≠ .quit t) (h : (s'.calls t).quitting = true) :
    (s.calls t).quitting = true := by
  cases hm with
  | push u f hidle hmay => exact setCall_quitting (by simp [CallState.quitting]) h
  | testPushed u q hcall =>
    apply setCall_quitting _ h
    split_ifs <;> simp [CallState.quitting]
  | testQuit u hcall => exact setCall_quitting (by simp [hcall, CallState.quitting]) h
  | write u q hcall hroom => exact setCall_quitting (by simp [CallState.quitting]) h
  | writeQuit u hcall hroom => exact setCall_quitting (by simp [CallState.quitting]) h
  | quit u hidle hmay =>
    have hne : t ≠ u := by
      rintro rfl
      exact hnot rfl
    simpa [setCall, hne] using h
  | _ => exact h

end LoopState

namespace EventLoopThread

variable {T F : Type} [DecidableEq T] {capacity : ℕ} {s s' : EventLoopThread T F} {e : ThreadEvent T F}
  {es : List (ThreadEvent T F)} {t : T}

def quitStep (s : EventLoopThread T F) : ThreadEvent T F → Bool
  | .step (.quit (.other _)) => true
  | .step (.test (.other t)) => match s.state.calls (.other t) with
    | .quitSet => true
    | _ => false
  | .step (.write (.other t)) => match s.state.calls (.other t) with
    | .quitWaking => true
    | _ => false
  | _ => false

def NoQuitUnderway (s : EventLoopThread T F) : Prop := ∀ t, (s.state.calls (.other t)).quitting = false

/-- `loop()` finds `quit_` set only while no other `quit()` is between its store and its `::write`, and none is begun
once `loop()` has returned. -/
def QuitsAhead (s : EventLoopThread T F) : ThreadEvent T F → Prop
  | .step .check => s.state.loop.quit = true → s.NoQuitUnderway
  | .step (.quit (.other _)) => s.pc ≠ .returned ∧ s.pc ≠ .destroyed
  | _ => True

def Abandoned (s : EventLoopThread T F) : Prop := s.pc = .returned ∨ s.pc = .destroyed → s.NoQuitUnderway

theorem pcAfter_left {pc : ThreadFunc} {e : LoopEvent T F} {l l' : LoopState T F} (hm : l.Moves capacity e l')
    (h : pcAfter pc e l' = .returned ∨ pcAfter pc e l' = .destroyed) :
    (pc = .returned ∨ pc = .destroyed) ∨ e = .check ∧ l.loop.quit = true := by
  cases hm with
  | enter => simp [pcAfter] at h
  | leave hphase hquit => exact Or.inr ⟨rfl, hquit⟩
  | iterate hphase hquit => exact Or.inl (by simpa [pcAfter] using h)
  | _ => exact Or.inl h

theorem quitting_of_quitStep {e : LoopEvent T F} (h : s.quitStep (.step e) = true) :
    ∃ t, e = .quit (.other t) ∨ (s.state.calls (.other t)).quitting = true := by
  simp only [quitStep] at h
  split at h
  · rename_i t heq
    exact ⟨t, Or.inl (ThreadEvent.step.inj heq)⟩
  · rename_i t _
    split at h <;> simp at h
    exact ⟨t, Or.inr (by simp [*, CallState.quitting])⟩
  · rename_i t _
    split at h <;> simp at h
    exact ⟨t, Or.inr (by simp [*, CallState.quitting])⟩
  · simp at h

theorem abandoned_of_step (h : s.Abandoned) (hahead : s.QuitsAhead e) (hn : step capacity s e = some s') :
    s'.Abandoned := by
  cases e with
  | publish =>
    simp only [step, Option.ite_none_right_eq_some, Option.some.injEq] at hn
    obtain ⟨_, rfl⟩ := hn
    intro hpc
    simp at hpc
  | step e =>
    simp only [step, Option.ite_none_right_eq_some, Option.map_eq_some_iff] at hn
    obtain ⟨_, l, hl, rfl⟩ := hn
    intro hafter t
    have hm := LoopState.moves_of_step hl
    by_contra hquitting
    have hne : e ≠ .quit (.other t) ∧ s.NoQuitUnderway := by
      rcases pcAfter_left hm hafter with hpc | ⟨rfl, hquit⟩
      · refine ⟨?_, h hpc⟩
        rintro rfl
        rcases hpc with hpc | hpc
        · exact hahead.1 hpc
        · exact hahead.2 hpc
      · exact ⟨by simp, hahead hquit⟩
    have hbefore := hm.quitting hne.1 (by simpa using hquitting)
    simp [hne.2 t] at hbefore
  | destroy =>
    simp only [step, Option.ite_none_right_eq_some, Option.some.injEq] at hn
    obtain ⟨hpc, rfl⟩ := hn
    exact fun _ => h (Or.inl hpc)

theorem quitStep_live (h : s.Abandoned) (hahead : s.QuitsAhead e) (hquit : s.quitStep e = true) :
    s.pc ≠ .destroyed := by
  intro hpc
  cases e with
  | publish => simp [quitStep] at hquit
  | step e =>
    obtain ⟨t, rfl | hquitting⟩ := quitting_of_quitStep hquit
    · exact hahead.2 hpc
    · simp [h (Or.inr hpc) t] at hquitting
  | destroy => simp [quitStep] at hquit

theorem run_abandoned (h : Run (Guarded (Next (step capacity)) QuitsAhead) init es s) : s.Abandoned :=
  h.invariant (fun _ _ _ hs hn => abandoned_of_step hs hn.2 hn.1) fun hpc => by simp [init] at hpc

def QuitsUseLiveLoop (capacity : ℕ) (es : List (ThreadEvent T F)) : Prop :=
  ∀ (before : List (ThreadEvent T F)) (e : ThreadEvent T F) (after : List (ThreadEvent T F))
    (q : EventLoopThread T F), es = before ++ e :: after → Run (Next (step capacity)) init before q →
      q.quitStep e = true → q.pc ≠ .destroyed

theorem quits_use_live_loop (h : Run (Guarded (Next (step capacity)) QuitsAhead) init es s) :
    QuitsUseLiveLoop capacity es := by
  intro before e after q hes hq hquit
  have hsplit : es = (before ++ [e]) ++ after := by simp [hes]
  obtain ⟨u, hu, _⟩ := (hsplit ▸ h).split
  obtain ⟨q', hq', hn⟩ := hu.snoc_inv
  obtain rfl := hq.unique (hq'.mono fun _ _ _ hn => hn.1)
  exact quitStep_live (run_abandoned hq') hn.2 hquit

theorem destroyed_under_quit (hpc : s.pc = .returned) (hquitting : (s.state.calls (.other t)).quitting = true)
    (hroom : s.state.loop.wakeupTokens < capacity) :
    ∃ s' e s'', step capacity s .destroy = some s' ∧ step capacity s' e = some s'' ∧ s'.quitStep e = true ∧
      s'.pc = .destroyed := by
  have hdestroy : step capacity s .destroy = some { s with pc := .destroyed } := if_pos hpc
  cases hcall : s.state.calls (.other t) with
  | quitSet =>
    have htest : step capacity { s with pc := .destroyed } (.step (.test (.other t))) =
        some { pc := .destroyed, state := s.state.setCall (.other t) .quitWaking } := by
      simp [step, allowed, LoopEvent.thread, LoopState.step, hcall, pcAfter]
    exact ⟨_, _, _, hdestroy, htest, by simp [quitStep, hcall], rfl⟩
  | quitWaking =>
    have hwrite : step capacity { s with pc := .destroyed } (.step (.write (.other t))) =
        some { pc := .destroyed, state :=
          { s.state.setCall (.other t) .idle with loop := s.state.loop.wakeup, quitReturned := true } } := by
      simp [step, allowed, LoopEvent.thread, LoopState.step, hcall, hroom, pcAfter]
    exact ⟨_, _, _, hdestroy, hwrite, by simp [quitStep, hcall], rfl⟩
  | _ => simp [hcall, CallState.quitting] at hquitting

theorem disorder_uses_destroyed (hn : step capacity s e = some s') (hnot : ¬ s.QuitsAhead e) (hlive : s.pc ≠ .destroyed)
    (hroom : s.state.loop.wakeupTokens < capacity) :
    ∃ d f d', step capacity s' .destroy = some d ∧ step capacity d f = some d' ∧ d.quitStep f = true ∧
      d.pc = .destroyed := by
  cases e with
  | publish => exact absurd trivial hnot
  | destroy => exact absurd trivial hnot
  | step e =>
    simp only [step, Option.ite_none_right_eq_some, Option.map_eq_some_iff] at hn
    obtain ⟨_, l, hl, rfl⟩ := hn
    cases LoopState.moves_of_step hl with
    | leave hphase hquit =>
      have hunderway : ¬ s.NoQuitUnderway := fun hnone => hnot fun _ => hnone
      obtain ⟨t, hquitting⟩ := not_forall.mp hunderway
      exact destroyed_under_quit (by simp [pcAfter]) (Bool.not_eq_false _ ▸ hquitting) hroom
    | iterate hphase hquit => exact absurd (fun h => by simp [hquit] at h) hnot
    | quit u hidle hmay =>
      cases u with
      | loop => exact absurd trivial hnot
      | other t =>
        have hpc : s.pc = .returned := by
          by_contra hpc
          exact hnot ⟨hpc, hlive⟩
        exact destroyed_under_quit (t := t) hpc (by simp [LoopState.setCall, CallState.quitting]) hroom
    | _ => exact absurd trivial hnot

def quitsAhead (s : EventLoopThread Unit Unit) : ThreadEvent Unit Unit → Bool
  | .step .check => !s.state.loop.quit || !(s.state.calls (.other ())).quitting
  | .step (.quit (.other _)) => s.pc != .returned && s.pc != .destroyed
  | _ => true

theorem quitsAhead_of {s : EventLoopThread Unit Unit} {e : ThreadEvent Unit Unit} (h : quitsAhead s e = true) :
    s.QuitsAhead e := by
  unfold quitsAhead at h
  split at h
  · intro hquit t
    simpa [hquit] using h
  · simpa [QuitsAhead] using h
  · unfold QuitsAhead
    split <;> simp_all

def quitThenDestroyed : List (ThreadEvent Unit Unit) :=
  [.publish, .step .enter, .step .clear, .step (.quit (.other ())), .step (.test (.other ())),
    .step (.write (.other ())), .step .check, .destroy]

theorem quits_use_live_loop_written : ∃ s : EventLoopThread Unit Unit,
    Run (Guarded (Next (step 8192)) QuitsAhead) init quitThenDestroyed s ∧ s.pc = .destroyed ∧
      QuitsUseLiveLoop 8192 quitThenDestroyed := by
  have hexec : (exec (guardedStep (step 8192) quitsAhead) init quitThenDestroyed).map (fun s => s.pc) =
      some .destroyed := by decide
  obtain ⟨s, hrun, hpc⟩ := run_of_exec_map _ hexec
  have hguarded : Run (Guarded (Next (step 8192)) QuitsAhead) init quitThenDestroyed s :=
    hrun.guarded.mono fun _ _ _ hn => ⟨hn.1, quitsAhead_of hn.2⟩
  exact ⟨s, hguarded, hpc, quits_use_live_loop hguarded⟩

def quitOvertaken : List (ThreadEvent Unit Unit) :=
  [.publish, .step .enter, .step .clear, .step (.quit (.other ())), .step .check, .destroy]

theorem quit_outlives_loop : ∃ s : EventLoopThread Unit Unit,
    Run (Next (step 8192)) init (quitOvertaken ++ [.step (.test (.other ()))] ++ [.step (.write (.other ()))]) s ∧
      ¬ QuitsUseLiveLoop 8192
        (quitOvertaken ++ [.step (.test (.other ()))] ++ [.step (.write (.other ()))]) := by
  have hexec : (exec (step 8192) init (quitOvertaken ++ [.step (.test (.other ()))])).map
      (fun s => (s.pc, s.quitStep (.step (.write (.other ()))))) = some (.destroyed, true) := by decide
  have hwritten : (exec (step 8192) init
      (quitOvertaken ++ [.step (.test (.other ()))] ++ [.step (.write (.other ()))])).map (fun s => s.pc) =
        some .destroyed := by decide
  obtain ⟨q, hq, hpc⟩ := run_of_exec_map _ hexec
  obtain ⟨s, hs, _⟩ := run_of_exec_map _ hwritten
  simp only [Prod.mk.injEq] at hpc
  refine ⟨s, hs, fun hlive => ?_⟩
  exact hlive _ (.step (.write (.other ()))) [] q rfl hq hpc.2 hpc.1

end EventLoopThread

end Penduo
