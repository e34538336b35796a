import Penduo.LoopSteps

set_option autoImplicit false
set_option linter.unusedSectionVars false

namespace Penduo

open LabelledRuns

inductive ThreadFunc
  | constructed
  | published
  | looping
  | returned
  | destroyed
deriving DecidableEq, Repr

structure EventLoopThread (T F : Type) where
  pc : ThreadFunc
  state : LoopState T F

inductive ThreadEvent (T F : Type)
  | publish
  | step (e : LoopEvent T F)
  | destroy
deriving DecidableEq, Repr

namespace EventLoopThread

variable {T F : Type} [DecidableEq T] {capacity : ℕ} {s s' : EventLoopThread T F} {e : ThreadEvent T F}

def init : EventLoopThread T F := { pc := .constructed, state := .init }

def allowed (pc : ThreadFunc) (e : LoopEvent T F) : Bool :=
  match e.thread with
  | .other _ => pc != .constructed
  | .loop => if e matches .enter then pc == .published else pc == .looping

def pcAfter (pc : ThreadFunc) (e : LoopEvent T F) (s' : LoopState T F) : ThreadFunc :=
  match e with
  | .enter => .looping
  | .check => if s'.phase = .outside then .returned else pc
  | _ => pc

def step (capacity : ℕ) (s : EventLoopThread T F) : ThreadEvent T F → Option (EventLoopThread T F)
  | .publish => if s.pc = .constructed then some { s with pc := .published } else none
  | .step e =>
    if allowed s.pc e then
      (s.state.step capacity e).map fun s' => { pc := pcAfter s.pc e s', state := s' }
    else none
  | .destroy => if s.pc = .returned then some { s with pc := .destroyed } else none

/-- `quit()` has returned, and the loop thread waits in `::poll` with nothing to make it leave. -/
def QuitLost (s : EventLoopThread T F) : Prop :=
  s.state.quitReturned = true ∧ s.state.phase = .polling ∧
    (s.state.loop.quit = false ∨ s.state.loop.quit = true ∧ s.state.loop.wakeupTokens = 0)

def Cleared (s : EventLoopThread T F) : Prop :=
  s.pc ≠ .constructed ∧ s.pc ≠ .published ∧ s.state.phase ≠ .entered

instance (s : EventLoopThread T F) : Decidable s.Cleared := inferInstanceAs (Decidable (_ ∧ _ ∧ _))

def QuitAfterClear (s : EventLoopThread T F) : ThreadEvent T F → Prop
  | .step (.quit (.other _)) => s.Cleared
  | _ => True

def quitAfterClear (s : EventLoopThread T F) : ThreadEvent T F → Bool
  | .step (.quit (.other _)) => decide s.Cleared
  | _ => true

theorem quitAfterClear_iff : s.quitAfterClear e = true ↔ s.QuitAfterClear e := by
  unfold quitAfterClear QuitAfterClear
  split <;> simp

def QuitBegun (s : LoopState T F) : Prop :=
  s.quitReturned = true ∨ ∃ t, s.calls t = .quitSet ∨ s.calls t = .quitWaking

structure QuitKept (s : EventLoopThread T F) : Prop where
  early : ¬ s.Cleared → ¬ QuitBegun s.state
  kept : QuitBegun s.state → s.state.loop.quit = true
  token : s.state.phase = .polling → s.state.quitReturned = true → 0 < s.state.loop.wakeupTokens
  looping : s.state.phase ≠ .outside → s.pc = .looping

theorem QuitBegun.of_update {t : Thread T} {c : CallState T F} {s s' : LoopState T F} (h : QuitBegun s')
    (hcalls : s'.calls = Function.update s.calls t c) (hc : c ≠ .quitSet ∧ c ≠ .quitWaking)
    (hret : s'.quitReturned = s.quitReturned) : QuitBegun s := by
  rcases h with h | ⟨u, hu⟩
  · exact Or.inl (hret ▸ h)
  · by_cases hut : u = t
    · subst hut
      rw [hcalls, Function.update_self] at hu
      exact absurd hu (by simp [hc])
    · rw [hcalls, Function.update_of_ne hut] at hu
      exact Or.inr ⟨u, hu⟩

theorem QuitKept.frame (h : s.QuitKept) (hclear : s.Cleared → s'.Cleared)
    (hbegun : QuitBegun s'.state → QuitBegun s.state)
    (hquit : s'.state.loop.quit = s.state.loop.quit)
    (htoken : s'.state.phase = .polling → s'.state.quitReturned = true → 0 < s'.state.loop.wakeupTokens)
    (hloop : s'.state.phase ≠ .outside → s'.pc = .looping) : s'.QuitKept where
  early hn hb := h.early (fun hc => hn (hclear hc)) (hbegun hb)
  kept hb := by rw [hquit, h.kept (hbegun hb)]
  token := htoken
  looping := hloop

theorem QuitKept.advance {l : LoopState T F} {p : Phase} (h : s.QuitKept) (hphase : s.state.phase = p)
    (hout : p ≠ .outside) (hl : l.phase ≠ .polling ∧ l.phase ≠ .entered)
    (hcalls : l.calls = s.state.calls) (hret : l.quitReturned = s.state.quitReturned)
    (hquit : l.loop.quit = s.state.loop.quit) : QuitKept { pc := s.pc, state := l } := by
  have hpc := h.looping (hphase ▸ hout)
  refine h.frame (fun hc => ⟨hc.1, hc.2.1, hl.2⟩) (fun hb => ?_) hquit (fun hp => absurd hp hl.1) fun _ => hpc
  simpa only [QuitBegun, hcalls, hret] using hb

theorem step_quitKept {l : LoopState T F} {e : LoopEvent T F} (h : s.QuitKept)
    (hallowed : allowed s.pc e = true) (hafter : s.QuitAfterClear (.step e))
    (hm : s.state.Moves capacity e l) : QuitKept { pc := pcAfter s.pc e l, state := l } := by
  cases hm with
  | push t f _ _ =>
    exact h.frame id (fun hb => hb.of_update rfl (by simp) rfl) rfl h.token h.looping
  | testPushed t q _ =>
    refine h.frame id (fun hb => hb.of_update rfl ?_ rfl) rfl h.token h.looping
    split_ifs <;> simp
  | testQuit t hcall => exact h.frame id (fun _ => Or.inr ⟨t, Or.inl hcall⟩) rfl h.token h.looping
  | write t q _ _ =>
    exact h.frame id (fun hb => hb.of_update rfl (by simp) rfl) rfl (fun _ _ => Nat.succ_pos _) h.looping
  | writeQuit t hcall _ =>
    exact h.frame id (fun _ => Or.inr ⟨t, Or.inr hcall⟩) rfl (fun _ _ => Nat.succ_pos _) h.looping
  | quit t hidle hmay =>
    have hclear : s.Cleared := by
      cases t with
      | other t => exact hafter
      | loop =>
        -- user code on the loop thread runs after the clear
        have hpc : s.pc = .looping := by simpa [allowed, LoopEvent.thread] using hallowed
        refine ⟨by simp [hpc], by simp [hpc], fun hp => ?_⟩
        simp [LoopState.mayCall, hp, Phase.userCode] at hmay
    exact ⟨fun hn => absurd hclear hn, fun _ => rfl, h.token, h.looping⟩
  | enter hphase _ _ =>
    have hpc : s.pc = .published := by simpa [allowed, LoopEvent.thread] using hallowed
    exact h.frame (fun hc => absurd hpc hc.2.1) id rfl (fun hp => by simp at hp) fun _ => rfl
  | clear hphase =>
    have hnot : ¬ QuitBegun s.state := h.early fun hc => hc.2.2 hphase
    have hpc := h.looping (by simp [hphase])
    exact ⟨fun hn => absurd ⟨by simp [pcAfter, hpc], by simp [pcAfter, hpc], by simp⟩ hn,
      fun hb => absurd hb hnot, fun hp => by simp at hp, fun _ => hpc⟩
  | leave hphase hquit =>
    exact h.frame (fun _ => ⟨by simp [pcAfter], by simp [pcAfter], by simp⟩) id rfl
      (fun hp => by simp at hp) fun hout => absurd rfl hout
  | iterate hphase hquit =>
    have hpc := h.looping (by simp [hphase])
    have hnot : ¬ QuitBegun s.state := fun hb => by simp [h.kept hb] at hquit
    refine h.frame (fun hc => ?_) id rfl (fun _ hr => absurd (Or.inl hr) hnot) fun _ => by simpa [pcAfter] using hpc
    exact ⟨by simpa [pcAfter] using hc.1, by simpa [pcAfter] using hc.2.1, by simp⟩
  | poll succeeded hphase => exact h.advance hphase (by simp) (by simp) rfl rfl rfl
  | readToken hphase _ _ => exact h.advance hphase (by simp) (by simp [hphase]) rfl rfl rfl
  | dispatched hphase _ _ => exact h.advance hphase (by simp) (by simp) rfl rfl rfl
  | swap hphase => exact h.advance hphase (by simp) (by simp) rfl rfl rfl
  | start q rest hphase _ => exact h.advance hphase (by simp) (by simp) rfl rfl rfl
  | ret hphase _ => exact h.advance hphase (by simp) (by simp) rfl rfl rfl
  | batchDone hphase _ => exact h.advance hphase (by simp) (by simp) rfl rfl rfl
  | unwound hphase _ => exact h.advance hphase (by simp) (by simp) rfl rfl rfl

theorem quitKept_of_step (h : s.QuitKept) (hafter : s.QuitAfterClear e)
    (hstep : step capacity s e = some s') : s'.QuitKept := by
  cases e with
  | publish =>
    simp only [step, Option.ite_none_right_eq_some, Option.some.injEq] at hstep
    obtain ⟨hpc, rfl⟩ := hstep
    refine h.frame (fun hc => absurd hpc hc.1) id rfl h.token fun hout => ?_
    simp [h.looping hout] at hpc
  | step e =>
    simp only [step, Option.ite_none_right_eq_some, Option.map_eq_some_iff] at hstep
    obtain ⟨hallowed, l, hl, rfl⟩ := hstep
    exact step_quitKept h hallowed hafter (LoopState.moves_of_step hl)
  | destroy =>
    simp only [step, Option.ite_none_right_eq_some, Option.some.injEq] at hstep
    obtain ⟨hpc, rfl⟩ := hstep
    refine h.frame (fun hc => ⟨by simp, by simp, hc.2.2⟩) id rfl h.token fun hout => ?_
    simp [h.looping hout] at hpc

def OrderedStep (capacity : ℕ) (s : EventLoopThread T F) (e : ThreadEvent T F) (s' : EventLoopThread T F) : Prop :=
  step capacity s e = some s' ∧ s.QuitAfterClear e

/-- A quit request made after `loop()` has cleared the flag is never lost. -/
theorem quit_not_lost {es : List (ThreadEvent T F)}
    (h : Run (OrderedStep capacity) init es s) : ¬ s.QuitLost := by
  have hkept : s.QuitKept := by
    refine h.invariant (fun s e s' hs hn => quitKept_of_step hs hn.2 hn.1) ?_
    refine ⟨fun _ hb => ?_, fun hb => ?_, ?_, ?_⟩
    · simp [QuitBegun, init, LoopState.init] at hb
    · simp [QuitBegun, init, LoopState.init] at hb
    · simp [init, LoopState.init]
    · simp [init, LoopState.init]
  rintro ⟨hret, hpoll, hquit | ⟨-, htok⟩⟩
  · simp [hkept.kept (Or.inl hret)] at hquit
  · have := hkept.token hpoll hret
    omega

def orderedStep (capacity : ℕ) (s : EventLoopThread T F) (e : ThreadEvent T F) : Option (EventLoopThread T F) :=
  if s.quitAfterClear e then step capacity s e else none

theorem ordered_of_next (h : Next (orderedStep capacity) s e s') : OrderedStep capacity s e s' := by
  simp only [Next, orderedStep, Option.ite_none_right_eq_some, quitAfterClear_iff] at h
  exact ⟨h.2, h.1⟩

theorem quit_not_lost_polling : ∃ s : EventLoopThread Unit Unit,
    s.state.quitReturned = true ∧ s.state.phase = .polling ∧ ¬ s.QuitLost := by
  have hexec : (exec (orderedStep 8192) (init : EventLoopThread Unit Unit)
      [.publish, .step .enter, .step .clear, .step .check, .step (.quit (.other ())),
        .step (.test (.other ())), .step (.write (.other ()))]).map
        (fun s => (s.state.quitReturned, s.state.phase)) = some (true, .polling) := by decide
  obtain ⟨s, hrun, hs⟩ := run_of_exec_map _ hexec
  obtain ⟨hret, hpoll⟩ := Prod.mk.inj hs
  exact ⟨s, hret, hpoll, quit_not_lost (hrun.mono fun _ _ _ => ordered_of_next)⟩

theorem quit_lost_before_clear :
    ¬ ∀ es, ∀ s : EventLoopThread Unit Unit, Run (Next (step 8192)) init es s → ¬ s.QuitLost := by
  intro h
  have hexec : (exec (step 8192) (init : EventLoopThread Unit Unit)
      [.publish, .step (.quit (.other ())), .step (.test (.other ())), .step (.write (.other ())),
        .step .enter, .step .clear, .step .check]).map
        (fun s => (s.state.quitReturned, s.state.phase, s.state.loop.quit)) =
      some (true, .polling, false) := by decide
  obtain ⟨s, hrun, hs⟩ := run_of_exec_map _ hexec
  simp only [Prod.mk.injEq] at hs
  exact h _ s hrun ⟨hs.1, hs.2.1, Or.inl hs.2.2⟩

end EventLoopThread

end Penduo
