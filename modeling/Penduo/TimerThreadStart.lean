import Penduo.TimerThreadLife

set_option autoImplicit false

namespace Penduo

open LabelledRuns

namespace TimerThreadLife

variable {capacity : ℕ} {s s' : TimerThreadLife} {e : LifeEvent} {clock : Timestamp} {es : List LifeEvent}
  {basis first : Option Reset} {r : Reset} {l : List Reset}

/-- `first` comes before the entry that the wait was computed from. -/
def Earlier (basis first : Option Reset) : Prop :=
  ∃ f ∈ first, ∀ b ∈ basis, f.key < b.key

-- The wake-up for the first entry is in the pipe, or the `reset` that inserted it is about to write it.
def Announced (timer : TimerThread) : Prop :=
  0 < timer.weakup ∨ ∃ caller first, timer.timerSet.head? = some first ∧ timer.mutex = some caller ∧
    timer.call caller = .writing first

/-- `TimerFunc` takes the descriptor to poll only when `pipe` has made it. -/
def copiesMade (s : TimerThreadLife) : LifeEvent → Bool
  | .copyFd => s.weakupFd.isSome
  | _ => true

structure Started (s : TimerThreadLife) : Prop where
  unstarted : s.owner = .starting → s.func = .unstarted
  unmade : s.owner = .starting ∨ s.owner = .piping → s.weakupFd = none
  copied : s.func = .announcing ∨ s.func = .looping → s.PollsPipe
  looping : s.timer.timerFunc ≠ .testing → s.func = .looping
  held : s.timer.Held
  sorted : OrderedSet.Increasing Reset.key s.timer.timerSet
  announced : ∀ waitMs, s.timer.timerFunc = .polling waitMs → Earlier s.basis s.timer.timerSet.head? →
    Announced s.timer

theorem not_earlier_self (first : Option Reset) : ¬ Earlier first first := by
  rintro ⟨f, hf, hlt⟩
  exact lt_irrefl _ (hlt f hf)

theorem rearm_increasing (h : OrderedSet.Increasing Reset.key l) :
    OrderedSet.Increasing Reset.key (TimerThread.rearm l r) := by
  apply OrderedSet.insert_increasing
  split_ifs
  · exact List.Pairwise.filter _ h
  · exact h

theorem head?_rearm (h : OrderedSet.Increasing Reset.key l) (hold : ¬ Earlier basis l.head?)
    (hnew : Earlier basis (TimerThread.rearm l r).head?) : (TimerThread.rearm l r).head? = some r := by
  obtain ⟨f, hf, hlt⟩ := hnew
  rcases TimerThread.mem_rearm (List.mem_of_mem_head? hf) with rfl | hmem
  · exact hf
  · cases l with
    | nil => simp at hmem
    | cons y rest =>
      have hle : y.key ≤ f.key := by
        rcases List.mem_cons.mp hmem with rfl | hmem
        · exact le_rfl
        · exact ((List.pairwise_cons.mp h).1 f hmem).le
      exact absurd ⟨y, rfl, fun b hb => hle.trans_lt (hlt b hb)⟩ hold

section Timer

variable {timer timer' : TimerThread} {te : TimerThreadEvent}

theorem timer_increasing (h : OrderedSet.Increasing Reset.key timer.timerSet)
    (hm : TimerThread.Moves capacity timer te timer') : OrderedSet.Increasing Reset.key timer'.timerSet := by
  cases hm with
  | lock caller r _ _ => exact rearm_increasing h
  | expire now expirationFds timerSet _ _ hset _ =>
    rw [hset] at h
    exact (List.pairwise_append.mp h).2.1
  | _ => exact h

theorem timer_announced (hheld : timer.Held) (hsorted : OrderedSet.Increasing Reset.key timer.timerSet)
    (hm : TimerThread.Moves capacity timer te timer') {waitMs : Int32} (hpolling : timer'.timerFunc = .polling waitMs)
    (he : te ≠ .test)
    (hold : timer.timerFunc = .polling waitMs → Earlier basis timer.timerSet.head? → Announced timer)
    (hearlier : Earlier basis timer'.timerSet.head?) : Announced timer' := by
  cases hm with
  | tick => exact hold hpolling hearlier
  | reset r hcall hid =>
    rcases hold hpolling hearlier with hbytes | ⟨caller, first, hfirst, hmutex, hwriting⟩
    · exact Or.inl hbytes
    · refine Or.inr ⟨caller, first, hfirst, hmutex, ?_⟩
      have hne : caller ≠ r.caller := by
        rintro rfl
        simp [hcall] at hwriting
      exact (TimerThread.setCall_of_ne timer _ hne).trans hwriting
  | lock caller r hcall hmutex =>
    by_cases hbefore : Earlier basis timer.timerSet.head?
    · rcases hold hpolling hbefore with hbytes | ⟨_, _, _, hother, _⟩
      · exact Or.inl hbytes
      · simp [hmutex] at hother
    · exact Or.inr ⟨caller, r, head?_rearm hsorted hbefore hearlier, rfl, TimerThread.setCall_self _ _ _⟩
  | write caller r hcall hroom =>
    left
    show 0 < timer.weakup + TimerThread.weakFdWriteSize
    exact Nat.add_pos_right _ (by decide)
  | unlock caller r hcall =>
    rcases hold hpolling hearlier with hbytes | ⟨caller', first, _, hmutex, hwriting⟩
    · exact Or.inl hbytes
    · obtain rfl := hheld.other hmutex (Or.inr hcall)
      simp [hcall] at hwriting
  | test => exact absurd rfl he
  | _ => simp at hpolling

theorem timer_testing (hm : TimerThread.Moves capacity timer te timer') (he : te ≠ .test)
    (hfunc : timer'.timerFunc ≠ .testing) : timer.timerFunc ≠ .testing := by
  cases hm with
  | tick | reset | lock | write | unlock => exact hfunc
  | test => exact absurd rfl he
  | failed | next => simp at hfunc
  | poll _ _ hold _ => simp [hold]
  | timeout hold => simp [hold]
  | ready _ hold _ => simp [hold]
  | readWeakup _ hold => simp [hold]
  | expire _ _ _ hold _ _ _ => simp [hold]
  | writeToken _ _ hold => simp [hold]

end Timer

theorem init_started (clock : Timestamp) : (init clock).Started where
  unstarted _ := rfl
  unmade _ := rfl
  copied h := by simp [init] at h
  looping h := by simp [init, TimerThread.init] at h
  held caller r h := by simp [init, TimerThread.init] at h
  sorted := List.Pairwise.nil
  announced waitMs h := by simp [init, TimerThread.init] at h

theorem Started.timer {te : TimerThreadEvent} {timer : TimerThread} (h : s.Started) (he : te ≠ .test)
    (hm : TimerThread.Moves capacity s.timer te timer) : ({ s with timer := timer } : TimerThreadLife).Started where
  unstarted := h.unstarted
  unmade := h.unmade
  copied := h.copied
  looping hfunc := h.looping (timer_testing hm he hfunc)
  held := hm.held h.held
  sorted := timer_increasing h.sorted hm
  announced _ hpolling hearlier := timer_announced h.held h.sorted hm hpolling he (h.announced _) hearlier

theorem Moves.started (h : s.Started) (hguard : s.copiesMade e = true) (hm : Moves capacity s e s') : s'.Started := by
  cases hm with
  | start howner =>
    have hunstarted := h.unstarted howner
    constructor
    case unstarted => simp
    case unmade => exact fun _ => h.unmade (Or.inl howner)
    case copied => simp
    case looping =>
      intro hfunc
      have hlooping := h.looping hfunc
      simp [hunstarted] at hlooping
    case held => exact h.held
    case sorted => exact h.sorted
    case announced => exact h.announced
  | pipe readFd howner =>
    have hnone := h.unmade (Or.inr howner)
    refine ⟨by simp, by simp, fun hfunc => ?_, h.looping, h.held, h.sorted, h.announced⟩
    have hmade := h.copied hfunc
    simp [PollsPipe, hnone] at hmade
  | awaitRunning | clearRunning | join =>
    exact ⟨by simp, by simp, h.copied, h.looping, h.held, h.sorted, h.announced⟩
  | copyFd hfunc =>
    constructor
    case unstarted =>
      intro howner
      simp [h.unstarted howner] at hfunc
    case unmade => exact h.unmade
    case copied =>
      intro _
      obtain ⟨fd, hfd⟩ := Option.isSome_iff_exists.mp hguard
      simp [PollsPipe, hfd]
    case looping =>
      intro htimer
      simp [h.looping htimer] at hfunc
    case held => exact h.held
    case sorted => exact h.sorted
    case announced => exact h.announced
  | setRunning hfunc =>
    refine ⟨fun howner => ?_, h.unmade, fun _ => h.copied (Or.inl hfunc), fun _ => rfl, h.held, h.sorted, h.announced⟩
    simp [h.unstarted howner] at hfunc
  | test hfunc hrunning =>
    refine ⟨h.unstarted, h.unmade, h.copied, fun _ => hfunc, h.held, h.sorted, fun _ _ hearlier => ?_⟩
    exact absurd hearlier (not_earlier_self _)
  | leave hfunc htesting hrunning =>
    refine ⟨fun howner => ?_, h.unmade, by simp, fun htimer => absurd htesting htimer, h.held, h.sorted, h.announced⟩
    simp [h.unstarted howner] at hfunc
  | enterPoll => exact ⟨h.unstarted, h.unmade, h.copied, h.looping, h.held, h.sorted, h.announced⟩
  | poll ret hpolling =>
    exact ⟨h.unstarted, h.unmade, h.copied, fun _ => h.looping (by simp [hpolling]), h.held, h.sorted, by simp⟩
  | readWeakup now weakup hreading =>
    exact ⟨h.unstarted, h.unmade, h.copied, fun _ => h.looping (by simp [hreading]), h.held, h.sorted, by simp⟩
  | reset caller writeFd newTimestamp oldTimestamp timer hm => exact h.timer (by simp) hm
  | thread te timer he hm =>
    apply h.timer _ hm
    rintro rfl
    simp [TimerThreadEvent.unaffected] at he

theorem run_started (h : Run (Guarded (Next (step capacity)) fun s e => s.copiesMade e = true) (init clock) es s) :
    s.Started :=
  h.invariant (fun _ _ _ hs hn => (moves_of_step hn.1).started hs hn.2) (init_started clock)

/-- When `TimerFunc` starts late enough to find the pipe, it is always woken for a timer that is
earlier than the one it waits for. -/
theorem earlier_reset_announced
    (h : Run (Guarded (Next (step capacity)) fun s e => s.copiesMade e = true) (init clock) es s) (waitMs : Int32)
    (hpolling : s.timer.timerFunc = .polling waitMs) :
    s.weakupFd = some s.polledFd ∧ (Earlier s.basis s.timer.timerSet.head? → Announced s.timer) := by
  have hstarted := run_started h
  have hfunc := hstarted.looping (by simp [hpolling])
  exact ⟨hstarted.copied (Or.inr hfunc), hstarted.announced waitMs hpolling⟩

def startedThenReset : List LifeEvent :=
  [.start, .pipe 3, .copyFd, .setRunning, .awaitRunning, .test, .enterPoll, .reset 0 9 ⟨5⟩ ⟨0⟩, .thread (.lock 0)]

theorem earlier_reset_announced_locked : ∃ s : TimerThreadLife,
    Run (Guarded (Next (step 65536)) fun s e => s.copiesMade e = true) (init ⟨1⟩) startedThenReset s ∧
      s.basis = none ∧ s.timer.timerSet.length = 1 ∧ s.timer.weakup = 0 ∧ s.timer.mutex = some 0 ∧
      (s.weakupFd = some s.polledFd ∧ (Earlier s.basis s.timer.timerSet.head? → Announced s.timer)) := by
  have hexec : (exec (guardedStep (step 65536) copiesMade) (init ⟨1⟩) startedThenReset).map
      (fun s => (s.timer.timerFunc, s.basis, s.timer.timerSet.length, s.timer.weakup, s.timer.mutex)) =
        some (.polling 10000, none, 1, 0, some 0) := by decide +kernel
  obtain ⟨s, hrun, hs⟩ := run_of_exec_map _ hexec
  simp only [Prod.mk.injEq] at hs
  obtain ⟨hpolling, hbasis, hset, hweakup, hmutex⟩ := hs
  have hguarded := hrun.guarded
  exact ⟨s, hguarded, hbasis, hset, hweakup, hmutex, earlier_reset_announced hguarded 10000 hpolling⟩

def copiedThenPiped : List LifeEvent :=
  [.start, .copyFd, .setRunning, .test, .enterPoll, .pipe 3, .awaitRunning, .reset 0 9 ⟨5⟩ ⟨0⟩, .thread (.lock 0),
    .thread (.write 0), .thread (.unlock 0)]

theorem copied_before_pipe_unwoken : ∃ s : TimerThreadLife,
    Run (Next (step 65536)) (init ⟨1⟩) copiedThenPiped s ∧ s.owner = .constructed ∧
      s.timer.timerFunc = .polling 10000 ∧ s.polledFd = 0 ∧ s.timer.weakup = 8 ∧ ¬ s.weakupFd = some s.polledFd := by
  have hexec : (exec (step 65536) (init ⟨1⟩) copiedThenPiped).map
      (fun s => (s.owner, s.timer.timerFunc, s.polledFd, s.weakupFd, s.timer.weakup)) =
        some (.constructed, .polling 10000, 0, some 3, 8) := by decide +kernel
  obtain ⟨s, hrun, hs⟩ := run_of_exec_map _ hexec
  simp only [Prod.mk.injEq] at hs
  obtain ⟨howner, hpolling, hfd, hmade, hweakup⟩ := hs
  refine ⟨s, hrun, howner, hpolling, hfd, hweakup, ?_⟩
  rw [hfd, hmade]
  decide

end TimerThreadLife

end Penduo
