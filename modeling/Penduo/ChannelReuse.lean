import Penduo.PollerRuns

set_option autoImplicit false
set_option linter.unusedSectionVars false

namespace Penduo

open LabelledRuns

namespace Poller

variable {κ : Type} [DecidableEq κ] {p p' : Poller κ} {c d : κ} {call : ChannelCall κ}

def ChannelCall.target : ChannelCall κ → κ
  | .enableReading c | .disableAll c | .remove c => c

/-- `c` is in no table any more, but still has the index of the entry it had. -/
structure Stale (p : Poller κ) (c : κ) : Prop where
  unregistered : ¬ p.Registered c
  index : 0 ≤ (p.channel c).pollfdsIndex

theorem setEvents_stale (h : p.Stale c) (ev : Int32) :
    ∃ a, p.setEvents .debug c ev = .error (.assertion a) := by
  have hidx := h.index
  have hneg : ¬ (p.channel c).pollfdsIndex < 0 := by omega
  by_cases hfd : ((p.channel c).fd : ℤ) ∈ p.channels
  · refine ⟨.updateSame, ?_⟩
    have hfind : ¬ p.channels.find (p.channel c).fd = some c := h.unregistered
    simp [setEvents, Channel.update, updateChannel, setChannel, hneg, hfd, hfind, Build.check]
  · refine ⟨.updatePresent, ?_⟩
    simp [setEvents, Channel.update, updateChannel, setChannel, hneg, hfd, Build.check]

theorem remove_unregistered (h : p.WellFormed) (hc : ¬ p.Registered c) :
    ∃ a, Channel.remove .debug p c = .error (.assertion a) := by
  have hadded : ¬ (p.channel c).addedToLoop = true := fun ha => hc ((h.added c).mp ha)
  by_cases hnone : (p.channel c).isNoneEvent
  · refine ⟨.channelAdded, ?_⟩
    simp only [Channel.remove, check_of hnone, ok_bind]
    simp only [Build.check, if_neg hadded, error_bind]
  · refine ⟨.channelNoneEvent, ?_⟩
    simp only [Channel.remove, Build.check, if_neg hnone, error_bind]

theorem Stale.fails (h : p.WellFormed) (hs : p.Stale call.target) :
    ∃ a, call.run .debug p = .error (.assertion a) := by
  cases call with
  | enableReading c => exact setEvents_stale hs _
  | disableAll c => exact setEvents_stale hs _
  | remove c => exact remove_unregistered h hs.unregistered

theorem stale_of_remove (h : p.WellFormed) (hok : Channel.remove .debug p c = .ok p') : p'.Stale c := by
  obtain ⟨hr, rfl⟩ := (remove_eq_ok h).mp hok
  constructor
  · rw [unregister_registered hr.registered]
    simp
  · rw [unregister_channel_self]
    exact h.index c hr.registered

def ChannelCall.events : ChannelCall κ → Int32
  | .enableReading _ => Channel.kReadEvent
  | .disableAll _ | .remove _ => Channel.kNoneEvent

theorem CallStep.cases (h : p.WellFormed) (hstep : CallStep p call p') :
    call ≠ .remove call.target ∧ (p.channel call.target).pollfdsIndex < 0 ∧
        ((p.channel call.target).fd : ℤ) ∉ p.channels ∧ p' = p.append call.target call.events ∨
      call ≠ .remove call.target ∧ p.Registered call.target ∧ p' = p.rewrite call.target call.events ∨
      call = .remove call.target ∧ p.Removable call.target ∧ p' = p.unregister call.target := by
  cases call with
  | enableReading c =>
    rw [CallStep, ChannelCall.run, enableReading_eq, (h.events c).or_read] at hstep
    rcases setEvents_cases h hstep with ⟨hidx, hfd, hp'⟩ | ⟨hc, hp'⟩
    · exact Or.inl ⟨by simp, hidx, hfd, hp'⟩
    · exact Or.inr (Or.inl ⟨by simp, hc, hp'⟩)
  | disableAll c =>
    rw [CallStep, ChannelCall.run, disableAll_eq] at hstep
    rcases setEvents_cases h hstep with ⟨hidx, hfd, hp'⟩ | ⟨hc, hp'⟩
    · exact Or.inl ⟨by simp, hidx, hfd, hp'⟩
    · exact Or.inr (Or.inl ⟨by simp, hc, hp'⟩)
  | remove c =>
    obtain ⟨hr, hp'⟩ := (remove_eq_ok h).mp hstep
    exact Or.inr (Or.inr ⟨rfl, hr, hp'⟩)

theorem Stale.target_ne (h : p.WellFormed) (hs : p.Stale c) (hstep : CallStep p call p') : call.target ≠ c := by
  rintro rfl
  obtain ⟨a, ha⟩ := hs.fails h
  rw [CallStep, ha] at hstep
  exact absurd hstep (by simp)

theorem Stale.callStep (h : p.WellFormed) (hs : p.Stale c) (hstep : CallStep p call p') : p'.Stale c := by
  have hne := (hs.target_ne h hstep).symm
  rcases hstep.cases h with ⟨_, _, hfd, rfl⟩ | ⟨_, _, rfl⟩ | ⟨_, hr, rfl⟩
  · constructor
    · rw [append_registered hfd]
      simp [hne, hs.unregistered]
    · simpa [append, hne] using hs.index
  · constructor
    · rw [rewrite_registered]
      exact hs.unregistered
    · rw [rewrite_index]
      exact hs.index
  · constructor
    · rw [unregister_registered hr.registered]
      exact fun hc => hs.unregistered hc.1
    · simpa [unregister, hne, hs.unregistered] using hs.index

theorem calls_stale {fd : κ → ℕ} {calls : List (ChannelCall κ)} (h : Run CallStep (Poller.new fd) calls p)
    (hc : .remove c ∈ calls) : p.Stale c := by
  have hall : p.WellFormed ∧ ∀ c, .remove c ∈ calls → p.Stale c := by
    apply h.history (I := fun calls p => p.WellFormed ∧ ∀ c, .remove c ∈ calls → p.Stale c)
    · intro calls p call p' ⟨hwf, hstale⟩ hstep
      refine ⟨hstep.wellFormed hwf, fun c hmem => ?_⟩
      rcases List.mem_append.mp hmem with hmem | hmem
      · exact (hstale c hmem).callStep hwf hstep
      · obtain rfl := List.mem_singleton.mp hmem
        exact stale_of_remove hwf hstep
    · exact ⟨new_wellFormed fd, by simp⟩
  exact hall.2 c hc

/-- `enable_reading` on `c` does what it does on a channel that has just been constructed. -/
def Renewed (p : Poller κ) (c : κ) : Prop :=
  ∃ p', Channel.enableReading .debug p c = .ok p' ∧
    p'.pollfds = p.pollfds ++ [⟨(p.channel c).fd, Channel.kReadEvent.toInt16, 0⟩] ∧
    (p'.channel c).pollfdsIndex = p.pollfds.length ∧ ∀ d, d ≠ c → p'.channel d = p.channel d

/-- A channel that has been removed can never be used again, however the other channels are used. -/
theorem removed_not_renewed {fd : κ → ℕ} {calls : List (ChannelCall κ)}
    (h : Run CallStep (Poller.new fd) calls p) (hc : .remove c ∈ calls) : ¬ p.Renewed c := by
  rintro ⟨p', hok, _⟩
  obtain ⟨a, ha⟩ := setEvents_stale (calls_stale h hc) ((p.channel c).events ||| Channel.kReadEvent)
  rw [enableReading_eq, ha] at hok
  exact absurd hok (by simp)

theorem removed_not_renewed_between : ∃ p : Poller ℕ,
    Run CallStep (Poller.new (· + 10))
      [.enableReading 0, .enableReading 1, .disableAll 0, .remove 0, .disableAll 1, .enableReading 1] p ∧
      ¬ p.Renewed 0 := by
  have hrun : ∃ p, Run (Next callStep?) (Poller.new (· + 10))
      [.enableReading 0, .enableReading 1, .disableAll 0, .remove 0, .disableAll 1, .enableReading 1] p ∧
      p.pollfds.length = 1 :=
    run_of_exec_map (fun p : Poller ℕ => p.pollfds.length) (by decide)
  obtain ⟨p, hrun, _⟩ := hrun
  have h := hrun.mono fun _ _ _ hn => callStep_of_next hn
  exact ⟨p, h, removed_not_renewed h (by simp)⟩

def oneCycle : List (ChannelCall ℕ) := [.enableReading 0, .disableAll 0, .remove 0]

theorem removed_channel_asserts : ∃ p : Poller ℕ, Run CallStep (Poller.new (· + 10)) oneCycle p ∧
    p.pollfds = [] ∧ ((p.channel 0).fd : ℤ) ∉ p.channels ∧
    (Channel.enableReading .debug p 0).toOption.isNone = true ∧ ¬ p.Renewed 0 := by
  have hrun : ∃ p, Run (Next callStep?) (Poller.new (· + 10)) oneCycle p ∧
      (p.pollfds, decide (((p.channel 0).fd : ℤ) ∈ p.channels), (Channel.enableReading .debug p 0).toOption.isNone) =
        ([], false, true) :=
    run_of_exec_map (fun p : Poller ℕ => (p.pollfds, decide (((p.channel 0).fd : ℤ) ∈ p.channels),
      (Channel.enableReading .debug p 0).toOption.isNone)) (by decide)
  obtain ⟨p, hrun, hp⟩ := hrun
  simp only [Prod.mk.injEq, decide_eq_false_iff_not] at hp
  refine ⟨p, hrun.mono fun _ _ _ hn => callStep_of_next hn, hp.1, hp.2.1, hp.2.2, ?_⟩
  rintro ⟨p', hok, _⟩
  simp [hok, Except.toOption] at hp

end Poller

end Penduo
