import Penduo.ChannelReuse
import Penduo.PollCompleteness

set_option autoImplicit false
set_option linter.unusedSectionVars false

namespace Penduo

open LabelledRuns

namespace Poller

variable {κ : Type} [DecidableEq κ] {p p' : Poller κ} {c d : κ} {ev : Int32} {call : ChannelCall κ}
  {calls : List (ChannelCall κ)} {fd : κ → ℕ}

/-- The entry of `c` has the complemented fd exactly while the channel waits for no event. -/
def Marked (p : Poller κ) (c : κ) : Prop :=
  ∃ pfd, p.pollfds[p.slotIndex c]? = some pfd ∧
    pfd.fd = if (p.channel c).isNoneEvent then ~~~((p.channel c).fd : ℤ) else (p.channel c).fd

structure HidesDisabled (p : Poller κ) : Prop where
  marked : ∀ c, p.Registered c → p.Marked c
  unreported : ∀ r, PollResult.Contract r p → ∀ b active, ∃ p' ready,
    p.poll b r active = .ok (p', active ++ ready) ∧ ∀ c ∈ ready, ¬ (p.channel c).isNoneEvent
  removable : ∀ c, (p.channel c).addedToLoop = true → (p.channel c).isNoneEvent →
    ∃ p', Channel.remove .debug p c = .ok p'

theorem marked_iff (h : p.WellFormed) (hc : p.Registered c) :
    p.Marked c ↔ ((p.channel c).isNoneEvent → p.Masked c) := by
  obtain ⟨pfd, hpfd, hentry⟩ := h.slots.slot c hc
  constructor
  · rintro ⟨pfd', hpfd', hfd⟩ hnone
    rw [if_pos hnone] at hfd
    exact ⟨pfd', hpfd', hfd⟩
  · intro hmasked
    by_cases hnone : (p.channel c).isNoneEvent
    · obtain ⟨pfd', hpfd', hfd⟩ := hmasked hnone
      exact ⟨pfd', hpfd', by rw [if_pos hnone, hfd]⟩
    · refine ⟨pfd, hpfd, ?_⟩
      rw [if_neg hnone]
      rcases hentry.1 with hfd | ⟨_, hev⟩
      · exact hfd
      · exact absurd hev hnone

theorem Masked.unreported {r : PollResult} (hr : PollResult.Contract r p) (hm : p.Masked c) :
    r.revents (p.slotIndex c) = 0 := by
  obtain ⟨pfd, hpfd, hfd⟩ := hm
  apply hr.masked _ pfd hpfd
  rw [hfd, compl_natCast]
  omega

theorem WellFormed.hidesDisabled (h : p.WellFormed) (hm : ∀ c, p.Registered c → p.Marked c) :
    p.HidesDisabled where
  marked := hm
  unreported r hr b active := by
    obtain ⟨p', hok, _⟩ := poll_answered h hr b active
    refine ⟨p', _, hok, fun c hc hnone => ?_⟩
    obtain ⟨hreg, hrev⟩ := (mem_reported_iff h hr c).mp hc
    exact hrev (((marked_iff h hreg).mp (hm c hreg) hnone).unreported hr)
  removable c hadded hnone := by
    have hreg := (h.added c).mp hadded
    exact ⟨_, remove_of h ⟨hreg, hnone, (marked_iff h hreg).mp (hm c hreg) hnone⟩⟩

def Uncalled (calls : List (ChannelCall κ)) (c : κ) : Prop := ∀ call ∈ calls, call.target ≠ c

def firstCall (calls : List (ChannelCall κ)) (c : κ) : Option (ChannelCall κ) :=
  calls.find? fun call => call.target = c

theorem firstCall_of_append {before after : List (ChannelCall κ)} (h : firstCall before c = some call) :
    firstCall (before ++ after) c = some call := by
  rw [firstCall, List.find?_append, show before.find? _ = some call from h]
  rfl

theorem firstCall_snoc (h : Uncalled calls call.target) :
    firstCall (calls ++ [call]) call.target = some call := by
  have hnone : calls.find? (fun x => x.target = call.target) = none := by
    apply List.find?_eq_none.mpr
    intro x hx
    simpa using h x hx
  simp [firstCall, List.find?_append, hnone]

theorem ChannelCall.eq_disableAll (h : call ≠ .remove call.target) (hev : call.events = Channel.kNoneEvent) :
    call = .disableAll call.target := by
  cases call with
  | enableReading c => exact absurd hev Channel.kReadEvent_ne_none
  | disableAll c => rfl
  | remove c => exact absurd rfl h

theorem CallStep.unindexed (h : p.WellFormed) (hstep : CallStep p call p')
    (hidx : ∀ c, (p.channel c).pollfdsIndex < 0 ↔ Uncalled calls c) (c : κ) :
    (p'.channel c).pollfdsIndex < 0 ↔ Uncalled (calls ++ [call]) c := by
  have hsnoc : Uncalled (calls ++ [call]) c ↔ Uncalled calls c ∧ call.target ≠ c := by
    simp [Uncalled, or_imp, forall_and]
  rw [hsnoc, ← hidx c]
  by_cases hc : call.target = c
  · subst hc
    have hindexed : 0 ≤ (p'.channel call.target).pollfdsIndex := by
      rcases hstep.cases h with ⟨_, _, _, rfl⟩ | ⟨_, hreg, rfl⟩ | ⟨_, hr, rfl⟩
      · simp [append]
      · rw [rewrite_index]
        exact h.index _ hreg
      · rw [unregister_channel_self]
        exact h.index _ hr.registered
    simp only [ne_eq, not_true, and_false, iff_false]
    omega
  · have hne : c ≠ call.target := Ne.symm hc
    simp only [ne_eq, hc, not_false_iff, and_true]
    rcases hstep.cases h with ⟨_, _, _, rfl⟩ | ⟨_, _, rfl⟩ | ⟨_, hr, rfl⟩
    · simp [append, hne]
    · rw [rewrite_index]
    · simp only [unregister, hne, if_false]
      split_ifs with hmoved
      · have hself := h.index _ hr.registered
        have hown := h.index c hmoved.1
        dsimp only
        omega
      · rfl

theorem CallStep.marked (h : p.WellFormed) (hstep : CallStep p call p')
    (hfirst : (p.channel call.target).pollfdsIndex < 0 → call ≠ .disableAll call.target)
    (hm : ∀ c, p.Registered c → (p.channel c).isNoneEvent → p.Masked c) (hd : p'.Registered d)
    (hnone : (p'.channel d).isNoneEvent) : p'.Masked d := by
  rcases hstep.cases h with ⟨hcall, hidx, hfd, rfl⟩ | ⟨_, hreg, rfl⟩ | ⟨_, hr, rfl⟩
  · rw [Channel.isNoneEvent, append_events] at hnone
    by_cases hdc : d = call.target
    · rw [if_pos hdc] at hnone
      exact absurd (ChannelCall.eq_disableAll hcall hnone) (hfirst hidx)
    · rw [if_neg hdc] at hnone
      have hd' := ((append_registered hfd d).mp hd).resolve_left hdc
      exact (hm d hd' hnone).append hdc
  · rw [Channel.isNoneEvent, rewrite_events] at hnone
    have hd' := (rewrite_registered d).mp hd
    by_cases hdc : d = call.target
    · subst hdc
      rw [if_pos rfl] at hnone
      rw [hnone]
      exact rewrite_masked h hreg
    · rw [if_neg hdc] at hnone
      exact (hm d hd' hnone).rewrite h hreg hd' hdc
  · rw [Channel.isNoneEvent, unregister_events] at hnone
    obtain ⟨hd', hdc⟩ := (unregister_registered hr.registered d).mp hd
    exact (unregister_masked h hr.registered hd' hdc).mpr (hm d hd' hnone)

theorem calls_unindexed (h : Run CallStep (Poller.new fd) calls p) :
    ∀ c, (p.channel c).pollfdsIndex < 0 ↔ Uncalled calls c := by
  have hall : p.WellFormed ∧ ∀ c, (p.channel c).pollfdsIndex < 0 ↔ Uncalled calls c := by
    apply h.history (I := fun calls p => p.WellFormed ∧ ∀ c, (p.channel c).pollfdsIndex < 0 ↔ Uncalled calls c)
    · intro calls p call p' hI hstep
      exact ⟨hstep.wellFormed hI.1, hstep.unindexed hI.1 hI.2⟩
    · exact ⟨new_wellFormed fd, fun c => by simp [Poller.new, Channel.new, Uncalled]⟩
  exact hall.2

theorem calls_masked (h : Run CallStep (Poller.new fd) calls p)
    (hfirst : ∀ c, firstCall calls c ≠ some (.disableAll c)) :
    ∀ c, p.Registered c → (p.channel c).isNoneEvent → p.Masked c := by
  induction h with
  | nil =>
    intro c hc
    simp [Registered, Poller.new] at hc
  | @snoc calls p call p' hrun hstep ih =>
    have hbefore : ∀ c, firstCall calls c ≠ some (.disableAll c) :=
      fun c hc => hfirst c (firstCall_of_append hc)
    have hcall : (p.channel call.target).pollfdsIndex < 0 → call ≠ .disableAll call.target := by
      intro hidx heq
      have hsome := firstCall_snoc ((calls_unindexed hrun call.target).mp hidx)
      rw [heq] at hsome
      exact hfirst call.target (heq ▸ hsome)
    intro c hc hnone
    exact hstep.marked (calls_wellFormed hrun) hcall (ih hbefore) hc hnone

theorem disableFirst_unmarked (h : Run CallStep (Poller.new fd) calls p) (hc : Uncalled calls c)
    (hstep : CallStep p (.disableAll c) p') : p'.Registered c ∧ ¬ p'.Marked c := by
  have hwf := calls_wellFormed h
  have hidx := (calls_unindexed h c).mpr hc
  rcases hstep.cases hwf with ⟨_, _, hfd, rfl⟩ | ⟨_, hreg, _⟩ | ⟨hcall, _⟩
  · refine ⟨(append_registered hfd c).mpr (Or.inl rfl), ?_⟩
    rintro ⟨pfd, hpfd, hmark⟩
    simp only [ChannelCall.target, ChannelCall.events, append, slotIndex, Function.update_self,
      Int.toNat_natCast, List.getElem?_append_right (le_refl _), Nat.sub_self, List.getElem?_cons_zero,
      Option.some.injEq] at hpfd hmark
    subst hpfd
    rw [if_pos trivial, compl_natCast] at hmark
    dsimp only at hmark
    omega
  · have := hwf.index c hreg
    exact absurd hidx (by omega)
  · simp at hcall

/-- Disabled channels stay hidden from `::poll` in every state of a sequence of calls exactly when
none of the channels was disabled before anything else. -/
theorem disabled_hidden_iff (h : Run CallStep (Poller.new fd) calls p) :
    (∀ before after q, calls = before ++ after → Run CallStep (Poller.new fd) before q → q.HidesDisabled) ↔
      ∀ c, firstCall calls c ≠ some (.disableAll c) := by
  constructor
  · intro hall c hfirst
    obtain ⟨_, before, after, rfl, hbefore⟩ := List.find?_eq_some_iff_append.mp hfirst
    have hsplit : before ++ .disableAll c :: after = (before ++ [.disableAll c]) ++ after := by simp
    obtain ⟨q, hq, _⟩ := (hsplit ▸ h).split
    obtain ⟨q₀, hq₀, hstep⟩ := hq.snoc_inv
    have hc : Uncalled before c := fun call hcall => by simpa using hbefore call hcall
    obtain ⟨hreg, hunmarked⟩ := disableFirst_unmarked hq₀ hc hstep
    exact hunmarked ((hall _ after q hsplit hq).marked c hreg)
  · intro hfirst before after q hcalls hq
    subst hcalls
    have hwf := calls_wellFormed hq
    apply hwf.hidesDisabled
    intro c hc
    rw [marked_iff hwf hc]
    exact calls_masked hq (fun c hc => hfirst c (firstCall_of_append hc)) c hc

theorem disabled_hidden_iff_moved : ∃ p : Poller ℕ, Run CallStep (Poller.new (· + 10)) threeCalls p ∧
    ((∀ before after q, threeCalls = before ++ after → Run CallStep (Poller.new (· + 10)) before q →
        q.HidesDisabled) ↔
      ∀ c, firstCall threeCalls c ≠ some (.disableAll c)) := by
  have hrun : ∃ p, Run (Next callStep?) (Poller.new (· + 10)) threeCalls p ∧ p.pollfds.length = 2 :=
    run_of_exec_map (fun p : Poller ℕ => p.pollfds.length) (by decide)
  obtain ⟨p, hrun, _⟩ := hrun
  have h := hrun.mono fun _ _ _ hn => callStep_of_next hn
  exact ⟨p, h, disabled_hidden_iff h⟩

def hungUp : PollResult := ⟨1, fun i => if i = 0 then Poll.pollhup.toInt16 else 0⟩

theorem disableFirst_reported : ∃ p : Poller ℕ,
    Run CallStep (Poller.new (· + 10)) [.disableAll 0] p ∧ p.pollfds = [⟨10, 0, 0⟩] ∧ (p.channel 0).isNoneEvent ∧
      (p.channel 0).addedToLoop = true ∧ PollResult.Contract hungUp p ∧
      (p.poll .debug hungUp []).toOption.map Prod.snd = some [0] ∧
      faultOf (Channel.remove .debug p 0) = some (.assertion .removeEntry) ∧ ¬ p.HidesDisabled := by
  have hrun : ∃ p, Run (Next callStep?) (Poller.new (· + 10)) [.disableAll 0] p ∧
      (p.pollfds, p.channel 0, (p.poll .debug hungUp []).toOption.map Prod.snd,
        faultOf (Channel.remove .debug p 0)) =
      ([⟨10, 0, 0⟩], ⟨10, 0, 0, 0, false, true⟩, some [0], some (.assertion .removeEntry)) :=
    run_of_exec_map (fun p : Poller ℕ => (p.pollfds, p.channel 0,
      (p.poll .debug hungUp []).toOption.map Prod.snd, faultOf (Channel.remove .debug p 0))) (by decide)
  obtain ⟨p, hrun, hp⟩ := hrun
  simp only [Prod.mk.injEq] at hp
  obtain ⟨hfds, hchannel, hpoll, hremove⟩ := hp
  have hnone : (p.channel 0).isNoneEvent := by
    rw [hchannel]
    rfl
  have hadded : (p.channel 0).addedToLoop = true := by rw [hchannel]
  refine ⟨p, hrun.mono fun _ _ _ hn => callStep_of_next hn, hfds, hnone, hadded, ?_, hpoll, hremove, ?_⟩
  · constructor
    · rw [hfds]
      decide
    · intro i _
      simp only [hungUp]
      split_ifs <;> decide
    · intro i pfd hpfd hneg
      rw [hfds] at hpfd
      obtain rfl := List.mem_singleton.mp (List.mem_of_getElem? hpfd)
      exact absurd hneg (by decide)
  · intro hhides
    obtain ⟨p', hok⟩ := hhides.removable 0 hadded hnone
    simp [hok, faultOf] at hremove

end Poller

end Penduo
