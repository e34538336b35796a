import Penduo.DisabledChannels
import Penduo.Library.Subscriptions

set_option autoImplicit false
set_option linter.unusedSectionVars false

namespace Penduo

open LabelledRuns Subscriptions

namespace Poller

variable {κ : Type} [DecidableEq κ] {p p' : Poller κ} {c d : κ} {ev : Int32} {call : ChannelCall κ} {fd : κ → ℕ}
  {r : PollResult}

instance (p : Poller κ) (c : κ) : Decidable (p.Masked c) :=
  decidable_of_iff (p.pollfds[p.slotIndex c]?.map PollFd.fd = some (~~~((p.channel c).fd : ℤ))) Option.map_eq_some_iff

def ChannelCall.request : ChannelCall κ → κ × Request
  | .enableReading c => (c, .enable)
  | .disableAll c => (c, .disable)
  | .remove c => (c, .leave)

/-- What the tables and the channel itself say about `c`, in the terms of its subscription. -/
def status (p : Poller κ) (c : κ) : Status :=
  if (p.channel c).pollfdsIndex < 0 then .fresh
  else if p.Registered c then
    if (p.channel c).isNoneEvent then
      if p.Masked c then .disabled else .exposed
    else .enabled
  else .left

section Status

theorem status_fresh_iff : p.status c = .fresh ↔ (p.channel c).pollfdsIndex < 0 := by
  unfold status
  split_ifs <;> simp_all

theorem WellFormed.status_registered (h : p.WellFormed) (hc : p.Registered c) :
    p.status c = if (p.channel c).isNoneEvent then if p.Masked c then .disabled else .exposed else .enabled := by
  have hindex := h.index c hc
  rw [status, if_neg (by omega), if_pos hc]

theorem status_unregistered (hc : ¬ p.Registered c) (hidx : 0 ≤ (p.channel c).pollfdsIndex) : p.status c = .left := by
  rw [status, if_neg (by omega), if_neg hc]

theorem WellFormed.status_listed_iff (h : p.WellFormed) : (p.status c).listed = true ↔ p.Registered c := by
  by_cases hc : p.Registered c
  · rw [h.status_registered hc]
    split_ifs <;> simp [Status.listed, hc]
  · rw [status, if_neg hc]
    split_ifs <;> simp [Status.listed, hc]

theorem WellFormed.status_disabled_iff (h : p.WellFormed) : p.status c = .disabled ↔ p.Removable c := by
  constructor
  · intro hs
    have hc := (h.status_listed_iff (c := c)).mp (by rw [hs]; rfl)
    rw [h.status_registered hc] at hs
    split_ifs at hs with hnone hmasked
    exact ⟨hc, hnone, hmasked⟩
  · rintro ⟨hc, hnone, hmasked⟩
    rw [h.status_registered hc, if_pos hnone, if_pos hmasked]

theorem WellFormed.status_visible_iff (h : p.WellFormed) :
    (p.status c).visible = true ↔ p.Registered c ∧ ((p.channel c).isNoneEvent → ¬ p.Masked c) := by
  by_cases hc : p.Registered c
  · rw [h.status_registered hc]
    split_ifs <;> simp [Status.visible, *]
  · rw [status, if_neg hc]
    split_ifs <;> simp [Status.visible, hc]

theorem status_congr (hidx : (p'.channel c).pollfdsIndex < 0 ↔ (p.channel c).pollfdsIndex < 0)
    (hreg : p'.Registered c ↔ p.Registered c) (hevents : (p'.channel c).events = (p.channel c).events)
    (hmasked : p.Registered c → (p'.Masked c ↔ p.Masked c)) : p'.status c = p.status c := by
  unfold status
  by_cases hc : p.Registered c
  · simp only [hidx, hreg, Channel.isNoneEvent, hevents, hmasked hc]
  · simp [hidx, hreg, hc]

end Status

section Calls

theorem append_masked_iff (h : p.WellFormed) (hd : p.Registered d) (hdc : d ≠ c) :
    (p.append c ev).Masked d ↔ p.Masked d := by
  have hslot : (p.append c ev).slotIndex d = p.slotIndex d := by simp [slotIndex, append, hdc]
  have hentry : (p.append c ev).pollfds[p.slotIndex d]? = p.pollfds[p.slotIndex d]? :=
    List.getElem?_append_left (h.slots.lt hd)
  rw [Masked, hslot, hentry, append_fd, Masked]

theorem rewrite_masked_iff (h : p.WellFormed) (hc : p.Registered c) (hd : p.Registered d) (hdc : d ≠ c) :
    (p.rewrite c ev).Masked d ↔ p.Masked d := by
  have hslot : (p.rewrite c ev).slotIndex d = p.slotIndex d := by rw [slotIndex, rewrite_index, slotIndex]
  have hne : p.slotIndex c ≠ p.slotIndex d := fun he => hdc (h.slots.injective c d hc hd he).symm
  have hentry : (p.rewrite c ev).pollfds[p.slotIndex d]? = p.pollfds[p.slotIndex d]? := List.getElem?_set_ne hne
  rw [Masked, hslot, hentry, rewrite_fd, Masked]

theorem append_status (h : p.WellFormed) (hfd : ((p.channel c).fd : ℤ) ∉ p.channels) (hev : Channel.EventMask ev) :
    (p.append c ev).status c = if ev = Channel.kNoneEvent then .exposed else .enabled := by
  have hwf := append_wellFormed h hfd hev
  have hreg : (p.append c ev).Registered c := (append_registered hfd c).mpr (Or.inl rfl)
  rw [hwf.status_registered hreg]
  unfold Channel.isNoneEvent
  rw [append_events, if_pos rfl]
  have hunmasked : ¬ (p.append c ev).Masked c := by
    rintro ⟨pfd, hpfd, hmark⟩
    simp only [append, slotIndex, Function.update_self, Int.toNat_natCast,
      List.getElem?_append_right (le_refl _), Nat.sub_self, List.getElem?_cons_zero, Option.some.injEq] at hpfd hmark
    subst hpfd
    rw [compl_natCast] at hmark
    dsimp only at hmark
    omega
  rw [if_neg hunmasked]

theorem append_status_other (h : p.WellFormed) (hfd : ((p.channel c).fd : ℤ) ∉ p.channels) (hdc : d ≠ c) :
    (p.append c ev).status d = p.status d := by
  apply status_congr
  · simp [append, hdc]
  · rw [append_registered hfd]
    simp [hdc]
  · rw [append_events, if_neg hdc]
  · exact fun hd => append_masked_iff h hd hdc

theorem rewrite_status (h : p.WellFormed) (hc : p.Registered c) (hev : Channel.EventMask ev) :
    (p.rewrite c ev).status c = if ev = Channel.kNoneEvent then .disabled else .enabled := by
  have hwf := rewrite_wellFormed h hc hev
  have hreg : (p.rewrite c ev).Registered c := (rewrite_registered c).mpr hc
  rw [hwf.status_registered hreg]
  unfold Channel.isNoneEvent
  rw [rewrite_events, if_pos rfl]
  by_cases hnone : ev = Channel.kNoneEvent
  · subst hnone
    rw [if_pos rfl, if_pos rfl, if_pos (rewrite_masked h hc)]
  · rw [if_neg hnone, if_neg hnone]

theorem rewrite_status_other (h : p.WellFormed) (hc : p.Registered c) (hdc : d ≠ c) :
    (p.rewrite c ev).status d = p.status d := by
  apply status_congr
  · rw [rewrite_index]
  · exact rewrite_registered d
  · rw [rewrite_events, if_neg hdc]
  · exact fun hd => rewrite_masked_iff h hc hd hdc

theorem unregister_status (h : p.WellFormed) (hc : p.Registered c) : (p.unregister c).status c = .left := by
  apply status_unregistered
  · rw [unregister_registered hc]
    simp
  · rw [unregister_channel_self]
    exact h.index c hc

theorem unregister_status_other (h : p.WellFormed) (hc : p.Registered c) (hdc : d ≠ c) :
    (p.unregister c).status d = p.status d := by
  apply status_congr
  · simp only [unregister, hdc, if_false]
    split_ifs with hmoved
    · have hself := h.index c hc
      have hown := h.index d hmoved.1
      dsimp only
      omega
    · rfl
  · rw [unregister_registered hc]
    simp [hdc]
  · exact unregister_events d
  · exact fun hd => unregister_masked h hc hd hdc

theorem ChannelCall.request_fst (call : ChannelCall κ) : call.request.1 = call.target := by
  cases call <;> rfl

theorem WellFormed.absent_iff (h : p.WellFormed) :
    ((p.channel c).fd : ℤ) ∉ p.channels ↔ ∀ d, (p.status d).listed = true → (p.channel d).fd ≠ (p.channel c).fd := by
  rw [← FiniteMap.find_eq_none]
  constructor
  · intro hnone d hd hfd
    rw [h.status_listed_iff, Registered, hfd, hnone] at hd
    cases hd
  · intro hfree
    by_contra hsome
    obtain ⟨d, hd⟩ := Option.ne_none_iff_exists'.mp hsome
    obtain ⟨hreg, hfd⟩ := (h.find_iff _ _).mp hd
    exact hfree d (h.status_listed_iff.mpr hreg) (by exact_mod_cast hfd)

theorem ChannelCall.eventMask (call : ChannelCall κ) : Channel.EventMask call.events := by
  cases call with
  | enableReading c => exact Or.inr rfl
  | disableAll c | remove c => exact Or.inl rfl

theorem CallStep.requests (h : p.WellFormed) (hstep : CallStep p call p') :
    Step (fun c => (p.channel c).fd) p.status call.request p'.status := by
  rcases hstep.cases h with ⟨hcall, hidx, hfd, rfl⟩ | ⟨hcall, hreg, rfl⟩ | ⟨hcall, hr, rfl⟩
  · have hfresh := status_fresh_iff.mpr hidx
    constructor
    · rw [call.request_fst, hfresh, append_status h hfd call.eventMask]
      cases call with
      | enableReading c => rfl
      | disableAll c => rfl
      | remove c => exact absurd rfl hcall
    · intro _ d hd
      rw [call.request_fst]
      exact h.absent_iff.mp hfd d hd
    · intro d hd
      rw [call.request_fst] at hd
      exact append_status_other h hfd hd
  · have hlisted := (h.status_listed_iff (c := call.target)).mpr hreg
    constructor
    · rw [call.request_fst, rewrite_status h hreg call.eventMask]
      cases call with
      | enableReading c =>
        cases hs : p.status c <;> simp_all [ChannelCall.target, Status.listed, Status.after, ChannelCall.request,
          ChannelCall.events, Channel.kReadEvent_ne_none]
      | disableAll c =>
        cases hs : p.status c <;> simp_all [ChannelCall.target, Status.listed, Status.after, ChannelCall.request,
          ChannelCall.events]
      | remove c => exact absurd rfl hcall
    · intro hfresh
      rw [call.request_fst] at hfresh
      rw [hfresh] at hlisted
      cases hlisted
    · intro d hd
      rw [call.request_fst] at hd
      exact rewrite_status_other h hreg hd
  · have hdisabled := h.status_disabled_iff.mpr hr
    constructor
    · rw [call.request_fst, hdisabled, unregister_status h hr.registered, hcall]
      rfl
    · intro hfresh
      rw [call.request_fst, hdisabled] at hfresh
      cases hfresh
    · intro d hd
      rw [call.request_fst] at hd
      exact unregister_status_other h hr.registered hd

theorem WellFormed.setEvents_accepted (h : p.WellFormed) (hleft : p.status c ≠ .left)
    (hfree : p.status c = .fresh → ∀ d, (p.status d).listed = true → (p.channel d).fd ≠ (p.channel c).fd) :
    ∃ p', p.setEvents .debug c ev = .ok p' := by
  by_cases hreg : p.Registered c
  · exact ⟨_, setEvents_old h hreg .debug⟩
  · have hidx : (p.channel c).pollfdsIndex < 0 := by
      by_contra hidx
      exact hleft (status_unregistered hreg (by omega))
    exact ⟨_, setEvents_new hidx (h.absent_iff.mpr (hfree (status_fresh_iff.mpr hidx))) .debug⟩

theorem WellFormed.accepts_iff (h : p.WellFormed) (call : ChannelCall κ) :
    (∃ p', CallStep p call p') ↔ ∃ t, Step (fun c => (p.channel c).fd) p.status call.request t := by
  constructor
  · rintro ⟨p', hstep⟩
    exact ⟨_, hstep.requests h⟩
  · rintro ⟨t, hafter, hfree, _⟩
    have hleft : p.status call.target ≠ .left := by
      intro hleft
      rw [call.request_fst, hleft] at hafter
      cases hafter
    rw [call.request_fst] at hafter hfree
    cases call with
    | enableReading c => exact h.setEvents_accepted hleft hfree
    | disableAll c => exact h.setEvents_accepted hleft hfree
    | remove c =>
      have hdisabled : p.status c = .disabled := by
        cases hs : p.status c <;> simp_all [ChannelCall.target, Status.after, ChannelCall.request]
      exact ⟨_, remove_of h (h.status_disabled_iff.mp hdisabled)⟩

end Calls

section Polls

inductive PollerEvent (κ : Type)
  | call (call : ChannelCall κ)
  | poll (r : PollResult)

def PollerEvent.request : PollerEvent κ → Option (κ × Request)
  | .call call => some call.request
  | .poll _ => none

/-- What `::poll` answers for descriptors whose readiness is `level`. -/
structure PollResult.Answers (r : PollResult) (level : ℕ → Int16) (p : Poller κ) : Prop where
  ret : r.ret = (List.range p.pollfds.length).countP fun i => r.revents i ≠ 0
  revents : ∀ (i : ℕ) (pfd : PollFd), p.pollfds[i]? = some pfd →
    r.revents i = if pfd.fd < 0 then 0 else level pfd.fd.toNat
  nonneg : ∀ fd, 0 ≤ level fd

def EventStep (p : Poller κ) : PollerEvent κ → Poller κ → Prop
  | .call call, p' => CallStep p call p'
  -- a `::poll` that fails leaves its answers unset
  | .poll r, p' => (r.ret < 0 ∨ PollResult.Contract r p) ∧ ∃ active, p.poll .debug r [] = .ok (p', active)

theorem SameTable.masked (hs : SameTable p p') (h : p.WellFormed) (hc : p.Registered c) :
    p'.Masked c ↔ p.Masked c := by
  obtain ⟨pfd, hpfd, _⟩ := h.slots.slot c hc
  obtain ⟨revents, hpfd'⟩ := hs.entry _ _ hpfd
  have hslot : p'.slotIndex c = p.slotIndex c := by rw [slotIndex, hs.index, slotIndex]
  rw [Masked, Masked, hslot, hpfd, hpfd', hs.fd]
  simp

theorem SameTable.status (hs : SameTable p p') (h : p.WellFormed) : p'.status = p.status := by
  funext c
  apply status_congr
  · rw [hs.index]
  · exact hs.registered c
  · exact hs.events c
  · exact fun hc => hs.masked h hc

theorem EventStep.sameTable (h : p.WellFormed) (hn : EventStep p (.poll r) p') : SameTable p p' := by
  obtain ⟨hfailed | hr, active, hok⟩ := hn
  · rw [poll, if_pos hfailed] at hok
    obtain ⟨rfl, rfl⟩ := Prod.mk.inj (Except.ok.inj hok)
    exact .refl p
  · have hskips : PollResult.Skips r p := by
      intro i pfd hpfd hneg
      rw [hr.masked i pfd hpfd hneg]
      decide
    obtain ⟨q, found, hq, hsame, _⟩ := poll_ok (b := .debug) h r hskips
    obtain ⟨rfl, rfl⟩ := Prod.mk.inj (Except.ok.inj (hq.symm.trans hok))
    exact hsame

theorem PollResult.Answers.contract {level : ℕ → Int16} (hr : PollResult.Answers r level p) :
    PollResult.Contract r p where
  ret := hr.ret
  nonneg i hi := by
    rw [hr.revents i _ (List.getElem?_eq_getElem hi)]
    split_ifs
    · decide
    · exact hr.nonneg _
  masked i pfd hpfd hneg := by rw [hr.revents i pfd hpfd, if_pos hneg]

theorem PollResult.Answers.revents_slot {level : ℕ → Int16} (hr : PollResult.Answers r level p) (h : p.WellFormed)
    (hc : p.Registered c) :
    r.revents (p.slotIndex c) = if (p.status c).visible then level (p.channel c).fd else 0 := by
  obtain ⟨pfd, hpfd, hentry⟩ := h.slots.slot c hc
  rw [hr.revents _ pfd hpfd]
  by_cases hvisible : (p.status c).visible = true
  · have hunmasked := (h.status_visible_iff.mp hvisible).2
    have hfd : pfd.fd = (p.channel c).fd := by
      rcases hentry.1 with hfd | ⟨hfd, hnone⟩
      · exact hfd
      · exact absurd ⟨pfd, hpfd, hfd⟩ (hunmasked hnone)
    rw [if_pos hvisible, hfd, if_neg (by omega), Int.toNat_natCast]
  · have hmasked : p.Masked c := by
      by_contra hunmasked
      exact hvisible (h.status_visible_iff.mpr ⟨hc, fun _ => hunmasked⟩)
    obtain ⟨pfd', hpfd', hfd⟩ := hmasked
    obtain rfl := Option.some.inj (hpfd.symm.trans hpfd')
    rw [compl_natCast] at hfd
    rw [if_neg hvisible, if_pos (by omega)]

theorem WellFormed.poll_visible (h : p.WellFormed) {level : ℕ → Int16} (hr : PollResult.Answers r level p) :
    ∃ p' ready, p.poll .debug r [] = .ok (p', ready) ∧ ready.Nodup ∧
      (∀ c, c ∈ ready ↔ (p.status c).visible = true ∧ level (p.channel c).fd ≠ 0) ∧
      ∀ c ∈ ready, (p'.channel c).revents = (level (p.channel c).fd).toInt32 := by
  have hcontract := hr.contract
  obtain ⟨p', hok, _, _, hfilled⟩ := poll_answered h hcontract .debug []
  have hmem : ∀ c, c ∈ p.reported (p.answered r) ↔ (p.status c).visible = true ∧ level (p.channel c).fd ≠ 0 := by
    intro c
    rw [mem_reported_iff h hcontract]
    constructor
    · rintro ⟨hc, hrev⟩
      rw [hr.revents_slot h hc] at hrev
      split_ifs at hrev with hvisible
      · exact ⟨hvisible, hrev⟩
      · exact absurd rfl hrev
    · rintro ⟨hvisible, hlevel⟩
      have hc := (h.status_visible_iff.mp hvisible).1
      refine ⟨hc, ?_⟩
      rw [hr.revents_slot h hc, if_pos hvisible]
      exact hlevel
  refine ⟨p', p.reported (p.answered r), hok, ?_, hmem, ?_⟩
  · apply List.Nodup.of_map p.slotIndex
    rw [reported_slots h hcontract]
    exact List.nodup_range.filter _
  · intro c hc
    have hvisible := ((hmem c).mp hc).1
    have hchannel := hfilled.revents h hcontract rfl hc
    dsimp only at hchannel
    rw [hchannel, hr.revents_slot h (h.status_visible_iff.mp hvisible).1, if_pos hvisible]

end Polls

section Runs

variable {es : List (PollerEvent κ)}

structure Keeps (fd : κ → ℕ) (es : List (PollerEvent κ)) (p : Poller κ) : Prop where
  wellFormed : p.WellFormed
  fds : ∀ c, (p.channel c).fd = fd c
  requests : Run (Step fd) (fun _ => .fresh) (es.filterMap PollerEvent.request) p.status

theorem CallStep.sameFd (h : p.WellFormed) (hstep : CallStep p call p') (c : κ) :
    (p'.channel c).fd = (p.channel c).fd := by
  rcases hstep.cases h with ⟨_, _, _, rfl⟩ | ⟨_, _, rfl⟩ | ⟨_, _, rfl⟩
  · exact append_fd c
  · exact rewrite_fd c
  · exact unregister_fd c

theorem Keeps.next {e : PollerEvent κ} (h : Keeps fd es p) (hn : EventStep p e p') : Keeps fd (es ++ [e]) p' := by
  have hfds : (fun c => (p.channel c).fd) = fd := funext h.fds
  cases e with
  | call call =>
    have hstep : CallStep p call p' := hn
    constructor
    · exact hstep.wellFormed h.wellFormed
    · exact fun c => (hstep.sameFd h.wellFormed c).trans (h.fds c)
    · rw [List.filterMap_append]
      apply h.requests.append
      have hrequest := hstep.requests h.wellFormed
      rw [hfds] at hrequest
      exact Run.single hrequest
  | poll r =>
    have hsame := hn.sameTable h.wellFormed
    constructor
    · exact hsame.wellFormed h.wellFormed
    · exact fun c => (hsame.fd c).trans (h.fds c)
    · have hnone : [PollerEvent.poll r].filterMap PollerEvent.request = ([] : List (κ × Request)) := rfl
      rw [List.filterMap_append, hnone, List.append_nil, hsame.status h.wellFormed]
      exact h.requests

theorem new_keeps (fd : κ → ℕ) : Keeps fd [] (Poller.new fd) := by
  refine ⟨new_wellFormed fd, fun _ => rfl, ?_⟩
  have hfresh : (Poller.new fd).status = fun _ => .fresh := by
    funext c
    exact status_fresh_iff.mpr (by simp [Poller.new, Channel.new])
  rw [hfresh]
  exact .nil

/-- Through any calls and polls the Poller is the table of its channels' subscriptions: it accepts
the calls that these allow, and a poll reports the visible channels that are ready. -/
theorem subscriptions_kept (h : Run EventStep (Poller.new fd) es p) :
    Run (Step fd) (fun _ => .fresh) (es.filterMap PollerEvent.request) p.status ∧
      (∀ call : ChannelCall κ, (∃ p', CallStep p call p') ↔ ∃ t, Step fd p.status call.request t) ∧
      ∀ level r, PollResult.Answers r level p → ∃ p' ready, p.poll .debug r [] = .ok (p', ready) ∧
        (∀ c, c ∈ ready ↔ (p.status c).visible = true ∧ level (fd c) ≠ 0) ∧ (ready.map fd).Nodup ∧
        ∀ c ∈ ready, (p'.channel c).revents = (level (fd c)).toInt32 := by
  obtain ⟨hwf, hfd, hrequests⟩ := h.history (I := Keeps fd) (fun _ _ _ _ hk hn => hk.next hn) (new_keeps fd)
  have hfds : (fun c => (p.channel c).fd) = fd := funext hfd
  refine ⟨hrequests, fun call => ?_, fun level r hr => ?_⟩
  · rw [hwf.accepts_iff, hfds]
  · obtain ⟨p', ready, hok, hnodup, hmem, hrevents⟩ := hwf.poll_visible hr
    simp only [hfd] at hmem hrevents
    refine ⟨p', ready, hok, hmem, ?_, hrevents⟩
    apply hnodup.map_on
    intro c hc d hd hcd
    apply run_distinct hrequests c d
    · exact Status.listed_of_visible ((hmem c).mp hc).1
    · exact Status.listed_of_visible ((hmem d).mp hd).1
    · exact hcd

theorem PollResult.contract_iff (r : PollResult) (p : Poller κ) : PollResult.Contract r p ↔
    r.ret = (List.range p.pollfds.length).countP (fun i => r.revents i ≠ 0) ∧
      (∀ i < p.pollfds.length, 0 ≤ r.revents i) ∧ ∀ x ∈ p.pollfds.zipIdx, x.1.fd < 0 → r.revents x.2 = 0 := by
  constructor
  · rintro ⟨hret, hnonneg, hmasked⟩
    exact ⟨hret, hnonneg, fun x hx => hmasked x.2 x.1 (List.mem_zipIdx_iff_getElem?.mp hx)⟩
  · rintro ⟨hret, hnonneg, hmasked⟩
    exact ⟨hret, hnonneg, fun i pfd hpfd => hmasked (pfd, i) (List.mem_zipIdx_iff_getElem?.mpr hpfd)⟩

instance (r : PollResult) (p : Poller κ) : Decidable (PollResult.Contract r p) :=
  decidable_of_iff' _ (PollResult.contract_iff r p)

def eventStep? (p : Poller κ) : PollerEvent κ → Option (Poller κ)
  | .call call => callStep? p call
  | .poll r => if r.ret < 0 ∨ PollResult.Contract r p then (p.poll .debug r []).toOption.map Prod.fst else none

theorem eventStep_of_next {e : PollerEvent κ} (h : Next eventStep? p e p') : EventStep p e p' := by
  cases e with
  | call call => exact callStep_of_next h
  | poll r =>
    simp only [Next, eventStep?, Option.ite_none_right_eq_some, Option.map_eq_some_iff] at h
    obtain ⟨hr, ⟨q, active⟩, hpoll, rfl⟩ := h
    refine ⟨hr, active, ?_⟩
    cases hok : p.poll .debug r [] with
    | error f => simp [hok, Except.toOption] at hpoll
    | ok x => simpa [hok, Except.toOption] using hpoll

def callsAndPolls : List (PollerEvent ℕ) :=
  [.call (.enableReading 0), .call (.enableReading 1), .call (.disableAll 2), .poll firstAndThird,
    .call (.disableAll 0), .poll ⟨-1, fun _ => 0⟩, .call (.remove 0)]

theorem subscriptions_kept_polled : ∃ p : Poller ℕ, Run EventStep (Poller.new (· + 10)) callsAndPolls p ∧
    (List.range 4).map p.status = [.left, .enabled, .exposed, .fresh] ∧
    Run (Step (· + 10)) (fun _ => .fresh) (callsAndPolls.filterMap PollerEvent.request) p.status ∧
      (∀ call : ChannelCall ℕ, (∃ p', CallStep p call p') ↔ ∃ t, Step (· + 10) p.status call.request t) ∧
      ∀ level r, PollResult.Answers r level p → ∃ p' ready, p.poll .debug r [] = .ok (p', ready) ∧
        (∀ c, c ∈ ready ↔ (p.status c).visible = true ∧ level (c + 10) ≠ 0) ∧ (ready.map (· + 10)).Nodup ∧
        ∀ c ∈ ready, (p'.channel c).revents = (level (c + 10)).toInt32 := by
  have hrun : ∃ p, Run (Next eventStep?) (Poller.new (· + 10)) callsAndPolls p ∧
      (List.range 4).map p.status = [.left, .enabled, .exposed, .fresh] :=
    run_of_exec_map (fun p : Poller ℕ => (List.range 4).map p.status) (by decide +kernel)
  obtain ⟨p, hrun, hstatus⟩ := hrun
  have h := hrun.mono fun _ _ _ hn => eventStep_of_next hn
  exact ⟨p, h, hstatus, subscriptions_kept h⟩

end Runs

end Poller

end Penduo
