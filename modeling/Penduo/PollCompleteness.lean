import Penduo.PollReports
import Penduo.PollerRuns

set_option autoImplicit false
set_option linter.unusedSectionVars false

namespace Penduo

open LabelledRuns

namespace Poller

variable {κ : Type} [DecidableEq κ] {p p' : Poller κ} {b : Build} {r : PollResult}

/-- What `::poll` promises about its answer. -/
structure PollResult.Contract (r : PollResult) (p : Poller κ) : Prop where
  ret : r.ret = (List.range p.pollfds.length).countP fun i => r.revents i ≠ 0
  nonneg : ∀ i < p.pollfds.length, 0 ≤ r.revents i
  masked : ∀ (i : ℕ) (pfd : PollFd), p.pollfds[i]? = some pfd → pfd.fd < 0 → r.revents i = 0

theorem PollResult.Contract.pos_iff (hr : PollResult.Contract r p) {x : PollFd × ℕ} (hx : x ∈ p.pollfds.zipIdx) :
    0 < r.revents x.2 ↔ r.revents x.2 ≠ 0 := by
  have hlt := (List.getElem?_eq_some_iff.mp (List.mem_zipIdx_iff_getElem?.mp hx)).1
  have hnonneg := hr.nonneg x.2 hlt
  rw [Int16.le_iff_toInt_le] at hnonneg
  rw [Int16.lt_iff_toInt_lt, Ne, ← Int16.toInt_inj]
  simp only [Int16.toInt_zero] at hnonneg ⊢
  omega

theorem reported_of_count {pollfds : List PollFd} (h : pollfds.countP (fun pfd => 0 < pfd.revents) = 0) :
    p.reported pollfds = [] := by
  apply List.filterMap_eq_nil_iff.mpr
  intro pfd hpfd
  have hnot := List.countP_eq_zero.mp h pfd hpfd
  simp only [decide_eq_true_eq] at hnot
  rw [if_neg hnot]

theorem mem_reported {pollfds : List PollFd} {c : κ} :
    c ∈ p.reported pollfds ↔ ∃ pfd ∈ pollfds, 0 < pfd.revents ∧ p.channels.find pfd.fd = some c := by
  simp only [reported, List.mem_filterMap]
  constructor
  · rintro ⟨pfd, hpfd, hfind⟩
    split_ifs at hfind with hpos
    exact ⟨pfd, hpfd, hpos, hfind⟩
  · rintro ⟨pfd, hpfd, hpos, hfind⟩
    exact ⟨pfd, hpfd, by rw [if_pos hpos, hfind]⟩

structure Filled (p : Poller κ) (entries : List PollFd) (p' : Poller κ) : Prop where
  pollfds : p'.pollfds = p.pollfds
  channels : p'.channels = p.channels
  ready : ∀ e ∈ entries, 0 < e.revents → ∀ c, p.channels.find e.fd = some c →
    p'.channel c = { p.channel c with revents := e.revents.toInt32 }
  other : ∀ c, c ∉ p.reported entries → p'.channel c = p.channel c

theorem Filled.nil (p : Poller κ) : p.Filled [] p := ⟨rfl, rfl, by simp, by simp⟩

theorem Filled.skip {pfd : PollFd} {entries : List PollFd} (h : p.Filled entries p') (hpos : ¬ 0 < pfd.revents) :
    p.Filled (pfd :: entries) p' where
  pollfds := h.pollfds
  channels := h.channels
  ready e he hrev := by
    rcases List.mem_cons.mp he with rfl | he
    · exact absurd hrev hpos
    · exact h.ready e he hrev
  other c hc := by
    apply h.other
    simpa [reported, hpos] using hc

theorem Filled.cons {pfd : PollFd} {entries : List PollFd} {c : κ} (hpos : 0 < pfd.revents)
    (hfind : p.channels.find pfd.fd = some c) (hnot : c ∉ p.reported entries)
    (h : (p.setChannel c { p.channel c with revents := pfd.revents.toInt32 }).Filled entries p') :
    p.Filled (pfd :: entries) p' where
  pollfds := h.pollfds
  channels := h.channels
  ready e he hrev d hd := by
    by_cases hdc : d = c
    · subst hdc
      rcases List.mem_cons.mp he with rfl | he
      · rw [h.other d hnot]
        exact Function.update_self _ _ _
      · exact absurd (List.mem_filterMap.mpr ⟨e, he, by rw [if_pos hrev, hd]⟩) hnot
    · rcases List.mem_cons.mp he with rfl | he
      · exact absurd (Option.some.inj (hd.symm.trans hfind)) hdc
      · rw [h.ready e he hrev d hd]
        simp [setChannel, hdc]
  other d hd := by
    have hreported : p.reported (pfd :: entries) = c :: p.reported entries := by simp [reported, hpos, hfind]
    rw [hreported, List.mem_cons, not_or] at hd
    rw [h.other d hd.2]
    exact Function.update_of_ne hd.1 _ _

theorem fillActiveChannels_exact (entries : List PollFd) (active : List κ) (h : p.Reports entries)
    (hnodup : entries.Pairwise fun e e' => e.fd ≠ e'.fd) :
    ∃ p', fillActiveChannels b p entries (entries.countP fun e => 0 < e.revents) active =
      .ok (p', active ++ p.reported entries) ∧ p.Filled entries p' := by
  induction entries generalizing p active with
  | nil => exact ⟨p, by simp [fillActiveChannels, reported], .nil p⟩
  | cons pfd rest ih =>
    obtain ⟨hne, hrest⟩ := List.pairwise_cons.mp hnodup
    have hreports : p.Reports rest := fun e he => h e (List.mem_cons_of_mem _ he)
    by_cases hpos : 0 < pfd.revents
    · obtain ⟨c, hfind, hfd⟩ := h pfd List.mem_cons_self hpos
      have hmem := FiniteMap.mem_of_find hfind
      have hreported : p.reported (pfd :: rest) = c :: p.reported rest := by simp [reported, hpos, hfind]
      have hnot : c ∉ p.reported rest := by
        intro hc
        obtain ⟨e, he, hpos', hfind'⟩ := mem_reported.mp hc
        obtain ⟨d, hd, hfd'⟩ := hreports e he hpos'
        obtain rfl : c = d := Option.some.inj (hfind'.symm.trans hd)
        exact hne e he (hfd.symm.trans hfd')
      have hcount : ((pfd :: rest).countP (fun e => 0 < e.revents) : ℤ) - 1 = rest.countP fun e => 0 < e.revents := by
        rw [List.countP_cons_of_pos (by simpa using hpos)]
        omega
      have hmarked : (p.setChannel c { p.channel c with revents := pfd.revents.toInt32 }).Reports rest := by
        intro e he hrev
        obtain ⟨d, hd, hfd'⟩ := hreports e he hrev
        exact ⟨d, hd, by rw [(sameTable_setChannel p c _ _).fd, hfd']⟩
      obtain ⟨p', hok, hfilled⟩ := ih (active ++ [c]) hmarked hrest
      simp only [fillActiveChannels, hpos, if_true, check_of hmem, hfind, require, check_of hfd, ok_bind, pure_eq_ok,
        hcount, hreported]
      by_cases hzero : (rest.countP fun e => 0 < e.revents) = 0
      · have hnone : ∀ e ∈ rest, ¬ 0 < e.revents := by simpa using List.countP_eq_zero.mp hzero
        refine ⟨p.setChannel c { p.channel c with revents := pfd.revents.toInt32 }, ?_, .cons hpos hfind hnot ?_⟩
        · rw [if_pos (by exact_mod_cast hzero), reported_of_count hzero]
        · exact ⟨rfl, rfl, fun e he hrev => absurd hrev (hnone e he), fun _ _ => rfl⟩
      · refine ⟨p', ?_, .cons hpos hfind hnot hfilled⟩
        rw [if_neg (by exact_mod_cast hzero), hok, List.append_assoc]
        rfl
    · have hreported : p.reported (pfd :: rest) = p.reported rest := by simp [reported, hpos]
      have hcount : (pfd :: rest).countP (fun e => 0 < e.revents) = rest.countP fun e => 0 < e.revents :=
        List.countP_cons_of_neg (by simpa using hpos)
      obtain ⟨p', hok, hfilled⟩ := ih active hreports hrest
      simp only [fillActiveChannels, hpos, if_false, ok_bind, pure_eq_ok, hcount, hreported]
      by_cases hzero : (rest.countP fun e => 0 < e.revents) = 0
      · have hnone : ∀ e ∈ rest, ¬ 0 < e.revents := by simpa using List.countP_eq_zero.mp hzero
        refine ⟨p, by simp [hzero, reported_of_count hzero], .skip ?_ hpos⟩
        exact ⟨rfl, rfl, fun e he hrev => absurd hrev (hnone e he), fun _ _ => rfl⟩
      · refine ⟨p', ?_, hfilled.skip hpos⟩
        rw [if_neg (by exact_mod_cast hzero), hok]

section Slots

def answered (p : Poller κ) (r : PollResult) : List PollFd :=
  p.pollfds.mapIdx fun i pfd => { pfd with revents := r.revents i }

theorem answered_eq (p : Poller κ) (r : PollResult) :
    p.answered r = p.pollfds.zipIdx.map fun x => { x.1 with revents := r.revents x.2 } :=
  List.mapIdx_eq_zipIdx_map

theorem range_eq (p : Poller κ) : List.range p.pollfds.length = p.pollfds.zipIdx.map Prod.snd := by
  rw [List.zipIdx_map_snd, List.range_eq_range']

theorem answered_count (hr : PollResult.Contract r p) :
    ((p.answered r).countP fun e => 0 < e.revents) =
      (List.range p.pollfds.length).countP fun i => r.revents i ≠ 0 := by
  rw [answered_eq, range_eq, List.countP_map, List.countP_map]
  apply List.countP_congr
  intro x hx
  simp only [Function.comp_apply, decide_eq_true_eq]
  exact hr.pos_iff hx

theorem WellFormed.owner (h : p.WellFormed) (hr : PollResult.Contract r p) {i : ℕ} {pfd : PollFd}
    (hpfd : p.pollfds[i]? = some pfd) (hrev : r.revents i ≠ 0) :
    ∃ c, p.Registered c ∧ p.slotIndex c = i ∧ p.channels.find pfd.fd = some c ∧ ((p.channel c).fd : ℤ) = pfd.fd := by
  obtain ⟨hi, _⟩ := List.getElem?_eq_some_iff.mp hpfd
  obtain ⟨c, hc, rfl⟩ := h.slots.covered i hi
  obtain ⟨pfd', hslot, hentry⟩ := h.slots.slot c hc
  obtain rfl : pfd = pfd' := Option.some.inj (hpfd.symm.trans hslot)
  have hfd : pfd.fd = (p.channel c).fd := by
    rcases hentry.1 with hfd | ⟨hfd, _⟩
    · exact hfd
    · refine absurd (hr.masked _ _ hpfd ?_) hrev
      rw [hfd, compl_natCast]
      omega
  exact ⟨c, hc, rfl, by rw [hfd]; exact hc, hfd.symm⟩

theorem answered_reports (h : p.WellFormed) (hr : PollResult.Contract r p) : p.Reports (p.answered r) := by
  intro e he hpos
  rw [answered_eq] at he
  obtain ⟨x, hx, rfl⟩ := List.mem_map.mp he
  have hrev : r.revents x.2 ≠ 0 := (hr.pos_iff hx).mp hpos
  obtain ⟨c, _, _, hfind, hfd⟩ := h.owner hr (List.mem_zipIdx_iff_getElem?.mp hx) hrev
  exact ⟨c, hfind, hfd⟩

theorem answered_nodup (h : p.WellFormed) : (p.answered r).Pairwise fun e e' => e.fd ≠ e'.fd := by
  have hfds : (p.answered r).map PollFd.fd = p.pollfds.map PollFd.fd := by
    calc (p.answered r).map PollFd.fd = (p.pollfds.zipIdx.map Prod.fst).map PollFd.fd := by
          rw [answered_eq, List.map_map, List.map_map]
          rfl
      _ = p.pollfds.map PollFd.fd := by rw [List.zipIdx_map_fst]
  rw [← List.pairwise_map, hfds, List.pairwise_map]
  exact h.fds_nodup

theorem reported_slots (h : p.WellFormed) (hr : PollResult.Contract r p) :
    (p.reported (p.answered r)).map p.slotIndex =
      (List.range p.pollfds.length).filter fun i => r.revents i ≠ 0 := by
  rw [reported, answered_eq, range_eq, List.filterMap_map, List.map_filterMap, List.filter_map,
    ← List.filterMap_eq_filter, List.map_filterMap]
  apply List.filterMap_congr
  intro x hx
  have hpfd := List.mem_zipIdx_iff_getElem?.mp hx
  simp only [Function.comp_apply, hr.pos_iff hx]
  by_cases hrev : r.revents x.2 = 0
  · simp [hrev]
  · obtain ⟨c, _, hslot, hfind, _⟩ := h.owner hr hpfd hrev
    simp [hrev, hfind, hslot]

theorem mem_reported_iff (h : p.WellFormed) (hr : PollResult.Contract r p) (c : κ) :
    c ∈ p.reported (p.answered r) ↔ p.Registered c ∧ r.revents (p.slotIndex c) ≠ 0 := by
  constructor
  · intro hc
    have hmem : p.slotIndex c ∈ (p.reported (p.answered r)).map p.slotIndex := List.mem_map_of_mem hc
    rw [reported_slots h hr, List.mem_filter, decide_eq_true_eq] at hmem
    obtain ⟨e, _, _, hfind⟩ := mem_reported.mp hc
    exact ⟨((h.find_iff _ _).mp hfind).1, hmem.2⟩
  · rintro ⟨hc, hrev⟩
    have hmem : p.slotIndex c ∈ (p.reported (p.answered r)).map p.slotIndex := by
      rw [reported_slots h hr, List.mem_filter, decide_eq_true_eq]
      exact ⟨List.mem_range.mpr (h.slots.lt hc), hrev⟩
    obtain ⟨d, hd, hslot⟩ := List.mem_map.mp hmem
    obtain ⟨e, _, _, hfind⟩ := mem_reported.mp hd
    have hd' := ((h.find_iff _ _).mp hfind).1
    rwa [h.slots.injective c d hc hd' hslot.symm]

end Slots

section Complete

theorem poll_answered (h : p.WellFormed) (hr : PollResult.Contract r p) (b : Build) (active : List κ) :
    ∃ p', p.poll b r active = .ok (p', active ++ p.reported (p.answered r)) ∧ p'.pollfds = p.answered r ∧
      p'.channels = p.channels ∧ p.Filled (p.answered r) { p' with pollfds := p.pollfds } := by
  have hcount := answered_count hr
  have hret : r.ret = ((p.answered r).countP fun e => 0 < e.revents) := by rw [hcount, hr.ret]
  have hneg : ¬ r.ret < 0 := by omega
  have hreports : ({ p with pollfds := p.answered r } : Poller κ).Reports (p.answered r) := answered_reports h hr
  obtain ⟨p', hok, hfilled⟩ := fillActiveChannels_exact (b := b) (p.answered r) active hreports (answered_nodup h)
  by_cases hpos : 0 < r.ret
  · refine ⟨p', ?_, hfilled.pollfds, hfilled.channels, ?_⟩
    · rw [← hret] at hok
      simp only [poll, hneg, if_false, hpos, if_true]
      exact hok
    · exact ⟨rfl, hfilled.channels, hfilled.ready, hfilled.other⟩
  · have hzero : ((p.answered r).countP fun e => 0 < e.revents) = 0 := by omega
    refine ⟨{ p with pollfds := p.answered r }, ?_, rfl, rfl, ?_⟩
    · rw [reported_of_count hzero, List.append_nil]
      simp only [poll, hneg, if_false, hpos]
      rfl
    · have hnone : ∀ e ∈ p.answered r, ¬ 0 < e.revents := by simpa using List.countP_eq_zero.mp hzero
      exact ⟨rfl, rfl, fun e he hrev => absurd hrev (hnone e he), fun _ _ => rfl⟩

theorem Filled.revents {entries : List PollFd} {q : Poller κ} (h : p.WellFormed) (hr : PollResult.Contract r p)
    (hentries : entries = p.answered r) (hq : p.Filled entries q) {c : κ} (hc : c ∈ p.reported entries) :
    q.channel c = { p.channel c with revents := (r.revents (p.slotIndex c)).toInt32 } := by
  subst hentries
  obtain ⟨e, he, hpos, hfind⟩ := mem_reported.mp hc
  rw [hq.ready e he hpos c hfind]
  rw [answered_eq] at he
  obtain ⟨x, hx, rfl⟩ := List.mem_map.mp he
  have hrev : r.revents x.2 ≠ 0 := (hr.pos_iff hx).mp hpos
  obtain ⟨d, hd, hslot, hfind', _⟩ := h.owner hr (List.mem_zipIdx_iff_getElem?.mp hx) hrev
  obtain rfl : c = d := Option.some.inj (hfind.symm.trans hfind')
  rw [hslot]

/-- `Poller::poll` loses no ready channel, reports none twice and touches no other. -/
theorem poll_reports_ready {fd : κ → ℕ} {calls : List (ChannelCall κ)} (h : Run CallStep (Poller.new fd) calls p)
    (hr : PollResult.Contract r p) (b : Build) (active : List κ) :
    ∃ p' ready, p.poll b r active = .ok (p', active ++ ready) ∧ ready.Nodup ∧
      (∀ c, c ∈ ready ↔ p.Registered c ∧ r.revents (p.slotIndex c) ≠ 0) ∧
      ready.map p.slotIndex = (List.range p.pollfds.length).filter (fun i => r.revents i ≠ 0) ∧
      (∀ c ∈ ready, p'.channel c = { p.channel c with revents := (r.revents (p.slotIndex c)).toInt32 }) ∧
      ∀ c, c ∉ ready → p'.channel c = p.channel c := by
  have hwf := calls_wellFormed h
  obtain ⟨p', hok, _, _, hfilled⟩ := poll_answered hwf hr b active
  have hslots := reported_slots hwf hr
  refine ⟨p', p.reported (p.answered r), hok, ?_, mem_reported_iff hwf hr, hslots, ?_, hfilled.other⟩
  · apply List.Nodup.of_map p.slotIndex
    rw [hslots]
    exact List.nodup_range.filter _
  · intro c hc
    exact hfilled.revents hwf hr rfl hc

def firstAndThird : PollResult := ⟨2, fun i => if i = 0 ∨ i = 2 then Poll.pollin.toInt16 else 0⟩

theorem poll_reports_ready_moved : ∃ p : Poller ℕ, Run CallStep (Poller.new (· + 10))
      [.enableReading 0, .enableReading 1, .enableReading 2, .enableReading 3, .disableAll 0, .remove 0] p ∧
    ∃ p' ready, p.poll .debug firstAndThird [] = .ok (p', [] ++ ready) ∧ ready.Nodup ∧
      (∀ c, c ∈ ready ↔ p.Registered c ∧ firstAndThird.revents (p.slotIndex c) ≠ 0) ∧
      ready.map p.slotIndex = (List.range p.pollfds.length).filter (fun i => firstAndThird.revents i ≠ 0) ∧
      (∀ c ∈ ready, p'.channel c = { p.channel c with revents := (firstAndThird.revents (p.slotIndex c)).toInt32 }) ∧
      ∀ c, c ∉ ready → p'.channel c = p.channel c := by
  have hrun : ∃ p, Run (Next callStep?) (Poller.new (· + 10))
      [.enableReading 0, .enableReading 1, .enableReading 2, .enableReading 3, .disableAll 0, .remove 0] p ∧
      p.pollfds.map PollFd.fd = [13, 11, 12] :=
    run_of_exec_map (fun p : Poller ℕ => p.pollfds.map PollFd.fd) (by decide)
  obtain ⟨p, hrun, hfds⟩ := hrun
  have hlen : p.pollfds.length = 3 := by simpa using congrArg List.length hfds
  have h := hrun.mono fun _ _ _ hn => callStep_of_next hn
  have hcontract : PollResult.Contract firstAndThird p := by
    constructor
    · rw [hlen]
      decide
    · intro i _
      simp only [firstAndThird]
      split_ifs <;> decide
    · intro i pfd hpfd hneg
      have hmem : pfd.fd ∈ p.pollfds.map PollFd.fd := List.mem_map_of_mem (List.mem_of_getElem? hpfd)
      rw [hfds] at hmem
      simp at hmem
      omega
  exact ⟨p, h, poll_reports_ready h hcontract .debug []⟩

end Complete

end Poller

end Penduo
