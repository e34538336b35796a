import Penduo.PollerTable

set_option autoImplicit false
set_option linter.unusedSectionVars false

namespace Penduo

namespace Poller

variable {κ : Type} [DecidableEq κ] {p p' q : Poller κ} {b : Build}

/-- Two tables that differ only in what `::poll` reported and in which handlers are running. -/
structure SameTable (p p' : Poller κ) : Prop where
  channels : p'.channels = p.channels
  length : p'.pollfds.length = p.pollfds.length
  entry : ∀ (i : ℕ) (pfd : PollFd), p.pollfds[i]? = some pfd → ∃ r, p'.pollfds[i]? = some { pfd with revents := r }
  channel : ∀ c, ∃ r h, p'.channel c = { p.channel c with revents := r, eventHandling := h }

section SameTable

theorem SameTable.refl (p : Poller κ) : SameTable p p :=
  ⟨rfl, rfl, fun _ pfd hpfd => ⟨pfd.revents, hpfd⟩, fun _ => ⟨_, _, rfl⟩⟩

theorem SameTable.trans (h : SameTable p p') (h' : SameTable p' q) : SameTable p q where
  channels := h'.channels.trans h.channels
  length := h'.length.trans h.length
  entry i pfd hpfd := by
    obtain ⟨_, hr⟩ := h.entry i pfd hpfd
    obtain ⟨r, hr'⟩ := h'.entry i _ hr
    exact ⟨r, hr'⟩
  channel c := by
    obtain ⟨r, e, hc⟩ := h.channel c
    obtain ⟨r', e', hc'⟩ := h'.channel c
    exact ⟨r', e', by rw [hc', hc]⟩

theorem SameTable.fd (h : SameTable p p') (c : κ) : (p'.channel c).fd = (p.channel c).fd := by
  obtain ⟨r, e, hc⟩ := h.channel c
  rw [hc]

theorem SameTable.events (h : SameTable p p') (c : κ) : (p'.channel c).events = (p.channel c).events := by
  obtain ⟨r, e, hc⟩ := h.channel c
  rw [hc]

theorem SameTable.index (h : SameTable p p') (c : κ) :
    (p'.channel c).pollfdsIndex = (p.channel c).pollfdsIndex := by
  obtain ⟨r, e, hc⟩ := h.channel c
  rw [hc]

theorem SameTable.registered (h : SameTable p p') (c : κ) : p'.Registered c ↔ p.Registered c := by
  rw [Registered, h.channels, h.fd, Registered]

theorem SameTable.wellFormed (h : SameTable p p') (hp : p.WellFormed) : p'.WellFormed := by
  have hreg : p'.Registered = p.Registered := funext fun c => propext (h.registered c)
  have hslot : p'.slotIndex = p.slotIndex := funext fun c => by rw [slotIndex, h.index, slotIndex]
  constructor
  case key =>
    intro fd c hf
    rw [h.channels] at hf
    rw [h.fd]
    exact hp.key fd c hf
  case size => rw [h.length, h.channels, hp.size]
  case index =>
    intro c hc
    rw [h.index]
    exact hp.index c ((h.registered c).mp hc)
  case slots =>
    rw [hreg, hslot]
    constructor
    · intro c hc
      obtain ⟨pfd, hpfd, hentry⟩ := hp.slots.slot c hc
      obtain ⟨r, hr⟩ := h.entry _ _ hpfd
      refine ⟨_, hr, ?_⟩
      simpa only [Entry, h.fd, h.events, Channel.isNoneEvent] using hentry
    · exact hp.slots.injective
    · rw [h.length]
      exact hp.slots.covered
  case added =>
    intro c
    obtain ⟨r, e, hc⟩ := h.channel c
    rw [h.registered, hc]
    exact hp.added c
  case events =>
    intro c
    rw [h.events]
    exact hp.events c

theorem sameTable_setChannel (p : Poller κ) (c : κ) (r : Int32) (e : Bool) :
    SameTable p (p.setChannel c { p.channel c with revents := r, eventHandling := e }) where
  channels := rfl
  length := rfl
  entry _ pfd hpfd := ⟨pfd.revents, hpfd⟩
  channel d := by
    by_cases hdc : d = c
    · subst hdc
      exact ⟨r, e, Function.update_self d _ _⟩
    · exact ⟨_, _, Function.update_of_ne hdc _ _⟩

end SameTable

def reported (p : Poller κ) (pollfds : List PollFd) : List κ :=
  pollfds.filterMap fun pfd => if 0 < pfd.revents then p.channels.find pfd.fd else none

def Reports (p : Poller κ) (pollfds : List PollFd) : Prop :=
  ∀ pfd ∈ pollfds, 0 < pfd.revents → ∃ c, p.channels.find pfd.fd = some c ∧ ((p.channel c).fd : ℤ) = pfd.fd

theorem fillActiveChannels_ok (pollfds : List PollFd) (numEvents : ℤ) (active : List κ)
    (h : p.Reports pollfds) :
    ∃ p' more, fillActiveChannels b p pollfds numEvents active = .ok (p', active ++ more) ∧
      more <+: p.reported pollfds ∧ SameTable p p' := by
  induction pollfds generalizing p numEvents active with
  | nil => exact ⟨p, [], by simp [fillActiveChannels], by simp, .refl p⟩
  | cons pfd rest ih =>
    have hrest : p.Reports rest := fun e he => h e (List.mem_cons_of_mem _ he)
    by_cases hpos : 0 < pfd.revents
    · obtain ⟨c, hfind, hfd⟩ := h pfd (by simp) hpos
      have hmem := FiniteMap.mem_of_find hfind
      have hsame : SameTable p (p.setChannel c { p.channel c with revents := pfd.revents.toInt32 }) :=
        sameTable_setChannel p c _ _
      have hreported : p.reported (pfd :: rest) = c :: p.reported rest := by
        simp [reported, hpos, hfind]
      simp only [fillActiveChannels, hpos, if_true, check_of hmem, hfind, require, check_of hfd, ok_bind, pure_eq_ok]
      by_cases hzero : numEvents - 1 = 0
      · refine ⟨_, [c], by rw [if_pos hzero], ?_, hsame⟩
        rw [hreported]
        exact List.prefix_append [c] _
      · rw [if_neg hzero]
        obtain ⟨p', more, hok, hpre, hsame'⟩ := ih (numEvents - 1) (active ++ [c])
          (p := p.setChannel c { p.channel c with revents := pfd.revents.toInt32 }) (by
            intro e he hpos'
            obtain ⟨d, hd, hfd'⟩ := hrest e he hpos'
            exact ⟨d, hd, by rw [hsame.fd, hfd']⟩)
        refine ⟨p', c :: more, by simpa using hok, ?_, hsame.trans hsame'⟩
        rw [hreported]
        exact List.cons_prefix_cons.mpr ⟨rfl, hpre⟩
    · have hreported : p.reported (pfd :: rest) = p.reported rest := by simp [reported, hpos]
      simp only [fillActiveChannels, hpos, if_false, ok_bind, pure_eq_ok]
      by_cases hzero : numEvents = 0
      · exact ⟨p, [], by simp [hzero], by simp, .refl p⟩
      · rw [if_neg hzero, hreported]
        exact ih numEvents active hrest

theorem WellFormed.fds_nodup (h : p.WellFormed) : p.pollfds.Pairwise fun e e' => e.fd ≠ e'.fd := by
  rw [List.pairwise_iff_getElem]
  intro i j hi hj hij he
  obtain ⟨c, hc, rfl⟩ := h.slots.covered i hi
  obtain ⟨d, hd, rfl⟩ := h.slots.covered j hj
  obtain ⟨e, hslot, hentry⟩ := h.slots.slot c hc
  obtain ⟨e', hslot', hentry'⟩ := h.slots.slot d hd
  rw [List.getElem?_eq_getElem hi, Option.some.injEq] at hslot
  rw [List.getElem?_eq_getElem hj, Option.some.injEq] at hslot'
  have hfd : (p.channel c).fd = (p.channel d).fd := by
    have hrec := hentry.recover
    have hrec' := hentry'.recover
    rw [← hslot, he, hslot', hrec'] at hrec
    exact_mod_cast hrec.symm
  rw [WellFormed.fd_injective hc hd hfd] at hij
  exact lt_irrefl _ hij

theorem WellFormed.entries_of_fd (h : p.WellFormed) {c : κ} (hc : p.Registered c) :
    ∃ pfd, p.pollfds.filter (fun e => e.fd = ((p.channel c).fd : ℤ) ∨ e.fd = ~~~((p.channel c).fd : ℤ)) = [pfd] ∧
      Entry (p.channel c) pfd := by
  obtain ⟨pfd, hpfd, hentry⟩ := h.slots.slot c hc
  refine ⟨pfd, ?_, hentry⟩
  have hnodup : p.pollfds.Nodup := h.fds_nodup.imp fun hne he => hne (congrArg PollFd.fd he)
  apply List.perm_singleton.mp
  apply (List.perm_ext_iff_of_nodup (hnodup.filter _) (List.nodup_singleton pfd)).mpr
  intro e
  simp only [List.mem_filter, List.mem_singleton, decide_eq_true_eq]
  constructor
  · rintro ⟨hmem, hmatch⟩
    obtain ⟨i, hi, rfl⟩ := List.getElem_of_mem hmem
    obtain ⟨d, hd, rfl⟩ := h.slots.covered i hi
    obtain ⟨e, hslot, hentry'⟩ := h.slots.slot d hd
    rw [List.getElem?_eq_getElem hi, Option.some.injEq] at hslot
    have hrecover := hentry'.recover
    rw [← hslot] at hrecover
    have hfd : (p.channel d).fd = (p.channel c).fd := by
      rcases hmatch with hmatch | hmatch <;> rw [hmatch] at hrecover
      · rw [if_neg (by omega)] at hrecover
        exact_mod_cast hrecover.symm
      · rw [if_pos (by rw [compl_natCast]; omega), compl_natCast] at hrecover
        have hcompl : ~~~(-((p.channel c).fd : ℤ) - 1) = (p.channel c).fd := by
          rw [← compl_natCast]
          rfl
        rw [hcompl] at hrecover
        exact_mod_cast hrecover.symm
    obtain rfl := WellFormed.fd_injective hd hc hfd
    rw [List.getElem?_eq_getElem hi, Option.some.injEq] at hpfd
    exact hpfd
  · rintro rfl
    exact ⟨List.mem_of_getElem? hpfd, hentry.1.imp_right And.left⟩

def PollResult.Skips (r : PollResult) (p : Poller κ) : Prop :=
  ∀ i pfd, p.pollfds[i]? = some pfd → pfd.fd < 0 → ¬ 0 < r.revents i

theorem poll_ok (h : p.WellFormed) (r : PollResult) (hr : PollResult.Skips r p) :
    ∃ p' active, p.poll b r [] = .ok (p', active) ∧ SameTable p p' ∧ active.Nodup ∧
      ∀ c ∈ active, p.Registered c := by
  unfold poll
  split_ifs with hneg hpos
  · exact ⟨p, [], rfl, .refl p, by simp, by simp⟩
  all_goals
    have hsame : SameTable p
        { p with pollfds := p.pollfds.mapIdx fun i pfd => { pfd with revents := r.revents i } } := by
      refine ⟨rfl, by simp, fun i pfd hpfd => ⟨r.revents i, ?_⟩, fun c => ⟨_, _, rfl⟩⟩
      simp [hpfd]
  · have hwf := hsame.wellFormed h
    have hreports : Reports { p with pollfds := p.pollfds.mapIdx fun i pfd => { pfd with revents := r.revents i } }
        (p.pollfds.mapIdx fun i pfd => { pfd with revents := r.revents i }) := by
      intro e he hrev
      obtain ⟨i, hi, rfl⟩ := List.mem_mapIdx.mp he
      obtain ⟨c, hc, rfl⟩ := h.slots.covered i hi
      obtain ⟨e', hslot, hentry⟩ := h.slots.slot c hc
      rw [List.getElem?_eq_getElem hi, Option.some.injEq] at hslot
      have hfd : p.pollfds[p.slotIndex c].fd = (p.channel c).fd := by
        rcases hentry.1 with hfd | ⟨hfd, _⟩
        · rw [hslot, hfd]
        · refine absurd hrev (hr _ _ (List.getElem?_eq_getElem hi) ?_)
          rw [hslot, hfd, compl_natCast]
          omega
      exact ⟨c, by rw [hfd]; exact hc, hfd.symm⟩
    obtain ⟨p', more, hok, hpre, hsame'⟩ := fillActiveChannels_ok (b := b) _ r.ret [] hreports
    refine ⟨p', more, by simpa using hok, hsame.trans hsame', ?_, ?_⟩
    · apply hpre.sublist.nodup
      rw [List.nodup_iff_pairwise_ne, reported, List.pairwise_filterMap]
      apply hwf.fds_nodup.imp
      intro e e' hne c hc d hd hcd
      split_ifs at hc hd
      subst hcd
      exact hne ((hwf.key _ _ hc).symm.trans (hwf.key _ _ hd))
    · intro c hc
      obtain ⟨e, _, he⟩ := List.mem_filterMap.mp (hpre.subset hc)
      split_ifs at he
      exact ((h.find_iff _ c).mp he).1
  · exact ⟨_, [], rfl, hsame, by simp, by simp⟩

end Poller

end Penduo
