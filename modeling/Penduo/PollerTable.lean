import Penduo.Poller

set_option autoImplicit false
set_option linter.unusedSectionVars false

namespace Penduo

open BackReferences

namespace Poller

variable {κ : Type} [DecidableEq κ] {p p' : Poller κ} {c d : κ} {ev : Int32} {fd : ℕ}

def Registered (p : Poller κ) (c : κ) : Prop := p.channels.find (p.channel c).fd = some c

instance (p : Poller κ) (c : κ) : Decidable (p.Registered c) := inferInstanceAs (Decidable (_ = _))

def slotIndex (p : Poller κ) (c : κ) : ℕ := (p.channel c).pollfdsIndex.toNat

def Entry (ch : Channel) (pfd : PollFd) : Prop :=
  (pfd.fd = ch.fd ∨ pfd.fd = ~~~(ch.fd : ℤ) ∧ ch.isNoneEvent) ∧ pfd.events.toInt32 = ch.events

/-- The vector, the map and the indices kept in the channels agree. -/
structure WellFormed (p : Poller κ) : Prop where
  key : ∀ fd c, p.channels.find fd = some c → ((p.channel c).fd : ℤ) = fd
  size : p.pollfds.length = p.channels.size
  index : ∀ c, p.Registered c → 0 ≤ (p.channel c).pollfdsIndex
  slots : Indexed p.Registered p.slotIndex (fun c => Entry (p.channel c)) p.pollfds
  added : ∀ c, (p.channel c).addedToLoop = true ↔ p.Registered c
  events : ∀ c, Channel.EventMask (p.channel c).events

def Masked (p : Poller κ) (c : κ) : Prop :=
  ∃ pfd, p.pollfds[p.slotIndex c]? = some pfd ∧ pfd.fd = ~~~((p.channel c).fd : ℤ)

theorem compl_natCast (n : ℕ) : ~~~(n : ℤ) = -n - 1 := by
  rw [show ~~~(n : ℤ) = Int.negSucc n from rfl, Int.negSucc_eq]
  omega

theorem WellFormed.find_iff (h : p.WellFormed) (fd : ℤ) (c : κ) :
    p.channels.find fd = some c ↔ p.Registered c ∧ ((p.channel c).fd : ℤ) = fd := by
  constructor
  · intro hf
    have hk := h.key fd c hf
    exact ⟨by rw [Registered, hk, hf], hk⟩
  · rintro ⟨hr, rfl⟩
    exact hr

theorem WellFormed.fd_injective (hc : p.Registered c) (hd : p.Registered d)
    (hfd : (p.channel c).fd = (p.channel d).fd) : c = d := by
  rw [Registered, hfd, hd] at hc
  exact (Option.some.inj hc).symm

theorem WellFormed.index_eq (h : p.WellFormed) (hc : p.Registered c) :
    (p.channel c).pollfdsIndex = p.slotIndex c :=
  (Int.toNat_of_nonneg (h.index c hc)).symm

theorem Entry.recover {ch : Channel} {pfd : PollFd} (h : Entry ch pfd) :
    (if pfd.fd < 0 then ~~~pfd.fd else pfd.fd) = ch.fd := by
  rcases h.1 with hfd | ⟨hfd, -⟩
  · rw [hfd, if_neg (by omega)]
  · rw [hfd, if_pos (by rw [compl_natCast]; omega)]
    rfl

section SetEvents

def append (p : Poller κ) (c : κ) (ev : Int32) : Poller κ :=
  { pollfds := p.pollfds ++ [⟨(p.channel c).fd, ev.toInt16, 0⟩]
    channels := p.channels.assign (p.channel c).fd c
    channel := Function.update p.channel c
      { p.channel c with events := ev, pollfdsIndex := p.pollfds.length, addedToLoop := true } }

def rewrite (p : Poller κ) (c : κ) (ev : Int32) : Poller κ :=
  { p with
    pollfds := p.pollfds.set (p.slotIndex c)
      ⟨if ev = Channel.kNoneEvent then ~~~((p.channel c).fd : ℤ) else (p.channel c).fd, ev.toInt16, 0⟩
    channel := Function.update p.channel c { p.channel c with events := ev, addedToLoop := true } }

def setEvents (b : Build) (p : Poller κ) (c : κ) (ev : Int32) : Except Fault (Poller κ) :=
  Channel.update b (p.setChannel c { p.channel c with events := ev }) c

theorem enableReading_eq (b : Build) (p : Poller κ) (c : κ) :
    Channel.enableReading b p c = p.setEvents b c ((p.channel c).events ||| Channel.kReadEvent) := rfl

theorem disableAll_eq (b : Build) (p : Poller κ) (c : κ) :
    Channel.disableAll b p c = p.setEvents b c Channel.kNoneEvent := rfl

theorem setEvents_new (hidx : (p.channel c).pollfdsIndex < 0)
    (hfd : ((p.channel c).fd : ℤ) ∉ p.channels) (b : Build) :
    p.setEvents b c ev = .ok (p.append c ev) := by
  simp [setEvents, Channel.update, updateChannel, setChannel, hidx, check_of, hfd, append,
    FiniteMap.insertNew_eq]

theorem enableReading_new (hev : Channel.EventMask (p.channel c).events) (hidx : (p.channel c).pollfdsIndex < 0)
    (hfd : ((p.channel c).fd : ℤ) ∉ p.channels) (b : Build) :
    Channel.enableReading b p c = .ok (p.append c Channel.kReadEvent) := by
  rw [enableReading_eq, hev.or_read]
  exact setEvents_new hidx hfd b

theorem setEvents_old (h : p.WellFormed) (hc : p.Registered c) (b : Build) :
    p.setEvents b c ev = .ok (p.rewrite c ev) := by
  obtain ⟨pfd, hpfd, hentry⟩ := h.slots.slot c hc
  obtain ⟨hlt, rfl⟩ := List.getElem?_eq_some_iff.mp hpfd
  have hidx := h.index_eq hc
  have hneg : ¬ (p.channel c).pollfdsIndex < 0 := by have := h.index c hc; omega
  have hmem : ((p.channel c).fd : ℤ) ∈ p.channels := FiniteMap.mem_of_find hc
  have hfind : p.channels.find (p.channel c).fd = some c := hc
  have hfd : p.pollfds[p.slotIndex c].fd = (p.channel c).fd ∨
      p.pollfds[p.slotIndex c].fd = ~~~((p.channel c).fd : ℤ) := hentry.1.imp_right And.left
  have hidx' : (p.channel c).pollfdsIndex.toNat = p.slotIndex c := rfl
  have hrange : 0 ≤ (p.channel c).pollfdsIndex ∧ (p.channel c).pollfdsIndex < p.pollfds.length := by
    omega
  simp [setEvents, Channel.update, updateChannel, setChannel, hneg, hidx', check_of, hmem, hfind,
    hrange, hlt, hfd, require, rewrite, Channel.isNoneEvent]

theorem disableAll_old (h : p.WellFormed) (hc : p.Registered c) (b : Build) :
    Channel.disableAll b p c = .ok (p.rewrite c Channel.kNoneEvent) :=
  setEvents_old h hc b

theorem setEvents_cases (h : p.WellFormed) (hok : p.setEvents .debug c ev = .ok p') :
    ((p.channel c).pollfdsIndex < 0 ∧ ((p.channel c).fd : ℤ) ∉ p.channels ∧ p' = p.append c ev) ∨
      p.Registered c ∧ p' = p.rewrite c ev := by
  by_cases hidx : (p.channel c).pollfdsIndex < 0
  · have habsent : ((p.channel c).fd : ℤ) ∉ p.channels := by
      simp [setEvents, Channel.update, updateChannel, setChannel, hidx, bind_eq_ok] at hok
      exact hok.1
    rw [setEvents_new hidx habsent, Except.ok.injEq] at hok
    exact Or.inl ⟨hidx, habsent, hok.symm⟩
  · have hc : p.Registered c := by
      simp [setEvents, Channel.update, updateChannel, setChannel, hidx, bind_eq_ok] at hok
      exact hok.2.1
    rw [setEvents_old h hc, Except.ok.injEq] at hok
    exact Or.inr ⟨hc, hok.symm⟩

theorem append_fd (d : κ) : ((p.append c ev).channel d).fd = (p.channel d).fd := by
  by_cases hdc : d = c
  · subst hdc
    simp [append]
  · simp [append, hdc]

theorem append_events (d : κ) :
    ((p.append c ev).channel d).events = if d = c then ev else (p.channel d).events := by
  by_cases hdc : d = c
  · subst hdc
    simp [append]
  · simp [append, hdc]

theorem rewrite_fd (d : κ) : ((p.rewrite c ev).channel d).fd = (p.channel d).fd := by
  by_cases hdc : d = c
  · subst hdc
    simp [rewrite]
  · simp [rewrite, hdc]

theorem rewrite_events (d : κ) :
    ((p.rewrite c ev).channel d).events = if d = c then ev else (p.channel d).events := by
  by_cases hdc : d = c
  · subst hdc
    simp [rewrite]
  · simp [rewrite, hdc]

theorem rewrite_index (d : κ) :
    ((p.rewrite c ev).channel d).pollfdsIndex = (p.channel d).pollfdsIndex := by
  by_cases hdc : d = c
  · subst hdc
    simp [rewrite]
  · simp [rewrite, hdc]

theorem append_registered (hfd : ((p.channel c).fd : ℤ) ∉ p.channels) (d : κ) :
    (p.append c ev).Registered d ↔ d = c ∨ p.Registered d := by
  by_cases hdc : d = c
  · subst hdc
    simp [Registered, append, FiniteMap.find_assign]
  · have hne : p.Registered d → ((p.channel d).fd : ℤ) ≠ (p.channel c).fd := by
      intro hd he
      exact hfd (he ▸ FiniteMap.mem_of_find hd)
    simp only [Registered, append, Function.update_of_ne hdc, FiniteMap.find_assign, hdc, false_or]
    split_ifs with he
    · simp only [Option.some.injEq, Ne.symm hdc, false_iff]
      exact fun hd => hne hd he
    · rfl

theorem append_wellFormed (h : p.WellFormed) (hfd : ((p.channel c).fd : ℤ) ∉ p.channels)
    (hev : Channel.EventMask ev) : (p.append c ev).WellFormed := by
  have hreg : ∀ d, (p.append c ev).Registered d ↔ d = c ∨ p.Registered d := append_registered hfd
  have hnot : ¬ p.Registered c := fun hc => hfd (FiniteMap.mem_of_find hc)
  have hother : ∀ d, p.Registered d → (p.append c ev).channel d = p.channel d := by
    intro d hd
    have hdc : d ≠ c := by
      rintro rfl
      exact hnot hd
    exact Function.update_of_ne hdc _ _
  have hself : (p.append c ev).channel c =
      { p.channel c with events := ev, pollfdsIndex := p.pollfds.length, addedToLoop := true } :=
    Function.update_self c _ _
  constructor
  case key =>
    intro fd d hf
    simp only [append, FiniteMap.find_assign] at hf
    split_ifs at hf with he
    · obtain rfl := Option.some.inj hf
      rw [hself, he]
    · have hd := (h.find_iff fd d).mp hf
      rw [hother d hd.1, hd.2]
  case size =>
    simp [append, FiniteMap.size_assign hfd, h.size]
  case index =>
    intro d hd
    rcases (hreg d).mp hd with rfl | hd
    · rw [hself]
      exact Int.natCast_nonneg _
    · rw [hother d hd]
      exact h.index d hd
  case slots =>
    refine h.slots.push hnot hreg ?_ ?_ ?_ ?_
    · simp [slotIndex, hself]
    · intro d hd
      simp [slotIndex, hother d hd]
    · rw [hself]
      exact ⟨Or.inl rfl, hev.toInt16⟩
    · intro d y hd hy
      rwa [hother d hd]
  case added =>
    intro d
    rw [hreg]
    by_cases hdc : d = c
    · subst hdc
      simp [hself]
    · simp [append, hdc, h.added d]
  case events =>
    intro d
    by_cases hdc : d = c
    · subst hdc
      rwa [hself]
    · simp [append, Function.update_of_ne hdc, h.events d]

theorem rewrite_registered (d : κ) : (p.rewrite c ev).Registered d ↔ p.Registered d := by
  by_cases hdc : d = c
  · subst hdc
    simp [Registered, rewrite]
  · simp [Registered, rewrite, Function.update_of_ne hdc]

theorem rewrite_wellFormed (h : p.WellFormed) (hc : p.Registered c) (hev : Channel.EventMask ev) :
    (p.rewrite c ev).WellFormed := by
  have hreg : ∀ d, (p.rewrite c ev).Registered d ↔ p.Registered d := rewrite_registered
  have hself : (p.rewrite c ev).channel c = { p.channel c with events := ev, addedToLoop := true } :=
    Function.update_self c _ _
  have hother : ∀ d, d ≠ c → (p.rewrite c ev).channel d = p.channel d :=
    fun d hd => Function.update_of_ne hd _ _
  constructor
  case key =>
    intro fd d hf
    rw [rewrite_fd]
    exact h.key fd d hf
  case size =>
    simpa [rewrite] using h.size
  case index =>
    intro d hd
    rw [rewrite_index]
    exact h.index d ((hreg d).mp hd)
  case slots =>
    have hset : Indexed p.Registered p.slotIndex (fun d => Entry ((p.rewrite c ev).channel d))
        (p.rewrite c ev).pollfds := by
      refine h.slots.set hc ?_ ?_
      · rw [hself]
        refine ⟨?_, hev.toInt16⟩
        by_cases hnone : ev = Channel.kNoneEvent
        · exact Or.inr ⟨by simp [hnone], hnone⟩
        · exact Or.inl (by simp [hnone])
      · intro d y _ hdc hy
        rwa [hother d hdc]
    have hr : (p.rewrite c ev).Registered = p.Registered := funext fun d => propext (hreg d)
    have hs : (p.rewrite c ev).slotIndex = p.slotIndex := funext fun d => by rw [slotIndex, rewrite_index, slotIndex]
    rwa [hr, hs]
  case added =>
    intro d
    rw [hreg]
    by_cases hdc : d = c
    · subst hdc
      simp [hself, hc]
    · rw [hother d hdc]
      exact h.added d
  case events =>
    intro d
    by_cases hdc : d = c
    · subst hdc
      rwa [hself]
    · rw [hother d hdc]
      exact h.events d

theorem setEvents_wellFormed (h : p.WellFormed) (hev : Channel.EventMask ev)
    (hok : p.setEvents .debug c ev = .ok p') : p'.WellFormed := by
  rcases setEvents_cases h hok with ⟨_, hfd, rfl⟩ | ⟨hc, rfl⟩
  · exact append_wellFormed h hfd hev
  · exact rewrite_wellFormed h hc hev

end SetEvents

section Masked

theorem rewrite_masked (h : p.WellFormed) (hc : p.Registered c) : (p.rewrite c Channel.kNoneEvent).Masked c := by
  have hlt := h.slots.lt hc
  refine ⟨⟨~~~((p.channel c).fd : ℤ), Channel.kNoneEvent.toInt16, 0⟩, ?_, ?_⟩
  · rw [slotIndex, rewrite_index, rewrite, if_pos rfl]
    exact List.getElem?_set_self hlt
  · rw [rewrite_fd]

theorem Masked.rewrite (h : p.WellFormed) (hc : p.Registered c) (hd : p.Registered d) (hdc : d ≠ c)
    (hm : p.Masked d) : (p.rewrite c ev).Masked d := by
  obtain ⟨pfd, hpfd, hfd⟩ := hm
  refine ⟨pfd, ?_, by rw [rewrite_fd, hfd]⟩
  have hslot : p.slotIndex c ≠ p.slotIndex d := fun he => hdc (h.slots.injective c d hc hd he).symm
  rw [slotIndex, rewrite_index]
  exact (List.getElem?_set_ne hslot).trans hpfd

theorem Masked.append (hdc : d ≠ c) (hm : p.Masked d) : (p.append c ev).Masked d := by
  obtain ⟨pfd, hpfd, hfd⟩ := hm
  refine ⟨pfd, ?_, by rw [append_fd, hfd]⟩
  have hslot : (p.append c ev).slotIndex d = p.slotIndex d := by simp [slotIndex, Poller.append, hdc]
  rw [hslot]
  exact List.getElem?_append_left (List.getElem?_eq_some_iff.mp hpfd).1 |>.trans hpfd

end Masked

section Construct

theorem setChannel_new_registered (h : p.WellFormed) (hc : ¬ p.Registered c) (d : κ) :
    (p.setChannel c (Channel.new fd)).Registered d ↔ p.Registered d := by
  by_cases hdc : d = c
  · subst hdc
    have hfind : p.channels.find fd ≠ some d := fun hf => hc ((h.find_iff fd d).mp hf).1
    simp only [hc, iff_false]
    simpa [Registered, setChannel, Channel.new] using hfind
  · simp [Registered, setChannel, hdc]

theorem setChannel_new_wellFormed (h : p.WellFormed) (hc : ¬ p.Registered c) :
    (p.setChannel c (Channel.new fd)).WellFormed := by
  have hreg : ∀ d, (p.setChannel c (Channel.new fd)).Registered d ↔ p.Registered d := setChannel_new_registered h hc
  have hother : ∀ d, p.Registered d → (p.setChannel c (Channel.new fd)).channel d = p.channel d := by
    intro d hd
    apply Function.update_of_ne
    rintro rfl
    exact hc hd
  constructor
  case key =>
    intro fd' d hf
    have hd := (h.find_iff fd' d).mp hf
    rw [hother d hd.1, hd.2]
  case size => exact h.size
  case index =>
    intro d hd
    have hd := (hreg d).mp hd
    rw [hother d hd]
    exact h.index d hd
  case slots =>
    constructor
    · intro d hd
      have hd := (hreg d).mp hd
      rw [slotIndex, hother d hd]
      exact h.slots.slot d hd
    · intro d e hd he hde
      have hd := (hreg d).mp hd
      have he := (hreg e).mp he
      rw [slotIndex, slotIndex, hother d hd, hother e he] at hde
      exact h.slots.injective d e hd he hde
    · intro i hi
      obtain ⟨d, hd, hslot⟩ := h.slots.covered i hi
      exact ⟨d, (hreg d).mpr hd, by rw [slotIndex, hother d hd]; exact hslot⟩
  case added =>
    intro d
    rw [hreg]
    by_cases hdc : d = c
    · subst hdc
      simp [setChannel, Channel.new, hc]
    · simp [setChannel, hdc, h.added d]
  case events =>
    intro d
    by_cases hdc : d = c
    · subst hdc
      simp [setChannel, Channel.new, Channel.EventMask]
    · simp [setChannel, hdc, h.events d]

theorem setChannel_new_fd : ((p.setChannel c (Channel.new fd)).channel c).fd = fd := by
  simp [setChannel, Channel.new]

def adopt (p : Poller κ) (c : κ) (fd : ℕ) : Poller κ :=
  (p.setChannel c (Channel.new fd)).append c Channel.kReadEvent

theorem adopt_channel (hdc : d ≠ c) : (p.adopt c fd).channel d = p.channel d := by
  simp [adopt, append, setChannel, hdc]

theorem adopt_fd : ((p.adopt c fd).channel c).fd = fd := by
  simp [adopt, append, setChannel, Channel.new]

theorem adopt_events : ((p.adopt c fd).channel c).events = Channel.kReadEvent := by
  simp [adopt, append]

theorem setChannel_new_absent (hfd : ((fd : ℕ) : ℤ) ∉ p.channels) :
    (((p.setChannel c (Channel.new fd)).channel c).fd : ℤ) ∉ (p.setChannel c (Channel.new fd)).channels := by
  rw [setChannel_new_fd]
  exact hfd

theorem enableReading_adopt (hfd : ((fd : ℕ) : ℤ) ∉ p.channels) (b : Build) :
    Channel.enableReading b (p.setChannel c (Channel.new fd)) c = .ok (p.adopt c fd) := by
  apply enableReading_new
  · simp [setChannel, Channel.new, Channel.EventMask]
  · simp [setChannel, Channel.new]
  · exact setChannel_new_absent hfd

theorem adopt_registered (h : p.WellFormed) (hfd : ((fd : ℕ) : ℤ) ∉ p.channels) (hc : ¬ p.Registered c) (d : κ) :
    (p.adopt c fd).Registered d ↔ d = c ∨ p.Registered d := by
  rw [adopt, append_registered (setChannel_new_absent hfd), setChannel_new_registered h hc]

theorem adopt_wellFormed (h : p.WellFormed) (hfd : ((fd : ℕ) : ℤ) ∉ p.channels) (hc : ¬ p.Registered c) :
    (p.adopt c fd).WellFormed :=
  append_wellFormed (setChannel_new_wellFormed h hc) (setChannel_new_absent hfd) (Or.inr rfl)

end Construct

section Remove

/-- What `Channel::remove` leaves behind: the owner of the last entry has moved into the hole. -/
def unregister (p : Poller κ) (c : κ) : Poller κ :=
  { pollfds := (swapBack p.pollfds (p.slotIndex c)).dropLast
    channels := AList.erase ((p.channel c).fd : ℤ) p.channels
    channel := fun d =>
      if d = c then { p.channel c with addedToLoop := false }
      else if p.Registered d ∧ p.slotIndex d = p.pollfds.length - 1 then
        { p.channel d with pollfdsIndex := (p.channel c).pollfdsIndex }
      else p.channel d }

structure Removable (p : Poller κ) (c : κ) : Prop where
  registered : p.Registered c
  noneEvent : (p.channel c).isNoneEvent
  masked : p.Masked c

theorem unregister_channel_self : (p.unregister c).channel c = { p.channel c with addedToLoop := false } :=
  if_pos rfl

theorem unregister_fd (d : κ) : ((p.unregister c).channel d).fd = (p.channel d).fd := by
  simp only [unregister]
  split_ifs with hdc
  · rw [hdc]
  · rfl
  · rfl

theorem unregister_events (d : κ) : ((p.unregister c).channel d).events = (p.channel d).events := by
  simp only [unregister]
  split_ifs with hdc
  · rw [hdc]
  · rfl
  · rfl

theorem unregister_registered (hc : p.Registered c) (d : κ) :
    (p.unregister c).Registered d ↔ p.Registered d ∧ d ≠ c := by
  rw [Registered, unregister_fd]
  simp only [unregister, FiniteMap.find_erase]
  split_ifs with hfd
  · simp only [false_iff, not_and, not_not]
    intro hd
    exact WellFormed.fd_injective hd hc (by exact_mod_cast hfd)
  · refine ⟨fun hd => ⟨hd, ?_⟩, And.left⟩
    rintro rfl
    exact hfd rfl

theorem unregister_renumbered :
    Renumbered p.Registered p.slotIndex (p.unregister c).slotIndex (p.pollfds.length - 1) c := by
  intro d hd hdc
  simp only [slotIndex, unregister, hdc, if_false, hd, true_and]
  split_ifs with hlast <;> simp [hlast]

theorem unregister_entry (h : p.WellFormed) (hc : p.Registered c) (hd : p.Registered d) (hdc : d ≠ c) :
    (p.unregister c).pollfds[(p.unregister c).slotIndex d]? = p.pollfds[p.slotIndex d]? :=
  h.slots.remove_slot hc unregister_renumbered hd hdc

theorem unregister_masked (h : p.WellFormed) (hc : p.Registered c) (hd : p.Registered d) (hdc : d ≠ c) :
    (p.unregister c).Masked d ↔ p.Masked d := by
  rw [Masked, unregister_entry h hc hd hdc, unregister_fd, Masked]

theorem unregister_wellFormed (h : p.WellFormed) (hc : p.Registered c) : (p.unregister c).WellFormed := by
  have hreg := unregister_registered hc
  have hlt := h.slots.lt hc
  constructor
  case key =>
    intro fd d hf
    rw [unregister_fd]
    simp only [unregister, FiniteMap.find_erase] at hf
    split_ifs at hf
    exact h.key fd d hf
  case size =>
    have hs := FiniteMap.size_erase (FiniteMap.mem_of_find hc)
    have hp := h.size
    simp only [unregister, List.length_dropLast, swapBack_length]
    omega
  case index =>
    intro d hd
    obtain ⟨hd, hdc⟩ := (hreg d).mp hd
    simp only [unregister, hdc, if_false]
    split_ifs
    · exact h.index c hc
    · exact h.index d hd
  case slots =>
    refine h.slots.remove hc unregister_renumbered hreg ?_
    intro d y hd hdc hy
    simpa only [Entry, unregister_fd, unregister_events, Channel.isNoneEvent] using hy
  case added =>
    intro d
    rw [hreg]
    by_cases hdc : d = c
    · subst hdc
      simp [unregister_channel_self]
    · simp only [unregister, hdc, if_false]
      split_ifs <;> simp [h.added d, hdc]
  case events =>
    intro d
    rw [unregister_events]
    exact h.events d

theorem WellFormed.lastOwner (h : p.WellFormed) (hc : p.Registered c) :
    ∃ m, p.Registered m ∧ p.slotIndex m = p.pollfds.length - 1 := by
  have := h.slots.lt hc
  exact h.slots.covered _ (by omega)

def swapped (p : Poller κ) (c : κ) : Poller κ :=
  { pollfds := swapBack p.pollfds (p.slotIndex c)
    channels := AList.erase ((p.channel c).fd : ℤ) p.channels
    channel := Function.update p.channel c { p.channel c with addedToLoop := false } }

theorem renumberMoved_eq (h : p.WellFormed) (hc : p.Registered c) {m : κ} (hm : p.Registered m)
    (hlast : p.slotIndex m = p.pollfds.length - 1) (hmc : m ≠ c) (b : Build) :
    renumberMoved b (p.swapped c) (p.channel c).pollfdsIndex =
      .ok ((p.swapped c).setChannel m { p.channel m with pollfdsIndex := (p.channel c).pollfdsIndex }) := by
  obtain ⟨pfd, hpfd, hentry⟩ := h.slots.slot m hm
  have hmoved : (p.swapped c).pollfds[(p.channel c).pollfdsIndex.toNat]? = some pfd := by
    rw [← hpfd, hlast]
    exact swapBack_get_self (h.slots.lt hc)
  have hne : ((p.channel m).fd : ℤ) ≠ (p.channel c).fd := by
    intro hfd
    exact hmc (WellFormed.fd_injective hm hc (by exact_mod_cast hfd))
  have hfind : (p.swapped c).channels.find (p.channel m).fd = some m := by
    simp only [swapped, FiniteMap.find_erase, hne, if_false]
    exact hm
  have hch : (p.swapped c).channel m = p.channel m := Function.update_of_ne hmc _ _
  simp [renumberMoved, hmoved, require, hentry.recover, check_of, FiniteMap.mem_of_find hfind, hfind, hch]

theorem swapped_renumbered (h : p.WellFormed) {m : κ} (hm : p.Registered m)
    (hlast : p.slotIndex m = p.pollfds.length - 1) (hmc : m ≠ c) :
    ((p.swapped c).setChannel m { p.channel m with pollfdsIndex := (p.channel c).pollfdsIndex }).channel =
      (p.unregister c).channel := by
  funext d
  simp only [setChannel, swapped, unregister, Function.update_apply]
  by_cases hdm : d = m
  · subst hdm
    simp [hmc, hm, hlast]
  · have hnot : ¬ (p.Registered d ∧ p.slotIndex d = p.pollfds.length - 1) := by
      rintro ⟨hd, he⟩
      exact hdm (h.slots.injective d m hd hm (he.trans hlast.symm))
    simp [hdm, hnot]

theorem swapped_last (h : p.WellFormed) (hc : p.Registered c)
    (hlast : p.slotIndex c = p.pollfds.length - 1) : (p.swapped c).channel = (p.unregister c).channel := by
  funext d
  simp only [swapped, unregister, Function.update_apply]
  by_cases hdc : d = c
  · simp [hdc]
  · have hnot : ¬ (p.Registered d ∧ p.slotIndex d = p.pollfds.length - 1) := by
      rintro ⟨hd, he⟩
      exact hdc (h.slots.injective d c hd hc (he.trans hlast.symm))
    simp [hdc, hnot]

theorem remove_checked (h : p.WellFormed) (hr : p.Removable c) :
    Channel.remove .debug p c = (do
      let q ← if (p.channel c).pollfdsIndex ≠ (p.pollfds.length : ℤ) - 1 then
          renumberMoved .debug (p.swapped c) (p.channel c).pollfdsIndex
        else pure { p.swapped c with pollfds := p.pollfds }
      pure { q with pollfds := q.pollfds.dropLast }) := by
  obtain ⟨hc, hnone, pfd, hpfd, hfd⟩ := hr
  obtain ⟨pfd', hpfd', hentry⟩ := h.slots.slot c hc
  obtain rfl : pfd = pfd' := Option.some.inj (hpfd.symm.trans hpfd')
  have hmem : ((p.channel c).fd : ℤ) ∈ p.channels := FiniteMap.mem_of_find hc
  have hfind : p.channels.find (p.channel c).fd = some c := hc
  have hidx := h.index_eq hc
  have hlt := h.slots.lt hc
  have hneg : ¬ (p.channel c).pollfdsIndex < 0 := by omega
  have hrange : 0 ≤ (p.channel c).pollfdsIndex ∧ (p.channel c).pollfdsIndex < p.pollfds.length := by
    omega
  simp only [Channel.isNoneEvent] at hnone
  simp only [Channel.remove, removeChannel, setChannel, Function.update_self, Channel.isNoneEvent,
    check_of hnone, check_of ((h.added c).mpr hc), check_of hmem, check_of hfind, check_of hrange,
    if_neg hneg, show (p.channel c).pollfdsIndex.toNat = p.slotIndex c from rfl, hpfd, require, ok_bind,
    check_of (And.intro hfd hentry.2), Build.checkEffect, if_pos hmem, if_true]
  split_ifs <;> rfl

theorem remove_of (h : p.WellFormed) (hr : p.Removable c) :
    Channel.remove .debug p c = .ok (p.unregister c) := by
  have hc := hr.registered
  have hidx := h.index_eq hc
  have hlt := h.slots.lt hc
  rw [remove_checked h hr]
  by_cases hlast : p.slotIndex c = p.pollfds.length - 1
  · have hback : swapBack p.pollfds (p.slotIndex c) = p.pollfds := hlast ▸ swapBack_last p.pollfds
    rw [if_neg (by omega)]
    apply congrArg Except.ok
    ext : 1
    · simp [unregister, hback]
    · rfl
    · exact swapped_last h hc hlast
  · obtain ⟨m, hm, hml⟩ := h.lastOwner hc
    have hmc : m ≠ c := by
      rintro rfl
      exact hlast hml
    rw [if_pos (by omega), renumberMoved_eq h hc hm hml hmc]
    apply congrArg Except.ok
    ext : 1
    · rfl
    · rfl
    · exact swapped_renumbered h hm hml hmc

theorem remove_eq_ok (h : p.WellFormed) :
    Channel.remove .debug p c = .ok p' ↔ p.Removable c ∧ p' = p.unregister c := by
  constructor
  · intro hok
    have hr : p.Removable c := by
      simp only [Channel.remove, removeChannel, setChannel, Function.update_self, bind_eq_ok,
        check_debug_eq_ok, require_eq_ok] at hok
      obtain ⟨_, hnone, _, _, _, _, _, hfind, _, _, _, _, pfd, hpfd, _, hentry, _⟩ := hok
      split_ifs at hpfd
      exact ⟨hfind, hnone, pfd, hpfd, hentry.1⟩
    rw [remove_of h hr, Except.ok.injEq] at hok
    exact ⟨hr, hok.symm⟩
  · rintro ⟨hr, rfl⟩
    exact remove_of h hr

end Remove

end Poller

end Penduo
