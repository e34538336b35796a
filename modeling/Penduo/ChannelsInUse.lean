import Penduo.PollReports

set_option autoImplicit false
set_option linter.unusedSectionVars false

namespace Penduo

namespace Poller

variable {κ : Type} [DecidableEq κ] {p p' : Poller κ} {b : Build} {c d : κ} {ev : Int32}
  {use use' : κ → Prop} {handled handled' : Option κ}

/-- The table lists the channels in use, and nothing is left to be done for any other. -/
structure Lists (p : Poller κ) (use : κ → Prop) (handled : Option κ) : Prop where
  wellFormed : p.WellFormed
  registered : ∀ c, p.Registered c ↔ use c
  noneEvent : ∀ c, ¬ use c → (p.channel c).isNoneEvent
  handling : ∀ c, (p.channel c).eventHandling = true → handled = some c

theorem append_eventHandling (d : κ) :
    ((p.append c ev).channel d).eventHandling = (p.channel d).eventHandling := by
  by_cases hdc : d = c
  · subst hdc
    simp [append]
  · simp [append, hdc]

theorem rewrite_eventHandling (d : κ) :
    ((p.rewrite c ev).channel d).eventHandling = (p.channel d).eventHandling := by
  by_cases hdc : d = c
  · subst hdc
    simp [rewrite]
  · simp [rewrite, hdc]

theorem unregister_eventHandling (d : κ) :
    ((p.unregister c).channel d).eventHandling = (p.channel d).eventHandling := by
  simp only [unregister]
  split_ifs with hdc
  · rw [hdc]
  · rfl
  · rfl

structure Polled (p p' : Poller κ) : Prop where
  same : SameTable p p'
  handling : ∀ d, (p'.channel d).eventHandling = (p.channel d).eventHandling

theorem Polled.refl (p : Poller κ) : Polled p p := ⟨.refl p, fun _ => rfl⟩

theorem Polled.trans {q : Poller κ} (h : Polled p p') (h' : Polled p' q) : Polled p q :=
  ⟨h.same.trans h'.same, fun d => (h'.handling d).trans (h.handling d)⟩

theorem setRevents_polled (p : Poller κ) (c : κ) (revents : Int32) :
    Polled p (p.setChannel c { p.channel c with revents := revents }) := by
  refine ⟨sameTable_setChannel p c _ _, fun d => ?_⟩
  by_cases hdc : d = c
  · subst hdc
    simp [setChannel]
  · simp [setChannel, hdc]

theorem fillActiveChannels_same (h : p.WellFormed) (pollfds : List PollFd) (numEvents : ℤ) (active : List κ) :
    Yields (fun r => Polled p r.1 ∧ ∀ c ∈ r.2, c ∈ active ∨ p.Registered c)
      (fillActiveChannels b p pollfds numEvents active) := by
  induction pollfds generalizing p numEvents active with
  | nil => exact yields_ok ⟨.refl p, fun c hc => Or.inl hc⟩
  | cons pfd rest ih =>
    have hrest : ∀ (q : Poller κ) (n : ℤ) (found : List κ), Polled p q →
        (∀ c ∈ found, c ∈ active ∨ p.Registered c) →
        Yields (fun r => Polled p r.1 ∧ ∀ c ∈ r.2, c ∈ active ∨ p.Registered c)
          (if n = 0 then pure (q, found) else fillActiveChannels b q rest n found) := by
      intro q n found hq hfound
      split_ifs
      · exact yields_ok ⟨hq, hfound⟩
      · intro r hok
        obtain ⟨hpolled, hr⟩ := ih (hq.same.wellFormed h) n found r hok
        refine ⟨hq.trans hpolled, fun c hc => ?_⟩
        rcases hr c hc with hc | hc
        · exact hfound c hc
        · exact Or.inr ((hq.same.registered c).mp hc)
    rw [fillActiveChannels]
    split_ifs
    · apply Yields.skip
      intro _ _
      apply Yields.skip
      intro e he
      apply Yields.skip
      intro _ _
      apply hrest
      · exact setRevents_polled p e _
      · intro c hc
        rcases List.mem_append.mp hc with hc | hc
        · exact Or.inl hc
        · obtain rfl := List.mem_singleton.mp hc
          exact Or.inr ((h.find_iff _ c).mp (require_eq_ok.mp he)).1
    · exact hrest p numEvents active (.refl p) fun c hc => Or.inl hc

theorem poll_same (h : p.WellFormed) (r : PollResult) :
    Yields (fun r => Polled p r.1 ∧ ∀ c ∈ r.2, p.Registered c) (p.poll b r []) := by
  have hanswered : Polled p
      { p with pollfds := p.pollfds.mapIdx fun i pfd => { pfd with revents := r.revents i } } := by
    refine ⟨⟨rfl, by simp, fun i pfd hpfd => ⟨r.revents i, ?_⟩, fun c => ⟨_, _, rfl⟩⟩, fun _ => rfl⟩
    simp [hpfd]
  unfold poll
  split_ifs
  · exact yields_ok ⟨.refl p, by simp⟩
  · intro q hok
    obtain ⟨hpolled, hfound⟩ := fillActiveChannels_same (hanswered.same.wellFormed h) _ _ _ q hok
    exact ⟨hanswered.trans hpolled, fun c hc => (hanswered.same.registered c).mp ((hfound c hc).resolve_left (by simp))⟩
  · exact yields_ok ⟨hanswered, by simp⟩

namespace Lists

theorem congr (h : p.Lists use handled) (huse : ∀ c, use' c ↔ use c) : p.Lists use' handled where
  wellFormed := h.wellFormed
  registered c := (h.registered c).trans (huse c).symm
  noneEvent c hc := h.noneEvent c fun hu => hc ((huse c).mpr hu)
  handling := h.handling

theorem added_iff (h : p.Lists use handled) (c : κ) : (p.channel c).addedToLoop = true ↔ use c :=
  (h.wellFormed.added c).trans (h.registered c)

theorem setEvents (h : p.Lists use handled) (hev : Channel.EventMask ev) (hok : p.setEvents .debug c ev = .ok p') :
    p'.Lists (fun d => d = c ∨ use d) handled := by
  rcases setEvents_cases h.wellFormed hok with ⟨_, hfd, rfl⟩ | ⟨hc, rfl⟩
  · constructor
    · exact append_wellFormed h.wellFormed hfd hev
    · intro d
      rw [append_registered hfd, h.registered]
    · intro d hd
      rw [not_or] at hd
      rw [Channel.isNoneEvent, append_events, if_neg hd.1]
      exact h.noneEvent d hd.2
    · intro d hd
      exact h.handling d ((append_eventHandling d).symm.trans hd)
  · constructor
    · exact rewrite_wellFormed h.wellFormed hc hev
    · intro d
      rw [rewrite_registered, h.registered]
      refine ⟨Or.inr, ?_⟩
      rintro (rfl | hd)
      · exact (h.registered d).mp hc
      · exact hd
    · intro d hd
      rw [not_or] at hd
      rw [Channel.isNoneEvent, rewrite_events, if_neg hd.1]
      exact h.noneEvent d hd.2
    · intro d hd
      exact h.handling d ((rewrite_eventHandling d).symm.trans hd)

theorem enableReading (h : p.Lists use handled) (hok : Channel.enableReading .debug p c = .ok p') :
    p'.Lists (fun d => d = c ∨ use d) handled := by
  rw [enableReading_eq] at hok
  exact h.setEvents (Or.inr (h.wellFormed.events c).or_read) hok

theorem disableAll (h : p.Lists use handled) (hok : Channel.disableAll .debug p c = .ok p') :
    p'.Lists (fun d => d = c ∨ use d) handled := h.setEvents (Or.inl rfl) hok

theorem remove (h : p.Lists use handled) (hok : Channel.remove .debug p c = .ok p') :
    p'.Lists (fun d => use d ∧ d ≠ c) handled := by
  obtain ⟨hr, rfl⟩ := (remove_eq_ok h.wellFormed).mp hok
  constructor
  · exact unregister_wellFormed h.wellFormed hr.registered
  · intro d
    rw [unregister_registered hr.registered, h.registered]
  · intro d hd
    rw [Channel.isNoneEvent, unregister_events]
    by_cases hdc : d = c
    · rw [hdc]
      exact hr.noneEvent
    · exact h.noneEvent d fun hu => hd ⟨hu, hdc⟩
  · intro d hd
    exact h.handling d ((unregister_eventHandling d).symm.trans hd)

theorem setChannel_new (h : p.Lists use handled) (hc : ¬ use c) (fd : ℕ) :
    (p.setChannel c (Channel.new fd)).Lists use handled := by
  have hnot : ¬ p.Registered c := fun hr => hc ((h.registered c).mp hr)
  constructor
  · exact setChannel_new_wellFormed h.wellFormed hnot
  · intro d
    rw [setChannel_new_registered h.wellFormed hnot, h.registered]
  · intro d hd
    by_cases hdc : d = c
    · subst hdc
      simp [setChannel, Channel.new, Channel.isNoneEvent]
    · simpa [setChannel, hdc] using h.noneEvent d hd
  · intro d hd
    by_cases hdc : d = c
    · subst hdc
      simp [setChannel, Channel.new] at hd
    · exact h.handling d (by simpa [setChannel, hdc] using hd)

theorem sameTable (h : p.Lists use handled) (hs : SameTable p p')
    (hhandling : ∀ c, (p'.channel c).eventHandling = true → handled' = some c) : p'.Lists use handled' where
  wellFormed := hs.wellFormed h.wellFormed
  registered c := (hs.registered c).trans (h.registered c)
  noneEvent c hc := by
    rw [Channel.isNoneEvent, hs.events]
    exact h.noneEvent c hc
  handling := hhandling

end Lists

end Poller

end Penduo
