import Penduo.TimerService

set_option autoImplicit false

namespace Penduo

open LabelledRuns

namespace Timerfds

variable {capacity : ℕ} {s s' : Timerfds} {e : TimerfdEvent} {i : ℕ} {r : Reset}

def asked (s : Timerfds) (i : ℕ) : Option Reset := (s.timerfd i).bind fun t => t.resetting.or t.completed

def Told (s : Timerfds) (r : Reset) : Prop := r ∈ s.tokens.map Token.reset → 0 < s.unread r.caller

theorem Moves.timerfd_other (h : s.Attached) (hi : (s.timerfd i).isSome = true) (hother : e.client ≠ some i)
    (hm : Moves capacity s e s') : s'.timerfd i = s.timerfd i := by
  cases hm with
  | thread | read | openFd | closeFd => rfl
  | written => simp
  | create readFd writeFd =>
    apply setTimerfd_of_ne
    rintro rfl
    simp [h.created _ le_rfl] at hi
  | reset t r => exact setTimerfd_of_ne s _ fun hi => hother (congrArg some hi.symm)
  | returned j | destroy j => exact setTimerfd_of_ne s _ fun hi => hother (congrArg some hi.symm)

theorem deliver_unread_le (s : Timerfds) (r : Reset) (i : ℕ) : s.unread i ≤ (s.deliver r).unread i := by
  unfold deliver
  dsimp only
  split
  case h_1 j _ =>
    by_cases hij : i = j
    · simp [hij]
    · simp [Function.update_of_ne hij]
  · exact le_rfl
  · exact le_rfl

theorem deliver_unread (hfd : s.fds r.writeFd = .writeEnd i) : (s.deliver r).unread i = s.unread i + 1 := by
  simp [deliver, hfd]

theorem Moves.told (h : s.Tracked) (htold : s.Told r) (hread : e ≠ .read r.caller)
    (hm : Moves capacity s e s') : s'.Told r := by
  cases hm with
  | written r' rest hfunc =>
    intro hmem
    have howned : s.Owned r' := by
      apply h.holds
      right
      rw [hfunc]
      exact List.mem_cons_self
    obtain ⟨_, t, ht, hfd⟩ := howned
    have hend : s.fds r'.writeFd = .writeEnd r'.caller := by
      rw [hfd]
      exact h.attached.writeFd _ t ht
    simp only [deliver_tokens hend, List.map_append, List.mem_append, List.map_cons, List.map_nil,
      List.mem_singleton] at hmem
    rcases hmem with hmem | rfl
    · exact (htold hmem).trans_le (deliver_unread_le s r' r.caller)
    · have hunread := deliver_unread hend
      simp only [hunread]
      omega
  | read j =>
    intro hmem
    have hne : r.caller ≠ j := fun hj => hread (congrArg TimerfdEvent.read hj.symm)
    simp only [Function.update_of_ne hne]
    exact htold hmem
  | _ => exact htold

theorem asked_caller (h : s.Tracked) (hr : s.asked i = some r) : r.caller = i := by
  obtain ⟨t, ht, hor⟩ := Option.bind_eq_some_iff.mp hr
  have hrec := h.recorded i t ht
  rcases Option.or_eq_some_iff.mp hor with hr | ⟨_, hr⟩
  · exact (hrec.resetting r hr).1
  · exact (hrec.completed r hr).1

theorem Moves.asked_other (h : s.Attached) (hi : (s.timerfd i).isSome = true) (hother : e.client ≠ some i)
    (hm : Moves capacity s e s') : s'.asked i = s.asked i := by
  rw [asked, asked, hm.timerfd_other h hi hother]

theorem Moves.asked_returned (hm : Moves capacity s (.returned i) s') : s'.asked i = s.asked i := by
  cases hm with
  | returned _ t r ht hr => simp [asked, ht, hr]

theorem Moves.isSome_reset {expiration : Timestamp} (hm : Moves capacity s (.reset i expiration) s') :
    (s'.timerfd i).isSome = true := by
  cases hm with
  | reset t r => simp [setTimerfd]

theorem Moves.isSome_returned (hm : Moves capacity s (.returned i) s') : (s'.timerfd i).isSome = true := by
  cases hm with
  | returned _ t r => simp [setTimerfd]

theorem Moves.timerfd_read (hm : Moves capacity s (.read i) s') : s'.timerfd = s.timerfd := by
  cases hm with
  | read => rfl

theorem Moves.asked_reset {expiration : Timestamp} (hm : Moves capacity s (.reset i expiration) s')
    (h : s'.Tracked) : ∃ r, s'.asked i = some r ∧ r.newTimestamp = expiration ∧ s'.Told r := by
  cases hm with
  | reset t r =>
    refine ⟨r, by simp [asked, setTimerfd], rfl, ?_⟩
    intro hmem
    have hwaiting := h.counted.waiting r.caller r (by simp [TimerThread.setCall_self, ResetCall.waiting])
    exact absurd (List.mem_append_right _ (List.mem_append_right _ hmem)) hwaiting

end Timerfds

def HandleRead.awaiting : HandleRead → Bool
  | .idle | .reading _ => true
  | _ => false

namespace SimulatedLoop

variable {capacity : ℕ} {s s' s0 : SimulatedLoop} {e : SimulatedEvent} {timerfds : Timerfds} {timer : Timer}

def validTimes : SimulatedEvent → Bool
  | .elsewhere e => Timerfds.keeps e
  | .addTimer _ when | .addTimerElsewhere _ when => when.valid
  | _ => true

def Asks (s : SimulatedLoop) : Prop :=
  ∀ first, s.timerList.head? = some first →
    ∃ r, s.timerfds.asked s.timerfd = some r ∧ r.newTimestamp = first.expirationTs ∧ s.timerfds.Told r

structure Tended (s : SimulatedLoop) : Prop where
  tracked : s.timerfds.Tracked
  own : (s.timerfds.timerfd s.timerfd).isSome = true
  valid : ∀ t ∈ s.live, t.expirationTs.valid = true
  asks : s.handleRead.awaiting = true → s.Asks

theorem mem_live {t : Timer} : t ∈ s.live ↔
    t ∈ s.pendingFunctors ∨ t ∈ s.functors ∨ t ∈ s.timerList ∨ t ∈ s.expired := by
  simp only [live, List.mem_append, or_assoc]

theorem mem_live_insert {t : Timer} (ht : t ∈ s'.live)
    (hlist : s'.timerList = OrderedSet.insert Timer.key timer s.timerList)
    (hpending : s'.pendingFunctors = s.pendingFunctors) (hfunctors : s'.functors ⊆ s.functors)
    (hexpired : s'.expired = s.expired) : t = timer ∨ t ∈ s.live := by
  rw [mem_live, hlist, hpending, hexpired] at ht
  rw [mem_live]
  rcases ht with ht | ht | ht | ht
  · exact Or.inr (Or.inl ht)
  · exact Or.inr (Or.inr (Or.inl (hfunctors ht)))
  · exact (OrderedSet.mem_insert ht).imp_right fun ht => Or.inr (Or.inr (Or.inl ht))
  · exact Or.inr (Or.inr (Or.inr (Or.inr ht)))

theorem Moves.live_valid (h : ∀ t ∈ s.live, t.expirationTs.valid = true) (hv : validTimes e = true)
    (hm : Moves capacity s e s') : ∀ t ∈ s'.live, t.expirationTs.valid = true := by
  intro u hu
  cases hm with
  | addTimer t timerfds huser hnew hrearms =>
    rcases mem_live_insert (s := s) hu rfl rfl (List.Subset.refl _) rfl with rfl | hu
    · exact hv
    · exact h u hu
  | addTimerElsewhere t hnew =>
    have hmem : u = t ∨ u ∈ s.live := by
      rw [mem_live] at hu ⊢
      simp only [List.mem_append, List.mem_singleton] at hu
      tauto
    rcases hmem with rfl | hu
    · exact hv
    · exact h u hu
  | swap hidle hempty =>
    apply h u
    simpa [live, hempty] using hu
  | runFunctor t functors timerfds hidle hfunctors hrearms =>
    have hsub : t :: functors ⊆ s.functors := hfunctors ▸ List.Subset.refl _
    rcases mem_live_insert (s := s) hu rfl rfl (List.subset_of_cons_subset hsub) rfl with rfl | hu
    · exact h u (mem_live.mpr (Or.inr (Or.inl (hsub List.mem_cons_self))))
    · exact h u hu
  | getExpired now hread =>
    apply h u
    rw [mem_live] at hu ⊢
    rw [← TimerQueue.getExpired_append now s.timerList, List.mem_append]
    tauto
  | reset now timerfds hread hresets =>
    apply h u
    rw [mem_live] at hu ⊢
    have hnil := List.not_mem_nil (a := u)
    tauto
  | _ => exact h u hu

theorem Moves.timerfds_moves (h : ∀ t ∈ s.live, t.expirationTs.valid = true) (hv : validTimes e = true)
    (hm : Moves capacity s e s') :
    s'.timerfds = s.timerfds ∨ ∃ te, Timerfds.keeps te = true ∧ s.timerfds.Moves capacity te s'.timerfds := by
  have hvalid := hm.live_valid h hv
  cases hm with
  | elsewhere te timerfds hother hm => exact Or.inr ⟨te, hv, hm⟩
  | returned timerfds hm | readFd _ timerfds _ hm => exact Or.inr ⟨_, rfl, hm⟩
  | addTimer t timerfds huser hnew hrearms =>
    cases hrearms with
    | reset _ _ hm => exact Or.inr ⟨.reset s.timerfd t.expirationTs, hv, hm⟩
    | keep => exact Or.inl rfl
  | runFunctor t functors timerfds hidle hfunctors hrearms =>
    cases hrearms with
    | reset _ _ hm =>
      refine Or.inr ⟨_, ?_, hm⟩
      exact h t (mem_live.mpr (Or.inr (Or.inl (by rw [hfunctors]; exact List.mem_cons_self))))
    | keep => exact Or.inl rfl
  | reset now timerfds hread hresets =>
    cases hresets with
    | first _ first hfirst hm =>
      refine Or.inr ⟨_, ?_, hm⟩
      exact h first (mem_live.mpr (Or.inr (Or.inr (Or.inl (List.mem_of_mem_head? hfirst)))))
    | none => exact Or.inl rfl
  | _ => exact Or.inl rfl

theorem Moves.own (h : s.Tended) (hm : Moves capacity s e s') :
    (s'.timerfds.timerfd s'.timerfd).isSome = true := by
  cases hm with
  | elsewhere te timerfds hother hm =>
    have hsame := hm.timerfd_other h.tracked.attached h.own hother
    exact (congrArg Option.isSome hsame).trans h.own
  | returned timerfds hm => exact hm.isSome_returned
  | readFd now timerfds hread hm =>
    dsimp only
    rw [hm.timerfd_read]
    exact h.own
  | addTimer t timerfds huser hnew hrearms =>
    cases hrearms with
    | reset _ _ hm => exact hm.isSome_reset
    | keep => exact h.own
  | runFunctor t functors timerfds hidle hfunctors hrearms =>
    cases hrearms with
    | reset _ _ hm => exact hm.isSome_reset
    | keep => exact h.own
  | reset now timerfds hread hresets =>
    cases hresets with
    | first _ first hfirst hm => exact hm.isSome_reset
    | none => exact h.own
  | _ => exact h.own

theorem Rearms.asks (hrearms : s.Rearms capacity timer timerfds) (htracked : timerfds.Tracked)
    (hfresh : ∀ u ∈ s.timerList, u.key ≠ timer.key) (hasks : s.Asks) (hfds : s'.timerfds = timerfds)
    (hfd : s'.timerfd = s.timerfd) (hlist : s'.timerList = OrderedSet.insert Timer.key timer s.timerList) :
    s'.Asks := by
  intro first hfirst
  rw [hlist] at hfirst
  rw [hfds, hfd]
  have hhead := OrderedSet.head?_insert hfresh
  rw [hfirst] at hhead
  cases hrearms with
  | reset _ hearlier hm =>
    obtain ⟨hnew, _⟩ | ⟨x, hx, hkey, _⟩ := hhead
    · obtain rfl := Option.some.inj hnew
      exact hm.asked_reset htracked
    · exact absurd (Timer.expirationTs_le hkey) (not_le.mpr (hearlier x hx))
  | keep old hold hle =>
    obtain ⟨r, hr, htime, htold⟩ := hasks old hold
    refine ⟨r, hr, ?_, htold⟩
    obtain ⟨hnew, hkey⟩ | ⟨x, hx, _, hnew⟩ := hhead
    · obtain rfl := Option.some.inj hnew
      rw [htime]
      exact le_antisymm hle (Timer.expirationTs_le (hkey old hold))
    · obtain rfl := Option.some.inj (hold.symm.trans hx)
      rw [htime, Option.some.inj hnew]

theorem Moves.asks (h : s.Tended) (htracked : s'.timerfds.Tracked)
    (hfresh : ∀ t functors, s.functors = t :: functors → ∀ u ∈ s.timerList, u.key ≠ t.key)
    (hm : Moves capacity s e s') (hawaiting : s'.handleRead.awaiting = true) : s'.Asks := by
  cases hm with
  | elsewhere te timerfds hother hm =>
    intro first hfirst
    obtain ⟨r, hr, htime, htold⟩ := h.asks hawaiting first hfirst
    refine ⟨r, (hm.asked_other h.tracked.attached h.own hother).trans hr, htime, hm.told h.tracked htold ?_⟩
    rintro rfl
    exact hother (congrArg some (Timerfds.asked_caller h.tracked hr))
  | returned timerfds hm =>
    intro first hfirst
    obtain ⟨r, hr, htime, htold⟩ := h.asks hawaiting first hfirst
    exact ⟨r, hm.asked_returned.trans hr, htime, hm.told h.tracked htold (by simp)⟩
  | addTimer t timerfds huser hnew hrearms =>
    have hnew' : (s.withNaive .new).newTimer t.address t.expirationTs = some t := hnew
    exact hrearms.asks htracked (TimerLoop.fresh_newTimer hnew') (h.asks hawaiting) rfl rfl rfl
  | runFunctor t functors timerfds hidle hfunctors hrearms =>
    exact hrearms.asks htracked (hfresh t functors hfunctors) (h.asks hawaiting) rfl rfl rfl
  | addTimerElsewhere | swap => exact h.asks hawaiting
  | readClock hidle hempty hunread => exact h.asks (by rw [hidle]; rfl)
  | readFd | getExpired | call | ret => cases hawaiting
  | reset now timerfds hread hresets =>
    intro first hfirst
    cases hresets with
    | first _ first' hfirst' hm =>
      obtain rfl : first = first' := Option.some.inj (hfirst.symm.trans hfirst')
      exact hm.asked_reset htracked
    | none hnone => simp [hnone] at hfirst

theorem Moves.tended (h : s.Tended) (hv : validTimes e = true)
    (hfresh : ∀ t functors, s.functors = t :: functors → ∀ u ∈ s.timerList, u.key ≠ t.key)
    (hm : Moves capacity s e s') : s'.Tended := by
  have htracked : s'.timerfds.Tracked := by
    rcases hm.timerfds_moves h.valid hv with hsame | ⟨te, hkeeps, hmoves⟩
    · rw [hsame]
      exact h.tracked
    · exact hmoves.tracked h.tracked hkeeps
  exact ⟨htracked, hm.own h, hm.live_valid h.valid hv, hm.asks h htracked hfresh⟩

theorem construct_spec {readFd writeFd : ℕ} (h0 : construct capacity timerfds readFd writeFd = some s0) :
    s0.withNaive .new = .init timerfds.thread.clock ∧ (timerfds.Tracked → s0.Tended) := by
  obtain ⟨timerfds', hstep, rfl⟩ := Option.map_eq_some_iff.mp h0
  have hm := Timerfds.moves_of_step hstep
  refine ⟨?_, fun h => ⟨hm.tracked h rfl, ?_, by simp [live], fun _ first hfirst => by simp at hfirst⟩⟩
  · cases hm with
    | create => rfl
  · cases hm with
    | create => simp [Timerfds.setTimerfd]

section Runs

variable {clock : Timestamp} {readFd writeFd : ℕ} {fs : List TimerfdEvent} {es : List SimulatedEvent}

theorem run_clock_le (h : Run (Next (Timerfds.step capacity)) (Timerfds.init clock) fs timerfds) :
    clock ≤ timerfds.thread.clock :=
  h.invariant (I := fun s => clock ≤ s.thread.clock)
    (fun _ _ _ hs hn => hs.trans (Timerfds.moves_of_step hn).clock_le) le_rfl

theorem Moves.withNaive_kept {timerfd : TimerfdNaive} (h : (s.withNaive timerfd).Kept)
    (hm : Moves capacity s e s') : ∃ timerfd', (s'.withNaive timerfd').Kept := by
  obtain ⟨fs, timerfd', hrun⟩ := hm.withNaive timerfd
  exact ⟨timerfd', hrun.invariant (fun _ _ _ hs hn => (TimerLoop.moves_of_step hn).kept hs) h⟩

/-- Each timer is run at most once, at a time it was due and that had come, whatever the timer thread
and the other loops do: the loop is a timer service. -/
theorem timers_fired (hclock : 0 ≤ clock.nanoseconds)
    (hfds : Run (Next (Timerfds.step capacity)) (Timerfds.init clock) fs timerfds)
    (h0 : construct capacity timerfds readFd writeFd = some s0) (h : Run (Next (step capacity)) s0 es s) :
    (∃ ds, Run (Deadlines.Step Timer.expirationTs) (Deadlines.start timerfds.thread.clock) ds s.deadlines) ∧
      (s.runs.map Prod.fst).Nodup ∧ ∀ f ∈ s.runs, f.1.expirationTs ≤ f.2 ∧ f.2 ≤ s.clock := by
  obtain ⟨es', timerfd, hrun⟩ := run_withNaive h .new
  rw [(construct_spec h0).1] at hrun
  have hnonneg : 0 ≤ timerfds.thread.clock.nanoseconds := hclock.trans (run_clock_le hfds)
  obtain ⟨ds, hds⟩ := TimerLoop.run_deadlines hnonneg hrun
  have hkept := Deadlines.run_kept hds
  exact ⟨⟨ds, hds⟩, hkept.fired_nodup, hkept.timely⟩

theorem run_tended (hclock : 0 ≤ clock.nanoseconds)
    (hfds : Run (Guarded (Next (Timerfds.step capacity)) fun _ e => Timerfds.keeps e = true)
      (Timerfds.init clock) fs timerfds)
    (h0 : construct capacity timerfds readFd writeFd = some s0)
    (h : Run (Guarded (Next (step capacity)) fun _ e => validTimes e = true) s0 es s) : s.Tended := by
  have htracked : timerfds.Tracked := hfds.invariant
    (fun _ _ _ hs hn => (Timerfds.moves_of_step hn.1).tracked hs hn.2) (Timerfds.init_tracked clock)
  have hinit : s0.Tended ∧ ∃ timerfd, (s0.withNaive timerfd).Kept := by
    obtain ⟨hnaive, htended⟩ := construct_spec h0
    refine ⟨htended htracked, .new, ?_⟩
    rw [hnaive]
    exact TimerLoop.init_kept (hclock.trans (run_clock_le (hfds.mono fun _ _ _ hn => hn.1)))
  have hboth : s.Tended ∧ ∃ timerfd, (s.withNaive timerfd).Kept := by
    apply h.invariant (I := fun s => s.Tended ∧ ∃ timerfd, (s.withNaive timerfd).Kept) _ hinit
    rintro s e s' ⟨htended, timerfd, hkept⟩ ⟨hn, hv⟩
    have hm := moves_of_step hn
    refine ⟨hm.tended htended hv ?_, hm.withNaive_kept hkept⟩
    intro t functors hfunctors
    exact hkept.fresh_functor (s := s.withNaive timerfd) hfunctors
  exact hboth.1

theorem Tended.holds_or_told {first : Timer} (h : s.Tended) (hidle : s.handleRead = .idle) (hreset : s.resetting = false)
    (hfirst : s.timerList.head? = some first) : ∃ t r, s.timerfds.timerfd s.timerfd = some t ∧
      t.completed = some r ∧ s.timerfds.asked s.timerfd = some r ∧ r.newTimestamp = first.expirationTs ∧
        (s.timerfds.thread.Holds r ∨ 0 < s.timerfds.unread s.timerfd) := by
  obtain ⟨r, hr, htime, htold⟩ := h.asks (by rw [hidle]; rfl) first hfirst
  obtain ⟨t, ht, hor⟩ := Option.bind_eq_some_iff.mp hr
  have hnone : t.resetting = none := by
    simpa [resetting, ht] using hreset
  have hcompleted : t.completed = some r := by simpa [hnone] using hor
  refine ⟨t, r, ht, hcompleted, hr, htime, ?_⟩
  have hmem : r ∈ s.timerfds.whereabouts := by
    apply h.tracked.counted.located s.timerfd
    rw [Timerfds.latest_completed ht hnone, hcompleted]
  rcases List.mem_append.mp hmem with hset | hmem
  · exact Or.inl (Or.inl hset)
  · rcases List.mem_append.mp hmem with hpopped | htoken
    · exact Or.inl (Or.inr hpopped)
    · right
      rw [← Timerfds.asked_caller h.tracked hr]
      exact htold htoken

/-- Between the loop's own steps its first timer is never forgotten: the timer thread still has an
entry for exactly its expiration, has taken that entry out, or has written a token for it. -/
theorem first_timer_tended (hclock : 0 ≤ clock.nanoseconds)
    (hfds : Run (Guarded (Next (Timerfds.step capacity)) fun _ e => Timerfds.keeps e = true)
      (Timerfds.init clock) fs timerfds)
    (h0 : construct capacity timerfds readFd writeFd = some s0)
    (h : Run (Guarded (Next (step capacity)) fun _ e => validTimes e = true) s0 es s)
    (hidle : s.handleRead = .idle) (hreset : s.resetting = false) :
    ∀ first, s.timerList.head? = some first → ∃ t r, s.timerfds.timerfd s.timerfd = some t ∧
      r.writeFd = t.writeFd ∧ r.newTimestamp = first.expirationTs ∧ t.expirationTs = first.expirationTs ∧
        (r ∈ s.timerfds.thread.timerSet ∨ r ∈ s.timerfds.thread.timerFunc.popped ∨
          0 < s.timerfds.unread s.timerfd) := by
  intro first hfirst
  have htended := run_tended hclock hfds h0 h
  obtain ⟨t, r, ht, hcompleted, _, htime, hor⟩ := htended.holds_or_told hidle hreset hfirst
  obtain ⟨_, hfd, hexp⟩ := (htended.tracked.recorded _ t ht).completed r hcompleted
  exact ⟨t, r, ht, hfd, htime, hexp.symm.trans htime, or_assoc.mp hor⟩

def resetMade : List SimulatedEvent :=
  [.elsewhere (.thread (.lock 0)), .elsewhere (.thread (.write 0)), .elsewhere (.thread (.unlock 0)), .returned]

def firedThenAdded : List SimulatedEvent :=
  [.addTimer 7 ⟨5000⟩] ++ resetMade ++
    [.elsewhere (.thread (.tick ⟨6000⟩)), .elsewhere (.thread .test), .elsewhere (.thread (.poll 1)),
      .elsewhere (.thread .readClock), .elsewhere (.thread .readWeakup), .elsewhere (.thread .expire),
      .elsewhere (.thread .writeToken), .readClock, .readFd, .getExpired, .call, .addTimer 3 ⟨9000⟩] ++
    resetMade ++ [.ret, .reset] ++ resetMade

theorem timers_fired_once : ∃ s : SimulatedLoop, s.runs.length = 1 ∧
    (∃ ds, Run (Deadlines.Step Timer.expirationTs) (Deadlines.start ⟨1000⟩) ds s.deadlines) ∧
      (s.runs.map Prod.fst).Nodup ∧ ∀ f ∈ s.runs, f.1.expirationTs ≤ f.2 ∧ f.2 ≤ s.clock := by
  have hexec : ((construct 65536 (.init ⟨1000⟩) 3 4).bind fun s0 =>
      (exec (step 65536) s0 firedThenAdded).map fun s => s.runs.length) = some 1 := by decide +kernel
  obtain ⟨s0, h0, hexec⟩ := Option.bind_eq_some_iff.mp hexec
  obtain ⟨s, hrun, hlength⟩ := run_of_exec_map _ hexec
  have hclock : (0 : ℤ) ≤ (⟨1000⟩ : Timestamp).nanoseconds := by decide
  exact ⟨s, hlength, timers_fired hclock .nil h0 hrun⟩

theorem first_timer_tended_added : ∃ (s : SimulatedLoop) (first : Timer), s.timerList.head? = some first ∧
    ∃ t r, s.timerfds.timerfd s.timerfd = some t ∧ r.writeFd = t.writeFd ∧ r.newTimestamp = first.expirationTs ∧
      t.expirationTs = first.expirationTs ∧
        (r ∈ s.timerfds.thread.timerSet ∨ r ∈ s.timerfds.thread.timerFunc.popped ∨
          0 < s.timerfds.unread s.timerfd) := by
  have hexec : ((construct 65536 (.init ⟨1000⟩) 3 4).bind fun s0 =>
      (exec (guardedStep (step 65536) fun _ e => validTimes e) s0 firedThenAdded).map
        fun s => (s.handleRead, s.resetting, s.timerList.head?)) =
          some (.idle, false, some ⟨1, 3, ⟨9000⟩⟩) := by decide +kernel
  obtain ⟨s0, h0, hexec⟩ := Option.bind_eq_some_iff.mp hexec
  obtain ⟨s, hrun, hs⟩ := run_of_exec_map _ hexec
  simp only [Prod.mk.injEq] at hs
  obtain ⟨hidle, hreset, hfirst⟩ := hs
  have hclock : (0 : ℤ) ≤ (⟨1000⟩ : Timestamp).nanoseconds := by decide
  exact ⟨s, _, hfirst, first_timer_tended hclock .nil h0 hrun.guarded hidle hreset _ hfirst⟩

end Runs

end SimulatedLoop

end Penduo
