import Mathlib.Algebra.Order.Group.Multiset
import Mathlib.Tactic.Abel
import Penduo.TimerLoop

set_option autoImplicit false

namespace Penduo

open LabelledRuns

namespace TimerLoop

variable {s s' : TimerLoop} {e : TimerEvent}

section Lists

variable {t : Timer} {timerList : List Timer}

theorem coe_insert (hfresh : ∀ u ∈ timerList, u.key ≠ t.key) :
    ((OrderedSet.insert Timer.key t timerList : List Timer) : Multiset Timer) = timerList + {t} := by
  rw [Multiset.coe_eq_coe.mpr (OrderedSet.perm_insert hfresh), ← Multiset.cons_coe]
  exact (add_comm _ _).trans (Multiset.singleton_add t _) |>.symm

theorem coe_snoc {α : Type} (l : List α) (a : α) : ((l ++ [a] : List α) : Multiset α) = l + {a} :=
  (Multiset.coe_add l [a]).symm

theorem coe_cons {α : Type} (l : List α) (a : α) : ((a :: l : List α) : Multiset α) = l + {a} := by
  rw [← Multiset.cons_coe, ← Multiset.singleton_add, add_comm]

end Lists

section Kept

structure Kept (s : TimerLoop) : Prop where
  clock : 0 ≤ s.clock.nanoseconds
  times : ∀ t ∈ s.live, 0 ≤ t.expirationTs.nanoseconds
  addresses : (s.live.map Timer.address).Nodup
  armed : s.handleRead = .idle → s.queue.Armed

theorem mem_live {t : Timer} : t ∈ s.live ↔
    t ∈ s.pendingFunctors ∨ t ∈ s.functors ∨ t ∈ s.queue.timerList ∨ t ∈ s.expired := by
  simp only [live, List.mem_append, or_assoc]

theorem newTimer_spec {t : Timer} (h : s.newTimer t.address t.expirationTs = some t) :
    0 ≤ t.expirationTs.nanoseconds ∧ t.serial = s.added.length ∧ ∀ u ∈ s.live, u.address ≠ t.address := by
  simp only [newTimer, Option.ite_none_right_eq_some, Option.some.injEq] at h
  obtain ⟨⟨hexp, hfresh⟩, ht⟩ := h
  exact ⟨hexp, by rw [← ht], hfresh⟩

theorem fresh_newTimer {t : Timer} (h : s.newTimer t.address t.expirationTs = some t) :
    ∀ u ∈ s.queue.timerList, u.key ≠ t.key := by
  intro u hu
  apply Timer.key_ne
  exact (newTimer_spec h).2.2 u (mem_live.mpr (Or.inr (Or.inr (Or.inl hu))))

theorem Kept.fresh_functor (h : s.Kept) {t : Timer} {functors : List Timer} (hf : s.functors = t :: functors) :
    ∀ u ∈ s.queue.timerList, u.key ≠ t.key := by
  intro u hu
  apply Timer.key_ne
  have hn := h.addresses
  simp only [live, hf, List.map_append, List.map_cons, List.nodup_append] at hn
  exact (hn.1.2.2 t.address (by simp) u.address (List.mem_map_of_mem hu)).symm

theorem Kept.of_live_le (h : s.Kept) (hclock : s'.clock = s.clock)
    (hlive : (s'.live : Multiset Timer) ≤ s.live) (harmed : s'.handleRead = .idle → s'.queue.Armed) : s'.Kept where
  clock := hclock ▸ h.clock
  times t ht := h.times t (Multiset.mem_of_le hlive ht)
  addresses := Multiset.nodup_of_le (Multiset.map_le_map hlive) h.addresses
  armed := harmed

theorem Kept.addTimer (h : s.Kept) {t : Timer} (hnew : s.newTimer t.address t.expirationTs = some t)
    (hclock : s'.clock = s.clock) (hlive : (s'.live : Multiset Timer) = s.live + {t})
    (harmed : s'.handleRead = .idle → s'.queue.Armed) : s'.Kept where
  clock := hclock ▸ h.clock
  times u hu := by
    have hmem : u ∈ (s'.live : Multiset Timer) := hu
    rw [hlive, Multiset.mem_add, Multiset.mem_singleton] at hmem
    rcases hmem with hu | rfl
    · exact h.times u hu
    · exact (newTimer_spec hnew).1
  addresses := by
    have hmap : ((s'.live.map Timer.address : List ℕ) : Multiset ℕ) = t.address ::ₘ s.live.map Timer.address := by
      rw [← Multiset.map_coe, hlive, Multiset.map_add, Multiset.map_singleton, add_comm, Multiset.singleton_add,
        Multiset.map_coe]
    rw [← Multiset.coe_nodup, hmap, Multiset.nodup_cons]
    refine ⟨fun hmem => ?_, h.addresses⟩
    obtain ⟨u, hu, haddr⟩ := List.mem_map.mp hmem
    exact (newTimer_spec hnew).2.2 u hu haddr
  armed := harmed

theorem Moves.kept (h : s.Kept) (hm : Moves s e s') : s'.Kept := by
  cases hm with
  | tick now hle => exact ⟨h.clock.trans hle, h.times, h.addresses, h.armed⟩
  | expire expiry _ _ =>
    refine h.of_live_le rfl le_rfl ?_
    intro _ first _
    exact Or.inl rfl
  | addTimer t huser hnew =>
    have hfresh := fresh_newTimer hnew
    apply h.addTimer hnew
    · rfl
    · simp only [live, TimerQueue.addTimerInLoop_timerList, ← Multiset.coe_add, coe_insert hfresh]
      abel
    · intro hidle
      exact (h.armed hidle).addTimerInLoop h.clock (newTimer_spec hnew).1 hfresh
  | addTimerElsewhere t hnew =>
    apply h.addTimer hnew
    · rfl
    · simp only [live, ← Multiset.coe_add, Multiset.coe_singleton]
      abel
    · exact h.armed
  | swap hidle hempty =>
    apply h.of_live_le
    · rfl
    · apply le_of_eq
      simp [live, hempty]
    · exact h.armed
  | runFunctor t functors hidle hfunctors =>
    have hfresh := h.fresh_functor hfunctors
    have hexp := h.times t (mem_live.mpr (by simp [hfunctors]))
    apply h.of_live_le
    · rfl
    · apply le_of_eq
      simp only [live, TimerQueue.addTimerInLoop_timerList, ← Multiset.coe_add, coe_insert hfresh, hfunctors, coe_cons]
      abel
    · intro _
      exact (h.armed hidle).addTimerInLoop h.clock hexp hfresh
  | readClock hidle => exact h.of_live_le rfl le_rfl (by simp)
  | readFd now hread => exact h.of_live_le rfl le_rfl (by simp)
  | getExpired now expired timerList hread hlist _ =>
    apply h.of_live_le
    · rfl
    · simp only [live, hlist, ← Multiset.coe_add]
      calc _ ≤ s.pendingFunctors + s.functors + timerList + expired + (s.expired : Multiset Timer) :=
            Multiset.le_add_right _ _
        _ = _ := by abel
    · simp
  | call now t rest hread => exact h.of_live_le rfl le_rfl (by simp)
  | ret now rest hread => exact h.of_live_le rfl le_rfl (by simp)
  | reset now hread =>
    apply h.of_live_le
    · rfl
    · simp only [live, TimerQueue.reset_timerList, ← Multiset.coe_add, Multiset.coe_nil, add_zero]
      exact Multiset.le_add_right _ _
    · intro _
      apply TimerQueue.armed_of_reset h.clock
      intro t ht
      exact h.times t (mem_live.mpr (Or.inr (Or.inr (Or.inl ht))))

end Kept

section Accounted

def whereabouts (s : TimerLoop) : Multiset Timer :=
  s.pendingFunctors + s.functors + s.queue.timerList + s.handleRead.rest + s.runs.map Prod.fst

structure Accounted (s : TimerLoop) : Prop where
  serials : s.added.map Timer.serial = List.range s.added.length
  added : s.whereabouts = s.added
  inserted : (s.inserted : Multiset Timer) = s.queue.timerList + s.taken

theorem Accounted.addTimer (h : s.Accounted) {t : Timer} (hserial : t.serial = s.added.length)
    (hadded : s'.added = s.added ++ [t]) (hwhere : s'.whereabouts = s.whereabouts + {t})
    (hinserted : (s'.inserted : Multiset Timer) = s'.queue.timerList + s'.taken) : s'.Accounted where
  serials := by
    rw [hadded, List.map_append, h.serials, List.length_append, List.length_singleton, List.range_succ]
    simp [hserial]
  added := by rw [hwhere, h.added, hadded, coe_snoc]
  inserted := hinserted

theorem Accounted.of_same (h : s.Accounted) (hadded : s'.added = s.added) (hwhere : s'.whereabouts = s.whereabouts)
    (hinserted : (s'.inserted : Multiset Timer) = s'.queue.timerList + s'.taken) : s'.Accounted where
  serials := hadded ▸ h.serials
  added := by rw [hwhere, h.added, hadded]
  inserted := hinserted

theorem Moves.accounted (hk : s.Kept) (h : s.Accounted) (hm : Moves s e s') : s'.Accounted := by
  cases hm with
  | tick now hle => exact h.of_same rfl rfl h.inserted
  | expire expiry _ _ => exact h.of_same rfl rfl h.inserted
  | addTimer t huser hnew =>
    have hfresh := fresh_newTimer hnew
    apply h.addTimer (newTimer_spec hnew).2.1
    · rfl
    · simp only [whereabouts, TimerQueue.addTimerInLoop_timerList, coe_insert hfresh]
      abel
    · simp only [TimerQueue.addTimerInLoop_timerList, coe_insert hfresh, coe_snoc, h.inserted]
      abel
  | addTimerElsewhere t hnew =>
    apply h.addTimer (newTimer_spec hnew).2.1
    · rfl
    · simp only [whereabouts, coe_snoc]
      abel
    · exact h.inserted
  | swap hidle hempty =>
    apply h.of_same
    · rfl
    · simp [whereabouts, hempty]
    · exact h.inserted
  | runFunctor t functors hidle hfunctors =>
    have hfresh := hk.fresh_functor hfunctors
    apply h.of_same
    · rfl
    · simp only [whereabouts, TimerQueue.addTimerInLoop_timerList, coe_insert hfresh, hfunctors, coe_cons]
      abel
    · simp only [TimerQueue.addTimerInLoop_timerList, coe_insert hfresh, coe_snoc, h.inserted]
      abel
  | readClock hidle => exact h.of_same rfl (by simp [whereabouts, hidle, HandleRead.rest]) h.inserted
  | readFd now hread => exact h.of_same rfl (by simp [whereabouts, hread, HandleRead.rest]) h.inserted
  | getExpired now expired timerList hread hlist _ =>
    apply h.of_same
    · rfl
    · simp only [whereabouts, hread, HandleRead.rest, hlist, ← Multiset.coe_add, Multiset.coe_nil]
      abel
    · simp only [h.inserted, hlist, ← Multiset.coe_add]
      abel
  | call now t rest hread =>
    apply h.of_same
    · rfl
    · simp only [whereabouts, hread, HandleRead.rest, List.map_append, List.map_singleton, coe_snoc, coe_cons]
      abel
    · exact h.inserted
  | ret now rest hread => exact h.of_same rfl (by simp [whereabouts, hread, HandleRead.rest]) h.inserted
  | reset now hread =>
    apply h.of_same
    · rfl
    · simp [whereabouts, hread, HandleRead.rest, TimerQueue.reset_timerList]
    · simp [TimerQueue.reset_timerList, h.inserted]

end Accounted

section Due

structure Due (s : TimerLoop) : Prop where
  waiting : ∀ now rest, s.handleRead = .running now rest ∨ s.handleRead = .calling now rest →
    ∀ t ∈ rest, t.expirationTs ≤ now
  ran : ∀ r ∈ s.runs, r.1.expirationTs ≤ r.2

theorem Moves.due (h : s.Due) (hm : Moves s e s') : s'.Due := by
  cases hm with
  | tick | expire | addTimer | addTimerElsewhere | swap | runFunctor => exact ⟨h.waiting, h.ran⟩
  | readClock | readFd | reset => exact ⟨by simp_all, h.ran⟩
  | getExpired now expired timerList hread hlist hdue =>
    refine ⟨fun now' rest hrun => ?_, h.ran⟩
    obtain ⟨rfl, rfl⟩ : now = now' ∧ expired = rest := by simpa using hrun
    exact hdue
  | call now t rest hread =>
    have hdue := h.waiting now _ (Or.inl hread)
    refine ⟨fun now' rest' hrun => ?_, fun r hr => ?_⟩
    · obtain ⟨rfl, rfl⟩ : now = now' ∧ rest = rest' := by simpa using hrun
      intro u hu
      exact hdue u (List.mem_cons_of_mem _ hu)
    · rcases List.mem_append.mp hr with hr | hr
      · exact h.ran r hr
      · obtain rfl := List.mem_singleton.mp hr
        exact hdue t (by simp)
  | ret now rest hread =>
    refine ⟨fun now' rest' hrun => ?_, h.ran⟩
    obtain ⟨rfl, rfl⟩ : now = now' ∧ rest = rest' := by simpa using hrun
    exact h.waiting now rest (Or.inr hread)

end Due

section Increasing

theorem Moves.increasing (h : OrderedSet.Increasing Timer.key s.queue.timerList) (hm : Moves s e s') :
    OrderedSet.Increasing Timer.key s'.queue.timerList := by
  cases hm with
  | addTimer t _ _ =>
    rw [TimerQueue.addTimerInLoop_timerList]
    exact OrderedSet.insert_increasing h
  | runFunctor t functors _ _ =>
    rw [TimerQueue.addTimerInLoop_timerList]
    exact OrderedSet.insert_increasing h
  | getExpired now expired timerList _ hlist _ =>
    rw [hlist] at h
    exact (List.pairwise_append.mp h).2.1
  | reset now _ =>
    rw [TimerQueue.reset_timerList]
    exact h
  | _ => exact h

end Increasing

section Runs

theorem init_kept {clock : Timestamp} (hclock : 0 ≤ clock.nanoseconds) : (init clock).Kept :=
  ⟨hclock, by simp [init, live, TimerQueue.new], by simp [init, live, TimerQueue.new],
    fun _ first hfirst => by simp [init, TimerQueue.new] at hfirst⟩

theorem run_accounted {clock : Timestamp} {es : List TimerEvent} (hclock : 0 ≤ clock.nanoseconds)
    (h : Run (Next step) (init clock) es s) : s.Kept ∧ s.Accounted := by
  apply h.invariant (I := fun s => s.Kept ∧ s.Accounted)
  · intro s e s' hs hn
    have hm := moves_of_step hn
    exact ⟨hm.kept hs.1, hm.accounted hs.1 hs.2⟩
  · exact ⟨init_kept hclock, rfl, rfl, rfl⟩

theorem run_due {clock : Timestamp} {es : List TimerEvent} (h : Run (Next step) (init clock) es s) : s.Due :=
  h.invariant (fun _ _ _ hs hn => (moves_of_step hn).due hs)
    ⟨fun _ _ hrun => by simp [init] at hrun, fun _ hr => by simp [init] at hr⟩

theorem Accounted.runs_nodup (h : s.Accounted) : (s.runs.map fun r => r.1.serial).Nodup := by
  have hle : (s.runs.map Prod.fst : Multiset Timer) ≤ s.added := by
    rw [← h.added]
    exact Multiset.le_add_left _ _
  have hmap := Multiset.map_le_map (f := Timer.serial) hle
  have hnodup : ((s.added.map Timer.serial : List ℕ) : Multiset ℕ).Nodup := by
    rw [h.serials]
    exact List.nodup_range
  have hruns := Multiset.nodup_of_le hmap hnodup
  rw [Multiset.map_coe, List.map_map, Multiset.coe_nodup] at hruns
  exact hruns

theorem Accounted.mem_timerList (h : s.Accounted) {t : Timer} (hin : t ∈ s.inserted) (hout : t ∉ s.taken) :
    t ∈ s.queue.timerList := by
  have hmem : t ∈ (s.inserted : Multiset Timer) := hin
  rw [h.inserted, Multiset.mem_add] at hmem
  rcases hmem with hmem | hmem
  · exact hmem
  · exact absurd hmem hout

/-- Every timer is run at most once and never early, waits in the set until it is taken out, and
the timerfd is set for the earliest one whenever `handle_read` is not at work. -/
theorem timers_served {clock : Timestamp} {es : List TimerEvent} (hclock : 0 ≤ clock.nanoseconds)
    (h : Run (Next step) (init clock) es s) :
    ((s.runs.map fun r => r.1.serial).Nodup ∧ ∀ r ∈ s.runs, r.1 ∈ s.added ∧ r.1.expirationTs ≤ r.2) ∧
      (∀ t ∈ s.inserted, t ∉ s.taken → t ∈ s.queue.timerList) ∧
      (s.handleRead = .idle → ∀ first, s.queue.timerList.head? = some first →
        s.queue.timerfd.readable = true ∨ ∃ expiry, s.queue.timerfd.armed = some expiry ∧
          expiry ≤ max first.expirationTs.nanoseconds (s.queue.timerfd.resetAt.nanoseconds + 100000)) := by
  obtain ⟨hkept, haccounted⟩ := run_accounted hclock h
  have hdue := run_due h
  refine ⟨⟨haccounted.runs_nodup, fun r hr => ⟨?_, hdue.ran r hr⟩⟩, ?_, hkept.armed⟩
  · have hmem : r.1 ∈ s.whereabouts := Multiset.mem_add.mpr (Or.inr (List.mem_map_of_mem hr))
    rwa [haccounted.added] at hmem
  · intro t hin hout
    exact haccounted.mem_timerList hin hout

theorem timers_served_nested : ∃ s : TimerLoop, s.handleRead = .idle ∧ s.runs.length = 1 ∧ s.queue.timerList.length = 1 ∧
    (s.runs.map fun r => r.1.serial).Nodup ∧ s.queue.Armed := by
  have hexec : (exec step (init ⟨0⟩)
      [.addTimer 7 ⟨2500⟩, .tick ⟨200000⟩, .expire, .readClock, .readFd, .getExpired, .call,
        .addTimer 3 ⟨2500⟩, .ret, .reset]).map
        (fun s => (s.handleRead, s.runs.length, s.queue.timerList.length)) = some (.idle, 1, 1) := by decide +kernel
  obtain ⟨s, hrun, hs⟩ := run_of_exec_map _ hexec
  simp only [Prod.mk.injEq] at hs
  obtain ⟨⟨hnodup, _⟩, _, harmed⟩ := timers_served (by decide) hrun
  exact ⟨s, hs.1, hs.2.1, hs.2.2, hnodup, harmed hs.1⟩

end Runs

end TimerLoop

end Penduo
