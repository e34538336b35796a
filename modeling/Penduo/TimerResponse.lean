import Penduo.Library.Potential
import Penduo.TimerPass

set_option autoImplicit false

namespace Penduo

open LabelledRuns TimerQueue

def TimerEvent.advances : TimerEvent → Bool
  | .readClock | .readFd | .getExpired | .call | .ret | .reset => true
  | _ => false

def TimerEvent.inserts : TimerEvent → Bool
  | .addTimer .. | .runFunctor => true
  | _ => false

namespace TimerLoop

variable {s s' : TimerLoop} {e : TimerEvent} {es fs : List TimerEvent} {t : Timer}

def before (s : TimerLoop) (t : Timer) : ℕ :=
  if t ∈ s.handleRead.rest then s.handleRead.rest.idxOf t
  else s.handleRead.rest.length + s.queue.timerList.idxOf t

def detour (s : TimerLoop) (t : Timer) : ℕ :=
  match s.handleRead with
  | .idle => 4
  | .reading now => if t.expirationTs ≤ now then 3 else 7
  | .expiring now => if t.expirationTs ≤ now then 2 else 6
  | .running _ rest => if t ∈ rest then 1 else 5
  | .calling _ rest => if t ∈ rest then 2 else 6

def callDistance (s : TimerLoop) (t : Timer) : ℕ := 2 * s.before t + s.detour t

structure DueTimer (s : TimerLoop) (t : Timer) : Prop where
  increasing : OrderedSet.Increasing Timer.key s.queue.timerList
  due : t.expirationTs ≤ s.clock
  waits : t ∈ s.queue.timerList ∨ t ∈ s.handleRead.rest

def Ran (s : TimerLoop) (t : Timer) : Prop := t ∈ s.runs.map Prod.fst

theorem Moves.ran (h : s.Ran t) (hm : Moves s e s') : s'.Ran t := by
  cases hm with
  | call now u rest _ =>
    unfold Ran
    rw [List.map_append]
    exact List.mem_append_left _ h
  | _ => exact h

theorem idxOf_addTimerInLoop_le (q : TimerQueue) (now : Timestamp) (u : Timer) :
    (q.addTimerInLoop now u).timerList.idxOf t ≤ q.timerList.idxOf t + 1 := by
  rw [addTimerInLoop_timerList]
  exact OrderedSet.idxOf_insert_le _ _ _ _

theorem mem_addTimerInLoop (q : TimerQueue) (now : Timestamp) (u : Timer) (ht : t ∈ q.timerList) :
    t ∈ (q.addTimerInLoop now u).timerList := by
  rw [addTimerInLoop_timerList]
  exact OrderedSet.subset_insert ht

theorem DueTimer.insert (h : s.DueTimer t) (hread : s'.handleRead = s.handleRead) (hclock : s'.clock = s.clock)
    (u : Timer) (hqueue : s'.queue = s.queue.addTimerInLoop s.clock u) :
    s'.DueTimer t ∧ s'.callDistance t ≤ s.callDistance t + 2 := by
  have hle := idxOf_addTimerInLoop_le (t := t) s.queue s.clock u
  rw [← hqueue] at hle
  refine ⟨⟨?_, hclock ▸ h.due, ?_⟩, ?_⟩
  · rw [hqueue, addTimerInLoop_timerList]
    exact OrderedSet.insert_increasing h.increasing
  · rw [hqueue, hread]
    exact h.waits.imp_left (mem_addTimerInLoop _ _ _)
  · have hbefore : s'.before t ≤ s.before t + 1 := by
      unfold before
      rw [hread]
      split_ifs <;> omega
    have hdetour : s'.detour t = s.detour t := by rw [detour, hread, detour]
    unfold callDistance
    omega

theorem DueTimer.next (h : s.DueTimer t) (hn : s.step e = some s') :
    s'.Ran t ∨ s'.DueTimer t ∧
      s'.callDistance t + (if e.advances then 1 else 0) ≤ s.callDistance t + if e.inserts then 2 else 0 := by
  have hm := moves_of_step hn
  have hinc := hm.increasing h.increasing
  cases hm with
  | tick now hle => exact Or.inr ⟨⟨hinc, h.due.trans hle, h.waits⟩, le_rfl⟩
  | expire => exact Or.inr ⟨⟨hinc, h.due, h.waits⟩, le_rfl⟩
  | addTimer u => exact Or.inr (h.insert rfl rfl u rfl)
  | addTimerElsewhere => exact Or.inr ⟨⟨hinc, h.due, h.waits⟩, le_rfl⟩
  | swap => exact Or.inr ⟨⟨hinc, h.due, h.waits⟩, le_rfl⟩
  | runFunctor u => exact Or.inr (h.insert rfl rfl u rfl)
  | readClock hidle =>
    have hlist : t ∈ s.queue.timerList := by simpa [hidle, HandleRead.rest] using h.waits
    refine Or.inr ⟨⟨hinc, h.due, Or.inl hlist⟩, ?_⟩
    simp [callDistance, before, detour, hidle, h.due, HandleRead.rest, TimerEvent.advances, TimerEvent.inserts]
  | readFd now hread =>
    have hlist : t ∈ s.queue.timerList := by simpa [hread, HandleRead.rest] using h.waits
    refine Or.inr ⟨⟨hinc, h.due, Or.inl hlist⟩, ?_⟩
    by_cases hexp : t.expirationTs ≤ now
    all_goals
      simp [callDistance, before, detour, hread, hexp, HandleRead.rest, TimerEvent.advances, TimerEvent.inserts]
  | getExpired now expired timerList hread hlist hdue =>
    have hmem : t ∈ s.queue.timerList := by simpa [hread, HandleRead.rest] using h.waits
    have hlater : timerList = later now s.queue.timerList := by
      simp only [step, hread, getExpired_eq h.increasing, Option.some.injEq, TimerLoop.mk.injEq,
        TimerQueue.mk.injEq] at hn
      exact hn.2.1.2.symm
    have hbefore : s.before t = s.queue.timerList.idxOf t := by simp [before, hread, HandleRead.rest]
    by_cases hexp : t.expirationTs ≤ now
    · have ht : t ∈ expired := by
        rw [hlist, List.mem_append] at hmem
        refine hmem.resolve_right fun ht => ?_
        rw [hlater, later, List.mem_filter, decide_eq_true_eq] at ht
        exact absurd hexp (not_le.mpr ht.2)
      refine Or.inr ⟨⟨hinc, h.due, Or.inr ht⟩, ?_⟩
      rw [callDistance, callDistance, hbefore, hlist, List.idxOf_append_of_mem ht]
      simp [before, detour, hread, HandleRead.rest, hexp, ht, TimerEvent.advances, TimerEvent.inserts]
    · have ht : t ∉ expired := fun ht => hexp (hdue t ht)
      refine Or.inr ⟨⟨hinc, h.due, Or.inl ?_⟩, ?_⟩
      · rw [hlist, List.mem_append] at hmem
        exact hmem.resolve_left ht
      · rw [callDistance, callDistance, hbefore, hlist, List.idxOf_append_of_notMem ht]
        simp [before, detour, hread, HandleRead.rest, hexp, ht, TimerEvent.advances, TimerEvent.inserts]
  | call now u rest hread =>
    by_cases hcalled : t = u
    · left
      simp [Ran, hcalled]
    · have hrest : t ∈ u :: rest ↔ t ∈ rest := by simp [hcalled]
      refine Or.inr ⟨⟨hinc, h.due, by simpa [hread, HandleRead.rest, hcalled] using h.waits⟩, ?_⟩
      by_cases ht : t ∈ rest
      all_goals
        simp only [callDistance, before, detour, hread, HandleRead.rest, hrest, ht, List.length_cons,
          List.idxOf_cons_ne rest (Ne.symm hcalled), TimerEvent.advances, TimerEvent.inserts, if_true, if_false,
          Bool.false_eq_true]
        omega
  | ret now rest hread =>
    refine Or.inr ⟨⟨hinc, h.due, by simpa [hread, HandleRead.rest] using h.waits⟩, ?_⟩
    by_cases ht : t ∈ rest
    all_goals simp [callDistance, before, detour, hread, ht, HandleRead.rest, TimerEvent.advances, TimerEvent.inserts]
  | reset now hread =>
    have hlist : t ∈ s.queue.timerList := by simpa [hread, HandleRead.rest] using h.waits
    refine Or.inr ⟨⟨hinc, h.due, Or.inl (by rwa [reset_timerList])⟩, ?_⟩
    simp [callDistance, before, detour, hread, HandleRead.rest, TimerEvent.advances, TimerEvent.inserts,
      reset_timerList]

theorem detour_bounds (s : TimerLoop) (t : Timer) : 1 ≤ s.detour t ∧ s.detour t ≤ 7 := by
  unfold detour
  split
  any_goals split_ifs
  all_goals omega

/-- However the callbacks and the other threads go on, `handle_read` calls the callback of a timer that is due
within two steps for each timer before it and seven for the way there, and two for each one inserted
meanwhile. -/
theorem due_timer_called_within {clock : Timestamp} (h : Run (Next step) (init clock) es s)
    (ht : t ∈ s.queue.timerList ∨ t ∈ s.handleRead.rest) (hdue : t.expirationTs ≤ s.clock)
    (hrun : Run (Next step) s fs s')
    (hlong : 2 * (s.before t + fs.countP TimerEvent.inserts) + 7 ≤ fs.countP TimerEvent.advances) :
    ∃ now, (t, now) ∈ s'.runs ∧ t.expirationTs ≤ now := by
  have hend := hrun.potential (fun u => u.callDistance t) (fun e => if e.advances then 1 else 0)
    (fun e => if e.inserts then 2 else 0) (fun u => u.DueTimer t) (fun u => u.Ran t)
    (fun _ _ _ hu hn => hu.next hn) (fun _ _ _ hu hn => (moves_of_step hn).ran hu)
    ⟨run_increasing h, hdue, ht⟩
  rcases hend with hran | ⟨_, hle⟩
  · obtain ⟨⟨u, now⟩, hmem, rfl⟩ := List.mem_map.mp hran
    exact ⟨now, hmem, (run_due (h.append hrun)).ran _ hmem⟩
  · have hstart := (s.detour_bounds t).2
    have hend := (s'.detour_bounds t).1
    rw [total_countP, total_countP, callDistance, callDistance] at hle
    omega

def dueInCallback : List TimerEvent :=
  [.addTimer 7 ⟨2500⟩, .addTimer 8 ⟨300000⟩, .tick ⟨200000⟩, .readClock, .readFd, .getExpired, .call,
    .tick ⟨400000⟩]

def nextPass : List TimerEvent :=
  [.addTimer 9 ⟨0⟩, .ret, .reset, .readClock, .readFd, .getExpired, .call, .ret, .call, .ret, .reset, .readClock]

theorem due_timer_called_within_pass : ∃ (s s' : TimerLoop) (t : Timer), s.queue.timerList = [t] ∧
    t.expirationTs ≤ s.clock ∧ Run (Next step) s nextPass s' ∧
      ∃ now, (t, now) ∈ s'.runs ∧ t.expirationTs ≤ now := by
  have hexec : ((exec step (init ⟨0⟩) dueInCallback).bind fun s =>
      (exec step s nextPass).map fun _ => (s.queue.timerList, s.clock, s.handleRead.rest)) =
        some ([⟨1, 8, ⟨300000⟩⟩], ⟨400000⟩, []) := by decide +kernel
  obtain ⟨s, hs, hexec⟩ := Option.bind_eq_some_iff.mp hexec
  obtain ⟨s', hrun, hend⟩ := run_of_exec_map _ hexec
  simp only [Prod.mk.injEq] at hend
  obtain ⟨hlist, hclock, hrest⟩ := hend
  have hdue : (⟨1, 8, ⟨300000⟩⟩ : Timer).expirationTs ≤ s.clock := by
    rw [hclock]
    decide
  have hlong : 2 * (s.before ⟨1, 8, ⟨300000⟩⟩ + nextPass.countP TimerEvent.inserts) + 7 ≤
      nextPass.countP TimerEvent.advances := by
    simp only [before, hrest, hlist]
    decide
  have hwaits : (⟨1, 8, ⟨300000⟩⟩ : Timer) ∈ s.queue.timerList := by simp [hlist]
  exact ⟨s, s', _, hlist, hdue, hrun, due_timer_called_within (run_of_exec hs) (Or.inl hwaits) hdue hrun hlong⟩

end TimerLoop

end Penduo
