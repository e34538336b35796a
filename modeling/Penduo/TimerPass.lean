import Penduo.TimerRuns

set_option autoImplicit false

namespace Penduo

open LabelledRuns

namespace TimerQueue

variable {now : Timestamp} {l : List Timer}

def due (now : Timestamp) (l : List Timer) : List Timer := l.filter fun t => t.expirationTs ≤ now

def later (now : Timestamp) (l : List Timer) : List Timer := l.filter fun t => now < t.expirationTs

theorem expirationTs_sorted (hlist : OrderedSet.Increasing Timer.key l) :
    l.Pairwise fun t u => t.expirationTs ≤ u.expirationTs := by
  apply hlist.imp
  intro t u hlt
  exact Timer.expirationTs_le hlt.le

theorem due_nodup (hlist : OrderedSet.Increasing Timer.key l) : (due now l).Nodup := by
  apply List.Nodup.filter
  apply hlist.imp
  rintro t u hlt rfl
  exact lt_irrefl _ hlt

theorem due_sorted (hlist : OrderedSet.Increasing Timer.key l) :
    (due now l).Pairwise fun t u => t.expirationTs ≤ u.expirationTs :=
  (expirationTs_sorted hlist).sublist List.filter_sublist

theorem getExpired_eq (hlist : OrderedSet.Increasing Timer.key l) : getExpired now l = (due now l, later now l) := by
  induction l with
  | nil => rfl
  | cons first rest ih =>
    obtain ⟨hfirst, hrest⟩ := List.pairwise_cons.mp hlist
    rw [getExpired]
    split_ifs with hdue
    · rw [ih hrest]
      simp [due, later, hdue]
    · have hlate : ∀ t ∈ first :: rest, now < t.expirationTs := by
        intro t ht
        rcases List.mem_cons.mp ht with rfl | ht
        · exact not_le.mp hdue
        · exact (not_le.mp hdue).trans_le (Timer.expirationTs_le (hfirst t ht).le)
      have hdue' : due now (first :: rest) = [] := List.filter_eq_nil_iff.mpr fun t ht => by simpa using hlate t ht
      have hlater : later now (first :: rest) = first :: rest :=
        List.filter_eq_self.mpr fun t ht => by simpa using hlate t ht
      rw [hdue', hlater]

end TimerQueue

open TimerQueue (due later)

namespace TimerLoop

variable {s s' s'' : TimerLoop} {e : TimerEvent} {now : Timestamp} {es : List TimerEvent}

def newTimerAt (s : TimerLoop) (address : ℕ) (when : Timestamp) : Option Timer :=
  if ∀ t ∈ s.live, t.address ≠ address then some ⟨s.added.length, address, when⟩ else none

def stepAnyTime (s : TimerLoop) : TimerEvent → Option TimerLoop
  | .addTimer address when =>
    if s.handleRead.userCode then
      (s.newTimerAt address when).map fun t =>
        { s with queue := s.queue.addTimerInLoop s.clock t, added := s.added ++ [t], inserted := s.inserted ++ [t] }
    else none
  | .addTimerElsewhere address when =>
    (s.newTimerAt address when).map fun t =>
      { s with pendingFunctors := s.pendingFunctors ++ [t], added := s.added ++ [t] }
  | e => s.step e

theorem newTimerAt_of_newTimer {address : ℕ} {when : Timestamp} {t : Timer} (h : s.newTimer address when = some t) :
    s.newTimerAt address when = some t := by
  simp only [newTimer, newTimerAt, Option.ite_none_right_eq_some] at h ⊢
  exact ⟨h.1.2, h.2⟩

theorem stepAnyTime_of_step (h : s.step e = some s') : s.stepAnyTime e = some s' := by
  cases e with
  | addTimer address when =>
    simp only [step, Option.ite_none_right_eq_some, Option.map_eq_some_iff] at h
    obtain ⟨huser, t, hnew, rfl⟩ := h
    simp only [stepAnyTime, if_pos huser, newTimerAt_of_newTimer hnew, Option.map_some]
  | addTimerElsewhere address when =>
    simp only [step, Option.map_eq_some_iff] at h
    obtain ⟨t, hnew, rfl⟩ := h
    simp only [stepAnyTime, newTimerAt_of_newTimer hnew, Option.map_some]
  | _ => exact h

theorem run_anyTime (h : Run (Next step) s es s') : Run (Next stepAnyTime) s es s' :=
  h.mono fun _ _ _ => stepAnyTime_of_step

theorem run_anyTime_increasing {clock : Timestamp} (h : Run (Next stepAnyTime) (init clock) es s) :
    OrderedSet.Increasing Timer.key s.queue.timerList := by
  apply h.invariant (I := fun s => OrderedSet.Increasing Timer.key s.queue.timerList)
  · intro s e s' hs hn
    cases e with
    | addTimer address when =>
      simp only [Next, stepAnyTime, Option.ite_none_right_eq_some, Option.map_eq_some_iff] at hn
      obtain ⟨_, t, _, rfl⟩ := hn
      dsimp only
      rw [TimerQueue.addTimerInLoop_timerList]
      exact OrderedSet.insert_increasing hs
    | addTimerElsewhere address when =>
      simp only [Next, stepAnyTime, Option.map_eq_some_iff] at hn
      obtain ⟨t, _, rfl⟩ := hn
      exact hs
    | _ =>
      simp only [Next, stepAnyTime] at hn
      exact (moves_of_step hn).increasing hs
  · exact List.Pairwise.nil

theorem run_increasing {clock : Timestamp} (h : Run (Next step) (init clock) es s) :
    OrderedSet.Increasing Timer.key s.queue.timerList := run_anyTime_increasing (run_anyTime h)

theorem newTimerAt_fresh {address : ℕ} {when : Timestamp} {t : Timer} (h : s.newTimerAt address when = some t) :
    ∀ u ∈ s.live, u.address ≠ t.address := by
  simp only [newTimerAt, Option.ite_none_right_eq_some, Option.some.injEq] at h
  obtain ⟨hfresh, rfl⟩ := h
  exact hfresh

section Pass

/-- How far the `handle_read` has come that read the clock as `now` and found the timers of `s`. -/
inductive Passing (s : TimerLoop) (now : Timestamp) (es : List TimerEvent) (s' : TimerLoop) : Prop
  | waiting (hread : s'.handleRead = .expiring now) (hlist : s'.queue.timerList = s.queue.timerList)
      (hruns : s'.runs = s.runs) (hinserted : s'.inserted = s.inserted) (hcalls : es.count .call = 0)
  | serving (ran rest added : List Timer) (hdue : due now s.queue.timerList = ran ++ rest)
      (hread : s'.handleRead = .running now rest ∨ s'.handleRead = .calling now rest)
      (hexpired : s'.expired = ran ++ rest)
      (hlist : s'.queue.timerList.Perm (later now s.queue.timerList ++ added))
      (hruns : s'.runs = s.runs ++ ran.map fun t => (t, now)) (hinserted : s'.inserted = s.inserted ++ added)
      (hadded : ∀ t ∈ added, t ∉ ran ++ rest) (hcalls : es.count .call = ran.length)

theorem Passing.handleRead_ne_idle (h : Passing s now es s') : s'.handleRead ≠ .idle := by
  cases h with
  | waiting hread => simp [hread]
  | serving _ _ _ _ hread => rcases hread with hread | hread <;> simp [hread]

theorem Passing.frame (h : Passing s now es s') (hread' : s''.handleRead = s'.handleRead)
    (hlist' : s''.queue.timerList = s'.queue.timerList) (hexpired' : s''.expired = s'.expired)
    (hruns' : s''.runs = s'.runs) (hinserted' : s''.inserted = s'.inserted) (hne : e ≠ .call) :
    Passing s now (es ++ [e]) s'' := by
  have hcount : (es ++ [e]).count .call = es.count .call := by simp [List.count_append, hne]
  cases h with
  | waiting hread hlist hruns hinserted hcalls =>
    apply Passing.waiting
    · rw [hread', hread]
    · rw [hlist', hlist]
    · rw [hruns', hruns]
    · rw [hinserted', hinserted]
    · rw [hcount, hcalls]
  | serving ran rest added hdue hread hexpired hlist hruns hinserted hadded hcalls =>
    apply Passing.serving ran rest added hdue
    · rwa [hread']
    · rw [hexpired', hexpired]
    · rwa [hlist']
    · rw [hruns', hruns]
    · rw [hinserted', hinserted]
    · exact hadded
    · rw [hcount, hcalls]

theorem Passing.addTimer (h : Passing s now es s') {t : Timer} (huser : s'.handleRead.userCode = true)
    (hfresh : ∀ u ∈ s'.live, u.address ≠ t.address) (hne : e ≠ .call) :
    Passing s now (es ++ [e])
      { s' with queue := s'.queue.addTimerInLoop s'.clock t, added := s'.added ++ [t],
                inserted := s'.inserted ++ [t] } := by
  have hcount : (es ++ [e]).count .call = es.count .call := by simp [List.count_append, hne]
  cases h with
  | waiting hread => simp [hread, HandleRead.userCode] at huser
  | serving ran rest added hdue hread hexpired hlist hruns hinserted hadded hcalls =>
    have hkey : ∀ u ∈ s'.queue.timerList, u.key ≠ t.key := by
      intro u hu
      apply Timer.key_ne
      exact hfresh u (mem_live.mpr (Or.inr (Or.inr (Or.inl hu))))
    have hnew : t ∉ ran ++ rest := by
      intro ht
      rw [← hexpired] at ht
      exact hfresh t (mem_live.mpr (Or.inr (Or.inr (Or.inr ht)))) rfl
    apply Passing.serving ran rest (added ++ [t]) hdue
    · exact hread
    · exact hexpired
    · dsimp only
      rw [TimerQueue.addTimerInLoop_timerList, ← List.append_assoc]
      apply (OrderedSet.perm_insert hkey).trans
      exact (hlist.cons t).trans (List.perm_append_singleton t _).symm
    · exact hruns
    · simp [hinserted]
    · intro u hu
      rcases List.mem_append.mp hu with hu | hu
      · exact hadded u hu
      · rwa [List.mem_singleton.mp hu]
    · rw [hcount, hcalls]

theorem Passing.step (hlist : OrderedSet.Increasing Timer.key s.queue.timerList) (h : Passing s now es s')
    (hn : s'.stepAnyTime e = some s'') (hne : e ≠ .reset) : Passing s now (es ++ [e]) s'' := by
  have hbusy := h.handleRead_ne_idle
  cases e with
  | tick clock =>
    simp only [stepAnyTime, TimerLoop.step, Option.ite_none_right_eq_some, Option.some.injEq] at hn
    obtain ⟨_, rfl⟩ := hn
    exact h.frame rfl rfl rfl rfl rfl (by simp)
  | expire =>
    simp only [stepAnyTime, TimerLoop.step] at hn
    split at hn <;> simp only [Option.ite_none_right_eq_some, Option.some.injEq, reduceCtorEq] at hn
    obtain ⟨_, rfl⟩ := hn
    exact h.frame rfl rfl rfl rfl rfl (by simp)
  | addTimer address when =>
    simp only [stepAnyTime, Option.ite_none_right_eq_some, Option.map_eq_some_iff] at hn
    obtain ⟨huser, t, hnew, rfl⟩ := hn
    exact h.addTimer huser (newTimerAt_fresh hnew) (by simp)
  | addTimerElsewhere address when =>
    simp only [stepAnyTime, Option.map_eq_some_iff] at hn
    obtain ⟨t, _, rfl⟩ := hn
    exact h.frame rfl rfl rfl rfl rfl (by simp)
  | swap =>
    simp only [stepAnyTime, TimerLoop.step, Option.ite_none_right_eq_some] at hn
    exact absurd hn.1.1 hbusy
  | runFunctor =>
    simp only [stepAnyTime, TimerLoop.step] at hn
    split at hn <;> simp only [Option.ite_none_right_eq_some, reduceCtorEq] at hn
    exact absurd hn.1 hbusy
  | readClock =>
    simp only [stepAnyTime, TimerLoop.step, Option.ite_none_right_eq_some] at hn
    exact absurd hn.1.1 hbusy
  | readFd =>
    cases h with
    | waiting hread => simp [stepAnyTime, TimerLoop.step, hread] at hn
    | serving _ _ _ _ hread => rcases hread with hread | hread <;> simp [stepAnyTime, TimerLoop.step, hread] at hn
  | getExpired =>
    cases h with
    | waiting hread hsame hruns hinserted hcalls =>
      simp only [stepAnyTime, TimerLoop.step, hread, hsame, TimerQueue.getExpired_eq hlist, Option.some.injEq] at hn
      subst hn
      apply Passing.serving [] (due now s.queue.timerList) []
      · rfl
      · exact Or.inl rfl
      · rfl
      · simp
      · simpa using hruns
      · simpa using hinserted
      · simp
      · simpa [List.count_append] using hcalls
    | serving _ _ _ _ hread => rcases hread with hread | hread <;> simp [stepAnyTime, TimerLoop.step, hread] at hn
  | call =>
    cases h with
    | waiting hread => simp [stepAnyTime, TimerLoop.step, hread] at hn
    | serving ran rest added hdue hread hexpired hkept hruns hinserted hadded hcalls =>
      rcases hread with hread | hread
      · cases rest with
        | nil => simp [stepAnyTime, TimerLoop.step, hread] at hn
        | cons t rest =>
          simp only [stepAnyTime, TimerLoop.step, hread, Option.some.injEq] at hn
          subst hn
          have hsplit : ran ++ t :: rest = ran ++ [t] ++ rest := by simp
          rw [hsplit] at hdue hexpired hadded
          apply Passing.serving (ran ++ [t]) rest added hdue
          · exact Or.inr rfl
          · exact hexpired
          · exact hkept
          · simp [hruns]
          · exact hinserted
          · exact hadded
          · simp [List.count_append, hcalls]
      · simp [stepAnyTime, TimerLoop.step, hread] at hn
  | ret =>
    cases h with
    | waiting hread => simp [stepAnyTime, TimerLoop.step, hread] at hn
    | serving ran rest added hdue hread hexpired hkept hruns hinserted hadded hcalls =>
      rcases hread with hread | hread
      · simp [stepAnyTime, TimerLoop.step, hread] at hn
      · simp only [stepAnyTime, TimerLoop.step, hread, Option.some.injEq] at hn
        subst hn
        apply Passing.serving ran rest added hdue
        · exact Or.inl rfl
        · exact hexpired
        · exact hkept
        · exact hruns
        · exact hinserted
        · exact hadded
        · simpa [List.count_append] using hcalls
  | reset => exact absurd rfl hne

theorem run_passing (hlist : OrderedSet.Increasing Timer.key s.queue.timerList) (hread : s.handleRead = .expiring now)
    (h : Run (Next stepAnyTime) s es s') (hpass : .reset ∉ es) : Passing s now es s' := by
  induction h with
  | nil => exact .waiting hread rfl rfl rfl rfl
  | snoc _ hn ih =>
    rw [List.mem_append, not_or] at hpass
    apply (ih hpass.1).step hlist hn
    rintro rfl
    simp at hpass

theorem finish_of_running {rest : List Timer} (hread : s.handleRead = .running now rest) :
    ∃ fs s', .reset ∉ fs ∧ Run (Next stepAnyTime) s (fs ++ [.reset]) s' := by
  induction rest generalizing s with
  | nil =>
    have hreset : Next stepAnyTime s .reset
        { s with handleRead := .idle, queue := s.queue.reset s.clock, expired := [] } := by
      simp [Next, stepAnyTime, TimerLoop.step, hread]
    exact ⟨[], _, by simp, Run.single hreset⟩
  | cons t rest ih =>
    have hcall : Next stepAnyTime s .call { s with handleRead := .calling now rest, runs := s.runs ++ [(t, now)] } := by
      simp [Next, stepAnyTime, TimerLoop.step, hread]
    have hret : Next stepAnyTime { s with handleRead := .calling now rest, runs := s.runs ++ [(t, now)] } .ret
        { s with handleRead := .running now rest, runs := s.runs ++ [(t, now)] } := rfl
    obtain ⟨fs, s', hfs, hrun⟩ := ih (s := { s with handleRead := .running now rest, runs := s.runs ++ [(t, now)] }) rfl
    exact ⟨.call :: .ret :: fs, s', by simpa using hfs, Run.cons hcall (Run.cons hret hrun)⟩

theorem Passing.finish (h : Passing s now es s') :
    ∃ fs s'', .reset ∉ fs ∧ Run (Next stepAnyTime) s' (fs ++ [.reset]) s'' := by
  cases h with
  | waiting hread =>
    have hstep : ∃ u, Next stepAnyTime s' .getExpired u ∧
        u.handleRead = .running now (TimerQueue.getExpired now s'.queue.timerList).1 := by
      simp [Next, stepAnyTime, TimerLoop.step, hread]
    obtain ⟨u, hu, hread'⟩ := hstep
    obtain ⟨fs, s'', hfs, hrun⟩ := finish_of_running hread'
    exact ⟨.getExpired :: fs, s'', by simpa using hfs, Run.cons hu hrun⟩
  | serving ran rest added _ hread =>
    rcases hread with hread | hread
    · exact finish_of_running hread
    · have hret : Next stepAnyTime s' .ret { s' with handleRead := .running now rest } := by
        simp [Next, stepAnyTime, TimerLoop.step, hread]
      obtain ⟨fs, s'', hfs, hrun⟩ := finish_of_running (s := { s' with handleRead := .running now rest }) rfl
      exact ⟨.ret :: fs, s'', by simpa using hfs, Run.cons hret hrun⟩

theorem Passing.runs_eq (h : Passing s now es s') :
    s'.runs = s.runs ++ ((due now s.queue.timerList).take (es.count .call)).map (fun t => (t, now)) ∧
      es.count .call ≤ (due now s.queue.timerList).length := by
  cases h with
  | waiting _ _ hruns _ hcalls => simp [hruns, hcalls]
  | serving ran rest added hdue _ _ _ hruns _ _ hcalls => simp [hruns, hcalls, hdue]

/-- A `handle_read` runs the timers that were due when it took them out, each once and in order, and keeps
the others and what the callbacks add. -/
theorem handleRead_pass (hlist : OrderedSet.Increasing Timer.key s.queue.timerList)
    (hread : s.handleRead = .expiring now) (h : Run (Next stepAnyTime) s es s') (hpass : .reset ∉ es) :
    ((due now s.queue.timerList).Nodup ∧
        (due now s.queue.timerList).Pairwise fun t u => t.expirationTs ≤ u.expirationTs) ∧
      (s'.runs = s.runs ++ ((due now s.queue.timerList).take (es.count .call)).map (fun t => (t, now)) ∧
        es.count .call ≤ (due now s.queue.timerList).length) ∧
      (∃ fs s'', .reset ∉ fs ∧ Run (Next stepAnyTime) s' (fs ++ [.reset]) s'') ∧
      ∀ s'', s'.stepAnyTime .reset = some s'' →
        s''.handleRead = .idle ∧ s''.runs = s.runs ++ (due now s.queue.timerList).map (fun t => (t, now)) ∧
          es.count .call = (due now s.queue.timerList).length ∧
          ∃ added, s''.inserted = s.inserted ++ added ∧ (∀ t ∈ added, t ∉ due now s.queue.timerList) ∧
            s''.queue.timerList.Perm (later now s.queue.timerList ++ added) := by
  have hpassing := run_passing hlist hread h hpass
  refine ⟨⟨TimerQueue.due_nodup hlist, TimerQueue.due_sorted hlist⟩, hpassing.runs_eq, hpassing.finish, ?_⟩
  intro s'' hreset
  cases hpassing with
  | waiting hread => simp [stepAnyTime, TimerLoop.step, hread] at hreset
  | serving ran rest added hdue hread _ hkept hruns hinserted hadded hcalls =>
    rcases hread with hread | hread
    · cases rest with
      | cons t rest => simp [stepAnyTime, TimerLoop.step, hread] at hreset
      | nil =>
        simp only [stepAnyTime, TimerLoop.step, hread, Option.some.injEq] at hreset
        subst hreset
        rw [List.append_nil] at hdue hadded
        rw [hdue]
        refine ⟨rfl, hruns, hcalls, added, hinserted, hadded, ?_⟩
        rwa [TimerQueue.reset_timerList]
    · simp [stepAnyTime, TimerLoop.step, hread] at hreset

def twoDue : TimerLoop :=
  { init ⟨5000⟩ with
    queue := { timerfd := .new, timerList := [⟨0, 1, ⟨3000⟩⟩, ⟨1, 2, ⟨3000⟩⟩, ⟨2, 3, ⟨9000⟩⟩] }
    handleRead := .expiring ⟨5000⟩ }

theorem handleRead_pass_twoDue : ∃ es s', Run (Next stepAnyTime) twoDue es s' ∧ es.count .call = 2 ∧
    s'.runs = (due ⟨5000⟩ twoDue.queue.timerList).map (fun t => (t, ⟨5000⟩)) := by
  have hexec : (exec stepAnyTime twoDue [.getExpired, .call, .addTimer 7 ⟨-1⟩, .ret, .call, .ret]).map
      (fun s => s.queue.timerList.length) = some 2 := by decide +kernel
  obtain ⟨s', hrun, _⟩ := run_of_exec_map _ hexec
  have hlist : OrderedSet.Increasing Timer.key twoDue.queue.timerList := by
    unfold OrderedSet.Increasing
    decide
  obtain ⟨_, ⟨hruns, _⟩, _⟩ := handleRead_pass hlist rfl hrun (by decide)
  exact ⟨_, s', hrun, rfl, hruns⟩

end Pass

end TimerLoop

end Penduo
