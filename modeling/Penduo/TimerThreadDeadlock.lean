import Mathlib.Algebra.Order.BigOperators.Group.List
import Mathlib.Algebra.Order.Ring.Nat
import Penduo.TimerThread

set_option autoImplicit false

namespace Penduo

open LabelledRuns TimerThread

def TimerFunc.awaitsMutex : TimerFunc → Bool
  | .testing | .expiring _ => true
  | _ => false

def TimerFunc.willRead : TimerFunc → Bool
  | .polled ret => 0 < ret
  | .reading _ => true
  | _ => false

-- The kernel's pipe behind `weakup_fds_`: whether the 8 bytes of `reset` fit is its own answer.
structure WeakupPipe (σ : Type) where
  empty : σ
  fits : σ → Bool
  write : σ → σ
  read : σ → σ
  fits_read : ∀ q, fits q = true → fits (read q) = true

structure PipedTimerThread (σ : Type) where
  thread : TimerThread
  pipe : σ

namespace PipedTimerThread

variable {σ : Type} {p : WeakupPipe σ} {s s' : PipedTimerThread σ} {e : TimerThreadEvent} {clock : Timestamp}
  {es : List TimerThreadEvent} {caller : ℕ}

def init (p : WeakupPipe σ) (clock : Timestamp) : PipedTimerThread σ := ⟨TimerThread.init clock, p.empty⟩

def pipeAfter (p : WeakupPipe σ) (q : σ) : TimerThreadEvent → σ
  | .write _ => p.write q
  | .readWeakup => p.read q
  | _ => q

def fitsEvent (p : WeakupPipe σ) (q : σ) : TimerThreadEvent → Bool
  | .write _ => p.fits q
  | _ => true

-- The capacity given to the thread's own step always has room: `::write` waits for the pipe's answer alone.
def step (p : WeakupPipe σ) (s : PipedTimerThread σ) (e : TimerThreadEvent) : Option (PipedTimerThread σ) :=
  if fitsEvent p s.pipe e then
    (s.thread.step (s.thread.weakup + weakFdWriteSize) e).map fun thread => ⟨thread, pipeAfter p s.pipe e⟩
  else none

structure Blocked (p : WeakupPipe σ) (s : PipedTimerThread σ) (caller : ℕ) : Prop where
  mutex : s.thread.mutex = some caller
  writing : ∃ r, s.thread.call caller = .writing r
  full : p.fits s.pipe = false

def Deadlocked (p : WeakupPipe σ) (s : PipedTimerThread σ) : Prop :=
  (∃ caller, s.Blocked p caller) ∧ s.thread.timerFunc.awaitsMutex = true

def room (p : WeakupPipe σ) (s : PipedTimerThread σ) : Bool :=
  p.fits s.pipe || s.thread.timerFunc.willRead && p.fits (p.read s.pipe)

def admitsReset (p : WeakupPipe σ) (s : PipedTimerThread σ) : TimerThreadEvent → Bool
  | .lock _ => s.room p
  | _ => true

theorem step_cases (h : s.step p e = some s') : fitsEvent p s.pipe e = true ∧
    Moves (s.thread.weakup + weakFdWriteSize) s.thread e s'.thread ∧ s'.pipe = pipeAfter p s.pipe e := by
  simp only [step, Option.ite_none_right_eq_some, Option.map_eq_some_iff] at h
  obtain ⟨hfits, thread, hthread, rfl⟩ := h
  exact ⟨hfits, moves_of_step hthread, rfl⟩

theorem next_of_step {t : TimerThread} {q : σ} (hfits : fitsEvent p s.pipe e = true) (hpipe : pipeAfter p s.pipe e = q)
    (h : s.thread.step (s.thread.weakup + weakFdWriteSize) e = some t) : Next (step p) s e ⟨t, q⟩ := by
  simp [Next, step, hfits, h, hpipe]

section Room

theorem room_iff : s.room p = true ↔
    p.fits s.pipe = true ∨ s.thread.timerFunc.willRead = true ∧ p.fits (p.read s.pipe) = true := by
  simp [room]

theorem fits_of_room (h : s.room p = true) (hread : s.thread.timerFunc.willRead = false) : p.fits s.pipe = true := by
  rcases room_iff.mp h with hfits | ⟨hwill, _⟩
  · exact hfits
  · simp [hread] at hwill

theorem fits_read_of_room (h : s.room p = true) : p.fits (p.read s.pipe) = true := by
  rcases room_iff.mp h with hfits | ⟨_, hfits⟩
  · exact p.fits_read s.pipe hfits
  · exact hfits

structure Unblocked (p : WeakupPipe σ) (s : PipedTimerThread σ) : Prop where
  holder : s.thread.Held
  room : ∀ caller r, s.thread.call caller = .writing r → s.room p = true

theorem Unblocked.timerFunc (h : s.Unblocked p) {f : TimerFunc} {timerSet : List Reset}
    (hread : s.thread.timerFunc.willRead = false) {r : Reset} (hcall : s.thread.call caller = .writing r) :
    PipedTimerThread.room p ⟨{ s.thread with timerFunc := f, timerSet := timerSet }, s.pipe⟩ = true := by
  have hfits := fits_of_room (h.room caller r hcall) hread
  exact room_iff.mpr (Or.inl hfits)

theorem Unblocked.setCall (h : s.Unblocked p) {c : ResetCall} {caller' : ℕ} {r : Reset} (hc : ∀ r, c ≠ .writing r)
    (hcall : (s.thread.setCall caller c).call caller' = .writing r) : caller' ≠ caller ∧ s.room p = true := by
  by_cases hcaller : caller' = caller
  · subst hcaller
    rw [setCall_self] at hcall
    exact absurd hcall (hc r)
  · rw [setCall_of_ne _ _ hcaller] at hcall
    exact ⟨hcaller, h.room caller' r hcall⟩

theorem Unblocked.step (h : s.Unblocked p) (hn : s.step p e = some s') (hadmits : s.admitsReset p e = true) :
    s'.Unblocked p := by
  obtain ⟨-, hm, hpipe⟩ := step_cases hn
  obtain ⟨t, q⟩ := s'
  dsimp only at hm hpipe
  subst hpipe
  refine ⟨hm.held h.holder, ?_⟩
  intro caller r hcall
  cases hm with
  | tick now hle => exact h.room caller r hcall
  | reset r' hcall' hid => exact (h.setCall (by simp) hcall).2
  | lock caller' r' hcall' hmutex => exact hadmits
  | write caller' r' hcall' hroom =>
    have hheld := h.holder caller' r' (Or.inl hcall')
    have hne := (h.setCall (by simp) hcall).1
    have hcall : (s.thread.setCall caller' (.unlocking r')).call caller = .writing r := hcall
    rw [setCall_of_ne _ _ hne] at hcall
    exact absurd (h.holder.other hheld (Or.inl hcall)) hne
  | unlock caller' r' hcall' =>
    have hheld := h.holder caller' r' (Or.inr hcall')
    have hne := (h.setCall (by simp) hcall).1
    have hcall : (s.thread.setCall caller' .idle).call caller = .writing r := hcall
    rw [setCall_of_ne _ _ hne] at hcall
    exact absurd (h.holder.other hheld (Or.inl hcall)) hne
  | test hfunc hmutex => exact h.timerFunc (by simp [hfunc, TimerFunc.willRead]) hcall
  | poll ret waitMs hfunc hready => exact h.timerFunc (by simp [hfunc, TimerFunc.willRead]) hcall
  | failed ret hfunc hret => exact h.timerFunc (by simp [hfunc, TimerFunc.willRead, hret.le]) hcall
  | timeout hfunc => exact h.timerFunc (by simp [hfunc, TimerFunc.willRead]) hcall
  | ready ret hfunc hret =>
    rcases room_iff.mp (h.room caller r hcall) with hfits | ⟨_, hfits⟩
    · exact room_iff.mpr (Or.inl hfits)
    · exact room_iff.mpr (Or.inr ⟨rfl, hfits⟩)
  | readWeakup now hfunc => exact room_iff.mpr (Or.inl (fits_read_of_room (h.room caller r hcall)))
  | expire now expirationFds timerSet hfunc => exact h.timerFunc (by simp [hfunc, TimerFunc.willRead]) hcall
  | writeToken r' rest hfunc => exact h.timerFunc (by simp [hfunc, TimerFunc.willRead]) hcall
  | next hfunc => exact h.timerFunc (by simp [hfunc, TimerFunc.willRead]) hcall

theorem awaitsMutex_not_willRead {f : TimerFunc} (h : f.awaitsMutex = true) : f.willRead = false := by
  cases f <;> simp_all [TimerFunc.awaitsMutex, TimerFunc.willRead]

theorem Unblocked.not_deadlocked (h : s.Unblocked p) : ¬ s.Deadlocked p := by
  rintro ⟨⟨caller, hblocked⟩, hawaits⟩
  obtain ⟨r, hcall⟩ := hblocked.writing
  have hfits := fits_of_room (h.room caller r hcall) (awaitsMutex_not_willRead hawaits)
  simp [hblocked.full] at hfits

/-- Where every `reset` that takes `mutex_` will find room in the wake-up pipe, no `reset` holds `mutex_` at its
`::write` while `TimerFunc` waits for it. -/
theorem resets_not_deadlocked
    (h : Run (Guarded (Next (step p)) fun s e => s.admitsReset p e = true) (init p clock) es s) : ¬ s.Deadlocked p := by
  apply Unblocked.not_deadlocked
  apply h.invariant (I := Unblocked p)
  · rintro s e s' hs ⟨hn, hadmits⟩
    exact hs.step hn hadmits
  · constructor
    · intro caller r hcall
      simp [init, TimerThread.init] at hcall
    · intro caller r hcall
      simp [init, TimerThread.init] at hcall

end Room

section Stuck

theorem Blocked.timerFunc (hb : s.Blocked p caller) {f : TimerFunc} :
    Blocked p ⟨{ s.thread with timerFunc := f }, s.pipe⟩ caller :=
  ⟨hb.mutex, hb.writing, hb.full⟩

theorem writing_deadlocks {rest : List Reset} (hb : s.Blocked p caller) (hfunc : s.thread.timerFunc = .writing rest) :
    ∃ fs u, Run (Next (step p)) s fs u ∧ u.Deadlocked p := by
  induction rest generalizing s with
  | nil =>
    have hnext : Next (step p) s .next ⟨{ s.thread with timerFunc := .testing }, s.pipe⟩ :=
      next_of_step rfl rfl (by simp [TimerThread.step, hfunc])
    exact ⟨_, _, Run.single hnext, ⟨_, hb.timerFunc⟩, rfl⟩
  | cons r rest ih =>
    have hwrite : Next (step p) s .writeToken ⟨{ s.thread with timerFunc := .writing rest }, s.pipe⟩ :=
      next_of_step rfl rfl (by simp [TimerThread.step, hfunc])
    obtain ⟨fs, u, hrun, hu⟩ := ih hb.timerFunc rfl
    exact ⟨_, u, Run.cons hwrite hrun, hu⟩

theorem readClock_next (p : WeakupPipe σ) {ret : ℤ} (hfunc : s.thread.timerFunc = .polled ret) :
    Next (step p) s .readClock ⟨{ s.thread with timerFunc := (if 0 ≤ ret then
      if ret = 0 then .expiring s.thread.clock else .reading s.thread.clock else .testing) }, s.pipe⟩ :=
  next_of_step rfl rfl (by simp [TimerThread.step, hfunc])

theorem reading_deadlocks {now : Timestamp} (hb : s.Blocked p caller) (hfunc : s.thread.timerFunc = .reading now)
    (hfull : p.fits (p.read s.pipe) = false) : ∃ fs u, Run (Next (step p)) s fs u ∧ u.Deadlocked p := by
  have hread : Next (step p) s .readWeakup
      ⟨{ s.thread with timerFunc := .expiring now, weakup := s.thread.weakup - weakFdReadSize }, p.read s.pipe⟩ :=
    next_of_step rfl rfl (by simp [TimerThread.step, hfunc])
  exact ⟨_, _, Run.single hread, ⟨caller, hb.mutex, hb.writing, hfull⟩, rfl⟩

theorem blocked_deadlocks (hb : s.Blocked p caller) (hroom : s.room p = false) :
    ∃ fs u, Run (Next (step p)) s fs u ∧ u.Deadlocked p := by
  have hread : s.thread.timerFunc.willRead = true → p.fits (p.read s.pipe) = false := by
    intro hwill
    by_contra hfits
    have hyes : s.room p = true := room_iff.mpr (Or.inr ⟨hwill, by simpa using hfits⟩)
    simp [hyes] at hroom
  cases hfunc : s.thread.timerFunc with
  | testing => exact ⟨[], s, .nil, ⟨caller, hb⟩, by rw [hfunc]; rfl⟩
  | expiring now => exact ⟨[], s, .nil, ⟨caller, hb⟩, by rw [hfunc]; rfl⟩
  | polling waitMs =>
    have hpoll : Next (step p) s (.poll (-1)) ⟨{ s.thread with timerFunc := .polled (-1) }, s.pipe⟩ :=
      next_of_step rfl rfl (by simp [TimerThread.step, hfunc])
    have hclock := readClock_next p (s := ⟨{ s.thread with timerFunc := .polled (-1) }, s.pipe⟩) rfl
    exact ⟨_, _, Run.cons hpoll (Run.single hclock), ⟨_, hb.timerFunc⟩, rfl⟩
  | polled ret =>
    have hclock := readClock_next p hfunc
    rcases lt_trichotomy ret 0 with hret | rfl | hret
    · rw [if_neg (by omega)] at hclock
      exact ⟨_, _, Run.single hclock, ⟨_, hb.timerFunc⟩, rfl⟩
    · exact ⟨_, _, Run.single hclock, ⟨_, hb.timerFunc⟩, rfl⟩
    · rw [if_pos (by omega), if_neg (by omega)] at hclock
      have hfull := hread (by simp [hfunc, TimerFunc.willRead, hret])
      obtain ⟨fs, u, hrun, hu⟩ := reading_deadlocks (hb.timerFunc (f := .reading s.thread.clock)) rfl hfull
      exact ⟨_, u, Run.cons hclock hrun, hu⟩
  | reading now => exact reading_deadlocks hb hfunc (hread (by simp [hfunc, TimerFunc.willRead]))
  | writing rest => exact writing_deadlocks hb hfunc

theorem unadmitted_deadlocks (hn : s.step p (.lock caller) = some s') (hnot : s.admitsReset p (.lock caller) = false) :
    ∃ fs u, Run (Next (step p)) s' fs u ∧ u.Deadlocked p := by
  obtain ⟨-, hm, hpipe⟩ := step_cases hn
  obtain ⟨t, q⟩ := s'
  dsimp only at hm hpipe
  subst hpipe
  cases hm with
  | lock _ r hcall hmutex =>
    have hfull : p.fits s.pipe = false := by
      by_contra hfits
      have hyes : s.room p = true := room_iff.mpr (Or.inl (by simpa using hfits))
      simp [admitsReset, hyes] at hnot
    have hblocked : Blocked p
        ⟨{ s.thread.setCall caller (.writing r) with mutex := some caller, timerSet := rearm s.thread.timerSet r },
          s.pipe⟩ caller :=
      ⟨rfl, ⟨r, by simp [setCall]⟩, hfull⟩
    exact blocked_deadlocks hblocked hnot

end Stuck

section Fill

def oneReset (n : ℕ) : List TimerThreadEvent :=
  [.reset 0 4 ⟨1000⟩ ⟨if n = 0 then 0 else 1000⟩, .lock 0, .write 0, .unlock 0]

theorem fill (clock : Timestamp) (n : ℕ) (hfits : ∀ m < n, p.fits (p.write^[m] p.empty) = true) :
    ∃ es s, Run (Next (step p)) (init p clock) es s ∧ s.pipe = p.write^[n] p.empty ∧ s.thread.mutex = none ∧
      s.thread.timerFunc = .testing ∧ s.thread.call 0 = .idle := by
  induction n with
  | zero => exact ⟨[], _, .nil, rfl, rfl, rfl, rfl⟩
  | succ n ih =>
    obtain ⟨es, s, hrun, hpipe, hmutex, hfunc, hcall⟩ := ih fun m hm => hfits m (by omega)
    have hexec : ∃ u, exec (step p) s (oneReset n) = some u ∧ u.pipe = p.write s.pipe ∧ u.thread.mutex = none ∧
        u.thread.timerFunc = s.thread.timerFunc ∧ u.thread.call 0 = .idle := by
      have hroom : p.fits s.pipe = true := by
        rw [hpipe]
        exact hfits n (Nat.lt_succ_self n)
      simp [exec, oneReset, step, fitsEvent, pipeAfter, TimerThread.step, setCall, hcall, hmutex, hroom]
    obtain ⟨u, hu, hpipe', hmutex', hfunc', hcall'⟩ := hexec
    refine ⟨_, u, hrun.append (run_of_exec hu), ?_, hmutex', hfunc'.trans hfunc, hcall'⟩
    rw [hpipe', hpipe, Function.iterate_succ_apply']

theorem deadlock_reachable (clock : Timestamp) (hfull : ∃ n, p.fits (p.write^[n] p.empty) = false) :
    ∃ es s, Run (Next (step p)) (init p clock) es s ∧ s.Deadlocked p := by
  obtain ⟨es, s, hrun, hpipe, hmutex, hfunc, hcall⟩ := fill clock (Nat.find hfull) fun m hm => by
    simpa using Nat.find_min hfull hm
  have hexec : ∃ u, exec (step p) s [.reset 0 4 ⟨1000⟩ ⟨0⟩, .lock 0] = some u ∧ u.pipe = s.pipe ∧
      u.thread.mutex = some 0 ∧ u.thread.timerFunc = s.thread.timerFunc ∧ ∃ r, u.thread.call 0 = .writing r := by
    simp [exec, step, fitsEvent, pipeAfter, TimerThread.step, setCall, hcall, hmutex]
  obtain ⟨u, hu, hpipe', hmutex', hfunc', hcall'⟩ := hexec
  refine ⟨_, u, hrun.append (run_of_exec hu), ⟨0, hmutex', hcall', ?_⟩, ?_⟩
  · rw [hpipe', hpipe]
    exact Nat.find_spec hfull
  · rw [hfunc', hfunc]
    rfl

end Fill

end PipedTimerThread

-- A pipe of whole pages: a page takes what fits behind its last byte, and comes free once all of it has been read.
structure PipePage where
  offset : ℕ
  len : ℕ
deriving DecidableEq

namespace PagedPipe

def pages : ℕ := 16
def pageSize : ℕ := 4096

def fits (q : List PipePage) : Bool :=
  q.length < pages || q.getLast?.any fun page => page.offset + page.len + weakFdWriteSize ≤ pageSize

def write (q : List PipePage) : List PipePage :=
  match q.getLast? with
  | some page =>
    if page.offset + page.len + weakFdWriteSize ≤ pageSize then
      q.dropLast ++ [{ page with len := page.len + weakFdWriteSize }]
    else q ++ [⟨0, weakFdWriteSize⟩]
  | none => [⟨0, weakFdWriteSize⟩]

def read : List PipePage → List PipePage
  | [] => []
  | page :: rest =>
    if page.len ≤ weakFdReadSize then rest
    else { page with offset := page.offset + weakFdReadSize, len := page.len - weakFdReadSize } :: rest

theorem fits_iff {q : List PipePage} : fits q = true ↔
    q.length < pages ∨ ∃ page, q.getLast? = some page ∧ page.offset + page.len + weakFdWriteSize ≤ pageSize := by
  simp [fits, Option.any_eq_true]

theorem fits_read (q : List PipePage) (h : fits q = true) : fits (read q) = true := by
  rw [fits_iff] at h ⊢
  match q with
  | [] => exact h
  | [page] =>
    rw [read]
    split_ifs with hlen
    · exact Or.inl (by decide)
    · rcases h with hlength | ⟨last, hlast, hfits⟩
      · exact Or.inl hlength
      · obtain rfl : page = last := by simpa using hlast
        exact Or.inr ⟨_, rfl, by simpa using (by omega)⟩
  | page :: page' :: rest =>
    have hlength' : (page' :: rest).length < (page :: page' :: rest).length := by simp
    rw [read]
    split_ifs with hlen
    · rcases h with hlength | ⟨last, hlast, hfits⟩
      · exact Or.inl (hlength'.trans hlength)
      · exact Or.inr ⟨last, by simpa using hlast, hfits⟩
    · rcases h with hlength | ⟨last, hlast, hfits⟩
      · exact Or.inl hlength
      · exact Or.inr ⟨last, by simpa using hlast, hfits⟩

def total (q : List PipePage) : ℕ := (q.map PipePage.len).sum

structure Within (q : List PipePage) : Prop where
  length : q.length ≤ pages
  page : ∀ page ∈ q, page.offset + page.len ≤ pageSize

theorem total_write (q : List PipePage) : total (write q) = total q + weakFdWriteSize := by
  rcases List.eq_nil_or_concat' q with rfl | ⟨front, page, rfl⟩
  · rfl
  · simp only [write, List.getLast?_concat, List.dropLast_concat]
    split_ifs <;> simp [total, Nat.add_assoc]

theorem Within.write {q : List PipePage} (h : Within q) (hfits : fits q = true) : Within (write q) := by
  have hsmall : 0 + weakFdWriteSize ≤ pageSize := by decide
  rcases List.eq_nil_or_concat' q with rfl | ⟨front, page, rfl⟩
  · refine ⟨by decide, fun page hpage => ?_⟩
    obtain rfl := List.mem_singleton.mp hpage
    exact hsmall
  · have hlength := h.length
    simp only [PagedPipe.write, List.getLast?_concat, List.dropLast_concat]
    split_ifs with hmerge
    · refine ⟨by simpa using hlength, fun page' hpage => ?_⟩
      rcases List.mem_append.mp hpage with hfront | hlast
      · exact h.page page' (List.mem_append_left _ hfront)
      · obtain rfl := List.mem_singleton.mp hlast
        dsimp only
        omega
    · rcases fits_iff.mp hfits with hfewer | ⟨last, hlast, hfew⟩
      · refine ⟨by simpa [Nat.succ_le_iff] using hfewer, fun page' hpage => ?_⟩
        rcases List.mem_append.mp hpage with hold | hnew
        · exact h.page page' hold
        · obtain rfl := List.mem_singleton.mp hnew
          exact hsmall
      · obtain rfl : page = last := by simpa using hlast
        exact absurd hfew hmerge

theorem Within.total_le {q : List PipePage} (h : Within q) : total q ≤ pages * pageSize := by
  have hsum : total q ≤ q.length * pageSize := by
    have hle : ∀ len ∈ q.map PipePage.len, len ≤ pageSize := by
      intro len hlen
      obtain ⟨page, hpage, rfl⟩ := List.mem_map.mp hlen
      exact le_trans (Nat.le_add_left _ _) (h.page page hpage)
    simpa [total] using List.sum_le_card_nsmul _ _ hle
  exact hsum.trans (Nat.mul_le_mul_right _ h.length)

def pipe : WeakupPipe (List PipePage) := { empty := [], fits, write, read, fits_read }

theorem fills : ∃ n, pipe.fits (pipe.write^[n] pipe.empty) = false := by
  by_contra hnever
  have hwrites : ∀ n, Within (write^[n] []) ∧ total (write^[n] []) = weakFdWriteSize * n := by
    intro n
    induction n with
    | zero => exact ⟨⟨by decide, by simp⟩, rfl⟩
    | succ n ih =>
      rw [Function.iterate_succ_apply', total_write, ih.2, Nat.mul_succ]
      have hfits : fits (write^[n] []) = true := by
        by_contra hfull
        exact hnever ⟨n, Bool.eq_false_iff.mpr hfull⟩
      exact ⟨ih.1.write hfits, rfl⟩
  obtain ⟨hwithin, htotal⟩ := hwrites (pages * pageSize)
  have hle := hwithin.total_le
  rw [htotal] at hle
  exact absurd hle (by decide)

end PagedPipe

namespace PipedTimerThread

theorem full_pipe_deadlocks : ∃ es s, Run (Next (step PagedPipe.pipe)) (init PagedPipe.pipe ⟨0⟩) es s ∧
    s.Deadlocked PagedPipe.pipe :=
  deadlock_reachable ⟨0⟩ PagedPipe.fills

def twoResets : List TimerThreadEvent :=
  [.reset 0 4 ⟨1000⟩ ⟨0⟩, .lock 0, .write 0, .unlock 0, .test, .poll 1, .readClock, .reset 0 4 ⟨2000⟩ ⟨1000⟩, .lock 0,
    .readWeakup]

theorem resets_not_deadlocked_two : ∃ s,
    Run (Guarded (Next (step PagedPipe.pipe)) fun s e => s.admitsReset PagedPipe.pipe e = true)
      (init PagedPipe.pipe ⟨0⟩) twoResets s ∧ s.pipe = [⟨4, 4⟩] ∧ s.thread.mutex = some 0 ∧
      s.thread.timerFunc.awaitsMutex = true ∧ ¬ s.Deadlocked PagedPipe.pipe := by
  have hexec : (exec (guardedStep (step PagedPipe.pipe) (admitsReset PagedPipe.pipe)) (init PagedPipe.pipe ⟨0⟩)
      twoResets).map (fun s => (s.pipe, s.thread.mutex, s.thread.timerFunc.awaitsMutex)) =
        some ([⟨4, 4⟩], some 0, true) := by decide +kernel
  obtain ⟨s, hrun, hend⟩ := run_of_exec_map _ hexec
  simp only [Prod.mk.injEq] at hend
  obtain ⟨hpipe, hmutex, hawaits⟩ := hend
  exact ⟨s, hrun.guarded, hpipe, hmutex, hawaits, resets_not_deadlocked hrun.guarded⟩

end PipedTimerThread

end Penduo
