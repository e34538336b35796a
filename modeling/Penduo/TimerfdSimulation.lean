import Penduo.TimerThread

set_option autoImplicit false

namespace Penduo

open LabelledRuns

structure TimerfdThreadSimulation where
  readFd : ℕ
  writeFd : ℕ
  expirationTs : Timestamp
  resetting : Option Reset
  completed : Option Reset
deriving DecidableEq, Repr

inductive Descriptor
  | closed
  | readEnd (i : ℕ)
  | writeEnd (i : ℕ)
  | other
deriving DecidableEq, Repr

structure Token where
  reset : Reset
  target : Descriptor
  alive : Bool
  writtenAt : Timestamp
deriving DecidableEq, Repr

structure Timerfds where
  thread : TimerThread
  timerfd : ℕ → Option TimerfdThreadSimulation
  created : ℕ
  fds : ℕ → Descriptor
  unread : ℕ → ℕ
  tokens : List Token

inductive TimerfdEvent
  | thread (e : TimerThreadEvent)
  | create (readFd writeFd : ℕ)
  | reset (i : ℕ) (expiration : Timestamp)
  | returned (i : ℕ)
  | read (i : ℕ)
  | destroy (i : ℕ)
  | openFd (fd : ℕ)
  | closeFd (fd : ℕ)
deriving DecidableEq, Repr

namespace Timerfds

def init (clock : Timestamp) : Timerfds :=
  { thread := .init clock, timerfd := fun _ => none, created := 0, fds := fun _ => .closed, unread := fun _ => 0,
    tokens := [] }

def setTimerfd (s : Timerfds) (i : ℕ) (t : Option TimerfdThreadSimulation) : Timerfds :=
  { s with timerfd := Function.update s.timerfd i t }

-- The `::write` of a token to a number that came out of `timer_set_`; it fails on what is not open for writing.
def deliver (s : Timerfds) (r : Reset) : Timerfds :=
  let token : Token := ⟨r, s.fds r.writeFd, (s.timerfd r.caller).isSome, s.thread.clock⟩
  match s.fds r.writeFd with
  | .writeEnd i =>
    { s with unread := Function.update s.unread i (s.unread i + 1), tokens := s.tokens ++ [token] }
  | .other => { s with tokens := s.tokens ++ [token] }
  | _ => s

def step (capacity : ℕ) (s : Timerfds) : TimerfdEvent → Option Timerfds
  | .thread (.reset ..) => none
  | .thread .writeToken =>
    match s.thread.timerFunc with
    | .writing (r :: _) => (s.thread.step capacity .writeToken).map fun thread => { s.deliver r with thread }
    | _ => none
  | .thread e => (s.thread.step capacity e).map fun thread => { s with thread }
  | .create readFd writeFd =>
    if s.fds readFd = .closed ∧ s.fds writeFd = .closed ∧ readFd ≠ writeFd then
      let t : TimerfdThreadSimulation := ⟨readFd, writeFd, ⟨0⟩, none, none⟩
      some { s.setTimerfd s.created (some t) with
        created := s.created + 1
        fds := Function.update (Function.update s.fds readFd (.readEnd s.created)) writeFd (.writeEnd s.created) }
    else none
  | .reset i expiration =>
    match s.timerfd i with
    | some t =>
      if t.resetting = none then
        let r : Reset := ⟨s.thread.resets.length, i, t.writeFd, expiration, t.expirationTs⟩
        (s.thread.step capacity (.reset r.caller r.writeFd r.newTimestamp r.oldTimestamp)).map fun thread =>
          { s.setTimerfd i (some { t with resetting := some r }) with thread }
      else none
    | none => none
  -- `TimerThread::reset` has returned: `expiration_ts_ = expiration`
  | .returned i =>
    match s.timerfd i with
    | some t =>
      match t.resetting with
      | some r =>
        if s.thread.call i = .idle then
          some (s.setTimerfd i
            (some { t with expirationTs := r.newTimestamp, resetting := none, completed := some r }))
        else none
      | none => none
    | none => none
  | .read i =>
    if (s.timerfd i).isSome = true ∧ 0 < s.unread i then
      some { s with unread := Function.update s.unread i (s.unread i - 1) }
    else none
  | .destroy i =>
    match s.timerfd i with
    | some t =>
      if t.resetting = none then
        some { s.setTimerfd i none with
          fds := Function.update (Function.update s.fds t.readFd .closed) t.writeFd .closed }
      else none
    | none => none
  | .openFd fd => if s.fds fd = .closed then some { s with fds := Function.update s.fds fd .other } else none
  | .closeFd fd => if s.fds fd = .other then some { s with fds := Function.update s.fds fd .closed } else none

variable {capacity : ℕ} {s s' : Timerfds} {e : TimerfdEvent} {i j : ℕ} {t u : TimerfdThreadSimulation} {r : Reset}

inductive Moves (capacity : ℕ) (s : Timerfds) : TimerfdEvent → Timerfds → Prop
  | thread (e : TimerThreadEvent) (thread : TimerThread) (hm : s.thread.Moves capacity e thread)
      (he : e.isReset = false) (hwrite : e ≠ .writeToken) : Moves capacity s (.thread e) { s with thread := thread }
  | written (r : Reset) (rest : List Reset) (hfunc : s.thread.timerFunc = .writing (r :: rest)) :
      Moves capacity s (.thread .writeToken)
        { s.deliver r with thread := { s.thread with timerFunc := .writing rest } }
  | create (readFd writeFd : ℕ) (hread : s.fds readFd = .closed) (hwrite : s.fds writeFd = .closed)
      (hne : readFd ≠ writeFd) :
      Moves capacity s (.create readFd writeFd)
        { s.setTimerfd s.created (some ⟨readFd, writeFd, ⟨0⟩, none, none⟩) with
          created := s.created + 1
          fds := Function.update (Function.update s.fds readFd (.readEnd s.created)) writeFd (.writeEnd s.created) }
  | reset (t : TimerfdThreadSimulation) (r : Reset) (ht : s.timerfd r.caller = some t) (hnone : t.resetting = none)
      (hidle : s.thread.call r.caller = .idle) (hid : r.id = s.thread.resets.length) (hfd : r.writeFd = t.writeFd)
      (hold : r.oldTimestamp = t.expirationTs) :
      Moves capacity s (.reset r.caller r.newTimestamp)
        { s.setTimerfd r.caller (some { t with resetting := some r }) with
          thread := { s.thread.setCall r.caller (.entering r) with resets := s.thread.resets ++ [r] } }
  | returned (i : ℕ) (t : TimerfdThreadSimulation) (r : Reset) (ht : s.timerfd i = some t)
      (hr : t.resetting = some r) (hidle : s.thread.call i = .idle) :
      Moves capacity s (.returned i)
        (s.setTimerfd i (some { t with expirationTs := r.newTimestamp, resetting := none, completed := some r }))
  | read (i : ℕ) : Moves capacity s (.read i) { s with unread := Function.update s.unread i (s.unread i - 1) }
  | destroy (i : ℕ) (t : TimerfdThreadSimulation) (ht : s.timerfd i = some t) (hnone : t.resetting = none) :
      Moves capacity s (.destroy i)
        { s.setTimerfd i none with
          fds := Function.update (Function.update s.fds t.readFd .closed) t.writeFd .closed }
  | openFd (fd : ℕ) (hfd : s.fds fd = .closed) :
      Moves capacity s (.openFd fd) { s with fds := Function.update s.fds fd .other }
  | closeFd (fd : ℕ) (hfd : s.fds fd = .other) :
      Moves capacity s (.closeFd fd) { s with fds := Function.update s.fds fd .closed }

theorem moves_of_thread {e : TimerThreadEvent} (h : s.step capacity (.thread e) = some s') :
    Moves capacity s (.thread e) s' := by
  cases e with
  | reset => simp [step] at h
  | writeToken =>
    simp only [step] at h
    split at h <;> simp only [Option.map_eq_some_iff, reduceCtorEq] at h
    rename_i r rest hfunc
    obtain ⟨thread, hstep, rfl⟩ := h
    simp only [TimerThread.step, hfunc, Option.some.injEq] at hstep
    subst hstep
    exact .written r rest hfunc
  | _ =>
    simp only [step, Option.map_eq_some_iff] at h
    obtain ⟨thread, hstep, rfl⟩ := h
    exact .thread _ thread (TimerThread.moves_of_step hstep) rfl (by simp)

theorem moves_of_step (h : s.step capacity e = some s') : Moves capacity s e s' := by
  cases e with
  | thread e => exact moves_of_thread h
  | create readFd writeFd =>
    simp only [step, Option.ite_none_right_eq_some, Option.some.injEq] at h
    obtain ⟨⟨hread, hwrite, hne⟩, rfl⟩ := h
    exact .create readFd writeFd hread hwrite hne
  | reset i expiration =>
    simp only [step] at h
    split at h <;> simp only [Option.ite_none_right_eq_some, Option.map_eq_some_iff, reduceCtorEq] at h
    rename_i t ht
    obtain ⟨hnone, thread, hstep, rfl⟩ := h
    simp only [TimerThread.step, Option.ite_none_right_eq_some, Option.some.injEq] at hstep
    obtain ⟨hidle, rfl⟩ := hstep
    exact .reset t ⟨s.thread.resets.length, i, t.writeFd, expiration, t.expirationTs⟩ ht hnone hidle rfl rfl rfl
  | returned i =>
    simp only [step] at h
    split at h
    case h_1 t ht =>
      split at h <;> simp only [Option.ite_none_right_eq_some, Option.some.injEq, reduceCtorEq] at h
      obtain ⟨hidle, rfl⟩ := h
      exact .returned i t _ ht ‹_› hidle
    case h_2 => simp at h
  | read i =>
    simp only [step, Option.ite_none_right_eq_some, Option.some.injEq] at h
    obtain ⟨_, rfl⟩ := h
    exact .read i
  | destroy i =>
    simp only [step] at h
    split at h <;> simp only [Option.ite_none_right_eq_some, Option.some.injEq, reduceCtorEq] at h
    obtain ⟨hnone, rfl⟩ := h
    exact .destroy i _ ‹_› hnone
  | openFd fd =>
    simp only [step, Option.ite_none_right_eq_some, Option.some.injEq] at h
    obtain ⟨hfd, rfl⟩ := h
    exact .openFd fd hfd
  | closeFd fd =>
    simp only [step, Option.ite_none_right_eq_some, Option.some.injEq] at h
    obtain ⟨hfd, rfl⟩ := h
    exact .closeFd fd hfd

@[simp] theorem deliver_thread : (s.deliver r).thread = s.thread := by
  unfold deliver
  dsimp only
  split <;> rfl

@[simp] theorem deliver_timerfd : (s.deliver r).timerfd = s.timerfd := by
  unfold deliver
  dsimp only
  split <;> rfl

@[simp] theorem deliver_created : (s.deliver r).created = s.created := by
  unfold deliver
  dsimp only
  split <;> rfl

@[simp] theorem deliver_fds : (s.deliver r).fds = s.fds := by
  unfold deliver
  dsimp only
  split <;> rfl

theorem deliver_tokens (hfd : s.fds r.writeFd = .writeEnd i) : (s.deliver r).tokens =
    s.tokens ++ [⟨r, .writeEnd i, (s.timerfd r.caller).isSome, s.thread.clock⟩] := by
  simp [deliver, hfd]

section Attached

/-- Each instance has the two ends of its pipe, and the calls of `TimerThread::reset` are those that
the instances are making. -/
structure Attached (s : Timerfds) : Prop where
  readFd : ∀ i t, s.timerfd i = some t → s.fds t.readFd = .readEnd i
  writeFd : ∀ i t, s.timerfd i = some t → s.fds t.writeFd = .writeEnd i
  created : ∀ i, s.created ≤ i → s.timerfd i = none
  call : ∀ i r, (s.thread.call i).reset = some r → ∃ t, s.timerfd i = some t ∧ t.resetting = some r
  resetting : ∀ i t, s.timerfd i = some t → ∀ r, t.resetting = some r →
    r.caller = i ∧ r.writeFd = t.writeFd ∧ r.oldTimestamp = t.expirationTs ∧ r ∈ s.thread.resets

@[simp] theorem setTimerfd_self (s : Timerfds) (i : ℕ) (t : Option TimerfdThreadSimulation) :
    (s.setTimerfd i t).timerfd i = t := by
  simp [setTimerfd]

theorem setTimerfd_of_ne (s : Timerfds) (t : Option TimerfdThreadSimulation) (hj : j ≠ i) :
    (s.setTimerfd i t).timerfd j = s.timerfd j := by
  simp [setTimerfd, hj]

theorem fd_ne {fds : ℕ → Descriptor} {fd fd' : ℕ} {d d' : Descriptor} (h : fds fd = d) (h' : fds fd' = d')
    (hne : d ≠ d') : fd ≠ fd' := by
  rintro rfl
  exact hne (h.symm.trans h')

theorem Attached.owner (h : s.Attached) (ht : s.timerfd i = some t) (hu : s.timerfd j = some u)
    (hfd : t.writeFd = u.writeFd) : i = j := by
  have hi := h.writeFd i t ht
  rw [hfd, h.writeFd j u hu] at hi
  exact (Descriptor.writeEnd.inj hi).symm

theorem forall_setTimerfd {P : ℕ → TimerfdThreadSimulation → Prop} {o : Option TimerfdThreadSimulation}
    (hself : ∀ u, o = some u → P i u) (hother : ∀ j u, j ≠ i → s.timerfd j = some u → P j u) :
    ∀ j u, (s.setTimerfd i o).timerfd j = some u → P j u := by
  intro j u hu
  by_cases hj : j = i
  · subst hj
    rw [setTimerfd_self] at hu
    exact hself u hu
  · rw [setTimerfd_of_ne s o hj] at hu
    exact hother j u hj hu

theorem Attached.thread (h : s.Attached) {e : TimerThreadEvent} {thread : TimerThread}
    (hm : s.thread.Moves capacity e thread) (he : e.isReset = false) :
    ({ s with thread := thread } : Timerfds).Attached where
  readFd := h.readFd
  writeFd := h.writeFd
  created := h.created
  call i r hr := h.call i r (hm.call_reset he hr)
  resetting i t ht := by
    rw [hm.resets_eq he]
    exact h.resetting i t ht

theorem Attached.create (h : s.Attached) {readFd writeFd : ℕ} (hread : s.fds readFd = .closed)
    (hwrite : s.fds writeFd = .closed) (hne : readFd ≠ writeFd) :
    Attached { s.setTimerfd s.created (some ⟨readFd, writeFd, ⟨0⟩, none, none⟩) with
      created := s.created + 1
      fds := Function.update (Function.update s.fds readFd (.readEnd s.created)) writeFd (.writeEnd s.created) } where
  readFd := by
    apply forall_setTimerfd
    · rintro u ⟨⟩
      simp [Function.update_of_ne hne]
    · intro j u _ hu
      have hfd := h.readFd j u hu
      dsimp only
      rw [Function.update_of_ne (fd_ne hfd hwrite (by simp)), Function.update_of_ne (fd_ne hfd hread (by simp)), hfd]
  writeFd := by
    apply forall_setTimerfd
    · rintro u ⟨⟩
      simp
    · intro j u _ hu
      have hfd := h.writeFd j u hu
      dsimp only
      rw [Function.update_of_ne (fd_ne hfd hwrite (by simp)), Function.update_of_ne (fd_ne hfd hread (by simp)), hfd]
  created i hi := by
    have hlt : s.created < i := hi
    rw [setTimerfd_of_ne s _ hlt.ne']
    exact h.created i hlt.le
  call i r hr := by
    obtain ⟨t, ht, hreset⟩ := h.call i r hr
    have hi : i ≠ s.created := by
      rintro rfl
      simp [h.created _ le_rfl] at ht
    exact ⟨t, by rw [setTimerfd_of_ne s _ hi]; exact ht, hreset⟩
  resetting := by
    apply forall_setTimerfd
    · rintro u ⟨⟩ r hr
      cases hr
    · intro j u _ hu
      exact h.resetting j u hu

theorem Attached.reset (h : s.Attached) (ht : s.timerfd r.caller = some t) (hfd : r.writeFd = t.writeFd)
    (hold : r.oldTimestamp = t.expirationTs) :
    Attached { s.setTimerfd r.caller (some { t with resetting := some r }) with
      thread := { s.thread.setCall r.caller (.entering r) with resets := s.thread.resets ++ [r] } } where
  readFd := by
    apply forall_setTimerfd
    · rintro u ⟨⟩
      exact h.readFd _ t ht
    · intro j u _ hu
      exact h.readFd j u hu
  writeFd := by
    apply forall_setTimerfd
    · rintro u ⟨⟩
      exact h.writeFd _ t ht
    · intro j u _ hu
      exact h.writeFd j u hu
  created i hi := by
    have hne : i ≠ r.caller := by
      rintro rfl
      simp [h.created _ hi] at ht
    rw [setTimerfd_of_ne s _ hne]
    exact h.created i hi
  call i r' hr' := by
    by_cases hi : i = r.caller
    · subst hi
      have hcall := TimerThread.setCall_self s.thread r.caller (.entering r)
      rw [show _ = ResetCall.entering r from hcall] at hr'
      exact ⟨_, setTimerfd_self s _ _, hr'⟩
    · have hcall := TimerThread.setCall_of_ne s.thread (.entering r) hi
      rw [show _ = s.thread.call i from hcall] at hr'
      rw [setTimerfd_of_ne s _ hi]
      exact h.call i r' hr'
  resetting := by
    apply forall_setTimerfd
    · rintro u ⟨⟩ r' ⟨⟩
      exact ⟨rfl, hfd, hold, by simp⟩
    · intro j u _ hu r' hr'
      obtain ⟨hcaller, hfd', hold', hmem⟩ := h.resetting j u hu r' hr'
      exact ⟨hcaller, hfd', hold', List.mem_append_left _ hmem⟩

theorem Attached.returned (h : s.Attached) (ht : s.timerfd i = some t) (hidle : s.thread.call i = .idle) :
    Attached (s.setTimerfd i
      (some { t with expirationTs := r.newTimestamp, resetting := none, completed := some r })) where
  readFd := by
    apply forall_setTimerfd
    · rintro u ⟨⟩
      exact h.readFd _ t ht
    · intro j u _ hu
      exact h.readFd j u hu
  writeFd := by
    apply forall_setTimerfd
    · rintro u ⟨⟩
      exact h.writeFd _ t ht
    · intro j u _ hu
      exact h.writeFd j u hu
  created j hj := by
    have hne : j ≠ i := by
      rintro rfl
      simp [h.created _ hj] at ht
    rw [setTimerfd_of_ne s _ hne]
    exact h.created j hj
  call j r' hr' := by
    have hne : j ≠ i := by
      rintro rfl
      have hnone : (s.thread.call j).reset = some r' := hr'
      simp [hidle, ResetCall.reset] at hnone
    rw [setTimerfd_of_ne s _ hne]
    exact h.call j r' hr'
  resetting := by
    apply forall_setTimerfd
    · rintro u ⟨⟩ r' hr'
      cases hr'
    · intro j u _ hu
      exact h.resetting j u hu

theorem Attached.destroy (h : s.Attached) (ht : s.timerfd i = some t) (hnone : t.resetting = none) :
    Attached { s.setTimerfd i none with
      fds := Function.update (Function.update s.fds t.readFd .closed) t.writeFd .closed } where
  readFd := by
    apply forall_setTimerfd
    · rintro u ⟨⟩
    · intro j u hj hu
      have hfd := h.readFd j u hu
      have hread : u.readFd ≠ t.readFd := fd_ne hfd (h.readFd i t ht) (by simpa using hj)
      have hwrite : u.readFd ≠ t.writeFd := fd_ne hfd (h.writeFd i t ht) (by simp)
      dsimp only
      rw [Function.update_of_ne hwrite, Function.update_of_ne hread, hfd]
  writeFd := by
    apply forall_setTimerfd
    · rintro u ⟨⟩
    · intro j u hj hu
      have hfd := h.writeFd j u hu
      have hread : u.writeFd ≠ t.readFd := fd_ne hfd (h.readFd i t ht) (by simp)
      have hwrite : u.writeFd ≠ t.writeFd := fd_ne hfd (h.writeFd i t ht) (by simpa using hj)
      dsimp only
      rw [Function.update_of_ne hwrite, Function.update_of_ne hread, hfd]
  created j hj := by
    by_cases hji : j = i
    · subst hji
      exact setTimerfd_self s j none
    · rw [setTimerfd_of_ne s _ hji]
      exact h.created j hj
  call j r hr := by
    obtain ⟨u, hu, hreset⟩ := h.call j r hr
    have hji : j ≠ i := by
      rintro rfl
      obtain rfl := Option.some.inj (hu.symm.trans ht)
      simp [hnone] at hreset
    exact ⟨u, by rw [setTimerfd_of_ne s _ hji]; exact hu, hreset⟩
  resetting := by
    apply forall_setTimerfd
    · rintro u ⟨⟩
    · intro j u _ hu
      exact h.resetting j u hu

theorem Attached.updateOther (h : s.Attached) {fd : ℕ} {d : Descriptor} (d' : Descriptor) (hfd : s.fds fd = d)
    (hread : ∀ i, Descriptor.readEnd i ≠ d) (hwrite : ∀ i, Descriptor.writeEnd i ≠ d) :
    Attached { s with fds := Function.update s.fds fd d' } :=
  { h with
    readFd := fun i t ht => by
      have hi := h.readFd i t ht
      dsimp only
      rw [Function.update_of_ne (fd_ne hi hfd (hread i)), hi]
    writeFd := fun i t ht => by
      have hi := h.writeFd i t ht
      dsimp only
      rw [Function.update_of_ne (fd_ne hi hfd (hwrite i)), hi] }

theorem Moves.attached (h : s.Attached) (hm : Moves capacity s e s') : s'.Attached := by
  cases hm with
  | thread e thread hm he hwrite => exact h.thread hm he
  | written r rest hfunc =>
    constructor
    · simpa using h.readFd
    · simpa using h.writeFd
    · simpa using h.created
    · simpa using h.call
    · simpa using h.resetting
  | create readFd writeFd hread hwrite hne => exact h.create hread hwrite hne
  | reset t r ht hnone hidle hid hfd hold => exact h.reset ht hfd hold
  | returned i t r ht hr hidle => exact h.returned ht hidle
  | read i => exact ⟨h.readFd, h.writeFd, h.created, h.call, h.resetting⟩
  | destroy i t ht hnone => exact h.destroy ht hnone
  | openFd fd hfd => exact h.updateOther .other hfd (by simp) (by simp)
  | closeFd fd hfd => exact h.updateOther .closed hfd (by simp) (by simp)

theorem init_attached (clock : Timestamp) : (init clock).Attached := by
  constructor
  · intro i t ht
    cases ht
  · intro i t ht
    cases ht
  · intro i _
    rfl
  · intro i r hr
    cases hr
  · intro i t ht
    cases ht

end Attached

end Timerfds

end Penduo
