import Mathlib.Data.List.Nodup
import Penduo.TimerfdTargets

set_option autoImplicit false

namespace Penduo

open LabelledRuns

-- The entry that a thread has not put into `timer_set_` yet: it still waits for `mutex_`.
def ResetCall.waiting : ResetCall → Option Reset
  | .entering r => some r
  | _ => none

theorem waiting_reset {c : ResetCall} {r : Reset} (h : c.waiting = some r) : c.reset = some r := by
  cases c with
  | entering r' => exact h
  | _ => cases h

def TimerFunc.now : TimerFunc → Option Timestamp
  | .reading now | .expiring now => some now
  | _ => none

namespace TimerThread

theorem rearm_perm {l : List Reset} {r : Reset}
    (h : ∀ x ∈ l, x.writeFd = r.writeFd → r.oldTimestamp.valid = true ∧ x.newTimestamp = r.oldTimestamp) :
    (rearm l r).Perm (r :: l.filter fun x => x.writeFd ≠ r.writeFd) := by
  have herase : (if r.oldTimestamp.valid = true then
      OrderedSet.erase Reset.key (toLex (r.oldTimestamp, r.writeFd)) l else l) =
        l.filter fun x => x.writeFd ≠ r.writeFd := by
    split_ifs with hvalid
    · apply List.filter_congr
      intro x hx
      simp only [Reset.key, decide_eq_decide, EmbeddingLike.apply_eq_iff_eq, ne_eq, Prod.mk.injEq, not_and]
      constructor
      · intro hkey hfd
        exact hkey (h x hx hfd).2 hfd
      · intro hfd _
        exact hfd
    · symm
      apply List.filter_eq_self.mpr
      intro x hx
      simp only [ne_eq, decide_eq_true_eq]
      intro hfd
      exact hvalid (h x hx hfd).1
  rw [rearm, herase]
  apply OrderedSet.perm_insert
  intro x hx hkey
  have hne : x.writeFd ≠ r.writeFd := by simpa using (List.mem_filter.mp hx).2
  exact hne (congrArg (fun k => (ofLex k).2) hkey)

end TimerThread

namespace Timerfds

variable {capacity : ℕ} {s s' : Timerfds} {e : TimerfdEvent} {i j : ℕ} {t u : TimerfdThreadSimulation} {r : Reset}
  {clock : Timestamp} {es : List TimerfdEvent}

def keeps : TimerfdEvent → Bool
  | .destroy _ => false
  | .reset _ expiration => expiration.valid
  | _ => true

/-- The latest reset of an instance that has been put into `timer_set_`. -/
def latest (s : Timerfds) (i : ℕ) : Option Reset :=
  match s.timerfd i with
  | some t => if (s.thread.call i).waiting.isSome then t.completed else t.resetting.or t.completed
  | none => none

def whereabouts (s : Timerfds) : List Reset :=
  s.thread.timerSet ++ (s.thread.timerFunc.popped ++ s.tokens.map Token.reset)

section Recorded

structure Recorded (i : ℕ) (t : TimerfdThreadSimulation) : Prop where
  valid : t.expirationTs.valid = t.completed.isSome
  completed : ∀ r, t.completed = some r → r.caller = i ∧ r.writeFd = t.writeFd ∧ r.newTimestamp = t.expirationTs
  resetting : ∀ r, t.resetting = some r → r.caller = i ∧ r.writeFd = t.writeFd ∧ r.newTimestamp.valid = true

theorem Moves.recorded (hrec : ∀ i t, s.timerfd i = some t → Recorded i t) (hk : keeps e = true)
    (hm : Moves capacity s e s') : ∀ i t, s'.timerfd i = some t → Recorded i t := by
  cases hm with
  | written r rest hfunc => simpa using hrec
  | create readFd writeFd hread hwrite hne =>
    apply forall_setTimerfd
    · rintro u ⟨⟩
      exact ⟨rfl, by simp, by simp⟩
    · intro j u _ hu
      exact hrec j u hu
  | reset t r ht hnone hidle hid hfd hold =>
    apply forall_setTimerfd
    · rintro u ⟨⟩
      have hr := hrec _ t ht
      refine ⟨hr.valid, hr.completed, ?_⟩
      rintro r' ⟨⟩
      exact ⟨rfl, hfd, hk⟩
    · intro j u _ hu
      exact hrec j u hu
  | returned i t r ht hr hidle =>
    apply forall_setTimerfd
    · rintro u ⟨⟩
      obtain ⟨hcaller, hfd, hvalid⟩ := (hrec i t ht).resetting r hr
      refine ⟨hvalid, ?_, by simp⟩
      rintro r' ⟨⟩
      exact ⟨hcaller, hfd, rfl⟩
    · intro j u _ hu
      exact hrec j u hu
  | destroy => cases hk
  | _ => exact hrec

theorem latest_caller (hrec : ∀ i t, s.timerfd i = some t → Recorded i t) (hr : s.latest i = some r) :
    r.caller = i := by
  unfold latest at hr
  split at hr
  case h_1 t ht =>
    have h := hrec i t ht
    split_ifs at hr
    · exact (h.completed r hr).1
    · rcases Option.or_eq_some_iff.mp hr with hr | ⟨_, hr⟩
      · exact (h.resetting r hr).1
      · exact (h.completed r hr).1
  case h_2 => cases hr

end Recorded

section Counted

structure Counted (s : Timerfds) : Prop where
  entries : ∀ r ∈ s.thread.timerSet, s.latest r.caller = some r
  waiting : ∀ i r, (s.thread.call i).waiting = some r → r ∉ s.whereabouts
  nodup : s.whereabouts.Nodup
  located : ∀ i r, s.latest i = some r → r ∈ s.whereabouts
  known : ∀ r ∈ s.whereabouts, r ∈ s.thread.resets

theorem Counted.frame (h : s.Counted) (hperm : s'.whereabouts.Perm s.whereabouts)
    (hset : s'.thread.timerSet ⊆ s.thread.timerSet) (hresets : s.thread.resets ⊆ s'.thread.resets)
    (hlatest : ∀ i, s'.latest i = s.latest i)
    (hwaiting : ∀ i r, (s'.thread.call i).waiting = some r →
      (s.thread.call i).waiting = some r ∨ r ∉ s.whereabouts) : s'.Counted where
  entries r hr := by
    rw [hlatest]
    exact h.entries r (hset hr)
  waiting i r hr := by
    rw [hperm.mem_iff]
    rcases hwaiting i r hr with hr | hr
    · exact h.waiting i r hr
    · exact hr
  nodup := hperm.nodup_iff.mpr h.nodup
  located i r hr := by
    rw [hlatest] at hr
    exact hperm.mem_iff.mpr (h.located i r hr)
  known r hr := hresets (h.known r (hperm.mem_iff.mp hr))

theorem Counted.thread (h : s.Counted) {thread : TimerThread} (hresets : thread.resets = s.thread.resets)
    (hcall : ∀ i, (thread.call i).waiting = (s.thread.call i).waiting)
    (hperm : (thread.timerSet ++ thread.timerFunc.popped).Perm (s.thread.timerSet ++ s.thread.timerFunc.popped))
    (hset : thread.timerSet ⊆ s.thread.timerSet) : Counted { s with thread := thread } := by
  apply h.frame
  · unfold whereabouts
    rw [← List.append_assoc, ← List.append_assoc]
    exact hperm.append_right _
  · exact hset
  · rw [hresets]
    exact List.Subset.refl _
  · intro i
    simp only [latest, hcall]
  · intro i r hr
    left
    rw [← hcall]
    exact hr

theorem setCall_waiting {thread : TimerThread} {c : ResetCall} (hc : c.waiting = (thread.call i).waiting) (j : ℕ) :
    ((thread.setCall i c).call j).waiting = (thread.call j).waiting := by
  by_cases hj : j = i
  · subst hj
    rw [TimerThread.setCall_self, hc]
  · rw [TimerThread.setCall_of_ne _ c hj]

theorem Attached.entry_caller (h : s.Attached) (ht : s.timerfd i = some t) (hr : s.Owned r) :
    r.writeFd = t.writeFd ↔ r.caller = i := by
  obtain ⟨_, u, hu, hfd⟩ := hr
  rw [hfd]
  constructor
  · exact h.owner hu ht
  · rintro rfl
    rw [Option.some.inj (hu.symm.trans ht)]

def locked (s : Timerfds) (i : ℕ) (r : Reset) : Timerfds :=
  { s with thread :=
    { s.thread.setCall i (.writing r) with mutex := some i, timerSet := TimerThread.rearm s.thread.timerSet r } }

theorem latest_locked (ht : s.timerfd i = some t) (hr : t.resetting = some r) : (s.locked i r).latest i = some r := by
  simp [latest, locked, ht, hr, TimerThread.setCall_self, ResetCall.waiting]

theorem latest_locked_of_ne (hj : j ≠ i) : (s.locked i r).latest j = s.latest j := by
  simp [latest, locked, TimerThread.setCall_of_ne _ _ hj]

theorem locked_waiting {x : Reset} (hj : ((s.locked i r).thread.call j).waiting = some x) :
    j ≠ i ∧ (s.thread.call j).waiting = some x := by
  have hne : j ≠ i := by
    rintro rfl
    simp [locked, TimerThread.setCall_self, ResetCall.waiting] at hj
  refine ⟨hne, ?_⟩
  rw [← hj, locked]
  dsimp only
  rw [TimerThread.setCall_of_ne _ _ hne]

def unreplaced (s : Timerfds) (i : ℕ) : List Reset :=
  (s.thread.timerSet.filter fun x => x.caller ≠ i) ++ (s.thread.timerFunc.popped ++ s.tokens.map Token.reset)

theorem unreplaced_sublist (s : Timerfds) (i : ℕ) : (s.unreplaced i).Sublist s.whereabouts := by
  apply List.Sublist.append_right
  exact List.filter_sublist

theorem mem_unreplaced (hr : r ∈ s.whereabouts) (hne : r.caller ≠ i) : r ∈ s.unreplaced i := by
  simp only [whereabouts, unreplaced, List.mem_append, List.mem_filter] at hr ⊢
  simpa [hne] using hr

section Lock

variable (h : s.Counted) (ha : s.Attached) (hrec : ∀ i t, s.timerfd i = some t → Recorded i t)
  (hheld : ∀ r, s.thread.Holds r → s.Owned r) (hcall : s.thread.call i = .entering r)

include h ha hrec hheld hcall

theorem locked_timerSet :
    (s.locked i r).thread.timerSet.Perm (r :: s.thread.timerSet.filter fun x => x.caller ≠ i) := by
  obtain ⟨t, ht, hreset⟩ := ha.call i r (by simp [hcall, ResetCall.reset])
  obtain ⟨_, hfd, hold, _⟩ := ha.resetting i t ht r hreset
  have hsame : ∀ x ∈ s.thread.timerSet, x.writeFd = r.writeFd ↔ x.caller = i := by
    intro x hx
    rw [hfd]
    exact ha.entry_caller ht (hheld x (Or.inl hx))
  have hperm : (s.locked i r).thread.timerSet.Perm (r :: s.thread.timerSet.filter fun x => x.writeFd ≠ r.writeFd) := by
    apply TimerThread.rearm_perm
    intro x hx hxfd
    have hcaller := (hsame x hx).mp hxfd
    have hcompleted : t.completed = some x := by
      have hlatest := h.entries x hx
      simpa [latest, hcaller, ht, hcall, ResetCall.waiting] using hlatest
    have ht' := hrec i t ht
    rw [hold, ht'.valid, hcompleted]
    exact ⟨rfl, (ht'.completed x hcompleted).2.2⟩
  have hfilter : (s.thread.timerSet.filter fun x => x.writeFd ≠ r.writeFd) =
      s.thread.timerSet.filter fun x => x.caller ≠ i := by
    apply List.filter_congr
    intro x hx
    simp [hsame x hx]
  rwa [hfilter] at hperm

theorem Counted.lock : (s.locked i r).Counted := by
  obtain ⟨t, ht, hreset⟩ := ha.call i r (by simp [hcall, ResetCall.reset])
  obtain ⟨hcaller, _, _, hasked⟩ := ha.resetting i t ht r hreset
  have hset := locked_timerSet h ha hrec hheld hcall
  have hfresh : r ∉ s.whereabouts := h.waiting i r (by simp [hcall, ResetCall.waiting])
  have hmem : ∀ x, x ∈ (s.locked i r).thread.timerSet ↔ x = r ∨ x ∈ s.thread.timerSet ∧ x.caller ≠ i := by
    intro x
    simp [hset.mem_iff]
  have hwhere : (s.locked i r).whereabouts.Perm (r :: s.unreplaced i) := hset.append_right _
  have hsub : ∀ x, x ∈ (s.locked i r).whereabouts → x = r ∨ x ∈ s.whereabouts := by
    intro x hx
    rcases List.mem_cons.mp (hwhere.mem_iff.mp hx) with rfl | hx
    · exact Or.inl rfl
    · exact Or.inr ((unreplaced_sublist s i).subset hx)
  constructor
  · intro x hx
    rcases (hmem x).mp hx with rfl | ⟨hx, hne⟩
    · rw [hcaller]
      exact latest_locked ht hreset
    · rw [latest_locked_of_ne hne]
      exact h.entries x hx
  · intro j x hx hwhere
    obtain ⟨hne, hwaiting⟩ := locked_waiting hx
    rcases hsub x hwhere with rfl | hold
    · obtain ⟨u, hu, hu'⟩ := ha.call j x (waiting_reset hwaiting)
      exact hne ((ha.resetting j u hu x hu').1.symm.trans hcaller)
    · exact h.waiting j x hwaiting hold
  · rw [hwhere.nodup_iff, List.nodup_cons]
    exact ⟨fun hr => hfresh ((unreplaced_sublist s i).subset hr), h.nodup.sublist (unreplaced_sublist s i)⟩
  · intro j x hx
    rw [hwhere.mem_iff, List.mem_cons]
    by_cases hj : j = i
    · subst hj
      rw [latest_locked ht hreset] at hx
      exact Or.inl (Option.some.inj hx).symm
    · right
      rw [latest_locked_of_ne hj] at hx
      apply mem_unreplaced (h.located j x hx)
      rw [latest_caller hrec hx]
      exact hj
  · intro x hx
    rcases hsub x hx with rfl | hx
    · exact hasked
    · exact h.known x hx

end Lock

theorem Counted.written (h : s.Counted) (ha : s.Attached) {rest : List Reset}
    (hfunc : s.thread.timerFunc = .writing (r :: rest)) (hr : s.Owned r) :
    Counted { s.deliver r with thread := { s.thread with timerFunc := .writing rest } } := by
  apply h.frame
  · have htokens := deliver_tokens (ha.owned_fd hr)
    simp only [whereabouts, hfunc, htokens, TimerFunc.popped, List.map_append, List.map_cons, List.map_nil,
      ← List.append_assoc]
    apply List.Perm.trans (List.perm_append_singleton r _)
    simp only [List.append_assoc]
    exact List.perm_middle.symm
  · exact List.Subset.refl _
  · exact List.Subset.refl _
  · intro i
    simp [latest]
  · intro i x hx
    exact Or.inl hx

theorem Counted.timerfds (h : s.Counted) (hthread : s'.thread = s.thread) (htokens : s'.tokens = s.tokens)
    (hlatest : ∀ i, s'.latest i = s.latest i) : s'.Counted := by
  apply h.frame
  · simp only [whereabouts, hthread, htokens]
    exact List.Perm.refl _
  · rw [hthread]
    exact List.Subset.refl _
  · rw [hthread]
    exact List.Subset.refl _
  · exact hlatest
  · intro i x hx
    left
    rwa [hthread] at hx

theorem latest_create {readFd writeFd : ℕ} (ha : s.Attached) (i : ℕ) :
    (s.setTimerfd s.created (some ⟨readFd, writeFd, ⟨0⟩, none, none⟩)).latest i = s.latest i := by
  by_cases hi : i = s.created
  · subst hi
    simp [latest, ha.created]
  · simp only [latest, setTimerfd_of_ne s _ hi]
    rfl

theorem latest_returned (ht : s.timerfd i = some t) (hr : t.resetting = some r) (hidle : s.thread.call i = .idle)
    (j : ℕ) : (s.setTimerfd i
      (some { t with expirationTs := r.newTimestamp, resetting := none, completed := some r })).latest j =
        s.latest j := by
  by_cases hj : j = i
  · subst hj
    have hidle' : (s.setTimerfd j
        (some { t with expirationTs := r.newTimestamp, resetting := none, completed := some r })).thread.call j =
          .idle := hidle
    simp [latest, ht, hr, hidle, hidle', ResetCall.waiting]
  · simp only [latest, setTimerfd_of_ne s _ hj]
    rfl

theorem Counted.reset (h : s.Counted) (hids : s.thread.resets.map Reset.id = List.range s.thread.resets.length)
    (ht : s.timerfd r.caller = some t) (hnone : t.resetting = none) (hidle : s.thread.call r.caller = .idle)
    (hid : r.id = s.thread.resets.length) :
    Counted { s.setTimerfd r.caller (some { t with resetting := some r }) with
      thread := { s.thread.setCall r.caller (.entering r) with resets := s.thread.resets ++ [r] } } := by
  apply h.frame
  · exact List.Perm.refl _
  · exact List.Subset.refl _
  · exact List.subset_append_left _ _
  · intro i
    by_cases hi : i = r.caller
    · subst hi
      simp [latest, TimerThread.setCall_self, ht, hnone, hidle, ResetCall.waiting]
    · simp [latest, TimerThread.setCall_of_ne _ _ hi, setTimerfd_of_ne s _ hi]
  · intro i x hx
    by_cases hi : i = r.caller
    · right
      subst hi
      obtain rfl : r = x := by simpa [TimerThread.setCall_self, ResetCall.waiting] using hx
      intro hmem
      have hlt := List.mem_map_of_mem (f := Reset.id) (h.known r hmem)
      rw [hids, hid, List.mem_range] at hlt
      exact lt_irrefl _ hlt
    · left
      simpa [TimerThread.setCall_of_ne _ _ hi] using hx

theorem Moves.counted (h : s.Counted) (ha : s.Attached) (hrec : ∀ i t, s.timerfd i = some t → Recorded i t)
    (hids : s.thread.resets.map Reset.id = List.range s.thread.resets.length)
    (hheld : ∀ r, s.thread.Holds r → s.Owned r) (hk : keeps e = true) (hm : Moves capacity s e s') : s'.Counted := by
  cases hm with
  | thread e thread hm he hwrite =>
    have hsame := hm.resets_eq he
    cases hm with
    | lock i r hcall hmutex => exact h.lock ha hrec hheld hcall
    | reset => cases he
    | write i r hcall hroom =>
      exact h.thread hsame (setCall_waiting (by simp [hcall, ResetCall.waiting])) (List.Perm.refl _)
        (List.Subset.refl _)
    | unlock i r hcall =>
      exact h.thread hsame (setCall_waiting (by simp [hcall, ResetCall.waiting])) (List.Perm.refl _)
        (List.Subset.refl _)
    | expire now expirationFds timerSet hfunc hmutex hset hdue =>
      apply h.thread hsame (fun _ => rfl)
      · simp only [hfunc, hset, TimerFunc.popped, List.append_nil]
        exact List.perm_append_comm
      · rw [hset]
        exact List.subset_append_right _ _
    | writeToken => exact absurd rfl hwrite
    | tick => exact h.thread hsame (fun _ => rfl) (List.Perm.refl _) (List.Subset.refl _)
    | test | poll | failed | timeout | ready | readWeakup | next =>
      have hfunc := ‹s.thread.timerFunc = _›
      apply h.thread hsame (fun _ => rfl)
      · rw [hfunc]
        exact List.Perm.refl _
      · exact List.Subset.refl _
  | written r rest hfunc =>
    apply h.written ha hfunc
    apply hheld
    right
    rw [hfunc]
    exact List.mem_cons_self
  | create readFd writeFd hread hwrite hne => exact h.timerfds rfl rfl (latest_create ha)
  | reset t r ht hnone hidle hid hfd hold => exact h.reset hids ht hnone hidle hid
  | returned i t r ht hr hidle => exact h.timerfds rfl rfl (latest_returned ht hr hidle)
  | destroy => cases hk
  | read | openFd | closeFd => exact h.timerfds rfl rfl fun _ => rfl

end Counted

section Timely

structure Timely (s : Timerfds) : Prop where
  now : ∀ now, s.thread.timerFunc.now = some now → now ≤ s.thread.clock
  popped : ∀ r ∈ s.thread.timerFunc.popped, r.newTimestamp ≤ s.thread.clock
  tokens : ∀ token ∈ s.tokens, token.reset.newTimestamp ≤ token.writtenAt

theorem Timely.clock_le (h : s.Timely) {thread : TimerThread} (hle : s.thread.clock ≤ thread.clock)
    (hfunc : thread.timerFunc = s.thread.timerFunc) : Timely { s with thread := thread } where
  now now hnow := by
    dsimp only at hnow ⊢
    rw [hfunc] at hnow
    exact (h.now now hnow).trans hle
  popped r hr := by
    dsimp only at hr ⊢
    rw [hfunc] at hr
    exact (h.popped r hr).trans hle
  tokens := h.tokens

theorem Timely.func (h : s.Timely) {thread : TimerThread} (hclock : thread.clock = s.thread.clock)
    (hnow : ∀ now, thread.timerFunc.now = some now → now ≤ s.thread.clock)
    (hpopped : thread.timerFunc.popped = []) : Timely { s with thread := thread } where
  now now hn := by
    dsimp only
    rw [hclock]
    exact hnow now hn
  popped r hr := by
    dsimp only at hr
    rw [hpopped] at hr
    exact absurd hr List.not_mem_nil
  tokens := h.tokens

theorem deliver_timely (h : s.Timely) (hr : r.newTimestamp ≤ s.thread.clock) :
    ∀ token ∈ (s.deliver r).tokens, token.reset.newTimestamp ≤ token.writtenAt := by
  intro token htoken
  have hmem : token ∈ s.tokens ∨ token.reset = r ∧ token.writtenAt = s.thread.clock := by
    unfold deliver at htoken
    dsimp only at htoken
    split at htoken
    · rcases List.mem_append.mp htoken with hold | hnew
      · exact Or.inl hold
      · obtain rfl := List.mem_singleton.mp hnew
        exact Or.inr ⟨rfl, rfl⟩
    · rcases List.mem_append.mp htoken with hold | hnew
      · exact Or.inl hold
      · obtain rfl := List.mem_singleton.mp hnew
        exact Or.inr ⟨rfl, rfl⟩
    · exact Or.inl htoken
  rcases hmem with hold | ⟨hreset, hat⟩
  · exact h.tokens token hold
  · rw [hreset, hat]
    exact hr

theorem Moves.timely (h : s.Timely) (hm : Moves capacity s e s') : s'.Timely := by
  cases hm with
  | thread e thread hm he hwrite =>
    cases hm with
    | tick now hle => exact h.clock_le hle rfl
    | ready ret hfunc hret =>
      apply h.func
      · rfl
      · rintro now ⟨⟩
        exact le_rfl
      · rfl
    | timeout hfunc =>
      apply h.func
      · rfl
      · rintro now ⟨⟩
        exact le_rfl
      · rfl
    | readWeakup now hfunc =>
      apply h.func
      · rfl
      · rintro now' ⟨⟩
        exact h.now now (by rw [hfunc]; rfl)
      · rfl
    | expire now expirationFds timerSet hfunc hmutex hset hdue =>
      constructor
      · rintro now' ⟨⟩
      · intro r hr
        exact (hdue r hr).trans (h.now now (by rw [hfunc]; rfl))
      · exact h.tokens
    | reset => cases he
    | lock | write | unlock => exact h.clock_le le_rfl rfl
    | writeToken => exact absurd rfl hwrite
    | test | poll | failed | next =>
      apply h.func
      · rfl
      · rintro now ⟨⟩
      · rfl
  | written r rest hfunc =>
    constructor
    · rintro now ⟨⟩
    · intro x hx
      exact h.popped x (by rw [hfunc]; exact List.mem_cons_of_mem _ hx)
    · exact deliver_timely h (h.popped r (by rw [hfunc]; exact List.mem_cons_self))
  | _ => exact ⟨h.now, h.popped, h.tokens⟩

end Timely

theorem Moves.ids (h : s.thread.resets.map Reset.id = List.range s.thread.resets.length)
    (hm : Moves capacity s e s') : s'.thread.resets.map Reset.id = List.range s'.thread.resets.length := by
  cases hm with
  | thread e thread hm he hwrite =>
    dsimp only
    rw [hm.resets_eq he]
    exact h
  | reset t r ht hnone hidle hid hfd hold =>
    simp [List.range_succ, h, hid]
  | written r rest hfunc => simpa using h
  | _ => exact h

structure Tracked (s : Timerfds) : Prop where
  attached : s.Attached
  recorded : ∀ i t, s.timerfd i = some t → Recorded i t
  ids : s.thread.resets.map Reset.id = List.range s.thread.resets.length
  holds : ∀ r, s.thread.Holds r → s.Owned r
  reaches : ∀ token ∈ s.tokens, s.Reaches token
  counted : s.Counted
  timely : s.Timely

theorem Tracked.targeted (h : s.Tracked) : s.Targeted := ⟨h.attached, fun r hr => Or.inl (h.holds r hr), h.reaches⟩

theorem Moves.tracked (h : s.Tracked) (hk : keeps e = true) (hm : Moves capacity s e s') : s'.Tracked where
  attached := hm.attached h.attached
  recorded := hm.recorded h.recorded hk
  ids := hm.ids h.ids
  holds r hr := by
    have howned : s.Owned r := by
      rcases hm.holds h.attached hr with hr | howned
      · exact h.holds r hr
      · exact howned
    apply howned.step h.attached hm
    rintro rfl
    cases hk
  reaches token htoken := (hm.tokens h.targeted token htoken).step hm
  counted := hm.counted h.counted h.attached h.recorded h.ids h.holds hk
  timely := hm.timely h.timely

theorem init_tracked (clock : Timestamp) : (init clock).Tracked where
  attached := init_attached clock
  recorded i t ht := by cases ht
  ids := rfl
  holds r hr := by
    rcases hr with hr | hr <;> exact absurd hr List.not_mem_nil
  reaches token htoken := absurd htoken List.not_mem_nil
  counted := by
    constructor
    · intro r hr
      exact absurd hr List.not_mem_nil
    · intro i r hr
      cases hr
    · exact List.nodup_nil
    · intro i r hr
      cases hr
    · intro r hr
      exact absurd hr List.not_mem_nil
  timely := by
    constructor
    · intro now hnow
      cases hnow
    · intro r hr
      exact absurd hr List.not_mem_nil
    · intro token htoken
      exact absurd htoken List.not_mem_nil

def ExactlyOne (p q r : Prop) : Prop := (p ∧ ¬ q ∧ ¬ r) ∨ (¬ p ∧ q ∧ ¬ r) ∨ (¬ p ∧ ¬ q ∧ r)

theorem exactlyOne_mem {α : Type} {x : α} {as bs cs : List α} (h : (as ++ (bs ++ cs)).Nodup)
    (hx : x ∈ as ++ (bs ++ cs)) : ExactlyOne (x ∈ as) (x ∈ bs) (x ∈ cs) := by
  obtain ⟨_, hrest, hdisjoint⟩ := List.nodup_append'.mp h
  obtain ⟨_, _, hdisjoint'⟩ := List.nodup_append'.mp hrest
  rcases List.mem_append.mp hx with ha | hx
  · refine Or.inl ⟨ha, ?_⟩
    rw [← not_or, ← List.mem_append]
    exact hdisjoint ha
  · have hnot : x ∉ as := fun ha => hdisjoint ha hx
    rcases List.mem_append.mp hx with hb | hc
    · exact Or.inr (Or.inl ⟨hnot, hb, hdisjoint' hb⟩)
    · exact Or.inr (Or.inr ⟨hnot, fun hb => hdisjoint' hb hc, hc⟩)

structure Accounted (s : Timerfds) : Prop where
  onePerFd : (s.thread.timerSet.map Reset.writeFd).Nodup
  entry : ∀ i t, s.timerfd i = some t → t.resetting = none → ∀ r ∈ s.thread.timerSet, r.writeFd = t.writeFd →
    r.newTimestamp = t.expirationTs ∧ t.completed = some r
  latest : ∀ i t, s.timerfd i = some t → t.resetting = none → ∀ r, t.completed = some r →
    r.newTimestamp = t.expirationTs ∧ r.writeFd = t.writeFd ∧
      ExactlyOne (r ∈ s.thread.timerSet) (r ∈ s.thread.timerFunc.popped)
        (∃ token ∈ s.tokens, token.reset = r ∧ token.target = .writeEnd i)
  distinct : (s.tokens.map Token.reset).Nodup
  due : ∀ token ∈ s.tokens, token.reset ∈ s.thread.resets ∧ token.reset.newTimestamp ≤ token.writtenAt

theorem latest_completed (ht : s.timerfd i = some t) (hnone : t.resetting = none) : s.latest i = t.completed := by
  simp [latest, ht, hnone]

section Tracked

variable (h : s.Tracked)

include h

theorem Tracked.entry_unique {x y : Reset} (hx : x ∈ s.thread.timerSet) (hy : y ∈ s.thread.timerSet)
    (hfd : x.writeFd = y.writeFd) : x = y := by
  obtain ⟨_, t, ht, hxt⟩ := h.holds x (Or.inl hx)
  have hcaller := (h.attached.entry_caller ht (h.holds y (Or.inl hy))).mp (hfd.symm.trans hxt)
  have hlatest := h.counted.entries x hx
  rw [← hcaller, h.counted.entries y hy] at hlatest
  exact (Option.some.inj hlatest).symm

theorem Tracked.token_iff (hr : r.caller = i) :
    (∃ token ∈ s.tokens, token.reset = r ∧ token.target = .writeEnd i) ↔ r ∈ s.tokens.map Token.reset := by
  rw [List.mem_map]
  constructor
  · rintro ⟨token, htoken, hreset, _⟩
    exact ⟨token, htoken, hreset⟩
  · rintro ⟨token, htoken, hreset⟩
    refine ⟨token, htoken, hreset, ?_⟩
    rw [(h.reaches token htoken).target, hreset, hr]

theorem Tracked.accounted : s.Accounted := by
  obtain ⟨hset, hrest, _⟩ := List.nodup_append'.mp h.counted.nodup
  constructor
  · apply List.Nodup.map_on _ hset
    intro x hx y hy hfd
    exact h.entry_unique hx hy hfd
  · intro i t ht hnone r hr hfd
    have hcaller := (h.attached.entry_caller ht (h.holds r (Or.inl hr))).mp hfd
    have hcompleted : t.completed = some r := by
      rw [← latest_completed ht hnone, ← hcaller]
      exact h.counted.entries r hr
    exact ⟨((h.recorded i t ht).completed r hcompleted).2.2, hcompleted⟩
  · intro i t ht hnone r hcompleted
    obtain ⟨hcaller, hfd, htime⟩ := (h.recorded i t ht).completed r hcompleted
    refine ⟨htime, hfd, ?_⟩
    rw [h.token_iff hcaller]
    apply exactlyOne_mem h.counted.nodup
    apply h.counted.located i
    rw [latest_completed ht hnone, hcompleted]
  · exact (List.nodup_append'.mp hrest).2.1
  · intro token htoken
    exact ⟨(h.reaches token htoken).asked, h.timely.tokens token htoken⟩

end Tracked

theorem resets_accounted
    (h : Run (Guarded (Next (step capacity)) fun _ e => keeps e = true) (init clock) es s) : s.Accounted := by
  have htracked : s.Tracked := by
    apply h.invariant (I := Tracked)
    · rintro s e s' hs ⟨hn, hk⟩
      exact (moves_of_step hn).tracked hs hk
    · exact init_tracked clock
  exact htracked.accounted

def rearmedBetween : List TimerfdEvent :=
  firstToken.take 12 ++ [.reset 0 ⟨1000⟩, .thread (.lock 0), .thread (.write 0), .thread (.unlock 0), .returned 0,
    .thread .writeToken]

theorem resets_accounted_rearmed : ∃ s : Timerfds,
    Run (Guarded (Next (step 65536)) fun _ e => keeps e = true) (init ⟨0⟩) rearmedBetween s ∧
      (s.thread.timerSet.length, s.tokens.length) = (1, 1) ∧ s.Accounted := by
  have hexec : (exec (guardedStep (step 65536) fun _ e => keeps e) (init ⟨0⟩) rearmedBetween).map
      (fun s => (s.thread.timerSet.length, s.tokens.length)) = some (1, 1) := by decide +kernel
  obtain ⟨s, hrun, hend⟩ := run_of_exec_map _ hexec
  exact ⟨s, hrun.guarded, hend, resets_accounted hrun.guarded⟩

end Timerfds

end Penduo
