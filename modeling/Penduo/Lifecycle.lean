import Mathlib.Data.List.Basic

set_option autoImplicit false

namespace Penduo

inductive StateE
  | connecting
  | connected
  | disConnected
deriving DecidableEq, Repr

inductive Observation
  | state (st : StateE)
  | connectionCallback (connected : Bool)
  | read (ret : Int64)
  | messageCallback
  | handleError
  | handleClose
  | queued
  | connectDestoryed
deriving DecidableEq, Repr

inductive Stage
  | outside
  | between
  | dispatch
  | pending
deriving DecidableEq, Repr

structure Stamp where
  iteration : ℕ
  stage : Stage
deriving DecidableEq, Repr

abbrev Mark := Observation × Stamp

/-! The life that a connection is meant to have. -/

inductive Life
  | absent
  | opened
  | closing (iteration : ℕ)
  | closed
deriving DecidableEq, Repr

namespace Life

def registered : Life → Bool
  | .opened | .closing _ => true
  | _ => false

def isClosing : Life → Bool
  | .closing _ => true
  | _ => false

def state : Life → StateE
  | .absent => .connecting
  | .opened | .closing _ => .connected
  | .closed => .disConnected

theorem isClosing_iff {life : Life} : life.isClosing = true ↔ ∃ n, life = .closing n := by
  cases life <;> simp [isClosing]

end Life

namespace Lifecycle

def up (i : Stamp) : List Mark :=
  [(.state .connecting, i), (.state .connected, i), (.connectionCallback true, i)]

def message (n : Int64) (i : Stamp) : List Mark := [(.read n, i), (.messageCallback, i)]

def down (i : Stamp) : List Mark := [(.read 0, i), (.handleClose, i), (.queued, i)]

def gone (i : Stamp) : List Mark :=
  [(.connectDestoryed, i), (.state .disConnected, i), (.connectionCallback false, i)]

end Lifecycle

open Lifecycle in
/-- Traces of one connection: up, messages, and a close that ends in the iteration it began in. -/
inductive Lifecycle : Life → List Mark → Prop
  | absent : Lifecycle .absent []
  | establish (i : Stamp) : Lifecycle .opened (up i)
  | receive {t : List Mark} (n : Int64) (i : Stamp) :
      Lifecycle .opened t → n ≠ 0 → Lifecycle .opened (t ++ message n i)
  | close {t : List Mark} (n : ℕ) :
      Lifecycle .opened t → Lifecycle (.closing n) (t ++ down ⟨n, .dispatch⟩)
  | destory {t : List Mark} (n : ℕ) :
      Lifecycle (.closing n) t → Lifecycle .closed (t ++ gone ⟨n, .pending⟩)

namespace Lifecycle

variable {life : Life} {t : List Mark} {n : ℕ}

def Messages (rounds : List Mark) : Prop :=
  ∀ m ∈ rounds, m.1 = .messageCallback ∨ ∃ n, n ≠ 0 ∧ m.1 = .read n

theorem absent_shape (h : Lifecycle .absent t) : t = [] := by
  cases h
  rfl

theorem opened_shape (h : Lifecycle .opened t) : ∃ i rounds, Messages rounds ∧ t = up i ++ rounds := by
  generalize hl : Life.opened = l at h
  induction h with
  | absent => simp at hl
  | establish i => exact ⟨i, [], by simp [Messages], by simp⟩
  | receive n i _ hn ih =>
    obtain ⟨j, rounds, hrounds, rfl⟩ := ih hl
    refine ⟨j, rounds ++ message n i, ?_, by simp⟩
    intro m hm
    rcases List.mem_append.mp hm with hm | hm
    · exact hrounds m hm
    · simp only [message, List.mem_cons, List.not_mem_nil, or_false] at hm
      rcases hm with rfl | rfl
      · exact Or.inr ⟨n, hn, rfl⟩
      · exact Or.inl rfl
  | close => simp at hl
  | destory => simp at hl

theorem opened_mem (h : Lifecycle .opened t) {o : Observation} {i : Stamp} (hmem : (o, i) ∈ t) :
    o ∈ [.state .connecting, .state .connected, .connectionCallback true, .messageCallback] ∨
      ∃ n, n ≠ 0 ∧ o = .read n := by
  obtain ⟨j, rounds, hrounds, rfl⟩ := h.opened_shape
  rcases List.mem_append.mp hmem with hmem | hmem
  · left
    simp only [up, List.mem_cons, Prod.mk.injEq, List.not_mem_nil, or_false] at hmem ⊢
    tauto
  · rcases hrounds _ hmem with hm | hread
    · exact Or.inl (by simp [show o = .messageCallback from hm])
    · exact Or.inr hread

theorem closing_shape (h : Lifecycle (.closing n) t) :
    ∃ i rounds, Messages rounds ∧ t = up i ++ rounds ++ down ⟨n, .dispatch⟩ := by
  cases h with
  | close _ h =>
    obtain ⟨i, rounds, hrounds, rfl⟩ := h.opened_shape
    exact ⟨i, rounds, hrounds, rfl⟩

theorem closed_shape (h : Lifecycle .closed t) :
    ∃ i rounds n, Messages rounds ∧ t = up i ++ rounds ++ down ⟨n, .dispatch⟩ ++ gone ⟨n, .pending⟩ := by
  cases h with
  | destory n h =>
    obtain ⟨i, rounds, hrounds, rfl⟩ := h.closing_shape
    exact ⟨i, rounds, n, hrounds, rfl⟩

theorem read_zero_iff (h : Lifecycle life t) :
    (∃ i, (Observation.read 0, i) ∈ t) ↔ life = .closed ∨ ∃ n, life = .closing n := by
  cases life with
  | absent =>
    cases h
    simp
  | opened =>
    have hno : ∀ i, (Observation.read 0, i) ∉ t := fun i hm => by simpa using h.opened_mem hm
    simpa using hno
  | closing n =>
    obtain ⟨i, rounds, _, rfl⟩ := h.closing_shape
    exact ⟨fun _ => Or.inr ⟨n, rfl⟩, fun _ => ⟨⟨n, .dispatch⟩, by simp [down]⟩⟩
  | closed =>
    obtain ⟨i, rounds, n, _, rfl⟩ := h.closed_shape
    exact ⟨fun _ => Or.inl rfl, fun _ => ⟨⟨n, .dispatch⟩, by simp [down]⟩⟩

theorem closed_destoryed (h : Lifecycle .closed t) : ∃ i, (Observation.connectDestoryed, i) ∈ t := by
  obtain ⟨j, rounds, n, _, rfl⟩ := h.closed_shape
  exact ⟨⟨n, .pending⟩, by simp [gone]⟩

theorem closed_ran {i : Stamp} (h : Lifecycle .closed t) (hmem : (Observation.queued, i) ∈ t) :
    (Observation.connectDestoryed, ⟨i.iteration, .pending⟩) ∈ t := by
  cases h with
  | destory n h =>
    cases h with
    | close _ h =>
      have hopened : (Observation.queued, i) ∉ _ := fun hm => by simpa using h.opened_mem hm
      have hi : i = ⟨n, .dispatch⟩ := by simpa [hopened, down, gone] using hmem
      rw [hi]
      simp [gone]

end Lifecycle

section Orderly

def Observation.state? : Observation → Option StateE
  | .state st => some st
  | _ => none

def Observation.connectionCallback? : Observation → Option Bool
  | .connectionCallback connected => some connected
  | _ => none

def states (t : List Mark) : List StateE := t.filterMap fun m => m.1.state?

def connectionCallbacks (t : List Mark) : List Bool := t.filterMap fun m => m.1.connectionCallback?

structure Orderly (t : List Mark) : Prop where
  states : states t <+: [.connecting, .connected, .disConnected]
  callbacks : connectionCallbacks t <+: [true, false]
  established : t ≠ [] → true ∈ connectionCallbacks t
  messages : ∀ before i after, t = before ++ (.messageCallback, i) :: after → connectionCallbacks before = [true]
  closes : ∀ before i after, t = before ++ (.handleClose, i) :: after →
    i.stage = .dispatch ∧
      (after = [(.queued, i)] ∨ after = (.queued, i) :: Lifecycle.gone ⟨i.iteration, .pending⟩)
  queued : (t.map Prod.fst).count .queued = (t.map Prod.fst).count .handleClose

open Lifecycle

variable {life : Life} {t rounds : List Mark} {i : Stamp} {n : ℕ}

theorem states_append (t t' : List Mark) : states (t ++ t') = states t ++ states t' := List.filterMap_append

theorem connectionCallbacks_append (t t' : List Mark) :
    connectionCallbacks (t ++ t') = connectionCallbacks t ++ connectionCallbacks t' := List.filterMap_append

theorem Lifecycle.Messages.states (h : Messages rounds) : states rounds = [] := by
  apply List.filterMap_eq_nil_iff.mpr
  intro m hm
  rcases h m hm with hm | ⟨n, _, hm⟩ <;> rw [hm] <;> rfl

theorem Lifecycle.Messages.connectionCallbacks (h : Messages rounds) : connectionCallbacks rounds = [] := by
  apply List.filterMap_eq_nil_iff.mpr
  intro m hm
  rcases h m hm with hm | ⟨n, _, hm⟩ <;> rw [hm] <;> rfl

theorem Lifecycle.Messages.count (h : Messages rounds) {o : Observation} (ho : o ≠ .messageCallback)
    (hr : ∀ n, o ≠ .read n) : (rounds.map Prod.fst).count o = 0 := by
  apply List.count_eq_zero.mpr
  intro hmem
  obtain ⟨m, hm, rfl⟩ := List.mem_map.mp hmem
  rcases h m hm with hm | ⟨n, _, hm⟩
  · exact ho hm
  · exact hr n hm

theorem append_cons_middle {α : Type} {a m c before after : List α} {x : α}
    (h : a ++ m ++ c = before ++ x :: after) (ha : x ∉ a) (hc : x ∉ c) :
    ∃ r s, m = r ++ x :: s ∧ before = a ++ r ∧ after = s ++ c := by
  rcases List.append_eq_append_iff.mp h with ⟨_, _, hsplit⟩ | ⟨front, hsplit, hx⟩
  · exact absurd (by simp [hsplit]) hc
  · cases front with
    | nil => exact absurd (by simp [← show x :: after = c from hx]) hc
    | cons y s =>
      obtain ⟨rfl, rfl⟩ : x = y ∧ after = s ++ c := by simpa using hx
      rcases List.append_eq_append_iff.mp hsplit with ⟨r, hbefore, hm⟩ | ⟨back, hback, hx'⟩
      · exact ⟨r, s, hm, hbefore, rfl⟩
      · cases back with
        | nil => exact ⟨[], s, by simpa using hx'.symm, by simpa using hback.symm, rfl⟩
        | cons z back =>
          obtain ⟨rfl, _⟩ : x = z ∧ s = back ++ m := by simpa using hx'
          exact absurd (by simp [hback]) ha

theorem orderly_of_shape {tail : List Mark} (hrounds : Messages rounds)
    (hstates : states tail <+: [.disConnected]) (hcallbacks : connectionCallbacks tail <+: [false])
    (hmessage : ∀ i, (Observation.messageCallback, i) ∉ tail)
    (hcloses : ∀ before i after, tail = before ++ (.handleClose, i) :: after → i.stage = .dispatch ∧
      (after = [(.queued, i)] ∨ after = (.queued, i) :: gone ⟨i.iteration, .pending⟩))
    (hqueued : (tail.map Prod.fst).count .queued = (tail.map Prod.fst).count .handleClose) :
    Orderly (up i ++ rounds ++ tail) where
  states := by
    rw [states_append, states_append, hrounds.states]
    exact List.prefix_append_right_inj [.connecting, .connected] |>.mpr hstates
  callbacks := by
    rw [connectionCallbacks_append, connectionCallbacks_append, hrounds.connectionCallbacks]
    exact List.prefix_append_right_inj [true] |>.mpr hcallbacks
  established _ := by
    rw [connectionCallbacks_append, connectionCallbacks_append]
    exact List.mem_append_left _ (List.mem_append_left _ (List.mem_singleton_self true))
  messages before j after h := by
    obtain ⟨r, s, rfl, rfl, _⟩ := append_cons_middle h (by simp [up]) (hmessage j)
    have hr : Messages r := fun m hm => hrounds m (List.mem_append_left _ hm)
    rw [connectionCallbacks_append, hr.connectionCallbacks]
    rfl
  closes before j after h := by
    have hnot : (Observation.handleClose, j) ∉ up i ++ rounds := by
      intro hmem
      rcases List.mem_append.mp hmem with hmem | hmem
      · simp [up] at hmem
      · rcases hrounds _ hmem with hm | ⟨n, _, hm⟩ <;> simp at hm
    obtain ⟨r, s, htail, _, hafter⟩ := append_cons_middle (c := []) (by simpa using h) hnot (by simp)
    rw [hafter, List.append_nil]
    exact hcloses r j s htail
  queued := by
    rw [List.map_append, List.map_append, List.count_append, List.count_append, List.count_append, List.count_append,
      hrounds.count (by simp) (by simp), hrounds.count (by simp) (by simp), hqueued]
    rfl

theorem down_closes {before after : List Mark} {j : Stamp} (tail : List Mark)
    (h : down ⟨n, .dispatch⟩ ++ tail = before ++ (.handleClose, j) :: after)
    (htail : (Observation.handleClose, j) ∉ tail) : j = ⟨n, .dispatch⟩ ∧ after = (.queued, j) :: tail := by
  obtain ⟨r, s, hdown, _, hafter⟩ := append_cons_middle (a := []) (by simpa using h) (by simp) htail
  cases r with
  | nil => simp [down] at hdown
  | cons m r =>
    cases r with
    | nil =>
      simp only [down, List.cons_append, List.nil_append, List.cons.injEq, Prod.mk.injEq, true_and] at hdown
      obtain ⟨_, rfl, rfl⟩ := hdown
      exact ⟨rfl, hafter⟩
    | cons m' r =>
      simp only [down, List.cons_append, List.cons.injEq] at hdown
      obtain ⟨_, _, hdown⟩ := hdown
      cases r <;> simp at hdown

theorem Lifecycle.orderly (h : Lifecycle life t) : Orderly t := by
  cases life with
  | absent =>
    obtain rfl := h.absent_shape
    constructor <;> simp [Penduo.states, Penduo.connectionCallbacks]
  | opened =>
    obtain ⟨i, rounds, hrounds, rfl⟩ := h.opened_shape
    rw [← List.append_nil (up i ++ rounds)]
    apply orderly_of_shape hrounds <;> simp [Penduo.states, Penduo.connectionCallbacks]
  | closing n =>
    obtain ⟨i, rounds, hrounds, rfl⟩ := h.closing_shape
    apply orderly_of_shape hrounds
    · exact List.nil_prefix
    · exact List.nil_prefix
    · simp [down]
    · intro before j after hsplit
      obtain ⟨rfl, hafter⟩ := down_closes [] (by simpa using hsplit) (by simp)
      exact ⟨rfl, Or.inl hafter⟩
    · rfl
  | closed =>
    obtain ⟨i, rounds, n, hrounds, rfl⟩ := h.closed_shape
    rw [List.append_assoc]
    apply orderly_of_shape hrounds
    · exact List.prefix_rfl
    · exact List.prefix_rfl
    · simp [down, gone]
    · intro before j after hsplit
      obtain ⟨rfl, hafter⟩ := down_closes _ hsplit (by simp [gone])
      exact ⟨rfl, Or.inr hafter⟩
    · rfl

theorem Lifecycle.getLast_states (h : Lifecycle life t) (hlife : life ≠ .absent) :
    (Penduo.states t).getLast? = some life.state := by
  cases life with
  | absent => exact absurd rfl hlife
  | opened =>
    obtain ⟨i, rounds, hrounds, rfl⟩ := h.opened_shape
    rw [states_append, hrounds.states]
    rfl
  | closing n =>
    obtain ⟨i, rounds, hrounds, rfl⟩ := h.closing_shape
    rw [states_append, states_append, hrounds.states]
    rfl
  | closed =>
    obtain ⟨i, rounds, n, hrounds, rfl⟩ := h.closed_shape
    rw [states_append, states_append, states_append, hrounds.states]
    rfl

end Orderly

end Penduo
