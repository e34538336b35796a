import Penduo.Library.Runs

set_option autoImplicit false

structure FifoQueue (α : Type*) where
  arrived : List α
  served : List α
  waiting : List α

namespace FifoQueue

open LabelledRuns

variable {α : Type*} {q q' : FifoQueue α}

inductive Action (α : Type*)
  | enqueue (a : α)
  | serve

inductive Step : FifoQueue α → Action α → FifoQueue α → Prop
  | enqueue (q : FifoQueue α) (a : α) :
      Step q (.enqueue a) { q with arrived := q.arrived ++ [a], waiting := q.waiting ++ [a] }
  | serve (q : FifoQueue α) (a : α) (rest : List α) (h : q.waiting = a :: rest) :
      Step q .serve { q with served := q.served ++ [a], waiting := rest }

def empty : FifoQueue α := ⟨[], [], []⟩

def Ordered (q : FifoQueue α) : Prop := q.served ++ q.waiting = q.arrived

theorem Step.ordered {e : Action α} (hq : q.Ordered) (h : Step q e q') : q'.Ordered := by
  cases h with
  | enqueue a =>
    simp only [Ordered] at hq ⊢
    rw [← hq, List.append_assoc]
  | serve a rest hw =>
    simp only [Ordered] at hq ⊢
    rw [← hq, hw, List.append_assoc]
    rfl

theorem run_ordered {es : List (Action α)} (h : Run Step empty es q) : q.Ordered :=
  h.invariant (fun _ _ _ hq hn => hn.ordered hq) rfl

theorem Ordered.served_prefix (h : q.Ordered) : q.served <+: q.arrived := ⟨q.waiting, h⟩

theorem Ordered.served_nodup (h : q.Ordered) (hn : q.arrived.Nodup) : q.served.Nodup :=
  hn.sublist h.served_prefix.sublist

end FifoQueue
