import Mathlib.Data.Int.Notation
import Mathlib.Data.Nat.Notation

set_option autoImplicit false

namespace Penduo

namespace Poll

def pollin : Int32 := 0x001
def pollpri : Int32 := 0x002
def pollout : Int32 := 0x004
def pollerr : Int32 := 0x008
def pollhup : Int32 := 0x010
def pollnval : Int32 := 0x020

end Poll

structure Channel where
  fd : ℕ
  events : Int32
  revents : Int32
  pollfdsIndex : ℤ
  eventHandling : Bool
  addedToLoop : Bool
deriving DecidableEq, Repr

namespace Channel

def kNoneEvent : Int32 := 0
def kReadEvent : Int32 := Poll.pollin ||| Poll.pollpri

-- `Channel::Channel`. A file descriptor that was opened is never negative.
def new (fd : ℕ) : Channel :=
  { fd, events := kNoneEvent, revents := kNoneEvent, pollfdsIndex := -1,
    eventHandling := false, addedToLoop := false }

abbrev isNoneEvent (ch : Channel) : Prop := ch.events = kNoneEvent

def EventMask (ev : Int32) : Prop := ev = kNoneEvent ∨ ev = kReadEvent

theorem EventMask.or_read {ev : Int32} (h : EventMask ev) : ev ||| kReadEvent = kReadEvent := by
  rcases h with h | h <;> rw [h] <;> decide

theorem EventMask.toInt16 {ev : Int32} (h : EventMask ev) : ev.toInt16.toInt32 = ev := by
  rcases h with h | h <;> rw [h] <;> decide

theorem kReadEvent_ne_none : kReadEvent ≠ kNoneEvent := by decide

end Channel

end Penduo
