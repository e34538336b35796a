import Mathlib.Data.Int.Bitwise
import Penduo.Assertions
import Penduo.Channel
import Penduo.Library.BackReferences
import Penduo.Library.FiniteMap

set_option autoImplicit false

namespace Penduo

open BackReferences

structure PollFd where
  fd : ℤ
  events : Int16
  revents : Int16
deriving DecidableEq, Repr

/-- The tables of a `Poller` and the `Channel` objects that its pointers lead to. -/
@[ext]
structure Poller (κ : Type) where
  pollfds : List PollFd
  channels : FiniteMap ℤ κ
  channel : κ → Channel

structure PollResult where
  ret : ℤ
  revents : ℕ → Int16

namespace Poller

variable {κ : Type} [DecidableEq κ]

def new (fd : κ → ℕ) : Poller κ :=
  { pollfds := [], channels := ∅, channel := fun c => Channel.new (fd c) }

def setChannel (p : Poller κ) (c : κ) (ch : Channel) : Poller κ :=
  { p with channel := Function.update p.channel c ch }

def fillActiveChannels (b : Build) : Poller κ → List PollFd → ℤ → List κ → Except Fault (Poller κ × List κ)
  | p, [], _, active => pure (p, active)
  | p, pfd :: rest, numEvents, active => do
    let (p, numEvents, active) ← if 0 < pfd.revents then do
        b.check .fillCount (pfd.fd ∈ p.channels)
        let c ← require .outOfRange (p.channels.find pfd.fd)
        b.check .fillFd ((p.channel c).fd = pfd.fd)
        pure (p.setChannel c { p.channel c with revents := pfd.revents.toInt32 },
          numEvents - 1, active ++ [c])
      else pure (p, numEvents, active)
    if numEvents = 0 then pure (p, active) else fillActiveChannels b p rest numEvents active

def poll (b : Build) (p : Poller κ) (r : PollResult) (active : List κ) : Except Fault (Poller κ × List κ) :=
  if r.ret < 0 then pure (p, active)
  else
    let pollfds := p.pollfds.mapIdx fun i pfd => { pfd with revents := r.revents i }
    let p := { p with pollfds }
    if 0 < r.ret then fillActiveChannels b p pollfds r.ret active else pure (p, active)

def updateChannel (b : Build) (p : Poller κ) (c : κ) : Except Fault (Poller κ) := do
  let ch := p.channel c
  if ch.pollfdsIndex < 0 then
    b.check .updateAbsent ((ch.fd : ℤ) ∉ p.channels)
    let pfd : PollFd := ⟨ch.fd, ch.events.toInt16, 0⟩
    let pollfds := p.pollfds ++ [pfd]
    let idx : ℤ := pollfds.length - 1
    pure { pollfds, channels := p.channels.insertNew ch.fd c,
           channel := Function.update p.channel c { ch with pollfdsIndex := idx } }
  else
    b.check .updatePresent ((ch.fd : ℤ) ∈ p.channels)
    b.check .updateSame (p.channels.find ch.fd = some c)
    let idx := ch.pollfdsIndex
    b.check .updateIndex (0 ≤ idx ∧ idx < p.pollfds.length)
    let pfd ← require .undefinedBehaviour p.pollfds[idx.toNat]?
    b.check .updateFd (pfd.fd = ch.fd ∨ pfd.fd = ~~~(ch.fd : ℤ))
    let fd : ℤ := if ch.isNoneEvent then ~~~(ch.fd : ℤ) else ch.fd
    pure { p with pollfds := p.pollfds.set idx.toNat ⟨fd, ch.events.toInt16, 0⟩ }

def renumberMoved (b : Build) (p : Poller κ) (idx : ℤ) : Except Fault (Poller κ) := do
  let moved ← require .undefinedBehaviour p.pollfds[idx.toNat]?
  let updateFd := if moved.fd < 0 then ~~~moved.fd else moved.fd
  b.check .removeMoved (updateFd ∈ p.channels)
  let m ← require .outOfRange (p.channels.find updateFd)
  pure (p.setChannel m { p.channel m with pollfdsIndex := idx })

def removeChannel (b : Build) (p : Poller κ) (c : κ) : Except Fault (Poller κ) := do
  let ch := p.channel c
  b.check .removePresent ((ch.fd : ℤ) ∈ p.channels)
  b.check .removeSame (p.channels.find ch.fd = some c)
  b.check .removeNoneEvent ch.isNoneEvent
  let idx := ch.pollfdsIndex
  b.check .removeIndex (0 ≤ idx ∧ idx < p.pollfds.length)
  -- an index the assertion would have refused is an access outside the vector
  let pfd ← require .undefinedBehaviour (if idx < 0 then none else p.pollfds[idx.toNat]?)
  b.check .removeEntry (pfd.fd = ~~~(ch.fd : ℤ) ∧ pfd.events.toInt32 = ch.events)
  let channels ← b.checkEffect .removeErased p.channels
    (fun m => (if (ch.fd : ℤ) ∈ m then 1 else 0, m.erase ch.fd)) 1
  let p := { p with channels }
  let p ← if idx ≠ p.pollfds.length - 1 then
      renumberMoved b { p with pollfds := swapBack p.pollfds idx.toNat } idx
    else pure p
  pure { p with pollfds := p.pollfds.dropLast }

end Poller

/-! `Channel`'s public operations, which reach the Poller through `EventLoop`. -/

namespace Channel

variable {κ : Type} [DecidableEq κ]

def update (b : Build) (p : Poller κ) (c : κ) : Except Fault (Poller κ) := do
  let p ← p.updateChannel b c
  pure (p.setChannel c { p.channel c with addedToLoop := true })

def enableReading (b : Build) (p : Poller κ) (c : κ) : Except Fault (Poller κ) :=
  update b (p.setChannel c { p.channel c with events := (p.channel c).events ||| kReadEvent }) c

def disableAll (b : Build) (p : Poller κ) (c : κ) : Except Fault (Poller κ) :=
  update b (p.setChannel c { p.channel c with events := kNoneEvent }) c

def remove (b : Build) (p : Poller κ) (c : κ) : Except Fault (Poller κ) := do
  b.check .channelNoneEvent (p.channel c).isNoneEvent
  b.check .channelAdded ((p.channel c).addedToLoop = true)
  (p.setChannel c { p.channel c with addedToLoop := false }).removeChannel b c

def destroy (b : Build) (ch : Channel) : Except Fault Unit := do
  b.check .destroyHandling (ch.eventHandling = false)
  b.check .destroyAdded (ch.addedToLoop = false)
  b.check .destroyNoneEvent ch.isNoneEvent

end Channel

end Penduo
