import Penduo.Library.Runs
import Penduo.PollerTable

set_option autoImplicit false
set_option linter.unusedSectionVars false

namespace Penduo

open LabelledRuns BackReferences

namespace Poller

variable {κ : Type} [DecidableEq κ] {p p' : Poller κ}

inductive ChannelCall (κ : Type)
  | enableReading (c : κ)
  | disableAll (c : κ)
  | remove (c : κ)
deriving DecidableEq, Repr

def ChannelCall.run (b : Build) (p : Poller κ) : ChannelCall κ → Except Fault (Poller κ)
  | .enableReading c => Channel.enableReading b p c
  | .disableAll c => Channel.disableAll b p c
  | .remove c => Channel.remove b p c

def CallStep (p : Poller κ) (call : ChannelCall κ) (p' : Poller κ) : Prop := call.run .debug p = .ok p'

theorem new_wellFormed (fd : κ → ℕ) : (Poller.new fd).WellFormed where
  key fd c hf := by simp [Poller.new] at hf
  size := rfl
  index c hc := by simp [Registered, Poller.new] at hc
  slots := Indexed.empty fun c hc => by simp [Registered, Poller.new] at hc
  added c := by simp [Poller.new, Channel.new, Registered]
  events c := Or.inl rfl

theorem CallStep.wellFormed {call : ChannelCall κ} (h : p.WellFormed) (hstep : CallStep p call p') :
    p'.WellFormed := by
  cases call with
  | enableReading c =>
    rw [CallStep, ChannelCall.run, enableReading_eq] at hstep
    exact setEvents_wellFormed h (Or.inr (h.events c).or_read) hstep
  | disableAll c =>
    rw [CallStep, ChannelCall.run, disableAll_eq] at hstep
    exact setEvents_wellFormed h (Or.inl rfl) hstep
  | remove c =>
    obtain ⟨hr, rfl⟩ := (remove_eq_ok h).mp hstep
    exact unregister_wellFormed h hr.registered

theorem calls_wellFormed {fd : κ → ℕ} {calls : List (ChannelCall κ)}
    (h : Run CallStep (Poller.new fd) calls p) : p.WellFormed :=
  h.invariant (fun _ _ _ hp hn => hn.wellFormed hp) (new_wellFormed fd)

structure Consistent (p : Poller κ) : Prop where
  size : p.pollfds.length = p.channels.size
  entry : ∀ fd c, p.channels.find fd = some c →
    ((p.channel c).fd : ℤ) = fd ∧ 0 ≤ (p.channel c).pollfdsIndex ∧
      (p.channel c).pollfdsIndex < p.pollfds.length ∧
      ∃ pfd, p.pollfds[(p.channel c).pollfdsIndex.toNat]? = some pfd ∧
        (pfd.fd = fd ∨ pfd.fd = ~~~fd ∧ (p.channel c).isNoneEvent) ∧
        pfd.events.toInt32 = (p.channel c).events
  distinct : ∀ fd c fd' d, p.channels.find fd = some c → p.channels.find fd' = some d → c ≠ d →
    (p.channel c).pollfdsIndex ≠ (p.channel d).pollfdsIndex
  added : ∀ c, (p.channel c).addedToLoop = true ↔ ∃ fd, p.channels.find fd = some c

theorem WellFormed.consistent (h : p.WellFormed) : p.Consistent where
  size := h.size
  entry fd c hf := by
    obtain ⟨hc, rfl⟩ := (h.find_iff fd c).mp hf
    obtain ⟨pfd, hpfd, hentry⟩ := h.slots.slot c hc
    have hlt := h.slots.lt hc
    have hidx := h.index_eq hc
    exact ⟨rfl, h.index c hc, by omega, pfd, hpfd, hentry.1, hentry.2⟩
  distinct fd c fd' d hf hf' hcd heq := by
    have hc := ((h.find_iff fd c).mp hf).1
    have hd := ((h.find_iff fd' d).mp hf').1
    exact hcd (h.slots.injective c d hc hd (by rw [slotIndex, slotIndex, heq]))
  added c := by
    rw [h.added c]
    constructor
    · intro hc
      exact ⟨_, hc⟩
    · rintro ⟨fd, hf⟩
      exact ((h.find_iff fd c).mp hf).1

def SameEntry (p p' : Poller κ) (d : κ) : Prop :=
  ∃ pfd pfd', p.pollfds[(p.channel d).pollfdsIndex.toNat]? = some pfd ∧
    p'.pollfds[(p'.channel d).pollfdsIndex.toNat]? = some pfd' ∧ pfd'.fd = pfd.fd ∧ pfd'.events = pfd.events

theorem remove_sameEntry {c d : κ} (h : p.WellFormed) (hok : Channel.remove .debug p c = .ok p')
    (hd : p.Registered d) (hdc : d ≠ c) : SameEntry p p' d := by
  obtain ⟨hr, rfl⟩ := (remove_eq_ok h).mp hok
  obtain ⟨pfd, hpfd, _⟩ := h.slots.slot d hd
  exact ⟨pfd, pfd, hpfd, (unregister_entry h hr.registered hd hdc).trans hpfd, rfl, rfl⟩

/-- Whatever calls are made on whatever channels, the three structures stay one table, and a
remove touches no other channel's entry. -/
theorem channelCalls_consistent {fd : κ → ℕ} {calls : List (ChannelCall κ)}
    (h : Run CallStep (Poller.new fd) calls p) :
    p.Consistent ∧ ∀ c p', Channel.remove .debug p c = .ok p' →
      ∀ fd d, p.channels.find fd = some d → d ≠ c → SameEntry p p' d := by
  have hwf := calls_wellFormed h
  refine ⟨hwf.consistent, fun c p' hok fd d hf hdc => ?_⟩
  exact remove_sameEntry hwf hok ((hwf.find_iff fd d).mp hf).1 hdc

def callStep? (p : Poller κ) (call : ChannelCall κ) : Option (Poller κ) := (call.run .debug p).toOption

theorem callStep_of_next {call : ChannelCall κ} (h : Next callStep? p call p') : CallStep p call p' := by
  simp only [Next, callStep?] at h
  unfold CallStep
  cases hrun : call.run .debug p with
  | error f => simp [hrun, Except.toOption] at h
  | ok q => simpa [hrun, Except.toOption] using h

def threeCalls : List (ChannelCall ℕ) :=
  [.enableReading 0, .enableReading 1, .enableReading 2, .disableAll 0, .disableAll 2, .remove 0]

theorem channelCalls_consistent_three :
    ∃ p : Poller ℕ, Run CallStep (Poller.new (· + 10)) threeCalls p ∧
      (p.Consistent ∧ ∀ c p', Channel.remove .debug p c = .ok p' →
        ∀ fd d, p.channels.find fd = some d → d ≠ c → SameEntry p p' d) := by
  have hrun : ∃ p, Run (Next callStep?) (Poller.new (· + 10)) threeCalls p ∧ p.pollfds.length = 2 :=
    run_of_exec_map (fun p : Poller ℕ => p.pollfds.length) (by decide)
  obtain ⟨p, hrun, _⟩ := hrun
  have h := hrun.mono fun _ _ _ hn => callStep_of_next hn
  exact ⟨p, h, channelCalls_consistent h⟩

end Poller

end Penduo
