import Penduo.ChannelReuse
import Penduo.PollCompleteness
import Penduo.TcpServer

set_option autoImplicit false
set_option linter.unusedSectionVars false

namespace Penduo

open LabelledRuns

structure Handlers (κ : Type) where
  read : Option (List (Poller.ChannelCall κ))
  write : Option (List (Poller.ChannelCall κ))
  error : Option (List (Poller.ChannelCall κ))
  close : Option (List (Poller.ChannelCall κ))

def Handlers.calls {κ : Type} (h : Handlers κ) (revents : Int32) : List (Poller.ChannelCall κ) :=
  (if revents &&& Poll.pollhup ≠ 0 ∧ revents &&& Poll.pollin = 0 then h.close.getD [] else []) ++
    (if revents &&& (Poll.pollerr ||| Poll.pollnval) ≠ 0 then h.error.getD [] else []) ++
    (if revents &&& (Poll.pollin ||| Poll.pollpri) ≠ 0 then h.read.getD [] else []) ++
    (if revents &&& Poll.pollout ≠ 0 then h.write.getD [] else [])

namespace Poller

variable {κ : Type} [DecidableEq κ] {p p' q : Poller κ} {c d : κ} {call : ChannelCall κ}
  {calls more : List (ChannelCall κ)} {b : Build}

def makeCalls (b : Build) (p : Poller κ) (calls : List (ChannelCall κ)) : Except Fault (Poller κ) :=
  calls.foldlM (ChannelCall.run b) p

def callbacks (b : Build) (h : Handlers κ) : Callbacks (Poller κ) :=
  { read := h.read.map fun calls p => makeCalls b p calls
    write := h.write.map fun calls p => makeCalls b p calls
    error := h.error.map fun calls p => makeCalls b p calls
    close := h.close.map fun calls p => makeCalls b p calls }

def handleEvent (b : Build) (p : Poller κ) (c : κ) (h : Handlers κ) : Except Fault (Poller κ) := do
  let p := p.setChannel c { p.channel c with eventHandling := true }
  let p ← Channel.handleEvents (callbacks b h) (p.channel c).revents p
  pure (p.setChannel c { p.channel c with eventHandling := false })

/-- The `for` of `EventLoop::loop`: the `handle_event` calls it makes, each with the state it finds. -/
def dispatch (b : Build) (handlers : κ → Handlers κ) : Poller κ → List κ → List (κ × Poller κ)
  | _, [] => []
  | p, c :: rest => (c, p) :: match handleEvent b p c (handlers c) with
    | .ok p => dispatch b handlers p rest
    | .error _ => []

def handleAll (b : Build) (handlers : κ → Handlers κ) (p : Poller κ) (cs : List κ) : Except Fault (Poller κ) :=
  cs.foldlM (fun p c => handleEvent b p c (handlers c)) p

theorem mem_dispatch {handlers : κ → Handlers κ} {active : List κ} {x : κ × Poller κ} :
    x ∈ dispatch b handlers p active ↔
      ∃ before after, active = before ++ x.1 :: after ∧ handleAll b handlers p before = .ok x.2 := by
  induction active generalizing p with
  | nil => simp [dispatch]
  | cons c rest ih =>
    rw [dispatch, List.mem_cons]
    constructor
    · rintro (rfl | hx)
      · exact ⟨[], rest, rfl, rfl⟩
      · cases hok : handleEvent b p c (handlers c) with
        | error f => simp [hok] at hx
        | ok q =>
          rw [hok] at hx
          obtain ⟨before, after, rfl, hall⟩ := ih.mp hx
          exact ⟨c :: before, after, rfl, by simpa [handleAll, hok] using hall⟩
    · rintro ⟨before, after, hactive, hall⟩
      cases before with
      | nil =>
        left
        obtain ⟨rfl, _⟩ : c = x.1 ∧ rest = after := by simpa using hactive
        exact Prod.ext rfl (Except.ok.inj hall).symm
      | cons d before =>
        right
        obtain ⟨rfl, rfl⟩ : c = d ∧ rest = before ++ x.1 :: after := by simpa using hactive
        simp only [handleAll, List.foldlM_cons, bind_eq_ok] at hall
        obtain ⟨q, hok, hall⟩ := hall
        rw [hok]
        exact ih.mpr ⟨before, after, rfl, hall⟩

theorem makeCalls_append (p : Poller κ) (calls more : List (ChannelCall κ)) :
    makeCalls b p (calls ++ more) = makeCalls b p calls >>= fun p => makeCalls b p more :=
  List.foldlM_append

theorem callIfSet_makeCalls (calls : Option (List (ChannelCall κ))) (p : Poller κ) :
    callIfSet (calls.map fun calls p => makeCalls b p calls) p = makeCalls b p (calls.getD []) := by
  cases calls <;> rfl

theorem makeCalls_ite (t : Prop) [Decidable t] (p : Poller κ) (calls : List (ChannelCall κ)) :
    (if t then makeCalls b p calls else pure p) = makeCalls b p (if t then calls else []) := by
  split_ifs <;> rfl

theorem makeCalls_ite_bind (t : Prop) [Decidable t] (p : Poller κ) (calls : List (ChannelCall κ))
    (f : Poller κ → Except Fault (Poller κ)) :
    (if t then makeCalls b p calls >>= f else pure p >>= f) = makeCalls b p (if t then calls else []) >>= f := by
  split_ifs <;> rfl

theorem handleEvents_callbacks (h : Handlers κ) (revents : Int32) (p : Poller κ) :
    Channel.handleEvents (callbacks b h) revents p = makeCalls b p (h.calls revents) := by
  simp only [Channel.handleEvents, callbacks, callIfSet_makeCalls, makeCalls_ite, makeCalls_ite_bind,
    Handlers.calls, makeCalls_append, bind_assoc]

section Tracks

def lastCall (c : κ) (calls : List (ChannelCall κ)) : Option (ChannelCall κ) :=
  (calls.filter fun call => call.target = c).getLast?

/-- After `calls`, made while `c` was registered in `p`, there is something to be dispatched on `c`. -/
def Awaited (p : Poller κ) (c : κ) (calls : List (ChannelCall κ)) : Prop :=
  match lastCall c calls with
  | none => ¬ (p.channel c).isNoneEvent
  | some (.enableReading _) => True
  | some _ => False

def Live (p : Poller κ) (c : κ) : Prop := p.Registered c ∧ ¬ (p.channel c).isNoneEvent

structure Tracks (p : Poller κ) (c : κ) (calls : List (ChannelCall κ)) (q : Poller κ) : Prop where
  wellFormed : q.WellFormed
  known : q.Registered c ∨ q.Stale c
  live : q.Live c ↔ p.Awaited c calls
  revents : ∀ d, (q.channel d).revents = (p.channel d).revents

theorem Tracks.refl (h : p.WellFormed) (hc : p.Registered c) : p.Tracks c [] p :=
  ⟨h, Or.inl hc, by simp [Live, hc, Awaited, lastCall], fun _ => rfl⟩

theorem lastCall_snoc_of_ne (h : call.target ≠ c) : lastCall c (calls ++ [call]) = lastCall c calls := by
  simp [lastCall, h]

theorem lastCall_snoc_self (calls : List (ChannelCall κ)) (call : ChannelCall κ) :
    lastCall call.target (calls ++ [call]) = some call := by
  simp [lastCall]

theorem CallStep.revents (h : p.WellFormed) (hstep : CallStep p call p') (d : κ) :
    (p'.channel d).revents = (p.channel d).revents := by
  rcases hstep.cases h with ⟨_, _, _, rfl⟩ | ⟨_, _, rfl⟩ | ⟨_, _, rfl⟩
  · by_cases hd : d = call.target <;> simp [append, hd]
  · by_cases hd : d = call.target <;> simp [rewrite, hd]
  · simp only [unregister]
    split_ifs with hd
    · rw [hd]
    · rfl
    · rfl

theorem CallStep.live_other (h : p.WellFormed) (hstep : CallStep p call p') (hc : c ≠ call.target) :
    p'.Live c ↔ p.Live c := by
  rcases hstep.cases h with ⟨_, _, hfd, rfl⟩ | ⟨_, _, rfl⟩ | ⟨_, hr, rfl⟩
  · simp [Live, append_registered hfd, append_events, hc]
  · simp [Live, rewrite_registered, rewrite_events, hc]
  · simp [Live, unregister_registered hr.registered, unregister_events, hc]

theorem ChannelCall.events_iff (call : ChannelCall κ) :
    call.events ≠ Channel.kNoneEvent ↔ call = .enableReading call.target := by
  cases call <;> simp [ChannelCall.events, ChannelCall.target, Channel.kReadEvent_ne_none]

theorem CallStep.live_self (h : p.WellFormed) (hstep : CallStep p call p') :
    p'.Live call.target ↔ call = .enableReading call.target := by
  rcases hstep.cases h with ⟨_, _, hfd, rfl⟩ | ⟨_, hc, rfl⟩ | ⟨hremove, hr, rfl⟩
  · rw [← call.events_iff, Live, append_registered hfd, Channel.isNoneEvent, append_events, if_pos rfl]
    simp
  · rw [← call.events_iff, Live, rewrite_registered, Channel.isNoneEvent, rewrite_events, if_pos rfl]
    simp [hc]
  · have hnot : call ≠ .enableReading call.target := by
      intro he
      exact absurd (he.symm.trans hremove) (by simp)
    simp [Live, unregister_registered hr.registered, hnot]

theorem Tracks.snoc (h : p.Tracks c calls q) (hstep : CallStep q call p') : p.Tracks c (calls ++ [call]) p' where
  wellFormed := hstep.wellFormed h.wellFormed
  known := by
    rcases h.known with hc | hs
    · by_cases hne : c = call.target
      · rcases hstep.cases h.wellFormed with ⟨_, hidx, _⟩ | ⟨_, hc, rfl⟩ | ⟨hremove, hr, rfl⟩
        · subst hne
          have := h.wellFormed.index _ hc
          omega
        · left
          rw [rewrite_registered, hne]
          exact hc
        · right
          rw [hne]
          rw [hremove] at hstep
          exact stale_of_remove h.wellFormed hstep
      · left
        rcases hstep.cases h.wellFormed with ⟨_, _, hfd, rfl⟩ | ⟨_, _, rfl⟩ | ⟨_, hr, rfl⟩
        · exact (append_registered hfd c).mpr (Or.inr hc)
        · exact (rewrite_registered c).mpr hc
        · exact (unregister_registered hr.registered c).mpr ⟨hc, hne⟩
    · exact Or.inr (hs.callStep h.wellFormed hstep)
  live := by
    by_cases hne : c = call.target
    · subst hne
      rw [hstep.live_self h.wellFormed, Awaited, lastCall_snoc_self]
      cases call <;> simp [ChannelCall.target]
    · rw [hstep.live_other h.wellFormed hne, h.live, Awaited, Awaited, lastCall_snoc_of_ne (Ne.symm hne)]
  revents d := (hstep.revents h.wellFormed d).trans (h.revents d)

theorem Tracks.makeCalls (h : p.Tracks c calls q) (hok : q.makeCalls .debug more = .ok p') :
    p.Tracks c (calls ++ more) p' := by
  induction more generalizing q calls with
  | nil =>
    obtain rfl : q = p' := Except.ok.inj hok
    rwa [List.append_nil]
  | cons call more ih =>
    simp only [Poller.makeCalls, List.foldlM_cons, bind_eq_ok] at hok
    obtain ⟨v, hstep, hok⟩ := hok
    rw [List.append_cons]
    exact ih (h.snoc hstep) hok

theorem Tracks.setEventHandling (h : p.Tracks c calls q) (d : κ) (handling : Bool) :
    p.Tracks c calls (q.setChannel d { q.channel d with eventHandling := handling }) := by
  have hsame := sameTable_setChannel q d (q.channel d).revents handling
  constructor
  · exact hsame.wellFormed h.wellFormed
  · rcases h.known with hc | hs
    · exact Or.inl ((hsame.registered c).mpr hc)
    · right
      constructor
      · rw [hsame.registered]
        exact hs.unregistered
      · rw [hsame.index]
        exact hs.index
  · rw [← h.live, Live, hsame.registered, Channel.isNoneEvent, hsame.events]
    rfl
  · intro e
    rw [← h.revents e]
    by_cases he : e = d
    · subst he
      simp [setChannel]
    · simp [setChannel, he]

theorem Tracks.handleEvent (h : p.Tracks c calls q) {handlers : Handlers κ}
    (hok : q.handleEvent .debug d handlers = .ok p') :
    p.Tracks c (calls ++ handlers.calls (p.channel d).revents) p' := by
  have hentered := h.setEventHandling d true
  simp only [Poller.handleEvent, handleEvents_callbacks, bind_eq_ok, hentered.revents d] at hok
  obtain ⟨v, hv, hok⟩ := hok
  obtain rfl := Except.ok.inj hok
  exact (hentered.makeCalls hv).setEventHandling d false

theorem Tracks.handleAll (h : p.Tracks c calls q) {handlers : κ → Handlers κ} {cs : List κ}
    (hok : Poller.handleAll .debug handlers q cs = .ok p') :
    p.Tracks c (calls ++ cs.flatMap fun d => (handlers d).calls (p.channel d).revents) p' := by
  induction cs generalizing q calls with
  | nil =>
    obtain rfl : q = p' := Except.ok.inj hok
    simpa using h
  | cons d cs ih =>
    simp only [Poller.handleAll, List.foldlM_cons, bind_eq_ok] at hok
    obtain ⟨v, hv, hok⟩ := hok
    rw [List.flatMap_cons, ← List.append_assoc]
    exact ih (h.handleEvent hv) hok

end Tracks

section Pass

def Undisturbed (handlers : κ → Handlers κ) (p : Poller κ) (active : List κ) : Prop :=
  ∀ before c after, active = before ++ c :: after →
    (∃ q, handleAll .debug handlers p before = .ok q) →
      p.Awaited c (before.flatMap fun d => (handlers d).calls (p.channel d).revents)

theorem PollResult.Contract.skips {r : PollResult} (hr : PollResult.Contract r p) : PollResult.Skips r p := by
  intro i pfd hpfd hneg
  rw [hr.masked i pfd hpfd hneg]
  decide

/-- Every `handle_event` of a pass finds its channel registered and with events to wait for exactly
if the handlers before it have left it so. -/
theorem dispatch_live_iff {fd : κ → ℕ} {calls : List (ChannelCall κ)} {r : PollResult} {active : List κ}
    (h : Run CallStep (Poller.new fd) calls p) (hr : PollResult.Contract r p)
    (hpoll : p.poll .debug r [] = .ok (p', active)) (handlers : κ → Handlers κ) :
    (∀ x ∈ dispatch .debug handlers p' active, x.2.Registered x.1 ∧ ¬ (x.2.channel x.1).isNoneEvent) ↔
      Undisturbed handlers p' active := by
  have hwf := calls_wellFormed h
  obtain ⟨q, reported, hok, hsame, _, hreg⟩ := poll_ok (b := .debug) hwf r hr.skips
  obtain ⟨rfl, rfl⟩ : p' = q ∧ active = reported := by simpa using hpoll.symm.trans hok
  have hwf' := hsame.wellFormed hwf
  have htracks : ∀ before c after, active = before ++ c :: after → ∀ q,
      handleAll .debug handlers p' before = .ok q →
        (q.Live c ↔ p'.Awaited c (before.flatMap fun d => (handlers d).calls (p'.channel d).revents)) := by
    intro before c after hactive q hall
    have hc : p'.Registered c := (hsame.registered c).mpr (hreg c (by simp [hactive]))
    exact ((Tracks.refl hwf' hc).handleAll hall).live
  constructor
  · intro hlive before c after hactive ⟨q, hall⟩
    apply (htracks before c after hactive q hall).mp
    exact hlive (c, q) (mem_dispatch.mpr ⟨before, after, hactive, hall⟩)
  · intro hundisturbed x hx
    obtain ⟨before, after, hactive, hall⟩ := mem_dispatch.mp hx
    exact (htracks before x.1 after hactive x.2 hall).mpr (hundisturbed before x.1 after hactive ⟨x.2, hall⟩)

def bothReady : PollResult := ⟨2, fun i => if i < 2 then Poll.pollin.toInt16 else 0⟩

theorem bothReady_contract {p : Poller ℕ} (hfds : p.pollfds.map PollFd.fd = [10, 11]) :
    PollResult.Contract bothReady p := by
  have hlen : p.pollfds.length = 2 := by simpa using congrArg List.length hfds
  constructor
  · rw [hlen]
    decide
  · intro i _
    simp only [bothReady]
    split_ifs <;> decide
  · intro i pfd hpfd hneg
    have hmem : pfd.fd ∈ p.pollfds.map PollFd.fd := List.mem_map_of_mem (List.mem_of_getElem? hpfd)
    rw [hfds] at hmem
    simp at hmem
    omega

def firstMakes (calls : List (ChannelCall ℕ)) (c : ℕ) : Handlers ℕ :=
  { read := if c = 0 then some calls else none, write := none, error := none, close := none }

theorem dispatch_live_iff_renewed : ∃ p p' : Poller ℕ, ∃ active,
    Run CallStep (Poller.new (· + 10)) [.enableReading 0, .enableReading 1] p ∧
      p.poll .debug bothReady [] = .ok (p', active) ∧ active = [0, 1] ∧
      ((∀ x ∈ dispatch .debug (firstMakes [.disableAll 1, .enableReading 1]) p' active,
          x.2.Registered x.1 ∧ ¬ (x.2.channel x.1).isNoneEvent) ↔
        Undisturbed (firstMakes [.disableAll 1, .enableReading 1]) p' active) := by
  have hrun : ∃ p, Run (Next callStep?) (Poller.new (· + 10)) [.enableReading 0, .enableReading 1] p ∧
      (p.pollfds.map PollFd.fd, (p.poll .debug bothReady []).toOption.map Prod.snd) = ([10, 11], some [0, 1]) :=
    run_of_exec_map (fun p : Poller ℕ =>
      (p.pollfds.map PollFd.fd, (p.poll .debug bothReady []).toOption.map Prod.snd)) (by decide)
  obtain ⟨p, hrun, hp⟩ := hrun
  obtain ⟨hfds, hactive⟩ := Prod.mk.inj hp
  have h := hrun.mono fun _ _ _ hn => callStep_of_next hn
  cases hpoll : p.poll .debug bothReady [] with
  | error f => simp [hpoll, Except.toOption] at hactive
  | ok x =>
    obtain ⟨p', active⟩ := x
    refine ⟨p, p', active, h, hpoll, by simpa [hpoll, Except.toOption] using hactive, ?_⟩
    exact dispatch_live_iff h (bothReady_contract hfds) hpoll _

def firstRemovesSecond (p : Poller ℕ) : Option (List (ℕ × Bool)) :=
  (p.poll .debug bothReady []).toOption.map fun x =>
    (dispatch .debug (firstMakes [.disableAll 1, .remove 1]) x.1 x.2).map fun y =>
      (y.1, decide (y.2.Registered y.1 ∧ ¬ (y.2.channel y.1).isNoneEvent))

theorem removed_channel_dispatched : ∃ p p' : Poller ℕ, ∃ active,
    Run CallStep (Poller.new (· + 10)) [.enableReading 0, .enableReading 1] p ∧ PollResult.Contract bothReady p ∧
      p.poll .debug bothReady [] = .ok (p', active) ∧
      ∃ x ∈ dispatch .debug (firstMakes [.disableAll 1, .remove 1]) p' active,
        x.1 = 1 ∧ ¬ (x.2.Registered x.1 ∧ ¬ (x.2.channel x.1).isNoneEvent) := by
  have hrun : ∃ p, Run (Next callStep?) (Poller.new (· + 10)) [.enableReading 0, .enableReading 1] p ∧
      (p.pollfds.map PollFd.fd, firstRemovesSecond p) = ([10, 11], some [(0, true), (1, false)]) :=
    run_of_exec_map (fun p : Poller ℕ => (p.pollfds.map PollFd.fd, firstRemovesSecond p)) (by decide)
  obtain ⟨p, hrun, hp⟩ := hrun
  obtain ⟨hfds, hfound⟩ := Prod.mk.inj hp
  have h := hrun.mono fun _ _ _ hn => callStep_of_next hn
  cases hpoll : p.poll .debug bothReady [] with
  | error f => simp [firstRemovesSecond, hpoll, Except.toOption] at hfound
  | ok x =>
    refine ⟨p, x.1, x.2, h, bothReady_contract hfds, hpoll, ?_⟩
    simp only [firstRemovesSecond, hpoll, Except.toOption, Option.map_some, Option.some.injEq] at hfound
    have hmem := List.mem_cons_of_mem (0, true) (List.mem_singleton_self (1, false))
    rw [← hfound] at hmem
    obtain ⟨y, hy, he⟩ := List.mem_map.mp hmem
    simp only [Prod.mk.injEq, decide_eq_false_iff_not] at he
    exact ⟨y, hy, he⟩

end Pass

end Poller

end Penduo
