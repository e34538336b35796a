import Penduo.ReadOutcomes
import Penduo.UserCalls

set_option autoImplicit false
set_option linter.unusedSectionVars false

namespace Penduo

open BackReferences

def EventLoop.assertInLoopThread (inLoopThread : Bool) : Except Fault Unit :=
  if inLoopThread then pure () else .error .fatal

def TcpServer.start (b : Build) (w : World) (inLoopThread : Bool) (ret : Int32) : Except Fault World := do
  EventLoop.assertInLoopThread inLoopThread
  w.start b ret

structure StartCall where
  act : UserAction
  ret : Int32
deriving DecidableEq, Repr

def StartCall.listens (call : StartCall) : Bool := call.act ≠ .start || decide (0 ≤ call.ret)

instance : UserCode StartCall where
  perform b w call :=
    match call.act with
    | .start => TcpServer.start b w true call.ret
    | act => w.userAction b act

inductive StartEvent
  | server (e : ServerEvent StartCall)
  | startElsewhere (ret : Int32)

def StartEvent.inLoopThread : StartEvent → Bool
  | .server _ => true
  | .startElsewhere _ => false

namespace World

variable {b : Build} {w : World} {call : StartCall}

def startStep (b : Build) (w : World) : StartEvent → Option (Except Fault World)
  | .server e => w.step b e
  | .startElsewhere ret => some (TcpServer.start b w false ret)

def NextStart (w : World) (e : StartEvent) (w' : World) : Prop := w.startStep .debug e = some (.ok w')

def callsMade (w : World) : StartEvent → List StartCall
  | .server e => w.userCalls e
  | .startElsewhere _ => []

theorem perform_listens (h : call.listens = true) :
    UserCode.perform b w call = UserCode.perform b w call.act := by
  obtain ⟨act, ret⟩ := call
  cases act with
  | start =>
    have hret : ¬ ret < 0 := by simpa [StartCall.listens] using h
    simp only [UserCode.perform, TcpServer.start, EventLoop.assertInLoopThread, if_true, pure_eq_ok, ok_bind,
      userAction, World.start, Sockets.listenOrDie, hret, if_false]
    rfl
  | _ => rfl

theorem perform_fails (h : call.listens = false) : UserCode.perform b w call = .error .fatal := by
  obtain ⟨act, ret⟩ := call
  cases act with
  | start =>
    have hret : ret < 0 := by simpa [StartCall.listens] using h
    simp only [UserCode.perform, TcpServer.start, EventLoop.assertInLoopThread, if_true, pure_eq_ok, ok_bind,
      World.start, Sockets.listenOrDie, hret, error_bind]
  | _ => simp [StartCall.listens] at h

instance : TameUserCode StartCall where
  staged b w st call := by
    cases h : call.listens with
    | true =>
      rw [perform_listens h, perform_listens h]
      exact TameUserCode.staged b w st call.act
    | false => rw [perform_fails h, perform_fails h, error_bind]
  framed b w v call hwf ha hok := by
    cases h : call.listens with
    | true =>
      rw [perform_listens h] at hok
      exact TameUserCode.framed b w v call.act hwf ha hok
    | false =>
      rw [perform_fails h] at hok
      cases hok

theorem userCode_listens {acts : List StartCall} (h : ∀ call ∈ acts, call.listens = true) :
    w.userCode b acts = w.userCode b (acts.map StartCall.act) := by
  induction acts generalizing w with
  | nil => rfl
  | cons call acts ih =>
    obtain ⟨hcall, hacts⟩ := List.forall_mem_cons.mp h
    rw [List.map_cons, userCode_cons, userCode_cons, perform_listens hcall]
    congr 1
    funext v
    exact ih hacts

theorem userCode_fails {acts : List StartCall} (hwf : w.poller.WellFormed) (ha : AcceptReady w.poller)
    (hcall : call ∈ acts) (hfails : call.listens = false) : w.userCode b acts = .error .fatal := by
  induction acts generalizing w with
  | nil => cases hcall
  | cons first acts ih =>
    rw [userCode_cons]
    cases h : first.listens with
    | false => rw [perform_fails h, error_bind]
    | true =>
      obtain ⟨v, hv, hframe⟩ := userAction_ok (b := b) hwf ha first.act
      rw [perform_listens h, perform_userAction, hv, ok_bind]
      apply ih hframe.poller.wellFormed hframe.poller.acceptReady
      rcases List.mem_cons.mp hcall with rfl | hcall
      · rw [h] at hfails
        cases hfails
      · exact hcall

theorem perform_doesAs (b : Build) (w : World) (call : StartCall) :
    DoesAs (fun f => f = .fatal) (UserCode.perform b w call) (UserCode.perform b w call.act) := by
  cases h : call.listens with
  | true => rw [perform_listens h]; exact .refl _
  | false =>
    rw [perform_fails h]
    exact fun hexcused => absurd (hexcused .fatal rfl) (by simp)

end World

def PollFd.registration (pfd : PollFd) : ℤ × Int16 := (pfd.fd, pfd.events)

namespace Poller

variable {κ : Type} [DecidableEq κ] {p p' q q' : Poller κ} {c d : κ} {ev : Int32} {b : Build}

structure SameEntries (p p' : Poller κ) : Prop where
  entries : p'.pollfds.map PollFd.registration = p.pollfds.map PollFd.registration
  channels : p'.channels = p.channels
  channel : p'.channel = p.channel

namespace SameEntries

theorem refl (p : Poller κ) : SameEntries p p := ⟨rfl, rfl, rfl⟩

theorem trans (h : SameEntries p p') (h' : SameEntries p' q) : SameEntries p q :=
  ⟨h'.entries.trans h.entries, h'.channels.trans h.channels, h'.channel.trans h.channel⟩

theorem symm (h : SameEntries p p') : SameEntries p' p := ⟨h.entries.symm, h.channels.symm, h.channel.symm⟩

theorem length (h : SameEntries p p') : p'.pollfds.length = p.pollfds.length := by
  simpa using congrArg List.length h.entries

theorem slotIndex (h : SameEntries p p') (c : κ) : p'.slotIndex c = p.slotIndex c := by
  rw [Poller.slotIndex, h.channel, Poller.slotIndex]

theorem registered (h : SameEntries p p') (c : κ) : p'.Registered c ↔ p.Registered c := by
  rw [Registered, h.channels, h.channel, Registered]

theorem entry (h : SameEntries p p') {i : ℕ} {pfd : PollFd} (hpfd : p.pollfds[i]? = some pfd) :
    ∃ r, p'.pollfds[i]? = some { pfd with revents := r } := by
  have hi := congrArg (fun l : List (ℤ × Int16) => l[i]?) h.entries
  simp only [List.getElem?_map, hpfd, Option.map_some, Option.map_eq_some_iff] at hi
  obtain ⟨pfd', hpfd', hreg⟩ := hi
  obtain ⟨hfd, hevents⟩ := Prod.mk.inj hreg
  refine ⟨pfd'.revents, ?_⟩
  rw [hpfd', ← hfd, ← hevents]

theorem sameTable (h : SameEntries p p') : SameTable p p' where
  channels := h.channels
  length := h.length
  entry _ _ hpfd := h.entry hpfd
  channel c := ⟨_, _, by rw [h.channel]⟩

theorem removable (h : SameEntries p p') (hr : p.Removable c) : p'.Removable c where
  registered := (h.registered c).mpr hr.registered
  noneEvent := by
    rw [h.channel]
    exact hr.noneEvent
  masked := by
    obtain ⟨pfd, hpfd, hfd⟩ := hr.masked
    obtain ⟨r, hr⟩ := h.entry hpfd
    exact ⟨_, by rw [h.slotIndex]; exact hr, by rw [h.channel]; exact hfd⟩

theorem setChannel (h : SameEntries p p') (c : κ) (ch : Channel) :
    SameEntries (p.setChannel c ch) (p'.setChannel c ch) where
  entries := h.entries
  channels := h.channels
  channel := by rw [Poller.setChannel, Poller.setChannel, h.channel]

theorem append (h : SameEntries p p') (c : κ) (ev : Int32) : SameEntries (p.append c ev) (p'.append c ev) where
  entries := by simp only [Poller.append, List.map_append, h.entries, h.channel]
  channels := by simp only [Poller.append, h.channels, h.channel]
  channel := by simp only [Poller.append, h.length, h.channel]

theorem rewrite (h : SameEntries p p') (c : κ) (ev : Int32) : SameEntries (p.rewrite c ev) (p'.rewrite c ev) where
  entries := by simp only [Poller.rewrite, List.map_set, h.entries, h.slotIndex, h.channel]
  channels := h.channels
  channel := by simp only [Poller.rewrite, h.channel]

theorem unregister (h : SameEntries p p') (c : κ) : SameEntries (p.unregister c) (p'.unregister c) where
  entries := by
    simp only [Poller.unregister, List.map_dropLast, swapBack_map, h.entries, h.slotIndex]
  channels := by simp only [Poller.unregister, h.channels, h.channel]
  channel := by
    funext d
    simp only [Poller.unregister, h.channel, h.registered, h.slotIndex, h.length]

theorem adopt (h : SameEntries p p') (c : κ) (fd : ℕ) : SameEntries (p.adopt c fd) (p'.adopt c fd) :=
  (h.setChannel c _).append c _

theorem reported (h : SameEntries p p') (f : ℕ → Int16) :
    p'.pollfds.mapIdx (fun i pfd => { pfd with revents := f i }) =
      p.pollfds.mapIdx fun i pfd => { pfd with revents := f i } := by
  apply List.ext_getElem?
  intro i
  rw [List.getElem?_mapIdx, List.getElem?_mapIdx]
  cases hpfd : p.pollfds[i]? with
  | none =>
    have hlength := h.length
    rw [List.getElem?_eq_none_iff] at hpfd
    rw [List.getElem?_eq_none (by omega)]
  | some pfd =>
    obtain ⟨r, hr⟩ := h.entry hpfd
    rw [hr]
    rfl

theorem poll (h : SameEntries p p') {r : PollResult} {active found : List κ}
    (hok : p.poll b r active = .ok (q, found)) :
    ∃ q', p'.poll b r active = .ok (q', found) ∧ SameEntries q q' := by
  have hpoller :
      ({ p' with pollfds := p'.pollfds.mapIdx fun i pfd => { pfd with revents := r.revents i } } : Poller κ) =
        { p with pollfds := p.pollfds.mapIdx fun i pfd => { pfd with revents := r.revents i } } := by
    rw [h.reported r.revents]
    ext : 1
    · rfl
    · exact h.channels
    · exact h.channel
  unfold Poller.poll at hok ⊢
  dsimp only at hok ⊢
  rw [hpoller, h.reported r.revents]
  split_ifs at hok ⊢
  · obtain ⟨rfl, rfl⟩ := Prod.mk.inj (Except.ok.inj hok)
    exact ⟨p', rfl, h⟩
  · exact ⟨q, hok, .refl q⟩
  · exact ⟨q, hok, .refl q⟩

end SameEntries

theorem sameEntries_rewrite (h : p.WellFormed) (hc : p.Registered c) (hev : (p.channel c).events = ev)
    (hsome : ev ≠ Channel.kNoneEvent) : SameEntries p (p.rewrite c ev) where
  entries := by
    obtain ⟨pfd, hpfd, hentry⟩ := h.slots.slot c hc
    obtain ⟨hlt, rfl⟩ := List.getElem?_eq_some_iff.mp hpfd
    have hfd : p.pollfds[p.slotIndex c].fd = (p.channel c).fd := by
      rcases hentry.1 with hfd | ⟨_, hnone⟩
      · exact hfd
      · exact absurd (hev.symm.trans hnone) hsome
    have hevents : p.pollfds[p.slotIndex c].events = ev.toInt16 := by
      rw [← hev, ← hentry.2, Int16.toInt16_toInt32]
    have hsame : PollFd.registration ⟨(p.channel c).fd, ev.toInt16, 0⟩ = p.pollfds[p.slotIndex c].registration := by
      rw [PollFd.registration, PollFd.registration, hfd, hevents]
    rw [Poller.rewrite, if_neg hsome, List.map_set, hsame]
    apply List.ext_getElem?
    intro i
    rw [List.getElem?_set, List.length_map]
    split_ifs with hi
    · subst hi
      rw [List.getElem?_map, hpfd]
      rfl
    · rfl
  channels := rfl
  channel := by
    have hadded : (p.channel c).addedToLoop = true := (h.added c).mpr hc
    rw [Poller.rewrite, ← hev, ← hadded]
    exact Function.update_eq_self c p.channel

end Poller

end Penduo
