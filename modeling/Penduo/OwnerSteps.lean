import Penduo.OwnerInvariant
import Penduo.PollerRuns

set_option autoImplicit false

namespace Penduo

namespace Owners

open LabelledRuns

namespace Program

variable {p p' : Program} {s k : ℕ} {a : AcceptorId} {c : ChannelId}

section Stages

variable {rest : List ChannelId} {input : HandlerInput}

theorem ChannelsSound.setEventHandling (h : p.ChannelsSound) {stage : Stage} {handling : Bool}
    (hhandled : stage.handled = if handling then some c else none)
    (hbefore : ∀ d, d ≠ c → p.stage.handled ≠ some d)
    (hdestorying : stage.destorying = p.stage.destorying)
    (hdispatched : ∀ d ∈ stage.dispatched, d ∈ p.stage.dispatched)
    (hunfinished : ∀ f ∈ stage.unfinished, f ∈ stage.functors) :
    (({ p with stage } : Program).setEventHandling c handling).ChannelsSound := by
  have huse : ∀ d, (({ p with stage } : Program).setEventHandling c handling).InUse d ↔ p.InUse d :=
    inUse_congr (fun _ => rfl) (fun _ => rfl) hdestorying
  constructor
  · apply Poller.Lists.congr _ huse
    apply h.lists.sameTable (Poller.sameTable_setChannel p.poller c (p.poller.channel c).revents handling)
    intro d hd
    by_cases hdc : d = c
    · subst hdc
      simp only [Poller.setChannel, Function.update_self] at hd
      rwa [if_pos hd] at hhandled
    · simp only [Poller.setChannel, Function.update_of_ne hdc] at hd
      exact absurd (h.lists.handling d hd) (hbefore d hdc)
  · intro d hd
    exact (huse d).mpr (h.dispatched d (hdispatched d hd))
  · exact hunfinished
  · exact h.established
  · intro k hk
    exact h.destorying k (hdestorying.symm.trans hk)

theorem handleEvent_sound (h : p.Sound) (hstage : p.stage = .dispatch (c :: rest))
    (hk : input.address ∉ p.connections) :
    Yields Sound (({ p with stage := .handling c rest } : Program).handleEvent .debug c input) := by
  have hentered : (({ p with stage := .handling c rest } : Program).setEventHandling c true).Sound := by
    refine ⟨?_, { h.servers with }⟩
    apply h.channels.setEventHandling <;> simp [hstage]
  have hc : (({ p with stage := .handling c rest } : Program).setEventHandling c true).InUse c := by
    apply hentered.channels.dispatched
    exact List.mem_cons_self
  rw [handleEvent, Channel.handleEvents_read]
  split_ifs
  · exact readCallback_sound hentered hc hk
  · exact yields_ok hentered

theorem handled_sound (h : p.Sound) (hstage : p.stage = .handling c rest) :
    (({ p with stage := .dispatch rest } : Program).setEventHandling c false).Sound := by
  refine ⟨?_, { h.servers with }⟩
  apply h.channels.setEventHandling
  · rfl
  · intro d hd hhandled
    rw [hstage] at hhandled
    exact hd (Option.some.inj hhandled).symm
  · rw [hstage]
    rfl
  · intro d hd
    rw [hstage]
    exact List.mem_cons_of_mem _ hd
  · simp

theorem poll_sound (h : p.Sound) (hhandled : p.stage.handled = none) (hdestorying : p.stage.destorying = none)
    {r : PollResult} {x : Poller ChannelId × List ChannelId} (hok : p.poller.poll .debug r [] = .ok x) :
    ({ p with poller := x.1, stage := .dispatch x.2 } : Program).Sound := by
  obtain ⟨hpolled, hactive⟩ := Poller.poll_same h.channels.lists.wellFormed r x hok
  have huse : ∀ d, ({ p with poller := x.1, stage := .dispatch x.2 } : Program).InUse d ↔ p.InUse d :=
    inUse_congr (fun _ => rfl) (fun _ => rfl) hdestorying.symm
  refine ⟨?_, { h.servers with }⟩
  constructor
  · apply Poller.Lists.congr _ huse
    apply h.channels.lists.sameTable hpolled.same
    intro d hd
    have hbefore := h.channels.lists.handling d ((hpolled.handling d).symm.trans hd)
    rw [hhandled] at hbefore
    exact absurd hbefore (by simp)
  · intro d hd
    exact (huse d).mpr ((h.channels.lists.registered d).mp (hactive d hd))
  · simp
  · exact h.channels.established
  · simp

section Functors

variable {rest functors : List Functor}

theorem connectDestoryed_sound (h : p.Sound) (hstage : p.stage = .pending (.connectDestoryed k :: rest) functors) :
    Yields Sound (TcpConnection.connectDestoryed .debug
      { p with stage := .running (.connectDestoryed k) rest functors } k) := by
  intro p' hok
  obtain ⟨conn, _, hok⟩ := bind_eq_ok.mp hok
  obtain ⟨_, _, hok⟩ := bind_eq_ok.mp hok
  obtain ⟨poller, hpoller, hok⟩ := bind_eq_ok.mp hok
  obtain rfl := callConnectionCallback_ok p' hok
  have hfind := FiniteMap.map_find_assign TcpConnection.state p.connections k
  refine ⟨?_, { h.servers with }⟩
  constructor
  · have hlists := h.channels.lists.disableAll hpoller
    rw [hstage] at hlists
    apply hlists.congr
    intro c
    cases c with
    | connection j =>
      simp only [InUse, state, setState, hfind, hstage, Stage.destorying, ChannelId.connection.injEq]
      split_ifs with hj
      · simp [hj]
      · simp [hj, Ne.symm hj]
    | _ => simp [InUse, listening, setState]
  · simp [setState]
  · have hunfinished := h.channels.unfinished
    rw [hstage] at hunfinished
    exact hunfinished
  · intro j
    simp only [state, setState, hfind]
    split_ifs
    · simp
    · exact h.channels.established j
  · intro j hj
    obtain rfl : k = j := Option.some.inj hj
    simp [state, setState, hfind]

theorem removeChannel_sound (h : p.Sound) (hstage : p.stage = .running (.connectDestoryed k) rest functors) :
    Yields Sound (TcpConnection.removeChannel .debug { p with stage := .pending rest functors } k) := by
  intro p' hok
  obtain ⟨_, _, hok⟩ := bind_eq_ok.mp hok
  obtain ⟨poller, hpoller, hok⟩ := bind_eq_ok.mp hok
  obtain rfl := Except.ok.inj hok
  have hdestoryed : p.state k = some .disConnected := h.channels.destorying k (by rw [hstage]; rfl)
  refine ⟨?_, { h.servers with }⟩
  constructor
  · have hlists := h.channels.lists.remove hpoller
    rw [hstage] at hlists
    apply hlists.congr
    intro c
    cases c with
    | connection j =>
      have hj : p.state j = some .connected → j ≠ k := by
        rintro hconnected rfl
        simp [hdestoryed] at hconnected
      have hsame : ({ p with stage := .pending rest functors, poller } : Program).state j = p.state j := rfl
      simp only [InUse, hsame, hstage, Stage.destorying, ne_eq, ChannelId.connection.injEq, Option.some.injEq,
        reduceCtorEq, or_false]
      constructor
      · intro hconnected
        exact ⟨Or.inl hconnected, hj hconnected⟩
      · rintro ⟨hconnected | hk, hne⟩
        · exact hconnected
        · exact absurd hk.symm hne
    | _ => simp [InUse, listening]
  · simp
  · have hunfinished := h.channels.unfinished
    rw [hstage] at hunfinished
    intro f hf
    exact hunfinished f (List.mem_cons_of_mem _ hf)
  · exact h.channels.established
  · simp

theorem runFunctor_sound (h : p.Sound) {f : Functor} (hstage : p.stage = .pending (f :: rest) functors) :
    Yields Sound (({ p with stage := .running f rest functors } : Program).runFunctor .debug f) := by
  cases f with
  | connectDestoryed k => exact connectDestoryed_sound h hstage
  | user f =>
    have hunfinished := h.channels.unfinished
    rw [hstage] at hunfinished
    apply yields_ok
    refine ⟨h.channels.restage p.loop ?_ ?_ ?_ hunfinished, { h.servers with }⟩
    all_goals simp [hstage]

theorem endFunctor_sound (h : p.Sound) {f : Functor} (hstage : p.stage = .running f rest functors) :
    Yields Sound (({ p with stage := .pending rest functors } : Program).endFunctor .debug f) := by
  cases f with
  | connectDestoryed k => exact removeChannel_sound h hstage
  | user f =>
    have hunfinished := h.channels.unfinished
    rw [hstage] at hunfinished
    have hrest : ∀ f ∈ rest, f ∈ functors := fun f hf => hunfinished f (List.mem_cons_of_mem _ hf)
    apply yields_ok
    refine ⟨h.channels.restage p.loop ?_ ?_ ?_ hrest, { h.servers with }⟩
    all_goals simp [hstage]

end Functors

end Stages

section Destructors

theorem destroyConnection_sound (h : p.Sound) : Yields Sound (p.destroyConnection .debug k) := by
  intro p' hok
  obtain ⟨_, _, hok⟩ := bind_eq_ok.mp hok
  obtain ⟨_, hdestroy, hok⟩ := bind_eq_ok.mp hok
  obtain rfl := Except.ok.inj hok
  have hnot : ¬ p.InUse (.connection k) := h.channels.destroy_inUse _ hdestroy
  have hstate : ∀ j, ({ p with connections := AList.erase k p.connections } : Program).state j =
      if j = k then none else p.state j := FiniteMap.map_find_erase _ _ _
  have huse : ∀ c, ({ p with connections := AList.erase k p.connections } : Program).InUse c ↔ p.InUse c := by
    intro c
    cases c with
    | connection j =>
      by_cases hj : j = k
      · subst hj
        simp only [InUse, not_or] at hnot
        simp [InUse, hstate, hnot]
      · simp [InUse, hstate, hj]
    | _ => exact Iff.rfl
  refine ⟨?_, { h.servers with }⟩
  constructor
  · exact h.channels.lists.congr huse
  · intro c hc
    exact (huse c).mpr (h.channels.dispatched c hc)
  · exact h.channels.unfinished
  · intro j
    rw [hstate]
    split_ifs
    · simp
    · exact h.channels.established j
  · intro j hj
    have hjk : j ≠ k := by
      rintro rfl
      exact hnot (Or.inr hj)
    rw [hstate, if_neg hjk]
    exact h.channels.destorying j hj

theorem releaseConnections_sound (h : p.Sound) (ks : List ℕ) :
    Yields (fun q => q.Sound ∧ q.poller = p.poller) (ks.foldlM (releaseConnection .debug) p) := by
  induction ks generalizing p with
  | nil => exact yields_ok ⟨h, rfl⟩
  | cons k ks ih =>
    rw [List.foldlM_cons]
    apply Yields.skip
    intro q hq
    have hreleased : q.Sound ∧ q.poller = p.poller := by
      unfold releaseConnection at hq
      split_ifs at hq
      · refine ⟨destroyConnection_sound h q hq, ?_⟩
        obtain ⟨_, _, hq⟩ := bind_eq_ok.mp hq
        obtain ⟨_, _, hq⟩ := bind_eq_ok.mp hq
        rw [← Except.ok.inj hq]
      · obtain rfl := Except.ok.inj hq
        exact ⟨h, rfl⟩
    intro r hok
    obtain ⟨hsound, hpoller⟩ := ih hreleased.1 r hok
    exact ⟨hsound, hpoller.trans hreleased.2⟩

theorem ChannelsSound.eraseAcceptor (h : p.ChannelsSound) (ha : ¬ p.InUse (.accept a)) :
    ({ p with acceptors := AList.erase a p.acceptors } : Program).ChannelsSound := by
  have huse : ∀ c, ({ p with acceptors := AList.erase a p.acceptors } : Program).InUse c ↔ p.InUse c := by
    intro c
    cases c with
    | accept a' =>
      simp only [InUse, listening, FiniteMap.map_find_erase]
      split_ifs with ha'
      · subst ha'
        simpa [InUse, listening] using ha
      · rfl
    | _ => exact Iff.rfl
  constructor
  · exact h.lists.congr huse
  · intro c hc
    exact (huse c).mpr (h.dispatched c hc)
  · exact h.unfinished
  · exact h.established
  · exact h.destorying

theorem acceptorDestroy_ok (h : p.Sound) (hok : Acceptor.destroy .debug p a = .ok p') :
    ¬ p.InUse (.accept a) ∧ p' = { p with acceptors := AList.erase a p.acceptors } := by
  obtain ⟨_, _, hok⟩ := bind_eq_ok.mp hok
  obtain ⟨_, hdestroy, hok⟩ := bind_eq_ok.mp hok
  exact ⟨h.channels.destroy_inUse _ hdestroy, (Except.ok.inj hok).symm⟩

theorem ServersSound.bound_erase (h : p.ServersSound) (a : AcceptorId) :
    ∀ a' acceptor s, FiniteMap.find (AList.erase a p.acceptors) a' = some acceptor →
      acceptor.newConnectionCallback = some (.newConnection s) → a' = .ofServer s := by
  intro a' acceptor s hfound
  rw [FiniteMap.find_erase] at hfound
  split_ifs at hfound
  exact h.bound a' acceptor s hfound

theorem destroyAcceptor_sound (h : p.Sound) {a : ℕ} : Yields Sound (Acceptor.destroy .debug p (.alone a)) := by
  intro p' hok
  obtain ⟨hnot, rfl⟩ := acceptorDestroy_ok h hok
  refine ⟨h.channels.eraseAcceptor hnot, ?_⟩
  constructor
  · exact h.servers.bound_erase _
  · intro s
    rw [listening, FiniteMap.map_find_erase, if_neg (by simp)]
    exact h.servers.started s
  · exact h.servers.unstarted
  · exact h.servers.maker

theorem destroyServer_sound (h : p.Sound) : Yields Sound (TcpServer.destroy .debug p s) := by
  intro p' hok
  obtain ⟨server, hserver, hok⟩ := bind_eq_ok.mp hok
  obtain ⟨v, hv, hok⟩ := bind_eq_ok.mp hok
  obtain ⟨u, hu, hok⟩ := bind_eq_ok.mp hok
  obtain rfl := Except.ok.inj hok
  have hs := require_eq_ok.mp hserver
  have hcleared : ({ p with servers := p.servers.assign s { server with connections := ∅ } } : Program).Sound :=
    ⟨{ h.channels with }, h.servers.update hs _ rfl fun _ => rfl⟩
  obtain ⟨hreleased, _⟩ := releaseConnections_sound hcleared _ v hv
  obtain ⟨hnot, rfl⟩ := acceptorDestroy_ok hreleased hu
  have hunstarted : v.started s ≠ some true := by
    rw [hreleased.servers.started]
    exact hnot
  refine ⟨{ hreleased.channels.eraseAcceptor hnot with }, ?_⟩
  constructor
  · exact hreleased.servers.bound_erase _
  · intro s'
    simp only [started, listening, FiniteMap.map_find_erase, AcceptorId.ofServer.injEq]
    split_ifs
    · rfl
    · exact hreleased.servers.started s'
  · intro s' found hfound
    rw [FiniteMap.find_erase] at hfound
    split_ifs at hfound
    exact hreleased.servers.unstarted s' found hfound
  · intro k s' hmaker
    have hstarted := hreleased.servers.maker k s' hmaker
    have hne : s' ≠ s := by
      rintro rfl
      exact hunstarted hstarted
    simp only [started, FiniteMap.map_find_erase, if_neg hne]
    exact hstarted

end Destructors

section Runs

theorem yields_guarded {t : Prop} [Decidable t] {x y : Except Fault Program}
    (hstep : (if t then some y else none) = some x) (hy : t → Yields Sound y) : Yields Sound x := by
  obtain ⟨ht, rfl⟩ : t ∧ y = x := by simpa using hstep
  exact hy ht

theorem yields_always {x y : Except Fault Program} (hstep : some y = some x) (hy : Yields Sound y) :
    Yields Sound x := by
  obtain rfl := Option.some.inj hstep
  exact hy

theorem Sound.restage (h : p.Sound) {stage : Stage} (loop : EventLoop Functor)
    (hstages : stage.handled = p.stage.handled ∧ stage.destorying = p.stage.destorying ∧ stage.dispatched = [])
    (hunfinished : ∀ f ∈ stage.unfinished, f ∈ stage.functors) : ({ p with stage, loop } : Program).Sound := by
  obtain ⟨hhandled, hdestorying, hdispatched⟩ := hstages
  have hnone : ∀ c ∈ stage.dispatched, c ∈ p.stage.dispatched := by
    rw [hdispatched]
    exact fun c hc => absurd hc List.not_mem_nil
  exact ⟨h.channels.restage loop hhandled hdestorying hnone hunfinished, { h.servers with }⟩

theorem Sound.step (h : p.Sound) {e : Event} {x : Except Fault Program} (hstep : p.step .debug e = some x) :
    Yields Sound x := by
  have hloop : ∀ loop, ({ p with loop } : Program).Sound := fun _ => ⟨{ h.channels with }, { h.servers with }⟩
  have hheld : ∀ held, ({ p with held } : Program).Sound := fun _ => ⟨{ h.channels with }, { h.servers with }⟩
  cases e with
  | newAcceptor a socketFd bound => exact yields_guarded hstep fun ha => newAcceptor_sound h ha
  | setNewConnectionCallback a set =>
    apply yields_always hstep
    apply setNewConnectionCallback_sound h
    cases set <;> simp
  | listen a ret => exact yields_guarded hstep fun _ => listen_sound h
  | destroyAcceptor a => exact yields_always hstep (destroyAcceptor_sound h)
  | newServer s name socketFd bound => exact yields_guarded hstep fun hs => newServer_sound h hs
  | setServerCallbacks s connectionCallback messageCallback =>
    exact yields_always hstep (setServerCallbacks_sound h)
  | start s ret => exact yields_guarded hstep fun _ => start_sound h
  | destroyServer s => exact yields_always hstep (destroyServer_sound h)
  | setConnectionCallbacks k connectionCallback messageCallback =>
    exact yields_always hstep (setConnectionCallbacks_sound h)
  | setCloseCallback k set => exact yields_always hstep (setCloseCallback_sound h)
  | keep k => exact yields_guarded hstep fun _ => yields_ok (hheld _)
  | drop k => exact yields_guarded hstep fun _ => yields_ok (hheld _)
  | destroyConnection k => exact yields_guarded hstep fun _ => destroyConnection_sound h
  | queueInLoop f => exact yields_guarded hstep fun _ => yields_ok (hloop _)
  | queueElsewhere f => exact yields_always hstep (yields_ok (hloop _))
  | quit => exact yields_guarded hstep fun _ => yields_ok (hloop _)
  | quitElsewhere => exact yields_always hstep (yields_ok (hloop _))
  | enter =>
    apply yields_guarded hstep
    intro hstage
    apply Yields.skip
    intro _ _
    exact yields_ok (h.restage _ (by simp [hstage]) (by simp))
  | leave =>
    apply yields_guarded hstep
    intro ⟨hstage, _⟩
    exact yields_ok (h.restage _ (by simp [hstage]) (by simp))
  | poll r =>
    apply yields_guarded hstep
    intro ⟨hstage, _⟩
    apply Yields.skip
    intro x hok
    exact yields_ok (poll_sound h (by simp [hstage]) (by simp [hstage]) hok)
  | handle input =>
    simp only [Program.step] at hstep
    split at hstep
    case h_1 c rest hstage => exact yields_guarded hstep fun hk => handleEvent_sound h hstage hk
    case h_2 => simp at hstep
  | handled =>
    simp only [Program.step] at hstep
    split at hstep
    case h_1 c rest hstage => exact yields_always hstep (yields_ok (handled_sound h hstage))
    case h_2 => simp at hstep
  | takePending =>
    apply yields_guarded hstep
    intro hstage
    exact yields_ok (h.restage _ (by simp [hstage]) (by simp))
  | run =>
    simp only [Program.step] at hstep
    split at hstep
    case h_1 f rest functors hstage => exact yields_always hstep (runFunctor_sound h hstage)
    case h_2 => simp at hstep
  | ran =>
    simp only [Program.step] at hstep
    split at hstep
    case h_1 f rest functors hstage => exact yields_always hstep (endFunctor_sound h hstage)
    case h_2 => simp at hstep
  | finish =>
    simp only [Program.step] at hstep
    split at hstep
    case h_1 functors hstage =>
      exact yields_always hstep (yields_ok (h.restage _ (by simp [hstage]) (by simp)))
    case h_2 => simp at hstep
  | release =>
    simp only [Program.step] at hstep
    split at hstep
    case h_1 f functors hstage =>
      exact yields_always hstep (yields_ok (h.restage p.loop (by simp [hstage]) (by simp)))
    case h_2 => simp at hstep
  | finished =>
    apply yields_guarded hstep
    intro hstage
    exact yields_ok (h.restage p.loop (by simp [hstage]) (by simp))

theorem Sound.next (h : p.Sound) {e : Event} (hn : p.Next e p') : p'.Sound := h.step hn p' rfl

theorem construct_sound {timerfd wakeupfd : ℕ} : Yields Sound (EventLoop.construct .debug timerfd wakeupfd) := by
  apply Yields.skip
  intro poller hpoller
  apply Yields.skip
  intro poller' hpoller'
  have hnew : ∀ fd : ChannelId → ℕ, (Poller.new fd).Lists (fun _ => False) none := by
    intro fd
    constructor
    · exact Poller.new_wellFormed fd
    · simp [Poller.Registered, Poller.new]
    · simp [Poller.new, Channel.new, Channel.isNoneEvent]
    · simp [Poller.new, Channel.new]
  apply yields_ok
  constructor
  · constructor
    · apply (((hnew _).enableReading hpoller).enableReading hpoller').congr
      intro c
      cases c <;> simp [InUse, listening, state]
    · simp
    · simp
    · simp [state]
    · simp
  · constructor <;> simp [started, listening]

theorem run_sound {timerfd wakeupfd : ℕ} {p0 : Program} {es : List Event}
    (hp0 : EventLoop.construct .debug timerfd wakeupfd = .ok p0) (hrun : Run Next p0 es p) : p.Sound :=
  hrun.invariant (fun _ _ _ h hn => h.next hn) (construct_sound p0 hp0)

end Runs

end Program

end Owners

end Penduo
