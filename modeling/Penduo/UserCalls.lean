import Mathlib.Data.Set.List
import Penduo.CheckedBuilds
import Penduo.ServerRuns

set_option autoImplicit false

namespace Penduo

open LabelledRuns

namespace ServerEvent

variable {α β : Type}

def calls : ServerEvent α → List α
  | .user acts | .run acts => acts
  | .handle input => input.acts
  | .finish acts => acts.flatten
  | _ => []

def map (f : α → β) : ServerEvent α → ServerEvent β
  | .user acts => .user (acts.map f)
  | .queueElsewhere g => .queueElsewhere g
  | .quitElsewhere => .quitElsewhere
  | .enter => .enter
  | .leave => .leave
  | .poll r => .poll r
  | .handle input => .handle ⟨input.accepted, input.errno, input.readFd, input.acts.map f⟩
  | .takePending => .takePending
  | .run acts => .run (acts.map f)
  | .finish acts => .finish (acts.map fun calls => calls.map f)

theorem exists_map (f : α → β) (e : ServerEvent β) (h : ∀ c ∈ e.calls, ∃ a, f a = c) :
    ∃ e' : ServerEvent α, e'.map f = e := by
  have hlist : ∀ cs : List β, (∀ c ∈ cs, ∃ a, f a = c) → ∃ acts : List α, acts.map f = cs := by
    intro cs hcs
    have hrange : cs ∈ Set.range (List.map f) := by
      rw [Set.range_list_map]
      exact hcs
    exact hrange
  cases e with
  | user acts =>
    obtain ⟨acts', rfl⟩ := hlist acts h
    exact ⟨.user acts', rfl⟩
  | run acts =>
    obtain ⟨acts', rfl⟩ := hlist acts h
    exact ⟨.run acts', rfl⟩
  | handle input =>
    obtain ⟨acts', hacts⟩ := hlist input.acts h
    exact ⟨.handle ⟨input.accepted, input.errno, input.readFd, acts'⟩, by rw [map, hacts]⟩
  | finish acts =>
    have hlists : ∃ acts' : List (List α), acts'.map (fun calls => calls.map f) = acts := by
      induction acts with
      | nil => exact ⟨[], rfl⟩
      | cons calls acts ih =>
        obtain ⟨calls', rfl⟩ := hlist calls fun c hc => h c (List.mem_append_left _ hc)
        obtain ⟨acts', rfl⟩ := ih fun c hc => h c (List.mem_append_right _ hc)
        exact ⟨calls' :: acts', rfl⟩
    obtain ⟨acts', rfl⟩ := hlists
    exact ⟨.finish acts', rfl⟩
  | queueElsewhere g => exact ⟨.queueElsewhere g, rfl⟩
  | quitElsewhere => exact ⟨.quitElsewhere, rfl⟩
  | enter => exact ⟨.enter, rfl⟩
  | leave => exact ⟨.leave, rfl⟩
  | poll r => exact ⟨.poll r, rfl⟩
  | takePending => exact ⟨.takePending, rfl⟩

end ServerEvent

section Calls

variable {α : Type}

-- The functors of the user are destroyed in order, each with its own list of calls.
def destructorCalls : List (List α) → List Functor → List α
  | _, [] => []
  | acts, .user _ :: functors => acts.headD [] ++ destructorCalls acts.tail functors
  | acts, .connectDestoryed _ :: functors => destructorCalls acts functors

theorem destructorCalls_subset (acts : List (List α)) (functors : List Functor) :
    destructorCalls acts functors ⊆ acts.flatten := by
  induction functors generalizing acts with
  | nil => simp [destructorCalls]
  | cons f functors ih =>
    cases f with
    | connectDestoryed k => exact ih acts
    | user f =>
      cases acts with
      | nil => simpa [destructorCalls] using ih []
      | cons calls acts =>
        rw [destructorCalls, List.headD_cons, List.tail_cons, List.flatten_cons]
        exact List.append_subset.mpr
          ⟨List.subset_append_left _ _, List.Subset.trans (ih acts) (List.subset_append_right _ _)⟩

namespace World

def calledBack (w : World) (input : HandlerInput α) : ChannelId → List α
  | .wakeup => []
  | .timerfd => input.acts
  | .accept =>
    match input.accepted with
    | .connected _ =>
      if w.server.newConnectionCallback = true ∧ w.server.nextConnectId + 1 < 2 ^ 31 then input.acts else []
    | .failed _ => []
  | .connection k =>
    match readBranch input.readFd.ret with
    | .message => input.acts
    | .close => if (w.connection k).any fun conn => conn.closeCallback = some .user then input.acts else []
    | .error => []

/-- The calls of the user's code that are made in a step. -/
def userCalls (w : World) : ServerEvent α → List α
  | .user acts | .run acts => acts
  | .handle input =>
    match w.stage with
    | .dispatch (c :: _) =>
      if (w.poller.channel c).revents &&& (Poll.pollin ||| Poll.pollpri) ≠ 0 then w.calledBack input c else []
    | _ => []
  | .finish acts => destructorCalls acts w.stage.functors
  | _ => []

end World

end Calls

/-! User code that does what other user code does, except for the faults that are excused. -/

section Bridge

variable {α β : Type} [UserCode α] [UserCode β] {b : Build} {excused : Fault → Bool} {f : α → β}

theorem World.userCode_doesAs (hf : ∀ v a, DoesAs excused (UserCode.perform b v a) (UserCode.perform b v (f a)))
    (w : World) (acts : List α) : DoesAs excused (w.userCode b acts) (w.userCode b (acts.map f)) := by
  unfold World.userCode
  rw [List.foldlM_map]
  exact DoesAs.foldlM hf acts w

variable (hf : ∀ v a, DoesAs excused (UserCode.perform b v a) (UserCode.perform b v (f a)))
include hf

namespace TcpConnection

theorem callConnectionCallback_doesAs (w : World) (k : ℕ) (acts : List α) :
    DoesAs excused (callConnectionCallback b w k acts) (callConnectionCallback b w k (acts.map f)) := by
  unfold callConnectionCallback
  apply DoesAs.skip
  intro conn
  apply DoesAs.ite
  · exact World.userCode_doesAs hf _ acts
  · exact .refl _

theorem callMessageCallback_doesAs (w : World) (k : ℕ) (acts : List α) :
    DoesAs excused (callMessageCallback b w k acts) (callMessageCallback b w k (acts.map f)) := by
  unfold callMessageCallback
  apply DoesAs.skip
  intro conn
  apply DoesAs.ite
  · exact World.userCode_doesAs hf _ acts
  · exact .refl _

theorem connectEstablish_doesAs (w : World) (k : ℕ) (acts : List α) :
    DoesAs excused (connectEstablish b w k acts) (connectEstablish b w k (acts.map f)) := by
  unfold connectEstablish
  iterate 4
    apply DoesAs.skip
    intro _
  exact callConnectionCallback_doesAs hf _ k acts

theorem connectDestoryed_doesAs (w : World) (k : ℕ) (acts : List α) :
    DoesAs excused (connectDestoryed b w k acts) (connectDestoryed b w k (acts.map f)) := by
  unfold connectDestoryed
  iterate 3
    apply DoesAs.skip
    intro _
  apply (callConnectionCallback_doesAs hf _ k acts).bind
  intro v
  exact .refl _

theorem handleClose_doesAs (w : World) (k : ℕ) (acts : List α) :
    DoesAs excused (handleClose b w k acts) (handleClose b w k (acts.map f)) := by
  unfold handleClose
  apply DoesAs.skip
  intro conn
  iterate 2
    apply DoesAs.skip
    intro _
  cases conn.closeCallback with
  | none => exact .refl _
  | some callback =>
    cases callback with
    | removeConnection bound => exact .refl _
    | user => exact World.userCode_doesAs hf _ acts

theorem handleRead_doesAs (w : World) (k : ℕ) (r : ReadFd) (acts : List α) :
    DoesAs excused (handleRead b w k r acts) (handleRead b w k r (acts.map f)) := by
  unfold handleRead
  apply DoesAs.skip
  intro _
  dsimp only
  cases readBranch r.ret with
  | message => exact callMessageCallback_doesAs hf _ k acts
  | close => exact handleClose_doesAs hf _ k acts
  | error => exact .refl _

end TcpConnection

theorem TcpServer.newConnection_doesAs (w : World) (fd : ℕ) (acts : List α) :
    DoesAs excused (newConnection b w fd acts) (newConnection b w fd (acts.map f)) := by
  unfold newConnection
  apply DoesAs.ite
  · exact .refl _
  · exact TcpConnection.connectEstablish_doesAs hf _ _ acts

theorem Acceptor.handleRead_doesAs (w : World) (r : Accepted) (errno : Int32) (acts : List α) :
    DoesAs excused (handleRead b w r errno acts) (handleRead b w r errno (acts.map f)) := by
  unfold handleRead
  apply DoesAs.skip
  rintro ⟨connectFd, _⟩
  apply DoesAs.ite
  · apply DoesAs.ite
    · exact TcpServer.newConnection_doesAs hf _ _ acts
    · exact .refl _
  · exact .refl _

namespace World

theorem readCallback_doesAs (w : World) (input : HandlerInput α) (c : ChannelId) :
    DoesAs excused (w.readCallback b input c)
      (w.readCallback b ⟨input.accepted, input.errno, input.readFd, input.acts.map f⟩ c) := by
  cases c with
  | wakeup => exact .refl _
  | timerfd => exact userCode_doesAs hf w input.acts
  | accept => exact Acceptor.handleRead_doesAs hf w _ _ input.acts
  | connection k => exact TcpConnection.handleRead_doesAs hf w k _ input.acts

theorem handleEvent_doesAs (w : World) (c : ChannelId) (rest : List ChannelId) (input : HandlerInput α) :
    DoesAs excused (({ w with stage := .dispatch rest } : World).handleEvent b c input)
      (({ w with stage := .dispatch rest } : World).handleEvent b c
        ⟨input.accepted, input.errno, input.readFd, input.acts.map f⟩) := by
  rw [handleEvent_entered, handleEvent_entered]
  apply DoesAs.ite
  · apply (readCallback_doesAs hf _ input c).bind
    intro v
    exact .refl _
  · exact .refl _

theorem releaseFunctors_doesAs (w : World) (acts : List (List α)) (functors : List Functor) :
    DoesAs excused (w.releaseFunctors b acts functors)
      (w.releaseFunctors b (acts.map fun calls => calls.map f) functors) := by
  induction functors generalizing w acts with
  | nil => exact .refl _
  | cons g functors ih =>
    cases g with
    | connectDestoryed k =>
      apply DoesAs.skip
      intro v
      exact ih v acts
    | user g =>
      cases acts with
      | nil =>
        apply (userCode_doesAs hf _ []).bind
        intro v
        exact ih v []
      | cons calls acts =>
        apply (userCode_doesAs hf _ calls).bind
        intro v
        exact ih v acts

theorem runFunctor_doesAs (w : World) (acts : List α) (g : Functor) :
    DoesAs excused (w.runFunctor b acts g) (w.runFunctor b (acts.map f) g) := by
  cases g with
  | user g => exact userCode_doesAs hf w acts
  | connectDestoryed k => exact TcpConnection.connectDestoryed_doesAs hf w k acts

theorem step_doesAs (w : World) (e : ServerEvent α) :
    Option.Rel (DoesAs excused) (w.step b e) (w.step b (e.map f)) := by
  cases e with
  | user acts =>
    simp only [World.step, ServerEvent.map]
    split_ifs
    · exact .some (userCode_doesAs hf w acts)
    · exact .none
  | queueElsewhere | quitElsewhere => exact .some (.refl _)
  | enter | leave | poll | takePending =>
    simp only [World.step, ServerEvent.map]
    split_ifs
    · exact .some (.refl _)
    · exact .none
  | handle input =>
    simp only [World.step, ServerEvent.map]
    split
    · split_ifs
      · exact .some (handleEvent_doesAs hf w _ _ input)
      · exact .none
    · exact .none
  | run acts =>
    simp only [World.step, ServerEvent.map]
    split
    · exact .some (runFunctor_doesAs hf _ acts _)
    · exact .none
  | finish acts =>
    simp only [World.step, ServerEvent.map]
    split
    · exact .some (releaseFunctors_doesAs hf _ acts _)
    · exact .none

end World

end Bridge

theorem World.userCode_append {α : Type} [UserCode α] {b : Build} {w : World} (acts acts' : List α) :
    w.userCode b (acts ++ acts') = w.userCode b acts >>= fun v => v.userCode b acts' := List.foldlM_append

/-! User code of any kind, as long as it keeps to its part of the server. -/

class TameUserCode (α : Type) [UserCode α] : Prop where
  staged (b : Build) (w : World) (st : LoopStage) (act : α) :
    UserCode.perform b { w with stage := st } act = UserCode.perform b w act >>= fun v => pure { v with stage := st }
  framed (b : Build) (w v : World) (act : α) : w.poller.WellFormed → AcceptReady w.poller →
    UserCode.perform b w act = .ok v → World.Frame w v

instance : TameUserCode UserAction where
  staged b w st act := by
    cases act with
    | start =>
      simp only [perform_userAction, World.userAction, World.start, Sockets.listenOrDie_zero, ok_bind]
      cases Channel.enableReading b w.poller .accept <;> rfl
    | _ => rfl
  framed b w v act hwf ha hok := by
    obtain ⟨w', hw', hframe⟩ := World.userAction_ok (b := b) hwf ha act
    obtain rfl : w' = v := Except.ok.inj (hw'.symm.trans hok)
    exact hframe

namespace World

variable {α : Type} [UserCode α] [TameUserCode α] {b : Build} {w w' v : World} {life : ℕ → Life}

theorem userCode_staged (st : LoopStage) (acts : List α) :
    World.userCode b { w with stage := st } acts = w.userCode b acts >>= fun v => pure { v with stage := st } := by
  induction acts generalizing w with
  | nil => rfl
  | cons act acts ih =>
    rw [userCode_cons, userCode_cons, TameUserCode.staged]
    cases UserCode.perform b w act with
    | error f => rfl
    | ok v => exact ih

theorem userCode_framed (acts : List α) (hwf : w.poller.WellFormed) (ha : AcceptReady w.poller)
    (hok : w.userCode b acts = .ok v) : Frame w v := by
  induction acts generalizing w with
  | nil =>
    obtain rfl := Except.ok.inj hok
    exact .refl hwf ha
  | cons act acts ih =>
    rw [userCode_cons] at hok
    obtain ⟨u, hu, hok⟩ := bind_eq_ok.mp hok
    have hframe := TameUserCode.framed b w u act hwf ha hu
    exact hframe.trans (ih hframe.poller.wellFormed hframe.poller.acceptReady hok)

theorem Inv.releaseFunctors_eq {fs : List Functor} (h : w.Inv life) (hstage : w.stage = .pending [] fs)
    (acts : List (List α)) :
    w.releaseFunctors .debug acts fs =
      w.userCode .debug (destructorCalls acts fs) >>= fun v => pure { v with stage := .between } := by
  induction fs generalizing w acts with
  | nil => rfl
  | cons f fs ih =>
    have hpopped := h.popFunctor hstage
    have hfinish : ∀ calls : List α,
        (World.userCode .debug { w with stage := .pending [] fs } calls >>= fun v => pure { v with stage := .between }) =
          w.userCode .debug calls >>= fun v => pure { v with stage := .between } := by
      intro calls
      rw [userCode_staged]
      cases w.userCode .debug calls <;> rfl
    cases f with
    | connectDestoryed k =>
      have hold := h.stage
      rw [hstage] at hold
      simp only [World.releaseFunctors, hpopped.releaseConnection (hold.2 k List.mem_cons_self), ok_bind,
        destructorCalls]
      rw [ih hpopped rfl acts, hfinish]
    | user f =>
      rw [World.releaseFunctors, destructorCalls, ← hfinish, userCode_append]
      cases hcalls : World.userCode .debug { w with stage := .pending [] fs } (acts.headD []) with
      | error g => rfl
      | ok u =>
        have hframe := userCode_framed _ hpopped.wellFormed hpopped.acceptReady hcalls
        simp only [ok_bind]
        exact ih (hpopped.frame hframe) hframe.stage acts.tail

end World

/-! User code that may also replace the close callback of a connection. -/

inductive PublicCall
  | act (act : UserAction)
  | setCloseCallback (k : ℕ) (callback : Bool)
deriving DecidableEq, Repr

def World.setCloseCallback (w : World) (k : ℕ) (callback : Bool) : World :=
  w.updateConnection k fun conn => { conn with closeCallback := if callback then some .user else none }

instance : UserCode PublicCall where
  perform b w call :=
    match call with
    | .act act => w.userAction b act
    | .setCloseCallback k callback => pure (w.setCloseCallback k callback)

/-- The user leaves the close callbacks that the server has set. -/
def ServerEvent.KeepsCloseCallbacks (e : ServerEvent PublicCall) : Prop := ∀ c ∈ e.calls, ∃ act, PublicCall.act act = c

namespace World

variable {w w' w0 : World} {fds : BaseFds} {serverName : String} {es : List (ServerEvent PublicCall)}
  {e : ServerEvent PublicCall}

theorem step_act (b : Build) (w : World) (e : ServerEvent) : w.step b (e.map PublicCall.act) = w.step b e := by
  have hperform : ∀ (v : World) (act : UserAction), DoesAs (fun _ => false) (UserCode.perform b v act)
      (UserCode.perform b v (PublicCall.act act)) := fun v act => .refl (UserCode.perform b v act)
  have hrel := step_doesAs hperform w e
  generalize w.step b e = x, w.step b (e.map PublicCall.act) = y at hrel
  cases hrel with
  | none => rfl
  | some h => rw [h fun _ _ => rfl]

theorem run_act (hkeeps : ∀ e ∈ es, e.KeepsCloseCallbacks) (hrun : Run Next w0 es w) :
    ∃ es' : List ServerEvent, Run Next w0 es' w := by
  induction hrun with
  | nil => exact ⟨[], .nil⟩
  | @snoc es w e w' _ hn ih =>
    obtain ⟨es', hes'⟩ := ih fun e he => hkeeps e (by simp [he])
    obtain ⟨e', rfl⟩ := e.exists_map PublicCall.act (hkeeps e (by simp))
    refine ⟨es' ++ [e'], hes'.snoc ?_⟩
    rwa [Next, ← step_act]

/-- While the user leaves the close callbacks alone, every connection leads one orderly life, whatever the kernel
and the peers do. -/
theorem callbacks_kept_orderly (hw0 : construct .debug fds serverName = .ok w0) (hrun : Run Next w0 es w)
    (hkeeps : ∀ e ∈ es, e.KeepsCloseCallbacks) :
    (∀ k, Orderly (w.trace k)) ∧
      (∀ k conn, w.connection k = some conn → (states (w.trace k)).getLast? = some conn.state) ∧
      (w.stage = .between ∨ w.stage = .outside → w.Settled) ∧
      ∀ e : ServerEvent PublicCall, e.KeepsCloseCallbacks → ∀ f, w.step .debug e = some (.error f) →
        f = .fatal ∨ f = .undefinedBehaviour ∧ 2 ^ 31 ≤ w.created + 1 := by
  obtain ⟨es', hrun'⟩ := run_act hkeeps hrun
  obtain ⟨horderly, hstates, hsettled, hfaults⟩ := connections_orderly hw0 hrun'
  refine ⟨horderly, hstates, hsettled, fun e he f hf => ?_⟩
  obtain ⟨e', rfl⟩ := e.exists_map PublicCall.act he
  rw [step_act] at hf
  exact hfaults e' f hf

def twoConnections : List (ServerEvent PublicCall) :=
  [.user [.act .start], .enter,
    .poll (readable [2]), .handle ⟨.connected 10, 0, ⟨1, ⟨[]⟩⟩, [.act (.queueInLoop 7)]⟩, .takePending, .run [], .finish,
    .poll (readable [2, 3]), .handle ⟨.connected 11, 0, ⟨1, ⟨[]⟩⟩, []⟩,
    .handle ⟨.failed Errno.eagain, 0, ⟨0, ⟨[]⟩⟩, []⟩, .takePending, .run [], .finish]

theorem callbacks_kept_orderly_two : ∃ w0 w, construct .debug exampleFds "server" = .ok w0 ∧
    Run Next w0 twoConnections w ∧ w.created = 2 ∧ (∀ k, Orderly (w.trace k)) ∧
      (∀ k conn, w.connection k = some conn → (states (w.trace k)).getLast? = some conn.state) ∧
      (w.stage = .between ∨ w.stage = .outside → w.Settled) ∧
      ∀ e : ServerEvent PublicCall, e.KeepsCloseCallbacks → ∀ f, w.step .debug e = some (.error f) →
        f = .fatal ∨ f = .undefinedBehaviour ∧ 2 ^ 31 ≤ w.created + 1 := by
  obtain ⟨w0, w, hw0, hrun, hcreated⟩ :=
    run_of_advance exampleFds "server" twoConnections created (a := 2) (by decide +kernel)
  refine ⟨w0, w, hw0, hrun, hcreated, callbacks_kept_orderly hw0 hrun ?_⟩
  simp [twoConnections, ServerEvent.KeepsCloseCallbacks, ServerEvent.calls]

def closeCallbackReset : List (ServerEvent PublicCall) :=
  [.user [.act .start], .enter,
    .poll (readable [2]), .handle ⟨.connected 10, 0, ⟨1, ⟨[]⟩⟩, [.setCloseCallback 0 false]⟩, .takePending, .finish,
    .poll (readable [3]), .handle ⟨.failed Errno.eagain, 0, ⟨0, ⟨[]⟩⟩, []⟩, .takePending, .finish]

theorem close_callback_reset : ∃ w0 w, construct .debug exampleFds "server" = .ok w0 ∧
    Run Next w0 closeCallbackReset w ∧ w.stage = .between ∧ ¬ Orderly (w.trace 0) ∧ ¬ w.Settled := by
  obtain ⟨w0, w, hw0, hrun, hend⟩ := run_of_advance exampleFds "server" closeCallbackReset
    (fun w => (w.stage, (w.trace 0).map Prod.fst, (w.connection 0).map fun conn =>
      (conn.state, w.poller.pollfds.any fun pfd => pfd.fd = (conn.socketFd : ℤ))))
    (a := (.between, [.state .connecting, .state .connected, .connectionCallback true, .read 0, .handleClose],
      some (.connected, false))) (by decide +kernel)
  simp only [Prod.mk.injEq, Option.map_eq_some_iff] at hend
  obtain ⟨hstage, htrace, conn, hconn, hstate, hentries⟩ := hend
  refine ⟨w0, w, hw0, hrun, hstage, fun horderly => ?_, fun hsettled => ?_⟩
  · have hqueued := horderly.queued
    rw [htrace] at hqueued
    exact absurd hqueued (by decide)
  · obtain ⟨r, hr⟩ := hsettled.entry 0 conn hconn hstate
    have hmem : (⟨conn.socketFd, Channel.kReadEvent.toInt16, r⟩ : PollFd) ∈ w.poller.pollfds :=
      List.mem_of_mem_filter (hr ▸ List.mem_singleton_self _)
    simpa using List.any_eq_false.mp hentries _ hmem

end World

end Penduo
