import Penduo.CheckedBuilds
import Penduo.ServerRuns

set_option autoImplicit false

namespace Penduo

/-! The operations whose assertions have no side effect. -/

namespace Poller

variable {κ : Type} [DecidableEq κ]

theorem updateChannel_survives (p : Poller κ) (c : κ) :
    Survives (p.updateChannel .debug c) (p.updateChannel .ndebug c) := by
  unfold updateChannel
  apply DoesAs.ite
  · apply DoesAs.bind (survives_check _ _)
    intro _
    exact .refl _
  · apply DoesAs.bind (survives_check _ _)
    intro _
    apply DoesAs.bind (survives_check _ _)
    intro _
    apply DoesAs.bind (survives_check _ _)
    intro _
    apply DoesAs.skip
    intro pfd
    apply DoesAs.bind (survives_check _ _)
    intro _
    exact .refl _

theorem fillActiveChannels_survives (pollfds : List PollFd) (p : Poller κ) (numEvents : ℤ) (active : List κ) :
    Survives (fillActiveChannels .debug p pollfds numEvents active)
      (fillActiveChannels .ndebug p pollfds numEvents active) := by
  induction pollfds generalizing p numEvents active with
  | nil => exact .refl _
  | cons pfd rest ih =>
    simp only [fillActiveChannels, pure_eq_ok, ok_bind]
    apply DoesAs.ite
    · apply DoesAs.bind (survives_check _ _)
      intro _
      apply DoesAs.skip
      intro c
      apply DoesAs.bind (survives_check _ _)
      intro _
      apply DoesAs.ite
      · exact .refl _
      · exact ih _ _ _
    · apply DoesAs.ite
      · exact .refl _
      · exact ih _ _ _

theorem poll_survives (p : Poller κ) (r : PollResult) (active : List κ) :
    Survives (p.poll .debug r active) (p.poll .ndebug r active) := by
  unfold poll
  apply DoesAs.ite
  · exact .refl _
  · apply DoesAs.ite
    · exact fillActiveChannels_survives _ _ _ _
    · exact .refl _

end Poller

namespace Channel

variable {κ : Type} [DecidableEq κ]

theorem update_survives (p : Poller κ) (c : κ) : Survives (update .debug p c) (update .ndebug p c) := by
  unfold update
  apply (p.updateChannel_survives c).bind
  intro q
  exact .refl _

end Channel

namespace World

theorem start_survives (w : World) (ret : Int32) : Survives (w.start .debug ret) (w.start .ndebug ret) := by
  unfold start
  apply DoesAs.skip
  intro _
  apply (Channel.update_survives _ _).bind
  intro p
  exact .refl _

theorem userCode_survives (w : World) (acts : List UserAction) :
    Survives (w.userCode .debug acts) (w.userCode .ndebug acts) := by
  apply DoesAs.foldlM
  intro w act
  cases act with
  | start => exact w.start_survives 0
  | _ => exact .refl _

end World

namespace TcpConnection

theorem callConnectionCallback_survives (w : World) (k : ℕ) (acts : List UserAction) :
    Survives (callConnectionCallback .debug w k acts) (callConnectionCallback .ndebug w k acts) := by
  unfold callConnectionCallback
  apply DoesAs.skip
  intro conn
  apply DoesAs.ite
  · exact World.userCode_survives _ acts
  · exact .refl _

theorem connectEstablish_survives (w : World) (k : ℕ) (acts : List UserAction) :
    Survives (connectEstablish .debug w k acts) (connectEstablish .ndebug w k acts) := by
  unfold connectEstablish
  apply DoesAs.skip
  intro conn
  apply DoesAs.bind (survives_check _ _)
  intro _
  apply DoesAs.bind (survives_check _ _)
  intro _
  apply (Channel.update_survives _ _).bind
  intro p
  exact callConnectionCallback_survives _ k acts

end TcpConnection

theorem TcpServer.newConnection_survives (w : World) (fd : ℕ) (acts : List UserAction) :
    Survives (newConnection .debug w fd acts) (newConnection .ndebug w fd acts) := by
  unfold newConnection
  apply DoesAs.ite
  · exact .refl _
  · exact TcpConnection.connectEstablish_survives _ _ acts

/-! The operations that erase inside an assertion. -/

section Erase

variable {κ : Type} [DecidableEq κ] {p p' : Poller κ} {c : κ}

theorem Poller.renumberMoved_channels {b : Build} {idx : ℤ} (h : renumberMoved b p idx = .ok p') :
    p'.channels = p.channels := by
  simp only [renumberMoved, bind_eq_ok, pure_eq_ok, Except.ok.injEq] at h
  obtain ⟨_, _, _, _, _, _, rfl⟩ := h
  rfl

theorem Poller.removeChannel_channels {b : Build} (h : p.removeChannel b c = .ok p') :
    b.checkEffect .removeErased p.channels
      (fun m => (if ((p.channel c).fd : ℤ) ∈ m then 1 else 0, m.erase (p.channel c).fd)) 1 = .ok p'.channels := by
  simp only [removeChannel, bind_eq_ok] at h
  obtain ⟨_, _, _, _, _, _, _, _, _, _, _, _, channels, hchannels, hrest⟩ := h
  rw [hchannels]
  apply congrArg Except.ok
  split_ifs at hrest
  · obtain ⟨q, hq, hp'⟩ := bind_eq_ok.mp hrest
    obtain rfl := Except.ok.inj hp'
    exact (renumberMoved_channels hq).symm
  · obtain rfl := Except.ok.inj hrest
    rfl

theorem Poller.removeChannel_differs {p₁ p₂ : Poller κ} (h₁ : p.removeChannel .debug c = .ok p₁)
    (h₂ : p.removeChannel .ndebug c = .ok p₂) : p₂.channels ≠ p₁.channels := by
  obtain ⟨herased, hdebug⟩ := checkEffect_debug_eq_ok.mp (removeChannel_channels h₁)
  have hndebug : p.channels = p₂.channels := Except.ok.inj (removeChannel_channels h₂)
  intro heq
  rw [hdebug, ← hndebug] at heq
  have hmem : ((p.channel c).fd : ℤ) ∈ p.channels := by
    by_contra hnot
    simp [hnot] at herased
  rw [heq] at hmem
  exact (AList.mem_erase.mp hmem).1 rfl

theorem Channel.remove_differs {p₁ p₂ : Poller κ} (h₁ : Channel.remove .debug p c = .ok p₁)
    (h₂ : Channel.remove .ndebug p c = .ok p₂) : p₂.channels ≠ p₁.channels := by
  obtain ⟨_, _, h₁⟩ := bind_eq_ok.mp h₁
  obtain ⟨_, _, h₁⟩ := bind_eq_ok.mp h₁
  obtain ⟨_, _, h₂⟩ := bind_eq_ok.mp h₂
  obtain ⟨_, _, h₂⟩ := bind_eq_ok.mp h₂
  exact Poller.removeChannel_differs h₁ h₂

theorem Poller.renumberMoved_onlyAsserts {idx : ℤ} (hidx : idx.toNat < p.pollfds.length) :
    OnlyAsserts (renumberMoved .debug p idx) := by
  unfold renumberMoved
  apply (OnlyAsserts.require (List.getElem?_eq_getElem hidx) _).bind
  intro moved _
  apply (OnlyAsserts.check _ _).bind
  intro _ hmem
  obtain ⟨m, hm⟩ := FiniteMap.mem_iff_find.mp (check_debug_eq_ok.mp hmem)
  apply (OnlyAsserts.require hm _).bind
  intro m _
  exact .ok _

theorem Poller.removeChannel_onlyAsserts (p : Poller κ) (c : κ) : OnlyAsserts (p.removeChannel .debug c) := by
  unfold removeChannel
  apply (OnlyAsserts.check _ _).bind
  intro _ _
  apply (OnlyAsserts.check _ _).bind
  intro _ _
  apply (OnlyAsserts.check _ _).bind
  intro _ _
  apply (OnlyAsserts.check _ _).bind
  intro _ hindex
  obtain ⟨hnonneg, hlt⟩ := check_debug_eq_ok.mp hindex
  have hslot : (p.channel c).pollfdsIndex.toNat < p.pollfds.length := by omega
  have hentry : (if (p.channel c).pollfdsIndex < 0 then none else p.pollfds[(p.channel c).pollfdsIndex.toNat]?) =
      some p.pollfds[(p.channel c).pollfdsIndex.toNat] := by
    rw [if_neg (by omega)]
    exact List.getElem?_eq_getElem hslot
  apply (OnlyAsserts.require hentry _).bind
  intro pfd _
  apply (OnlyAsserts.check _ _).bind
  intro _ _
  apply (OnlyAsserts.checkEffect _ _ _ _).bind
  intro channels _
  dsimp only
  split_ifs
  · apply (renumberMoved_onlyAsserts _).bind
    · intro q _
      exact .ok _
    · rw [BackReferences.swapBack_length]
      exact hslot
  · exact .ok _

theorem Channel.remove_onlyAsserts (p : Poller κ) (c : κ) : OnlyAsserts (Channel.remove .debug p c) := by
  unfold Channel.remove
  apply (OnlyAsserts.check _ _).bind
  intro _ _
  apply (OnlyAsserts.check _ _).bind
  intro _ _
  exact Poller.removeChannel_onlyAsserts _ c

theorem TcpServer.removeConnection_sameFaults (w : World) (k : ℕ) :
    SameFaults (removeConnection .debug w k) (removeConnection .ndebug w k) := by
  unfold removeConnection
  apply SameFaults.bind (.refl _)
  intro conn
  apply SameFaults.of_onlyAsserts
  apply (OnlyAsserts.checkEffect _ _ _ _).bind
  intro connections _
  exact .ok _

theorem TcpConnection.connectDestoryed_sameFaults (w : World) (k : ℕ) (acts : List UserAction) :
    SameFaults (connectDestoryed .debug w k acts) (connectDestoryed .ndebug w k acts) := by
  unfold connectDestoryed
  apply SameFaults.bind (.refl _)
  intro conn
  apply SameFaults.bind (survives_check _ _)
  intro _
  apply SameFaults.bind (Channel.update_survives _ _)
  intro p
  apply SameFaults.bind (callConnectionCallback_survives _ _ _)
  intro v
  apply SameFaults.of_onlyAsserts
  apply (Channel.remove_onlyAsserts _ _).bind
  intro q _
  exact .ok _

theorem TcpServer.removeConnection_differs {w w₁ w₂ : World} {k : ℕ} (h₁ : removeConnection .debug w k = .ok w₁)
    (h₂ : removeConnection .ndebug w k = .ok w₂) : w₂.server.connections ≠ w₁.server.connections := by
  simp only [removeConnection, bind_eq_ok, require_eq_ok, checkEffect_debug_eq_ok] at h₁ h₂
  obtain ⟨conn, hconn, _, ⟨herased, rfl⟩, h₁⟩ := h₁
  obtain ⟨_, _, _, hkept, h₂⟩ := h₂
  obtain rfl := Except.ok.inj h₁
  obtain rfl := Except.ok.inj h₂
  obtain rfl := Except.ok.inj hkept
  have hmem : conn.name ∈ w.server.connections := by
    by_contra hnot
    simp [hnot] at herased
  intro heq
  have herase : w.server.connections = AList.erase conn.name w.server.connections := heq
  rw [herase] at hmem
  exact (AList.mem_erase.mp hmem).1 rfl

theorem TcpConnection.connectDestoryed_differs {w w₁ w₂ : World} {k : ℕ} {acts : List UserAction}
    (h₁ : connectDestoryed .debug w k acts = .ok w₁) (h₂ : connectDestoryed .ndebug w k acts = .ok w₂) :
    w₂.poller.channels ≠ w₁.poller.channels := by
  simp only [connectDestoryed, bind_eq_ok] at h₁ h₂
  obtain ⟨conn, hconn, _, _, p, hp, v, hv, q, hq, h₁⟩ := h₁
  obtain ⟨_, _, _, _, p', hp', v', hv', q', hq', h₂⟩ := h₂
  obtain rfl : p = p' := Except.ok.inj (((Channel.update_survives _ _).ok hp).symm.trans hp')
  obtain rfl : v = v' := Except.ok.inj (((callConnectionCallback_survives _ _ _).ok hv).symm.trans hv')
  obtain rfl := Except.ok.inj h₁
  obtain rfl := Except.ok.inj h₂
  exact Channel.remove_differs hq hq'

end Erase

/-! Sequences of operations. -/

inductive ServerOp
  | updateChannel (c : ChannelId)
  | removeChannel (c : ChannelId)
  | poll (r : PollResult)
  | enableReading (c : ChannelId)
  | disableAll (c : ChannelId)
  | remove (c : ChannelId)
  | newConnection (fd : ℕ) (acts : List UserAction)
  | removeConnection (k : ℕ)
  | connectDestoryed (k : ℕ) (acts : List UserAction)

namespace ServerOp

def onPoller (w : World) (x : Except Fault (Poller ChannelId)) : Except Fault (World × List ChannelId) := do
  let poller ← x
  pure ({ w with poller }, [])

def onWorld (x : Except Fault World) : Except Fault (World × List ChannelId) := do
  let w ← x
  pure (w, [])

def run (b : Build) (w : World) : ServerOp → Except Fault (World × List ChannelId)
  | updateChannel c => onPoller w (w.poller.updateChannel b c)
  | removeChannel c => onPoller w (w.poller.removeChannel b c)
  | poll r => do
    let (poller, active) ← w.poller.poll b r []
    pure ({ w with poller }, active)
  | enableReading c => onPoller w (Channel.enableReading b w.poller c)
  | disableAll c => onPoller w (Channel.disableAll b w.poller c)
  | remove c => onPoller w (Channel.remove b w.poller c)
  | newConnection fd acts => onWorld (TcpServer.newConnection b w fd acts)
  | removeConnection k => onWorld (TcpServer.removeConnection b w k)
  | connectDestoryed k acts => onWorld (TcpConnection.connectDestoryed b w k acts)

def erases : ServerOp → Bool
  | removeChannel _ | remove _ | removeConnection _ | connectDestoryed _ _ => true
  | _ => false

structure Visible where
  pollfds : List PollFd
  channels : FiniteMap ℤ ChannelId
  channel : ChannelId → Channel
  connections : FiniteMap String ℕ
  pendingFunctors : List Functor
  active : List ChannelId

def visible (w : World) (active : List ChannelId) : Visible :=
  { pollfds := w.poller.pollfds, channels := w.poller.channels, channel := w.poller.channel,
    connections := w.server.connections, pendingFunctors := w.loop.pendingFunctors, active }

def history (b : Build) : World → List ServerOp → List (Except Fault Visible)
  | _, [] => []
  | w, op :: ops =>
    match op.run b w with
    | .ok (w', active) => .ok (visible w' active) :: history b w' ops
    | .error f => [.error f]

def completed (b : Build) : World → List ServerOp → List ServerOp
  | _, [] => []
  | w, op :: ops =>
    match op.run b w with
    | .ok (w', _) => op :: completed b w' ops
    | .error _ => []

variable {w w₁ w₂ : World} {op : ServerOp} {ops : List ServerOp} {active active₁ active₂ : List ChannelId}

theorem run_survives (h : op.erases = false) : Survives (op.run .debug w) (op.run .ndebug w) := by
  cases op with
  | updateChannel c => exact (w.poller.updateChannel_survives c).bind fun _ => .refl _
  | poll r => exact (w.poller.poll_survives r []).bind fun _ => .refl _
  | enableReading c => exact (Channel.update_survives _ c).bind fun _ => .refl _
  | disableAll c => exact (Channel.update_survives _ c).bind fun _ => .refl _
  | newConnection fd acts => exact (TcpServer.newConnection_survives w fd acts).bind fun _ => .refl _
  | removeChannel c => simp [erases] at h
  | remove c => simp [erases] at h
  | removeConnection k => simp [erases] at h
  | connectDestoryed k acts => simp [erases] at h

theorem onPoller_differs {x y : Except Fault (Poller ChannelId)}
    (hxy : ∀ p q, x = .ok p → y = .ok q → q.channels ≠ p.channels)
    (h₁ : onPoller w x = .ok (w₁, active₁)) (h₂ : onPoller w y = .ok (w₂, active₂)) :
    w₂.poller.channels ≠ w₁.poller.channels := by
  obtain ⟨p, hp, h₁⟩ := bind_eq_ok.mp h₁
  obtain ⟨q, hq, h₂⟩ := bind_eq_ok.mp h₂
  obtain ⟨rfl, _⟩ := Prod.mk.inj (Except.ok.inj h₁)
  obtain ⟨rfl, _⟩ := Prod.mk.inj (Except.ok.inj h₂)
  exact hxy p q hp hq

theorem onWorld_differs {β : Type} {f : World → β} {x y : Except Fault World}
    (hxy : ∀ v v', x = .ok v → y = .ok v' → f v' ≠ f v)
    (h₁ : onWorld x = .ok (w₁, active₁)) (h₂ : onWorld y = .ok (w₂, active₂)) : f w₂ ≠ f w₁ := by
  obtain ⟨v, hv, h₁⟩ := bind_eq_ok.mp h₁
  obtain ⟨v', hv', h₂⟩ := bind_eq_ok.mp h₂
  obtain ⟨rfl, _⟩ := Prod.mk.inj (Except.ok.inj h₁)
  obtain ⟨rfl, _⟩ := Prod.mk.inj (Except.ok.inj h₂)
  exact hxy v v' hv hv'

theorem run_differs (h : op.erases = true) (h₁ : op.run .debug w = .ok (w₁, active₁))
    (h₂ : op.run .ndebug w = .ok (w₂, active₂)) :
    w₂.poller.channels ≠ w₁.poller.channels ∨ w₂.server.connections ≠ w₁.server.connections := by
  cases op with
  | removeChannel c => exact Or.inl (onPoller_differs (fun _ _ => Poller.removeChannel_differs) h₁ h₂)
  | remove c => exact Or.inl (onPoller_differs (fun _ _ => Channel.remove_differs) h₁ h₂)
  | removeConnection k => exact Or.inr (onWorld_differs (fun _ _ => TcpServer.removeConnection_differs) h₁ h₂)
  | connectDestoryed k acts =>
    exact Or.inl (onWorld_differs (fun _ _ => TcpConnection.connectDestoryed_differs) h₁ h₂)
  | updateChannel c => simp [erases] at h
  | poll r => simp [erases] at h
  | enableReading c => simp [erases] at h
  | disableAll c => simp [erases] at h
  | newConnection fd acts => simp [erases] at h

theorem run_sameFaults (h : op.erases = true) : SameFaults (op.run .debug w) (op.run .ndebug w) := by
  cases op with
  | removeChannel c => exact .of_onlyAsserts ((Poller.removeChannel_onlyAsserts _ c).bind fun _ _ => .ok _)
  | remove c => exact .of_onlyAsserts ((Channel.remove_onlyAsserts _ c).bind fun _ _ => .ok _)
  | removeConnection k => exact (TcpServer.removeConnection_sameFaults w k).returns _
  | connectDestoryed k acts => exact (TcpConnection.connectDestoryed_sameFaults w k acts).returns _
  | updateChannel c => simp [erases] at h
  | poll r => simp [erases] at h
  | enableReading c => simp [erases] at h
  | disableAll c => simp [erases] at h
  | newConnection fd acts => simp [erases] at h

/-- As long as no assertion fails, compiling assertions out changes nothing exactly if no operation
that returns erases. -/
theorem history_eq_iff (h : ∀ x ∈ history .debug w ops, assertionFails x = false) :
    history .ndebug w ops = history .debug w ops ↔ ∀ op ∈ completed .debug w ops, op.erases = false := by
  induction ops generalizing w with
  | nil => simp [history, completed]
  | cons op ops ih =>
    cases hrun : op.run .debug w with
    | error f =>
      have hf : f.isAssertion = false := h (.error f) (by simp [history, hrun])
      have hrun' : op.run .ndebug w = .error f := by
        cases herases : op.erases with
        | false => exact (run_survives herases).error hrun hf
        | true => exact run_sameFaults herases f hf hrun
      simp [history, completed, hrun, hrun']
    | ok s =>
      obtain ⟨w', active⟩ := s
      have hrest : ∀ x ∈ history .debug w' ops, assertionFails x = false :=
        fun x hx => h x (by simp [history, hrun, hx])
      cases herases : op.erases with
      | false =>
        have hrun' := (run_survives herases).ok hrun
        simp [history, completed, hrun, hrun', ih hrest, herases]
      | true =>
        constructor
        · intro heq
          exfalso
          cases hrun' : op.run .ndebug w with
          | error f => simp [history, hrun, hrun'] at heq
          | ok s' =>
            obtain ⟨w'', active'⟩ := s'
            simp only [history, hrun, hrun', List.cons.injEq, Except.ok.injEq] at heq
            rcases run_differs herases hrun hrun' with hdiff | hdiff
            · exact hdiff (congrArg Visible.channels heq.1)
            · exact hdiff (congrArg Visible.connections heq.1)
        · intro hnone
          have hop := hnone op (by simp [completed, hrun])
          simp [herases] at hop

def exampleServer : World := { World.blank World.exampleFds "server" with poller := World.built World.exampleFds }

def acceptAndPoll : List ServerOp :=
  [.newConnection 10 [.start], .disableAll (.connection 0), .poll (World.readable [3]), .newConnection 11 []]

theorem history_eq_iff_accept :
    history .ndebug exampleServer acceptAndPoll = history .debug exampleServer acceptAndPoll ↔
      ∀ op ∈ completed .debug exampleServer acceptAndPoll, op.erases = false :=
  history_eq_iff (by decide +kernel)

def acceptAndClose : List ServerOp := [.newConnection 10 [], .removeConnection 0, .connectDestoryed 0 []]

def sizes (b : Build) : List (Option (ℕ × ℕ)) :=
  (history b exampleServer acceptAndClose).map fun x => x.toOption.map fun v => (v.connections.size, v.channels.size)

theorem closed_connection_kept : (∀ x ∈ history .debug exampleServer acceptAndClose, assertionFails x = false) ∧
    sizes .debug = [some (1, 3), some (0, 3), some (0, 2)] ∧ sizes .ndebug = [some (1, 3), some (1, 3), some (1, 3)] ∧
    history .ndebug exampleServer acceptAndClose ≠ history .debug exampleServer acceptAndClose := by
  have hdebug : sizes .debug = [some (1, 3), some (0, 3), some (0, 2)] := by decide +kernel
  have hndebug : sizes .ndebug = [some (1, 3), some (1, 3), some (1, 3)] := by decide +kernel
  refine ⟨by decide +kernel, hdebug, hndebug, fun heq => ?_⟩
  have hsizes : sizes .ndebug = sizes .debug := by rw [sizes, heq, sizes]
  rw [hdebug, hndebug] at hsizes
  exact absurd hsizes (by decide)

end ServerOp

end Penduo
