import Penduo.ServerStart

set_option autoImplicit false

namespace Penduo

open LabelledRuns

/-- What is left of `acts` when only the first call of `start()` is made, and `started` tells
whether it has been made before. -/
def firstStart : Bool → List UserAction → List UserAction
  | _, [] => []
  | true, .start :: acts => firstStart true acts
  | false, .start :: acts => .start :: firstStart true acts
  | started, act :: acts => act :: firstStart started acts

theorem firstStart_of_ne {act : UserAction} (hact : act ≠ .start) (started : Bool) (acts : List UserAction) :
    firstStart started (act :: acts) = act :: firstStart started acts := by
  cases act with
  | start => exact absurd rfl hact
  | _ => cases started <;> rfl

theorem firstStart_count (started : Bool) (acts : List UserAction) :
    (firstStart started acts).count .start ≤ if started then 0 else 1 := by
  induction acts generalizing started with
  | nil => simp [firstStart]
  | cons act acts ih =>
    by_cases hact : act = .start
    · subst hact
      have htrue := ih true
      cases started with
      | true => exact htrue
      | false => simpa [firstStart] using htrue
    · rw [firstStart_of_ne hact, List.count_cons_of_ne hact]
      exact ih started

theorem firstStart_true (started : Bool) (acts : List UserAction) :
    firstStart true (firstStart started acts) = firstStart true acts := by
  induction acts generalizing started with
  | nil => rfl
  | cons act acts ih =>
    by_cases hact : act = .start
    · subst hact
      cases started with
      | true => exact ih true
      | false => exact ih true
    · rw [firstStart_of_ne hact, firstStart_of_ne hact, firstStart_of_ne hact, ih started]

def firstStarts : Bool → List (List UserAction) → List (List UserAction)
  | _, [] => []
  | started, acts :: rest => firstStart started acts :: firstStarts (started || decide (.start ∈ acts)) rest

theorem firstStart_append (started : Bool) (acts acts' : List UserAction) :
    firstStart started (acts ++ acts') =
      firstStart started acts ++ firstStart (started || decide (.start ∈ acts)) acts' := by
  induction acts generalizing started with
  | nil => simp [firstStart]
  | cons act acts ih =>
    by_cases hact : act = .start
    · subst hact
      cases started <;> simp [firstStart, ih]
    · rw [List.cons_append, firstStart_of_ne hact, firstStart_of_ne hact, ih, List.cons_append]
      simp [Ne.symm hact]

theorem firstStarts_flatten (started : Bool) (acts : List (List UserAction)) :
    (firstStarts started acts).flatten = firstStart started acts.flatten := by
  induction acts generalizing started with
  | nil => cases started <;> rfl
  | cons calls acts ih => rw [firstStarts, List.flatten_cons, List.flatten_cons, firstStart_append, ih]

theorem firstStarts_true (started : Bool) (acts : List (List UserAction)) :
    firstStarts true (firstStarts started acts) = firstStarts true acts := by
  induction acts generalizing started with
  | nil => rfl
  | cons calls acts ih => simp only [firstStarts, firstStart_true, Bool.true_or, ih]

theorem destructorCalls_firstStarts (started : Bool) (acts : List (List UserAction)) (functors : List Functor) :
    destructorCalls (firstStarts started acts) functors = firstStart started (destructorCalls acts functors) := by
  induction functors generalizing started acts with
  | nil => cases started <;> rfl
  | cons f functors ih =>
    cases f with
    | connectDestoryed k => exact ih started acts
    | user f =>
      cases acts with
      | nil => exact ih started []
      | cons calls acts =>
        simp only [firstStarts, destructorCalls, List.headD_cons, List.tail_cons, firstStart_append, ih]

namespace ServerEvent

def trim (started : Bool) : ServerEvent → ServerEvent
  | .user acts => .user (firstStart started acts)
  | .handle input => .handle { input with acts := firstStart started input.acts }
  | .run acts => .run (firstStart started acts)
  | .finish acts => .finish (firstStarts started acts)
  | e => e

def withoutStarts (e : ServerEvent) : ServerEvent := e.trim true

theorem trim_calls (started : Bool) (e : ServerEvent) : (e.trim started).calls = firstStart started e.calls := by
  cases e with
  | finish acts => exact firstStarts_flatten started acts
  | _ => cases started <;> rfl

theorem trim_withoutStarts (started : Bool) (e : ServerEvent) : (e.trim started).withoutStarts = e.withoutStarts := by
  cases e <;> simp [trim, withoutStarts, firstStart_true, firstStarts_true]

def bare {α : Type} : ServerEvent α → ServerEvent Empty
  | .user _ => .user []
  | .queueElsewhere f => .queueElsewhere f
  | .quitElsewhere => .quitElsewhere
  | .enter => .enter
  | .leave => .leave
  | .poll r => .poll r
  | .handle input => .handle ⟨input.accepted, input.errno, input.readFd, []⟩
  | .takePending => .takePending
  | .run _ => .run []
  | .finish _ => .finish []

theorem trim_bare (started : Bool) (e : ServerEvent) : (e.trim started).bare = e.bare := by
  cases e <;> rfl

theorem map_bare {α β : Type} (f : α → β) (e : ServerEvent α) : (e.map f).bare = e.bare := by
  cases e <;> rfl

end ServerEvent

instance : UserCode Empty := ⟨fun _ _ act => act.elim⟩

namespace World

variable {w v w' u u' z z' w0 : World} {life : ℕ → Life} {k : ℕ} {c : ChannelId} {input : HandlerInput}
  {acts : List UserAction} {e : ServerEvent} {rest : List ChannelId}

/-- Two servers that differ only in the `revents` that the next `::poll` overwrites. -/
structure Alike (w v : World) : Prop where
  poller : w.poller.SameEntries v.poller
  rest : v = { w with poller := v.poller }

theorem Alike.refl (w : World) : Alike w w := ⟨.refl _, rfl⟩

theorem Alike.symm (h : Alike w v) : Alike v w where
  poller := h.poller.symm
  rest := by rw [h.rest]

theorem Alike.trans (h : Alike w v) (h' : Alike v u) : Alike w u where
  poller := h.poller.trans h'.poller
  rest := by rw [h'.rest, h.rest]

theorem Alike.split (h : Alike w v) : ∃ p, w.poller.SameEntries p ∧ v = { w with poller := p } :=
  ⟨v.poller, h.poller, h.rest⟩

theorem Alike.stage (h : Alike w v) : v.stage = w.stage := by rw [h.rest]

theorem Alike.created (h : Alike w v) : v.created = w.created := by rw [h.rest]

theorem Alike.openFds (h : Alike w v) : v.openFds = w.openFds := by rw [h.rest]

theorem Inv.alike (h : w.Inv life) (hv : Alike w v) : v.Inv life := by
  rw [hv.rest]
  exact h.sameTable hv.poller.sameTable

section UserCode

def Listens (w : World) : Prop := w.server.listening = true ∧ w.poller.Registered .accept

theorem AcceptReady.enabled {p : Poller ChannelId} (h : AcceptReady p) (hreg : p.Registered .accept) :
    p.Enabled .accept := by
  rcases h with henabled | ⟨hnot, _⟩
  · exact henabled
  · exact absurd hreg hnot

theorem start_eq (w : World) : w.start .debug 0 = (do
    let poller ← Channel.enableReading .debug w.poller .accept
    pure { w with server := { w.server with started := true, listening := true }, poller }) := rfl

theorem start_registered (hwf : w.poller.WellFormed) (hreg : w.poller.Registered .accept) :
    w.start .debug 0 = .ok { w with
      server := { w.server with started := true, listening := true }
      poller := w.poller.rewrite .accept Channel.kReadEvent } := by
  rw [start_eq, Poller.enableReading_eq, (hwf.events .accept).or_read, Poller.setEvents_old hwf hreg]
  rfl

theorem start_unregistered (hwf : w.poller.WellFormed) (hidx : (w.poller.channel .accept).pollfdsIndex < 0)
    (hfd : ((w.poller.channel .accept).fd : ℤ) ∉ w.poller.channels) :
    w.start .debug 0 = .ok { w with
      server := { w.server with started := true, listening := true }
      poller := w.poller.append .accept Channel.kReadEvent } := by
  rw [start_eq, Poller.enableReading_eq, (hwf.events .accept).or_read, Poller.setEvents_new hidx hfd]
  rfl

theorem started_listening {server : TcpServer} (hstarted : server.started = true)
    (hlistening : server.listening = true) :
    { server with started := true, listening := true } = server := by
  cases server
  obtain rfl := hstarted
  obtain rfl := hlistening
  rfl

theorem start_again (hwf : w.poller.WellFormed) (ha : AcceptReady w.poller) (hstarted : w.server.started = true)
    (hlistens : w.Listens) : ∃ w', w.start .debug 0 = .ok w' ∧ Alike w w' ∧ w'.server = w.server := by
  obtain ⟨hlistening, hreg⟩ := hlistens
  have hserver := started_listening hstarted hlistening
  refine ⟨_, start_registered hwf hreg, ⟨?_, ?_⟩, hserver⟩
  · exact Poller.sameEntries_rewrite hwf hreg (AcceptReady.enabled ha hreg).2 Channel.kReadEvent_ne_none
  · rw [hserver]

theorem start_alike (h : Alike w v) (hwf : w.poller.WellFormed) (ha : AcceptReady w.poller) :
    ∃ w' v', w.start .debug 0 = .ok w' ∧ v.start .debug 0 = .ok v' ∧ Alike w' v' ∧
      w'.server.started = true ∧ w'.Listens := by
  obtain ⟨p, hp, rfl⟩ := h.split
  have hwf' : p.WellFormed := hp.sameTable.wellFormed hwf
  rcases ha with ⟨hreg, _⟩ | ⟨_, hidx, hfd⟩
  · have hreg' := (hp.registered _).mpr hreg
    refine ⟨_, _, start_registered hwf hreg, start_registered hwf' hreg', ⟨?_, rfl⟩, rfl, rfl, ?_⟩
    · exact hp.rewrite _ _
    · exact (Poller.rewrite_registered _).mpr hreg
  · have hidx' : (p.channel .accept).pollfdsIndex < 0 := by
      rw [hp.channel]
      exact hidx
    have hfd' : ((p.channel .accept).fd : ℤ) ∉ p.channels := by
      rw [hp.channel, hp.channels]
      exact hfd
    refine ⟨_, _, start_unregistered hwf hidx hfd, start_unregistered hwf' hidx' hfd', ⟨?_, rfl⟩, rfl, rfl, ?_⟩
    · exact hp.append _ _
    · exact (Poller.append_registered hfd _).mpr (Or.inl rfl)

theorem userAction_alike (h : Alike w v) {act : UserAction} (hact : act ≠ .start) :
    ∃ w' v', w.userAction .debug act = .ok w' ∧ v.userAction .debug act = .ok v' ∧ Alike w' v' ∧
      w'.server = w.server ∧ w'.poller = w.poller := by
  obtain ⟨p, hp, rfl⟩ := h.split
  cases act with
  | start => exact absurd rfl hact
  | queueInLoop f => exact ⟨_, _, rfl, rfl, ⟨hp, rfl⟩, rfl, rfl⟩
  | queueElsewhere f => exact ⟨_, _, rfl, rfl, ⟨hp, rfl⟩, rfl, rfl⟩
  | quit => exact ⟨_, _, rfl, rfl, ⟨hp, rfl⟩, rfl, rfl⟩
  | receive k => exact ⟨_, _, rfl, rfl, ⟨hp, rfl⟩, rfl, rfl⟩

theorem userCode_step {act : UserAction} (hok : w.userAction .debug act = .ok v) (acts : List UserAction) :
    w.userCode .debug (act :: acts) = v.userCode .debug acts := by
  rw [World.userCode_cons, perform_userAction, hok, ok_bind]

theorem userCode_firstStart (h : Alike w v) (hwf : w.poller.WellFormed) (ha : AcceptReady w.poller)
    (hlistens : w.server.started = true → w.Listens) (acts : List UserAction) :
    ∃ w' v', w.userCode .debug acts = .ok w' ∧ v.userCode .debug (firstStart w.server.started acts) = .ok v' ∧
      Alike w' v' ∧ Frame w w' ∧ (w'.server.started = true → w'.Listens) := by
  induction acts generalizing w v with
  | nil => exact ⟨w, v, rfl, rfl, h, .refl hwf ha, hlistens⟩
  | cons act acts ih =>
    obtain ⟨x, hx, hframe⟩ := userAction_ok (b := .debug) hwf ha act
    have hwf' := hframe.poller.wellFormed
    have ha' := hframe.poller.acceptReady
    by_cases hact : act = .start
    · subst hact
      have hstart : w.start .debug 0 = .ok x := hx
      cases hstarted : w.server.started with
      | true =>
        obtain ⟨y, hy, hsame, hserver⟩ := start_again hwf ha hstarted (hlistens hstarted)
        obtain rfl : x = y := Except.ok.inj (hstart.symm.trans hy)
        have hback : Alike x v := hsame.symm.trans h
        have hlistens' : x.server.started = true → x.Listens := by
          intro _
          obtain ⟨hlistening, hreg⟩ := hlistens hstarted
          exact ⟨by rw [hserver]; exact hlistening, (hsame.poller.registered _).mpr hreg⟩
        obtain ⟨w', v', hw', hv', hend, hframe', hl⟩ := ih hback hwf' ha' hlistens'
        rw [hserver, hstarted] at hv'
        exact ⟨w', v', by rw [userCode_step hx, hw'], hv', hend, hframe.trans hframe', hl⟩
      | false =>
        obtain ⟨y, y', hy, hy', hsame, hstarted', hl'⟩ := start_alike h hwf ha
        obtain rfl : x = y := Except.ok.inj (hstart.symm.trans hy)
        obtain ⟨w', v', hw', hv', hend, hframe', hl⟩ := ih hsame hwf' ha' fun _ => hl'
        rw [hstarted'] at hv'
        have hcons : v.userAction .debug .start = .ok y' := hy'
        exact ⟨w', v', by rw [userCode_step hx, hw'], by rw [firstStart, userCode_step hcons, hv'], hend,
          hframe.trans hframe', hl⟩
    · obtain ⟨y, y', hy, hy', hsame, hserver, hpoller⟩ := userAction_alike h hact
      obtain rfl : x = y := Except.ok.inj (hx.symm.trans hy)
      have hlistens' : x.server.started = true → x.Listens := by
        intro hs
        rw [Listens, hserver, hpoller]
        exact hlistens (by rw [← hserver]; exact hs)
      obtain ⟨w', v', hw', hv', hend, hframe', hl⟩ := ih hsame hwf' ha' hlistens'
      rw [hserver] at hv'
      exact ⟨w', v', by rw [userCode_step hx, hw'], by rw [firstStart_of_ne hact, userCode_step hy', hv'], hend,
        hframe.trans hframe', hl⟩

end UserCode

section Effect

/-- A step either leaves user code out, or calls it in the state `before` and goes on with `after`. -/
inductive Effect
  | returns (x : Except Fault World)
  | calls (before : World) (after : World → Except Fault World)

def Effect.run {α : Type} [UserCode α] : Effect → List α → Except Fault World
  | .returns x, _ => x
  | .calls before after, acts => before.userCode .debug acts >>= after

def Effect.silent : Effect → Bool
  | .returns _ => true
  | .calls _ _ => false

theorem Effect.not_silent {before : World} {after : World → Except Fault World} {P : Prop}
    (h : (Effect.calls before after).silent = true) : P :=
  absurd h Bool.false_ne_true

structure Kept (w u : World) : Prop where
  started : u.server.started = w.server.started
  listening : u.server.listening = w.server.listening
  registered : w.poller.Registered .accept → u.poller.Registered .accept

theorem Kept.refl (w : World) : Kept w w := ⟨rfl, rfl, id⟩

theorem Kept.trans (h : Kept w v) (h' : Kept v u) : Kept w u :=
  ⟨h'.started.trans h.started, h'.listening.trans h.listening, fun hreg => h'.registered (h.registered hreg)⟩

theorem Kept.listens (h : Kept w u) (hlistens : w.server.started = true → w.Listens) :
    u.server.started = true → u.Listens := by
  intro hstarted
  obtain ⟨hlistening, hreg⟩ := hlistens (h.started ▸ hstarted)
  exact ⟨h.listening.trans hlistening, h.registered hreg⟩

inductive Effect.Match (w : World) : Effect → Effect → Prop
  | fails (f : Fault) : Match w (.returns (.error f)) (.returns (.error f))
  | returns {u u' : World} (h : Alike u u') (hk : Kept w u) : Match w (.returns (.ok u)) (.returns (.ok u'))
  | calls {u u' : World} {after after' : World → Except Fault World} (h : Alike u u') (hk : Kept w u)
      (hwf : u.poller.WellFormed) (ha : AcceptReady u.poller)
      (hafter : ∀ z z', Frame u z → Alike z z' →
        ∃ y y', after z = .ok y ∧ after' z' = .ok y' ∧ Alike y y' ∧ Kept z y) :
      Match w (.calls u after) (.calls u' after')

variable {a a' : Effect}

theorem Effect.Match.kept (hm : a.Match v a') (hk : Kept w v) : a.Match w a' := by
  cases hm with
  | fails f => exact .fails f
  | returns h hk' => exact .returns h (hk.trans hk')
  | calls h hk' hwf ha hafter => exact .calls h (hk.trans hk') hwf ha hafter

theorem Effect.Match.fault (hm : a.Match w a') {f : Fault} (hf : a.run acts = .error f) (acts' : List UserAction) :
    a.run acts' = .error f := by
  cases hm with
  | fails f' => exact hf
  | returns => cases hf
  | @calls u _ after _ _ _ hwf ha hafter =>
    obtain ⟨z, hz, hframe⟩ := userCode_ok (b := .debug) acts hwf ha
    obtain ⟨y, _, hy, _⟩ := hafter z z hframe (.refl z)
    have hrun : u.userCode .debug acts >>= after = .error f := hf
    rw [hz, ok_bind, hy] at hrun
    cases hrun

theorem Effect.Match.trimmed (hm : a.Match w a') (hlistens : w.server.started = true → w.Listens)
    (hok : a.run acts = .ok w') :
    ∃ v', a'.run (firstStart w.server.started acts) = .ok v' ∧ Alike w' v' ∧
      (w'.server.started = true → w'.Listens) := by
  cases hm with
  | fails f => cases hok
  | @returns u u' h hk =>
    obtain rfl : u = w' := Except.ok.inj hok
    exact ⟨u', rfl, h, hk.listens hlistens⟩
  | @calls u u' after after' h hk hwf ha hafter =>
    obtain ⟨z, z', hz, hz', hsame, hframe, hl⟩ := userCode_firstStart h hwf ha (hk.listens hlistens) acts
    obtain ⟨y, y', hy, hy', hend, hk'⟩ := hafter z z' hframe hsame
    have hrun : u.userCode .debug acts >>= after = .ok w' := hok
    rw [hz, ok_bind, hy] at hrun
    obtain rfl := Except.ok.inj hrun
    refine ⟨y', ?_, hend, hk'.listens hl⟩
    rw [← hk.started]
    simp only [Effect.run, hz', ok_bind, hy']

def Effect.andThen (g : World → World) : Effect → Effect
  | .returns x => .returns (x >>= fun z => pure (g z))
  | .calls before after => .calls before fun z => after z >>= fun y => pure (g y)

theorem Effect.run_andThen {α : Type} [UserCode α] (a : Effect) (g : World → World) (acts : List α) :
    (a.andThen g).run acts = a.run acts >>= fun z => pure (g z) := by
  cases a with
  | returns x => rfl
  | calls u after =>
    simp only [Effect.andThen, Effect.run]
    cases u.userCode .debug acts with
    | error f => rfl
    | ok z => rfl

theorem Effect.silent_andThen (a : Effect) (g : World → World) : (a.andThen g).silent = a.silent := by
  cases a <;> rfl

theorem Effect.Match.andThen (hm : a.Match w a') {g : World → World} (hg : ∀ z z', Alike z z' → Alike (g z) (g z'))
    (hk : ∀ z, Kept z (g z)) : (a.andThen g).Match w (a'.andThen g) := by
  cases hm with
  | fails f => exact .fails f
  | @returns u u' h hk' => exact .returns (hg u u' h) (hk'.trans (hk u))
  | calls h hk' hwf ha hafter =>
    refine .calls h hk' hwf ha fun z z' hframe hsame => ?_
    obtain ⟨y, y', hy, hy', hend, hkept⟩ := hafter z z' hframe hsame
    exact ⟨g y, g y', by rw [hy, ok_bind, pure_eq_ok], by rw [hy', ok_bind, pure_eq_ok], hg y y' hend,
      hkept.trans (hk y)⟩

end Effect

section Steps

theorem setEventHandling_alike (c : ChannelId) (handling : Bool) (h : Alike w v) :
    Alike (w.setEventHandling c handling) (v.setEventHandling c handling) := by
  obtain ⟨p, hp, rfl⟩ := h.split
  refine ⟨?_, rfl⟩
  have hset := hp.setChannel c { w.poller.channel c with eventHandling := handling }
  simpa only [setEventHandling, hp.channel] using hset

theorem setEventHandling_kept (w : World) (c : ChannelId) (handling : Bool) :
    Kept w (w.setEventHandling c handling) :=
  ⟨rfl, rfl, ((Poller.sameTable_setChannel w.poller c (w.poller.channel c).revents handling).registered _).mpr⟩

theorem Effect.Match.quiet (h : Alike u u') (hk : Kept w u) (hwf : u.poller.WellFormed) (ha : AcceptReady u.poller) :
    (Effect.calls u pure).Match w (.calls u' pure) :=
  .calls h hk hwf ha fun z z' _ hsame => ⟨z, z', rfl, rfl, hsame, .refl z⟩

theorem Effect.run_quiet {α : Type} [UserCode α] (u : World) (acts : List α) :
    (Effect.calls u pure).run acts = u.userCode .debug acts := bind_pure _

theorem established_alike (fd : ℕ) (h : Alike w v) : Alike (w.established fd) (v.established fd) := by
  obtain ⟨p, hp, rfl⟩ := h.split
  exact ⟨hp.adopt _ _, rfl⟩

theorem buffered_alike (k : ℕ) (buf : Buffer) (h : Alike w v) : Alike (w.buffered k buf) (v.buffered k buf) := by
  obtain ⟨p, hp, rfl⟩ := h.split
  exact ⟨hp, rfl⟩

theorem received_alike (k : ℕ) (n : Int64) (h : Alike w v) : Alike (w.received k n) (v.received k n) := by
  obtain ⟨p, hp, rfl⟩ := h.split
  exact ⟨hp, rfl⟩

theorem closeStarted_alike (k : ℕ) (h : Alike w v) : Alike (w.closeStarted k) (v.closeStarted k) := by
  obtain ⟨p, hp, rfl⟩ := h.split
  exact ⟨hp.rewrite _ _, rfl⟩

theorem disconnected_alike (k : ℕ) (h : Alike w v) : Alike (w.disconnected k) (v.disconnected k) := by
  obtain ⟨p, hp, rfl⟩ := h.split
  exact ⟨hp.rewrite _ _, rfl⟩

theorem unregistered_alike (k : ℕ) (h : Alike w v) : Alike (w.unregistered k) (v.unregistered k) := by
  obtain ⟨p, hp, rfl⟩ := h.split
  exact ⟨hp.unregister _, rfl⟩

theorem restaged_alike (st : LoopStage) (loop : EventLoop Functor) (h : Alike w v) :
    Alike { w with stage := st, loop := loop } { v with stage := st, loop := loop } := by
  obtain ⟨p, hp, rfl⟩ := h.split
  exact ⟨hp, rfl⟩

theorem Alike.loop (h : Alike w v) : v.loop = w.loop := by rw [h.rest]

theorem staged_alike (st : LoopStage) (h : Alike w v) : Alike { w with stage := st } { v with stage := st } := by
  obtain ⟨p, hp, rfl⟩ := h.split
  exact ⟨hp, rfl⟩

theorem entered_alike (c : ChannelId) (rest : List ChannelId) (h : Alike w v) :
    Alike (w.entered c rest) (v.entered c rest) :=
  setEventHandling_alike c true (staged_alike (.dispatch rest) h)

theorem entered_kept (w : World) (c : ChannelId) (rest : List ChannelId) : Kept w (w.entered c rest) :=
  ⟨rfl, rfl, (setEventHandling_kept ({ w with stage := .dispatch rest } : World) c true).registered⟩

def removed (k : ℕ) (z : World) : Except Fault World := do
  let poller ← Channel.remove .debug z.poller (.connection k)
  pure { z with poller }

theorem removed_eq (hwf : z.poller.WellFormed) (hr : z.poller.Removable (.connection k)) :
    removed k z = .ok (z.unregistered k) := by
  rw [removed, Poller.remove_of hwf hr]
  rfl

def callbackEffect (w : World) (input : HandlerInput Empty) : ChannelId → Effect
  | .wakeup => .returns (.ok { w with loop := w.loop.wakeupfdHandleRead })
  | .timerfd => .calls w pure
  | .accept =>
    match input.accepted with
    | .failed _ => .returns (.error .fatal)
    | .connected fd =>
      if w.created + 1 < 2 ^ 31 then .calls (w.established fd) pure else .returns (.error .undefinedBehaviour)
  | .connection k =>
    let w := w.buffered k input.readFd.inputBuffer
    if input.readFd.ret = 0 then .returns (.ok (w.closeStarted k)) else .calls (w.received k input.readFd.ret) pure

def effect (w : World) : ServerEvent Empty → Effect
  | .user _ => .calls w pure
  | .handle input =>
    match w.stage with
    | .dispatch (c :: rest) =>
      if (w.poller.channel c).revents &&& (Poll.pollin ||| Poll.pollpri) ≠ 0 then
        ((w.entered c rest).callbackEffect input c).andThen fun z => z.setEventHandling c false
      else .returns (.ok ((w.entered c rest).setEventHandling c false))
    | _ => .returns (.ok w)
  | .run _ =>
    match w.stage with
    | .pending (.user _ :: rest) functors => .calls { w with stage := .pending rest functors } pure
    | .pending (.connectDestoryed k :: rest) functors =>
      .calls (({ w with stage := .pending rest functors } : World).disconnected k) (removed k)
    | _ => .returns (.ok w)
  | .finish _ =>
    .calls { w with loop := { w.loop with callingPendingFunctors := false } } fun z => pure { z with stage := .between }
  | e => .returns ((w.step .debug e).getD (.ok w))

variable {α : Type} [UserCode α]

theorem Inv.callback_effect (h : w.Inv life) (input : HandlerInput α) (henabled : w.poller.Enabled c)
    (hfresh : w.fresh input.accepted = true) :
    w.readCallback .debug input c =
        (w.callbackEffect ⟨input.accepted, input.errno, input.readFd, []⟩ c).run (w.calledBack input c) ∧
      ((w.callbackEffect ⟨input.accepted, input.errno, input.readFd, []⟩ c).silent = true →
        w.calledBack input c = []) := by
  cases c with
  | wakeup => exact ⟨rfl, fun _ => rfl⟩
  | timerfd => exact ⟨(Effect.run_quiet w input.acts).symm, Effect.not_silent⟩
  | accept =>
    obtain ⟨accepted, errno, readFd, acts⟩ := input
    simp only [World.readCallback, callbackEffect, calledBack]
    cases accepted with
    | failed e =>
      refine ⟨?_, fun _ => rfl⟩
      simp only [Acceptor.handleRead, Sockets.accept_failed, error_bind, Effect.run]
    | connected fd =>
      have hfd : fd ∉ w.openFds := by simpa [fresh] using hfresh
      dsimp only
      by_cases hid : w.created + 1 < 2 ^ 31
      · rw [if_pos hid, if_pos ⟨h.callbacks.1, by rwa [h.nextConnectId]⟩, Effect.run_quiet,
          handleRead_connected h hfd hid]
        exact ⟨rfl, Effect.not_silent⟩
      · rw [if_neg hid, if_neg fun hroom => hid (by rw [← h.nextConnectId]; exact hroom.2),
          handleRead_overflow h (not_lt.mp hid)]
        exact ⟨rfl, fun _ => rfl⟩
  | connection k =>
    have hk := h.opened_of_enabled henabled
    obtain ⟨conn, hconn, _, hkeeps⟩ := h.object k (h.lt_created (by simp [hk]))
    by_cases hret : input.readFd.ret = 0
    · have hcalls : w.calledBack input (.connection k) = [] := by
        simp [calledBack, readBranch_eq, hret, hconn, hkeeps.closeCallback]
      refine ⟨?_, fun _ => hcalls⟩
      simp only [World.readCallback, callbackEffect, hcalls, if_pos hret, Effect.run]
      exact handleRead_close h hk hret
    · have hcalls : w.calledBack input (.connection k) = input.acts := by
        simp [calledBack, readBranch_eq, hret]
      simp only [World.readCallback, callbackEffect, hcalls, if_neg hret, Effect.run_quiet]
      exact ⟨handleRead_message h hk hret, Effect.not_silent⟩

theorem Inv.destoryed_eq (h : w.Inv life) {rest functors : List Functor}
    (hstage : w.stage = .pending (.connectDestoryed k :: rest) functors) (acts : List α) :
    TcpConnection.connectDestoryed .debug { w with stage := .pending rest functors } k acts =
      (({ w with stage := .pending rest functors } : World).disconnected k).userCode .debug acts >>= removed k := by
  obtain ⟨hk, _⟩ := h.closing_of_functor hstage
  obtain ⟨conn, hconn, hstate, hkeeps⟩ := h.object k (h.lt_created (by simp [hk]))
  have hreg : w.poller.Registered (.connection k) := (h.registered k).mpr (by simp [hk, Life.registered])
  exact connectDestoryed_eq hconn (by simpa [hk, Life.state] using hstate) hkeeps.connectionCallback h.wellFormed hreg

theorem Inv.step_effect [TameUserCode α] (h : w.Inv life) (e : ServerEvent α) {x : Except Fault World}
    (hx : w.step .debug e = some x) :
    x = (w.effect e.bare).run (w.userCalls e) ∧ ((w.effect e.bare).silent = true → w.userCalls e = []) := by
  cases e with
  | user acts =>
    simp only [World.step] at hx
    split_ifs at hx
    refine ⟨?_, Effect.not_silent⟩
    rw [ServerEvent.bare, effect, Effect.run_quiet]
    exact (Option.some.inj hx).symm
  | queueElsewhere | quitElsewhere => exact ⟨(Option.some.inj hx).symm, fun _ => rfl⟩
  | enter | leave | poll | takePending =>
    have hx' := congrArg (fun y => y.getD (.ok w)) hx
    exact ⟨hx'.symm, fun _ => rfl⟩
  | handle input =>
    simp only [World.step] at hx
    split at hx
    case h_2 => simp at hx
    case h_1 c rest hstage =>
      split_ifs at hx with hfresh
      obtain rfl := Option.some.inj hx
      obtain ⟨hinv, henabled, _⟩ := h.entered hstage
      simp only [ServerEvent.bare, effect, userCalls, hstage, handleEvent_entered]
      split_ifs with hready
      · obtain ⟨hrun, hsilent⟩ := hinv.callback_effect input henabled hfresh
        have hcalls : w.calledBack input c = (w.entered c rest).calledBack input c := by
          cases c <;> rfl
        rw [Effect.run_andThen, Effect.silent_andThen, hcalls, hrun]
        exact ⟨rfl, hsilent⟩
      · exact ⟨rfl, fun _ => rfl⟩
  | run acts =>
    simp only [World.step] at hx
    split at hx
    case h_2 => simp at hx
    case h_1 f rest functors hstage =>
      obtain rfl := Option.some.inj hx
      cases f with
      | user f =>
        simp only [ServerEvent.bare, effect, userCalls, hstage, Effect.run_quiet]
        exact ⟨rfl, Effect.not_silent⟩
      | connectDestoryed k =>
        simp only [ServerEvent.bare, effect, userCalls, hstage]
        exact ⟨h.destoryed_eq hstage acts, Effect.not_silent⟩
  | finish acts =>
    simp only [World.step] at hx
    split at hx
    case h_2 => simp at hx
    case h_1 functors hstage =>
      obtain rfl := Option.some.inj hx
      have hcalled := h.called false
      have hcalls : w.userCalls (.finish acts) = destructorCalls acts functors := by
        rw [userCalls, hstage, LoopStage.functors]
      rw [hcalls]
      exact ⟨hcalled.releaseFunctors_eq hstage acts, Effect.not_silent⟩

-- Whether a step can be taken is a matter of where the loop thread is, not of what user code does in it.
theorem Alike.step_isSome (hv : Alike w v) (e : ServerEvent α) :
    (v.step .debug e.bare).isSome = (w.step .debug e).isSome := by
  obtain ⟨p, hp, rfl⟩ := hv.split
  cases e with
  | queueElsewhere | quitElsewhere => rfl
  | user | enter | leave | poll | takePending =>
    simp only [ServerEvent.bare, World.step]
    split_ifs <;> rfl
  | handle input =>
    have hfresh : ∀ q, ({ w with poller := q } : World).fresh input.accepted = w.fresh input.accepted := fun q => by
      cases input.accepted <;> rfl
    simp only [ServerEvent.bare, World.step, hfresh]
    split
    · split_ifs <;> rfl
    · rfl
  | run | finish =>
    simp only [ServerEvent.bare, World.step]
    split <;> rfl

theorem Alike.userCalls {β : Type} (hv : Alike w v) (e : ServerEvent β) : v.userCalls e = w.userCalls e := by
  obtain ⟨p, hp, rfl⟩ := hv.split
  cases e with
  | handle input =>
    have hcalls : ∀ c q, ({ w with poller := q } : World).calledBack input c = w.calledBack input c := fun c q => by
      cases c <;> rfl
    simp only [World.userCalls, hcalls, hp.channel]
  | _ => rfl

theorem userCalls_trim (w : World) (started : Bool) (e : ServerEvent) :
    w.userCalls (e.trim started) = firstStart started (w.userCalls e) := by
  have hnil : firstStart started [] = [] := by cases started <;> rfl
  cases e with
  | user acts | run acts => rfl
  | finish acts => exact destructorCalls_firstStarts started acts _
  | handle input =>
    have hcalls : ∀ c, w.calledBack { input with acts := firstStart started input.acts } c =
        firstStart started (w.calledBack input c) := by
      intro c
      simp only [calledBack]
      cases c with
      | wakeup => exact hnil.symm
      | timerfd => rfl
      | accept =>
        cases input.accepted with
        | failed e => exact hnil.symm
        | connected fd =>
          dsimp only
          split_ifs
          · rfl
          · exact hnil.symm
      | connection k =>
        dsimp only
        cases readBranch input.readFd.ret with
        | message => rfl
        | error => exact hnil.symm
        | close =>
          dsimp only
          split_ifs
          · rfl
          · exact hnil.symm
    simp only [userCalls, ServerEvent.trim]
    split
    · split_ifs
      · exact hcalls _
      · exact hnil.symm
    · exact hnil.symm
  | _ => exact hnil.symm

theorem Inv.callback_match (h : w.Inv life) (hv : Alike w v) (input : HandlerInput Empty)
    (henabled : w.poller.Enabled c) (hfresh : w.fresh input.accepted = true) :
    (w.callbackEffect input c).Match w (v.callbackEffect input c) := by
  cases c with
  | wakeup =>
    obtain ⟨p, hp, rfl⟩ := hv.split
    exact .returns ⟨hp, rfl⟩ ⟨rfl, rfl, id⟩
  | timerfd => exact .quiet hv (.refl w) h.wellFormed h.acceptReady
  | accept =>
    simp only [callbackEffect, hv.created]
    cases haccepted : input.accepted with
    | failed e => exact .fails .fatal
    | connected fd =>
      have hfd : fd ∉ w.openFds := by simpa [fresh, haccepted] using hfresh
      have hinv := h.established hfd
      dsimp only
      split_ifs
      · refine .quiet (established_alike fd hv) ⟨rfl, rfl, fun hreg => ?_⟩ hinv.wellFormed hinv.acceptReady
        exact (Poller.adopt_registered h.wellFormed (h.fd_absent hfd) (h.not_registered le_rfl) _).mpr (Or.inr hreg)
      · exact .fails .undefinedBehaviour
  | connection k =>
    have hbuffered := buffered_alike k input.readFd.inputBuffer hv
    simp only [callbackEffect]
    split_ifs
    · exact .returns (closeStarted_alike k hbuffered) ⟨rfl, rfl, (Poller.rewrite_registered _).mpr⟩
    · exact .quiet (received_alike k input.readFd.ret hbuffered) ⟨rfl, rfl, id⟩ h.wellFormed h.acceptReady

theorem Inv.destoryed_match (h : w.Inv life) (hv : Alike w v) {rest functors : List Functor}
    (hstage : w.stage = .pending (.connectDestoryed k :: rest) functors) :
    (Effect.calls (({ w with stage := .pending rest functors } : World).disconnected k) (removed k)).Match w
      (.calls (({ v with stage := .pending rest functors } : World).disconnected k) (removed k)) := by
  obtain ⟨hk, _⟩ := h.closing_of_functor hstage
  have hreg : w.poller.Registered (.connection k) := (h.registered k).mpr (by simp [hk, Life.registered])
  apply Effect.Match.calls (disconnected_alike k (staged_alike (.pending rest functors) hv))
  · exact ⟨rfl, rfl, (Poller.rewrite_registered _).mpr⟩
  · exact Poller.rewrite_wellFormed h.wellFormed hreg (Or.inl rfl)
  · exact h.acceptReady.rewrite
  · intro z z' hframe hsame
    have hremovable := removable (w := { w with stage := .pending rest functors }) h.wellFormed hreg hframe
    have hwf' := hsame.poller.sameTable.wellFormed hframe.poller.wellFormed
    have hremovable' := hsame.poller.removable hremovable
    refine ⟨_, _, removed_eq hframe.poller.wellFormed hremovable, removed_eq hwf' hremovable',
      unregistered_alike k hsame, ⟨rfl, rfl, fun haccept => ?_⟩⟩
    exact (Poller.unregister_registered hremovable.registered _).mpr ⟨haccept, by simp⟩

theorem Inv.effect_match (h : w.Inv life) (hv : Alike w v) {e : ServerEvent Empty} {x : Except Fault World}
    (hx : w.step .debug e = some x) : (w.effect e).Match w (v.effect e) := by
  have hstages := hv.stage
  have hloops := hv.loop
  cases e with
  | user acts => exact .quiet hv (.refl w) h.wellFormed h.acceptReady
  | queueElsewhere f =>
    obtain ⟨p, hp, rfl⟩ := hv.split
    exact .returns ⟨hp, rfl⟩ ⟨rfl, rfl, id⟩
  | quitElsewhere =>
    obtain ⟨p, hp, rfl⟩ := hv.split
    exact .returns ⟨hp, rfl⟩ ⟨rfl, rfl, id⟩
  | enter =>
    simp only [World.step] at hx
    split_ifs at hx with hstage
    have hlooping := h.looping hstage
    have hentered := restaged_alike .between { w.loop with looping := true, quit := false } hv
    simp only [effect, World.step, hstages, hloops, if_pos hstage, check_of hlooping, ok_bind, pure_eq_ok,
      Option.getD_some]
    exact .returns hentered ⟨rfl, rfl, id⟩
  | leave =>
    simp only [World.step] at hx
    split_ifs at hx with hleave
    have hleft := restaged_alike .outside { w.loop with looping := false } hv
    simp only [effect, World.step, hstages, hloops, if_pos hleave, pure_eq_ok, Option.getD_some]
    exact .returns hleft ⟨rfl, rfl, id⟩
  | takePending =>
    simp only [World.step] at hx
    split_ifs at hx with hstage
    have htaken := restaged_alike (.pending w.loop.pendingFunctors w.loop.pendingFunctors)
      { w.loop with callingPendingFunctors := true, pendingFunctors := [] } hv
    simp only [effect, World.step, hstages, hloops, if_pos hstage, pure_eq_ok, Option.getD_some]
    exact .returns htaken ⟨rfl, rfl, id⟩
  | poll r =>
    simp only [World.step] at hx
    split_ifs at hx with hpoll
    obtain ⟨p, active, hok, _⟩ := h.poll hpoll.1 r
    have hsame : Poller.SameTable w.poller p := by
      obtain ⟨q, found, hq, hsame, _⟩ := Poller.poll_ok (b := .debug) h.wellFormed r
        (h.skips (h.quiet (Or.inl hpoll.1)) r)
      obtain ⟨rfl, _⟩ := Prod.mk.inj (Except.ok.inj (hq.symm.trans hok))
      exact hsame
    obtain ⟨p', hok', hp'⟩ := hv.poller.poll hok
    simp only [effect, World.step, hstages, hloops, if_pos hpoll, hok, hok', ok_bind, pure_eq_ok, Option.getD_some]
    refine .returns ⟨hp', ?_⟩ ⟨rfl, rfl, (hsame.registered _).mpr⟩
    rw [hv.rest]
  | handle input =>
    simp only [World.step] at hx
    split at hx
    case h_2 => simp at hx
    case h_1 c rest hstage =>
      split_ifs at hx with hfresh
      obtain ⟨hinv, henabled, _⟩ := h.entered hstage
      have hentered := entered_alike c rest hv
      simp only [effect, hstages, hstage, hv.poller.channel]
      split_ifs
      · have hmatch := hinv.callback_match hentered input henabled hfresh
        apply (hmatch.kept (entered_kept w c rest)).andThen
        · exact fun z z' hz => setEventHandling_alike c false hz
        · exact fun z => setEventHandling_kept z c false
      · exact .returns (setEventHandling_alike c false hentered)
          ((entered_kept w c rest).trans (setEventHandling_kept _ c false))
  | run acts =>
    simp only [World.step] at hx
    split at hx
    case h_2 => simp at hx
    case h_1 f rest functors hstage =>
      cases f with
      | user f =>
        simp only [effect, hstages, hstage]
        exact .quiet (staged_alike (.pending rest functors) hv) ⟨rfl, rfl, id⟩ h.wellFormed h.acceptReady
      | connectDestoryed k =>
        simp only [effect, hstages, hstage]
        exact h.destoryed_match hv hstage
  | finish acts =>
    obtain ⟨p, hp, rfl⟩ := hv.split
    refine .calls ⟨hp, rfl⟩ ⟨rfl, rfl, id⟩ h.wellFormed h.acceptReady fun z z' _ hz => ?_
    exact ⟨_, _, rfl, rfl, staged_alike .between hz, ⟨rfl, rfl, id⟩⟩

end Steps

section Runs

variable {fds : BaseFds} {serverName : String} {es : List ServerEvent}

theorem Alike.step_bare {α : Type} [UserCode α] {e : ServerEvent α} {x : Except Fault World}
    (hv : Alike w v) (hx : w.step .debug e = some x) : ∃ y, v.step .debug e.bare = some y := by
  apply Option.isSome_iff_exists.mp
  rw [hv.step_isSome, hx]
  rfl

def StartsOnce (w : World) (e : ServerEvent) : Prop := e.calls.count .start ≤ if w.server.started then 0 else 1

theorem Inv.next_trim (h : w.Inv life) (hv : Alike w v) (hlistens : w.server.started = true → w.Listens)
    (hn : w.Next e w') :
    ∃ v', Guarded Next StartsOnce v (e.trim w.server.started) v' ∧ Alike w' v' ∧
      (w'.server.started = true → w'.Listens) := by
  obtain ⟨x, hx⟩ := (Alike.refl w).step_bare hn
  obtain ⟨y, hy⟩ : ∃ y, v.step .debug (e.trim w.server.started) = some y := by
    apply Option.isSome_iff_exists.mp
    rw [← (Alike.refl v).step_isSome, ServerEvent.trim_bare, hv.step_isSome, hn]
    rfl
  obtain ⟨hrun, _⟩ := h.step_effect e hn
  obtain ⟨hrun', _⟩ := (h.alike hv).step_effect _ hy
  obtain ⟨v', hv', hend, hl⟩ := (h.effect_match hv hx).trimmed hlistens hrun.symm
  rw [ServerEvent.trim_bare, userCalls_trim, hv.userCalls, hv'] at hrun'
  refine ⟨v', ⟨hy.trans (congrArg some hrun'), ?_⟩, hend, hl⟩
  have hserver : v.server = w.server := by rw [hv.rest]
  rw [StartsOnce, ServerEvent.trim_calls, hserver]
  exact firstStart_count _ _

theorem run_trim (hw0 : construct .debug fds serverName = .ok w0) (hrun : Run Next w0 es w) :
    ∃ es' v, Run (Guarded Next StartsOnce) w0 es' v ∧
      es'.map ServerEvent.withoutStarts = es.map ServerEvent.withoutStarts ∧ Alike w v ∧
      (w.server.started = true → w.Listens) := by
  induction hrun with
  | nil =>
    refine ⟨[], w0, .nil, rfl, .refl w0, fun hstarted => ?_⟩
    rw [construct_eq, Except.ok.injEq] at hw0
    subst hw0
    cases hstarted
  | @snoc es w e w' hbefore hn ih =>
    obtain ⟨es', v, hv, hmap, hsame, hlistens⟩ := ih
    obtain ⟨life, h⟩ := run_inv hw0 hbefore
    obtain ⟨v', hn', hend, hl⟩ := h.next_trim hsame hlistens hn
    refine ⟨_, v', hv.snoc hn', ?_, hend, hl⟩
    rw [List.map_append, List.map_append, hmap, List.map_singleton, ServerEvent.trim_withoutStarts]
    rfl

theorem run_of_returned {calls : List StartEvent} (hrun : Run NextStart w0 calls w) :
    ∃ es : List (ServerEvent StartCall), calls = es.map .server ∧
      Run Next w0 (es.map fun e => e.map StartCall.act) w := by
  induction hrun with
  | nil => exact ⟨[], rfl, .nil⟩
  | @snoc calls w call w' _ hn ih =>
    obtain ⟨es, rfl, hes⟩ := ih
    cases call with
    | startElsewhere ret => cases hn
    | server e =>
      refine ⟨es ++ [e], by simp, ?_⟩
      have hn' : w.step .debug e = some (.ok w') := hn
      have hrel := step_doesAs (f := StartCall.act) (perform_doesAs .debug) w e
      rw [hn'] at hrel
      rw [List.map_append]
      apply hes.snoc
      generalize hy : w.step .debug (e.map StartCall.act) = y at hrel
      cases hrel with
      | some h => rw [Next, hy, h.ok rfl]

def StartReturns (w : World) (call : StartEvent) : Prop :=
  ∀ f, w.startStep .debug call = some (.error f) →
    ∃ e, call = .server e ∧ w.step .debug (e.map StartCall.act).withoutStarts = some (.error f)

theorem Effect.run_listens (a : Effect) {acts : List StartCall} (h : ∀ call ∈ acts, call.listens = true) :
    a.run acts = a.run (acts.map StartCall.act) := by
  cases a with
  | returns x => rfl
  | calls u after => rw [Effect.run, userCode_listens h, Effect.run]

theorem Inv.start_returns_iff (h : w.Inv life) {e : ServerEvent StartCall} {x : Except Fault World}
    (hx : w.step .debug e = some x) :
    w.StartReturns (.server e) ↔ ∀ call ∈ w.userCalls e, call.listens = true := by
  obtain ⟨y, hy⟩ := (Alike.refl w).step_bare hx
  have hmatch := h.effect_match (.refl w) hy
  obtain ⟨hrun, hsilent⟩ := h.step_effect e hx
  have hbare : ((e.map StartCall.act).withoutStarts).bare = e.bare :=
    (ServerEvent.trim_bare true _).trans (ServerEvent.map_bare _ e)
  obtain ⟨z, hz⟩ : ∃ z, w.step .debug (e.map StartCall.act).withoutStarts = some z := by
    apply Option.isSome_iff_exists.mp
    rw [← (Alike.refl w).step_isSome, hbare, hy]
    rfl
  obtain ⟨hrest, _⟩ := h.step_effect _ hz
  rw [hbare] at hrest
  constructor
  · intro hreturns call hcall
    by_contra hfails
    cases heffect : w.effect e.bare with
    | returns y =>
      rw [hsilent (by rw [heffect, Effect.silent])] at hcall
      cases hcall
    | calls u after =>
      rw [heffect] at hrun hmatch hrest
      cases hmatch with
      | calls _ _ hwf ha hafter =>
        have hfatal : x = .error .fatal := by
          rw [hrun, Effect.run, userCode_fails hwf ha hcall (by simpa using hfails), error_bind]
        rw [hfatal] at hx
        obtain ⟨e', he', hstep⟩ := hreturns .fatal hx
        obtain rfl := StartEvent.server.inj he'
        obtain ⟨v, hv, hframe⟩ := userCode_ok (b := .debug) (w.userCalls (e.map StartCall.act).withoutStarts) hwf ha
        obtain ⟨v', _, hv', _⟩ := hafter v v hframe (.refl v)
        rw [Effect.run, hv, ok_bind, hv'] at hrest
        rw [hz, hrest] at hstep
        cases hstep
  · intro hlisten f hf
    have hstep : w.step .debug e = some (.error f) := hf
    rw [hx, Option.some.injEq] at hstep
    rw [hstep, Effect.run_listens _ hlisten] at hrun
    exact ⟨e, rfl, by rw [hz, hrest, hmatch.fault hrun.symm]⟩

theorem start_elsewhere (w : World) (ret : Int32) :
    w.startStep .debug (.startElsewhere ret) = some (.error .fatal) := rfl

/-- Calls of `start()` on the loop thread whose `::listen` succeeds return and leave the server as a single one
does; any other call ends the process. -/
theorem start_contract (hw0 : construct .debug fds serverName = .ok w0) {calls : List StartEvent}
    (hrun : Run NextStart w0 calls w) :
    (∃ (es : List (ServerEvent StartCall)) (es' : List ServerEvent) (v : World), calls = es.map .server ∧
        Run (Guarded Next StartsOnce) w0 es' v ∧
        es'.map ServerEvent.withoutStarts = es.map (fun e => (e.map StartCall.act).withoutStarts) ∧ Alike w v) ∧
      (w.server.started = true → w.server.listening = true ∧
        ∃ r, w.poller.pollfds.filter (fun e => e.fd = ((w.poller.channel .accept).fd : ℤ) ∨
            e.fd = ~~~((w.poller.channel .accept).fd : ℤ)) =
          [⟨(w.poller.channel .accept).fd, Channel.kReadEvent.toInt16, r⟩]) ∧
      ∀ call x, w.startStep .debug call = some x →
        (w.StartReturns call ↔ call.inLoopThread = true ∧ ∀ c ∈ w.callsMade call, c.listens = true) := by
  obtain ⟨es, rfl, hes⟩ := run_of_returned hrun
  obtain ⟨life, h⟩ := run_inv hw0 hes
  obtain ⟨es', v, hv, hmap, hsame, hlistens⟩ := run_trim hw0 hes
  refine ⟨⟨es, es', v, rfl, hv, ?_, hsame⟩, fun hstarted => ?_, fun call x hx => ?_⟩
  · rw [hmap, List.map_map]
    rfl
  · obtain ⟨hlistening, hreg⟩ := hlistens hstarted
    exact ⟨hlistening, h.entry_of_enabled (AcceptReady.enabled h.acceptReady hreg)⟩
  · cases call with
    | server e => exact (h.start_returns_iff hx).trans (by simp [StartEvent.inLoopThread, callsMade])
    | startElsewhere ret =>
      constructor
      · intro hreturns
        obtain ⟨_, he, _⟩ := hreturns .fatal (start_elsewhere w ret)
        cases he
      · rintro ⟨hloop, _⟩
        cases hloop

def startCall : StartCall := ⟨.start, 0⟩

def startedAgain : List (ServerEvent StartCall) :=
  [.user [startCall, startCall], .enter, .poll (readable [2]), .handle ⟨.connected 10, 0, ⟨1, ⟨[]⟩⟩, [startCall]⟩,
    .takePending, .finish, .quitElsewhere, .leave]

theorem run_server {es : List (ServerEvent StartCall)} (hrun : Run Next w0 es w) :
    Run NextStart w0 (es.map .server) w := by
  induction hrun with
  | nil => exact .nil
  | snoc _ hn ih =>
    rw [List.map_append]
    exact ih.snoc hn

theorem start_contract_again : ∃ w0 w, construct .debug exampleFds "server" = .ok w0 ∧
    Run NextStart w0 (startedAgain.map .server) w ∧ w.server.started = true ∧ w.created = 1 ∧
    (∃ es' v, Run (Guarded Next StartsOnce) w0 es' v ∧
      es'.map ServerEvent.withoutStarts = startedAgain.map (fun e => (e.map StartCall.act).withoutStarts) ∧ Alike w v) ∧
    w.StartReturns (.server (.user [startCall])) := by
  obtain ⟨w0, w, hw0, hrun, hend⟩ := run_of_advance exampleFds "server" startedAgain
    (fun w => (w.server.started, w.created, w.stage)) (a := (true, 1, .outside)) (by decide +kernel)
  simp only [Prod.mk.injEq] at hend
  obtain ⟨hstarted, hcreated, hstage⟩ := hend
  obtain ⟨⟨es, es', v, hes, hv, hmap, hsame⟩, _, hreturns⟩ := start_contract hw0 (run_server hrun)
  obtain rfl : startedAgain = es := List.map_injective_iff.mpr (fun _ _ => StartEvent.server.inj) hes
  refine ⟨w0, w, hw0, run_server hrun, hstarted, hcreated, ⟨es', v, hv, hmap, hsame⟩, ?_⟩
  have hstep : w.startStep .debug (.server (.user [startCall])) = some _ := if_pos hstage
  refine (hreturns _ _ hstep).mpr ⟨rfl, ?_⟩
  intro call hcall
  rw [List.mem_singleton.mp hcall]
  rfl

theorem start_elsewhere_aborts : ∃ w0 w, construct .debug exampleFds "server" = .ok w0 ∧
    Run NextStart w0 (startedAgain.map .server) w ∧
    (w.startStep .debug (.startElsewhere 0)).map faultOf = some (some .fatal) ∧
      ¬ w.StartReturns (.startElsewhere 0) := by
  obtain ⟨w0, w, hw0, hrun, _⟩ := run_of_advance exampleFds "server" startedAgain created (a := 1) (by decide +kernel)
  refine ⟨w0, w, hw0, run_server hrun, rfl, fun hreturns => ?_⟩
  obtain ⟨_, he, _⟩ := hreturns .fatal (start_elsewhere w 0)
  cases he

end Runs

end World

end Penduo
