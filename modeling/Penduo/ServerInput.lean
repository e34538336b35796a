import Penduo.UserCalls
import Penduo.Library.SideBySide

set_option autoImplicit false

namespace Penduo

open LabelledRuns
open SideBySide (eventsAt)

def InputEvent.bytes : InputEvent → List UInt8
  | .read r => r.bytes
  | .receive => []

/-- What is seen of a connection with the event: a read that does not close is followed by the message callback. -/
def InputEvent.observations : InputEvent → List Observation
  | .read r => .read r.ret :: if readBranch r.ret = .message then [.messageCallback] else []
  | .receive => []

def Observation.isReading : Observation → Bool
  | .read _ | .messageCallback => true
  | .state _ | .connectionCallback _ | .handleError | .handleClose | .queued | .connectDestoryed => false

namespace ConnectionInput

variable {b : Build} {s t : ConnectionInput} {e : InputEvent} {es : List InputEvent} {r : Readv} {ret : Int64}
  {buf : Buffer}
  {errno : Option Int32}

theorem handleRead_of (h : s.inputBuffer.readFd b r = .ok (ret, buf, errno)) :
    ∃ t, s.handleRead b r = .ok t ∧ t.inputBuffer = buf := by
  simp only [handleRead, h, ok_bind]
  cases readBranch ret with
  | message => exact ⟨_, rfl, rfl⟩
  | close => exact ⟨_, rfl, rfl⟩
  | error => exact ⟨_, rfl, rfl⟩

theorem step_received (h : step b s e = .ok t) : t.received = s.received ++ e.bytes := by
  cases e with
  | receive =>
    obtain rfl := Except.ok.inj h
    exact (List.append_nil _).symm
  | read r =>
    obtain ⟨⟨n, inputBuffer, errno⟩, _, hok⟩ := bind_eq_ok.mp h
    dsimp only at hok
    cases hbranch : readBranch n <;> rw [hbranch] at hok <;> obtain rfl := Except.ok.inj hok <;> rfl

theorem play_received (h : play b s es = .ok t) : t.received = s.received ++ es.flatMap InputEvent.bytes := by
  induction es generalizing s with
  | nil =>
    obtain rfl := Except.ok.inj h
    exact (List.append_nil _).symm
  | cons e es ih =>
    obtain ⟨u, hu, hrest⟩ := (SideBySide.foldlM_cons_ok e es).mp h
    rw [ih hrest, step_received hu, List.append_assoc, List.flatMap_cons]

theorem readable_of_play (h : play .debug s es = .ok t) : ∀ e ∈ es, Readable e := by
  induction es generalizing s with
  | nil => simp
  | cons e es ih =>
    obtain ⟨u, hu, hrest⟩ := (SideBySide.foldlM_cons_ok e es).mp h
    exact List.forall_mem_cons.mpr ⟨readable_of_step hu, ih hrest⟩

theorem complete_of_play (h : play b init es = .ok t) (hreadable : b = .ndebug → ∀ e ∈ es, Readable e) :
    t.Complete := by
  have hall : ∀ e ∈ es, Readable e := by
    cases b with
    | debug => exact readable_of_play h
    | ndebug => exact hreadable rfl
  obtain ⟨u, hu, hcomplete⟩ := play_complete (b := b) hall
  obtain rfl : t = u := Except.ok.inj (h.symm.trans hu)
  exact hcomplete

end ConnectionInput

def UserAction.input : UserAction → Option (ℕ × InputEvent)
  | .receive k => some (k, .receive)
  | .queueInLoop _ | .queueElsewhere _ | .quit | .start => none

namespace World

def reader (w : World) : Option ℕ :=
  match w.stage with
  | .dispatch (.connection k :: _) =>
    if (w.poller.channel (.connection k)).revents &&& (Poll.pollin ||| Poll.pollpri) ≠ 0 then some k else none
  | _ => none

def read (b : Build) (w : World) (r : Readv) : ServerEvent → Except Fault (ServerEvent × List (ℕ × InputEvent))
  | .handle input =>
    match w.reader with
    | some k => do
      let conn ← require .undefinedBehaviour (w.connection k)
      let (ret, inputBuffer, _) ← conn.inputBuffer.readFd b r
      pure (.handle { input with readFd := ⟨ret, inputBuffer⟩ }, [(k, .read r)])
    | none => pure (.handle input, [])
  | e => pure (e, [])

end World

structure ReadingServer where
  world : World
  -- what `::readv` stored for the connections, and the calls of their `receive_as_string`
  inputs : List (ℕ × InputEvent)

def ReadingServer.step (b : Build) (s : ReadingServer) (d : ServerEvent × Readv) : Option ReadingServer := do
  let (e, reads) ← (s.world.read b d.2 d.1).toOption
  let world ← (← s.world.step b e).toOption
  pure { world, inputs := s.inputs ++ (reads ++ (s.world.userCalls e).filterMap UserAction.input) }

namespace World

variable {w w' v : World} {b : Build} {k : ℕ} {ds es : List (ℕ × InputEvent)} {ss ts : ℕ → ConnectionInput}

def input (w : World) (k : ℕ) : Option Buffer := (w.connection k).map TcpConnection.inputBuffer

def readings (w : World) (k : ℕ) : List Observation := ((w.trace k).map Prod.fst).filter Observation.isReading

structure Mirrors (w : World) (ss : ℕ → ConnectionInput) : Prop where
  buffer : ∀ k buf, w.input k = some buf → (ss k).inputBuffer = buf
  unmade : ∀ k, w.created ≤ k → w.input k = none ∧ (ss k).inputBuffer = ⟨[]⟩

structure Plays (b : Build) (ds : List (ℕ × InputEvent)) (w w' : World) : Prop where
  mirrors : ∀ ss, w.Mirrors ss → ∃ ts, SideBySide.run (ConnectionInput.step b) ss ds = .ok ts ∧ w'.Mirrors ts
  readings : ∀ k, w'.readings k = w.readings k ++ (eventsAt k ds).flatMap InputEvent.observations

theorem Plays.trans (h : Plays b ds w v) (h' : Plays b es v w') : Plays b (ds ++ es) w w' where
  mirrors ss hss := by
    obtain ⟨ts, hts, hmirrors⟩ := h.mirrors ss hss
    obtain ⟨us, hus, hmirrors'⟩ := h'.mirrors ts hmirrors
    exact ⟨us, SideBySide.run_append hts hus, hmirrors'⟩
  readings k := by
    rw [h'.readings, h.readings, SideBySide.eventsAt_append, List.flatMap_append, List.append_assoc]

structure KeepsInput (w w' : World) : Prop where
  input : ∀ k buf, w'.input k = some buf → w.input k = some buf
  created : w'.created = w.created
  readings : ∀ k, w'.readings k = w.readings k

theorem KeepsInput.mirrors (h : KeepsInput w w') (hss : w.Mirrors ss) : w'.Mirrors ss where
  buffer k buf hbuf := hss.buffer k buf (h.input k buf hbuf)
  unmade k hk := by
    rw [h.created] at hk
    obtain ⟨hnone, hempty⟩ := hss.unmade k hk
    refine ⟨Option.eq_none_iff_forall_ne_some.mpr fun buf hbuf => ?_, hempty⟩
    rw [h.input k buf hbuf] at hnone
    cases hnone

theorem KeepsInput.plays (h : KeepsInput w w') : Plays b [] w w' where
  mirrors ss hss := ⟨ss, rfl, h.mirrors hss⟩
  readings k := by simp [h.readings, eventsAt]

theorem plays_ok (h : KeepsInput w w') : Yields (Plays b [] w) (.ok w') := yields_ok h.plays

theorem plays_bind {x : Except Fault World} {f : World → Except Fault World} (hx : Yields (Plays b ds w) x)
    (hf : ∀ v, Yields (Plays b es v) (f v)) : Yields (Plays b (ds ++ es) w) (x >>= f) := by
  intro w' hok
  obtain ⟨v, hv, hok⟩ := bind_eq_ok.mp hok
  exact (hx v hv).trans (hf v w' hok)

theorem plays_from {x : Except Fault World} (h : KeepsInput w v) (hx : Yields (Plays b ds v) x) :
    Yields (Plays b ds w) x := fun w' hok => h.plays.trans (hx w' hok)

theorem construct_readings {fds : BaseFds} {serverName : String} (h : construct b fds serverName = .ok w) :
    w.readings k = [] := by
  rw [construct_eq, Except.ok.injEq] at h
  subst h
  rfl

theorem readings_observe (w : World) (j k : ℕ) (o : Observation) :
    (w.observe j o).readings k = w.readings k ++ if j = k ∧ o.isReading = true then [o] else [] := by
  by_cases hjk : j = k
  · cases ho : o.isReading <;> simp [readings, trace, observe, hjk, ho]
  · simp [readings, trace, observe, hjk]

theorem observe_keeps {o : Observation} (ho : o.isReading = false) : KeepsInput w (w.observe k o) where
  input _ _ := id
  created := rfl
  readings j := by simp [readings_observe, ho]

theorem input_updateConnection {f : TcpConnection → TcpConnection} {j : ℕ} :
    (w.updateConnection k f).input j =
      if j = k then (w.connection k).map fun conn => (f conn).inputBuffer else w.input j := by
  by_cases hjk : j = k
  · subst hjk
    simp [input, updateConnection, Function.comp_def]
  · simp [input, updateConnection, hjk]

theorem KeepsInput.trans (h : KeepsInput w v) (h' : KeepsInput v w') : KeepsInput w w' where
  input k buf hbuf := h.input k buf (h'.input k buf hbuf)
  created := h'.created.trans h.created
  readings k := (h'.readings k).trans (h.readings k)

theorem setState_keeps (st : StateE) : KeepsInput w (w.setState k st) := by
  have hupdated : KeepsInput w (w.updateConnection k fun conn => { conn with state := st }) := by
    refine ⟨fun j buf hbuf => ?_, rfl, fun _ => rfl⟩
    rw [input_updateConnection] at hbuf
    split_ifs at hbuf with hjk
    · subst hjk
      exact hbuf
    · exact hbuf
  exact hupdated.trans (observe_keeps rfl)

theorem update_mirrors {e : InputEvent} {f : TcpConnection → TcpConnection}
    (hstep : ∀ s : ConnectionInput, (∀ conn, w.connection k = some conn → s.inputBuffer = conn.inputBuffer) →
      ∃ t, ConnectionInput.step b s e = .ok t ∧
        (∀ conn, w.connection k = some conn → t.inputBuffer = (f conn).inputBuffer) ∧
        (w.connection k = none → s.inputBuffer = ⟨[]⟩ → t.inputBuffer = ⟨[]⟩)) :
    w.Mirrors ss → ∃ ts, SideBySide.run (ConnectionInput.step b) ss [(k, e)] = .ok ts ∧
      (w.updateConnection k f).Mirrors ts := by
  intro hss
  obtain ⟨t, ht, hbuffer, hunmade⟩ := hstep (ss k) fun conn hconn => hss.buffer k _ (by simp [input, hconn])
  refine ⟨_, SideBySide.run_single ht, fun j buf hbuf => ?_, fun j hj => ?_⟩
  · rw [input_updateConnection] at hbuf
    split_ifs at hbuf with hjk
    · subst hjk
      obtain ⟨conn, hconn, rfl⟩ := Option.map_eq_some_iff.mp hbuf
      rw [Function.update_self]
      exact hbuffer conn hconn
    · rw [Function.update_of_ne hjk]
      exact hss.buffer j buf hbuf
  · obtain ⟨hnone, hempty⟩ := hss.unmade j hj
    rw [input_updateConnection]
    split_ifs with hjk
    · subst hjk
      have hconn : w.connection j = none := by simpa [input] using hnone
      rw [Function.update_self, hconn]
      exact ⟨rfl, hunmade hconn hempty⟩
    · rw [Function.update_of_ne hjk]
      exact ⟨hnone, hempty⟩

theorem userAction_plays (act : UserAction) : Yields (Plays b act.input.toList w) (w.userAction b act) := by
  cases act with
  | receive k =>
    apply yields_ok
    refine ⟨fun ss => update_mirrors fun s hs => ?_, fun j => ?_⟩
    · exact ⟨_, rfl, fun conn _ => rfl, fun _ _ => rfl⟩
    · have hnothing : (eventsAt j [(k, InputEvent.receive)]).flatMap InputEvent.observations = [] := by
        by_cases hkj : k = j <;> simp [eventsAt, hkj, InputEvent.observations]
      rw [UserAction.input, Option.toList_some, hnothing, List.append_nil]
      rfl
  | start =>
    iterate 2
      apply Yields.skip
      intro _ _
    exact plays_ok ⟨fun _ _ => id, rfl, fun _ => rfl⟩
  | queueInLoop | queueElsewhere | quit => exact plays_ok ⟨fun _ _ => id, rfl, fun _ => rfl⟩

theorem userCode_plays (acts : List UserAction) :
    Yields (Plays b (acts.filterMap UserAction.input) w) (w.userCode b acts) := by
  induction acts generalizing w with
  | nil => exact plays_ok ⟨fun _ _ => id, rfl, fun _ => rfl⟩
  | cons act acts ih =>
    intro w' hok
    rw [userCode_cons] at hok
    obtain ⟨v, hv, hok⟩ := bind_eq_ok.mp hok
    have hboth := (userAction_plays act v hv).trans (ih w' hok)
    cases hact : act.input <;> simpa [hact] using hboth

section Handlers

variable {acts : List UserAction} {r : Readv} {c : ChannelId} {conn : TcpConnection} {ret : Int64} {buf : Buffer}
  {errno : Option Int32} {input : HandlerInput} {e e' : ServerEvent} {reads : List (ℕ × InputEvent)}

theorem callConnectionCallback_plays (acts : List UserAction) :
    Yields (Plays b (acts.filterMap UserAction.input) w) (TcpConnection.callConnectionCallback b w k acts) := by
  apply Yields.skip
  intro conn _
  split_ifs
  · exact plays_from (observe_keeps rfl) (userCode_plays acts)
  · exact yields_error _

theorem callMessageCallback_plays (acts : List UserAction) :
    Yields (Plays b (acts.filterMap UserAction.input) (w.observe k .messageCallback))
      (TcpConnection.callMessageCallback b w k acts) := by
  apply Yields.skip
  intro conn _
  split_ifs
  · exact userCode_plays acts
  · exact yields_error _

theorem connectEstablish_plays (acts : List UserAction) :
    Yields (Plays b (acts.filterMap UserAction.input) w) (TcpConnection.connectEstablish b w k acts) := by
  iterate 4
    apply Yields.skip
    intro _ _
  apply plays_from ?_ (callConnectionCallback_plays acts)
  exact (setState_keeps .connected).trans ⟨fun _ _ => id, rfl, fun _ => rfl⟩

theorem connectDestoryed_plays (acts : List UserAction) :
    Yields (Plays b (acts.filterMap UserAction.input) w) (TcpConnection.connectDestoryed b w k acts) := by
  iterate 3
    apply Yields.skip
    intro _ _
  rw [← List.append_nil (acts.filterMap UserAction.input)]
  apply plays_bind
  · apply plays_from ?_ (callConnectionCallback_plays acts)
    exact (observe_keeps rfl).trans ((setState_keeps .disConnected).trans ⟨fun _ _ => id, rfl, fun _ => rfl⟩)
  · intro v
    apply Yields.skip
    intro _ _
    exact plays_ok ⟨fun _ _ => id, rfl, fun _ => rfl⟩

theorem removeConnection_plays : Yields (Plays b [] w) (TcpServer.removeConnection b w k) := by
  iterate 2
    apply Yields.skip
    intro _ _
  apply plays_ok
  refine ⟨fun _ _ => id, rfl, fun j => ?_⟩
  simp only [readings_observe, Observation.isReading, Bool.false_eq_true, and_false, if_false, List.append_nil]
  rfl

theorem handleClose_plays (hconn : w.connection k = some conn) (acts : List UserAction) :
    Yields (Plays b ((if conn.closeCallback = some .user then acts else []).filterMap UserAction.input) w)
      (TcpConnection.handleClose b w k acts) := by
  apply Yields.skip
  intro conn' hconn'
  obtain rfl : conn' = conn := Option.some.inj ((require_eq_ok.mp hconn').symm.trans hconn)
  iterate 2
    apply Yields.skip
    intro _ _
  have hdisabled : ∀ p, KeepsInput w { w.observe k .handleClose with poller := p } := fun p =>
    (observe_keeps rfl).trans ⟨fun _ _ => id, rfl, fun _ => rfl⟩
  cases conn'.closeCallback with
  | some callback =>
    cases callback with
    | removeConnection bound => exact plays_from (hdisabled _) removeConnection_plays
    | user => exact plays_from (hdisabled _) (userCode_plays acts)
  | none => exact plays_ok (hdisabled _)

theorem readFd_ret (hread : conn.inputBuffer.readFd b r = .ok (ret, buf, errno)) : ret = r.ret := by
  cases r with
  | failed e =>
    obtain ⟨hret, _⟩ := Prod.mk.inj (Except.ok.inj hread)
    exact hret.symm
  | stored bytes fits =>
    simp only [Buffer.readFd, bind_eq_ok] at hread
    obtain ⟨_, _, _, _, _, _, hok⟩ := hread
    obtain ⟨hret, _⟩ := Prod.mk.inj (Except.ok.inj hok)
    exact hret.symm

theorem stored_plays (hconn : w.connection k = some conn)
    (hread : conn.inputBuffer.readFd b r = .ok (ret, buf, errno))
    (hconnection : v.connection = (w.updateConnection k fun conn => { conn with inputBuffer := buf }).connection)
    (hcreated : v.created = w.created)
    (hreadings : ∀ j, v.readings j = w.readings j ++ if k = j then (InputEvent.read r).observations else []) :
    Plays b [(k, .read r)] w v := by
  constructor
  · intro ss hss
    have hstored : ∃ ts, SideBySide.run (ConnectionInput.step b) ss [(k, .read r)] = .ok ts ∧
        (w.updateConnection k fun conn => { conn with inputBuffer := buf }).Mirrors ts := by
      apply update_mirrors ?_ hss
      intro s hs
      rw [← hs conn hconn] at hread
      obtain ⟨t, ht, hbuf⟩ := ConnectionInput.handleRead_of hread
      refine ⟨t, ht, fun _ _ => hbuf, fun hnone => ?_⟩
      rw [hconn] at hnone
      cases hnone
    obtain ⟨ts, hts, hmirrors⟩ := hstored
    refine ⟨ts, hts, fun j buf' hbuf' => hmirrors.buffer j buf' ?_, fun j hj => ?_⟩
    · rwa [World.input, ← hconnection]
    · rw [World.input, hconnection]
      rw [hcreated] at hj
      exact hmirrors.unmade j hj
  · intro j
    rw [hreadings j]
    by_cases hkj : k = j <;> simp [eventsAt, hkj]

theorem connectionRead_plays (hconn : w.connection k = some conn)
    (hread : conn.inputBuffer.readFd b r = .ok (ret, buf, errno)) (hinput : input.readFd = ⟨ret, buf⟩) :
    Yields (Plays b ((k, .read r) :: (w.calledBack input (.connection k)).filterMap UserAction.input) w)
      (TcpConnection.handleRead b w k ⟨ret, buf⟩ input.acts) := by
  obtain rfl := readFd_ret hread
  have hseen : ∀ j, ((w.buffered k buf).observe k (.read r.ret)).readings j =
      w.readings j ++ if k = j then [.read r.ret] else [] := fun j => by
    simp only [readings_observe, Observation.isReading, and_true]
    rfl
  apply Yields.skip
  intro _ _ w' hok
  dsimp only at hok
  simp only [calledBack, hinput]
  cases hbranch : readBranch r.ret with
  | message =>
    rw [hbranch] at hok
    have hstored : Plays b [(k, .read r)] w
        (((w.buffered k buf).observe k (.read r.ret)).observe k .messageCallback) := by
      refine stored_plays hconn hread rfl rfl fun j => ?_
      rw [readings_observe, hseen j]
      by_cases hkj : k = j <;> simp [hkj, Observation.isReading, InputEvent.observations, hbranch]
    exact hstored.trans (callMessageCallback_plays input.acts w' hok)
  | close =>
    rw [hbranch] at hok
    have hstored : Plays b [(k, .read r)] w ((w.buffered k buf).observe k (.read r.ret)) := by
      refine stored_plays hconn hread rfl rfl fun j => ?_
      rw [hseen j]
      simp [InputEvent.observations, hbranch]
    have hconn' : ((w.buffered k buf).observe k (.read r.ret)).connection k = some { conn with inputBuffer := buf } :=
      buffered_connection hconn buf
    have hclosed := handleClose_plays (b := b) hconn' input.acts w' hok
    simpa [hconn] using hstored.trans hclosed
  | error =>
    rw [readBranch_eq] at hbranch
    split_ifs at hbranch

theorem makeConnection_plays (name : String) (fd : ℕ) : Plays b [] w (TcpServer.makeConnection w name fd) := by
  have hreadings : ∀ j, (TcpServer.makeConnection w name fd).readings j = w.readings j := fun j => by
    rw [TcpServer.makeConnection, readings_observe]
    simp [Observation.isReading]
    rfl
  refine ⟨fun ss hss => ⟨ss, rfl, fun j buf hbuf => ?_, fun j hj => ?_⟩, fun j => by simp [hreadings j, eventsAt]⟩
  · by_cases hjk : j = w.created
    · subst hjk
      obtain rfl : ⟨[]⟩ = buf := by simpa [World.input, TcpServer.makeConnection, observe] using hbuf
      exact (hss.unmade _ le_rfl).2
    · apply hss.buffer j buf
      simpa [World.input, TcpServer.makeConnection, observe, hjk] using hbuf
  · have hlt : w.created < j := hj
    obtain ⟨hnone, hempty⟩ := hss.unmade j hlt.le
    refine ⟨?_, hempty⟩
    simpa [World.input, TcpServer.makeConnection, observe, hlt.ne'] using hnone

theorem newConnection_plays (fd : ℕ) (acts : List UserAction) :
    Yields (Plays b (acts.filterMap UserAction.input) w) (TcpServer.newConnection b w fd acts) := by
  unfold TcpServer.newConnection
  dsimp only
  split_ifs
  · exact yields_error _
  · intro w' hok
    have hmade := makeConnection_plays (b := b) (w := w) (w.server.connectionName (w.server.nextConnectId + 1)) fd
    apply hmade.trans
    apply plays_from ?_ (connectEstablish_plays acts) w' hok
    exact ⟨fun _ _ => id, rfl, fun _ => rfl⟩

theorem acceptorRead_plays : Yields (Plays b ((w.calledBack input .accept).filterMap UserAction.input) w)
    (Acceptor.handleRead b w input.accepted input.errno input.acts) := by
  unfold Acceptor.handleRead calledBack
  cases input.accepted with
  | failed errno =>
    rw [Sockets.accept_failed]
    exact yields_error _
  | connected fd =>
    have hfd : (0 : ℤ) ≤ fd := Int.natCast_nonneg fd
    simp only [Sockets.accept_connected, ok_bind, if_pos hfd]
    have haccepted : ∀ fds fds', KeepsInput w { w with openFds := fds, acceptedFds := fds' } :=
      fun _ _ => ⟨fun _ _ => id, rfl, fun _ => rfl⟩
    by_cases hcallback : w.server.newConnectionCallback = true
    · rw [if_pos hcallback]
      by_cases hroom : w.server.nextConnectId + 1 < 2 ^ 31
      · rw [if_pos ⟨hcallback, hroom⟩]
        exact plays_from (haccepted _ _) (newConnection_plays _ input.acts)
      · rw [TcpServer.newConnection, if_pos (not_lt.mp hroom)]
        exact yields_error _
    · rw [if_neg hcallback, if_neg fun h => hcallback h.1]
      exact plays_ok (haccepted _ _)

theorem readCallback_plays (hc : ∀ k, c ≠ .connection k) :
    Yields (Plays b ((w.calledBack input c).filterMap UserAction.input) w) (w.readCallback b input c) := by
  cases c with
  | wakeup => exact plays_ok ⟨fun _ _ => id, rfl, fun _ => rfl⟩
  | timerfd => exact userCode_plays input.acts
  | accept => exact acceptorRead_plays
  | connection k => exact absurd rfl (hc k)

theorem handleEvent_plays {rest : List ChannelId}
    (hcall : (w.poller.channel c).revents &&& (Poll.pollin ||| Poll.pollpri) ≠ 0 →
      Yields (Plays b ds (w.entered c rest)) ((w.entered c rest).readCallback b input c))
    (hidle : ¬ (w.poller.channel c).revents &&& (Poll.pollin ||| Poll.pollpri) ≠ 0 → ds = []) :
    Yields (Plays b ds w) (({ w with stage := .dispatch rest } : World).handleEvent b c input) := by
  rw [handleEvent_entered]
  split_ifs with hready
  · have hentered : KeepsInput w (w.entered c rest) := ⟨fun _ _ => id, rfl, fun _ => rfl⟩
    apply plays_from hentered
    rw [← List.append_nil ds]
    exact plays_bind (hcall hready) fun v => plays_ok ⟨fun _ _ => id, rfl, fun _ => rfl⟩
  · rw [hidle hready]
    exact plays_ok ⟨fun _ _ => id, rfl, fun _ => rfl⟩

theorem handle_plays (hread : w.read b r (.handle input) = .ok (e', reads)) (hn : w.step b e' = some (.ok w')) :
    Plays b (reads ++ (w.userCalls e').filterMap UserAction.input) w w' := by
  simp only [World.read] at hread
  cases hreader : w.reader with
  | some k =>
    rw [hreader] at hread
    obtain ⟨conn, hconn, hread⟩ := bind_eq_ok.mp hread
    obtain ⟨⟨ret, buf, errno⟩, hfd, hread⟩ := bind_eq_ok.mp hread
    obtain ⟨rfl, rfl⟩ := Prod.mk.inj (Except.ok.inj hread)
    simp only [reader] at hreader
    split at hreader
    case h_2 => simp at hreader
    case h_1 j rest hstage =>
      split_ifs at hreader with hready
      obtain rfl := Option.some.inj hreader
      simp only [World.step, hstage] at hn
      split_ifs at hn
      have hconn' : (w.entered (.connection j) rest).connection j = some conn := require_eq_ok.mp hconn
      simp only [userCalls, hstage, if_pos hready]
      apply handleEvent_plays ?_ ?_ w' (Option.some.inj hn)
      · exact fun _ => connectionRead_plays hconn' hfd rfl
      · exact fun hidle => absurd hready hidle
  | none =>
    rw [hreader] at hread
    obtain ⟨rfl, rfl⟩ := Prod.mk.inj (Except.ok.inj hread)
    simp only [World.step] at hn
    split at hn
    case h_2 => simp at hn
    case h_1 c rest hstage =>
      split_ifs at hn
      simp only [List.nil_append, userCalls, hstage]
      apply handleEvent_plays ?_ ?_ w' (Option.some.inj hn)
      · intro hready
        rw [if_pos hready]
        apply readCallback_plays
        rintro k rfl
        simp [reader, hstage, hready] at hreader
      · intro hidle
        rw [if_neg hidle]
        rfl

theorem runFunctor_plays (acts : List UserAction) (f : Functor) :
    Yields (Plays b (acts.filterMap UserAction.input) w) (w.runFunctor b acts f) := by
  cases f with
  | user f => exact userCode_plays acts
  | connectDestoryed k => exact connectDestoryed_plays acts

theorem releaseConnection_plays : Yields (Plays b [] w) (w.releaseConnection b k) := by
  unfold releaseConnection
  split_ifs
  · iterate 2
      apply Yields.skip
      intro _ _
    refine plays_ok ⟨fun j buf hbuf => ?_, rfl, fun _ => rfl⟩
    by_cases hjk : j = k
    · subst hjk
      simp [World.input] at hbuf
    · simpa [World.input, hjk] using hbuf
  · exact plays_ok ⟨fun _ _ => id, rfl, fun _ => rfl⟩

theorem releaseFunctors_plays (calls : List (List UserAction)) (functors : List Functor) :
    Yields (Plays b ((destructorCalls calls functors).filterMap UserAction.input) w)
      (w.releaseFunctors b calls functors) := by
  induction functors generalizing w calls with
  | nil => exact plays_ok ⟨fun _ _ => id, rfl, fun _ => rfl⟩
  | cons f functors ih =>
    have hstage : KeepsInput w { w with stage := .pending [] functors } := ⟨fun _ _ => id, rfl, fun _ => rfl⟩
    cases f with
    | user f =>
      rw [destructorCalls, List.filterMap_append]
      exact plays_from hstage (plays_bind (userCode_plays _) fun v => ih calls.tail)
    | connectDestoryed k => exact plays_from hstage (plays_bind releaseConnection_plays fun v => ih calls)

theorem step_plays (hread : w.read b r e = .ok (e', reads)) (hn : w.step b e' = some (.ok w')) :
    Plays b (reads ++ (w.userCalls e').filterMap UserAction.input) w w' := by
  cases e with
  | handle input => exact handle_plays hread hn
  | user acts =>
    obtain ⟨rfl, rfl⟩ := Prod.mk.inj (Except.ok.inj hread)
    simp only [World.step] at hn
    split_ifs at hn
    exact userCode_plays acts w' (Option.some.inj hn)
  | queueElsewhere | quitElsewhere =>
    obtain ⟨rfl, rfl⟩ := Prod.mk.inj (Except.ok.inj hread)
    obtain rfl := Except.ok.inj (Option.some.inj hn)
    exact KeepsInput.plays ⟨fun _ _ => id, rfl, fun _ => rfl⟩
  | leave | takePending =>
    obtain ⟨rfl, rfl⟩ := Prod.mk.inj (Except.ok.inj hread)
    simp only [World.step] at hn
    split_ifs at hn
    obtain rfl := Except.ok.inj (Option.some.inj hn)
    exact KeepsInput.plays ⟨fun _ _ => id, rfl, fun _ => rfl⟩
  | enter | poll =>
    obtain ⟨rfl, rfl⟩ := Prod.mk.inj (Except.ok.inj hread)
    simp only [World.step] at hn
    split_ifs at hn
    obtain ⟨_, _, hok⟩ := bind_eq_ok.mp (Option.some.inj hn)
    obtain rfl := Except.ok.inj hok
    exact KeepsInput.plays ⟨fun _ _ => id, rfl, fun _ => rfl⟩
  | run acts =>
    obtain ⟨rfl, rfl⟩ := Prod.mk.inj (Except.ok.inj hread)
    simp only [World.step] at hn
    split at hn
    case h_2 => simp at hn
    case h_1 f rest functors _ =>
      have hstage : KeepsInput w { w with stage := .pending rest functors } := ⟨fun _ _ => id, rfl, fun _ => rfl⟩
      exact plays_from hstage (runFunctor_plays acts f) w' (Option.some.inj hn)
  | finish calls =>
    obtain ⟨rfl, rfl⟩ := Prod.mk.inj (Except.ok.inj hread)
    simp only [World.step] at hn
    split at hn
    case h_2 => simp at hn
    case h_1 functors hstage =>
      have hcalls : w.userCalls (.finish calls) = destructorCalls calls functors := by
        rw [userCalls, hstage, LoopStage.functors]
      rw [hcalls]
      apply plays_from ?_ (releaseFunctors_plays calls functors) w' (Option.some.inj hn)
      exact ⟨fun _ _ => id, rfl, fun _ => rfl⟩

end Handlers

end World

namespace ReadingServer

open World (exampleFds readable accepts reads)

variable {b : Build} {fds : BaseFds} {serverName : String} {w0 : World} {s s' : ReadingServer}
  {ds : List (ServerEvent × Readv)} {d : ServerEvent × Readv} {k : ℕ} {conn : TcpConnection}

theorem ok_of_toOption {α : Type} {x : Except Fault α} {y : α} (h : x.toOption = some y) : x = .ok y := by
  cases x with
  | error f => cases h
  | ok z => exact congrArg Except.ok (Option.some.inj h)

theorem step_eq_some (hn : Next (step b) s d s') : ∃ e reads, s.world.read b d.2 d.1 = .ok (e, reads) ∧
    s.world.step b e = some (.ok s'.world) ∧
    s'.inputs = s.inputs ++ (reads ++ (s.world.userCalls e).filterMap UserAction.input) := by
  simp only [Next, step, Option.bind_eq_bind, Option.bind_eq_some_iff] at hn
  obtain ⟨⟨e, reads⟩, hread, x, hx, world, hworld, hs'⟩ := hn
  obtain rfl := Option.some.inj hs'
  refine ⟨e, reads, ok_of_toOption hread, ?_, rfl⟩
  rw [hx, ok_of_toOption hworld]

theorem run_plays (hw0 : World.construct b fds serverName = .ok w0) (hrun : Run (Next (step b)) ⟨w0, []⟩ ds s) :
    World.Plays b s.inputs w0 s.world ∧ w0.Mirrors fun _ => .init := by
  rw [World.construct_eq, Except.ok.injEq] at hw0
  subst hw0
  constructor
  · apply hrun.invariant (I := fun s => World.Plays b s.inputs _ s.world)
    · intro s d s' hplays hn
      obtain ⟨e, reads, hread, hworld, hinputs⟩ := step_eq_some hn
      rw [hinputs]
      exact hplays.trans (World.step_plays hread hworld)
    · exact World.KeepsInput.plays ⟨fun _ _ => id, rfl, fun _ => rfl⟩
  · refine ⟨fun k buf hbuf => ?_, fun k _ => ⟨rfl, rfl⟩⟩
    cases hbuf

def bytes (s : ReadingServer) (k : ℕ) : List UInt8 := (eventsAt k s.inputs).flatMap InputEvent.bytes

/-- Whatever else the server does, what was read from the socket of a connection is what its user was
given, followed by its input buffer, and its message callback was called after each read that did not close it. -/
theorem input_kept (hw0 : World.construct b fds serverName = .ok w0) (hrun : Run (Next (step b)) ⟨w0, []⟩ ds s)
    (hreadable : b = .ndebug → ∀ r, (k, .read r) ∈ s.inputs → Textual r.bytes)
    (hconn : s.world.connection k = some conn) :
    (∃ t, ConnectionInput.play b .init (eventsAt k s.inputs) = .ok t ∧ t.inputBuffer = conn.inputBuffer ∧
        t.returned ++ conn.inputBuffer.buffer = s.bytes k) ∧
      s.world.readings k = (eventsAt k s.inputs).flatMap InputEvent.observations := by
  obtain ⟨hplays, hstart⟩ := run_plays hw0 hrun
  obtain ⟨ts, hts, hmirrors⟩ := hplays.mirrors _ hstart
  have hplay : ConnectionInput.play b .init (eventsAt k s.inputs) = .ok (ts k) := SideBySide.run_iff.mp hts k
  have hbuffer := hmirrors.buffer k conn.inputBuffer (by simp [World.input, hconn])
  have hcomplete : (ts k).Complete := by
    apply ConnectionInput.complete_of_play hplay
    intro hb e he
    cases e with
    | receive => trivial
    | read r => exact hreadable hb r (SideBySide.mem_eventsAt.mp he)
  refine ⟨⟨ts k, hplay, hbuffer, ?_⟩, ?_⟩
  · rw [← hbuffer, hcomplete.1]
    exact ConnectionInput.play_received hplay
  · rw [hplays.readings k, World.construct_readings hw0, List.nil_append]

def unread : Readv := .failed Errno.eagain

def twoStreams : List (ServerEvent × Readv) :=
  [(.user [.start], unread), (.enter, unread),
    (.poll (readable [2]), unread), (.handle (accepts 10 []), unread), (.takePending, unread), (.finish, unread),
    (.poll (readable [2, 3]), unread), (.handle (accepts 11 []), unread),
    (.handle (reads 0), .stored [104, 105] (by decide)), (.takePending, unread), (.finish, unread),
    (.poll (readable [4]), unread), (.handle { reads 0 with acts := [.receive 0] }, .stored [97] (by decide)),
    (.takePending, unread), (.finish, unread),
    (.poll (readable [3]), unread), (.handle (reads 0), .stored [33] (by decide))]

theorem input_kept_two : ∃ w0 s conn, World.construct .debug exampleFds "server" = .ok w0 ∧
    Run (Next (step .debug)) ⟨w0, []⟩ twoStreams s ∧ s.world.connection 0 = some conn ∧
    conn.inputBuffer.buffer = [33] ∧ s.bytes 0 = [104, 105, 33] ∧
    (∃ t, ConnectionInput.play .debug .init (eventsAt 0 s.inputs) = .ok t ∧ t.inputBuffer = conn.inputBuffer ∧
        t.returned ++ conn.inputBuffer.buffer = s.bytes 0) ∧
      s.world.readings 0 = (eventsAt 0 s.inputs).flatMap InputEvent.observations := by
  have hexec : (exec (step .debug) ⟨{ World.blank exampleFds "server" with poller := World.built exampleFds }, []⟩
      twoStreams).map (fun s => (s.world.input 0, s.bytes 0)) = some (some ⟨[33]⟩, [104, 105, 33]) := by decide +kernel
  obtain ⟨s, hrun, hend⟩ := run_of_exec_map _ hexec
  obtain ⟨hinput, hbytes⟩ := Prod.mk.inj hend
  obtain ⟨conn, hconn, hbuffer⟩ := Option.map_eq_some_iff.mp hinput
  have hw0 := World.construct_eq .debug exampleFds "server"
  exact ⟨_, s, conn, hw0, hrun, hconn, by rw [hbuffer], hbytes, input_kept hw0 hrun nofun hconn⟩

end ReadingServer

end Penduo
