import Penduo.ServerInvariant

set_option autoImplicit false

namespace Penduo

namespace World

variable {w w' : World} {life : ℕ → Life} {k j fd : ℕ} {c : ChannelId} {α : Type}
  [UserCode α] {acts : List α}

def now (w : World) : Stamp := ⟨w.iteration, w.stage.stage⟩

theorem trace_append {marks : List Mark} (hlog : w'.log = w.log ++ marks.map fun m => (k, m)) (j : ℕ) :
    w'.trace j = if j = k then w.trace j ++ marks else w.trace j := by
  simp only [trace, hlog, List.filter_append, List.map_append]
  split_ifs with hjk
  · subst hjk
    simp [List.filter_map, Function.comp_def]
  · have hkj : ¬ k = j := fun h => hjk h.symm
    simp [List.filter_map, Function.comp_def, hkj]

theorem Inv.trace_append (h : w.Inv life) {marks : List Mark} {l : Life}
    (hlog : w'.log = w.log ++ marks.map fun m => (k, m)) (hk : Lifecycle l (w.trace k ++ marks)) (j : ℕ) :
    Lifecycle (Function.update life k l j) (w'.trace j) := by
  rw [World.trace_append hlog]
  split_ifs with hjk
  · subst hjk
    rwa [Function.update_self]
  · rw [Function.update_of_ne hjk]
    exact h.trace j

section Message

def buffered (w : World) (k : ℕ) (buf : Buffer) : World :=
  w.updateConnection k fun conn => { conn with inputBuffer := buf }

theorem Inv.buffered (h : w.Inv life) (k : ℕ) (buf : Buffer) : (w.buffered k buf).Inv life := by
  have hrefl : Frame w w := .refl h.wellFormed h.acceptReady
  apply h.frame
  refine { hrefl with connection := fun j => ?_ }
  by_cases hjk : j = k
  · subst hjk
    cases hj : w.connection j with
    | none => exact Or.inl ⟨rfl, by simp [World.buffered, updateConnection, hj]⟩
    | some conn => exact Or.inr ⟨conn, buf, rfl, by simp [World.buffered, updateConnection, hj]⟩
  · simp only [World.buffered, updateConnection, Function.update_of_ne hjk]
    exact Frame.connection_refl w j

def received (w : World) (k : ℕ) (n : Int64) : World :=
  { w with log := w.log ++ (Lifecycle.message n w.now).map fun m => (k, m) }

theorem Inv.received (h : w.Inv life) (hk : life k = .opened) {n : Int64} (hn : n ≠ 0) :
    (w.received k n).Inv life := by
  have htrace : ∀ j, Lifecycle (Function.update life k .opened j) ((w.received k n).trace j) := by
    apply h.trace_append
    · rfl
    · exact (hk ▸ h.trace k).receive n w.now hn
  rw [show Function.update life k .opened = life from hk ▸ Function.update_eq_self k life] at htrace
  exact { h with trace := htrace, descriptors := h.descriptors.of_eq (fun _ => rfl) rfl ⟨rfl, rfl, rfl⟩ }

theorem Inv.lt_created (h : w.Inv life) (hk : life k ≠ .absent) : k < w.created := by
  by_contra hle
  exact hk ((h.absent k).mpr (not_lt.mp hle))

theorem buffered_connection {conn : TcpConnection} (hconn : w.connection k = some conn) (buf : Buffer) :
    (w.buffered k buf).connection k = some { conn with inputBuffer := buf } := by
  simp [World.buffered, updateConnection, hconn]

theorem handleRead_message (h : w.Inv life) (hk : life k = .opened) {r : ReadFd} (hr : r.ret ≠ 0) :
    TcpConnection.handleRead .debug w k r acts =
      ((w.buffered k r.inputBuffer).received k r.ret).userCode .debug acts := by
  obtain ⟨conn, hconn, -, hkeeps⟩ := h.object k (h.lt_created (by simp [hk]))
  have hbranch : readBranch r.ret = .message := by rw [readBranch_eq, if_neg hr]
  have hobject : ((w.buffered k r.inputBuffer).observe k (.read r.ret)).connection k = _ :=
    buffered_connection hconn r.inputBuffer
  have hlog : ((w.buffered k r.inputBuffer).observe k (.read r.ret)).observe k .messageCallback =
      (w.buffered k r.inputBuffer).received k r.ret := by
    simp [observe, World.received, World.buffered, updateConnection, Lifecycle.message, now]
  simp only [TcpConnection.handleRead, hconn, require, ok_bind, hbranch]
  rw [← hlog]
  unfold TcpConnection.callMessageCallback
  rw [← World.buffered, hobject]
  simp only [require, ok_bind, hkeeps.messageCallback, if_true]

end Message

section Close

def closeStarted (w : World) (k : ℕ) : World :=
  { w with
    poller := w.poller.rewrite (.connection k) Channel.kNoneEvent
    server := { w.server with
      connections := AList.erase (w.server.connectionName (k + 1)) w.server.connections }
    loop := w.loop.queueInLoop (.connectDestoryed k)
    log := w.log ++ (Lifecycle.down w.now).map fun m => (k, m) }

theorem removeConnection_ok (conn : TcpConnection) (hconn : w.connection k = some conn)
    (hmem : conn.name ∈ w.server.connections) :
    TcpServer.removeConnection .debug w k = .ok (((
      { w with server := { w.server with connections := AList.erase conn.name w.server.connections } } :
        World).queueInLoop (.connectDestoryed k)).observe k .queued) := by
  simp [TcpServer.removeConnection, hconn, require, Build.checkEffect, hmem]

theorem handleClose_ok {conn : TcpConnection} {p : Poller ChannelId} (hconn : w.connection k = some conn)
    (hstate : conn.state = .connected) (hclose : conn.closeCallback = some (.removeConnection k))
    (hp : Channel.disableAll .debug w.poller (.connection k) = .ok p) :
    TcpConnection.handleClose .debug w k acts =
      TcpServer.removeConnection .debug { w.observe k .handleClose with poller := p } k := by
  have hconn' : (w.observe k .handleClose).connection k = some conn := hconn
  have hp' : Channel.disableAll .debug (w.observe k .handleClose).poller (.connection k) = .ok p := hp
  simp only [TcpConnection.handleClose, hconn', require, ok_bind, check_of hstate, hp', hclose]

theorem handleRead_close (h : w.Inv life) (hk : life k = .opened) {r : ReadFd} (hr : r.ret = 0) :
    TcpConnection.handleRead .debug w k r acts = .ok ((w.buffered k r.inputBuffer).closeStarted k) := by
  obtain ⟨conn, hconn, hstate, hkeeps⟩ := h.object k (h.lt_created (by simp [hk]))
  have hbranch : readBranch r.ret = .close := by rw [readBranch_eq, if_pos hr]
  have hreg : w.poller.Registered (.connection k) := (h.registered k).mpr (by simp [hk, Life.registered])
  have hmem : conn.name ∈ w.server.connections := by
    rw [hkeeps.name]
    exact FiniteMap.mem_of_find ((h.connections _ k).mpr ⟨hk, rfl⟩)
  have hstate' : conn.state = .connected := by simpa [hk, Life.state] using hstate
  have hobject : ((w.buffered k r.inputBuffer).observe k (.read r.ret)).connection k = _ :=
    buffered_connection hconn r.inputBuffer
  have hdisable := Poller.disableAll_old h.wellFormed hreg .debug
  simp only [TcpConnection.handleRead, hconn, require, ok_bind, hbranch]
  rw [← World.buffered, handleClose_ok hobject hstate' hkeeps.closeCallback hdisable]
  rw [removeConnection_ok { conn with inputBuffer := r.inputBuffer }]
  · simp [closeStarted, observe, queueInLoop, World.buffered, updateConnection, Lifecycle.down, now, hr, hkeeps.name]
  · exact hobject
  · exact hmem

theorem Inv.closeStarted (h : w.Inv life) (hk : life k = .opened) {rest : List ChannelId}
    (hstage : w.stage = .dispatch rest) (hrest : .connection k ∉ rest) :
    (w.closeStarted k).Inv (Function.update life k (.closing w.iteration)) := by
  have hreg : w.poller.Registered (.connection k) := (h.registered k).mpr (by simp [hk, Life.registered])
  have hregistered : ∀ c,
      (w.poller.rewrite (.connection k) Channel.kNoneEvent).Registered c ↔ w.poller.Registered c :=
    Poller.rewrite_registered
  have hfds : ∀ c, ((w.poller.rewrite (.connection k) Channel.kNoneEvent).channel c).fd = (w.poller.channel c).fd :=
    Poller.rewrite_fd
  have hevents : ∀ c, ((w.poller.rewrite (.connection k) Channel.kNoneEvent).channel c).events =
      if c = .connection k then Channel.kNoneEvent else (w.poller.channel c).events := Poller.rewrite_events
  have hother : ∀ c, c ≠ .connection k → w.poller.Enabled c →
      (w.poller.rewrite (.connection k) Channel.kNoneEvent).Enabled c := by
    intro c hc hen
    exact ⟨(hregistered c).mpr hen.1, by rw [hevents, if_neg hc]; exact hen.2⟩
  have hself : Function.update life k (.closing w.iteration) k = .closing w.iteration := Function.update_self _ _ _
  have hne : ∀ j, j ≠ k → Function.update life k (.closing w.iteration) j = life j :=
    fun j hj => Function.update_of_ne hj _ _
  constructor
  case wellFormed => exact Poller.rewrite_wellFormed h.wellFormed hreg (Or.inl rfl)
  case acceptReady => exact h.acceptReady.rewrite
  case wakeup => exact hother _ (by simp) h.wakeup
  case timerfd => exact hother _ (by simp) h.timerfd
  case absent =>
    intro j
    by_cases hj : j = k
    · subst hj
      have hlt := h.lt_created (k := j) (by simp [hk])
      simp only [hself, World.closeStarted, reduceCtorEq, false_iff, not_le]
      exact hlt
    · rw [hne j hj]
      exact h.absent j
  case trace =>
    have hdispatch : w.now = ⟨w.iteration, .dispatch⟩ := by simp [now, hstage, LoopStage.stage]
    apply h.trace_append
    · rfl
    · rw [hdispatch]
      exact .close w.iteration (hk ▸ h.trace k)
  case noObject => exact h.noObject
  case object =>
    intro j hj
    obtain ⟨conn, hconn, hstate, hkeeps⟩ := h.object j hj
    refine ⟨conn, hconn, ?_, { hkeeps with socketFd := by rw [hkeeps.socketFd]; exact (hfds _).symm }⟩
    by_cases hjk : j = k
    · subst hjk
      rw [hself, hstate, hk]
      rfl
    · rw [hne j hjk, hstate]
  case registered =>
    intro j
    refine (hregistered _).trans ((h.registered j).trans ?_)
    by_cases hjk : j = k
    · subst hjk
      rw [hself, hk]
      rfl
    · rw [hne j hjk]
  case enabled =>
    intro j hj
    have hjk : j ≠ k := by
      rintro rfl
      rw [hself] at hj
      exact Life.noConfusion hj
    rw [hne j hjk] at hj
    simp only [World.closeStarted, hevents]
    rw [if_neg (by simpa using hjk)]
    exact h.enabled j hj
  case disabled =>
    intro j n hj
    simp only [World.closeStarted, hevents]
    split_ifs with hjk
    · rfl
    · rw [hne j (by simpa using hjk)] at hj
      exact h.disabled j n hj
  case descriptors => exact h.descriptors.of_eq Poller.rewrite_fd rfl ⟨rfl, rfl, rfl⟩
  case connections =>
    intro n j
    simp only [World.closeStarted, FiniteMap.find_erase]
    by_cases hjk : j = k
    · subst hjk
      rw [hself]
      split_ifs with hn
      · simp
      · rw [h.connections]
        simp only [false_and, iff_false, not_and]
        exact fun _ => hn
    · rw [hne j hjk]
      split_ifs with hn
      · simp only [false_iff, not_and]
        rintro _ rfl
        exact hjk (by simpa using w.server.connectionName_inj hn)
      · exact h.connections n j
  case callbacks => exact h.callbacks
  case nextConnectId => exact h.nextConnectId
  case functors =>
    intro j
    have hold := h.functors j
    simp only [World.closeStarted, EventLoop.queueInLoop_pendingFunctors, hstage, LoopStage.unstarted,
      List.append_nil, List.count_append] at hold ⊢
    by_cases hjk : j = k
    · subst hjk
      rw [hold, hself, hk]
      simp [Life.isClosing]
    · rw [hold, hne j hjk]
      simp [Ne.symm hjk]
  case closing =>
    intro j n hj
    by_cases hjk : j = k
    · subst hjk
      rw [hself] at hj
      exact (Life.closing.inj hj).symm
    · rw [hne j hjk] at hj
      exact h.closing j n hj
  case looping =>
    intro houtside
    rw [World.closeStarted, hstage] at houtside
    exact LoopStage.noConfusion houtside
  case stage =>
    simp only [World.closeStarted, hstage]
    have hold := h.stage
    rw [hstage] at hold
    refine ⟨hold.1, fun c hc => hother c ?_ (hold.2 c hc)⟩
    rintro rfl
    exact hrest hc

end Close

section Establish

theorem Inv.fd_absent (h : w.Inv life) (hfd : fd ∉ w.openFds) : (fd : ℤ) ∉ w.poller.channels := by
  rw [FiniteMap.mem_iff_find]
  rintro ⟨c, hc⟩
  obtain ⟨hreg, he⟩ := (h.wellFormed.find_iff _ c).mp hc
  apply hfd
  rw [← Int.natCast_inj.mp he]
  exact h.descriptors.isOpen c (h.live_of_registered hreg)

theorem Inv.not_registered (h : w.Inv life) (hk : w.created ≤ k) : ¬ w.poller.Registered (.connection k) := by
  intro hreg
  exact absurd (h.live_of_registered hreg) (not_lt.mpr hk)

def established (w : World) (fd : ℕ) : World :=
  { w with
    poller := w.poller.adopt (.connection w.created) fd
    server := { w.server with
      nextConnectId := w.created + 1
      connections := w.server.connections.assign (w.server.connectionName (w.created + 1)) w.created }
    connection := Function.update w.connection w.created (some
      { name := w.server.connectionName (w.created + 1), state := .connected, socketFd := fd,
        connectionCallback := true, messageCallback := true,
        closeCallback := some (.removeConnection w.created), inputBuffer := { buffer := [] } })
    created := w.created + 1
    openFds := fd :: w.openFds
    acceptedFds := fd :: w.acceptedFds
    log := w.log ++ (Lifecycle.up w.now).map fun m => (w.created, m) }

theorem handleRead_connected (h : w.Inv life) (hfd : fd ∉ w.openFds) (hid : w.created + 1 < 2 ^ 31) (errno : Int32) :
    Acceptor.handleRead .debug w (.connected fd) errno acts = (w.established fd).userCode .debug acts := by
  obtain ⟨hnew, hconnection, hmessage⟩ := h.callbacks
  have hadopt := Poller.enableReading_adopt (c := ChannelId.connection w.created) (h.fd_absent hfd) .debug
  have hfit : ¬ 2 ^ 31 ≤ w.created + 1 := not_le.mpr hid
  simp only [Acceptor.handleRead, Sockets.accept_connected, ok_bind, Int.natCast_nonneg, if_true, Int.toNat_natCast,
    hnew, TcpServer.newConnection, h.nextConnectId, hfit, if_false]
  simp [TcpConnection.connectEstablish, TcpServer.makeConnection, observe, require, check_of, setState,
    updateConnection, hadopt, TcpConnection.callConnectionCallback, hconnection, hmessage, established,
    Lifecycle.up, now]

theorem handleRead_overflow (h : w.Inv life) (hid : 2 ^ 31 ≤ w.created + 1) (errno : Int32) :
    Acceptor.handleRead .debug w (.connected fd) errno acts = .error .undefinedBehaviour := by
  simp only [Acceptor.handleRead, Sockets.accept_connected, ok_bind, Int.natCast_nonneg, if_true,
    h.callbacks.1, TcpServer.newConnection, h.nextConnectId, hid]

theorem established_channel_old (hc : c.Live w.created) :
    (w.established fd).poller.channel c = w.poller.channel c := by
  apply Poller.adopt_channel
  rintro rfl
  exact lt_irrefl _ hc

theorem live_established (hc : c.Live (w.established fd).created) :
    c = .connection w.created ∨ c.Live w.created := by
  cases c with
  | connection k =>
    rcases Nat.lt_succ_iff_lt_or_eq.mp hc with hlt | rfl
    · exact Or.inr hlt
    · exact Or.inl rfl
  | _ => exact Or.inr trivial

theorem Descriptors.established (h : w.Descriptors) (hfd : fd ∉ w.openFds) : (w.established fd).Descriptors := by
  have hold : ∀ c : ChannelId, c.Live w.created → (w.established fd).poller.channel c = w.poller.channel c :=
    fun c hc => established_channel_old hc
  have hnewFd : ((w.established fd).poller.channel (.connection w.created)).fd = fd := Poller.adopt_fd
  have hnewOpen : ∀ c : ChannelId, c.Live w.created → (w.poller.channel c).fd ≠ fd := by
    rintro c hc rfl
    exact hfd (h.isOpen c hc)
  constructor
  case distinct =>
    intro c d hc hd he
    rcases live_established hc with rfl | hc
    · rcases live_established hd with rfl | hd
      · rfl
      · rw [hnewFd, hold d hd] at he
        exact absurd he.symm (hnewOpen d hd)
    · rw [hold c hc] at he
      rcases live_established hd with rfl | hd
      · rw [hnewFd] at he
        exact absurd he (hnewOpen c hc)
      · rw [hold d hd] at he
        exact h.distinct c d hc hd he
  case isOpen =>
    intro c hc
    rcases live_established hc with rfl | hc
    · rw [hnewFd]
      exact List.mem_cons_self
    · rw [hold c hc]
      exact List.mem_cons_of_mem _ (h.isOpen c hc)
  case accepted =>
    intro fd'
    have hcons : fd' ∈ (w.established fd).acceptedFds ↔ fd' = fd ∨ fd' ∈ w.acceptedFds := List.mem_cons
    rw [hcons, h.accepted]
    constructor
    · rintro (rfl | ⟨j, hj, rfl⟩)
      · exact ⟨w.created, Nat.lt_succ_self _, hnewFd⟩
      · exact ⟨j, Nat.lt_succ_of_lt hj, by rw [hold (.connection j) hj]⟩
    · rintro ⟨j, hj, rfl⟩
      rcases Nat.lt_succ_iff_lt_or_eq.mp hj with hj | rfl
      · exact Or.inr ⟨j, hj, by rw [hold (.connection j) hj]⟩
      · exact Or.inl hnewFd
  case noneClosed => exact h.noneClosed

theorem Inv.established (h : w.Inv life) (hfd : fd ∉ w.openFds) :
    (w.established fd).Inv (Function.update life w.created .opened) := by
  have habsent := h.fd_absent hfd
  have hnot := h.not_registered le_rfl
  have hregistered : ∀ c,
      (w.established fd).poller.Registered c ↔ c = .connection w.created ∨ w.poller.Registered c :=
    Poller.adopt_registered h.wellFormed habsent hnot
  have hold : ∀ c : ChannelId, c.Live w.created → (w.established fd).poller.channel c = w.poller.channel c :=
    fun c hc => established_channel_old hc
  have hnewFd : ((w.established fd).poller.channel (.connection w.created)).fd = fd := Poller.adopt_fd
  have hself : Function.update life w.created .opened w.created = .opened := Function.update_self _ _ _
  have hne : ∀ j, j ≠ w.created → Function.update life w.created .opened j = life j :=
    fun j hj => Function.update_of_ne hj _ _
  have henabled : ∀ c, w.poller.Enabled c → (w.established fd).poller.Enabled c := by
    intro c hc
    refine ⟨(hregistered c).mpr (Or.inr hc.1), ?_⟩
    rw [hold c (h.live_of_registered hc.1)]
    exact hc.2
  have hclosing : ∀ j, (Function.update life w.created .opened j).isClosing = (life j).isClosing := by
    intro j
    by_cases hj : j = w.created
    · subst hj
      rw [hself, (h.absent _).mpr le_rfl]
      rfl
    · rw [hne j hj]
  have hnewOpen : ∀ c : ChannelId, c.Live w.created → (w.poller.channel c).fd ≠ fd := by
    rintro c hc rfl
    exact hfd (h.descriptors.isOpen c hc)
  constructor
  case wellFormed => exact Poller.adopt_wellFormed h.wellFormed habsent hnot
  case acceptReady =>
    rcases h.acceptReady with ha | ⟨ha, hidx, hmem⟩
    · exact Or.inl (henabled _ ha)
    · right
      refine ⟨?_, ?_, ?_⟩
      · rw [hregistered]
        simpa using ha
      · rw [hold .accept trivial]
        exact hidx
      · rw [hold .accept trivial]
        rw [← FiniteMap.find_eq_none]
        refine (FiniteMap.find_assign _ _ _ _).trans ?_
        rw [if_neg]
        · exact FiniteMap.find_eq_none.mpr hmem
        · intro he
          rw [Poller.setChannel_new_fd] at he
          exact hnewOpen .accept trivial (by exact_mod_cast he)
  case wakeup => exact henabled _ h.wakeup
  case timerfd => exact henabled _ h.timerfd
  case absent =>
    intro j
    by_cases hj : j = w.created
    · subst hj
      rw [hself]
      simp [World.established]
    · rw [hne j hj, h.absent j]
      simp only [World.established]
      omega
  case trace =>
    have htrace := h.trace w.created
    rw [(h.absent _).mpr le_rfl] at htrace
    apply h.trace_append
    · rfl
    · rw [htrace.absent_shape]
      exact .establish w.now
  case noObject =>
    intro j hj
    have hlt : w.created < j := hj
    exact (Function.update_of_ne hlt.ne' _ _).trans (h.noObject j hlt.le)
  case object =>
    intro j hj
    by_cases hjk : j = w.created
    · subst hjk
      exact ⟨_, Function.update_self _ _ _, by rw [hself]; rfl, ⟨rfl, hnewFd.symm, rfl, rfl, rfl⟩⟩
    · have hlt : j < w.created := by
        have : j < w.created + 1 := hj
        omega
      obtain ⟨conn, hconn, hstate, hkeeps⟩ := h.object j hlt
      refine ⟨conn, (Function.update_of_ne hjk _ _).trans hconn, ?_, ?_⟩
      · rw [hne j hjk, hstate]
      · rw [hold (.connection j) hlt]
        exact { hkeeps with }
  case registered =>
    intro j
    rw [hregistered]
    by_cases hjk : j = w.created
    · subst hjk
      simp [Life.registered]
    · rw [hne j hjk, h.registered j]
      simp [hjk]
  case enabled =>
    intro j hj
    by_cases hjk : j = w.created
    · subst hjk
      exact Poller.adopt_events
    · rw [hne j hjk] at hj
      rw [hold (.connection j) (h.lt_created (by simp [hj]))]
      exact h.enabled j hj
  case disabled =>
    intro j n hj
    have hjk : j ≠ w.created := by
      rintro rfl
      simp at hj
    rw [hne j hjk] at hj
    rw [hold (.connection j) (h.lt_created (by simp [hj]))]
    exact h.disabled j n hj
  case descriptors => exact h.descriptors.established hfd
  case connections =>
    intro n j
    have hname : (w.established fd).server.connectionName (j + 1) = w.server.connectionName (j + 1) := rfl
    rw [hname]
    simp only [World.established, FiniteMap.find_assign]
    by_cases hjk : j = w.created
    · subst hjk
      rw [hself]
      split_ifs with hn
      · simpa using hn
      · rw [h.connections, (h.absent _).mpr le_rfl]
        simpa using hn
    · rw [hne j hjk]
      split_ifs with hn
      · simp only [Option.some.injEq, Ne.symm hjk, false_iff, not_and]
        rintro _ rfl
        exact hjk (by simpa using w.server.connectionName_inj hn)
      · exact h.connections n j
  case callbacks => exact h.callbacks
  case nextConnectId => rfl
  case functors =>
    intro j
    rw [hclosing j]
    exact h.functors j
  case closing =>
    intro j n hj
    have hjk : j ≠ w.created := by
      rintro rfl
      simp at hj
    rw [hne j hjk] at hj
    exact h.closing j n hj
  case looping => exact h.looping
  case stage =>
    apply h.stage.mono
    · intro j hj
      rw [hclosing j] at hj
      exact hj
    · intro j hj
      by_contra hlife
      have hjk : j ≠ w.created := by
        rintro rfl
        simp at hj
      exact hlife (hne j hjk ▸ hj)
    · exact henabled

end Establish

section Destory

def disconnected (w : World) (k : ℕ) : World :=
  { w.updateConnection k fun conn => { conn with state := .disConnected } with
    poller := w.poller.rewrite (.connection k) Channel.kNoneEvent
    log := w.log ++ (Lifecycle.gone w.now).map fun m => (k, m) }

def unregistered (w : World) (k : ℕ) : World := { w with poller := w.poller.unregister (.connection k) }

theorem connectDestoryed_eq {conn : TcpConnection} (hconn : w.connection k = some conn)
    (hstate : conn.state = .connected) (hcallback : conn.connectionCallback = true)
    (hwf : w.poller.WellFormed) (hreg : w.poller.Registered (.connection k)) :
    TcpConnection.connectDestoryed .debug w k acts = (do
      let w' ← (w.disconnected k).userCode .debug acts
      let poller ← Channel.remove .debug w'.poller (.connection k)
      pure { w' with poller }) := by
  have hdisable := Poller.disableAll_old hwf hreg .debug
  simp [TcpConnection.connectDestoryed, observe, hconn, require, check_of, hstate, setState, updateConnection,
    hdisable, TcpConnection.callConnectionCallback, hcallback, disconnected, Lifecycle.gone, now]

theorem removable (hwf : w.poller.WellFormed) (hreg : w.poller.Registered (.connection k))
    (hf : Frame (w.disconnected k) w') : w'.poller.Removable (.connection k) := by
  have hreg' : (w.disconnected k).poller.Registered (.connection k) := (Poller.rewrite_registered _).mpr hreg
  constructor
  · exact (hf.poller.registered _ (by simp)).mpr hreg'
  · rw [Channel.isNoneEvent, hf.poller.events _ (by simp)]
    exact (Poller.rewrite_events _).trans (if_pos rfl)
  · exact hf.poller.masked _ (by simp) hreg' (Poller.rewrite_masked hwf hreg)

theorem Frame.unregistered (hwf : w.poller.WellFormed) (hreg : w.poller.Registered (.connection k))
    (hf : Frame w w') : Frame (w.unregistered k) (w'.unregistered k) :=
  { hf with poller := PollerFrame.unregister hwf hf.poller hreg }

theorem Inv.closing_of_functor (h : w.Inv life) {rest functors : List Functor}
    (hstage : w.stage = .pending (.connectDestoryed k :: rest) functors) :
    life k = .closing w.iteration ∧ .connectDestoryed k ∉ rest := by
  have hcount := h.functors k
  simp only [hstage, LoopStage.unstarted, List.count_append, List.count_cons_self] at hcount
  split_ifs at hcount with hk
  · obtain ⟨n, hn⟩ := Life.isClosing_iff.mp hk
    refine ⟨h.closing k n hn ▸ hn, ?_⟩
    apply List.count_eq_zero.mp
    omega

theorem Inv.destoryed (h : w.Inv life) {rest functors : List Functor}
    (hstage : w.stage = .pending (.connectDestoryed k :: rest) functors) :
    ((({ w with stage := .pending rest functors } : World).disconnected k).unregistered k).Inv
      (Function.update life k .closed) := by
  obtain ⟨hk, hrest⟩ := h.closing_of_functor hstage
  have hreg : w.poller.Registered (.connection k) := (h.registered k).mpr (by simp [hk, Life.registered])
  have hold := h.stage
  rw [hstage] at hold
  obtain ⟨v, hv⟩ : ∃ v, v = (({ w with stage := .pending rest functors } : World).disconnected k).unregistered k :=
    ⟨_, rfl⟩
  have hpoller : v.poller = (w.poller.rewrite (.connection k) Channel.kNoneEvent).unregister (.connection k) := by
    rw [hv]
    rfl
  have hregistered : ∀ c, v.poller.Registered c ↔ w.poller.Registered c ∧ c ≠ .connection k := by
    intro c
    rw [hpoller, Poller.unregister_registered ((Poller.rewrite_registered _).mpr hreg), Poller.rewrite_registered]
  have hfds : ∀ c, (v.poller.channel c).fd = (w.poller.channel c).fd := by
    intro c
    rw [hpoller, Poller.unregister_fd, Poller.rewrite_fd]
  have hevents : ∀ c, c ≠ .connection k → (v.poller.channel c).events = (w.poller.channel c).events := by
    intro c hc
    rw [hpoller, Poller.unregister_events, Poller.rewrite_events, if_neg hc]
  have henabled : ∀ c, w.poller.Enabled c → v.poller.Enabled c := by
    intro c hc
    have hck : c ≠ .connection k := by
      rintro rfl
      rw [h.opened_of_enabled hc] at hk
      exact Life.noConfusion hk
    exact ⟨(hregistered c).mpr ⟨hc.1, hck⟩, by rw [hevents c hck]; exact hc.2⟩
  have hself : Function.update life k .closed k = .closed := Function.update_self _ _ _
  have hne : ∀ j, j ≠ k → Function.update life k .closed j = life j := fun j hj => Function.update_of_ne hj _ _
  rw [← hv]
  constructor
  case wellFormed =>
    rw [hpoller]
    apply Poller.unregister_wellFormed
    · exact Poller.rewrite_wellFormed h.wellFormed hreg (Or.inl rfl)
    · exact (Poller.rewrite_registered _).mpr hreg
  case acceptReady =>
    rw [hpoller]
    exact h.acceptReady.rewrite.unregister ((Poller.rewrite_registered _).mpr hreg)
  case wakeup => exact henabled _ h.wakeup
  case timerfd => exact henabled _ h.timerfd
  case absent =>
    intro j
    have hcreated : v.created = w.created := by rw [hv]; rfl
    rw [hcreated]
    by_cases hj : j = k
    · subst hj
      have hlt := h.lt_created (k := j) (by simp [hk])
      simpa using hlt
    · rw [hne j hj]
      exact h.absent j
  case trace =>
    subst hv
    apply h.trace_append
    · rfl
    · exact .destory w.iteration (hk ▸ h.trace k)
  case noObject =>
    subst hv
    intro j hj
    have hjk : j ≠ k := by
      rintro rfl
      exact absurd (h.lt_created (k := j) (by simp [hk])) (not_lt.mpr hj)
    exact (Function.update_of_ne hjk _ _).trans (h.noObject j hj)
  case object =>
    intro j hj
    have hcreated : v.created = w.created := by rw [hv]; rfl
    obtain ⟨conn, hconn, hstate, hkeeps⟩ := h.object j (hcreated ▸ hj)
    rw [hfds]
    subst hv
    by_cases hjk : j = k
    · subst hjk
      refine ⟨{ conn with state := .disConnected }, ?_, ?_, { hkeeps with }⟩
      · simp [unregistered, disconnected, updateConnection, hconn]
      · rw [hself]
        rfl
    · refine ⟨conn, (Function.update_of_ne hjk _ _).trans hconn, ?_, { hkeeps with }⟩
      rw [hne j hjk, hstate]
  case registered =>
    intro j
    rw [hregistered, h.registered j]
    by_cases hjk : j = k
    · subst hjk
      simp [Life.registered]
    · rw [hne j hjk]
      simp [hjk]
  case enabled =>
    intro j hj
    have hjk : j ≠ k := by
      rintro rfl
      simp at hj
    rw [hne j hjk] at hj
    rw [hevents _ (by simpa using hjk)]
    exact h.enabled j hj
  case disabled =>
    intro j n hj
    have hjk : j ≠ k := by
      rintro rfl
      simp at hj
    rw [hne j hjk] at hj
    rw [hevents _ (by simpa using hjk)]
    exact h.disabled j n hj
  case descriptors =>
    subst hv
    exact h.descriptors.of_eq hfds rfl ⟨rfl, rfl, rfl⟩
  case connections =>
    intro n j
    have hname : v.server = w.server := by rw [hv]; rfl
    rw [hname, h.connections n j]
    by_cases hjk : j = k
    · subst hjk
      simp [hk]
    · rw [hne j hjk]
  case callbacks =>
    subst hv
    exact h.callbacks
  case nextConnectId =>
    subst hv
    exact h.nextConnectId
  case functors =>
    intro j
    have hcount := h.functors j
    subst hv
    simp only [hstage, LoopStage.unstarted, unregistered, disconnected, updateConnection,
      List.count_append] at hcount ⊢
    by_cases hjk : j = k
    · subst hjk
      rw [hself, List.count_eq_zero.mpr (hold.1 j), List.count_eq_zero.mpr hrest]
      rfl
    · rw [List.count_cons_of_ne (by simpa using Ne.symm hjk)] at hcount
      rw [hcount, hne j hjk]
  case closing =>
    intro j n hj
    have hjk : j ≠ k := by
      rintro rfl
      simp at hj
    rw [hne j hjk] at hj
    subst hv
    exact h.closing j n hj
  case looping =>
    intro houtside
    rw [hv] at houtside
    exact LoopStage.noConfusion houtside
  case stage =>
    subst hv
    refine ⟨hold.1, fun j hj => ?_⟩
    by_cases hjk : j = k
    · subst hjk
      simp
    · rw [hne j hjk]
      exact hold.2 j hj

theorem Inv.connectDestoryed (h : w.Inv life) {rest functors : List Functor} (acts : List UserAction)
    (hstage : w.stage = .pending (.connectDestoryed k :: rest) functors) :
    ∃ w', TcpConnection.connectDestoryed .debug { w with stage := .pending rest functors } k acts = .ok w' ∧
      w'.Inv (Function.update life k .closed) := by
  obtain ⟨hk, _⟩ := h.closing_of_functor hstage
  obtain ⟨conn, hconn, hstate, hkeeps⟩ := h.object k (h.lt_created (by simp [hk]))
  have hreg : w.poller.Registered (.connection k) := (h.registered k).mpr (by simp [hk, Life.registered])
  obtain ⟨v, hv⟩ : ∃ v : World, v = { w with stage := .pending rest functors } := ⟨_, rfl⟩
  have hinv := h.destoryed hstage
  have hconn' : v.connection k = some conn := by rw [hv]; exact hconn
  have hwf : v.poller.WellFormed := by rw [hv]; exact h.wellFormed
  have hreg' : v.poller.Registered (.connection k) := by rw [hv]; exact hreg
  rw [← hv] at hinv ⊢
  have hready : AcceptReady v.poller := by rw [hv]; exact h.acceptReady
  rw [connectDestoryed_eq hconn' (by simpa [hk, Life.state] using hstate) hkeeps.connectionCallback hwf hreg']
  have hwf' : (v.disconnected k).poller.WellFormed := Poller.rewrite_wellFormed hwf hreg' (Or.inl rfl)
  obtain ⟨w', hw', hf⟩ := userCode_ok (b := .debug) acts hwf' (AcceptReady.rewrite hready)
  have hremove := Poller.remove_of hf.poller.wellFormed (removable hwf hreg' hf)
  refine ⟨w'.unregistered k, by simp only [hw', ok_bind, hremove, pure_eq_ok, unregistered], ?_⟩
  exact hinv.frame (hf.unregistered hwf' ((Poller.rewrite_registered _).mpr hreg'))

end Destory

end World

end Penduo
