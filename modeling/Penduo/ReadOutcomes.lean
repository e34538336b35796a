import Penduo.ServerRuns

set_option autoImplicit false

namespace Penduo

open LabelledRuns

def TcpConnection.handleReadv (b : Build) (w : World) (k : ℕ) (r : Readv) (acts : List UserAction) :
    Except Fault World := do
  let conn ← require .undefinedBehaviour (w.connection k)
  let (ret, inputBuffer, _) ← conn.inputBuffer.readFd b r
  handleRead b w k ⟨ret, inputBuffer⟩ acts

namespace World

variable {w w' w0 v : World} {life : ℕ → Life} {fds : BaseFds} {serverName : String} {es : List ServerEvent}
  {k : ℕ} {r : Readv} {acts : List UserAction} {b : Build} {rest : List ChannelId} {c : ChannelId}

def calls (w : World) (k : ℕ) (o : Observation) : ℕ := ((w.trace k).map Prod.fst).count o

theorem calls_append {marks : List Mark} (htrace : w'.trace k = w.trace k ++ marks) (o : Observation) :
    w'.calls k o = w.calls k o + (marks.map Prod.fst).count o := by
  rw [calls, htrace, List.map_append, List.count_append, calls]

structure MessageOffered (w : World) (k n : ℕ) (acts : List UserAction) (w' : World) : Prop where
  once : w'.calls k .messageCallback = w.calls k .messageCallback + 1
  shown : ∃ (v : World) (conn conn' : TcpConnection), w.connection k = some conn ∧ v.connection k = some conn' ∧
    conn'.inputBuffer.buffer.length = conn.inputBuffer.buffer.length + n ∧ v.userCode .debug acts = .ok w'

structure CloseStarted (w : World) (k : ℕ) (w' : World) : Prop where
  once : w'.calls k .handleClose = w.calls k .handleClose + 1
  disabled : (w'.poller.channel (.connection k)).events = Channel.kNoneEvent
  erased : ∀ name, w'.server.connections.find name ≠ some k
  queued : w'.loop.pendingFunctors.count (.connectDestoryed k) =
    w.loop.pendingFunctors.count (.connectDestoryed k) + 1

structure ErrorHandled (w : World) (k : ℕ) (w' : World) : Prop where
  once : w'.calls k .handleError = w.calls k .handleError + 1
  silent : w'.calls k .messageCallback = w.calls k .messageCallback
  connection : w'.connection k = w.connection k
  registration : w'.poller = w.poller

/-- What each result of `::readv` is meant to do. -/
def Handles (w : World) (k : ℕ) (r : Readv) (acts : List UserAction) : Prop :=
  ∃ w', TcpConnection.handleReadv .debug w k r acts = .ok w' ∧
    match r with
    | .stored [] _ => w'.calls k .messageCallback = w.calls k .messageCallback ∧ CloseStarted w k w'
    | .stored bytes _ => MessageOffered w k bytes.length acts w'
    | .failed errno => ErrorHandled w k w' ∧
        ∀ conn, w.connection k = some conn →
          conn.inputBuffer.readFd .debug r = .ok (r.ret, conn.inputBuffer, some errno)

theorem handleReadv_eq {conn : TcpConnection} {ret : Int64} {buf : Buffer} {errno : Option Int32}
    (hconn : w.connection k = some conn) (hread : conn.inputBuffer.readFd b r = .ok (ret, buf, errno)) :
    TcpConnection.handleReadv b w k r acts = TcpConnection.handleRead b w k ⟨ret, buf⟩ acts := by
  simp only [TcpConnection.handleReadv, hconn, require, ok_bind, hread]

theorem step_readv {input : HandlerInput} {conn : TcpConnection} {ret : Int64} {buf : Buffer} {errno : Option Int32}
    (hstage : w.stage = .dispatch (.connection k :: rest)) (hfresh : w.fresh input.accepted = true)
    (hready : (w.poller.channel (.connection k)).revents &&& (Poll.pollin ||| Poll.pollpri) ≠ 0)
    (hconn : w.connection k = some conn) (hread : conn.inputBuffer.readFd b r = .ok (ret, buf, errno))
    (hinput : input.readFd = ⟨ret, buf⟩) :
    w.step b (.handle input) =
      some (TcpConnection.handleReadv b (w.entered (.connection k) rest) k r input.acts >>= fun w' =>
        pure (w'.setEventHandling (.connection k) false)) := by
  have hconn' : (w.entered (.connection k) rest).connection k = some conn := hconn
  simp only [World.step, hstage, if_pos hfresh, handleEvent_entered, if_pos hready, readCallback, hinput,
    handleReadv_eq hconn' hread]

section Outcome

theorem trace_received (n : Int64) : (w.received k n).trace k = w.trace k ++ Lifecycle.message n w.now := by
  have hlog : (w.received k n).log = w.log ++ (Lifecycle.message n w.now).map fun m => (k, m) := rfl
  rw [trace_append hlog, if_pos rfl]

theorem Inv.handleRead_calls (h : w.Inv life) (hk : life k = .opened) (read : ReadFd) (hret : read.ret ≠ 0)
    (acts : List UserAction) :
    ∃ w', TcpConnection.handleRead .debug w k read acts = .ok w' ∧
      ((w.buffered k read.inputBuffer).received k read.ret).userCode .debug acts = .ok w' ∧
      w'.trace k = w.trace k ++ Lifecycle.message read.ret w.now := by
  obtain ⟨w', hw', _, hframe⟩ := ((h.buffered k read.inputBuffer).received hk hret).userCode acts
  refine ⟨w', by rw [handleRead_message h hk hret, hw'], hw', ?_⟩
  rw [hframe.trace k, trace_received]
  rfl

theorem Inv.failed_calls_message (h : w.Inv life) (hk : life k = .opened) (errno : Int32) (acts : List UserAction) :
    ∃ w', TcpConnection.handleReadv .debug w k (.failed errno) acts = .ok w' ∧
      w'.calls k .messageCallback = w.calls k .messageCallback + 1 ∧
      w'.calls k .handleError = w.calls k .handleError := by
  obtain ⟨conn, hconn, _, _⟩ := h.object k (h.lt_created (by simp [hk]))
  have hread : conn.inputBuffer.readFd .debug (.failed errno) = .ok (-1, conn.inputBuffer, some errno) := rfl
  have hret : (-1 : Int64) ≠ 0 := by decide
  obtain ⟨w', hw', _, htrace⟩ := h.handleRead_calls hk ⟨-1, conn.inputBuffer⟩ hret acts
  refine ⟨w', by rw [handleReadv_eq hconn hread, hw'], ?_, ?_⟩
  · rw [calls_append htrace]
    rfl
  · rw [calls_append htrace]
    rfl

theorem Inv.message_offered (h : w.Inv life) (hk : life k = .opened) {bytes : List UInt8}
    (fits : bytes.length ≤ extraBufferSize) (htext : Textual bytes) (hne : bytes ≠ []) :
    ∃ w', TcpConnection.handleReadv .debug w k (.stored bytes fits) acts = .ok w' ∧
      MessageOffered w k bytes.length acts w' := by
  obtain ⟨conn, hconn, _, _⟩ := h.object k (h.lt_created (by simp [hk]))
  have hread : conn.inputBuffer.readFd .debug (.stored bytes fits) = _ := Buffer.readFd_textual htext
  have hret : Int64.ofNat bytes.length ≠ 0 := by
    intro hzero
    have hint := congrArg Int64.toInt hzero
    rw [Int64.toInt_ofNat_of_lt (Nat.lt_of_le_of_lt fits (by decide))] at hint
    exact hne (List.eq_nil_of_length_eq_zero (by simpa using hint))
  obtain ⟨w', hw', hcode, htrace⟩ :=
    h.handleRead_calls hk ⟨Int64.ofNat bytes.length, ⟨conn.inputBuffer.buffer ++ bytes⟩⟩ hret acts
  refine ⟨w', by rw [handleReadv_eq hconn hread, hw'], ?_, ?_⟩
  · rw [calls_append htrace]
    rfl
  · have hshown : ((w.buffered k ⟨conn.inputBuffer.buffer ++ bytes⟩).received k
        (Int64.ofNat bytes.length)).connection k = _ := buffered_connection hconn _
    exact ⟨_, conn, _, hconn, hshown, List.length_append, hcode⟩

theorem Inv.closeStarted_shape (h : w.Inv life) (k : ℕ) (buf : Buffer) :
    CloseStarted w k ((w.buffered k buf).closeStarted k) ∧
      ((w.buffered k buf).closeStarted k).calls k .messageCallback = w.calls k .messageCallback := by
  have htrace : ((w.buffered k buf).closeStarted k).trace k = w.trace k ++ Lifecycle.down w.now := by
    rw [World.trace_append rfl, if_pos rfl]
    rfl
  refine ⟨⟨?_, ?_, ?_, ?_⟩, ?_⟩
  · rw [calls_append htrace]
    rfl
  · simp [World.closeStarted, Poller.rewrite_events]
  · intro name
    simp only [World.closeStarted, World.buffered, updateConnection, FiniteMap.find_erase]
    split_ifs with hname
    · simp
    · intro hfind
      exact hname ((h.connections _ _).mp hfind).2
  · simp [World.closeStarted, World.buffered, updateConnection, EventLoop.queueInLoop_pendingFunctors]
  · rw [calls_append htrace]
    rfl

theorem Inv.closes (h : w.Inv life) (hk : life k = .opened) (fits : ([] : List UInt8).length ≤ extraBufferSize) :
    ∃ w', TcpConnection.handleReadv .debug w k (.stored [] fits) acts = .ok w' ∧
      w'.calls k .messageCallback = w.calls k .messageCallback ∧ CloseStarted w k w' := by
  obtain ⟨conn, hconn, _, _⟩ := h.object k (h.lt_created (by simp [hk]))
  have htext : Textual [] := ⟨by simp, by simp [extraBufferSize]⟩
  have hread : conn.inputBuffer.readFd .debug (.stored [] fits) = _ := Buffer.readFd_textual htext
  obtain ⟨hclose, hsilent⟩ := h.closeStarted_shape k ⟨conn.inputBuffer.buffer ++ []⟩
  refine ⟨_, ?_, hsilent, hclose⟩
  rw [handleReadv_eq hconn hread]
  exact handleRead_close h hk rfl

theorem textual_of_handleReadv {bytes : List UInt8} {fits : bytes.length ≤ extraBufferSize}
    (hok : TcpConnection.handleReadv .debug w k (.stored bytes fits) acts = .ok w') : Textual bytes := by
  obtain ⟨conn, _, hok⟩ := bind_eq_ok.mp hok
  obtain ⟨out, hout, _⟩ := bind_eq_ok.mp hok
  exact Buffer.textual_of_readFd hout

end Outcome

/-- Wherever the server has got to, a call of `handle_read` does what its result asks for only when
`::readv` has succeeded, with bytes that survive `read_fd`. -/
theorem handles_iff (hw0 : construct .debug fds serverName = .ok w0) (hrun : Run Next w0 es w)
    (hstage : w.stage = .dispatch (.connection k :: rest)) (r : Readv) (acts : List UserAction) :
    (w.entered (.connection k) rest).Handles k r acts ↔ ∃ bytes fits, r = .stored bytes fits ∧ Textual bytes := by
  obtain ⟨life, hw⟩ := run_inv hw0 hrun
  obtain ⟨h, henabled, _⟩ := hw.entered hstage
  have hk := h.opened_of_enabled henabled
  constructor
  · rintro ⟨w', hok, hhandled⟩
    cases r with
    | stored bytes fits => exact ⟨bytes, fits, rfl, textual_of_handleReadv hok⟩
    | failed errno =>
      obtain ⟨v, hv, hmessage, _⟩ := h.failed_calls_message hk errno acts
      obtain rfl : v = w' := Except.ok.inj (hv.symm.trans hok)
      have hsilent := hhandled.1.silent
      omega
  · rintro ⟨bytes, fits, rfl, htext⟩
    cases bytes with
    | nil => exact h.closes hk fits
    | cons a bytes => exact h.message_offered hk fits htext (by simp)

def oneConnection : List ServerEvent :=
  [.user [.start], .enter, .poll (readable [2]), .handle (accepts 10 []), .takePending, .finish]

def readReported : List ServerEvent := oneConnection ++ [.poll (readable [3])]

theorem handles_iff_stored : ∃ w0 w, construct .debug exampleFds "server" = .ok w0 ∧ Run Next w0 readReported w ∧
    (w.entered (.connection 0) []).Handles 0 (.stored [104, 105] (by decide)) [.receive 0] := by
  obtain ⟨w0, w, hw0, hrun, hstage⟩ :=
    run_of_advance exampleFds "server" readReported stage (a := .dispatch [.connection 0]) (by decide +kernel)
  refine ⟨w0, w, hw0, hrun, (handles_iff hw0 hrun hstage _ _).mpr ⟨_, _, rfl, ?_⟩⟩
  exact ⟨by decide, by decide⟩

theorem failed_read_offered : ∃ w0 w, construct .debug exampleFds "server" = .ok w0 ∧ Run Next w0 readReported w ∧
    w.stage = .dispatch [.connection 0] ∧
    (∃ w', TcpConnection.handleReadv .debug (w.entered (.connection 0) []) 0 (.failed Errno.eagain) [] = .ok w' ∧
      w'.calls 0 .messageCallback = (w.entered (.connection 0) []).calls 0 .messageCallback + 1 ∧
      w'.calls 0 .handleError = (w.entered (.connection 0) []).calls 0 .handleError) ∧
    ¬ (w.entered (.connection 0) []).Handles 0 (.failed Errno.eagain) [] := by
  obtain ⟨w0, w, hw0, hrun, hstage⟩ :=
    run_of_advance exampleFds "server" readReported stage (a := .dispatch [.connection 0]) (by decide +kernel)
  obtain ⟨life, hw⟩ := run_inv hw0 hrun
  obtain ⟨h, henabled, _⟩ := hw.entered hstage
  obtain ⟨w', hw', hmessage, herror⟩ :=
    h.failed_calls_message (h.opened_of_enabled henabled) Errno.eagain []
  refine ⟨w0, w, hw0, hrun, hstage, ⟨w', hw', hmessage, herror⟩, ?_⟩
  rintro ⟨v, hv, hhandled⟩
  obtain rfl : w' = v := Except.ok.inj (hw'.symm.trans hv)
  have hsilent := hhandled.1.silent
  omega

end World

end Penduo
