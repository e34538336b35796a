import Mathlib.Data.List.Induction
import Penduo.Buffer

set_option autoImplicit false

namespace Penduo

inductive ReadBranch
  | message
  | close
  | error
deriving DecidableEq, Repr

/-- The branch taken for a result of `read_fd`, which is kept in a `size_t`. -/
def readBranch (ret : Int64) : ReadBranch :=
  let n := ret.toUInt64
  if 0 < n then .message else if n = 0 then .close else .error

theorem readBranch_eq (ret : Int64) : readBranch ret = if ret = 0 then .close else .message := by
  have hzero : ret.toUInt64 = 0 ↔ ret = 0 :=
    ⟨fun h => by simpa using congrArg UInt64.toInt64 h, fun h => by rw [h]; rfl⟩
  have hpos : 0 < ret.toUInt64 ↔ ¬ ret.toUInt64 = 0 := by
    rw [UInt64.lt_iff_toNat_lt, ← UInt64.toNat_inj]
    exact Nat.pos_iff_ne_zero
  by_cases h : ret = 0
  · subst h
    rfl
  · simp only [readBranch, hpos, hzero, h, not_false_eq_true, if_true, if_false]

structure ConnectionInput where
  inputBuffer : Buffer
  received : List UInt8
  returned : List UInt8
  offered : List UInt8
  closed : Bool
deriving DecidableEq, Repr

inductive InputEvent
  | read (r : Readv)
  | receive

namespace ConnectionInput

def init : ConnectionInput :=
  { inputBuffer := { buffer := [] }, received := [], returned := [], offered := [], closed := false }

def handleRead (b : Build) (s : ConnectionInput) (r : Readv) : Except Fault ConnectionInput := do
  let (n, inputBuffer, _) ← s.inputBuffer.readFd b r
  let s := { s with inputBuffer, received := s.received ++ r.bytes }
  match readBranch n with
  | .message => pure { s with offered := s.returned ++ inputBuffer.buffer }
  | .close => pure { s with closed := true }
  | .error => pure s

def receive (s : ConnectionInput) : ConnectionInput :=
  let (str, inputBuffer) := s.inputBuffer.receiveAsString
  { s with inputBuffer, returned := s.returned ++ str }

def step (b : Build) (s : ConnectionInput) : InputEvent → Except Fault ConnectionInput
  | .read r => s.handleRead b r
  | .receive => pure s.receive

def play (b : Build) (s : ConnectionInput) (es : List InputEvent) : Except Fault ConnectionInput :=
  es.foldlM (step b) s

variable {b : Build} {s t : ConnectionInput} {es : List InputEvent}

theorem play_append (es fs : List InputEvent) : play b s (es ++ fs) = play b s es >>= fun t => play b t fs :=
  List.foldlM_append

theorem play_snoc (es : List InputEvent) (e : InputEvent) :
    play b s (es ++ [e]) = play b s es >>= fun t => step b t e := by
  rw [play_append]
  congr 1
  funext t
  simp only [play, List.foldlM_cons, List.foldlM_nil]
  exact bind_pure _

def Complete (s : ConnectionInput) : Prop :=
  s.returned ++ s.inputBuffer.buffer = s.received ∧ s.offered = s.received

def Readable : InputEvent → Prop
  | .read r => Textual r.bytes
  | .receive => True

theorem handleRead_failed (s : ConnectionInput) (errno : Int32) :
    s.handleRead b (.failed errno) = .ok { s with offered := s.returned ++ s.inputBuffer.buffer } := by
  have hbranch : readBranch (-1) = .message := by decide
  simp [handleRead, Buffer.readFd, Readv.ret, Readv.bytes, hbranch]

theorem handleRead_textual {bytes : List UInt8} {fits : bytes.length ≤ extraBufferSize}
    (hs : s.Complete) (h : Textual bytes) :
    ∃ t, s.handleRead b (.stored bytes fits) = .ok t ∧ t.Complete := by
  have hall : s.returned ++ (s.inputBuffer.buffer ++ bytes) = s.received ++ bytes := by
    rw [← List.append_assoc, hs.1]
  simp only [handleRead, Buffer.readFd_textual h, ok_bind, Readv.bytes]
  cases hbranch : readBranch (Int64.ofNat bytes.length) with
  | message => exact ⟨_, rfl, hall, hall⟩
  | close =>
    -- only an empty read closes
    have hnil : bytes = [] := by
      rw [readBranch_eq] at hbranch
      split_ifs at hbranch with hzero
      have hmod := congrArg (fun n : Int64 => n.toInt) hzero
      have hlt : bytes.length < 2 ^ 63 := Nat.lt_of_lt_of_le h.2 (by decide)
      simp only [Int64.toInt_ofNat_of_lt hlt] at hmod
      exact List.eq_nil_of_length_eq_zero (by simpa using hmod)
    refine ⟨_, rfl, hall, ?_⟩
    simpa [hnil] using hs.2
  | error => rw [readBranch_eq] at hbranch; split_ifs at hbranch

theorem step_complete {e : InputEvent} (hs : s.Complete) (he : Readable e) :
    ∃ t, step b s e = .ok t ∧ t.Complete := by
  cases e with
  | read r =>
    cases r with
    | stored bytes fits => exact handleRead_textual hs he
    | failed errno => exact ⟨_, handleRead_failed s errno, hs.1, hs.1⟩
  | receive => exact ⟨_, rfl, by simpa [receive, Buffer.receiveAsString] using hs.1, hs.2⟩

theorem play_complete (h : ∀ e ∈ es, Readable e) : ∃ t, play b init es = .ok t ∧ t.Complete := by
  induction es using List.reverseRecOn with
  | nil => exact ⟨init, rfl, rfl, rfl⟩
  | append_singleton es e ih =>
    obtain ⟨t, ht, hcomplete⟩ := ih fun e' he' => h e' (by simp [he'])
    obtain ⟨u, hu, hcomplete'⟩ := step_complete (b := b) hcomplete (h e (by simp))
    exact ⟨u, by rw [play_snoc, ht]; exact hu, hcomplete'⟩

theorem readable_of_step {e : InputEvent} (h : step .debug s e = .ok t) : Readable e := by
  cases e with
  | receive => trivial
  | read r =>
    cases r with
    | failed errno => exact ⟨by simp [Readv.bytes], by simp [Readv.bytes, extraBufferSize]⟩
    | stored bytes fits =>
      obtain ⟨out, hout, _⟩ := bind_eq_ok.mp h
      exact Buffer.textual_of_readFd hout

/-- No read fails an assertion, no byte is lost, and a closed connection has shown all of them. -/
def Delivered (es : List InputEvent) : Prop :=
  ∀ pre, pre <+: es → ∃ s, play .debug init pre = .ok s ∧
    s.returned ++ s.inputBuffer.buffer = s.received ∧ (s.closed = true → s.offered = s.received)

theorem delivered_iff (es : List InputEvent) :
    Delivered es ↔ ∀ r, .read r ∈ es → 0 ∉ r.bytes ∧ r.bytes.length < extraBufferSize := by
  constructor
  · intro h r hr
    obtain ⟨before, after, rfl⟩ := List.append_of_mem hr
    obtain ⟨s, hs, _⟩ := h (before ++ [.read r]) ⟨after, by simp⟩
    rw [play_snoc] at hs
    obtain ⟨t, _, ht⟩ := bind_eq_ok.mp hs
    exact readable_of_step ht
  · intro h pre hpre
    have hreadable : ∀ e ∈ pre, Readable e := fun e he => by
      cases e with
      | read r => exact h r (hpre.subset he)
      | receive => trivial
    obtain ⟨s, hs, hcomplete⟩ := play_complete (b := .debug) hreadable
    exact ⟨s, hs, hcomplete.1, fun _ => hcomplete.2⟩

theorem zero_byte_not_delivered : ¬ ∀ es, Delivered es := by
  intro h
  have hall := (delivered_iff [.read (.stored [97, 0, 98] (by decide))]).mp (h _) _ (List.mem_singleton.mpr rfl)
  exact hall.1 (by decide)

end ConnectionInput

end Penduo
