import Penduo.Assertions
import Penduo.Library.TerminatedStrings

set_option autoImplicit false

namespace Penduo

open TerminatedStrings

structure Buffer where
  buffer : List UInt8
deriving DecidableEq, Repr

def extraBufferSize : ℕ := 65536

inductive Readv
  | stored (bytes : List UInt8) (fits : bytes.length ≤ extraBufferSize)
  | failed (errno : Int32)

def Readv.bytes : Readv → List UInt8
  | .stored bytes _ => bytes
  | .failed _ => []

def Readv.ret : Readv → Int64
  | .stored bytes _ => Int64.ofNat bytes.length
  | .failed _ => -1

namespace Buffer

def receiveAsString (b : Buffer) : List UInt8 × Buffer := (b.buffer, { buffer := [] })

def readFd (b : Build) (buf : Buffer) (r : Readv) : Except Fault (Int64 × Buffer × Option Int32) :=
  match r with
  | .failed errno => pure (r.ret, buf, some errno)
  | .stored bytes _ => do
    let extraBuffer := bytes ++ List.replicate (extraBufferSize - bytes.length) 0
    -- `strlen` of an array without a zero byte reads past its end, with or without the assertion
    let len ← require .undefinedBehaviour (strlen 0 extraBuffer)
    b.check .readLength (bytes.length = len)
    let str ← require .undefinedBehaviour (text 0 extraBuffer)
    pure (r.ret, { buffer := buf.buffer ++ str }, none)

end Buffer

/-- Bytes that survive the way through a C string in the scratch buffer. -/
def Textual (bytes : List UInt8) : Prop := 0 ∉ bytes ∧ bytes.length < extraBufferSize

namespace Buffer

variable {b : Build} {buf : Buffer} {bytes : List UInt8} {fits : bytes.length ≤ extraBufferSize}

theorem readFd_textual (h : Textual bytes) :
    readFd b buf (.stored bytes fits) = .ok (Int64.ofNat bytes.length, { buffer := buf.buffer ++ bytes }, none) := by
  obtain ⟨hzero, hlen⟩ := h
  have hk : 0 < extraBufferSize - bytes.length := by omega
  have hstr : bytes.takeWhile (fun a => !decide (a = 0)) = bytes := by
    refine List.takeWhile_eq_self_iff.mpr fun a ha => ?_
    simp only [Bool.not_eq_true', decide_eq_false_iff_not]
    exact fun ha0 => hzero (ha0 ▸ ha)
  simp [readFd, strlen_padded_iff.mpr ⟨hzero, hk⟩, text_padded hk, hstr, check_of, require, Readv.ret]

theorem textual_of_readFd {out : Int64 × Buffer × Option Int32}
    (h : readFd .debug buf (.stored bytes fits) = .ok out) : Textual bytes := by
  simp only [readFd, bind_eq_ok, require_eq_ok, check_debug_eq_ok] at h
  obtain ⟨len, hlen, _, rfl, _⟩ := h
  obtain ⟨hzero, hk⟩ := strlen_padded_iff.mp hlen
  exact ⟨hzero, by omega⟩

end Buffer

end Penduo
