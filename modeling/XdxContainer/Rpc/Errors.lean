import XdxContainer.Rpc.Messages

/-!
# Rpc/Errors — errors, from the call that fails to the client that reports it

    "xdxml error" + "Not Found\n…" ──error_vset──▸ "xdxml error: not found" ──▸ result ──▸ client

`error_generic.c`, `error.c` and the macros of `error.h` and `rpc.h`.  A text is cut at its first
line, and what follows its last colon is in lower case.
-/

open Xdr

namespace Messages

/-- An error code that is set. -/
abbrev Code := {c : Int32 // c ≠ 0}

/-- `struct error`, when it is set. -/
structure Failure where
  code : Code
  msg : CStr
  deriving DecidableEq

/-- The bytes of a text in the source. -/
def ascii (s : String) : List UInt8 := s.toList.map fun c => .ofNat c.toNat

/-- The end of a line. -/
def newline : UInt8 := 10

/-- The colon in front of a reason. -/
def colon : UInt8 := 58

/-- `tolower`. -/
def lower (b : UInt8) : UInt8 := if 65 ≤ b ∧ b ≤ 90 then b + 32 else b

/-- `str_lower(strrchr(s, ':'))`, where there is a colon. -/
def lowerTail (s : List UInt8) : List UInt8 :=
  let tail := (s.reverse.takeWhile (· ≠ colon)).length
  s.take (s.length - tail) ++ (s.drop (s.length - tail)).map lower

/-- The text `error_vset` puts together, of what failed and why; the first has no newline. -/
def vset (msg errmsg : List UInt8) : List UInt8 :=
  lowerTail ((msg ++ [colon, 32] ++ errmsg).takeWhile (· ≠ newline))

section Text

variable {msg errmsg : List UInt8}

theorem lower_ne_zero {b : UInt8} (h : b ≠ 0) : lower b ≠ 0 := by
  unfold lower
  split_ifs with hb
  · intro h0
    have hsum := congrArg UInt8.toNat h0
    have hge := UInt8.le_iff_toNat_le.mp hb.1
    have hle := UInt8.le_iff_toNat_le.mp hb.2
    rw [UInt8.toNat_add] at hsum
    simp at hsum hge hle
    omega
  · exact h

theorem length_lowerTail (s : List UInt8) : (lowerTail s).length = s.length := by
  simp [lowerTail]

/-- No NUL comes in with the small letters. -/
theorem zero_notMem_lowerTail {s : List UInt8} (h : 0 ∉ s) : 0 ∉ lowerTail s := by
  rw [lowerTail, List.mem_append, not_or]
  constructor
  · exact fun hmem => h (List.mem_of_mem_take hmem)
  · intro hmem
    obtain ⟨b, hb, hlow⟩ := List.mem_map.mp hmem
    refine lower_ne_zero (fun h0 => h ?_) hlow
    rw [← h0]
    exact List.mem_of_mem_drop hb

/-- The message is no longer than its parts. -/
theorem length_vset_le : (vset msg errmsg).length ≤ msg.length + 2 + errmsg.length := by
  rw [vset, length_lowerTail]
  refine (List.takeWhile_prefix _).length_le.trans ?_
  simp
  omega

/-- The message has no NUL in it. -/
theorem zero_notMem_vset (hmsg : 0 ∉ msg) (herr : 0 ∉ errmsg) : 0 ∉ vset msg errmsg := by
  refine zero_notMem_lowerTail fun hmem => ?_
  have hall := (List.takeWhile_prefix _).subset hmem
  rcases List.mem_append.mp hall with hfront | hback
  · rcases List.mem_append.mp hfront with hm | hsep
    · exact hmsg hm
    · revert hsep
      decide
  · exact herr hback

end Text

/-- A short text, with no zero in it. -/
structure Phrase where
  bytes : List UInt8
  nul_notMem : 0 ∉ bytes
  length_lt : bytes.length < 2 ^ 16

/-- The phrase as a string. -/
def Phrase.cstr (s : Phrase) : CStr :=
  ⟨s.bytes, s.nul_notMem, by have := s.length_lt; omega⟩

/-- `error_vset`, with a reason. -/
def Failure.set (code : Code) (msg errmsg : Phrase) : Failure :=
  ⟨code, ⟨vset msg.bytes errmsg.bytes, zero_notMem_vset msg.nul_notMem errmsg.nul_notMem, by
    have hle := @length_vset_le msg.bytes errmsg.bytes
    have hm := msg.length_lt
    have he := errmsg.length_lt
    omega⟩⟩

/-- `error_setx`. -/
def Failure.setx (msg : Phrase) : Failure := ⟨⟨-1, by decide⟩, msg.cstr⟩

/-! ## The way to the client -/

variable {α : Type}

/-- `error_to_xdr`, of an error that is set. -/
def errorToXdr (f : Failure) : Result α := .failure f.code (some f.msg)

/-- The reasons `error_set_rpc` gives; the others are the library's, without `RPC: `. -/
def unprocessed : Phrase := ⟨ascii "failed to process request", by decide, by decide⟩

/-- The failure of the first procedure. -/
def noHandshake : Phrase := ⟨ascii "failed to perform handshake", by decide, by decide⟩

/-- The reason `RPC_TIMEDOUT` is given. -/
def timedOut : Phrase := ⟨ascii "Timed out", by decide, by decide⟩

/-- The reason `RPC_SYSTEMERROR` is given. -/
def remoteSystemError : Phrase := ⟨ascii "Remote system error", by decide, by decide⟩

/-- `RPC_CANTENCODEARGS`. -/
def cantEncodeArgs : Code := ⟨1, by decide⟩

/-- `RPC_CANTDECODERES`. -/
def cantDecodeRes : Code := ⟨2, by decide⟩

/-- `RPC_TIMEDOUT`. -/
def noAnswer : Code := ⟨5, by decide⟩

/-- `RPC_PROCUNAVAIL`. -/
def procUnavail : Code := ⟨10, by decide⟩

/-- `RPC_CANTDECODEARGS`. -/
def cantDecodeArgs : Code := ⟨11, by decide⟩

/-- `RPC_SYSTEMERROR`. -/
def systemError : Code := ⟨12, by decide⟩

/-- `call_rpc`; `what` is the program's name with ` rpc error`. -/
def callRpc (what : Phrase) : RpcProgram.Stat (Result α) → Except Failure α
  | .success (.value a) => .ok a
  -- `error_from_xdr`; a text read from the wire is never NULL
  | .success (.failure code msg) => .error ⟨code, msg.getD what.cstr⟩
  | .cantEncodeArgs => .error (.set cantEncodeArgs what unprocessed)
  | .cantDecodeRes => .error (.set cantDecodeRes what unprocessed)
  | .timedOut => .error (.set noAnswer what timedOut)
  | .procUnavail => .error (.set procUnavail what noHandshake)
  | .cantDecodeArgs => .error (.set cantDecodeArgs what unprocessed)
  | .systemError => .error (.set systemError what remoteSystemError)

/-- An error comes out as it was put in. -/
theorem callRpc_success_errorToXdr (what : Phrase) (f : Failure) :
    callRpc what (.success (errorToXdr f : Result α)) = .error f := rfl

example : (Failure.set systemError ⟨ascii "nvcgo rpc error", by decide, by decide⟩
    remoteSystemError).msg.bytes = ascii "nvcgo rpc error: remote system error" := by
  decide +kernel

end Messages
