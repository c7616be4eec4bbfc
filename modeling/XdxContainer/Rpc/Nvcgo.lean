import XdxContainer.Mount.Code
import XdxContainer.Rpc.Errors

/-!
# Rpc/Nvcgo — the clients of the Go library's service

    cgroup.c ──call_rpc──▸ argument ──wire──▸ service ──▸ result ──wire──▸ cgroup.c
                              │                              │
                              └ a string, a device number    └ a string

What `call_rpc` gives a client of `NVCGO_PROGRAM`, told without the wire.  An argument that cannot
be written never reaches the service, and a result that cannot be written never reaches the client.
A device number of 64 bits is written as a word: `setup_device_cgroup` gets through exactly with
those of 12 bits for the major number and 20 for the minor.
-/

open Xdr Mount

/-! ## Device numbers, by their bits -/

namespace Mount

section Bits

variable (i : ℕ)

/-- The bits of a mask: those from `lo` on below `hi`. -/
theorem getLsbD_mask {m lo hi : ℕ} (hhi : hi ≤ 64)
    (h : ∀ i < 64, m.testBit i = decide (lo ≤ i ∧ i < hi)) :
    (BitVec.ofNat 64 m).getLsbD i = decide (lo ≤ i ∧ i < hi) := by
  rw [BitVec.getLsbD_ofNat]
  rcases Nat.lt_or_ge i 64 with hi | hi
  · rw [h i hi, decide_eq_true hi, Bool.true_and]
  · rw [decide_eq_false (by omega), Bool.false_and, eq_comm, decide_eq_false_iff_not]
    omega

theorem getLsbD_low8 : (0xff#64).getLsbD i = decide (0 ≤ i ∧ i < 8) :=
  getLsbD_mask i (by decide) (by decide)

theorem getLsbD_low12 : (0xfff#64).getLsbD i = decide (0 ≤ i ∧ i < 12) :=
  getLsbD_mask i (by decide) (by decide)

theorem getLsbD_high20 : (0xfffff000#64).getLsbD i = decide (12 ≤ i ∧ i < 32) :=
  getLsbD_mask i (by decide) (by decide)

theorem getLsbD_high24 : (0xffffff00#64).getLsbD i = decide (8 ≤ i ∧ i < 32) :=
  getLsbD_mask i (by decide) (by decide)

/-- Where the bits of a device number come from. -/
theorem getLsbD_makedev (maj min : ℕ) :
    (makedev maj min).getLsbD i =
      if i < 8 then min.testBit i
      else if i < 20 then maj.testBit (i - 8)
      else if i < 44 then min.testBit (i - 12)
      else i < 64 && maj.testBit (i - 32) := by
  change ((BitVec.ofNat 64 (maj % 2 ^ 32) &&& 0xfff#64) <<< 8
    ||| (BitVec.ofNat 64 (maj % 2 ^ 32) &&& 0xfffff000#64) <<< 32
    ||| (BitVec.ofNat 64 (min % 2 ^ 32) &&& 0xff#64)
    ||| (BitVec.ofNat 64 (min % 2 ^ 32) &&& 0xffffff00#64) <<< 12).getLsbD i = _
  simp only [BitVec.getLsbD_or, BitVec.getLsbD_shiftLeft, BitVec.getLsbD_and,
    getLsbD_low12, getLsbD_high20, getLsbD_low8, getLsbD_high24]
  simp only [BitVec.getLsbD_ofNat, Nat.testBit_mod_two_pow]
  grind

/-- The bits of a major. -/
theorem testBit_major (d : Dev) : (major d).testBit i =
    (decide (i < 12) && d.getLsbD (8 + i) || decide (12 ≤ i ∧ i < 32) && d.getLsbD (32 + i)) := by
  change ((d >>> 8 &&& 0xfff#64) ||| (d >>> 32 &&& 0xfffff000#64)).toNat.testBit i = _
  rw [BitVec.testBit_toNat]
  simp only [BitVec.getLsbD_or, BitVec.getLsbD_and, BitVec.getLsbD_ushiftRight, getLsbD_low12,
    getLsbD_high20]
  grind

/-- The bits of a minor. -/
theorem testBit_minor (d : Dev) : (minor d).testBit i =
    (decide (i < 8) && d.getLsbD i || decide (8 ≤ i ∧ i < 32) && d.getLsbD (12 + i)) := by
  change ((d &&& 0xff#64) ||| (d >>> 12 &&& 0xffffff00#64)).toNat.testBit i = _
  rw [BitVec.testBit_toNat]
  simp only [BitVec.getLsbD_or, BitVec.getLsbD_and, BitVec.getLsbD_ushiftRight, getLsbD_low8,
    getLsbD_high24]
  grind

end Bits

variable (maj min : UInt32)

theorem testBit_of_ge (n : UInt32) {i : ℕ} (hi : 32 ≤ i) : n.toNat.testBit i = false :=
  Nat.testBit_lt_two_pow (n.toNat_lt.trans_le (Nat.pow_le_pow_right (by decide) hi))

/-- The major number of a device number. -/
theorem major_makedev : major (makedev maj.toNat min.toNat) = maj.toNat := by
  refine Nat.eq_of_testBit_eq fun i => ?_
  rw [testBit_major, getLsbD_makedev, getLsbD_makedev]
  rcases Nat.lt_or_ge i 12 with h12 | h12
  · grind
  · rcases Nat.lt_or_ge i 32 with h32 | h32
    · grind
    · rw [testBit_of_ge maj h32]
      grind

/-- The minor number of a device number. -/
theorem minor_makedev : minor (makedev maj.toNat min.toNat) = min.toNat := by
  refine Nat.eq_of_testBit_eq fun i => ?_
  rw [testBit_minor, getLsbD_makedev, getLsbD_makedev]
  rcases Nat.lt_or_ge i 8 with h8 | h8
  · grind
  · rcases Nat.lt_or_ge i 32 with h32 | h32
    · grind
    · rw [testBit_of_ge min h32]
      grind

/-- **A device number fits a word** when its major number has 12 bits and its minor number 20. -/
theorem makedev_lt_iff : (makedev maj.toNat min.toNat).toNat < 2 ^ 32 ↔
    maj.toNat < 2 ^ 12 ∧ min.toNat < 2 ^ 20 := by
  constructor
  · intro h
    have hbit {i : ℕ} (hi : 32 ≤ i) : (makedev maj.toNat min.toNat).getLsbD i = false := by
      rw [← BitVec.testBit_toNat]
      exact Nat.testBit_lt_two_pow (h.trans_le (Nat.pow_le_pow_right (by decide) hi))
    constructor
    · refine Nat.lt_pow_two_of_testBit _ fun i hi => ?_
      have hhigh := @testBit_of_ge maj i
      have hmaj := @hbit (i + 32) (by omega)
      rw [getLsbD_makedev] at hmaj
      grind
    · refine Nat.lt_pow_two_of_testBit _ fun i hi => ?_
      have hhigh := @testBit_of_ge min i
      have hmin := @hbit (i + 12) (by omega)
      rw [getLsbD_makedev] at hmin
      grind
  · rintro ⟨hmaj, hmin⟩
    refine Nat.lt_pow_two_of_testBit _ fun i hi => ?_
    have hmajor {j : ℕ} (hj : 12 ≤ j) : maj.toNat.testBit j = false :=
      Nat.testBit_lt_two_pow (hmaj.trans_le (Nat.pow_le_pow_right (by decide) hj))
    have hminor {j : ℕ} (hj : 20 ≤ j) : min.toNat.testBit j = false :=
      Nat.testBit_lt_two_pow (hmin.trans_le (Nat.pow_le_pow_right (by decide) hj))
    rw [BitVec.testBit_toNat, getLsbD_makedev]
    grind

end Mount

namespace Messages

/-! ## What a client is told -/

/-- What is put before the error of a call that got no answer. -/
def nvcgoRpcError : Phrase := ⟨ascii "nvcgo rpc error", by decide, by decide⟩

/-- The argument could not be written. -/
def unsent : Failure := .set cantEncodeArgs nvcgoRpcError unprocessed

/-- The service gave no answer. -/
def unanswered : Failure := .set noAnswer nvcgoRpcError timedOut

/-- The service could not write its result. -/
def unwritten : Failure := .set systemError nvcgoRpcError remoteSystemError

/-- The string of a value is there. -/
def NvcgoProc.Whole : (p : NvcgoProc) → p.Value → Prop
  | .findDeviceCgroupPath, path => path.isSome
  | _, _ => True

instance : (p : NvcgoProc) → (a : p.Arg) → Decidable (p.Sendable a)
  | .init, _ | .shutdown, _ => inferInstanceAs (Decidable True)
  | .getDeviceCgroupVersion, (_, root, _) => inferInstanceAs (Decidable (root.isSome = true))
  | .findDeviceCgroupPath, (_, _, root, _, _) => inferInstanceAs (Decidable (root.isSome = true))
  | .setupDeviceCgroup, (_, _, cgroup, id) =>
    inferInstanceAs (Decidable (cgroup.isSome = true ∧ id.toNat < 2 ^ 32))

instance : (p : NvcgoProc) → (a : p.Value) → Decidable (p.Whole a)
  | .findDeviceCgroupPath, path => inferInstanceAs (Decidable (path.isSome = true))
  | .init, _ | .shutdown, _ | .getDeviceCgroupVersion, _ | .setupDeviceCgroup, _ =>
    inferInstanceAs (Decidable True)

/-- What the client is told of a result. -/
def told {p : NvcgoProc} : Result p.Value → Except Failure p.Value
  | .value a => if p.Whole a then .ok a else .error unwritten
  | .failure code (some msg) => .error ⟨code, msg⟩
  | .failure _ none => .error unwritten

/-- Every value that is whole is written. -/
theorem writes_nvcgoValue {p : NvcgoProc} {a : p.Value} :
    p.xdrRes.Writes (.value a) ↔ p.Whole a := by
  cases p with
  | findDeviceCgroupPath => exact writes_xdrResult.trans writes_string
  | _ => exact iff_of_true (writes_xdrResult.mpr rfl) trivial

/-- A failure is written if it has a message. -/
theorem writes_nvcgoFailure {p : NvcgoProc} {code : Code} {msg : Option CStr} :
    p.xdrRes.Writes (.failure code msg) ↔ msg.isSome := by
  cases p <;> exact writes_xdrResult

/-- What is told of a result is what `call_rpc` makes of it, if it can be written. -/
theorem callRpc_result {p : NvcgoProc} (res : Result p.Value) :
    callRpc nvcgoRpcError (if p.xdrRes.Writes res then .success res else .systemError)
      = told res := by
  rcases res with a | ⟨code, _ | msg⟩
  · by_cases ha : p.Whole a
    · rw [if_pos (writes_nvcgoValue.mpr ha), told, if_pos ha]
      rfl
    · rw [if_neg (mt writes_nvcgoValue.mp ha), told, if_neg ha]
      rfl
  · rw [if_neg (mt writes_nvcgoFailure.mp (by decide))]
    rfl
  · rw [if_pos (writes_nvcgoFailure.mpr rfl)]
    rfl

section Calls

variable {σ ρ : Type} (svc : nvcgoProgram.Service σ)

/-- A call of the program: `call_rpc`, by the procedure. -/
def remoteNvcgo (p : NvcgoProc) (a : p.Arg) (s : σ) : Except Failure p.Value × σ :=
  let (stat, s) := nvcgoProgram.clntCall svc p a s
  (callRpc nvcgoRpcError stat, s)

/-- What a client is told of the procedure's own answer. -/
def answered {p : NvcgoProc} : Bool × Result p.Value × σ → Except Failure p.Value × σ
  | (true, res, s) => (told res, s)
  | (false, _, s) => (.error unanswered, s)

/-- The call without the wire. -/
def callNvcgo (p : NvcgoProc) (a : p.Arg) (s : σ) : Except Failure p.Value × σ :=
  if p.Sendable a then answered (svc p a s) else (.error unsent, s)

/-- The client and the service, without what is between them. -/
theorem remoteNvcgo_eq (p : NvcgoProc) (a : p.Arg) (s : σ) :
    remoteNvcgo svc p a s = callNvcgo svc p a s := by
  rw [remoteNvcgo, RpcProgram.clntCall_eq_direct, RpcProgram.direct, callNvcgo]
  by_cases ha : p.Sendable a
  · rw [if_pos (writes_nvcgoArgument.mpr ha), if_pos ha]
    rcases svc p a s with ⟨_ | _, res, s'⟩
    · rfl
    · exact Prod.ext (callRpc_result res) rfl
  · rw [if_neg (mt writes_nvcgoArgument.mp ha), if_neg ha]
    rfl

/-- A client of the program, going on by what it is told. -/
inductive NvcgoClient (ρ : Type)
  | done (r : ρ)
  | call (p : NvcgoProc) (a : p.Arg) (next : Except Failure p.Value → NvcgoClient ρ)

/-- Running a client, by a way to call. -/
def NvcgoClient.run (call : ∀ p : NvcgoProc, p.Arg → σ → Except Failure p.Value × σ) :
    NvcgoClient ρ → σ → ρ × σ
  | .done r, s => (r, s)
  | .call p a next, s =>
    let (r, s) := call p a s
    (next r).run call s

/-- **A client gets of the Go library's service what it gets without the wire**, and leaves it in
the same state: a call runs its procedure if the string of its argument is there and its device
number fits a word, and is told the result if the string of that is there. -/
theorem NvcgoClient.run_remote (client : NvcgoClient ρ) (s : σ) :
    client.run (remoteNvcgo svc) s = client.run (callNvcgo svc) s := by
  induction client generalizing s with
  | done r => rfl
  | call p a next ih =>
    rw [NvcgoClient.run, NvcgoClient.run, remoteNvcgo_eq]
    exact ih _ _

/-- `setup_device_cgroup`, for a container with a device cgroup. -/
def setupDeviceCgroup (ctx : Ptr) (version : Int32) (cgroup : CStr) (id : Dev) :
    σ → Except Failure Unit × σ :=
  remoteNvcgo svc .setupDeviceCgroup (ctx, version, some cgroup, ⟨id⟩)

end Calls

end Messages
