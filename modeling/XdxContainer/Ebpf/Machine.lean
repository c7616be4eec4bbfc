import Mathlib.Logic.Relation
import Mathlib.Tactic.Common
import Mathlib.Data.Int.Notation
import Mathlib.Algebra.Group.Nat.Defs
import Mathlib.Algebra.Group.Int.Defs
import Mathlib.Algebra.GroupWithZero.Nat

/-!
# Ebpf/Machine — the eBPF machine: instructions, registers that may be unset, one step, a run

    program = list of `Insn` ──fetch at a slot──▸ `step` ──iterate──▸ `run` ──▸ `Halt`

A register holds `none` until the program writes it: reading such a register is a fault
(`Halt.unset`), and `exit` reads `r0`.  So "reads no register but those set at entry" is not a side
condition on programs, it is part of what returning a value means.

The immediate of a 64-bit load takes a second slot, and jump offsets count slots (`Insn.slots`,
`fetch`).  Calls between eBPF functions and tail calls are left out; helper calls and map pointers
are whatever the `Runtime` says they are.
-/

namespace Ebpf

/-! ## Instructions -/

/-- The registers. -/
inductive Reg
  | r0 | r1 | r2 | r3 | r4 | r5 | r6 | r7 | r8 | r9 | r10
  deriving DecidableEq, Repr

/-- The widths of an operation. -/
inductive Width
  | w32 | w64
  deriving DecidableEq, Repr

/-- The sizes of a memory access. -/
inductive Size
  | byte | half | word | dword
  deriving DecidableEq, Repr

/-- The number of bytes a load or a store moves. -/
def Size.bytes : Size → ℕ
  | byte => 1
  | half => 2
  | word => 4
  | dword => 8

/-- The arithmetic operations. -/
inductive AluOp
  | add | sub | mul | div | or | and | lsh | rsh | neg | mod | xor | mov | arsh
  deriving DecidableEq, Repr

/-- The conditions of a jump. -/
inductive Cond
  | eq | gt | ge | set | ne | sgt | sge | lt | le | slt | sle
  deriving DecidableEq, Repr

/-- The second operand: a register, or a 32-bit immediate (sign-extended where 64 bits are read). -/
inductive Operand
  | reg (r : Reg)
  | imm (v : BitVec 32)
  deriving DecidableEq, Repr

/-- The instructions. -/
inductive Insn
  | alu (w : Width) (op : AluOp) (dst : Reg) (src : Operand)
  | ldx (sz : Size) (dst src : Reg) (off : BitVec 16)
  | st (sz : Size) (dst : Reg) (off : BitVec 16) (v : BitVec 32)
  | stx (sz : Size) (dst src : Reg) (off : BitVec 16)
  | xadd (sz : Size) (dst src : Reg) (off : BitVec 16)
  | lddw (dst : Reg) (kind : BitVec 4) (v : BitVec 64)
  | ja (off : BitVec 16)
  | jmp (w : Width) (c : Cond) (dst : Reg) (src : Operand) (off : BitVec 16)
  | call (fn : BitVec 32)
  | exit
  deriving DecidableEq, Repr

/-- The slots an instruction takes: a 64-bit immediate spills into a second one. -/
def Insn.slots : Insn → ℕ
  | lddw .. => 2
  | _ => 1

/-- Every instruction takes room. -/
theorem Insn.slots_pos (i : Insn) : 0 < i.slots := by
  cases i <;> simp [Insn.slots]

/-- The slots a program takes. -/
def slots (p : List Insn) : ℕ := (p.map Insn.slots).sum

@[simp] theorem slots_nil : slots [] = 0 := rfl

@[simp] theorem slots_cons (i : Insn) (p : List Insn) : slots (i :: p) = i.slots + slots p := by
  simp [slots]

/-- Two programs take the room of both. -/
@[simp] theorem slots_append (p q : List Insn) : slots (p ++ q) = slots p + slots q := by
  simp [slots]

/-- The instruction starting at a slot; nothing starts at the second slot of a 64-bit load. -/
def fetch : List Insn → ℕ → Option Insn
  | [], _ => none
  | i :: _, 0 => some i
  | i :: p, n + 1 => if n + 1 < i.slots then none else fetch p (n + 1 - i.slots)

/-- The first instruction. -/
@[simp] theorem fetch_zero (i : Insn) (p : List Insn) : fetch (i :: p) 0 = some i := rfl

/-- A program behind a prefix is found behind the prefix's slots. -/
theorem fetch_append (p q : List Insn) (n : ℕ) : fetch (p ++ q) (slots p + n) = fetch q n := by
  induction p with
  | nil => simp
  | cons i p ih =>
    have hpos : 0 < i.slots := i.slots_pos
    obtain ⟨k, hk⟩ : ∃ k, i.slots + slots p + n = k + 1 := ⟨i.slots + slots p + n - 1, by omega⟩
    rw [slots_cons, List.cons_append, hk, fetch, if_neg (by omega), ← hk,
      show i.slots + slots p + n - i.slots = slots p + n by omega, ih]

/-! ## States -/

/-- What the kernel supplies to a program: the number of registers a helper reads, its result and
its effect on memory, and the address a map or pseudo reference stands for. -/
structure Runtime where
  arity : BitVec 32 → ℕ
  helper : BitVec 32 → List (BitVec 64) → (BitVec 64 → BitVec 8) → BitVec 64
  effect : BitVec 32 → List (BitVec 64) → (BitVec 64 → BitVec 8) → BitVec 64 → BitVec 8
  pseudo : BitVec 4 → BitVec 64 → BitVec 64

/-- A state: the registers that have been written, the memory and the program counter. -/
structure State where
  regs : Reg → Option (BitVec 64)
  mem : BitVec 64 → BitVec 8
  pc : ℕ

/-- How a run ends: with a value in `r0`, on a register never written, or off the program. -/
inductive Halt
  | exited (v : BitVec 64)
  | unset (r : Reg)
  | badPc
  deriving DecidableEq

/-- Read a register; one that was never written is a fault. -/
def State.read (s : State) (r : Reg) : Except Halt (BitVec 64) :=
  match s.regs r with
  | some v => .ok v
  | none => .error (.unset r)

/-- Write a register. -/
def State.write (s : State) (r : Reg) (v : BitVec 64) : State :=
  { s with regs := fun r' => if r' = r then some v else s.regs r' }

/-- Move the program counter. -/
def State.goto (s : State) (pc : ℕ) : State := { s with pc := pc }

/-- A write changes one register. -/
@[simp] theorem State.write_regs (s : State) (r r' : Reg) (v : BitVec 64) :
    (s.write r v).regs r' = if r' = r then some v else s.regs r' := rfl

/-- A write of a register leaves the memory. -/
@[simp] theorem State.write_mem (s : State) (r : Reg) (v : BitVec 64) :
    (s.write r v).mem = s.mem := rfl
@[simp] theorem State.write_pc (s : State) (r : Reg) (v : BitVec 64) :
    (s.write r v).pc = s.pc := rfl

/-- A jump leaves the registers. -/
@[simp] theorem State.goto_regs (s : State) (n : ℕ) : (s.goto n).regs = s.regs := rfl

/-- A jump leaves the memory. -/
@[simp] theorem State.goto_mem (s : State) (n : ℕ) : (s.goto n).mem = s.mem := rfl
@[simp] theorem State.goto_pc (s : State) (n : ℕ) : (s.goto n).pc = n := rfl

/-- A register that was written can be read. -/
theorem State.read_of_regs {s : State} {r : Reg} {v : BitVec 64} (h : s.regs r = some v) :
    s.read r = .ok v := by
  rw [State.read, h]

/-- The value of an operand. -/
def State.operand (s : State) : Operand → Except Halt (BitVec 64)
  | .reg r => s.read r
  | .imm v => .ok (v.signExtend 64)

/-- The left operand of an arithmetic instruction; a move does not read it. -/
def State.left (s : State) (op : AluOp) (dst : Reg) : Except Halt (BitVec 64) :=
  if op = .mov then .ok 0 else s.read dst

/-! ## Memory, little-endian -/

/-- Read `n` bytes at `a`, the least significant first. -/
def loadLE (m : BitVec 64 → BitVec 8) (a : BitVec 64) : ℕ → BitVec 64
  | 0 => 0
  | n + 1 => (m a).setWidth 64 ||| loadLE m (a + 1) n <<< 8

/-- Write the `n` low bytes of a word at `a`, the least significant first. -/
def storeLE {w : ℕ} (m : BitVec 64 → BitVec 8) (a : BitVec 64) (v : BitVec w) (n : ℕ) :
    BitVec 64 → BitVec 8 :=
  fun x => if (x - a).toNat < n then (v >>> (8 * (x - a).toNat)).setWidth 8 else m x

/-! ## One step -/

/-- The 64-bit meaning of an operation; division by zero gives zero, the remainder leaves the
first operand. -/
def AluOp.eval64 (op : AluOp) (a b : BitVec 64) : BitVec 64 :=
  match op with
  | add => a + b
  | sub => a - b
  | mul => a * b
  | div => a / b
  | or => a ||| b
  | and => a &&& b
  | lsh => a <<< (b.toNat % 64)
  | rsh => a >>> (b.toNat % 64)
  | neg => -a
  | mod => a % b
  | xor => a ^^^ b
  | mov => b
  | arsh => a.sshiftRight (b.toNat % 64)

/-- The 32-bit meaning: on the low halves. -/
def AluOp.eval32 (op : AluOp) (a b : BitVec 32) : BitVec 32 :=
  match op with
  | add => a + b
  | sub => a - b
  | mul => a * b
  | div => a / b
  | or => a ||| b
  | and => a &&& b
  | lsh => a <<< (b.toNat % 32)
  | rsh => a >>> (b.toNat % 32)
  | neg => -a
  | mod => a % b
  | xor => a ^^^ b
  | mov => b
  | arsh => a.sshiftRight (b.toNat % 32)

/-- An operation at a width; a 32-bit result clears the upper half. -/
def AluOp.eval (op : AluOp) (w : Width) (a b : BitVec 64) : BitVec 64 :=
  match w with
  | .w64 => op.eval64 a b
  | .w32 => (op.eval32 (a.setWidth 32) (b.setWidth 32)).setWidth 64

/-- Does the jump condition hold? -/
def Cond.holds {n : ℕ} (c : Cond) (a b : BitVec n) : Bool :=
  match c with
  | eq => a == b
  | gt => b.ult a
  | ge => b.ule a
  | set => a &&& b != 0
  | ne => a != b
  | sgt => b.slt a
  | sge => b.sle a
  | lt => a.ult b
  | le => a.ule b
  | slt => a.slt b
  | sle => a.sle b

/-- A condition on two registers, at a width. -/
def Cond.eval (c : Cond) (w : Width) (a b : BitVec 64) : Bool :=
  match w with
  | .w64 => c.holds a b
  | .w32 => c.holds (a.setWidth 32) (b.setWidth 32)

/-- The slot a jump offset names, counted from the slot after the jump. -/
def target (pc : ℕ) (off : BitVec 16) : Except Halt ℕ :=
  let t : ℤ := (pc : ℤ) + 1 + off.toInt
  if 0 ≤ t then .ok t.toNat else .error .badPc

/-- The registers a helper of a given arity reads. -/
def argRegs (n : ℕ) : List Reg := [Reg.r1, .r2, .r3, .r4, .r5].take n

/-- A helper call leaves its result in `r0` and the argument registers unset. -/
def State.afterCall (s : State) (v : BitVec 64) (m : BitVec 64 → BitVec 8) : State :=
  { regs := fun r => if r = .r0 then some v
      else if r ∈ argRegs 5 then none else s.regs r
    mem := m
    pc := s.pc + 1 }

/-- What an instruction does, once fetched. -/
def exec (rt : Runtime) (s : State) : Insn → Except Halt State
  | .alu w op dst src => do
      let b ← s.operand src
      let a ← s.left op dst
      return (s.write dst (op.eval w a b)).goto (s.pc + 1)
  | .ldx sz dst src off => do
      let a ← s.read src
      return (s.write dst (loadLE s.mem (a + off.signExtend 64) sz.bytes)).goto (s.pc + 1)
  | .st sz dst off v => do
      let a ← s.read dst
      return { s with
        mem := storeLE s.mem (a + off.signExtend 64) (v.signExtend 64) sz.bytes, pc := s.pc + 1 }
  | .stx sz dst src off => do
      let a ← s.read dst
      let v ← s.read src
      return { s with mem := storeLE s.mem (a + off.signExtend 64) v sz.bytes, pc := s.pc + 1 }
  | .xadd sz dst src off => do
      let a ← s.read dst
      let v ← s.read src
      let old := loadLE s.mem (a + off.signExtend 64) sz.bytes
      return { s with
        mem := storeLE s.mem (a + off.signExtend 64) (old + v) sz.bytes, pc := s.pc + 1 }
  | .lddw dst kind v => .ok ((s.write dst (rt.pseudo kind v)).goto (s.pc + 2))
  | .ja off => do
      let t ← target s.pc off
      return s.goto t
  | .jmp w c dst src off => do
      let a ← s.read dst
      let b ← s.operand src
      if c.eval w a b then
        let t ← target s.pc off
        return s.goto t
      else return s.goto (s.pc + 1)
  | .call fn => do
      let args ← (argRegs (rt.arity fn)).mapM s.read
      return s.afterCall (rt.helper fn args s.mem) (rt.effect fn args s.mem)
  | .exit => do
      let v ← s.read .r0
      .error (.exited v)

/-- One step of a program. -/
def step (rt : Runtime) (p : List Insn) (s : State) : Except Halt State :=
  match fetch p s.pc with
  | some i => exec rt s i
  | none => .error .badPc

/-- Run for at most `n` steps; `none` when they did not suffice. -/
def run (rt : Runtime) (p : List Insn) : ℕ → State → Option Halt
  | 0, _ => none
  | n + 1, s =>
    match step rt p s with
    | .ok s' => run rt p n s'
    | .error h => some h

/-- The run from `s` ends in `h`. -/
def Halts (rt : Runtime) (p : List Insn) (s : State) (h : Halt) : Prop := ∃ n, run rt p n s = some h

/-- The run from `s` ends with `v` in `r0`. -/
def Returns (rt : Runtime) (p : List Insn) (s : State) (v : BitVec 64) : Prop :=
  Halts rt p s (.exited v)

/-- Some number of steps leads from `s` to `s'`. -/
def Reaches (rt : Runtime) (p : List Insn) : State → State → Prop :=
  Relation.ReflTransGen fun s s' => step rt p s = .ok s'

end Ebpf
