import XdxContainer.Ebpf.Machine

/-!
# Cgroup/DeviceFilter — generating a device filter in front of an existing program

    rules ──init, appendDevice per rule, last rule first──▸ blocks ──finalize──▸ labelled program
          ──fixupJumpsAndCalls──▸ the instructions the kernel gets

The generator of `nvcgo/internal/cgroup/ebpf.go`, with the instruction constructors of the `asm`
package it calls and the label resolution `ebpf.NewProgram` performs on its output.  An
`Instruction` carries the label it defines and the label it refers to, as the `asm` package has
them; the opcode, registers, offset and constant are one `Ebpf.Insn`.
-/

open Ebpf

namespace Cgroup

/-! ## Rules and labelled instructions -/

/-- A device rule (`specs.LinuxDeviceCgroup`).  `Major` and `Minor` are pointers in the source, set
by every caller; here the integers they point to, negative when the number is absent. -/
structure DeviceRule where
  allow : Bool
  type : String
  access : String
  major : ℤ
  minor : ℤ
  deriving DecidableEq, Repr

/-- An instruction with the label it refers to and the label it defines, `""` for none. -/
structure Instruction where
  insn : Insn
  reference : String := ""
  symbol : String := ""
  deriving DecidableEq, Repr

/-- `Instruction.Sym`. -/
def Instruction.sym (i : Instruction) (name : String) : Instruction := { i with symbol := name }

/-! ## The instruction constructors the generator uses -/

namespace Asm

/-- `asm.LoadMem`. -/
def loadMem (dst src : Reg) (off : BitVec 16) (sz : Size) : Instruction :=
  { insn := .ldx sz dst src off }

/-- `asm.RSh.Imm32`. -/
def rshImm32 (dst : Reg) (v : BitVec 32) : Instruction := { insn := .alu .w32 .rsh dst (.imm v) }

/-- `asm.Mov.Reg32`. -/
def movReg32 (dst src : Reg) : Instruction := { insn := .alu .w32 .mov dst (.reg src) }

/-- `asm.Mov.Imm32`. -/
def movImm32 (dst : Reg) (v : BitVec 32) : Instruction := { insn := .alu .w32 .mov dst (.imm v) }

/-- `asm.And.Imm32`. -/
def andImm32 (dst : Reg) (v : BitVec 32) : Instruction := { insn := .alu .w32 .and dst (.imm v) }

/-- `JumpOp.Imm`: the offset is a placeholder until the label is resolved. -/
def jumpImm (c : Cond) (dst : Reg) (v : BitVec 32) (label : String) : Instruction :=
  { insn := .jmp .w64 c dst (.imm v) (-1), reference := label }

/-- `Return`: an exit instruction, which requires a return value in `r0`. -/
def ret : Instruction := { insn := .exit }

end Asm

/-! ## The generator -/

/-- `BPF_DEVCG_ACC_MKNOD`, `BPF_DEVCG_ACC_READ`, `BPF_DEVCG_ACC_WRITE`. -/
def accMknod : BitVec 32 := 1

/-- `BPF_DEVCG_ACC_READ`. -/
def accRead : BitVec 32 := 2

/-- `BPF_DEVCG_ACC_WRITE`. -/
def accWrite : BitVec 32 := 4

/-- `BPF_DEVCG_DEV_BLOCK`, `BPF_DEVCG_DEV_CHAR`. -/
def devBlock : BitVec 32 := 1

/-- `BPF_DEVCG_DEV_CHAR`. -/
def devChar : BitVec 32 := 2

/-- `math.MaxUint32`. -/
def maxUint32 : ℤ := 4294967295

/-- `program`: what `ebpf.go` collects the instructions in. -/
structure Program where
  insts : List Instruction := []
  hasWildCard : Bool := false
  blockID : ℤ := 0

/-- The label of a block. -/
def blockSym (labelPrefix : String) (id : ℤ) : String := labelPrefix ++ "-block-" ++ toString id

/-- `program.init`: load the request into `r2`..`r5`. -/
def Program.init (p : Program) : Program :=
  { p with insts := p.insts ++
      [ -- r2 <- type, the lower 16 bits of access_type
        Asm.loadMem .r2 .r1 0 .half,
        -- r3 <- access, the upper 16 bits
        Asm.loadMem .r3 .r1 0 .word,
        Asm.rshImm32 .r3 16,
        Asm.loadMem .r4 .r1 4 .word,
        Asm.loadMem .r5 .r1 8 .word ] }

/-- The device type a rule tests for, `none` for all types. -/
def bpfType (type : String) : Except String (Option (BitVec 32)) :=
  if type = "c" then .ok (some devChar)
  else if type = "b" then .ok (some devBlock)
  else if type = "a" then .ok none
  else .error ("invalid DeviceType " ++ type.quote)

/-- The loop over the access string. -/
def bpfAccess : List Char → BitVec 32 → Except String (BitVec 32)
  | [], acc => .ok acc
  | 'r' :: l, acc => bpfAccess l (acc ||| accRead)
  | 'w' :: l, acc => bpfAccess l (acc ||| accWrite)
  | 'm' :: l, acc => bpfAccess l (acc ||| accMknod)
  | c :: _, _ => .error ("unknown device access " ++ toString c.toNat)

/-- `program.acceptBlock`. -/
def acceptBlock (accept : Bool) : List Instruction :=
  [Asm.movImm32 .r0 (if accept then 1 else 0), Asm.ret]

/-- The instructions of one rule, before its label is set: each test jumps to the next block when
it fails.  The access test uses `r2` as a temporary. -/
def blockInsts (ty : Option (BitVec 32)) (access : BitVec 32) (dev : DeviceRule)
    (nextBlockSym : String) : List Instruction :=
  let hasAccess := access ≠ accRead ||| accWrite ||| accMknod
  (match ty with
    | some t => [Asm.jumpImm .ne .r2 t nextBlockSym]
    | none => [])
  ++ (if hasAccess then
        [Asm.movReg32 .r2 .r3, Asm.andImm32 .r2 access, Asm.jumpImm .eq .r2 0 nextBlockSym]
      else [])
  ++ (if 0 ≤ dev.major then [Asm.jumpImm .ne .r4 (BitVec.ofInt 32 dev.major) nextBlockSym] else [])
  ++ (if 0 ≤ dev.minor then [Asm.jumpImm .ne .r5 (BitVec.ofInt 32 dev.minor) nextBlockSym] else [])
  ++ acceptBlock dev.allow

/-- Set the label of the instruction at an index. -/
def setSym (l : List Instruction) (n : ℕ) (name : String) : List Instruction :=
  l.modify n (·.sym name)

/-- `program.appendDevice`. -/
def Program.appendDevice (p : Program) (dev : DeviceRule) (labelPrefix : String) :
    Except String Program :=
  if p.blockID < 0 then .error "the program is finalized"
  else if p.hasWildCard then .ok p -- all entries after a wildcard entry are ignored
  else do
    let ty ← bpfType dev.type
    if dev.major > maxUint32 then .error ("invalid major " ++ toString dev.major)
    -- the source prints the major number here too
    else if dev.minor > maxUint32 then .error ("invalid minor " ++ toString dev.major)
    else do
      let access ← bpfAccess dev.access.toList 0
      let hasAccess := access ≠ accRead ||| accWrite ||| accMknod
      let wild := ty = none ∧ ¬ hasAccess ∧ dev.major < 0 ∧ dev.minor < 0
      let insts := p.insts ++ blockInsts ty access dev (blockSym labelPrefix (p.blockID + 1))
      return { insts := setSym insts p.insts.length (blockSym labelPrefix p.blockID)
               hasWildCard := p.hasWildCard || decide wild
               blockID := p.blockID + 1 }

/-- `program.finalize`.  With no original instruction there is none to label: an index panic. -/
def Program.finalize (p : Program) (origInsts : List Instruction) (labelPrefix : String) :
    Except String (List Instruction) :=
  if origInsts = [] then .error "runtime error: index out of range"
  else .ok (setSym (p.insts ++ origInsts) p.insts.length (blockSym labelPrefix p.blockID))

/-- The loop of `PrependDeviceFilter` from the last rule to the first: the rules come in that
order here. -/
def appendDevices (labelPrefix : String) : List DeviceRule → Program → Except String Program
  | [], p => .ok p
  | dev :: devs, p => do
      let p' ← p.appendDevice dev labelPrefix
      appendDevices labelPrefix devs p'

/-- `PrependDeviceFilter`; the label prefix is a fresh UUID in the source. -/
def prependDeviceFilter (labelPrefix : String) (devices : List DeviceRule)
    (origInsts : List Instruction) : Except String (List Instruction) := do
  let p ← appendDevices labelPrefix devices.reverse ({} : Program).init
  p.finalize origInsts labelPrefix

/-! ## Label resolution -/

/-- The offset of a jump; other instructions have none. -/
def jumpOff : Insn → Option (BitVec 16)
  | .ja off => some off
  | .jmp _ _ _ _ off => some off
  | _ => none

/-- The instruction with its jump resolved. -/
def setOff (i : Insn) (off : BitVec 16) : Insn :=
  match i with
  | .ja _ => .ja off
  | .jmp w c dst src _ => .jmp w c dst src off
  | i => i

/-- The first loop of `fixupJumpsAndCalls`: the slot of every label. -/
def symbolOffsets : List Instruction → ℕ → List (String × ℕ) → Except String (List (String × ℕ))
  | [], _, m => .ok m
  | i :: l, off, m =>
    if i.symbol = "" then symbolOffsets l (off + i.insn.slots) m
    else if (m.lookup i.symbol).isSome then .error ("duplicate symbol " ++ i.symbol)
    else symbolOffsets l (off + i.insn.slots) ((i.symbol, off) :: m)

/-- The second loop: a jump whose offset is the placeholder gets the distance to its label. -/
def fixupJumps (m : List (String × ℕ)) : List Instruction → ℕ → Except String (List Insn)
  | [], _ => .ok []
  | i :: l, off => do
      let insn ←
        if i.reference ≠ "" ∧ jumpOff i.insn = some (-1) then
          match m.lookup i.reference with
          | some symOff => .ok (setOff i.insn (BitVec.ofInt 16 ((symOff : ℤ) - off - 1)))
          | none => .error ("symbol " ++ i.reference.quote ++ ": unsatisfied program reference")
        else .ok i.insn
      let rest ← fixupJumps m l (off + i.insn.slots)
      return insn :: rest

/-- `fixupJumpsAndCalls`, on programs without calls between eBPF functions. -/
def fixupJumpsAndCalls (insts : List Instruction) : Except String (List Insn) := do
  let m ← symbolOffsets insts 0 []
  fixupJumps m insts 0

/-- `ProgramInfo.Instructions`: what the kernel hands back, the first instruction labelled with the
program's name. -/
def infoInstructions (name : String) (prog : List Insn) : List Instruction :=
  setSym (prog.map fun i => { insn := i }) 0 name

/-- The instructions `generateNewProgram` gives to the kernel: prepend, then resolve the labels. -/
def generate (labelPrefix : String) (rules : List DeviceRule) (origInsts : List Instruction) :
    Except String (List Insn) := do
  let newInsts ← prependDeviceFilter labelPrefix rules origInsts
  fixupJumpsAndCalls newInsts

end Cgroup
