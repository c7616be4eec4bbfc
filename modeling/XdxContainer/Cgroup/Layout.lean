import XdxContainer.Cgroup.DeviceFilter
import XdxContainer.Ebpf.Exec

/-!
# Cgroup/Layout — the labels of a generated filter resolve, each block to a self-contained piece

A rule becomes a list of tests, each of which leaves the block when it fails.  The generator names
the way out by the label of the next block; after label resolution it is the number of instructions
left in the block (`blockCode`), so a resolved block can be read on its own:

    generate lp rules orig = initCode ++ blockCode ++ … ++ blockCode ++ orig        (`generate_eq`)

The argument is one about labelled sections in general (`lookup_sections`): distinct labels, one at
the head of each section, resolve to the sections' starts.
-/

open Ebpf

namespace Cgroup

/-! ## The tests of a rule -/

/-- One test of a block. -/
inductive Test
  | type (t : BitVec 32)
  | access (m : BitVec 32)
  | major (v : BitVec 32)
  | minor (v : BitVec 32)

/-- The instructions of a test, with the label of the next block. -/
def Test.insts (next : String) : Test → List Instruction
  | type t => [Asm.jumpImm .ne .r2 t next]
  | access m => [Asm.movReg32 .r2 .r3, Asm.andImm32 .r2 m, Asm.jumpImm .eq .r2 0 next]
  | major v => [Asm.jumpImm .ne .r4 v next]
  | minor v => [Asm.jumpImm .ne .r5 v next]

/-- The instructions of a test that skips `rem` instructions when it fails. -/
def Test.code (rem : ℕ) : Test → List Insn
  | type t => [.jmp .w64 .ne .r2 (.imm t) (BitVec.ofNat 16 rem)]
  | access m => [.alu .w32 .mov .r2 (.reg .r3), .alu .w32 .and .r2 (.imm m),
      .jmp .w64 .eq .r2 (.imm 0) (BitVec.ofNat 16 rem)]
  | major v => [.jmp .w64 .ne .r4 (.imm v) (BitVec.ofNat 16 rem)]
  | minor v => [.jmp .w64 .ne .r5 (.imm v) (BitVec.ofNat 16 rem)]

/-- The instructions of a verdict. -/
def acceptCode (accept : Bool) : List Insn :=
  [.alu .w32 .mov .r0 (.imm (if accept then 1 else 0)), .exit]

/-- A resolved block: every test jumps to the end of the block. -/
def blockCode (accept : Bool) : List Test → List Insn
  | [] => acceptCode accept
  | t :: ts => t.code (slots (blockCode accept ts)) ++ blockCode accept ts

/-- The tests a rule turns into, once its type and access string are decoded. -/
def tests (ty : Option (BitVec 32)) (access : BitVec 32) (dev : DeviceRule) : List Test :=
  ty.toList.map .type
  ++ (if access ≠ accRead ||| accWrite ||| accMknod then [.access access] else [])
  ++ (if 0 ≤ dev.major then [.major (BitVec.ofInt 32 dev.major)] else [])
  ++ (if 0 ≤ dev.minor then [.minor (BitVec.ofInt 32 dev.minor)] else [])

/-- The instructions of a block are its tests and the way out. -/
theorem blockInsts_eq (ty : Option (BitVec 32)) (access : BitVec 32) (dev : DeviceRule)
    (next : String) :
    blockInsts ty access dev next
      = (tests ty access dev).flatMap (Test.insts next) ++ acceptBlock dev.allow := by
  simp only [blockInsts, tests, List.flatMap_append]
  congr 4
  · cases ty <;> rfl
  · split_ifs <;> rfl
  · split_ifs <;> rfl
  · split_ifs <;> rfl

/-! ## Labelled sections -/

/-- The slots of labelled instructions. -/
def instSlots (l : List Instruction) : ℕ := slots (l.map (·.insn))

@[simp] theorem instSlots_nil : instSlots [] = 0 := rfl

@[simp] theorem instSlots_cons (i : Instruction) (l : List Instruction) :
    instSlots (i :: l) = i.insn.slots + instSlots l := by
  simp [instSlots]

@[simp] theorem instSlots_append (l l' : List Instruction) :
    instSlots (l ++ l') = instSlots l + instSlots l' := by
  simp [instSlots]

/-- Sections one after another, each labelled at its first instruction. -/
def sections (ss : List (String × List Instruction)) : List Instruction :=
  ss.flatMap fun s => setSym s.2 0 s.1

/-- A section has instructions and no label of its own. -/
def IsSection (s : String × List Instruction) : Prop :=
  s.1 ≠ "" ∧ s.2 ≠ [] ∧ ∀ i ∈ s.2.tail, i.symbol = ""

/-- A name takes no room. -/
theorem instSlots_setSym (l : List Instruction) (n : ℕ) (name : String) :
    instSlots (setSym l n name) = instSlots l := by
  induction l generalizing n with
  | nil => simp [setSym]
  | cons i l ih =>
    cases n with
    | zero => simp [setSym, Instruction.sym]
    | succ n => simpa [setSym] using ih n

/-- Instructions without labels are passed over. -/
theorem symbolOffsets_append {l : List Instruction} (hl : ∀ i ∈ l, i.symbol = "")
    (l' : List Instruction) (off : ℕ) (m : List (String × ℕ)) :
    symbolOffsets (l ++ l') off m = symbolOffsets l' (off + instSlots l) m := by
  induction l generalizing off with
  | nil => simp
  | cons i l ih =>
    rw [List.cons_append, symbolOffsets, if_pos (hl i (by simp)),
      ih (fun j hj => hl j (by simp [hj])), instSlots_cons, Nat.add_assoc]

/-- A section records its label and its start. -/
theorem symbolOffsets_section {s : String × List Instruction} (hs : IsSection s)
    (l : List Instruction) (off : ℕ) {m : List (String × ℕ)} (hm : m.lookup s.1 = none) :
    symbolOffsets (setSym s.2 0 s.1 ++ l) off m
      = symbolOffsets l (off + instSlots s.2) ((s.1, off) :: m) := by
  obtain ⟨name, body⟩ := s
  obtain ⟨hname, hbody, htail⟩ := hs
  obtain ⟨i, b, rfl⟩ := List.exists_cons_of_ne_nil hbody
  have hset : setSym (i :: b) 0 name ++ l = i.sym name :: (b ++ l) := rfl
  simp only [List.tail_cons] at hname hm htail
  rw [hset, symbolOffsets, if_neg (by simpa [Instruction.sym] using hname),
    if_neg (by simp [Instruction.sym, hm]), symbolOffsets_append htail, instSlots_cons]
  simp only [Instruction.sym, Nat.add_assoc]

/-- **The labels of sections resolve to the sections' starts.** -/
theorem lookup_sections {ss : List (String × List Instruction)} (hss : ∀ s ∈ ss, IsSection s)
    (hnd : (ss.map Prod.fst).Nodup) (off : ℕ) {m : List (String × ℕ)}
    (hm : ∀ s ∈ ss, m.lookup s.1 = none) :
    ∃ m', symbolOffsets (sections ss) off m = .ok m'
      ∧ (∀ name, name ∉ ss.map Prod.fst → m'.lookup name = m.lookup name)
      ∧ ∀ pre s post, ss = pre ++ s :: post →
          m'.lookup s.1 = some (off + instSlots (sections pre)) := by
  induction ss generalizing off m with
  | nil => exact ⟨m, rfl, fun _ _ => rfl, fun pre s post h => by simp at h⟩
  | cons s ss ih =>
    obtain ⟨hs, hnd'⟩ := List.nodup_cons.mp hnd
    have hne : ∀ s' ∈ ss, s'.1 ≠ s.1 := fun s' hs' he =>
      hs (he ▸ List.mem_map_of_mem hs')
    obtain ⟨m', hok, hother, hstart⟩ := ih (fun s' hs' => hss s' (by simp [hs'])) hnd'
      (off + instSlots s.2) (m := (s.1, off) :: m) (by
        intro s' hs'
        rw [List.lookup_cons, beq_false_of_ne (hne s' hs')]
        exact hm s' (by simp [hs']))
    refine ⟨m', ?_, ?_, ?_⟩
    · rw [sections, List.flatMap_cons,
        symbolOffsets_section (hss s (by simp)) _ _ (hm s (by simp))]
      exact hok
    · intro name hname
      simp only [List.map_cons, List.mem_cons, not_or] at hname
      rw [hother name hname.2, List.lookup_cons, beq_false_of_ne hname.1]
    · intro pre s' post he
      cases pre with
      | nil =>
        obtain ⟨rfl, -⟩ := List.cons.inj he
        rw [hother s.1 hs, List.lookup_cons, beq_self_eq_true]
        rfl
      | cons s₀ pre =>
        obtain ⟨rfl, he'⟩ := List.cons.inj he
        rw [hstart pre s' post he']
        simp only [sections, List.flatMap_cons, instSlots_append, instSlots_setSym, Nat.add_assoc]

/-! ## Resolving the jumps of a block -/

/-- A name changes no jump. -/
theorem fixupJumps_setSym (m : List (String × ℕ)) (l : List Instruction) (n : ℕ) (name : String)
    (off : ℕ) : fixupJumps m (setSym l n name) off = fixupJumps m l off := by
  induction l generalizing n off with
  | nil => simp [setSym]
  | cons i l ih =>
    cases n with
    | zero => rfl
    | succ n =>
      have hset : setSym (i :: l) (n + 1) name = i :: setSym l n name := rfl
      rw [hset, fixupJumps, fixupJumps, ih]

/-- Instructions without a reference are kept. -/
theorem fixupJumps_cons_of_reference_eq {i : Instruction} (hi : i.reference = "")
    {m : List (String × ℕ)} {l : List Instruction} {off : ℕ} {code : List Insn}
    (hl : fixupJumps m l (off + i.insn.slots) = .ok code) :
    fixupJumps m (i :: l) off = .ok (i.insn :: code) := by
  rw [fixupJumps, hl]
  simp [hi, bind, Except.bind, pure, Except.pure]

/-- A jump to a label `rem` instructions behind it is resolved to that distance. -/
theorem fixupJumps_jumpImm {c : Cond} {dst : Reg} {v : BitVec 32} {next : String}
    (hnext : next ≠ "") {m : List (String × ℕ)} {l : List Instruction} {off rem : ℕ}
    (hm : m.lookup next = some (off + 1 + rem)) {code : List Insn}
    (hl : fixupJumps m l (off + 1) = .ok code) :
    fixupJumps m (Asm.jumpImm c dst v next :: l) off
      = .ok (.jmp .w64 c dst (.imm v) (BitVec.ofNat 16 rem) :: code) := by
  have hdist : BitVec.ofInt 16 (((off + 1 + rem : ℕ) : ℤ) - off - 1) = BitVec.ofNat 16 rem := by
    rw [show ((off + 1 + rem : ℕ) : ℤ) - off - 1 = (rem : ℤ) by push_cast; omega,
      BitVec.ofInt_natCast]
  have hl' : fixupJumps m l (off + (Asm.jumpImm c dst v next).insn.slots) = .ok code := hl
  rw [fixupJumps, hl']
  simp [Asm.jumpImm, hnext, jumpOff, setOff, hm, bind, Except.bind, pure, Except.pure, ← hdist]

/-- A test takes the same room whichever way its jump is written. -/
theorem slots_code (t : Test) (rem : ℕ) (next : String) :
    slots (t.code rem) = instSlots (t.insts next) := by
  cases t <;> rfl

theorem slots_blockCode (a : Bool) (ts : List Test) (next : String) :
    slots (blockCode a ts) = instSlots (ts.flatMap (Test.insts next) ++ acceptBlock a) := by
  induction ts with
  | nil => rfl
  | cons t ts ih =>
    rw [blockCode, slots_append, ih, slots_code t _ next, List.flatMap_cons, List.append_assoc,
      ← instSlots_append]

/-- **A block whose successor starts right behind it resolves to its code.** -/
theorem fixupJumps_block {next : String} (hnext : next ≠ "") {m : List (String × ℕ)} (a : Bool)
    {l : List Instruction} {code : List Insn} (ts : List Test) {off : ℕ}
    (hm : m.lookup next = some (off + slots (blockCode a ts)))
    (hl : fixupJumps m l (off + slots (blockCode a ts)) = .ok code) :
    fixupJumps m (ts.flatMap (Test.insts next) ++ acceptBlock a ++ l) off
      = .ok (blockCode a ts ++ code) := by
  induction ts generalizing off with
  | nil =>
    refine fixupJumps_cons_of_reference_eq rfl (fixupJumps_cons_of_reference_eq rfl ?_)
    exact hl
  | cons t ts ih =>
    set rem := slots (blockCode a ts) with hrem
    have hslots : off + slots (blockCode a (t :: ts)) = off + slots (t.code rem) + rem := by
      rw [blockCode, slots_append, ← hrem, Nat.add_assoc]
    rw [hslots] at hm hl
    have hrest := ih hm hl
    rw [List.flatMap_cons, blockCode, ← hrem]
    simp only [List.append_assoc] at hrest ⊢
    -- the jump is the last instruction of every test, `rem` instructions before the end
    cases t with
    | type v => exact fixupJumps_jumpImm hnext hm hrest
    | access v =>
      exact fixupJumps_cons_of_reference_eq rfl (fixupJumps_cons_of_reference_eq rfl
        (fixupJumps_jumpImm hnext hm hrest))
    | major v => exact fixupJumps_jumpImm hnext hm hrest
    | minor v => exact fixupJumps_jumpImm hnext hm hrest

/-! ## The blocks of a rule list -/

/-- The tests of a block and its verdict. -/
structure Block where
  tests : List Test
  accept : Bool

/-- The instructions of a block, its jumps by name. -/
def Block.insts (b : Block) (next : String) : List Instruction :=
  b.tests.flatMap (Test.insts next) ++ acceptBlock b.accept

/-- The instructions of a block, its jumps resolved. -/
def Block.code (b : Block) : List Insn := blockCode b.accept b.tests

/-- `appendDevice` accepts the rule. -/
def DeviceRule.Accepted (r : DeviceRule) : Prop :=
  (bpfType r.type).isOk ∧ (bpfAccess r.access.toList 0).isOk
    ∧ r.major ≤ maxUint32 ∧ r.minor ≤ maxUint32

/-- The device type an accepted rule tests for. -/
def DeviceRule.ty (r : DeviceRule) : Option (BitVec 32) := (bpfType r.type).toOption.getD none

/-- The access bits of an accepted rule. -/
def DeviceRule.accessBits (r : DeviceRule) : BitVec 32 :=
  (bpfAccess r.access.toList 0).toOption.getD 0

/-- The block an accepted rule turns into. -/
def DeviceRule.block (r : DeviceRule) : Block := ⟨tests r.ty r.accessBits r, r.allow⟩

/-- The blocks of a rule list in the order they are tested; nothing follows a wildcard. -/
def blocks : List DeviceRule → List Block
  | [] => []
  | r :: rs => r.block :: if r.block.tests.isEmpty then [] else blocks rs

/-- The blocks as labelled sections, numbered from `k`. -/
def blockSections (labelPrefix : String) : ℕ → List Block → List (String × List Instruction)
  | _, [] => []
  | k, b :: bs => (blockSym labelPrefix k, b.insts (blockSym labelPrefix (k + 1 : ℕ)))
      :: blockSections labelPrefix (k + 1) bs

theorem isEmpty_tests (ty : Option (BitVec 32)) (access : BitVec 32) (r : DeviceRule) :
    (tests ty access r).isEmpty = decide (ty = none
      ∧ ¬ access ≠ accRead ||| accWrite ||| accMknod ∧ r.major < 0 ∧ r.minor < 0) := by
  rw [Bool.eq_iff_iff, decide_eq_true_iff, List.isEmpty_iff]
  simp only [tests, List.append_eq_nil_iff, ite_eq_right_iff, List.cons_ne_nil, imp_false,
    Int.not_le, and_assoc]
  cases ty <;> simp

theorem setSym_append (l l' : List Instruction) (name : String) :
    setSym (l ++ l') l.length name = l ++ setSym l' 0 name := by
  induction l with
  | nil => rfl
  | cons i l ih => exact congrArg (i :: ·) ih

/-- **An accepted rule becomes one labelled block.** -/
theorem appendDevice_eq {r : DeviceRule} (hr : r.Accepted) (labelPrefix : String)
    (insts : List Instruction) (k : ℕ) :
    Program.appendDevice ⟨insts, false, k⟩ r labelPrefix
      = .ok ⟨insts ++ setSym (r.block.insts (blockSym labelPrefix (k + 1 : ℕ))) 0
            (blockSym labelPrefix k), r.block.tests.isEmpty, (k + 1 : ℕ)⟩ := by
  obtain ⟨hty, hacc, hmaj, hmin⟩ := hr
  have hty' : bpfType r.type = .ok r.ty := Except.eq_ok_of_isOk hty none
  have hacc' : bpfAccess r.access.toList 0 = .ok r.accessBits := Except.eq_ok_of_isOk hacc 0
  simp only [Program.appendDevice, hty', hacc', if_neg (Int.not_lt.mpr (Int.natCast_nonneg k)),
    if_neg (Int.not_lt.mpr hmaj), if_neg (Int.not_lt.mpr hmin), Bool.false_eq_true, if_false,
    bind, Except.bind, pure, Except.pure, Bool.false_or, blockInsts_eq, setSym_append,
    DeviceRule.block, Block.insts, isEmpty_tests, gt_iff_lt, Int.natCast_add_one]

/-- Behind a wildcard no rule is compiled. -/
theorem appendDevices_of_wildCard (labelPrefix : String) (insts : List Instruction) (k : ℕ) :
    ∀ rs : List DeviceRule,
      appendDevices labelPrefix rs ⟨insts, true, k⟩ = .ok ⟨insts, true, k⟩
  | [] => rfl
  | r :: rs => by
      have hskip : Program.appendDevice ⟨insts, true, k⟩ r labelPrefix = .ok ⟨insts, true, k⟩ := by
        simp [Program.appendDevice, Int.not_lt.mpr (Int.natCast_nonneg k)]
      rw [appendDevices, hskip]
      exact appendDevices_of_wildCard labelPrefix insts k rs

/-- **A list of accepted rules becomes its blocks, numbered in the order they are tested.** -/
theorem appendDevices_eq (labelPrefix : String) {rs : List DeviceRule} (hrs : ∀ r ∈ rs, r.Accepted)
    (insts : List Instruction) (k : ℕ) :
    ∃ w, appendDevices labelPrefix rs ⟨insts, false, k⟩
      = .ok ⟨insts ++ sections (blockSections labelPrefix k (blocks rs)), w,
          (k + (blocks rs).length : ℕ)⟩ := by
  induction rs generalizing insts k with
  | nil => exact ⟨false, by simp [appendDevices, blocks, blockSections, sections]⟩
  | cons r rs ih =>
    simp only [appendDevices, appendDevice_eq (hrs r (by simp)), bind, Except.bind]
    by_cases hw : r.block.tests.isEmpty = true
    · refine ⟨true, ?_⟩
      rw [hw, appendDevices_of_wildCard, blocks, if_pos hw]
      simp [blockSections, sections]
    · obtain ⟨w, hok⟩ := ih (fun r' hr' => hrs r' (by simp [hr'])) (insts
        ++ setSym (r.block.insts (blockSym labelPrefix (k + 1 : ℕ))) 0 (blockSym labelPrefix k))
        (k + 1)
      refine ⟨w, ?_⟩
      rw [Bool.eq_false_iff.mpr hw, hok, blocks, if_neg hw]
      simp [blockSections, sections, Nat.add_assoc, Nat.add_comm 1]

/-! ## The generated program -/

theorem blockSym_ne_empty (labelPrefix : String) (k : ℤ) : blockSym labelPrefix k ≠ "" := by
  intro h
  have := congrArg String.length h
  simp [blockSym] at this

/-- Blocks have different names. -/
theorem blockSym_inj {labelPrefix : String} {j k : ℕ}
    (h : blockSym labelPrefix j = blockSym labelPrefix k) : j = k := by
  have h' : toString (j : ℤ) = toString (k : ℤ) := by
    simpa [blockSym, String.append_assoc] using h
  have hdigits : Nat.toDigits 10 j = Nat.toDigits 10 k := by
    rw [← Nat.toList_repr, ← Nat.toList_repr]
    exact congrArg String.toList h'
  rw [← Nat.ofDigitChars_ten_toDigits (n := j), hdigits, Nat.ofDigitChars_ten_toDigits]

/-- The sections of a whole program: the blocks numbered from `k`, the original program last. -/
def chain (labelPrefix : String) (orig : List Instruction) :
    ℕ → List Block → List (String × List Instruction)
  | k, [] => [(blockSym labelPrefix k, orig)]
  | k, b :: bs => (blockSym labelPrefix k, b.insts (blockSym labelPrefix (k + 1 : ℕ)))
      :: chain labelPrefix orig (k + 1) bs

section Chain

variable {labelPrefix : String} {orig : List Instruction}

theorem sections_chain (bs : List Block) (k : ℕ) :
    sections (chain labelPrefix orig k bs) = sections (blockSections labelPrefix k bs)
      ++ setSym orig 0 (blockSym labelPrefix (k + bs.length : ℕ)) := by
  induction bs generalizing k with
  | nil => simp [chain, blockSections, sections]
  | cons b bs ih =>
    have hk : k + (b :: bs).length = k + 1 + bs.length := by rw [List.length_cons]; omega
    rw [hk]
    simpa only [chain, blockSections, sections, List.flatMap_cons, List.append_assoc,
      List.append_cancel_left_eq] using ih (k + 1)

/-- The first section of a chain is the one its number names. -/
theorem chain_eq_cons (labelPrefix : String) (orig : List Instruction) (k : ℕ) (bs : List Block) :
    ∃ body post, chain labelPrefix orig k bs = (blockSym labelPrefix k, body) :: post := by
  rcases bs with _ | ⟨b, bs⟩
  · exact ⟨_, _, rfl⟩
  · exact ⟨_, _, rfl⟩

theorem mem_chain {s : String × List Instruction} {bs : List Block} {k : ℕ}
    (h : s ∈ chain labelPrefix orig k bs) :
    (∃ j, k ≤ j ∧ s.1 = blockSym labelPrefix j)
      ∧ (s.2 = orig ∨ ∃ b next, s.2 = Block.insts b next) := by
  induction bs generalizing k with
  | nil =>
    obtain rfl := List.mem_singleton.mp h
    exact ⟨⟨k, Nat.le_refl k, rfl⟩, .inl rfl⟩
  | cons b bs ih =>
    rcases List.mem_cons.mp h with rfl | h
    · exact ⟨⟨k, Nat.le_refl k, rfl⟩, .inr ⟨b, _, rfl⟩⟩
    · obtain ⟨⟨j, hj, he⟩, hbody⟩ := ih h
      exact ⟨⟨j, by omega, he⟩, hbody⟩

/-- The sections have different names. -/
theorem nodup_chain (labelPrefix : String) (orig : List Instruction) (bs : List Block) (k : ℕ) :
    ((chain labelPrefix orig k bs).map Prod.fst).Nodup := by
  induction bs generalizing k with
  | nil => simp [chain]
  | cons b bs ih =>
    rw [chain, List.map_cons, List.nodup_cons]
    refine ⟨?_, ih (k + 1)⟩
    intro hmem
    obtain ⟨s, hs, he⟩ := List.mem_map.mp hmem
    obtain ⟨⟨j, hj, hj'⟩, -⟩ := mem_chain hs
    have hkj : k = j := blockSym_inj (he.symm.trans hj')
    omega

/-- Every instruction of a block is without a label before the block's own is set. -/
theorem symbol_eq_of_mem_insts {b : Block} {next : String} {i : Instruction}
    (hi : i ∈ b.insts next) : i.symbol = "" := by
  rw [Block.insts, List.mem_append, List.mem_flatMap] at hi
  rcases hi with ⟨t, -, ht⟩ | hi
  · rcases t with v | v | v | v <;>
      simp only [Test.insts, List.mem_cons, List.not_mem_nil, or_false] at ht
    · rw [ht]; rfl
    · rcases ht with rfl | rfl | rfl <;> rfl
    · rw [ht]; rfl
    · rw [ht]; rfl
  · simp only [acceptBlock, List.mem_cons, List.not_mem_nil, or_false] at hi
    rcases hi with rfl | rfl <;> rfl

/-- Every part of the program is a section. -/
theorem isSection_of_mem_chain (ho : orig ≠ []) (hsym : ∀ i ∈ orig.tail, i.symbol = "")
    {s : String × List Instruction} {bs : List Block} {k : ℕ}
    (h : s ∈ chain labelPrefix orig k bs) : IsSection s := by
  obtain ⟨⟨j, -, hj⟩, hbody⟩ := mem_chain h
  refine ⟨hj ▸ blockSym_ne_empty labelPrefix j, ?_, ?_⟩
  · rcases hbody with hb | ⟨b, next, hb⟩
    · rw [hb]; exact ho
    · rw [hb]; simp [Block.insts, acceptBlock]
  · intro i hi
    rcases hbody with hb | ⟨b, next, hb⟩
    · exact hsym i (hb ▸ hi)
    · exact symbol_eq_of_mem_insts (List.mem_of_mem_tail (hb ▸ hi))

/-- Instructions without references are kept. -/
theorem fixupJumps_append_of_reference_eq {m : List (String × ℕ)} {l l' : List Instruction}
    (hl : ∀ i ∈ l, i.reference = "") {off : ℕ} {code : List Insn}
    (hl' : fixupJumps m l' (off + instSlots l) = .ok code) :
    fixupJumps m (l ++ l') off = .ok (l.map (·.insn) ++ code) := by
  induction l generalizing off with
  | nil => simpa using hl'
  | cons i l ih =>
    refine fixupJumps_cons_of_reference_eq (hl i (by simp)) ?_
    refine ih (fun j hj => hl j (by simp [hj])) ?_
    rwa [instSlots_cons, ← Nat.add_assoc] at hl'

/-- **Sections whose labels are known at their starts resolve, block by block.** -/
theorem fixupJumps_chain (href : ∀ i ∈ orig, i.reference = "") {m : List (String × ℕ)}
    (bs : List Block) (k off : ℕ)
    (hm : ∀ pre s post, chain labelPrefix orig k bs = pre ++ s :: post →
      m.lookup s.1 = some (off + instSlots (sections pre))) :
    fixupJumps m (sections (chain labelPrefix orig k bs)) off
      = .ok (bs.flatMap Block.code ++ orig.map (·.insn)) := by
  induction bs generalizing k off with
  | nil =>
    have hlast :
        sections (chain labelPrefix orig k []) = setSym orig 0 (blockSym labelPrefix k) := by
      simp [chain, sections]
    rw [hlast, fixupJumps_setSym]
    have hkeep : fixupJumps m (orig ++ []) off = .ok (orig.map (·.insn) ++ []) :=
      fixupJumps_append_of_reference_eq href rfl
    simpa using hkeep
  | cons b bs ih =>
    set next := blockSym labelPrefix (k + 1 : ℕ) with hnext
    have hslots : instSlots (b.insts next) = slots b.code := (slots_blockCode _ _ _).symm
    have hsec : ∀ pre, instSlots (sections ((blockSym labelPrefix k, b.insts next) :: pre))
        = slots b.code + instSlots (sections pre) := by
      intro pre
      rw [sections, List.flatMap_cons, instSlots_append, instSlots_setSym, hslots]
      rfl
    have hrest := ih (k + 1) (off + slots b.code) (by
      intro pre s post he
      rw [hm (_ :: pre) s post (congrArg (_ :: ·) he), hsec, Nat.add_assoc])
    obtain ⟨body, post, hhead⟩ := chain_eq_cons labelPrefix orig (k + 1) bs
    have hlook : m.lookup next = some (off + slots b.code) := by
      have := hm [_] _ post (congrArg (_ :: ·) hhead)
      rwa [hsec] at this
    have hsplit : sections (chain labelPrefix orig k (b :: bs))
        = setSym (b.insts next ++ sections (chain labelPrefix orig (k + 1) bs)) 0
            (blockSym labelPrefix k) := by
      obtain ⟨i, l, hi⟩ := List.exists_cons_of_ne_nil
        (show b.insts next ≠ [] by simp [Block.insts, acceptBlock])
      rw [sections, chain, List.flatMap_cons, ← hnext]
      simp only [hi]
      rfl
    rw [hsplit, fixupJumps_setSym, List.flatMap_cons, List.append_assoc]
    exact fixupJumps_block (blockSym_ne_empty _ _) b.accept b.tests hlook hrest

end Chain

/-- The resolved code of `init`. -/
def initCode : List Insn :=
  [.ldx .half .r2 .r1 0, .ldx .word .r3 .r1 0, .alu .w32 .rsh .r3 (.imm 16), .ldx .word .r4 .r1 4,
    .ldx .word .r5 .r1 8]

/-- The code a rule list is turned into: its blocks behind the loads, the last rule first. -/
def filterCode (rules : List DeviceRule) : List Insn :=
  initCode ++ (blocks rules.reverse).flatMap Block.code

/-- **The generated program is the filter followed by the original program.** -/
theorem generate_eq (labelPrefix : String) {rules : List DeviceRule}
    (hrules : ∀ r ∈ rules, r.Accepted) {orig : List Instruction} (ho : orig ≠ [])
    (href : ∀ i ∈ orig, i.reference = "") (hsym : ∀ i ∈ orig.tail, i.symbol = "") :
    generate labelPrefix rules orig = .ok (filterCode rules ++ orig.map (·.insn)) := by
  set bs := blocks rules.reverse with hbs
  set ini := (({} : Program).init).insts with hini
  have hinit : ({} : Program).init = ⟨ini, false, (0 : ℕ)⟩ := rfl
  obtain ⟨w, happ⟩ := appendDevices_eq labelPrefix
    (fun r hr => hrules r (List.mem_reverse.mp hr)) ini 0
  have hfin : prependDeviceFilter labelPrefix rules orig
      = .ok (ini ++ sections (chain labelPrefix orig 0 bs)) := by
    rw [prependDeviceFilter, hinit, happ]
    simp only [bind, Except.bind, Program.finalize, if_neg ho]
    rw [setSym_append, sections_chain, ← List.append_assoc, hbs]
  obtain ⟨m, hoff, -, hstart⟩ := lookup_sections
    (fun s hs => isSection_of_mem_chain ho hsym hs) (nodup_chain labelPrefix orig bs 0) 5 (m := [])
    (fun _ _ => rfl)
  have hoff' : symbolOffsets (ini ++ sections (chain labelPrefix orig 0 bs)) 0 [] = .ok m := by
    rw [symbolOffsets_append (by decide)]
    exact hoff
  have hfix : fixupJumps m (ini ++ sections (chain labelPrefix orig 0 bs)) 0
      = .ok (ini.map (·.insn) ++ (bs.flatMap Block.code ++ orig.map (·.insn))) :=
    fixupJumps_append_of_reference_eq (by decide) (fixupJumps_chain href bs 0 5 hstart)
  rw [generate, hfin]
  simp only [bind, Except.bind, fixupJumpsAndCalls, hoff']
  rw [hfix, filterCode, List.append_assoc]
  rfl

/-! ## Rules that are rejected, and rules that are not looked at -/

/-- A rule without tests: nothing after it is looked at. -/
def DeviceRule.IsWildCard (r : DeviceRule) : Prop :=
  r.type = "a" ∧ bpfAccess r.access.toList 0 = .ok (accRead ||| accWrite ||| accMknod)
    ∧ r.major < 0 ∧ r.minor < 0

instance (r : DeviceRule) : Decidable r.Accepted := inferInstanceAs (Decidable (_ ∧ _))

/-- The rules that are looked at, in test order: up to the first wildcard. -/
def tested : List DeviceRule → List DeviceRule
  | [] => []
  | r :: rs => r :: if r.block.tests.isEmpty then [] else tested rs

theorem isWildCard_iff {r : DeviceRule} (hr : r.Accepted) :
    r.IsWildCard ↔ r.block.tests.isEmpty = true := by
  have hacc : bpfAccess r.access.toList 0 = .ok r.accessBits := Except.eq_ok_of_isOk hr.2.1 0
  have hty : bpfType r.type = .ok r.ty := Except.eq_ok_of_isOk hr.1 none
  have hnone : r.type = "a" ↔ r.ty = none := by
    rw [bpfType] at hty
    split_ifs at hty with hc hb ha
    · simp [hc, ← Except.ok.inj hty]
    · simp [hb, ← Except.ok.inj hty]
    · simp [ha, ← Except.ok.inj hty]
  rw [DeviceRule.block, isEmpty_tests, decide_eq_true_iff, DeviceRule.IsWildCard, hacc, hnone]
  simp

theorem blocks_tested (rs : List DeviceRule) : blocks (tested rs) = blocks rs := by
  induction rs with
  | nil => rfl
  | cons r rs ih =>
    rw [tested, blocks, blocks]
    split_ifs with hw
    · rfl
    · rw [ih]

/-- A rule that is not accepted ends the generation with an error. -/
theorem appendDevice_error {r : DeviceRule} (hr : ¬ r.Accepted) (labelPrefix : String)
    (insts : List Instruction) (k : ℕ) :
    ∃ e, Program.appendDevice ⟨insts, false, k⟩ r labelPrefix = .error e := by
  rw [Program.appendDevice, if_neg (Int.not_lt.mpr (Int.natCast_nonneg k))]
  simp only [Bool.false_eq_true, if_false]
  rcases hty : bpfType r.type with e | ty
  · exact ⟨e, rfl⟩
  · simp only [bind, Except.bind]
    by_cases hmaj : r.major > maxUint32
    · exact ⟨_, if_pos hmaj⟩
    · by_cases hmin : r.minor > maxUint32
      · exact ⟨_, (if_neg hmaj).trans (if_pos hmin)⟩
      · rcases hacc : bpfAccess r.access.toList 0 with e | access
        · exact ⟨e, by rw [if_neg hmaj, if_neg hmin]⟩
        · refine absurd ⟨?_, ?_, by omega, by omega⟩ hr
          · rw [hty]; rfl
          · rw [hacc]; rfl

/-- **Only the rules up to the first wildcard are looked at, and they are accepted when the
generation succeeds.** -/
theorem accepted_of_appendDevices_eq_ok {labelPrefix : String} {rs : List DeviceRule}
    {insts : List Instruction} {k : ℕ} {p : Program}
    (hok : appendDevices labelPrefix rs ⟨insts, false, k⟩ = .ok p) :
    (∀ r ∈ tested rs, r.Accepted)
      ∧ appendDevices labelPrefix (tested rs) ⟨insts, false, k⟩ = .ok p := by
  induction rs generalizing insts k with
  | nil => exact ⟨by simp [tested], hok⟩
  | cons r rs ih =>
    by_cases hr : r.Accepted
    · rw [appendDevices, appendDevice_eq hr] at hok
      rw [tested]
      by_cases hw : r.block.tests.isEmpty = true
      · rw [if_pos hw]
        refine ⟨by simpa using hr, ?_⟩
        simp only [bind, Except.bind, hw, appendDevices_of_wildCard] at hok
        simp only [appendDevices, appendDevice_eq hr, hw, bind, Except.bind]
        exact hok
      · simp only [bind, Except.bind, Bool.eq_false_iff.mpr hw] at hok
        obtain ⟨hacc, hok'⟩ := ih hok
        rw [if_neg hw]
        refine ⟨fun r' hr' => ?_, ?_⟩
        · rcases List.mem_cons.mp hr' with rfl | hr'
          · exact hr
          · exact hacc r' hr'
        · simp only [appendDevices, appendDevice_eq hr, Bool.eq_false_iff.mpr hw, bind, Except.bind]
          exact hok'
    · obtain ⟨e, he⟩ := appendDevice_error hr labelPrefix insts k
      rw [appendDevices, he] at hok
      cases hok

/-- **What is generated, if anything, is the filter followed by the original program.** -/
theorem generate_eq_ok {labelPrefix : String} {rules : List DeviceRule} {orig : List Instruction}
    (ho : orig ≠ []) (href : ∀ i ∈ orig, i.reference = "")
    (hsym : ∀ i ∈ orig.tail, i.symbol = "") {prog : List Insn}
    (hok : generate labelPrefix rules orig = .ok prog) :
    (∀ r ∈ tested rules.reverse, r.Accepted) ∧ prog = filterCode rules ++ orig.map (·.insn) := by
  obtain ⟨insts, hpre, hfix⟩ := Except.bind_eq_ok hok
  obtain ⟨p, happ, hfin⟩ := Except.bind_eq_ok hpre
  obtain ⟨hacc, happ'⟩ := accepted_of_appendDevices_eq_ok (k := 0) happ
  refine ⟨hacc, ?_⟩
  have hgen : generate labelPrefix (tested rules.reverse).reverse orig = .ok prog := by
    have happ₀ : appendDevices labelPrefix (tested rules.reverse) ({} : Program).init = .ok p :=
      happ'
    rw [generate, prependDeviceFilter, List.reverse_reverse, happ₀]
    simp only [bind, Except.bind, hfin]
    exact hfix
  rw [generate_eq labelPrefix (fun r hr => hacc r (List.mem_reverse.mp hr)) ho href hsym] at hgen
  rw [← Except.ok.inj hgen, filterCode, filterCode, List.reverse_reverse, blocks_tested]

end Cgroup
