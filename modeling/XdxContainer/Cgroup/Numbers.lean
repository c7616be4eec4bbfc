import XdxContainer.Cgroup.FilterMeaning

/-!
# Cgroup/Numbers — the device numbers a generated filter can match

    rule    0 ≤ n ≤ 2³² − 1 ──int32──▸ imm ──sign-extended──▸ 64 bits ─┐
    request      32-bit number ──────────────zero-extended──▸ 64 bits ─┴─ JNE

The last tests of a block compare the numbers of the request with those of the rule.  From `2³¹` on
the immediate is negative, and no request has a register that equals it.

* `numberTests_in_filter` — the tests of the numbers are in the generated filter.
* `straight_numberTests_iff` — in a generated program they let a request through exactly when its
  numbers are the rule's, exactly when the rule's are below `2³¹` or not the request's.
-/

open Ebpf

namespace Cgroup

/-! ## The tests of the numbers -/

/-- The tests of the numbers of a rule, the last ones of its block. -/
def numberTests (dev : DeviceRule) : List Test :=
  (if 0 ≤ dev.major then [.major (BitVec.ofInt 32 dev.major)] else [])
  ++ (if 0 ≤ dev.minor then [.minor (BitVec.ofInt 32 dev.minor)] else [])

theorem tests_eq_append_numberTests (ty : Option (BitVec 32)) (access : BitVec 32)
    (dev : DeviceRule) : ∃ ts, tests ty access dev = ts ++ numberTests dev := by
  refine ⟨ty.toList.map .type
    ++ (if access ≠ accRead ||| accWrite ||| accMknod then [.access access] else []), ?_⟩
  rw [tests, numberTests, List.append_assoc]

/-- The code of the last tests is the last code of a block. -/
theorem blockCode_append (a : Bool) (ts ts' : List Test) :
    ∃ l, blockCode a (ts ++ ts') = l ++ blockCode a ts' := by
  induction ts with
  | nil => exact ⟨[], rfl⟩
  | cons t ts ih =>
    obtain ⟨l, hl⟩ := ih
    refine ⟨t.code (slots (blockCode a (ts ++ ts'))) ++ l, ?_⟩
    rw [List.cons_append, blockCode, hl, List.append_assoc]

theorem block_mem_blocks {rs : List DeviceRule} {r : DeviceRule} (h : r ∈ tested rs) :
    r.block ∈ blocks rs := by
  induction rs with
  | nil => exact absurd h List.not_mem_nil
  | cons r₀ rs ih =>
    rw [tested] at h
    rw [blocks]
    rcases List.mem_cons.mp h with rfl | hrest
    · exact List.mem_cons_self
    · refine List.mem_cons_of_mem _ ?_
      split_ifs at hrest ⊢ with hwild
      · exact absurd hrest List.not_mem_nil
      · exact ih hrest

/-- **The tests of the numbers are in the filter** of every rule list that gets to the rule. -/
theorem numberTests_in_filter {rules : List DeviceRule} {r : DeviceRule}
    (h : r ∈ tested rules.reverse) :
    ∃ pre post, filterCode rules = pre ++ (blockCode r.allow (numberTests r) ++ post) := by
  obtain ⟨before, behind, hsplit⟩ := List.append_of_mem (block_mem_blocks h)
  obtain ⟨ts, hts⟩ := tests_eq_append_numberTests r.ty r.accessBits r
  obtain ⟨l, hl⟩ := blockCode_append r.allow ts (numberTests r)
  have hcode : r.block.code = l ++ blockCode r.allow (numberTests r) := by
    rw [← hl, ← hts]
    rfl
  refine ⟨initCode ++ (before.flatMap Block.code ++ l), behind.flatMap Block.code, ?_⟩
  rw [filterCode, hsplit, List.flatMap_append, List.flatMap_cons, hcode]
  simp only [List.append_assoc]

/-! ## Going straight on -/

/-- The next `n` instructions lead to the slot behind them. -/
def Straight (rt : Runtime) (p : List Insn) : ℕ → State → Prop
  | 0, _ => True
  | n + 1, s => ∃ s', step rt p s = .ok s' ∧ s'.pc = s.pc + 1 ∧ Straight rt p n s'

section Straight

variable {h : Host} {q : Request} {x : BitVec 64} {s : State}

/-- A test for a number leads on exactly when the register is the immediate, sign-extended. -/
theorem straight_jump_iff {r : Reg} {v : BitVec 32} {rem n : ℕ} (hpos : 0 < rem)
    (hrem : rem < 2 ^ 15) (pre post : List Insn) {a : BitVec 64} (ha : s.regs r = some a)
    (hpc : s.pc = slots pre) :
    Straight h.rt (pre ++ (.jmp .w64 .ne r (.imm v) (BitVec.ofNat 16 rem) :: post)) (n + 1) s
      ↔ a = v.signExtend 64
        ∧ Straight h.rt (pre ++ (.jmp .w64 .ne r (.imm v) (BitVec.ofNat 16 rem) :: post)) n
          (s.goto (s.pc + 1)) := by
  have hstep : step h.rt (pre ++ (.jmp .w64 .ne r (.imm v) (BitVec.ofNat 16 rem) :: post)) s
      = .ok (s.goto (s.pc + 1 + if Cond.ne.holds a (v.signExtend 64) then rem else 0)) :=
    (step_behind 0 hpc rfl).trans (exec_jump hrem ha)
  constructor
  · rintro ⟨s', hs', hnext, hrest⟩
    obtain rfl := Except.ok.inj (hstep.symm.trans hs')
    rw [State.goto_pc] at hnext
    by_cases heq : a = v.signExtend 64
    · have hne : Cond.ne.holds a (v.signExtend 64) = false := by simp [Cond.holds, heq]
      rw [hne] at hrest
      exact ⟨heq, hrest⟩
    · have hne : Cond.ne.holds a (v.signExtend 64) = true := by simp [Cond.holds, heq]
      rw [hne, if_pos rfl] at hnext
      omega
  · rintro ⟨heq, hrest⟩
    have hne : Cond.ne.holds a (v.signExtend 64) = false := by simp [Cond.holds, heq]
    rw [hne] at hstep
    exact ⟨_, hstep, rfl, hrest⟩

/-- **A request is let through by the tests of the numbers** when both pass. -/
theorem straight_iff_numberPasses {r : DeviceRule} (hmaj : 0 ≤ r.major) (hmin : 0 ≤ r.minor)
    (pre post : List Insn) (hl : Loaded h q x s) (hpc : s.pc = slots pre) :
    Straight h.rt (pre ++ (blockCode r.allow (numberTests r) ++ post)) (numberTests r).length s
      ↔ numberPasses r.major q.major = true ∧ numberPasses r.minor q.minor = true := by
  set a := BitVec.ofInt 32 r.major with ha
  set b := BitVec.ofInt 32 r.minor with hb
  have htests : numberTests r = [.major a, .minor b] := by
    rw [numberTests, if_pos hmaj, if_pos hmin]
    rfl
  have hcode : pre ++ (blockCode r.allow [.major a, .minor b] ++ post)
      = pre ++ (.jmp .w64 .ne .r4 (.imm a) (BitVec.ofNat 16 3)
        :: .jmp .w64 .ne .r5 (.imm b) (BitVec.ofNat 16 2) :: (acceptCode r.allow ++ post)) := rfl
  have hpasses : ∀ {n : ℤ} (v : BitVec 32), 0 ≤ n →
      (numberPasses n v = true ↔ v.setWidth 64 = (BitVec.ofInt 32 n).signExtend 64) := by
    intro n v hn
    rw [numberPasses, decide_eq_false (Int.not_lt.mpr hn), Bool.false_or, beq_iff_eq]
  rw [htests, hcode, List.length_cons, List.length_singleton,
    straight_jump_iff (by decide) (by decide) pre _ hl.r4 hpc, hpasses _ hmaj, hpasses _ hmin]
  refine and_congr_right fun _ => ?_
  rw [List.append_cons, straight_jump_iff (by decide) (by decide)
    _ _ (hl.goto (s.pc + 1)).r5 (by rw [State.goto_pc, slots_append, hpc]; rfl)]
  exact and_iff_left trivial

end Straight

/-! ## Which numbers pass -/

/-- A number of an accepted rule that has one passes its test when it is the request's and below
`2 ^ 31`. -/
theorem numberPasses_iff {n : ℤ} (hn : 0 ≤ n) (hmax : n ≤ maxUint32) (v : BitVec 32) :
    numberPasses n v = true ↔ (v.toNat : ℤ) = n ∧ n < 2 ^ 31 := by
  by_cases hsmall : n < 2 ^ 31
  · rw [numberPasses_eq hsmall, DeviceRule.numberMatches, decide_eq_false (Int.not_lt.mpr hn),
      Bool.false_or, beq_iff_eq, eq_comm]
    exact (and_iff_left hsmall).symm
  · rw [numberPasses_eq_false (Int.not_lt.mp hsmall) hmax]
    exact iff_of_false Bool.false_ne_true fun h => hsmall h.2

/-- Which requests the tests of the numbers let through, wherever they are. -/
theorem straight_blockCode_iff {r : DeviceRule} (hmaj : 0 ≤ r.major ∧ r.major ≤ maxUint32)
    (hmin : 0 ≤ r.minor ∧ r.minor ≤ maxUint32) {h : Host} {q : Request} {x : BitVec 64} {s : State}
    (pre post : List Insn) (hl : Loaded h q x s) (hpc : s.pc = slots pre) :
    (Straight h.rt (pre ++ (blockCode r.allow (numberTests r) ++ post)) (numberTests r).length s
        ↔ (q.major.toNat : ℤ) = r.major ∧ (q.minor.toNat : ℤ) = r.minor)
      ↔ ((q.major.toNat : ℤ) = r.major ∧ (q.minor.toNat : ℤ) = r.minor →
        r.major < 2 ^ 31 ∧ r.minor < 2 ^ 31) := by
  rw [straight_iff_numberPasses hmaj.1 hmin.1 pre post hl hpc, numberPasses_iff hmaj.1 hmaj.2,
    numberPasses_iff hmin.1 hmin.2]
  tauto

/-- The tests of the numbers of a rule, where they are in a program. -/
def NumbersAt (r : DeviceRule) (prog : List Insn) (pc : ℕ) : Prop :=
  ∃ pre post, prog = pre ++ (blockCode r.allow (numberTests r) ++ post) ∧ pc = slots pre

section Generated

variable {labelPrefix : String} {rules : List DeviceRule} {orig : List Instruction}
  {prog : List Insn} {r : DeviceRule}

/-- **A generated program has the tests of the numbers** of every rule it gets to. -/
theorem exists_numbersAt (ho : orig ≠ []) (href : ∀ i ∈ orig, i.reference = "")
    (hsym : ∀ i ∈ orig.tail, i.symbol = "") (hok : generate labelPrefix rules orig = .ok prog)
    (hr : r ∈ tested rules.reverse) : r.Accepted ∧ ∃ pc, NumbersAt r prog pc := by
  obtain ⟨hacc, rfl⟩ := generate_eq_ok ho href hsym hok
  obtain ⟨pre, post, hcode⟩ := numberTests_in_filter hr
  refine ⟨hacc r hr, slots pre, pre, post ++ orig.map (·.insn), ?_, rfl⟩
  rw [hcode]
  simp only [List.append_assoc]

/-- **In a generated program the tests of the numbers let a request through exactly when its numbers
are the rule's**, for a rule whose numbers are not the request's, or below `2 ^ 31`, and for no
other. -/
theorem straight_numberTests_iff (ho : orig ≠ []) (href : ∀ i ∈ orig, i.reference = "")
    (hsym : ∀ i ∈ orig.tail, i.symbol = "") (hok : generate labelPrefix rules orig = .ok prog)
    (hr : r ∈ tested rules.reverse) (hmaj : 0 ≤ r.major) (hmin : 0 ≤ r.minor) :
    (∃ pc, NumbersAt r prog pc) ∧ ∀ (h : Host) (q : Request) (x : BitVec 64) (s : State),
      Loaded h q x s → NumbersAt r prog s.pc →
      ((Straight h.rt prog (numberTests r).length s
          ↔ (q.major.toNat : ℤ) = r.major ∧ (q.minor.toNat : ℤ) = r.minor)
        ↔ ((q.major.toNat : ℤ) = r.major ∧ (q.minor.toNat : ℤ) = r.minor →
          r.major < 2 ^ 31 ∧ r.minor < 2 ^ 31)) := by
  obtain ⟨⟨-, -, hmaj', hmin'⟩, hthere⟩ := exists_numbersAt ho href hsym hok hr
  refine ⟨hthere, fun h q x s hl hpc => ?_⟩
  obtain ⟨pre, post, rfl, hpc⟩ := hpc
  exact straight_blockCode_iff ⟨hmaj, hmaj'⟩ ⟨hmin, hmin'⟩ pre post hl hpc

end Generated

/-- A state with the request in the registers. -/
def Host.loaded (h : Host) (q : Request) (x : BitVec 64) (pc : ℕ) : State where
  regs
    | .r1 => some h.ctx
    | .r2 => some x
    | .r3 => some (q.access.setWidth 64)
    | .r4 => some (q.major.setWidth 64)
    | .r5 => some (q.minor.setWidth 64)
    | .r10 => some h.fp
    | _ => none
  mem := (h.entry q).mem
  pc := pc

theorem Host.loaded_loaded (h : Host) (q : Request) (x : BitVec 64) (pc : ℕ) :
    Loaded h q x (h.loaded q x pc) := ⟨rfl, rfl, rfl, rfl, rfl, rfl, rfl, rfl⟩

/-- A rule for one character device. -/
def charRule (major : ℤ) : DeviceRule := ⟨true, "c", "rw", major, 0⟩

/-- An original program that refuses everything. -/
def refusing : List Instruction := [Asm.movImm32 .r0 0, Asm.ret]

/-- The program for one rule. -/
theorem generate_charRule (major : ℤ) (h : (charRule major).Accepted) :
    generate "u" [charRule major] refusing
      = .ok (filterCode [charRule major] ++ refusing.map (·.insn)) :=
  generate_eq "u" (fun _ hr => List.mem_singleton.mp hr ▸ h) (by decide) (by decide) (by decide)

/-- Device 195:0 is let through to its own rule. -/
theorem straight_numberTests_195 : ∃ prog pc, generate "u" [charRule 195] refusing = .ok prog
    ∧ NumbersAt (charRule 195) prog pc
    ∧ Straight someHost.rt prog 2 (someHost.loaded ⟨2, 6, 195, 0⟩ 2 pc) := by
  have hok := generate_charRule 195 (by decide)
  obtain ⟨⟨pc, hpc⟩, hall⟩ := straight_numberTests_iff (r := charRule 195) (by decide) (by decide)
    (by decide) hok (by decide) (by decide) (by decide)
  have hpass := hall someHost ⟨2, 6, 195, 0⟩ 2 _ (someHost.loaded_loaded _ 2 pc) hpc
  exact ⟨_, pc, hok, hpc, (hpass.mpr fun _ => by decide).mpr (by decide)⟩

/-- **Device 2147483648:0 is not let through to its own rule.** -/
theorem not_straight_numberTests :
    ¬∀ (labelPrefix : String) (rules : List DeviceRule) (orig : List Instruction)
      (prog : List Insn) (r : DeviceRule), orig ≠ [] → (∀ i ∈ orig, i.reference = "") →
      (∀ i ∈ orig.tail, i.symbol = "") → generate labelPrefix rules orig = .ok prog →
      r ∈ tested rules.reverse → 0 ≤ r.major → 0 ≤ r.minor →
      ∀ (h : Host) (q : Request) (x : BitVec 64) (s : State), Loaded h q x s →
      NumbersAt r prog s.pc → (Straight h.rt prog (numberTests r).length s
        ↔ (q.major.toNat : ℤ) = r.major ∧ (q.minor.toNat : ℤ) = r.minor) := by
  intro hall
  have hok := generate_charRule 2147483648 (by decide)
  obtain ⟨-, pc, hpc⟩ := exists_numbersAt (r := charRule 2147483648) (by decide) (by decide)
    (by decide) hok (by decide)
  have hl := someHost.loaded_loaded ⟨2, 6, 2147483648, 0⟩ 2 pc
  have h := hall "u" _ refusing _ (charRule 2147483648) (by decide) (by decide) (by decide) hok
    (by decide) (by decide) (by decide) someHost _ 2 _ hl hpc
  obtain ⟨pre, post, hprog, hpc⟩ := hpc
  rw [hprog, straight_iff_numberPasses (by decide) (by decide) pre post hl hpc] at h
  have hpass : numberPasses 2147483648 2147483648 = true := (h.mpr (by decide)).1
  exact absurd hpass (by decide)

end Cgroup
