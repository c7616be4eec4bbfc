import XdxContainer.Cgroup.Layout

/-!
# Cgroup/FilterMeaning — what a generated filter answers, and when that is the last matching rule

    rules ──generate──▸ program ──run on a request──▸ `codeVerdict`   (`returns_filter`)
      │                                                    ‖   when the type register is intact
      └──────────last rule that matches──────────▸ `lastMatch`        (`typeIntact_iff`)

A filter keeps the request in `r2`..`r5`, the device type in `r2`.  The access test of a block uses
`r2` as its temporary and nothing restores it, so the blocks behind compare their device type with
`access & mask`.  `DeviceRule.leaves` says what a block leaves in `r2`; `TypeIntact` says that the
value left answers the type tests that decide as the request's own type does.
-/

open Ebpf

namespace Cgroup

/-! ## Requests, and the state a device program is entered in -/

/-- An access request, the fields of `bpf_cgroup_dev_ctx`. -/
structure Request where
  typ : BitVec 16
  access : BitVec 16
  major : BitVec 32
  minor : BitVec 32
  deriving DecidableEq, Repr

/-- The context in memory: `access_type`, `major`, `minor`, little-endian. -/
def Request.word (q : Request) : BitVec (32 + (32 + (16 + 16))) :=
  q.minor ++ (q.major ++ (q.access ++ q.typ))

/-- The kernel side of a run: its helpers, the address of the context, the frame pointer and the
rest of the memory. -/
structure Host where
  rt : Runtime
  ctx : BitVec 64
  fp : BitVec 64
  mem : BitVec 64 → BitVec 8

/-- The state a device program is entered in: only `r1` and `r10` are set. -/
def Host.entry (h : Host) (q : Request) : State where
  regs
    | .r1 => some h.ctx
    | .r10 => some h.fp
    | _ => none
  mem := storeLE h.mem h.ctx q.word 12
  pc := 0

/-- The program answers `v` to the request. -/
def Answers (h : Host) (p : List Insn) (q : Request) (v : BitVec 64) : Prop :=
  Returns h.rt p (h.entry q) v

/-- The value a verdict is returned as. -/
def verdictWord (accept : Bool) : BitVec 64 := if accept then 1 else 0

/-! ## The tests at run time -/

/-- The value the access test leaves in `r2`. -/
def masked (q : Request) (m : BitVec 32) : BitVec 64 := (q.access.setWidth 32 &&& m).setWidth 64

/-- Does a test pass when `r2` holds `x`? -/
def Test.passes (q : Request) (x : BitVec 64) : Test → Bool
  | type t => x == t.signExtend 64
  | access m => masked q m != 0
  | major v => q.major.setWidth 64 == v.signExtend 64
  | minor v => q.minor.setWidth 64 == v.signExtend 64

/-- What a test leaves in `r2`, passed or not. -/
def Test.leaves (q : Request) (x : BitVec 64) : Test → BitVec 64
  | access m => masked q m
  | _ => x

/-- Run the tests of a block: have all passed, and what is in `r2` where they stopped? -/
def runTests (q : Request) : List Test → BitVec 64 → Bool × BitVec 64
  | [], x => (true, x)
  | t :: ts, x => if t.passes q x then runTests q ts (t.leaves q x) else (false, t.leaves q x)

/-- The verdict of the first block whose tests all pass. -/
def blockVerdict (q : Request) : List Block → BitVec 64 → Option Bool
  | [], _ => none
  | b :: bs, x =>
    if (runTests q b.tests x).1 then some b.accept else blockVerdict q bs (runTests q b.tests x).2

/-- The request is in the registers, `x` in `r2`, what the original program expects is there, and
there is no return value yet. -/
structure Loaded (h : Host) (q : Request) (x : BitVec 64) (s : State) : Prop where
  r0 : s.regs .r0 = none
  r1 : s.regs .r1 = some h.ctx
  r2 : s.regs .r2 = some x
  r3 : s.regs .r3 = some (q.access.setWidth 64)
  r4 : s.regs .r4 = some (q.major.setWidth 64)
  r5 : s.regs .r5 = some (q.minor.setWidth 64)
  r10 : s.regs .r10 = some h.fp
  mem : s.mem = (h.entry q).mem

section Run

variable {h : Host} {q : Request} {x : BitVec 64} {s : State}

theorem Loaded.goto (hl : Loaded h q x s) (n : ℕ) : Loaded h q x (s.goto n) :=
  ⟨hl.r0, hl.r1, hl.r2, hl.r3, hl.r4, hl.r5, hl.r10, hl.mem⟩

theorem Loaded.write_r2 (hl : Loaded h q x s) (y : BitVec 64) : Loaded h q y (s.write .r2 y) where
  r0 := by simpa using hl.r0
  r1 := by simpa using hl.r1
  r2 := by simp
  r3 := by simpa using hl.r3
  r4 := by simpa using hl.r4
  r5 := by simpa using hl.r5
  r10 := by simpa using hl.r10
  mem := hl.mem

/-- The state behind a prefix is entered as the original program expects. -/
theorem Loaded.behind (hl : Loaded h q x s) : Behind s.pc (h.entry q) s where
  regs r v hr := by
    by_cases h1 : r = .r1
    · subst h1
      exact hl.r1.trans hr
    · by_cases h10 : r = .r10
      · subst h10
        exact hl.r10.trans hr
      · rcases r with _ | _ | _ | _ | _ | _ | _ | _ | _ | _ | _ <;> simp_all [Host.entry]
  mem := hl.mem
  pc := rfl

/-- The instruction `k` slots into what stands behind a prefix is the one executed there. -/
theorem step_behind {pre l : List Insn} (k : ℕ) (hpc : s.pc = slots pre + k) {i : Insn}
    (hi : fetch l k = some i) : step h.rt (pre ++ l) s = exec h.rt s i := by
  rw [step, hpc, fetch_append, hi]

/-- A jump forward, by less than half of what an offset holds. -/
theorem target_ofNat (pc : ℕ) {n : ℕ} (hn : n < 2 ^ 15) :
    target pc (BitVec.ofNat 16 n) = .ok (pc + 1 + n) := by
  have hint : (BitVec.ofNat 16 n).toInt = n := by
    rw [BitVec.toInt_eq_toNat_of_lt (by rw [BitVec.toNat_ofNat]; omega), BitVec.toNat_ofNat]
    omega
  simp only [target, hint]
  rw [if_pos (by omega)]
  rfl

/-- A conditional jump over `n` slots: on, or over them. -/
theorem exec_jump {c : Cond} {dst : Reg} {v : BitVec 32} {n : ℕ} (hn : n < 2 ^ 15) {a : BitVec 64}
    (ha : s.regs dst = some a) :
    exec h.rt s (.jmp .w64 c dst (.imm v) (BitVec.ofNat 16 n))
      = .ok (s.goto (s.pc + 1 + if c.holds a (v.signExtend 64) then n else 0)) := by
  simp only [exec, State.read_of_regs ha, State.operand, bind, Except.bind, pure, Except.pure,
    Cond.eval, target_ofNat s.pc hn]
  split_ifs <;> rfl

/-- A test leads behind itself when it passes and to the end of its block when it fails. -/
theorem reaches_test (t : Test) {rem : ℕ} (hrem : rem < 2 ^ 15) (pre post : List Insn)
    (hl : Loaded h q x s) (hpc : s.pc = slots pre) :
    ∃ s', Reaches h.rt (pre ++ (t.code rem ++ post)) s s' ∧ Loaded h q (t.leaves q x) s'
      ∧ s'.pc = slots pre + slots (t.code rem) + if t.passes q x then 0 else rem := by
  -- the jump of a test on a register nothing else writes
  have hjump : ∀ {r : Reg} {v : BitVec 32} {a : BitVec 64}, s.regs r = some a →
      ∃ s', Reaches h.rt (pre ++ ([.jmp .w64 .ne r (.imm v) (BitVec.ofNat 16 rem)] ++ post)) s s'
        ∧ Loaded h q x s' ∧ s'.pc = slots pre + 1 + if a == v.signExtend 64 then 0 else rem := by
    intro r v a hr
    refine ⟨_, Reaches.single ((step_behind 0 hpc rfl).trans (exec_jump hrem hr)), hl.goto _, ?_⟩
    rw [State.goto_pc, hpc]
    by_cases ha : a = v.signExtend 64 <;> simp [Cond.holds, ha]
  rcases t with v | m | v | v
  · exact hjump hl.r2
  · set y : BitVec 64 := ((q.access.setWidth 64).setWidth 32).setWidth 64 with hy
    have hmov : step h.rt (pre ++ ((Test.access m).code rem ++ post)) s
        = .ok ((s.write .r2 y).goto (s.pc + 1)) := by
      refine (step_behind 0 hpc rfl).trans ?_
      simp only [exec, State.operand, State.read_of_regs hl.r3, State.left, if_true, bind,
        Except.bind, pure, Except.pure]
      rfl
    set s₁ := (s.write .r2 y).goto (s.pc + 1) with hs₁
    have hl₁ : Loaded h q y s₁ := (hl.write_r2 y).goto (s.pc + 1)
    have hpc₁ : s₁.pc = slots pre + 1 := by rw [hs₁, State.goto_pc, hpc]
    have hand : step h.rt (pre ++ ((Test.access m).code rem ++ post)) s₁
        = .ok ((s₁.write .r2 (masked q m)).goto (s₁.pc + 1)) := by
      refine (step_behind 1 hpc₁ rfl).trans ?_
      have hy' : AluOp.and.eval .w32 y (m.signExtend 64) = masked q m := by
        simp only [AluOp.eval, AluOp.eval32, masked, hy]
        congr 1
        ext i hi
        simp [BitVec.getElem_setWidth, BitVec.getElem_signExtend, hi, show i < 64 by omega]
      simp [exec, State.operand, State.read_of_regs hl₁.r2, State.left, bind, Except.bind, pure,
        Except.pure, hy']
    set s₂ := (s₁.write .r2 (masked q m)).goto (s₁.pc + 1) with hs₂
    have hl₂ : Loaded h q (masked q m) s₂ := (hl₁.write_r2 (masked q m)).goto (s₁.pc + 1)
    have hpc₂ : s₂.pc = slots pre + 2 := by rw [hs₂, State.goto_pc, hpc₁]
    have hjmp : step h.rt (pre ++ ((Test.access m).code rem ++ post)) s₂
        = .ok (s₂.goto (s₂.pc + 1 + if Cond.eq.holds (masked q m) 0 then rem else 0)) :=
      (step_behind 2 hpc₂ rfl).trans (exec_jump hrem hl₂.r2)
    refine ⟨_, ((Reaches.single hmov).trans (Reaches.single hand)).trans (Reaches.single hjmp),
      hl₂.goto _, ?_⟩
    rw [State.goto_pc, hpc₂]
    by_cases hm : masked q m = 0 <;> simp [Test.code, Test.passes, Cond.holds, Insn.slots, hm]
  · exact hjump hl.r4
  · exact hjump hl.r5

/-- The tests of a block lead to its verdict when all pass and behind the block when one fails. -/
theorem reaches_tests (a : Bool) (ts : List Test) (hlen : slots (blockCode a ts) < 2 ^ 15)
    (pre post : List Insn) (hl : Loaded h q x s) (hpc : s.pc = slots pre) :
    ∃ s', Reaches h.rt (pre ++ (blockCode a ts ++ post)) s s' ∧ Loaded h q (runTests q ts x).2 s'
      ∧ s'.pc + (if (runTests q ts x).1 then 2 else 0) = slots pre + slots (blockCode a ts) := by
  induction ts generalizing pre s x with
  | nil => exact ⟨s, Reaches.refl s, hl, by rw [hpc]; rfl⟩
  | cons t ts ih =>
    rw [blockCode, slots_append] at hlen
    set rem := slots (blockCode a ts) with hrem
    obtain ⟨s₁, hr₁, hl₁, hpc₁⟩ := reaches_test t (show rem < 2 ^ 15 by omega) pre
      (blockCode a ts ++ post) hl hpc
    rw [blockCode, slots_append, ← hrem, List.append_assoc]
    by_cases ht : t.passes q x = true
    · rw [if_pos ht, ← slots_append] at hpc₁
      obtain ⟨s₂, hr₂, hl₂, hpc₂⟩ := ih (by omega) (pre ++ t.code rem) hl₁ hpc₁
      rw [List.append_assoc] at hr₂
      rw [runTests, if_pos ht]
      refine ⟨s₂, hr₁.trans hr₂, hl₂, ?_⟩
      rw [hpc₂, slots_append, Nat.add_assoc]
    · rw [if_neg ht] at hpc₁
      rw [runTests, if_neg ht]
      exact ⟨s₁, hr₁, hl₁, by simp only [hpc₁, Bool.false_eq_true, if_false]; omega⟩

theorem blockCode_eq_append (a : Bool) (ts : List Test) :
    ∃ l, blockCode a ts = l ++ acceptCode a := by
  induction ts with
  | nil => exact ⟨[], rfl⟩
  | cons t ts ih =>
    obtain ⟨l, hl⟩ := ih
    exact ⟨t.code (slots (blockCode a ts)) ++ l, by rw [blockCode, List.append_assoc, ← hl]⟩

/-- A verdict returns its word. -/
theorem returns_accept (h : Host) (a : Bool) (pre post : List Insn) (hpc : s.pc = slots pre) :
    Returns h.rt (pre ++ (acceptCode a ++ post)) s (verdictWord a) := by
  have hmov : step h.rt (pre ++ (acceptCode a ++ post)) s
      = .ok ((s.write .r0 (verdictWord a)).goto (s.pc + 1)) := by
    refine (step_behind 0 hpc rfl).trans ?_
    rcases a <;> rfl
  have hpc₁ : ((s.write .r0 (verdictWord a)).goto (s.pc + 1)).pc = slots pre + 1 := by
    rw [State.goto_pc, hpc]
  refine (Reaches.single hmov).returns (halts_of_error ((step_behind 1 hpc₁ rfl).trans ?_))
  rfl

/-- **The blocks of a filter, run in sequence**: the verdict of the first block that passes, or the
instructions behind the last block. -/
theorem run_blocks {bs : List Block} (hbs : ∀ b ∈ bs, slots b.code < 2 ^ 15) (pre post : List Insn)
    (hl : Loaded h q x s) (hpc : s.pc = slots pre) :
    (∀ a, blockVerdict q bs x = some a →
        Returns h.rt (pre ++ (bs.flatMap Block.code ++ post)) s (verdictWord a))
      ∧ (blockVerdict q bs x = none →
        ∃ y s', Reaches h.rt (pre ++ (bs.flatMap Block.code ++ post)) s s' ∧ Loaded h q y s'
          ∧ s'.pc = slots (pre ++ bs.flatMap Block.code)) := by
  induction bs generalizing pre s x with
  | nil =>
    refine ⟨fun a ha => by simp [blockVerdict] at ha, fun _ => ⟨x, s, Reaches.refl s, hl, ?_⟩⟩
    simpa using hpc
  | cons b bs ih =>
    obtain ⟨s₁, hr₁, hl₁, hpc₁⟩ := reaches_tests b.accept b.tests (hbs b (by simp))
      pre (bs.flatMap Block.code ++ post) hl hpc
    have hcode : (b :: bs).flatMap Block.code ++ post
        = blockCode b.accept b.tests ++ (bs.flatMap Block.code ++ post) := by
      rw [List.flatMap_cons, List.append_assoc]
      rfl
    rw [hcode, blockVerdict]
    by_cases hp : (runTests q b.tests x).1 = true
    · rw [if_pos hp] at hpc₁ ⊢
      obtain ⟨l, hacc⟩ := blockCode_eq_append b.accept b.tests
      have hslots : s₁.pc = slots (pre ++ l) := by
        rw [hacc, slots_append, show slots (acceptCode b.accept) = 2 from rfl] at hpc₁
        rw [slots_append]
        omega
      refine ⟨fun a ha => ?_, fun hn => by simp at hn⟩
      obtain rfl := Option.some.inj ha
      have hv := returns_accept h b.accept _ (bs.flatMap Block.code ++ post) hslots
      rw [List.append_assoc, ← List.append_assoc l, ← hacc] at hv
      exact hr₁.returns hv
    · rw [if_neg hp] at hpc₁ ⊢
      obtain ⟨hsome, hnone⟩ := ih (fun b' hb' => hbs b' (by simp [hb']))
        (pre ++ b.code) hl₁ (by rw [slots_append]; exact hpc₁)
      simp only [List.append_assoc] at hsome hnone
      refine ⟨fun a ha => hr₁.returns (hsome a ha), fun hn => ?_⟩
      obtain ⟨y, s', hr, hl', hpc'⟩ := hnone hn
      exact ⟨y, s', hr₁.trans hr, hl', by rw [hpc', List.flatMap_cons]⟩

/-! The loads of `init`. -/

/-- The bits of the context, field by field. -/
theorem word_bit (q : Request) (i : ℕ) :
    q.word.getLsbD i = if i < 32 then (q.access ++ q.typ).getLsbD i
      else if i < 64 then q.major.getLsbD (i - 32) else q.minor.getLsbD (i - 64) := by
  rw [Request.word, BitVec.getLsbD_append, BitVec.getLsbD_append]
  split_ifs <;> first | rfl | omega

/-- The low half of the first word is the type. -/
theorem word_typ (q : Request) : (q.word >>> 0).setWidth 16 = q.typ := by
  apply BitVec.eq_of_getLsbD_eq
  intro i hi
  rw [BitVec.getLsbD_setWidth, BitVec.getLsbD_ushiftRight, word_bit, BitVec.getLsbD_append]
  simp [hi, show i < 32 by omega]

theorem word_access_typ (q : Request) : (q.word >>> 0).setWidth 32 = q.access ++ q.typ := by
  apply BitVec.eq_of_getLsbD_eq
  intro i hi
  simp [word_bit, hi]

/-- The second word is the major. -/
theorem word_major (q : Request) : (q.word >>> 32).setWidth 32 = q.major := by
  apply BitVec.eq_of_getLsbD_eq
  intro i hi
  simp [BitVec.getLsbD_ushiftRight, word_bit, hi, show 32 + i < 64 by omega]

/-- The third word is the minor. -/
theorem word_minor (q : Request) : (q.word >>> 64).setWidth 32 = q.minor := by
  apply BitVec.eq_of_getLsbD_eq
  intro i hi
  simp [BitVec.getLsbD_ushiftRight, word_bit, hi, show ¬ 64 + i < 32 by omega,
    show ¬ 64 + i < 64 by omega]

/-- The access is what is left of the first word, shifted. -/
theorem access_shift (q : Request) :
    AluOp.rsh.eval .w32 ((q.access ++ q.typ).setWidth 64) ((16 : BitVec 32).signExtend 64)
      = q.access.setWidth 64 := by
  have h16 : ((16 : BitVec 32).signExtend 64).setWidth 32 = (16 : BitVec 32) := by decide
  simp only [AluOp.eval, AluOp.eval32, h16]
  apply BitVec.eq_of_getLsbD_eq
  intro i hi
  rw [BitVec.getLsbD_setWidth, BitVec.getLsbD_setWidth, BitVec.getLsbD_ushiftRight,
    BitVec.getLsbD_setWidth, BitVec.getLsbD_setWidth, BitVec.getLsbD_append]
  by_cases h₁ : i < 16
  · simp [hi, show 16 + i < 32 by omega, show 16 + i < 64 by omega]
  · simp [hi, show ¬ 16 + i < 32 by omega, BitVec.getLsbD_of_ge q.access i (by omega)]

/-- A load from the context. -/
theorem exec_ldx (sz : Size) (dst : Reg) {k : ℕ} (hk : k + sz.bytes ≤ 12)
    (h1 : s.regs .r1 = some h.ctx) (hmem : s.mem = (h.entry q).mem) :
    exec h.rt s (.ldx sz dst .r1 (BitVec.ofNat 16 k))
      = .ok ((s.write dst (((q.word >>> (8 * k)).setWidth (8 * sz.bytes)).setWidth 64)).goto
          (s.pc + 1)) := by
  have hoff : (BitVec.ofNat 16 k).signExtend 64 = BitVec.ofNat 64 k := by
    rw [BitVec.signExtend_eq_setWidth_of_msb_false]
    · apply BitVec.eq_of_toNat_eq
      simp
      omega
    · rw [BitVec.msb_eq_decide]
      simp
      omega
  have hload := loadLE_storeLE h.mem h.ctx q.word hk (by omega)
  simp only [exec, State.read_of_regs h1, hmem, hoff, Host.entry, hload, bind, Except.bind, pure,
    Except.pure]

/-- **The loads of `init` put the request into the registers.** -/
theorem reaches_init (h : Host) (q : Request) (post : List Insn) :
    ∃ s', Reaches h.rt (initCode ++ post) (h.entry q) s' ∧ Loaded h q (q.typ.setWidth 64) s'
      ∧ s'.pc = slots initCode := by
  set s₀ := h.entry q with hs₀
  set s₁ := (s₀.write .r2 (q.typ.setWidth 64)).goto 1 with hs₁
  set s₂ := (s₁.write .r3 ((q.access ++ q.typ).setWidth 64)).goto 2 with hs₂
  set s₃ := (s₂.write .r3 (q.access.setWidth 64)).goto 3 with hs₃
  set s₄ := (s₃.write .r4 (q.major.setWidth 64)).goto 4 with hs₄
  set s₅ := (s₄.write .r5 (q.minor.setWidth 64)).goto 5 with hs₅
  have e₁ : step h.rt (initCode ++ post) s₀ = .ok s₁ := by
    have he := exec_ldx (h := h) (q := q) (s := s₀) .half .r2 (k := 0) (by decide) rfl rfl
    rw [show 8 * 0 = 0 from rfl, show 8 * Size.half.bytes = 16 from rfl, word_typ] at he
    exact he
  have e₂ : step h.rt (initCode ++ post) s₁ = .ok s₂ := by
    have he := exec_ldx (h := h) (q := q) (s := s₁) .word .r3 (k := 0) (by decide) rfl rfl
    rw [show 8 * 0 = 0 from rfl, show 8 * Size.word.bytes = 32 from rfl, word_access_typ] at he
    exact he
  have e₃ : step h.rt (initCode ++ post) s₂ = .ok s₃ :=
    congrArg (fun v => Except.ok ((s₂.write .r3 v).goto 3)) (access_shift q)
  have e₄ : step h.rt (initCode ++ post) s₃ = .ok s₄ := by
    have he := exec_ldx (h := h) (q := q) (s := s₃) .word .r4 (k := 4) (by decide) rfl rfl
    rw [show 8 * 4 = 32 from rfl, show 8 * Size.word.bytes = 32 from rfl, word_major] at he
    exact he
  have e₅ : step h.rt (initCode ++ post) s₄ = .ok s₅ := by
    have he := exec_ldx (h := h) (q := q) (s := s₄) .word .r5 (k := 8) (by decide) rfl rfl
    rw [show 8 * 8 = 64 from rfl, show 8 * Size.word.bytes = 32 from rfl, word_minor] at he
    exact he
  refine ⟨s₅, ?_, ⟨rfl, rfl, rfl, rfl, rfl, rfl, rfl, rfl⟩, rfl⟩
  exact ((((Reaches.single e₁).trans (.single e₂)).trans (.single e₃)).trans (.single e₄)).trans
    (.single e₅)

/-- **A filter answers the verdict of the first block that passes, and otherwise what the program
behind it answers.** -/
theorem answers_blocks {bs : List Block} (hbs : ∀ b ∈ bs, slots b.code < 2 ^ 15)
    (orig : List Insn) :
    (∀ a, blockVerdict q bs (q.typ.setWidth 64) = some a →
        Answers h (initCode ++ bs.flatMap Block.code ++ orig) q (verdictWord a))
      ∧ (blockVerdict q bs (q.typ.setWidth 64) = none → ∀ v, Answers h orig q v →
        Answers h (initCode ++ bs.flatMap Block.code ++ orig) q v) := by
  obtain ⟨s', hr, hl, hpc⟩ := reaches_init h q (bs.flatMap Block.code ++ orig)
  obtain ⟨hsome, hnone⟩ := run_blocks hbs initCode orig hl hpc
  rw [List.append_assoc]
  refine ⟨fun a ha => hr.returns (hsome a ha), fun hn v hv => ?_⟩
  obtain ⟨y, t, hrt, hlt, hpct⟩ := hnone hn
  have hbehind := hlt.behind
  rw [hpct] at hbehind
  have hret := Returns.behind (initCode ++ bs.flatMap Block.code) hv hbehind
  rw [List.append_assoc] at hret
  exact (hr.trans hrt).returns hret

/-- **A filter in front of a bare `exit` returns an unset register when no block passes.** -/
theorem unset_blocks_exit {bs : List Block} (hbs : ∀ b ∈ bs, slots b.code < 2 ^ 15)
    (hn : blockVerdict q bs (q.typ.setWidth 64) = none) :
    Halts h.rt (initCode ++ bs.flatMap Block.code ++ [.exit]) (h.entry q) (.unset .r0) := by
  obtain ⟨s', hr, hl, hpc⟩ := reaches_init h q (bs.flatMap Block.code ++ [.exit])
  obtain ⟨-, hnone⟩ := run_blocks hbs initCode [.exit] hl hpc
  obtain ⟨y, t, hrt, hlt, hpct⟩ := hnone hn
  rw [List.append_assoc]
  refine (hr.trans hrt).halts_iff.mpr (halts_of_error ?_)
  rw [← List.append_assoc]
  refine (step_behind 0 hpct rfl).trans ?_
  simp only [exec, State.read, hlt.r0]
  rfl

end Run

/-! ## Which rules match, and what their blocks leave behind -/

/-- The access bit a letter of a rule stands for. -/
def accessBit (c : Char) : BitVec 16 :=
  if c = 'r' then 2 else if c = 'w' then 4 else if c = 'm' then 1 else 0

namespace DeviceRule

/-- The access bits a rule names. -/
def mask (r : DeviceRule) : BitVec 16 := r.access.toList.foldr (fun c m => accessBit c ||| m) 0

/-- The device type is the rule's, or the rule is for all types. -/
def typeMatches {w : ℕ} (r : DeviceRule) (t : BitVec w) : Bool :=
  r.type = "a" || (r.type = "b" && t == 1) || (r.type = "c" && t == 2)

/-- The access overlaps the rule's, or the rule is for all accesses. -/
def accessMatches (r : DeviceRule) (a : BitVec 16) : Bool := r.mask == 7 || a &&& r.mask != 0

/-- The number is the rule's, or the rule names none. -/
def numberMatches (n : ℤ) (v : BitVec 32) : Bool := n < 0 || n == v.toNat

/-- The access, the major and the minor number match. -/
def restMatches (r : DeviceRule) (q : Request) : Bool :=
  r.accessMatches q.access && (numberMatches r.major q.major && numberMatches r.minor q.minor)

/-- The rule matches the request. -/
def isMatch (r : DeviceRule) (q : Request) : Bool := r.typeMatches q.typ && r.restMatches q

/-- What the block of a rule leaves in `r2`: the masked access bits, if its access test was
reached. -/
def leaves (r : DeviceRule) (q : Request) (x : BitVec 64) : BitVec 64 :=
  if r.typeMatches x && r.mask != 7 then (q.access &&& r.mask).setWidth 64 else x

end DeviceRule

/-- The verdict of the last rule that matches. -/
def lastMatch (rules : List DeviceRule) (q : Request) : Option Bool :=
  (rules.reverse.find? (·.isMatch q)).map (·.allow)

/-- The verdict of a filter, its rules in the order they are tested, `x` in `r2`. -/
def codeVerdict : List DeviceRule → Request → BitVec 64 → Option Bool
  | [], _, _ => none
  | r :: rs, q, x =>
    if r.typeMatches x && r.restMatches q then some r.allow else codeVerdict rs q (r.leaves q x)

/-- The type register answers like the request's type wherever it decides: up to the first rule in
test order that matches, a rule whose other tests hold has the same answer to its type test. -/
def TypeIntact : List DeviceRule → Request → BitVec 64 → Prop
  | [], _, _ => True
  | r :: rs, q, x =>
    (r.restMatches q → r.typeMatches x = r.typeMatches q.typ)
      ∧ (¬ r.isMatch q → TypeIntact rs q (r.leaves q x))

instance TypeIntact.decidable : ∀ (rs : List DeviceRule) (q : Request) (x : BitVec 64),
    Decidable (TypeIntact rs q x)
  | [], _, _ => isTrue trivial
  | r :: rs, q, x =>
    have := TypeIntact.decidable rs q (r.leaves q x)
    inferInstanceAs (Decidable (_ ∧ _))

/-! ## Blocks as rules -/

theorem runTests_append {q : Request} {ts : List Test} {x y : BitVec 64} {b : Bool}
    (hts : runTests q ts x = (b, y)) (ts' : List Test) :
    runTests q (ts ++ ts') x = if b then runTests q ts' y else (b, y) := by
  induction ts generalizing x with
  | nil =>
    obtain ⟨rfl, rfl⟩ := Prod.mk.inj hts
    rfl
  | cons t ts ih =>
    rw [List.cons_append, runTests]
    rw [runTests] at hts
    split_ifs at hts ⊢ with ht hb hb
    · rw [ih hts, if_pos hb]
    · rw [ih hts, if_neg hb]
    · exact absurd (Prod.mk.inj hts).1.symm (by simp [hb])
    · exact hts

/-- The access of a rule is read letter by letter. -/
theorem bpfAccess_eq {l : List Char} {acc b : BitVec 32} (h : bpfAccess l acc = .ok b) :
    b = acc ||| (l.foldr (fun c m => accessBit c ||| m) 0).setWidth 32 := by
  induction l generalizing acc with
  | nil => simpa [bpfAccess] using h.symm
  | cons c l ih =>
    have hletter : ∀ {bit : BitVec 32}, bpfAccess l (acc ||| bit) = .ok b →
        (accessBit c).setWidth 32 = bit →
        b = acc ||| ((c :: l).foldr (fun c m => accessBit c ||| m) 0).setWidth 32 := by
      intro bit hok hbit
      rw [List.foldr_cons, BitVec.setWidth_or, ← BitVec.or_assoc, hbit]
      exact ih hok
    unfold bpfAccess at h
    split at h
    · next he => cases he
    · next he => obtain ⟨rfl, rfl⟩ := List.cons.inj he; exact hletter h (by decide)
    · next he => obtain ⟨rfl, rfl⟩ := List.cons.inj he; exact hletter h (by decide)
    · next he => obtain ⟨rfl, rfl⟩ := List.cons.inj he; exact hletter h (by decide)
    · cases h

section Rule

variable {r : DeviceRule} {q : Request} {x : BitVec 64}

theorem DeviceRule.accessBits_eq (hr : r.Accepted) : r.accessBits = r.mask.setWidth 32 := by
  have hok : bpfAccess r.access.toList 0 = .ok r.accessBits := Except.eq_ok_of_isOk hr.2.1 0
  rw [bpfAccess_eq hok, DeviceRule.mask]
  exact BitVec.zero_or

/-- Widening keeps different words different. -/
theorem setWidth_beq {v w : ℕ} (hvw : v ≤ w) (a b : BitVec v) :
    (a.setWidth w == b.setWidth w) = (a == b) := by
  rw [Bool.eq_iff_iff, beq_iff_eq, beq_iff_eq]
  refine ⟨fun he => ?_, fun he => he ▸ rfl⟩
  have hback := congrArg (BitVec.setWidth v) he
  simpa [BitVec.setWidth_setWidth_of_le, hvw] using hback

theorem typeMatches_setWidth (r : DeviceRule) (t : BitVec 16) :
    r.typeMatches (t.setWidth 64) = r.typeMatches t := by
  have h16 : 16 ≤ 64 := by decide
  rw [DeviceRule.typeMatches, DeviceRule.typeMatches, ← setWidth_beq h16 t 1,
    ← setWidth_beq h16 t 2]
  rfl

theorem runTests_singleton (q : Request) (t : Test) (x : BitVec 64) :
    runTests q [t] x = (t.passes q x, t.leaves q x) := by
  by_cases ht : t.passes q x = true <;> simp [runTests, ht]

/-- The type test of a rule. -/
theorem runTests_type (hr : r.Accepted) (q : Request) (x : BitVec 64) :
    runTests q (r.ty.toList.map .type) x = (r.typeMatches x, x) := by
  have hty : bpfType r.type = .ok r.ty := Except.eq_ok_of_isOk hr.1 none
  rw [bpfType] at hty
  split_ifs at hty with hc hb ha
  · rw [← Except.ok.inj hty]
    simp [runTests_singleton, Test.passes, Test.leaves, DeviceRule.typeMatches, hc, devChar]
  · rw [← Except.ok.inj hty]
    simp [runTests_singleton, Test.passes, Test.leaves, DeviceRule.typeMatches, hb, devBlock]
  · rw [← Except.ok.inj hty]
    simp [runTests, DeviceRule.typeMatches, ha]

theorem masked_eq (q : Request) (m : BitVec 16) :
    masked q (m.setWidth 32) = (q.access &&& m).setWidth 64 := by
  apply BitVec.eq_of_toNat_eq
  simp [masked]

/-- The access test of a rule. -/
theorem runTests_access (hr : r.Accepted) (q : Request) (x : BitVec 64) :
    runTests q (if r.accessBits ≠ accRead ||| accWrite ||| accMknod then [.access r.accessBits]
        else []) x
      = (r.accessMatches q.access,
          if r.mask != 7 then (q.access &&& r.mask).setWidth 64 else x) := by
  have hall : r.accessBits = accRead ||| accWrite ||| accMknod ↔ r.mask = 7 := by
    rw [r.accessBits_eq hr, ← beq_iff_eq, ← beq_iff_eq (a := r.mask),
      ← setWidth_beq (by decide : 16 ≤ 32) r.mask 7]
    rfl
  by_cases hm : r.mask = 7
  · rw [if_neg (by simpa [hall] using hm)]
    simp [runTests, DeviceRule.accessMatches, hm]
  · rw [if_pos (by simpa [hall] using hm), runTests_singleton, Test.passes, Test.leaves,
      r.accessBits_eq hr, masked_eq]
    have hne : ((q.access &&& r.mask).setWidth 64 != 0) = (q.access &&& r.mask != 0) :=
      congrArg (!·) (setWidth_beq (by decide : 16 ≤ 64) (q.access &&& r.mask) 0)
    rw [hne, DeviceRule.accessMatches, beq_false_of_ne hm, Bool.false_or,
      if_pos (bne_iff_ne.mpr hm)]

/-- The number test of a rule, on the registers: the constant is sign-extended. -/
def numberPasses (n : ℤ) (v : BitVec 32) : Bool :=
  n < 0 || v.setWidth 64 == (BitVec.ofInt 32 n).signExtend 64

/-- A number test of a rule. -/
theorem runTests_number (q : Request) (x : BitVec 64) (n : ℤ) {v : BitVec 32}
    {t : BitVec 32 → Test} (hpass : ∀ c, (t c).passes q x = (v.setWidth 64 == c.signExtend 64))
    (hleave : ∀ c, (t c).leaves q x = x) :
    runTests q (if 0 ≤ n then [t (BitVec.ofInt 32 n)] else []) x = (numberPasses n v, x) := by
  by_cases hn0 : 0 ≤ n
  · rw [if_pos hn0, runTests_singleton, hpass, hleave, numberPasses,
      decide_eq_false (Int.not_lt.mpr hn0), Bool.false_or]
  · rw [if_neg hn0, numberPasses, decide_eq_true (Int.not_le.mp hn0), Bool.true_or]
    rfl

/-- Below `2 ^ 31` the sign extension is harmless. -/
theorem numberPasses_eq {n : ℤ} (hn : n < 2 ^ 31) (v : BitVec 32) :
    numberPasses n v = DeviceRule.numberMatches n v := by
  by_cases hn0 : n < 0
  · simp [numberPasses, DeviceRule.numberMatches, hn0]
  · obtain ⟨k, rfl⟩ := Int.eq_ofNat_of_zero_le (Int.not_lt.mp hn0)
    have hext : (BitVec.ofNat 32 k).signExtend 64 = (BitVec.ofNat 32 k).setWidth 64 := by
      rw [BitVec.signExtend_eq_setWidth_of_msb_false]
      rw [BitVec.msb_eq_decide]
      simp
      omega
    rw [numberPasses, DeviceRule.numberMatches, BitVec.ofInt_natCast, hext,
      setWidth_beq (by decide), Bool.eq_iff_iff]
    simp only [beq_iff_eq, Bool.or_eq_true, decide_eq_true_eq]
    refine or_congr_right ⟨fun he => ?_, fun he => ?_⟩
    · rw [he, BitVec.toNat_ofNat]
      omega
    · apply BitVec.eq_of_toNat_eq
      rw [BitVec.toNat_ofNat]
      omega

/-- From `2 ^ 31` on the sign extension makes the test fail. -/
theorem numberPasses_eq_false {n : ℤ} (hlow : 2 ^ 31 ≤ n) (hhigh : n ≤ maxUint32) (v : BitVec 32) :
    numberPasses n v = false := by
  obtain ⟨k, rfl⟩ := Int.eq_ofNat_of_zero_le (by omega : 0 ≤ n)
  rw [maxUint32] at hhigh
  have hmsb : (BitVec.ofNat 32 k).msb = true := by
    rw [BitVec.msb_eq_decide]
    simp
    omega
  rw [numberPasses, decide_eq_false (by omega), Bool.false_or, beq_eq_false_iff_ne,
    BitVec.ofInt_natCast]
  intro he
  have hbit := congrArg (BitVec.getLsbD · 63) he
  simp [BitVec.getElem_signExtend, hmsb] at hbit

/-- A number that gets through the test is the rule's. -/
theorem numberMatches_of_passes {n : ℤ} (hn : n ≤ maxUint32) {v : BitVec 32}
    (hp : numberPasses n v = true) : DeviceRule.numberMatches n v = true := by
  by_cases hsmall : n < 2 ^ 31
  · rwa [numberPasses_eq hsmall] at hp
  · rw [numberPasses_eq_false (by omega) hn] at hp
    cases hp

/-- **The block of a rule, run on its own.** -/
theorem runTests_block (hr : r.Accepted) (q : Request) (x : BitVec 64) :
    (runTests q r.block.tests x).1
        = (r.typeMatches x && (r.accessMatches q.access
            && (numberPasses r.major q.major && numberPasses r.minor q.minor)))
      ∧ (runTests q r.block.tests x).2 = r.leaves q x := by
  have hmaj : ∀ y, runTests q _ y = (numberPasses r.major q.major, y) :=
    fun y => runTests_number q y r.major (t := .major) (fun _ => rfl) fun _ => rfl
  have hmin : ∀ y, runTests q _ y = (numberPasses r.minor q.minor, y) :=
    fun y => runTests_number q y r.minor (t := .minor) (fun _ => rfl) fun _ => rfl
  have hassoc : ∀ l₁ l₂ l₃ l₄ : List Test, l₁ ++ l₂ ++ l₃ ++ l₄ = l₁ ++ (l₂ ++ (l₃ ++ l₄)) := by
    intro l₁ l₂ l₃ l₄
    simp only [List.append_assoc]
  rw [DeviceRule.block]
  simp only [tests, hassoc]
  rw [runTests_append (runTests_type hr q x), runTests_append (runTests_access hr q x),
    runTests_append (hmaj _), hmin]
  by_cases h₁ : r.typeMatches x = true
  · by_cases h₂ : r.accessMatches q.access = true
    · by_cases h₃ : numberPasses r.major q.major = true <;> simp [h₁, h₂, h₃, DeviceRule.leaves]
    · simp [h₁, h₂, DeviceRule.leaves]
  · simp [h₁, DeviceRule.leaves]

/-- The rule's numbers are absent or below `2 ^ 31`. -/
def DeviceRule.Small (r : DeviceRule) : Prop := r.major < 2 ^ 31 ∧ r.minor < 2 ^ 31

instance (r : DeviceRule) : Decidable r.Small := inferInstanceAs (Decidable (_ ∧ _))

end Rule

/-- Wherever a rule list is tested, the blocks answer as the rules do. -/
theorem blockVerdict_blocks {rs : List DeviceRule} (hrs : ∀ r ∈ rs, r.Accepted ∧ r.Small)
    (q : Request) (x : BitVec 64) : blockVerdict q (blocks rs) x = codeVerdict rs q x := by
  induction rs generalizing x with
  | nil => rfl
  | cons r rs ih =>
    obtain ⟨hacc, hsmall⟩ := hrs r (by simp)
    obtain ⟨hpass, hleave⟩ := runTests_block hacc q x
    rw [numberPasses_eq hsmall.1, numberPasses_eq hsmall.2] at hpass
    change _ = (r.typeMatches x && r.restMatches q) at hpass
    rw [blocks, blockVerdict, codeVerdict, hpass, hleave]
    by_cases hm : (r.typeMatches x && r.restMatches q) = true
    · rw [if_pos hm, if_pos hm]
      rfl
    · have hne : ¬ r.block.tests.isEmpty = true := by
        intro hempty
        rw [List.isEmpty_iff.mp hempty] at hpass
        exact hm hpass.symm
      rw [if_neg hm, if_neg hm, if_neg hne]
      exact ih (fun r' hr' => hrs r' (by simp [hr'])) _

/-- A block is short: its jumps reach its end. -/
theorem slots_block_lt (r : DeviceRule) : slots r.block.code < 2 ^ 15 := by
  have hlen : ∀ a ts, slots (blockCode a ts) ≤ 3 * ts.length + 2 := by
    intro a ts
    induction ts with
    | nil => exact Nat.le_refl 2
    | cons t ts ih =>
      have ht : slots (t.code (slots (blockCode a ts))) ≤ 3 := by
        rcases t with v | v | v | v <;> simp [Test.code, Insn.slots]
      rw [blockCode, slots_append, List.length_cons]
      omega
  have htests : r.block.tests.length ≤ 4 := by
    have hite : ∀ (p : Prop) [Decidable p] (t : Test), (if p then [t] else []).length ≤ 1 := by
      intro p _ t
      split_ifs <;> simp
    simp only [DeviceRule.block, tests, List.length_append]
    have hty : (r.ty.toList.map Test.type).length ≤ 1 := by
      rcases r.ty with _ | t <;> simp
    have h₁ := hite (r.accessBits ≠ accRead ||| accWrite ||| accMknod) (.access r.accessBits)
    have h₂ := hite (0 ≤ r.major) (.major (BitVec.ofInt 32 r.major))
    have h₃ := hite (0 ≤ r.minor) (.minor (BitVec.ofInt 32 r.minor))
    omega
  have := hlen r.allow r.block.tests
  rw [Block.code, show r.block.accept = r.allow from rfl]
  omega

theorem mem_blocks {b : Block} {rs : List DeviceRule} (hb : b ∈ blocks rs) :
    ∃ r ∈ rs, b = r.block := by
  induction rs with
  | nil => simp [blocks] at hb
  | cons r rs ih =>
    rw [blocks, List.mem_cons] at hb
    rcases hb with rfl | hb
    · exact ⟨r, by simp, rfl⟩
    · split_ifs at hb with hw
      · simp at hb
      · obtain ⟨r', hr', he⟩ := ih hb
        exact ⟨r', by simp [hr'], he⟩

/-- The verdict of a rule list on a request, as its filter computes it. -/
def filterVerdict (rules : List DeviceRule) (q : Request) : Option Bool :=
  codeVerdict rules.reverse q (q.typ.setWidth 64)

/-- **A filter answers the verdict its rules compute, and otherwise what the program behind it
answers.** -/
theorem answers_filter {rules : List DeviceRule} (hrules : ∀ r ∈ rules, r.Accepted ∧ r.Small)
    (h : Host) (q : Request) (orig : List Insn) :
    (∀ a, filterVerdict rules q = some a → Answers h (filterCode rules ++ orig) q (verdictWord a))
      ∧ (filterVerdict rules q = none → ∀ v, Answers h orig q v →
        Answers h (filterCode rules ++ orig) q v) := by
  have hshort : ∀ b ∈ blocks rules.reverse, slots b.code < 2 ^ 15 := by
    intro b hb
    obtain ⟨r, -, rfl⟩ := mem_blocks hb
    exact slots_block_lt r
  have hv := blockVerdict_blocks (fun r hr => hrules r (List.mem_reverse.mp hr)) q
    (q.typ.setWidth 64)
  have hrun := answers_blocks (h := h) (q := q) hshort orig
  rwa [hv] at hrun

/-! ## The last matching rule -/

/-- A rule without its verdict. -/
def DeviceRule.pattern (r : DeviceRule) : DeviceRule := { r with allow := false }

/-- The first rule in test order that matches. -/
def firstMatch (rs : List DeviceRule) (q : Request) : Option Bool :=
  (rs.find? (·.isMatch q)).map (·.allow)

theorem typeIntact_map_pattern (rs : List DeviceRule) (q : Request) (x : BitVec 64) :
    TypeIntact (rs.map DeviceRule.pattern) q x ↔ TypeIntact rs q x := by
  induction rs generalizing x with
  | nil => exact Iff.rfl
  | cons r rs ih =>
    rw [List.map_cons, TypeIntact, TypeIntact]
    exact and_congr_right fun _ => imp_congr_right fun _ => ih (r.leaves q x)

/-- **With the type register intact a filter finds the last matching rule.** -/
theorem codeVerdict_eq_of_typeIntact {rs : List DeviceRule} {q : Request} {x : BitVec 64}
    (hx : TypeIntact rs q x) : codeVerdict rs q x = firstMatch rs q := by
  induction rs generalizing x with
  | nil => rfl
  | cons r rs ih =>
    obtain ⟨htype, hrest⟩ := hx
    rw [codeVerdict, firstMatch, List.find?_cons]
    by_cases hm : r.isMatch q = true
    · have hm' := Bool.and_eq_true_iff.mp hm
      rw [htype hm'.2, if_pos (Bool.and_eq_true_iff.mpr hm'), hm]
      rfl
    · have hskip : ¬ (r.typeMatches x && r.restMatches q) = true := by
        intro hp
        obtain ⟨h₁, h₂⟩ := Bool.and_eq_true_iff.mp hp
        exact hm (Bool.and_eq_true_iff.mpr ⟨htype h₂ ▸ h₁, h₂⟩)
      rw [if_neg hskip, Bool.eq_false_iff.mpr hm]
      exact ih (hrest hm)

/-- Rules that all deny never allow. -/
theorem codeVerdict_pattern_ne (rs : List DeviceRule) (q : Request) (x : BitVec 64) :
    codeVerdict (rs.map DeviceRule.pattern) q x ≠ some true := by
  induction rs generalizing x with
  | nil => simp [codeVerdict]
  | cons r rs ih =>
    rw [List.map_cons, codeVerdict]
    split_ifs
    · simp [DeviceRule.pattern]
    · exact ih _

theorem firstMatch_pattern_ne (rs : List DeviceRule) (q : Request) :
    firstMatch (rs.map DeviceRule.pattern) q ≠ some true := by
  intro h
  obtain ⟨r, hr, hallow⟩ := Option.map_eq_some_iff.mp h
  obtain ⟨r', -, rfl⟩ := List.mem_map.mp (List.mem_of_find?_eq_some hr)
  simp [DeviceRule.pattern] at hallow

/-- **A filter finds the last matching rule, whatever the verdicts of its rules are, only with the
type register intact.** -/
theorem typeIntact_of_codeVerdict_eq {rs : List DeviceRule} {q : Request} {x : BitVec 64}
    (hall : ∀ rs' : List DeviceRule, rs'.map DeviceRule.pattern = rs.map DeviceRule.pattern →
      codeVerdict rs' q x = firstMatch rs' q) : TypeIntact rs q x := by
  induction rs generalizing x with
  | nil => trivial
  | cons r rs ih =>
    -- only `r` allows: one side answers `true` exactly when its type test for `r` passes
    have hone := hall ({ r with allow := true } :: rs.map DeviceRule.pattern) (by
      simp [DeviceRule.pattern, Function.comp_def])
    rw [codeVerdict, firstMatch, List.find?_cons] at hone
    have htype : r.restMatches q → r.typeMatches x = r.typeMatches q.typ := by
      intro hrest
      have hrest' : DeviceRule.restMatches { r with allow := true } q = true := hrest
      have hq : DeviceRule.isMatch { r with allow := true } q = r.typeMatches q.typ := by
        rw [DeviceRule.isMatch, hrest', Bool.and_true]
        rfl
      have hx : DeviceRule.typeMatches { r with allow := true } x = r.typeMatches x := rfl
      rw [hrest', Bool.and_true, hq, hx] at hone
      by_cases h₁ : r.typeMatches x = true
      · rw [if_pos h₁] at hone
        by_cases h₂ : r.typeMatches q.typ = true
        · rw [h₁, h₂]
        · rw [Bool.eq_false_iff.mpr h₂] at hone
          exact absurd hone.symm (firstMatch_pattern_ne rs q)
      · rw [if_neg h₁] at hone
        by_cases h₂ : r.typeMatches q.typ = true
        · rw [h₂] at hone
          exact absurd hone (codeVerdict_pattern_ne rs q _)
        · rw [Bool.eq_false_iff.mpr h₁, Bool.eq_false_iff.mpr h₂]
    refine ⟨htype, fun hm => ih fun rs' hrs' => ?_⟩
    have hskip : ¬ (r.typeMatches x && r.restMatches q) = true := by
      intro hp
      obtain ⟨h₁, h₂⟩ := Bool.and_eq_true_iff.mp hp
      exact hm (Bool.and_eq_true_iff.mpr ⟨htype h₂ ▸ h₁, h₂⟩)
    have hcons := hall (r :: rs') (by rw [List.map_cons, hrs', List.map_cons])
    rw [codeVerdict, if_neg hskip, firstMatch, List.find?_cons, Bool.eq_false_iff.mpr hm] at hcons
    exact hcons

/-- A block that passes is one of a rule whose type test and other tests hold. -/
theorem matches_of_passes {r : DeviceRule} {q : Request} {x : BitVec 64} (hr : r.Accepted)
    (hp : (runTests q r.block.tests x).1 = true) :
    r.typeMatches x = true ∧ r.restMatches q = true := by
  rw [(runTests_block hr q x).1] at hp
  simp only [Bool.and_eq_true] at hp
  obtain ⟨h₁, h₂, h₃, h₄⟩ := hp
  refine ⟨h₁, ?_⟩
  simp only [DeviceRule.restMatches, Bool.and_eq_true]
  exact ⟨h₂, numberMatches_of_passes hr.2.2.1 h₃, numberMatches_of_passes hr.2.2.2 h₄⟩

/-- A block without tests passes. -/
theorem isEmpty_of_not_passes {q : Request} {ts : List Test} {x : BitVec 64}
    (hp : ¬ (runTests q ts x).1 = true) : ¬ ts.isEmpty = true := by
  intro hempty
  rw [List.isEmpty_iff.mp hempty] at hp
  exact hp rfl

/-- With the type register intact a request no rule matches falls through. -/
theorem blockVerdict_eq_none {rs : List DeviceRule} {q : Request} {x : BitVec 64}
    (hrs : ∀ r ∈ rs, r.Accepted) (hno : ∀ r ∈ rs, ¬ r.isMatch q) (hx : TypeIntact rs q x) :
    blockVerdict q (blocks rs) x = none := by
  induction rs generalizing x with
  | nil => rfl
  | cons r rs ih =>
    obtain ⟨htype, hrest⟩ := hx
    have hm := hno r (by simp)
    have hacc := hrs r (by simp)
    have hfail : ¬ (runTests q r.block.tests x).1 = true := by
      intro hp
      obtain ⟨h₁, hr⟩ := matches_of_passes hacc hp
      exact hm (Bool.and_eq_true_iff.mpr ⟨htype hr ▸ h₁, hr⟩)
    rw [blocks, blockVerdict, if_neg hfail, if_neg (isEmpty_of_not_passes hfail),
      (runTests_block hacc q x).2]
    exact ih (fun r' hr' => hrs r' (by simp [hr'])) (fun r' hr' => hno r' (by simp [hr']))
      (hrest hm)

/-! ## What a filter is for -/

/-- A program a filter can be put in front of: it has instructions, its jumps are resolved and no
instruction but the first has a label. -/
structure Original where
  insts : List Instruction
  nonempty : insts ≠ []
  reference : ∀ i ∈ insts, i.reference = ""
  symbol : ∀ i ∈ insts.tail, i.symbol = ""

/-- The instructions the kernel runs. -/
def Original.code (o : Original) : List Insn := o.insts.map (·.insn)

theorem symbol_tail_setSym {l : List Instruction} (name : String)
    (hl : ∀ i ∈ l, i.symbol = "") : ∀ i ∈ (setSym l 0 name).tail, i.symbol = "" := by
  rcases l with _ | ⟨j, l⟩
  · simp [setSym]
  · exact fun i hi => hl i (List.mem_cons_of_mem j hi)

/-- A program as the kernel reports it. -/
def Original.ofInfo (name : String) (prog : List Insn) (hprog : prog ≠ []) : Original where
  insts := infoInstructions name prog
  nonempty := by
    obtain ⟨i, l, rfl⟩ := List.exists_cons_of_ne_nil hprog
    simp [infoInstructions, setSym]
  reference := by
    obtain ⟨i, l, rfl⟩ := List.exists_cons_of_ne_nil hprog
    simp [infoInstructions, setSym, Instruction.sym]
  symbol := symbol_tail_setSym name (by simp)

@[simp] theorem Original.ofInfo_code (name : String) (prog : List Insn) (hprog : prog ≠ []) :
    (Original.ofInfo name prog hprog).code = prog := by
  obtain ⟨i, l, rfl⟩ := List.exists_cons_of_ne_nil hprog
  simp [Original.code, Original.ofInfo, infoInstructions, setSym, Instruction.sym,
    Function.comp_def]

/-- The program generated for accepted rules answers the verdict of the last rule that matches, and
what the original program answers when none does. -/
def AnswersLastMatch (rules : List DeviceRule) (q : Request) : Prop :=
  ∀ (h : Host) (labelPrefix : String) (orig : Original),
    ∃ prog, generate labelPrefix rules orig.insts = .ok prog
      ∧ (∀ a, lastMatch rules q = some a → Answers h prog q (verdictWord a))
      ∧ (lastMatch rules q = none → ∀ v, Answers h orig.code q v → Answers h prog q v)

/-- The program that is generated is the filter and what was there. -/
theorem generate_original (labelPrefix : String) {rules : List DeviceRule}
    (hrules : ∀ r ∈ rules, r.Accepted) (orig : Original) :
    generate labelPrefix rules orig.insts = .ok (filterCode rules ++ orig.code) :=
  generate_eq labelPrefix hrules orig.nonempty orig.reference orig.symbol

/-- The program that answers every request with one verdict. -/
def constProgram (accept : Bool) : Original :=
  Original.ofInfo "" (acceptCode accept) (by simp [acceptCode])

theorem answers_constProgram (h : Host) (q : Request) (a : Bool) :
    Answers h (constProgram a).code q (verdictWord a) := by
  rw [constProgram, Original.ofInfo_code]
  exact returns_accept h a [] [] rfl

/-- Some machine to run on. -/
def someHost : Host where
  rt := { arity := fun _ => 0, helper := fun _ _ _ => 0, effect := fun _ _ m => m,
          pseudo := fun _ v => v }
  ctx := 0
  fp := 0
  mem := fun _ => 0

theorem verdictWord_inj {a b : Bool} (h : verdictWord a = verdictWord b) : a = b := by
  rcases a <;> rcases b <;> simp_all [verdictWord]

/-- A filter answers the last match on every original program exactly when the verdict it computes
is the one of the last match. -/
theorem answersLastMatch_iff {rules : List DeviceRule}
    (hrules : ∀ r ∈ rules, r.Accepted ∧ r.Small) (q : Request) :
    AnswersLastMatch rules q ↔ filterVerdict rules q = lastMatch rules q := by
  have hgen : ∀ labelPrefix (orig : Original),
      generate labelPrefix rules orig.insts = .ok (filterCode rules ++ orig.code) :=
    fun labelPrefix orig => generate_original labelPrefix (fun r hr => (hrules r hr).1) orig
  constructor
  · intro hcorrect
    -- with an original program that always answers `b`
    have hconst : ∀ b a v, lastMatch rules q = a → filterVerdict rules q = v →
        verdictWord (a.getD b) = verdictWord (v.getD b) := by
      intro b a v ha hv
      obtain ⟨prog, hok, hsome, hnone⟩ := hcorrect someHost "" (constProgram b)
      obtain rfl := Except.ok.inj ((hgen "" (constProgram b)).symm.trans hok)
      obtain ⟨hsome', hnone'⟩ := answers_filter hrules someHost q (constProgram b).code
      have hb := answers_constProgram someHost q b
      have hl : Answers someHost (filterCode rules ++ (constProgram b).code) q
          (verdictWord (a.getD b)) := by
        rcases a with _ | a
        · exact hnone ha _ hb
        · exact hsome a ha
      have hr : Answers someHost (filterCode rules ++ (constProgram b).code) q
          (verdictWord (v.getD b)) := by
        rcases v with _ | v
        · exact hnone' hv _ hb
        · exact hsome' v hv
      exact Returns.unique hl hr
    have hfalse := verdictWord_inj (hconst false _ _ rfl rfl)
    have htrue := verdictWord_inj (hconst true _ _ rfl rfl)
    revert hfalse htrue
    rcases filterVerdict rules q with _ | _ | _ <;> rcases lastMatch rules q with _ | _ | _ <;> simp
  · intro heq h labelPrefix orig
    obtain ⟨hsome, hnone⟩ := answers_filter hrules h q orig.code
    exact ⟨_, hgen labelPrefix orig, fun a ha => hsome a (heq.trans ha),
      fun hn => hnone (heq.trans hn)⟩

/-- **A generated filter answers the last matching rule, whatever verdicts the rules carry, exactly
when the type register is intact.** -/
theorem answersLastMatch_iff_typeIntact {rules : List DeviceRule}
    (hrules : ∀ r ∈ rules, r.Accepted ∧ r.Small) (q : Request) :
    (∀ rules', rules'.map DeviceRule.pattern = rules.map DeviceRule.pattern →
        AnswersLastMatch rules' q)
      ↔ TypeIntact rules.reverse q (q.typ.setWidth 64) := by
  have hrules' : ∀ rules' : List DeviceRule,
      rules'.map DeviceRule.pattern = rules.map DeviceRule.pattern →
      ∀ r ∈ rules', r.Accepted ∧ r.Small := by
    intro rules' he r hr
    obtain ⟨r₀, hr₀, hpat⟩ :=
      List.mem_map.mp (he ▸ List.mem_map_of_mem (f := DeviceRule.pattern) hr)
    have hacc : r₀.pattern.Accepted ∧ r₀.pattern.Small := hrules r₀ hr₀
    rw [hpat] at hacc
    exact hacc
  constructor
  · intro hall
    refine typeIntact_of_codeVerdict_eq fun rs' hrs' => ?_
    have hpat : rs'.reverse.map DeviceRule.pattern = rules.map DeviceRule.pattern := by
      rw [List.map_reverse, hrs', List.map_reverse, List.reverse_reverse]
    have heq := (answersLastMatch_iff (hrules' _ hpat) q).mp (hall _ hpat)
    rwa [filterVerdict, lastMatch, List.reverse_reverse] at heq
  · intro hintact rules' hpat
    refine (answersLastMatch_iff (hrules' _ hpat) q).mpr (codeVerdict_eq_of_typeIntact ?_)
    rw [← typeIntact_map_pattern, List.map_reverse] at hintact ⊢
    rwa [hpat]

/-- Two rules with different numbers are enough for an intact register when no access test stands
before a type test that decides. -/
theorem answersLastMatch_wildcard_access :
    (∀ r ∈ ([⟨true, "c", "rw", 1, 3⟩, ⟨false, "c", "rwm", 1, 5⟩] : List DeviceRule),
      r.Accepted ∧ r.Small)
    ∧ (∀ rules' : List DeviceRule, rules'.map DeviceRule.pattern
        = ([⟨true, "c", "rw", 1, 3⟩, ⟨false, "c", "rwm", 1, 5⟩] : List DeviceRule).map
            DeviceRule.pattern → AnswersLastMatch rules' ⟨2, 4, 1, 3⟩) :=
  ⟨by decide, (answersLastMatch_iff_typeIntact (by decide) ⟨2, 4, 1, 3⟩).mpr (by decide)⟩

/-- Two rules allow `rw` on the devices 1:3 and 1:5; a write to 1:3 leaves the block of 1:5 with the
write bit in the type register, and the block of 1:3 no longer sees a character device. -/
theorem not_answersLastMatch : ¬ ∀ rules : List DeviceRule, (∀ r ∈ rules, r.Accepted ∧ r.Small) →
    ∀ q, AnswersLastMatch rules q := by
  intro h
  set rules : List DeviceRule := [⟨true, "c", "rw", 1, 3⟩, ⟨true, "c", "rw", 1, 5⟩] with hrules
  have hacc : ∀ r ∈ rules, r.Accepted ∧ r.Small := by decide
  have heq := (answersLastMatch_iff hacc ⟨2, 4, 1, 3⟩).mp (h rules hacc _)
  revert heq
  decide

end Cgroup
