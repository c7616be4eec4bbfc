import XdxContainer.Cgroup.Layout

/-!
# Cgroup/Labels — the labels of a generated program lead forward

    init │ block-0: test test ret │ block-1: test ret │ … │ block-k: first original instruction …
                     └────┴──────────▲          └────────────▲

What `PrependDeviceFilter` returns, before the labels are resolved.  A test of a block refers to the
label of the next one, and that label is at one place only: the first instruction of the next block,
or of the original program behind the last one (`Laid.refersTo`).  So the prepended part has no loop
and no way out but an exit and the original program (`prependDeviceFilter_forward`).
-/

open Ebpf

namespace Cgroup

/-! ## The labels of sections -/

section Sections

variable {ss : List (String × List Instruction)}

theorem symbol_of_mem_sections (hss : ∀ s ∈ ss, IsSection s) {i : Instruction}
    (hi : i ∈ sections ss) : i.symbol = "" ∨ i.symbol ∈ ss.map Prod.fst := by
  obtain ⟨s, hs, hi⟩ := List.mem_flatMap.mp hi
  obtain ⟨-, hne, htail⟩ := hss s hs
  obtain ⟨i₀, b, hbody⟩ := List.exists_cons_of_ne_nil hne
  rw [hbody] at hi htail
  rcases List.mem_cons.mp hi with rfl | hb
  · exact .inr (List.mem_map_of_mem hs)
  · exact .inl (htail i hb)

/-- **The label of a section is at its first instruction only.** -/
theorem symbol_eq_iff_of_section (hss : ∀ s ∈ ss, IsSection s) (hnd : (ss.map Prod.fst).Nodup)
    {ini : List Instruction} (hini : ∀ i ∈ ini, i.symbol = "")
    {pre post : List (String × List Instruction)} {s : String × List Instruction}
    (hsplit : ss = pre ++ s :: post) {m : ℕ} {i : Instruction}
    (hi : (ini ++ sections ss)[m]? = some i) :
    i.symbol = s.1 ↔ m = (ini ++ sections pre).length := by
  subst hsplit
  obtain ⟨hname, hne, htail⟩ := hss s (by simp)
  obtain ⟨i₀, b, hbody⟩ := List.exists_cons_of_ne_nil hne
  rw [hbody] at htail
  have hlist : ini ++ sections (pre ++ s :: post)
      = (ini ++ sections pre) ++ i₀.sym s.1 :: (b ++ sections post) := by
    rw [sections, List.flatMap_append, List.flatMap_cons, hbody, List.append_assoc]
    rfl
  rw [List.map_append, List.map_cons, List.nodup_append] at hnd
  obtain ⟨-, hback, hdisj⟩ := hnd
  rw [hlist] at hi
  constructor
  · intro hsym
    rcases Nat.lt_or_ge m (ini ++ sections pre).length with hlt | hge
    · -- in front of the section the labels are others
      rw [List.getElem?_append_left hlt] at hi
      rcases List.mem_append.mp (List.mem_of_getElem? hi) with hmem | hmem
      · exact absurd (hsym.symm.trans (hini i hmem)) hname
      · rcases symbol_of_mem_sections (fun s' hs' => hss s' (by simp [hs'])) hmem with h | h
        · exact absurd (hsym.symm.trans h) hname
        · exact absurd hsym (hdisj _ h s.1 List.mem_cons_self)
    · obtain ⟨k, rfl⟩ := Nat.exists_eq_add_of_le hge
      rw [List.getElem?_append_right hge, Nat.add_sub_cancel_left] at hi
      rcases k with _ | k
      · rfl
      · -- and so they are behind its first instruction
        rw [List.getElem?_cons_succ] at hi
        rcases List.mem_append.mp (List.mem_of_getElem? hi) with hmem | hmem
        · exact absurd (hsym.symm.trans (htail i hmem)) hname
        · rcases symbol_of_mem_sections (fun s' hs' => hss s' (by simp [hs'])) hmem with h | h
          · exact absurd (hsym.symm.trans h) hname
          · exact absurd (hsym ▸ h) (List.nodup_cons.mp hback).1
  · rintro rfl
    rw [List.getElem?_append_right (Nat.le_refl _), Nat.sub_self, List.getElem?_cons_zero] at hi
    rw [← Option.some.inj hi]
    rfl

end Sections

/-! ## The blocks in the program -/

/-- Where a block starts, behind the five loads and the blocks before it; behind the last block the
original program does. -/
def blockStart (bs : List Block) (t : ℕ) : ℕ :=
  5 + ((bs.take t).flatMap fun b => b.insts "").length

theorem length_insts (b : Block) (next : String) : (b.insts next).length = (b.insts "").length := by
  have htest : ∀ t : Test, (t.insts next).length = (t.insts "").length := by
    intro t
    cases t <;> rfl
  rw [Block.insts, Block.insts, List.length_append, List.length_append, List.length_flatMap,
    List.length_flatMap]
  congr 2
  exact List.map_congr_left fun t _ => htest t

theorem blockStart_succ {bs : List Block} {t : ℕ} {b : Block} (h : bs[t]? = some b) :
    blockStart bs (t + 1) = blockStart bs t + (b.insts "").length := by
  rw [blockStart, blockStart, List.take_add_one, h, Option.toList_some, List.flatMap_append,
    List.length_append, List.flatMap_singleton, Nat.add_assoc]

/-- The block a position is in. -/
theorem exists_block {bs : List Block} {j : ℕ} (hlow : 5 ≤ j)
    (hhigh : j < blockStart bs bs.length) :
    ∃ t b, bs[t]? = some b ∧ blockStart bs t ≤ j ∧ j < blockStart bs (t + 1) := by
  have hfind : ∀ n, n ≤ bs.length → j < blockStart bs n →
      ∃ t b, bs[t]? = some b ∧ blockStart bs t ≤ j ∧ j < blockStart bs (t + 1) := by
    intro n
    induction n with
    | zero =>
      intro _ hj
      rw [blockStart, List.take_zero, List.flatMap_nil, List.length_nil] at hj
      omega
    | succ n ih =>
      intro hn hj
      rcases Nat.lt_or_ge j (blockStart bs n) with hlt | hge
      · exact ih (Nat.le_of_succ_le hn) hlt
      · exact ⟨n, bs[n], List.getElem?_eq_getElem hn, hge, hj⟩
  exact hfind bs.length (Nat.le_refl _) hhigh

/-- The sections before a block, that of the block, and that of what comes behind it. -/
theorem chain_split (labelPrefix : String) (orig : List Instruction) {bs : List Block} (k : ℕ)
    {t : ℕ} {b : Block} (h : bs[t]? = some b) :
    ∃ pre body post, chain labelPrefix orig k bs
        = pre ++ (blockSym labelPrefix (k + t : ℕ), b.insts (blockSym labelPrefix (k + t + 1 : ℕ)))
          :: (blockSym labelPrefix (k + t + 1 : ℕ), body) :: post
      ∧ (sections pre).length = ((bs.take t).flatMap fun b => b.insts "").length := by
  induction bs generalizing k t with
  | nil => cases h
  | cons b₀ bs ih =>
    rcases t with _ | t
    · obtain rfl := Option.some.inj h
      obtain ⟨body, post, hrest⟩ := chain_eq_cons labelPrefix orig (k + 1) bs
      exact ⟨[], body, post, by rw [chain, hrest]; rfl, rfl⟩
    · obtain ⟨pre, body, post, hchain, hlen⟩ := ih (k + 1) (t := t) h
      refine ⟨(blockSym labelPrefix k, b₀.insts (blockSym labelPrefix (k + 1 : ℕ))) :: pre, body,
        post, ?_, ?_⟩
      · rw [chain, hchain, List.cons_append, Nat.add_right_comm k 1 t]
        rfl
      · rw [sections, List.flatMap_cons, List.length_append, List.take_succ_cons,
          List.flatMap_cons, List.length_append, ← hlen, setSym, List.length_modify, length_insts]
        rfl

/-! ## What the generator returns -/

/-- The blocks and the original program are where they start, with their labels. -/
structure Laid (labelPrefix : String) (bs : List Block) (orig insts : List Instruction) : Prop where
  block : ∀ t b, bs[t]? = some b → (insts.drop (blockStart bs t)).take (b.insts "").length
    = setSym (b.insts (blockSym labelPrefix (t + 1 : ℕ))) 0 (blockSym labelPrefix t)
  original : insts.drop (blockStart bs bs.length) = setSym orig 0 (blockSym labelPrefix bs.length)

/-- The label of `i` is at one place. -/
def RefersTo (insts : List Instruction) (i : Instruction) (target : ℕ) : Prop :=
  i.reference ≠ "" ∧ target < insts.length
    ∧ ∀ m i', insts[m]? = some i' → (i'.symbol = i.reference ↔ m = target)

/-- What follows an instruction: the next one, and where a jump has its label. -/
inductive Leads (insts : List Instruction) : ℕ → ℕ → Prop
  | on {j i} (hi : insts[j]? = some i) (hexit : i.insn ≠ .exit) (hja : ∀ off, i.insn ≠ .ja off) :
      Leads insts j (j + 1)
  | jump {j m i i'} (hi : insts[j]? = some i) (hjump : jumpOff i.insn ≠ none)
      (hi' : insts[m]? = some i') (hlabel : i'.symbol = i.reference) : Leads insts j m

/-- Every path ends, at an exit or at `n`. -/
inductive Ends (insts : List Instruction) (n : ℕ) : ℕ → Prop
  | there : Ends insts n n
  | exit {j i} (hi : insts[j]? = some i) (hexit : i.insn = .exit) : Ends insts n j
  | step {j j'} (h : Leads insts j j') (hall : ∀ m, Leads insts j m → Ends insts n m) :
      Ends insts n j

section Generated

variable {labelPrefix : String} {bs : List Block} {orig insts : List Instruction}

/-- The loads of `init`. -/
def initInsts : List Instruction := ({} : Program).init.insts

/-- **The generator returns the loads and the chain of the blocks.** -/
theorem prependDeviceFilter_ok {rules : List DeviceRule}
    (hok : prependDeviceFilter labelPrefix rules orig = .ok insts) :
    orig ≠ []
      ∧ insts = initInsts ++ sections (chain labelPrefix orig 0 (blocks rules.reverse)) := by
  obtain ⟨p, happ, hfin⟩ := Except.bind_eq_ok hok
  obtain ⟨hacc, happ'⟩ := accepted_of_appendDevices_eq_ok (k := 0) happ
  obtain ⟨w, hw⟩ := appendDevices_eq labelPrefix hacc initInsts 0
  rw [blocks_tested] at hw
  obtain rfl := Except.ok.inj (hw.symm.trans happ')
  rw [Program.finalize] at hfin
  split_ifs at hfin with horig
  refine ⟨horig, ?_⟩
  rw [← Except.ok.inj hfin, setSym_append, sections_chain, List.append_assoc]

/-- A generated instruction does not jump and refers to nothing, or it tests and refers to the next
block. -/
theorem insts_cases {b : Block} {next : String} {i : Instruction} (hi : i ∈ b.insts next) :
    (i.insn = .exit ∨ i.insn ≠ .exit ∧ ∀ off, i.insn ≠ .ja off)
      ∧ (jumpOff i.insn = none ∧ i.reference = ""
        ∨ jumpOff i.insn ≠ none ∧ i.reference = next) := by
  have hjump : ∀ c dst v, i = Asm.jumpImm c dst v next →
      (i.insn = .exit ∨ i.insn ≠ .exit ∧ ∀ off, i.insn ≠ .ja off)
        ∧ (jumpOff i.insn = none ∧ i.reference = ""
          ∨ jumpOff i.insn ≠ none ∧ i.reference = next) := by
    rintro c dst v rfl
    exact ⟨.inr ⟨by simp [Asm.jumpImm], by simp [Asm.jumpImm]⟩,
      .inr ⟨by simp [Asm.jumpImm, jumpOff], rfl⟩⟩
  rw [Block.insts, List.mem_append, List.mem_flatMap] at hi
  rcases hi with ⟨t, -, ht⟩ | hi
  · rcases t with v | v | v | v <;>
      simp only [Test.insts, List.mem_cons, List.not_mem_nil, or_false] at ht
    · exact hjump _ _ _ ht
    · rcases ht with rfl | rfl | ht
      · exact ⟨.inr ⟨by simp [Asm.movReg32], by simp [Asm.movReg32]⟩, .inl ⟨rfl, rfl⟩⟩
      · exact ⟨.inr ⟨by simp [Asm.andImm32], by simp [Asm.andImm32]⟩, .inl ⟨rfl, rfl⟩⟩
      · exact hjump _ _ _ ht
    · exact hjump _ _ _ ht
    · exact hjump _ _ _ ht
  · simp only [acceptBlock, List.mem_cons, List.not_mem_nil, or_false] at hi
    rcases hi with rfl | rfl
    · exact ⟨.inr ⟨by simp [Asm.movImm32], by simp [Asm.movImm32]⟩, .inl ⟨rfl, rfl⟩⟩
    · exact ⟨.inl rfl, .inl ⟨rfl, rfl⟩⟩

theorem mem_setSym {l : List Instruction} (name : String) {i : Instruction}
    (hi : i ∈ setSym l 0 name) : ∃ i₀ ∈ l, i.insn = i₀.insn ∧ i.reference = i₀.reference := by
  rcases l with _ | ⟨i₀, l⟩
  · cases hi
  · rcases List.mem_cons.mp hi with rfl | hmem
    · exact ⟨i₀, List.mem_cons_self, rfl, rfl⟩
    · exact ⟨i, List.mem_cons_of_mem _ hmem, rfl, rfl⟩

theorem length_blockSections (bs : List Block) (k : ℕ) :
    (sections (blockSections labelPrefix k bs)).length
      = (bs.flatMap fun b => b.insts "").length := by
  induction bs generalizing k with
  | nil => rfl
  | cons b bs ih =>
    have hih := ih (k + 1)
    rw [sections] at hih
    rw [blockSections, sections, List.flatMap_cons, List.length_append, hih, setSym,
      List.length_modify, length_insts, List.flatMap_cons, List.length_append]

/-- **The blocks and the original program are where they start.** -/
theorem laid_chain (labelPrefix : String) (bs : List Block) (orig : List Instruction) :
    Laid labelPrefix bs orig (initInsts ++ sections (chain labelPrefix orig 0 bs)) where
  block := by
    intro t b hb
    obtain ⟨pre, body, post, hchain, hlen⟩ := chain_split labelPrefix orig 0 hb
    have hstart : (initInsts ++ sections pre).length = blockStart bs t := by
      rw [List.length_append, hlen]
      rfl
    have hblock : (setSym (b.insts (blockSym labelPrefix (0 + t + 1 : ℕ))) 0
        (blockSym labelPrefix (0 + t : ℕ))).length = (b.insts "").length := by
      rw [setSym, List.length_modify, length_insts]
    rw [hchain, sections, List.flatMap_append, ← sections, ← List.append_assoc,
      List.drop_left' hstart, List.flatMap_cons, List.take_left' hblock, Nat.zero_add]
  original := by
    have hstart : (initInsts ++ sections (blockSections labelPrefix 0 bs)).length
        = blockStart bs bs.length := by
      rw [List.length_append, length_blockSections, blockStart, List.take_length]
      rfl
    rw [sections_chain, ← List.append_assoc, List.drop_left' hstart, Nat.zero_add]

/-- An instruction behind the loads and before the original program is one of a block. -/
theorem exists_block_insts {j : ℕ} {i : Instruction} (hlow : 5 ≤ j)
    (hj : j < blockStart bs bs.length)
    (hi : (initInsts ++ sections (chain labelPrefix orig 0 bs))[j]? = some i) :
    ∃ t b, bs[t]? = some b ∧ blockStart bs t ≤ j ∧ j < blockStart bs (t + 1)
      ∧ ∃ i₀ ∈ b.insts (blockSym labelPrefix (t + 1 : ℕ)),
        i.insn = i₀.insn ∧ i.reference = i₀.reference := by
  obtain ⟨t, b, hb, hge, hlt⟩ := exists_block hlow hj
  refine ⟨t, b, hb, hge, hlt, mem_setSym (blockSym labelPrefix t) ?_⟩
  rw [← (laid_chain labelPrefix bs orig).block t b hb]
  rw [blockStart_succ hb] at hlt
  refine List.mem_of_getElem? (i := j - blockStart bs t) ?_
  rw [List.getElem?_take_of_lt (by omega), List.getElem?_drop, Nat.add_sub_cancel' hge, hi]

theorem of_mem_initInsts {i : Instruction} (hi : i ∈ initInsts) :
    i.symbol = "" ∧ i.reference = "" ∧ jumpOff i.insn = none ∧ i.insn ≠ .exit
      ∧ ∀ off, i.insn ≠ .ja off := by
  simp only [initInsts, Program.init, List.nil_append, List.mem_cons, List.not_mem_nil,
    or_false] at hi
  rcases hi with rfl | rfl | rfl | rfl | rfl
  all_goals
    exact ⟨rfl, rfl, rfl, by simp [Asm.loadMem, Asm.rshImm32], by simp [Asm.loadMem, Asm.rshImm32]⟩

/-- What an instruction of the prepended part is: a load, or one of a block. -/
theorem load_or_block {j : ℕ} {i : Instruction} (hj : j < blockStart bs bs.length)
    (hi : (initInsts ++ sections (chain labelPrefix orig 0 bs))[j]? = some i) :
    i ∈ initInsts ∨ ∃ t b, bs[t]? = some b ∧ blockStart bs t ≤ j ∧ j < blockStart bs (t + 1)
      ∧ ∃ i₀ ∈ b.insts (blockSym labelPrefix (t + 1 : ℕ)),
        i.insn = i₀.insn ∧ i.reference = i₀.reference := by
  rcases Nat.lt_or_ge j initInsts.length with hlt | hge
  · rw [List.getElem?_append_left hlt] at hi
    exact .inl (List.mem_of_getElem? hi)
  · exact .inr (exists_block_insts hge hj hi)

/-- **A jump of a block refers to the start of the next one**, or of the original program. -/
theorem refersTo_next (horig : orig ≠ []) (hsym : ∀ i ∈ orig.tail, i.symbol = "") {j : ℕ}
    {i : Instruction} (hj : j < blockStart bs bs.length)
    (hi : (initInsts ++ sections (chain labelPrefix orig 0 bs))[j]? = some i)
    (hjump : jumpOff i.insn ≠ none) :
    ∃ t, t < bs.length ∧ blockStart bs t ≤ j ∧ j < blockStart bs (t + 1)
      ∧ RefersTo (initInsts ++ sections (chain labelPrefix orig 0 bs)) i
        (blockStart bs (t + 1)) := by
  obtain hload | ⟨t, b, hb, hge, hlt, i₀, hi₀, hinsn, href⟩ := load_or_block hj hi
  · exact absurd (of_mem_initInsts hload).2.2.1 hjump
  have hname : i.reference = blockSym labelPrefix (t + 1 : ℕ) := by
    rw [hinsn] at hjump
    rcases (insts_cases hi₀).2 with ⟨hno, -⟩ | ⟨-, hnext⟩
    · exact absurd hno hjump
    · exact href.trans hnext
  obtain ⟨pre, body, post, hchain, hlen⟩ := chain_split labelPrefix orig 0 hb
  rw [Nat.zero_add, List.append_cons] at hchain
  have hsec : ∀ s ∈ chain labelPrefix orig 0 bs, IsSection s := fun s hs =>
    isSection_of_mem_chain horig hsym hs
  have hstart : (initInsts ++ sections (pre ++ [(blockSym labelPrefix t,
      b.insts (blockSym labelPrefix (t + 1 : ℕ)))])).length = blockStart bs (t + 1) := by
    rw [blockStart_succ hb, List.length_append, sections, List.flatMap_append, List.length_append,
      ← sections, hlen, List.flatMap_singleton, setSym, List.length_modify, length_insts,
      ← Nat.add_assoc]
    rfl
  refine ⟨t, (List.getElem?_eq_some_iff.mp hb).1, hge, hlt, ?_, ?_, fun m i' hi' => ?_⟩
  · rw [hname]
    exact blockSym_ne_empty _ _
  · have hbody : body ≠ [] := (hsec (blockSym labelPrefix (t + 1 : ℕ), body) (by simp [hchain])).2.1
    have hpos : 0 < body.length := List.length_pos_iff.mpr hbody
    rw [hchain, sections, List.flatMap_append, ← sections, ← List.append_assoc, List.length_append,
      hstart, List.flatMap_cons, List.length_append, setSym, List.length_modify]
    exact Nat.lt_add_of_pos_right (Nat.add_pos_left hpos _)
  · rw [hname, ← hstart]
    exact symbol_eq_iff_of_section hsec (nodup_chain labelPrefix orig bs 0)
      (fun i hi => (of_mem_initInsts hi).1) hchain hi'

theorem blockStart_le {t n : ℕ} (h : t ≤ n) : blockStart bs t ≤ blockStart bs n := by
  obtain ⟨rest, hrest⟩ : bs.take t <+: bs.take n := List.take_prefix_take_left h
  rw [blockStart, blockStart, ← hrest, List.flatMap_append, List.length_append]
  omega

/-- What an instruction of the prepended part does: it ends the path or leads on. -/
theorem exit_or_on {j : ℕ} {i : Instruction} (hj : j < blockStart bs bs.length)
    (hi : (initInsts ++ sections (chain labelPrefix orig 0 bs))[j]? = some i) :
    i.insn = .exit ∨ i.insn ≠ .exit ∧ ∀ off, i.insn ≠ .ja off := by
  obtain hload | ⟨t, b, -, -, -, i₀, hi₀, hinsn, -⟩ := load_or_block hj hi
  · exact .inr (of_mem_initInsts hload).2.2.2
  · rw [hinsn]
    exact (insts_cases hi₀).1

/-- A label is referred to by jumps only, and by none of the original program. -/
theorem jumpOff_of_reference (horig : ∀ i ∈ orig, i.reference = "") {j : ℕ} {i : Instruction}
    (hi : (initInsts ++ sections (chain labelPrefix orig 0 bs))[j]? = some i)
    (href : i.reference ≠ "") : j < blockStart bs bs.length ∧ jumpOff i.insn ≠ none := by
  rcases Nat.lt_or_ge j (blockStart bs bs.length) with hlt | hge
  · refine ⟨hlt, ?_⟩
    obtain hload | ⟨t, b, -, -, -, i₀, hi₀, hinsn, href₀⟩ := load_or_block hlt hi
    · exact absurd (of_mem_initInsts hload).2.1 href
    · rw [href₀] at href
      rw [hinsn]
      rcases (insts_cases hi₀).2 with ⟨-, hno⟩ | ⟨hjump, -⟩
      · exact absurd hno href
      · exact hjump
  · have hdrop : (initInsts ++ sections (chain labelPrefix orig 0 bs)).drop
        (blockStart bs bs.length) = setSym orig 0 (blockSym labelPrefix bs.length) :=
      (laid_chain labelPrefix bs orig).original
    obtain ⟨k, rfl⟩ := Nat.exists_eq_add_of_le hge
    rw [← List.getElem?_drop, hdrop] at hi
    obtain ⟨i₀, hi₀, -, href₀⟩ := mem_setSym _ (List.mem_of_getElem? hi)
    exact absurd (href₀.trans (horig i₀ hi₀)) href

/-- **Every path through the blocks ends**, by induction on how far the original program is. -/
theorem ends_of_le (horig : orig ≠ []) (hsym : ∀ i ∈ orig.tail, i.symbol = "") {j : ℕ}
    (hj : j ≤ blockStart bs bs.length) :
    Ends (initInsts ++ sections (chain labelPrefix orig 0 bs)) (blockStart bs bs.length) j := by
  set insts := initInsts ++ sections (chain labelPrefix orig 0 bs) with hinsts
  have hlen : blockStart bs bs.length ≤ insts.length := by
    have hdrop := congrArg List.length (laid_chain labelPrefix bs orig).original
    have hpos : 0 < orig.length := List.length_pos_iff.mpr horig
    rw [List.length_drop, setSym, List.length_modify, ← hinsts] at hdrop
    omega
  induction hd : blockStart bs bs.length - j using Nat.strongRecOn generalizing j with
  | ind d ih =>
    rcases Nat.eq_or_lt_of_le hj with rfl | hlt
    · exact .there
    obtain ⟨i, hi⟩ : ∃ i, insts[j]? = some i := ⟨_, List.getElem?_eq_getElem (by omega)⟩
    rcases exit_or_on hlt hi with hexit | ⟨hexit, hja⟩
    · exact .exit hi hexit
    · refine .step (.on hi hexit hja) ?_
      rintro m (⟨hi', -, -⟩ | ⟨hi', hjump, him, hlabel⟩)
      · exact ih _ (by omega) hlt rfl
      · obtain rfl := Option.some.inj (hi.symm.trans hi')
        obtain ⟨t, ht, -, hbehind, -, -, hplace⟩ := refersTo_next horig hsym hlt hi hjump
        obtain rfl := (hplace m _ him).mp hlabel
        have hle : blockStart bs (t + 1) ≤ blockStart bs bs.length := blockStart_le ht
        exact ih _ (by omega) hle rfl

end Generated

/-- **The labels of a generated program lead forward.**  A jump of the prepended part is in a block
and refers to the start of the next one, or of the original program behind the last one, and to
nothing else; nothing else refers to a label, unless the original program did; and every path
through the prepended part ends at an exit or at the original program. -/
theorem prependDeviceFilter_forward {labelPrefix : String} {rules : List DeviceRule}
    {orig insts : List Instruction} (hsym : ∀ i ∈ orig.tail, i.symbol = "")
    (hok : prependDeviceFilter labelPrefix rules orig = .ok insts) :
    ∃ bs n, bs = blocks rules.reverse ∧ n = blockStart bs bs.length
      ∧ Laid labelPrefix bs orig insts
      ∧ (∀ j i, j < n → insts[j]? = some i → jumpOff i.insn ≠ none →
        ∃ t, t < bs.length ∧ blockStart bs t ≤ j ∧ j < blockStart bs (t + 1)
          ∧ RefersTo insts i (blockStart bs (t + 1)))
      ∧ ((∀ i ∈ orig, i.reference = "") → ∀ j i, insts[j]? = some i → i.reference ≠ "" →
        j < n ∧ jumpOff i.insn ≠ none)
      ∧ ∀ j, j ≤ n → Ends insts n j := by
  obtain ⟨horig, rfl⟩ := prependDeviceFilter_ok hok
  refine ⟨_, _, rfl, rfl, laid_chain labelPrefix _ orig, ?_, ?_, ?_⟩
  · exact fun j i hj hi hjump => refersTo_next horig hsym hj hi hjump
  · exact fun hno j i hi href => jumpOff_of_reference hno hi href
  · exact fun j hj => ends_of_le horig hsym hj

/-- A wildcard rule before another, and an original program that denies. -/
theorem prependDeviceFilter_forward_wildcard :
    ∃ insts, prependDeviceFilter "p" [⟨true, "c", "rw", 195, 0⟩, ⟨false, "a", "rwm", -1, -1⟩]
        (acceptBlock false) = .ok insts
      ∧ ∀ j, j ≤ 7 → Ends insts 7 j := by
  obtain ⟨insts, hok⟩ : ∃ insts, prependDeviceFilter "p"
      [⟨true, "c", "rw", 195, 0⟩, ⟨false, "a", "rwm", -1, -1⟩] (acceptBlock false) = .ok insts :=
    ⟨_, rfl⟩
  obtain ⟨bs, n, rfl, rfl, -, -, -, hends⟩ := prependDeviceFilter_forward
    (by intro i hi; rw [List.mem_singleton.mp hi]; rfl) hok
  exact ⟨insts, hok, hends⟩

end Cgroup
