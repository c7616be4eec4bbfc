import XdxContainer.Cgroup.FilterMeaning

/-!
# Cgroup/Grants — which requests a filter lets through by itself

    init │ block │ … │ block ┊ original program
    └──── the prefix, run alone ──exit 1──▸ the request is granted

A prefix that exits with 1 grants the request whatever the original program says.  It does so for an
allow rule that names the device numbers and *one* of the accesses requested: the access test asks
whether request and rule have an access in common.

* `exists_allow_of_grants` — the rule behind a grant.
-/

open Ebpf

namespace Cgroup

/-- The instructions in front of the original program exit with 1 before it is reached. -/
def Grants (h : Host) (prog : List Insn) (orig : Original) (q : Request) : Prop :=
  Answers h (prog.take (prog.length - orig.code.length)) q (verdictWord true)

/-- A program has no instruction behind its last one. -/
theorem step_end {rt : Runtime} {p : List Insn} {s : State} (hpc : s.pc = slots p) :
    step rt p s = .error .badPc := by
  have hfetch : fetch p s.pc = none := by
    have happ := fetch_append p [] 0
    rwa [List.append_nil, Nat.add_zero, ← hpc] at happ
  rw [step, hfetch]

/-- **A filter run alone answers the verdict of its blocks, and nothing when no block passes.** -/
theorem answers_filterCode_iff (rules : List DeviceRule) (h : Host) (q : Request) (v : BitVec 64) :
    Answers h (filterCode rules) q v
      ↔ ∃ a, blockVerdict q (blocks rules.reverse) (q.typ.setWidth 64) = some a
          ∧ v = verdictWord a := by
  have hshort : ∀ b ∈ blocks rules.reverse, slots b.code < 2 ^ 15 := by
    intro b hb
    obtain ⟨r, -, rfl⟩ := mem_blocks hb
    exact slots_block_lt r
  obtain ⟨s', hr, hl, hpc⟩ := reaches_init h q ((blocks rules.reverse).flatMap Block.code ++ [])
  obtain ⟨hsome, hnone⟩ := run_blocks hshort initCode [] hl hpc
  rw [List.append_nil] at hr hsome hnone
  cases hv : blockVerdict q (blocks rules.reverse) (q.typ.setWidth 64) with
  | some a =>
    have hret : Answers h (filterCode rules) q (verdictWord a) := hr.returns (hsome a hv)
    constructor
    · exact fun hans => ⟨a, rfl, Returns.unique hans hret⟩
    · rintro ⟨a', ha', rfl⟩
      rwa [← Option.some.inj ha']
  | none =>
    obtain ⟨y, t, hrt, -, hpct⟩ := hnone hv
    have hend : Halts h.rt (filterCode rules) (h.entry q) .badPc :=
      (hr.trans hrt).halts_iff.mpr (halts_of_error (step_end hpct))
    constructor
    · exact fun hans => nomatch Halts.unique hans hend
    · rintro ⟨a, ha, -⟩
      cases ha

/-- The prefix of a generated program is the filter of its rules. -/
theorem take_generate {labelPrefix : String} {rules : List DeviceRule} {orig : Original}
    {prog : List Insn} (hgen : generate labelPrefix rules orig.insts = .ok prog) :
    (∀ r ∈ tested rules.reverse, r.Accepted) ∧ prog = filterCode rules ++ orig.code
      ∧ prog.take (prog.length - orig.code.length) = filterCode rules := by
  obtain ⟨hacc, hprog⟩ := generate_eq_ok orig.nonempty orig.reference orig.symbol hgen
  change prog = filterCode rules ++ orig.code at hprog
  refine ⟨hacc, hprog, ?_⟩
  rw [hprog, List.length_append, Nat.add_sub_cancel, List.take_left]

/-- **What is granted is answered so**, whatever the original program would say. -/
theorem Grants.answers {labelPrefix : String} {rules : List DeviceRule} {orig : Original}
    {prog : List Insn} (hgen : generate labelPrefix rules orig.insts = .ok prog) {h : Host}
    {q : Request} (hgrant : Grants h prog orig q) : Answers h prog q (verdictWord true) := by
  obtain ⟨-, hprog, htake⟩ := take_generate hgen
  rw [Grants, htake, answers_filterCode_iff] at hgrant
  obtain ⟨a, ha, hword⟩ := hgrant
  rw [hword, hprog]
  refine (answers_blocks (fun b hb => ?_) orig.code).1 a ha
  obtain ⟨r, -, rfl⟩ := mem_blocks hb
  exact slots_block_lt r

/-! ## The rule a verdict comes from -/

/-- What the blocks of some rules leave in `r2`. -/
def leavesAll (q : Request) (rs : List DeviceRule) (x : BitVec 64) : BitVec 64 :=
  rs.foldl (fun x r => r.leaves q x) x

/-- The rule's access test is reached by requests of its type, and overwrites the type. -/
def DeviceRule.Overwrites (r : DeviceRule) (q : Request) : Prop :=
  r.mask ≠ 7 ∧ r.typeMatches q.typ = true

instance (r : DeviceRule) (q : Request) : Decidable (r.Overwrites q) :=
  inferInstanceAs (Decidable (_ ∧ _))

theorem leavesAll_of_not_overwrites {q : Request} {rs : List DeviceRule}
    (h : ∀ r ∈ rs, ¬ r.Overwrites q) : leavesAll q rs (q.typ.setWidth 64) = q.typ.setWidth 64 := by
  induction rs with
  | nil => rfl
  | cons r rs ih =>
    have hleave : r.leaves q (q.typ.setWidth 64) = q.typ.setWidth 64 := by
      rw [DeviceRule.leaves, typeMatches_setWidth, if_neg]
      intro hboth
      obtain ⟨htype, hmask⟩ := Bool.and_eq_true_iff.mp hboth
      exact h r List.mem_cons_self ⟨bne_iff_ne.mp hmask, htype⟩
    rw [leavesAll, List.foldl_cons, hleave]
    exact ih fun r' hr' => h r' (List.mem_cons_of_mem r hr')

/-- **The rule a verdict comes from**, and what it finds in `r2`. -/
theorem exists_rule_of_blockVerdict {rs : List DeviceRule} (hrs : ∀ r ∈ rs, r.Accepted)
    {q : Request} {x : BitVec 64} {a : Bool} (hv : blockVerdict q (blocks rs) x = some a) :
    ∃ pre r post, rs = pre ++ r :: post ∧ r.allow = a ∧ r.restMatches q = true
      ∧ r.typeMatches (leavesAll q pre x) = true := by
  induction rs generalizing x with
  | nil => cases hv
  | cons r rs ih =>
    have hacc := hrs r List.mem_cons_self
    rw [blocks, blockVerdict] at hv
    by_cases hpass : (runTests q r.block.tests x).1 = true
    · rw [if_pos hpass] at hv
      obtain ⟨htype, hrest⟩ := matches_of_passes hacc hpass
      exact ⟨[], r, rs, rfl, Option.some.inj hv, hrest, htype⟩
    · rw [if_neg hpass, if_neg (isEmpty_of_not_passes hpass), (runTests_block hacc q x).2] at hv
      obtain ⟨pre, r', post, rfl, hr'⟩ := ih (fun r' hr' => hrs r' (List.mem_cons_of_mem r hr')) hv
      exact ⟨r :: pre, r', post, rfl, hr'⟩

/-- The rules that are tested come first. -/
theorem tested_prefix (rs : List DeviceRule) : tested rs <+: rs := by
  induction rs with
  | nil => exact List.prefix_rfl
  | cons r rs ih =>
    rw [tested]
    split
    · exact List.prefix_cons_inj r |>.mpr (List.nil_prefix)
    · exact List.prefix_cons_inj r |>.mpr ih

/-- **What the prefix grants, an allow rule names**: the device numbers, an access in common with
those requested, and the device type unless a rule behind it overwrites the type. -/
theorem exists_allow_of_grants {labelPrefix : String} {rules : List DeviceRule} {orig : Original}
    {prog : List Insn} (hgen : generate labelPrefix rules orig.insts = .ok prog) {h : Host}
    {q : Request} (hgrant : Grants h prog orig q) :
    ∃ before r behind, rules = before ++ r :: behind ∧ r.allow = true
      ∧ DeviceRule.numberMatches r.major q.major = true
      ∧ DeviceRule.numberMatches r.minor q.minor = true
      ∧ (r.mask = 7 ∨ q.access &&& r.mask ≠ 0)
      ∧ ((∀ r' ∈ behind, ¬ r'.Overwrites q) → r.typeMatches q.typ = true) := by
  obtain ⟨hacc, -, htake⟩ := take_generate hgen
  rw [Grants, htake, answers_filterCode_iff] at hgrant
  obtain ⟨a, ha, hword⟩ := hgrant
  obtain rfl := verdictWord_inj hword
  rw [← blocks_tested] at ha
  obtain ⟨pre, r, post, hsplit, hallow, hrest, htype⟩ := exists_rule_of_blockVerdict hacc ha
  obtain ⟨tail, htail⟩ := tested_prefix rules.reverse
  have hrules : rules = (post ++ tail).reverse ++ r :: pre.reverse := by
    rw [← List.reverse_reverse rules, ← htail, hsplit]
    simp
  have hmatch := Bool.and_eq_true_iff.mp hrest
  have hnumbers := Bool.and_eq_true_iff.mp hmatch.2
  refine ⟨_, r, _, hrules, hallow, hnumbers.1, hnumbers.2, ?_, ?_⟩
  · simpa [DeviceRule.accessMatches] using hmatch.1
  · intro hkeep
    rw [leavesAll_of_not_overwrites fun r' hr' => hkeep r' (List.mem_reverse.mpr hr'),
      typeMatches_setWidth] at htype
    exact htype

/-- A rule list whose blocks let a request through grants it. -/
theorem grants_of_filterVerdict (rules : List DeviceRule)
    (hrules : ∀ r ∈ rules, r.Accepted ∧ r.Small) (q : Request)
    (hv : filterVerdict rules q = some true) (h : Host) (orig : Original) :
    ∃ prog, generate "" rules orig.insts = .ok prog ∧ Grants h prog orig q := by
  have hgen := generate_original "" (fun r hr => (hrules r hr).1) orig
  obtain ⟨-, -, htake⟩ := take_generate hgen
  refine ⟨_, hgen, ?_⟩
  rw [Grants, htake, answers_filterCode_iff,
    blockVerdict_blocks fun r hr => hrules r (List.mem_reverse.mp hr)]
  exact ⟨true, hv, rfl⟩

/-- A write to the character device 1:3, behind a rule for block devices. -/
theorem exists_allow_of_grants_write :
    ∃ before r behind, ([⟨true, "c", "rw", 1, 3⟩, ⟨false, "b", "r", 1, 3⟩] : List DeviceRule)
        = before ++ r :: behind ∧ r.allow = true
      ∧ DeviceRule.numberMatches r.major 1 = true ∧ DeviceRule.numberMatches r.minor 3 = true
      ∧ (r.mask = 7 ∨ (4 : BitVec 16) &&& r.mask ≠ 0)
      ∧ ((∀ r' ∈ behind, ¬ r'.Overwrites ⟨2, 4, 1, 3⟩) → r.typeMatches (2 : BitVec 16) = true) := by
  obtain ⟨prog, hgen, hgrant⟩ := grants_of_filterVerdict
    [⟨true, "c", "rw", 1, 3⟩, ⟨false, "b", "r", 1, 3⟩] (by decide) ⟨2, 4, 1, 3⟩ (by decide)
    someHost (constProgram false)
  exact exists_allow_of_grants hgen hgrant

/-- A rule for reading lets a request for reading and writing through. -/
theorem grants_more_than_named : ¬ ∀ (labelPrefix : String) (rules : List DeviceRule)
    (orig : Original) (prog : List Insn), generate labelPrefix rules orig.insts = .ok prog →
    ∀ (h : Host) (q : Request), Grants h prog orig q →
    ∃ r ∈ rules, r.allow = true ∧ r.typeMatches q.typ = true
      ∧ DeviceRule.numberMatches r.major q.major = true
      ∧ DeviceRule.numberMatches r.minor q.minor = true ∧ q.access &&& r.mask = q.access := by
  intro hall
  obtain ⟨prog, hgen, hgrant⟩ := grants_of_filterVerdict
    [⟨true, "c", "r", 1, 3⟩] (by decide) ⟨2, 6, 1, 3⟩ (by decide) someHost (constProgram false)
  have hnamed := hall _ _ _ _ hgen _ _ hgrant
  revert hnamed
  decide

end Cgroup
