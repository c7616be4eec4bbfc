import XdxContainer.Ebpf.Machine
import XdxContainer.Data.Except

/-!
# Ebpf/Exec — how runs compose: determinism, steps taken first, more registers, a prefix in front

* `Reaches.halts_iff` — steps taken first do not change how a run ends.
* `Returns.behind` — a program put behind a prefix, entered with at least its own registers, returns
  what it returned alone.
* `loadLE_storeLE` — a load from a stored word.

The second is what makes prepending code sound: the prefix may scratch any register the old program
does not expect, and the old program's own jumps are relative.
-/

namespace Ebpf

variable {rt : Runtime} {p : List Insn} {s s' t : State} {h h' : Halt} {v v' : BitVec 64}

/-! ## Ends of runs -/

/-- One step, and the rest of the run. -/
theorem run_succ_of_ok (hs : step rt p s = .ok s') (n : ℕ) :
    run rt p (n + 1) s = run rt p n s' := by
  rw [run, hs]

theorem run_succ_of_error (hs : step rt p s = .error h) (n : ℕ) :
    run rt p (n + 1) s = some h := by
  rw [run, hs]

/-- More fuel does not change how a run ended. -/
theorem run_add {n : ℕ} (hr : run rt p n s = some h) (k : ℕ) : run rt p (n + k) s = some h := by
  induction n generalizing s with
  | zero => simp [run] at hr
  | succ n ih =>
    rw [show n + 1 + k = n + k + 1 by omega]
    cases hs : step rt p s with
    | ok s' => rw [run_succ_of_ok hs] at hr ⊢; exact ih hr
    | error e => rw [run_succ_of_error hs] at hr ⊢; exact hr

/-- **A run ends in one way.** -/
theorem Halts.unique (h₁ : Halts rt p s h) (h₂ : Halts rt p s h') : h = h' := by
  obtain ⟨n, hn⟩ := h₁
  obtain ⟨k, hk⟩ := h₂
  have e₁ := run_add hn k
  rw [Nat.add_comm, run_add hk n] at e₁
  exact (Option.some.inj e₁).symm

/-- A program returns one value. -/
theorem Returns.unique (h₁ : Returns rt p s v) (h₂ : Returns rt p s v') : v = v' := by
  have := Halts.unique h₁ h₂
  injection this

theorem halts_of_error (hs : step rt p s = .error h) : Halts rt p s h :=
  ⟨1, run_succ_of_error hs 0⟩

/-- A step does not change how the run ends. -/
theorem halts_iff_of_ok (hs : step rt p s = .ok s') : Halts rt p s h ↔ Halts rt p s' h := by
  constructor
  · rintro ⟨n, hn⟩
    cases n with
    | zero => simp [run] at hn
    | succ n => exact ⟨n, by rwa [run_succ_of_ok hs] at hn⟩
  · rintro ⟨n, hn⟩
    exact ⟨n + 1, by rwa [run_succ_of_ok hs]⟩

/-- **Steps taken first do not change how a run ends.** -/
theorem Reaches.halts_iff (hr : Reaches rt p s s') : Halts rt p s h ↔ Halts rt p s' h := by
  induction hr with
  | refl => exact Iff.rfl
  | tail _ hs ih => exact ih.trans (halts_iff_of_ok hs)

/-- What is returned from a state that is reached is returned. -/
theorem Reaches.returns (hr : Reaches rt p s s') (hv : Returns rt p s' v) : Returns rt p s v :=
  hr.halts_iff.mpr hv

/-- No step at all. -/
theorem Reaches.refl (s : State) : Reaches rt p s s := Relation.ReflTransGen.refl

/-- One step. -/
theorem Reaches.single (hs : step rt p s = .ok s') : Reaches rt p s s' :=
  Relation.ReflTransGen.single hs

/-- One run behind another. -/
theorem Reaches.trans (h₁ : Reaches rt p s s') (h₂ : Reaches rt p s' t) : Reaches rt p s t :=
  Relation.ReflTransGen.trans h₁ h₂

/-! ## A prefix in front, more registers set

One relation carries both: `s'` stands `n` slots further and knows every register `s` knows. -/

/-- `s'` is `s` moved `n` slots on, with possibly more registers set. -/
structure Behind (n : ℕ) (s s' : State) : Prop where
  regs : ∀ r v, s.regs r = some v → s'.regs r = some v
  mem : s'.mem = s.mem
  pc : s'.pc = n + s.pc

section Behind

variable {n : ℕ}

/-- A register that can be read has the same value. -/
theorem Behind.read (hb : Behind n s s') {r : Reg} (hr : s.read r = .ok v) : s'.read r = .ok v := by
  cases hs : s.regs r with
  | none => simp [State.read, hs] at hr
  | some w =>
    rw [State.read_of_regs hs] at hr
    rw [State.read_of_regs (hb.regs r w hs), hr]

/-- An operand has the same value. -/
theorem Behind.operand (hb : Behind n s s') {o : Operand} (ho : s.operand o = .ok v) :
    s'.operand o = .ok v := by
  cases o with
  | reg r => exact hb.read ho
  | imm w => exact ho

/-- The left side of an operation has the same value. -/
theorem Behind.left (hb : Behind n s s') {op : AluOp} {r : Reg} (ha : s.left op r = .ok v) :
    s'.left op r = .ok v := by
  simp only [State.left] at ha ⊢
  split_ifs at ha ⊢
  · exact ha
  · exact hb.read ha

/-- Several registers, by induction on the list. -/
theorem Behind.mapM_read (hb : Behind n s s') : ∀ {l : List Reg} {vs : List (BitVec 64)},
    l.mapM s.read = .ok vs → l.mapM s'.read = .ok vs
  | [], _, hvs => by simpa using hvs
  | r :: l, vs, hvs => by
      rw [List.mapM_cons] at hvs ⊢
      cases hr : s.read r with
      | error e => simp [hr, bind, Except.bind] at hvs
      | ok w =>
        cases hl : l.mapM s.read with
        | error e => simp [hr, hl, bind, Except.bind] at hvs
        | ok ws =>
          rw [hb.read hr, hb.mapM_read hl]
          simpa [hr, hl, bind, Except.bind] using hvs

/-- Jumps by the same distance. -/
theorem Behind.goto (hb : Behind n s s') (k : ℕ) : Behind n (s.goto k) (s'.goto (n + k)) :=
  ⟨hb.regs, hb.mem, rfl⟩

/-- Writes of the same register. -/
theorem Behind.write (hb : Behind n s s') (r : Reg) (v : BitVec 64) :
    Behind n (s.write r v) (s'.write r v) where
  regs r' w hw := by
    by_cases hr : r' = r
    · simpa [hr] using hw
    · simpa [hr] using hb.regs r' w (by simpa [hr] using hw)
  mem := hb.mem
  pc := hb.pc

theorem Behind.store (hb : Behind n s s') (m : BitVec 64 → BitVec 8) (k : ℕ) :
    Behind n { s with mem := m, pc := k } { s' with mem := m, pc := n + k } :=
  ⟨hb.regs, rfl, rfl⟩

theorem Behind.afterCall (hb : Behind n s s') (v : BitVec 64) (m : BitVec 64 → BitVec 8) :
    Behind n (s.afterCall v m) (s'.afterCall v m) where
  regs r w hw := by
    simp only [State.afterCall] at hw ⊢
    split_ifs at hw ⊢ with h0 hargs
    · exact hw
    · exact hb.regs r w hw
  mem := rfl
  pc := by simp only [State.afterCall, hb.pc]; omega

/-- A jump leads as far behind as it starts. -/
theorem target_behind {pc k : ℕ} {off : BitVec 16} (ht : target pc off = .ok k) :
    target (n + pc) off = .ok (n + k) := by
  simp only [target] at ht ⊢
  split_ifs at ht with hpos
  obtain rfl := Except.ok.inj ht
  rw [if_pos (by push_cast; omega)]
  congr 1
  push_cast
  omega

/-- **An instruction that goes on does the same behind a prefix.** -/
theorem exec_behind (hb : Behind n s s') {i : Insn} (hs : exec rt s i = .ok t) :
    ∃ t', exec rt s' i = .ok t' ∧ Behind n t t' := by
  have hpc : s'.pc + 1 = n + (s.pc + 1) := by rw [hb.pc]; omega
  cases i with
  | alu w op dst src =>
    obtain ⟨b, hb', hs⟩ := Except.bind_eq_ok hs
    obtain ⟨a, ha, hs⟩ := Except.bind_eq_ok hs
    obtain rfl := Except.ok.inj hs
    refine ⟨_, ?_, (hb.write dst (op.eval w a b)).goto (s.pc + 1)⟩
    simp only [exec, hb.operand hb', hb.left ha, hpc, bind, Except.bind, pure, Except.pure]
  | ldx sz dst src off =>
    obtain ⟨a, ha, hs⟩ := Except.bind_eq_ok hs
    obtain rfl := Except.ok.inj hs
    refine ⟨_, ?_, (hb.write dst _).goto (s.pc + 1)⟩
    simp only [exec, hb.read ha, hb.mem, hpc, bind, Except.bind, pure, Except.pure]
  | st sz dst off v =>
    obtain ⟨a, ha, hs⟩ := Except.bind_eq_ok hs
    obtain rfl := Except.ok.inj hs
    refine ⟨_, ?_, hb.store _ (s.pc + 1)⟩
    simp only [exec, hb.read ha, hb.mem, hpc, bind, Except.bind, pure, Except.pure]
  | stx sz dst src off =>
    obtain ⟨a, ha, hs⟩ := Except.bind_eq_ok hs
    obtain ⟨v, hv, hs⟩ := Except.bind_eq_ok hs
    obtain rfl := Except.ok.inj hs
    refine ⟨_, ?_, hb.store _ (s.pc + 1)⟩
    simp only [exec, hb.read ha, hb.read hv, hb.mem, hpc, bind, Except.bind, pure, Except.pure]
  | xadd sz dst src off =>
    obtain ⟨a, ha, hs⟩ := Except.bind_eq_ok hs
    obtain ⟨v, hv, hs⟩ := Except.bind_eq_ok hs
    obtain rfl := Except.ok.inj hs
    refine ⟨_, ?_, hb.store _ (s.pc + 1)⟩
    simp only [exec, hb.read ha, hb.read hv, hb.mem, hpc, bind, Except.bind, pure, Except.pure]
  | lddw dst kind v =>
    obtain rfl := Except.ok.inj hs
    refine ⟨_, ?_, (hb.write dst _).goto (s.pc + 2)⟩
    simp only [exec, hb.pc, Nat.add_assoc]
  | ja off =>
    obtain ⟨k, hk, hs⟩ := Except.bind_eq_ok hs
    obtain rfl := Except.ok.inj hs
    refine ⟨_, ?_, hb.goto k⟩
    simp only [exec, hb.pc, target_behind hk, bind, Except.bind, pure, Except.pure]
  | jmp w c dst src off =>
    obtain ⟨a, ha, hs⟩ := Except.bind_eq_ok hs
    obtain ⟨b, hb', hs⟩ := Except.bind_eq_ok hs
    by_cases hc : c.eval w a b = true
    · rw [if_pos hc] at hs
      obtain ⟨k, hk, hs⟩ := Except.bind_eq_ok hs
      obtain rfl := Except.ok.inj hs
      refine ⟨_, ?_, hb.goto k⟩
      simp only [exec, hb.read ha, hb.operand hb', hb.pc, target_behind hk, hc, if_true, bind,
        Except.bind, pure, Except.pure]
    · rw [if_neg hc] at hs
      obtain rfl := Except.ok.inj hs
      refine ⟨_, ?_, hb.goto (s.pc + 1)⟩
      simp only [exec, hb.read ha, hb.operand hb', hpc, hc, bind, Except.bind, pure, Except.pure]
      rfl
  | call fn =>
    obtain ⟨args, hargs, hs⟩ := Except.bind_eq_ok hs
    obtain rfl := Except.ok.inj hs
    refine ⟨_, ?_, hb.afterCall _ _⟩
    simp only [exec, hb.mapM_read hargs, hb.mem, bind, Except.bind, pure, Except.pure]
  | exit =>
    obtain ⟨v, hv, hs⟩ := Except.bind_eq_ok hs
    cases hs

/-! Only `exit` ends a run with a value: every other instruction fails, if at all, with a fault. -/

/-- A computation that does not end the run with a value. -/
def NoExit {α : Type} (x : Except Halt α) : Prop := ∀ v, x ≠ .error (.exited v)

theorem NoExit.ok {α : Type} (a : α) : NoExit (.ok a) := by simp [NoExit]

/-- A sequence of which no part exits. -/
theorem NoExit.bind {α β : Type} {x : Except Halt α} {f : α → Except Halt β} (hx : NoExit x)
    (hf : ∀ a, NoExit (f a)) : NoExit (x >>= f) := by
  cases x with
  | error e => exact fun v hv => hx v (by cases hv; rfl)
  | ok a => exact hf a

theorem NoExit.read (s : State) (r : Reg) : NoExit (s.read r) := by
  intro v
  simp only [State.read]
  split <;> simp

theorem NoExit.operand (s : State) (o : Operand) : NoExit (s.operand o) := by
  cases o with
  | reg r => exact NoExit.read s r
  | imm v => exact NoExit.ok _

theorem NoExit.left (s : State) (op : AluOp) (r : Reg) : NoExit (s.left op r) := by
  simp only [State.left]
  split
  · exact NoExit.ok _
  · exact NoExit.read s r

theorem NoExit.target (pc : ℕ) (off : BitVec 16) : NoExit (target pc off) := by
  intro v
  simp only [Ebpf.target]
  split <;> simp

theorem NoExit.mapM_read (s : State) : ∀ l : List Reg, NoExit (l.mapM s.read)
  | [] => NoExit.ok []
  | r :: l => by
      rw [List.mapM_cons]
      exact (NoExit.read s r).bind fun _ => (NoExit.mapM_read s l).bind fun _ => NoExit.ok _

/-- Only an exit instruction ends a run with a value. -/
theorem exec_noExit {i : Insn} (hi : i ≠ .exit) : NoExit (exec rt s i) := by
  cases i with
  | alu w op dst src =>
    exact (NoExit.operand s src).bind fun _ => (NoExit.left s op dst).bind fun _ => NoExit.ok _
  | ldx sz dst src off => exact (NoExit.read s src).bind fun _ => NoExit.ok _
  | st sz dst off v => exact (NoExit.read s dst).bind fun _ => NoExit.ok _
  | stx sz dst src off =>
    exact (NoExit.read s dst).bind fun _ => (NoExit.read s src).bind fun _ => NoExit.ok _
  | xadd sz dst src off =>
    exact (NoExit.read s dst).bind fun _ => (NoExit.read s src).bind fun _ => NoExit.ok _
  | lddw dst kind v => exact NoExit.ok _
  | ja off => exact (NoExit.target s.pc off).bind fun _ => NoExit.ok _
  | jmp w c dst src off =>
    refine (NoExit.read s dst).bind fun a => (NoExit.operand s src).bind fun b => ?_
    split
    · exact (NoExit.target s.pc off).bind fun _ => NoExit.ok _
    · exact NoExit.ok _
  | call fn => exact (NoExit.mapM_read s _).bind fun _ => NoExit.ok _
  | exit => exact absurd rfl hi

/-- **An instruction that ends the run with a value does so behind a prefix.** -/
theorem exec_exited_behind (hb : Behind n s s') {i : Insn}
    (hs : exec rt s i = .error (.exited v)) : exec rt s' i = .error (.exited v) := by
  by_cases hi : i = .exit
  · subst hi
    cases hr : s.read .r0 with
    | error e =>
      rw [exec, hr] at hs
      exact absurd (hr.trans (show Except.error e = .error (.exited v) by cases hs; rfl))
        (NoExit.read s .r0 v)
    | ok w =>
      rw [exec, hr] at hs
      rw [exec, hb.read hr]
      exact hs
  · exact absurd hs (exec_noExit hi v)

/-- The instruction behind a prefix. -/
theorem fetch_behind (pre : List Insn) (hb : Behind (slots pre) s s') :
    fetch (pre ++ p) s'.pc = fetch p s.pc := by
  rw [hb.pc, fetch_append]

/-- **A program put behind a prefix, entered with at least its own registers, returns what it
returned alone.** -/
theorem Returns.behind (pre : List Insn) (hv : Returns rt p s v) (hb : Behind (slots pre) s s') :
    Returns rt (pre ++ p) s' v := by
  obtain ⟨k, hk⟩ := hv
  induction k generalizing s s' with
  | zero => simp [run] at hk
  | succ k ih =>
    cases hf : fetch p s.pc with
    | none => simp [run, step, hf] at hk
    | some i =>
      cases hs : exec rt s i with
      | error e =>
        have hstep : step rt p s = .error e := by rw [step, hf]; exact hs
        obtain rfl : e = .exited v := Option.some.inj ((run_succ_of_error hstep k).symm.trans hk)
        refine halts_of_error ?_
        rw [step, fetch_behind pre hb, hf]
        exact exec_exited_behind hb hs
      | ok t =>
        have hstep : step rt p s = .ok t := by rw [step, hf]; exact hs
        rw [run_succ_of_ok hstep] at hk
        obtain ⟨t', ht', hb'⟩ := exec_behind hb hs
        have hstep' : step rt (pre ++ p) s' = .ok t' := by
          rw [step, fetch_behind pre hb, hf]
          exact ht'
        exact (halts_iff_of_ok hstep').mpr (ih hb' hk)

end Behind

/-! ## Reading back what was stored -/

/-- The bits of a load are the bits of its bytes. -/
theorem getLsbD_loadLE (m : BitVec 64 → BitVec 8) (a : BitVec 64) (n i : ℕ) :
    (loadLE m a n).getLsbD i
      = (decide (i < 64) && decide (i < 8 * n)
          && (m (a + BitVec.ofNat 64 (i / 8))).getLsbD (i % 8)) := by
  induction n generalizing a i with
  | zero => simp [loadLE]
  | succ n ih =>
    rw [loadLE, BitVec.getLsbD_or, BitVec.getLsbD_setWidth, BitVec.getLsbD_shiftLeft]
    by_cases hi : i < 8
    · have hbyte : i / 8 = 0 ∧ i % 8 = i := by omega
      simp [hi, hbyte, show i < 64 by omega, show i < 8 * (n + 1) by omega]
    · have hbyte : i / 8 = (i - 8) / 8 + 1 ∧ i % 8 = (i - 8) % 8 := by omega
      have haddr : a + 1 + BitVec.ofNat 64 ((i - 8) / 8) = a + BitVec.ofNat 64 (i / 8) := by
        rw [hbyte.1, BitVec.ofNat_add]
        bv_omega
      rw [ih, haddr, ← hbyte.2, BitVec.getLsbD_of_ge _ _ (Nat.le_of_not_lt hi)]
      by_cases hlt : i < 64
      · simp [hi, hlt, show i - 8 < 64 by omega, show i - 8 < 8 * n ↔ i < 8 * (n + 1) by omega]
      · simp [hlt]

/-- A byte of a stored word. -/
theorem storeLE_add {w : ℕ} (m : BitVec 64 → BitVec 8) (a : BitVec 64) (v : BitVec w) {n k : ℕ}
    (hk : k < n) (hn : k < 2 ^ 64) :
    storeLE m a v n (a + BitVec.ofNat 64 k) = (v >>> (8 * k)).setWidth 8 := by
  have hdist : (a + BitVec.ofNat 64 k - a).toNat = k := by
    rw [BitVec.add_comm, BitVec.add_sub_cancel, BitVec.toNat_ofNat, Nat.mod_eq_of_lt hn]
  rw [storeLE, hdist, if_pos hk]

/-- **Reading back a piece of a stored word.** -/
theorem loadLE_storeLE {w : ℕ} (m : BitVec 64 → BitVec 8) (a : BitVec 64) (v : BitVec w)
    {n k j : ℕ} (hkj : k + j ≤ n) (hk : k + 8 ≤ 2 ^ 64) :
    loadLE (storeLE m a v n) (a + BitVec.ofNat 64 k) j
      = ((v >>> (8 * k)).setWidth (8 * j)).setWidth 64 := by
  ext i hi
  rw [← BitVec.getLsbD_eq_getElem, ← BitVec.getLsbD_eq_getElem, getLsbD_loadLE]
  have haddr :
      a + BitVec.ofNat 64 k + BitVec.ofNat 64 (i / 8) = a + BitVec.ofNat 64 (k + i / 8) := by
    rw [BitVec.ofNat_add, BitVec.add_assoc]
  by_cases hij : i < 8 * j
  · rw [haddr, storeLE_add m a v (by omega) (by omega)]
    simp only [hi, hij, decide_true, Bool.true_and, BitVec.getLsbD_setWidth,
      BitVec.getLsbD_ushiftRight, Nat.mod_lt i (by decide : 0 < 8)]
    congr 1
    omega
  · simp [hij]

end Ebpf
