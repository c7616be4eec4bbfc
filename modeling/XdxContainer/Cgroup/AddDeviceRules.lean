import XdxContainer.Cgroup.FilterMeaning
import Mathlib.Data.List.Perm.Basic

/-!
# Cgroup/AddDeviceRules — replacing the device programs of a cgroup by filtered ones

    attached ──find──▸ readable programs ──generateNewProgram each──▸ new programs
             ──detach every old one, attach every new one──▸ attached'

`AddDeviceRules` of the second cgroup version, its system calls free to succeed or fail at every
step.  The update is not atomic, and `addDeviceRules_perm` says what any run leaves attached: the
programs it could not read, the old ones not yet detached and the new ones already attached.

* `granted_setupRun` — with programs attached, successful updates grant the devices added on top of
  what was granted before.
* `keepsGrants_iff` — an update that only allows revokes nothing and builds no program that returns
  an unset register, unless it starts from no readable program: there it seeds a bare `exit`.
* `denied_after_failure_iff` — what a failed update still denies.
-/

open Ebpf

namespace Cgroup

/-! ## The programs of a cgroup -/

/-- A device program attached to the cgroup; `readable` when no policy keeps this process from
opening it. -/
structure Attached where
  name : String
  code : List Insn
  readable : Bool
  deriving DecidableEq

/-- The kernel grants a request when every attached program returns 1. -/
def Granted (h : Host) (st : List Attached) (q : Request) : Prop :=
  ∀ p ∈ st, Answers h p.code q 1

/-- What the kernel verifier guarantees of a program: on every request it returns, having read no
register but those set at entry and those it wrote. -/
def Attached.Verified (p : Attached) : Prop := ∀ h q, ∃ v, Answers h p.code q v

/-! ## The update -/

/-- The outcome of a `BPF_PROG_QUERY` call. -/
inductive Query
  | found
  | enospc
  | failed (e : String)

/-- The outcomes of the system calls of one update, in the order of the loops that make them, and
the fresh label prefixes.  `fromID` is about failures other than a missing permission, and `load` is
given the program. -/
structure Env where
  openCgroup : Except String Unit
  query : ℕ → Query
  fromID : ℕ → Except String Unit
  info : ℕ → Except String Unit
  instructions : ℕ → Except String Unit
  load : ℕ → List Insn → Except String Unit
  detach : ℕ → Except String Unit
  attach : ℕ → Except String Unit
  uuid : ℕ → String

/-- **What the kernel verifier guarantees of a program that is loaded**: on every request it
returns, having read no register but those set at entry and those it wrote. -/
def Env.Verifies (env : Env) : Prop :=
  ∀ i code, env.load i code = .ok () → ∀ h q, ∃ v, Answers h code q v

/-- `fmt.Errorf` with the cause at the end. -/
def wrap {α : Type} (msg : String) (x : Except String α) : Except String α := x.mapError (msg ++ ·)

/-- Convert the ids to program handles, leaving out those that may not be opened. -/
def openPrograms (env : Env) : List Attached → ℕ → Except String (List Attached)
  | [], _ => .ok []
  | p :: ps, i =>
    if p.readable then do
      wrap "cannot fetch program from id: " (env.fromID i)
      let programs ← openPrograms env ps (i + 1)
      return p :: programs
    else openPrograms env ps (i + 1)

/-- The query loop, the number of tries left. -/
def queryLoop (env : Env) (st : List Attached) : ℕ → ℕ → Except String (List Attached)
  | 0, _ => .error "could not get complete list of CGROUP_DEVICE programs"
  | n + 1, retries =>
    match env.query retries with
    | .enospc => queryLoop env st n (retries + 1)
    | .failed e => .error ("bpf_prog_query(BPF_CGROUP_DEVICE) failed: " ++ e)
    | .found => openPrograms env st 0

/-- `FindAttachedCgroupDeviceFilters`. -/
def findAttachedCgroupDeviceFilters (env : Env) (st : List Attached) :
    Except String (List Attached) := queryLoop env st 10 0

/-- `generateNewProgram`: prepend, resolve the labels, load.  The new program belongs to this
process. -/
def generateNewProgram (env : Env) (i : ℕ) (rules : List DeviceRule) (oldInsts : List Instruction) :
    Except String Attached := do
  let newInsts ←
    wrap "unable to prepend new device filters to the original device filters program: "
      (prependDeviceFilter (env.uuid i) rules oldInsts)
  let code ← wrap "unable to create new device filters program: " (fixupJumpsAndCalls newInsts)
  wrap "unable to create new device filters program: " (env.load i code)
  return { name := "", code := code, readable := true }

/-- The loop that generates a new program from every old one. -/
def generateNewPrograms (env : Env) (rules : List DeviceRule) :
    List Attached → ℕ → Except String (List Attached)
  | [], _ => .ok []
  | p :: ps, i => do
    wrap "unable to get Info() of the original device filters program: " (env.info i)
    wrap "unable to get the instructions of the original device filters program: "
      (env.instructions i)
    let newProg ← wrap "unable to generate new device filter program from existing programs: "
      (generateNewProgram env i rules (infoInstructions p.name p.code))
    let newProgs ← generateNewPrograms env rules ps (i + 1)
    return newProg :: newProgs

/-- The new programs; with no old program, one made from a bare `exit`. -/
def newPrograms (env : Env) (rules : List DeviceRule) (oldProgs : List Attached) :
    Except String (List Attached) :=
  if oldProgs = [] then do
    let newProg ← wrap "unable to generate new device filter program with no existing programs: "
      (generateNewProgram env 0 rules [Asm.ret])
    return [newProg]
  else generateNewPrograms env rules oldProgs 0

/-- Everything before the first change: the old programs and the new ones. -/
def prepare (env : Env) (rules : List DeviceRule) (st : List Attached) :
    Except String (List Attached × List Attached) := do
  wrap "unable to open the cgroup path: " env.openCgroup
  let oldProgs ← wrap "unable to find any existing device filters attached to the cgroup: "
    (findAttachedCgroupDeviceFilters env st)
  let newProgs ← newPrograms env rules oldProgs
  return (oldProgs, newProgs)

/-- Make a call for every program in turn, applying its effect, up to the first that fails. -/
def forEach (call : ℕ → Except String Unit) (msg : String)
    (effect : Attached → List Attached → List Attached) :
    List Attached → ℕ → List Attached → Except String Unit × List Attached
  | [], _, st => (.ok (), st)
  | p :: ps, i, st =>
    match call i with
    | .error e => (.error (msg ++ e), st)
    | .ok () => forEach call msg effect ps (i + 1) (effect p st)

/-- The loop over `DetachCgroupDeviceFilter`. -/
def detachAll (env : Env) (oldProgs st : List Attached) : Except String Unit × List Attached :=
  forEach env.detach ("unable to detach original device filters program: "
    ++ "failed to call BPF_PROG_DETACH (BPF_CGROUP_DEVICE): ")
      (fun p st => st.erase p) oldProgs 0 st

/-- The loop over `AttachCgroupDeviceFilter`. -/
def attachAll (env : Env) (newProgs st : List Attached) : Except String Unit × List Attached :=
  forEach env.attach ("unable to attach new device filters program: "
    ++ "failed to call BPF_PROG_ATTACH (BPF_CGROUP_DEVICE, BPF_F_ALLOW_MULTI): ")
    (fun p st => st ++ [p]) newProgs 0 st

/-- `AddDeviceRules`, from the attached programs to the attached programs. -/
def addDeviceRules (env : Env) (rules : List DeviceRule) (st : List Attached) :
    Except String Unit × List Attached :=
  match prepare env rules st with
  | .error e => (.error e, st)
  | .ok (oldProgs, newProgs) =>
    match detachAll env oldProgs st with
    | (.error e, st') => (.error e, st')
    | (.ok (), st') => attachAll env newProgs st'

/-! ## The call for one device -/

/-- A device number: twelve bits of major, twenty of minor. -/
structure DeviceId where
  major : BitVec 12
  minor : BitVec 20
  deriving DecidableEq

/-- The rule of `nvcgo_setup_device_cgroup_1_svc`. -/
def DeviceId.rule (d : DeviceId) : DeviceRule :=
  { allow := true, type := "c", access := "rw", major := d.major.toNat, minor := d.minor.toNat }

/-- `nvcgo_setup_device_cgroup_1_svc`: the capabilities are raised around the update and dropped on
every way out, and failing to drop them fails the call. -/
def setupDeviceCgroup (raiseCaps dropCaps : Except String Unit) (env : Env) (d : DeviceId)
    (st : List Attached) : Except String Unit × List Attached :=
  let (rv, st') :=
    match raiseCaps with
    | .error e => (.error e, st)
    | .ok () =>
      let (r, st') := addDeviceRules env [d.rule] st
      (wrap "failed to add device rules: " r, st')
  match dropCaps with
  | .error e => (.error e, st')
  | .ok () => (rv, st')

/-! ## What preparing an update yields -/

theorem wrap_eq_ok {α : Type} {msg : String} {x : Except String α} {a : α}
    (h : wrap msg x = .ok a) : x = .ok a := by
  rcases x with e | b
  · cases h
  · exact h

/-- The programs that were opened are those that could be. -/
theorem openPrograms_eq_ok {env : Env} {ps l : List Attached} {i : ℕ}
    (hok : openPrograms env ps i = .ok l) : l = ps.filter (·.readable) := by
  induction ps generalizing l i with
  | nil => exact (Except.ok.inj hok).symm
  | cons p ps ih =>
    rw [openPrograms] at hok
    by_cases hp : p.readable = true
    · rw [if_pos hp] at hok
      obtain ⟨-, -, hok⟩ := Except.bind_eq_ok hok
      obtain ⟨l', hl', hok⟩ := Except.bind_eq_ok hok
      rw [List.filter_cons_of_pos hp, ← ih hl']
      exact (Except.ok.inj hok).symm
    · rw [if_neg hp] at hok
      rw [List.filter_cons_of_neg hp]
      exact ih hok

/-- A query answers with the programs that could be opened. -/
theorem queryLoop_eq_ok {env : Env} {st l : List Attached} {n i : ℕ}
    (hok : queryLoop env st n i = .ok l) : l = st.filter (·.readable) := by
  induction n generalizing i with
  | zero => cases hok
  | succ n ih =>
    rw [queryLoop] at hok
    split at hok
    · exact ih hok
    · cases hok
    · exact openPrograms_eq_ok hok

/-- The program a filter is put in front of when there is none. -/
def bareExit : Attached := { name := "", code := [.exit], readable := true }

/-- The instructions of the bare `exit`, as the update has them. -/
def bareReturn : Original where
  insts := [Asm.ret]
  nonempty := by simp
  reference := by simp [Asm.ret]
  symbol := by simp

/-- An old program with the filter of a rule list in front. -/
def Attached.extend (rules : List DeviceRule) (p : Attached) : Attached :=
  { name := "", code := filterCode rules ++ p.code, readable := true }

/-- The programs an update reads. -/
def readables (st : List Attached) : List Attached := st.filter (·.readable)

theorem mem_of_mem_readables {p : Attached} {st : List Attached} (hp : p ∈ readables st) : p ∈ st :=
  (List.mem_filter.mp hp).1

/-- The programs an update cannot read. -/
def unreadables (st : List Attached) : List Attached := st.filter (!·.readable)

/-- The programs the new ones are made from. -/
def seeds (st : List Attached) : List Attached :=
  if readables st = [] then [bareExit] else readables st

/-- **A new program is built and has been loaded.** -/
theorem generateNewProgram_ok {env : Env} {i : ℕ} {rules : List DeviceRule}
    {insts : List Instruction} {p : Attached} (hok : generateNewProgram env i rules insts = .ok p) :
    generate (env.uuid i) rules insts = .ok p.code ∧ env.load i p.code = .ok ()
      ∧ p = { name := "", code := p.code, readable := true } := by
  obtain ⟨newInsts, hpre, hok⟩ := Except.bind_eq_ok hok
  obtain ⟨code, hfix, hok⟩ := Except.bind_eq_ok hok
  obtain ⟨⟨⟩, hload, hok⟩ := Except.bind_eq_ok hok
  obtain rfl := Except.ok.inj hok
  refine ⟨?_, wrap_eq_ok hload, rfl⟩
  rw [generate, wrap_eq_ok hpre]
  exact wrap_eq_ok hfix

/-- A new program is the old one behind the filter. -/
theorem generateNewProgram_eq_ok {env : Env} {i : ℕ} {rules : List DeviceRule} {o : Original}
    {p : Attached} (hok : generateNewProgram env i rules o.insts = .ok p) :
    (∀ r ∈ tested rules.reverse, r.Accepted)
      ∧ p = { name := "", code := filterCode rules ++ o.code, readable := true } := by
  obtain ⟨hgen, -, hp⟩ := generateNewProgram_ok hok
  obtain ⟨hacc, hcode⟩ := generate_eq_ok o.nonempty o.reference o.symbol hgen
  rw [hcode] at hp
  exact ⟨hacc, hp⟩

/-- A program without instructions has none to label. -/
theorem generateNewProgram_nil (env : Env) (i : ℕ) (rules : List DeviceRule) (p : Attached) :
    generateNewProgram env i rules [] ≠ .ok p := by
  intro hok
  obtain ⟨insts, hpre, -⟩ := Except.bind_eq_ok hok
  obtain ⟨q, -, hfin⟩ := Except.bind_eq_ok (wrap_eq_ok hpre)
  cases hfin

/-- The new programs are the old ones, each behind the filter. -/
theorem generateNewPrograms_eq_ok {env : Env} {rules : List DeviceRule} {ps news : List Attached}
    {i : ℕ} (hok : generateNewPrograms env rules ps i = .ok news) :
    (ps ≠ [] → ∀ r ∈ tested rules.reverse, r.Accepted) ∧ news = ps.map (Attached.extend rules) := by
  induction ps generalizing i news with
  | nil => exact ⟨fun h => absurd rfl h, (Except.ok.inj hok).symm⟩
  | cons p ps ih =>
    obtain ⟨-, -, hok⟩ := Except.bind_eq_ok hok
    obtain ⟨-, -, hok⟩ := Except.bind_eq_ok hok
    obtain ⟨new, hnew, hok⟩ := Except.bind_eq_ok hok
    obtain ⟨rest, hrest, hok⟩ := Except.bind_eq_ok hok
    have hnew' := wrap_eq_ok hnew
    have hcode : p.code ≠ [] := by
      intro he
      rw [he] at hnew'
      exact generateNewProgram_nil env i rules new hnew'
    obtain ⟨hacc, he⟩ := generateNewProgram_eq_ok (o := .ofInfo p.name p.code hcode) hnew'
    rw [Original.ofInfo_code] at he
    refine ⟨fun _ => hacc, ?_⟩
    rw [← Except.ok.inj hok, List.map_cons, ← (ih hrest).2, he]
    rfl

/-- What the loop generates has been loaded. -/
theorem loaded_of_generateNewPrograms {env : Env} {rules : List DeviceRule}
    {ps news : List Attached} {i : ℕ} (hok : generateNewPrograms env rules ps i = .ok news) :
    ∀ p ∈ news, ∃ j, env.load j p.code = .ok () := by
  induction ps generalizing i news with
  | nil =>
    rw [← Except.ok.inj hok]
    exact fun p hp => absurd hp List.not_mem_nil
  | cons p ps ih =>
    obtain ⟨-, -, hok⟩ := Except.bind_eq_ok hok
    obtain ⟨-, -, hok⟩ := Except.bind_eq_ok hok
    obtain ⟨new, hnew, hok⟩ := Except.bind_eq_ok hok
    obtain ⟨rest, hrest, hok⟩ := Except.bind_eq_ok hok
    rw [← Except.ok.inj hok]
    exact List.forall_mem_cons.mpr
      ⟨⟨i, (generateNewProgram_ok (wrap_eq_ok hnew)).2.1⟩, ih hrest⟩

/-- **What preparing an update yields.** -/
theorem prepare_eq_ok {env : Env} {rules : List DeviceRule} {st olds news : List Attached}
    (hok : prepare env rules st = .ok (olds, news)) :
    (∀ r ∈ tested rules.reverse, r.Accepted) ∧ olds = readables st
      ∧ news = (seeds st).map (Attached.extend rules) := by
  obtain ⟨-, -, hok⟩ := Except.bind_eq_ok hok
  obtain ⟨olds', holds, hok⟩ := Except.bind_eq_ok hok
  obtain ⟨news', hnews, hok⟩ := Except.bind_eq_ok hok
  obtain ⟨rfl, rfl⟩ := Prod.mk.inj (Except.ok.inj hok)
  have hread : olds' = readables st := queryLoop_eq_ok (wrap_eq_ok holds)
  rw [newPrograms] at hnews
  by_cases he : olds' = []
  · rw [if_pos he] at hnews
    obtain ⟨new, hnew, hnews⟩ := Except.bind_eq_ok hnews
    obtain ⟨hacc, hcode⟩ := generateNewProgram_eq_ok
      (o := bareReturn) (wrap_eq_ok hnew)
    refine ⟨hacc, hread, ?_⟩
    rw [← Except.ok.inj hnews, seeds, if_pos (hread ▸ he), hcode]
    rfl
  · rw [if_neg he] at hnews
    obtain ⟨hacc, hmap⟩ := generateNewPrograms_eq_ok hnews
    exact ⟨hacc he, hread, by rw [hmap, seeds, if_neg (hread ▸ he), hread]⟩

/-- The new programs of an update have been loaded. -/
theorem loaded_of_prepare {env : Env} {rules : List DeviceRule} {st olds news : List Attached}
    (hok : prepare env rules st = .ok (olds, news)) :
    ∀ p ∈ news, ∃ j, env.load j p.code = .ok () := by
  obtain ⟨-, -, hok⟩ := Except.bind_eq_ok hok
  obtain ⟨olds', -, hok⟩ := Except.bind_eq_ok hok
  obtain ⟨news', hnews, hok⟩ := Except.bind_eq_ok hok
  obtain ⟨-, rfl⟩ := Prod.mk.inj (Except.ok.inj hok)
  rw [newPrograms] at hnews
  split_ifs at hnews
  · obtain ⟨new, hnew, hnews⟩ := Except.bind_eq_ok hnews
    rw [← Except.ok.inj hnews]
    exact List.forall_mem_singleton.mpr ⟨0, (generateNewProgram_ok (wrap_eq_ok hnew)).2.1⟩
  · exact loaded_of_generateNewPrograms hnews

/-! ## What the two loops leave attached -/

/-- The number of calls that succeed before the first that fails, of `n` calls from `i` on. -/
def leading (call : ℕ → Except String Unit) : ℕ → ℕ → ℕ
  | 0, _ => 0
  | n + 1, i => if (call i).isOk then leading call n (i + 1) + 1 else 0

/-- A loop takes effect up to the first call that fails. -/
theorem forEach_spec (call : ℕ → Except String Unit) {msg : String}
    {effect : Attached → List Attached → List Attached} (ps : List Attached) (i : ℕ)
    (st : List Attached) :
    (forEach call msg effect ps i st).2
        = (ps.take (leading call ps.length i)).foldl (fun st p => effect p st) st
      ∧ ((forEach call msg effect ps i st).1 = .ok () ↔ leading call ps.length i = ps.length) := by
  induction ps generalizing i st with
  | nil => exact ⟨rfl, by simp [forEach, leading]⟩
  | cons p ps ih =>
    rw [forEach, List.length_cons, leading]
    rcases hc : call i with e | u
    · simp [Except.isOk, Except.toBool]
    · obtain ⟨hst, hok⟩ := ih (i + 1) (effect p st)
      simp only [Except.isOk, Except.toBool, if_true, List.take_succ_cons, List.foldl_cons]
      exact ⟨hst, hok.trans (by omega)⟩

theorem foldl_erase_perm {ps rest : List Attached} (k : ℕ) {st : List Attached}
    (hst : st.Perm (ps ++ rest)) :
    ((ps.take k).foldl (fun st p => st.erase p) st).Perm (ps.drop k ++ rest) := by
  induction ps generalizing k st with
  | nil => simpa using hst
  | cons p ps ih =>
    rcases k with _ | k
    · simpa using hst
    · have herase := hst.erase p
      rw [List.cons_append, List.erase_cons_head] at herase
      simpa using ih k herase

theorem foldl_append_eq (ps st : List Attached) :
    ps.foldl (fun st p => st ++ [p]) st = st ++ ps := by
  induction ps generalizing st with
  | nil => simp
  | cons p ps ih => rw [List.foldl_cons, ih, List.append_assoc, List.singleton_append]

/-- What the detachments leave, and when they succeed. -/
theorem detachAll_spec (env : Env) {olds rest st : List Attached} (hst : st.Perm (olds ++ rest)) :
    (detachAll env olds st).2.Perm (olds.drop (leading env.detach olds.length 0) ++ rest)
      ∧ ((detachAll env olds st).1 = .ok () ↔ leading env.detach olds.length 0 = olds.length) := by
  obtain ⟨hfold, hok⟩ := forEach_spec env.detach olds 0 st
  exact ⟨hfold ▸ foldl_erase_perm _ hst, hok⟩

/-- What the attachments leave, and when they succeed. -/
theorem attachAll_spec (env : Env) (news st : List Attached) :
    (attachAll env news st).2 = st ++ news.take (leading env.attach news.length 0)
      ∧ ((attachAll env news st).1 = .ok () ↔ leading env.attach news.length 0 = news.length) := by
  obtain ⟨hfold, hok⟩ := forEach_spec env.attach news 0 st
  exact ⟨hfold.trans (foldl_append_eq _ _), hok⟩

/-- How far an update gets: the old programs it detaches and the new programs it attaches. -/
def progress (env : Env) (rules : List DeviceRule) (st : List Attached) : ℕ × ℕ :=
  match prepare env rules st with
  | .error _ => (0, 0)
  | .ok (olds, news) =>
    if leading env.detach olds.length 0 = olds.length then
      (olds.length, leading env.attach news.length 0)
    else (leading env.detach olds.length 0, 0)

/-- The programs are those that can be opened and the others. -/
theorem perm_readable (st : List Attached) : st.Perm (readables st ++ unreadables st) :=
  (List.filter_append_perm _ st).symm

/-- An update step by step. -/
theorem addDeviceRules_cases (env : Env) (rules : List DeviceRule) (st : List Attached) :
    (∃ e, addDeviceRules env rules st = (.error e, st) ∧ progress env rules st = (0, 0))
      ∨ (∀ r ∈ tested rules.reverse, r.Accepted)
        ∧ ((∃ e st', addDeviceRules env rules st = (.error e, st')
              ∧ (progress env rules st).2 = 0
              ∧ st'.Perm ((readables st).drop (progress env rules st).1 ++ unreadables st))
            ∨ ∃ st', addDeviceRules env rules st
                = attachAll env ((seeds st).map (Attached.extend rules)) st'
              ∧ progress env rules st
                = ((readables st).length, leading env.attach (seeds st).length 0)
              ∧ st'.Perm (unreadables st)) := by
  rcases hprep : prepare env rules st with e | ⟨olds, news⟩
  · left
    refine ⟨e, ?_, ?_⟩
    · simp only [addDeviceRules, hprep]
    · simp only [progress, hprep]
  · right
    obtain ⟨hacc, rfl, rfl⟩ := prepare_eq_ok hprep
    refine ⟨hacc, ?_⟩
    obtain ⟨hperm, hok⟩ := detachAll_spec env (perm_readable st)
    rcases hd : detachAll env (readables st) st with ⟨e | u, st'⟩
    · left
      rw [hd] at hperm hok
      have hlt : ¬ leading env.detach (readables st).length 0 = (readables st).length := by
        intro he
        cases hok.mpr he
      refine ⟨e, st', ?_, ?_, ?_⟩
      · simp only [addDeviceRules, hprep, hd]
      · simp only [progress, hprep, if_neg hlt]
      · simp only [progress, hprep, if_neg hlt]
        exact hperm
    · right
      rw [hd] at hperm hok
      have hall := hok.mp rfl
      refine ⟨st', ?_, ?_, ?_⟩
      · simp only [addDeviceRules, hprep, hd]
      · simp only [progress, hprep, if_pos hall, List.length_map]
      · rw [hall, List.drop_length] at hperm
        exact hperm

/-- **What an update leaves attached**, whether it succeeds or fails. -/
theorem addDeviceRules_perm (env : Env) (rules : List DeviceRule) (st : List Attached) :
    (addDeviceRules env rules st).2.Perm
      ((readables st).drop (progress env rules st).1 ++ unreadables st
        ++ ((seeds st).map (Attached.extend rules)).take (progress env rules st).2) := by
  rcases addDeviceRules_cases env rules st with ⟨e, he, hp⟩ | ⟨-, ⟨e, st', he, hp, hperm⟩ |
    ⟨st', he, hp, hperm⟩⟩
  · rw [he, hp]
    simpa using perm_readable st
  · rw [he, hp]
    simpa using hperm
  · rw [he, hp, (attachAll_spec env _ st').1]
    simpa using hperm.append_right _

/-- **A successful update replaces every program it reads.** -/
theorem addDeviceRules_ok {env : Env} {rules : List DeviceRule} {st : List Attached}
    (hok : (addDeviceRules env rules st).1 = .ok ()) :
    (∀ r ∈ tested rules.reverse, r.Accepted)
      ∧ (addDeviceRules env rules st).2.Perm
          (unreadables st ++ (seeds st).map (Attached.extend rules)) := by
  rcases addDeviceRules_cases env rules st with ⟨e, he, -⟩ | ⟨hacc, ⟨e, st', he, -, -⟩ |
    ⟨st', he, -, hperm⟩⟩
  · rw [he] at hok
    cases hok
  · rw [he] at hok
    cases hok
  · rw [he] at hok ⊢
    obtain ⟨hst, hall⟩ := attachAll_spec env ((seeds st).map (Attached.extend rules)) st'
    rw [hst, hall.mp hok, List.take_length]
    exact ⟨hacc, hperm.append_right _⟩

/-- A successful update has loaded every program it attaches. -/
theorem addDeviceRules_loaded {env : Env} {rules : List DeviceRule} {st : List Attached}
    (hok : (addDeviceRules env rules st).1 = .ok ()) :
    ∀ s ∈ seeds st, ∃ j, env.load j (s.extend rules).code = .ok () := by
  rcases hprep : prepare env rules st with e | ⟨olds, news⟩
  · simp only [addDeviceRules, hprep] at hok
    cases hok
  · obtain ⟨-, -, hnews⟩ := prepare_eq_ok hprep
    have hloaded := loaded_of_prepare hprep
    rw [hnews] at hloaded
    exact fun s hs => hloaded _ (List.mem_map_of_mem hs)

/-! ## Updates whose preparation goes through -/

/-- Nothing fails before the first change. -/
structure Env.Prepares (env : Env) : Prop where
  openCgroup : env.openCgroup = .ok ()
  query : env.query 0 = .found
  fromID : ∀ i, env.fromID i = .ok ()
  info : ∀ i, env.info i = .ok ()
  instructions : ∀ i, env.instructions i = .ok ()
  load : ∀ i code, env.load i code = .ok ()

/-- The environment in which only the attaching calls may fail. -/
def Env.failingAttach (attach : ℕ → Except String Unit) : Env where
  openCgroup := .ok ()
  query _ := .found
  fromID _ := .ok ()
  info _ := .ok ()
  instructions _ := .ok ()
  load _ _ := .ok ()
  detach _ := .ok ()
  attach := attach
  uuid _ := ""

theorem Env.prepares_failingAttach (attach : ℕ → Except String Unit) :
    (Env.failingAttach attach).Prepares :=
  ⟨rfl, rfl, fun _ => rfl, fun _ => rfl, fun _ => rfl, fun _ _ => rfl⟩

section Prepares

variable {env : Env} {rules : List DeviceRule} {st : List Attached}

theorem wrap_ok {α : Type} (msg : String) (a : α) : wrap msg (.ok a) = .ok a := rfl

/-- The programs are opened. -/
theorem Env.Prepares.openPrograms_eq (henv : env.Prepares) (ps : List Attached) (i : ℕ) :
    openPrograms env ps i = .ok (readables ps) := by
  induction ps generalizing i with
  | nil => rfl
  | cons p ps ih =>
    rw [openPrograms, ih, henv.fromID]
    by_cases hp : p.readable = true
    · have hcons : readables (p :: ps) = p :: readables ps := List.filter_cons_of_pos hp
      rw [if_pos hp, hcons]
      rfl
    · have hcons : readables (p :: ps) = readables ps := List.filter_cons_of_neg hp
      rw [if_neg hp, hcons]

/-- A new program is generated. -/
theorem Env.Prepares.generateNewProgram_eq (henv : env.Prepares) (hacc : ∀ r ∈ rules, r.Accepted)
    (i : ℕ) (o : Original) :
    generateNewProgram env i rules o.insts
      = .ok { name := "", code := filterCode rules ++ o.code, readable := true } := by
  obtain ⟨insts, hpre, hfix⟩ := Except.bind_eq_ok (generate_original (env.uuid i) hacc o)
  rw [generateNewProgram, hpre]
  simp only [wrap_ok, bind, Except.bind, hfix, henv.load]
  rfl

/-- The new programs are generated. -/
theorem Env.Prepares.generateNewPrograms_eq (henv : env.Prepares)
    (hacc : ∀ r ∈ rules, r.Accepted) {ps : List Attached} (hps : ∀ p ∈ ps, p.code ≠ []) (i : ℕ) :
    generateNewPrograms env rules ps i = .ok (ps.map (Attached.extend rules)) := by
  induction ps generalizing i with
  | nil => rfl
  | cons p ps ih =>
    have hnew := henv.generateNewProgram_eq hacc i (.ofInfo p.name p.code (hps p (by simp)))
    have hinsts : (Original.ofInfo p.name p.code (hps p (by simp))).insts
        = infoInstructions p.name p.code := rfl
    rw [hinsts] at hnew
    rw [generateNewPrograms, henv.info, henv.instructions, hnew,
      ih (fun p' hp' => hps p' (by simp [hp']))]
    simp only [Original.ofInfo_code, wrap_ok]
    rfl

/-- **An update of programs with instructions by accepted rules gets to its first change.** -/
theorem Env.Prepares.prepare_eq (henv : env.Prepares) (hacc : ∀ r ∈ rules, r.Accepted)
    (hst : ∀ p ∈ st, p.code ≠ []) :
    prepare env rules st = .ok (readables st, (seeds st).map (Attached.extend rules)) := by
  have hfind : findAttachedCgroupDeviceFilters env st = .ok (readables st) := by
    rw [findAttachedCgroupDeviceFilters, queryLoop, henv.query]
    exact henv.openPrograms_eq st 0
  have hnew : newPrograms env rules (readables st)
      = .ok ((seeds st).map (Attached.extend rules)) := by
    rw [newPrograms, seeds]
    split_ifs with he
    · have hbare := henv.generateNewProgram_eq hacc 0 bareReturn
      rw [show bareReturn.insts = [Asm.ret] from rfl] at hbare
      simp only [hbare, wrap_ok]
      rfl
    · exact henv.generateNewPrograms_eq hacc (fun p hp => hst p (List.mem_filter.mp hp).1) 0
  simp only [prepare, henv.openCgroup, hfind, wrap_ok, bind, Except.bind, hnew, pure, Except.pure]

theorem leading_eq {call : ℕ → Except String Unit} (hcall : ∀ i, call i = .ok ()) (n i : ℕ) :
    leading call n i = n := by
  induction n generalizing i with
  | zero => rfl
  | succ n ih =>
    rw [leading, hcall, ih]
    rfl

/-- Where detaching never fails an update comes to attaching. -/
theorem Env.Prepares.addDeviceRules_eq (henv : env.Prepares) (hdetach : ∀ i, env.detach i = .ok ())
    (hacc : ∀ r ∈ rules, r.Accepted) (hst : ∀ p ∈ st, p.code ≠ []) :
    ∃ st', addDeviceRules env rules st = attachAll env ((seeds st).map (Attached.extend rules)) st'
      ∧ st'.Perm (unreadables st) := by
  obtain ⟨hperm, hok⟩ := detachAll_spec env (perm_readable st)
  have hall := leading_eq hdetach (readables st).length 0
  rw [hall, List.drop_length, List.nil_append] at hperm
  refine ⟨(detachAll env (readables st) st).2, ?_, hperm⟩
  rw [addDeviceRules, henv.prepare_eq hacc hst]
  have hd : detachAll env (readables st) st = (.ok (), (detachAll env (readables st) st).2) :=
    Prod.ext (hok.mpr hall) rfl
  simp only
  rw [hd]

theorem Attached.Verified.code_ne_nil {p : Attached} (hp : p.Verified) : p.code ≠ [] := by
  intro he
  obtain ⟨v, n, hn⟩ := hp someHost ⟨0, 0, 0, 0⟩
  rw [he] at hn
  rcases n with _ | n
  · cases hn
  · cases hn

end Prepares

/-! ## What is granted -/

section Grants

variable {h : Host} {q : Request} {rules : List DeviceRule} {p : Attached} {st st' : List Attached}

theorem granted_perm (hp : st.Perm st') : Granted h st q ↔ Granted h st' q :=
  forall_congr' fun _ => imp_congr_left hp.mem_iff

theorem granted_append : Granted h (st ++ st') q ↔ Granted h st q ∧ Granted h st' q :=
  List.forall_mem_append

/-- The verdict of the filter of a rule list, with no bound on the numbers of its rules. -/
def verdict (rules : List DeviceRule) (q : Request) : Option Bool :=
  blockVerdict q (blocks rules.reverse) (q.typ.setWidth 64)

/-- Every block is short enough to be jumped over. -/
theorem short_blocks (rs : List DeviceRule) : ∀ b ∈ blocks rs, slots b.code < 2 ^ 15 := by
  intro b hb
  obtain ⟨r, -, rfl⟩ := mem_blocks hb
  exact slots_block_lt r

/-- A request the rules decide is answered by them. -/
theorem answers_extend_of_some {a : Bool} (hv : verdict rules q = some a) :
    Answers h (p.extend rules).code q (verdictWord a) :=
  (answers_blocks (short_blocks rules.reverse) p.code).1 a hv

/-- A request the rules do not decide is answered as before. -/
theorem answers_extend_of_none (hv : verdict rules q = none) {v : BitVec 64}
    (ha : Answers h p.code q v) : Answers h (p.extend rules).code q v :=
  (answers_blocks (short_blocks rules.reverse) p.code).2 hv v ha

/-- A request no block decides is granted by the extended program when the old one grants it. -/
theorem answers_extend_iff (hp : p.Verified) (hv : verdict rules q = none) :
    Answers h (p.extend rules).code q 1 ↔ Answers h p.code q 1 := by
  refine ⟨fun hext => ?_, answers_extend_of_none hv⟩
  obtain ⟨v, hold⟩ := hp h q
  obtain rfl : v = 1 := Returns.unique (answers_extend_of_none hv hold) hext
  exact hold

/-- Filters keep the verifier's guarantee. -/
theorem Attached.Verified.extend (hp : p.Verified) (rules : List DeviceRule) :
    (p.extend rules).Verified := by
  intro h q
  rcases hv : verdict rules q with _ | a
  · obtain ⟨v, hold⟩ := hp h q
    exact ⟨v, answers_extend_of_none hv hold⟩
  · exact ⟨_, answers_extend_of_some hv⟩

/-- Rules that all allow have no other verdict. -/
theorem allow_of_verdict (hallow : ∀ r ∈ rules, r.allow = true) {a : Bool}
    (hv : verdict rules q = some a) : a = true := by
  have hblocks : ∀ b ∈ blocks rules.reverse, b.accept = true := by
    intro b hb
    obtain ⟨r, hr, rfl⟩ := mem_blocks hb
    exact hallow r (List.mem_reverse.mp hr)
  rw [verdict] at hv
  generalize q.typ.setWidth 64 = x at hv
  generalize blocks rules.reverse = bs at hv hblocks
  induction bs generalizing x with
  | nil => simp [blockVerdict] at hv
  | cons b bs ih =>
    rw [blockVerdict] at hv
    split_ifs at hv with hp
    · rw [← Option.some.inj hv]
      exact hblocks b (by simp)
    · exact ih _ hv fun b' hb' => hblocks b' (by simp [hb'])

end Grants

/-! ## Devices added one after another -/

/-- The request reads or writes the character device. -/
def DeviceId.Covers (d : DeviceId) (q : Request) : Prop :=
  q.typ = 2 ∧ q.access &&& 6 ≠ 0 ∧ q.major.toNat = d.major.toNat ∧ q.minor.toNat = d.minor.toNat

theorem DeviceId.rule_ok (d : DeviceId) : d.rule.Accepted ∧ d.rule.Small := by
  have hmaj := d.major.isLt
  have hmin := d.minor.isLt
  have haccess : (bpfAccess "rw".toList 0).isOk = true := by decide
  refine ⟨⟨rfl, haccess, ?_, ?_⟩, ?_, ?_⟩ <;> simp only [DeviceId.rule, maxUint32] <;> omega

theorem DeviceId.isMatch_rule (d : DeviceId) (q : Request) :
    d.rule.isMatch q = true ↔ d.Covers q := by
  have htype : d.rule.typeMatches q.typ = (q.typ == 2) := by
    simp [DeviceRule.typeMatches, DeviceId.rule]
  have haccess : d.rule.accessMatches q.access = (q.access &&& 6 != 0) := by
    have hmask : d.rule.mask = 6 :=
      (by decide : "rw".toList.foldr (fun c m => accessBit c ||| m) 0 = 6)
    simp [DeviceRule.accessMatches, hmask]
  have hnumber : ∀ (n : ℕ) (v : BitVec 32), DeviceRule.numberMatches n v = (n == v.toNat) := by
    intro n v
    rw [DeviceRule.numberMatches, Bool.eq_iff_iff]
    simp only [Bool.or_eq_true, decide_eq_true_eq, beq_iff_eq]
    omega
  have hmaj : DeviceRule.numberMatches d.rule.major q.major = (q.major.toNat == d.major.toNat) :=
    (hnumber _ _).trans Bool.beq_comm
  have hmin : DeviceRule.numberMatches d.rule.minor q.minor = (q.minor.toNat == d.minor.toNat) :=
    (hnumber _ _).trans Bool.beq_comm
  rw [DeviceRule.isMatch, DeviceRule.restMatches, htype, haccess, hmaj, hmin, DeviceId.Covers]
  simp only [Bool.and_eq_true, beq_iff_eq, bne_iff_ne]

theorem DeviceId.verdict_rule (d : DeviceId) (q : Request) :
    verdict [d.rule] q = if d.rule.isMatch q then some true else none := by
  have hone : ∀ r ∈ [d.rule].reverse, r.Accepted ∧ r.Small := by
    intro r hr
    rw [List.mem_singleton.mp hr]
    exact d.rule_ok
  rw [verdict, blockVerdict_blocks hone]
  simp only [List.reverse_singleton, codeVerdict, typeMatches_setWidth]
  rfl

/-- Successful calls for the devices of a list, one after another. -/
inductive SetupRun : List Attached → List DeviceId → List Attached → Prop
  | nil (st : List Attached) : SetupRun st [] st
  | cons {raiseCaps dropCaps : Except String Unit} {env : Env} {d : DeviceId} {ds : List DeviceId}
      {st st' : List Attached} (hok : (setupDeviceCgroup raiseCaps dropCaps env d st).1 = .ok ())
      (hrun : SetupRun (setupDeviceCgroup raiseCaps dropCaps env d st).2 ds st') :
      SetupRun st (d :: ds) st'

/-- A successful call is a successful update. -/
theorem setupDeviceCgroup_ok {raiseCaps dropCaps : Except String Unit} {env : Env} {d : DeviceId}
    {st : List Attached} (hok : (setupDeviceCgroup raiseCaps dropCaps env d st).1 = .ok ()) :
    (addDeviceRules env [d.rule] st).1 = .ok ()
      ∧ (setupDeviceCgroup raiseCaps dropCaps env d st).2 = (addDeviceRules env [d.rule] st).2 := by
  rcases raiseCaps with e | u
  · rcases dropCaps with e' | u'
    · cases hok
    · cases hok
  · rcases dropCaps with e' | u'
    · cases hok
    · exact ⟨wrap_eq_ok hok, rfl⟩

/-- What the calls keep: programs are attached, all readable and accepted by the verifier. -/
structure Managed (st : List Attached) : Prop where
  nonempty : st ≠ []
  readable : ∀ p ∈ st, p.readable = true
  verified : ∀ p ∈ st, p.Verified

/-- Of programs of one's own every one can be opened. -/
theorem Managed.readable_eq {st : List Attached} (hm : Managed st) : readables st = st :=
  List.filter_eq_self.mpr hm.readable

theorem Managed.seeds_eq {st : List Attached} (hm : Managed st) : seeds st = st := by
  rw [seeds, hm.readable_eq, if_neg hm.nonempty]

theorem Managed.unreadable_eq {st : List Attached} (hm : Managed st) : unreadables st = [] := by
  rw [unreadables, List.filter_eq_nil_iff]
  intro p hp
  simp [hm.readable p hp]

/-- A successful update of managed programs extends each of them. -/
theorem Managed.update {st : List Attached} (hm : Managed st) {env : Env} {rules : List DeviceRule}
    (hok : (addDeviceRules env rules st).1 = .ok ()) :
    (addDeviceRules env rules st).2.Perm (st.map (Attached.extend rules)) := by
  have hperm := (addDeviceRules_ok hok).2
  rwa [hm.unreadable_eq, hm.seeds_eq, List.nil_append] at hperm

/-- Programs of one's own stay so with the filter in front. -/
theorem Managed.of_perm {st st' : List Attached} (hm : Managed st) {rules : List DeviceRule}
    (hp : st'.Perm (st.map (Attached.extend rules))) : Managed st' where
  nonempty he := by
    rw [he, List.nil_perm, List.map_eq_nil_iff] at hp
    exact hm.nonempty hp
  readable p hp' := by
    obtain ⟨p₀, -, rfl⟩ := List.mem_map.mp (hp.mem_iff.mp hp')
    rfl
  verified p hp' := by
    obtain ⟨p₀, hp₀, rfl⟩ := List.mem_map.mp (hp.mem_iff.mp hp')
    exact (hm.verified p₀ hp₀).extend rules

/-- One call grants its device on top of what was granted. -/
theorem Managed.granted_update {st : List Attached} (hm : Managed st) (h : Host) (d : DeviceId)
    (q : Request) :
    Granted h (st.map (Attached.extend [d.rule])) q ↔ d.Covers q ∨ Granted h st q := by
  rw [← d.isMatch_rule]
  have hv := d.verdict_rule q
  by_cases hc : d.rule.isMatch q = true
  · rw [if_pos hc] at hv
    refine ⟨fun _ => .inl hc, fun _ p hp => ?_⟩
    obtain ⟨p₀, -, rfl⟩ := List.mem_map.mp hp
    exact answers_extend_of_some hv
  · rw [if_neg hc] at hv
    rw [or_iff_right hc, Granted, List.forall_mem_map]
    exact forall₂_congr fun p hp => answers_extend_iff (hm.verified p hp) hv

/-- **Successful calls grant exactly their devices on top of what was granted before.** -/
theorem granted_setupRun {st st' : List Attached} {ds : List DeviceId} (hne : st ≠ [])
    (hread : ∀ p ∈ st, p.readable = true) (hver : ∀ p ∈ st, p.Verified)
    (hrun : SetupRun st ds st') (h : Host) (q : Request) :
    Granted h st' q ↔ (∃ d ∈ ds, d.Covers q) ∨ Granted h st q := by
  have hm : Managed st := ⟨hne, hread, hver⟩
  clear hne hread hver
  induction hrun with
  | nil st => simp
  | cons hok hrun ih =>
    obtain ⟨hok', hst⟩ := setupDeviceCgroup_ok hok
    have hperm := hm.update hok'
    rw [hst] at ih
    refine (ih (hm.of_perm hperm)).trans ?_
    rw [granted_perm hperm, hm.granted_update, or_left_comm, ← or_assoc]
    simp only [List.mem_cons, exists_eq_or_imp]

/-- A program with one answer to every request. -/
def constant (accept : Bool) : Attached :=
  { name := "", code := acceptCode accept, readable := true }

/-- A constant program answers with its constant. -/
theorem answers_constant (h : Host) (q : Request) (a : Bool) :
    Answers h (constant a).code q (verdictWord a) := returns_accept h a [] [] rfl

theorem verified_constant (a : Bool) : (constant a).Verified :=
  fun h q => ⟨_, answers_constant h q a⟩

theorem verified_singleton (a : Bool) : ∀ p ∈ [constant a], p.Verified := by
  intro p hp
  rw [List.mem_singleton.mp hp]
  exact verified_constant a

/-- A device added in front of a program that denies everything. -/
theorem granted_setupRun_constant : ∃ st', SetupRun [constant false] [⟨195, 0⟩] st'
    ∧ ∀ h q, Granted h st' q ↔ (∃ d ∈ [(⟨195, 0⟩ : DeviceId)], d.Covers q)
        ∨ Granted h [constant false] q := by
  set env := Env.failingAttach fun _ => .ok () with henv
  have hver := verified_singleton false
  have hok : (addDeviceRules env [(⟨195, 0⟩ : DeviceId).rule] [constant false]).1 = .ok () := by
    obtain ⟨st₁, heq, -⟩ := (Env.prepares_failingAttach fun _ => .ok ()).addDeviceRules_eq
      (fun _ => rfl) (by decide : ∀ r ∈ [(⟨195, 0⟩ : DeviceId).rule], r.Accepted)
      fun p hp => (hver p hp).code_ne_nil
    rw [henv, heq]
    exact (attachAll_spec _ _ st₁).2.mpr (leading_eq (fun _ => rfl) _ _)
  have hsetup : (setupDeviceCgroup (.ok ()) (.ok ()) env ⟨195, 0⟩ [constant false]).1 = .ok () := by
    have hwrap := congrArg (wrap "failed to add device rules: ") hok
    exact hwrap
  refine ⟨_, .cons hsetup (.nil _), fun h q => ?_⟩
  exact granted_setupRun (by simp) (by decide) hver (.cons hsetup (.nil _)) h q

/-! ## Rules that only allow -/

/-- The instructions the new programs are made from. -/
def oldInstructions (st : List Attached) : List (List Instruction) :=
  if readables st = [] then [[Asm.ret]]
  else (readables st).map fun p => infoInstructions p.name p.code

/-- A program that `generateNewProgram` builds in an update, and gives to the kernel to load. -/
def Built (rules : List DeviceRule) (st : List Attached) (code : List Insn) : Prop :=
  ∃ labelPrefix, ∃ insts ∈ oldInstructions st, generate labelPrefix rules insts = .ok code

/-- An update that succeeds revokes nothing that was granted, and no program it builds returns
without having set `r0`. -/
structure KeepsGrants (rules : List DeviceRule) (st : List Attached) : Prop where
  grants : ∀ env, env.Verifies → (addDeviceRules env rules st).1 = .ok () →
    ∀ h q, Granted h st q → Granted h (addDeviceRules env rules st).2 q
  assigns : ∀ code, Built rules st code → ∀ (h : Host) (q : Request),
    ¬ Halts h.rt code (h.entry q) (.unset .r0)

/-- A verified program does not return an unset register. -/
theorem Attached.Verified.not_unset {p : Attached} (hp : p.Verified) (h : Host) (q : Request) :
    ¬ Halts h.rt p.code (h.entry q) (.unset .r0) := by
  intro hun
  obtain ⟨v, hv⟩ := hp h q
  exact absurd (Halts.unique hv hun) (by simp)

/-- Among the rules looked at there is a wildcard, or they are all the rules. -/
theorem mem_tested_or {rs : List DeviceRule} {r : DeviceRule} (hr : r ∈ rs) :
    r ∈ tested rs ∨ ∃ w ∈ tested rs, w.block.tests.isEmpty = true := by
  induction rs with
  | nil => simp at hr
  | cons r' rs ih =>
    rw [tested]
    by_cases hw : r'.block.tests.isEmpty = true
    · exact .inr ⟨r', by simp, hw⟩
    · rw [if_neg hw]
      rcases List.mem_cons.mp hr with rfl | hr
      · exact .inl (by simp)
      · rcases ih hr with hin | ⟨w, hin, hw'⟩
        · exact .inl (List.mem_cons_of_mem _ hin)
        · exact .inr ⟨w, List.mem_cons_of_mem _ hin, hw'⟩

/-- With a wildcard among them the blocks decide every request. -/
theorem blockVerdict_ne_none {rs : List DeviceRule} (q : Request) (x : BitVec 64)
    (hw : ∃ w ∈ tested rs, w.block.tests.isEmpty = true) :
    blockVerdict q (blocks rs) x ≠ none := by
  induction rs generalizing x with
  | nil => simp [tested] at hw
  | cons r rs ih =>
    rw [blocks, blockVerdict]
    by_cases hp : (runTests q r.block.tests x).1 = true
    · rw [if_pos hp]
      simp
    · have hne : ¬ r.block.tests.isEmpty = true := by
        intro he
        rw [List.isEmpty_iff.mp he] at hp
        exact hp rfl
      rw [if_neg hp, if_neg hne]
      refine ih _ ?_
      obtain ⟨w, hin, hwild⟩ := hw
      rw [tested, if_neg hne] at hin
      rcases List.mem_cons.mp hin with rfl | hin
      · exact absurd hwild hne
      · exact ⟨w, hin, hwild⟩

/-- A request only a wildcard decides: of no device type, asking for nothing, with numbers no rule
can name. -/
def strayRequest : Request := ⟨0, 0, 0x80000000, 0x80000000⟩

theorem numberPasses_stray {n : ℤ} (hn : n ≤ maxUint32) :
    numberPasses n 0x80000000 = true → n < 0 := by
  intro hp
  by_cases hsmall : n < 2 ^ 31
  · rw [numberPasses_eq hsmall, DeviceRule.numberMatches, Bool.or_eq_true, decide_eq_true_eq,
      beq_iff_eq] at hp
    rcases hp with hp | hp
    · exact hp
    · exact absurd hp (by simp; omega)
  · rw [numberPasses_eq_false (by omega) hn] at hp
    cases hp

/-- **Without a wildcard the stray request falls through.** -/
theorem blockVerdict_stray {rs : List DeviceRule} (hrs : ∀ r ∈ rs, r.Accepted)
    (hw : ∀ r ∈ rs, ¬ r.IsWildCard) : blockVerdict strayRequest (blocks rs) 0 = none := by
  induction rs with
  | nil => rfl
  | cons r rs ih =>
    have hacc := hrs r (by simp)
    have hne : ¬ r.block.tests.isEmpty = true := fun he =>
      hw r (by simp) ((isWildCard_iff hacc).mpr he)
    obtain ⟨hpass, hleave⟩ := runTests_block hacc strayRequest 0
    have hfail : ¬ (runTests strayRequest r.block.tests 0).1 = true := by
      intro hp
      rw [hpass] at hp
      simp only [Bool.and_eq_true] at hp
      obtain ⟨htype, haccess, hmaj, hmin⟩ := hp
      have htype' : r.type = "a" := by simpa [DeviceRule.typeMatches] using htype
      have hmask : r.mask = 7 := by
        simpa [DeviceRule.accessMatches, strayRequest] using haccess
      have hbits : bpfAccess r.access.toList 0 = .ok (accRead ||| accWrite ||| accMknod) := by
        have hok : bpfAccess r.access.toList 0 = .ok r.accessBits := Except.eq_ok_of_isOk hacc.2.1 0
        rw [hok, r.accessBits_eq hacc, hmask]
        rfl
      exact hw r (by simp) ⟨htype', hbits, numberPasses_stray hacc.2.2.1 hmaj,
        numberPasses_stray hacc.2.2.2 hmin⟩
    have hzero : r.leaves strayRequest 0 = 0 := by
      rw [DeviceRule.leaves]
      split_ifs
      · simp [strayRequest]
      · rfl
    rw [blocks, blockVerdict, if_neg hfail, if_neg hne, hleave, hzero]
    exact ih (fun r' hr' => hrs r' (by simp [hr'])) fun r' hr' => hw r' (by simp [hr'])

/-- A filter in front of a bare `exit` leaves `r0` unset where no block decides. -/
theorem unset_bareExit {rules : List DeviceRule} {q : Request} (hv : verdict rules q = none)
    (h : Host) : Halts h.rt (bareExit.extend rules).code (h.entry q) (.unset .r0) :=
  unset_blocks_exit (short_blocks rules.reverse) hv

/-- **A successful update that only allows revokes nothing.** -/
theorem granted_of_success {env : Env} {rules : List DeviceRule} {st : List Attached}
    (hallow : ∀ r ∈ rules, r.allow = true) (hload : env.Verifies)
    (hok : (addDeviceRules env rules st).1 = .ok ()) {h : Host} {q : Request}
    (hgrant : Granted h st q) : Granted h (addDeviceRules env rules st).2 q := by
  obtain ⟨-, hperm⟩ := addDeviceRules_ok hok
  rw [granted_perm hperm, granted_append]
  refine ⟨fun p hp => hgrant p (List.mem_filter.mp hp).1, fun p hp => ?_⟩
  obtain ⟨s, hs, rfl⟩ := List.mem_map.mp hp
  rcases hv : verdict rules q with _ | a
  · by_cases hread : readables st = []
    · -- the verifier would have refused the program that this request gets to the end of
      obtain ⟨j, hj⟩ := addDeviceRules_loaded hok s hs
      rw [seeds, if_pos hread, List.mem_singleton] at hs
      rw [hs] at hj
      obtain ⟨v, hans⟩ := hload j _ hj h q
      exact absurd (Halts.unique hans (unset_bareExit hv h)) (by simp)
    · rw [seeds, if_neg hread] at hs
      exact answers_extend_of_none hv (hgrant s (mem_of_mem_readables hs))
  · have hword := answers_extend_of_some (h := h) (p := s) hv
    rwa [allow_of_verdict hallow hv] at hword

/-- **What an update builds**: the filter in front of one of its seeds. -/
theorem built_cases {rules : List DeviceRule} {st : List Attached} (hver : ∀ p ∈ st, p.Verified)
    {code : List Insn} (hbuilt : Built rules st code) :
    (∀ r ∈ tested rules.reverse, r.Accepted) ∧ ∃ s ∈ seeds st, code = (s.extend rules).code := by
  obtain ⟨labelPrefix, insts, hmem, hgen⟩ := hbuilt
  by_cases hread : readables st = []
  · rw [oldInstructions, if_pos hread, List.mem_singleton] at hmem
    rw [hmem] at hgen
    obtain ⟨hacc, hcode⟩ :=
      generate_eq_ok bareReturn.nonempty bareReturn.reference bareReturn.symbol hgen
    refine ⟨hacc, bareExit, ?_, hcode⟩
    rw [seeds, if_pos hread]
    exact List.mem_singleton.mpr rfl
  · rw [oldInstructions, if_neg hread] at hmem
    obtain ⟨p, hp, rfl⟩ := List.mem_map.mp hmem
    set o := Original.ofInfo p.name p.code (hver p (mem_of_mem_readables hp)).code_ne_nil with ho
    obtain ⟨hacc, hcode⟩ := generate_eq_ok o.nonempty o.reference o.symbol hgen
    change code = filterCode rules ++ o.code at hcode
    rw [ho, Original.ofInfo_code] at hcode
    refine ⟨hacc, p, ?_, hcode⟩
    rw [seeds, if_neg hread]
    exact hp

/-- An update that reads no program builds one on a bare `exit`: some request reaches it, unless a
wildcard decides them all. -/
theorem not_keepsGrants {rules : List DeviceRule} {st : List Attached} (hread : readables st = [])
    (hwild : ∀ r ∈ rules, ¬ r.IsWildCard) (hacc : ∀ r ∈ rules, r.Accepted) :
    ¬ KeepsGrants rules st := by
  intro hkeeps
  have hbuilt : Built rules st (bareExit.extend rules).code := by
    refine ⟨"", bareReturn.insts, ?_, generate_original "" hacc bareReturn⟩
    rw [oldInstructions, if_pos hread]
    exact List.mem_singleton.mpr rfl
  refine hkeeps.assigns _ hbuilt someHost strayRequest (unset_bareExit ?_ someHost)
  exact blockVerdict_stray (fun r hr => hacc r (List.mem_reverse.mp hr))
    fun r hr => hwild r (List.mem_reverse.mp hr)

/-- **An update that only allows keeps what was granted and builds no program returning an unset
register exactly when it reads some program, or a rule is a wildcard, or a rule is not
accepted.** -/
theorem keepsGrants_iff {rules : List DeviceRule} (hallow : ∀ r ∈ rules, r.allow = true)
    {st : List Attached} (hver : ∀ p ∈ st, p.Verified) :
    KeepsGrants rules st ↔ (∃ p ∈ st, p.readable = true) ∨ (∃ r ∈ rules, r.IsWildCard)
      ∨ ∃ r ∈ rules, ¬ r.Accepted := by
  constructor
  · intro hkeeps
    by_contra hcon
    simp only [not_or, not_exists, not_and, not_not] at hcon
    obtain ⟨hread, hwild, hacc⟩ := hcon
    exact not_keepsGrants (List.filter_eq_nil_iff.mpr hread) hwild hacc hkeeps
  · intro hcond
    refine ⟨fun env hload hok h q => granted_of_success hallow hload hok, ?_⟩
    intro code hbuilt h q hunset
    obtain ⟨htested, s, hs, rfl⟩ := built_cases hver hbuilt
    by_cases hread : readables st = []
    · -- nothing is read: a wildcard is among the rules looked at
      have hdecided : verdict rules q ≠ none := by
        refine blockVerdict_ne_none q _ ?_
        rcases hcond with ⟨p, hp, hr⟩ | ⟨r, hr, hw⟩ | ⟨r, hr, hna⟩
        · exact absurd hr (List.filter_eq_nil_iff.mp hread p hp)
        · rcases mem_tested_or (List.mem_reverse.mpr hr) with hin | hex
          · exact ⟨r, hin, (isWildCard_iff (htested r hin)).mp hw⟩
          · exact hex
        · rcases mem_tested_or (List.mem_reverse.mpr hr) with hin | hex
          · exact absurd (htested r hin) hna
          · exact hex
      obtain ⟨a, ha⟩ := Option.ne_none_iff_exists'.mp hdecided
      exact absurd (Halts.unique (answers_extend_of_some ha) hunset) (by simp)
    · rw [seeds, if_neg hread] at hs
      exact ((hver s (mem_of_mem_readables hs)).extend rules).not_unset h q hunset

/-- A program is attached: adding a device keeps what it grants. -/
theorem keepsGrants_constant : KeepsGrants [(⟨195, 0⟩ : DeviceId).rule] [constant true] := by
  exact (keepsGrants_iff (by decide) (verified_singleton true)).mpr
    (.inl ⟨constant true, by simp, rfl⟩)

/-- No program is attached, everything is granted, and a device is added. -/
theorem not_keepsGrants_nil : ¬ ∀ (rules : List DeviceRule) (st : List Attached),
    (∀ r ∈ rules, r.allow = true) → (∀ p ∈ st, p.Verified) → KeepsGrants rules st := by
  intro h
  have hwild : ∀ r ∈ [(⟨195, 0⟩ : DeviceId).rule], ¬ r.IsWildCard := by
    intro r hr hw
    rw [List.mem_singleton.mp hr] at hw
    exact absurd hw.1 (by decide)
  exact not_keepsGrants rfl hwild (by decide) (h _ [] (by decide) (by simp))

/-! ## Updates that fail -/

theorem typeIntact_tested {rs : List DeviceRule} {q : Request} {x : BitVec 64}
    (hx : TypeIntact rs q x) : TypeIntact (tested rs) q x := by
  induction rs generalizing x with
  | nil => exact hx
  | cons r rs ih =>
    obtain ⟨htype, hrest⟩ := hx
    rw [tested]
    refine ⟨htype, fun hm => ?_⟩
    split_ifs
    · trivial
    · exact ih (hrest hm)

theorem tested_subset (rs : List DeviceRule) : ∀ r ∈ tested rs, r ∈ rs := by
  induction rs with
  | nil => simp [tested]
  | cons r rs ih =>
    intro r' hr'
    rw [tested] at hr'
    rcases List.mem_cons.mp hr' with rfl | hr'
    · simp
    · split_ifs at hr'
      · simp at hr'
      · exact List.mem_cons_of_mem r (ih r' hr')

/-- A request no rule matches is left to the old program, the type register intact. -/
theorem verdict_eq_none {rules : List DeviceRule} {q : Request}
    (hacc : ∀ r ∈ tested rules.reverse, r.Accepted) (hno : ∀ r ∈ rules, ¬ r.isMatch q)
    (hintact : TypeIntact rules.reverse q (q.typ.setWidth 64)) : verdict rules q = none := by
  rw [verdict, ← blocks_tested]
  refine blockVerdict_eq_none hacc (fun r hr => ?_) (typeIntact_tested hintact)
  exact hno r (List.mem_reverse.mp (tested_subset _ r hr))

/-- **What is still denied after an update, however far it got**: a request no rule matches and some
program denied is denied exactly when one of the programs that denied it is not readable, is not
detached yet, or is attached again in its extended form. -/
theorem denied_after_update_iff (env : Env) {rules : List DeviceRule} {st : List Attached}
    (hver : ∀ p ∈ st, p.Verified) (h : Host) {q : Request} (hdenied : ¬ Granted h st q)
    (hno : ∀ r ∈ rules, ¬ r.isMatch q)
    (hintact : TypeIntact rules.reverse q (q.typ.setWidth 64)) :
    ¬ Granted h (addDeviceRules env rules st).2 q ↔
      ∃ p ∈ st, ¬ Answers h p.code q 1
        ∧ (p.readable = false ∨ p ∈ (readables st).drop (progress env rules st).1
          ∨ p ∈ (readables st).take (progress env rules st).2) := by
  -- the programs attached again answer the request as the old ones do
  have hext : 0 < (progress env rules st).2 → ∀ p ∈ readables st,
      (Answers h (p.extend rules).code q 1 ↔ Answers h p.code q 1) := by
    intro hpos p hp
    rcases addDeviceRules_cases env rules st with ⟨e, -, hprog⟩ | ⟨hacc, -⟩
    · rw [hprog] at hpos
      exact absurd hpos (Nat.lt_irrefl 0)
    · exact answers_extend_iff (hver p (mem_of_mem_readables hp)) (verdict_eq_none hacc hno hintact)
  rw [granted_perm (addDeviceRules_perm env rules st), granted_append, granted_append]
  set k := (progress env rules st).1
  set j := (progress env rules st).2
  constructor
  · intro hnot
    by_contra hcon
    simp only [not_exists, not_and, not_or] at hcon
    have hkept : ∀ p ∈ st, p.readable = false ∨ p ∈ (readables st).drop k
        ∨ p ∈ (readables st).take j → Answers h p.code q 1 := by
      intro p hp hwhere
      by_contra hna
      obtain ⟨h₁, h₂, h₃⟩ := hcon p hp hna
      rcases hwhere with hw | hw | hw
      · exact h₁ hw
      · exact h₂ hw
      · exact h₃ hw
    refine hnot ⟨⟨fun p hp => ?_, fun p hp => ?_⟩, fun p hp => ?_⟩
    · exact hkept p (mem_of_mem_readables (List.mem_of_mem_drop hp)) (.inr (.inl hp))
    · obtain ⟨hin, hun⟩ := List.mem_filter.mp hp
      exact hkept p hin (.inl (by simpa using hun))
    · by_cases hread : readables st = []
      · -- nothing is readable: all that denied is still there
        refine absurd (fun p' hp' => hkept p' hp' (.inl ?_)) hdenied
        simpa using List.filter_eq_nil_iff.mp hread p' hp'
      · rw [seeds, if_neg hread, ← List.map_take] at hp
        obtain ⟨p₀, hp₀, rfl⟩ := List.mem_map.mp hp
        have hin := List.mem_of_mem_take hp₀
        have hpos : 0 < j := by
          rcases j with _ | j
          · simp at hp₀
          · exact Nat.succ_pos j
        exact (hext hpos p₀ hin).mpr (hkept p₀ (mem_of_mem_readables hin) (.inr (.inr hp₀)))
  · rintro ⟨p, hp, hna, hwhere⟩ ⟨⟨hdrop, hun⟩, htake⟩
    rcases hwhere with hw | hw | hw
    · exact hna (hun p (List.mem_filter.mpr ⟨hp, by simpa using hw⟩))
    · exact hna (hdrop p hw)
    · have hin := List.mem_of_mem_take hw
      have hpos : 0 < j := by
        rcases hj : j with _ | j
        · rw [hj] at hw
          simp at hw
        · exact Nat.succ_pos j
      have hread : readables st ≠ [] := List.ne_nil_of_mem hin
      refine hna ((hext hpos p hin).mp (htake _ ?_))
      rw [seeds, if_neg hread, ← List.map_take]
      exact List.mem_map_of_mem hw

theorem not_granted_constant (h : Host) (q : Request) : ¬ Granted h [constant false] q := by
  intro hg
  have hone := hg (constant false) (by simp)
  exact absurd (Returns.unique hone (answers_constant h q false)) (by decide)

/-- Two programs are detached, and the second new one cannot be attached: a read of a block device
stays denied, by the first. -/
theorem denied_after_update_constant :
    ∃ env, (addDeviceRules env [(⟨195, 0⟩ : DeviceId).rule] [constant false, constant true]).1
        ≠ .ok ()
      ∧ progress env [(⟨195, 0⟩ : DeviceId).rule] [constant false, constant true] = (2, 1)
      ∧ ¬ Granted someHost
          (addDeviceRules env [(⟨195, 0⟩ : DeviceId).rule] [constant false, constant true]).2
          ⟨1, 2, 8, 0⟩ := by
  set env := Env.failingAttach fun i => if i = 1 then .error "ENOMEM" else .ok () with henv
  have hver : ∀ p ∈ [constant false, constant true], p.Verified := by
    intro p hp
    rcases List.mem_cons.mp hp with rfl | hp
    · exact verified_constant false
    · exact verified_singleton true p hp
  have hprepares : env.Prepares := Env.prepares_failingAttach _
  have hprep := hprepares.prepare_eq (by decide : ∀ r ∈ [(⟨195, 0⟩ : DeviceId).rule], r.Accepted)
    fun p hp => (hver p hp).code_ne_nil
  have hprogress : progress env [(⟨195, 0⟩ : DeviceId).rule] [constant false, constant true]
      = (2, 1) := by
    rw [progress, hprep]
    rfl
  obtain ⟨st', heq, -⟩ := hprepares.addDeviceRules_eq (fun _ => rfl)
    (by decide : ∀ r ∈ [(⟨195, 0⟩ : DeviceId).rule], r.Accepted) fun p hp => (hver p hp).code_ne_nil
  refine ⟨env, fun hok => ?_, hprogress, ?_⟩
  · rw [heq] at hok
    exact absurd ((attachAll_spec env _ st').2.mp hok) (by decide)
  · refine (denied_after_update_iff env hver someHost (fun hgrant => ?_) (by decide)
      (by decide)).mpr ⟨constant false, by simp, fun hone => ?_, .inr (.inr ?_)⟩
    · exact absurd (Returns.unique (hgrant (constant false) (by simp))
        (answers_constant someHost _ false)) (by decide)
    · exact absurd (Returns.unique hone (answers_constant someHost _ false)) (by decide)
    · rw [hprogress]
      exact List.mem_singleton.mpr rfl

/-- The only program denies everything, it is detached, and attaching its extended form fails: a
read of a block device no rule is about becomes granted. -/
theorem granted_after_failed_update : ¬ ∀ (env : Env) (rules : List DeviceRule)
    (st : List Attached) (h : Host) (q : Request), (∀ p ∈ st, p.Verified) →
    (addDeviceRules env rules st).1 ≠ .ok () → ¬ Granted h st q → (∀ r ∈ rules, ¬ r.isMatch q) →
    ¬ Granted h (addDeviceRules env rules st).2 q := by
  intro hclaim
  set env := Env.failingAttach fun _ => .error "EINVAL" with henv
  obtain ⟨st', heq, hperm⟩ :=
    (Env.prepares_failingAttach fun _ => .error "EINVAL").addDeviceRules_eq
    (fun _ => rfl) (by decide : ∀ r ∈ [(⟨195, 0⟩ : DeviceId).rule], r.Accepted)
    fun p hp => (verified_singleton false p hp).code_ne_nil
  obtain rfl : st' = [] := hperm.eq_nil
  have hfail : addDeviceRules env [(⟨195, 0⟩ : DeviceId).rule] [constant false] = (.error _, []) :=
    heq
  refine hclaim env [(⟨195, 0⟩ : DeviceId).rule] [constant false] someHost ⟨1, 2, 8, 0⟩
    (verified_singleton false) ?_ (not_granted_constant someHost _) (by decide) ?_
  · rw [hfail]
    simp
  · rw [hfail]
    intro p hp
    cases hp

end Cgroup
