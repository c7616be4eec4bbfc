import XdxContainer.Perm.Calls

/-!
# Cli/Privileges — the capabilities a command runs with

    permitted := pcaps     inheritable := ∅     bounding := bcaps         once
         │
    effective := ecaps c ──▸ library calls ──▸ effective := ecaps c' ──▸ …      each phase

`configure_command`, `info_command` and `list_command` by what they do to the capabilities of their
process, whichever call fails.  A library call in the mount phase creates files for the user that
owns the container; every other call is made with the capabilities of its phase, neither more nor
fewer.
-/

open Fallible Relation

namespace Perm

/-! ## The tables -/

/-- `NVC_INIT` and the others. -/
inductive Phase
  | init
  | initKmods
  | shutdown
  | container
  | info
  | mount
  | ldcache
  deriving DecidableEq

/-- `pcaps`: the permitted capabilities. -/
def pcaps : List Cap :=
  [CAP_CHOWN, CAP_DAC_OVERRIDE, CAP_DAC_READ_SEARCH, CAP_FOWNER, CAP_KILL, CAP_MKNOD,
    CAP_NET_ADMIN, CAP_SETGID, CAP_SETPCAP, CAP_SETUID, CAP_SYS_ADMIN, CAP_SYS_CHROOT,
    CAP_SYS_PTRACE]

/-- `ecaps`: the effective capabilities of each phase. -/
def ecaps : Phase → List Cap
  | .init => [CAP_KILL, CAP_SETUID, CAP_SETGID, CAP_SYS_CHROOT]
  | .initKmods => [CAP_KILL, CAP_SETUID, CAP_SETGID, CAP_SYS_CHROOT, CAP_CHOWN, CAP_FOWNER,
      CAP_MKNOD, CAP_SETPCAP]
  | .shutdown => [CAP_KILL]
  | .container => [CAP_KILL, CAP_DAC_READ_SEARCH, CAP_SYS_PTRACE]
  | .info => [CAP_KILL]
  | .mount => [CAP_KILL, CAP_NET_ADMIN, CAP_SETUID, CAP_SETGID, CAP_SYS_CHROOT, CAP_SYS_ADMIN,
      CAP_DAC_READ_SEARCH, CAP_SYS_PTRACE, CAP_DAC_OVERRIDE]
  | .ldcache => [CAP_KILL, CAP_SETUID, CAP_SETGID, CAP_SYS_CHROOT, CAP_SYS_ADMIN,
      CAP_DAC_READ_SEARCH, CAP_SYS_PTRACE, CAP_SETPCAP]

/-- `bcaps`: the bounding set. -/
def bcaps : List Cap := [CAP_DAC_OVERRIDE, CAP_SYS_MODULE]

/-! ## The commands -/

/-- The functions of the library that a command calls. -/
inductive LibCall
  | contextNew
  | configNew
  | containerConfigNew
  | init
  | containerNew
  | driverInfoNew
  | deviceInfoNew
  | driverMount
  | deviceMount
  | migDeviceAccessCapsMount
  | migConfigGlobalCapsMount
  | migMonitorGlobalCapsMount
  | deviceMigCapsMount
  | ldcacheUpdate
  | shutdown
  deriving DecidableEq

/-- The calls that create files in the container. -/
def LibCall.Mounts : LibCall → Prop
  | .driverMount | .deviceMount | .migDeviceAccessCapsMount | .migConfigGlobalCapsMount
  | .migMonitorGlobalCapsMount | .deviceMigCapsMount => True
  | _ => False

instance : (c : LibCall) → Decidable c.Mounts
  | .driverMount | .deviceMount | .migDeviceAccessCapsMount | .migConfigGlobalCapsMount
  | .migMonitorGlobalCapsMount | .deviceMigCapsMount => .isTrue trivial
  | .contextNew | .configNew | .containerConfigNew | .init | .containerNew | .driverInfoNew
  | .deviceInfoNew | .ldcacheUpdate | .shutdown => .isFalse id

/-- A file created: its user, and which calls of `set_fsugid` fail, before and after. -/
structure Create where
  owner : Id
  before : PermCall → Option ℤ
  after : PermCall → Option ℤ

/-- A library call: the files it creates, and whether the command goes on after it. -/
structure Act where
  call : LibCall
  creates : List Create
  ok : Bool

/-- The part of a command after its effective capabilities were set. -/
structure Segment where
  phase : Phase
  fails : PermCall → Option ℤ
  acts : List Act

/-- What is visible and selected, as far as the calls depend on it. -/
structure Selected where
  ngpus : ℕ
  nmigs : ℕ
  configAll : Bool
  configGpus : ℕ
  monitorAll : Bool
  monitorGpus : ℕ
  deriving DecidableEq

/-- The mount calls of `configure_command`. -/
def Selected.mounts (sel : Selected) : List LibCall :=
  [.driverMount] ++ List.replicate sel.ngpus .deviceMount
  ++ (if !sel.configAll && !sel.monitorAll
      then List.replicate sel.nmigs .migDeviceAccessCapsMount else [])
  ++ (if sel.configAll && sel.configGpus != 0
      then [.migConfigGlobalCapsMount] ++ List.replicate sel.configGpus .deviceMigCapsMount else [])
  ++ (if sel.monitorAll && sel.monitorGpus != 0
      then [.migMonitorGlobalCapsMount] ++ List.replicate sel.monitorGpus .deviceMigCapsMount
      else [])

/-- The commands, and what is selected to be configured. -/
inductive Command
  | configure (sel : Selected)
  | info
  | list
  deriving DecidableEq

/-- The calls of a command, phase by phase; every command ends with `libnvc.shutdown`. -/
def Command.phases (kmods : Bool) : Command → List (Phase × List LibCall)
  | .configure sel =>
    [(if kmods then .initKmods else .init,
        [.contextNew, .configNew, .containerConfigNew, .init]),
      (.container, [.containerNew]),
      (.info, [.driverInfoNew, .deviceInfoNew]), (.mount, sel.mounts),
      (.ldcache, [.ldcacheUpdate]), (.shutdown, [])]
  | .info | .list =>
    [(if kmods then .initKmods else .init, [.contextNew, .configNew, .init]),
      (.info, [.driverInfoNew, .deviceInfoNew]), (.shutdown, [])]

/-- What happens in a run: which calls fail, and the files that are created. -/
structure Fate where
  permitted : PermCall → Option ℤ
  inheritable : PermCall → Option ℤ
  bounds : PermCall → Option ℤ
  effective : Phase → PermCall → Option ℤ
  creates : LibCall → ℕ → List Create
  ok : LibCall → ℕ → Bool

/-- The calls of a phase as they come to pass. -/
def Fate.segment (fate : Fate) (p : Phase × List LibCall) : Segment where
  phase := p.1
  fails := fate.effective p.1
  acts := p.2.zipIdx.map fun (call, i) =>
    ⟨call, if call.Mounts then fate.creates call i else [], fate.ok call i⟩

/-! ## Runs -/

/-- A library call that was made: the capabilities set last, and the process. -/
structure Seen where
  phase : Option Phase
  call : LibCall
  task : Task

/-- The files of a call are created; none where an assertion fails. -/
def createFiles (creates : List Create) (t : Task) : Option Task :=
  creates.foldlM (fun t c => fileCreateIds c.before c.after c.owner t) t

/-- The calls of a phase: those that were made, whether all succeeded, and the process then. -/
def runActs (phase : Option Phase) : List Act → Task → List Seen × Option (Bool × Task)
  | [], t => ([], some (true, t))
  | a :: as, t =>
    match createFiles a.creates t with
    | none => ([⟨phase, a.call, t⟩], none)
    | some t' =>
      if a.ok then
        let (seen, r) := runActs phase as t'
        (⟨phase, a.call, t⟩ :: seen, r)
      else ([⟨phase, a.call, t⟩], some (false, t'))

/-- The phases, up to the first failure. -/
def runSegments (phase : Option Phase) :
    List Segment → Task → List Seen × Option (Option Phase × Task)
  | [], t => ([], some (phase, t))
  | s :: ss, t =>
    match permSetCapabilities s.fails .effective (ecaps s.phase) t with
    | (.error _, t') => ([], some (phase, t'))
    | (.ok (), t') =>
      match runActs (some s.phase) s.acts t' with
      | (seen, none) => (seen, none)
      | (seen, some (false, t'')) => (seen, some (some s.phase, t''))
      | (seen, some (true, t'')) =>
        let (seen', r) := runSegments (some s.phase) ss t''
        (seen ++ seen', r)

/-- What a command does to its capabilities first; the kernel says that the last one is `n`. -/
def restrict (fate : Fate) (n : ℕ) : Prog ℤ Task Unit := do
  permSetCapabilities fate.permitted .permitted pcaps
  permSetCapabilities fate.inheritable .inheritable []
  permSetBounds fate.bounds n bcaps

/-- `info` and `list` leave the capabilities alone where they are not run as root. -/
def Command.Restricts (cmd : Command) (t : Task) : Prop :=
  match cmd with
  | .configure _ => True
  | .info | .list => t.creds.users.effective = 0

instance : (cmd : Command) → (t : Task) → Decidable (cmd.Restricts t)
  | .configure _, _ => .isTrue trivial
  | .info, t | .list, t => inferInstanceAs (Decidable (t.creds.users.effective = 0))

/-- What was seen, with `libnvc.shutdown` at the end, whatever failed; not after an assertion. -/
def withShutdown : List Seen × Option (Option Phase × Task) → List Seen
  | (seen, none) => seen
  | (seen, some (phase, t)) => seen ++ [⟨phase, .shutdown, t⟩]

/-- **The library calls of a command**, as far as it gets. -/
def Command.run (cmd : Command) (kmods : Bool) (fate : Fate) (n : ℕ) (t : Task) : List Seen :=
  let segments := (cmd.phases kmods).map fate.segment
  if cmd.Restricts t then
    match restrict fate n t with
    | (.error _, _) => []
    | (.ok (), t') => withShutdown (runSegments none segments t')
  else
    let (seen, r) := runActs none (segments.flatMap Segment.acts) t
    withShutdown (seen, r.map fun x => (none, x.2))

/-! ## What is kept -/

/-- What a file created in the mount phase leaves root with. -/
def spilled : Finset Cap := {CAP_CHOWN, CAP_FOWNER, CAP_MKNOD}

/-- The effective capabilities of a phase. -/
def EffectiveIn (root : Prop) : Option Phase → Finset Cap → Prop
  | none, e => e ⊆ pcaps.toFinset
  | some .mount, e => e = (ecaps .mount).toFinset ∨
      root ∧ e = (ecaps .mount).toFinset ∪ spilled ∨
      ¬root ∧ (ecaps .mount).toFinset \ CAP_FS_SET ⊆ e ∧ e ⊆ (ecaps .mount).toFinset
  | some phase, e => e = (ecaps phase).toFinset

/-- **The discipline**: the process has what a phase is for. -/
structure Contained (phase : Option Phase) (t : Task) : Prop where
  permitted : t.caps.permitted = pcaps.toFinset
  inheritable : t.caps.inheritable = ∅
  bounding : t.caps.bounding ⊆ bcaps.toFinset
  fsuid : t.fsuid = t.creds.users.effective
  effective : EffectiveIn (t.creds.users.effective = 0) phase t.caps.effective

section Steps

variable {t t' : Task} {phase : Option Phase}

theorem EffectiveIn.of_eq {root : Prop} (phase : Phase) :
    EffectiveIn root (some phase) (ecaps phase).toFinset := by
  cases phase with
  | mount => exact .inl rfl
  | _ => rfl

/-- A phase is entered. -/
theorem Contained.enter {k : PermCall → Option ℤ} {c : Phase} (h : Contained phase t)
    (hset : permSetCapabilities k .effective (ecaps c) t = (.ok (), t')) :
    Contained (some c) t' := by
  obtain ⟨hsub, rfl⟩ := permSetCapabilities_effective hset
  exact ⟨h.permitted, h.inheritable, h.bounding, h.fsuid, .of_eq c⟩

/-- A file is created. -/
theorem Contained.create {k k' : PermCall → Option ℤ} {uid : Id} (h : Contained (some .mount) t)
    (hcreate : fileCreateIds k k' uid t = some t') : Contained (some .mount) t' := by
  obtain ⟨halike, hfsuid⟩ := alike_fileCreateIds hcreate
  obtain ⟨hroot, huser⟩ := effective_fileCreateIds hcreate h.fsuid
  rw [h.permitted] at hroot huser
  have hover : pcaps.toFinset ∩ {CAP_DAC_OVERRIDE} = {CAP_DAC_OVERRIDE} := by decide
  have hmem : {CAP_DAC_OVERRIDE} ⊆ (ecaps .mount).toFinset := by decide
  have hspill : (ecaps .mount).toFinset ∪ pcaps.toFinset ∩ CAP_FS_SET
      = (ecaps .mount).toFinset ∪ spilled := by decide
  have hspilled : spilled ⊆ pcaps.toFinset ∩ CAP_FS_SET := by decide
  rw [hover] at hroot huser
  refine ⟨halike.permitted.trans h.permitted, halike.inheritable.trans h.inheritable,
    halike.bounding.subset.trans h.bounding, ?_, ?_⟩
  · rw [hfsuid, halike.creds]
  rw [halike.creds]
  rcases h.effective with heff | ⟨hr, heff⟩ | ⟨hr, hlow, hhigh⟩
  · by_cases hr : t.creds.users.effective = 0
    · rcases hroot hr with heff' | heff'
      · exact .inl (by rw [heff', heff, Finset.union_eq_left.mpr hmem])
      · exact .inr (.inl ⟨hr, by rw [heff', heff, hspill]⟩)
    · obtain ⟨hlow', hhigh'⟩ := huser hr
      rw [heff] at hlow' hhigh'
      exact .inr (.inr ⟨hr, hlow', hhigh'.trans (Finset.union_subset subset_rfl hmem)⟩)
  · refine .inr (.inl ⟨hr, ?_⟩)
    rcases hroot hr with heff' | heff'
    · rw [heff', heff, Finset.union_eq_left.mpr (hmem.trans Finset.subset_union_left)]
    · rw [heff', heff, Finset.union_assoc, Finset.union_eq_right.mpr hspilled, hspill]
  · obtain ⟨hlow', hhigh'⟩ := huser hr
    refine .inr (.inr ⟨hr, fun x hx => ?_, hhigh'.trans (Finset.union_subset hhigh hmem)⟩)
    exact hlow' (Finset.mem_sdiff.mpr ⟨hlow hx, (Finset.mem_sdiff.mp hx).2⟩)

theorem Contained.createFiles {creates : List Create} (h : Contained (some .mount) t)
    (hcreate : createFiles creates t = some t') : Contained (some .mount) t' := by
  induction creates generalizing t with
  | nil =>
    obtain rfl := Option.some.inj hcreate
    exact h
  | cons c creates ih =>
    obtain ⟨s, hs, hrest⟩ := Option.bind_eq_some_iff.mp hcreate
    exact ih (h.create hs) hrest

/-- Only a phase that mounts creates files. -/
def Tidy (phase : Option Phase) (acts : List Act) : Prop :=
  phase = some .mount ∨ ∀ a ∈ acts, a.creates = []

/-- **The calls of a phase are made with its capabilities.** -/
theorem Contained.runActs {acts : List Act} (h : Contained phase t) (htidy : Tidy phase acts) :
    (∀ s ∈ (runActs phase acts t).1, s.phase = phase ∧ Contained phase s.task) ∧
    ∀ ok t', (Perm.runActs phase acts t).2 = some (ok, t') → Contained phase t' := by
  induction acts generalizing t with
  | nil =>
    refine ⟨fun s hs => absurd hs List.not_mem_nil, fun ok t' hend => ?_⟩
    obtain ⟨-, rfl⟩ := Prod.mk.inj (Option.some.inj hend)
    exact h
  | cons a acts ih =>
    have hfirst {s : Seen} (hs : s = ⟨phase, a.call, t⟩) :
        s.phase = phase ∧ Contained phase s.task := by
      rw [hs]
      exact ⟨rfl, h⟩
    have hnext {t' : Task} (hcreate : Perm.createFiles a.creates t = some t') :
        Contained phase t' := by
      rcases htidy with rfl | hnone
      · exact h.createFiles hcreate
      · rw [hnone a List.mem_cons_self] at hcreate
        obtain rfl := Option.some.inj hcreate
        exact h
    have hrest : Tidy phase acts := htidy.imp_right fun hnone a ha =>
      hnone a (List.mem_cons_of_mem _ ha)
    rw [Perm.runActs]
    rcases hcreate : Perm.createFiles a.creates t with _ | s
    · refine ⟨fun s hs => hfirst (List.mem_singleton.mp hs), fun ok t' hend => ?_⟩
      cases hend
    · rcases hok : a.ok with _ | _
      · refine ⟨fun s hs => hfirst (List.mem_singleton.mp hs), fun ok t' hend => ?_⟩
        obtain ⟨-, rfl⟩ := Prod.mk.inj (Option.some.inj hend)
        exact hnext hcreate
      · obtain ⟨hseen, hend⟩ := ih (hnext hcreate) hrest
        refine ⟨fun s hs => ?_, hend⟩
        rcases List.mem_cons.mp hs with hs | hs
        · exact hfirst hs
        · exact hseen s hs

/-- **A run of segments stays contained**, by induction on the segments. -/
theorem Contained.runSegments {segments : List Segment} (h : Contained phase t)
    (htidy : ∀ s ∈ segments, Tidy (some s.phase) s.acts) :
    (∀ s ∈ (runSegments phase segments t).1, Contained s.phase s.task) ∧
    ∀ phase' t', (Perm.runSegments phase segments t).2 = some (phase', t') →
      Contained phase' t' := by
  induction segments generalizing phase t with
  | nil =>
    refine ⟨fun s hs => absurd hs List.not_mem_nil, fun phase' t' hend => ?_⟩
    obtain ⟨rfl, rfl⟩ := Prod.mk.inj (Option.some.inj hend)
    exact h
  | cons s segments ih =>
    rw [Perm.runSegments]
    rcases hset : permSetCapabilities s.fails .effective (ecaps s.phase) t with ⟨errno | ⟨⟩, t₁⟩
    · obtain rfl := permSetCapabilities_error Flag.noConfusion hset
      refine ⟨fun s hs => absurd hs List.not_mem_nil, fun phase' t' hend => ?_⟩
      obtain ⟨rfl, rfl⟩ := Prod.mk.inj (Option.some.inj hend)
      exact h
    · obtain ⟨hseen, hend⟩ := (h.enter hset).runActs (htidy s List.mem_cons_self)
      have hsame : ∀ s' ∈ (Perm.runActs (some s.phase) s.acts t₁).1,
          Contained s'.phase s'.task := by
        intro s' hs'
        obtain ⟨hphase, hcont⟩ := hseen s' hs'
        rw [hphase]
        exact hcont
      simp only
      rcases hacts : Perm.runActs (some s.phase) s.acts t₁ with ⟨seen, _ | ⟨_ | _, t₂⟩⟩
      · rw [hacts] at hsame
        exact ⟨hsame, fun phase' t' hend => by cases hend⟩
      · rw [hacts] at hsame hend
        refine ⟨hsame, fun phase' t' heq => ?_⟩
        obtain ⟨rfl, rfl⟩ := Prod.mk.inj (Option.some.inj heq)
        exact hend _ _ rfl
      · rw [hacts] at hsame hend
        obtain ⟨hseen', hend'⟩ := ih (hend _ _ rfl)
          fun s' hs' => htidy s' (List.mem_cons_of_mem _ hs')
        refine ⟨fun s' hs' => ?_, hend'⟩
        rcases List.mem_append.mp hs' with hs' | hs'
        · exact hsame s' hs'
        · exact hseen' s' hs'

/-- What the command does first. -/
theorem contained_of_restrict {fate : Fate} {n : ℕ} (hfsuid : t.fsuid = t.creds.users.effective)
    (hn : n < 2 ^ 31) (hlast : ∀ c ∈ t.caps.bounding, c ≤ n)
    (h : restrict fate n t = (.ok (), t')) : Contained none t' := by
  obtain ⟨_, t₁, hperm, h⟩ := bind_ok h
  obtain ⟨_, t₂, hinh, h⟩ := bind_ok h
  obtain ⟨-, c₁, rfl, hp₁, he₁, -, hb₁⟩ := permSetCapabilities_permitted hperm
  obtain ⟨c₂, rfl, hp₂, he₂, hi₂, hb₂, -⟩ := permSetCapabilities_inheritable hinh
  obtain rfl := (permSetBounds_cases h).2 rfl
  refine ⟨hp₂.trans hp₁, hi₂, fun x hx => ?_, hfsuid, ?_⟩
  · obtain ⟨hmem, hkept⟩ := Finset.mem_filter.mp hx
    rw [hb₂, hb₁] at hmem
    have hle : x ≤ lastCapOf n := by
      have hx := hlast x hmem
      rw [lastCapOf]
      split_ifs with hlt
      · exact hx
      · exact hx.trans (not_lt.mp fun hgt => hlt ⟨hgt, hn⟩)
    exact List.mem_toFinset.mpr (hkept hle)
  · change c₂.effective ⊆ pcaps.toFinset
    rw [he₂, he₁]
    exact Finset.inter_subset_left

end Steps

/-- Only the mount phase mounts. -/
theorem phases_mounts (cmd : Command) (kmods : Bool) :
    ∀ p ∈ cmd.phases kmods, p.1 = .mount ∨ ∀ c ∈ p.2, ¬c.Mounts := by
  have hinit : ∀ c ∈ [LibCall.contextNew, .configNew, .init], ¬c.Mounts := by decide
  have hinit' : ∀ c ∈ [LibCall.contextNew, .configNew, .containerConfigNew, .init],
      ¬c.Mounts := by decide
  have hcontainer : ∀ c ∈ [LibCall.containerNew], ¬c.Mounts := by decide
  have hinfo : ∀ c ∈ [LibCall.driverInfoNew, .deviceInfoNew], ¬c.Mounts := by decide
  have hldcache : ∀ c ∈ [LibCall.ldcacheUpdate], ¬c.Mounts := by decide
  have hnone : ∀ c ∈ ([] : List LibCall), ¬c.Mounts := fun c hc => absurd hc List.not_mem_nil
  intro p hp
  rcases cmd with sel | _ | _
  · simp only [Command.phases, List.mem_cons, List.not_mem_nil, or_false] at hp
    rcases hp with rfl | rfl | rfl | rfl | rfl | rfl
    · exact .inr hinit'
    · exact .inr hcontainer
    · exact .inr hinfo
    · exact .inl rfl
    · exact .inr hldcache
    · exact .inr hnone
  · simp only [Command.phases, List.mem_cons, List.not_mem_nil, or_false] at hp
    rcases hp with rfl | rfl | rfl
    · exact .inr hinit
    · exact .inr hinfo
    · exact .inr hnone
  · simp only [Command.phases, List.mem_cons, List.not_mem_nil, or_false] at hp
    rcases hp with rfl | rfl | rfl
    · exact .inr hinit
    · exact .inr hinfo
    · exact .inr hnone

/-- Files are created in the mount phase alone. -/
theorem tidy_segment (cmd : Command) (kmods : Bool) (fate : Fate) :
    ∀ s ∈ (cmd.phases kmods).map fate.segment, Tidy (some s.phase) s.acts := by
  intro s hs
  obtain ⟨⟨phase, calls⟩, hmem, rfl⟩ := List.mem_map.mp hs
  rcases phases_mounts cmd kmods _ hmem with hphase | hcalls
  · exact .inl (congrArg some hphase)
  · refine .inr fun a ha => ?_
    obtain ⟨⟨call, i⟩, hcall, rfl⟩ := List.mem_map.mp ha
    exact if_neg (hcalls call (List.fst_mem_of_mem_zipIdx hcall))

/-- What the process and whatever it starts can ever have. -/
theorem Contained.reach_subset {phase : Option Phase} {t : Task} (h : Contained phase t) :
    t.reach ⊆ pcaps.toFinset ∪ bcaps.toFinset := by
  rw [Task.reach, h.permitted, h.inheritable, Finset.union_empty]
  exact Finset.union_subset_union subset_rfl h.bounding

theorem contained_of_mem_withShutdown {r : List Seen × Option (Option Phase × Task)}
    (hseen : ∀ s ∈ r.1, Contained s.phase s.task)
    (hend : ∀ phase t, r.2 = some (phase, t) → Contained phase t) :
    ∀ s ∈ withShutdown r, Contained s.phase s.task := by
  obtain ⟨seen, _ | ⟨phase, t⟩⟩ := r
  · exact hseen
  · intro s hs
    rcases List.mem_append.mp hs with hs | hs
    · exact hseen s hs
    · rw [List.mem_singleton.mp hs]
      exact hend phase t rfl

/-- Root's process, with every capability, that nothing fails for; it creates a file for the user
1000 when it mounts the driver. -/
def rootTask : Task where
  creds := ⟨.all 0, .all 0, [], false⟩
  fsuid := 0
  caps := ⟨Finset.range 41, Finset.range 41, ∅, Finset.range 41, ∅, subset_rfl,
    Finset.empty_subset _⟩
  securebits := ⟨false, false, false, false⟩

/-- A program with no capabilities of its own. -/
def plainFile : File := ⟨none, none, none⟩

/-- Every call succeeds. -/
def smooth : Fate where
  permitted _ := none
  inheritable _ := none
  bounds _ := none
  effective _ _ := none
  creates call _ := if call = .driverMount then [⟨1000, fun _ => none, fun _ => none⟩] else []
  ok _ _ := true

end Perm
