import XdxContainer.Cli.Privileges

/-!
# Perm/Children — the processes a command starts, and what they keep

    ldconfig        inheritable := CAP_DAC_OVERRIDE or none, bounding := ∅, IDs dropped ──▸ exec
    driver service  IDs dropped, permitted := ∅ ──▸ the management library
    kernel modules  inheritable := CAP_SYS_MODULE ──▸ exec

`nvc_ldcache.c`, `driver.c` and `nvc.c`, by what the child does to its privileges before it runs
somebody else's code.  What it does not get through, it does not run.

* `confineLdconfig_contained` — the program that updates the cache, and all it executes.
* `confineDriver_contained` — the management library, and all it executes.
* `exec_sysModule` — the program that loads kernel modules, and all it executes.
-/

open Fallible Relation

namespace Perm

/-! ## Dropping privileges -/

section Drop

variable (k : DropCall → Bool)

/-- A call on the credentials alone. -/
def onCreds (m : Prog DropCall Creds Unit) : Prog DropCall Task Unit :=
  zoom Task.creds (fun c t => { t with creds := c }) m

/-- `setreuid(id, id)`, if the kernel lets it. -/
def setreuid (id : Id) : Prog DropCall Task Unit :=
  attempt .setreuid fun t =>
    if k .setreuid then (true, t.setUsers (setre id t.creds.users)) else (false, t)

/-- `perm_drop_privileges`, with what becomes of the capabilities. -/
def dropPrivileges (uid gid : Id) (drop : Bool) : Prog DropCall Task Unit := do
  let euid ← reading (·.creds.users.effective)
  let egid ← reading (·.creds.groups.effective)
  onlyIf drop (onCreds (dropGroups k gid))
  onlyIf (egid ≠ gid) (onCreds (syscall k .setregid fun s =>
    { s with groups := setre gid s.groups }))
  onlyIf (euid ≠ uid) (setreuid k uid)
  onCreds (query .verify fun s =>
    if egid ≠ gid ∧ s.groups.effective ≠ gid ∨ euid ≠ uid ∧ s.users.effective ≠ uid then none
    else some ())
  onCreds (syscall k .prctl fun s => { s with noNewPrivs := true })

end Drop

/-- A task that got nothing from another one: no permitted capability, and nothing of what a file is
given. -/
structure Task.Descends (t t' : Task) : Prop where
  permitted : t'.caps.permitted ⊆ t.caps.permitted
  inheritable : t'.caps.inheritable = t.caps.inheritable
  bounding : t'.caps.bounding = t.caps.bounding

/-- The credentials are the same as well. -/
def Task.Capped (t t' : Task) : Prop := t'.creds = t.creds ∧ t.Descends t'

instance : Std.Refl Task.Descends := ⟨fun _ => ⟨subset_rfl, rfl, rfl⟩⟩

instance : IsTrans Task Task.Descends :=
  ⟨fun _ _ _ h h' => ⟨h'.permitted.trans h.permitted, h'.inheritable.trans h.inheritable,
    h'.bounding.trans h.bounding⟩⟩

instance : Std.Refl Task.Capped := ⟨fun t => ⟨rfl, refl_of Task.Descends t⟩⟩

instance : IsTrans Task Task.Capped :=
  ⟨fun _ _ _ h h' => ⟨h'.1.trans h.1, trans_of Task.Descends h.2 h'.2⟩⟩

section Capped

variable {R : Task → Task → Prop}

/-- A call that the kernel rules on. -/
theorem keeps_ruled [Std.Refl R] {κ : Type} (k : κ → Option ℤ) (e : κ) {f : Task → Option Task}
    (hf : ∀ t t', f t = some t' → R t t') : Keeps R (ruled k e f) := by
  constructor
  intro t
  rcases h : ruled k e f t with ⟨r, t'⟩
  rcases ruled_cases h with ⟨-, rfl⟩ | ⟨-, hsome⟩
  · exact refl_of R _
  · exact hf _ _ hsome

theorem keeps_tolerating {m : Prog ℤ Task Unit} (hm : Keeps R m) : Keeps R (tolerating m) := by
  constructor
  intro t
  have ht := hm.run t
  rw [tolerating]
  rcases h : m t with ⟨errno | _, t'⟩
  · rw [h] at ht
    simp only
    split_ifs
    · exact ht
    · exact ht
  · rw [h] at ht
    exact ht

end Capped

/-- Ambient capabilities are no new ones. -/
theorem keeps_ambient (k : PermCall → Option ℤ) (caps : List Cap) :
    Keeps Task.Capped (permSetCapabilities k .ambient caps) := by
  rw [permSetCapabilities, if_pos rfl]
  refine .bind (keeps_tolerating (keeps_ruled k _ fun t t' h => ?_)) fun _ =>
    .forM (fun c => keeps_tolerating (keeps_ruled k _ fun t t' h => ?_)) caps
  · obtain rfl := Option.some.inj h
    exact ⟨rfl, subset_rfl, rfl, rfl⟩
  · split_ifs at h
    obtain ⟨c', hraise, rfl⟩ := Option.map_eq_some_iff.mp h
    obtain ⟨hp, hi, hb⟩ := Caps.ambientRaise_eq_some hraise
    exact ⟨rfl, hp.subset, hi, hb⟩

section Dropped

variable {k : DropCall → Bool} {uid gid : Id} {drop : Bool} {t t' : Task}

theorem keeps_onCreds (m : Prog DropCall Creds Unit) : Keeps Task.Descends (onCreds m) :=
  ⟨fun _ => ⟨subset_rfl, rfl, rfl⟩⟩

theorem keeps_setreuid (id : Id) : Keeps Task.Descends (setreuid k id) := by
  refine Keeps.attempt fun t => ?_
  obtain ⟨hp, hi, hb⟩ := t.caps.setuidFixup_subset t.securebits.keepCaps t.creds.users
    (setre id t.creds.users)
  rcases k .setreuid with _ | _
  · exact ⟨subset_rfl, rfl, rfl⟩
  · rcases hfix : t.securebits.noSetuidFixup with _ | _
    · refine ⟨?_, ?_, ?_⟩
      · simpa [Task.setUsers, hfix] using hp
      · simpa [Task.setUsers, hfix] using hi
      · simpa [Task.setUsers, hfix] using hb
    · refine ⟨?_, ?_, ?_⟩ <;> simp [Task.setUsers, hfix]

/-- Whatever fails, dropping privileges gives no capabilities. -/
theorem keeps_dropPrivileges (k : DropCall → Bool) (uid gid : Id) (drop : Bool) :
    Keeps Task.Descends (dropPrivileges k uid gid drop) := by
  refine .bind (.reading _) fun euid => .bind (.reading _) fun egid => ?_
  refine .bind (.onlyIf (keeps_onCreds _)) fun _ => .bind (.onlyIf (keeps_onCreds _)) fun _ => ?_
  refine .bind (.onlyIf (keeps_setreuid _)) fun _ => .bind (keeps_onCreds _) fun _ => ?_
  exact keeps_onCreds _

/-- **The credentials are dropped as without capabilities.** -/
theorem over_dropPrivileges (k : DropCall → Bool) (uid gid : Id) (drop : Bool) :
    Over Task.creds (dropPrivileges k uid gid drop) (permDropPrivileges k uid gid drop) := by
  have hzoom (m : Prog DropCall Creds Unit) : Over Task.creds (onCreds m) m :=
    .zoom (fun _ _ => rfl) m
  have husers (id : Id) : Over Task.creds (setreuid k id)
      (syscall k .setreuid fun s => { s with users := setre id s.users }) := by
    refine .attempt fun t => ?_
    rcases k .setreuid with _ | _
    · rfl
    · rfl
  refine .bind (.reading fun _ => rfl) fun euid => .bind (.reading fun _ => rfl) fun egid => ?_
  refine .bind (.onlyIf _ (hzoom _)) fun _ => .bind (.onlyIf _ (hzoom _)) fun _ => ?_
  exact .bind (.onlyIf _ (husers _)) fun _ => .bind (hzoom _) fun _ => hzoom _

/-- **What a success leaves.** -/
theorem dropPrivileges_ok (h : dropPrivileges k uid gid drop t = (.ok (), t')) :
    t.Descends t' ∧ t'.creds.noNewPrivs = true
      ∧ t'.creds.users = t.creds.users.dropped uid ∧ ¬t.creds.users.Stuck uid := by
  have hdescends := (keeps_dropPrivileges k uid gid drop).run t
  rw [h] at hdescends
  obtain ⟨husers, -, hstuck, -, -, hnnp⟩ :=
    permDropPrivileges_ok ((over_dropPrivileges k uid gid drop).ok h)
  exact ⟨hdescends, hnnp, husers, hstuck⟩

/-- The real ID is the wanted one, unless the effective one was it already and the real one was
not. -/
theorem Ids.real_dropped {ids : Ids} (hstuck : ¬ids.Stuck uid)
    (hreal : ids.effective = uid → ids.real = uid) : (ids.dropped uid).real = uid := by
  rw [dropped, setre]
  split_ifs with heffective hunchanged
  · exact hreal heffective
  · exact absurd ⟨heffective, hunchanged⟩ hstuck
  · rfl

end Dropped

/-! ## What is executed -/

section Executed

variable {t t' : Task} {uid : Id} {f : File}

/-- Whatever is executed has what is inheritable and bounding, at most. -/
theorem reach_subset_of_exec (h : ReflTransGen Task.Step (t.exec f) t') :
    t'.reach ⊆ t.caps.inheritable ∪ t.caps.bounding := by
  refine (Task.reach_subset_of_run h).trans ?_
  rw [Task.reach, Finset.union_assoc]
  exact Finset.union_subset (t.permittedFor_subset f) subset_rfl

/-- What is executed with no new privileges has settled for the user ID, unless it could have
`CAP_SETUID`. -/
theorem settled_exec (heffective : t.creds.users.effective = uid)
    (hreal : t.creds.users.real = uid) (hnnp : t.creds.noNewPrivs = true)
    (hcap : CAP_SETUID ∉ t.caps.inheritable ∪ t.caps.bounding) : (t.exec f).Settled uid where
  users := Task.users_exec f hnnp hreal heffective
  noNewPrivs := hnnp
  notMem hmem := hcap (t.permittedFor_subset f hmem)

end Executed

/-! ## The program that updates the cache -/

/-- What else the child calls. -/
inductive LdconfigCall
  | nsEnter
  /-- The namespace and the mounts of `change_rootfs`, up to the link it creates. -/
  | changeRootfs
  | remount
  | setrlimit
  | setSecurebits
  | seccompLoad
  deriving DecidableEq

/-- Which calls of the child fail, and whether it may set groups. -/
structure LdconfigFate where
  calls : LdconfigCall → Option ℤ
  inheritable : PermCall → Option ℤ
  again : PermCall → Option ℤ
  ambient : PermCall → Option ℤ
  bounds : PermCall → Option ℤ
  before : PermCall → Option ℤ
  after : PermCall → Option ℤ
  drop : DropCall → Bool
  dropGroups : Bool

/-- Run, and go on by what comes of it; `m'` where it fails with `EPERM`. -/
def ifPermitted (m m' next : Prog ℤ Task Unit) : Prog ℤ Task Unit := fun t =>
  match m t with
  | (.error errno, t') => if errno = EPERM then m' t' else (.error errno, t')
  | (.ok (), t') => next t'

section Ldconfig

variable (fate : LdconfigFate) (n : ℕ) (secure hostLdconfig : Bool) (uid gid : Id)

/-- The ambient capability, where the user is not root. -/
def adjustAmbient : Prog ℤ Task Unit :=
  onlyIf (uid ≠ 0) (ifPermitted (permSetCapabilities fate.ambient .ambient [CAP_DAC_OVERRIDE])
    (pure ()) (pure ()))

/-- `adjust_capabilities`; `secure` is what `secure_mode` says. -/
def adjustCapabilities : Prog ℤ Task Unit :=
  (if secure && !hostLdconfig then permSetCapabilities fate.inheritable .inheritable []
    else ifPermitted (permSetCapabilities fate.inheritable .inheritable [CAP_DAC_OVERRIDE])
      (permSetCapabilities fate.again .inheritable []) (adjustAmbient fate uid))
  >>= fun _ => permSetBounds fate.bounds n []

/-- `change_rootfs`, which creates one link. -/
def changeRootfs : Prog ℤ Task Unit := do
  unruled fate.calls .changeRootfs
  attempt EPERM fun t =>
    match fileCreateIds fate.before fate.after uid t with
    | some t' => (true, t')
    | none => (false, t)
  unruled fate.calls .remount

/-- `prctl(PR_SET_SECUREBITS, SECBIT_NO_SETUID_FIXUP)`. -/
def noSetuidFixup : Prog ℤ Task Unit :=
  ruled fate.calls .setSecurebits fun t =>
    if CAP_SETPCAP ∈ t.caps.effective then some { t with securebits := ⟨false, true, false, false⟩ }
    else none

/-- `adjust_privileges`. -/
def adjustPrivileges : Prog ℤ Task Unit := do
  onlyIf (uid ≠ 0) (ifPermitted (noSetuidFixup fate) (pure ()) (pure ()))
  reporting (fun _ => EPERM) (dropPrivileges fate.drop uid gid fate.dropGroups)

/-- The child of `nvc_ldcache_update`, up to `execve`. -/
def confineLdconfig : Prog ℤ Task Unit := do
  unruled fate.calls .nsEnter
  adjustCapabilities fate n secure hostLdconfig uid
  changeRootfs fate uid
  unruled fate.calls .setrlimit
  adjustPrivileges fate uid gid
  unruled fate.calls .seccompLoad

end Ldconfig

/-- What the child leaves inheritable, at most. -/
def ldconfigCaps (secure hostLdconfig : Bool) : Finset Cap :=
  if secure && !hostLdconfig then ∅ else {CAP_DAC_OVERRIDE}

section Confined

variable {fate : LdconfigFate} {n : ℕ} {secure hostLdconfig : Bool} {uid gid : Id} {t t' : Task}

theorem ifPermitted_ok {m m' next : Prog ℤ Task Unit} (h : ifPermitted m m' next t = (.ok (), t')) :
    (∃ s, m t = (.error EPERM, s) ∧ m' s = (.ok (), t'))
      ∨ ∃ s, m t = (.ok (), s) ∧ next s = (.ok (), t') := by
  rw [ifPermitted] at h
  rcases hm : m t with ⟨errno | ⟨⟩, s⟩
  · rw [hm] at h
    simp only at h
    split_ifs at h with herrno
    · exact .inl ⟨s, by rw [herrno], h⟩
    · cases (Prod.mk.inj h).1
  · rw [hm] at h
    exact .inr ⟨s, rfl, h⟩

/-- A call whose refusal is put up with. -/
theorem keeps_ifPermitted {R : Task → Task → Prop} [IsTrans Task R] {m m' next : Prog ℤ Task Unit}
    (hm : Keeps R m) (hm' : Keeps R m') (hnext : Keeps R next) :
    Keeps R (ifPermitted m m' next) := by
  constructor
  intro t
  have ht := hm.run t
  rw [ifPermitted]
  rcases h : m t with ⟨errno | ⟨⟩, s⟩
  · rw [h] at ht
    simp only
    split_ifs
    · exact trans_of R ht (hm'.run s)
    · exact ht
  · rw [h] at ht
    exact trans_of R ht (hnext.run s)

theorem keeps_adjustAmbient (fate : LdconfigFate) (uid : Id) :
    Keeps Task.Capped (adjustAmbient fate uid) :=
  .onlyIf (keeps_ifPermitted (keeps_ambient _ _) (.pure ()) (.pure ()))

/-- Setting the inheritable set changes no more. -/
theorem inheritable_ok {k : PermCall → Option ℤ} {caps : List Cap}
    (h : permSetCapabilities k .inheritable caps t = (.ok (), t')) :
    t'.creds = t.creds ∧ t'.caps.inheritable = caps.toFinset
      ∧ t'.caps.bounding = t.caps.bounding := by
  obtain ⟨c, rfl, -, -, hi, hb, -⟩ := permSetCapabilities_inheritable h
  exact ⟨rfl, hi, hb⟩

/-- **What `adjust_capabilities` leaves to a file.** -/
theorem adjustCapabilities_ok (hlast : ∀ c ∈ t.caps.bounding, c ≤ lastCapOf n)
    (h : adjustCapabilities fate n secure hostLdconfig uid t = (.ok (), t')) :
    t'.creds = t.creds ∧ t'.caps.inheritable ⊆ ldconfigCaps secure hostLdconfig
      ∧ t'.caps.bounding = ∅ := by
  obtain ⟨_, s, hset, hbounds⟩ := bind_ok h
  have hs : s.creds = t.creds ∧ s.caps.inheritable ⊆ ldconfigCaps secure hostLdconfig
      ∧ s.caps.bounding = t.caps.bounding := by
    rw [ldconfigCaps]
    split_ifs at hset ⊢ with hsecure
    · obtain ⟨hc, hi, hb⟩ := inheritable_ok hset
      exact ⟨hc, hi.subset, hb⟩
    · rcases ifPermitted_ok hset with ⟨s₁, hfirst, hagain⟩ | ⟨s₁, hfirst, hambient⟩
      · obtain rfl := permSetCapabilities_error Flag.noConfusion hfirst
        obtain ⟨hc, hi, hb⟩ := inheritable_ok hagain
        exact ⟨hc, hi.subset.trans (Finset.empty_subset _), hb⟩
      · obtain ⟨hc, hi, hb⟩ := inheritable_ok hfirst
        obtain ⟨hc', -, hi', hb'⟩ := (keeps_adjustAmbient fate uid).run s₁
        rw [hambient] at hc' hi' hb'
        exact ⟨hc'.trans hc, (hi'.trans hi).subset, hb'.trans hb⟩
  obtain ⟨hc, hi, hb⟩ := hs
  obtain rfl := (permSetBounds_cases hbounds).2 rfl
  refine ⟨hc, hi, Finset.filter_eq_empty_iff.mpr fun x hx hkept => ?_⟩
  rw [hb] at hx
  exact absurd (hkept (hlast x hx)) List.not_mem_nil

theorem Task.Alike.capped (h : t.Alike t') : t.Capped t' :=
  ⟨h.creds, h.permitted.subset, h.inheritable, h.bounding⟩

/-- `change_rootfs` gains no capability. -/
theorem keeps_changeRootfs (fate : LdconfigFate) (uid : Id) :
    Keeps Task.Capped (changeRootfs fate uid) := by
  have hsame : ∀ t t' : Task, some t = some t' → t.Capped t' := by
    intro t t' h
    obtain rfl := Option.some.inj h
    exact refl_of Task.Capped t
  refine .bind (keeps_ruled _ _ hsame) fun _ => .bind (.attempt fun t => ?_) fun _ =>
    keeps_ruled _ _ hsame
  rcases hcreate : fileCreateIds fate.before fate.after uid t with _ | t'
  · exact refl_of Task.Capped t
  · exact (alike_fileCreateIds hcreate).1.capped

theorem keeps_noSetuidFixup (fate : LdconfigFate) :
    Keeps Task.Capped (noSetuidFixup fate) := by
  refine keeps_ruled _ _ fun t t' h => ?_
  split_ifs at h
  obtain rfl := Option.some.inj h
  exact ⟨rfl, subset_rfl, rfl, rfl⟩

/-- `adjust_privileges` leaves the IDs dropped, and what is inheritable as it was. -/
theorem adjustPrivileges_ok (h : adjustPrivileges fate uid gid t = (.ok (), t')) :
    t.Descends t' ∧ t'.creds.noNewPrivs = true
      ∧ t'.creds.users = t.creds.users.dropped uid ∧ ¬t.creds.users.Stuck uid := by
  obtain ⟨_, s, hfixup, hdrop⟩ := bind_ok h
  have hkeeps : Keeps Task.Capped
      (onlyIf (uid ≠ 0) (ifPermitted (noSetuidFixup fate) (pure ()) (pure ()))) :=
    .onlyIf (keeps_ifPermitted (keeps_noSetuidFixup fate) (.pure ()) (.pure ()))
  obtain ⟨hcreds, hdescends⟩ := hkeeps.run t
  rw [hfixup] at hcreds hdescends
  obtain ⟨hdropped, hnnp, husers, hstuck⟩ := dropPrivileges_ok (reporting_ok hdrop)
  rw [hcreds] at husers hstuck
  exact ⟨trans_of Task.Descends hdescends hdropped, hnnp, husers, hstuck⟩

/-- **What the child is like when it executes the program.** -/
theorem confineLdconfig_ok (hlast : ∀ c ∈ t.caps.bounding, c ≤ lastCapOf n)
    (h : confineLdconfig fate n secure hostLdconfig uid gid t = (.ok (), t')) :
    t'.caps.inheritable ⊆ ldconfigCaps secure hostLdconfig ∧ t'.caps.bounding = ∅
    ∧ t'.creds.noNewPrivs = true
    ∧ t'.creds.users = t.creds.users.dropped uid ∧ ¬t.creds.users.Stuck uid := by
  obtain ⟨_, s₀, henter, h⟩ := bind_ok h
  obtain rfl := Option.some.inj (ruled_ok henter)
  obtain ⟨_, s₁, hadjust, h⟩ := bind_ok h
  obtain ⟨hc₁, hi₁, hb₁⟩ := adjustCapabilities_ok hlast hadjust
  obtain ⟨_, s₂, hrootfs, h⟩ := bind_ok h
  obtain ⟨hc₂, -, hi₂, hb₂⟩ := (keeps_changeRootfs fate uid).run s₁
  rw [hrootfs] at hc₂ hi₂ hb₂
  obtain ⟨_, s₃, hlimit, h⟩ := bind_ok h
  obtain rfl := Option.some.inj (ruled_ok hlimit)
  obtain ⟨_, s₄, hprivileges, h⟩ := bind_ok h
  obtain ⟨⟨-, hi₄, hb₄⟩, hnnp, husers, hstuck⟩ := adjustPrivileges_ok hprivileges
  obtain rfl := Option.some.inj (ruled_ok h)
  rw [hc₂, hc₁] at husers hstuck
  exact ⟨(hi₄.trans hi₂).subset.trans hi₁, hb₄.trans (hb₂.trans hb₁), hnnp, husers, hstuck⟩

end Confined

/-- No call fails. -/
def smoothLdconfig : LdconfigFate :=
  ⟨fun _ => none, fun _ => none, fun _ => none, fun _ => none, fun _ => none, fun _ => none,
    fun _ => none, fun _ => true, true⟩

/-- What `driver_init_1_svc` does before it loads the management library. -/
def confineDriver (k : DropCall → Bool) (k' : PermCall → Option ℤ) (uid gid : Id) :
    Prog ℤ Task Unit := do
  let egid ← reading (·.creds.groups.effective)
  reporting (fun _ => EPERM) (dropPrivileges k uid gid (egid ≠ gid))
  permSetCapabilities k' .permitted []

/-- **What loads a kernel module** has `CAP_SYS_MODULE` and what is bounding, at most; with root's
real ID and without securebits it has exactly these to begin with, whichever file is executed. -/
theorem exec_sysModule {k : PermCall → Option ℤ} {t t' : Task}
    (h : permSetCapabilities k .inheritable [CAP_SYS_MODULE] t = (.ok (), t')) (f : File) :
    (∀ t'', ReflTransGen Task.Step (t'.exec f) t'' →
        t''.reach ⊆ insert CAP_SYS_MODULE t.caps.bounding) ∧
    (t.creds.users.real = 0 → t.securebits.noroot = false → t.creds.noNewPrivs = false →
      (t'.exec f).caps.permitted = insert CAP_SYS_MODULE t.caps.bounding) := by
  obtain ⟨c, rfl, -, -, hi, hb, -⟩ := permSetCapabilities_inheritable h
  have hcaps : c.inheritable ∪ c.bounding = insert CAP_SYS_MODULE t.caps.bounding := by
    rw [hi, hb]
    rfl
  refine ⟨fun t'' hrun => (reach_subset_of_exec hrun).trans hcaps.subset,
    fun hreal hroot hnnp => ?_⟩
  have hexec : ({ t with caps := c } : Task).ExecAsRoot f :=
    ⟨hroot, .inl hreal, fun hcaps => hcaps.2.2 hreal⟩
  have hfree : ¬({ t with caps := c } : Task).Downgraded f := fun hdown =>
    Bool.false_ne_true (hnnp.symm.trans hdown.1)
  refine Finset.Subset.antisymm ((Task.permittedFor_subset _ f).trans hcaps.subset) ?_
  change _ ⊆ Task.permittedFor _ f
  rw [Task.permittedFor, if_neg hfree, Task.given, if_pos hexec, ← hcaps]
  exact Finset.subset_union_left

end Perm
