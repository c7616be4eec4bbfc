import XdxContainer.Mount.Apart

/-!
# Mount/DriverMount — what a failed `nvc_driver_mount` leaves in the mount table

    first failing step                               table afterwards, destinations apart
    ──────────────────────────────────────────────────────────────────────────────────────
    remount or copy of a file in `mount_files`       one mount too many
    bind of a device onto a mount one sees           one mount of somebody else's missing
    the way back into the process's namespace        everything mounted is still there
    any other                                        the table it started from

`driverPlan` lists the steps of a call and `driverUndone` what is unmounted when one fails;
`nvcDriverMount_restores_iff` is the table above.  Where destinations lie below one another, or a
later mount covers an earlier destination, it is a matter of the layers (`Layers.Unwinds`).
-/

open Paths Fs Fallible

namespace Mount

section Plan

variable (env : Faults) (ctx : Context) (cnt : Container) (info : DriverInfo)

/-! ## The plan -/

/-- The calls of `symlink_library`, and which of them fail. -/
def linkPlan (i j : ℕ) (src linkname : Str) : List (Step × Bool) :=
  [(⟨.symlinks i, .linkDup, j⟩, env.fails ⟨.symlinks i, .linkDup, j⟩),
    (⟨.symlinks i, .linkPath, j⟩, !(pathJoin (dirname src) linkname).1),
    (⟨.symlinks i, .linkCreate, j⟩, env.fails ⟨.symlinks i, .linkCreate, j⟩)]

/-- The calls for the links of one library. -/
def linksPlan (i : ℕ) (src : Str) : ℕ → List (Str × Str) → List (Step × Bool)
  | _, [] => []
  | j, (_, linkname) :: links => linkPlan env i j src linkname ++ linksPlan i src (j + 1) links

/-- The calls of `symlink_libraries`. -/
def symlinksPlan : ℕ → List Str → List (Step × Bool)
  | _, [] => []
  | i, path :: paths =>
    linksPlan env i path 0 (symlinksOf (basename path)) ++ symlinksPlan (i + 1) paths

/-- The call of `setup_device_cgroup`, unless the container does not want it. -/
def cgroupPlan (call : Call) : List (Step × Bool) :=
  if !cnt.has OPT_NO_CGROUPS then [(⟨call, .cgroup, 0⟩, env.fails ⟨call, .cgroup, 0⟩)] else []

/-- The calls for the devices that are not passed by. -/
def devicesPlan : ℕ → List DeviceNode → List (Step × Bool)
  | _, [] => []
  | i, dev :: devs =>
    (if Host.skipsDevice ctx cnt dev then []
      else (if !cnt.has OPT_NO_DEVBIND then devicePlan env (.dev i) ctx.root dev else [])
        ++ cgroupPlan env cnt (.dev i))
      ++ devicesPlan (i + 1) devs

/-- The destination of a device, if it is bound. -/
def deviceMnt (call : Call) : Option Str :=
  if !cnt.has OPT_NO_DEVBIND then some (env.dst call) else none

/-- The destinations of the devices. -/
def devicesMnt : ℕ → List DeviceNode → List Str
  | _, [] => []
  | i, dev :: devs =>
    (if Host.skipsDevice ctx cnt dev then [] else (deviceMnt env cnt (.dev i)).toList)
      ++ devicesMnt (i + 1) devs

/-- The destinations of the host's binaries and libraries. -/
def hostMnt : List Str :=
  filesMnt env cnt .bins info.bins ++ filesMnt env cnt .libs info.libs
    ++ if cnt.has OPT_COMPAT32 then filesMnt env cnt .libs32 info.libs32 else []

/-- Everything a call mounts when no step fails. -/
def driverMnt : List Str :=
  hostMnt env cnt info ++ filesMnt env cnt .cntLibs (filterLibraries info cnt.libs)
    ++ devicesMnt env ctx cnt 0 info.devs

/-- The calls of `nvc_driver_mount`, and which of them fail. -/
def driverBodyPlan : List (Step × Bool) :=
  [(⟨.top, .arrayNew, 0⟩, env.fails ⟨.top, .arrayNew, 0⟩)]
    ++ (if info.bins = [] then [] else filesPlan env cnt .bins ctx.root info.bins)
    ++ (if info.libs = [] then [] else filesPlan env cnt .libs ctx.root info.libs)
    ++ (if cnt.has OPT_COMPAT32 = false ∨ info.libs32 = [] then []
      else filesPlan env cnt .libs32 ctx.root info.libs32)
    ++ symlinksPlan env 0 (hostMnt env cnt info)
    ++ (if cnt.libs = [] then []
      else (⟨.cntLibs, .arrayCopy, 0⟩, env.fails ⟨.cntLibs, .arrayCopy, 0⟩)
        :: filesPlan env cnt .cntLibs cnt.rootfs (filterLibraries info cnt.libs))
    ++ devicesPlan env ctx cnt 0 info.devs

/-- The steps around the body of an operation. -/
def inContainerPlan (body : List (Step × Bool)) : List (Step × Bool) :=
  [(⟨.top, .validate, 0⟩, !ctx.initialized),
    (⟨.top, .nsEnter, 0⟩, env.fails ⟨.top, .nsEnter, 0⟩)]
    ++ body ++ [(⟨.top, .nsLeave, 0⟩, env.fails ⟨.top, .nsLeave, 0⟩)]

/-- **The steps of `nvc_driver_mount`**, in order, each with whether it fails. -/
def driverPlan : List (Step × Bool) := inContainerPlan env ctx (driverBodyPlan env ctx cnt info)

end Plan

/-! ## What is unmounted -/

/-- The calls of `mount_files` in `nvc_driver_mount`. -/
def Call.ofFiles (call : Call) : Bool :=
  call = .bins || call = .libs || call = .libs32 || call = .cntLibs

/-- The paths of the calls of `mount_files` in `nvc_driver_mount`. -/
def driverFiles (cnt : Container) (info : DriverInfo) : Call → Option (List Str)
  | .bins => some info.bins
  | .libs => some info.libs
  | .libs32 => some info.libs32
  | .cntLibs => some (filterLibraries info cnt.libs)
  | _ => none

/-- What the label of `mount_device` unmounts in `nvc_driver_mount`. -/
def driverLabel (env : Faults) (e : Step) : List Str :=
  match e.call with
  | .dev _ => deviceLabel env e
  | _ => []

/-- The destination of a step of `nvc_driver_mount`. -/
def driverDst (env : Faults) (cnt : Container) (info : DriverInfo) : Step → Str :=
  env.dstOf (driverFiles cnt info)

/-- **What a failed `nvc_driver_mount` unmounts**, in order, when these steps are done and the next
one fails: `mount_files` what it recorded itself, then the label what was recorded before. -/
def driverUndone (env : Faults) (cnt : Container) (info : DriverInfo) (s : List Step) (e : Step) :
    List Str :=
  if e.op = .nsLeave then []
  else if e.call.ofFiles then
    copied (driverDst env cnt info) (· = e.call) s ++ copied (driverDst env cnt info) (· ≠ e.call) s
  else driverLabel env e ++ copied (driverDst env cnt info) (fun _ => true) s

section Body

variable {env : Faults} {ctx : Context} {cnt : Container} {info : DriverInfo} {t t₀ : Table Name}
  {s : List Step} {mnt : List Str}

/-- A failure outside of `mount_files`. -/
theorem driverUndone_eq {e : Step} (hop : e.op ≠ .nsLeave) (hcall : e.call.ofFiles = false) :
    driverUndone env cnt info s e
      = driverLabel env e ++ copied (driverDst env cnt info) (fun _ => true) s := by
  rw [driverUndone, if_neg hop, hcall]
  rfl

/-- A failure around `mount_files`. -/
theorem driverUndone_of_files {call : Call} {e : Step} (hop : e.op ≠ .nsLeave) (he : e.call = call)
    (hcall : call.ofFiles = true) : driverUndone env cnt info s e
      = copied (driverDst env cnt info) (· = call) s
        ++ copied (driverDst env cnt info) (· ≠ call) s := by
  rw [driverUndone, if_neg hop, he, if_pos hcall]

/-! ## The parts of the body -/

/-- A call of `mount_files`, which has the mounts before it undone if it fails. -/
theorem traced_appendFiles {call : Call} {paths : List Str} (root dir : Str)
    (hcall : call.ofFiles = true) (hfiles : driverFiles cnt info call = some paths)
    (hmnt : copied (driverDst env cnt info) (fun _ => true) s = mnt) (hnew : Unlisted call s) :
    Traced env (driverUndone env cnt info) t₀ s (env.host.appendFiles cnt call root dir paths mnt)
      (filesPlan env cnt call root paths) (mnt ++ filesMnt env cnt call paths) := by
  refine Traced.bind_pure ?_ (mnt ++ ·)
  refine (traced_mountFiles root dir hfiles hnew).onError (unmountAll_eq mnt) fun e he => ?_
  obtain ⟨hstep, hop⟩ := filesPlan_call (mem_of_firstFailure he)
  have hrest : copied (driverDst env cnt info) (· ≠ call)
      (succeeded (filesPlan env cnt call root paths)) = [] := by
    refine copied_eq_nil fun e' he' _ => ?_
    obtain ⟨x, hx, rfl⟩ := List.mem_map.mp (((List.takeWhile_sublist _).map _).subset he')
    simp [(filesPlan_call hx).1]
  rw [driverUndone_of_files (ne_of_ofMount hop rfl) hstep hcall]
  congr 1
  rw [copied_append, hrest, hnew.copied_ne, hmnt, List.append_nil]

/-! ### Links -/

/-- One link. -/
theorem traced_symlinkLibrary (i j : ℕ) (src target linkname : Str) : Traced env nothing t₀ s
    (symlinkLibrary env.host.toSys i j src target linkname) (linkPlan env i j src linkname) () :=
  (Traced.allocate (by simp) rfl).bind ((Traced.joined _ (by simp) rfl).bind
    (Traced.attempt (by simp) (fun _ => rfl) rfl))

/-- The links of one library, by induction on those that are left. -/
theorem traced_symlinkAll (i : ℕ) (src : Str) (j : ℕ) (links : List (Str × Str)) :
    Traced env nothing t₀ s (symlinkAll env.host.toSys i src j links) (linksPlan env i src j links)
      () := by
  induction links generalizing j s with
  | nil => exact Traced.pure ()
  | cons link links ih => exact (traced_symlinkLibrary i j src link.1 link.2).bind (ih (j + 1))

/-- `symlink_libraries` does not mount. -/
theorem traced_symlinkLibraries (i : ℕ) (paths : List Str) : Traced env nothing t₀ s
    (symlinkLibraries env.host.toSys i paths) (symlinksPlan env i paths) () := by
  induction paths generalizing i s with
  | nil => exact Traced.pure ()
  | cons path paths ih => exact (traced_symlinkAll i path 0 _).bind (ih (i + 1))

/-- The steps of links are none of the mount functions'. -/
def Op.ofLink : Op → Bool
  | .linkDup | .linkPath | .linkCreate => true
  | _ => false

theorem linksPlan_call {i j : ℕ} {src : Str} {links : List (Str × Str)} {x : Step × Bool}
    (hx : x ∈ linksPlan env i src j links) : x.1.call = .symlinks i ∧ x.1.op.ofLink = true := by
  induction links generalizing j with
  | nil => cases hx
  | cons link links ih =>
    rcases List.mem_append.mp hx with hx | hx
    · simp only [linkPlan, List.mem_cons, List.not_mem_nil, or_false] at hx
      rcases hx with rfl | rfl | rfl <;> exact ⟨rfl, rfl⟩
    · exact ih hx

theorem symlinksPlan_call {i : ℕ} {paths : List Str} {x : Step × Bool}
    (hx : x ∈ symlinksPlan env i paths) :
    (∃ i, x.1.call = .symlinks i) ∧ x.1.op.ofLink = true := by
  induction paths generalizing i with
  | nil => cases hx
  | cons path paths ih =>
    rcases List.mem_append.mp hx with hx | hx
    · exact ⟨⟨i, (linksPlan_call hx).1⟩, (linksPlan_call hx).2⟩
    · exact ih hx

theorem plain_symlinksPlan (i : ℕ) (paths : List Str) : Plain (symlinksPlan env i paths) := by
  intro x hx
  have hop := (symlinksPlan_call hx).2
  rcases h : x.1.op <;> simp_all [Op.ofLink, Op.ofBind]

/-- The links of all libraries. -/
theorem traced_symlinks (hmnt : copied (driverDst env cnt info) (fun _ => true) s = mnt) :
    Traced env (driverUndone env cnt info) t₀ s
      (onError (symlinkLibraries env.host.toSys 0 mnt) (env.host.unmountAll mnt))
      (symlinksPlan env 0 mnt) () := by
  refine (traced_symlinkLibraries 0 mnt).onError (unmountAll_eq mnt) fun e he => ?_
  obtain ⟨⟨i, hcall⟩, hop⟩ : (∃ i, e.call = .symlinks i) ∧ e.op.ofLink = true :=
    symlinksPlan_call (mem_of_firstFailure he)
  have hleave : e.op ≠ .nsLeave := by
    rintro h
    rw [h] at hop
    cases hop
  have hlabel : driverLabel env e = [] := by rw [driverLabel, hcall]
  have hnone : copied (driverDst env cnt info) (fun _ => true) (succeeded (symlinksPlan env 0 mnt))
      = [] := (plain_symlinksPlan 0 mnt).copied_eq_nil (succeeded_sublist _).subset
  rw [driverUndone_eq hleave (by simp [hcall, Call.ofFiles]), hlabel, copied_append, hnone, hmnt,
    List.append_nil]
  rfl

/-! ### Devices -/

theorem cgroupPlan_step {call : Call} {x : Step × Bool} (hx : x ∈ cgroupPlan env cnt call) :
    x.1 = ⟨call, .cgroup, 0⟩ := by
  rw [cgroupPlan] at hx
  split_ifs at hx
  · rw [List.mem_singleton.mp hx]
  · cases hx

theorem plain_cgroupPlan {call : Call} : Plain (cgroupPlan env cnt call) := by
  intro x hx
  rw [cgroupPlan_step hx]
  rfl

/-- A device is let through. -/
theorem traced_cgroup {U : List Step → Step → List Str} (call : Call) (id : Dev)
    (hU : U s ⟨call, .cgroup, 0⟩ = []) : Traced env U t₀ s (env.host.cgroup cnt call id)
      (cgroupPlan env cnt call) () :=
  Traced.onlyIf _ fun _ => Traced.attempt (by simp) (fun _ => rfl) hU

/-- The destination of a device is recorded if it is bound. -/
theorem copied_boundDevice {files : Call → Option (List Str)} {call : Call}
    (hfiles : files call = none) (root : Str) (dev : DeviceNode) :
    copied (env.dstOf files) (fun _ => true)
      ((if !cnt.has OPT_NO_DEVBIND then devicePlan env call root dev else []).map (·.1))
      = (deviceMnt env cnt call).toList := by
  rw [deviceMnt]
  split_ifs
  · exact copied_devicePlan hfiles root dev
  · rfl

theorem copied_boundDevice_of_failed {D : Step → Str} {calls : Call → Bool} {call : Call}
    {root : Str} {dev : DeviceNode} {e : Step} (he : firstFailure
      (if !cnt.has OPT_NO_DEVBIND then devicePlan env call root dev else []) = some e) :
    copied D calls (succeeded
      (if !cnt.has OPT_NO_DEVBIND then devicePlan env call root dev else [])) = [] := by
  split_ifs at he ⊢
  · exact copied_devicePlan_of_failed he
  · cases he

theorem boundDevice_call {call : Call} {root : Str} {dev : DeviceNode} {x : Step × Bool}
    (hx : x ∈ if !cnt.has OPT_NO_DEVBIND then devicePlan env call root dev else []) :
    x.1.call = call ∧ x.1.op.ofMount = true := by
  split_ifs at hx
  · exact devicePlan_call hx
  · cases hx

/-- What is recorded of a device once it is mounted. -/
theorem copied_device {files : Call → Option (List Str)} {call : Call} (hfiles : files call = none)
    (hnew : Unlisted call s) (root : Str) (dev : DeviceNode) :
    copied (env.dstOf files) (· = call)
      (s ++ (if !cnt.has OPT_NO_DEVBIND then devicePlan env call root dev else []).map (·.1))
      = (deviceMnt env cnt call).toList := by
  rw [copied_append, hnew.copied_eq_nil,
    copied_own (fun _ hx => (boundDevice_call hx).1) (List.Subset.refl _)]
  exact copied_boundDevice hfiles root dev

/-- A device is mounted, unless the container does not want it. -/
theorem traced_appendDevice (i : ℕ) (dev : DeviceNode)
    (hmnt : copied (driverDst env cnt info) (fun _ => true) s = mnt) :
    Traced env (driverUndone env cnt info) t₀ s (env.host.appendDevice ctx cnt (.dev i) dev mnt)
      (if !cnt.has OPT_NO_DEVBIND then devicePlan env (.dev i) ctx.root dev else [])
      (mnt ++ (deviceMnt env cnt (.dev i)).toList) := by
  refine Traced.bind_pure (Traced.optionally _ fun _ => ?_) (mnt ++ ·.toList)
  refine (traced_mountDevice ctx.root dev).onError (unmountAll_eq mnt) fun e he => ?_
  obtain ⟨hcall, hop⟩ : e.call = .dev i ∧ e.op.ofMount = true :=
    devicePlan_call (mem_of_firstFailure he)
  have hlabel : driverLabel env e = deviceLabel env e := by rw [driverLabel, hcall]
  rw [driverUndone_eq (ne_of_ofMount hop rfl) (by simp [hcall, Call.ofFiles]), hlabel,
    copied_append, copied_devicePlan_of_failed he, hmnt, List.append_nil]

/-- A device is let through, or all mounts are undone. -/
theorem traced_cgroup_driver (i : ℕ) (id : Dev)
    (hmnt : copied (driverDst env cnt info) (fun _ => true) s = mnt) :
    Traced env (driverUndone env cnt info) t₀ s
      (onError (env.host.cgroup cnt (.dev i) id) (env.host.unmountAll mnt))
      (cgroupPlan env cnt (.dev i)) () := by
  refine (traced_cgroup (U := nothing) (.dev i) id rfl).onError (unmountAll_eq mnt) fun e he => ?_
  obtain rfl : e = ⟨.dev i, .cgroup, 0⟩ := cgroupPlan_step (mem_of_firstFailure he)
  rw [driverUndone_eq (by simp) rfl, copied_append, hmnt,
    plain_cgroupPlan.copied_eq_nil (succeeded_sublist _).subset, List.append_nil]
  rfl

/-- What the loop over the devices records. -/
theorem copied_devicesPlan (i : ℕ) (devs : List DeviceNode) :
    copied (driverDst env cnt info) (fun _ => true) ((devicesPlan env ctx cnt i devs).map (·.1))
      = devicesMnt env ctx cnt i devs := by
  induction devs generalizing i with
  | nil => rfl
  | cons dev devs ih =>
    rw [devicesPlan, devicesMnt, List.map_append, copied_append, ih]
    by_cases hskip : Host.skipsDevice ctx cnt dev = true
    · rw [if_pos hskip, if_pos hskip]
      rfl
    · rw [if_neg hskip, if_neg hskip, List.map_append, copied_append,
        plain_cgroupPlan.copied_eq_nil (List.Subset.refl _), List.append_nil]
      exact congrArg (· ++ _) (copied_boundDevice rfl ctx.root dev)

/-- The loop over the devices. -/
theorem traced_mountDevices (i : ℕ) (devs : List DeviceNode)
    (hmnt : copied (driverDst env cnt info) (fun _ => true) s = mnt) :
    Traced env (driverUndone env cnt info) t₀ s (env.host.mountDevices ctx cnt i devs mnt)
      (devicesPlan env ctx cnt i devs) (mnt ++ devicesMnt env ctx cnt i devs) := by
  induction devs generalizing i mnt s with
  | nil =>
    rw [devicesMnt, List.append_nil]
    exact Traced.pure mnt
  | cons dev devs ih =>
    rw [Host.mountDevices, devicesPlan, devicesMnt]
    by_cases hskip : Host.skipsDevice ctx cnt dev = true
    · rw [if_pos hskip, if_pos hskip, if_pos hskip]
      exact ih (i + 1) hmnt
    · rw [if_neg hskip, if_neg hskip, if_neg hskip, ← List.append_assoc, List.append_assoc]
      have hdev : copied (driverDst env cnt info) (fun _ => true) (s ++
          (if !cnt.has OPT_NO_DEVBIND then devicePlan env (.dev i) ctx.root dev else []).map (·.1))
          = mnt ++ (deviceMnt env cnt (.dev i)).toList := by
        rw [copied_append, hmnt]
        exact congrArg (mnt ++ ·) (copied_boundDevice rfl ctx.root dev)
      refine (traced_appendDevice i dev hmnt).bind ((traced_cgroup_driver i dev.id hdev).bind
        (ih (i + 1) ?_))
      rw [copied_append, hdev, plain_cgroupPlan.copied_eq_nil (List.Subset.refl _),
        List.append_nil]

/-- The container's own libraries. -/
theorem traced_appendCntLibs (hmnt : copied (driverDst env cnt info) (fun _ => true) s = mnt)
    (hnew : Unlisted .cntLibs s) :
    Traced env (driverUndone env cnt info) t₀ s (env.host.appendCntLibs cnt info mnt)
      ([(⟨.cntLibs, .arrayCopy, 0⟩, env.fails ⟨.cntLibs, .arrayCopy, 0⟩)]
        ++ filesPlan env cnt .cntLibs cnt.rootfs (filterLibraries info cnt.libs))
      (mnt ++ filesMnt env cnt .cntLibs (filterLibraries info cnt.libs)) := by
  have hcopy : Traced env (driverUndone env cnt info) t₀ s
      (onError (env.host.allocate ⟨.cntLibs, .arrayCopy, 0⟩) (env.host.unmountAll mnt))
      [(⟨.cntLibs, .arrayCopy, 0⟩, env.fails ⟨.cntLibs, .arrayCopy, 0⟩)] () := by
    refine (Traced.allocate (U := nothing) (by simp) rfl).onError (unmountAll_eq mnt) fun e he => ?_
    obtain ⟨rfl, htrue⟩ := Prod.mk.inj (List.mem_singleton.mp (mem_of_firstFailure he))
    rw [← htrue, succeeded_cons_true, List.append_nil, driverUndone_of_files (by simp) rfl rfl,
      hnew.copied_eq_nil, hnew.copied_ne, hmnt]
    rfl
  refine hcopy.bind (traced_appendFiles _ _ rfl rfl ?_ (hnew.append ?_))
  · rw [copied_append, hmnt]
    exact List.append_nil mnt
  · simp [Unlisted]

/-! ### The body -/

/-- What a part that may be left out records. -/
theorem copied_skipping {c : Prop} [Decidable c] {D : Step → Str} {p : List (Step × Bool)}
    {r : List Str} (hc : c → r = []) (hp : ¬c → copied D (fun _ => true) (p.map (·.1)) = r) :
    copied D (fun _ => true) ((if c then [] else p).map (·.1)) = r := by
  split_ifs with h
  · rw [hc h]
    rfl
  · exact hp h

theorem mem_of_mem_skipping {c : Prop} [Decidable c] {p : List (Step × Bool)} {x : Step × Bool}
    (hx : x ∈ if c then [] else p) : x ∈ p := by
  split_ifs at hx
  · cases hx
  · exact hx

/-- A plan does not list another call. -/
theorem unlisted_filesPlan {c : Prop} [Decidable c] {call call' : Call} {root : Str}
    {paths : List Str} (hne : call' ≠ call) :
    Unlisted call ((if c then [] else filesPlan env cnt call' root paths).map (·.1)) :=
  .of_call (fun _ hx => (filesPlan_call (mem_of_mem_skipping hx)).1) hne

/-- The host's 32-bit libraries. -/
def libs32Mnt (env : Faults) (cnt : Container) (info : DriverInfo) : List Str :=
  if cnt.has OPT_COMPAT32 then filesMnt env cnt .libs32 info.libs32 else []

theorem libs32Mnt_eq_nil (h : cnt.has OPT_COMPAT32 = false ∨ info.libs32 = []) :
    libs32Mnt env cnt info = [] := by
  rcases h with h | h
  · simp [libs32Mnt, h]
  · simp [libs32Mnt, h, filesMnt]

theorem libs32Mnt_eq (h : ¬(cnt.has OPT_COMPAT32 = false ∨ info.libs32 = [])) :
    libs32Mnt env cnt info = filesMnt env cnt .libs32 info.libs32 := by
  refine if_pos ?_
  by_contra hfalse
  exact h (.inl (eq_false_of_ne_true hfalse))

/-- What is recorded of the binaries. -/
theorem copied_bins : copied (driverDst env cnt info) (fun _ => true)
    ((if info.bins = [] then [] else filesPlan env cnt .bins ctx.root info.bins).map (·.1))
      = filesMnt env cnt .bins info.bins :=
  copied_skipping (fun h => by rw [h]; rfl) fun _ => copied_filesPlan rfl

/-- What is recorded of the libraries. -/
theorem copied_libs : copied (driverDst env cnt info) (fun _ => true)
    ((if info.libs = [] then [] else filesPlan env cnt .libs ctx.root info.libs).map (·.1))
      = filesMnt env cnt .libs info.libs :=
  copied_skipping (fun h => by rw [h]; rfl) fun _ => copied_filesPlan rfl

/-- What is recorded of the 32-bit libraries. -/
theorem copied_libs32 : copied (driverDst env cnt info) (fun _ => true)
    ((if cnt.has OPT_COMPAT32 = false ∨ info.libs32 = [] then []
      else filesPlan env cnt .libs32 ctx.root info.libs32).map (·.1)) = libs32Mnt env cnt info :=
  copied_skipping libs32Mnt_eq_nil fun h => (copied_filesPlan rfl).trans (libs32Mnt_eq h).symm

theorem copied_symlinksPlan (paths : List Str) : copied (driverDst env cnt info) (fun _ => true)
    ((symlinksPlan env 0 paths).map (·.1)) = [] :=
  (plain_symlinksPlan 0 paths).copied_eq_nil (List.Subset.refl _)

/-- What is recorded of the container libraries. -/
theorem copied_cntLibs : copied (driverDst env cnt info) (fun _ => true)
    ((if cnt.libs = [] then []
      else (⟨.cntLibs, .arrayCopy, 0⟩, env.fails ⟨.cntLibs, .arrayCopy, 0⟩)
        :: filesPlan env cnt .cntLibs cnt.rootfs (filterLibraries info cnt.libs)).map (·.1))
      = filesMnt env cnt .cntLibs (filterLibraries info cnt.libs) :=
  copied_skipping (fun h => by rw [h]; rfl) fun _ => copied_filesPlan rfl

/-- What the body records. -/
theorem copied_driverBodyPlan : copied (driverDst env cnt info) (fun _ => true)
    ((driverBodyPlan env ctx cnt info).map (·.1)) = driverMnt env ctx cnt info := by
  simp only [driverBodyPlan, List.map_append, copied_append]
  rw [copied_bins, copied_libs, copied_libs32, copied_symlinksPlan, copied_cntLibs,
    copied_devicesPlan, List.append_nil]
  rfl

/-- A part that adds to what is recorded. -/
theorem Traced.recording {β : Type} {D : Step → Str} {U : List Step → Step → List Str}
    {m : Prog Step (Table Name) (List Str)} {f : List Str → Prog Step (Table Name) β}
    {p q : List (Step × Bool)} {more : List Str} {b : β}
    (hmnt : copied D (fun _ => true) s = mnt)
    (hrec : copied D (fun _ => true) (p.map (·.1)) = more)
    (hm : Traced env U t₀ s m p (mnt ++ more))
    (hf : copied D (fun _ => true) (s ++ p.map (·.1)) = mnt ++ more →
      Traced env U t₀ (s ++ p.map (·.1)) (f (mnt ++ more)) q b) :
    Traced env U t₀ s (m >>= f) (p ++ q) b :=
  hm.bind (hf (by rw [copied_append, hmnt, hrec]))

/-- **The body of `nvc_driver_mount`.** -/
theorem traced_driverBody (hs : ∀ e ∈ s, e.op ≠ .strdup) :
    Traced env (driverUndone env cnt info) t₀ s (env.host.driverBody ctx cnt info)
      (driverBodyPlan env ctx cnt info) (driverMnt env ctx cnt info) := by
  have hnil (call : Call) : filesMnt env cnt call [] = [] := rfl
  have hstart : copied (driverDst env cnt info) (fun _ => true)
      (s ++ [(⟨.top, .arrayNew, 0⟩ : Step)]) = [] := by
    rw [copied_append, copied_eq_nil fun e he hop => absurd hop (hs e he)]
    rfl
  have hnew (call : Call) : Unlisted call (s ++ [(⟨.top, .arrayNew, 0⟩ : Step)]) := by
    refine Unlisted.append (fun e he hop => absurd hop (hs e he)) ?_
    simp [Unlisted]
  have hfirst : driverUndone env cnt info s ⟨.top, .arrayNew, 0⟩ = [] := by
    rw [driverUndone_eq (by simp) rfl, copied_eq_nil fun e he hop => absurd hop (hs e he)]
    rfl
  rw [driverBodyPlan]
  simp only [List.append_assoc]
  refine (Traced.allocate (by simp) hfirst).bind ?_
  refine Traced.recording hstart copied_bins (.skipping (fun h => by rw [h, hnil]; rfl)
    fun _ => traced_appendFiles _ _ rfl rfl hstart (hnew .bins)) fun hbins => ?_
  have hnewLibs (call : Call) (hne : .bins ≠ call) :=
    (hnew call).append (show Unlisted call
      ((if info.bins = [] then [] else filesPlan env cnt .bins ctx.root info.bins).map (·.1)) from
        unlisted_filesPlan hne)
  refine Traced.recording hbins copied_libs (.skipping (fun h => by rw [h, hnil, List.append_nil])
    fun _ => traced_appendFiles _ _ rfl rfl hbins (hnewLibs .libs (by simp))) fun hlibs => ?_
  refine Traced.recording hlibs copied_libs32 (.skipping
    (fun h => by rw [libs32Mnt_eq_nil h, List.append_nil]) fun h => ?_) fun hhost => ?_
  · rw [libs32Mnt_eq h]
    exact traced_appendFiles _ _ rfl rfl hlibs
      ((hnewLibs .libs32 (by simp)).append (unlisted_filesPlan (by simp)))
  refine (traced_symlinks hhost).bind ?_
  have hlinks {s : List Step} (h : copied (driverDst env cnt info) (fun _ => true) s
      = hostMnt env cnt info) : copied (driverDst env cnt info) (fun _ => true)
        (s ++ (symlinksPlan env 0 (hostMnt env cnt info)).map (·.1)) = hostMnt env cnt info := by
    rw [copied_append, h, copied_symlinksPlan, List.append_nil]
  have hnewLinks : Unlisted .cntLibs ((symlinksPlan env 0 (hostMnt env cnt info)).map (·.1)) := by
    intro e he _ hcall
    obtain ⟨x, hx, rfl⟩ := List.mem_map.mp he
    obtain ⟨i, hi⟩ := (symlinksPlan_call hx).1
    cases hi.symm.trans hcall
  refine Traced.recording (hlinks hhost) copied_cntLibs (.skipping
    (fun h => by rw [h]; exact List.append_nil _)
    fun _ => traced_appendCntLibs (hlinks hhost) ?_) fun hcnt => ?_
  · exact (((hnewLibs .cntLibs (by simp)).append (unlisted_filesPlan (by simp))).append
      (unlisted_filesPlan (by simp))).append hnewLinks
  exact traced_mountDevices 0 info.devs hcnt

/-- An operation around its body. -/
theorem traced_inContainer {α : Type} {U : List Step → Step → List Str}
    {body : Prog Step (Table Name) α} {p : List (Step × Bool)} {a : α}
    (hbody : Traced env U t₀ [⟨.top, .validate, 0⟩, ⟨.top, .nsEnter, 0⟩] body p a)
    (hvalid : U [] ⟨.top, .validate, 0⟩ = [])
    (henter : U [⟨.top, .validate, 0⟩] ⟨.top, .nsEnter, 0⟩ = [])
    (hleave : ∀ s, U s ⟨.top, .nsLeave, 0⟩ = []) :
    Traced env U t₀ [] (env.host.inContainer ctx body) (inContainerPlan env ctx p) () := by
  have hrun : Traced env U t₀ [⟨.top, .validate, 0⟩, ⟨.top, .nsEnter, 0⟩]
      (onError body fun w => (env.host.nsEnterAt ⟨.top, .nsLeave, 0⟩ w).2) p a :=
    hbody.onError_idle (fun _ => rfl) fun _ _ => rfl
  rw [inContainerPlan, List.append_assoc]
  exact (Traced.require _ (by simp) hvalid).bind ((Traced.attempt (by simp) (fun _ => rfl)
    henter).bind (hrun.bind (Traced.attempt (by simp) (fun _ => rfl) (hleave _))))

end Body

/-! ## The plan as a whole -/

section Whole

variable {env : Faults} {ctx : Context} {cnt : Container} {info : DriverInfo} {D : Step → Str}
  {label : Step → List Str} {files : Call → Bool} {p : List (Step × Bool)} {e : Step}

/-- The steps around a body bind nothing. -/
theorem plain_top (r r' : Bool) : Plain [((⟨.top, .validate, 0⟩ : Step), r),
    (⟨.top, .nsEnter, 0⟩, r')] := by
  simp [Plain, Op.ofBind]

/-- A plan between entering and leaving the namespace. -/
theorem Regular.inContainer (h : Regular D p) : Regular D (inContainerPlan env ctx p) :=
  ((Regular.of_plain (plain_top _ _)).append h).append (.of_plain (by simp [Plain, Op.ofBind]))

/-- The labels between entering and leaving the namespace. -/
theorem Labelled.inContainer (h : Labelled D label files p)
    (hlabel : ∀ e, e.call = .top → label e = []) :
    Labelled D label files (inContainerPlan env ctx p) := by
  have hends {q : List (Step × Bool)} (hq : Plain q) (hcall : ∀ x ∈ q, x.1.call = .top) :
      Labelled D label files q := .of_plain hq fun x hx => hlabel _ (hcall x hx)
  exact ((hends (plain_top _ _) (by simp)).append h).append
    (hends (by simp [Plain, Op.ofBind]) (by simp))

/-- **Where the way back fails, everything before it is done.** -/
theorem succeeded_of_nsLeave (hinside : ∀ x ∈ p, x.1.op ≠ .nsLeave)
    (he : firstFailure (inContainerPlan env ctx p) = some e) (hop : e.op = .nsLeave) :
    succeeded (inContainerPlan env ctx p)
      = [⟨.top, .validate, 0⟩, ⟨.top, .nsEnter, 0⟩] ++ p.map (·.1) := by
  set q := [((⟨.top, .validate, 0⟩ : Step), !ctx.initialized),
    (⟨.top, .nsEnter, 0⟩, env.fails ⟨.top, .nsEnter, 0⟩)] ++ p with hq
  have hplan : inContainerPlan env ctx p
      = q ++ [(⟨.top, .nsLeave, 0⟩, env.fails ⟨.top, .nsLeave, 0⟩)] := rfl
  rcases hdone : firstFailure q with _ | e'
  · have hfails : env.fails ⟨.top, .nsLeave, 0⟩ = true := by
      by_contra hfalse
      rw [hplan, firstFailure_append, hdone, eq_false_of_ne_true hfalse] at he
      cases he
    rw [hplan, succeeded_append_of_done hdone, hfails, succeeded_cons_true, List.append_nil, hq,
      List.map_append]
    rfl
  · rw [hplan, firstFailure_append, hdone] at he
    obtain rfl := Option.some.inj he
    rcases List.mem_append.mp (mem_of_firstFailure hdone) with hmem | hmem
    · simp only [List.mem_cons, Prod.mk.injEq, List.not_mem_nil, or_false] at hmem
      rcases hmem with ⟨rfl, -⟩ | ⟨rfl, -⟩
      · cases hop
      · cases hop
    · exact absurd hop (hinside _ hmem)

theorem orderly_cgroupPlan {call : Call} (hlabel : label ⟨call, .cgroup, 0⟩ = []) :
    Orderly D label files (cgroupPlan env cnt call) :=
  .of_plain plain_cgroupPlan (fun x hx => by rw [cgroupPlan_step hx, hlabel])
    fun x hx => by rw [cgroupPlan_step hx]; simp

/-- The plan of the devices is in order. -/
theorem orderly_devicesPlan (i : ℕ) (devs : List DeviceNode) :
    Orderly (driverDst env cnt info) (driverLabel env) Call.ofFiles
      (devicesPlan env ctx cnt i devs) := by
  induction devs generalizing i with
  | nil => exact .nil
  | cons dev devs ih =>
    have hdev : Orderly (driverDst env cnt info) (driverLabel env) Call.ofFiles
        (devicePlan env (.dev i) ctx.root dev) :=
      orderly_devicePlan rfl (fun e he => by rw [driverLabel, he]) dev
    exact (Orderly.ite .nil ((Orderly.ite hdev .nil).append (orderly_cgroupPlan rfl))).append
      (ih (i + 1))

/-- The plan is in order. -/
theorem orderly_driverBodyPlan : Orderly (driverDst env cnt info) (driverLabel env) Call.ofFiles
    (driverBodyPlan env ctx cnt info) := by
  have hfiles {call : Call} {paths : List Str} (root : Str)
      (h : driverFiles cnt info call = some paths) (hcall : call.ofFiles = true)
      (hlabel : ∀ e, e.call = call → driverLabel env e = []) :
      Orderly (driverDst env cnt info) (driverLabel env) Call.ofFiles
        (filesPlan env cnt call root paths) := orderly_filesPlan h hcall hlabel
  have hlinks : Orderly (driverDst env cnt info) (driverLabel env) Call.ofFiles
      (symlinksPlan env 0 (hostMnt env cnt info)) := by
    refine .of_plain (plain_symlinksPlan 0 _) (fun x hx => ?_) fun x hx hop => ?_
    · obtain ⟨i, hcall⟩ := (symlinksPlan_call hx).1
      rw [driverLabel, hcall]
    · have hlink := (symlinksPlan_call hx).2
      rw [hop] at hlink
      cases hlink
  have hstep {e : Step} {b : Bool} (hplain : e.op.ofBind = false) (hlabel : driverLabel env e = [])
      (hop : e.op ≠ .nsLeave) : Orderly (driverDst env cnt info) (driverLabel env) Call.ofFiles
        [(e, b)] := .of_plain (by simp [Plain, hplain]) (by simp [hlabel]) (by simp [hop])
  rw [driverBodyPlan]
  refine Orderly.append ?_ (orderly_devicesPlan 0 _)
  refine Orderly.append ?_ (.ite .nil ((hstep rfl rfl (by simp)).append
    (hfiles _ rfl rfl fun e he => by rw [driverLabel, he])))
  refine Orderly.append ?_ hlinks
  refine Orderly.append ?_ (.ite .nil (hfiles _ rfl rfl fun e he => by rw [driverLabel, he]))
  refine Orderly.append ?_ (.ite .nil (hfiles _ rfl rfl fun e he => by rw [driverLabel, he]))
  exact (hstep rfl rfl (by simp)).append
    (.ite .nil (hfiles _ rfl rfl fun e he => by rw [driverLabel, he]))

end Whole

/-! ## The operation -/

/-- The destinations of a call lie apart. -/
def driverApart (env : Faults) (ctx : Context) (cnt : Container) (info : DriverInfo) : Prop :=
  ∃ place, env.Apart (driverDst env cnt info) (driverPlan env ctx cnt info) [] place

/-- **The step may fail without harm to a table in which the destinations lie apart**: it is not
the remount or the copy of a file, it does not bind a device onto a mount one sees, and it is not
the way back after something was mounted. -/
structure SparesTable (env : Faults) (ctx : Context) (cnt : Container) (info : DriverInfo)
    (t : Table Name) (e : Step) : Prop where
  recorded : (e.call.ofFiles && e.unrecorded) = false
  label : e.op = .bind → ∀ d ∈ driverLabel env e, ∀ k, env.reaches t.entries d = some k →
    Layers.starts Entry.node k t.entries = false
  leave : e.op = .nsLeave → driverMnt env ctx cnt info = []

/-- **The step may fail without harm to the table.**  Where destinations lie below one another, what
is unmounted has to take the layers of the mounts made off, and no others. -/
structure KeepsTable (env : Faults) (ctx : Context) (cnt : Container) (info : DriverInfo)
    (t : Table Name) (e : Step) : Prop where
  apart : driverApart env ctx cnt info → SparesTable env ctx cnt info t e
  nested : ¬driverApart env ctx cnt info → Layers.Unwinds Entry.node env.reaches False
    (Table.made t.next (env.bound (succeeded (driverPlan env ctx cnt info)))) t.entries
    (driverUndone env cnt info (succeeded (driverPlan env ctx cnt info)) e)

section Operation

variable {env : Faults} {ctx : Context} {cnt : Container} {info : DriverInfo} {t : Table Name}
  {place : Str → Loc} {e : Step}

theorem labelled_driverPlan : Labelled (driverDst env cnt info) (driverLabel env) Call.ofFiles
    (driverPlan env ctx cnt info) :=
  orderly_driverBodyPlan.toLabelled.inContainer fun e he => by rw [driverLabel, he]

theorem regular_driverPlan : Regular (driverDst env cnt info) (driverPlan env ctx cnt info) :=
  orderly_driverBodyPlan.toRegular.inContainer

/-- What was recorded when the way back fails. -/
theorem copied_of_nsLeave (he : firstFailure (driverPlan env ctx cnt info) = some e)
    (hop : e.op = .nsLeave) : copied (driverDst env cnt info) (fun _ => true)
      (succeeded (driverPlan env ctx cnt info)) = driverMnt env ctx cnt info := by
  rw [driverPlan, succeeded_of_nsLeave orderly_driverBodyPlan.inside he hop, copied_append,
    copied_driverBodyPlan]
  rfl

/-- What the label of a device unmounts if the bind is the step that failed. -/
theorem driverLabel_of_recorded (hrec : e.unrecorded = false) (hop : e.op ≠ .bind) :
    driverLabel env e = [] := by
  have hbind : e.op.ofBind = false := by
    rcases h : e.op <;> simp_all [Step.unrecorded, Op.ofBind]
  rcases h : e.call <;> simp [driverLabel, h, deviceLabel, hbind]

/-- A failed file unmounts nothing of its own. -/
theorem driverLabel_of_files (h : e.call.ofFiles = true) : driverLabel env e = [] := by
  rcases hcall : e.call <;> simp_all [driverLabel, Call.ofFiles]

section Restored

variable (h : env.Apart (driverDst env cnt info) (driverPlan env ctx cnt info) [] place)
  (he : firstFailure (driverPlan env ctx cnt info) = some e)

include h he

/-- The way back undoes nothing: the table is restored if nothing was mounted. -/
theorem restored_iff_of_nsLeave (hleave : e.op = .nsLeave) :
    ((t.binds (env.bound (succeeded (driverPlan env ctx cnt info)))).umounts env.reaches
      (driverUndone env cnt info (succeeded (driverPlan env ctx cnt info)) e)).entries = t.entries
      ↔ SparesTable env ctx cnt info t e := by
  have hundone (s : List Step) : driverUndone env cnt info s e = [] := if_pos hleave
  have hrec : e.unrecorded = false := by simp [Step.unrecorded, hleave]
  rw [hundone, h.restored_iff regular_driverPlan (by simp), regular_driverPlan.part e he,
    copied_of_nsLeave he hleave, hrec]
  constructor
  · rintro ⟨ks, hperm, -⟩
    refine ⟨by simp [hrec], by simp [hleave], fun _ => ?_⟩
    simpa using (List.append_eq_nil_iff.mp hperm.nil_eq.symm).1
  · exact fun hspares => ⟨[], by simp [hspares.leave hleave], by simp⟩

/-- The label of a step that is not one of a file unmounts what was recorded, and its own
destination, which takes a mount off that was there if the bind has failed. -/
theorem restored_iff_of_label (hleave : e.op ≠ .nsLeave) (hfiles : e.call.ofFiles = false) :
    ((t.binds (env.bound (succeeded (driverPlan env ctx cnt info)))).umounts env.reaches
      (driverUndone env cnt info (succeeded (driverPlan env ctx cnt info)) e)).entries = t.entries
      ↔ SparesTable env ctx cnt info t e := by
  have hlabel : ∀ d ∈ driverLabel env e, d ∈ aimed (driverDst env cnt info)
      ((driverPlan env ctx cnt info).map (·.1)) :=
    labelled_driverPlan.dests _ (mem_of_firstFailure he)
  rw [driverUndone_eq hleave hfiles, h.restored_iff_of_perm regular_driverPlan he
    (fun d hd => List.mem_append_left _ (hlabel d hd)) (List.Perm.refl _)]
  rcases hrec : e.unrecorded
  · have hplace : ∀ d ∈ (driverLabel env e).filter (· ≠ []),
        env.reaches t.entries d = some (place d) :=
      h.reaches_eq (fun d hd _ => List.mem_append_left _ (hlabel d hd)) t.entries
    constructor
    · rintro ⟨ks, hperm, hidle⟩
      refine ⟨by simp [hfiles], fun _ d hd k hk => ?_, fun hop => absurd hop hleave⟩
      have hne : d ≠ [] := by
        rintro rfl
        simp [Faults.reaches] at hk
      have hmem : d ∈ (driverLabel env e).filter (· ≠ []) := by simp [hd, hne]
      obtain rfl : place d = k := Option.some.inj ((hplace d hmem).symm.trans hk)
      exact hidle _ (hperm.subset (List.mem_map_of_mem hmem))
    · intro hspares
      refine ⟨((driverLabel env e).filter (· ≠ [])).map place, List.Perm.refl _, fun k hk => ?_⟩
      obtain ⟨d, hd, rfl⟩ := List.mem_map.mp hk
      have hmem : d ∈ driverLabel env e := (List.mem_filter.mp hd).1
      have hbind : e.op = .bind := by
        by_contra hop
        rw [driverLabel_of_recorded hrec hop] at hmem
        cases hmem
      exact hspares.label hbind d hmem _ (hplace d hd)
  · -- the bind at hand is what the label unmounts
    have hown : (driverLabel env e).filter (· ≠ []) = [driverDst env cnt info e] :=
      labelled_driverPlan.filter_label_eq regular_driverPlan he (by simp [hfiles]) hrec
    refine iff_of_true ⟨[], by rw [hown]; simp, by simp⟩ ⟨by simp [hfiles], fun hop => ?_,
      fun hop => absurd hop hleave⟩
    simp [Step.unrecorded, hop] at hrec

/-- A step of a file unmounts what was recorded: all that was mounted, unless the file at hand is
bound and not recorded. -/
theorem restored_iff_of_files (hleave : e.op ≠ .nsLeave) (hfiles : e.call.ofFiles = true) :
    ((t.binds (env.bound (succeeded (driverPlan env ctx cnt info)))).umounts env.reaches
      (driverUndone env cnt info (succeeded (driverPlan env ctx cnt info)) e)).entries = t.entries
      ↔ SparesTable env ctx cnt info t e := by
  rw [driverUndone_of_files hleave rfl hfiles, ← List.nil_append (copied _ _ _ ++ copied _ _ _),
    h.restored_iff_of_perm regular_driverPlan he (by simp) ?_]
  · rcases hrec : e.unrecorded
    · refine iff_of_true ⟨[], by simp, by simp⟩ ⟨by simp [hrec], fun _ d hd => ?_,
        fun hop => absurd hop hleave⟩
      rw [driverLabel_of_files hfiles] at hd
      cases hd
    · refine iff_of_false (fun hks => ?_) fun hspares => ?_
      · obtain ⟨ks, hperm, -⟩ := hks
        simpa using hperm.length_eq
      · simpa [hfiles, hrec] using hspares.recorded
  · simpa using copied_perm (driverDst env cnt info) (fun _ => true) (· = e.call)
      (succeeded (driverPlan env ctx cnt info))

/-- **What a failing step leaves where the destinations lie apart.** -/
theorem restored_iff_spares :
    ((t.binds (env.bound (succeeded (driverPlan env ctx cnt info)))).umounts env.reaches
      (driverUndone env cnt info (succeeded (driverPlan env ctx cnt info)) e)).entries = t.entries
      ↔ SparesTable env ctx cnt info t e := by
  by_cases hleave : e.op = .nsLeave
  · exact restored_iff_of_nsLeave h he hleave
  · rcases hfiles : e.call.ofFiles
    · exact restored_iff_of_label h he hleave hfiles
    · exact restored_iff_of_files h he hleave hfiles

end Restored

end Operation

/-- A library on the root file system. -/
def hostContext : Context := ⟨true, "/".toList, false⟩

/-- A container with the utilities, below `/c`. -/
def utilityContainer : Container where
  flags := OPT_UTILITY_BINS ||| OPT_UTILITY_LIBS
  rootfs := "/c".toList
  binsDir := "/usr/bin".toList
  libsDir := "/usr/lib".toList
  libs32Dir := "/usr/lib32".toList
  drisDir := "/usr/lib/dri".toList
  libs := []

/-- A driver with one binary. -/
def oneBinary : DriverInfo := ⟨"1.0".toList, ["/usr/bin/xdxsmi".toList], [], [], []⟩

/-- Every step succeeds but one; the destinations are below `/c`, and no path is a link. -/
def onlyFails (e : Step) (dst : Call → Str) : Faults where
  fails e' := e' = e
  resolved e' := (true, "/c".toList ++ dst e'.call)
  resolved_ne _ _ := by simp
  modeOf _ := ⟨.reg, 0x1ed⟩
  rdevOf _ := 0
  names := []
  capNode _ := ⟨[], 0⟩
  hasNvcaps := true
  target e' := components ("/c".toList ++ dst e'.call)
  leads _ p := some (components p)

/-- The remount of the binary fails. -/
def binaryFails : Faults :=
  { onlyFails ⟨.bins, .remount, 0⟩ fun _ => "/usr/bin".toList with
    target := fun _ => components "/c/usr/bin/xdxsmi".toList }

end Mount
