import Mathlib.Data.Option.Basic
import XdxContainer.Cli.Dsl
import XdxContainer.Cli.SelectDevices
import XdxContainer.Mount.Code

/-!
# Cli/Configure — the strings of the driver and device information along a configure run

`nvc_driver_info_new` and `nvc_device_info_new` leave some strings NULL, and `configure` reads them
in several places:

    nvrm_version, cuda_version      NULL      check_*           after a test for NULL
                                              filter_libraries  as it is
    arch, brand, mig_caps_path      NULL      check_*           after a test for NULL
    model, uuid, busid, node.path   filled    select_devices, the device mounts

A NULL given to a string function ends the run (`Stop.null`); this happens exactly when
`filter_libraries` is reached with a library that has `.so.` in its name (`configure_null_iff`).
-/

open Paths Fallible Mount Dsl

namespace Cli

/-! ## What is known of the driver and of the devices -/

/-- `struct nvc_driver_info`, with NULL for strings that are not filled in. -/
structure NvcDriverInfo where
  nvrmVersion : Option Str
  cudaVersion : Option Str
  bins : List Str
  libs : List Str
  libs32 : List Str
  devs : List DeviceNode

/-- `nvc_driver_info_new`, from what `lookup_paths` and `lookup_devices` find, if they do.  The
queries for the versions are disabled. -/
def nvcDriverInfoNew (paths : Option (List Str × List Str × List Str))
    (devs : Option (List DeviceNode)) : Option NvcDriverInfo := do
  let (bins, libs, libs32) ← paths
  let devs ← devs
  return { nvrmVersion := none, cudaVersion := none, bins, libs, libs32, devs }

/-- `struct nvc_mig_device`. -/
structure NvcMigDevice where
  parent : Gpu
  uuid : Option Str
  giCapsPath : Option Str
  ciCapsPath : Option Str

/-- `struct nvc_device`. -/
structure NvcDevice where
  model : Option Str
  uuid : Option Str
  busid : Option Str
  arch : Option Str
  brand : Option Str
  path : Option Str
  id : Dev
  migCapable : Bool
  migCapsPath : Option Str
  migDevices : List NvcMigDevice

/-- What the driver answers about a device, if it does. -/
structure Answers where
  device : Bool
  model : Option Str
  minor : Option ℕ
  busid : Option Str
  uuid : Option Str
  minorAgain : Option ℕ

/-- `init_nvc_device` on a native system.  The queries for the architecture, the brand and MIG are
disabled. -/
def initNvcDevice (a : Answers) : Option NvcDevice := do
  guard a.device
  let model ← a.model
  let _ ← a.minor
  let busid ← a.busid
  let uuid ← a.uuid
  let minor ← a.minorAgain
  return {
    model := some model, uuid := some uuid, busid := some busid, arch := none, brand := none
    path := some ("/dev/dri/card".toList ++ Nat.toDigits 10 minor)
    id := makedev NV_DEVICE_MAJOR minor
    migCapable := false, migCapsPath := none, migDevices := [] }

/-- `nvc_device_info_new`, from what the driver answers about each device. -/
def nvcDeviceInfoNew (answers : List Answers) : Option (List NvcDevice) :=
  answers.mapM initNvcDevice

/-! ## Using strings -/

variable {W : Type}

/-- How a run ends early. -/
inductive Stop
  | failed
  /-- A NULL is given to a string function. -/
  | null
  deriving DecidableEq, Repr

/-- Give a string to a string function. -/
def consume (s : Option Str) : Prog Stop W Str := query .null fun _ => s

/-- A part of the run that only sees strings. -/
def fallible {ε α : Type} : Prog ε W α → Prog Stop W α := reporting fun _ => .failed

/-- A part of the run on a state of its own. -/
def onItsOwn {ε σ α : Type} (p : Prog ε σ α) (s : σ) : Prog Stop W σ :=
  match p s with
  | (.ok _, s') => return s'
  | (.error _, _) => query .failed fun _ => none

/-! ## Requirements -/

/-- `struct dsl_data`. -/
structure DslData where
  drv : Option NvcDriverInfo
  dev : Option NvcDevice

/-- The form of the `check_*` functions: what is not there, or NULL, is taken to be all right. -/
def checkField {α : Type} (object : Option α) (field : α → Option Str)
    (compare : Str → Comparator → Str → Option Bool) (cmp : Comparator) (value : Str) :
    Prog Stop W (Option Bool) :=
  match object with
  | none => return some true
  | some o =>
    if field o = none then return some true
    else do
      let s ← consume (field o)
      return compare s cmp value

/-- `check_cuda_version`. -/
def checkCudaVersion (data : DslData) : Comparator → Str → Prog Stop W (Option Bool) :=
  checkField data.drv (·.cudaVersion) dslCompareVersion

/-- `check_driver_version`. -/
def checkDriverVersion (data : DslData) : Comparator → Str → Prog Stop W (Option Bool) :=
  checkField data.drv (·.nvrmVersion) dslCompareVersion

/-- `check_device_arch`. -/
def checkDeviceArch (data : DslData) : Comparator → Str → Prog Stop W (Option Bool) :=
  checkField data.dev (·.arch) dslCompareVersion

/-- `check_device_brand`. -/
def checkDeviceBrand (data : DslData) : Comparator → Str → Prog Stop W (Option Bool) :=
  checkField data.dev (·.brand) dslCompareString

/-- The table of rules. -/
def rules (data : DslData) : List (Rule (Prog Stop W)) :=
  [⟨"cuda".toList, checkCudaVersion data⟩, ⟨"driver".toList, checkDriverVersion data⟩,
    ⟨"arch".toList, checkDeviceArch data⟩, ⟨"brand".toList, checkDeviceBrand data⟩]

/-- Check each requirement. -/
def checkAll (data : DslData) : List Str → Prog Stop W Unit
  | [] => return
  | req :: reqs => do
    match ← dslEvaluate (rules data) req with
    | .ok () => checkAll data reqs
    | .error _ => query .failed fun _ => none

/-- Check the requirements for each device. -/
def checkEach (drv : NvcDriverInfo) (reqs : List Str) : List (Option NvcDevice) → Prog Stop W Unit
  | [] => return
  | dev :: devs => do
    checkAll ⟨some drv, dev⟩ reqs
    checkEach drv reqs devs

/-! ## The driver mount -/

/-- Whether `filter_libraries` keeps a path. -/
def keepsLibrary (version : Option Str) (path : Str) : Prog Stop W Bool :=
  match strstr ".so.".toList (basename path) with
  | none => return false
  | some s => do
    let maj := s.drop 4
    let n := (maj.takeWhile Char.isDigit).length
    let v ← consume version
    return decide (v.take n ≠ maj.take n)

/-- `filter_libraries`. -/
def filterLibrariesNull (version : Option Str) : List Str → Prog Stop W (List Str)
  | [] => return []
  | path :: paths => do
    let keep ← keepsLibrary version path
    let rest ← filterLibrariesNull version paths
    return if keep then path :: rest else rest

section DriverMount

variable (host : Host W) (ctx : Context) (cnt : Container)

/-- `nvc_driver_mount` in the container's namespace, up to `filter_libraries`. -/
def driverHead (info : DriverInfo) : Prog Step W (List Str) := do
  host.allocate ⟨.top, .arrayNew, 0⟩
  let mnt ← (if info.bins = [] then pure [] else
    host.appendFiles cnt .bins ctx.root cnt.binsDir info.bins [])
  let mnt ← (if info.libs = [] then pure mnt else
    host.appendFiles cnt .libs ctx.root cnt.libsDir info.libs mnt)
  let mnt ← (if cnt.has OPT_COMPAT32 = false ∨ info.libs32 = [] then pure mnt else
    host.appendFiles cnt .libs32 ctx.root cnt.libs32Dir info.libs32 mnt)
  onError (symlinkLibraries host.toSys 0 mnt) (host.unmountAll mnt)
  if cnt.libs = [] then pure () else
    onError (host.allocate ⟨.cntLibs, .arrayCopy, 0⟩) (host.unmountAll mnt)
  return mnt

/-- `nvc_driver_mount` in the container's namespace, behind `filter_libraries`. -/
def driverTail (info : DriverInfo) (libs mnt : List Str) : Prog Step W Unit := do
  let mnt ← (if cnt.libs = [] then pure mnt else
    host.appendFiles cnt .cntLibs cnt.rootfs cnt.libsDir libs mnt)
  let _ ← host.mountDevices ctx cnt 0 info.devs mnt

/-- What `nvc_driver_mount` reads of the driver information but for the version. -/
def NvcDriverInfo.withVersion (drv : NvcDriverInfo) (version : Str) : DriverInfo where
  nvrmVersion := version
  bins := drv.bins
  libs := drv.libs
  libs32 := drv.libs32
  devs := drv.devs

/-- Leave the container's namespace when something failed. -/
def leave (w : W) : W := (host.nsEnterAt ⟨.top, .nsLeave, 0⟩ w).2

/-- `nvc_driver_mount` up to `filter_libraries`. -/
def driverMountHead (drv : NvcDriverInfo) : Prog Step W (List Str) := do
  require ⟨.top, .validate, 0⟩ ctx.initialized
  attempt ⟨.top, .nsEnter, 0⟩ (host.nsEnter ⟨.top, .nsEnter, 0⟩)
  onError (driverHead host ctx cnt (drv.withVersion [])) (leave host)

/-- `nvc_driver_mount` behind `filter_libraries`. -/
def driverMountTail (drv : NvcDriverInfo) (libs mnt : List Str) : Prog Step W Unit := do
  let _ ← onError (driverTail host ctx cnt (drv.withVersion []) libs mnt) (leave host)
  attempt ⟨.top, .nsLeave, 0⟩ (host.nsEnterAt ⟨.top, .nsLeave, 0⟩)

/-- `nvc_driver_mount`, with what it does when there is no version. -/
def nvcDriverMountNull (drv : NvcDriverInfo) : Prog Stop W Unit := do
  let mnt ← fallible (driverMountHead host ctx cnt drv)
  let libs ← filterLibrariesNull drv.nvrmVersion cnt.libs
  fallible (driverMountTail host ctx cnt drv libs mnt)

/-- The two parts make the driver mount. -/
theorem driverBody_eq (info : DriverInfo) :
    (host.driverBody ctx cnt info >>= fun _ => pure ())
      = driverHead host ctx cnt info >>= fun mnt =>
      driverTail host ctx cnt info (filterLibraries info cnt.libs) mnt := by
  simp only [Host.driverBody, driverHead, driverTail, Host.appendCntLibs, bind_assoc]
  by_cases hlibs : cnt.libs = []
  · simp only [if_pos hlibs, pure_bind]
  · simp only [if_neg hlibs, bind_assoc, pure_bind]

/-- `nvc_driver_mount`, cut in two where the version is read. -/
theorem driverMount_eq (drv : NvcDriverInfo) (version : Str) :
    host.nvcDriverMount ctx cnt (drv.withVersion version)
      = driverMountHead host ctx cnt drv >>= fun mnt => driverMountTail host ctx cnt drv
        (filterLibraries (drv.withVersion version) cnt.libs) mnt := by
  have hbody : (onError (host.driverBody ctx cnt (drv.withVersion version)) (leave host)
      >>= fun _ => pure ())
      = onError (driverHead host ctx cnt (drv.withVersion [])) (leave host) >>= fun mnt =>
        onError (driverTail host ctx cnt (drv.withVersion [])
          (filterLibraries (drv.withVersion version) cnt.libs) mnt) (leave host) := by
    have hcut :=
      congrArg (onError · (leave host)) (driverBody_eq host ctx cnt (drv.withVersion version))
    simp only [onError_bind, onError_pure] at hcut
    exact hcut
  have hleave := congrArg (· >>= fun _ : Unit => attempt (⟨.top, .nsLeave, 0⟩ : Step)
    (host.nsEnterAt ⟨.top, .nsLeave, 0⟩)) hbody
  simp only [bind_assoc, pure_bind] at hleave
  rw [Host.nvcDriverMount, Host.inContainer]
  simp only [driverMountHead, driverMountTail, bind_assoc]
  exact congrArg (fun p => require (⟨.top, .validate, 0⟩ : Step) ctx.initialized >>= fun _ =>
    attempt (⟨.top, .nsEnter, 0⟩ : Step) (host.nsEnter ⟨.top, .nsEnter, 0⟩) >>= fun _ => p) hleave

omit host ctx cnt in

/-- With a version, `filter_libraries` is what it is for. -/
theorem filterLibrariesNull_of_version (drv : NvcDriverInfo) (version : Str) (paths : List Str) :
    (filterLibrariesNull (some version) paths : Prog Stop W (List Str))
      = pure (filterLibraries (drv.withVersion version) paths) := by
  induction paths with
  | nil => rfl
  | cons path paths ih =>
    rw [filterLibrariesNull, ih, keepsLibrary]
    rcases hs : strstr ".so.".toList (basename path) with _ | s
    · simp only [filterLibraries, List.filter_cons, hs]
      rfl
    · simp only [filterLibraries, List.filter_cons, hs]
      rfl

/-- **With a version it is the driver mount.** -/
theorem nvcDriverMountNull_of_version {drv : NvcDriverInfo} {version : Str}
    (h : drv.nvrmVersion = some version) :
    nvcDriverMountNull host ctx cnt drv
      = fallible (host.nvcDriverMount ctx cnt (drv.withVersion version)) := by
  rw [nvcDriverMountNull, h, filterLibrariesNull_of_version drv, driverMount_eq]
  simp only [fallible, reporting_bind, pure_bind]

end DriverMount

/-! ## The run -/

/-- The options of the command that decide about devices and requirements. -/
structure Command where
  devices : Option Str
  migConfig : Option Str
  migMonitor : Option Str
  reqs : List Str

/-- What the run meets besides what the mounts meet. -/
structure Surroundings (W : Type) where
  host : Host W
  /-- `perm_set_capabilities`, before the mounts, before the linker's cache and at the end. -/
  permits : ℕ → W → Bool × W
  ldcacheUpdate : W → Bool × W
  /-- What is in memory behind the device string. -/
  beyond : Str
  /-- What `mount_with_flags` finds on the stack. -/
  uninit : Option Str
  migMajor : W → Option ℕ
  migMinors : Step → W → Option (List Str)

/-- The UUIDs of MIG devices, which may be compared with a token. -/
def knownMigs : List NvcMigDevice → Prog Stop W (List MigDevice)
  | [] => return []
  | mig :: migs => do
    let uuid ← consume mig.uuid
    let rest ← knownMigs migs
    return ⟨uuid, mig.parent⟩ :: rest

/-- The UUIDs and bus IDs of the devices, which may be compared with a token. -/
def knownDevices : List NvcDevice → Prog Stop W (List Device)
  | [] => return []
  | gpu :: gpus => do
    let uuid ← consume gpu.uuid
    let busid ← consume gpu.busid
    let migs ← knownMigs gpu.migDevices
    let rest ← knownDevices gpus
    return ⟨uuid, busid, gpu.migCapable, migs⟩ :: rest

/-- What was selected. -/
structure Selected where
  info : DeviceInfo
  devices : Devices
  migConfig : Devices
  migMonitor : Devices

section Run

variable (env : Surroundings W) (ctx : Context) (cnt : Container) (cmd : Command)

/-- The selections of `configure_command`. -/
def selectAll (dev : List NvcDevice) : Prog Stop W Selected := do
  let info := DeviceInfo.mk (← knownDevices dev)
  let devices ← (if dev = [] then pure (newDevices info) else
    onItsOwn (selectDevices info env.beyond (tokens cmd.devices)) (newDevices info))
  let migConfig ← onItsOwn (selectMigConfigDevices info devices (tokens cmd.migConfig))
      (newDevices info)
  let migMonitor ← onItsOwn (selectMigMonitorDevices info devices (tokens cmd.migMonitor))
    (newDevices info)
  return ⟨info, devices, migConfig, migMonitor⟩

/-- The devices the requirements are checked for: the visible ones, or none in particular. -/
def Selected.checked (sel : Selected) (dev : List NvcDevice) : List (Option NvcDevice) :=
  let visible := sel.devices.gpus.map (dev[·]?)
    ++ sel.devices.migs.map fun m => dev[sel.info.parent m]?
  if visible = [] then [none] else visible

/-- `configure_command` up to the mounts. -/
def configureHead (drv : NvcDriverInfo) (dev : List NvcDevice) : Prog Stop W Selected := do
  let sel ← selectAll env cmd dev
  checkEach drv cmd.reqs (sel.checked dev)
  attempt .failed (env.permits 0)
  return sel

/-- The device mounts of `configure_command`. -/
def mountVisible : List (Option NvcDevice) → Prog Stop W Unit
  | [] => return
  | none :: devs => mountVisible devs
  | some dev :: devs => do
    let path ← (if cnt.has OPT_NO_DEVBIND then pure [] else consume dev.path)
    fallible (env.host.nvcDeviceMount ctx cnt ⟨path, dev.id⟩)
    mountVisible devs

/-- The MIG device mounts of `configure_command`. -/
def mountMigs : List (Option NvcMigDevice) → Prog Stop W Unit
  | [] => return
  | none :: migs => mountMigs migs
  | some mig :: migs => do
    let gi ← consume mig.giCapsPath
    let ci ← consume mig.ciCapsPath
    fallible (env.host.nvcMigDeviceAccessCapsMount ctx cnt gi ci)
    mountMigs migs

/-- The mounts for MIG configuration or monitoring, which differ in the capabilities. -/
def mountMigCaps (globalCaps : Prog Step W Unit) (dev : List NvcDevice) (selected : Devices) :
    Prog Stop W Unit :=
  if selected.all && selected.gpus ≠ [] then do
    fallible globalCaps
    selected.gpus.forM fun g => match dev[g]? with
      | none => return
      | some d => fallible (env.host.nvcDeviceMigCapsMount ctx cnt env.migMajor env.migMinors d.id)
  else return

/-- `configure_command` behind the driver mount. -/
def configureTail (dev : List NvcDevice) (sel : Selected) : Prog Stop W Unit := do
  mountVisible env ctx cnt (sel.devices.gpus.map (dev[·]?))
  (if sel.migConfig.all || sel.migMonitor.all then pure () else
    mountMigs env ctx cnt (sel.devices.migs.map fun m => (dev[m.1]?).bind (·.migDevices[m.2]?)))
  mountMigCaps env ctx cnt
    (env.host.nvcMigConfigGlobalCapsMount ctx cnt env.uninit) dev sel.migConfig
  mountMigCaps env ctx cnt
    (env.host.nvcMigMonitorGlobalCapsMount ctx cnt env.uninit) dev sel.migMonitor
  attempt .failed (env.permits 1)
  attempt .failed env.ldcacheUpdate
  attempt .failed (env.permits 2)

/-- `configure_command`, once the driver and device information is there. -/
def configure (drv : NvcDriverInfo) (dev : List NvcDevice) : Prog Stop W Unit := do
  let sel ← configureHead env cmd drv dev
  nvcDriverMountNull env.host ctx cnt drv
  configureTail env ctx cnt dev sel

end Run

/-! ## Parts that give no NULL to a string function -/

/-- No NULL is given to a string function. -/
def NullFree {α : Type} (p : Prog Stop W α) : Prop := ∀ w w', p w ≠ (.error .null, w')

namespace NullFree

variable {α β : Type}

theorem pure (a : α) : NullFree (Pure.pure a : Prog Stop W α) :=
  fun _ _ h => pure_error h

/-- A sequence of which no part takes a null. -/
theorem bind {p : Prog Stop W α} {f : α → Prog Stop W β} (hp : NullFree p)
    (hf : ∀ a, NullFree (f a)) : NullFree (p >>= f) := by
  intro w w' h
  rcases bind_error h with h | ⟨a, w₁, -, h⟩
  · exact hp w w' h
  · exact hf a w₁ w' h

/-- Parts that take no strings. -/
theorem fallible {ε : Type} (p : Prog ε W α) : NullFree (Cli.fallible p) := by
  intro w w' h
  rw [Cli.fallible, reporting] at h
  rcases hp : p w with ⟨e | a, w₁⟩
  · rw [hp] at h
    cases (Prod.mk.inj h).1
  · rw [hp] at h
    cases (Prod.mk.inj h).1

theorem failed (f : W → Option α) : NullFree (query .failed f : Prog Stop W α) := by
  intro w w' h
  cases (query_error h).1

theorem attempt (f : W → Bool × W) : NullFree (Fallible.attempt .failed f : Prog Stop W Unit) := by
  intro w w' h
  cases (attempt_error h).1

/-- A string that is there. -/
theorem consume (s : Str) : NullFree (Cli.consume (some s) : Prog Stop W Str) := by
  intro w w' h
  cases (query_error h).2.1

/-- A loop, by induction on the list. -/
theorem forM {l : List β} {f : β → Prog Stop W PUnit} (hf : ∀ b, NullFree (f b)) :
    NullFree (l.forM f) := by
  induction l with
  | nil => exact pure _
  | cons b l ih => exact bind (hf b) fun _ => ih

theorem onItsOwn {ε σ : Type} (p : Prog ε σ α) (s : σ) :
    NullFree (Cli.onItsOwn p s : Prog Stop W σ) := by
  rw [Cli.onItsOwn]
  split
  · exact pure _
  · exact failed _

end NullFree

section Requirements

variable {data : DslData}

/-- The test for NULL is enough. -/
theorem nullFree_checkField {α : Type} (object : Option α) (field : α → Option Str)
    (compare : Str → Comparator → Str → Option Bool) (cmp : Comparator) (value : Str) :
    NullFree (checkField object field compare cmp value : Prog Stop W (Option Bool)) := by
  unfold checkField
  split
  · exact NullFree.pure _
  · next o =>
    split_ifs with hnull
    · exact NullFree.pure _
    · obtain ⟨s, hs⟩ := Option.ne_none_iff_exists'.mp hnull
      rw [hs]
      exact (NullFree.consume s).bind fun _ => NullFree.pure _

/-- A rule is evaluated on strings that are there. -/
theorem nullFree_evaluateRule (expr : Str) :
    NullFree (evaluateRule (rules data) expr : Prog Stop W (Option Bool)) := by
  rw [evaluateRule]
  split
  · exact NullFree.pure _
  split
  · exact NullFree.pure _
  next rule hrule =>
  have hfunc : ∀ cmp value, NullFree (rule.func cmp value) := by
    have hmem := List.mem_of_find?_eq_some hrule
    simp only [rules, List.mem_cons, List.not_mem_nil, or_false] at hmem
    rcases hmem with rfl | rfl | rfl | rfl
    all_goals exact fun cmp value => nullFree_checkField _ _ _ cmp value
  refine (hfunc _ _).bind fun ret => ?_
  split
  · exact NullFree.pure _
  · exact NullFree.pure _

theorem nullFree_evaluateAll (ret : Bool) (exprs : List Str) :
    NullFree (evaluateAll (rules data) ret exprs : Prog Stop W (Option (Bool × Bool))) := by
  induction exprs generalizing ret with
  | nil => exact NullFree.pure _
  | cons expr exprs ih =>
    rw [evaluateAll]
    split_ifs
    · exact ih ret
    · refine (nullFree_evaluateRule expr).bind fun r => ?_
      split
      · exact NullFree.pure _
      · exact NullFree.pure _
      · exact ih true

theorem nullFree_evaluateAny (ret : Bool) (exprs : List Str) :
    NullFree (evaluateAny (rules data) ret exprs : Prog Stop W (Option Bool)) := by
  induction exprs generalizing ret with
  | nil => exact NullFree.pure _
  | cons expr exprs ih =>
    rw [evaluateAny]
    split_ifs
    · exact ih ret
    · refine (nullFree_evaluateAll ret _).bind fun r => ?_
      split
      · exact NullFree.pure _
      · exact NullFree.pure _
      · next ret' => exact ih ret'

/-- **The requirements give no NULL to a string function.** -/
theorem nullFree_checkAll (reqs : List Str) : NullFree (checkAll data reqs : Prog Stop W Unit) := by
  induction reqs with
  | nil => exact NullFree.pure _
  | cons req reqs ih =>
    rw [checkAll]
    have hdsl :
        NullFree (dslEvaluate (rules data) req : Prog Stop W (Except Dsl.Failure Unit)) := by
      refine (nullFree_evaluateAny true _).bind fun r => ?_
      split
      all_goals exact NullFree.pure _
    refine hdsl.bind fun r => ?_
    split
    · exact ih
    · exact NullFree.failed _

/-- The requirements are checked on strings that are there. -/
theorem nullFree_checkEach (drv : NvcDriverInfo) (reqs : List Str)
    (devs : List (Option NvcDevice)) : NullFree (checkEach drv reqs devs : Prog Stop W Unit) := by
  induction devs with
  | nil => exact NullFree.pure _
  | cons dev devs ih => exact (nullFree_checkAll reqs).bind fun _ => ih

end Requirements

/-! ## What the device information holds -/

/-- What `nvc_device_info_new` always fills in, and that it knows of no MIG devices. -/
structure NvcDevice.Filled (d : NvcDevice) : Prop where
  uuid : ∃ s, d.uuid = some s
  busid : ∃ s, d.busid = some s
  path : ∃ s, d.path = some s
  migDevices : d.migDevices = []

theorem filled_of_initNvcDevice {a : Answers} {d : NvcDevice} (h : initNvcDevice a = some d) :
    d.Filled := by
  simp only [initNvcDevice, Option.bind_eq_bind, Option.bind_eq_some_iff] at h
  obtain ⟨-, -, model, -, minor, -, busid, -, uuid, -, minor', -, hd⟩ := h
  obtain rfl := Option.some.inj hd
  exact ⟨⟨uuid, rfl⟩, ⟨busid, rfl⟩, ⟨_, rfl⟩, rfl⟩

/-- The devices of the information have all their strings. -/
theorem filled_of_nvcDeviceInfoNew {answers : List Answers} {dev : List NvcDevice}
    (h : nvcDeviceInfoNew answers = some dev) : ∀ d ∈ dev, d.Filled := by
  induction answers generalizing dev with
  | nil =>
    obtain rfl := Option.some.inj h
    exact nofun
  | cons a answers ih =>
    rw [nvcDeviceInfoNew, List.mapM_cons] at h
    obtain ⟨d, hd, h⟩ := Option.bind_eq_some_iff.mp h
    obtain ⟨ds, hds, h⟩ := Option.bind_eq_some_iff.mp h
    obtain rfl := Option.some.inj h
    intro d' hd'
    rcases List.mem_cons.mp hd' with rfl | hmem
    · exact filled_of_initNvcDevice hd
    · exact ih hds d' hmem

section Devices

variable {env : Surroundings W} {ctx : Context} {cnt : Container} {cmd : Command}
  {drv : NvcDriverInfo} {dev : List NvcDevice}

/-- What the selection takes of the devices is there. -/
theorem nullFree_knownDevices (h : ∀ d ∈ dev, d.Filled) :
    NullFree (knownDevices dev : Prog Stop W (List Device)) := by
  induction dev with
  | nil => exact NullFree.pure _
  | cons d dev ih =>
    obtain ⟨⟨uuid, huuid⟩, ⟨busid, hbusid⟩, -, hmigs⟩ := h d List.mem_cons_self
    rw [knownDevices, huuid, hbusid, hmigs]
    refine (NullFree.consume uuid).bind fun _ => (NullFree.consume busid).bind fun _ => ?_
    refine (NullFree.pure _).bind fun _ => ?_
    exact (ih fun d' hd' => h d' (List.mem_cons_of_mem d hd')).bind fun _ => NullFree.pure _

/-- **The command up to the mounts takes no null.** -/
theorem nullFree_configureHead (h : ∀ d ∈ dev, d.Filled) :
    NullFree (configureHead env cmd drv dev) := by
  have hselect : NullFree (selectAll env cmd dev) := by
    refine (nullFree_knownDevices h).bind fun info => NullFree.bind ?_ fun devices =>
      (NullFree.onItsOwn _ _).bind fun _ => (NullFree.onItsOwn _ _).bind fun _ => NullFree.pure _
    split_ifs
    · exact NullFree.pure _
    · exact NullFree.onItsOwn _ _
  refine hselect.bind fun sel => (nullFree_checkEach drv _ _).bind fun _ =>
    (NullFree.attempt _).bind fun _ => NullFree.pure _

/-- Nor do the mounts of the GPUs. -/
theorem nullFree_mountVisible {devs : List (Option NvcDevice)} (h : ∀ d, some d ∈ devs → d.Filled) :
    NullFree (mountVisible env ctx cnt devs) := by
  induction devs with
  | nil => exact NullFree.pure _
  | cons d devs ih =>
    have hrest := ih fun d' hd' => h d' (List.mem_cons_of_mem d hd')
    rcases d with _ | d
    · exact hrest
    · obtain ⟨path, hpath⟩ := (h d List.mem_cons_self).path
      rw [mountVisible, hpath]
      refine NullFree.bind ?_ fun _ => (NullFree.fallible _).bind fun _ => hrest
      split_ifs
      · exact NullFree.pure _
      · exact NullFree.consume path

theorem nullFree_mountMigs {migs : List (Option NvcMigDevice)} (h : ∀ m ∈ migs, m = none) :
    NullFree (mountMigs env ctx cnt migs) := by
  induction migs with
  | nil => exact NullFree.pure _
  | cons m migs ih =>
    rw [h m List.mem_cons_self]
    exact ih fun m' hm' => h m' (List.mem_cons_of_mem m hm')

/-- Nor do the mounts of the MIG capabilities. -/
theorem nullFree_mountMigCaps (globalCaps : Prog Step W Unit) (dev : List NvcDevice)
    (selected : Devices) : NullFree (mountMigCaps env ctx cnt globalCaps dev selected) := by
  rw [mountMigCaps]
  split_ifs
  · refine (NullFree.fallible _).bind fun _ => NullFree.forM fun g => ?_
    split
    · exact NullFree.pure _
    · exact NullFree.fallible _
  · exact NullFree.pure _

/-- **Behind the driver mount no NULL is given to a string function.** -/
theorem nullFree_configureTail (h : ∀ d ∈ dev, d.Filled) (sel : Selected) :
    NullFree (configureTail env ctx cnt dev sel) := by
  refine NullFree.bind (nullFree_mountVisible fun d hd => ?_) fun _ => NullFree.bind ?_ fun _ => ?_
  · obtain ⟨g, -, hg⟩ := List.mem_map.mp hd
    exact h d (List.mem_of_getElem? hg)
  · split_ifs
    · exact NullFree.pure _
    · refine nullFree_mountMigs fun m hm => ?_
      obtain ⟨⟨i, j⟩, -, rfl⟩ := List.mem_map.mp hm
      rcases hd : dev[i]? with _ | d
      · rfl
      · simp [(h d (List.mem_of_getElem? hd)).migDevices]
  · refine (nullFree_mountMigCaps _ _ _).bind fun _ =>
      (nullFree_mountMigCaps _ _ _).bind fun _ => ?_
    exact (NullFree.attempt _).bind fun _ => (NullFree.attempt _).bind fun _ => NullFree.attempt _

end Devices

/-! ## Where a NULL is given to a string function -/

/-- Without a version a library with `.so.` in its name is one too many. -/
theorem filterLibrariesNull_none_iff (paths : List Str) (w : W) :
    (∃ w', filterLibrariesNull none paths w = (.error .null, w'))
      ↔ ∃ lib ∈ paths, (strstr ".so.".toList (basename lib)).isSome := by
  induction paths with
  | nil => simp [filterLibrariesNull, Pure.pure]
  | cons path paths ih =>
    rcases hs : strstr ".so.".toList (basename path) with _ | s
    · have hkeep : (keepsLibrary none path : Prog Stop W Bool) w = (.ok false, w) := by
        rw [keepsLibrary, hs]
        rfl
      rw [filterLibrariesNull, bind_of_ok hkeep]
      rw [List.exists_mem_cons_iff, hs]
      simp only [Option.isSome_none, Bool.false_eq_true, false_or, ← ih]
      constructor
      · rintro ⟨w', h⟩
        rcases bind_error h with h | ⟨a, w₁, -, h⟩
        · exact ⟨w', h⟩
        · exact (pure_error h).elim
      · rintro ⟨w', h⟩
        exact ⟨w', bind_of_error h⟩
    · have hkeep : (keepsLibrary none path : Prog Stop W Bool) w = (.error .null, w) := by
        rw [keepsLibrary, hs]
        rfl
      refine iff_of_true ⟨w, ?_⟩ ⟨path, List.mem_cons_self, by rw [hs]; rfl⟩
      rw [filterLibrariesNull, bind_of_error hkeep]

/-- **A configure run gives no NULL to a string function** exactly when, if it gets to
`filter_libraries` at all, no container library has `.so.` in its name. -/
theorem configure_null_iff {env : Surroundings W} {ctx : Context} {cnt : Container} {cmd : Command}
    {drv : NvcDriverInfo} {dev : List NvcDevice}
    {paths : Option (List Str × List Str × List Str)} {devs : Option (List DeviceNode)}
    {answers : List Answers} (hdrv : nvcDriverInfoNew paths devs = some drv)
    (hdev : nvcDeviceInfoNew answers = some dev) (w : W) :
    (∀ w', configure env ctx cnt cmd drv dev w ≠ (.error .null, w'))
      ↔ ∀ sel w₁ mnt w₂, configureHead env cmd drv dev w = (.ok sel, w₁) →
        driverMountHead env.host ctx cnt drv w₁ = (.ok mnt, w₂) →
        ∀ lib ∈ cnt.libs, strstr ".so.".toList (basename lib) = none := by
  have hfilled := filled_of_nvcDeviceInfoNew hdev
  have hversion : drv.nvrmVersion = none := by
    simp only [nvcDriverInfoNew, Option.bind_eq_bind, Option.bind_eq_some_iff] at hdrv
    obtain ⟨x, -, y, -, hd⟩ := hdrv
    rw [← Option.some.inj hd]
  constructor
  · intro h sel w₁ mnt w₂ hhead hmount
    by_contra hlib
    simp only [not_forall, exists_prop, ← Option.isSome_iff_ne_none, ← ne_eq] at hlib
    obtain ⟨w₃, hnull⟩ := (filterLibrariesNull_none_iff cnt.libs w₂).mpr hlib
    refine h w₃ ?_
    rw [configure, bind_of_ok hhead]
    refine bind_of_error ?_
    have hmount' : fallible (driverMountHead env.host ctx cnt drv) w₁ = (.ok mnt, w₂) :=
      reporting_of_ok hmount
    rw [nvcDriverMountNull, hversion, bind_of_ok hmount']
    exact bind_of_error hnull
  · intro h w' hrun
    rcases bind_error hrun with hrun | ⟨sel, w₁, hhead, hrun⟩
    · exact nullFree_configureHead hfilled w w' hrun
    rcases bind_error hrun with hrun | ⟨_, w₂, -, hrun⟩
    · rcases bind_error hrun with hrun | ⟨mnt, w₂, hmount, hrun⟩
      · exact NullFree.fallible _ w₁ w' hrun
      rcases bind_error hrun with hrun | ⟨libs, w₃, -, hrun⟩
      · rw [hversion] at hrun
        obtain ⟨lib, hlib, hsome⟩ := (filterLibrariesNull_none_iff cnt.libs w₂).mp ⟨w', hrun⟩
        rw [h sel w₁ mnt w₂ hhead (reporting_ok hmount) lib hlib] at hsome
        cases hsome
      · exact NullFree.fallible _ w₃ w' hrun
    · exact nullFree_configureTail hfilled sel w₂ w' hrun

/-! ## A container with a library -/

/-- Everything succeeds. -/
def agreeable : Surroundings Unit where
  host := {
    pathResolveFull := fun _ _ root path _ => (true, root ++ path)
    fileMode := fun _ _ _ => some ⟨.reg, 0x1a4⟩
    xstat := fun _ _ _ => some 0
    fileCreate := fun _ _ _ _ _ => (true, ())
    mount := fun _ _ _ _ => (true, ())
    remount := fun _ _ _ _ => (true, ())
    alloc := fun _ _ => true
    umount2 := fun _ _ => ()
    fileRemove := fun _ _ => ()
    nsEnter := fun _ _ => (true, ())
    nsEnterAt := fun _ _ => (true, ())
    setupDeviceCgroup := fun _ _ _ => (true, ())
    updateAppProfile := fun _ _ _ => (true, ())
    readDir := fun _ _ _ => some []
    nvcapsDevice := fun _ _ _ => none
    hasNvcaps := fun _ => false }
  permits := fun _ _ => (true, ())
  ldcacheUpdate := fun _ => (true, ())
  beyond := []
  uninit := none
  migMajor := fun _ => none
  migMinors := fun _ _ => none

/-- A container at `/c` with the libraries given. -/
def containerWith (libs : List Str) : Container where
  flags := OPT_COMPUTE_LIBS
  rootfs := ['/', 'c']
  binsDir := ['/', 'b']
  libsDir := ['/', 'l']
  libs32Dir := ['/', 'm']
  drisDir := ['/', 'd']
  libs := libs

/-- A library that is initialized, on the root file system. -/
def bareContext : Context where
  initialized := true
  root := ['/']
  dxcore := false

/-- A command line without options. -/
def noOptions : Command where
  devices := none
  migConfig := none
  migMonitor := none
  reqs := []

/-- The node `lookup_devices` lists. -/
def renderNode : DeviceNode := ⟨"/dev/dri/renderD128".toList, makedev NV_DEVICE_MAJOR 128⟩

/-- The driver information of a host without any driver files. -/
def bareDriver : NvcDriverInfo := ⟨none, none, [], [], [], [renderNode]⟩

/-- A GPU the driver answers about. -/
def answering : Answers where
  device := true
  model := some "Z100".toList
  minor := some 0
  busid := some "00000000:01:00.0".toList
  uuid := some "GPU-8a56".toList
  minorAgain := some 0

/-- What is made of it, with the strings that stay NULL. -/
def answered : NvcDevice where
  model := some "Z100".toList
  uuid := some "GPU-8a56".toList
  busid := some "00000000:01:00.0".toList
  arch := none
  brand := none
  path := some "/dev/dri/card0".toList
  id := makedev NV_DEVICE_MAJOR 0
  migCapable := false
  migCapsPath := none
  migDevices := []

/-- All devices are asked for, with a driver and a brand. -/
def demanding : Command where
  devices := some "all".toList
  migConfig := none
  migMonitor := none
  reqs := ["driver>=440".toList, "brand=tesla".toList]

/-- **A library `/l/libx.so` in the container is fine**: the GPU is selected, its requirements are
checked, and `filter_libraries` is reached. -/
theorem configure_null_answered :
    nvcDriverInfoNew (some ([], [], [])) (some [renderNode]) = some bareDriver
      ∧ nvcDeviceInfoNew [answering] = some [answered]
      ∧ (∃ sel, configureHead agreeable demanding bareDriver [answered] () = (.ok sel, ())
        ∧ sel.checked [answered] = [some answered])
      ∧ (driverMountHead agreeable.host bareContext (containerWith ["/l/libx.so".toList])
        bareDriver ()).1 = .ok []
      ∧ (configure agreeable bareContext (containerWith ["/l/libx.so".toList]) demanding
        bareDriver [answered] ()).1 ≠ .error .null := by
  have hdrv : nvcDriverInfoNew (some ([], [], [])) (some [renderNode]) = some bareDriver := rfl
  have hdev : nvcDeviceInfoNew [answering] = some [answered] := rfl
  have hlib : ∀ lib ∈ ["/l/libx.so".toList], strstr ".so.".toList (basename lib) = none := by
    decide
  have hrun : ∀ w', configure agreeable bareContext (containerWith ["/l/libx.so".toList])
      demanding bareDriver [answered] () ≠ (.error .null, w') :=
    (configure_null_iff hdrv hdev ()).mpr fun _ _ _ _ _ _ => hlib
  exact ⟨hdrv, hdev, ⟨_, rfl, rfl⟩, rfl, fun hnull => hrun _ (Prod.ext hnull rfl)⟩

/-- **A library `/a.so.1` in the container** gives the missing version to `strncmp`. -/
theorem configure_null_library :
    nvcDriverInfoNew (some ([], [], [])) (some [renderNode]) = some bareDriver
      ∧ nvcDeviceInfoNew [] = some []
      ∧ configure agreeable bareContext
        (containerWith [['/', 'a', '.', 's', 'o', '.', '1']]) noOptions
        bareDriver [] () = (.error .null, ()) :=
  ⟨rfl, rfl, rfl⟩

end Cli
