import XdxContainer.Mount.Code

/-!
# Mount/Mirror — the mount functions on a system seen through a map

    V ──ι──▸ W        host on W, host₀ on V

When the calls of two systems correspond along a map of their states, so do the mount functions on
them.  The map puts a state where the functions run (`Mount/Namespace`), or forgets what was noted
beside it (`Mount/Contents`).  There is one lemma for each function, and each follows the function.
-/

open Paths Fs Fallible

namespace Mount

variable {V W : Type}

/-- Along the map the calls of a host, `setns` apart, are those of another one. -/
structure Host.Mirrors (ι : V → W) (host : Host W) (host₀ : Host V) : Prop where
  pathResolveFull : ∀ e buf root path t,
    host.pathResolveFull e buf root path (ι t) = host₀.pathResolveFull e buf root path t
  fileMode : ∀ e path t, host.fileMode e path (ι t) = host₀.fileMode e path t
  xstat : ∀ e path t, host.xstat e path (ι t) = host₀.xstat e path t
  fileCreate : ∀ e path data mode t, host.fileCreate e path data mode (ι t)
    = ((host₀.fileCreate e path data mode t).1, ι (host₀.fileCreate e path data mode t).2)
  mount : ∀ e src dst t,
    host.mount e src dst (ι t) = ((host₀.mount e src dst t).1, ι (host₀.mount e src dst t).2)
  remount : ∀ e dst flags t,
    host.remount e dst flags (ι t)
      = ((host₀.remount e dst flags t).1, ι (host₀.remount e dst flags t).2)
  alloc : ∀ e t, host.alloc e (ι t) = host₀.alloc e t
  umount2 : ∀ path t, host.umount2 path (ι t) = ι (host₀.umount2 path t)
  fileRemove : ∀ path t, host.fileRemove path (ι t) = ι (host₀.fileRemove path t)
  setupDeviceCgroup : ∀ e id t, host.setupDeviceCgroup e id (ι t)
    = ((host₀.setupDeviceCgroup e id t).1, ι (host₀.setupDeviceCgroup e id t).2)
  updateAppProfile : ∀ e id t, host.updateAppProfile e id (ι t)
    = ((host₀.updateAppProfile e id t).1, ι (host₀.updateAppProfile e id t).2)
  readDir : ∀ e path t, host.readDir e path (ι t) = host₀.readDir e path t
  nvcapsDevice : ∀ e path t, host.nvcapsDevice e path (ι t) = host₀.nvcapsDevice e path t
  hasNvcaps : ∀ t, host.hasNvcaps (ι t) = host₀.hasNvcaps t

namespace Host.Mirrors

variable {ι : V → W} {host : Host W} {host₀ : Host V} (h : host.Mirrors ι host₀)
  (ctx : Context) (cnt : Container)

include h

/-- An allocation. -/
theorem allocate (e : Step) : Along ι (host.allocate e) (host₀.allocate e) :=
  .attempt fun t => by rw [h.alloc]

/-- `path_resolve_full`, as the mount functions call it. -/
theorem resolve (e : Step) (root path : Str) :
    Along ι (host.resolve e root path) (host₀.resolve e root path) :=
  .query fun t => by rw [h.pathResolveFull]

/-- `unmount`. -/
theorem unmount (path : Option Str) (t : V) :
    host.unmount path (ι t) = ι (host₀.unmount path t) := by
  rcases path with _ | p
  · rfl
  · simp only [Sys.unmount]
    split_ifs
    · rfl
    · rw [h.umount2, h.fileRemove]

/-- The unmountings of a table, one after the other. -/
theorem unmountAll (mnt : List Str) (t : V) :
    host.unmountAll mnt (ι t) = ι (host₀.unmountAll mnt t) := by
  unfold Sys.unmountAll
  induction mnt generalizing t with
  | nil => rfl
  | cons p mnt ih => rw [List.foldl_cons, List.foldl_cons, h.unmount, ih]

/-- A bind mount and what follows it. -/
theorem bindAt (call : Call) (item : ℕ) (src dst : Str) (flags : MountFlags) :
    Along ι (host.bindAt call item src dst flags) (host₀.bindAt call item src dst flags) :=
  (Along.attempt (h.mount _ src dst)).bind fun _ =>
    (Along.attempt (h.remount _ dst _)).bind fun _ =>
      (h.allocate _).bind fun _ => .pure dst

omit h in

/-- A joined path does not depend on the state. -/
theorem joined (e : Step) (r : Bool × Str) : Along ι (Mount.joined e r) (Mount.joined e r) :=
  .query fun _ => rfl

omit h in
theorem require (e : Step) (ok : Bool) : Along ι (Mount.require e ok) (Mount.require e ok) :=
  .attempt fun _ => rfl

/-- `file_mode`, where it may fail. -/
theorem fileModeOf (e : Step) (path : Str) :
    Along ι (query e (host.fileMode e path)) (query e (host₀.fileMode e path)) :=
  .query (h.fileMode e path)

/-- `file_create`, where it may fail. -/
theorem create (e : Step) (path : Str) (data : Option Str) (mode : Mode) :
    Along ι (attempt e (host.fileCreate e path data mode))
      (attempt e (host₀.fileCreate e path data mode)) :=
  .attempt (h.fileCreate e path data mode)

/-- One turn of `mount_files`. -/
theorem mountFile (call : Call) (src dst : Str) (i : ℕ) (path : Str) :
    Along ι (Mount.mountFile host.toSys call src dst i path)
      (Mount.mountFile host₀.toSys call src dst i path) :=
  (joined _ _).bind fun _ => (joined _ _).bind fun _ => (h.fileModeOf _ _).bind fun _ =>
    (h.create _ _ _ _).bind fun _ => h.bindAt ..

/-- The loop of `mount_files`, by induction on the paths that are left. -/
theorem mountFilesLoop (call : Call) (src dst : Str) (i : ℕ) (mnt paths : List Str) :
    Along ι (Mount.mountFilesLoop host.toSys cnt call src dst i mnt paths)
      (Mount.mountFilesLoop host₀.toSys cnt call src dst i mnt paths) := by
  induction paths generalizing i mnt with
  | nil => exact .pure mnt
  | cons path paths ih =>
    unfold Mount.mountFilesLoop
    exact .ite (((h.mountFile ..).onError (h.unmountAll mnt)).bind fun m => ih _ _) (ih _ _)

/-- `mount_files`. -/
theorem mountFiles (call : Call) (root dir : Str) (paths : List Str) :
    Along ι (Mount.mountFiles host.toSys cnt call root dir paths)
      (Mount.mountFiles host₀.toSys cnt call root dir paths) :=
  (joined _ _).bind fun _ => (h.resolve ..).bind fun _ => (h.create ..).bind fun _ =>
    (h.allocate _).bind fun _ => h.mountFilesLoop ..

/-- `mount_device`. -/
theorem mountDevice (call : Call) (root : Str) (dev : DeviceNode) :
    Along ι (Mount.mountDevice host.toSys cnt call root dev)
      (Mount.mountDevice host₀.toSys cnt call root dev) :=
  (joined _ _).bind fun src => (h.resolve ..).bind fun _ =>
    (Along.query (h.xstat _ src)).bind fun _ => (require _ _).bind fun _ =>
      (h.fileModeOf _ _).bind fun _ => (h.create ..).bind fun _ =>
        (h.bindAt ..).onError (h.unmount _)

theorem createAndBind (flags : MountFlags) (call : Call) (resolved : Bool) (src dst : Str) :
    Along ι (Mount.createAndBind host.toSys flags call resolved src dst)
      (Mount.createAndBind host₀.toSys flags call resolved src dst) :=
  (require _ _).bind fun _ => (h.fileModeOf _ _).bind fun _ => (h.create ..).bind fun _ =>
    h.bindAt ..

/-- The functions that undo their mount when they fail. -/
theorem mountUndoing (flags : MountFlags) (call : Call) (root dir : Str) :
    Along ι (Mount.mountUndoing host.toSys cnt flags call root dir)
      (Mount.mountUndoing host₀.toSys cnt flags call root dir) :=
  ((joined _ _).onError (h.unmount _)).bind fun _ =>
    (Along.reading fun t => h.pathResolveFull _ _ _ _ t).bind fun _ =>
      (h.createAndBind ..).onError (h.unmount _)

theorem createAndRemount (flags : MountFlags) (call : Call) (src dst : Str) :
    Along ι (Mount.createAndRemount host.toSys flags call src dst)
      (Mount.createAndRemount host₀.toSys flags call src dst) :=
  (h.fileModeOf _ _).bind fun _ => (h.create ..).bind fun _ =>
    (Along.attempt (h.mount _ src dst)).bind fun _ => .attempt (h.remount _ dst _)

/-- The mount of `mount_directory`. -/
theorem mountWithFlags (uninit : Option Str) (call : Call) (src dst : Str) (flags : MountFlags) :
    Along ι (Mount.mountWithFlags host.toSys uninit call src dst flags)
      (Mount.mountWithFlags host₀.toSys uninit call src dst flags) :=
  ((h.createAndRemount ..).onError (h.unmount _)).bind fun _ =>
    ((h.allocate _).onError (h.unmount _)).bind fun _ => .pure dst

/-- `mount_directory`. -/
theorem mountDirectory (uninit : Option Str) (call : Call) (root dir : Str) :
    Along ι (Mount.mountDirectory host.toSys cnt uninit call root dir)
      (Mount.mountDirectory host₀.toSys cnt uninit call root dir) :=
  (joined _ _).bind fun _ => (h.resolve ..).bind fun _ => h.mountWithFlags ..

/-- The loop over the driver store, by induction on the paths that are left. -/
theorem mountStoreLoop (call : Call) (src dst : Str) (i : ℕ) (mnt paths : List Str) :
    Along ι (Mount.mountStoreLoop host.toSys call src dst i mnt paths)
      (Mount.mountStoreLoop host₀.toSys call src dst i mnt paths) := by
  induction paths generalizing i mnt with
  | nil => exact .pure mnt
  | cons path paths ih =>
    have hfile : Along ι (mountStoreFile host.toSys call src dst i path)
        (mountStoreFile host₀.toSys call src dst i path) :=
      (joined _ _).bind fun _ => (joined _ _).bind fun _ => (h.create ..).bind fun _ => h.bindAt ..
    exact (hfile.onError (h.unmountAll mnt)).bind fun m => ih _ _

/-- `mount_driverstore_files`. -/
theorem mountDriverstoreFiles (call : Call) (root : Str) (store : DriverStore) :
    Along ι (Mount.mountDriverstoreFiles host.toSys cnt call root store)
      (Mount.mountDriverstoreFiles host₀.toSys cnt call root store) :=
  (joined _ _).bind fun _ => (h.resolve ..).bind fun _ => (h.create ..).bind fun _ =>
    (h.allocate _).bind fun _ => h.mountStoreLoop ..

/-- The links of one library, by induction on those that are left. -/
theorem symlinkAll (i : ℕ) (src : Str) (j : ℕ) (links : List (Str × Str)) :
    Along ι (Mount.symlinkAll host.toSys i src j links)
      (Mount.symlinkAll host₀.toSys i src j links) := by
  induction links generalizing j with
  | nil => exact .pure ()
  | cons link links ih =>
    have hlink : Along ι (symlinkLibrary host.toSys i j src link.1 link.2)
        (symlinkLibrary host₀.toSys i j src link.1 link.2) :=
      (h.allocate _).bind fun _ => (joined _ _).bind fun _ => h.create ..
    exact hlink.bind fun _ => ih _

/-- `symlink_libraries`, by induction on the paths that are left. -/
theorem symlinkLibraries (i : ℕ) (paths : List Str) :
    Along ι (Mount.symlinkLibraries host.toSys i paths)
      (Mount.symlinkLibraries host₀.toSys i paths) := by
  induction paths generalizing i with
  | nil => exact .pure ()
  | cons path paths ih => exact (h.symlinkAll ..).bind fun _ => ih _

/-- `setup_device_cgroup`, where it is called at all. -/
theorem cgroup (call : Call) (id : Dev) :
    Along ι (host.cgroup cnt call id) (host₀.cgroup cnt call id) :=
  .onlyIf _ (.attempt (h.setupDeviceCgroup _ id))

theorem appendFiles (call : Call) (root dir : Str) (paths mnt : List Str) :
    Along ι (host.appendFiles cnt call root dir paths mnt)
      (host₀.appendFiles cnt call root dir paths mnt) :=
  ((h.mountFiles ..).onError (h.unmountAll mnt)).bind fun _ => .pure _

theorem appendDevice (call : Call) (dev : DeviceNode) (mnt : List Str) :
    Along ι (host.appendDevice ctx cnt call dev mnt) (host₀.appendDevice ctx cnt call dev mnt) :=
  (Along.optionally _ ((h.mountDevice ..).onError (h.unmountAll mnt))).bind fun _ => .pure _

/-- The devices in turn, by induction on those that are left. -/
theorem mountDevices (i : ℕ) (devs : List DeviceNode) (mnt : List Str) :
    Along ι (host.mountDevices ctx cnt i devs mnt) (host₀.mountDevices ctx cnt i devs mnt) := by
  induction devs generalizing i mnt with
  | nil => exact .pure mnt
  | cons dev devs ih =>
    unfold Host.mountDevices
    refine .ite (ih _ _) ?_
    exact (h.appendDevice ..).bind fun mnt =>
      ((h.cgroup ..).onError (h.unmountAll mnt)).bind fun _ => ih _ _

theorem appendCntLibs (info : DriverInfo) (mnt : List Str) :
    Along ι (host.appendCntLibs cnt info mnt) (host₀.appendCntLibs cnt info mnt) :=
  ((h.allocate _).onError (h.unmountAll mnt)).bind fun _ => h.appendFiles ..

/-- The body of `nvc_driver_mount`, section by section. -/
theorem driverBody (info : DriverInfo) :
    Along ι (host.driverBody ctx cnt info) (host₀.driverBody ctx cnt info) :=
  (h.allocate _).bind fun _ => (Along.ite (.pure _) (h.appendFiles ..)).bind fun _ =>
    (Along.ite (.pure _) (h.appendFiles ..)).bind fun _ =>
      (Along.ite (.pure _) (h.appendFiles ..)).bind fun mnt =>
        ((h.symlinkLibraries ..).onError (h.unmountAll mnt)).bind fun _ =>
          (Along.ite (.pure _) (h.appendCntLibs ..)).bind fun _ => h.mountDevices ..

/-- `library_search_in_dir`. -/
theorem librarySearchInDir (libDir : Str) :
    Along ι (host.librarySearchInDir libDir) (host₀.librarySearchInDir libDir) :=
  (Along.query (h.readDir _ libDir)).bind fun _ => .pure _

theorem deviceMountRest (dev : DeviceNode) (driLibs : List Str) :
    Along ι (host.deviceMountRest ctx cnt dev driLibs)
      (host₀.deviceMountRest ctx cnt dev driLibs) :=
  (Along.onlyIf _ (.attempt (h.updateAppProfile _ dev.id))).bind fun _ =>
    (Along.optionally _ (h.mountUndoing ..)).bind fun _ =>
      (Along.optionally _ (h.mountFiles ..)).bind fun _ => h.cgroup ..

/-- `device_mount_native`. -/
theorem deviceMountNative (dev : DeviceNode) :
    Along ι (host.deviceMountNative ctx cnt dev) (host₀.deviceMountNative ctx cnt dev) :=
  (h.librarySearchInDir _).bind fun _ => (Along.optionally _ (h.mountDevice ..)).bind fun devMnt =>
    ((h.mountUndoing ..).onError (h.unmount devMnt)).bind fun ldConfigMnt =>
      (h.deviceMountRest ..).onError fun t => by rw [h.unmount, h.unmount]

/-- `nvc_device_mount` in the namespace of the container. -/
theorem deviceMount (store : DriverStore) (dev : DeviceNode) :
    Along ι (host.deviceMount ctx cnt store dev) (host₀.deviceMount ctx cnt store dev) :=
  .ite ((h.mountDriverstoreFiles ..).bind fun _ => .pure ()) (h.deviceMountNative ..)

/-- `cap_device_mount`. -/
theorem capDeviceMount (call : Call) (capPath : Str) :
    Along ι (host.capDeviceMount ctx cnt call capPath)
      (host₀.capDeviceMount ctx cnt call capPath) :=
  (Along.query (h.nvcapsDevice _ capPath)).bind fun _ =>
    (Along.optionally _ (h.mountDevice ..)).bind fun devMnt =>
      (h.cgroup ..).onError (h.unmount devMnt)

theorem computeAccess (ciCapsPath procMntGi : Str) :
    Along ι (host.computeAccess ctx cnt ciCapsPath procMntGi)
      (host₀.computeAccess ctx cnt ciCapsPath procMntGi) :=
  ((joined _ _).onError (h.unmount _)).bind fun _ =>
    ((h.mountUndoing ..).onError (h.unmount _)).bind fun _ =>
      (Along.reading h.hasNvcaps).bind fun _ =>
        (Along.onlyIf _ (h.capDeviceMount ..)).onError fun t => by rw [h.unmount, h.unmount]

/-- The body of `mount_procfs_mig_access`. -/
theorem accessBody (giCapsPath ciCapsPath : Str) :
    Along ι (host.accessBody ctx cnt giCapsPath ciCapsPath)
      (host₀.accessBody ctx cnt giCapsPath ciCapsPath) :=
  (joined _ _).bind fun _ => (h.mountUndoing ..).bind fun _ =>
    (Along.reading h.hasNvcaps).bind fun _ =>
      ((Along.onlyIf _ (h.capDeviceMount ..)).onError (h.unmount _)).bind fun _ =>
        h.computeAccess ..

theorem capsDirectory (file : Str) (uninit : Option Str) :
    Along ι (host.capsDirectory ctx cnt file uninit) (host₀.capsDirectory ctx cnt file uninit) :=
  (h.mountDirectory ..).bind fun _ => (joined _ _).bind fun path =>
    (Along.query (h.nvcapsDevice _ path)).bind fun _ => h.cgroup ..

/-- The body of the two global capabilities. -/
theorem globalBody (file : Str) (uninit : Option Str) :
    Along ι (host.globalBody ctx cnt file uninit) (host₀.globalBody ctx cnt file uninit) :=
  (h.mountUndoing ..).bind fun _ => (Along.reading h.hasNvcaps).bind fun _ =>
    (Along.onlyIf _ (h.capsDirectory ..)).onError (h.unmount _)

/-- The minors of the table, by induction on the lines that are left. -/
theorem setupMigMinors (migMajor : ℕ) (id : Dev) (i : ℕ) (lines : List Str) :
    Along ι (host.setupMigMinors migMajor id i lines)
      (host₀.setupMigMinors migMajor id i lines) := by
  induction lines generalizing i with
  | nil => exact .pure ()
  | cons line lines ih =>
    unfold Host.setupMigMinors
    rcases Scan.scanMigMinor line with _ | ⟨gpuMinor, migMinor⟩
    · exact ih _
    · exact (Along.onlyIf _ (.attempt (h.setupDeviceCgroup _ _))).bind fun _ => ih _

/-- `setup_mig_minor_cgroups`. -/
theorem migCaps {migMajor : W → Option ℕ} {migMajor₀ : V → Option ℕ}
    {migMinors : Step → W → Option (List Str)} {migMinors₀ : Step → V → Option (List Str)}
    (hmajor : ∀ t, migMajor (ι t) = migMajor₀ t)
    (hminors : ∀ e t, migMinors e (ι t) = migMinors₀ e t) (id : Dev) :
    Along ι (host.migCaps cnt migMajor migMinors id)
      (host₀.migCaps cnt migMajor₀ migMinors₀ id) := by
  refine (Along.reading hmajor).bind fun m => ?_
  rcases m with _ | m
  · exact .pure ()
  · exact .onlyIf _ ((Along.query (hminors _)).bind fun _ => h.setupMigMinors ..)

end Host.Mirrors

end Mount
