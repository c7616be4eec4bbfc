import XdxContainer.Control.Fallible
import XdxContainer.Fs.Tree
import XdxContainer.Text.Scan

/-!
# Mount/Code — the mount operations

The functions of `nvc_mount.c` that mount into a container, over the system they call: a state type
and, for each kind of call, what it returns and what the state is then.

    nvc_driver_mount      ──▸ mount_files × 4, symlink_libraries, mount_device per device
    nvc_device_mount      ──▸ mount_device, mount_config_file × 2, mount_files
    nvc_mig_…_caps_mount  ──▸ mount_procfs_mig, cap_device_mount, mount_directory

Every fallible call has a name, its `Step`: which call of which function it is, and for loops which
turn.  A function fails with the step that failed, in place of the C code's -1 or NULL and error
structure.  A `goto fail` is `onError` with what the label unmounts at that point.
-/

open Paths Fs Fallible

namespace Mount

/-! ## Steps -/

/-- The kinds of fallible calls. -/
inductive Op
  | validate | nsEnter | nsLeave | arrayNew | arrayCopy | pathSrc | resolve | createDir
  | appendSrc | appendDst | stat | rdev | mode | create | bind | remount | strdup
  | search | profile | cgroup | capLookup | linkDup | linkPath | linkCreate
  deriving DecidableEq, Repr

/-- The calls of the operations, as they stand in them. -/
inductive Call
  | top
  | bins | libs | libs32 | cntLibs | symlinks (i : ℕ) | dev (i : ℕ)
  | node | ldConfig | smi | dri
  | gi | giCap | ci | ciCap | caps | capsDir
  deriving DecidableEq, Repr

/-- A step that may fail: the operation of a call, and the item of the list it works on. -/
structure Step where
  call : Call
  op : Op
  item : ℕ := 0
  deriving DecidableEq, Repr

/-! ## The system -/

/-- `dev_t`. -/
abbrev Dev := BitVec 64

/-- The flags of `mount(2)`. -/
abbrev MountFlags := BitVec 64

/-- No writes. -/
def MS_RDONLY : MountFlags := 1

/-- No setuid bits. -/
def MS_NOSUID : MountFlags := 2

/-- No access to device nodes. -/
def MS_NODEV : MountFlags := 4

/-- No programs. -/
def MS_NOEXEC : MountFlags := 8

/-- New flags for a mount that is there. -/
def MS_REMOUNT : MountFlags := 32

/-- A bind mount. -/
def MS_BIND : MountFlags := 4096

variable {W : Type}

/-- What the mount functions call. -/
structure Sys (W : Type) where
  /-- Whether it succeeds, and what is in the buffer then. -/
  pathResolveFull : Step → (buf root path : Str) → W → Bool × Str
  fileMode : Step → Str → W → Option Mode
  /-- `st_rdev`. -/
  xstat : Step → Str → W → Option Dev
  fileCreate : Step → (path : Str) → (data : Option Str) → Mode → W → Bool × W
  /-- `MS_BIND`. -/
  mount : Step → (src dst : Str) → W → Bool × W
  remount : Step → (dst : Str) → MountFlags → W → Bool × W
  alloc : Step → W → Bool
  umount2 : Str → W → W
  fileRemove : Str → W → W

/-- A join of paths, or its failure. -/
def joined (e : Step) (r : Bool × Str) : Prog Step W Str := query e fun _ =>
  if r.1 then some r.2 else none

/-- A check, with the error of the step if it fails. -/
def require (e : Step) (ok : Bool) : Prog Step W Unit := attempt e fun w => (ok, w)

/-- A joined path is what the join has written. -/
theorem joined_ok {e : Step} {r : Bool × Str} {w w' : W} {s : Str}
    (h : joined e r w = (.ok s, w')) : r = (true, s) ∧ w' = w := by
  obtain ⟨hr, hw⟩ := query_ok h
  rcases r with ⟨_ | _, r⟩
  · cases hr
  · exact ⟨Prod.ext rfl (Option.some.inj hr), hw⟩

namespace Sys

variable (sys : Sys W)

/-- `xstrdup`, `array_new`. -/
def allocate (e : Step) : Prog Step W Unit := attempt e fun w => (sys.alloc e w, w)

/-- `path_resolve_full` where the buffer is not looked at when it fails. -/
def resolve (e : Step) (root path : Str) : Prog Step W Str := query e fun w =>
  match sys.pathResolveFull e [] root path w with
  | (true, dst) => some dst
  | (false, _) => none

/-- A path in the container is what `path_resolve_full` has written. -/
theorem resolve_ok {sys : Sys W} {e : Step} {root path dst : Str} {w w' : W}
    (h : sys.resolve e root path w = (.ok dst, w')) :
    sys.pathResolveFull e [] root path w = (true, dst) ∧ w' = w := by
  obtain ⟨hr, hw⟩ := query_ok h
  split at hr
  · next d hd => exact ⟨by rw [hd, Option.some.inj hr], hw⟩
  · cases hr

/-- `unmount`. -/
def unmount (path : Option Str) (w : W) : W :=
  match path with
  | none => w
  | some p => if p = [] then w else sys.fileRemove p (sys.umount2 p w)

/-- `unmount` each. -/
def unmountAll (mnt : List Str) (w : W) : W := mnt.foldl (fun w p => sys.unmount (some p) w) w

/-- Bind `src` to `dst`, set the flags of the mount, and copy the destination out. -/
def bindAt (call : Call) (item : ℕ) (src dst : Str) (flags : MountFlags) : Prog Step W Str := do
  attempt ⟨call, .bind, item⟩ (sys.mount ⟨call, .bind, item⟩ src dst)
  attempt ⟨call, .remount, item⟩
    (sys.remount ⟨call, .remount, item⟩ dst (MS_BIND ||| MS_REMOUNT ||| flags))
  sys.allocate ⟨call, .strdup, item⟩
  return dst

end Sys

/-! ## Containers and drivers -/

/-- The option `no-cgroups`. -/
def OPT_NO_CGROUPS : BitVec 32 := 1 <<< 2

/-- The option `no-devbind`. -/
def OPT_NO_DEVBIND : BitVec 32 := 1 <<< 3

/-- The libraries of `utility`. -/
def OPT_UTILITY_LIBS : BitVec 32 := 1 <<< 5

/-- The libraries of `compute`. -/
def OPT_COMPUTE_LIBS : BitVec 32 := 1 <<< 6

/-- The libraries of `video`. -/
def OPT_VIDEO_LIBS : BitVec 32 := 1 <<< 8

/-- The libraries of `graphics`. -/
def OPT_GRAPHICS_LIBS : BitVec 32 := 1 <<< 9

/-- The option `display`. -/
def OPT_DISPLAY : BitVec 32 := 1 <<< 10

/-- The binaries of `utility`. -/
def OPT_UTILITY_BINS : BitVec 32 := 1 <<< 11

/-- The option `compat32`. -/
def OPT_COMPAT32 : BitVec 32 := 1 <<< 13

/-- `struct nvc_context`. -/
structure Context where
  initialized : Bool
  root : Str
  dxcore : Bool

/-- `struct nvc_container`. -/
structure Container where
  flags : BitVec 32
  rootfs : Str
  binsDir : Str
  libsDir : Str
  libs32Dir : Str
  drisDir : Str
  libs : List Str

/-- `cnt->flags & opt`. -/
def Container.has (cnt : Container) (opt : BitVec 32) : Bool := cnt.flags &&& opt ≠ 0

/-- `struct nvc_device_node`. -/
structure DeviceNode where
  path : Str
  id : Dev

/-- What `nvc_driver_mount` reads of the driver information. -/
structure DriverInfo where
  nvrmVersion : Str
  bins : List Str
  libs : List Str
  libs32 : List Str
  devs : List DeviceNode

/-- `major` of a device number. -/
def major (d : Dev) : ℕ := ((d >>> 8) &&& 0xfff ||| (d >>> 32) &&& 0xfffff000).toNat

/-- `minor` of a device number. -/
def minor (d : Dev) : ℕ := (d &&& 0xff ||| (d >>> 12) &&& 0xffffff00).toNat

/-- `makedev`. -/
def makedev (maj min : ℕ) : Dev :=
  let maj : Dev := BitVec.ofNat 64 (maj % 2 ^ 32)
  let min : Dev := BitVec.ofNat 64 (min % 2 ^ 32)
  (maj &&& 0xfff) <<< 8 ||| (maj &&& 0xfffff000) <<< 32 ||| (min &&& 0xff)
    ||| (min &&& 0xffffff00) <<< 12

/-- The major of the devices. -/
def NV_DEVICE_MAJOR : ℕ := 226

/-- The minor of the modesetting device. -/
def NV_MODESET_DEVICE_MINOR : ℕ := 254

/-! ## Names -/

/-- `str_has_prefix`. -/
def strHasPrefix (str pre : Str) : Bool := pre.isPrefixOf str

/-- `str_array_match_prefix`. -/
def strArrayMatchPrefix (str : Str) (arr : List Str) : Bool := arr.any (strHasPrefix str)

/-- The rest of a string from the first occurrence of another on. -/
def strstr (sub : Str) : Str → Option Str
  | [] => if sub = [] then some [] else none
  | c :: s => if strHasPrefix (c :: s) sub then some (c :: s) else strstr sub s

/-- The binaries of `utility`. -/
def utilityBins : List Str := ["xdxsmi".toList]

/-- The libraries of `utility`. -/
def utilityLibs : List Str :=
  ["libxdxgpu-ml.so", "libpciaccess.so", "libva.so", "libva-drm.so", "libdrm.so"].map String.toList

/-- The libraries of `compute`. -/
def computeLibs : List Str := ["libCL_xdxgpu.so", "libdrm.so"].map String.toList

/-- The libraries of `video`. -/
def videoLibs : List Str :=
  ["libva.so", "libva-x11.so", "xdxgpu_dri.so", "xdxgpu_drv_video.so", "xdxgpu_drv_video_a0.so",
    "xdxgpu_drv_video_b0.so"].map String.toList

/-- The libraries of `graphics`. -/
def graphicsLibs : List Str :=
  ["libEGL_mesa.so", "libEGL.so", "libglapi.so", "libGLdispatch.so", "libGLESv1_CM.so",
    "libGLESv1_CM_xdxgpu.so", "libGLESv2.so", "libGLESv2_xdxgpu.so", "libGL.so", "libGL_xdxgpu.so",
    "libGLX_mesa.so", "libGLX.so", "libOpenGL.so", "libusc_xdxgpu.so", "libufgen_xdxgpu.so",
    "libgsl_xdxgpu.so", "libdri_xdxgpu.so", "libdrm_xdxgpu.so", "libxdxgpu_mesa_wsi.so",
    "libvlk_xdxgpu.so", "xdxgpu_dri.so"].map String.toList

/-- The libraries that any capability has. -/
def dxcoreLibs : List Str := ["libdxcore.so".toList]

/-- `match_binary_flags`. -/
def matchBinaryFlags (bin : Str) (cnt : Container) : Bool :=
  cnt.has OPT_UTILITY_BINS && strArrayMatchPrefix bin utilityBins

/-- `match_library_flags`. -/
def matchLibraryFlags (lib : Str) (cnt : Container) : Bool :=
  strArrayMatchPrefix lib dxcoreLibs
    || cnt.has OPT_UTILITY_LIBS && strArrayMatchPrefix lib utilityLibs
    || cnt.has OPT_COMPUTE_LIBS && strArrayMatchPrefix lib computeLibs
    || cnt.has OPT_VIDEO_LIBS && strArrayMatchPrefix lib videoLibs
    || cnt.has OPT_GRAPHICS_LIBS && strArrayMatchPrefix lib graphicsLibs

/-- Whether `mount_files` mounts a path. -/
def selected (cnt : Container) (path : Str) : Bool :=
  matchBinaryFlags (basename path) cnt || matchLibraryFlags (basename path) cnt

/-! ## Mounting files -/

section Files

variable (sys : Sys W) (cnt : Container)

/-- One turn of the loop of `mount_files`. -/
def mountFile (call : Call) (src dst : Str) (i : ℕ) (path : Str) : Prog Step W Str := do
  let src ← joined ⟨call, .appendSrc, i⟩ (pathAppend src path)
  let dst ← joined ⟨call, .appendDst, i⟩ (pathAppend dst (basename path))
  let mode ← query ⟨call, .mode, i⟩ (sys.fileMode ⟨call, .mode, i⟩ src)
  attempt ⟨call, .create, i⟩ (sys.fileCreate ⟨call, .create, i⟩ dst none mode)
  sys.bindAt call i src dst (MS_RDONLY ||| MS_NODEV ||| MS_NOSUID)

/-- The loop of `mount_files`: `mnt` are the destinations recorded so far. -/
def mountFilesLoop (call : Call) (src dst : Str) : ℕ → List Str → List Str → Prog Step W (List Str)
  | _, mnt, [] => return mnt
  | i, mnt, path :: paths =>
    if selected cnt path then do
      let m ← onError (mountFile sys call src dst i path) (sys.unmountAll mnt)
      mountFilesLoop call src dst (i + 1) (mnt ++ [m]) paths
    else mountFilesLoop call src dst (i + 1) mnt paths

/-- `mount_files`. -/
def mountFiles (call : Call) (root dir : Str) (paths : List Str) : Prog Step W (List Str) := do
  let src ← joined ⟨call, .pathSrc, 0⟩ (pathNew root)
  let dst ← sys.resolve ⟨call, .resolve, 0⟩ cnt.rootfs dir
  attempt ⟨call, .createDir, 0⟩ (sys.fileCreate ⟨call, .createDir, 0⟩ dst none ⟨.dir, 0x1ed⟩)
  sys.allocate ⟨call, .arrayNew, 0⟩
  mountFilesLoop sys cnt call src dst 0 [] paths

/-- `mount_device`. -/
def mountDevice (call : Call) (root : Str) (dev : DeviceNode) : Prog Step W Str := do
  let src ← joined ⟨call, .pathSrc, 0⟩ (pathJoin root dev.path)
  let dst ← sys.resolve ⟨call, .resolve, 0⟩ cnt.rootfs dev.path
  let rdev ← query ⟨call, .stat, 0⟩ (sys.xstat ⟨call, .stat, 0⟩ src)
  require ⟨call, .rdev, 0⟩ (rdev = dev.id)
  let mode ← query ⟨call, .mode, 0⟩ (sys.fileMode ⟨call, .mode, 0⟩ src)
  attempt ⟨call, .create, 0⟩ (sys.fileCreate ⟨call, .create, 0⟩ dst none mode)
  onError (sys.bindAt call 0 src dst (MS_RDONLY ||| MS_NOSUID ||| MS_NOEXEC))
    (sys.unmount (some dst))

/-- The part of `mount_config_file` behind the resolution of the destination. -/
def createAndBind (flags : MountFlags) (call : Call) (resolved : Bool) (src dst : Str) :
    Prog Step W Str := do
  require ⟨call, .resolve, 0⟩ resolved
  let mode ← query ⟨call, .mode, 0⟩ (sys.fileMode ⟨call, .mode, 0⟩ src)
  attempt ⟨call, .create, 0⟩ (sys.fileCreate ⟨call, .create, 0⟩ dst none mode)
  sys.bindAt call 0 src dst flags

/-- `mount_config_file` and `mount_procfs_mig`, which differ in the flags of the mount: whatever
fails, the destination is unmounted.  It is empty until it is resolved. -/
def mountUndoing (flags : MountFlags) (call : Call) (root dir : Str) : Prog Step W Str := do
  let src ← onError (joined ⟨call, .pathSrc, 0⟩ (pathJoin root dir)) (sys.unmount (some []))
  let (ok, dst) ← reading (sys.pathResolveFull ⟨call, .resolve, 0⟩ [] cnt.rootfs dir)
  onError (createAndBind sys flags call ok src dst) (sys.unmount (some dst))

/-- `mount_config_file`. -/
def mountConfigFile : Call → (root dir : Str) → Prog Step W Str :=
  mountUndoing sys cnt (MS_RDONLY ||| MS_NODEV ||| MS_NOSUID)

/-- `mount_procfs_mig`. -/
def mountProcfsMig : Call → (root capsPath : Str) → Prog Step W Str :=
  mountUndoing sys cnt (MS_RDONLY ||| MS_NODEV ||| MS_NOSUID ||| MS_NOEXEC)

/-- The part of `mount_with_flags` before the destination is copied. -/
def createAndRemount (flags : MountFlags) (call : Call) (src dst : Str) : Prog Step W Unit := do
  let mode ← query ⟨call, .mode, 0⟩ (sys.fileMode ⟨call, .mode, 0⟩ src)
  attempt ⟨call, .create, 0⟩ (sys.fileCreate ⟨call, .create, 0⟩ dst none mode)
  attempt ⟨call, .bind, 0⟩ (sys.mount ⟨call, .bind, 0⟩ src dst)
  attempt ⟨call, .remount, 0⟩
    (sys.remount ⟨call, .remount, 0⟩ dst (MS_BIND ||| MS_REMOUNT ||| flags))

/-- `mount_with_flags`.  The label unmounts what `mnt` points to, which is assigned only by the last
step: before it the pointer is whatever was on the stack, `uninit`; when it fails it is NULL. -/
def mountWithFlags (uninit : Option Str) (call : Call) (src dst : Str) (flags : MountFlags) :
    Prog Step W Str := do
  onError (createAndRemount sys flags call src dst) (sys.unmount uninit)
  onError (sys.allocate ⟨call, .strdup, 0⟩) (sys.unmount none)
  return dst

/-- `mount_directory`. -/
def mountDirectory (uninit : Option Str) (call : Call) (root dir : Str) : Prog Step W Str := do
  let src ← joined ⟨call, .pathSrc, 0⟩ (pathJoin root dir)
  let dst ← sys.resolve ⟨call, .resolve, 0⟩ cnt.rootfs dir
  mountWithFlags sys uninit call src dst (MS_NOSUID ||| MS_NOEXEC)

/-- The driver store of a dxcore adapter: its path and the files in it. -/
structure DriverStore where
  path : Str
  components : List Str

/-- One turn of the loop of `mount_driverstore_files`. -/
def mountStoreFile (call : Call) (src dst : Str) (i : ℕ) (path : Str) : Prog Step W Str := do
  let src ← joined ⟨call, .appendSrc, i⟩ (pathAppend src path)
  let dst ← joined ⟨call, .appendDst, i⟩ (pathAppend dst (basename path))
  attempt ⟨call, .create, i⟩ (sys.fileCreate ⟨call, .create, i⟩ dst none ⟨.reg, 0x16d⟩)
  sys.bindAt call i src dst (MS_RDONLY ||| MS_NODEV ||| MS_NOSUID)

/-- The loop of `mount_driverstore_files`: `mnt` are the destinations recorded so far. -/
def mountStoreLoop (call : Call) (src dst : Str) : ℕ → List Str → List Str → Prog Step W (List Str)
  | _, mnt, [] => return mnt
  | i, mnt, path :: paths => do
    let m ← onError (mountStoreFile sys call src dst i path) (sys.unmountAll mnt)
    mountStoreLoop call src dst (i + 1) (mnt ++ [m]) paths

/-- `mount_driverstore_files`. -/
def mountDriverstoreFiles (call : Call) (root : Str) (store : DriverStore) :
    Prog Step W (List Str) := do
  let src ← joined ⟨call, .pathSrc, 0⟩ (pathJoin root store.path)
  let dst ← sys.resolve ⟨call, .resolve, 0⟩ cnt.rootfs store.path
  attempt ⟨call, .createDir, 0⟩ (sys.fileCreate ⟨call, .createDir, 0⟩ dst none ⟨.dir, 0x1ed⟩)
  sys.allocate ⟨call, .arrayNew, 0⟩
  mountStoreLoop sys call src dst 0 [] store.components

end Files

/-! ## Links to libraries, and which libraries are taken -/

/-- The regular expression `^stem\.[0-9]+\.[0-9]+\.[0-9]+$`. -/
def versioned (stem lib : Str) : Bool :=
  strHasPrefix lib (stem ++ ['.'])
    && match (lib.drop (stem.length + 1)).splitOn '.' with
      | [a, b, c] => [a, b, c].all fun d => d ≠ [] && d.all Char.isDigit
      | _ => false

/-- The links `symlink_libraries` makes for a library: target and name. -/
def symlinksOf (lib : Str) : List (Str × Str) :=
  if strHasPrefix lib "libGL_xdxgpu.so".toList then
    if versioned "libGL_xdxgpu.so".toList lib then [(lib, "libGL_xdxgpu.so".toList)] else []
  else if strHasPrefix lib "libxdxgpu-ml.so".toList then
    if versioned "libxdxgpu-ml.so".toList lib then [(lib, "libxdxgpu-ml.so".toList)] else []
  else if strHasPrefix lib "libCL_xdxgpu.so".toList then
    if versioned "libCL_xdxgpu.so".toList lib then
      [(lib, "libOpenCL.so.1".toList), ("libOpenCL.so.1".toList, "libOpenCL.so".toList)]
    else []
  else if strHasPrefix lib "libpciaccess.so".toList then
    if versioned "libpciaccess.so".toList lib then [(lib, "libpciaccess.so.0".toList)] else []
  else if strHasPrefix lib "libvlk_xdxgpu.so".toList then
    if versioned "libvlk_xdxgpu.so".toList lib then [(lib, "libvlk_xdxgpu.so".toList)] else []
  else []

section Links

variable (sys : Sys W)

/-- `symlink_library`. -/
def symlinkLibrary (i j : ℕ) (src target linkname : Str) : Prog Step W Unit := do
  sys.allocate ⟨.symlinks i, .linkDup, j⟩
  let path ← joined ⟨.symlinks i, .linkPath, j⟩ (pathJoin (dirname src) linkname)
  attempt ⟨.symlinks i, .linkCreate, j⟩
    (sys.fileCreate ⟨.symlinks i, .linkCreate, j⟩ path (some target) ⟨.lnk, 0x1ff⟩)

/-- The links of one library. -/
def symlinkAll (i : ℕ) (src : Str) : ℕ → List (Str × Str) → Prog Step W Unit
  | _, [] => return
  | j, (target, linkname) :: links => do
    symlinkLibrary sys i j src target linkname
    symlinkAll i src (j + 1) links

/-- `symlink_libraries`. -/
def symlinkLibraries : ℕ → List Str → Prog Step W Unit
  | _, [] => return
  | i, path :: paths => do
    symlinkAll sys i path 0 (symlinksOf (basename path))
    symlinkLibraries (i + 1) paths

end Links

/-- `filter_libraries`: a library is kept if the digits after `.so.` differ from the driver's. -/
def filterLibraries (info : DriverInfo) (paths : List Str) : List Str :=
  paths.filter fun path =>
    match strstr ".so.".toList (basename path) with
    | none => false
    | some s =>
      let maj := s.drop 4
      let n := (maj.takeWhile Char.isDigit).length
      info.nvrmVersion.take n ≠ maj.take n

/-! ## The operations -/

/-- What the operations call besides. -/
structure Host (W : Type) extends Sys W where
  /-- `ns_enter` of the container's mount namespace. -/
  nsEnter : Step → W → Bool × W
  /-- `ns_enter_at` of the process's own. -/
  nsEnterAt : Step → W → Bool × W
  setupDeviceCgroup : Step → Dev → W → Bool × W
  updateAppProfile : Step → Dev → W → Bool × W
  /-- The names in a directory, as `readdir` gives them. -/
  readDir : Step → Str → W → Option (List Name)
  /-- `nvc_nvcaps_device_from_proc_path`. -/
  nvcapsDevice : Step → Str → W → Option DeviceNode
  /-- `nvidia_get_chardev_major(NV_CAPS_MODULE_NAME) != -1`. -/
  hasNvcaps : W → Bool

namespace Host

variable (host : Host W) (ctx : Context) (cnt : Container)

/-- Run in the container's mount namespace, and come back: with an assertion when something failed,
as a last fallible step when nothing did. -/
def inContainer {α : Type} (body : Prog Step W α) : Prog Step W Unit := do
  require ⟨.top, .validate, 0⟩ ctx.initialized
  attempt ⟨.top, .nsEnter, 0⟩ (host.nsEnter ⟨.top, .nsEnter, 0⟩)
  let _ ← onError body fun w => (host.nsEnterAt ⟨.top, .nsLeave, 0⟩ w).2
  attempt ⟨.top, .nsLeave, 0⟩ (host.nsEnterAt ⟨.top, .nsLeave, 0⟩)

/-- `setup_device_cgroup`, unless the container does not want it. -/
def cgroup (call : Call) (id : Dev) : Prog Step W Unit := onlyIf (!cnt.has OPT_NO_CGROUPS)
  (attempt ⟨call, .cgroup, 0⟩ (host.setupDeviceCgroup ⟨call, .cgroup, 0⟩ id))

/-- A call of `mount_files` in `nvc_driver_mount`: the new mounts are put behind the others. -/
def appendFiles (call : Call) (root dir : Str) (paths mnt : List Str) : Prog Step W (List Str) := do
  let tmp ← onError (mountFiles host.toSys cnt call root dir paths) (host.unmountAll mnt)
  return mnt ++ tmp

/-- Bind a device in `nvc_driver_mount`, unless the container does not want it. -/
def appendDevice (call : Call) (dev : DeviceNode) (mnt : List Str) : Prog Step W (List Str) := do
  let m ← optionally (!cnt.has OPT_NO_DEVBIND)
    (onError (mountDevice host.toSys cnt call ctx.root dev) (host.unmountAll mnt))
  return mnt ++ m.toList

/-- Whether the loop over the devices in `nvc_driver_mount` passes a device by. -/
def skipsDevice (dev : DeviceNode) : Bool :=
  !ctx.dxcore && (!cnt.has OPT_COMPUTE_LIBS && major dev.id ≠ NV_DEVICE_MAJOR
    || !cnt.has OPT_DISPLAY && minor dev.id = NV_MODESET_DEVICE_MINOR)

/-- The loop over the devices in `nvc_driver_mount`. -/
def mountDevices : ℕ → List DeviceNode → List Str → Prog Step W (List Str)
  | _, [], mnt => return mnt
  | i, dev :: devs, mnt =>
    if skipsDevice ctx cnt dev then mountDevices (i + 1) devs mnt
    else do
      let mnt ← host.appendDevice ctx cnt (.dev i) dev mnt
      onError (host.cgroup cnt (.dev i) dev.id) (host.unmountAll mnt)
      mountDevices (i + 1) devs mnt

/-- The container libraries in `nvc_driver_mount`. -/
def appendCntLibs (info : DriverInfo) (mnt : List Str) : Prog Step W (List Str) := do
  onError (host.allocate ⟨.cntLibs, .arrayCopy, 0⟩) (host.unmountAll mnt)
  host.appendFiles cnt .cntLibs cnt.rootfs cnt.libsDir (filterLibraries info cnt.libs) mnt

/-- `nvc_driver_mount`, between entering and leaving the namespace. -/
def driverBody (info : DriverInfo) : Prog Step W (List Str) := do
  host.allocate ⟨.top, .arrayNew, 0⟩
  let mnt ← (if info.bins = [] then pure [] else
    host.appendFiles cnt .bins ctx.root cnt.binsDir info.bins [])
  let mnt ← (if info.libs = [] then pure mnt else
    host.appendFiles cnt .libs ctx.root cnt.libsDir info.libs mnt)
  let mnt ← (if cnt.has OPT_COMPAT32 = false ∨ info.libs32 = [] then pure mnt else
    host.appendFiles cnt .libs32 ctx.root cnt.libs32Dir info.libs32 mnt)
  onError (symlinkLibraries host.toSys 0 mnt) (host.unmountAll mnt)
  let mnt ← (if cnt.libs = [] then pure mnt else host.appendCntLibs cnt info mnt)
  host.mountDevices ctx cnt 0 info.devs mnt

/-- `nvc_driver_mount`. -/
def nvcDriverMount (info : DriverInfo) : Prog Step W Unit :=
  host.inContainer ctx (host.driverBody ctx cnt info)

/-- The regular expression `^xdxgpu_dr[iv].*\.so$`. -/
def matchDri (name : Str) : Bool :=
  strHasPrefix name "xdxgpu_dr".toList
    && (name.drop 9).head?.any (fun c => c = 'i' || c = 'v')
    && ".so".toList.isSuffixOf (name.drop 10)

/-- `library_search_in_dir`. -/
def librarySearchInDir (libDir : Str) : Prog Step W (List Str) := do
  let names ← query ⟨.dri, .search, 0⟩ (host.readDir ⟨.dri, .search, 0⟩ libDir)
  return (names.filter matchDri).map fun name => libDir ++ '/' :: name

/-- Where `mount_ld_config` puts its file. -/
def LD_CONFIG_DIR : Str := "/etc/ld.so.conf.d".toList

/-- The directory of the front end of `xdxsmi`. -/
def SMI_FRONT_DIR : Str := "/usr/lib/python3/dist-packages/xdxsmi".toList

/-- The part of `device_mount_native` behind the first two mounts.  What the calls for the front end
and the DRI libraries return is freed at once. -/
def deviceMountRest (dev : DeviceNode) (driLibs : List Str) : Prog Step W Unit := do
  onlyIf (cnt.has OPT_GRAPHICS_LIBS)
    (attempt ⟨.top, .profile, 0⟩ (host.updateAppProfile ⟨.top, .profile, 0⟩ dev.id))
  let _ ← optionally (cnt.has OPT_UTILITY_LIBS)
    (mountConfigFile host.toSys cnt .smi ctx.root SMI_FRONT_DIR)
  let _ ← optionally (cnt.has OPT_VIDEO_LIBS || cnt.has OPT_GRAPHICS_LIBS)
    (mountFiles host.toSys cnt .dri ctx.root cnt.drisDir driLibs)
  host.cgroup cnt .node dev.id

/-- `device_mount_native`. -/
def deviceMountNative (dev : DeviceNode) : Prog Step W Unit := do
  let driLibs ← host.librarySearchInDir cnt.drisDir
  let devMnt ← optionally (!cnt.has OPT_NO_DEVBIND) (mountDevice host.toSys cnt .node ctx.root dev)
  let ldConfigMnt ← onError (mountConfigFile host.toSys cnt .ldConfig ctx.root LD_CONFIG_DIR)
    (host.unmount devMnt)
  onError (host.deviceMountRest ctx cnt dev driLibs)
    (fun w => host.unmount devMnt (host.unmount (some ldConfigMnt) w))

/-- `nvc_device_mount` of a native device. -/
def nvcDeviceMount (dev : DeviceNode) : Prog Step W Unit :=
  host.inContainer ctx (host.deviceMountNative ctx cnt dev)

/-- `nvc_device_mount`, between entering and leaving the namespace: on a native system, or with the
driver store of the first adapter. -/
def deviceMount (store : DriverStore) (dev : DeviceNode) : Prog Step W Unit :=
  if ctx.dxcore then do
    let _ ← mountDriverstoreFiles host.toSys cnt .node ctx.root store
  else host.deviceMountNative ctx cnt dev

/-- `nvc_device_mount`, whichever the system is. -/
def nvcDeviceMountAny (store : DriverStore) (dev : DeviceNode) : Prog Step W Unit :=
  host.inContainer ctx (host.deviceMount ctx cnt store dev)

/-- `cap_device_mount`: the destination of the device is freed when it succeeds. -/
def capDeviceMount (call : Call) (capPath : Str) : Prog Step W Unit := do
  let node ← query ⟨call, .capLookup, 0⟩ (host.nvcapsDevice ⟨call, .capLookup, 0⟩ capPath)
  let devMnt ← optionally (!cnt.has OPT_NO_DEVBIND) (mountDevice host.toSys cnt call ctx.root node)
  onError (host.cgroup cnt call node.id) (host.unmount devMnt)

/-- The file below the capabilities of an instance. -/
def NV_MIG_ACCESS_FILE : Str := "access".toList

/-- The part of `nvc_mig_device_access_caps_mount` for the compute instance. -/
def computeAccess (ciCapsPath procMntGi : Str) : Prog Step W Unit := do
  let access ← onError (joined ⟨.ci, .appendSrc, 0⟩ (pathJoin ciCapsPath NV_MIG_ACCESS_FILE))
    (host.unmount (some procMntGi))
  let procMntCi ← onError (mountProcfsMig host.toSys cnt .ci ctx.root access)
    (host.unmount (some procMntGi))
  let caps ← reading host.hasNvcaps
  onError (onlyIf caps (host.capDeviceMount ctx cnt .ciCap access))
    (fun w => host.unmount (some procMntCi) (host.unmount (some procMntGi) w))

/-- `nvc_mig_device_access_caps_mount`, between entering and leaving the namespace. -/
def accessBody (giCapsPath ciCapsPath : Str) : Prog Step W Unit := do
  let access ← joined ⟨.gi, .appendSrc, 0⟩ (pathJoin giCapsPath NV_MIG_ACCESS_FILE)
  let procMntGi ← mountProcfsMig host.toSys cnt .gi ctx.root access
  let caps ← reading host.hasNvcaps
  onError (onlyIf caps (host.capDeviceMount ctx cnt .giCap access)) (host.unmount (some procMntGi))
  host.computeAccess ctx cnt ciCapsPath procMntGi

/-- `nvc_mig_device_access_caps_mount`, on the two capability paths of the device. -/
def nvcMigDeviceAccessCapsMount (giCapsPath ciCapsPath : Str) : Prog Step W Unit :=
  host.inContainer ctx (host.accessBody ctx cnt giCapsPath ciCapsPath)

/-- The directory of the capabilities. -/
def NV_PROC_DRIVER_CAPS : Str := "/proc/driver/nvidia/capabilities".toList

/-- The directory of the MIG capabilities. -/
def NV_MIG_CAPS_PATH : Str := "/proc/driver/nvidia/capabilities/mig".toList

/-- The directory of the capability devices. -/
def NV_CAPS_DEVICE_DIR : Str := "/dev/nvidia-caps".toList

/-- The part of `nvc_mig_config_global_caps_mount` for the devices of the capabilities.  The
destination of the device directory is freed and never unmounted. -/
def capsDirectory (file : Str) (uninit : Option Str) : Prog Step W Unit := do
  let _ ← mountDirectory host.toSys cnt uninit .capsDir ctx.root NV_CAPS_DEVICE_DIR
  let path ← joined ⟨.capsDir, .appendSrc, 0⟩ (pathJoin NV_MIG_CAPS_PATH file)
  let node ← query ⟨.capsDir, .capLookup, 0⟩ (host.nvcapsDevice ⟨.capsDir, .capLookup, 0⟩ path)
  host.cgroup cnt .capsDir node.id

/-- `nvc_mig_config_global_caps_mount`, between entering and leaving the namespace. -/
def globalBody (file : Str) (uninit : Option Str) : Prog Step W Unit := do
  let procMnt ← mountProcfsMig host.toSys cnt .caps ctx.root NV_PROC_DRIVER_CAPS
  let caps ← reading host.hasNvcaps
  onError (onlyIf caps (host.capsDirectory ctx cnt file uninit)) (host.unmount (some procMnt))

/-- `nvc_mig_config_global_caps_mount` and `nvc_mig_monitor_global_caps_mount`, which differ in the
capability looked up. -/
def globalCapsMount (file : Str) (uninit : Option Str) : Prog Step W Unit :=
  host.inContainer ctx (host.globalBody ctx cnt file uninit)

/-- `nvc_mig_config_global_caps_mount`. -/
def nvcMigConfigGlobalCapsMount : (uninit : Option Str) → Prog Step W Unit :=
  host.globalCapsMount ctx cnt "config".toList

/-- `nvc_mig_monitor_global_caps_mount`. -/
def nvcMigMonitorGlobalCapsMount : (uninit : Option Str) → Prog Step W Unit :=
  host.globalCapsMount ctx cnt "monitor".toList

/-- The loop of `setup_mig_minor_cgroups`, over the lines `fgets` reads. -/
def setupMigMinors (migMajor : ℕ) (id : Dev) : ℕ → List Str → Prog Step W Unit
  | _, [] => return
  | i, line :: lines => do
    match Scan.scanMigMinor line with
    | none => setupMigMinors migMajor id (i + 1) lines
    | some (gpuMinor, migMinor) =>
      onlyIf (gpuMinor = minor id) (attempt ⟨.caps, .cgroup, i⟩
        (host.setupDeviceCgroup ⟨.caps, .cgroup, i⟩ (makedev migMajor migMinor)))
      setupMigMinors migMajor id (i + 1) lines

/-- `nvc_device_mig_caps_mount` of the device `id`, between entering and leaving the namespace.
`migMajor` is the major number of the capabilities, if there is one, and `migMinors` the lines of
`NV_CAPS_MIG_MINORS_PATH`, if it can be opened; if it cannot, it is closed all the same, which ends
the process. -/
def migCaps (migMajor : W → Option ℕ) (migMinors : Step → W → Option (List Str)) (id : Dev) :
    Prog Step W Unit := do
  match ← reading migMajor with
  | none => return
  | some migMajor =>
    onlyIf (!cnt.has OPT_NO_CGROUPS) do
      let lines ← query ⟨.caps, .search, 0⟩ (migMinors ⟨.caps, .search, 0⟩)
      host.setupMigMinors migMajor id 0 lines

/-- `nvc_device_mig_caps_mount`. -/
def nvcDeviceMigCapsMount (migMajor : W → Option ℕ) (migMinors : Step → W → Option (List Str))
    (id : Dev) : Prog Step W Unit :=
  host.inContainer ctx (host.migCaps cnt migMajor migMinors id)

end Host

end Mount
