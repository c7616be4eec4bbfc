import Mathlib.Data.List.Forall2
import XdxContainer.Mount.Arrays
import XdxContainer.Mount.DriverMount
import XdxContainer.Mount.Mirror

/-!
# Mount/Contents — what a driver mount has mounted

    bins ▸ libs ▸ libs32 ▸ container libraries ▸ devices

    root/path  ──bind──▸  directory/basename path          the selected paths of each part, in order
    root/dev   ──bind──▸  device                           the devices that are not passed by

A `Journal` is a world with what came before it and the mount calls that succeeded.
`nvcDriverMount_mounts` reads off it what a call of `nvc_driver_mount` that returns 0 has done:
these binds, each with its remount, and nothing else, in the slots it has for them.
-/

open Paths Fs Fallible Slots

namespace Mount

variable {W : Type}

/-! ## What is noted -/

/-- A call that changes the mount table. -/
inductive Event
  | bind (src dst : Str)
  | remount (dst : Str) (flags : MountFlags)
  | umount (path : Str)
  deriving DecidableEq, Repr

/-- A world, the worlds before it, and the calls that changed the mount table. -/
structure Journal (W : Type) where
  world : W
  past : List W := []
  events : List Event := []

namespace Journal

/-- The worlds of the run. -/
def worlds (j : Journal W) : List W := j.world :: j.past

/-- The next world. -/
def next (j : Journal W) (w : W) (es : List Event) : Journal W where
  world := w
  past := j.worlds
  events := j.events ++ es

end Journal

/-- The host that keeps the journal. -/
def Host.journaled (host : Host W) : Host (Journal W) where
  pathResolveFull e buf root path j := host.pathResolveFull e buf root path j.world
  fileMode e path j := host.fileMode e path j.world
  xstat e path j := host.xstat e path j.world
  fileCreate e path data mode j :=
    let r := host.fileCreate e path data mode j.world
    (r.1, j.next r.2 [])
  mount e src dst j :=
    let r := host.mount e src dst j.world
    (r.1, j.next r.2 (if r.1 then [.bind src dst] else []))
  remount e dst flags j :=
    let r := host.remount e dst flags j.world
    (r.1, j.next r.2 (if r.1 then [.remount dst flags] else []))
  alloc e j := host.alloc e j.world
  umount2 path j := j.next (host.umount2 path j.world) [.umount path]
  fileRemove path j := j.next (host.fileRemove path j.world) []
  nsEnter e j :=
    let r := host.nsEnter e j.world
    (r.1, j.next r.2 [])
  nsEnterAt e j :=
    let r := host.nsEnterAt e j.world
    (r.1, j.next r.2 [])
  setupDeviceCgroup e id j :=
    let r := host.setupDeviceCgroup e id j.world
    (r.1, j.next r.2 [])
  updateAppProfile e id j :=
    let r := host.updateAppProfile e id j.world
    (r.1, j.next r.2 [])
  readDir e path j := host.readDir e path j.world
  nvcapsDevice e path j := host.nvcapsDevice e path j.world
  hasNvcaps j := host.hasNvcaps j.world

/-- Without the journal the calls are those of the host. -/
theorem Host.mirrors_journaled (host : Host W) :
    Host.Mirrors Journal.world host host.journaled := by
  constructor <;> intros <;> rfl

/-- What has been done since: the events, and no world is forgotten. -/
structure Journal.Extends (j : Journal W) (es : List Event) (j' : Journal W) : Prop where
  events : j'.events = j.events ++ es
  worlds : ∀ w ∈ j.worlds, w ∈ j'.worlds

namespace Journal.Extends

variable {j j' j'' : Journal W} {es es' : List Event}

/-- No event. -/
theorem refl (j : Journal W) : j.Extends [] j := ⟨(List.append_nil _).symm, fun _ => id⟩

theorem next (j : Journal W) (w : W) (es : List Event) : j.Extends es (j.next w es) :=
  ⟨rfl, fun _ => List.mem_cons_of_mem _⟩

/-- Events of one part behind those of another. -/
theorem trans (h : j.Extends es j') (h' : j'.Extends es' j'') : j.Extends (es ++ es') j'' :=
  ⟨by rw [h'.events, h.events, List.append_assoc], fun w hw => h'.worlds w (h.worlds w hw)⟩

/-- Something that notes nothing comes before. -/
theorem after (h' : j'.Extends es j'') (h : j.Extends [] j') : j.Extends es j'' := h.trans h'

end Journal.Extends

/-! ## What is expected -/

/-- A path behind another one, with a slash between them. -/
def behind (dir path : Str) : Str := dir ++ if path = [] then [] else joinText dir path

/-- A bind mount with the flags it gets. -/
structure BindMount where
  src : Str
  dst : Str
  flags : MountFlags

/-- The calls that make it. -/
def BindMount.events (m : BindMount) : List Event :=
  [.bind m.src m.dst, .remount m.dst (MS_BIND ||| MS_REMOUNT ||| m.flags)]

/-- The mounts of the selected files of a root, in a directory. -/
def fileMounts (cnt : Container) (root dir : Str) (paths : List Str) : List BindMount :=
  (paths.filter (selected cnt)).map fun path =>
    ⟨behind (behind [] root) path, behind dir (basename path), MS_RDONLY ||| MS_NODEV ||| MS_NOSUID⟩

/-- `path_resolve_full` gave the path at this place of the operation, in a world of the run. -/
def Journal.Resolved (host : Host W) (j : Journal W) (call : Call) (root path dst : Str) : Prop :=
  ∃ w ∈ j.worlds, host.pathResolveFull ⟨call, .resolve, 0⟩ [] root path w = (true, dst)

theorem Journal.Resolved.mono {host : Host W} {j j' : Journal W} {call : Call} {es : List Event}
    {root path dst : Str} (h : j.Resolved host call root path dst) (hj : j.Extends es j') :
    j'.Resolved host call root path dst := by
  obtain ⟨w, hw, hres⟩ := h
  exact ⟨w, hj.worlds w hw, hres⟩

/-- The mounts of a part of the driver. -/
def FilesMounted (host : Host W) (cnt : Container) (j : Journal W) (call : Call) (root dir : Str)
    (paths : List Str) (ms : List BindMount) : Prop :=
  ∃ dst, (paths ≠ [] → j.Resolved host call cnt.rootfs dir dst) ∧ ms = fileMounts cnt root dst paths

/-- The mounts of devices, each at its place in the loop. -/
def DevicesMounted (host : Host W) (ctx : Context) (cnt : Container) (j : Journal W)
    (devs : List (DeviceNode × ℕ)) (ms : List BindMount) : Prop :=
  List.Forall₂ (fun d m => m.src = behind (behind [] ctx.root) d.1.path
    ∧ j.Resolved host (.dev d.2) cnt.rootfs d.1.path m.dst
    ∧ m.flags = MS_RDONLY ||| MS_NOSUID ||| MS_NOEXEC) devs ms

/-- The devices that are bound, with their places from `i` on. -/
def boundDevices (ctx : Context) (cnt : Container) (i : ℕ) (devs : List DeviceNode) :
    List (DeviceNode × ℕ) :=
  if cnt.has OPT_NO_DEVBIND then []
  else (devs.zipIdx i).filter fun d => !Host.skipsDevice ctx cnt d.1

/-- **What a driver mount has mounted.** -/
def DriverMounted (host : Host W) (ctx : Context) (cnt : Container) (info : DriverInfo)
    (j : Journal W) : Prop :=
  ∃ bins libs libs32 cntLibs devs,
    FilesMounted host cnt j .bins ctx.root cnt.binsDir info.bins bins
    ∧ FilesMounted host cnt j .libs ctx.root cnt.libsDir info.libs libs
    ∧ FilesMounted host cnt j .libs32 ctx.root cnt.libs32Dir
        (if cnt.has OPT_COMPAT32 then info.libs32 else []) libs32
    ∧ FilesMounted host cnt j .cntLibs cnt.rootfs cnt.libsDir
      (filterLibraries info cnt.libs) cntLibs
    ∧ DevicesMounted host ctx cnt j (boundDevices ctx cnt 0 info.devs) devs
    ∧ j.events = (bins ++ libs ++ libs32 ++ cntLibs ++ devs).flatMap BindMount.events

/-! ## The functions that mount files -/

section Files

variable {host : Host W} {ctx : Context} {cnt : Container} {call : Call} {j j' : Journal W}

theorem joined_behind {e : Step} {dir path s : Str}
    (h : joined e (pathAppend dir path) j = (.ok s, j')) : s = behind dir path ∧ j' = j := by
  obtain ⟨hr, rfl⟩ := joined_ok h
  obtain ⟨-, -, rfl⟩ := pathAppend_ok hr
  exact ⟨rfl, rfl⟩

theorem create_extends {e : Step} {path : Str} {data : Option Str} {mode : Mode} {u : Unit}
    (h : attempt e (host.journaled.fileCreate e path data mode) j = (.ok u, j')) :
    j.Extends [] j' := by
  obtain ⟨-, rfl⟩ := Prod.mk.inj (attempt_ok h)
  exact .next j _ []

theorem allocate_eq {e : Step} {u : Unit} (h : host.journaled.allocate e j = (.ok u, j')) :
    j' = j :=
  (Prod.mk.inj (attempt_ok h)).2.symm

/-- A bind mount and its remount. -/
theorem bindAt_extends {i : ℕ} {src dst m : Str} {flags : MountFlags}
    (h : host.journaled.bindAt call i src dst flags j = (.ok m, j')) :
    m = dst ∧ j.Extends (BindMount.events ⟨src, dst, flags⟩) j' := by
  obtain ⟨_, j₁, hbind, h₁⟩ := bind_ok h
  obtain ⟨_, j₂, hremount, h₂⟩ := bind_ok h₁
  obtain ⟨_, j₃, halloc, hdst⟩ := bind_ok h₂
  obtain ⟨rfl, rfl⟩ := pure_ok hdst
  obtain rfl := allocate_eq halloc
  have hb : j.Extends [.bind src dst] j₁ := by
    obtain ⟨hok, rfl⟩ := Prod.mk.inj (attempt_ok hbind)
    rw [if_pos hok]
    exact .next j _ _
  have hr : j₁.Extends [.remount dst (MS_BIND ||| MS_REMOUNT ||| flags)] j₃ := by
    obtain ⟨hok, rfl⟩ := Prod.mk.inj (attempt_ok hremount)
    rw [if_pos hok]
    exact .next j₁ _ _
  exact ⟨rfl, hb.trans hr⟩

/-- One file is one bind mount. -/
theorem mountFile_extends {src dst m : Str} {i : ℕ} {path : Str}
    (h : mountFile host.journaled.toSys call src dst i path j = (.ok m, j')) :
    j.Extends (BindMount.events ⟨behind src path, behind dst (basename path),
      MS_RDONLY ||| MS_NODEV ||| MS_NOSUID⟩) j' := by
  obtain ⟨s, _, hsrc, h₁⟩ := bind_ok h
  obtain ⟨d, _, hdst, h₂⟩ := bind_ok h₁
  obtain ⟨_, _, hmode, h₃⟩ := bind_ok h₂
  obtain ⟨_, j₁, hcreate, hbind⟩ := bind_ok h₃
  obtain ⟨rfl, rfl⟩ := joined_behind hsrc
  obtain ⟨rfl, rfl⟩ := joined_behind hdst
  obtain ⟨-, rfl⟩ := query_ok hmode
  exact (bindAt_extends hbind).2.after (create_extends hcreate)

/-- **The loop of `mount_files`**, by induction on the paths. -/
theorem mountFilesLoop_extends {root dst : Str} {i : ℕ} {mnt paths mnt' : List Str}
    (h : mountFilesLoop host.journaled.toSys cnt call (behind [] root) dst i mnt paths j
      = (.ok mnt', j')) :
    j.Extends ((fileMounts cnt root dst paths).flatMap BindMount.events) j' := by
  induction paths generalizing i mnt j with
  | nil =>
    obtain ⟨-, rfl⟩ := pure_ok h
    exact .refl j
  | cons path paths ih =>
    rw [mountFilesLoop] at h
    split_ifs at h with hsel
    · obtain ⟨m, j₁, hfile, h⟩ := bind_ok h
      rw [fileMounts, List.filter_cons_of_pos hsel]
      exact (mountFile_extends (onError_ok hfile)).trans (ih h)
    · rw [fileMounts, List.filter_cons_of_neg hsel]
      exact ih h

/-- **The files that are selected are mounted in their order.** -/
theorem mountFiles_extends {root dir : Str} {paths mnt : List Str}
    (h : mountFiles host.journaled.toSys cnt call root dir paths j = (.ok mnt, j')) :
    ∃ dst, j'.Resolved host call cnt.rootfs dir dst
      ∧ j.Extends ((fileMounts cnt root dst paths).flatMap BindMount.events) j' := by
  obtain ⟨s, _, hsrc, h₁⟩ := bind_ok h
  obtain ⟨d, _, hdst, h₂⟩ := bind_ok h₁
  obtain ⟨_, j₁, hcreate, h₃⟩ := bind_ok h₂
  obtain ⟨_, j₂, halloc, hfor⟩ := bind_ok h₃
  obtain ⟨rfl, rfl⟩ := joined_behind hsrc
  obtain ⟨hres, rfl⟩ := Sys.resolve_ok hdst
  obtain rfl := allocate_eq halloc
  have hloop := (mountFilesLoop_extends hfor).after (create_extends hcreate)
  exact ⟨d, ⟨_, hloop.worlds _ List.mem_cons_self, hres⟩, hloop⟩

/-- **A part of the driver.** -/
theorem appendFiles_extends {root dir : Str} {paths mnt mnt' : List Str}
    (h : host.journaled.appendFiles cnt call root dir paths mnt j = (.ok mnt', j')) :
    ∃ ms, FilesMounted host cnt j' call root dir paths ms
      ∧ j.Extends (ms.flatMap BindMount.events) j' := by
  obtain ⟨tmp, j₁, hfiles, hpure⟩ := bind_ok h
  obtain ⟨rfl, rfl⟩ := pure_ok hpure
  obtain ⟨dst, hres, hext⟩ := mountFiles_extends (onError_ok hfiles)
  exact ⟨_, ⟨dst, fun _ => hres, rfl⟩, hext⟩

/-- No files, no mounts. -/
theorem filesMounted_nil (root dir : Str) : FilesMounted host cnt j call root dir [] [] :=
  ⟨[], fun h => (h rfl).elim, rfl⟩

theorem FilesMounted.mono {root dir : Str} {paths : List Str} {ms : List BindMount}
    {es : List Event} (h : FilesMounted host cnt j call root dir paths ms) (hj : j.Extends es j') :
    FilesMounted host cnt j' call root dir paths ms := by
  obtain ⟨dst, hres, hms⟩ := h
  exact ⟨dst, fun hne => (hres hne).mono hj, hms⟩

/-- A part that is there only if a condition fails. -/
theorem appendUnless_extends {c : Prop} [Decidable c] {root dir : Str} {paths q mnt mnt' : List Str}
    (hq : q = if c then [] else paths)
    (h : (if c then pure mnt else host.journaled.appendFiles cnt call root dir paths mnt) j
      = (.ok mnt', j')) :
    ∃ ms, FilesMounted host cnt j' call root dir q ms
      ∧ j.Extends (ms.flatMap BindMount.events) j' := by
  subst hq
  split_ifs at h ⊢
  · obtain ⟨-, rfl⟩ := pure_ok h
    exact ⟨[], filesMounted_nil root dir, .refl j⟩
  · exact appendFiles_extends h

/-- The container libraries are mounted. -/
theorem appendCntLibs_extends {info : DriverInfo} {mnt mnt' : List Str}
    (h : (if cnt.libs = [] then pure mnt else host.journaled.appendCntLibs cnt info mnt) j
      = (.ok mnt', j')) :
    ∃ ms, FilesMounted host cnt j' .cntLibs cnt.rootfs cnt.libsDir
      (filterLibraries info cnt.libs) ms ∧ j.Extends (ms.flatMap BindMount.events) j' := by
  split_ifs at h with hnil
  · obtain ⟨-, rfl⟩ := pure_ok h
    rw [hnil]
    exact ⟨[], filesMounted_nil _ _, .refl j⟩
  · obtain ⟨_, j₁, halloc, hfiles⟩ := bind_ok h
    obtain rfl := allocate_eq (onError_ok halloc)
    exact appendFiles_extends hfiles

/-! ## Links, devices and cgroups -/

/-- Links are no mounts. -/
theorem symlinkAll_extends {i k : ℕ} {src : Str} {links : List (Str × Str)} {u : Unit}
    (h : symlinkAll host.journaled.toSys i src k links j = (.ok u, j')) : j.Extends [] j' := by
  induction links generalizing k j with
  | nil =>
    obtain ⟨-, rfl⟩ := pure_ok h
    exact .refl j
  | cons link links ih =>
    obtain ⟨_, j₁, hlink, hrest⟩ := bind_ok h
    obtain ⟨_, j₂, halloc, hlink₁⟩ := bind_ok hlink
    obtain ⟨_, j₃, hpath, hcreate⟩ := bind_ok hlink₁
    obtain rfl := allocate_eq halloc
    obtain ⟨-, rfl⟩ := joined_ok hpath
    exact (ih hrest).after (create_extends hcreate)

/-- Nor are the links of all libraries. -/
theorem symlinkLibraries_extends {i : ℕ} {paths : List Str} {u : Unit}
    (h : symlinkLibraries host.journaled.toSys i paths j = (.ok u, j')) : j.Extends [] j' := by
  induction paths generalizing i j with
  | nil =>
    obtain ⟨-, rfl⟩ := pure_ok h
    exact .refl j
  | cons path paths ih =>
    obtain ⟨_, j₁, hlinks, hrest⟩ := bind_ok h
    exact (ih hrest).after (symlinkAll_extends hlinks)

theorem joined_behind_behind {e : Step} {root path s : Str}
    (h : joined e (pathJoin root path) j = (.ok s, j')) :
    s = behind (behind [] root) path ∧ j' = j := by
  obtain ⟨hr, rfl⟩ := joined_ok h
  rw [pathJoin] at hr
  split at hr
  · next buf hnew =>
    obtain ⟨-, -, rfl⟩ := pathAppend_ok hnew
    obtain ⟨-, -, rfl⟩ := pathAppend_ok hr
    exact ⟨rfl, rfl⟩
  · cases (Prod.mk.inj hr).1

/-- One device is one bind mount. -/
theorem mountDevice_extends {root m : Str} {dev : DeviceNode}
    (h : mountDevice host.journaled.toSys cnt call root dev j = (.ok m, j')) :
    j'.Resolved host call cnt.rootfs dev.path m
      ∧ j.Extends (BindMount.events
          ⟨behind (behind [] root) dev.path, m, MS_RDONLY ||| MS_NOSUID ||| MS_NOEXEC⟩) j' := by
  obtain ⟨s, _, hsrc, h₁⟩ := bind_ok h
  obtain ⟨d, _, hdst, h₂⟩ := bind_ok h₁
  obtain ⟨_, _, hstat, h₃⟩ := bind_ok h₂
  obtain ⟨_, _, hrdev, h₄⟩ := bind_ok h₃
  obtain ⟨_, _, hmode, h₅⟩ := bind_ok h₄
  obtain ⟨_, j₁, hcreate, hbind⟩ := bind_ok h₅
  obtain ⟨rfl, rfl⟩ := joined_behind_behind hsrc
  obtain ⟨hres, rfl⟩ := Sys.resolve_ok hdst
  obtain ⟨-, rfl⟩ := query_ok hstat
  obtain ⟨-, rfl⟩ := Prod.mk.inj (attempt_ok hrdev)
  obtain ⟨-, rfl⟩ := query_ok hmode
  obtain ⟨rfl, hext⟩ := bindAt_extends (onError_ok hbind)
  have hall := hext.after (create_extends hcreate)
  exact ⟨⟨_, hall.worlds _ List.mem_cons_self, hres⟩, hall⟩

/-- A device is let through without a mount. -/
theorem cgroup_extends {id : Dev} {u : Unit}
    (h : host.journaled.cgroup cnt call id j = (.ok u, j')) : j.Extends [] j' := by
  rw [Host.cgroup, onlyIf] at h
  split_ifs at h
  · obtain ⟨-, rfl⟩ := Prod.mk.inj (attempt_ok h)
    exact .next j _ []
  · obtain ⟨-, rfl⟩ := pure_ok h
    exact .refl j

theorem DevicesMounted.mono {devs : List (DeviceNode × ℕ)} {ms : List BindMount} {es : List Event}
    (h : DevicesMounted host ctx cnt j devs ms) (hj : j.Extends es j') :
    DevicesMounted host ctx cnt j' devs ms :=
  h.imp fun _ _ ⟨hsrc, hres, hflags⟩ => ⟨hsrc, hres.mono hj, hflags⟩

/-- Devices one behind the other. -/
theorem DevicesMounted.append {devs devs' : List (DeviceNode × ℕ)} {ms ms' : List BindMount}
    (h : DevicesMounted host ctx cnt j devs ms) (h' : DevicesMounted host ctx cnt j devs' ms') :
    DevicesMounted host ctx cnt j (devs ++ devs') (ms ++ ms') :=
  List.rel_append h h'

/-- A turn of the loop over the devices, if the device is not passed by. -/
theorem appendDevice_extends {i : ℕ} {dev : DeviceNode} {mnt mnt' : List Str}
    (h : host.journaled.appendDevice ctx cnt (.dev i) dev mnt j = (.ok mnt', j')) :
    ∃ ms, DevicesMounted host ctx cnt j' (if cnt.has OPT_NO_DEVBIND then [] else [(dev, i)]) ms
      ∧ j.Extends (ms.flatMap BindMount.events) j' := by
  obtain ⟨m, j₁, hdev, hpure⟩ := bind_ok h
  obtain ⟨rfl, rfl⟩ := pure_ok hpure
  rw [optionally] at hdev
  rcases hbind : cnt.has OPT_NO_DEVBIND
  · rw [hbind, Bool.not_false, if_pos rfl] at hdev
    obtain ⟨d, j₂, hmount, hsome⟩ := bind_ok hdev
    obtain ⟨rfl, rfl⟩ := pure_ok hsome
    obtain ⟨hres, hext⟩ := mountDevice_extends (onError_ok hmount)
    refine ⟨[⟨behind (behind [] ctx.root) dev.path, d, MS_RDONLY ||| MS_NOSUID ||| MS_NOEXEC⟩],
      .cons ⟨rfl, hres, rfl⟩ .nil, ?_⟩
    rwa [List.flatMap_singleton]
  · rw [hbind, Bool.not_true, if_neg Bool.false_ne_true] at hdev
    obtain ⟨rfl, rfl⟩ := pure_ok hdev
    exact ⟨[], .nil, .refl j⟩

/-- A device is bound unless it is passed by. -/
theorem boundDevices_cons (ctx : Context) (cnt : Container) (i : ℕ) (dev : DeviceNode)
    (devs : List DeviceNode) :
    boundDevices ctx cnt i (dev :: devs)
      = if Host.skipsDevice ctx cnt dev then boundDevices ctx cnt (i + 1) devs
        else (if cnt.has OPT_NO_DEVBIND then [] else [(dev, i)])
          ++ boundDevices ctx cnt (i + 1) devs := by
  rw [boundDevices, boundDevices, List.zipIdx_cons, List.filter_cons]
  rcases cnt.has OPT_NO_DEVBIND <;> rcases Host.skipsDevice ctx cnt dev <;> rfl

/-- **The loop over the devices**, by induction on the devices. -/
theorem mountDevices_extends {i : ℕ} {devs : List DeviceNode} {mnt mnt' : List Str}
    (h : host.journaled.mountDevices ctx cnt i devs mnt j = (.ok mnt', j')) :
    ∃ ms, DevicesMounted host ctx cnt j' (boundDevices ctx cnt i devs) ms
      ∧ j.Extends (ms.flatMap BindMount.events) j' := by
  induction devs generalizing i mnt j with
  | nil =>
    obtain ⟨-, rfl⟩ := pure_ok h
    have hnil : boundDevices ctx cnt i [] = [] := by simp [boundDevices]
    rw [hnil]
    exact ⟨[], .nil, .refl j⟩
  | cons dev devs ih =>
    rw [boundDevices_cons]
    rw [Host.mountDevices] at h
    by_cases hskip : Host.skipsDevice ctx cnt dev
    · rw [if_pos hskip] at h ⊢
      exact ih h
    · rw [if_neg hskip] at h ⊢
      obtain ⟨mnt₁, j₁, hdev, hrest⟩ := bind_ok h
      obtain ⟨_, j₂, hcgroup, hloop⟩ := bind_ok hrest
      obtain ⟨ms, hms, hext⟩ := appendDevice_extends hdev
      obtain ⟨ms', hms', hext'⟩ := ih hloop
      have hbehind := hext'.after (cgroup_extends (onError_ok hcgroup))
      refine ⟨ms ++ ms', (hms.mono hbehind).append hms', ?_⟩
      rw [List.flatMap_append]
      exact hext.trans hbehind

/-! ## The operation -/

theorem DriverMounted.mono {info : DriverInfo} (h : DriverMounted host ctx cnt info j)
    (hj : j.Extends [] j') : DriverMounted host ctx cnt info j' := by
  obtain ⟨bins, libs, libs32, cntLibs, devs, hbins, hlibs, hlibs32, hcnt, hdevs, hevents⟩ := h
  refine ⟨bins, libs, libs32, cntLibs, devs, hbins.mono hj, hlibs.mono hj, hlibs32.mono hj,
    hcnt.mono hj, hdevs.mono hj, ?_⟩
  rw [hj.events, List.append_nil, hevents]

/-- **What `nvc_driver_mount` mounts between entering and leaving the namespace.** -/
theorem driverBody_mounts {info : DriverInfo} {mnt : List Str} (hempty : j.events = [])
    (h : host.journaled.driverBody ctx cnt info j = (.ok mnt, j')) :
    DriverMounted host ctx cnt info j' := by
  obtain ⟨_, j₀, halloc, h₁⟩ := bind_ok h
  obtain ⟨_, j₁, hbins, h₂⟩ := bind_ok h₁
  obtain ⟨_, j₂, hlibs, h₃⟩ := bind_ok h₂
  obtain ⟨_, j₃, hlibs32, h₄⟩ := bind_ok h₃
  obtain ⟨_, j₄, hlinks, h₅⟩ := bind_ok h₄
  obtain ⟨_, j₅, hcnt, hdevs⟩ := bind_ok h₅
  obtain rfl := allocate_eq halloc
  obtain ⟨bins, hbins, hext₁⟩ := appendUnless_extends (q := info.bins)
    (by split_ifs with hnil <;> simp [hnil]) hbins
  obtain ⟨libs, hlibs, hext₂⟩ := appendUnless_extends (q := info.libs)
    (by split_ifs with hnil <;> simp [hnil]) hlibs
  obtain ⟨libs32, hlibs32, hext₃⟩ := appendUnless_extends
    (q := if cnt.has OPT_COMPAT32 then info.libs32 else [])
    (by split_ifs <;> simp_all) hlibs32
  obtain ⟨cntLibs, hcnt, hext₄⟩ := appendCntLibs_extends hcnt
  obtain ⟨devs, hdevs, hext₅⟩ := mountDevices_extends hdevs
  have hlinks := symlinkLibraries_extends (onError_ok hlinks)
  have h₄ := (hext₄.after hlinks).trans hext₅
  have h₃ := hext₃.trans h₄
  have h₂ := hext₂.trans h₃
  refine ⟨bins, libs, libs32, cntLibs, devs, hbins.mono h₂, hlibs.mono h₃, hlibs32.mono h₄,
    hcnt.mono hext₅, hdevs, ?_⟩
  rw [(hext₁.trans h₂).events, hempty, List.nil_append]
  simp only [List.flatMap_append, List.append_assoc]

end Files

/-- The journal changes nothing. -/
theorem nvcDriverMount_along (host : Host W) (ctx : Context) (cnt : Container) (info : DriverInfo) :
    Along Journal.world (host.nvcDriverMount ctx cnt info)
      (host.journaled.nvcDriverMount ctx cnt info) :=
  (Along.attempt fun _ => rfl).bind fun _ => (Along.attempt fun _ => rfl).bind fun _ =>
    ((host.mirrors_journaled.driverBody ctx cnt info).onError fun _ => rfl).bind fun _ =>
      .attempt fun _ => rfl

/-- What a call of `nvc_driver_mount` that returns 0 has mounted. -/
theorem driverMounted_of_ok {host : Host W} {ctx : Context} {cnt : Container} {info : DriverInfo}
    {w : W} {u : Unit} {j : Journal W}
    (h : host.journaled.nvcDriverMount ctx cnt info { world := w } = (.ok u, j)) :
    DriverMounted host ctx cnt info j := by
  obtain ⟨_, j₁, hvalid, h₁⟩ := bind_ok h
  obtain ⟨_, j₂, henter, h₂⟩ := bind_ok h₁
  obtain ⟨mnt, j₃, hbody, hleave⟩ := bind_ok h₂
  obtain ⟨-, rfl⟩ := Prod.mk.inj (attempt_ok hvalid)
  obtain ⟨-, rfl⟩ := Prod.mk.inj (attempt_ok henter)
  obtain ⟨-, rfl⟩ := Prod.mk.inj (attempt_ok hleave)
  exact (driverBody_mounts rfl (onError_ok hbody)).mono (.next j₃ _ [])

/-- **What a driver mount contains.**  No call of `nvc_driver_mount` uses memory outside of its
arrays, and what a call that returns 0 has done to the mount table, as the journal tells it, are the
binds of the parts and the devices, in order, with nothing else. -/
theorem nvcDriverMount_mounts (host : Host W) (ctx : Context) (cnt : Container) (info : DriverInfo)
    (nipcs nfirmwares : ℕ) :
    (∀ w, (host.nvcDriverMountArr ctx cnt info nipcs nfirmwares w).1 ≠ .error none)
    ∧ ∀ w w', host.nvcDriverMountArr ctx cnt info nipcs nfirmwares w = (.ok (), w') →
      ∃ j, host.journaled.nvcDriverMountArr ctx cnt info nipcs nfirmwares { world := w }
        = (.ok (), j) ∧ j.world = w' ∧ DriverMounted host ctx cnt info j := by
  refine ⟨host.nvcDriverMountArr_inBounds ctx cnt info nipcs nfirmwares, fun w w' hrun => ?_⟩
  obtain ⟨_, hlist, rfl⟩ :=
    (host.nvcDriverMountArr_realizes ctx cnt info nipcs nfirmwares).exists_of_ok hrun
  have halong := (nvcDriverMount_along host ctx cnt info).run { world := w }
  rw [hlist] at halong
  obtain ⟨hok, hworld⟩ := Prod.mk.inj halong
  have hj : host.journaled.nvcDriverMount ctx cnt info { world := w }
      = (.ok (), (host.journaled.nvcDriverMount ctx cnt info { world := w }).2) :=
    Prod.ext hok.symm rfl
  obtain ⟨_, harr, rfl⟩ :=
    (host.journaled.nvcDriverMountArr_realizes ctx cnt info nipcs nfirmwares).ok hj
  exact ⟨_, harr, hworld.symm, driverMounted_of_ok hj⟩

/-- A driver with a binary, three libraries of which one is not asked for, and two devices of which
one is for displays. -/
def severalFiles : DriverInfo :=
  ⟨"1.0".toList, ["/usr/bin/xdxsmi".toList],
    ["/usr/lib/libdrm.so.2", "/usr/lib/libother.so.1", "/usr/lib/libva.so.2"].map String.toList, [],
    [⟨"/dev/modeset".toList, makedev NV_DEVICE_MAJOR NV_MODESET_DEVICE_MINOR⟩,
      ⟨"/dev/x".toList, 0⟩]⟩

/-- A container with the utilities and the compute libraries. -/
def computeContainer : Container :=
  { utilityContainer with flags := OPT_UTILITY_BINS ||| OPT_UTILITY_LIBS ||| OPT_COMPUTE_LIBS }

/-- The binary, two libraries and one device are mounted, and nothing fails. -/
theorem nvcDriverMountArr_severalFiles :
    ∃ j, (onlyFails ⟨.caps, .bind, 0⟩ fun _ => []).host.journaled.nvcDriverMountArr hostContext
          computeContainer severalFiles 0 0 { world := {} } = (.ok (), j)
      ∧ DriverMounted (onlyFails ⟨.caps, .bind, 0⟩ fun _ => []).host hostContext computeContainer
          severalFiles j := by
  set host := (onlyFails ⟨.caps, .bind, 0⟩ fun _ => []).host
  set run := host.nvcDriverMountArr hostContext computeContainer severalFiles 0 0 {}
  have hok : run.1 = .ok () := by decide +kernel
  obtain ⟨j, hj, -, hmounted⟩ := (nvcDriverMount_mounts host hostContext computeContainer
    severalFiles 0 0).2 {} run.2 (Prod.ext hok rfl)
  exact ⟨j, hj, hmounted⟩

end Mount
