import XdxContainer.Data.Slots
import XdxContainer.Mount.Code

/-!
# Mount/Arrays — the arrays and the path buffers of `nvc_driver_mount`

    mnt    d₀ d₁ … dₖ NULL … NULL       ptr at the first NULL
    src    root│/path                   truncated at src_end behind every file
    dst    directory│/name              truncated at dst_end behind every file

`mount_files` and `nvc_driver_mount` on the arrays and buffers they use, where a read or write
outside of an array is a fault of its own, beside the steps that fail.  `driverBodyArr_realizes`:
they do what the functions on lists do, so that the fault never happens.
-/

open Paths Fs Fallible Slots

namespace Mount

variable {W : Type}

/-- What goes wrong: a step fails, or (`none`) memory outside of an array is used. -/
abbrev Wrong := Option Step

/-- A program without arrays. -/
def steps {α : Type} (m : Prog Step W α) : Prog Wrong W α := reporting some m

/-- An access to an array. -/
def inBounds {α : Type} (r : Option α) : Prog Wrong W α := query none fun _ => r

/-! ## The functions -/

section Functions

variable (sys : Sys W) (cnt : Container)

/-- `for (i = 0; i < size; ++i) unmount(mnt[i])`. -/
def unmountSlots (mnt : Slots Str) (size : ℕ) (w : W) : W :=
  (mnt.take size).foldl (fun w p => sys.unmount p w) w

/-- What the loop of `mount_files` changes. -/
structure FilesState where
  src : Str
  dst : Str
  mnt : Slots Str
  ptr : ℕ

/-- The part of the loop of `mount_files` before the destination is copied: the two buffers then. -/
def bindFile (call : Call) (src dst : Str) (i : ℕ) (path : Str) : Prog Step W (Str × Str) := do
  let src ← joined ⟨call, .appendSrc, i⟩ (pathAppend src path)
  let dst ← joined ⟨call, .appendDst, i⟩ (pathAppend dst (basename path))
  let mode ← query ⟨call, .mode, i⟩ (sys.fileMode ⟨call, .mode, i⟩ src)
  attempt ⟨call, .create, i⟩ (sys.fileCreate ⟨call, .create, i⟩ dst none mode)
  attempt ⟨call, .bind, i⟩ (sys.mount ⟨call, .bind, i⟩ src dst)
  attempt ⟨call, .remount, i⟩ (sys.remount ⟨call, .remount, i⟩ dst
    (MS_BIND ||| MS_REMOUNT ||| (MS_RDONLY ||| MS_NODEV ||| MS_NOSUID)))
  return (src, dst)

/-- `xstrdup`: the copy, or NULL. -/
def xstrdup (e : Step) (s : Str) : Prog Wrong W (Option Str) :=
  reading fun w => if sys.alloc e w then some s else none

/-- One turn of the loop of `mount_files` over `size` paths. -/
def mountFilesTurn (call : Call) (srcEnd dstEnd size i : ℕ) (path : Str) (st : FilesState) :
    Prog Wrong W FilesState := do
  let (src, dst) ← onError (steps (bindFile sys call st.src st.dst i path))
    (unmountSlots sys st.mnt size)
  let copy ← xstrdup sys ⟨call, .strdup, i⟩ dst
  let (mnt, ptr) ← inBounds (store st.mnt st.ptr copy)
  onError (steps (require ⟨call, .strdup, i⟩ copy.isSome)) (unmountSlots sys mnt size)
  return { src := src.take srcEnd, dst := dst.take dstEnd, mnt := mnt, ptr := ptr }

/-- The loop of `mount_files`, with `left` turns to go. -/
def mountFilesFor (call : Call) (paths : Slots Str) (srcEnd dstEnd size : ℕ) :
    (left i : ℕ) → FilesState → Prog Wrong W (Slots Str)
  | 0, _, st => return st.mnt
  | left + 1, i, st => do
    let path ← inBounds paths[i]?.join
    if selected cnt path then do
      let st ← mountFilesTurn sys call srcEnd dstEnd size i path st
      mountFilesFor call paths srcEnd dstEnd size left (i + 1) st
    else mountFilesFor call paths srcEnd dstEnd size left (i + 1) st

/-- The part of `mount_files` before its loop: the two buffers. -/
def filesBuffers (call : Call) (root dir : Str) : Prog Step W (Str × Str) := do
  let src ← joined ⟨call, .pathSrc, 0⟩ (pathNew root)
  let dst ← sys.resolve ⟨call, .resolve, 0⟩ cnt.rootfs dir
  attempt ⟨call, .createDir, 0⟩ (sys.fileCreate ⟨call, .createDir, 0⟩ dst none ⟨.dir, 0x1ed⟩)
  sys.allocate ⟨call, .arrayNew, 0⟩
  return (src, dst)

/-- `mount_files`. -/
def mountFilesArr (call : Call) (root dir : Str) (paths : Slots Str) (size : ℕ) :
    Prog Wrong W (Slots Str) := do
  let (src, dst) ← steps (filesBuffers sys cnt call root dir)
  mountFilesFor sys cnt call paths src.length dst.length size size 0
    { src := src, dst := dst, mnt := arrayNew (size + 1), ptr := 0 }

/-- Whether `filter_libraries` keeps a path. -/
def keepsLibrary (info : DriverInfo) (path : Str) : Bool :=
  match strstr ".so.".toList (basename path) with
  | none => false
  | some s =>
    let maj := s.drop 4
    let n := (maj.takeWhile Char.isDigit).length
    info.nvrmVersion.take n ≠ maj.take n

/-- `filter_libraries`: the array, and how many are left. -/
def filterLibrariesArr (info : DriverInfo) (paths : Slots Str) (size : ℕ) :
    Option (Slots Str × ℕ) :=
  arrayPack (paths.map fun cell => cell.filter (keepsLibrary info)) size

end Functions

/-! ### They do what the functions on lists do -/

section Files

variable (sys : Sys W) (cnt : Container)

theorem foldl_unmount_none (n : ℕ) (w : W) :
    (List.replicate n none).foldl (fun w p => sys.unmount p w) w = w := by
  induction n with
  | zero => rfl
  | succ n ih => exact ih

/-- Unmounting every slot is unmounting every entry. -/
theorem unmountSlots_filled {n size : ℕ} {xs : List Str} (h : xs.length ≤ size) (w : W) :
    unmountSlots sys (filled n xs) size w = sys.unmountAll xs w := by
  have htake : (filled n xs).take size = xs.map some
      ++ List.replicate (min (size - xs.length) (n - xs.length)) none := by
    rw [filled, List.take_append, List.length_map, List.take_replicate,
      List.take_of_length_le (by rwa [List.length_map])]
  rw [unmountSlots, htake, List.foldl_append, foldl_unmount_none, List.foldl_map, Sys.unmountAll]

/-- A turn of the loop is the bind, then the copy. -/
theorem mountFile_eq (call : Call) (src dst : Str) (i : ℕ) (path : Str) :
    mountFile sys call src dst i path
      = bindFile sys call src dst i path >>= fun b => sys.allocate ⟨call, .strdup, i⟩ >>= fun _ =>
        pure b.2 := by
  simp only [mountFile, bindFile, Sys.bindAt, bind_assoc, pure_bind]

/-- The buffers hold the joins: truncated where they ended, they hold what they did. -/
theorem bindFile_take {call : Call} {src dst : Str} {i : ℕ} {path : Str} {w w' : W} {b : Str × Str}
    (h : bindFile sys call src dst i path w = (.ok b, w')) :
    b.1.take src.length = src ∧ b.2.take dst.length = dst := by
  obtain ⟨s, _, hsrc, h⟩ := bind_ok h
  obtain ⟨d, _, hdst, h⟩ := bind_ok h
  obtain ⟨_, _, -, h⟩ := bind_ok h
  obtain ⟨_, _, -, h⟩ := bind_ok h
  obtain ⟨_, _, -, h⟩ := bind_ok h
  obtain ⟨_, _, -, h⟩ := bind_ok h
  obtain ⟨rfl, -⟩ := pure_ok h
  obtain ⟨-, -, rfl⟩ := pathAppend_ok (joined_ok hsrc).1
  obtain ⟨-, -, rfl⟩ := pathAppend_ok (joined_ok hdst).1
  exact ⟨List.take_left, List.take_left⟩

/-- The state of the loop of `mount_files` over `size` paths, with the entries made so far. -/
def filesState (src dst : Str) (size : ℕ) (mnt : List Str) : FilesState :=
  { src := src, dst := dst, mnt := filled (size + 1) mnt, ptr := mnt.length }

/-- The copy and its entry. -/
theorem copy_realizes (e : Step) (src dst : Str) {size : ℕ} {mnt : List Str} (h : mnt.length ≤ size)
    {b : Str × Str} (hb : b.1.take src.length = src ∧ b.2.take dst.length = dst) :
    Realizes some (fun m st => st = filesState src dst size (mnt ++ [m]))
      (onError (sys.allocate e >>= fun _ => pure b.2) (sys.unmountAll mnt))
      (xstrdup sys e b.2 >>= fun copy =>
        inBounds (store (filled (size + 1) mnt) mnt.length copy) >>= fun p =>
          onError (steps (require e copy.isSome)) (unmountSlots sys p.1 size) >>= fun _ =>
            pure { src := b.1.take src.length, dst := b.2.take dst.length
                   mnt := p.1, ptr := p.2 }) where
  ok := by
    intro w w' m hrun
    obtain ⟨_, t, halloc, hpure⟩ := bind_ok (onError_ok hrun)
    obtain ⟨rfl, rfl⟩ := pure_ok hpure
    obtain ⟨hok, rfl⟩ := Prod.mk.inj (attempt_ok halloc)
    have hcopy : xstrdup sys e b.2 w = (.ok (some b.2), w) := by
      rw [xstrdup, reading, if_pos hok]
    rw [bind_of_ok hcopy, store_filled (Nat.lt_succ_of_le h)]
    refine ⟨filesState src dst size (mnt ++ [b.2]), ?_, rfl⟩
    rw [hb.1, hb.2]
    rfl
  error := by
    intro w w' e' hrun
    obtain ⟨t, hfail, rfl⟩ := onError_error hrun
    rcases bind_error hfail with halloc | ⟨_, _, -, hpure⟩
    · obtain ⟨rfl, halloc⟩ := attempt_error halloc
      obtain ⟨hok, rfl⟩ := Prod.mk.inj halloc
      have hcopy : xstrdup sys e' b.2 w = (.ok none, w) := by
        rw [xstrdup, reading, if_neg (by simp [hok])]
      rw [bind_of_ok hcopy, store_filled_none (Nat.lt_succ_of_le h),
        ← unmountSlots_filled sys (n := size + 1) h]
      rfl
    · exact (pure_error hpure).elim

/-- **A turn of the loop.** -/
theorem mountFilesTurn_realizes (call : Call) (src dst : Str) (i : ℕ) (path : Str) {size : ℕ}
    {mnt : List Str} (h : mnt.length ≤ size) :
    Realizes some (fun m st => st = filesState src dst size (mnt ++ [m]))
      (onError (mountFile sys call src dst i path) (sys.unmountAll mnt))
      (mountFilesTurn sys call src.length dst.length size i path
        (filesState src dst size mnt)) := by
  rw [mountFile_eq, onError_bind]
  have hbind : Realizes some
      (fun b b' => b' = b ∧ b.1.take src.length = src ∧ b.2.take dst.length = dst)
      (onError (bindFile sys call src dst i path) (sys.unmountAll mnt))
      (onError (steps (bindFile sys call src dst i path))
        (unmountSlots sys (filled (size + 1) mnt) size)) := by
    refine ((Realizes.reporting some _).mono fun hrun hb => ?_).onError
      (unmountSlots_filled sys h)
    exact ⟨hb.symm, bindFile_take sys hrun⟩
  refine hbind.bind ?_
  rintro b _ ⟨rfl, hb⟩
  exact copy_realizes sys _ src dst h hb

/-- An array of `n` slots that holds the entries, at most `k` of them. -/
def Holds (n k : ℕ) (mnt : List Str) (arr : Slots Str) : Prop := arr = filled n mnt ∧ mnt.length ≤ k

/-- **The loop of `mount_files`**, by induction on the paths to go: the paths passed by leave
room. -/
theorem mountFilesFor_realizes (call : Call) (src dst : Str) (cells : Slots Str) {size i : ℕ}
    {mnt paths : List Str} (rest : Slots Str) (hcells : cells.drop i = paths.map some ++ rest)
    (hmnt : mnt.length ≤ i) (hsize : i + paths.length = size) :
    Realizes some (Holds (size + 1) size) (mountFilesLoop sys cnt call src dst i mnt paths)
      (mountFilesFor sys cnt call cells src.length dst.length size paths.length i
        (filesState src dst size mnt)) := by
  induction paths generalizing i mnt with
  | nil => exact .pure ⟨rfl, Nat.le_trans hmnt (by omega)⟩
  | cons path paths ih =>
    have hcell : cells[i]?.join = some path := by
      rw [← List.head?_drop, hcells]
      rfl
    have htail : cells.drop (i + 1) = paths.map some ++ rest := by
      rw [← List.drop_drop, hcells]
      rfl
    rw [List.length_cons] at hsize
    rw [mountFilesLoop, List.length_cons, mountFilesFor, hcell]
    change Realizes some _ _ (if _ then _ else _)
    split_ifs
    · refine (mountFilesTurn_realizes sys call src dst i path (by omega)).bind ?_
      rintro m _ rfl
      refine ih htail ?_ (by omega)
      rw [List.length_append, List.length_singleton]
      omega
    · exact ih htail (by omega) (by omega)

/-- **`mount_files` on an array of paths** returns an array with a NULL behind its entries. -/
theorem mountFilesArr_realizes (call : Call) (root dir : Str) (paths : List Str)
    (rest : Slots Str) :
    Realizes some (Holds (paths.length + 1) paths.length) (mountFiles sys cnt call root dir paths)
      (mountFilesArr sys cnt call root dir (paths.map some ++ rest) paths.length) := by
  have heq : mountFiles sys cnt call root dir paths
      = filesBuffers sys cnt call root dir >>= fun b =>
        mountFilesLoop sys cnt call b.1 b.2 0 [] paths := by
    simp only [mountFiles, filesBuffers, bind_assoc, pure_bind]
  rw [heq]
  refine (Realizes.reporting some _).bind ?_
  rintro b _ rfl
  exact mountFilesFor_realizes sys cnt call b.1 b.2 _ rest rfl (Nat.le_refl 0) (Nat.zero_add _)

end Files

/-- The array pointer, and the place of the next entry, of an array of `n` slots that holds the
entries, at most `k` of them. -/
def HoldsTo (n k : ℕ) (mnt : List Str) (p : Slots Str × ℕ) : Prop :=
  p = (filled n mnt, mnt.length) ∧ mnt.length ≤ k

theorem HoldsTo.mono {n k k' : ℕ} {mnt : List Str} {p : Slots Str × ℕ} (h : HoldsTo n k mnt p)
    (hk : k ≤ k') : HoldsTo n k' mnt p :=
  ⟨h.1, Nat.le_trans h.2 hk⟩

theorem filterLibraries_eq (info : DriverInfo) (paths : List Str) :
    filterLibraries info paths = paths.filter (keepsLibrary info) := rfl

/-- Filtering the array is filtering the list. -/
theorem filterLibrariesArr_eq (info : DriverInfo) (paths : List Str) :
    filterLibrariesArr info (paths.map some) paths.length
      = some (filled paths.length (filterLibraries info paths),
          (filterLibraries info paths).length) := by
  have hcells : ((paths.map some).map fun cell => cell.filter (keepsLibrary info)).reduceOption
      = filterLibraries info paths := by
    rw [List.map_map, filterLibraries_eq]
    induction paths with
    | nil => rfl
    | cons path paths ih =>
      rw [List.map_cons, List.filter_cons, Function.comp_apply, Option.filter_some]
      split_ifs
      · rw [List.reduceOption_cons_of_some, ih]
      · rw [List.reduceOption_cons_of_none, ih]
  have h := arrayPack_eq ((paths.map some).map fun cell => cell.filter (keepsLibrary info))
  rwa [hcells, List.length_map, List.length_map] at h

namespace Host

variable (host : Host W) (ctx : Context) (cnt : Container)

/-- A call of `mount_files` in `nvc_driver_mount`, and the append of what it returns. -/
def appendFilesArr (nmnt : ℕ) (call : Call) (root dir : Str) (paths : Slots Str) (size : ℕ)
    (mnt : Slots Str × ℕ) : Prog Wrong W (Slots Str × ℕ) := do
  let tmp ← onError (mountFilesArr host.toSys cnt call root dir paths size)
    (unmountSlots host.toSys mnt.1 nmnt)
  let n ← inBounds (arraySize tmp)
  inBounds (arrayAppend mnt.1 mnt.2 tmp n)

/-- The container libraries in `nvc_driver_mount`. -/
def appendCntLibsArr (nmnt : ℕ) (info : DriverInfo) (mnt : Slots Str × ℕ) :
    Prog Wrong W (Slots Str × ℕ) := do
  onError (steps (host.allocate ⟨.cntLibs, .arrayCopy, 0⟩)) (unmountSlots host.toSys mnt.1 nmnt)
  let libs ← inBounds (arrayCopy (cnt.libs.map some) cnt.libs.length)
  let (libs, nlibs) ← inBounds (filterLibrariesArr info libs cnt.libs.length)
  host.appendFilesArr cnt nmnt .cntLibs cnt.rootfs cnt.libsDir libs nlibs mnt

/-- `*ptr++ = mount_device(...)`, unless the container does not want it. -/
def appendDeviceArr (nmnt : ℕ) (call : Call) (dev : DeviceNode) (mnt : Slots Str × ℕ) :
    Prog Wrong W (Slots Str × ℕ) :=
  if cnt.has OPT_NO_DEVBIND then return mnt
  else do
    let r ← tried (mountDevice host.toSys cnt call ctx.root dev)
    let mnt ← inBounds (store mnt.1 mnt.2 r.toOption)
    let _ ← onError (steps (raised r)) (unmountSlots host.toSys mnt.1 nmnt)
    return mnt

/-- The loop over the devices in `nvc_driver_mount`. -/
def mountDevicesArr (nmnt : ℕ) : ℕ → List DeviceNode → Slots Str × ℕ → Prog Wrong W (Slots Str × ℕ)
  | _, [], mnt => return mnt
  | i, dev :: devs, mnt =>
    if skipsDevice ctx cnt dev then mountDevicesArr nmnt (i + 1) devs mnt
    else do
      let mnt ← host.appendDeviceArr ctx cnt nmnt (.dev i) dev mnt
      onError (steps (host.cgroup cnt (.dev i) dev.id)) (unmountSlots host.toSys mnt.1 nmnt)
      mountDevicesArr nmnt (i + 1) devs mnt

/-- The slots of the array of `nvc_driver_mount`. -/
def nmntOf (info : DriverInfo) (nipcs nfirmwares : ℕ) : ℕ :=
  2 + info.bins.length + info.libs.length + cnt.libs.length + info.libs32.length + nipcs
    + info.devs.length + nfirmwares

/-- `nvc_driver_mount`, between entering and leaving the namespace: the array, and how many entries
were written to it. -/
def driverBodyArr (info : DriverInfo) (nipcs nfirmwares : ℕ) : Prog Wrong W (Slots Str × ℕ) := do
  let nmnt := nmntOf cnt info nipcs nfirmwares
  steps (host.allocate ⟨.top, .arrayNew, 0⟩)
  let mnt := (arrayNew nmnt, 0)
  let mnt ← (if info.bins = [] then pure mnt else
    host.appendFilesArr cnt nmnt .bins ctx.root cnt.binsDir
      (info.bins.map some) info.bins.length mnt)
  let mnt ← (if info.libs = [] then pure mnt else
    host.appendFilesArr cnt nmnt .libs ctx.root cnt.libsDir
      (info.libs.map some) info.libs.length mnt)
  let mnt ← (if cnt.has OPT_COMPAT32 = false ∨ info.libs32 = [] then pure mnt else
    host.appendFilesArr cnt nmnt .libs32 ctx.root cnt.libs32Dir (info.libs32.map some)
      info.libs32.length mnt)
  let paths ← inBounds ((mnt.1.take mnt.2).mapM id)
  onError (steps (symlinkLibraries host.toSys 0 paths)) (unmountSlots host.toSys mnt.1 nmnt)
  let mnt ← (if cnt.libs = [] then pure mnt else host.appendCntLibsArr cnt nmnt info mnt)
  host.mountDevicesArr ctx cnt nmnt 0 info.devs mnt

/-- `nvc_driver_mount`. -/
def nvcDriverMountArr (info : DriverInfo) (nipcs nfirmwares : ℕ) : Prog Wrong W Unit := do
  steps (require ⟨.top, .validate, 0⟩ ctx.initialized)
  steps (attempt ⟨.top, .nsEnter, 0⟩ (host.nsEnter ⟨.top, .nsEnter, 0⟩))
  let _ ← onError (host.driverBodyArr ctx cnt info nipcs nfirmwares)
    fun w => (host.nsEnterAt ⟨.top, .nsLeave, 0⟩ w).2
  steps (attempt ⟨.top, .nsLeave, 0⟩ (host.nsEnterAt ⟨.top, .nsLeave, 0⟩))

/-! ### They do what the functions on lists do -/

section Realize

variable {n k : ℕ}

theorem appendFilesArr_realizes (call : Call) (root dir : Str) (paths : List Str) (rest : Slots Str)
    {mnt : List Str} {p : Slots Str × ℕ} (hp : HoldsTo n k mnt p) (hn : k + paths.length ≤ n) :
    Realizes some (HoldsTo n (k + paths.length)) (host.appendFiles cnt call root dir paths mnt)
      (host.appendFilesArr cnt n call root dir (paths.map some ++ rest) paths.length p) := by
  obtain ⟨rfl, hk⟩ := hp
  have hfiles := (mountFilesArr_realizes host.toSys cnt call root dir paths rest).onError
    (unmountSlots_filled host.toSys (n := n) (show mnt.length ≤ n by omega))
  refine hfiles.bind ?_
  rintro tmp _ ⟨rfl, htmp⟩
  have hlen : (mnt ++ tmp).length ≤ k + paths.length := by
    rw [List.length_append]
    omega
  rw [arraySize_filled (Nat.lt_succ_of_le htmp)]
  change Realizes some _ _ (inBounds (arrayAppend (filled n mnt) mnt.length _ tmp.length))
  rw [arrayAppend_filled (Nat.le_trans hlen hn) (Nat.le_succ_of_le htmp)]
  exact .pure ⟨rfl, hlen⟩

theorem appendCntLibsArr_realizes (info : DriverInfo) {mnt : List Str} {p : Slots Str × ℕ}
    (hp : HoldsTo n k mnt p) (hn : k + cnt.libs.length ≤ n) :
    Realizes some (HoldsTo n (k + cnt.libs.length)) (host.appendCntLibs cnt info mnt)
      (host.appendCntLibsArr cnt n info p) := by
  have hle : (filterLibraries info cnt.libs).length ≤ cnt.libs.length := List.length_filter_le ..
  have hcopy : arrayCopy (cnt.libs.map some) cnt.libs.length = some (cnt.libs.map some) :=
    arrayCopy_map_some cnt.libs
  have hclean : ∀ w, unmountSlots host.toSys p.1 n w = host.unmountAll mnt w := by
    rw [hp.1]
    exact unmountSlots_filled host.toSys (show mnt.length ≤ n by have := hp.2; omega)
  have halloc := (Realizes.reporting some (host.allocate ⟨.cntLibs, .arrayCopy, 0⟩)).onError hclean
  refine halloc.bind fun _ _ _ => ?_
  rw [hcopy]
  change Realizes some _ _ (inBounds (filterLibrariesArr info _ _) >>= _)
  rw [filterLibrariesArr_eq]
  have happend := host.appendFilesArr_realizes cnt .cntLibs cnt.rootfs cnt.libsDir
    (filterLibraries info cnt.libs)
    (List.replicate (cnt.libs.length - (filterLibraries info cnt.libs).length) none) hp (by omega)
  exact happend.mono fun _ h => h.mono (by omega)

/-- The entry of a device, NULL when it was not mounted. -/
theorem storeDevice_realizes (call : Call) (root : Str) (dev : DeviceNode) {mnt : List Str}
    {p : Slots Str × ℕ} (hp : HoldsTo n k mnt p) (hn : k + 1 ≤ n) :
    Realizes some (HoldsTo n (k + 1))
      (onError (mountDevice host.toSys cnt call root dev) (host.unmountAll mnt)
        >>= fun m => pure (mnt ++ [m]))
      (tried (mountDevice host.toSys cnt call root dev) >>= fun r =>
        inBounds (store p.1 p.2 r.toOption) >>= fun p' =>
          onError (steps (raised r)) (unmountSlots host.toSys p'.1 n) >>= fun _ => pure p') := by
  obtain ⟨rfl, hk⟩ := hp
  have hlt : mnt.length < n := Nat.lt_of_le_of_lt hk hn
  constructor
  · intro w w' a hrun
    obtain ⟨m, t, hdev, hpure⟩ := bind_ok hrun
    obtain ⟨rfl, rfl⟩ := pure_ok hpure
    have htried : (tried (mountDevice host.toSys cnt call root dev) : Prog Wrong W _) w
        = (.ok (.ok m), t) := by rw [tried, onError_ok hdev]
    rw [bind_of_ok htried]
    change ∃ b, (inBounds (store (filled n mnt) mnt.length (some m)) >>= _) t = _ ∧ _
    rw [store_filled hlt]
    refine ⟨(filled n (mnt ++ [m]), (mnt ++ [m]).length), rfl, rfl, ?_⟩
    rw [List.length_append, List.length_singleton]
    exact Nat.succ_le_succ hk
  · intro w w' e hrun
    rcases bind_error hrun with hfail | ⟨_, _, -, hpure⟩
    · obtain ⟨t, hdev, rfl⟩ := onError_error hfail
      have htried : (tried (mountDevice host.toSys cnt call root dev) : Prog Wrong W _) w
          = (.ok (.error e), t) := by rw [tried, hdev]
      rw [bind_of_ok htried]
      change (inBounds (store (filled n mnt) mnt.length none) >>= _) t = _
      rw [store_filled_none hlt, ← unmountSlots_filled host.toSys (n := n) (Nat.le_of_lt hlt)]
      rfl
    · exact (pure_error hpure).elim

theorem appendDeviceArr_realizes (call : Call) (dev : DeviceNode) {mnt : List Str}
    {p : Slots Str × ℕ} (hp : HoldsTo n k mnt p) (hn : k + 1 ≤ n) :
    Realizes some (HoldsTo n (k + 1)) (host.appendDevice ctx cnt call dev mnt)
      (host.appendDeviceArr ctx cnt n call dev p) := by
  rw [appendDevice, appendDeviceArr]
  rcases cnt.has OPT_NO_DEVBIND
  · have heq : (optionally true (onError (mountDevice host.toSys cnt call ctx.root dev)
          (host.unmountAll mnt)) >>= fun m => pure (mnt ++ m.toList))
        = onError (mountDevice host.toSys cnt call ctx.root dev) (host.unmountAll mnt)
          >>= fun m => pure (mnt ++ [m]) := by
      simp only [optionally, if_true, bind_assoc, pure_bind, Option.toList_some]
    rw [Bool.not_false, heq]
    exact host.storeDevice_realizes cnt call ctx.root dev hp hn
  · exact .pure ((List.append_nil mnt).symm ▸ hp.mono (Nat.le_succ k))

theorem mountDevicesArr_realizes (i : ℕ) (devs : List DeviceNode) {mnt : List Str}
    {p : Slots Str × ℕ} (hp : HoldsTo n k mnt p) (hn : k + devs.length ≤ n) :
    Realizes some (HoldsTo n (k + devs.length)) (host.mountDevices ctx cnt i devs mnt)
      (host.mountDevicesArr ctx cnt n i devs p) := by
  induction devs generalizing i k mnt p with
  | nil => exact .pure hp
  | cons dev devs ih =>
    rw [List.length_cons] at hn ⊢
    rw [mountDevices, mountDevicesArr]
    split_ifs
    · have h := ih (i + 1) hp (by omega)
      exact h.mono fun _ h => h.mono (by omega)
    · refine (host.appendDeviceArr_realizes ctx cnt (.dev i) dev hp (by omega)).bind ?_
      intro mnt' p' hp'
      have hclean : ∀ w, unmountSlots host.toSys p'.1 n w = host.unmountAll mnt' w := by
        rw [hp'.1]
        exact unmountSlots_filled host.toSys (show mnt'.length ≤ n by have := hp'.2; omega)
      refine ((Realizes.reporting some _).onError hclean).bind fun _ _ _ => ?_
      have h := ih (i + 1) hp' (by omega)
      exact h.mono fun _ h => h.mono (by omega)

/-- A call of `mount_files` that is made only if there are paths. -/
theorem appendUnless_realizes {c : Prop} [Decidable c] (call : Call) (root dir : Str)
    (paths : List Str) {mnt : List Str} {p : Slots Str × ℕ} (hp : HoldsTo n k mnt p)
    (hn : k + paths.length ≤ n) :
    Realizes some (HoldsTo n (k + paths.length))
      (if c then pure mnt else host.appendFiles cnt call root dir paths mnt)
      (if c then pure p else
        host.appendFilesArr cnt n call root dir (paths.map some) paths.length p) := by
  split_ifs
  · exact .pure (hp.mono (Nat.le_add_right ..))
  · have h := host.appendFilesArr_realizes cnt call root dir paths [] hp hn
    rwa [List.append_nil] at h

theorem appendCntLibsUnless_realizes (info : DriverInfo) {mnt : List Str} {p : Slots Str × ℕ}
    (hp : HoldsTo n k mnt p) (hn : k + cnt.libs.length ≤ n) :
    Realizes some (HoldsTo n (k + cnt.libs.length))
      (if cnt.libs = [] then pure mnt else host.appendCntLibs cnt info mnt)
      (if cnt.libs = [] then pure p else host.appendCntLibsArr cnt n info p) := by
  split_ifs
  · exact .pure (hp.mono (Nat.le_add_right ..))
  · exact host.appendCntLibsArr_realizes cnt info hp hn

/-- The entries of an array filled from the front. -/
theorem entries_filled (mnt : List Str) : ((filled n mnt).take mnt.length).mapM id = some mnt := by
  have htake : (filled n mnt).take mnt.length = mnt.map some := List.take_left' (List.length_map ..)
  rw [htake, mapM_map_some]

/-- **`nvc_driver_mount` with its array does what it does with lists**, between entering and leaving
the namespace.  The bound on the entries grows by what each part may add. -/
theorem driverBodyArr_realizes (info : DriverInfo) (nipcs nfirmwares : ℕ) :
    Realizes some
      (HoldsTo (nmntOf cnt info nipcs nfirmwares) (nmntOf cnt info nipcs nfirmwares))
      (host.driverBody ctx cnt info) (host.driverBodyArr ctx cnt info nipcs nfirmwares) := by
  set nmnt := nmntOf cnt info nipcs nfirmwares with hnmnt
  rw [nmntOf] at hnmnt
  have hstart : HoldsTo nmnt 0 [] (arrayNew nmnt, 0) := ⟨rfl, Nat.le_refl 0⟩
  refine (Realizes.reporting some _).bind fun _ _ _ => ?_
  refine (host.appendUnless_realizes cnt .bins ctx.root cnt.binsDir info.bins hstart
    (by omega)).bind fun _ _ hbins => ?_
  refine (host.appendUnless_realizes cnt .libs ctx.root cnt.libsDir info.libs hbins
    (by omega)).bind fun _ _ hlibs => ?_
  refine (host.appendUnless_realizes cnt .libs32 ctx.root cnt.libs32Dir info.libs32 hlibs
    (by omega)).bind fun mnt p hlibs32 => ?_
  obtain ⟨rfl, hk⟩ := hlibs32
  have hclean := unmountSlots_filled host.toSys (n := nmnt) (show mnt.length ≤ nmnt by omega)
  rw [entries_filled]
  refine ((Realizes.reporting some _).onError hclean).bind fun _ _ _ => ?_
  refine (host.appendCntLibsUnless_realizes cnt info ⟨rfl, hk⟩ (by omega)).bind
    fun _ _ hcnt => ?_
  have hdevs := host.mountDevicesArr_realizes ctx cnt 0 info.devs hcnt (by omega)
  exact hdevs.mono fun _ h => h.mono (by omega)

/-- **`nvc_driver_mount` with its array does what it does with lists.** -/
theorem nvcDriverMountArr_realizes (info : DriverInfo) (nipcs nfirmwares : ℕ) :
    Realizes some Eq (host.nvcDriverMount ctx cnt info)
      (host.nvcDriverMountArr ctx cnt info nipcs nfirmwares) := by
  refine (Realizes.reporting some _).bind fun _ _ _ => ?_
  refine (Realizes.reporting some _).bind fun _ _ _ => ?_
  refine ((host.driverBodyArr_realizes ctx cnt info nipcs nfirmwares).onError
    fun _ => rfl).bind fun _ _ _ => ?_
  exact .reporting some _

/-- The array has room for every entry. -/
theorem nvcDriverMountArr_inBounds (info : DriverInfo) (nipcs nfirmwares : ℕ) (w : W) :
    (host.nvcDriverMountArr ctx cnt info nipcs nfirmwares w).1 ≠ .error none := by
  intro h
  have hrun : host.nvcDriverMountArr ctx cnt info nipcs nfirmwares w = (.error none, _) :=
    Prod.ext h rfl
  obtain ⟨e, he⟩ :=
    (host.nvcDriverMountArr_realizes ctx cnt info nipcs nfirmwares).exists_of_error hrun
  cases he

end Realize

end Host

end Mount
