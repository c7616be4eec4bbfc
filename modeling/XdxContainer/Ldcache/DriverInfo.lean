import XdxContainer.Data.Block
import XdxContainer.Ldcache.Lookup

/-!
# Ldcache/DriverInfo — the arrays of the driver information

    ldcache_resolve ──▸ libs, libs32 ┐  one slot a name
    find_binary_paths ──▸ bins       ┴──array_pack──▸ the entries, and their number
    lookup_devices ──▸ devs             has_render slots, for dxg and render

Each array of `nvc_driver_info_new` is allocated in one place, filled in another and counted in a
third.  For the names these agree.  The devices are counted by `has_render` and stored one by one
under `has_dxg` and `has_render`, so that the only device of a dxcore system has no slot.

* `findLibraryPathsArr_eq` — the arrays of the libraries are the lists of `findLibraryPaths`.
* `arraysMatch_iff` — the arrays hold what was found exactly on a native system.
-/

open Paths Fs Mount

namespace Ldcache

/-! ## The system -/

/-- What `nvc_driver_info_new` is given, and which of its calls succeed. -/
structure System extends Host where
  /-- `validate_context`, `options_parse` and the memory for `info`. -/
  started : Bool
  /-- `dxcore->initialized`. -/
  initialized : Bool
  /-- The driver stores of the adapters. -/
  adapterList : List Str
  /-- The cache, if it is resolved and opened. -/
  cache : Option Image
  /-- `ldcache_close`. -/
  close : Bool
  libArch : BitVec 32
  lib32Arch : BitVec 32
  /-- `secure_getenv("PATH")`. -/
  path : Option Str
  /-- The memory for the copy of `PATH`. -/
  strdupEnv : Bool
  arrayNewBins : Bool
  /-- `file_exists_at` on the root. -/
  fileExistsAt : Str → Option Bool
  /-- The memory for a path of a binary in a driver store, and in a directory of `PATH`. -/
  strdupStore : (dir i : ℕ) → Bool
  strdupPath : (dir i : ℕ) → Bool
  /-- `xstat` on `MSFT_DXG_DEVICE_PATH`: the device. -/
  statDxg : Option Dev
  /-- Whether `xcalloc` gives an array of so many devices. -/
  callocDevs : ℕ → Bool

/-- A pointer that must not be NULL. -/
def nonNull {α : Type} : Option α → Except Stop α
  | some a => .ok a
  | none => .error .failed

/-- A call that has to succeed. -/
def succeeds (ok : Bool) : Except Stop Unit := if ok then .ok () else .error .failed

theorem nonNull_ok {α : Type} {x : Option α} {a : α} (h : nonNull x = .ok a) : x = some a := by
  rcases x with _ | a'
  · cases h
  · exact congrArg some (Except.ok.inj h)

theorem succeeds_ok {ok : Bool} {u : Unit} (h : succeeds ok = .ok u) : ok = true := by
  rcases ok with _ | _
  · cases h
  · rfl

/-! ## The libraries -/

section Resolve

/-- What the selector makes of a path for slot `j` of an array. -/
def selectPathArr (env : Env) (i j : ℕ) (path : Str) (paths : Block Str) :
    Except Stop (Block Str) :=
  match env.select (paths.get j) path with
  | none => .error .failed
  | some false => return paths
  | some true => if env.strdup i j then return paths.put j path else .error .failed

variable (img : Image) (ptr : ℕ) (env : Env)

/-- The loop over the libraries for entry `i`, from slot `j` on. -/
def slotLoopArr (i : ℕ) (e : Entry) : ℕ → List Str → Block Str → Except Stop (Block Str)
  | _, [], paths => return paths
  | j, lib :: libs, paths => do
    if !(← strHasPrefixAt img (ptr + e.key.toNat) lib) then slotLoopArr i e (j + 1) libs paths
    else do
      let path ← pathResolveAt img env.fs env.root (ptr + e.value.toNat)
      if paths.get j = some path then slotLoopArr i e (j + 1) libs paths
      else selectPathArr env i j path paths

/-- A turn of the loop over the entries. -/
def entryStepArr (arch : BitVec 32) (libs : List Str) (i : ℕ) (paths : Block Str) :
    Except Stop (Block Str) := do
  let e ← entryAt img ptr i
  if e.wanted arch then slotLoopArr img ptr env i e 0 libs paths else return paths

/-- The loop over the entries, with `left` turns to go. -/
def entryLoopArr (arch : BitVec 32) (libs : List Str) :
    (left i : ℕ) → Block Str → Except Stop (Block Str)
  | 0, _, paths => return paths
  | left + 1, i, paths => do
    let paths ← entryStepArr img ptr env arch libs i paths
    entryLoopArr arch libs left (i + 1) paths

/-- `ldcache_resolve` on an array of its caller, with `size` as many as there are libraries. -/
def ldcacheResolveArr (arch : BitVec 32) (libs : List Str) (paths : Block Str) :
    Except Stop (Block Str) := do
  let nlibs ← nlibsAt img ptr
  entryLoopArr img ptr env arch libs nlibs.toNat 0 (paths.zero libs.length)

end Resolve

section Lookups

variable (sys : System)

/-- The array for an architecture in `find_library_paths`. -/
def resolveArr (img : Image) (ptr : ℕ) (names : List Str) (arch : BitVec 32) :
    Except Stop (Block Str) := do
  succeeds (sys.arrayNew arch)
  ldcacheResolveArr img ptr (sys.env sys.initialized arch) arch names (.new names.length)

/-- `find_library_paths`: what is in `info->libs` and `info->libs32`. -/
def findLibraryPathsArr (names : List Str) : Except Stop (Block Str × Block Str) := do
  let img ← nonNull sys.cache
  let ptr ← ldcacheOpen img
  let libs ← resolveArr sys img ptr names sys.libArch
  let libs32 ← resolveArr sys img ptr names sys.lib32Arch
  succeeds sys.close
  return (libs, libs32)

/-! ## The binaries -/

/-- The path of a binary in a directory, if there is such a file. -/
def probe (dir bin : Str) : Option Str :=
  match pathJoin dir bin with
  | (false, _) => none
  | (true, tmp) => (pathResolve sys.fs sys.root tmp).filter (sys.fileExistsAt · = some true)

/-- A directory is looked at for the binary of a slot. -/
def probeInto (strdup : (dir i : ℕ) → Bool) (bins : Block Str) (dir bin : Str × ℕ) :
    Except Stop (Block Str) :=
  match probe sys dir.1 bin.1 with
  | none => .ok bins
  | some path => if strdup dir.2 bin.2 then .ok (bins.put bin.2 path) else .error .failed

/-- The loop over the driver stores: a later one replaces the path of an earlier one. -/
def storeLoop (names : List Str) (bins : Block Str) : Except Stop (Block Str) :=
  names.zipIdx.foldlM (fun bins bin =>
    sys.adapterList.zipIdx.foldlM (fun bins dir =>
      probeInto sys sys.strdupStore bins dir bin) bins) bins

/-- The loop over the directories of `PATH`: a slot that is filled stays as it is. -/
def pathLoop (names : List Str) (dirs : List Str) (bins : Block Str) : Except Stop (Block Str) :=
  dirs.zipIdx.foldlM (fun bins dir =>
    names.zipIdx.foldlM (fun bins bin =>
      if (bins.get bin.2).isSome then .ok bins
      else probeInto sys sys.strdupPath bins dir bin) bins) bins

/-- `find_binary_paths`: what is in `info->bins`. -/
def findBinaryPaths (names : List Str) : Except Stop (Block Str) := do
  let env ← nonNull sys.path
  succeeds sys.strdupEnv
  succeeds sys.arrayNewBins
  let bins ← (if sys.initialized then storeLoop sys names (.new names.length)
    else .ok (.new names.length))
  let dirs := (env.splitOn ':').map fun dir => if dir = [] then ['.'] else dir
  pathLoop sys names dirs bins

/-! ## The devices -/

/-- The device of dxcore. -/
def MSFT_DXG_DEVICE_PATH : Str := "/dev/dxg".toList

/-- The render device. -/
def XDX_RENDER_DEVICE_PATH : Str := "/dev/dri/renderD128".toList

/-- Its minor. -/
def XDX_RENDER_DEVICE_MINOR : ℕ := 128

/-- The nodes `lookup_devices` prepares, `dxg` and `render`. -/
def prepareNodes : Except Stop (Option DeviceNode × Option DeviceNode) :=
  if sys.initialized then do
    let rdev ← nonNull sys.statDxg
    return (some ⟨MSFT_DXG_DEVICE_PATH, rdev⟩, none)
  else
    return (none, some ⟨XDX_RENDER_DEVICE_PATH, makedev NV_DEVICE_MAJOR XDX_RENDER_DEVICE_MINOR⟩)

/-- `if (has_x) *(node++) = x`. -/
def storeNode (x : Option DeviceNode) (node : Block DeviceNode × ℕ) : Block DeviceNode × ℕ :=
  match x with
  | some x => (node.1.put node.2 x, node.2 + 1)
  | none => node

/-- `lookup_devices`: `info->devs` and `info->ndevs`. -/
def lookupDevices : Except Stop (Block DeviceNode × ℕ) := do
  let (dxg, render) ← prepareNodes sys
  let ndevs := if render.isSome then 1 else 0
  succeeds (sys.callocDevs ndevs)
  let (devs, _) := storeNode render (storeNode dxg (.new ndevs, 0))
  return (devs, ndevs)

/-! ## The information -/

/-- The arrays of `struct nvc_driver_info`. -/
structure DriverArrays where
  libs : Block Str
  nlibs : ℕ
  libs32 : Block Str
  nlibs32 : ℕ
  bins : Block Str
  nbins : ℕ
  devs : Block DeviceNode
  ndevs : ℕ

/-- `array_pack` on an array of the information. -/
def packed (arr : Block Str) (size : ℕ) : Except Stop (Block Str × ℕ) := inFile (arr.pack size)

/-- `lookup_libraries`. -/
def lookupLibrariesArr : Except Stop ((Block Str × ℕ) × (Block Str × ℕ)) := do
  let names := libraryNames sys.initialized
  let (libs, libs32) ← findLibraryPathsArr sys names
  let libs ← packed libs names.length
  let libs32 ← packed libs32 names.length
  return (libs, libs32)

/-- `lookup_binaries`. -/
def lookupBinaries : Except Stop (Block Str × ℕ) := do
  let bins ← findBinaryPaths sys utilityBins
  packed bins utilityBins.length

/-- `nvc_driver_info_new`. -/
def nvcDriverInfoNew : Except Stop DriverArrays := do
  succeeds sys.started
  let ((libs, nlibs), (libs32, nlibs32)) ← lookupLibrariesArr sys
  let (bins, nbins) ← lookupBinaries sys
  let (devs, ndevs) ← lookupDevices sys
  return { libs, nlibs, libs32, nlibs32, bins, nbins, devs, ndevs }

end Lookups

/-! ## The arrays of the libraries -/

/-- An array of `n` slots with nothing behind it. -/
def IsArray (n : ℕ) (arr : Block Str) (cells : Slots Str) : Prop :=
  arr = ⟨cells, []⟩ ∧ cells.length = n

section Arrays

variable {img : Image} {ptr : ℕ} {env : Env} {arch : BitVec 32} {names libs : List Str}
  {n i j : ℕ} {path : Str} {arr : Block Str} {cells : Slots Str}

theorem IsArray.get (h : IsArray n arr cells) (j : ℕ) : arr.get j = cells[j]?.join := by
  rw [h.1, Block.get, Block.cells, List.append_nil]

/-- A store within the array. -/
theorem IsArray.put (h : IsArray n arr cells) (hj : j < n) (path : Str) :
    IsArray n (arr.put j path) (cells.set j (some path)) := by
  have hown : j < arr.allocated := by
    rw [h.1]
    exact Nat.lt_of_lt_of_eq hj h.2.symm
  rw [Block.put_of_lt hown, h.1]
  exact ⟨rfl, List.length_set.trans h.2⟩

theorem related_selectPath (h : IsArray n arr cells) (hj : j < n) :
    Except.Related (IsArray n) (selectPathArr env i j path arr)
      (selectPath env i j path cells) := by
  rw [selectPathArr, selectPath, h.get]
  generalize env.select cells[j]?.join path = answer
  rcases answer with _ | _ | _
  · exact .error _
  · exact .ok h
  · change Except.Related _ (if _ then _ else _) (if _ then _ else _)
    split_ifs
    · exact .ok (h.put hj path)
    · exact .error _

/-- The loop over the slots, on the array and on the list. -/
theorem related_slotLoop (h : IsArray n arr cells) {e : Entry} (hj : j + libs.length ≤ n) :
    Except.Related (IsArray n) (slotLoopArr img ptr env i e j libs arr)
      (slotLoop img ptr env i e j libs cells) := by
  induction libs generalizing j with
  | nil => exact .ok h
  | cons lib libs ih =>
    rw [List.length_cons] at hj
    have hrest := ih (j := j + 1) (by omega)
    have hlt : j < cells.length := by
      rw [h.2]
      omega
    rw [slotLoopArr, slotLoop]
    refine .bind_same fun hasPrefix => ?_
    split_ifs
    · exact hrest
    · refine .bind_same fun path => ?_
      have hsame : arr.get j = some path ↔ cells[j]? = some (some path) := by
        rw [h.get, List.getElem?_eq_getElem hlt, Option.join_some, Option.some_inj]
      by_cases hheld : arr.get j = some path
      · rw [if_pos hheld, if_pos (hsame.mp hheld)]
        exact hrest
      · rw [if_neg hheld, if_neg fun h => hheld (hsame.mpr h)]
        exact related_selectPath h (by omega)

theorem related_entryStep (h : IsArray n arr cells) (hlibs : libs.length ≤ n) :
    Except.Related (IsArray n) (entryStepArr img ptr env arch libs i arr)
      (entryStep img ptr env arch libs i cells) := by
  refine .bind_same fun e => ?_
  split_ifs
  · exact related_slotLoop h (by omega)
  · exact .ok h

/-- The loop over the entries, by induction on those that are left. -/
theorem related_entryLoop (hlibs : libs.length ≤ n) (left : ℕ) (h : IsArray n arr cells) :
    Except.Related (IsArray n) (entryLoopArr img ptr env arch libs left i arr)
      (entryLoop img ptr env arch libs left i cells) := by
  induction left generalizing i arr cells with
  | zero => exact .ok h
  | succ left ih => exact (related_entryStep h hlibs).bind fun _ _ hstep => ih hstep

/-- **`ldcache_resolve` stays within an array that has a slot for each library.** -/
theorem related_ldcacheResolve :
    Except.Related (IsArray libs.length)
      (ldcacheResolveArr img ptr env arch libs (.new libs.length))
      (ldcacheResolve img ptr env arch libs) := by
  refine .bind_same fun nlibs => ?_
  have hzero := Block.zero_of_within (Block.within_new (α := Str) libs.length)
  rw [Block.allocated_new] at hzero
  rw [hzero]
  exact related_entryLoop (Nat.le_refl _) _ ⟨rfl, List.length_replicate⟩

end Arrays

section Information

variable {sys : System} {names : List Str} {n : ℕ}

theorem related_resolveArr (img : Image) (ptr : ℕ) (arch : BitVec 32) :
    Except.Related (IsArray names.length) (resolveArr sys img ptr names arch)
      (resolveArch img ptr sys.toHost sys.initialized names arch) := by
  rw [resolveArr, resolveArch, succeeds]
  split_ifs
  · exact related_ldcacheResolve
  · exact .error _

/-- **The arrays of the libraries** are the lists of `findLibraryPaths`. -/
theorem findLibraryPathsArr_eq {img : Image} (hcache : sys.cache = some img)
    (hclose : sys.close = true) :
    Except.Related (fun arrs lists => IsArray names.length arrs.1 lists.1
        ∧ IsArray names.length arrs.2 lists.2) (findLibraryPathsArr sys names)
      (findLibraryPaths img sys.toHost sys.initialized names sys.libArch sys.lib32Arch) := by
  rw [findLibraryPathsArr, hcache, hclose]
  change Except.Related _ (ldcacheOpen img >>= _) (ldcacheOpen img >>= _)
  refine .bind_same fun ptr => ?_
  refine (related_resolveArr img ptr sys.libArch).bind fun libs list hlibs => ?_
  exact (related_resolveArr img ptr sys.lib32Arch).bind fun libs32 list32 hlibs32 =>
    .ok ⟨hlibs, hlibs32⟩

/-! ## Every store in its array -/

/-- An array of `n` slots that nothing was stored behind. -/
structure FitsIn {α : Type} (n : ℕ) (arr : Block α) : Prop where
  within : arr.Within
  allocated : arr.allocated = n

theorem IsArray.fitsIn {arr : Block Str} {cells : Slots Str} (h : IsArray n arr cells) :
    FitsIn n arr := by
  rw [h.1]
  exact ⟨rfl, h.2⟩

theorem FitsIn.put {α : Type} {arr : Block α} (h : FitsIn n arr) {i : ℕ} (hi : i < n) (x : α) :
    FitsIn n (arr.put i x) := by
  refine ⟨(Block.within_put_iff h.within).mpr ?_, ?_⟩
  · rwa [h.allocated]
  · rw [Block.allocated_put, h.allocated]

/-- The libraries that were found fit the arrays. -/
theorem fitsIn_findLibraryPaths {libs libs32 : Block Str}
    (h : findLibraryPathsArr sys names = .ok (libs, libs32)) :
    FitsIn names.length libs ∧ FitsIn names.length libs32 := by
  have hcalls := h
  obtain ⟨img, himg, hcalls⟩ := Except.bind_eq_ok hcalls
  obtain ⟨ptr, -, hcalls⟩ := Except.bind_eq_ok hcalls
  obtain ⟨_, -, hcalls⟩ := Except.bind_eq_ok hcalls
  obtain ⟨_, -, hcalls⟩ := Except.bind_eq_ok hcalls
  obtain ⟨_, hclose, -⟩ := Except.bind_eq_ok hcalls
  have hrelated : Except.Related _ (findLibraryPathsArr sys names) _ :=
    findLibraryPathsArr_eq (nonNull_ok himg) (succeeds_ok hclose)
  obtain ⟨lists, -, hlibs, hlibs32⟩ := hrelated.exists_ok h
  exact ⟨hlibs.fitsIn, hlibs32.fitsIn⟩

/-- A binary that is found is stored within its array. -/
theorem fitsIn_probeInto {strdup : ℕ → ℕ → Bool} {bins bins' : Block Str} {dir bin : Str × ℕ}
    (hbins : FitsIn n bins) (hi : bin.2 < n) (h : probeInto sys strdup bins dir bin = .ok bins') :
    FitsIn n bins' := by
  rw [probeInto] at h
  split at h
  · rw [← Except.ok.inj h]
    exact hbins
  · split_ifs at h
    rw [← Except.ok.inj h]
    exact hbins.put hi _

/-- **Every path of a binary has a slot.** -/
theorem fitsIn_findBinaryPaths {bins : Block Str} (h : findBinaryPaths sys names = .ok bins) :
    FitsIn names.length bins := by
  obtain ⟨env, -, h⟩ := Except.bind_eq_ok h
  obtain ⟨-, -, h⟩ := Except.bind_eq_ok h
  obtain ⟨-, -, h⟩ := Except.bind_eq_ok h
  obtain ⟨bins₁, hstores, hpath⟩ := Except.bind_eq_ok h
  have hnew : FitsIn names.length (Block.new names.length : Block Str) :=
    ⟨Block.within_new _, Block.allocated_new _⟩
  have hbins₁ : FitsIn names.length bins₁ := by
    split_ifs at hstores
    · refine Except.foldlM_inv (fun bins bin bins' hbin hbins hturn => ?_) hnew hstores
      refine Except.foldlM_inv (fun _ _ _ _ hfits hprobe => ?_) hbins hturn
      exact fitsIn_probeInto hfits (List.snd_lt_of_mem_zipIdx hbin) hprobe
    · rwa [← Except.ok.inj hstores]
  refine Except.foldlM_inv (fun bins dir bins' _ hbins hturn => ?_) hbins₁ hpath
  refine Except.foldlM_inv (fun bins bin bins' hbin hfits hprobe => ?_) hbins hturn
  split_ifs at hprobe
  · rwa [← Except.ok.inj hprobe]
  · exact fitsIn_probeInto hfits (List.snd_lt_of_mem_zipIdx hbin) hprobe

/-- **Packing** the whole array leaves its entries. -/
theorem holds_of_packed {arr arr' : Block Str} {size : ℕ} (harr : FitsIn n arr)
    (h : packed arr n = .ok (arr', size)) : arr'.Holds size arr.entries := by
  obtain ⟨arr₁, size₁, hpack, hholds⟩ := Block.pack_holds harr.within
  rw [harr.allocated] at hpack
  rw [packed, hpack] at h
  obtain ⟨rfl, rfl⟩ := Prod.mk.inj (Except.ok.inj h)
  exact hholds

/-! ## What the arrays hold -/

/-- **The arrays match their counts**: each holds what was found, and nothing was stored behind
it. -/
structure ArraysMatch (sys : System) (info : DriverArrays) : Prop where
  libs : ∃ libs libs32, findLibraryPathsArr sys (libraryNames sys.initialized) = .ok (libs, libs32)
    ∧ info.libs.Holds info.nlibs libs.entries ∧ info.libs32.Holds info.nlibs32 libs32.entries
  bins : ∃ bins, findBinaryPaths sys utilityBins = .ok bins
    ∧ info.bins.Holds info.nbins bins.entries
  devs : ∃ dxg render, prepareNodes sys = .ok (dxg, render)
    ∧ info.devs.Holds info.ndevs (dxg.toList ++ render.toList)

/-- The devices of a native system. -/
theorem lookupDevices_native (hnative : sys.initialized = false) {devs : Block DeviceNode}
    {ndevs : ℕ} (h : lookupDevices sys = .ok (devs, ndevs)) :
    ∃ dxg render, prepareNodes sys = .ok (dxg, render)
      ∧ devs.Holds ndevs (dxg.toList ++ render.toList) := by
  obtain ⟨⟨dxg, render⟩, hnodes, h⟩ := Except.bind_eq_ok h
  refine ⟨dxg, render, hnodes, ?_⟩
  rw [prepareNodes, if_neg (by rw [hnative]; exact Bool.false_ne_true)] at hnodes
  obtain ⟨rfl, rfl⟩ := Prod.mk.inj (Except.ok.inj hnodes)
  obtain ⟨-, -, h⟩ := Except.bind_eq_ok h
  obtain ⟨rfl, rfl⟩ := Prod.mk.inj (Except.ok.inj h)
  exact ⟨rfl, rfl, rfl⟩

/-- **The device of a dxcore system has no slot.** -/
theorem lookupDevices_dxcore (hdxcore : sys.initialized = true) {devs : Block DeviceNode}
    {ndevs : ℕ} (h : lookupDevices sys = .ok (devs, ndevs)) : ndevs = 0 ∧ ¬devs.Within := by
  obtain ⟨⟨dxg, render⟩, hnodes, h⟩ := Except.bind_eq_ok h
  rw [prepareNodes, if_pos hdxcore] at hnodes
  obtain ⟨rdev, -, hnodes⟩ := Except.bind_eq_ok hnodes
  obtain ⟨rfl, rfl⟩ := Prod.mk.inj (Except.ok.inj hnodes)
  obtain ⟨-, -, h⟩ := Except.bind_eq_ok h
  obtain ⟨rfl, rfl⟩ := Prod.mk.inj (Except.ok.inj h)
  refine ⟨rfl, fun hwithin => ?_⟩
  exact absurd ((Block.within_put_iff (Block.within_new 0)).mp hwithin) (Nat.not_lt_zero 0)

/-- What a success has come from. -/
theorem nvcDriverInfoNew_ok {info : DriverArrays} (h : nvcDriverInfoNew sys = .ok info) :
    lookupLibrariesArr sys = .ok ((info.libs, info.nlibs), (info.libs32, info.nlibs32))
      ∧ lookupBinaries sys = .ok (info.bins, info.nbins)
      ∧ lookupDevices sys = .ok (info.devs, info.ndevs) := by
  obtain ⟨-, -, h⟩ := Except.bind_eq_ok h
  obtain ⟨⟨⟨libs, nlibs⟩, libs32, nlibs32⟩, hlibs, h⟩ := Except.bind_eq_ok h
  obtain ⟨⟨bins, nbins⟩, hbins, h⟩ := Except.bind_eq_ok h
  obtain ⟨⟨devs, ndevs⟩, hdevs, h⟩ := Except.bind_eq_ok h
  rw [← Except.ok.inj h]
  exact ⟨hlibs, hbins, hdevs⟩

/-- The arrays of the libraries and of the binaries hold what was found. -/
theorem names_match {info : DriverArrays} (h : nvcDriverInfoNew sys = .ok info) :
    (∃ libs libs32, findLibraryPathsArr sys (libraryNames sys.initialized) = .ok (libs, libs32)
        ∧ info.libs.Holds info.nlibs libs.entries ∧ info.libs32.Holds info.nlibs32 libs32.entries)
      ∧ ∃ bins, findBinaryPaths sys utilityBins = .ok bins
        ∧ info.bins.Holds info.nbins bins.entries := by
  obtain ⟨hlibs, hbins, -⟩ := nvcDriverInfoNew_ok h
  constructor
  · obtain ⟨⟨libs, libs32⟩, hfound, hlibs⟩ := Except.bind_eq_ok hlibs
    obtain ⟨⟨arr, size⟩, hpack, hlibs⟩ := Except.bind_eq_ok hlibs
    obtain ⟨⟨arr32, size32⟩, hpack32, hlibs⟩ := Except.bind_eq_ok hlibs
    obtain ⟨hfirst, hsecond⟩ := Prod.mk.inj (Except.ok.inj hlibs)
    obtain ⟨rfl, rfl⟩ := Prod.mk.inj hfirst
    obtain ⟨rfl, rfl⟩ := Prod.mk.inj hsecond
    obtain ⟨hfits, hfits32⟩ := fitsIn_findLibraryPaths hfound
    exact ⟨libs, libs32, hfound, holds_of_packed hfits hpack, holds_of_packed hfits32 hpack32⟩
  · obtain ⟨bins, hfound, hpack⟩ := Except.bind_eq_ok hbins
    exact ⟨bins, hfound, holds_of_packed (fitsIn_findBinaryPaths hfound) hpack⟩

/-- **The arrays of the driver information match their counts** exactly on a native system. -/
theorem arraysMatch_iff {info : DriverArrays} (h : nvcDriverInfoNew sys = .ok info) :
    ArraysMatch sys info ↔ sys.initialized = false := by
  obtain ⟨hlibs, hbins⟩ := names_match h
  obtain ⟨-, -, hdevs⟩ := nvcDriverInfoNew_ok h
  constructor
  · intro hmatch
    by_contra hdxcore
    obtain ⟨dxg, render, -, hholds⟩ := hmatch.devs
    exact (lookupDevices_dxcore ((Bool.not_eq_false _).mp hdxcore) hdevs).2 hholds.within
  · exact fun hnative => ⟨hlibs, hbins, lookupDevices_native hnative hdevs⟩

end Information

/-- A system with one library and one binary, on which every call succeeds. -/
def smallSystem (initialized : Bool) : System where
  toHost := libraryHost
  started := true
  initialized := initialized
  adapterList := []
  cache := some (eglCache ["/opt/xdxgpu/lib/x86_64-linux-gnu"])
  close := true
  libArch := LD_X8664_LIB64
  lib32Arch := LD_I386_LIB32
  path := some "/usr/bin".toList
  strdupEnv := true
  arrayNewBins := true
  fileExistsAt _ := some true
  strdupStore _ _ := true
  strdupPath _ _ := true
  statDxg := some 0x0a3a
  callocDevs _ := true

/-- The information of a small system is made, with dxcore and without. -/
theorem exists_smallSystem (initialized : Bool) :
    ∃ info, nvcDriverInfoNew (smallSystem initialized) = .ok info := by
  have hok : (nvcDriverInfoNew (smallSystem initialized)).toOption.isSome = true := by
    rcases initialized with _ | _
    · decide +kernel
    · decide +kernel
  obtain ⟨info, hinfo⟩ := Option.isSome_iff_exists.mp hok
  exact ⟨info, Except.toOption_eq_some hinfo⟩

/-- A native system with `libva` in two places, `libEGL`, and one binary in the second directory of
`PATH`. -/
def nativeSystem : System :=
  { smallSystem false with
    toHost := vaHost
    cache := some (cacheOf (LD_X8664_LIB64 ||| LD_ELF)
      [("libEGL.so.1".toList, "/usr/lib/x86_64-linux-gnu/libEGL.so.1".toList),
        ("libva.so.2".toList, "/usr/lib/libva.so.2".toList),
        ("libva.so".toList, "/usr/lib/libva.so".toList),
        ("libva.so.2".toList, "/opt/xdxgpu/lib/x86_64-linux-gnu/libva.so.2".toList)])
    path := some "/usr/sbin:/usr/bin".toList
    fileExistsAt := fun path => some (path = "/usr/bin/xdxsmi".toList : Bool) }

/-- **The native system**: three slots of the libraries hold something, none of the 32-bit ones
does, and the arrays match their counts. -/
theorem arraysMatch_native :
    ∃ info, nvcDriverInfoNew nativeSystem = .ok info
      ∧ info.libs.own.take info.nlibs = [some "/opt/xdxgpu/lib/x86_64-linux-gnu/libva.so.2".toList,
        some "/usr/lib/libva.so.2".toList, some "/usr/lib/x86_64-linux-gnu/libEGL.so.1".toList]
      ∧ info.nlibs32 = 0 ∧ 3 < info.libs32.allocated
      ∧ info.bins.own.take info.nbins = [some "/usr/bin/xdxsmi".toList]
      ∧ ArraysMatch nativeSystem info := by
  have hrun : (nvcDriverInfoNew nativeSystem).toOption.map (fun info =>
      (info.libs.own.take info.nlibs, info.nlibs32, (3 < info.libs32.allocated : Bool),
        info.bins.own.take info.nbins))
      = some ([some "/opt/xdxgpu/lib/x86_64-linux-gnu/libva.so.2".toList,
        some "/usr/lib/libva.so.2".toList, some "/usr/lib/x86_64-linux-gnu/libEGL.so.1".toList],
        0, true, [some "/usr/bin/xdxsmi".toList]) := by decide +kernel
  obtain ⟨info, hinfo, hheld⟩ := Option.map_eq_some_iff.mp hrun
  obtain ⟨hlibs, hrest⟩ := Prod.mk.inj hheld
  obtain ⟨hlibs32, hrest⟩ := Prod.mk.inj hrest
  obtain ⟨hslots, hbins⟩ := Prod.mk.inj hrest
  have hok := Except.toOption_eq_some hinfo
  exact ⟨info, hok, hlibs, hlibs32, of_decide_eq_true hslots, hbins, (arraysMatch_iff hok).mpr rfl⟩

/-- The device of the dxcore system is stored behind an array of no devices. -/
theorem not_arraysMatch_dxcore :
    ¬∀ (sys : System) (info : DriverArrays), nvcDriverInfoNew sys = .ok info →
      ArraysMatch sys info := by
  intro h
  obtain ⟨info, hinfo⟩ := exists_smallSystem true
  obtain ⟨-, -, hdevs⟩ := nvcDriverInfoNew_ok hinfo
  obtain ⟨dxg, render, -, hholds⟩ := (h _ info hinfo).devs
  exact (lookupDevices_dxcore rfl hdevs).2 hholds.within

end Ldcache
