import XdxContainer.Ldcache.Table
import XdxContainer.Mount.Code
import XdxContainer.Data.Slots

/-!
# Ldcache/Libraries — which libraries of the driver are found

    names   utility ▸ compute ▸ video ▸ graphics [▸ dxcore]        a name may stand there twice
      │
    cache ──ldcache_resolve, select_libraries──▸ one path or NULL a name ──array_pack──▸ info->libs

A name's first place has the choice among the paths of all its libraries: the last one outside of
the system directory if that is the vendor's, and the last one otherwise.  A name's second place has
the choice among those that were the first place's already when they came.

* `ldcacheResolve_selects` — what is found is in the cache, and what is in the cache is found.
-/

open Paths Fs Mount

namespace Ldcache

/-! ## The selectors -/

/-- The vendor's directory. -/
def vendorDir : Str := "/opt/xdxgpu/lib/x86_64-linux-gnu".toList

/-- A directory that is not the vendor's. -/
def systemDir : Str := "/usr/lib/x86_64-linux-gnu".toList

/-- `select_libraries`; `elf` says whether `elftool_open` opens a file. -/
def selectLibraries (elf : Str → Bool) (root : Str) (origPath : Option Str) (altPath : Str) :
    Option Bool :=
  match pathJoin root altPath with
  | (false, _) => none
  | (true, path) =>
    if elf path then
      if origPath.any (strHasPrefix · vendorDir) && strHasPrefix altPath systemDir then some false
      else some true
    else none

/-- `select_wsl_libraries`. -/
def selectWslLibraries (origPath : Option Str) (_altPath : Str) : Option Bool :=
  if origPath.any fun path => (strstr "/wsl/lib/".toList path).isSome then some false
  else some true

/-- The vendor's library stays for one of the system. -/
def keepsVendor (orig alt : Str) : Bool := strHasPrefix orig vendorDir && strHasPrefix alt systemDir

/-- A path of the subsystem. -/
def isWsl (path : Str) : Bool := (strstr "/wsl/lib/".toList path).isSome

/-- A library of the subsystem stays for any. -/
def keepsWsl (orig _alt : Str) : Bool := isWsl orig

theorem follows_selectLibraries (elf : Str → Bool) (root : Str) :
    Follows (selectLibraries elf root) keepsVendor := by
  intro orig alt b h
  have hkeeps : orig.any (keepsVendor · alt)
      = (orig.any (strHasPrefix · vendorDir) && strHasPrefix alt systemDir) := by
    cases orig <;> rfl
  rw [hkeeps]
  rw [selectLibraries] at h
  split at h
  · cases h
  · split at h
    · split at h
      · next hkeep => rw [hkeep, ← Option.some.inj h, Bool.not_true]
      · next hkeep => rw [Bool.eq_false_iff.mpr hkeep, ← Option.some.inj h, Bool.not_false]
    · cases h

theorem follows_selectWslLibraries : Follows selectWslLibraries keepsWsl := by
  intro orig alt b h
  rw [selectWslLibraries] at h
  split at h
  · next hkeep => exact (Option.some.inj h).symm.trans (congrArg (!·) hkeep.symm)
  · next hkeep =>
    exact (Option.some.inj h).symm.trans (congrArg (!·) (Bool.eq_false_iff.mpr hkeep).symm)

/-! ## What is found -/

section Found

variable {img : Image} {ptr : ℕ} {fs : Tree} {root : Str} {arch : BitVec 32}

/-- An ELF library of the architecture whose key begins with the name, and which leads to the
path. -/
structure Entry.Supplies (img : Image) (ptr : ℕ) (fs : Tree) (root : Str) (arch : BitVec 32)
    (name path : Str) (e : Entry) : Prop where
  wanted : e.wanted arch = true
  key : name <+: textAt img (ptr + e.key.toNat)
  value : pathResolve fs root (textAt img (ptr + e.value.toNat)) = some path

/-- **A lookup is sound and complete.**  What it leaves in a slot is where an entry leads that the
name of the slot begins; and an entry leaves something in the first slot whose name begins it. -/
theorem ldcacheResolve_selects {elf : Str → Bool} {strdup : ℕ → ℕ → Bool} {libs : List Str}
    {paths : List (Option Str)}
    (h : ldcacheResolve img ptr ⟨fs, root, selectLibraries elf root, strdup⟩ arch libs
      = .ok paths) :
    (∀ (j : ℕ) path, paths[j]? = some (some path) → ∃ lib, libs[j]? = some lib
        ∧ ∃ i e, Listed img ptr i e ∧ e.Supplies img ptr fs root arch lib path)
      ∧ ∀ i e, Listed img ptr i e → e.wanted arch = true → ∀ (j : ℕ) lib, libs[j]? = some lib →
        lib <+: textAt img (ptr + e.key.toNat) →
        (∀ k < j, ∀ lib', libs[k]? = some lib' → ¬ lib' <+: textAt img (ptr + e.key.toNat)) →
        ∃ path, paths[j]? = some (some path) := by
  obtain ⟨hpaths, hleads⟩ := ldcacheResolve_ok (follows_selectLibraries elf root) h
  dsimp only at hpaths hleads
  constructor
  · intro j path hpath
    rw [hpaths] at hpath
    obtain ⟨l, hl, hlpath, lib, hj, hbegins⟩ := Cascade.exists_of_pushAll hpath
    obtain ⟨i, e, hlisted, hw, rfl⟩ := mem_libraries.mp hl
    have hres := hleads i e hlisted hw ⟨lib, List.mem_of_getElem? hj, hbegins⟩
    rw [hlpath] at hres
    exact ⟨lib, hj, i, e, hlisted, hw, List.isPrefixOf_iff_prefix.mp hbegins,
      pathResolve_of_pathResolveAt hres⟩
  · intro i e hlisted hw j lib hj hbegins hfirst
    have hmem : library img ptr fs root e ∈ libraries img ptr fs root arch :=
      mem_libraries.mpr ⟨i, e, hlisted, hw, rfl⟩
    have hsome : ((Cascade.pushAll keepsVendor begins libs
        (libraries img ptr fs root arch))[j]?.join).isSome :=
      Cascade.isSome_pushAll hmem hj (List.isPrefixOf_iff_prefix.mpr hbegins) fun k hk lib' hlib' =>
        Bool.eq_false_iff.mpr fun hb => hfirst k hk lib' hlib' (List.isPrefixOf_iff_prefix.mp hb)
    rw [← hpaths] at hsome
    obtain ⟨path, hpath⟩ := Option.isSome_iff_exists.mp hsome
    exact ⟨path, Option.join_eq_some_iff.mp hpath⟩

/-! ### A cache made of libraries -/

/-- Four bytes, little-endian. -/
def le32 (n : BitVec 32) : Image :=
  [n.setWidth 8, (n >>> 8).setWidth 8, (n >>> 16).setWidth 8, (n >>> 24).setWidth 8]

/-- The bytes of a string. -/
def bytesOf (s : Str) : Image := s.map fun c => BitVec.ofNat 8 c.toNat

/-- The entries of some keys and values, and the strings they refer to from an offset on. -/
def tableOf (flags : BitVec 32) : ℕ → List (Str × Str) → Image × Image
  | _, [] => ([], [])
  | off, (key, value) :: found =>
    let keyBytes := bytesOf key ++ [0]
    let valueBytes := bytesOf value ++ [0]
    let (entries, strings) := tableOf flags (off + keyBytes.length + valueBytes.length) found
    (le32 flags ++ le32 (BitVec.ofNat 32 off) ++ le32 (BitVec.ofNat 32 (off + keyBytes.length))
        ++ List.replicate 12 0 ++ entries,
      keyBytes ++ valueBytes ++ strings)

/-- A cache with some keys and values. -/
def cacheOf (flags : BitVec 32) (found : List (Str × Str)) : Image :=
  let (entries, strings) := tableOf flags (sizeofHeader6 + found.length * sizeofEntry6) found
  bytesOf (MAGIC_LIBC6 ++ MAGIC_VERSION) ++ le32 (BitVec.ofNat 32 found.length)
    ++ List.replicate 24 0 ++ entries ++ strings

/-- `LD_X8664_LIB64`. -/
def LD_X8664_LIB64 : BitVec 32 := 0x0300

/-- `LD_I386_LIB32`. -/
def LD_I386_LIB32 : BitVec 32 := 0

/-- Directories and the files in them. -/
def treeNodes (dirs : List String) (files : List (String × String)) : List (Loc × Inode) :=
  dirs.map (fun dir => (components dir.toList, { mode := ⟨.dir, 0x1ed⟩ }))
    ++ files.map fun (file, target) =>
      (components file.toList,
        if target = "" then { mode := ⟨.reg, 0x1a4⟩ }
        else { mode := ⟨.lnk, 0x1ff⟩, size := target.length, target := target.toList })

/-- The directories of the system's and of the vendor's libraries, and the libraries `libEGL` and
`libva` in them. -/
def libraryNodes : List (Loc × Inode) :=
  treeNodes ["/", "/usr", "/usr/lib", "/usr/lib/x86_64-linux-gnu", "/usr/local", "/usr/local/lib",
      "/opt", "/opt/xdxgpu", "/opt/xdxgpu/lib", "/opt/xdxgpu/lib/x86_64-linux-gnu"]
    [("/opt/xdxgpu/lib/x86_64-linux-gnu/libEGL.so.1", ""), ("/usr/local/lib/libEGL.so.1", ""),
      ("/usr/lib/x86_64-linux-gnu/libEGL.so.1", ""), ("/usr/lib/libva.so.2", ""),
      ("/usr/lib/libva.so", "libva.so.2")]

theorem wellFormed_libraryNodes : Tree.wellFormed libraryNodes = true := by decide +kernel

/-- A library in both directories. -/
def libraryTree : Tree := .ofNodes libraryNodes wellFormed_libraryNodes

/-- `libva.so` is a link to `libva.so.2`. -/
def vaCache : Image := cacheOf (LD_X8664_LIB64 ||| LD_ELF)
  [("libva.so.2".toList, "/usr/lib/libva.so.2".toList),
    ("libva.so".toList, "/usr/lib/libva.so".toList)]

/-- `libva.so` stands twice in the list. -/
theorem ldcacheResolve_vaCache :
    ldcacheResolve vaCache 0 ⟨libraryTree, ['/'], selectLibraries (fun _ => true) ['/'],
        fun _ _ => true⟩ LD_X8664_LIB64 ["libva.so".toList, "libdrm.so".toList, "libva.so".toList]
      = .ok [some "/usr/lib/libva.so.2".toList, none, some "/usr/lib/libva.so.2".toList] := by
  decide +kernel

/-- The first place of `libva.so` has a library of the cache. -/
theorem ldcacheResolve_selects_libva : ∃ lib,
    ["libva.so".toList, "libdrm.so".toList, "libva.so".toList][0]? = some lib
      ∧ ∃ i e, Listed vaCache 0 i e
        ∧ e.Supplies vaCache 0 libraryTree ['/'] LD_X8664_LIB64 lib "/usr/lib/libva.so.2".toList :=
  (ldcacheResolve_selects ldcacheResolve_vaCache).1 0 _ rfl

end Found

/-! ## The choice among the paths of a name -/

/-- The last path outside of the system directory if it is the vendor's, and the last path
otherwise. -/
def vendorChoice (paths : List Str) : Option Str :=
  ((paths.filter (!strHasPrefix · systemDir)).getLast?.filter (strHasPrefix · vendorDir)).or
    paths.getLast?

/-- The first path of the subsystem, and the last path if there is none. -/
def wslChoice (paths : List Str) : Option Str := (paths.find? isWsl).or paths.getLast?

/-- A path of the vendor's is outside of the system directory. -/
theorem not_system_of_vendor {path : Str} (h : strHasPrefix path vendorDir = true) :
    strHasPrefix path systemDir = false := by
  obtain ⟨t, rfl⟩ := List.isPrefixOf_iff_prefix.mp h
  rfl

theorem vendorChoice_concat_system (paths : List Str) {path : Str}
    (h : strHasPrefix path systemDir = true) :
    vendorChoice (paths ++ [path])
      = (((paths.filter (!strHasPrefix · systemDir)).getLast?.filter
          (strHasPrefix · vendorDir)).or (some path)) := by
  rw [vendorChoice, List.filter_append, List.getLast?_concat]
  simp [h]

theorem vendorChoice_concat_other (paths : List Str) {path : Str}
    (h : strHasPrefix path systemDir = false) : vendorChoice (paths ++ [path]) = some path := by
  have hfilter : [path].filter (!strHasPrefix · systemDir) = [path] := by simp [h]
  rw [vendorChoice, List.filter_append, hfilter, List.getLast?_concat, List.getLast?_concat,
    Option.filter_some]
  split <;> rfl

/-- Unless the vendor's path is the last outside of the system directory, the last path is not the
vendor's. -/
theorem not_vendor_getLast? {paths : List Str} {path : Str}
    (h : (paths.filter (!strHasPrefix · systemDir)).getLast?.filter (strHasPrefix · vendorDir)
      = none)
    (hlast : paths.getLast? = some path) : strHasPrefix path vendorDir = false := by
  rw [← Bool.not_eq_true]
  intro hv
  obtain ⟨init, rfl⟩ := List.getLast?_eq_some_iff.mp hlast
  have hfilter : [path].filter (!strHasPrefix · systemDir) = [path] := by
    simp [not_system_of_vendor hv]
  rw [List.filter_append, hfilter, List.getLast?_concat, Option.filter_some, if_pos hv] at h
  cases h

/-- **What a slot holds when the vendor's stays.** -/
theorem holds_vendorChoice : Cascade.Holds keepsVendor vendorChoice where
  nil := rfl
  concat paths path := by
    by_cases hsys : strHasPrefix path systemDir = true
    · rw [vendorChoice_concat_system paths hsys]
      cases hv : (paths.filter (!strHasPrefix · systemDir)).getLast?.filter
          (strHasPrefix · vendorDir) with
      | some held =>
        have hheld := (Option.filter_eq_some_iff.mp hv).2
        have hchoice : vendorChoice paths = some held := by rw [vendorChoice, hv, Option.some_or]
        have hkeep : keepsVendor held path = true := by rw [keepsVendor, hheld, hsys, Bool.and_self]
        rw [hchoice, Cascade.offer_of_keeps hkeep, ite_self, Option.some_or]
      | none =>
        have hchoice : vendorChoice paths = paths.getLast? := by
          rw [vendorChoice, hv, Option.none_or]
        rw [hchoice, Option.none_or, Cascade.offer_of_not_keeps]
        · split
          · next hlast => exact hlast.symm
          · rfl
        · intro held hlast
          rw [keepsVendor, not_vendor_getLast? hv hlast, Bool.false_and]
    · have hsys := Bool.eq_false_iff.mpr hsys
      rw [vendorChoice_concat_other paths hsys, Cascade.offer_of_not_keeps]
      · split
        · next hchoice => exact hchoice.symm
        · rfl
      · intro held _
        rw [keepsVendor, hsys, Bool.and_false]

/-- **What a slot holds when a library of the subsystem stays.** -/
theorem holds_wslChoice : Cascade.Holds keepsWsl wslChoice where
  nil := rfl
  concat paths path := by
    rw [wslChoice, List.find?_append, List.getLast?_concat]
    cases hold : paths.find? isWsl with
    | some held =>
      have hchoice : wslChoice paths = some held := by rw [wslChoice, hold, Option.some_or]
      have hwsl : isWsl held = true := List.find?_some hold
      have hkeep : keepsWsl held path = true := hwsl
      rw [hchoice, Cascade.offer_of_keeps hkeep, ite_self, Option.some_or, Option.some_or]
    | none =>
      have hchoice : wslChoice paths = paths.getLast? := by rw [wslChoice, hold, Option.none_or]
      have hlone : ([path].find? isWsl).or (some path) = some path := by
        rw [List.find?_singleton]
        split <;> rfl
      rw [hchoice, Option.none_or, hlone, Cascade.offer_of_not_keeps]
      · split
        · next hlast => exact hlast.symm
        · rfl
      · intro held hlast
        exact Bool.eq_false_iff.mpr (List.find?_eq_none.mp hold held (List.mem_of_getLast? hlast))

/-! ## The names that are looked for -/

/-- The names in `lookup_libraries`. -/
def libraryNames (dxcore : Bool) : List Str :=
  utilityLibs ++ computeLibs ++ videoLibs ++ graphicsLibs ++ (if dxcore then dxcoreLibs else [])

theorem libraryNames_subset (dxcore : Bool) : libraryNames dxcore ⊆ libraryNames true := by
  intro name hname
  cases dxcore with
  | true => exact hname
  | false =>
    rw [libraryNames, if_neg Bool.false_ne_true, List.append_nil] at hname
    exact List.mem_append_left dxcoreLibs hname

/-- No name begins another. -/
theorem prefixFree_libraryNames : ∀ name ∈ libraryNames true, ∀ name' ∈ libraryNames true,
    name <+: name' → name = name' := by decide +kernel

/-- A key begins with one name. -/
theorem begins_unique {dxcore : Bool} {key name name' : Str} (hname : name ∈ libraryNames dxcore)
    (hname' : name' ∈ libraryNames dxcore) (h : begins key name = true)
    (h' : begins key name' = true) : name = name' := by
  have hpre := List.isPrefixOf_iff_prefix.mp h
  have hpre' := List.isPrefixOf_iff_prefix.mp h'
  have hmem := libraryNames_subset dxcore hname
  have hmem' := libraryNames_subset dxcore hname'
  obtain hle | hle := List.prefix_or_prefix_of_prefix hpre hpre'
  · exact prefixFree_libraryNames name hmem name' hmem' hle
  · exact (prefixFree_libraryNames name' hmem' name hmem hle).symm

/-- Where the libraries of a name lead, in the order of the cache. -/
def pathsOf (name : Str) (found : List (Str × Str)) : List Str :=
  (found.filter (begins ·.1 name)).map (·.2)

/-- The paths place `j` has the choice among: those of its name that the places before it passed
on. -/
def offers (choose : List Str → Option Str) (names : List Str) (found : List (Str × Str)) (j : ℕ)
    (name : Str) : List Str :=
  (Cascade.repeats choose)^[(names.take j).countP (· = name)] (pathsOf name found)

/-- **What a place holds after a lookup.** -/
theorem getElem?_ldcacheResolve {img : Image} {ptr : ℕ} {env : Env} {arch : BitVec 32}
    {dxcore : Bool}
    {keeps : Str → Str → Bool} {choose : List Str → Option Str} (hsel : Follows env.select keeps)
    (hchoose : Cascade.Holds keeps choose) {paths : List (Option Str)}
    (h : ldcacheResolve img ptr env arch (libraryNames dxcore) = .ok paths) {j : ℕ} {name : Str}
    (hj : (libraryNames dxcore)[j]? = some name) :
    paths[j]? = some (choose (offers choose (libraryNames dxcore)
      (libraries img ptr env.fs env.root arch) j name)) := by
  rw [(ldcacheResolve_ok hsel h).1]
  exact Cascade.slot_eq hchoose
    (fun t _ l hl l' hl' hbegins hbegins' => begins_unique hl hl' hbegins hbegins') hj

/-- After a lookup the paths of a name are those its libraries supply. -/
theorem mem_pathsOf_iff {img : Image} {ptr : ℕ} {env : Env} {arch : BitVec 32}
    {keeps : Str → Str → Bool} {names : List Str} (hsel : Follows env.select keeps)
    {paths : List (Option Str)} (h : ldcacheResolve img ptr env arch names = .ok paths) {name : Str}
    (hname : name ∈ names) (path : Str) :
    path ∈ pathsOf name (libraries img ptr env.fs env.root arch)
      ↔ ∃ i e, Listed img ptr i e ∧ e.Supplies img ptr env.fs env.root arch name path := by
  have hleads := (ldcacheResolve_ok hsel h).2
  constructor
  · intro hmem
    obtain ⟨l, hl, rfl⟩ := List.mem_map.mp hmem
    obtain ⟨hfound, hbegins⟩ := List.mem_filter.mp hl
    obtain ⟨i, e, hlisted, hw, rfl⟩ := mem_libraries.mp hfound
    exact ⟨i, e, hlisted, hw, List.isPrefixOf_iff_prefix.mp hbegins,
      pathResolve_of_pathResolveAt (hleads i e hlisted hw ⟨name, hname, hbegins⟩)⟩
  · rintro ⟨i, e, hlisted, hw, hkey, hvalue⟩
    have hbegins : begins (library img ptr env.fs env.root e).1 name = true :=
      List.isPrefixOf_iff_prefix.mpr hkey
    have hres := pathResolve_of_pathResolveAt (hleads i e hlisted hw ⟨name, hname, hbegins⟩)
    have hpath : (library img ptr env.fs env.root e).2 = path :=
      Option.some.inj (hres.symm.trans hvalue)
    exact List.mem_map.mpr ⟨library img ptr env.fs env.root e,
      List.mem_filter.mpr ⟨mem_libraries.mpr ⟨i, e, hlisted, hw, rfl⟩, hbegins⟩, hpath⟩

end Ldcache
