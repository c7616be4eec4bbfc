import XdxContainer.Ldcache.Libraries

/-!
# Ldcache/Lookup — the vendor's libraries, and every library once

    /opt/xdxgpu/…  ──holds its place against──▸  /usr/lib/x86_64-linux-gnu/…
    /opt/xdxgpu/…  ──gives its place to──▸  any other directory  ──gives it to──▸  /usr/lib/…

A place is not held for the vendor once a third directory had it, and a name that stands twice in
the list has a second place for the paths its first place had.  So the order of the cache decides
whether the vendor's library is found, and a second name for one file whether it is listed twice.

* `vendorWins_iff` — when the system's library is not found in place of the vendor's.
* `listedOnce_iff` — when no library is listed twice.
-/

open Paths Fs Mount

namespace Ldcache

/-! ## The vendor's libraries -/

/-- The path is one of something in a directory. -/
def Under (dir path : Str) : Prop := dir ++ ['/'] <+: path

instance (dir path : Str) : Decidable (Under dir path) :=
  inferInstanceAs (Decidable (dir ++ ['/'] <+: path))

/-- The vendor's path is the last one outside of the system directory. -/
def VendorLast (paths : List Str) : Prop :=
  ∃ path, (paths.filter (!strHasPrefix · systemDir)).getLast? = some path
    ∧ strHasPrefix path vendorDir = true

/-- **When a path of the system is chosen.** -/
theorem vendorChoice_system_iff {paths : List Str} {path : Str} (h : Under systemDir path) :
    vendorChoice paths = some path ↔ paths.getLast? = some path ∧ ¬VendorLast paths := by
  have hsys : strHasPrefix path systemDir = true :=
    List.isPrefixOf_iff_prefix.mpr ((List.prefix_append systemDir ['/']).trans h)
  cases hv : (paths.filter (!strHasPrefix · systemDir)).getLast?.filter
      (strHasPrefix · vendorDir) with
  | some held =>
    have hlast : VendorLast paths := ⟨held, Option.filter_eq_some_iff.mp hv⟩
    have hchoice : vendorChoice paths = some held := by rw [vendorChoice, hv, Option.some_or]
    rw [hchoice]
    refine iff_of_false ?_ fun hboth => hboth.2 hlast
    intro heq
    obtain rfl := Option.some.inj heq
    have hheld := not_system_of_vendor (Option.filter_eq_some_iff.mp hv).2
    exact Bool.false_ne_true (hheld.symm.trans hsys)
  | none =>
    have hchoice : vendorChoice paths = paths.getLast? := by rw [vendorChoice, hv, Option.none_or]
    rw [hchoice]
    refine (and_iff_left ?_).symm
    rintro ⟨held, hheld⟩
    have hsome : (paths.filter (!strHasPrefix · systemDir)).getLast?.filter
        (strHasPrefix · vendorDir) = some held := Option.filter_eq_some_iff.mpr hheld
    rw [hv] at hsome
    cases hsome

/-- **The vendor's libraries win**: where the vendor supplies a library of a name, no place of the
name has one of the system. -/
def VendorWins (img : Image) (ptr : ℕ) (fs : Tree) (root : Str) (arch : BitVec 32)
    (names : List Str) (paths : List (Option Str)) : Prop :=
  ∀ name, (∃ i e path, Listed img ptr i e ∧ e.Supplies img ptr fs root arch name path
      ∧ Under vendorDir path) →
    ∀ (j : ℕ) path, names[j]? = some name → paths[j]? = some (some path) → ¬Under systemDir path

/-- **When the vendor's libraries win**: of the paths a place has the choice among, the last is not
one of the system, or the last one outside of the system directory is the vendor's. -/
theorem vendorWins_iff {img : Image} {ptr : ℕ} {fs : Tree} {root : Str} {elf : Str → Bool}
    {strdup : ℕ → ℕ → Bool} {arch : BitVec 32} {dxcore : Bool} {paths : List (Option Str)}
    (h : ldcacheResolve img ptr ⟨fs, root, selectLibraries elf root, strdup⟩ arch
      (libraryNames dxcore) = .ok paths) :
    VendorWins img ptr fs root arch (libraryNames dxcore) paths
      ↔ ∀ (j : ℕ) name, (libraryNames dxcore)[j]? = some name →
        (∃ path ∈ pathsOf name (libraries img ptr fs root arch), Under vendorDir path) →
        (∀ path, (offers vendorChoice (libraryNames dxcore) (libraries img ptr fs root arch) j
            name).getLast? = some path → ¬Under systemDir path)
          ∨ VendorLast (offers vendorChoice (libraryNames dxcore) (libraries img ptr fs root arch) j
            name) := by
  have hsel := follows_selectLibraries elf root
  have hsupplies : ∀ {j : ℕ} {name : Str}, (libraryNames dxcore)[j]? = some name →
      ((∃ path ∈ pathsOf name (libraries img ptr fs root arch), Under vendorDir path)
        ↔ ∃ i e path, Listed img ptr i e ∧ e.Supplies img ptr fs root arch name path
          ∧ Under vendorDir path) := by
    intro j name hj
    have hmem : ∀ path, path ∈ pathsOf name (libraries img ptr fs root arch)
        ↔ ∃ i e, Listed img ptr i e ∧ e.Supplies img ptr fs root arch name path :=
      mem_pathsOf_iff hsel h (List.mem_of_getElem? hj)
    constructor
    · rintro ⟨path, hpath, hunder⟩
      obtain ⟨i, e, hlisted, hsupplies⟩ := (hmem path).mp hpath
      exact ⟨i, e, path, hlisted, hsupplies, hunder⟩
    · rintro ⟨i, e, path, hlisted, hsupplies, hunder⟩
      exact ⟨path, (hmem path).mpr ⟨i, e, hlisted, hsupplies⟩, hunder⟩
  have hplace := fun {j : ℕ} {name : Str} (hj : (libraryNames dxcore)[j]? = some name) =>
    getElem?_ldcacheResolve hsel holds_vendorChoice h hj
  dsimp only at hplace
  constructor
  · intro hwins j name hj hvendor
    by_contra hnone
    push Not at hnone
    obtain ⟨⟨path, hlast, hsys⟩, hno⟩ := hnone
    have hheld := (hplace hj).trans
      (congrArg some ((vendorChoice_system_iff hsys).mpr ⟨hlast, hno⟩))
    exact hwins name ((hsupplies hj).mp hvendor) j path hj hheld hsys
  · intro hcond name hvendor j path hj hpath hsys
    have hchoice := Option.some.inj ((hplace hj).symm.trans hpath)
    obtain ⟨hlast, hno⟩ := (vendorChoice_system_iff hsys).mp hchoice
    obtain hok | hok := hcond j name hj ((hsupplies hj).mpr hvendor)
    · exact hok path hlast hsys
    · exact hno hok

/-! ### The order of three directories -/

/-- A cache with `libEGL.so.1` in some directories. -/
def eglCache (dirs : List String) : Image :=
  cacheOf (LD_X8664_LIB64 ||| LD_ELF)
    (dirs.map fun dir => ("libEGL.so.1".toList, dir.toList ++ "/libEGL.so.1".toList))

/-- The names, with one path. -/
def eglPaths (dir : String) : List (Option Str) :=
  (libraryNames false).map fun name =>
    if name = "libEGL.so".toList then some (dir.toList ++ "/libEGL.so.1".toList) else none

/-- Files that are all opened, and memory for everything. -/
def eglEnv : Env := ⟨libraryTree, ['/'], selectLibraries (fun _ => true) ['/'], fun _ _ => true⟩

/-- The vendor's directory stands between the two others. -/
theorem ldcacheResolve_vendorBetween :
    ldcacheResolve (eglCache ["/usr/local/lib", "/opt/xdxgpu/lib/x86_64-linux-gnu",
        "/usr/lib/x86_64-linux-gnu"]) 0 eglEnv LD_X8664_LIB64 (libraryNames false)
      = .ok (eglPaths "/opt/xdxgpu/lib/x86_64-linux-gnu") := by decide +kernel

/-- The vendor's directory stands before the two others. -/
theorem ldcacheResolve_vendorFirst :
    ldcacheResolve (eglCache ["/opt/xdxgpu/lib/x86_64-linux-gnu", "/usr/local/lib",
        "/usr/lib/x86_64-linux-gnu"]) 0 eglEnv LD_X8664_LIB64 (libraryNames false)
      = .ok (eglPaths "/usr/lib/x86_64-linux-gnu") := by decide +kernel

/-- At every place with a path the vendor's is the last outside of the system directory. -/
theorem vendorLast_vendorBetween : ∀ x ∈ (libraryNames false).zipIdx,
    let paths := offers vendorChoice (libraryNames false) (libraries (eglCache ["/usr/local/lib",
      "/opt/xdxgpu/lib/x86_64-linux-gnu", "/usr/lib/x86_64-linux-gnu"]) 0 libraryTree ['/']
      LD_X8664_LIB64) x.2 x.1
    paths = [] ∨ ((paths.filter (!strHasPrefix · systemDir)).getLast?.any
      (strHasPrefix · vendorDir)) = true := by decide +kernel

/-- Between the two others the vendor's directory wins. -/
theorem vendorWins_vendorBetween :
    VendorWins (eglCache ["/usr/local/lib", "/opt/xdxgpu/lib/x86_64-linux-gnu",
        "/usr/lib/x86_64-linux-gnu"]) 0 libraryTree ['/'] LD_X8664_LIB64 (libraryNames false)
      (eglPaths "/opt/xdxgpu/lib/x86_64-linux-gnu") := by
  refine (vendorWins_iff ldcacheResolve_vendorBetween).mpr fun j name hj _ => ?_
  obtain hnil | hvendor :=
    vendorLast_vendorBetween (name, j) (List.mk_mem_zipIdx_iff_getElem?.mpr hj)
  · left
    intro path hlast
    rw [hnil] at hlast
    cases hlast
  · exact .inr ((Option.any_eq_true _ _).mp hvendor)

/-- The vendor's library comes first, one of a third directory takes its place, and the system's
takes that. -/
theorem not_vendorWins_vendorFirst : ¬∀ (img : Image) (ptr : ℕ) (fs : Tree) (root : Str)
    (elf : Str → Bool) (strdup : ℕ → ℕ → Bool) (arch : BitVec 32) (dxcore : Bool) paths,
    ldcacheResolve img ptr ⟨fs, root, selectLibraries elf root, strdup⟩ arch (libraryNames dxcore)
      = .ok paths → VendorWins img ptr fs root arch (libraryNames dxcore) paths := by
  intro hall
  have hrun := ldcacheResolve_vendorFirst
  have hname : "libEGL.so".toList ∈ libraryNames false := by decide
  obtain ⟨i, e, hlisted, hsupplies⟩ :=
    (mem_pathsOf_iff (follows_selectLibraries (fun _ => true) ['/']) hrun hname
      "/opt/xdxgpu/lib/x86_64-linux-gnu/libEGL.so.1".toList).mp (by decide +kernel)
  exact hall _ 0 libraryTree ['/'] _ _ _ false _ hrun _ ⟨i, e, _, hlisted, hsupplies, by decide⟩ 14
    "/usr/lib/x86_64-linux-gnu/libEGL.so.1".toList (by decide) (by decide) (by decide)

/-! ## Every library once -/

/-- What `lookup_libraries` is given besides the cache: the root, whether `elftool_open` opens a
file, and where there is memory. -/
structure Host where
  fs : Tree
  root : Str
  elf : Str → Bool
  arrayNew : (arch : BitVec 32) → Bool
  strdup : (arch : BitVec 32) → (i j : ℕ) → Bool

/-- What `ldcache_resolve` is given. -/
def Host.env (host : Host) (dxcore : Bool) (arch : BitVec 32) : Env where
  fs := host.fs
  root := host.root
  select := if dxcore then selectWslLibraries else selectLibraries host.elf host.root
  strdup := host.strdup arch

/-- `array_new` and `ldcache_resolve` for an architecture. -/
def resolveArch (img : Image) (ptr : ℕ) (host : Host) (dxcore : Bool) (names : List Str)
    (arch : BitVec 32) : Except Stop (List (Option Str)) :=
  if host.arrayNew arch then ldcacheResolve img ptr (host.env dxcore arch) arch names
  else .error .failed

/-- `find_library_paths`, on the bytes of the cache: what is in `info->libs` and `info->libs32`. -/
def findLibraryPaths (img : Image) (host : Host) (dxcore : Bool) (names : List Str)
    (arch arch32 : BitVec 32) : Except Stop (List (Option Str) × List (Option Str)) := do
  let ptr ← ldcacheOpen img
  let libs ← resolveArch img ptr host dxcore names arch
  let libs32 ← resolveArch img ptr host dxcore names arch32
  return (libs, libs32)

/-- An array that `array_pack` went over, and the number of its entries. -/
abbrev Packed := Option (Slots Str × ℕ)

/-- `lookup_libraries`. -/
def lookupLibraries (img : Image) (host : Host) (dxcore : Bool) (arch arch32 : BitVec 32) :
    Except Stop (Packed × Packed) := do
  let (libs, libs32) ← findLibraryPaths img host dxcore (libraryNames dxcore) arch arch32
  return (Slots.arrayPack libs libs.length, Slots.arrayPack libs32 libs32.length)

/-- No path is twice among the entries of the array. -/
def ListedOnce (packed : Packed) : Prop := ∃ arr n, packed = some (arr, n) ∧ (arr.take n).Nodup

/-- The path is the choice for a place of the name: for its first, or, where the name stands twice,
for its second among what the first passed on. -/
def Takes (choose : List Str → Option Str) (names : List Str) (found : List (Str × Str))
    (name path : Str) : Prop :=
  choose (pathsOf name found) = some path
    ∨ 1 < names.countP (· = name) ∧ choose (Cascade.repeats choose (pathsOf name found)) = some path

/-- **No path is the choice for two places.** -/
structure ChosenOnce (choose : List Str → Option Str) (names : List Str)
    (found : List (Str × Str)) : Prop where
  /-- A name that stands twice: of its paths and of what is passed on not the same is chosen. -/
  twice : ∀ name, 1 < names.countP (· = name) → ∀ path, choose (pathsOf name found) = some path →
    choose (Cascade.repeats choose (pathsOf name found)) ≠ some path
  /-- Two names whose entries lead to one file: one of them does not take it. -/
  shared : ∀ name ∈ names, ∀ name' ∈ names, name ≠ name' → ∀ path ∈ pathsOf name found,
    path ∈ pathsOf name' found →
      ¬Takes choose names found name path ∨ ¬Takes choose names found name' path

/-- The choice there is. -/
def choiceOf (dxcore : Bool) : List Str → Option Str := if dxcore then wslChoice else vendorChoice

/-- What a lookup for an architecture leaves. -/
theorem getElem?_resolveArch {img : Image} {ptr : ℕ} {host : Host} {dxcore : Bool}
    {arch : BitVec 32} {paths : List (Option Str)}
    (h : resolveArch img ptr host dxcore (libraryNames dxcore) arch = .ok paths) :
    paths.length = (libraryNames dxcore).length
      ∧ ∀ {j : ℕ} {name : Str}, (libraryNames dxcore)[j]? = some name →
        paths[j]? = some (choiceOf dxcore (offers (choiceOf dxcore) (libraryNames dxcore)
          (libraries img ptr host.fs host.root arch) j name)) := by
  rw [resolveArch] at h
  split at h
  · cases dxcore with
    | true =>
      exact ⟨(congrArg List.length (ldcacheResolve_ok follows_selectWslLibraries h).1).trans
          (Cascade.length_pushAll _),
        fun hj => getElem?_ldcacheResolve follows_selectWslLibraries holds_wslChoice h hj⟩
    | false =>
      have hsel := follows_selectLibraries host.elf host.root
      exact ⟨(congrArg List.length (ldcacheResolve_ok hsel h).1).trans (Cascade.length_pushAll _),
        fun hj => getElem?_ldcacheResolve hsel holds_vendorChoice h hj⟩
  · cases h

/-- No name stands more than twice in the list. -/
theorem count_libraryNames_le (dxcore : Bool) (name : Str) :
    (libraryNames dxcore).countP (· = name) ≤ 2 := by
  have hall : ∀ name ∈ libraryNames true, (libraryNames true).countP (· = name) ≤ 2 := by
    decide +kernel
  have hsub : (libraryNames dxcore).Sublist (libraryNames true) := by
    cases dxcore with
    | true => exact List.Sublist.refl _
    | false => exact (List.append_sublist_append_left _).mpr (List.nil_sublist dxcoreLibs)
  by_cases hname : name ∈ libraryNames true
  · exact Nat.le_trans hsub.countP_le (hall name hname)
  · refine le_of_eq_of_le (List.countP_eq_zero.mpr fun l hl => ?_) (Nat.zero_le 2)
    exact fun heq => hname (of_decide_eq_true heq ▸ hsub.subset hl)

section Places

variable {keeps : Str → Str → Bool} {choose : List Str → Option Str} {names : List Str}
  {found : List (Str × Str)} {name path : Str} {j : ℕ}

theorem offers_zero (h : (names.take j).countP (· = name) = 0) :
    offers choose names found j name = pathsOf name found := by
  rw [offers, h, Function.iterate_zero_apply]

theorem offers_one (h : (names.take j).countP (· = name) = 1) :
    offers choose names found j name = Cascade.repeats choose (pathsOf name found) := by
  rw [offers, h, Function.iterate_one]

/-- For a name that stands twice at most, a path is taken when it is the choice for a place. -/
theorem takes_iff (htwice : names.countP (· = name) ≤ 2) (hname : name ∈ names) :
    Takes choose names found name path ↔ ∃ j : ℕ, names[j]? = some name
      ∧ choose (offers choose names found j name) = some path := by
  constructor
  · rintro (hfirst | ⟨hcount, hsecond⟩)
    · obtain ⟨j, hj, hzero⟩ := Cascade.exists_place
        (List.countP_pos_iff.mpr ⟨name, hname, decide_eq_true rfl⟩)
      exact ⟨j, hj, by rw [offers_zero hzero, hfirst]⟩
    · obtain ⟨j, hj, hone⟩ := Cascade.exists_place hcount
      exact ⟨j, hj, by rw [offers_one hone, hsecond]⟩
  · rintro ⟨j, hj, hpath⟩
    have hlt := Cascade.count_take_lt hj
    obtain hzero | hone : (names.take j).countP (· = name) = 0
        ∨ (names.take j).countP (· = name) = 1 := by omega
    · exact .inl (by rw [← offers_zero hzero, hpath])
    · exact .inr ⟨by omega, by rw [← offers_one hone, hpath]⟩

/-- What is taken for a name is one of its paths. -/
theorem Takes.mem (h : Cascade.Holds keeps choose) (htakes : Takes choose names found name path) :
    path ∈ pathsOf name found :=
  htakes.elim (fun hfirst => h.mem hfirst)
    fun hsecond => Cascade.repeats_subset _ (h.mem hsecond.2)

/-- **No path is the choice for two places**, told by the places. -/
theorem chosenOnce_iff (h : Cascade.Holds keeps choose)
    (htwice : ∀ name, names.countP (· = name) ≤ 2) :
    ChosenOnce choose names found ↔ ∀ (j j' : ℕ) name name' path, j ≠ j' →
      names[j]? = some name → names[j']? = some name' →
      choose (offers choose names found j name) = some path →
      choose (offers choose names found j' name') ≠ some path := by
  constructor
  · intro honce j j' name name' path hne hj hj' hpath hpath'
    by_cases hname : name = name'
    · subst hname
      -- the two places of the name
      wlog hlt : j < j' generalizing j j'
      · exact this j' j hne.symm hj' hpath' hj hpath (by omega)
      have hless := Cascade.count_take_lt_count_take hj hlt
      have hcount := Cascade.count_take_lt hj'
      have hle := htwice name
      rw [offers_zero (by omega)] at hpath
      rw [offers_one (by omega)] at hpath'
      exact honce.twice name (by omega) path hpath hpath'
    · have hmem := List.mem_of_getElem? hj
      have hmem' := List.mem_of_getElem? hj'
      have htakes := (takes_iff (htwice name) hmem).mpr ⟨j, hj, hpath⟩
      have htakes' := (takes_iff (htwice name') hmem').mpr ⟨j', hj', hpath'⟩
      exact (honce.shared name hmem name' hmem' hname path (htakes.mem h) (htakes'.mem h)).elim
        (absurd htakes) (absurd htakes')
  · intro hplaces
    refine ⟨fun name hcount path hfirst hsecond => ?_,
      fun name hname name' hname' hne path _ _ => ?_⟩
    · obtain ⟨j, hj, hzero⟩ := Cascade.exists_place (Nat.zero_lt_of_lt hcount)
      obtain ⟨j', hj', hone⟩ := Cascade.exists_place hcount
      refine hplaces j j' name name path ?_ hj hj' ((congrArg choose (offers_zero hzero)).trans
        hfirst) ((congrArg choose (offers_one hone)).trans hsecond)
      rintro rfl
      omega
    · rw [← not_and_or, takes_iff (htwice name) hname, takes_iff (htwice name') hname']
      rintro ⟨⟨j, hj, hpath⟩, j', hj', hpath'⟩
      refine hplaces j j' name name' path ?_ hj hj' hpath hpath'
      rintro rfl
      exact hne (Option.some.inj (hj.symm.trans hj'))

end Places

theorem holds_choiceOf (dxcore : Bool) : ∃ keeps, Cascade.Holds keeps (choiceOf dxcore) := by
  cases dxcore
  · exact ⟨keepsVendor, holds_vendorChoice⟩
  · exact ⟨keepsWsl, holds_wslChoice⟩

/-- One architecture's libraries are listed once when each is the choice for one place. -/
theorem listedOnce_resolveArch {img : Image} {ptr : ℕ} {host : Host} {dxcore : Bool}
    {arch : BitVec 32} {paths : List (Option Str)}
    (h : resolveArch img ptr host dxcore (libraryNames dxcore) arch = .ok paths) :
    ListedOnce (Slots.arrayPack paths paths.length)
      ↔ ChosenOnce (choiceOf dxcore) (libraryNames dxcore)
          (libraries img ptr host.fs host.root arch) := by
  obtain ⟨hlen, hplace⟩ := getElem?_resolveArch h
  obtain ⟨keeps, hholds⟩ := holds_choiceOf dxcore
  rw [ListedOnce, Slots.arrayPack_nodup_iff, chosenOnce_iff hholds (count_libraryNames_le dxcore)]
  constructor
  · intro hslots j j' name name' path hne hj hj' hpath hpath'
    exact hslots j j' path hne ((hplace hj).trans (congrArg some hpath))
      ((hplace hj').trans (congrArg some hpath'))
  · intro hchosen j j' path hne hj hj'
    have hname : ∀ {k : ℕ}, paths[k]? = some (some path) →
        ∃ name, (libraryNames dxcore)[k]? = some name := by
      intro k hk
      have hlt := (List.getElem?_eq_some_iff.mp hk).1
      exact ⟨_, List.getElem?_eq_getElem (hlen ▸ hlt)⟩
    obtain ⟨name, hjname⟩ := hname hj
    obtain ⟨name', hjname'⟩ := hname hj'
    exact hchosen j j' name name' path hne hjname hjname'
      (Option.some.inj ((hplace hjname).symm.trans hj))
      (Option.some.inj ((hplace hjname').symm.trans hj'))

/-- **When no library is listed twice**: for neither architecture a path is the choice for two
places, be it of one name or of two. -/
theorem listedOnce_iff {img : Image} {ptr : ℕ} (hopen : ldcacheOpen img = .ok ptr) {host : Host}
    {dxcore : Bool} {arch arch32 : BitVec 32} {info : Packed × Packed}
    (h : lookupLibraries img host dxcore arch arch32 = .ok info) :
    ListedOnce info.1 ∧ ListedOnce info.2
      ↔ ChosenOnce (choiceOf dxcore) (libraryNames dxcore)
          (libraries img ptr host.fs host.root arch)
        ∧ ChosenOnce (choiceOf dxcore) (libraryNames dxcore)
          (libraries img ptr host.fs host.root arch32) := by
  obtain ⟨⟨libs, libs32⟩, hfound, hinfo⟩ := Except.bind_eq_ok h
  obtain ⟨ptr', hptr, hfound⟩ := Except.bind_eq_ok hfound
  obtain rfl := Except.ok.inj (hopen.symm.trans hptr)
  obtain ⟨libs', hlibs, hfound⟩ := Except.bind_eq_ok hfound
  obtain ⟨libs32', hlibs32, hfound⟩ := Except.bind_eq_ok hfound
  obtain ⟨rfl, rfl⟩ := Prod.mk.inj (Except.ok.inj hfound)
  obtain rfl := Except.ok.inj hinfo
  exact and_congr (listedOnce_resolveArch hlibs) (listedOnce_resolveArch hlibs32)

/-- Files that are all opened, and memory for everything. -/
def libraryHost : Host where
  fs := libraryTree
  root := ['/']
  elf _ := true
  arrayNew _ := true
  strdup _ _ _ := true

/-- The entries of the arrays. -/
def entriesOf (info : Packed × Packed) : Option (List (Option Str)) × Option (List (Option Str)) :=
  (info.1.map fun p => p.1.take p.2, info.2.map fun p => p.1.take p.2)

theorem listedOnce_iff_nodup {packed : Packed} {entries : List (Option Str)}
    (h : packed.map (fun p => p.1.take p.2) = some entries) :
    ListedOnce packed ↔ entries.Nodup := by
  obtain ⟨⟨arr, n⟩, rfl, rfl⟩ := Option.map_eq_some_iff.mp h
  constructor
  · rintro ⟨arr', n', heq, hnodup⟩
    obtain ⟨rfl, rfl⟩ := Prod.mk.inj (Option.some.inj heq)
    exact hnodup
  · exact fun hnodup => ⟨arr, n, rfl, hnodup⟩

/-- A lookup whose entries are known. -/
theorem exists_lookup {img : Image} {host : Host} {arch arch32 : BitVec 32}
    {entries entries32 : List (Option Str)}
    (h : (lookupLibraries img host false arch arch32).toOption.map entriesOf
      = some (some entries, some entries32)) :
    ∃ info, lookupLibraries img host false arch arch32 = .ok info
      ∧ (ListedOnce info.1 ↔ entries.Nodup) ∧ (ListedOnce info.2 ↔ entries32.Nodup) := by
  obtain ⟨info, hinfo, hentries⟩ := Option.map_eq_some_iff.mp h
  obtain ⟨h64, h32⟩ := Prod.mk.inj hentries
  exact ⟨info, Except.toOption_eq_some hinfo, listedOnce_iff_nodup h64, listedOnce_iff_nodup h32⟩

/-- A host that has the vendor's `libva`, too. -/
def vaHost : Host :=
  { libraryHost with
    fs := .ofNodes (libraryNodes
      ++ treeNodes [] [("/opt/xdxgpu/lib/x86_64-linux-gnu/libva.so.2", "")]) (by decide +kernel) }

/-- A cache that has the system's `libva` under two keys, and then the vendor's. -/
def vaVendorCache : Image := cacheOf (LD_X8664_LIB64 ||| LD_ELF)
  [("libva.so.2".toList, "/usr/lib/libva.so.2".toList),
    ("libva.so".toList, "/usr/lib/libva.so".toList),
    ("libva.so.2".toList, "/opt/xdxgpu/lib/x86_64-linux-gnu/libva.so.2".toList)]

/-- **`libva.so` stands twice in the list**: the vendor's library takes the first place, and the
system's the second. -/
theorem chosenOnce_vaVendor :
    1 < (libraryNames false).countP (· = "libva.so".toList)
      ∧ Takes vendorChoice (libraryNames false)
        (libraries vaVendorCache 0 vaHost.fs ['/'] LD_X8664_LIB64) "libva.so".toList
        "/usr/lib/libva.so.2".toList
      ∧ ChosenOnce vendorChoice (libraryNames false)
        (libraries vaVendorCache 0 vaHost.fs ['/'] LD_X8664_LIB64)
      ∧ ChosenOnce vendorChoice (libraryNames false)
        (libraries vaVendorCache 0 vaHost.fs ['/'] LD_I386_LIB32) := by
  have hopen : ldcacheOpen vaVendorCache = .ok 0 := by decide +kernel
  have hentries : (lookupLibraries vaVendorCache vaHost false LD_X8664_LIB64
      LD_I386_LIB32).toOption.map entriesOf
        = some (some [some "/opt/xdxgpu/lib/x86_64-linux-gnu/libva.so.2".toList,
          some "/usr/lib/libva.so.2".toList], some []) := by decide +kernel
  obtain ⟨info, hinfo, h64, h32⟩ := exists_lookup hentries
  have hcount : 1 < (libraryNames false).countP (· = "libva.so".toList) := by decide +kernel
  have hsecond : vendorChoice (Cascade.repeats vendorChoice (pathsOf "libva.so".toList
      (libraries vaVendorCache 0 vaHost.fs ['/'] LD_X8664_LIB64)))
        = some "/usr/lib/libva.so.2".toList := by decide +kernel
  exact ⟨hcount, .inr ⟨hcount, hsecond⟩,
    (listedOnce_iff hopen hinfo).mp ⟨h64.mpr (by decide), h32.mpr (by decide)⟩⟩

/-- `libva.so` stands twice in the list, and the cache has it under two keys. -/
theorem not_listedOnce_va : ¬∀ (img : Image) (host : Host) (dxcore : Bool) (arch arch32 : BitVec 32)
    info, lookupLibraries img host dxcore arch arch32 = .ok info →
      ListedOnce info.1 ∧ ListedOnce info.2 := by
  intro hall
  have hentries : (lookupLibraries vaCache libraryHost false LD_X8664_LIB64
      LD_I386_LIB32).toOption.map entriesOf
        = some (some [some "/usr/lib/libva.so.2".toList, some "/usr/lib/libva.so.2".toList],
          some []) := by decide +kernel
  obtain ⟨info, hinfo, h64, -⟩ := exists_lookup hentries
  exact absurd (h64.mp (hall _ _ _ _ _ info hinfo).1) (by decide)

end Ldcache
