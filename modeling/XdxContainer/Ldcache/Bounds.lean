import XdxContainer.Ldcache.Format

/-!
# Ldcache/Bounds — when the reader stays inside the file

    headers   checked against the size of the file by `ldcache_open`
    entries   nlibs of them, wherever that leads
    strings   from key and value on, up to a NUL, wherever that leads

`StaysInside`: whatever libraries are looked for, and whatever the selector says, nothing outside of
the file is read.  `Contained` is the condition on the file that `staysInside_iff` finds for it: the
entries are inside and the strings of the ELF ones end inside.  A value that is never looked at need
not: the root cannot be opened, or an earlier entry that matches whenever this one does fails.
-/

open Paths Fs

namespace Ldcache

/-! ## The condition -/

/-- The string of the key. -/
def Entry.name (img : Image) (ptr : ℕ) (e : Entry) : Option Str :=
  cstring (img.drop (ptr + e.key.toNat))

/-- The string of the value. -/
def Entry.path (img : Image) (ptr : ℕ) (e : Entry) : Option Str :=
  cstring (img.drop (ptr + e.value.toNat))

/-- The entry is one of the table. -/
def Listed (img : Image) (ptr i : ℕ) (e : Entry) : Prop :=
  (∃ n, nlibsAt img ptr = .ok n ∧ i < n.toNat) ∧ entryAt img ptr i = .ok e

/-- The entry stops the reader whenever the name is looked for: its own name begins with it, and its
path does not resolve. -/
def Blocks (img : Image) (fs : Tree) (root : Str) (ptr : ℕ) (name : Str) (e : Entry) : Prop :=
  ∃ name' path, e.name img ptr = some name' ∧ name <+: name' ∧ e.path img ptr = some path
    ∧ pathResolve fs root path = none

/-- **What the file must contain.** -/
structure Contained (img : Image) (fs : Tree) (root : Str) (ptr : ℕ) : Prop where
  entries : ∀ n, nlibsAt img ptr = .ok n → ∀ i < n.toNat, ∃ e, entryAt img ptr i = .ok e
  names : ∀ {i e}, Listed img ptr i e → e.flags &&& LD_ELF ≠ 0 → ∃ name, e.name img ptr = some name
  paths : ∀ {i e name}, Listed img ptr i e → e.flags &&& LD_ELF ≠ 0 → e.name img ptr = some name →
    (∃ R, Resolve.openRoot fs root = .ok R) →
    (∃ path, e.path img ptr = some path)
      ∨ ∃ i' e', i' < i ∧ Listed img ptr i' e' ∧ e'.wanted (e.flags &&& LD_ARCH_MASK)
        ∧ Blocks img fs root ptr name e'

/-- **The reader stays inside the file.** -/
def StaysInside (img : Image) (fs : Tree) (root : Str) : Prop :=
  ldcacheOpen img ≠ .error .outside
  ∧ ∀ ptr, ldcacheOpen img = .ok ptr → ∀ arch libs select strdup,
    ldcacheResolve img ptr ⟨fs, root, select, strdup⟩ arch libs ≠ .error .outside

/-! ## Reads -/

section Reads

variable {img : Image} {off : ℕ}

theorem matchBytes_of_length {bs : Image} {cs : Str} (h : cs.length ≤ bs.length) :
    ∃ b, matchBytes bs cs = some b := by
  induction cs generalizing bs with
  | nil => exact ⟨true, by rw [matchBytes]⟩
  | cons c cs ih =>
    obtain ⟨b, bs, rfl⟩ := List.exists_cons_of_length_pos (Nat.lt_of_lt_of_le (Nat.succ_pos _) h)
    rw [matchBytes]
    split_ifs
    · exact ih (Nat.le_of_succ_le_succ h)
    · exact ⟨false, rfl⟩

/-- What matches is not longer than what is there. -/
theorem length_of_matchBytes {bs : Image} {cs : Str} (h : matchBytes bs cs = some true) :
    cs.length ≤ bs.length := by
  induction cs generalizing bs with
  | nil => exact Nat.zero_le _
  | cons c cs ih =>
    rcases bs with _ | ⟨b, bs⟩
    · cases h
    · rw [matchBytes] at h
      split_ifs at h
      · exact Nat.succ_le_succ (ih h)
      · cases h

/-- A string that ends is compared without leaving the file. -/
theorem matchBytes_of_cstring {bs : Image} {s : Str} (h : cstring bs = some s) (cs : Str) :
    matchBytes bs cs = some (cs.isPrefixOf s) := by
  induction bs generalizing s cs with
  | nil => cases h
  | cons b bs ih =>
    rcases cs with _ | ⟨c, cs⟩
    · rw [matchBytes, List.isPrefixOf_nil_left]
    · rw [cstring] at h
      split_ifs at h with hb
      · obtain rfl := Option.some.inj h
        simp [matchBytes, hb]
      · obtain ⟨t, ht, rfl⟩ := Option.map_eq_some_iff.mp h
        rw [matchBytes, List.isPrefixOf_cons_cons]
        by_cases hc : charOf b = c
        · rw [if_pos ⟨hb, hc⟩, ih ht, hc]
          simp
        · rw [if_neg fun h => hc h.2]
          simp [Ne.symm hc]

/-- A string that does not end is compared past the end of the file with a name that goes on. -/
theorem matchBytes_past {bs : Image} (h : cstring bs = none) (c : Char) (cs : Str) :
    matchBytes bs (bs.map charOf ++ c :: cs) = none := by
  induction bs with
  | nil => rfl
  | cons b bs ih =>
    rw [cstring] at h
    split_ifs at h with hb
    rw [List.map_cons, List.cons_append, matchBytes, if_pos ⟨hb, rfl⟩]
    exact ih (Option.map_eq_none_iff.mp h)

theorem strHasPrefixAt_of_length {pre : Str} (h : off + pre.length ≤ img.length) :
    ∃ b, strHasPrefixAt img off pre = .ok b := by
  have hlen : pre.length ≤ (img.drop off).length := by
    rw [List.length_drop]
    omega
  obtain ⟨b, hb⟩ := matchBytes_of_length hlen
  exact ⟨b, by rw [strHasPrefixAt, hb, inFile]⟩

/-- Four bytes of the file can be read. -/
theorem u32At_of_length (h : off + 4 ≤ img.length) : ∃ n, u32At img off = .ok n := by
  have hlen : 4 ≤ (img.drop off).length := by
    rw [List.length_drop]
    omega
  rw [u32At]
  match img.drop off, hlen with
  | a :: b :: c :: d :: _, _ => exact ⟨d ++ c ++ b ++ a, rfl⟩

end Reads

/-! ## The headers -/

section Headers

variable {img : Image} {ptr : ℕ}

/-- **Opening never leaves the file**: the size is checked first. -/
theorem openAt_ne_outside (img : Image) (ptr : ℕ) : openAt img ptr ≠ .error .outside := by
  rw [openAt]
  split_ifs with hsize
  · exact nofun
  · have hlen : ptr + 48 < img.length := Nat.lt_of_not_le hsize
    have h17 : MAGIC_LIBC6.length = 17 := by decide
    have h3 : MAGIC_VERSION.length = 3 := by decide
    obtain ⟨b, hb⟩ : ∃ b, strHasPrefixAt img ptr MAGIC_LIBC6 = .ok b :=
      strHasPrefixAt_of_length (by omega)
    obtain ⟨b', hb'⟩ : ∃ b, strHasPrefixAt img (ptr + MAGIC_LIBC6.length) MAGIC_VERSION = .ok b :=
      strHasPrefixAt_of_length (by omega)
    rw [hb, hb']
    rcases b <;> rcases b' <;> exact nofun

/-- A file that is accepted at an offset has the whole header there. -/
theorem openAt_ok {p : ℕ} (h : openAt img ptr = .ok p) : p + sizeofHeader6 < img.length := by
  rw [openAt] at h
  split_ifs at h with hsize
  obtain ⟨b, -, h₁⟩ := Except.bind_eq_ok h
  rcases b
  · cases h₁
  · obtain ⟨b', -, h₂⟩ := Except.bind_eq_ok h₁
    rcases b'
    · cases h₂
    · obtain rfl := Except.ok.inj h₂
      exact Nat.lt_of_not_le hsize

theorem ldcacheOpen_ne_outside (img : Image) : ldcacheOpen img ≠ .error .outside := by
  rw [ldcacheOpen]
  split_ifs with hsize
  · exact nofun
  · have hlen : 16 < img.length := Nat.lt_of_not_le hsize
    have h11 : MAGIC_LIBC5.length = 11 := by decide
    obtain ⟨b, hb⟩ : ∃ b, strHasPrefixAt img 0 MAGIC_LIBC5 = .ok b :=
      strHasPrefixAt_of_length (by omega)
    obtain ⟨n, hn⟩ : ∃ n, u32At img 12 = .ok n := u32At_of_length (by omega)
    rw [hb, hn]
    rcases b
    · exact openAt_ne_outside img 0
    · exact openAt_ne_outside img _

/-- A file that is opened holds its header. -/
theorem length_of_ldcacheOpen (h : ldcacheOpen img = .ok ptr) :
    ptr + sizeofHeader6 < img.length := by
  rw [ldcacheOpen] at h
  split_ifs at h with hsize
  obtain ⟨b, -, h₁⟩ := Except.bind_eq_ok h
  rcases b
  · exact openAt_ok h₁
  · obtain ⟨n, -, h₂⟩ := Except.bind_eq_ok h₁
    exact openAt_ok h₂

end Headers

/-! ## Entries -/

section Entries

variable {img : Image} {ptr i : ℕ} {e : Entry} {env : Env} {arch : BitVec 32}

/-- A field is read, or is not inside. -/
theorem u32At_cases (img : Image) (off : ℕ) :
    u32At img off = .error .outside ∨ ∃ n, u32At img off = .ok n := by
  rw [u32At]
  rcases readU32 (img.drop off) with _ | n
  · exact .inl rfl
  · exact .inr ⟨n, rfl⟩

/-- An entry is read, or is not inside. -/
theorem entryAt_cases (img : Image) (ptr i : ℕ) :
    entryAt img ptr i = .error .outside ∨ ∃ e, entryAt img ptr i = .ok e := by
  rw [entryAt]
  rcases u32At_cases img (ptr + sizeofHeader6 + i * sizeofEntry6) with h | ⟨flags, h⟩
  · exact .inl (by rw [h]; rfl)
  rcases u32At_cases img (ptr + sizeofHeader6 + i * sizeofEntry6 + 4) with h' | ⟨key, h'⟩
  · exact .inl (by rw [h, h']; rfl)
  rcases u32At_cases img (ptr + sizeofHeader6 + i * sizeofEntry6 + 8) with h'' | ⟨value, h''⟩
  · exact .inl (by rw [h, h', h'']; rfl)
  · exact .inr ⟨⟨flags, key, value⟩, by rw [h, h', h'']; rfl⟩

/-- Comparing a name that ends. -/
theorem strHasPrefixAt_of_name {name : Str} (h : e.name img ptr = some name) (lib : Str) :
    strHasPrefixAt img (ptr + e.key.toNat) lib = .ok (lib.isPrefixOf name) := by
  rw [strHasPrefixAt, matchBytes_of_cstring h, inFile]

section Resolution

variable {fs : Tree} {root : Str} {R : Loc}

/-- Without a root nothing is read. -/
theorem pathResolveAt_of_closed {s : Resolve.Failure} (h : Resolve.openRoot fs root = .error s)
    (off : ℕ) : pathResolveAt img fs root off = .error .failed := by
  rw [pathResolveAt, h]

theorem pathResolveAt_of_path {path : Str} (hR : Resolve.openRoot fs root = .ok R)
    (h : e.path img ptr = some path) :
    pathResolveAt img fs root (ptr + e.value.toNat)
      = match pathResolve fs root path with
        | some s => .ok s
        | none => .error .failed := by
  rw [Entry.path] at h
  rw [pathResolveAt, hR, h]
  rfl

/-- With a root the path is read to its end, wherever that is. -/
theorem pathResolveAt_of_none (hR : Resolve.openRoot fs root = .ok R)
    (h : e.path img ptr = none) :
    pathResolveAt img fs root (ptr + e.value.toNat) = .error .outside := by
  rw [Entry.path] at h
  rw [pathResolveAt, hR, h]
  rfl

theorem pathResolveAt_ne_outside
    (h : (∃ R, Resolve.openRoot fs root = .ok R) → ∃ path, e.path img ptr = some path) :
    pathResolveAt img fs root (ptr + e.value.toNat) ≠ .error .outside := by
  rcases hR : Resolve.openRoot fs root with s | R
  · rw [pathResolveAt_of_closed hR]
    exact nofun
  · obtain ⟨path, hpath⟩ := h ⟨R, hR⟩
    rw [pathResolveAt_of_path hR hpath]
    split <;> exact nofun

/-- What was resolved is the path of the entry. -/
theorem pathResolveAt_ok {s path : Str}
    (h : pathResolveAt img fs root (ptr + e.value.toNat) = .ok s)
    (hpath : e.path img ptr = some path) : pathResolve fs root path = some s := by
  rcases hR : Resolve.openRoot fs root with s | R
  · rw [pathResolveAt_of_closed hR] at h
    cases h
  · rw [pathResolveAt_of_path hR hpath] at h
    split at h
    · next s' hs => rw [hs, Except.ok.inj h]
    · cases h

end Resolution

theorem selectPath_ne_outside (env : Env) (i j : ℕ) (path : Str) (paths : List (Option Str)) :
    selectPath env i j path paths ≠ .error .outside := by
  rw [selectPath]
  split
  · exact nofun
  · exact nofun
  · split_ifs <;> exact nofun

/-! ### An entry whose strings end -/

section Slots

variable {name : Str} (hname : e.name img ptr = some name)

include hname

theorem slotLoop_skip {lib : Str} (hpre : lib.isPrefixOf name = false) (j : ℕ) (libs : List Str)
    (paths : List (Option Str)) :
    slotLoop img ptr env i e j (lib :: libs) paths
      = slotLoop img ptr env i e (j + 1) libs paths := by
  rw [slotLoop, strHasPrefixAt_of_name hname, hpre]
  rfl

theorem slotLoop_take {lib : Str} (hpre : lib.isPrefixOf name = true) (j : ℕ) (libs : List Str)
    (paths : List (Option Str)) :
    slotLoop img ptr env i e j (lib :: libs) paths
      = pathResolveAt img env.fs env.root (ptr + e.value.toNat) >>= fun path =>
        if paths[j]? = some (some path) then slotLoop img ptr env i e (j + 1) libs paths
        else selectPath env i j path paths := by
  rw [slotLoop, strHasPrefixAt_of_name hname, hpre]
  rfl

/-- **The libraries for an entry**: it stays inside if the path ends when it is looked at. -/
theorem slotLoop_ne_outside {libs : List Str}
    (hpath : (∃ lib ∈ libs, lib <+: name) → (∃ R, Resolve.openRoot env.fs env.root = .ok R) →
      ∃ path, e.path img ptr = some path) (j : ℕ) (paths : List (Option Str)) :
    slotLoop img ptr env i e j libs paths ≠ .error .outside := by
  induction libs generalizing j with
  | nil => exact nofun
  | cons lib libs ih =>
    have hrest : slotLoop img ptr env i e (j + 1) libs paths ≠ .error .outside :=
      ih (fun ⟨lib', hmem, hpre⟩ => hpath ⟨lib', List.mem_cons_of_mem _ hmem, hpre⟩) (j + 1)
    rcases hpre : lib.isPrefixOf name
    · rw [slotLoop_skip hname hpre]
      exact hrest
    · have hlib : lib <+: name := List.isPrefixOf_iff_prefix.mp hpre
      have hres := pathResolveAt_ne_outside (hpath ⟨lib, List.mem_cons_self, hlib⟩)
      rw [slotLoop_take hname hpre]
      rcases hpath' : pathResolveAt img env.fs env.root (ptr + e.value.toNat) with s | path
      · intro h
        obtain rfl := Except.error.inj h
        exact hres hpath'
      · change (if _ then _ else _) ≠ _
        split_ifs
        · exact hrest
        · exact selectPath_ne_outside env i j path paths

/-- **A library that is found resolves**, or the reader has failed. -/
theorem resolves_of_slotLoop {libs : List Str} {j : ℕ} {paths paths' : List (Option Str)}
    (h : slotLoop img ptr env i e j libs paths = .ok paths') (hlib : ∃ lib ∈ libs, lib <+: name)
    {path : Str} (hpath : e.path img ptr = some path) :
    pathResolve env.fs env.root path ≠ none := by
  induction libs generalizing j with
  | nil =>
    obtain ⟨lib, hmem, -⟩ := hlib
    cases hmem
  | cons lib libs ih =>
    rcases hpre : lib.isPrefixOf name
    · rw [slotLoop_skip hname hpre] at h
      obtain ⟨lib', hmem, hpre'⟩ := hlib
      rcases List.mem_cons.mp hmem with rfl | hmem
      · rw [List.isPrefixOf_iff_prefix.mpr hpre'] at hpre
        cases hpre
      · exact ih h ⟨lib', hmem, hpre'⟩
    · rw [slotLoop_take hname hpre] at h
      obtain ⟨s, hs, -⟩ := Except.bind_eq_ok h
      rw [pathResolveAt_ok hs hpath]
      exact nofun

end Slots

/-! ### The table -/

/-- The reader has gone past an entry. -/
def Passed (img : Image) (ptr : ℕ) (env : Env) (arch : BitVec 32) (libs : List Str) (i : ℕ) :
    Prop :=
  ∀ e name path, entryAt img ptr i = .ok e → e.wanted arch → e.name img ptr = some name →
    (∃ lib ∈ libs, lib <+: name) → e.path img ptr = some path →
    pathResolve env.fs env.root path ≠ none

/-- **The loop over the entries stays inside** when every turn does once the turns before it went
past their entries. -/
theorem entryLoop_ne_outside {libs : List Str} {n : ℕ}
    (hturn : ∀ i < n, (∀ i' < i, Passed img ptr env arch libs i') → ∀ paths,
      entryStep img ptr env arch libs i paths ≠ .error .outside
      ∧ ∀ paths', entryStep img ptr env arch libs i paths = .ok paths' →
        Passed img ptr env arch libs i)
    (left : ℕ) (hleft : i + left = n) (hpassed : ∀ i' < i, Passed img ptr env arch libs i')
    (paths : List (Option Str)) :
    entryLoop img ptr env arch libs left i paths ≠ .error .outside := by
  induction left generalizing i paths with
  | zero => exact nofun
  | succ left ih =>
    obtain ⟨hinside, hgone⟩ := hturn i (by omega) hpassed paths
    rw [entryLoop]
    rcases hstep : entryStep img ptr env arch libs i paths with s | paths'
    · intro h
      obtain rfl := Except.error.inj h
      exact hinside hstep
    · refine ih (by omega) (fun i' hi' => ?_) paths'
      rcases Nat.lt_succ_iff_lt_or_eq.mp hi' with hlt | rfl
      · exact hpassed i' hlt
      · exact hgone paths' hstep

/-- **The loop leaves the file** at an entry, if it does not fail before. -/
theorem entryLoop_outside {libs : List Str} {k : ℕ}
    (hbefore : ∀ i < k, ∀ paths, entryStep img ptr env arch libs i paths = .error .outside
      ∨ ∃ paths', entryStep img ptr env arch libs i paths = .ok paths')
    (hk : ∀ paths, entryStep img ptr env arch libs k paths = .error .outside)
    (left : ℕ) (hi : i ≤ k) (hleft : k < i + left) (paths : List (Option Str)) :
    entryLoop img ptr env arch libs left i paths = .error .outside := by
  induction left generalizing i paths with
  | zero => omega
  | succ left ih =>
    rw [entryLoop]
    rcases Nat.lt_or_eq_of_le hi with hlt | rfl
    · rcases hbefore i hlt paths with hout | ⟨paths', hok⟩
      · rw [hout]
        rfl
      · rw [hok]
        exact ih hlt (by omega) paths'
    · rw [hk]
      rfl

/-- An entry is wanted if it is an ELF library for the architecture. -/
theorem wanted_iff :
    e.wanted arch = true ↔ e.flags &&& LD_ELF ≠ 0 ∧ e.flags &&& LD_ARCH_MASK = arch := by
  simp [Entry.wanted]

theorem entryStep_of_wanted {libs : List Str} (he : entryAt img ptr i = .ok e) (hw : e.wanted arch)
    (paths : List (Option Str)) :
    entryStep img ptr env arch libs i paths = slotLoop img ptr env i e 0 libs paths := by
  rw [entryStep, he]
  exact if_pos hw

theorem entryStep_of_unwanted {libs : List Str} (he : entryAt img ptr i = .ok e)
    (hw : ¬e.wanted arch) (paths : List (Option Str)) :
    entryStep img ptr env arch libs i paths = .ok paths := by
  rw [entryStep, he]
  exact if_neg hw

theorem entryStep_of_outside {libs : List Str} (he : entryAt img ptr i = .error .outside)
    (paths : List (Option Str)) :
    entryStep img ptr env arch libs i paths = .error .outside := by
  rw [entryStep, he]
  rfl

end Entries

/-! ## Inside: what the condition is for -/

section Inside

variable {img : Image} {ptr : ℕ} {env : Env} {arch : BitVec 32} {libs : List Str}

/-- A turn of the loop. -/
theorem Contained.entryStep (hc : Contained img env.fs env.root ptr) {n : BitVec 32}
    (hn : nlibsAt img ptr = .ok n) {i : ℕ} (hi : i < n.toNat)
    (hpassed : ∀ i' < i, Passed img ptr env arch libs i') (paths : List (Option Str)) :
    entryStep img ptr env arch libs i paths ≠ .error .outside
      ∧ ∀ paths', entryStep img ptr env arch libs i paths = .ok paths' →
        Passed img ptr env arch libs i := by
  obtain ⟨e, he⟩ := hc.entries n hn i hi
  have hlisted : Listed img ptr i e := ⟨⟨n, hn, hi⟩, he⟩
  by_cases hw : e.wanted arch
  · obtain ⟨helf, harch⟩ := wanted_iff.mp hw
    obtain ⟨name, hname⟩ := hc.names hlisted helf
    rw [entryStep_of_wanted he hw]
    constructor
    · refine slotLoop_ne_outside hname (fun ⟨lib, hmem, hpre⟩ hroot => ?_) 0 paths
      rcases hc.paths hlisted helf hname hroot with hpath | ⟨i', e', hlt, hlisted', hw', hblocks⟩
      · exact hpath
      · obtain ⟨name', path', hname', hnames, hpath', hnone⟩ := hblocks
        rw [harch] at hw'
        exact (hpassed i' hlt e' name' path' hlisted'.2 hw' hname' ⟨lib, hmem, hpre.trans hnames⟩
          hpath' hnone).elim
    · intro paths' hok e' name' path he' _ hname' hlib hpath
      obtain rfl : e = e' := Except.ok.inj (he.symm.trans he')
      exact resolves_of_slotLoop hname' hok hlib hpath
  · rw [entryStep_of_unwanted he hw]
    refine ⟨nofun, fun _ _ e' _ _ he' hw' => ?_⟩
    obtain rfl : e = e' := Except.ok.inj (he.symm.trans he')
    exact (hw hw').elim

theorem nlibsAt_of_length (h : ptr + sizeofHeader6 < img.length) :
    ∃ n, nlibsAt img ptr = .ok n := by
  have hlen : ptr + 48 < img.length := h
  exact u32At_of_length (by omega)

/-- **A file that contains what it must is not left.** -/
theorem Contained.ldcacheResolve (hc : Contained img env.fs env.root ptr)
    (hlen : ptr + sizeofHeader6 < img.length) :
    ldcacheResolve img ptr env arch libs ≠ .error .outside := by
  obtain ⟨n, hn⟩ := nlibsAt_of_length hlen
  rw [Ldcache.ldcacheResolve, hn]
  exact entryLoop_ne_outside (fun _ hi hpassed paths => hc.entryStep hn hi hpassed paths) n.toNat
    (Nat.zero_add _) (fun _ h => absurd h (Nat.not_lt_zero _)) _

end Inside

/-! ## Outside: the libraries that find out -/

section Outside

variable {img : Image} {ptr : ℕ} {env : Env} {arch : BitVec 32} {libs : List Str}

/-- **The reader leaves the file at an entry**, if it does not fail before. -/
theorem ldcacheResolve_outside {n : BitVec 32} (hn : nlibsAt img ptr = .ok n) {k : ℕ}
    (hk : k < n.toNat)
    (hbefore : ∀ i < k, ∀ e, entryAt img ptr i = .ok e → e.wanted arch → ∀ paths,
      slotLoop img ptr env i e 0 libs paths = .error .outside
      ∨ ∃ paths', slotLoop img ptr env i e 0 libs paths = .ok paths')
    (hout : ∀ paths, entryStep img ptr env arch libs k paths = .error .outside) :
    ldcacheResolve img ptr env arch libs = .error .outside := by
  rw [ldcacheResolve, hn]
  refine entryLoop_outside (fun i hi paths => ?_) hout n.toNat (Nat.zero_le k) (by omega) _
  rcases entryAt_cases img ptr i with he | ⟨e, he⟩
  · exact .inl (entryStep_of_outside he paths)
  · by_cases hw : e.wanted arch
    · rw [entryStep_of_wanted he hw]
      exact hbefore i hi e he hw paths
    · exact .inr ⟨paths, entryStep_of_unwanted he hw paths⟩

/-- Looking for nothing finds an entry that is not inside. -/
theorem exists_entry {n : BitVec 32} (hn : nlibsAt img ptr = .ok n)
    (h : ldcacheResolve img ptr env arch [] ≠ .error .outside) {i : ℕ} (hi : i < n.toNat) :
    ∃ e, entryAt img ptr i = .ok e := by
  rcases entryAt_cases img ptr i with he | he
  · refine (h (ldcacheResolve_outside hn hi (fun i' _ e' _ _ paths => ?_) ?_)).elim
    · exact .inr ⟨paths, rfl⟩
    · exact entryStep_of_outside he
  · exact he

/-- A name longer than the file that begins like what the key leads to. -/
def longName (img : Image) (ptr : ℕ) (e : Entry) : Str :=
  (img.drop (ptr + e.key.toNat)).map charOf ++ 'x' :: List.replicate img.length 'x'

/-- A name longer than the file is nowhere in it. -/
theorem slotLoop_longName {i : ℕ} (e e' : Entry) (paths : List (Option Str)) :
    slotLoop img ptr env i e' 0 [longName img ptr e] paths = .error .outside
      ∨ ∃ paths', slotLoop img ptr env i e' 0 [longName img ptr e] paths = .ok paths' := by
  rw [slotLoop, strHasPrefixAt]
  rcases hmatch : matchBytes (img.drop (ptr + e'.key.toNat)) (longName img ptr e) with _ | _ | _
  · exact .inl rfl
  · exact .inr ⟨paths, rfl⟩
  · have hlen := length_of_matchBytes hmatch
    rw [longName, List.length_append, List.length_cons, List.length_replicate, List.length_map,
      List.length_drop, List.length_drop] at hlen
    omega

/-- Looking for a long name finds a key that does not end. -/
theorem exists_name {i : ℕ} {e : Entry} (hlisted : Listed img ptr i e)
    (helf : e.flags &&& LD_ELF ≠ 0)
    (h : ldcacheResolve img ptr env (e.flags &&& LD_ARCH_MASK) [longName img ptr e]
      ≠ .error .outside) :
    ∃ name, e.name img ptr = some name := by
  obtain ⟨⟨n, hn, hi⟩, he⟩ := hlisted
  rcases hname : e.name img ptr with _ | name
  · refine (h (ldcacheResolve_outside hn hi (fun _ _ e' _ _ paths => ?_) fun paths => ?_)).elim
    · exact slotLoop_longName e e' paths
    · rw [entryStep_of_wanted he (wanted_iff.mpr ⟨helf, rfl⟩), slotLoop, strHasPrefixAt, longName,
        matchBytes_past hname]
      rfl
  · exact ⟨name, rfl⟩

/-- Looking for the name of an entry finds a path that does not end, unless it is blocked before. -/
theorem exists_path_or_blocked {fs : Tree} {root name : Str} {R : Loc} {strdup : ℕ → ℕ → Bool}
    {i : ℕ} {e : Entry} (hlisted : Listed img ptr i e) (helf : e.flags &&& LD_ELF ≠ 0)
    (hname : e.name img ptr = some name) (hR : Resolve.openRoot fs root = .ok R)
    (hnames : ∀ {i e}, Listed img ptr i e → e.flags &&& LD_ELF ≠ 0 →
      ∃ name, e.name img ptr = some name)
    (h : ldcacheResolve img ptr ⟨fs, root, fun _ _ => some false, strdup⟩ (e.flags &&& LD_ARCH_MASK)
      [name] ≠ .error .outside) :
    (∃ path, e.path img ptr = some path)
      ∨ ∃ i' e', i' < i ∧ Listed img ptr i' e' ∧ e'.wanted (e.flags &&& LD_ARCH_MASK)
        ∧ Blocks img fs root ptr name e' := by
  obtain ⟨⟨n, hn, hi⟩, he⟩ := hlisted
  rcases hpath : e.path img ptr with _ | path
  · right
    by_contra hfree
    refine h (ldcacheResolve_outside hn hi (fun i' hi' e' he' hw' paths => ?_) fun paths => ?_)
    · have hlisted' : Listed img ptr i' e' := ⟨⟨n, hn, Nat.lt_trans hi' hi⟩, he'⟩
      obtain ⟨name', hname'⟩ := hnames hlisted' (wanted_iff.mp hw').1
      rcases hpre : name.isPrefixOf name'
      · exact .inr ⟨paths, slotLoop_skip hname' hpre 0 [] paths⟩
      · rw [slotLoop_take hname' hpre]
        rcases hpath' : e'.path img ptr with _ | path'
        · exact .inl (by rw [pathResolveAt_of_none hR hpath']; rfl)
        · rw [pathResolveAt_of_path hR hpath']
          rcases hres : pathResolve fs root path' with _ | s
          · exact (hfree ⟨i', e', hi', hlisted', hw', name', path', hname',
              List.isPrefixOf_iff_prefix.mp hpre, hpath', hres⟩).elim
          · refine .inr ⟨paths, ?_⟩
            change (if paths[0]? = some (some s) then pure paths else pure paths) = Except.ok paths
            split_ifs <;> rfl
    · rw [entryStep_of_wanted he (wanted_iff.mpr ⟨helf, rfl⟩),
        slotLoop_take hname (List.isPrefixOf_iff_prefix.mpr List.prefix_rfl),
        pathResolveAt_of_none hR hpath]
      rfl
  · exact .inl ⟨path, rfl⟩

end Outside

/-! ## The condition is the right one -/

/-- **When the reader stays inside the file**: when the file, if it is accepted, contains what it
must. -/
theorem staysInside_iff (img : Image) (fs : Tree) (root : Str) :
    StaysInside img fs root ↔ ∀ ptr, ldcacheOpen img = .ok ptr → Contained img fs root ptr := by
  constructor
  · rintro ⟨-, hstays⟩ ptr hopen
    have hstay := hstays ptr hopen
    have hnames : ∀ {i e}, Listed img ptr i e → e.flags &&& LD_ELF ≠ 0 →
        ∃ name, e.name img ptr = some name := fun hlisted helf =>
      exists_name hlisted helf (hstay _ _ (fun _ _ => none) fun _ _ => false)
    refine ⟨fun n hn i hi => ?_, hnames, fun hlisted helf hname hroot => ?_⟩
    · exact exists_entry hn (hstay 0 [] (fun _ _ => none) fun _ _ => false) hi
    · obtain ⟨R, hR⟩ := hroot
      exact exists_path_or_blocked hlisted helf hname hR hnames
        (hstay _ _ (fun _ _ => some false) fun _ _ => false)
  · intro hc
    refine ⟨ldcacheOpen_ne_outside img, fun ptr hopen arch libs select strdup => ?_⟩
    exact (hc ptr hopen).ldcacheResolve (length_of_ldcacheOpen hopen)

/-! ### A table that is cut off -/

/-- A header that promises an entry, and one byte of it. -/
def cutOff : Image :=
  (MAGIC_LIBC6 ++ MAGIC_VERSION).map (fun c => BitVec.ofNat 8 c.toNat)
    ++ [1, 0, 0, 0] ++ List.replicate 25 0

/-- The file is accepted, and its entry is read past the end. -/
theorem cutOff_leaves : ¬∀ (img : Image) (fs : Tree) (root : Str), StaysInside img fs root := by
  intro h
  have hopen : ldcacheOpen cutOff = .ok 0 := by decide +kernel
  have hout : ldcacheResolve cutOff 0
      ⟨Resolve.linked, ['/'], fun _ _ => some true, fun _ _ => true⟩ 0x300 []
      = .error .outside := by decide +kernel
  exact (h cutOff Resolve.linked ['/']).2 0 hopen 0x300 [] _ _ hout

end Ldcache
