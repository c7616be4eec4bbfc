import XdxContainer.Data.Slots
import XdxContainer.Mount.Code

/-!
# Mount/DriSearch — the DRI libraries and the array they are put into

    readdir:  .  ..  xdxgpu_dri.so  readme  xdxgpu_drv_video.so  …
                     ─────┬───────          ─────────┬─────────
    dri_libs:        dir/name           │       dir/name         │ … │ … │   XDX_VIDEO_LIB_NUM slots

`library_search_in_dir` puts every entry that matches into the array of its caller and does not
look how long that is.  `librarySearchInDirArr_fits_iff`: nothing is written behind the array
exactly when at most `XDX_VIDEO_LIB_NUM` entries match, or memory is short before the next one.
-/

open Paths Fs Fallible Slots

namespace Mount

open Host (matchDri)

/-- The size of the array for the DRI libraries. -/
def XDX_VIDEO_LIB_NUM : ℕ := 4

/-- **The names the pattern matches.** -/
theorem matchDri_iff (name : Name) :
    matchDri name = true ↔ ∃ c mid, (c = 'i' ∨ c = 'v')
      ∧ name = "xdxgpu_dr".toList ++ c :: (mid ++ ".so".toList) := by
  rw [matchDri, Bool.and_eq_true, Bool.and_eq_true]
  constructor
  · rintro ⟨⟨hpre, hc⟩, hsuffix⟩
    obtain ⟨u, rfl⟩ := List.isPrefixOf_iff_prefix.mp hpre
    have hdrop : ("xdxgpu_dr".toList ++ u).drop 9 = u := List.drop_left' rfl
    rw [hdrop] at hc
    rcases u with _ | ⟨c, v⟩
    · cases hc
    · rw [List.head?_cons, Option.any_some, Bool.or_eq_true, decide_eq_true_iff,
        decide_eq_true_iff] at hc
      obtain ⟨mid, rfl⟩ := List.isSuffixOf_iff_suffix.mp hsuffix
      exact ⟨c, mid, hc, rfl⟩
  · rintro ⟨c, mid, hc, rfl⟩
    refine ⟨⟨List.isPrefixOf_iff_prefix.mpr (List.prefix_append _ _), ?_⟩, ?_⟩
    · change (decide (c = 'i') || decide (c = 'v')) = true
      rwa [Bool.or_eq_true, decide_eq_true_iff, decide_eq_true_iff]
    · exact List.isSuffixOf_iff_suffix.mpr (List.suffix_append mid _)

/-! ## The search -/

section Search

variable (malloc : ℕ → Bool) (libDir : Str)

/-- `sprintf(buf, "%s/%s", lib_dir, filename)`. -/
def driPath (name : Name) : Str := libDir ++ '/' :: name

/-- The loop of `library_search_in_dir` over the entries to go: the array, and the number of its
entries or NULL where memory was short.  `malloc` says for which entry of the array there is
memory. -/
def searchLoop : List Name → Slots Str → ℕ → Option (Slots Str × Option ℕ)
  | [], libs, tmpn => some (libs, some tmpn)
  | name :: names, libs, tmpn =>
    if matchDri name then
      if malloc tmpn then do
        let (libs, tmpn) ← store libs tmpn (some (driPath libDir name))
        searchLoop names libs tmpn
      else some (libs, none)
    else searchLoop names libs tmpn

/-- `library_search_in_dir` on the entries of a directory, NULL if it cannot be opened: the array,
and what it stores in `nlibs` when it returns 0. -/
def librarySearchInDirArr (entries : Option (List Name)) (libs : Slots Str) :
    Option (Slots Str × Option ℕ) :=
  match entries with
  | none => some (libs, none)
  | some names => searchLoop malloc libDir names libs 0

/-- The call in `device_mount_native`. -/
def driLibsArr (entries : Option (List Name)) : Option (Slots Str × Option ℕ) :=
  librarySearchInDirArr malloc libDir entries (arrayNew XDX_VIDEO_LIB_NUM)

end Search

/-! ## What it stores -/

/-- The paths of the entries that match. -/
def driPaths (libDir : Str) (names : List Name) : List Str :=
  (names.filter matchDri).map (driPath libDir)

theorem driPaths_cons_of_match {libDir : Str} {name : Name} (h : matchDri name = true)
    (names : List Name) :
    driPaths libDir (name :: names) = driPath libDir name :: driPaths libDir names := by
  rw [driPaths, List.filter_cons_of_pos h, List.map_cons]
  rfl

theorem driPaths_cons_of_not_match {libDir : Str} {name : Name} (h : ¬ matchDri name = true)
    (names : List Name) : driPaths libDir (name :: names) = driPaths libDir names := by
  rw [driPaths, List.filter_cons_of_neg h]
  rfl

section Loop

variable (malloc : ℕ → Bool) {libDir : Str} {n : ℕ} {xs : List Str} {names : List Name}

/-- **While there is room**, the loop ends with all paths, or where memory is short. -/
theorem searchLoop_of_room (hroom : (xs ++ driPaths libDir names).length ≤ n) :
    searchLoop malloc libDir names (filled n xs) xs.length
        = some (filled n (xs ++ driPaths libDir names),
            some (xs ++ driPaths libDir names).length)
      ∨ ∃ libs i, searchLoop malloc libDir names (filled n xs) xs.length = some (libs, none)
        ∧ malloc i = false := by
  induction names generalizing xs with
  | nil =>
    rw [driPaths, List.filter_nil, List.map_nil, List.append_nil]
    exact .inl rfl
  | cons name names ih =>
    rw [searchLoop]
    split_ifs with hmatch hmem
    · rw [driPaths_cons_of_match hmatch, List.append_cons] at hroom ⊢
      have hlt : xs.length < n := by
        simp only [List.length_append, List.length_singleton] at hroom
        omega
      rw [store_filled hlt]
      exact ih hroom
    · exact .inr ⟨_, _, rfl, Bool.eq_false_iff.mpr hmem⟩
    · rw [driPaths_cons_of_not_match hmatch] at hroom ⊢
      exact ih hroom

/-- **With one path too many**, the loop ends only where memory is short. -/
theorem searchLoop_of_no_room (hxs : xs.length ≤ n)
    (hroom : n < (xs ++ driPaths libDir names).length) :
    ((∃ i, xs.length ≤ i ∧ i ≤ n ∧ malloc i = false) →
        ∃ libs, searchLoop malloc libDir names (filled n xs) xs.length = some (libs, none))
      ∧ ((∀ i, xs.length ≤ i → i ≤ n → malloc i = true) →
        searchLoop malloc libDir names (filled n xs) xs.length = none) := by
  induction names generalizing xs with
  | nil =>
    rw [driPaths, List.filter_nil, List.map_nil, List.append_nil] at hroom
    omega
  | cons name names ih =>
    rw [searchLoop]
    split_ifs with hmatch hmem
    · rw [driPaths_cons_of_match hmatch, List.append_cons] at hroom
      have hlen : (xs ++ [driPath libDir name]).length = xs.length + 1 := by
        rw [List.length_append, List.length_singleton]
      rcases Nat.lt_or_ge xs.length n with hlt | hfull
      · rw [store_filled hlt]
        obtain ⟨hshort, hnone⟩ := ih (by rw [hlen]; omega) hroom
        refine ⟨?_, fun h => hnone fun i hi => h i (by omega)⟩
        rintro ⟨i, hi, hin, hfalse⟩
        have hne : i ≠ xs.length := by
          rintro rfl
          rw [hmem] at hfalse
          cases hfalse
        exact hshort ⟨i, by omega, hin, hfalse⟩
      · -- the array is full
        have hstore : store (filled n xs) xs.length (some (driPath libDir name)) = none := by
          rw [store, length_filled hxs, if_neg (by omega)]
        rw [hstore]
        refine ⟨?_, fun _ => rfl⟩
        rintro ⟨i, hi, hin, hfalse⟩
        obtain rfl : i = xs.length := by omega
        rw [hmem] at hfalse
        cases hfalse
    · exact ⟨fun _ => ⟨_, rfl⟩, fun h => absurd (h xs.length (Nat.le_refl _) hxs) hmem⟩
    · rw [driPaths_cons_of_not_match hmatch] at hroom
      exact ih hxs hroom

end Loop

/-- The search stays inside of the array: it stores no more than there is room for, and on success
exactly the paths of the entries that match. -/
def DriFits (malloc : ℕ → Bool) (libDir : Str) (entries : Option (List Name)) : Prop :=
  ∃ libs r, driLibsArr malloc libDir entries = some (libs, r)
    ∧ ∀ nlibs ∈ r, nlibs ≤ XDX_VIDEO_LIB_NUM
      ∧ libs.take nlibs = (driPaths libDir (entries.getD [])).map some

/-- **The DRI library search fits its array** exactly when at most `XDX_VIDEO_LIB_NUM` entries match
or there is no memory for one of the first `XDX_VIDEO_LIB_NUM + 1`. -/
theorem librarySearchInDirArr_fits_iff (malloc : ℕ → Bool) (libDir : Str)
    (entries : Option (List Name)) :
    DriFits malloc libDir entries
      ↔ ∀ names ∈ entries, (names.filter matchDri).length ≤ XDX_VIDEO_LIB_NUM
        ∨ ∃ i, i ≤ XDX_VIDEO_LIB_NUM ∧ malloc i = false := by
  rcases entries with _ | names
  · refine iff_of_true ⟨_, _, rfl, ?_⟩ ?_
    · exact fun _ h => absurd h (Option.not_mem_none _)
    · exact fun _ h => absurd h (Option.not_mem_none _)
  have hlen : (driPaths libDir names).length = (names.filter matchDri).length := by
    rw [driPaths, List.length_map]
  have hloop : driLibsArr malloc libDir (some names)
      = searchLoop malloc libDir names (filled XDX_VIDEO_LIB_NUM []) ([] : List Str).length := rfl
  have hall : (∀ names' ∈ some names, (names'.filter matchDri).length ≤ XDX_VIDEO_LIB_NUM
        ∨ ∃ i, i ≤ XDX_VIDEO_LIB_NUM ∧ malloc i = false)
      ↔ (names.filter matchDri).length ≤ XDX_VIDEO_LIB_NUM
        ∨ ∃ i, i ≤ XDX_VIDEO_LIB_NUM ∧ malloc i = false := by simp
  rw [DriFits, hall, hloop, Option.getD_some, ← hlen]
  rcases Nat.lt_or_ge XDX_VIDEO_LIB_NUM (driPaths libDir names).length with hmany | hfew
  · obtain ⟨hshort, hnone⟩ := searchLoop_of_no_room malloc (Nat.zero_le _)
      (show XDX_VIDEO_LIB_NUM < ([] ++ driPaths libDir names).length from hmany)
    constructor
    · rintro ⟨libs, r, heq, -⟩
      refine .inr ?_
      by_contra hmem
      rw [hnone fun i _ hi => by
        rcases hi' : malloc i
        · exact absurd ⟨i, hi, hi'⟩ hmem
        · rfl] at heq
      cases heq
    · rintro (hfew | ⟨i, hi, hfalse⟩)
      · omega
      · obtain ⟨libs, heq⟩ := hshort ⟨i, Nat.zero_le i, hi, hfalse⟩
        exact ⟨libs, none, heq, fun _ h => absurd h (Option.not_mem_none _)⟩
  · refine iff_of_true ?_ (.inl hfew)
    rcases searchLoop_of_room malloc
      (show ([] ++ driPaths libDir names).length ≤ XDX_VIDEO_LIB_NUM from hfew)
      with heq | ⟨libs, -, heq, -⟩
    · refine ⟨_, _, heq, ?_⟩
      rintro _ ⟨⟩
      rw [List.nil_append, take_filled]
      exact ⟨hfew, rfl⟩
    · exact ⟨libs, none, heq, fun _ h => absurd h (Option.not_mem_none _)⟩

/-- **With room and memory it is the search of the device mount.** -/
theorem driLibsArr_eq_librarySearchInDir {W : Type} {host : Host W} {libDir : Str} {w : W}
    {names : List Name} (hread : host.readDir ⟨.dri, .search, 0⟩ libDir w = some names)
    (hfew : (names.filter matchDri).length ≤ XDX_VIDEO_LIB_NUM) :
    host.librarySearchInDir libDir w = (.ok (driPaths libDir names), w)
      ∧ driLibsArr (fun _ => true) libDir (some names)
        = some (filled XDX_VIDEO_LIB_NUM (driPaths libDir names),
            some (driPaths libDir names).length) := by
  have hquery : (query ⟨.dri, .search, 0⟩ (host.readDir ⟨.dri, .search, 0⟩ libDir) :
      Prog Step W (List Name)) w = (.ok names, w) := by
    rw [query, hread]
  refine ⟨?_, ?_⟩
  · rw [Host.librarySearchInDir, bind_of_ok hquery]
    rfl
  · have hroom : ([] ++ driPaths libDir names).length ≤ XDX_VIDEO_LIB_NUM := by
      rwa [List.nil_append, driPaths, List.length_map]
    rcases searchLoop_of_room (fun _ => true) hroom with heq | ⟨-, -, -, htrue⟩
    · exact heq
    · cases htrue

/-- Five entries match. -/
theorem driLibs_overflow :
    ¬∀ (malloc : ℕ → Bool) (libDir : Str) (entries : Option (List Name)),
      DriFits malloc libDir entries := by
  intro h
  obtain ⟨libs, r, heq, -⟩ := h (fun _ => true) "/d".toList
    (some (["xdxgpu_dri.so", "xdxgpu_drv_video.so", "xdxgpu_drv_video_a0.so",
      "xdxgpu_drv_video_b0.so", "xdxgpu_dri_old.so"].map String.toList))
  have hnone : driLibsArr (fun _ => true) "/d".toList
      (some (["xdxgpu_dri.so", "xdxgpu_drv_video.so", "xdxgpu_drv_video_a0.so",
        "xdxgpu_drv_video_b0.so", "xdxgpu_dri_old.so"].map String.toList)) = none := by decide
  rw [hnone] at heq
  cases heq

end Mount
