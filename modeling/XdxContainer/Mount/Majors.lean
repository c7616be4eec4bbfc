import Mathlib.Data.List.Infix
import XdxContainer.Mount.Arrays

/-!
# Mount/Majors — the container libraries of another major version

    /usr/lib/libcuda.so.535.54        535.54 = M.rest
                       ─┬─            ─┬─
                       run             nvrm_version, compared on the length of the run

`filter_libraries` is to keep the libraries whose major version, the digits behind `.so.`, is not
the driver's.  It compares as many characters as the library has digits, so a run that only begins
the driver's counts as the driver's.

* `keepsLibrary_iff` — a path is kept when its first run does not begin the driver's version.
* `filterLibraries_otherMajor_iff` — these are the libraries of another major version exactly when
  no path has one behind a run that begins the driver's.
-/

open Paths Slots

namespace Mount

/-! ## The runs of a path -/

/-- What is behind the occurrences of `sub`, from the first on. -/
def behindEach (sub s : Str) : List Str :=
  (s.tails.filter (strHasPrefix · sub)).map (·.drop sub.length)

theorem mem_behindEach {sub s t : Str} : t ∈ behindEach sub s ↔ ∃ pre, s = pre ++ (sub ++ t) := by
  rw [behindEach, List.mem_map]
  constructor
  · rintro ⟨u, hu, rfl⟩
    obtain ⟨hmem, hpre⟩ := List.mem_filter.mp hu
    obtain ⟨pre, rfl⟩ := (List.mem_tails u s).mp hmem
    obtain ⟨rest, rfl⟩ := List.isPrefixOf_iff_prefix.mp hpre
    exact ⟨pre, by rw [List.drop_left]⟩
  · rintro ⟨pre, rfl⟩
    refine ⟨sub ++ t, List.mem_filter.mpr ⟨?_, ?_⟩, List.drop_left⟩
    · exact (List.mem_tails _ _).mpr (List.suffix_append pre _)
    · exact List.isPrefixOf_iff_prefix.mpr (List.prefix_append sub t)

/-- `strstr` finds the first occurrence. -/
theorem strstr_eq_head? (sub s : Str) :
    strstr sub s = (s.tails.filter (strHasPrefix · sub)).head? := by
  induction s with
  | nil =>
    rcases sub with _ | ⟨c, sub⟩
    · rfl
    · rfl
  | cons c s ih =>
    rw [strstr, List.tails_cons]
    split_ifs with hpre
    · rw [List.filter_cons_of_pos (p := (strHasPrefix · sub)) hpre, List.head?_cons]
    · rw [List.filter_cons_of_neg (p := (strHasPrefix · sub)) hpre, ih]

/-- The digits behind each `.so.` in the name of a library. -/
def soRuns (path : Str) : List Str :=
  (behindEach ".so.".toList (basename path)).map (·.takeWhile Char.isDigit)

/-- **The runs are the maximal ones**: digits, and no digit behind them. -/
theorem mem_soRuns {path run : Str} :
    run ∈ soRuns path ↔ ∃ pre rest, basename path = pre ++ (".so.".toList ++ (run ++ rest))
      ∧ (∀ c ∈ run, c.isDigit = true) ∧ ∀ c ∈ rest.head?, c.isDigit = false := by
  rw [soRuns, List.mem_map]
  constructor
  · rintro ⟨t, ht, rfl⟩
    obtain ⟨pre, hpre⟩ := mem_behindEach.mp ht
    refine ⟨pre, t.dropWhile Char.isDigit, ?_, ?_, ?_⟩
    · rw [List.takeWhile_append_dropWhile, hpre]
    · exact List.all_eq_true.mp List.all_takeWhile
    · intro c hc
      have hne := List.head?_dropWhile_not Char.isDigit t
      rw [Option.mem_def.mp hc] at hne
      simpa using hne
  · rintro ⟨pre, rest, hbase, hrun, hrest⟩
    refine ⟨run ++ rest, mem_behindEach.mpr ⟨pre, hbase⟩, ?_⟩
    rw [List.takeWhile_append_of_pos hrun]
    rcases rest with _ | ⟨c, rest⟩
    · rw [List.takeWhile_nil, List.append_nil]
    · have hc : ¬ c.isDigit = true := by
        rw [hrest c rfl]
        exact Bool.false_ne_true
      rw [List.takeWhile_cons_of_neg hc, List.append_nil]

/-- The library has a major version of its own that is not `M`. -/
def OtherMajor (M path : Str) : Prop := ∃ run ∈ soRuns path, run ≠ [] ∧ run ≠ M

instance (M path : Str) : Decidable (OtherMajor M path) :=
  inferInstanceAs (Decidable (∃ run ∈ soRuns path, run ≠ [] ∧ run ≠ M))

/-! ## What is kept -/

/-- **A path is kept when its first run does not begin the driver's version.** -/
theorem keepsLibrary_iff (info : DriverInfo) (path : Str) :
    keepsLibrary info path = true
      ↔ ∃ first ∈ (soRuns path).head?, ¬ first <+: info.nvrmVersion := by
  have hhead : (soRuns path).head?
      = (strstr ".so.".toList (basename path)).map fun s => (s.drop 4).takeWhile Char.isDigit := by
    rw [soRuns, behindEach, List.map_map, List.head?_map, ← strstr_eq_head?]
    rfl
  rw [hhead, keepsLibrary]
  rcases strstr ".so.".toList (basename path) with _ | s
  · simp
  · set run := (s.drop 4).takeWhile Char.isDigit with hrun
    have htake : (s.drop 4).take run.length = run :=
      (List.prefix_iff_eq_take.mp (List.takeWhile_prefix _)).symm
    have hmeet : info.nvrmVersion.take run.length = run ↔ run <+: info.nvrmVersion := by
      rw [List.prefix_iff_eq_take, eq_comm]
    simp [← hrun, htake, hmeet]

section Version

variable {info : DriverInfo} {M rest : Str}

/-- A run of digits begins the version when it begins the major one. -/
theorem prefix_version_iff (hrest : ∀ c ∈ rest.head?, c = '.')
    (hinfo : info.nvrmVersion = M ++ rest) {run : Str} (hrun : ∀ c ∈ run, c.isDigit = true) :
    run <+: info.nvrmVersion ↔ run <+: M := by
  rw [hinfo]
  constructor
  · intro h
    rcases List.prefix_or_prefix_of_prefix h (List.prefix_append M rest) with hM | ⟨u, rfl⟩
    · exact hM
    · -- what the run has more than `M` would start as `rest` does
      obtain ⟨v, hv⟩ := (List.prefix_append_right_inj M).mp h
      rcases u with _ | ⟨c, u⟩
      · rw [List.append_nil]
      · have hdot : c = '.' := hrest c (by rw [← hv]; rfl)
        have hdigit := hrun c (by simp)
        rw [hdot] at hdigit
        exact absurd hdigit (by decide)
  · exact fun h => h.trans (List.prefix_append M rest)

/-- The paths whose runs do not mislead `filter_libraries`: if the first run begins `M`, there is no
run of another version behind it, nor is it one itself. -/
def ReadsMajor (M path : Str) : Prop :=
  ∀ first ∈ (soRuns path).head?, first <+: M → ∀ run ∈ soRuns path, run = [] ∨ run = M

instance (M path : Str) : Decidable (ReadsMajor M path) :=
  inferInstanceAs (Decidable (∀ first ∈ (soRuns path).head?, first <+: M →
    ∀ run ∈ soRuns path, run = [] ∨ run = M))

theorem digits_of_mem_soRuns {path run : Str} (h : run ∈ soRuns path) :
    ∀ c ∈ run, c.isDigit = true := by
  obtain ⟨-, -, -, hrun, -⟩ := mem_soRuns.mp h
  exact hrun

/-- Whatever is kept is of another major version. -/
theorem otherMajor_of_keepsLibrary (hrest : ∀ c ∈ rest.head?, c = '.')
    (hinfo : info.nvrmVersion = M ++ rest) {path : Str} (h : keepsLibrary info path = true) :
    OtherMajor M path := by
  obtain ⟨first, hfirst, hnot⟩ := (keepsLibrary_iff info path).mp h
  have hmem := List.mem_of_mem_head? hfirst
  rw [prefix_version_iff hrest hinfo (digits_of_mem_soRuns hmem)] at hnot
  refine ⟨first, hmem, ?_, ?_⟩
  · rintro rfl
    exact hnot List.nil_prefix
  · rintro rfl
    exact hnot (List.prefix_refl _)

/-- **A path of another major version is kept exactly when its runs do not mislead.** -/
theorem keepsLibrary_eq_iff (hrest : ∀ c ∈ rest.head?, c = '.')
    (hinfo : info.nvrmVersion = M ++ rest) (path : Str) :
    keepsLibrary info path = decide (OtherMajor M path) ↔ ReadsMajor M path := by
  rw [Bool.eq_iff_iff, decide_eq_true_iff]
  constructor
  · intro h first hfirst hpre run hrun
    by_contra hother
    rw [not_or] at hother
    obtain ⟨first', hfirst', hnot⟩ := (keepsLibrary_iff info path).mp (h.mpr ⟨run, hrun, hother⟩)
    obtain rfl := Option.mem_unique hfirst hfirst'
    have hdigits := digits_of_mem_soRuns (List.mem_of_mem_head? hfirst)
    rw [prefix_version_iff hrest hinfo hdigits] at hnot
    exact hnot hpre
  · intro h
    refine ⟨otherMajor_of_keepsLibrary hrest hinfo, ?_⟩
    rintro ⟨run, hrun, hne, hM⟩
    obtain ⟨first, hfirst⟩ : ∃ first, (soRuns path).head? = some first :=
      Option.isSome_iff_exists.mp (List.isSome_head?.mpr (List.ne_nil_of_mem hrun))
    refine (keepsLibrary_iff info path).mpr ⟨first, hfirst, fun hpre => ?_⟩
    have hdigits := digits_of_mem_soRuns (List.mem_of_mem_head? hfirst)
    rw [prefix_version_iff hrest hinfo hdigits] at hpre
    rcases h first hfirst hpre run hrun with hnil | heq
    · exact hne hnil
    · exact hM heq

end Version

/-- Filters agree when they agree on every entry. -/
theorem filter_eq_filter_iff {α : Type} (p q : α → Bool) (hle : ∀ x, p x = true → q x = true)
    (l : List α) : l.filter p = l.filter q ↔ ∀ x ∈ l, p x = q x := by
  constructor
  · intro h x hx
    rw [Bool.eq_iff_iff]
    refine ⟨hle x, fun hq => ?_⟩
    have hmem : x ∈ l.filter p := h ▸ List.mem_filter.mpr ⟨hx, hq⟩
    exact (List.mem_filter.mp hmem).2
  · exact fun h => List.filter_congr h

/-- **`filter_libraries` leaves the libraries of another major version**, in their order, exactly
when the runs of no path mislead it. -/
theorem filterLibraries_otherMajor_iff {info : DriverInfo} {M rest : Str}
    (hrest : ∀ c ∈ rest.head?, c = '.') (hinfo : info.nvrmVersion = M ++ rest)
    (paths : List Str) :
    (∃ arr size, filterLibrariesArr info (paths.map some) paths.length = some (arr, size)
        ∧ arr.take size = (paths.filter fun path => decide (OtherMajor M path)).map some)
      ↔ ∀ path ∈ paths, ReadsMajor M path := by
  have hfilter : (paths.filter (keepsLibrary info)
        = paths.filter fun path => decide (OtherMajor M path))
      ↔ ∀ path ∈ paths, ReadsMajor M path := by
    rw [filter_eq_filter_iff]
    · exact forall₂_congr fun path _ => keepsLibrary_eq_iff hrest hinfo path
    · exact fun path h => decide_eq_true (otherMajor_of_keepsLibrary hrest hinfo h)
  rw [filterLibrariesArr_eq, ← hfilter]
  constructor
  · rintro ⟨arr, size, heq, htake⟩
    obtain ⟨rfl, rfl⟩ := Prod.mk.inj (Option.some.inj heq)
    rw [take_filled] at htake
    exact List.map_injective_iff.mpr (fun _ _ h => Option.some.inj h) htake
  · intro h
    refine ⟨_, _, rfl, ?_⟩
    rw [take_filled, filterLibraries_eq, h]

/-- A driver of version 525. -/
def driver525 : DriverInfo :=
  { nvrmVersion := "525.60".toList, bins := [], libs := [], libs32 := [], devs := [] }

theorem behind_525 : ∀ c ∈ ".60".toList.head?, c = '.' := by
  intro c hc
  exact (Option.some.inj hc).symm

/-- A library of version 535 is kept, one of version 525 is not. -/
theorem filterLibraries_otherMajor_525 :
    ∃ arr size, filterLibrariesArr driver525
        (["/l/libcuda.so.525.60", "/l/libcuda.so.535.54"].map (some ·.toList)) 2 = some (arr, size)
      ∧ arr.take size = [some "/l/libcuda.so.535.54".toList] :=
  (filterLibraries_otherMajor_iff behind_525
    (by decide : driver525.nvrmVersion = "525".toList ++ ".60".toList)
    (["/l/libcuda.so.525.60", "/l/libcuda.so.535.54"].map String.toList)).mpr (by decide)

/-- A library of version 5 is lost, as 525 begins with 5. -/
theorem filterLibraries_loses_5 :
    ¬∀ (info : DriverInfo) (M rest : Str) (paths : List Str), M ≠ [] →
      (∀ c ∈ M, c.isDigit = true) → (∀ c ∈ rest.head?, c = '.') → info.nvrmVersion = M ++ rest →
      ∃ arr size, filterLibrariesArr info (paths.map some) paths.length = some (arr, size)
        ∧ arr.take size = (paths.filter fun path => decide (OtherMajor M path)).map some := by
  intro h
  have hlost : filterLibrariesArr driver525 [some "/l/libcuda.so.5".toList] 1
      = some ([none], 0) := by
    decide
  obtain ⟨arr, size, heq, htake⟩ := h driver525 "525".toList ".60".toList ["/l/libcuda.so.5".toList]
    (by decide) (List.all_eq_true.mp (by decide)) behind_525 (by decide)
  obtain ⟨rfl, rfl⟩ := Prod.mk.inj (Option.some.inj (hlost.symm.trans heq))
  exact absurd htake (by decide)

end Mount
