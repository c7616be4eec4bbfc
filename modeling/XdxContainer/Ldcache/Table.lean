import XdxContainer.Data.Cascade
import XdxContainer.Data.Except
import XdxContainer.Ldcache.Bounds

/-!
# Ldcache/Table — a lookup that succeeds, on the libraries of the cache

    file ──libraries──▸ (key, path), (key, path), …        ELF, of one architecture, in file order
      │                     │
    ldcache_resolve      pushAll: labelled places, a name takes the keys it begins
      │                     │
      └────── paths ────────┘                               `ldcacheResolve_ok`

A lookup that returns 0 has compared keys and resolved values that were there, so what it leaves
depends on the keys and on where the values lead alone.  A selector that `Follows` a rule which of
two paths stays makes the slots a cascade.
-/

open Paths Fs

namespace Ldcache

/-! ## Keys -/

/-- The string at an offset, to the end of the file if it does not end. -/
def textAt (img : Image) (off : ℕ) : Str := ((img.drop off).takeWhile (· ≠ 0)).map charOf

/-- What is compared is the string. -/
theorem matchBytes_eq_some {bs : Image} {cs : Str} {b : Bool} (h : matchBytes bs cs = some b) :
    b = cs.isPrefixOf ((bs.takeWhile (· ≠ 0)).map charOf) := by
  induction cs generalizing bs with
  | nil =>
    rw [matchBytes] at h
    rw [← Option.some.inj h, List.isPrefixOf_nil_left]
  | cons c cs ih =>
    cases bs with
    | nil => cases h
    | cons x bs =>
      rw [matchBytes] at h
      by_cases hx : x = 0
      · rw [if_neg fun hboth => hboth.1 hx] at h
        rw [← Option.some.inj h, List.takeWhile_cons_of_neg (by simpa using hx)]
        rfl
      · rw [List.takeWhile_cons_of_pos (by simpa using hx), List.map_cons,
          List.isPrefixOf_cons_cons]
        by_cases hc : charOf x = c
        · rw [if_pos ⟨hx, hc⟩] at h
          rw [hc, ih h, BEq.rfl, Bool.true_and]
        · rw [if_neg fun hboth => hc hboth.2] at h
          rw [← Option.some.inj h, beq_eq_false_iff_ne.mpr (Ne.symm hc), Bool.false_and]

/-- A string that ends is read to its end. -/
theorem text_of_cstring {bs : Image} {s : Str} (h : cstring bs = some s) :
    (bs.takeWhile (· ≠ 0)).map charOf = s := by
  induction bs generalizing s with
  | nil => cases h
  | cons b bs ih =>
    rw [cstring] at h
    by_cases hb : b = 0
    · rw [if_pos hb] at h
      rw [List.takeWhile_cons_of_neg (by simpa using hb), ← Option.some.inj h]
      rfl
    · rw [if_neg hb] at h
      obtain ⟨t, ht, rfl⟩ := Option.map_eq_some_iff.mp h
      rw [List.takeWhile_cons_of_pos (by simpa using hb), List.map_cons, ih ht]

theorem strHasPrefixAt_eq_ok {img : Image} {off : ℕ} {pre : Str} {b : Bool}
    (h : strHasPrefixAt img off pre = .ok b) : b = pre.isPrefixOf (textAt img off) := by
  rw [strHasPrefixAt] at h
  cases hmatch : matchBytes (img.drop off) pre with
  | none =>
    rw [hmatch] at h
    cases h
  | some b' =>
    rw [hmatch] at h
    rw [← Except.ok.inj h]
    exact matchBytes_eq_some hmatch

/-- What a value leads to is what its string resolves to. -/
theorem pathResolve_of_pathResolveAt {img : Image} {fs : Tree} {root : Str} {off : ℕ} {path : Str}
    (h : pathResolveAt img fs root off = .ok path) :
    pathResolve fs root (textAt img off) = some path := by
  rw [pathResolveAt] at h
  split at h
  · cases h
  · obtain ⟨value, hvalue, h⟩ := Except.bind_eq_ok h
    have htext : textAt img off = value := by
      cases hc : cstring (img.drop off) with
      | none =>
        rw [hc] at hvalue
        cases hvalue
      | some s =>
        rw [hc] at hvalue
        rw [← Except.ok.inj hvalue]
        exact text_of_cstring hc
    rw [htext]
    split at h
    · next s hs => rw [hs, Except.ok.inj h]
    · cases h

/-! ## The libraries of the cache -/

variable (img : Image) (ptr : ℕ) (fs : Tree) (root : Str) (arch : BitVec 32)

/-- The key of an entry, and where its value leads. -/
def library (e : Entry) : Str × Str :=
  (textAt img (ptr + e.key.toNat),
    (pathResolveAt img fs root (ptr + e.value.toNat)).toOption.getD [])

/-- An entry of the architecture. -/
def libraryAt (i : ℕ) : List (Str × Str) :=
  match entryAt img ptr i with
  | .ok e => if e.wanted arch then [library img ptr fs root e] else []
  | .error _ => []

/-- The libraries of an architecture, in the order of the file. -/
def libraries : List (Str × Str) :=
  match nlibsAt img ptr with
  | .ok n => (List.range n.toNat).flatMap (libraryAt img ptr fs root arch)
  | .error _ => []

variable {img ptr fs root arch}

theorem libraryAt_of_wanted {i : ℕ} {e : Entry} (he : entryAt img ptr i = .ok e)
    (hw : e.wanted arch = true) :
    libraryAt img ptr fs root arch i = [library img ptr fs root e] := by
  rw [libraryAt, he]
  exact if_pos hw

theorem libraryAt_of_unwanted {i : ℕ} {e : Entry} (he : entryAt img ptr i = .ok e)
    (hw : ¬ e.wanted arch = true) : libraryAt img ptr fs root arch i = [] := by
  rw [libraryAt, he]
  exact if_neg hw

theorem libraries_of_nlibs {n : BitVec 32} (hn : nlibsAt img ptr = .ok n) :
    libraries img ptr fs root arch
      = (List.range n.toNat).flatMap (libraryAt img ptr fs root arch) := by
  rw [libraries, hn]

/-- **The libraries are the entries of the architecture.** -/
theorem mem_libraries {l : Str × Str} :
    l ∈ libraries img ptr fs root arch
      ↔ ∃ i e, Listed img ptr i e ∧ e.wanted arch = true ∧ l = library img ptr fs root e := by
  constructor
  · intro h
    rcases hn : nlibsAt img ptr with s | n
    · rw [libraries, hn] at h
      cases h
    · rw [libraries_of_nlibs hn] at h
      obtain ⟨i, hi, hl⟩ := List.mem_flatMap.mp h
      rcases he : entryAt img ptr i with s | e
      · rw [libraryAt, he] at hl
        cases hl
      · by_cases hw : e.wanted arch = true
        · rw [libraryAt_of_wanted he hw] at hl
          exact ⟨i, e, ⟨⟨n, hn, List.mem_range.mp hi⟩, he⟩, hw, List.mem_singleton.mp hl⟩
        · rw [libraryAt_of_unwanted he hw] at hl
          cases hl
  · rintro ⟨i, e, ⟨⟨n, hn, hi⟩, he⟩, hw, rfl⟩
    rw [libraries_of_nlibs hn]
    refine List.mem_flatMap.mpr ⟨i, List.mem_range.mpr hi, ?_⟩
    rw [libraryAt_of_wanted he hw]
    exact List.mem_singleton_self _

/-! ## A lookup that succeeds -/

/-- The selector keeps the path there is when the rule says so, if it does not fail. -/
def Follows (select : Option Str → Str → Option Bool) (keeps : Str → Str → Bool) : Prop :=
  ∀ orig alt b, select orig alt = some b → b = !orig.any (keeps · alt)

/-- A name is for the keys it begins. -/
def begins (key name : Str) : Bool := name.isPrefixOf key

section Lookup

variable {env : Env} {keeps : Str → Str → Bool} {libs : List Str} {i : ℕ} {e : Entry}

/-- What a selector that follows a rule makes of a slot. -/
theorem selectPath_ok (hsel : Follows env.select keeps) {path : Str}
    {pre places paths : List (Option Str)} {held : Option Str}
    (h : selectPath env i pre.length path (pre ++ held :: places) = .ok paths) :
    paths = pre ++ Cascade.offer keeps held path :: places := by
  have hslot : (pre ++ held :: places)[pre.length]?.join = held := by simp
  rw [selectPath, hslot] at h
  cases hb : env.select held path with
  | none =>
    rw [hb] at h
    cases h
  | some b =>
    rw [hb] at h
    have hrule := hsel held path b hb
    rw [Cascade.offer]
    cases b with
    | false =>
      rw [if_pos (by simpa using hrule)]
      exact (Except.ok.inj h).symm
    | true =>
      rw [if_neg (by simpa using hrule)]
      change (if _ then _ else _) = _ at h
      split at h
      · rw [← Except.ok.inj h]
        simp
      · cases h

/-- **The libraries for an entry**, on a lookup that goes on: labelled places, which the path comes
to. -/
theorem slotLoop_ok (hsel : Follows env.select keeps) (pre : List (Option Str))
    {places paths : List (Option Str)} (hlen : places.length = libs.length)
    (h : slotLoop img ptr env i e pre.length libs (pre ++ places) = .ok paths) :
    paths = pre ++ Cascade.pushAt keeps (begins (library img ptr env.fs env.root e).1)
        (library img ptr env.fs env.root e).2 libs places
      ∧ ((∃ lib ∈ libs, begins (library img ptr env.fs env.root e).1 lib = true) →
        pathResolveAt img env.fs env.root (ptr + e.value.toNat)
          = .ok (library img ptr env.fs env.root e).2) := by
  induction libs generalizing pre places with
  | nil =>
    constructor
    · rw [← Except.ok.inj h]
      cases places <;> rfl
    · rintro ⟨lib, hlib, -⟩
      exact absurd hlib List.not_mem_nil
  | cons lib libs ih =>
    obtain ⟨held, places, rfl⟩ := List.exists_cons_of_length_pos (by rw [hlen]; simp)
    have hskip : pre ++ held :: places = (pre ++ [held]) ++ places := by simp
    have hnext : pre.length + 1 = (pre ++ [held]).length := by simp
    rw [slotLoop] at h
    obtain ⟨b, hb, h⟩ := Except.bind_eq_ok h
    have hbegins : b = begins (library img ptr env.fs env.root e).1 lib := strHasPrefixAt_eq_ok hb
    rw [Cascade.pushAt, ← hbegins]
    cases b with
    | false =>
      change slotLoop _ _ _ _ _ _ _ _ = _ at h
      rw [hskip, hnext] at h
      obtain ⟨rfl, hres⟩ := ih (pre ++ [held]) (Nat.succ.inj hlen) h
      refine ⟨by simp, ?_⟩
      rintro ⟨lib', hmem, hlib'⟩
      obtain rfl | hmem := List.mem_cons.mp hmem
      · exact absurd (hbegins.trans hlib') Bool.false_ne_true
      · exact hres ⟨lib', hmem, hlib'⟩
    | true =>
      change (_ >>= _) = _ at h
      obtain ⟨path, hpath, h⟩ := Except.bind_eq_ok h
      have hlib : (library img ptr env.fs env.root e).2 = path := by
        rw [library, hpath]
        rfl
      rw [hlib]
      refine ⟨?_, fun _ => hpath⟩
      have hslot : (pre ++ held :: places)[pre.length]? = some held := by simp
      rw [hslot] at h
      simp only [Option.some.injEq, if_true] at h ⊢
      by_cases hheld : held = some path
      · rw [if_pos hheld, hskip, hnext] at h
        rw [if_pos hheld, (ih (pre ++ [held]) (Nat.succ.inj hlen) h).1, hlib]
        simp
      · rw [if_neg hheld] at h
        rw [if_neg hheld, selectPath_ok hsel h]

/-- Libraries come to the slots one after another. -/
def pushLibraries (keeps : Str → Str → Bool) (libs : List Str) (found : List (Str × Str))
    (places : List (Option Str)) : List (Option Str) :=
  found.foldl (fun places l => Cascade.pushAt keeps (begins l.1) l.2 libs places) places

theorem length_pushLibraries (keeps : Str → Str → Bool) (libs : List Str)
    (found : List (Str × Str)) (places : List (Option Str)) :
    (pushLibraries keeps libs found places).length = places.length := by
  induction found generalizing places with
  | nil => rfl
  | cons l found ih => exact (ih _).trans (Cascade.length_pushAt keeps (begins l.1) l.2 libs places)

/-- The value of an entry leads somewhere if a library looked for begins its key. -/
def Leads (img : Image) (ptr : ℕ) (env : Env) (arch : BitVec 32) (libs : List Str) (i : ℕ) : Prop :=
  ∀ e, entryAt img ptr i = .ok e → e.wanted arch = true →
    (∃ lib ∈ libs, begins (library img ptr env.fs env.root e).1 lib = true) →
    pathResolveAt img env.fs env.root (ptr + e.value.toNat)
      = .ok (library img ptr env.fs env.root e).2

/-- A turn of the loop over the entries. -/
theorem entryStep_ok (hsel : Follows env.select keeps) {places paths : List (Option Str)}
    (hlen : places.length = libs.length)
    (h : entryStep img ptr env arch libs i places = .ok paths) :
    paths = pushLibraries keeps libs (libraryAt img ptr env.fs env.root arch i) places
      ∧ Leads img ptr env arch libs i := by
  obtain ⟨e, he, h⟩ := Except.bind_eq_ok h
  by_cases hw : e.wanted arch = true
  · rw [if_pos hw] at h
    obtain ⟨hpaths, hres⟩ := slotLoop_ok hsel [] hlen h
    rw [libraryAt_of_wanted he hw]
    refine ⟨hpaths, fun e' he' _ hlib => ?_⟩
    obtain rfl := Except.ok.inj (he.symm.trans he')
    exact hres hlib
  · rw [if_neg hw] at h
    rw [libraryAt_of_unwanted he hw]
    refine ⟨(Except.ok.inj h).symm, fun e' he' hw' _ => ?_⟩
    obtain rfl := Except.ok.inj (he.symm.trans he')
    exact absurd hw' hw

/-- The loop over the entries. -/
theorem entryLoop_ok (hsel : Follows env.select keeps) {left : ℕ} {places paths : List (Option Str)}
    (hlen : places.length = libs.length)
    (h : entryLoop img ptr env arch libs left i places = .ok paths) :
    paths = pushLibraries keeps libs
        ((List.range' i left).flatMap (libraryAt img ptr env.fs env.root arch)) places
      ∧ ∀ k, i ≤ k → k < i + left → Leads img ptr env arch libs k := by
  induction left generalizing i places with
  | zero => exact ⟨(Except.ok.inj h).symm, fun k _ _ => by omega⟩
  | succ left ih =>
    obtain ⟨places', hstep, hrest⟩ := Except.bind_eq_ok h
    obtain ⟨rfl, hlead⟩ := entryStep_ok hsel hlen hstep
    obtain ⟨rfl, hleads⟩ := ih ((length_pushLibraries ..).trans hlen) hrest
    constructor
    · rw [List.range'_succ, List.flatMap_cons, pushLibraries, pushLibraries, pushLibraries,
        List.foldl_append]
    · intro k hik hk
      obtain rfl | hlt := Nat.eq_or_lt_of_le hik
      · exact hlead
      · exact hleads k hlt (by omega)

/-- **A lookup that succeeds**: the libraries of the cache came to the slots, and those looked for
lead somewhere. -/
theorem ldcacheResolve_ok (hsel : Follows env.select keeps) {paths : List (Option Str)}
    (h : ldcacheResolve img ptr env arch libs = .ok paths) :
    paths = Cascade.pushAll keeps begins libs (libraries img ptr env.fs env.root arch)
      ∧ ∀ i e, Listed img ptr i e → e.wanted arch = true →
        (∃ lib ∈ libs, begins (library img ptr env.fs env.root e).1 lib = true) →
        pathResolveAt img env.fs env.root (ptr + e.value.toNat)
          = .ok (library img ptr env.fs env.root e).2 := by
  obtain ⟨n, hn, h⟩ := Except.bind_eq_ok h
  obtain ⟨hpaths, hleads⟩ := entryLoop_ok hsel (List.length_replicate ..) h
  constructor
  · rw [hpaths, libraries_of_nlibs hn, List.range_eq_range']
    rfl
  · rintro i e ⟨⟨n', hn', hi⟩, he⟩ hw hlib
    obtain rfl := Except.ok.inj (hn.symm.trans hn')
    exact hleads i (Nat.zero_le i) (by omega) e he hw hlib

end Lookup

end Ldcache
