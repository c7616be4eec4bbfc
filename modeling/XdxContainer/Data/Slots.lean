import Mathlib.Data.List.Nodup
import Mathlib.Data.List.ReduceOption

/-!
# Data/Slots — arrays of pointers

    filled n xs  =  x₀ x₁ … xₖ NULL … NULL        n slots

The array functions of `utils.c` on arrays with NULL in unused slots.  Each is partial: it has no
result when it reads or writes outside of an array.  On arrays filled from the front they are the
operations of lists, and they have a result as long as there is room.
-/

/-- An array of pointers, some of them NULL. -/
abbrev Slots (α : Type) := List (Option α)

namespace Slots

variable {α : Type}

/-! ## The functions -/

/-- `array_new`. -/
def arrayNew (size : ℕ) : Slots α := List.replicate size none

/-- `*ptr++ = x`. -/
def store (arr : Slots α) (ptr : ℕ) (x : Option α) : Option (Slots α × ℕ) :=
  if ptr < arr.length then some (arr.set ptr x, ptr + 1) else none

/-- `array_append`. -/
def arrayAppend (arr : Slots α) (ptr : ℕ) (src : Slots α) (size : ℕ) : Option (Slots α × ℕ) :=
  if size ≤ src.length ∧ ptr + size ≤ arr.length then
    some (arr.take ptr ++ src.take size ++ arr.drop (ptr + size), ptr + size)
  else none

/-- `array_copy`. -/
def arrayCopy (src : Slots α) (size : ℕ) : Option (Slots α) :=
  (arrayAppend (arrayNew size) 0 src size).map (·.1)

/-- `array_size`. -/
def arraySize : Slots α → Option ℕ
  | [] => none
  | none :: _ => some 0
  | some _ :: arr => (arraySize arr).map (· + 1)

/-- The loop of `array_pack`, with `left` slots to go: `ptr` is looked at, `arr` is filled next. -/
def packLoop : (left ptr arr : ℕ) → Slots α → Option (Slots α × ℕ)
  | 0, _, arr, cells => some (cells, arr)
  | left + 1, ptr, arr, cells => do
    match ← cells[ptr]? with
    | none => packLoop left (ptr + 1) arr cells
    | some x =>
      let tmp ← cells[arr]?
      packLoop left (ptr + 1) (arr + 1) ((cells.set arr (some x)).set ptr tmp)

/-- `array_pack`: the array, and the number of its entries. -/
def arrayPack (cells : Slots α) (size : ℕ) : Option (Slots α × ℕ) := packLoop size 0 0 cells

/-! ## Arrays filled from the front -/

/-- The array of `n` slots whose first ones hold the list. -/
def filled (n : ℕ) (xs : List α) : Slots α := xs.map some ++ List.replicate (n - xs.length) none

/-- A new array is filled with nothing. -/
theorem arrayNew_eq_filled (n : ℕ) : arrayNew n = filled n ([] : List α) := rfl

theorem length_filled {n : ℕ} {xs : List α} (h : xs.length ≤ n) : (filled n xs).length = n := by
  rw [filled, List.length_append, List.length_map, List.length_replicate, Nat.add_sub_cancel' h]

/-- An array with room has an empty slot behind its elements. -/
theorem filled_of_lt {n : ℕ} {xs : List α} (h : xs.length < n) :
    filled n xs = xs.map some ++ none :: List.replicate (n - xs.length - 1) none := by
  rw [filled, ← List.replicate_succ, Nat.sub_add_cancel (Nat.sub_pos_of_lt h)]

theorem filled_full (xs : List α) : filled xs.length xs = xs.map some := by
  rw [filled, Nat.sub_self, List.replicate_zero, List.append_nil]

theorem mapM_map_some (xs : List α) : (xs.map some).mapM id = some xs := by
  induction xs with
  | nil => rfl
  | cons x xs ih =>
    rw [List.map_cons, List.mapM_cons, ih]
    rfl

/-- Whatever is put in the first free slot. -/
theorem set_filled {n : ℕ} {xs : List α} (h : xs.length < n) (x : Option α) :
    (filled n xs).set xs.length x
      = xs.map some ++ x :: List.replicate (n - xs.length - 1) none := by
  have hlen : (xs.map some : Slots α).length = xs.length := List.length_map ..
  rw [filled_of_lt h, List.set_append_right _ _ (Nat.le_of_eq hlen), hlen, Nat.sub_self,
    List.set_cons_zero]

/-- A store into the first empty slot. -/
theorem store_filled {n : ℕ} {xs : List α} (h : xs.length < n) (x : α) :
    store (filled n xs) xs.length (some x)
      = some (filled n (xs ++ [x]), (xs ++ [x]).length) := by
  have hrest : n - (xs ++ [x]).length = n - xs.length - 1 := by
    rw [List.length_append, List.length_singleton, Nat.sub_sub]
  rw [store, length_filled (Nat.le_of_lt h), if_pos h, set_filled h, filled, hrest, List.map_append]
  simp

/-- Writing NULL behind the entries changes nothing. -/
theorem store_filled_none {n : ℕ} {xs : List α} (h : xs.length < n) :
    store (filled n xs) xs.length none = some (filled n xs, xs.length + 1) := by
  rw [store, length_filled (Nat.le_of_lt h), if_pos h, set_filled h, filled_of_lt h]

/-- The size is the number of elements. -/
theorem arraySize_filled {n : ℕ} {xs : List α} (h : xs.length < n) :
    arraySize (filled n xs) = some xs.length := by
  rw [filled_of_lt h]
  induction xs generalizing n with
  | nil => rfl
  | cons x xs ih =>
    have hlt : xs.length < n - 1 := by
      rw [List.length_cons] at h
      omega
    have hrest : n - (x :: xs).length - 1 = n - 1 - xs.length - 1 := by
      rw [List.length_cons]
      omega
    rw [List.map_cons, List.cons_append, arraySize, hrest, ih hlt, Option.map_some,
      List.length_cons]

/-- The elements of one array are put behind those of another. -/
theorem arrayAppend_filled {n m : ℕ} {xs ys : List α} (hn : (xs ++ ys).length ≤ n)
    (hm : ys.length ≤ m) :
    arrayAppend (filled n xs) xs.length (filled m ys) ys.length
      = some (filled n (xs ++ ys), (xs ++ ys).length) := by
  rw [List.length_append] at hn
  have htake : (filled n xs).take xs.length = xs.map some :=
    List.take_left' (List.length_map ..)
  have hsrc : (filled m ys).take ys.length = ys.map some :=
    List.take_left' (List.length_map ..)
  have hdrop : (filled n xs).drop (xs.length + ys.length)
      = List.replicate (n - (xs ++ ys).length) none := by
    rw [← List.drop_drop, filled, List.drop_left' (List.length_map ..), List.drop_replicate,
      List.length_append, Nat.sub_sub]
  rw [arrayAppend, length_filled hm, length_filled (by omega), if_pos ⟨hm, hn⟩, htake, hsrc, hdrop,
    filled, List.map_append, List.length_append]

theorem arrayCopy_map_some (xs : List α) :
    arrayCopy (xs.map some) xs.length = some (xs.map some) := by
  have h : arrayAppend (filled xs.length []) 0 (filled xs.length xs) xs.length
      = some (filled xs.length ([] ++ xs), ([] ++ xs).length) :=
    arrayAppend_filled (Nat.le_refl _) (Nat.le_refl _)
  rw [List.nil_append, filled_full] at h
  rw [arrayCopy, arrayNew_eq_filled, h, Option.map_some]

/-- The first entry behind the unused slots changes places with the first of these, if there is
one. -/
theorem swap_first (ks : List α) (m : ℕ) (rest : Slots α) (x : α) :
    ∃ tmp, (ks.map some ++ List.replicate m none ++ some x :: rest)[ks.length]? = some tmp
      ∧ ((ks.map some ++ List.replicate m none ++ some x :: rest).set ks.length (some x)).set
          (ks.length + m) tmp
        = (ks ++ [x]).map some ++ List.replicate m none ++ rest := by
  rcases m with _ | m
  · refine ⟨some x, ?_, ?_⟩
    · simp
    · simp
  · refine ⟨none, ?_, ?_⟩
    · simp [List.replicate_succ]
    · have hnone :
          List.replicate m none ++ none :: rest = none :: (List.replicate m none ++ rest) := by
        rw [← List.cons_append, ← List.replicate_succ, List.replicate_succ']
        simp
      simpa [List.replicate_succ] using hnone

/-- **Packing keeps the entries, in their order.**  The induction is on the slots not yet looked at:
before them are the entries found so far, and behind these only NULL. -/
theorem packLoop_eq (ks : List α) (m : ℕ) (rest behind : Slots α) :
    packLoop rest.length (ks.length + m) ks.length
        (ks.map some ++ List.replicate m none ++ (rest ++ behind))
      = some (filled (ks.length + m + rest.length) (ks ++ rest.reduceOption) ++ behind,
          (ks ++ rest.reduceOption).length) := by
  induction rest generalizing ks m with
  | nil =>
    rw [List.reduceOption_nil, List.append_nil, List.nil_append, filled, List.length_nil]
    simp [packLoop]
  | cons c rest ih =>
    have hpre : (ks.map some ++ List.replicate m none : Slots α).length = ks.length + m := by
      rw [List.length_append, List.length_map, List.length_replicate]
    have hcell : (ks.map some ++ List.replicate m none ++ c :: (rest ++ behind))[ks.length + m]?
        = some c := by
      rw [List.getElem?_append_right (Nat.le_of_eq hpre), hpre, Nat.sub_self,
        List.getElem?_cons_zero]
    rw [List.cons_append, List.length_cons, packLoop, hcell]
    rcases c with _ | x
    · have hshift : ks.map some ++ List.replicate m none ++ none :: (rest ++ behind)
          = ks.map some ++ List.replicate (m + 1) none ++ (rest ++ behind) := by
        simp [List.replicate_succ', List.append_assoc]
      change packLoop rest.length (ks.length + m + 1) ks.length _ = _
      rw [hshift, Nat.add_assoc, ih, List.reduceOption_cons_of_none]
      congr 4
      omega
    · have hswap := swap_first ks m (rest ++ behind) x
      obtain ⟨tmp, htmp, hset⟩ := hswap
      have hks : (ks ++ [x]).length = ks.length + 1 := by
        rw [List.length_append, List.length_singleton]
      change (_ >>= fun tmp => packLoop rest.length _ _ _) = _
      rw [htmp]
      change packLoop rest.length (ks.length + m + 1) (ks.length + 1) _ = _
      rw [hset, Nat.add_right_comm, ← hks, ih, List.reduceOption_cons_of_some, List.append_assoc,
        List.singleton_append, hks]
      congr 4
      omega

theorem arrayPack_append (cells behind : Slots α) :
    arrayPack (cells ++ behind) cells.length
      = some (filled cells.length cells.reduceOption ++ behind, cells.reduceOption.length) := by
  have h := packLoop_eq [] 0 cells behind
  simpa [arrayPack] using h

/-- Packing fills the array with the elements there are. -/
theorem arrayPack_eq (cells : Slots α) :
    arrayPack cells cells.length
      = some (filled cells.length cells.reduceOption, cells.reduceOption.length) := by
  have h := arrayPack_append cells []
  rwa [List.append_nil, List.append_nil] at h

theorem take_filled (n : ℕ) (xs : List α) : (filled n xs).take xs.length = xs.map some :=
  List.take_left' (List.length_map some)

/-- Behind the entries every slot is NULL. -/
theorem getElem?_filled_of_le {n i : ℕ} {xs : List α} (hi : xs.length ≤ i) (hn : i < n) :
    (filled n xs)[i]? = some none := by
  have hmap : (xs.map some : Slots α).length ≤ i := by rwa [List.length_map]
  rw [filled, List.getElem?_append_right hmap, List.length_map, List.getElem?_replicate,
    if_pos (by omega)]

theorem map_some_reduceOption (cells : Slots α) :
    cells.reduceOption.map some = cells.filter Option.isSome := by
  induction cells with
  | nil => rfl
  | cons c cells ih =>
    rcases c with _ | x
    · rw [List.reduceOption_cons_of_none, List.filter_cons_of_neg Bool.false_ne_true, ih]
    · rw [List.reduceOption_cons_of_some, List.filter_cons_of_pos rfl, List.map_cons, ih]

/-- No pointer gets lost or twice into the array. -/
theorem filled_reduceOption_perm (cells : Slots α) :
    (filled cells.length cells.reduceOption).Perm cells := by
  induction cells with
  | nil => exact List.Perm.refl _
  | cons c cells ih =>
    rcases c with _ | x
    · have hlt : cells.reduceOption.length < cells.length + 1 :=
        Nat.lt_succ_of_le (List.reduceOption_length_le cells)
      have hrest : cells.length + 1 - cells.reduceOption.length - 1
          = cells.length - cells.reduceOption.length := by omega
      rw [List.length_cons, List.reduceOption_cons_of_none, filled_of_lt hlt, hrest]
      exact List.perm_middle.trans (ih.cons none)
    · rw [List.reduceOption_cons_of_some, filled, List.length_cons, List.length_cons,
        Nat.add_sub_add_right]
      exact ih.cons (some x)

/-- **`array_pack` is a stable compaction** of the first `n` slots: the entries come first, in their
order, behind them is only NULL, and the slots from `n` on are as they were. -/
theorem arrayPack_compacts (cells : Slots α) (n : ℕ) (hn : n ≤ cells.length) :
    ∃ arr size, arrayPack cells n = some (arr, size)
      ∧ size = (cells.take n).countP Option.isSome
      ∧ arr.take size = (cells.take n).filter Option.isSome
      ∧ (∀ i, size ≤ i → i < n → arr[i]? = some none)
      ∧ (arr.take n).Perm (cells.take n)
      ∧ arr.drop n = cells.drop n := by
  have hlen : (cells.take n).length = n := List.length_take_of_le hn
  have hle : (cells.take n).reduceOption.length ≤ n := by
    have h := List.reduceOption_length_le (cells.take n)
    rwa [hlen] at h
  have hfill : (filled n (cells.take n).reduceOption).length = n := length_filled hle
  have hpack := arrayPack_append (cells.take n) (cells.drop n)
  rw [List.take_append_drop, hlen] at hpack
  refine ⟨_, _, hpack, ?_, ?_, ?_, ?_, ?_⟩
  · rw [List.countP_eq_length_filter, ← map_some_reduceOption, List.length_map]
  · rw [List.take_append_of_le_length (by rwa [hfill]), take_filled, map_some_reduceOption]
  · intro i hsize hi
    rw [List.getElem?_append_left (by rwa [hfill]), getElem?_filled_of_le hsize hi]
  · have hperm := filled_reduceOption_perm (cells.take n)
    rw [hlen] at hperm
    rwa [List.take_left' hfill]
  · rw [List.drop_left' hfill]

/-- Two entries among five slots, of which the last is not packed. -/
theorem arrayPack_compacts_five :
    ∃ arr size, arrayPack [none, some 'a', none, some 'b', some 'c'] 4 = some (arr, size)
      ∧ size = 2 ∧ arr.take size = [some 'a', some 'b']
      ∧ arr.drop 4 = [some 'c'] := by
  obtain ⟨arr, size, hpack, hsize, htake, -, -, hdrop⟩ :=
    arrayPack_compacts [none, some 'a', none, some 'b', some 'c'] 4 (by simp)
  exact ⟨arr, size, hpack, hsize, htake, hdrop⟩

/-! ## Entries that are all different -/

/-- **The entries are all different** when no two slots have the same one. -/
theorem nodup_reduceOption_iff (cells : Slots α) :
    cells.reduceOption.Nodup
      ↔ ∀ (j j' : ℕ) x, j ≠ j' → cells[j]? = some (some x) → cells[j']? ≠ some (some x) := by
  rw [List.reduceOption, List.Nodup, List.pairwise_filterMap, List.pairwise_iff_getElem]
  constructor
  · intro h
    have hlt : ∀ (j j' : ℕ) x, j < j' → cells[j]? = some (some x) → cells[j']? ≠ some (some x) := by
      intro j j' x hjj' hj hj'
      obtain ⟨hlen, hx⟩ := List.getElem?_eq_some_iff.mp hj
      obtain ⟨hlen', hx'⟩ := List.getElem?_eq_some_iff.mp hj'
      exact h j j' hlen hlen' hjj' x hx x hx' rfl
    intro j j' x hne hj hj'
    obtain hjj' | hjj' := Nat.lt_or_gt_of_ne hne
    · exact hlt j j' x hjj' hj hj'
    · exact hlt j' j x hjj' hj' hj
  · rintro h j j' hlen hlen' hjj' x hx x' hx' rfl
    exact h j j' x (Nat.ne_of_lt hjj') (List.getElem?_eq_some_iff.mpr ⟨hlen, hx⟩)
      (List.getElem?_eq_some_iff.mpr ⟨hlen', hx'⟩)

/-- What `array_pack` leaves has no entry twice when no two slots had the same one. -/
theorem arrayPack_nodup_iff (cells : Slots α) :
    (∃ arr n, arrayPack cells cells.length = some (arr, n) ∧ (arr.take n).Nodup)
      ↔ ∀ (j j' : ℕ) x, j ≠ j' → cells[j]? = some (some x) → cells[j']? ≠ some (some x) := by
  rw [← nodup_reduceOption_iff, arrayPack_eq]
  have hentries : ((filled cells.length cells.reduceOption).take cells.reduceOption.length).Nodup
      ↔ cells.reduceOption.Nodup := by
    rw [take_filled]
    exact List.nodup_map_iff fun _ _ h => Option.some.inj h
  rw [← hentries]
  constructor
  · rintro ⟨arr, n, heq, hnodup⟩
    obtain ⟨rfl, rfl⟩ := Prod.mk.inj (Option.some.inj heq)
    exact hnodup
  · exact fun hnodup => ⟨_, _, rfl, hnodup⟩

end Slots
