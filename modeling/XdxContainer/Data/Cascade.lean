import Mathlib.Data.List.Basic
import Mathlib.Data.List.Induction
import Mathlib.Logic.Function.Iterate

/-!
# Data/Cascade — places that pass on what they hold already

    x ──▸ [ place 0 ] ──already there──▸ [ place 1 ] ──already there──▸ [ place 2 ] …
               │ not there: taken, unless what is there stays

Things come to a row of places one after another.  The first place holds the choice among all of
them, the second the choice among the repeats of the first, and so on: the row is `row`, and depends
on the function that chooses alone.  Several rows may share one list of labelled places.

* `foldl_push` — what a row holds.
* `slot_eq` — what a place among labelled ones holds.
-/

namespace Cascade

variable {α β : Type} [DecidableEq α]

/-! ## One row -/

/-- What a place holds once `x` came to it, when `keeps h x` says that `h` stays. -/
def offer (keeps : α → α → Bool) (held : Option α) (x : α) : Option α :=
  if held.any (keeps · x) then held else some x

/-- A row takes `x`: the first place that does not hold it already decides. -/
def push (keeps : α → α → Bool) (x : α) : List (Option α) → List (Option α)
  | [] => []
  | held :: places =>
    if held = some x then held :: push keeps x places else offer keeps held x :: places

/-- `choose` is what a place holds when some things came to it. -/
structure Holds (keeps : α → α → Bool) (choose : List α → Option α) : Prop where
  nil : choose [] = none
  concat : ∀ xs x, choose (xs ++ [x])
    = if choose xs = some x then choose xs else offer keeps (choose xs) x

/-- The things that were the choice already when they came. -/
def repeatsFrom (choose : List α → Option α) : List α → List α → List α
  | _, [] => []
  | before, x :: xs =>
    if choose before = some x then x :: repeatsFrom choose (before ++ [x]) xs
    else repeatsFrom choose (before ++ [x]) xs

/-- What a place passes on. -/
def repeats (choose : List α → Option α) (xs : List α) : List α := repeatsFrom choose [] xs

/-- A row of `n` places that some things came to. -/
def row (choose : List α → Option α) : ℕ → List α → List (Option α)
  | 0, _ => []
  | n + 1, xs => choose xs :: row choose n (repeats choose xs)

variable {keeps : α → α → Bool} {choose : List α → Option α}

omit [DecidableEq α] in
theorem offer_of_keeps {held x : α} (h : keeps held x = true) :
    offer keeps (some held) x = some held := if_pos h

omit [DecidableEq α] in
theorem offer_of_not_keeps {held : Option α} {x : α} (h : ∀ y, held = some y → keeps y x = false) :
    offer keeps held x = some x := by
  cases held with
  | none => rfl
  | some y =>
    rw [offer, Option.any_some, h y rfl]
    rfl

theorem repeats_concat (xs : List α) (x : α) :
    repeats choose (xs ++ [x])
      = if choose xs = some x then repeats choose xs ++ [x] else repeats choose xs := by
  have hgen : ∀ xs before : List α, repeatsFrom choose before (xs ++ [x])
      = if choose (before ++ xs) = some x then repeatsFrom choose before xs ++ [x]
        else repeatsFrom choose before xs := by
    intro xs
    induction xs with
    | nil =>
      intro before
      rw [List.append_nil]
      rfl
    | cons y xs ih =>
      intro before
      have hih := ih (before ++ [y])
      rw [List.append_assoc, List.singleton_append] at hih
      rw [List.cons_append, repeatsFrom, repeatsFrom, hih]
      split <;> split <;> rfl
  exact hgen xs []

/-- What a place holds came to it. -/
theorem Holds.mem (h : Holds keeps choose) {xs : List α} {x : α} (hx : choose xs = some x) :
    x ∈ xs := by
  induction xs using List.reverseRecOn generalizing x with
  | nil =>
    rw [h.nil] at hx
    cases hx
  | append_singleton xs y ih =>
    rw [h.concat, offer] at hx
    split_ifs at hx
    · exact List.mem_append_left [y] (ih hx)
    · exact List.mem_append_left [y] (ih hx)
    · rw [Option.some.inj hx]
      exact List.mem_append_right xs (List.mem_singleton_self x)

/-- What a place passes on came to it. -/
theorem repeats_subset (xs : List α) : repeats choose xs ⊆ xs := by
  induction xs using List.reverseRecOn with
  | nil => exact List.Subset.refl _
  | append_singleton xs x ih =>
    rw [repeats_concat]
    split
    · exact List.append_subset.mpr ⟨List.subset_append_of_subset_left [x] ih,
        List.subset_append_right xs [x]⟩
    · exact List.subset_append_of_subset_left [x] ih

/-- **A row takes one thing more.** -/
theorem row_concat (h : Holds keeps choose) (n : ℕ) (xs : List α) (x : α) :
    row choose n (xs ++ [x]) = push keeps x (row choose n xs) := by
  induction n generalizing xs with
  | zero => rfl
  | succ n ih =>
    rw [row, row, push, h.concat, repeats_concat]
    by_cases hx : choose xs = some x
    · rw [if_pos hx, if_pos hx, if_pos hx, ih]
    · rw [if_neg hx, if_neg hx, if_neg hx]

theorem row_nil (h : Holds keeps choose) (n : ℕ) : row choose n [] = List.replicate n none := by
  induction n with
  | zero => rfl
  | succ n ih =>
    rw [row, h.nil, repeats, repeatsFrom, ih]
    rfl

/-- **What a row holds** when things came to it. -/
theorem foldl_push (h : Holds keeps choose) (n : ℕ) (xs : List α) :
    xs.foldl (fun places x => push keeps x places) (List.replicate n none) = row choose n xs := by
  induction xs using List.reverseRecOn with
  | nil => exact (row_nil h n).symm
  | append_singleton xs x ih =>
    rw [List.foldl_append, List.foldl_cons, List.foldl_nil, ih, row_concat h]

/-- The place `k` of a row chooses among the repeats of repeats. -/
theorem getElem?_row (choose : List α → Option α) {k n : ℕ} (hk : k < n) (xs : List α) :
    (row choose n xs)[k]? = some (choose ((repeats choose)^[k] xs)) := by
  induction n generalizing k xs with
  | zero => omega
  | succ n ih =>
    cases k with
    | zero => rfl
    | succ k =>
      rw [row, List.getElem?_cons_succ, ih (Nat.lt_of_succ_lt_succ hk), Function.iterate_succ_apply]

/-! ## Labelled places -/

/-- Labelled places take `x`: those with a label it is for, as if they were a row. -/
def pushAt (keeps : α → α → Bool) (isFor : β → Bool) (x : α) :
    List β → List (Option α) → List (Option α)
  | label :: labels, held :: places =>
    if isFor label then
      if held = some x then held :: pushAt keeps isFor x labels places
      else offer keeps held x :: places
    else held :: pushAt keeps isFor x labels places
  | _, places => places

@[simp] theorem length_pushAt (keeps : α → α → Bool) (isFor : β → Bool) (x : α) (labels : List β)
    (places : List (Option α)) :
    (pushAt keeps isFor x labels places).length = places.length := by
  induction labels generalizing places with
  | nil => cases places <;> rfl
  | cons label labels ih =>
    cases places with
    | nil => rfl
    | cons held places =>
      rw [pushAt]
      split
      · split
        · exact congrArg (· + 1) (ih places)
        · rfl
      · exact congrArg (· + 1) (ih places)

section Places

variable {isFor : β → Bool} {x y : α} {labels : List β} {places : List (Option α)} {j : ℕ}

/-- **What is new in a place came to it.** -/
theorem getElem?_pushAt (h : (pushAt keeps isFor x labels places)[j]? = some (some y)) :
    places[j]? = some (some y) ∨ y = x ∧ ∃ label, labels[j]? = some label ∧ isFor label = true := by
  induction labels generalizing places j with
  | nil => cases places <;> exact .inl h
  | cons label labels ih =>
    cases places with
    | nil => exact .inl h
    | cons held places =>
      have hrest : ∀ j, (pushAt keeps isFor x labels places)[j]? = some (some y) →
          (held :: places)[j + 1]? = some (some y)
            ∨ y = x ∧ ∃ l, (label :: labels)[j + 1]? = some l ∧ isFor l = true := by
        intro j hj
        exact ih hj
      rw [pushAt] at h
      split at h
      · next hlabel =>
        split at h
        · cases j with
          | zero => exact .inl h
          | succ j => exact hrest j h
        · cases j with
          | zero =>
            rw [List.getElem?_cons_zero, offer] at h
            split at h
            · exact .inl h
            · exact .inr ⟨(Option.some.inj (Option.some.inj h)).symm, label, rfl, hlabel⟩
          | succ j => exact .inl h
      · cases j with
        | zero => exact .inl h
        | succ j => exact hrest j h

/-- A place that holds something goes on to. -/
theorem isSome_pushAt (h : (places[j]?.join).isSome) :
    ((pushAt keeps isFor x labels places)[j]?.join).isSome := by
  induction labels generalizing places j with
  | nil => cases places <;> exact h
  | cons label labels ih =>
    cases places with
    | nil => exact h
    | cons held places =>
      rw [pushAt]
      split
      · split
        · cases j with
          | zero => exact h
          | succ j => exact ih h
        · cases j with
          | zero =>
            rw [List.getElem?_cons_zero, offer]
            split
            · exact h
            · rfl
          | succ j => exact h
      · cases j with
        | zero => exact h
        | succ j => exact ih h

/-- **The first place something is for holds something** once it came. -/
theorem isSome_pushAt_first {label : β} (hj : labels[j]? = some label) (hfor : isFor label = true)
    (hfirst : ∀ k < j, ∀ l, labels[k]? = some l → isFor l = false) (hlen : j < places.length) :
    ((pushAt keeps isFor x labels places)[j]?.join).isSome := by
  induction labels generalizing places j with
  | nil => cases hj
  | cons l labels ih =>
    cases places with
    | nil => exact absurd hlen (Nat.not_lt_zero j)
    | cons held places =>
      cases j with
      | zero =>
        obtain rfl := Option.some.inj hj
        rw [pushAt, if_pos hfor]
        split
        · next hheld =>
          rw [hheld]
          rfl
        · rw [List.getElem?_cons_zero, offer]
          split
          · next hkeep => exact (Option.isSome_of_any hkeep)
          · rfl
      | succ j =>
        have hl : isFor l = false := hfirst 0 (Nat.succ_pos j) l rfl
        rw [pushAt, hl]
        exact ih hj (fun k hk => hfirst (k + 1) (Nat.succ_lt_succ hk))
          (Nat.lt_of_succ_lt_succ hlen)

end Places

/-- Labelled places that keyed things came to, one after another. -/
def pushAll {κ : Type} (keeps : α → α → Bool) (isFor : κ → β → Bool) (labels : List β)
    (things : List (κ × α)) : List (Option α) :=
  things.foldl (fun places t => pushAt keeps (isFor t.1) t.2 labels places)
    (List.replicate labels.length none)

section All

variable {κ : Type} {isFor : κ → β → Bool} {labels : List β} {things : List (κ × α)} {j : ℕ}

theorem pushAll_concat (things : List (κ × α)) (t : κ × α) :
    pushAll keeps isFor labels (things ++ [t])
      = pushAt keeps (isFor t.1) t.2 labels (pushAll keeps isFor labels things) := by
  rw [pushAll, List.foldl_append]
  rfl

@[simp] theorem length_pushAll (things : List (κ × α)) :
    (pushAll keeps isFor labels things).length = labels.length := by
  induction things using List.reverseRecOn with
  | nil => exact List.length_replicate
  | append_singleton things t ih => rw [pushAll_concat, length_pushAt, ih]

/-- **What a place holds came to it.** -/
theorem exists_of_pushAll {y : α} (h : (pushAll keeps isFor labels things)[j]? = some (some y)) :
    ∃ t ∈ things, t.2 = y ∧ ∃ label, labels[j]? = some label ∧ isFor t.1 label = true := by
  induction things using List.reverseRecOn with
  | nil =>
    have hmem := List.mem_of_getElem? h
    exact absurd (List.eq_of_mem_replicate hmem) (Option.some_ne_none y)
  | append_singleton things t ih =>
    rw [pushAll_concat] at h
    obtain hold | ⟨rfl, hlabel⟩ := getElem?_pushAt h
    · obtain ⟨t', ht', hrest⟩ := ih hold
      exact ⟨t', List.mem_append_left _ ht', hrest⟩
    · exact ⟨t, List.mem_append_right _ (List.mem_singleton_self t), rfl, hlabel⟩

/-- **The first place that is for a thing that came holds something.** -/
theorem isSome_pushAll {t : κ × α} (ht : t ∈ things) {label : β} (hj : labels[j]? = some label)
    (hfor : isFor t.1 label = true)
    (hfirst : ∀ k < j, ∀ l, labels[k]? = some l → isFor t.1 l = false) :
    ((pushAll keeps isFor labels things)[j]?.join).isSome := by
  induction things using List.reverseRecOn with
  | nil => cases ht
  | append_singleton things t' ih =>
    rw [pushAll_concat]
    obtain ht | ht := List.mem_append.mp ht
    · exact isSome_pushAt (ih ht)
    · obtain rfl := List.mem_singleton.mp ht
      have hlen : j < (pushAll keeps isFor labels things).length := by
        rw [length_pushAll]
        exact (List.getElem?_eq_some_iff.mp hj).1
      exact isSome_pushAt_first hj hfor hfirst hlen

end All

/-! ## The row of a label -/

variable [DecidableEq β]

/-- The places with a label. -/
def rowAt (label : β) : List β → List (Option α) → List (Option α)
  | l :: labels, held :: places =>
    if l = label then held :: rowAt label labels places else rowAt label labels places
  | _, _ => []

/-- What is for one label alone comes to its row. -/
theorem rowAt_pushAt {isFor : β → Bool} {x : α} {label : β} {labels : List β}
    (hfor : ∀ l ∈ labels, isFor l = true ↔ l = label) (places : List (Option α)) :
    rowAt label labels (pushAt keeps isFor x labels places)
      = push keeps x (rowAt label labels places) := by
  induction labels generalizing places with
  | nil => cases places <;> rfl
  | cons l labels ih =>
    cases places with
    | nil => rfl
    | cons held places =>
      have hih := ih (fun l' hl' => hfor l' (List.mem_cons_of_mem l hl')) places
      have hl := hfor l List.mem_cons_self
      by_cases hlabel : l = label
      · rw [pushAt, if_pos (hl.mpr hlabel), rowAt, if_pos hlabel, push]
        split
        · rw [rowAt, if_pos hlabel, hih]
        · rw [rowAt, if_pos hlabel]
      · rw [pushAt, if_neg (fun h => hlabel (hl.mp h)), rowAt, if_neg hlabel, rowAt, if_neg hlabel,
          hih]

/-- What is not for a label leaves its row alone. -/
theorem rowAt_pushAt_of_not {isFor : β → Bool} {x : α} {label : β} {labels : List β}
    (hnot : isFor label = false) (places : List (Option α)) :
    rowAt label labels (pushAt keeps isFor x labels places) = rowAt label labels places := by
  induction labels generalizing places with
  | nil => cases places <;> rfl
  | cons l labels ih =>
    cases places with
    | nil => rfl
    | cons held places =>
      by_cases hlabel : l = label
      · subst hlabel
        rw [pushAt, hnot, rowAt, if_pos rfl, ← ih places]
        exact if_pos rfl
      · rw [pushAt, rowAt, if_neg hlabel]
        split
        · split
          · rw [rowAt, if_neg hlabel, ih]
          · rw [rowAt, if_neg hlabel]
        · rw [rowAt, if_neg hlabel, ih]

omit [DecidableEq α] in
theorem rowAt_replicate (label : β) (labels : List β) :
    rowAt label labels (List.replicate labels.length (none : Option α))
      = List.replicate (labels.countP (· = label)) none := by
  induction labels with
  | nil => rfl
  | cons l labels ih =>
    rw [List.length_cons, List.replicate_succ, rowAt, ih, List.countP_cons]
    by_cases hlabel : l = label
    · rw [if_pos hlabel, if_pos (decide_eq_true hlabel), List.replicate_succ]
    · rw [if_neg hlabel, if_neg (fun h => hlabel (of_decide_eq_true h)), Nat.add_zero]

omit [DecidableEq α] in
/-- A place is in the row of its label, behind those before it. -/
theorem getElem?_rowAt {label : β} {labels : List β} {j : ℕ} (hj : labels[j]? = some label)
    (places : List (Option α)) :
    (rowAt label labels places)[(labels.take j).countP (· = label)]? = places[j]? := by
  induction labels generalizing places j with
  | nil => cases hj
  | cons l labels ih =>
    cases places with
    | nil => rfl
    | cons held places =>
      cases j with
      | zero =>
        obtain rfl := Option.some.inj hj
        rw [rowAt, if_pos rfl]
        rfl
      | succ j =>
        rw [List.take_succ_cons, List.countP_cons, rowAt]
        by_cases hlabel : l = label
        · rw [if_pos hlabel, if_pos (decide_eq_true hlabel)]
          exact ih hj places
        · rw [if_neg hlabel, if_neg (fun h => hlabel (of_decide_eq_true h))]
          exact ih hj places

/-- A row has one place for each time its label stands there. -/
theorem count_take_lt {label : β} {labels : List β} {j : ℕ} (hj : labels[j]? = some label) :
    (labels.take j).countP (· = label) < labels.countP (· = label) := by
  have hsplit : labels.take j ++ labels.drop j = labels := List.take_append_drop j labels
  have hhead : (labels.drop j)[0]? = some label := by rw [List.getElem?_drop, Nat.add_zero, hj]
  have hpos : 0 < (labels.drop j).countP (· = label) :=
    List.countP_pos_iff.mpr ⟨label, List.mem_of_getElem? hhead, decide_eq_true rfl⟩
  calc (labels.take j).countP (· = label)
      < (labels.take j).countP (· = label) + (labels.drop j).countP (· = label) :=
        Nat.lt_add_of_pos_right hpos
    _ = labels.countP (· = label) := by rw [← List.countP_append, hsplit]

omit [DecidableEq α] in
/-- A row has a place for each number below. -/
theorem exists_place {label : β} {labels : List β} {k : ℕ}
    (hk : k < labels.countP (· = label)) :
    ∃ j, labels[j]? = some label ∧ (labels.take j).countP (· = label) = k := by
  induction labels generalizing k with
  | nil => cases hk
  | cons l labels ih =>
    rw [List.countP_cons] at hk
    by_cases hl : l = label
    · rw [if_pos (decide_eq_true hl)] at hk
      cases k with
      | zero => exact ⟨0, congrArg some hl, rfl⟩
      | succ k =>
        obtain ⟨j, hj, hcount⟩ := ih (Nat.lt_of_succ_lt_succ hk)
        refine ⟨j + 1, hj, ?_⟩
        rw [List.take_succ_cons, List.countP_cons, if_pos (decide_eq_true hl), hcount]
    · have hne : ¬decide (l = label) = true := fun h => hl (of_decide_eq_true h)
      rw [if_neg hne] at hk
      obtain ⟨j, hj, hcount⟩ := ih hk
      refine ⟨j + 1, hj, ?_⟩
      rw [List.take_succ_cons, List.countP_cons, if_neg hne, hcount, Nat.add_zero]

omit [DecidableEq α] in
/-- A later place of a label has more before it. -/
theorem count_take_lt_count_take {label : β} {labels : List β} {j j' : ℕ}
    (hj : labels[j]? = some label) (hlt : j < j') :
    (labels.take j).countP (· = label) < (labels.take j').countP (· = label) := by
  have hj' : (labels.take j')[j]? = some label := by rw [List.getElem?_take_of_lt hlt, hj]
  have h := count_take_lt hj'
  rwa [List.take_take, Nat.min_eq_left (Nat.le_of_lt hlt)] at h

/-- **What a place among labelled ones holds**, when nothing is for two labels. -/
theorem slot_eq {κ : Type} (h : Holds keeps choose) {isFor : κ → β → Bool} {labels : List β}
    {things : List (κ × α)}
    (hone : ∀ t ∈ things, ∀ l ∈ labels, ∀ l' ∈ labels, isFor t.1 l → isFor t.1 l' → l = l')
    {j : ℕ} {label : β} (hj : labels[j]? = some label) :
    (pushAll keeps isFor labels things)[j]?
      = some (choose ((repeats choose)^[(labels.take j).countP (· = label)]
          ((things.filter (isFor ·.1 label)).map (·.2)))) := by
  have hrow : rowAt label labels (pushAll keeps isFor labels things)
      = row choose (labels.countP (· = label))
          ((things.filter (isFor ·.1 label)).map (·.2)) := by
    rw [← foldl_push h, pushAll, ← rowAt_replicate]
    generalize List.replicate labels.length none = places
    induction things generalizing places with
    | nil => rfl
    | cons t things ih =>
      have hih := ih (fun t' ht' => hone t' (List.mem_cons_of_mem t ht'))
      rw [List.foldl_cons, hih]
      by_cases hfor : isFor t.1 label = true
      · have hmem := List.mem_of_getElem? hj
        have hfilter : (t :: things).filter (isFor ·.1 label)
            = t :: things.filter (isFor ·.1 label) := List.filter_cons_of_pos hfor
        rw [hfilter, List.map_cons, List.foldl_cons, rowAt_pushAt]
        intro l hl
        constructor
        · exact fun hl' => hone t List.mem_cons_self l hl label hmem hl' hfor
        · rintro rfl
          exact hfor
      · have hfilter : (t :: things).filter (isFor ·.1 label)
            = things.filter (isFor ·.1 label) := List.filter_cons_of_neg hfor
        rw [hfilter, rowAt_pushAt_of_not (Bool.eq_false_iff.mpr hfor)]
  rw [← getElem?_rowAt hj, hrow, getElem?_row choose (count_take_lt hj)]

end Cascade
