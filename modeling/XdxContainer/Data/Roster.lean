import Mathlib.Tactic.Common
import Mathlib.Data.List.Induction
import Mathlib.Data.List.Nodup
import Mathlib.Data.List.Perm.Subperm

/-!
# Data/Roster — lists that take each element once, up to a capacity

    enlist cap a l      a is in l: nothing      room: l ++ [a]      full: refused

Over a universe that the capacity suffices for nothing is refused (`enlist_eq`): a list without
repetition of elements of the universe that misses one is shorter than the universe.  The elements
of a list that join one after the other stand in the order of their first places in it
(`idxOf_joinedAll`).
-/

namespace Roster

variable {α : Type} [DecidableEq α]

/-- Put an element behind the others unless it is there; refused beyond the capacity. -/
def enlist (cap : ℕ) (a : α) (l : List α) : Option (List α) :=
  if a ∈ l then some l else if l.length + 1 > cap then none else some (l ++ [a])

/-- The list after that, when nothing is refused. -/
def joined (a : α) (l : List α) : List α := if a ∈ l then l else l ++ [a]

variable {cap : ℕ} {a b : α} {l U : List α}

/-- A joined list has the element. -/
theorem mem_joined : b ∈ joined a l ↔ b ∈ l ∨ b = a := by
  rw [joined]
  split_ifs with ha
  · refine ⟨.inl, fun h => h.elim id fun hb => hb ▸ ha⟩
  · simp

/-- Joining keeps the elements distinct. -/
theorem nodup_joined (h : l.Nodup) : (joined a l).Nodup := by
  rw [joined]
  split_ifs with ha
  · exact h
  · exact List.concat_eq_append ▸ h.concat ha

/-- What is in the list is not joined again. -/
theorem joined_eq_self (h : a ∈ l) : joined a l = l := if_pos h

omit [DecidableEq α] in
/-- A list without repetition that misses an element of the universe is shorter than it. -/
theorem length_lt (hl : l.Nodup) (hsub : l ⊆ U) (ha : a ∈ U) (hnew : a ∉ l) :
    l.length < U.length := by
  have hcons : (a :: l).Nodup := List.nodup_cons.mpr ⟨hnew, hl⟩
  exact (List.subperm_of_subset hcons (List.cons_subset.mpr ⟨ha, hsub⟩)).length_le

/-- **Within a universe that the capacity suffices for nothing is refused.** -/
theorem enlist_eq (hcap : U.length ≤ cap) (hl : l.Nodup) (hsub : l ⊆ U) (ha : a ∈ U) :
    enlist cap a l = some (joined a l) := by
  rw [enlist, joined]
  split_ifs with hmem hfull
  · rfl
  · have hlt := length_lt hl hsub ha hmem
    omega
  · rfl

/-- Elements joining one after the other. -/
def joinedAll (as : List α) (l : List α) : List α := as.foldl (fun l a => joined a l) l

/-- A list has what is joined to it. -/
theorem mem_joinedAll {as : List α} : b ∈ joinedAll as l ↔ b ∈ l ∨ b ∈ as := by
  induction as generalizing l with
  | nil => simp [joinedAll]
  | cons a as ih =>
    rw [joinedAll, List.foldl_cons]
    change b ∈ joinedAll as (joined a l) ↔ _
    rw [ih, mem_joined, List.mem_cons, or_assoc]

theorem nodup_joinedAll {as : List α} (h : l.Nodup) : (joinedAll as l).Nodup := by
  induction as generalizing l with
  | nil => exact h
  | cons a as ih => exact ih (nodup_joined h)

theorem joinedAll_of_subset {as : List α} (h : as ⊆ l) : joinedAll as l = l := by
  induction as with
  | nil => rfl
  | cons a as ih =>
    obtain ⟨ha, has⟩ := List.cons_subset.mp h
    rw [joinedAll, List.foldl_cons, joined_eq_self ha]
    exact ih has

/-- **New elements without repetition come behind the others in their order.** -/
theorem joinedAll_of_disjoint {as : List α} (has : as.Nodup) (h : ∀ a ∈ as, a ∉ l) :
    joinedAll as l = l ++ as := by
  induction as generalizing l with
  | nil => rw [List.append_nil]; rfl
  | cons a as ih =>
    obtain ⟨ha, has⟩ := List.nodup_cons.mp has
    have hnew : joined a l = l ++ [a] := if_neg (h a List.mem_cons_self)
    rw [joinedAll, List.foldl_cons, hnew]
    change joinedAll as (l ++ [a]) = _
    rw [ih has fun b hb hmem => ?_, List.append_assoc, List.singleton_append]
    rcases List.mem_append.mp hmem with hmem | hmem
    · exact h b (List.mem_cons_of_mem a hb) hmem
    · exact ha (List.mem_singleton.mp hmem ▸ hb)

/-- Joining two lists is joining one after the other. -/
theorem joinedAll_append (as bs : List α) :
    joinedAll (as ++ bs) l = joinedAll bs (joinedAll as l) :=
  List.foldl_append

omit [DecidableEq α] in

/-- What stands behind does not change an order. -/
theorem idxOf_append_lt_iff [BEq α] [LawfulBEq α] {m : List α} (ha : a ∈ l) (hb : b ∈ l) :
    (l ++ m).idxOf a < (l ++ m).idxOf b ↔ l.idxOf a < l.idxOf b := by
  rw [List.idxOf_append_of_mem ha, List.idxOf_append_of_mem hb]

/-- What comes behind comes later. -/
theorem idxOf_append_lt (ha : a ∈ l) (hb : b ∉ l) (m : List α) :
    (l ++ m).idxOf a < (l ++ m).idxOf b := by
  have hlt := List.idxOf_lt_length_of_mem ha
  rw [List.idxOf_append_of_mem ha, List.idxOf_append_of_notMem hb]
  omega

/-- **Elements that join an empty list stand in the order of their first occurrences.** -/
theorem idxOf_joinedAll {as : List α} (ha : a ∈ as) (hb : b ∈ as) :
    (joinedAll as []).idxOf a < (joinedAll as []).idxOf b ↔ as.idxOf a < as.idxOf b := by
  induction as using List.reverseRecOn with
  | nil => cases ha
  | append_singleton as c ih =>
    have hin : ∀ d, d ∈ joinedAll as [] ↔ d ∈ as := fun d => by simp [mem_joinedAll]
    rw [joinedAll_append]
    change (joined c (joinedAll as [])).idxOf a < (joined c (joinedAll as [])).idxOf b ↔ _
    by_cases hc : c ∈ as
    · have hold : ∀ d, d ∈ as ++ [c] → d ∈ as := by
        intro d hd
        exact (List.mem_append.mp hd).elim id fun hd => List.mem_singleton.mp hd ▸ hc
      rw [joined_eq_self ((hin c).mpr hc), ih (hold a ha) (hold b hb),
        idxOf_append_lt_iff (hold a ha) (hold b hb)]
    · have hnew : joined c (joinedAll as []) = joinedAll as [] ++ [c] :=
        if_neg fun h => hc ((hin c).mp h)
      rw [hnew]
      rcases List.mem_append.mp ha with hfa | hfa <;> rcases List.mem_append.mp hb with hfb | hfb
      · rw [idxOf_append_lt_iff ((hin a).mpr hfa) ((hin b).mpr hfb), ih hfa hfb,
          idxOf_append_lt_iff hfa hfb]
      · obtain rfl := List.mem_singleton.mp hfb
        exact iff_of_true (idxOf_append_lt ((hin a).mpr hfa) (fun h => hc ((hin b).mp h)) [b])
          (idxOf_append_lt hfa hc [b])
      · obtain rfl := List.mem_singleton.mp hfa
        have hlt := idxOf_append_lt ((hin b).mpr hfb) (fun h => hc ((hin a).mp h)) [a]
        exact iff_of_false (Nat.lt_asymm hlt) (Nat.lt_asymm (idxOf_append_lt hfb hc [a]))
      · obtain rfl := List.mem_singleton.mp hfa
        obtain rfl := List.mem_singleton.mp hfb
        exact iff_of_false (Nat.lt_irrefl _) (Nat.lt_irrefl _)

end Roster
