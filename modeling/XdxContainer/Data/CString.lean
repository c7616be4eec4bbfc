import Mathlib.Tactic.Common
import Mathlib.Data.List.Basic

/-!
# Data/CString — strings in an array of characters

    │ / │ a │ / │ b │ NUL │ ? │ ? │        `str` is what stands before the first `NUL`

An array is the list of its characters.  Writing a `NUL` into a string cuts it there, and writing
the character back restores it: what is behind a string's end stays where it is.
-/

namespace CString

/-- The character that ends a string. -/
def NUL : Char := '\x00'

variable {a s t u : List Char} {x y : Char} {i : ℕ}

/-- The string in an array. -/
def str (a : List Char) : List Char := a.takeWhile (· ≠ NUL)

theorem nul_notMem_str (a : List Char) : NUL ∉ str a := by
  intro h
  have hall := List.all_eq_true.mp (List.all_takeWhile (p := fun x => decide (x ≠ NUL)) (l := a))
  simpa using hall NUL h

/-- The string ends at the first NUL. -/
theorem str_append_nul (hs : NUL ∉ s) (t : List Char) : str (s ++ NUL :: t) = s := by
  rw [str, List.takeWhile_append_of_pos, List.takeWhile_cons_of_neg (by simp), List.append_nil]
  intro x hx
  simpa using fun he : x = NUL => hs (he ▸ hx)

/-- **An array with a `NUL`** is its string, a `NUL` and something. -/
theorem exists_eq_str_append (h : NUL ∈ a) : ∃ t, a = str a ++ NUL :: t := by
  induction a with
  | nil => cases h
  | cons x a ih =>
    by_cases hx : x = NUL
    · exact ⟨a, by simp [str, hx]⟩
    · obtain ⟨t, ht⟩ := ih ((List.mem_cons.mp h).resolve_left (Ne.symm hx))
      have hstr : str (x :: a) = x :: str a := by simp [str, hx]
      exact ⟨t, by rw [hstr, List.cons_append, ← ht]⟩

/-- The array with characters written from an index on. -/
def write (a : List Char) (i : ℕ) (s : List Char) : List Char :=
  a.take i ++ (s ++ a.drop (i + s.length))

/-- A write within the array keeps its length. -/
theorem length_write (h : i + s.length ≤ a.length) : (write a i s).length = a.length := by
  simp only [write, List.length_append, List.length_take, List.length_drop]
  omega

/-- Writing behind the string, over its end. -/
theorem write_append (s t u : List Char) :
    write (s ++ t) s.length u = s ++ (u ++ t.drop u.length) := by
  rw [write, List.take_left, List.drop_append]
  simp

/-- Changing the character behind a first part. -/
theorem set_append (s t : List Char) (x y : Char) :
    (s ++ x :: t).set s.length y = s ++ y :: t := by
  simp

/-- `strrchr`: where a character is in the string for the last time. -/
def strrchr (a : List Char) (x : Char) : Option ℕ :=
  if x ∈ str a then some ((str a).length - 1 - (str a).reverse.idxOf x) else none

theorem strrchr_of_notMem (h : x ∉ str a) : strrchr a x = none := if_neg h

/-- The last occurrence of a character. -/
theorem strrchr_append (h : str a = s ++ x :: t) (hx : x ∉ t) : strrchr a x = some s.length := by
  rw [strrchr, h, if_pos (by simp)]
  have hrev : (s ++ x :: t).reverse = t.reverse ++ (x :: s.reverse) := by simp
  rw [hrev, List.idxOf_append_of_notMem (by simpa using hx), List.idxOf_cons_self]
  simp only [List.length_append, List.length_cons, List.length_reverse, Option.some.injEq]
  omega

end CString
