import Mathlib.Data.List.TakeWhile
import XdxContainer.Mount.Options

/-!
# Mount/ReadText — a file as a text

    content ──fread──▸ 511 bytes ▸ 511 bytes ▸ … ▸ the rest ──str_join──▸ *txt, NULL at first

`file_read_text` joins what it reads to a text, piece by piece.

* `readsBack_iff` — the text is the content of the file, unless there is none: then it stays
  `NULL`.
-/

open Paths Fs

namespace Mount

/-- A file opened for reading. -/
structure Stream where
  content : Str
  /-- Reading fails behind the content: `feof` is false there. -/
  broken : Bool

/-- What reading a text fails with. -/
inductive ReadFailure
  | openFailed (path : Str) (e : Errno)
  | memory
  | readError (path : Str)
  deriving DecidableEq

/-- What `fread` is asked for: the size of the buffer but for the NUL. -/
def CHUNK : ℕ := 512 - 1

/-- The string in a buffer: up to the first NUL. -/
def cString (buf : Str) : Str := buf.takeWhile (· ≠ '\x00')

/-- The loop of `file_read_text`, for at most a number of turns: `*txt`, if `str_join` does not
fail. -/
def readChunks (realloc : ℕ → Bool) : ℕ → Str → Option Str → Option (Option Str)
  | 0, _, txt => some txt
  | n + 1, rest, txt =>
    if rest = [] then some txt
    else
      match strJoin realloc txt (cString (rest.take CHUNK)) [] with
      | none => none
      | some buf => readChunks realloc n (rest.drop CHUNK) (some buf)

/-- `file_read_text`: what `*txt` is then. -/
def fileReadText (realloc : ℕ → Bool) (path : Str) (file : Except Errno Stream) :
    Except ReadFailure (Option Str) :=
  match file with
  | .error e => .error (.openFailed path e)
  | .ok fs =>
    match readChunks realloc (fs.content.length + 1) fs.content none with
    | none => .error .memory
    | some txt => if fs.broken then .error (.readError path) else .ok txt

/-- **The file is read as it is**: into a string that is its content. -/
def ReadsBack (realloc : ℕ → Bool) (path content : Str) : Prop :=
  ∃ txt, fileReadText realloc path (.ok ⟨content, false⟩) = .ok (some txt) ∧ txt = content

section Read

variable {realloc : ℕ → Bool} {path content : Str}

theorem cString_eq {buf : Str} (h : '\x00' ∉ buf) : cString buf = buf :=
  List.takeWhile_eq_self_iff.mpr fun _ hc => decide_eq_true fun he => h (he ▸ hc)

/-- Without a separator joining is appending. -/
theorem strJoin_nil (hroom : ∀ n, realloc n = true) (txt : Option Str) (s : Str) :
    strJoin realloc txt s [] = some (txt.getD [] ++ s) := by
  rw [strJoin, if_pos (hroom _)]
  split_ifs
  · rw [List.append_nil]
  · rfl

/-- **The loop joins all that is left to the text**, whatever its pieces are. -/
theorem readChunks_eq (hroom : ∀ n, realloc n = true) {n : ℕ} {rest : Str}
    (hnul : '\x00' ∉ rest) (hn : rest.length < n) (txt : Option Str) :
    readChunks realloc n rest txt
      = some (if rest = [] then txt else some (txt.getD [] ++ rest)) := by
  induction n generalizing rest txt with
  | zero => omega
  | succ n ih =>
    rw [readChunks]
    by_cases hrest : rest = []
    · rw [if_pos hrest, if_pos hrest]
    have hpos := List.length_pos_iff.mpr hrest
    have hless : (rest.drop CHUNK).length < n := by
      rw [List.length_drop, CHUNK]
      omega
    have hpiece : cString (rest.take CHUNK) = rest.take CHUNK :=
      cString_eq fun hc => hnul (List.mem_of_mem_take hc)
    rw [if_neg hrest, if_neg hrest, hpiece, strJoin_nil hroom]
    simp only
    rw [ih (fun hc => hnul (List.mem_of_mem_drop hc)) hless]
    split_ifs with hdrop
    · rw [List.take_of_length_le (List.drop_eq_nil_iff.mp hdrop)]
    · rw [Option.getD_some, List.append_assoc, List.take_append_drop]

/-- What a file is read into. -/
theorem fileReadText_eq (hroom : ∀ n, realloc n = true) (hnul : '\x00' ∉ content) (path : Str) :
    fileReadText realloc path (.ok ⟨content, false⟩)
      = .ok (if content = [] then none else some content) := by
  rw [fileReadText]
  simp only
  rw [readChunks_eq hroom hnul (Nat.lt_succ_self _)]
  rfl

/-- **When a file is read as it is**: when it is not empty. -/
theorem readsBack_iff (hroom : ∀ n, realloc n = true) (hnul : '\x00' ∉ content) (path : Str) :
    ReadsBack realloc path content ↔ content ≠ [] := by
  rw [ReadsBack, fileReadText_eq hroom hnul]
  constructor
  · rintro ⟨txt, htxt, rfl⟩ hempty
    rw [if_pos hempty] at htxt
    cases htxt
  · intro hne
    exact ⟨content, by rw [if_neg hne], rfl⟩

end Read

/-- A file of 1022 characters, two pieces, is read as it is. -/
theorem readsBack_twoPieces : ReadsBack (fun _ => true) "/p".toList (List.replicate 1022 'a') := by
  refine (readsBack_iff (fun _ => rfl) ?_ _).mpr ?_
  · rw [List.mem_replicate]
    exact fun h => absurd h.2 (by decide)
  · intro h
    have hlen := congrArg List.length h
    rw [List.length_replicate] at hlen
    cases hlen

/-- **An empty file leaves `NULL`**. -/
theorem not_readsBack_nil : ¬ReadsBack (fun _ => true) "/p".toList [] := by
  rintro ⟨txt, h, -⟩
  cases h

end Mount
