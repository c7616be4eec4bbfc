import Mathlib.Data.List.TakeWhile
import XdxContainer.Xdr.Codec

/-!
# Xdr/Words — the external data representation: words, numbers, strings

    u_int      ▐ 4 bytes, the highest first ▌
    hyper      ▐ high word ▌▐ low word ▌
    string     ▐ length ▌▐ bytes, filled up with zeros to a multiple of 4 ▌

The routines of the C library on a stream of bytes, in blocks of 4.  A `char *` is NULL or a string
that ends at its first zero and is shorter than what an `u_int` can count.  An `u_long` of 64 bits
is written only if a word can hold it.
-/

/-- A routine of the library. -/
abbrev Xdr (α : Type) := Codec UInt8 4 α

namespace Xdr

/-! ## Words -/

/-- The bytes of a word, the highest first. -/
def putWord (n : UInt32) : List UInt8 :=
  [.ofNat (n.toNat / 2 ^ 24), .ofNat (n.toNat / 2 ^ 16), .ofNat (n.toNat / 2 ^ 8), .ofNat n.toNat]

/-- The word that the first four bytes are. -/
def getWord : List UInt8 → Option (UInt32 × List UInt8)
  | a :: b :: c :: d :: rest =>
    some (.ofNat (a.toNat * 2 ^ 24 + b.toNat * 2 ^ 16 + c.toNat * 2 ^ 8 + d.toNat), rest)
  | _ => none

/-- **A word is read as it was put.** -/
theorem getWord_putWord (n : UInt32) (rest : List UInt8) :
    getWord (putWord n ++ rest) = some (n, rest) := by
  have hn := n.toNat_lt
  simp only [putWord, List.cons_append, List.nil_append, getWord]
  congr 2
  apply UInt32.toNat_inj.mp
  simp only [UInt32.toNat_ofNat', UInt8.toNat_ofNat']
  omega

/-- What is behind a word is left. -/
theorem getWord_append {w rest : List UInt8} {n : UInt32} (h : getWord w = some (n, rest))
    (more : List UInt8) : getWord (w ++ more) = some (n, rest ++ more) := by
  rcases w with _ | ⟨a, _ | ⟨b, _ | ⟨c, _ | ⟨d, tail⟩⟩⟩⟩
  iterate 4 cases h
  obtain ⟨rfl, rfl⟩ := Prod.mk.inj (Option.some.inj h)
  rfl

/-- `xdr_u_int`. -/
def uInt : Xdr UInt32 where
  encode n := some (putWord n)
  decode := getWord
  decode_encode h rest := by
    rw [← Option.some.inj h]
    exact getWord_putWord _ rest
  decode_append h more := getWord_append h more
  dvd_length h := by
    rw [← Option.some.inj h]
    exact Nat.dvd_refl 4

/-- `xdr_int`. -/
def int : Xdr Int32 :=
  uInt.map ⟨UInt32.toInt32, Int32.toUInt32, UInt32.toUInt32_toInt32, Int32.toInt32_toUInt32⟩

/-- The two words of a number of 64 bits. -/
def halves : UInt32 × UInt32 ≃ UInt64 where
  toFun p := .ofNat (p.1.toNat * 2 ^ 32 + p.2.toNat)
  invFun n := (.ofNat (n.toNat / 2 ^ 32), .ofNat n.toNat)
  left_inv p := by
    have hhigh := p.1.toNat_lt
    have hlow := p.2.toNat_lt
    refine Prod.ext (UInt32.toNat_inj.mp ?_) (UInt32.toNat_inj.mp ?_)
    · simp only [UInt32.toNat_ofNat', UInt64.toNat_ofNat']
      omega
    · simp only [UInt32.toNat_ofNat', UInt64.toNat_ofNat']
      omega
  right_inv n := by
    have hn := n.toNat_lt
    refine UInt64.toNat_inj.mp ?_
    simp only [UInt32.toNat_ofNat', UInt64.toNat_ofNat']
    omega

/-- `xdr_int64_t`. -/
def int64 : Xdr Int64 :=
  ((uInt.both uInt).map halves).map
    ⟨UInt64.toInt64, Int64.toUInt64, UInt64.toUInt64_toInt64, Int64.toInt64_toUInt64⟩

/-- `xdr_u_long`. -/
def uLong : Xdr UInt64 :=
  uInt.narrow (fun n => if n.toNat < 2 ^ 32 then some (.ofNat n.toNat) else none)
    (fun n => some n.toUInt64) fun n a h => by
      obtain ⟨hn, rfl⟩ : n.toNat < 2 ^ 32 ∧ UInt32.ofNat n.toNat = a := by
        split_ifs at h with hn
        exact ⟨hn, Option.some.inj h⟩
      refine congrArg some (UInt64.toNat_inj.mp ?_)
      rw [UInt32.toNat_toUInt64, UInt32.toNat_ofNat']
      exact Nat.mod_eq_of_lt hn

/-! ## Strings -/

/-- How many zeros follow `n` bytes. -/
def padding (n : ℕ) : ℕ := (4 - n % 4) % 4

/-- The padding fills up the word. -/
theorem dvd_add_padding (n : ℕ) : 4 ∣ n + padding n := by
  unfold padding
  omega

/-- `xdr_opaque`, on `n` bytes. -/
def bytes (n : ℕ) : Xdr (List UInt8) where
  encode s := if s.length = n then some (s ++ List.replicate (padding n) 0) else none
  decode w := if n + padding n ≤ w.length then some (w.take n, w.drop (n + padding n)) else none
  decode_encode {s w} h rest := by
    obtain ⟨hs, rfl⟩ : s.length = n ∧ s ++ List.replicate (padding n) 0 = w := by
      split_ifs at h with hs
      exact ⟨hs, Option.some.inj h⟩
    subst hs
    have hlength : (s ++ List.replicate (padding s.length) 0 : List UInt8).length
        = s.length + padding s.length := by simp
    rw [if_pos (by rw [List.length_append]; omega)]
    congr 2
    · rw [List.append_assoc, List.take_left]
    · rw [← hlength, List.drop_left]
  decode_append {w s rest} h more := by
    split_ifs at h with hw
    obtain ⟨rfl, rfl⟩ := Prod.mk.inj (Option.some.inj h)
    rw [if_pos (by rw [List.length_append]; omega), List.take_append_of_le_length (by omega),
      List.drop_append_of_le_length hw]
  dvd_length {s w} h := by
    split_ifs at h with hs
    rw [← Option.some.inj h, List.length_append, List.length_replicate, hs]
    exact dvd_add_padding n

/-- The string a `char *` that is not NULL points to. -/
structure CStr where
  bytes : List UInt8
  nul_notMem : 0 ∉ bytes
  length_lt : bytes.length + 1 < 2 ^ 32
  deriving DecidableEq

@[ext] theorem CStr.ext {s t : CStr} (h : s.bytes = t.bytes) : s = t := by
  rcases s with ⟨s, hs, hs'⟩
  obtain rfl : s = t.bytes := h
  rfl

/-- The string that bytes read are: up to the first zero.  No room is asked for one of `2 ^ 32`. -/
def CStr.ofRead (s : List UInt8) : Option CStr :=
  if h : s.length + 1 < 2 ^ 32 then
    some ⟨s.takeWhile (· ≠ 0), fun hmem => by simpa using List.mem_takeWhile_imp hmem,
      Nat.lt_of_le_of_lt (Nat.succ_le_succ (List.takeWhile_prefix _).length_le) h⟩
  else none

/-- The bytes of a string are a string. -/
theorem CStr.ofRead_bytes (s : CStr) : CStr.ofRead s.bytes = some s := by
  rw [CStr.ofRead, dif_pos s.length_lt]
  refine congrArg some (CStr.ext (List.takeWhile_eq_self_iff.mpr fun b hb => ?_))
  have hne : b ≠ 0 := fun h => s.nul_notMem (h ▸ hb)
  simpa using hne

/-- The string written by its length and its bytes. -/
def counted : Xdr CStr :=
  (uInt.seq fun n => bytes n.toNat).narrow (fun s => some (.ofNat s.bytes.length, s.bytes))
    (fun p => CStr.ofRead p.2) fun s a h => by
      rw [← Option.some.inj h]
      exact CStr.ofRead_bytes s

/-- `xdr_string` with the bound `~0`: NULL is not written and never read. -/
def string : Xdr (Option CStr) :=
  counted.narrow id (fun s => some (some s)) fun _ _ h => congrArg some h.symm

/-! ## What can be written -/

/-- Every unsigned number is written. -/
theorem writes_uInt (n : UInt32) : uInt.Writes n := rfl

theorem writes_int (n : Int32) : int.Writes n := rfl

theorem writes_int64 (n : Int64) : int64.Writes n := rfl

/-- A number of 64 bits is written exactly when its high word is zero. -/
theorem writes_uLong {n : UInt64} : uLong.Writes n ↔ n.toNat < 2 ^ 32 := by
  rw [uLong, Codec.writes_narrow]
  constructor
  · rintro ⟨a, ha, -⟩
    split_ifs at ha with h
    exact h
  · intro h
    exact ⟨_, if_pos h, writes_uInt _⟩

/-- Bytes of the length are written. -/
theorem writes_bytes (s : List UInt8) : (bytes s.length).Writes s := by
  simp [Codec.Writes, bytes]

/-- Every string is written. -/
theorem writes_counted (s : CStr) : counted.Writes s := by
  have hlength : (UInt32.ofNat s.bytes.length).toNat = s.bytes.length := by
    rw [UInt32.toNat_ofNat']
    exact Nat.mod_eq_of_lt (Nat.lt_of_succ_lt s.length_lt)
  rw [counted, Codec.writes_narrow]
  refine ⟨_, rfl, Codec.writes_seq.mpr ⟨writes_uInt _, ?_⟩⟩
  rw [hlength]
  exact writes_bytes s.bytes

/-- A string is written exactly when it is there. -/
theorem writes_string {p : Option CStr} : string.Writes p ↔ p.isSome := by
  rcases p with _ | s
  · exact Iff.rfl
  · exact iff_of_true (writes_counted s) rfl

end Xdr
