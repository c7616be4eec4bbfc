import XdxContainer.Data.Except
import XdxContainer.Text.Numerals

/-!
# Cli/UserIds — the user and the group of `--user`, and the ones that mean none

    "1000:44"  ──strtoumax──▸ 1000, ":44"  ──strtoumax──▸ 44, ""
    "root:"    ──getpwnam──▸  0             ──pw_gid──▸   0
                                (uid_t)-1   ──copy_config──▸ the overflow ID

`str_to_ugid` takes a part for a number as soon as `strtoumax` reads anything, and `strtoumax` reads
more than decimal digits: white space, signs, negative numbers modulo `2⁶⁴`.  The ID of all ones is
a number like any other to it, and no ID at all to `copy_config`.

* `strToUgid_exact_iff` — the numbers are read exactly as they are written when they start with a
  digit and are not the ID of all ones, and never otherwise.
* `copyConfig_keeps_iff` — the IDs that get to the context are those.
* `copyConfig_parserUser` — what a command line with plain numbers leaves gets there.
-/

open Paths Scan

namespace Cli

/-! ## The code -/

/-- `uid_t`, `gid_t`. -/
abbrev UserId := BitVec 32

/-- `struct passwd`. -/
structure Passwd where
  uid : UserId
  gid : UserId

/-- The account databases. -/
structure Accounts where
  getpwnam : Str → Option Passwd
  getpwuid : UserId → Option Passwd
  /-- `getgrnam`: the `gr_gid`. -/
  getgrnam : Str → Option UserId

/-- What `str_to_ugid` sets `errno` to. -/
inductive UgidErrno
  | EINVAL | ERANGE | ENOENT
  deriving DecidableEq, Repr

/-- What `strtoumax` returns for a number that is too large. -/
def UINTMAX_MAX : ℕ := 2 ^ 64 - 1

/-- `ptr != str`: `strtoumax` has read something, and the string is taken for a number. -/
def TakesNumber (str : Str) : Prop := (strtoumax str).2 ≠ str

instance (str : Str) : Decidable (TakesNumber str) := inferInstanceAs (Decidable (_ ≠ _))

/-- The ID a number is narrowed to, if that does not change it. -/
def narrow (n : ℕ) : Except UgidErrno UserId :=
  if n = UINTMAX_MAX ∨ n ≠ (BitVec.ofNat 32 n).toNat then .error .ERANGE
  else .ok (BitVec.ofNat 32 n)

/-- An answer of the databases, `ENOENT` if there is none. -/
def found {α : Type} : Option α → Except UgidErrno α
  | some a => .ok a
  | none => .error .ENOENT

/-- What is behind the first `:`, `NULL` if there is none. -/
def behindColon (str : Str) : Option Str :=
  if ':' ∈ str then some ((str.dropWhile (· ≠ ':')).drop 1) else none

/-- The string for the group behind a numeric user, which ends there or at a `:`. -/
def behindUser : Str → Except UgidErrno Str
  | [] => .ok []
  | c :: group => if c = ':' then .ok group else .error .EINVAL

/-- The user part of `str_to_ugid`: the ID, the account if one was looked up, and the string for the
group. -/
def userPart (db : Accounts) (str : Str) :
    Except UgidErrno (UserId × Option Passwd × Option Str) :=
  if TakesNumber str then do
    let group ← behindUser (strtoumax str).2
    let uid ← narrow (strtoumax str).1
    return (uid, none, some group)
  else do
    -- not a numeric UID
    let passwd ← found (db.getpwnam (str.takeWhile (· ≠ ':')))
    return (passwd.uid, some passwd, behindColon str)

/-- The group part of `str_to_ugid`. -/
def groupPart (db : Accounts) (str : Str) : Except UgidErrno UserId :=
  if TakesNumber str then
    if (strtoumax str).2 ≠ [] then .error .EINVAL else narrow (strtoumax str).1
  else found (db.getgrnam str) -- not a numeric GID

/-- `str_to_ugid`. -/
def strToUgid (db : Accounts) (str : Str) : Except UgidErrno (UserId × UserId) := do
  let (uid, passwd, group) ← userPart db str
  match group with
  | none | some [] =>
    -- no group specified, infer it from the UID
    let passwd ← found (passwd <|> db.getpwuid uid)
    return (uid, passwd.gid)
  | some group => return (uid, ← groupPart db group)

/-- `(uid_t)-1`. -/
def UNSET : UserId := -1

/-- The IDs in `copy_config`: for one that is not set, what is read from the file with the overflow
ID. -/
def copyId (overflow : Option UserId) (id : UserId) : Option UserId :=
  if id ≠ UNSET then some id else overflow

/-- The part of `copy_config` for the user. -/
def copyConfig (overflowUid overflowGid : Option UserId) (ids : UserId × UserId) :
    Option (UserId × UserId) := do
  let uid ← copyId overflowUid ids.1
  let gid ← copyId overflowGid ids.2
  return (uid, gid)

/-- The option `--user` of `parser`, with the IDs of the process where it has no argument. -/
def parserUser (db : Accounts) (euid egid : UserId) : Option Str →
    Except UgidErrno (UserId × UserId)
  | some arg => strToUgid db arg
  | none => .ok (euid, egid)

/-! ## What a part says -/

/-- The part for the user. -/
def userText (str : Str) : Str := str.takeWhile (· ≠ ':')

/-- **The string is a decimal number that is an ID**, and the ID is that number. -/
def Denotes (s : Str) (id : UserId) : Prop :=
  IsNumeral 10 s ∧ value 10 s ≤ 2 ^ 32 - 2 ∧ id.toNat = value 10 s

/-- The string starts with a digit and does not stand for the ID of all ones. -/
def IsPlain (s : Str) : Prop :=
  (∃ c ∈ s.head?, (digit 10 c).isSome = true) ∧ value 10 s ≠ 2 ^ 32 - 1

section Part

variable {s text sp sg run rest : Str} {id : UserId} {n : ℕ}

theorem toNat_of_narrow (h : narrow n = .ok id) : id.toNat = n := by
  rw [narrow] at h
  split_ifs at h with hrange
  rw [not_or, not_not] at hrange
  rw [← Except.ok.inj h]
  exact hrange.2.symm

/-- **A part is read as it is written exactly when it is plain.** -/
theorem denotes_iff_plain (hscan : Scanned text sp sg run [])
    (hid : id.toNat = toWord (decide (sg = ['-'])) (value 10 run)) :
    Denotes text id ↔ IsPlain text := by
  constructor
  · rintro ⟨⟨hne, hdigits⟩, hmax, -⟩
    refine ⟨?_, by omega⟩
    obtain ⟨c, rest, rfl⟩ := List.exists_cons_of_ne_nil hne
    exact ⟨c, rfl, hdigits c List.mem_cons_self⟩
  · rintro ⟨⟨c, hc, hdigit⟩, hones⟩
    have hsplit := hscan.split
    rw [List.append_nil] at hsplit
    obtain ⟨rfl, rfl⟩ := hscan.eq_nil_of_digit (by
      intro d hd
      rw [← hsplit] at hd
      rwa [Option.mem_unique hd hc])
    rw [List.nil_append, List.nil_append] at hsplit
    subst hsplit
    -- a number of more than 64 bits would be cut to one of more than 32
    have hvalue : id.toNat = value 10 text := by
      have hlt := id.isLt
      rw [hid, toWord] at hlt ⊢
      split_ifs at hlt ⊢ with hlarge hneg
      · omega
      · exact absurd hneg (by decide)
      · rfl
    have hlt := id.isLt
    exact ⟨hscan.numeral, by omega, hvalue⟩

/-- What is read of a string has no separator in it. -/
theorem colon_notMem (hscan : Scanned s sp sg run rest) : ':' ∉ sp ++ (sg ++ run) := by
  intro hmem
  rcases List.mem_append.mp hmem with hspace | hmem
  · exact absurd (hscan.space ':' hspace) (by decide)
  rcases List.mem_append.mp hmem with hsign | hrun
  · rcases hscan.sign with rfl | rfl | rfl
    · cases hsign
    · exact absurd (List.mem_singleton.mp hsign) (by decide)
    · exact absurd (List.mem_singleton.mp hsign) (by decide)
  · exact absurd (hscan.numeral.2 ':' hrun) (by decide)

theorem scanned_text (hscan : Scanned s sp sg run rest) :
    Scanned (sp ++ (sg ++ run)) sp sg run [] :=
  ⟨by rw [List.append_nil], hscan.space, hscan.sign, hscan.numeral, by
    intro c hc
    cases hc⟩

/-- The parts of a string that is read up to its end or a separator. -/
theorem parts_of_split (hcolon : ':' ∉ text) (hsplit : s = text ++ rest)
    (hrest : rest = [] ∨ ∃ group, rest = ':' :: group) :
    userText s = text ∧ behindColon s = rest.tail? := by
  have hall : ∀ c ∈ text, decide (c ≠ ':') = true := by
    intro c hc
    refine decide_eq_true ?_
    rintro rfl
    exact hcolon hc
  subst hsplit
  rcases hrest with rfl | ⟨group, rfl⟩
  · rw [List.append_nil]
    refine ⟨List.takeWhile_eq_self_iff.mpr hall, ?_⟩
    rw [behindColon, if_neg hcolon]
    rfl
  · refine ⟨?_, ?_⟩
    · rw [userText, List.takeWhile_append_of_pos hall, List.takeWhile_cons_of_neg (by simp),
        List.append_nil]
    · rw [behindColon, if_pos (by simp), List.dropWhile_append_of_pos hall,
        List.dropWhile_cons_of_neg (by simp)]
      rfl

end Part

/-! ## What is stored -/

section Stored

variable {db : Accounts} {str group : Str} {uid gid : UserId} {passwd : Option Passwd}
  {g : Option Str}

/-- The user part, where it is taken for a number. -/
theorem userPart_number (hnum : TakesNumber str) (h : userPart db str = .ok (uid, passwd, g)) :
    ∃ sp sg run, Scanned str sp sg run (strtoumax str).2
      ∧ uid.toNat = toWord (decide (sg = ['-'])) (value 10 run)
      ∧ ((strtoumax str).2 = [] ∨ ∃ group, (strtoumax str).2 = ':' :: group)
      ∧ g.getD [] = (strtoumax str).2.tail := by
  obtain ⟨sp, sg, run, hscan, hvalue⟩ := strtoumax_scanned hnum
  refine ⟨sp, sg, run, hscan, ?_⟩
  rw [userPart, if_pos hnum] at h
  obtain ⟨group, hgroup, h⟩ := Except.bind_eq_ok h
  obtain ⟨id, hid, h⟩ := Except.bind_eq_ok h
  obtain ⟨rfl, hrest⟩ := Prod.mk.inj (Except.ok.inj h)
  obtain ⟨-, rfl⟩ := Prod.mk.inj hrest
  refine ⟨hvalue ▸ toNat_of_narrow hid, ?_⟩
  generalize (strtoumax str).2 = ptr at hgroup ⊢
  rcases ptr with _ | ⟨c, rest⟩
  · exact ⟨.inl rfl, (Except.ok.inj hgroup).symm⟩
  · rw [behindUser] at hgroup
    split_ifs at hgroup with hc
    exact ⟨.inr ⟨rest, by rw [hc]⟩, (Except.ok.inj hgroup).symm⟩

/-- **A numeric user is the number written exactly when that is plain.** -/
theorem denotes_user_iff (hnum : TakesNumber str) (h : userPart db str = .ok (uid, passwd, g)) :
    (Denotes (userText str) uid ↔ IsPlain (userText str))
      ∧ g.getD [] = (behindColon str).getD [] := by
  obtain ⟨sp, sg, run, hscan, hvalue, hrest, hg⟩ := userPart_number hnum h
  have hsplit : str = (sp ++ (sg ++ run)) ++ (strtoumax str).2 := by
    rw [List.append_assoc, List.append_assoc]
    exact hscan.split
  obtain ⟨htext, hbehind⟩ := parts_of_split (colon_notMem hscan) hsplit hrest
  rw [htext, hbehind, hg]
  refine ⟨denotes_iff_plain (scanned_text hscan) hvalue, ?_⟩
  rcases (strtoumax str).2 with _ | ⟨c, rest⟩
  · rfl
  · rfl

theorem behindColon_of_name (hname : ¬ TakesNumber str)
    (h : userPart db str = .ok (uid, passwd, g)) : g = behindColon str := by
  rw [userPart, if_neg hname] at h
  obtain ⟨account, -, h⟩ := Except.bind_eq_ok h
  obtain ⟨-, hrest⟩ := Prod.mk.inj (Except.ok.inj h)
  exact (Prod.mk.inj hrest).2.symm

/-- The string for the group is what is behind the first `:`, or empty. -/
theorem behindColon_of_userPart (h : userPart db str = .ok (uid, passwd, g)) :
    g.getD [] = (behindColon str).getD [] := by
  by_cases hnum : TakesNumber str
  · exact (denotes_user_iff hnum h).2
  · rw [behindColon_of_name hnum h]

/-- **A numeric group is the number written exactly when that is plain.** -/
theorem denotes_group_iff (hnum : TakesNumber group) (h : groupPart db group = .ok gid) :
    Denotes group gid ↔ IsPlain group := by
  obtain ⟨sp, sg, run, hscan, hvalue⟩ := strtoumax_scanned hnum
  rw [groupPart, if_pos hnum] at h
  split_ifs at h with hend
  rw [not_not] at hend
  rw [hend] at hscan
  exact denotes_iff_plain hscan (hvalue ▸ toNat_of_narrow h)

/-- What a success has come from. -/
theorem strToUgid_ok (h : strToUgid db str = .ok (uid, gid)) :
    ∃ passwd g, userPart db str = .ok (uid, passwd, g)
      ∧ (g.getD [] ≠ [] → groupPart db (g.getD []) = .ok gid) := by
  obtain ⟨⟨uid', passwd, g⟩, huser, h⟩ := Except.bind_eq_ok h
  rcases g with _ | _ | ⟨c, group⟩
  · obtain ⟨account, -, h⟩ := Except.bind_eq_ok h
    obtain ⟨rfl, -⟩ := Prod.mk.inj (Except.ok.inj h)
    exact ⟨passwd, none, huser, fun hne => absurd rfl hne⟩
  · obtain ⟨account, -, h⟩ := Except.bind_eq_ok h
    obtain ⟨rfl, -⟩ := Prod.mk.inj (Except.ok.inj h)
    exact ⟨passwd, some [], huser, fun hne => absurd rfl hne⟩
  · obtain ⟨gid', hgroup, h⟩ := Except.bind_eq_ok h
    obtain ⟨rfl, rfl⟩ := Prod.mk.inj (Except.ok.inj h)
    exact ⟨passwd, some (c :: group), huser, fun _ => hgroup⟩

/-- **The numbers of a user specification are read exactly as they are written** when they are
plain, and only then. -/
theorem strToUgid_exact_iff (h : strToUgid db str = .ok (uid, gid)) :
    ((TakesNumber str → Denotes (userText str) uid)
        ∧ ∀ group ∈ behindColon str, TakesNumber group → Denotes group gid)
      ↔ (TakesNumber str → IsPlain (userText str))
        ∧ ∀ group ∈ behindColon str, TakesNumber group → IsPlain group := by
  obtain ⟨passwd, g, huser, hgroup⟩ := strToUgid_ok h
  have hg := behindColon_of_userPart huser
  refine and_congr (forall_congr' fun hnum => (denotes_user_iff hnum huser).1) ?_
  refine forall₂_congr fun group hbehind => forall_congr' fun hnum => ?_
  rw [Option.mem_def.mp hbehind, Option.getD_some] at hg
  -- an empty group is not a number
  have hne : group ≠ [] := by
    rintro rfl
    exact hnum rfl
  rw [hg] at hgroup
  exact denotes_group_iff hnum (hgroup hne)

end Stored

/-- No account is known. -/
def noAccounts : Accounts where
  getpwnam _ := none
  getpwuid _ := none
  getgrnam _ := none

/-- A user and a group that are plain. -/
theorem strToUgid_exact_1000 :
    (TakesNumber "1000:44".toList → Denotes (userText "1000:44".toList) 1000)
      ∧ ∀ group ∈ behindColon "1000:44".toList, TakesNumber group → Denotes group 44 := by
  have hread : strToUgid noAccounts "1000:44".toList = .ok (1000, 44) := rfl
  refine (strToUgid_exact_iff hread).mpr ⟨fun _ => ⟨⟨'1', rfl, rfl⟩, by decide⟩, ?_⟩
  intro group hgroup _
  obtain rfl : "44".toList = group := Option.some.inj hgroup
  exact ⟨⟨'4', rfl, rfl⟩, by decide⟩

/-- The user 4294967295 is the ID of all ones. -/
theorem strToUgid_unset :
    ¬∀ (db : Accounts) (str : Str) (uid gid : UserId), strToUgid db str = .ok (uid, gid) →
      (TakesNumber str → Denotes (userText str) uid)
        ∧ ∀ group ∈ behindColon str, TakesNumber group → Denotes group gid := by
  intro h
  have hread : strToUgid noAccounts "4294967295:0".toList = .ok (UNSET, 0) := rfl
  obtain ⟨-, hmax, -⟩ := (h _ _ _ _ hread).1 (by decide)
  exact absurd hmax (by decide)

/-! ## What gets to the context -/

/-- A number that is an ID is not the one that means none. -/
theorem ne_unset_of_denotes {s : Str} {id : UserId} (h : Denotes s id) : id ≠ UNSET := by
  obtain ⟨-, hmax, hid⟩ := h
  rintro rfl
  have hones : UNSET.toNat = 2 ^ 32 - 1 := rfl
  omega

/-- **`copy_config` keeps the IDs** that are not the one that means none, whatever the overflow IDs
are. -/
theorem copyConfig_keeps_iff (uid gid : UserId) :
    (∀ overflowUid overflowGid, copyConfig overflowUid overflowGid (uid, gid) = some (uid, gid))
      ↔ uid ≠ UNSET ∧ gid ≠ UNSET := by
  constructor
  · intro h
    have hnone := h none none
    simp only [copyConfig, copyId, Option.bind_eq_bind, Option.bind_eq_some_iff,
      Option.ite_none_right_eq_some] at hnone
    obtain ⟨-, ⟨huid, -⟩, -, ⟨hgid, -⟩, -⟩ := hnone
    exact ⟨huid, hgid⟩
  · rintro ⟨huid, hgid⟩ overflowUid overflowGid
    simp only [copyConfig, copyId, if_pos huid, if_pos hgid]
    rfl

/-! ## What `--user` leaves -/

/-- No account has an ID of all ones. -/
structure Accounts.AllSet (db : Accounts) : Prop where
  getpwnam : ∀ name passwd, db.getpwnam name = some passwd → passwd.uid ≠ UNSET ∧ passwd.gid ≠ UNSET
  getpwuid : ∀ uid passwd, db.getpwuid uid = some passwd → passwd.gid ≠ UNSET
  getgrnam : ∀ name gid, db.getgrnam name = some gid → gid ≠ UNSET

/-- The numbers of a user specification are plain. -/
def PlainNumbers (str : Str) : Prop :=
  (TakesNumber str → IsPlain (userText str))
    ∧ ∀ group ∈ behindColon str, TakesNumber group → IsPlain group

section Option

variable {db : Accounts} {str group : Str} {uid gid : UserId} {passwd : Option Passwd}
  {g : Option Str}

theorem found_eq_ok {α : Type} {o : Option α} {a : α} : found o = .ok a ↔ o = some a := by
  rcases o with _ | b
  · exact iff_of_false nofun nofun
  · rw [found, Except.ok.injEq, Option.some.injEq]

/-- The user part is an ID, and so is the group of an account that was looked up. -/
theorem userPart_ne_unset (hdb : db.AllSet) (hplain : TakesNumber str → IsPlain (userText str))
    (h : userPart db str = .ok (uid, passwd, g)) :
    uid ≠ UNSET ∧ ∀ account ∈ passwd, account.gid ≠ UNSET := by
  by_cases hnum : TakesNumber str
  · refine ⟨ne_unset_of_denotes ((denotes_user_iff hnum h).1.mpr (hplain hnum)), ?_⟩
    rw [userPart, if_pos hnum] at h
    obtain ⟨group, -, h⟩ := Except.bind_eq_ok h
    obtain ⟨id, -, h⟩ := Except.bind_eq_ok h
    obtain ⟨rfl, -⟩ := Prod.mk.inj (Prod.mk.inj (Except.ok.inj h)).2
    exact nofun
  · rw [userPart, if_neg hnum] at h
    obtain ⟨account, hfound, h⟩ := Except.bind_eq_ok h
    obtain ⟨rfl, hrest⟩ := Prod.mk.inj (Except.ok.inj h)
    obtain ⟨rfl, -⟩ := Prod.mk.inj hrest
    obtain ⟨huid, hgid⟩ := hdb.getpwnam _ account (found_eq_ok.mp hfound)
    exact ⟨huid, fun a ha => Option.some.inj ha ▸ hgid⟩

/-- The group part is an ID. -/
theorem groupPart_ne_unset (hdb : db.AllSet) (hplain : TakesNumber group → IsPlain group)
    (h : groupPart db group = .ok gid) : gid ≠ UNSET := by
  by_cases hnum : TakesNumber group
  · exact ne_unset_of_denotes ((denotes_group_iff hnum h).mpr (hplain hnum))
  · rw [groupPart, if_neg hnum] at h
    exact hdb.getgrnam group gid (found_eq_ok.mp h)

/-- The group of the account, where none is given. -/
theorem inferred_ne_unset (hdb : db.AllSet) {account : Passwd}
    (hpasswd : ∀ account ∈ passwd, account.gid ≠ UNSET)
    (hfound : found (passwd <|> db.getpwuid uid) = .ok account) : account.gid ≠ UNSET := by
  have hfound := found_eq_ok.mp hfound
  rcases passwd with _ | known
  · exact hdb.getpwuid uid account hfound
  · exact hpasswd account hfound

/-- Both parts are IDs. -/
theorem strToUgid_ne_unset (hdb : db.AllSet) (hplain : PlainNumbers str)
    (h : strToUgid db str = .ok (uid, gid)) : uid ≠ UNSET ∧ gid ≠ UNSET := by
  obtain ⟨⟨uid', passwd, g⟩, huser, h⟩ := Except.bind_eq_ok h
  obtain ⟨huid, hpasswd⟩ := userPart_ne_unset hdb hplain.1 huser
  rcases hg : g with _ | _ | ⟨c, group⟩
  · rw [hg] at h
    obtain ⟨account, hfound, h⟩ := Except.bind_eq_ok h
    obtain ⟨rfl, rfl⟩ := Prod.mk.inj (Except.ok.inj h)
    exact ⟨huid, inferred_ne_unset hdb hpasswd hfound⟩
  · rw [hg] at h
    obtain ⟨account, hfound, h⟩ := Except.bind_eq_ok h
    obtain ⟨rfl, rfl⟩ := Prod.mk.inj (Except.ok.inj h)
    exact ⟨huid, inferred_ne_unset hdb hpasswd hfound⟩
  · rw [hg] at h
    obtain ⟨gid', hgroup, h⟩ := Except.bind_eq_ok h
    obtain ⟨rfl, rfl⟩ := Prod.mk.inj (Except.ok.inj h)
    have hbehind : behindColon str = some (c :: group) := by
      have hgetD := behindColon_of_userPart huser
      rw [hg, Option.getD_some] at hgetD
      rcases hcolon : behindColon str with _ | group'
      · rw [hcolon] at hgetD
        cases hgetD
      · rw [hgetD, hcolon, Option.getD_some]
    exact ⟨huid, groupPart_ne_unset hdb (hplain.2 _ hbehind) hgroup⟩

/-- **The IDs of `--user` get to the context**, those of the process where it has no argument, if
its numbers are plain and neither an account nor the process has an ID of all ones. -/
theorem copyConfig_parserUser (hdb : db.AllSet) {euid egid : UserId} (heuid : euid ≠ UNSET)
    (hegid : egid ≠ UNSET) {arg : Option Str} (hplain : ∀ str ∈ arg, PlainNumbers str)
    (h : parserUser db euid egid arg = .ok (uid, gid)) (overflowUid overflowGid : Option UserId) :
    copyConfig overflowUid overflowGid (uid, gid) = some (uid, gid) := by
  refine (copyConfig_keeps_iff uid gid).mpr ?_ overflowUid overflowGid
  rcases arg with _ | str
  · obtain ⟨rfl, rfl⟩ := Prod.mk.inj (Except.ok.inj h)
    exact ⟨heuid, hegid⟩
  · exact strToUgid_ne_unset hdb (hplain str rfl) h

end Option

end Cli
