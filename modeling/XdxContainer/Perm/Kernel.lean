import Mathlib.Algebra.Group.Nat.Defs
import Mathlib.Data.Finset.Erase
import Mathlib.Data.Finset.Filter
import Mathlib.Data.Finset.Lattice.Basic
import Mathlib.Data.Finset.Lattice.Lemmas
import Mathlib.Data.Finset.Range
import Mathlib.Data.Finset.SDiff
import Mathlib.Data.Finset.Insert
import XdxContainer.Perm.Drop

/-!
# Perm/Kernel — what a task may do with its capabilities

    effective ⊆ permitted       ambient ⊆ permitted ∩ inheritable       bounding

    capset           fewer permitted; inheritable ones from the permitted or the bounding set
    capbset          fewer bounding
    setuid, setfsuid effective ones go and come, with root's IDs
    exec             root:     permitted from inheritable and bounding
                     others:   the file's, within inheritable and bounding

The kernel's rules, for a task that is not traced.  Whatever a task does, itself or by what it
executes, it holds no capability but those it could `reach`; and after `PR_SET_NO_NEW_PRIVS` no
capability but those it has.
-/

open Relation

namespace Perm

/-! ## Capabilities -/

/-- `cap_value_t`. -/
abbrev Cap := ℕ

/-- Change the owner of a file. -/
def CAP_CHOWN : Cap := 0

/-- Override the permissions of files. -/
def CAP_DAC_OVERRIDE : Cap := 1

/-- Read any file and search any directory. -/
def CAP_DAC_READ_SEARCH : Cap := 2

/-- Act as the owner of any file. -/
def CAP_FOWNER : Cap := 3

/-- Keep the setuid bits of a file that is changed. -/
def CAP_FSETID : Cap := 4

/-- Send signals to any process. -/
def CAP_KILL : Cap := 5

/-- Change the group IDs. -/
def CAP_SETGID : Cap := 6

/-- Change the user IDs. -/
def CAP_SETUID : Cap := 7

/-- Drop from the bounding set, and add to the inheritable one. -/
def CAP_SETPCAP : Cap := 8

/-- Change the immutable flags. -/
def CAP_LINUX_IMMUTABLE : Cap := 9

/-- Administer the network. -/
def CAP_NET_ADMIN : Cap := 12

/-- Load kernel modules. -/
def CAP_SYS_MODULE : Cap := 16

/-- Change the root, and enter a mount namespace. -/
def CAP_SYS_CHROOT : Cap := 18

/-- Inspect any process. -/
def CAP_SYS_PTRACE : Cap := 19

/-- Mount, among others. -/
def CAP_SYS_ADMIN : Cap := 21

/-- Create device nodes. -/
def CAP_MKNOD : Cap := 27

/-- The last of the capabilities that go with the user of the file system. -/
def CAP_MAC_OVERRIDE : Cap := 32

/-- `CAP_FS_SET`: what a change of the filesystem user ID takes and gives. -/
def CAP_FS_SET : Finset Cap :=
  {CAP_CHOWN, CAP_MKNOD, CAP_DAC_OVERRIDE, CAP_DAC_READ_SEARCH, CAP_FOWNER, CAP_FSETID,
    CAP_LINUX_IMMUTABLE, CAP_MAC_OVERRIDE}

/-- The five sets of a task. -/
@[ext]
structure Caps where
  permitted : Finset Cap
  effective : Finset Cap
  inheritable : Finset Cap
  bounding : Finset Cap
  ambient : Finset Cap
  effective_subset : effective ⊆ permitted
  ambient_subset : ambient ⊆ permitted ∩ inheritable

/-- The three sets `capset` takes. -/
structure CapState where
  permitted : Finset Cap
  effective : Finset Cap
  inheritable : Finset Cap
  deriving DecidableEq

namespace Caps

variable (c : Caps)

/-- What `capget` gives. -/
def state : CapState := ⟨c.permitted, c.effective, c.inheritable⟩

/-- What `capset` lets through. -/
def MaySet (r : CapState) : Prop :=
  r.effective ⊆ r.permitted ∧ r.permitted ⊆ c.permitted
  ∧ (CAP_SETPCAP ∈ c.effective ∨ r.inheritable ⊆ c.inheritable ∪ c.permitted)
  ∧ r.inheritable ⊆ c.inheritable ∪ c.bounding

instance (r : CapState) : Decidable (c.MaySet r) :=
  inferInstanceAs (Decidable (_ ∧ _ ∧ (_ ∨ _) ∧ _))

/-- The sets after `capset`; ambient ones go with those they rest on. -/
def setTo (r : CapState) (h : r.effective ⊆ r.permitted) : Caps where
  permitted := r.permitted
  effective := r.effective
  inheritable := r.inheritable
  bounding := c.bounding
  ambient := c.ambient ∩ (r.permitted ∩ r.inheritable)
  effective_subset := h
  ambient_subset := Finset.inter_subset_right

/-- `capset`. -/
def capset (r : CapState) : Option Caps := if h : c.MaySet r then some (c.setTo r h.1) else none

/-- `PR_CAPBSET_DROP`. -/
def capbsetDrop (x : Cap) : Option Caps :=
  if CAP_SETPCAP ∈ c.effective then some { c with bounding := c.bounding.erase x } else none

/-- `PR_CAP_AMBIENT_CLEAR_ALL`. -/
def ambientClear : Caps := { c with ambient := ∅, ambient_subset := Finset.empty_subset _ }

/-- `PR_CAP_AMBIENT_RAISE`. -/
def ambientRaise (x : Cap) : Option Caps :=
  if h : x ∈ c.permitted ∩ c.inheritable then
    some { c with
      ambient := insert x c.ambient
      ambient_subset := Finset.insert_subset h c.ambient_subset }
  else none

/-- Effective capabilities, some of those that are permitted. -/
def withEffective (e : Finset Cap) (h : e ⊆ c.permitted) : Caps :=
  { c with effective := e, effective_subset := h }

/-- The filesystem user ID changes. -/
def fsuidFixup (old new : Id) : Caps :=
  if old = 0 ∧ new ≠ 0 then
    c.withEffective (c.effective \ CAP_FS_SET) (Finset.sdiff_subset.trans c.effective_subset)
  else if old ≠ 0 ∧ new = 0 then
    c.withEffective (c.effective ∪ c.permitted ∩ CAP_FS_SET)
      (Finset.union_subset c.effective_subset Finset.inter_subset_left)
  else c

/-- None of the user IDs is root's any more. -/
def leaveRoot (keepCaps : Bool) : Caps :=
  if keepCaps then c.ambientClear
  else ⟨∅, ∅, c.inheritable, c.bounding, ∅, subset_rfl, Finset.empty_subset _⟩

instance (ids : Ids) (id : Id) : Decidable (ids.Has id) := inferInstanceAs (Decidable (_ ∨ _ ∨ _))

/-- The effective ID becomes root's, or ceases to be. -/
def effectiveFixup (old new : Ids) : Caps :=
  if old.effective = 0 ∧ new.effective ≠ 0 then c.withEffective ∅ (Finset.empty_subset _)
  else if old.effective ≠ 0 ∧ new.effective = 0 then c.withEffective c.permitted subset_rfl
  else c

/-- The user IDs change. -/
def setuidFixup (keepCaps : Bool) (old new : Ids) : Caps :=
  (if old.Has 0 ∧ ¬new.Has 0 then c.leaveRoot keepCaps else c).effectiveFixup old new

end Caps

/-! ## Tasks -/

/-- The secure bits that are looked at. -/
structure Securebits where
  noroot : Bool
  noSetuidFixup : Bool
  keepCaps : Bool
  noAmbientRaise : Bool
  deriving DecidableEq

/-- A process, by its user IDs and its capabilities. -/
structure Task where
  creds : Creds
  fsuid : Id
  caps : Caps
  securebits : Securebits

/-- The capabilities of a file. -/
structure FileCaps where
  permitted : Finset Cap
  inheritable : Finset Cap
  effective : Bool

/-- What an executable file says about privileges. -/
structure File where
  setuid : Option Id
  setgid : Option Id
  caps : Option FileCaps

namespace Task

variable (t : Task)

/-- `setreuid` and the like, where they are let through. -/
def setUsers (ids : Ids) : Task where
  creds := { t.creds with users := ids }
  fsuid := ids.effective
  caps := if t.securebits.noSetuidFixup then t.caps
    else t.caps.setuidFixup t.securebits.keepCaps t.creds.users ids
  securebits := t.securebits

/-- What `setfsuid` lets through. -/
def MaySetFsuid (id : Id) : Prop :=
  CAP_SETUID ∈ t.caps.effective ∨ t.creds.users.Has id ∨ id = t.fsuid

instance (id : Id) : Decidable (t.MaySetFsuid id) :=
  inferInstanceAs (Decidable (_ ∨ (_ ∨ _ ∨ _) ∨ _))

/-- `setfsuid`, where it is let through. -/
def setFsuid (id : Id) : Task :=
  { t with
    fsuid := id
    caps := if t.securebits.noSetuidFixup then t.caps else t.caps.fsuidFixup t.fsuid id }

/-- The effective ID a file is executed with. -/
def idFor (ids : Ids) (setid : Option Id) : Id :=
  if t.creds.noNewPrivs then ids.effective else setid.getD ids.effective

/-- The file is executed with root's privileges. -/
def ExecAsRoot (f : File) : Prop :=
  let euid := t.idFor t.creds.users f.setuid
  t.securebits.noroot = false ∧ (t.creds.users.real = 0 ∨ euid = 0)
    ∧ ¬(f.caps.isSome ∧ euid = 0 ∧ t.creds.users.real ≠ 0)

instance (f : File) : Decidable (t.ExecAsRoot f) := inferInstanceAs (Decidable (_ ∧ (_ ∨ _) ∧ ¬_))

/-- What the file gives, before it is held against what the task has. -/
def given (f : File) : Finset Cap :=
  if t.ExecAsRoot f then t.caps.inheritable ∪ t.caps.bounding
  else f.caps.elim ∅ fun fc =>
    fc.inheritable ∩ t.caps.inheritable ∪ fc.permitted ∩ t.caps.bounding

/-- The file is executed with another ID. -/
def Setid (f : File) : Prop :=
  t.idFor t.creds.users f.setuid ≠ t.creds.users.real
    ∨ t.idFor t.creds.groups f.setgid ≠ t.creds.groups.real

instance (f : File) : Decidable (t.Setid f) := inferInstanceAs (Decidable (_ ∨ _))

/-- No new privileges: the task gets what it has of what the file gives. -/
def Downgraded (f : File) : Prop :=
  t.creds.noNewPrivs = true ∧ (t.Setid f ∨ ¬t.given f ⊆ t.caps.permitted)

instance (f : File) : Decidable (t.Downgraded f) := inferInstanceAs (Decidable (_ ∧ (_ ∨ ¬_)))

/-- The ambient capabilities that stay. -/
def ambientFor (f : File) : Finset Cap := if f.caps.isSome ∨ t.Setid f then ∅ else t.caps.ambient

/-- What a program may use once it is executed. -/
def permittedFor (f : File) : Finset Cap :=
  (if t.Downgraded f then t.given f ∩ t.caps.permitted else t.given f) ∪ t.ambientFor f

/-- The permitted capabilities become effective. -/
def RaisedBy (f : File) : Prop :=
  t.ExecAsRoot f ∧ t.idFor t.creds.users f.setuid = 0 ∨ f.caps.elim false (·.effective) = true

instance (f : File) : Decidable (t.RaisedBy f) := inferInstanceAs (Decidable (_ ∧ _ ∨ _))

theorem ambientFor_subset (f : File) : t.ambientFor f ⊆ t.caps.ambient := by
  rw [ambientFor]
  split_ifs
  · exact Finset.empty_subset _
  · exact subset_rfl

/-- `execve`, where it succeeds. -/
def exec (f : File) : Task where
  creds :=
    let euid := if t.Downgraded f then t.creds.users.real else t.idFor t.creds.users f.setuid
    let egid := if t.Downgraded f then t.creds.groups.real else t.idFor t.creds.groups f.setgid
    { t.creds with
      users := ⟨t.creds.users.real, euid, euid⟩
      groups := ⟨t.creds.groups.real, egid, egid⟩ }
  fsuid := if t.Downgraded f then t.creds.users.real else t.idFor t.creds.users f.setuid
  caps :=
    { permitted := t.permittedFor f
      effective := if t.RaisedBy f then t.permittedFor f else t.ambientFor f
      inheritable := t.caps.inheritable
      bounding := t.caps.bounding
      ambient := t.ambientFor f
      effective_subset := by
        split_ifs
        · exact subset_rfl
        · exact Finset.subset_union_right
      ambient_subset := Finset.subset_inter Finset.subset_union_right
        ((t.ambientFor_subset f).trans
          (t.caps.ambient_subset.trans Finset.inter_subset_right)) }
  securebits := { t.securebits with keepCaps := false }

/-- **What a task can do** to its credentials. -/
inductive Step : Task → Prop
  | capset (r : CapState) (c : Caps) (h : t.caps.capset r = some c) : Step { t with caps := c }
  | capbsetDrop (x : Cap) (c : Caps) (h : t.caps.capbsetDrop x = some c) : Step { t with caps := c }
  | ambientClear : Step { t with caps := t.caps.ambientClear }
  | ambientRaise (x : Cap) (c : Caps) (hsecure : t.securebits.noAmbientRaise = false)
      (h : t.caps.ambientRaise x = some c) : Step { t with caps := c }
  | setUsers (ids : Ids) (h : CAP_SETUID ∈ t.caps.effective ∨ t.creds.users.Switch ids) :
      Step (t.setUsers ids)
  | setFsuid (id : Id) (h : t.MaySetFsuid id) : Step (t.setFsuid id)
  | setGroups (groups : Ids) (supplementary : List Id) :
      Step { t with creds := { t.creds with groups := groups, supplementary := supplementary } }
  | setNoNewPrivs : Step { t with creds := { t.creds with noNewPrivs := true } }
  | setSecurebits (b : Securebits)
      (h : CAP_SETPCAP ∈ t.caps.effective ∨ b = { t.securebits with keepCaps := b.keepCaps }) :
      Step { t with securebits := b }
  | exec (f : File) : Step (t.exec f)

/-- The capabilities a task has, may give on, and may get from a file. -/
def reach : Finset Cap := t.caps.permitted ∪ t.caps.inheritable ∪ t.caps.bounding

end Task

/-! ## What is never gained -/

section Bounds

variable {c c' : Caps}

/-- `capset(2)` succeeds exactly when it may. -/
theorem Caps.capset_eq_some {r : CapState} :
    c.capset r = some c' ↔ ∃ h : c.MaySet r, c' = c.setTo r h.1 := by
  rw [capset]
  split_ifs with h
  · exact ⟨fun heq => ⟨h, (Option.some.inj heq).symm⟩, fun ⟨_, heq⟩ => congrArg some heq.symm⟩
  · exact ⟨fun heq => heq.elim, fun ⟨hmay, _⟩ => absurd hmay h⟩

/-- `PR_CAPBSET_DROP` takes one capability out of the bounding set. -/
theorem Caps.capbsetDrop_eq_some {x : Cap} : c.capbsetDrop x = some c' ↔
    CAP_SETPCAP ∈ c.effective ∧ c' = { c with bounding := c.bounding.erase x } := by
  rw [capbsetDrop]
  split_ifs with h
  · exact ⟨fun heq => ⟨h, (Option.some.inj heq).symm⟩, fun ⟨_, heq⟩ => congrArg some heq.symm⟩
  · exact ⟨fun heq => heq.elim, fun hex => absurd hex.1 h⟩

/-- An ambient capability changes no other set. -/
theorem Caps.ambientRaise_eq_some {x : Cap} (h : c.ambientRaise x = some c') :
    c'.permitted = c.permitted ∧ c'.inheritable = c.inheritable ∧ c'.bounding = c.bounding := by
  rw [ambientRaise] at h
  split_ifs at h
  obtain rfl := Option.some.inj h
  exact ⟨rfl, rfl, rfl⟩

theorem Caps.effectiveFixup_same (c : Caps) (old new : Ids) :
    (c.effectiveFixup old new).permitted = c.permitted
    ∧ (c.effectiveFixup old new).inheritable = c.inheritable
    ∧ (c.effectiveFixup old new).bounding = c.bounding := by
  unfold effectiveFixup
  split_ifs
  · exact ⟨rfl, rfl, rfl⟩
  · exact ⟨rfl, rfl, rfl⟩
  · exact ⟨rfl, rfl, rfl⟩

/-- A change of the user IDs takes permitted capabilities, or leaves them. -/
theorem Caps.setuidFixup_subset (c : Caps) (keep : Bool) (old new : Ids) :
    (c.setuidFixup keep old new).permitted ⊆ c.permitted
    ∧ (c.setuidFixup keep old new).inheritable = c.inheritable
    ∧ (c.setuidFixup keep old new).bounding = c.bounding := by
  have hleave : (c.leaveRoot keep).permitted ⊆ c.permitted
      ∧ (c.leaveRoot keep).inheritable = c.inheritable
      ∧ (c.leaveRoot keep).bounding = c.bounding := by
    rcases keep with _ | _
    · exact ⟨Finset.empty_subset _, rfl, rfl⟩
    · exact ⟨subset_rfl, rfl, rfl⟩
  rw [setuidFixup, (effectiveFixup_same _ old new).1, (effectiveFixup_same _ old new).2.1,
    (effectiveFixup_same _ old new).2.2]
  split_ifs
  · exact hleave
  · exact ⟨subset_rfl, rfl, rfl⟩

theorem Caps.fsuidFixup_same (c : Caps) (old new : Id) :
    (c.fsuidFixup old new).permitted = c.permitted
    ∧ (c.fsuidFixup old new).inheritable = c.inheritable
    ∧ (c.fsuidFixup old new).bounding = c.bounding
    ∧ (c.fsuidFixup old new).ambient = c.ambient := by
  unfold fsuidFixup
  split_ifs
  · exact ⟨rfl, rfl, rfl, rfl⟩
  · exact ⟨rfl, rfl, rfl, rfl⟩
  · exact ⟨rfl, rfl, rfl, rfl⟩

end Bounds

namespace Task

variable {t t' : Task}

/-- An executed file gives inheritable and bounding capabilities at most. -/
theorem given_subset (t : Task) (f : File) :
    t.given f ⊆ t.caps.inheritable ∪ t.caps.bounding := by
  rw [given]
  split_ifs
  · exact subset_rfl
  · rcases f.caps with _ | fc
    · exact Finset.empty_subset _
    · exact Finset.union_subset_union Finset.inter_subset_right Finset.inter_subset_right

/-- **What is permitted after exec** was inheritable, bounding or ambient. -/
theorem permittedFor_subset (t : Task) (f : File) :
    t.permittedFor f ⊆ t.caps.inheritable ∪ t.caps.bounding := by
  have hambient : t.ambientFor f ⊆ t.caps.inheritable ∪ t.caps.bounding :=
    (t.ambientFor_subset f).trans (t.caps.ambient_subset.trans
      (Finset.inter_subset_right.trans Finset.subset_union_left))
  refine Finset.union_subset ?_ hambient
  split_ifs
  · exact Finset.inter_subset_left.trans (t.given_subset f)
  · exact t.given_subset f

/-- With no new privileges, what is permitted after exec was permitted. -/
theorem permittedFor_subset_permitted (f : File) (h : t.creds.noNewPrivs = true) :
    t.permittedFor f ⊆ t.caps.permitted := by
  have hambient : t.ambientFor f ⊆ t.caps.permitted :=
    (t.ambientFor_subset f).trans (t.caps.ambient_subset.trans Finset.inter_subset_left)
  refine Finset.union_subset ?_ hambient
  split_ifs with hdown
  · exact Finset.inter_subset_right
  · by_contra hgained
    exact hdown ⟨h, .inr hgained⟩

/-- What one step does to the three sets a task reaches with: nothing is permitted or inheritable
that was not within reach, nothing is bounding that was not. -/
theorem Step.subset (h : t.Step t') : t'.caps.permitted ⊆ t.reach
    ∧ t'.caps.inheritable ⊆ t.reach ∧ t'.caps.bounding ⊆ t.caps.bounding := by
  have hp : t.caps.permitted ⊆ t.reach :=
    Finset.subset_union_left.trans Finset.subset_union_left
  have hi : t.caps.inheritable ⊆ t.reach :=
    Finset.subset_union_right.trans Finset.subset_union_left
  have hb : t.caps.bounding ⊆ t.reach := Finset.subset_union_right
  cases h with
  | capset r c h =>
    obtain ⟨⟨-, hperm, -, hinh⟩, rfl⟩ := Caps.capset_eq_some.mp h
    exact ⟨hperm.trans hp, hinh.trans (Finset.union_subset hi hb), subset_rfl⟩
  | capbsetDrop x c h =>
    obtain ⟨-, rfl⟩ := Caps.capbsetDrop_eq_some.mp h
    exact ⟨hp, hi, Finset.erase_subset _ _⟩
  | ambientRaise x c hsecure h =>
    obtain ⟨hperm, hinh, hbnd⟩ := Caps.ambientRaise_eq_some h
    exact ⟨hperm.subset.trans hp, hinh.subset.trans hi, hbnd.subset⟩
  | setUsers ids h =>
    obtain ⟨hperm, hinh, hbnd⟩ :=
      t.caps.setuidFixup_subset t.securebits.keepCaps t.creds.users ids
    simp only [Task.setUsers]
    split_ifs
    · exact ⟨hp, hi, subset_rfl⟩
    · exact ⟨hperm.trans hp, hinh.subset.trans hi, hbnd.subset⟩
  | setFsuid id h =>
    obtain ⟨hperm, hinh, hbnd, -⟩ := t.caps.fsuidFixup_same t.fsuid id
    simp only [Task.setFsuid]
    split_ifs
    · exact ⟨hp, hi, subset_rfl⟩
    · exact ⟨hperm.subset.trans hp, hinh.subset.trans hi, hbnd.subset⟩
  | exec f =>
    exact ⟨(t.permittedFor_subset f).trans (Finset.union_subset hi hb), hi, subset_rfl⟩
  | ambientClear | setGroups | setNoNewPrivs | setSecurebits => exact ⟨hp, hi, subset_rfl⟩

/-- **A task gets no capability that was not within its reach**, whatever it does and whatever it
executes. -/
theorem reach_subset_of_run (h : ReflTransGen Step t t') : t'.reach ⊆ t.reach := by
  induction h with
  | refl => exact subset_rfl
  | @tail t₁ t₂ _ hstep ih =>
    obtain ⟨hp, hi, hb⟩ := hstep.subset
    have hreach : t₂.reach ⊆ t₁.reach :=
      Finset.union_subset (Finset.union_subset hp hi) (hb.trans Finset.subset_union_right)
    exact hreach.trans ih

/-- With no new privileges a step permits nothing new. -/
theorem Step.permitted_subset (h : t.Step t') (hnnp : t.creds.noNewPrivs = true) :
    t'.caps.permitted ⊆ t.caps.permitted ∧ t'.creds.noNewPrivs = true := by
  cases h with
  | capset r c h =>
    obtain ⟨⟨-, hperm, -, -⟩, rfl⟩ := Caps.capset_eq_some.mp h
    exact ⟨hperm, hnnp⟩
  | capbsetDrop x c h =>
    obtain ⟨-, rfl⟩ := Caps.capbsetDrop_eq_some.mp h
    exact ⟨subset_rfl, hnnp⟩
  | ambientRaise x c hsecure h => exact ⟨(Caps.ambientRaise_eq_some h).1.subset, hnnp⟩
  | setUsers ids h =>
    refine ⟨?_, hnnp⟩
    simp only [Task.setUsers]
    split_ifs
    · exact subset_rfl
    · exact (t.caps.setuidFixup_subset t.securebits.keepCaps t.creds.users ids).1
  | setFsuid id h =>
    refine ⟨?_, hnnp⟩
    simp only [Task.setFsuid]
    split_ifs
    · exact subset_rfl
    · exact (t.caps.fsuidFixup_same t.fsuid id).1.subset
  | setNoNewPrivs => exact ⟨subset_rfl, rfl⟩
  | exec f => exact ⟨permittedFor_subset_permitted f hnnp, hnnp⟩
  | ambientClear | setGroups | setSecurebits => exact ⟨subset_rfl, hnnp⟩

/-- **With no new privileges a task keeps to what it was permitted**, whatever it does and whatever
it executes. -/
theorem permitted_subset_of_run (hnnp : t.creds.noNewPrivs = true) (h : ReflTransGen Step t t') :
    t'.caps.permitted ⊆ t.caps.permitted := by
  have hboth : t'.caps.permitted ⊆ t.caps.permitted ∧ t'.creds.noNewPrivs = true := by
    induction h with
    | refl => exact ⟨subset_rfl, hnnp⟩
    | tail _ hstep ih =>
      obtain ⟨hsub, hkept⟩ := hstep.permitted_subset ih.2
      exact ⟨hsub.trans ih.1, hkept⟩
  exact hboth.1

/-- With no new privileges a file is executed with the IDs that there are. -/
theorem users_exec {uid : Id} (f : File) (hnnp : t.creds.noNewPrivs = true)
    (hreal : t.creds.users.real = uid) (heffective : t.creds.users.effective = uid) :
    (t.exec f).creds.users = .all uid := by
  have hid : t.idFor t.creds.users f.setuid = uid := by rw [idFor, if_pos hnnp, heffective]
  simp only [Task.exec, hid, hreal, Ids.all, ite_self]

/-- One user ID, and no way to another. -/
structure Settled (t : Task) (uid : Id) : Prop where
  users : t.creds.users = .all uid
  noNewPrivs : t.creds.noNewPrivs = true
  notMem : CAP_SETUID ∉ t.caps.permitted

/-- What is settled stays so. -/
theorem Settled.step {uid : Id} (h : t.Settled uid) (hstep : t.Step t') : t'.Settled uid := by
  obtain ⟨hsub, hkept⟩ := hstep.permitted_subset h.noNewPrivs
  refine ⟨?_, hkept, fun hmem => h.notMem (hsub hmem)⟩
  cases hstep with
  | setUsers ids hids =>
    rcases hids with hmem | hswitch
    · exact absurd (t.caps.effective_subset hmem) h.notMem
    · refine Ids.eq_all_iff.mpr fun id hid => ?_
      have hold := hswitch id hid
      rw [h.users] at hold
      exact Ids.has_all.mp hold
  | exec f => exact users_exec f h.noNewPrivs (by rw [h.users]; rfl) (by rw [h.users]; rfl)
  | capset | capbsetDrop | ambientClear | ambientRaise | setFsuid | setGroups | setNoNewPrivs
  | setSecurebits => exact h.users

/-- **A settled task acts under its user ID for good**, whatever it does and executes. -/
theorem Settled.run {uid : Id} (h : t.Settled uid) (hrun : ReflTransGen Step t t') :
    t'.Settled uid := by
  induction hrun with
  | refl => exact h
  | tail _ hstep ih => exact ih.step hstep

end Task

end Perm
