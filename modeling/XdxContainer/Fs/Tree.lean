import XdxContainer.Path.Walk
import XdxContainer.Path.Strings
import XdxContainer.Data.Except

/-!
# Fs/Tree — a file system tree, and the resolution of path strings in it

A tree is a finite list of located inodes: a location is the list of names leading to it from `/`,
so a location names at most one inode and `..` is dropping the last name.  The order of the list is
the order directories are read in.

    string ──components──▸ walk of `walkStep` ──▸ location

`walkStep` is the kernel's treatment of one component; it serves both the resolution from `/` that
every system call performs (`Fs.resolve`) and one confined to a root (`Fs.chroot`).
-/

open Paths Walk

namespace Fs

/-- A component of a path. -/
abbrev Name := Str

/-- Where an inode is: the names leading to it from `/`. -/
abbrev Loc := List Name

/-- `NAME_MAX`. -/
def NAME_MAX : ℕ := 255

/-- What the calls set `errno` to. -/
inductive Errno
  | ENOENT | ENOTDIR | EISDIR | ELOOP | ENAMETOOLONG | EINVAL | EEXIST | EBUSY | ENOTEMPTY
  deriving DecidableEq, Repr

/-- The file type bits of a mode. -/
inductive Fmt
  | dir | reg | chr | blk | fifo | sock | lnk
  deriving DecidableEq, Repr

/-- `mode_t`. -/
structure Mode where
  fmt : Fmt
  perm : BitVec 12
  deriving DecidableEq, Repr

/-- What `stat` tells of an inode, and the target when it is a symbolic link. -/
structure Inode where
  mode : Mode
  dev : ℕ := 0
  rdev : BitVec 64 := 0
  size : ℕ := 0
  target : Str := []
  deriving DecidableEq, Repr

/-- `S_ISDIR`. -/
def Inode.isDir (i : Inode) : Bool := i.mode.fmt = .dir

/-- `S_ISLNK`. -/
def Inode.isLink (i : Inode) : Bool := i.mode.fmt = .lnk

theorem Inode.isLink_eq_false {i : Inode} (h : i.isDir = true) : i.isLink = false := by
  rw [isDir, decide_eq_true_eq] at h
  simp [isLink, h]

/-- A name a directory can hold. -/
def IsName (c : Name) : Prop := c ≠ [] ∧ c ≠ dot ∧ c ≠ dotdot ∧ '/' ∉ c ∧ c.length ≤ NAME_MAX

instance (c : Name) : Decidable (IsName c) := inferInstanceAs (Decidable (_ ∧ _))

/-- A file system tree: `/` is a directory, everything else is in a directory under a proper name,
and symbolic links are not empty. -/
structure Tree where
  nodes : List (Loc × Inode)
  root : ∃ i, nodes.lookup [] = some i ∧ i.isDir
  parent : ∀ p c i, nodes.lookup (p ++ [c]) = some i → ∃ j, nodes.lookup p = some j ∧ j.isDir
  name : ∀ p c i, nodes.lookup (p ++ [c]) = some i → IsName c
  target : ∀ p i, nodes.lookup p = some i → i.isLink → i.target ≠ []

namespace Tree

variable (fs : Tree)

/-- The inode at a location. -/
def inode (p : Loc) : Option Inode := fs.nodes.lookup p

/-- The location is one of a directory. -/
def IsDir (p : Loc) : Prop := ∃ i, fs.inode p = some i ∧ i.isDir = true

/-- A directory is at a location. -/
def isDir (p : Loc) : Bool := (fs.inode p).any (·.isDir)

variable {fs} {p : Loc} {c : Name}

/-- The test for a directory. -/
@[simp] theorem isDir_iff : fs.isDir p = true ↔ fs.IsDir p := by
  rw [isDir, IsDir, Option.any_eq_true_iff_get]
  constructor
  · rintro ⟨hs, hd⟩
    exact ⟨_, (Option.some_get hs).symm, hd⟩
  · rintro ⟨i, hi, hd⟩
    exact ⟨by simp [hi], by simpa [hi] using hd⟩

/-- The root is a directory. -/
theorem isDir_root : fs.IsDir [] := fs.root

/-- What has a child is a directory. -/
theorem isDir_of_inode {i : Inode} (h : fs.inode (p ++ [c]) = some i) : fs.IsDir p :=
  fs.parent p c i h

/-- What a directory holds has a name. -/
theorem isName_of_inode {i : Inode} (h : fs.inode (p ++ [c]) = some i) : IsName c :=
  fs.name p c i h

/-- Whether a list of located inodes makes a tree. -/
def wellFormed (nodes : List (Loc × Inode)) : Bool :=
  (nodes.lookup []).any (·.isDir)
    && nodes.all fun (p, i) =>
      (!i.isLink || i.target ≠ [])
        && (p = [] || (nodes.lookup p.dropLast).any (·.isDir) && p.getLast?.any fun c => IsName c)

theorem mem_of_lookup {nodes : List (Loc × Inode)} {i : Inode} (h : nodes.lookup p = some i) :
    (p, i) ∈ nodes := by
  induction nodes with
  | nil => cases h
  | cons x nodes ih =>
    obtain ⟨q, j⟩ := x
    rw [List.lookup_cons] at h
    split at h
    · next heq =>
      rw [beq_iff_eq.mp heq, Option.some.inj h]
      exact List.mem_cons_self
    · exact List.mem_cons_of_mem _ (ih h)

/-- The tree of a list of located inodes that makes one. -/
def ofNodes (nodes : List (Loc × Inode)) (h : wellFormed nodes = true) : Tree where
  nodes := nodes
  root := by
    obtain ⟨hroot, -⟩ := Bool.and_eq_true_iff.mp h
    rw [Option.any_eq_true] at hroot
    exact hroot
  parent p c i hi := by
    obtain ⟨-, hall⟩ := Bool.and_eq_true_iff.mp h
    have hnode := List.all_eq_true.mp hall _ (mem_of_lookup hi)
    simp [Option.any_eq_true] at hnode
    exact hnode.2.1
  name p c i hi := by
    obtain ⟨-, hall⟩ := Bool.and_eq_true_iff.mp h
    have hnode := List.all_eq_true.mp hall _ (mem_of_lookup hi)
    simp [Option.any_eq_true] at hnode
    exact hnode.2.2
  target p i hi hlink := by
    obtain ⟨-, hall⟩ := Bool.and_eq_true_iff.mp h
    have hnode := List.all_eq_true.mp hall _ (mem_of_lookup hi)
    simp [hlink] at hnode
    exact hnode.1

end Tree

/-! ## Resolving a component -/

/-- The components of a string as the kernel takes them: a slash at the end asks for a directory,
like a `.` there. -/
def kernelComponents (s : Str) : List Name :=
  components s ++ if s.getLast? = some '/' then [dot] else []

/-- What the kernel does with one component, in a process whose root directory is `root`; `split`
takes link targets apart. -/
def Tree.walkStep (fs : Tree) (split : Str → List Name) (root cur : Loc) (c : Name) :
    Move Loc Name Errno :=
  if fs.isDir cur = false then .fail .ENOTDIR
  else if c = dot then .next cur
  else if c = dotdot then .next (if cur = root then root else cur.dropLast)
  else if NAME_MAX < c.length then .fail .ENAMETOOLONG
  else
    match fs.inode (cur ++ [c]) with
    | none => .fail .ENOENT
    | some i =>
      if i.isLink then .splice (if i.target.head? = some '/' then root else cur) (split i.target)
      else .next (cur ++ [c])

/-- The number of links the kernel follows. -/
def linkLimit : ℕ := 40

/-- The kernel's resolution of an absolute string, links followed throughout. -/
def Tree.resolve (fs : Tree) (s : Str) : Except Errno Loc :=
  if s = [] then .error .ENOENT
  else if PATH_MAX ≤ s.length then .error .ENAMETOOLONG
  else (walk (fs.walkStep kernelComponents []) .ELOOP linkLimit (kernelComponents s) []).map (·.2)

/-- The kernel's resolution of a string in a process whose root directory is `root`: absolute links
start again there and `..` does not lead above it. -/
def Tree.chroot (fs : Tree) (root : Loc) (s : Str) : Except Errno Loc :=
  (walk (fs.walkStep kernelComponents root) .ELOOP linkLimit (kernelComponents s) root).map (·.2)

/-- The components but for `.`, which then does not ask for a directory. -/
def nameComponents (s : Str) : List Name := (components s).filter (· ≠ dot)

/-- The same resolution, except that nothing is asked of a `.` or of a slash at the end. -/
def Tree.chrootLax (fs : Tree) (root : Loc) (s : Str) : Except Errno Loc :=
  (walk (fs.walkStep nameComponents root) .ELOOP linkLimit (nameComponents s) root).map (·.2)

section Step

variable {fs : Tree} {split : Str → List Name} {root cur cur' : Loc} {c : Name} {t : List Name}

theorem Tree.walkStep_dot (hdir : fs.isDir cur = true) :
    fs.walkStep split root cur dot = .next cur := by
  rw [walkStep, if_neg (by simp [hdir]), if_pos rfl]

/-- A name that is looked up. -/
theorem Tree.walkStep_name (hdir : fs.isDir cur = true) (hdot : c ≠ dot) (hup : c ≠ dotdot)
    (hlong : ¬NAME_MAX < c.length) :
    fs.walkStep split root cur c = match fs.inode (cur ++ [c]) with
      | none => .fail .ENOENT
      | some i =>
        if i.isLink then .splice (if i.target.head? = some '/' then root else cur) (split i.target)
        else .next (cur ++ [c]) := by
  rw [walkStep, if_neg (by simp [hdir]), if_neg hdot, if_neg hup, if_neg hlong]

/-- **What a step that goes on has done.** -/
theorem Tree.walkStep_next (h : fs.walkStep split root cur c = .next cur') :
    fs.isDir cur = true
      ∧ ((c = dot ∧ cur' = cur)
        ∨ (c = dotdot ∧ cur' = if cur = root then root else cur.dropLast)
        ∨ ((c ≠ dot ∧ c ≠ dotdot ∧ ¬NAME_MAX < c.length)
          ∧ (∃ i, fs.inode (cur ++ [c]) = some i ∧ i.isLink = false) ∧ cur' = cur ++ [c])) := by
  rw [walkStep] at h
  split_ifs at h with hdir hdot hup hroot hlong
  · exact ⟨by simpa using hdir, .inl ⟨hdot, (Move.next.inj h).symm⟩⟩
  · exact ⟨by simpa using hdir, .inr (.inl ⟨hup, by rw [if_pos hroot, Move.next.inj h]⟩)⟩
  · exact ⟨by simpa using hdir, .inr (.inl ⟨hup, by rw [if_neg hroot, Move.next.inj h]⟩)⟩
  · refine ⟨by simpa using hdir, .inr (.inr ⟨⟨hdot, hup, hlong⟩, ?_⟩)⟩
    split at h
    · cases h
    · next i hi =>
      split_ifs at h with hlink
      exact ⟨⟨i, hi, by simpa using hlink⟩, (Move.next.inj h).symm⟩

/-- **What a step that meets a link has done.** -/
theorem Tree.walkStep_splice (h : fs.walkStep split root cur c = .splice cur' t) :
    fs.isDir cur = true ∧ (c ≠ dot ∧ c ≠ dotdot ∧ ¬NAME_MAX < c.length)
      ∧ ∃ i, fs.inode (cur ++ [c]) = some i ∧ i.isLink = true
        ∧ cur' = (if i.target.head? = some '/' then root else cur) ∧ t = split i.target := by
  rw [walkStep] at h
  split_ifs at h with hdir hdot hup hlong
  refine ⟨by simpa using hdir, ⟨hdot, hup, hlong⟩, ?_⟩
  split at h
  · cases h
  · next i hi =>
    by_cases hlink : i.isLink = true
    · rw [if_pos hlink] at h
      obtain ⟨hcur, ht⟩ := Move.splice.inj h
      exact ⟨i, hi, hlink, hcur.symm, ht.symm⟩
    · rw [if_neg hlink] at h
      cases h

end Step

theorem filter_kernelComponents (s : Str) :
    (kernelComponents s).filter (· ≠ dot) = nameComponents s := by
  rw [kernelComponents, List.filter_append, nameComponents]
  split_ifs <;> simp

/-- Where the kernel finds something, asking less finds the same. -/
theorem Tree.chrootLax_of_chroot {fs : Tree} {root p : Loc} {s : Str}
    (h : fs.chroot root s = .ok p) : fs.chrootLax root s = .ok p := by
  obtain ⟨⟨m, q⟩, hwalk, rfl⟩ := Except.map_eq_ok h
  suffices hlax : walk (fs.walkStep nameComponents root) .ELOOP linkLimit
      ((kernelComponents s).filter (· ≠ dot)) root = .ok (m, q) by
    rw [filter_kernelComponents] at hlax
    rw [chrootLax, hlax]
    rfl
  refine walk_induction (P := fun n l cur m q => walk (fs.walkStep nameComponents root) .ELOOP n
    (l.filter (· ≠ dot)) cur = .ok (m, q)) ?_ ?_ ?_ hwalk
  · intro n cur
    exact walk_nil n cur
  · intro n l cur c cur' m q hstep _ ih
    obtain ⟨hdir, ⟨rfl, rfl⟩ | ⟨rfl, rfl⟩ | ⟨⟨hdot, hup, hlong⟩, ⟨i, hi, hlink⟩, rfl⟩⟩ :=
      walkStep_next hstep
    · rw [List.filter_cons_of_neg (by simp), ih]
    · have hlax : fs.walkStep nameComponents root cur dotdot
          = .next (if cur = root then root else cur.dropLast) := by
        rw [walkStep, if_neg (by simp [hdir]), if_neg (by decide), if_pos rfl]
      rw [List.filter_cons_of_pos (by decide), walk_next hlax, ih]
    · have hlax : fs.walkStep nameComponents root cur c = .next (cur ++ [c]) := by
        rw [walkStep_name hdir hdot hup hlong, hi]
        exact if_neg (by simp [hlink])
      rw [List.filter_cons_of_pos (by simpa using hdot), walk_next hlax, ih]
  · intro n l cur c cur' t m q hstep _ ih
    obtain ⟨hdir, ⟨hdot, hup, hlong⟩, i, hi, hlink, rfl, rfl⟩ := walkStep_splice hstep
    have hlax : fs.walkStep nameComponents root cur c = .splice
        (if i.target.head? = some '/' then root else cur) (nameComponents i.target) := by
      rw [walkStep_name hdir hdot hup hlong, hi]
      exact if_pos hlink
    rw [List.filter_append, filter_kernelComponents] at ih
    rw [List.filter_cons_of_pos (by simpa using hdot), walk_splice hlax, ih]

/-- The directory the last component is looked up in, and that component; nothing for `/`. -/
def Tree.resolveParent (fs : Tree) (s : Str) : Except Errno (Option (Loc × Name)) :=
  if s = [] then .error .ENOENT
  else if PATH_MAX ≤ s.length then .error .ENAMETOOLONG
  else
    match (kernelComponents s).getLast? with
    | none => .ok none
    | some c => do
        let (_, cur) ← walk (fs.walkStep kernelComponents []) .ELOOP linkLimit
          (kernelComponents s).dropLast []
        if fs.isDir cur then return some (cur, c) else throw .ENOTDIR

/-- The last component itself, a link not followed. -/
def Tree.lookupLast (fs : Tree) (cur : Loc) (c : Name) : Except Errno Loc :=
  if c = dot then .ok cur
  else if c = dotdot then .ok cur.dropLast
  else if NAME_MAX < c.length then .error .ENAMETOOLONG
  else if (fs.inode (cur ++ [c])).isSome then .ok (cur ++ [c]) else .error .ENOENT

/-- The kernel's resolution of an absolute string, a link at its end not followed. -/
def Tree.resolveNoFollow (fs : Tree) (s : Str) : Except Errno Loc := do
  match ← fs.resolveParent s with
  | none => return []
  | some (cur, c) => fs.lookupLast cur c

end Fs
