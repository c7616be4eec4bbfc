import XdxContainer.Data.Layers
import XdxContainer.Fs.Edit

/-!
# Fs/World — a mount namespace, the system calls on it, and the file routines of `utils.c`

A world is the tree one sees and the mounts, newest first.  A bind mount grafts a copy of the source
at the destination and remembers what it covers; unmounting grafts that back.

    file_create   ──▸ stat, mkdir per missing ancestor, then mkdir, symlink or open
    file_remove   ──▸ nftw, depth first ──▸ rmdir or unlink what is empty, stop at the first failure

What the tree says is not all the kernel checks: `Creation` lets any call of `file_create` fail
besides.
-/

open Paths

namespace Fs

/-- A mount: where it is, and what it covers there. -/
structure Mnt where
  top : Loc
  covered : Branch top

/-- The tree one sees, and the mounts, newest first. -/
structure World where
  fs : Tree
  mounts : List Mnt := []

namespace World

variable (w : World)

/-! ## Mounts -/

/-- The mount a location is on. -/
def mountOf (p : Loc) : Option Mnt := Layers.seen Mnt.top p w.mounts

/-- The mount at a location, if that is where one starts. -/
def mountAt (p : Loc) : Option Mnt := (w.mountOf p).filter (·.top = p)

/-- Bind the branch at one location to another. -/
def bind (src top : Loc) (hsrc : (w.fs.inode src).isSome) (htop : (w.fs.inode top).isSome)
    (hkind : w.fs.isDir src = w.fs.isDir top) : World where
  fs := w.fs.graft (w.fs.moved src top hsrc fun h => Tree.isDir_iff.mp
    (hkind.trans (h ▸ Tree.isDir_iff.mpr w.fs.isDir_root))) htop
  mounts := ⟨top, w.fs.branch top htop⟩ :: w.mounts

/-- `mount` with `MS_BIND`. -/
def mount (src dst : Str) : Except Errno World := do
  let top ← w.fs.resolve dst
  let p ← w.fs.resolve src
  if h : (w.fs.inode p).isSome ∧ (w.fs.inode top).isSome then
    if hkind : w.fs.isDir p = w.fs.isDir top then return w.bind p top h.1 h.2 hkind
    else throw .ENOTDIR
  else throw .ENOENT

/-- Take a mount off, and with it the newer ones below it. -/
def detach (m : Mnt) : World :=
  if h : (w.fs.inode m.top).isSome then
    { fs := w.fs.graft m.covered h
      mounts := Layers.strip Mnt.top m.top w.mounts }
  else w

/-- `umount2` with `MNT_DETACH`. -/
def umount2 (path : Str) : World :=
  match w.fs.resolve path with
  | .error _ => w
  | .ok p =>
    match w.mountAt p with
    | none => w
    | some m => w.detach m

/-! ## Files -/

/-- `stat`. -/
def stat (path : Str) : Except Errno Inode := do
  let p ← w.fs.resolve path
  match w.fs.inode p with
  | some i => return i
  | none => throw .ENOENT

/-- Where a new node goes. -/
def place (path : Str) : Except Errno (Loc × Name) := do
  match ← w.fs.resolveParent path with
  | none => throw .EEXIST
  | some (dir, c) =>
    if c = dot ∨ c = dotdot then throw .EEXIST
    else if NAME_MAX < c.length then throw .ENAMETOOLONG
    else if (w.fs.inode (dir ++ [c])).isSome then throw .EEXIST
    else return (dir, c)

/-- A node in a directory, on the device the directory is on. -/
def addNode (dir : Loc) (c : Name) (i : Inode) : World :=
  if h : w.fs.isDir dir = true ∧ IsName c ∧ (i.isLink = true → i.target ≠ []) then
    let node := { i with dev := ((w.fs.inode dir).map (·.dev)).getD 0 }
    { w with fs := w.fs.add dir c node (Tree.isDir_iff.mp h.1) h.2.1 h.2.2 }
  else w

/-- `mkdir`. -/
def mkdir (path : Str) (perm : BitVec 12) (size : ℕ) : Except Errno World := do
  let (dir, c) ← w.place path
  return w.addNode dir c { mode := ⟨.dir, perm⟩, size }

/-- `symlink`. -/
def symlink (target path : Str) : Except Errno World := do
  if target = [] then throw .ENOENT
  let (dir, c) ← w.place path
  return w.addNode dir c { mode := ⟨.lnk, 0x1ff⟩, size := target.length, target }

/-- `open` with `O_CREAT` and `O_NOFOLLOW`; with data also `O_TRUNC`, and it is written. -/
def openCreate (path : Str) (data : Option Str) (perm : BitVec 12) : Except Errno World := do
  match ← w.fs.resolveParent path with
  | none => throw .EISDIR
  | some (dir, c) =>
    if c = dot ∨ c = dotdot then throw .EISDIR
    else if NAME_MAX < c.length then throw .ENAMETOOLONG
    else
      match w.fs.inode (dir ++ [c]) with
      | none =>
        return w.addNode dir c { mode := ⟨.reg, perm⟩, size := (data.map List.length).getD 0 }
      | some i =>
        if i.isLink then throw .ELOOP
        else if i.isDir then throw .EISDIR
        else
          match data with
          | none => return w
          | some s => return { w with fs := w.fs.resize (dir ++ [c]) s.length }

/-- The node `rmdir` removes. -/
def rmdirAt (path : Str) : Except Errno Loc := do
  match ← w.fs.resolveParent path with
  | none => throw .EBUSY
  | some (dir, c) =>
    if c = dot then throw .EINVAL
    else if c = dotdot then throw .ENOTEMPTY
    else if NAME_MAX < c.length then throw .ENAMETOOLONG
    else
      match w.fs.inode (dir ++ [c]) with
      | none => throw .ENOENT
      | some i =>
        if i.isDir = false then throw .ENOTDIR
        else if (w.mountAt (dir ++ [c])).isSome then throw .EBUSY
        else if w.fs.children (dir ++ [c]) ≠ [] then throw .ENOTEMPTY
        else return dir ++ [c]

/-- The node `unlink` removes. -/
def unlinkAt (path : Str) : Except Errno Loc := do
  match ← w.fs.resolveParent path with
  | none => throw .EISDIR
  | some (dir, c) =>
    if c = dot ∨ c = dotdot then throw .EISDIR
    else if NAME_MAX < c.length then throw .ENAMETOOLONG
    else
      match w.fs.inode (dir ++ [c]) with
      | none => throw .ENOENT
      | some i =>
        if i.isDir then throw .EISDIR
        else if (w.mountAt (dir ++ [c])).isSome then throw .EBUSY
        else return dir ++ [c]

/-- The world without a node. -/
def drop (p : Loc) : World := { w with fs := w.fs.prune p }

/-- `rmdir`. -/
def rmdir (path : Str) : Except Errno World := (w.rmdirAt path).map w.drop

/-- `unlink`. -/
def unlink (path : Str) : Except Errno World := (w.unlinkAt path).map w.drop

end World

/-! ## `file_create` -/

/-- The calls in `file_create` that may fail whatever the tree says. -/
inductive CreateCall
  | dup | fsugid | ancestor (path : Str) | node
  deriving DecidableEq

/-- What decides about created files besides the tree. -/
structure Creation where
  denies : CreateCall → Bool
  umask : BitVec 12
  /-- The size of an empty directory. -/
  dirSize : ℕ

namespace World

/-- `make_ancestors`, for at most a number of calls. -/
def makeAncestors (k : Creation) (perm : BitVec 12) : ℕ → Str → World → Bool × World
  | 0, _, w => (false, w)
  | n + 1, path, w =>
    if path = [] ∨ path.head? = some '.' then (true, w)
    else
      match w.fs.resolve path with
      | .ok p => (w.fs.isDir p, w) -- ENOTDIR
      | .error e =>
        if e ≠ .ENOENT then (false, w)
        else
          let (ok, w') := match cutLast path with
            | none => (true, w)
            | some q => makeAncestors k perm n q w
          if ok = false ∨ k.denies (.ancestor path) then (false, w')
          else
            match w'.mkdir path perm k.dirSize with
            | .ok w'' => (true, w'')
            | .error _ => (false, w')

/-- The last part of `file_create`: the node itself. -/
def createNode (k : Creation) (path : Str) (data : Option Str) (mode : Mode) (w : World) :
    Bool × World :=
  let perm := 0x1ff &&& ~~~k.umask &&& mode.perm
  if k.denies .node then (false, w)
  else
    match mode.fmt with
    | .dir =>
      match w.mkdir path perm k.dirSize with
      | .ok w' => (true, w')
      | .error e => (e = .EEXIST, w)
    | .lnk =>
      match data with
      | none => (false, w) -- EINVAL
      | some target =>
        match w.symlink target path with
        | .ok w' => (true, w')
        | .error e => (e = .EEXIST, w)
    | _ =>
      match w.openCreate path data perm with
      | .ok w' => (true, w')
      | .error _ => (false, w)

/-- `file_create`.  A file that is there with the mode asked for is left alone; `stat` follows a
link at the end of the path. -/
def fileCreate (k : Creation) (path : Str) (data : Option Str) (mode : Mode) (w : World) :
    Bool × World :=
  if data = none ∧ (w.stat path).toOption.map (·.mode) = some mode then (true, w)
  else if k.denies .dup ∨ k.denies .fsugid then (false, w)
  else
    -- the umask applies to what `mkdir` is asked for once more
    let perm := (0x1ff &&& ~~~k.umask ||| 0xc0) &&& ~~~k.umask
    match w.makeAncestors k perm ((dirname path).length + 1) (dirname path) with
    | (false, w') => (false, w')
    | (true, w') => w'.createNode k path data mode

end World

/-! ## `file_remove` -/

/-- The flags `nftw` calls with. -/
inductive FtwFlag
  | F | DP | SL
  deriving DecidableEq, Repr

/-- A call `nftw` makes. -/
structure Visit where
  path : Str
  flag : FtwFlag
  size : ℕ
  deriving DecidableEq, Repr

/-- The path of an entry of a directory. -/
def entryPath (path : Str) (c : Name) : Str :=
  if path.getLast? = some '/' then path ++ c else path ++ '/' :: c

namespace Tree

/-- The length of the longest location. -/
def depth (fs : Tree) : ℕ := (fs.nodes.map fun x => x.1.length).foldr max 0

/-- What is visited from a node on, to a number of levels: the entries of a directory that are on
`dev` first (`FTW_DEPTH`, `FTW_MOUNT`), links not followed (`FTW_PHYS`). -/
def visit (fs : Tree) (dev : ℕ) : ℕ → Str → Loc → Inode → List Visit
  | 0, _, _, _ => []
  | n + 1, path, p, i =>
    if i.isDir then
      (fs.children p).flatMap (fun c =>
        match fs.inode (p ++ [c]) with
        | some j => if j.dev = dev then fs.visit dev n (entryPath path c) (p ++ [c]) j else []
        | none => [])
        ++ [⟨path, .DP, i.size⟩]
    else [⟨path, if i.isLink then .SL else .F, i.size⟩]

/-- The path `nftw` starts with: slashes at the end are dropped. -/
def ftwStart (path : Str) : Str := if dropSlashes path = [] then path.take 1 else dropSlashes path

/-- `nftw`, depth first: the calls it makes. -/
def nftw (fs : Tree) (path : Str) : List Visit :=
  match fs.resolveNoFollow (ftwStart path) with
  | .error _ => []
  | .ok p =>
    match fs.inode p with
    | none => []
    | some i => fs.visit i.dev (fs.depth + 1) (ftwStart path) p i

end Tree

namespace World

/-- `do_file_remove`: whether the walk goes on, and the world then. -/
def doFileRemove (v : Visit) (w : World) : Bool × World :=
  match v.flag with
  | .DP =>
    match w.rmdir v.path with
    | .ok w' => (true, w')
    | .error e => (e = .ENOTEMPTY, w)
  | .F =>
    if v.size = 0 then
      match w.unlink v.path with
      | .ok w' => (true, w')
      | .error _ => (false, w)
    else (true, w)
  | .SL =>
    let remove := match w.stat v.path with
      | .error e => if e = .ENOENT then some true else none
      | .ok i => some (i.size = 0 : Bool)
    match remove with
    | none => (false, w)
    | some false => (true, w)
    | some true =>
      match w.unlink v.path with
      | .ok w' => (true, w')
      | .error _ => (false, w)

/-- The walk, up to the first call that fails. -/
def removeAll : List Visit → World → World
  | [], w => w
  | v :: vs, w =>
    match w.doFileRemove v with
    | (true, w') => removeAll vs w'
    | (false, w') => w'

/-- `file_remove`. -/
def fileRemove (path : Str) (w : World) : World := w.removeAll (w.fs.nftw path)

end World

end Fs
