import XdxContainer.Path.Resolve

/-!
# Ldcache/Format — the file of the dynamic linker's cache, and its reader

    [ libc5 header ▸ entries × nlibs ▸ padding ]  libc6 header ▸ entries × nlibs ▸ strings
                                                  │
                                                  ctx->ptr, which key and value are relative to

`ldcache_open` and `ldcache_resolve` of `ldcache.c` on the bytes of the file.  A read that would
leave the file stops with `outside`, beside the failures of the functions themselves; a string is
read up to where the code stops reading it.
-/

open Paths Fs

namespace Ldcache

/-- A byte of the file. -/
abbrev Byte := BitVec 8

/-- The bytes of the file. -/
abbrev Image := List Byte

/-- Why the reader stops: a read outside of the file, or -1. -/
inductive Stop
  | outside
  | failed
  deriving DecidableEq, Repr

/-- A read, outside of the file if there is nothing to read. -/
def inFile {α : Type} : Option α → Except Stop α
  | some a => .ok a
  | none => .error .outside

/-! ## Reads -/

/-- The character of a byte. -/
def charOf (b : Byte) : Char := Char.ofNat b.toNat

/-- `strncmp` of a string with a literal, over the literal's length, is 0: bytes are read up to the
first that differs. -/
def matchBytes : Image → Str → Option Bool
  | _, [] => some true
  | [], _ :: _ => none
  | b :: bs, c :: cs => if b ≠ 0 ∧ charOf b = c then matchBytes bs cs else some false

/-- A string with its terminating NUL. -/
def cstring : Image → Option Str
  | [] => none
  | b :: bs => if b = 0 then some [] else (cstring bs).map (charOf b :: ·)

/-- Four bytes, little-endian. -/
def readU32 : Image → Option (BitVec 32)
  | a :: b :: c :: d :: _ => some (d ++ c ++ b ++ a)
  | _ => none

/-- `str_has_prefix` of the string at an offset. -/
def strHasPrefixAt (img : Image) (off : ℕ) (pre : Str) : Except Stop Bool :=
  inFile (matchBytes (img.drop off) pre)

/-- A 32-bit field at an offset. -/
def u32At (img : Image) (off : ℕ) : Except Stop (BitVec 32) := inFile (readU32 (img.drop off))

/-! ## The headers -/

/-- How a file in the old format starts. -/
def MAGIC_LIBC5 : Str := "ld.so-1.7.0".toList

/-- How the new format starts. -/
def MAGIC_LIBC6 : Str := "glibc-ld.so.cache".toList

/-- The version of the new format. -/
def MAGIC_VERSION : Str := "1.1".toList

/-- `sizeof(struct header_libc5)`; `nlibs` is its last field. -/
def sizeofHeader5 : ℕ := 16

/-- The size of an entry in the old format. -/
def sizeofEntry5 : ℕ := 12

/-- `sizeof(struct header_libc6)`. -/
def sizeofHeader6 : ℕ := 48

/-- The size of an entry in the new format. -/
def sizeofEntry6 : ℕ := 24

/-- `__alignof__(struct header_libc6)`. -/
def alignofHeader6 : ℕ := 8

/-- The next multiple of the alignment; the file is mapped at the start of a page. -/
def alignUp (ptr : ℕ) : ℕ := ptr + (alignofHeader6 - ptr % alignofHeader6) % alignofHeader6

/-- The part of `ldcache_open` behind the libc5 entries. -/
def openAt (img : Image) (ptr : ℕ) : Except Stop ℕ :=
  if img.length ≤ ptr + sizeofHeader6 then .error .failed
  else do
    if !(← strHasPrefixAt img ptr MAGIC_LIBC6) then .error .failed
    else if !(← strHasPrefixAt img (ptr + MAGIC_LIBC6.length) MAGIC_VERSION) then .error .failed
    else return ptr

/-- `ldcache_open`: where `ctx->ptr` points. -/
def ldcacheOpen (img : Image) : Except Stop ℕ :=
  if img.length ≤ sizeofHeader5 then .error .failed
  else do
    if ← strHasPrefixAt img 0 MAGIC_LIBC5 then do
      -- the old entries are skipped
      let nlibs ← u32At img 12
      openAt img (alignUp (sizeofHeader5 + nlibs.toNat * sizeofEntry5))
    else openAt img 0

/-! ## The entries -/

/-- The flag of an ELF library. -/
def LD_ELF : BitVec 32 := 1

/-- The part of the flags for the architecture. -/
def LD_ARCH_MASK : BitVec 32 := 0xff00

/-- What `ldcache_resolve` reads of an entry. -/
structure Entry where
  flags : BitVec 32
  key : BitVec 32
  value : BitVec 32
  deriving DecidableEq, Repr

/-- `h->nlibs`. -/
def nlibsAt (img : Image) (ptr : ℕ) : Except Stop (BitVec 32) := u32At img (ptr + 20)

/-- `h->libs[i]`. -/
def entryAt (img : Image) (ptr i : ℕ) : Except Stop Entry := do
  let flags ← u32At img (ptr + sizeofHeader6 + i * sizeofEntry6)
  let key ← u32At img (ptr + sizeofHeader6 + i * sizeofEntry6 + 4)
  let value ← u32At img (ptr + sizeofHeader6 + i * sizeofEntry6 + 8)
  return ⟨flags, key, value⟩

/-- An ELF library of the architecture. -/
def Entry.wanted (e : Entry) (arch : BitVec 32) : Bool :=
  e.flags &&& LD_ELF ≠ 0 && e.flags &&& LD_ARCH_MASK = arch

/-- What `ldcache_resolve` calls and is passed besides the names of the libraries. -/
structure Env where
  fs : Tree
  root : Str
  /-- The selector: -1, or whether the path is to be taken instead of the one there is. -/
  select : (orig : Option Str) → (alt : Str) → Option Bool
  /-- Whether there is memory for the path of entry `i` in slot `j`. -/
  strdup : (i j : ℕ) → Bool

/-- `path_resolve` of a string. -/
def pathResolve (fs : Tree) (root value : Str) : Option Str :=
  match Resolve.pathResolve fs [] root value with
  | (.ok (), path) => some path
  | (.error _, _) => none

/-- `path_resolve` of the string at an offset, which is read once the root is open. -/
def pathResolveAt (img : Image) (fs : Tree) (root : Str) (off : ℕ) : Except Stop Str :=
  match Resolve.openRoot fs root with
  | .error _ => .error .failed
  | .ok _ => do
    let value ← inFile (cstring (img.drop off))
    match pathResolve fs root value with
    | some path => return path
    | none => .error .failed

/-- What the selector makes of a path for slot `j`. -/
def selectPath (env : Env) (i j : ℕ) (path : Str) (paths : List (Option Str)) :
    Except Stop (List (Option Str)) :=
  match env.select paths[j]?.join path with
  | none => .error .failed
  | some false => return paths
  | some true => if env.strdup i j then return paths.set j (some path) else .error .failed

variable (img : Image) (ptr : ℕ) (env : Env)

/-- The loop over the libraries for entry `i`, from slot `j` on. -/
def slotLoop (i : ℕ) (e : Entry) :
    ℕ → List Str → List (Option Str) → Except Stop (List (Option Str))
  | _, [], paths => return paths
  | j, lib :: libs, paths => do
    if !(← strHasPrefixAt img (ptr + e.key.toNat) lib) then slotLoop i e (j + 1) libs paths
    else do
      let path ← pathResolveAt img env.fs env.root (ptr + e.value.toNat)
      if paths[j]? = some (some path) then slotLoop i e (j + 1) libs paths
      else selectPath env i j path paths

/-- A turn of the loop over the entries. -/
def entryStep (arch : BitVec 32) (libs : List Str) (i : ℕ) (paths : List (Option Str)) :
    Except Stop (List (Option Str)) := do
  let e ← entryAt img ptr i
  if e.wanted arch then slotLoop img ptr env i e 0 libs paths else return paths

/-- The loop over the entries, with `left` turns to go. -/
def entryLoop (arch : BitVec 32) (libs : List Str) :
    (left i : ℕ) → List (Option Str) → Except Stop (List (Option Str))
  | 0, _, paths => return paths
  | left + 1, i, paths => do
    let paths ← entryStep img ptr env arch libs i paths
    entryLoop arch libs left (i + 1) paths

/-- `ldcache_resolve`: what is in the slots when it returns 0. -/
def ldcacheResolve (arch : BitVec 32) (libs : List Str) : Except Stop (List (Option Str)) := do
  let nlibs ← nlibsAt img ptr
  entryLoop img ptr env arch libs nlibs.toNat 0 (List.replicate libs.length none)

end Ldcache
