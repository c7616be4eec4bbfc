import XdxContainer.Fs.Tree
import XdxContainer.Data.Except

/-!
# Path/Resolve — resolving a path below a root, and what the result means

    path, root ──`doPathResolve`: buffers, descriptor, realpath, noents──▸ string
                      │ every iteration is a step of `boundedStep`   (`loop_spec`)
                      ▼
    components ──walk──▸ stack ──▸ `reference`, and `Tree.chroot` when nothing was missing

`do_path_resolve` of `utils.c` on its own data: two character buffers used in turn for what is left
of the path, a directory descriptor (here the location it is open on), the resolved string and the
number of components at its end that do not exist.  `boundedStep` keeps one stack of components
instead of all of them; `Agrees` says how the two hang together, and one iteration preserves it.
-/

open Paths Walk Fs

namespace Resolve

/-! ## The code -/

/-- `MAXSYMLINKS`. -/
def MAXSYMLINKS : ℕ := 20

/-- Why a resolution fails. -/
inductive Failure
  | openFailed (path : Str) (e : Errno)
  | appendFailed (path : Str)
  | pathError (root path : Str) (e : Errno)
  | resolvesOutside (path root : Str)
  deriving DecidableEq

/-- The variables of `do_path_resolve`.  `ptr` points into one of the two buffers, `link` names the
other; `fd` is the location the descriptor is open on. -/
structure Vars where
  fd : Loc
  realpath : Str
  dbuf : Bool → Str
  ptr : Option (Bool × ℕ)
  link : Bool
  noents : ℕ
  nlinks : ℕ

/-- `open_next` with a path that starts with a slash: the directory itself, a link not followed. -/
def openRoot (fs : Tree) (root : Str) : Except Failure Loc :=
  match fs.resolveNoFollow root with
  | .error e => .error (.openFailed root e)
  | .ok p => if fs.isDir p then .ok p else .error (.openFailed root .ENOTDIR)

/-- `open_next` with `..`. -/
def openParent (fs : Tree) (fd : Loc) : Except Failure Loc :=
  if fs.isDir fd then .ok fd.dropLast else .error (.openFailed dotdot .ENOTDIR)

/-- `readlinkat`: the target, cut at the size of the buffer. -/
def readlinkat (fs : Tree) (fd : Loc) (file : Name) : Except Errno Str :=
  if fs.isDir fd = false then .error .ENOTDIR
  else if NAME_MAX < file.length then .error .ENAMETOOLONG
  else
    match fs.inode (fd ++ [file]) with
    | none => .error .ENOENT
    | some i => if i.isLink then .ok (i.target.take PATH_MAX) else .error .EINVAL

/-- The string a pointer into the buffers points to. -/
def deref (dbuf : Bool → Str) (p : Bool × ℕ) : Str := (dbuf p.1).drop p.2

/-- `strsep` on `/`: the first token, and the pointer behind its delimiter. -/
def strsep (dbuf : Bool → Str) (p : Bool × ℕ) : Str × Option (Bool × ℕ) :=
  let file := token (deref dbuf p)
  (file, if '/' ∈ deref dbuf p then some (p.1, p.2 + file.length + 1) else none)

/-- Write a buffer. -/
def setBuf (dbuf : Bool → Str) (b : Bool) (s : Str) : Bool → Str :=
  fun b' => if b' = b then s else dbuf b'

/-- `path_append` or its failure. -/
def append (buf path : Str) : Except Failure Str :=
  match pathAppend buf path with
  | (true, s) => .ok s
  | (false, _) => .error (.appendFailed path)

/-- Append a component to the resolved string. -/
def Vars.push (v : Vars) (file : Str) : Except Failure Vars := do
  let s ← append v.realpath file
  return { v with realpath := s }

/-- The branch of `..`. -/
def Vars.up (fs : Tree) (root path : Str) (v : Vars) : Except Failure Vars :=
  match cutLast v.realpath with
  | none => .error (.resolvesOutside path root)
  | some s =>
    if 0 < v.noents then .ok { v with realpath := s, noents := v.noents - 1 }
    else do
      let fd ← openParent fs v.fd
      return { v with realpath := s, fd := fd }

/-- An absolute target starts again at the root. -/
def Vars.restart (fs : Tree) (root target : Str) (v : Vars) : Except Failure Vars :=
  if target.head? = some '/' then do
    let fd ← openRoot fs root
    return { v with fd := fd, realpath := [] }
  else .ok v

/-- Append what is left of the path, if anything is, to the target at `link`. -/
def appendPtr (dbuf : Bool → Str) (link : Bool × ℕ) : Option (Bool × ℕ) → Except Failure Str
  | none => .ok (deref dbuf link)
  | some p => append (deref dbuf link) (deref dbuf p)

/-- The branch of a link: the rest of the path is appended to the target, in the other buffer; the
slash of an absolute target is skipped. -/
def Vars.follow (fs : Tree) (root target : Str) (v : Vars) : Except Failure Vars := do
  let off := if target.head? = some '/' then 1 else 0
  let dbuf := setBuf v.dbuf v.link target
  let v' ← v.restart fs root target
  let s ← appendPtr dbuf (v.link, off) v.ptr
  return { v' with
    dbuf := setBuf dbuf v.link ((dbuf v.link).take off ++ s)
    ptr := some (v.link, off)
    nlinks := v.nlinks + 1
    link := decide ((v.nlinks + 1) % 2 = 1) }

/-- The branch of a name that is looked up. -/
def Vars.lookup (fs : Tree) (root path file : Str) (v : Vars) : Except Failure Vars :=
  match readlinkat fs v.fd file with
  | .ok target =>
    if target.length < PATH_MAX ∧ v.nlinks < MAXSYMLINKS then v.follow fs root target
    else .error (.pathError root path
      (if PATH_MAX ≤ target.length then .ENAMETOOLONG else .ELOOP))
  | .error e =>
    -- too many links is an error even for a component that is none
    if MAXSYMLINKS ≤ v.nlinks then .error (.pathError root path .ELOOP)
    else if e = .ENOENT then { v with noents := v.noents + 1 }.push file
    else if e = .EINVAL then { v with fd := v.fd ++ [file] }.push file
    else .error (.pathError root path e)

/-- The branch of a name; below a missing component it is missing too. -/
def Vars.descend (fs : Tree) (root path file : Str) (v : Vars) : Except Failure Vars :=
  if 0 < v.noents then { v with noents := v.noents + 1 }.push file
  else v.lookup fs root path file

/-- One turn of the loop, for one token. -/
def Vars.token (fs : Tree) (root path file : Str) (v : Vars) : Except Failure Vars :=
  if file = [] ∨ file = dot then .ok v
  else if file = dotdot then v.up fs root path
  else v.descend fs root path file

/-- The loop, for at most a number of turns; `none` when they did not suffice. -/
def loop (fs : Tree) (root path : Str) : ℕ → Vars → Option (Except Failure Vars)
  | 0, _ => none
  | n + 1, v =>
    match v.ptr with
    | none => some (.ok v)
    | some p =>
      let (file, ptr) := strsep v.dbuf p
      match { v with ptr := ptr }.token fs root path file with
      | .error e => some (.error e)
      | .ok v' => loop fs root path n v'

/-- Turns that always suffice (`loop_spec`). -/
def maxTurns : ℕ := (MAXSYMLINKS + 1) * (PATH_MAX + 1) + 2

/-- `do_path_resolve`: whether it succeeds, and what is in the caller's buffer then. -/
def doPathResolve (fs : Tree) (full : Bool) (buf root path : Str) : Except Failure Unit × Str :=
  match openRoot fs root with
  | .error e => (.error e, buf)
  | .ok fd =>
    match append [] path with
    | .error e => (.error e, buf)
    | .ok rest =>
      match loop fs root path maxTurns
          { fd := fd, realpath := [], dbuf := fun b => if b then rest else [],
            ptr := some (true, 0), link := false, noents := 0, nlinks := 0 } with
      | none => (.error (.pathError root path .ELOOP), buf)
      | some (.error e) => (.error e, buf)
      | some (.ok v) =>
        match if full then pathJoin root v.realpath else pathNew v.realpath with
        | (true, s) => (.ok (), s)
        | (false, s) => (.error (.appendFailed v.realpath), s)

/-- `path_resolve`. -/
def pathResolve (fs : Tree) (buf root path : Str) : Except Failure Unit × Str :=
  doPathResolve fs false buf root path

/-- `path_resolve_full`. -/
def pathResolveFull (fs : Tree) (buf root path : Str) : Except Failure Unit × Str :=
  doPathResolve fs true buf root path

/-- How much of the path is left: its characters and the terminating NUL. -/
def Vars.left (v : Vars) : ℕ := v.ptr.elim 0 fun p => (deref v.dbuf p).length + 1

/-! ## The resolution on components -/

/-- Components resolved below the root; the last `missing` of them do not exist, and `saw` tells
whether any was ever missing. -/
structure Stack where
  comps : List Name := []
  missing : ℕ := 0
  saw : Bool := false

/-- One component more. -/
def Stack.push (s : Stack) (c : Name) : Stack := { s with comps := s.comps ++ [c] }

/-- Push a component that does not exist. -/
def Stack.pushMissing (s : Stack) (c : Name) : Stack :=
  { comps := s.comps ++ [c], missing := s.missing + 1, saw := true }

/-- One component less. -/
def Stack.pop (s : Stack) : Stack := { s with comps := s.comps.dropLast, missing := s.missing - 1 }

/-- Where a link leads: an absolute one to the root. -/
def Stack.atLink (s : Stack) (target : Str) : Stack :=
  if target.head? = some '/' then { s with comps := [] } else s

/-- **The reference resolver**, one component: skip `.`, pop on `..`, go on lexically below a
missing component, splice the target of a link in front of what is left. -/
def refStep (fs : Tree) (root : Loc) (s : Stack) (c : Name) : Move Stack Name Unit :=
  if c = [] ∨ c = dot then .next s
  else if c = dotdot then if s.comps = [] then .fail () else .next s.pop
  else if 0 < s.missing then .next (s.pushMissing c)
  else
    match fs.inode (root ++ (s.comps ++ [c])) with
    | none => .next (s.pushMissing c)
    | some i =>
      if i.isLink then .splice (s.atLink i.target) (components i.target) else .next (s.push c)

/-- The reference resolver, following at most `n` links. -/
def reference (fs : Tree) (root : Loc) (n : ℕ) (path : Str) : Except Unit Stack :=
  (walk (refStep fs root) () n (components path) {}).map (·.2)

/-- One component as the code treats it: the directory it is looked up in has to be one, and the
name must not be too long. -/
def boundedStep (fs : Tree) (root : Loc) (s : Stack) (c : Name) : Move Stack Name Unit :=
  if s.missing = 0 ∧ c ≠ dot ∧ fs.isDir (root ++ s.comps) = false then .fail ()
  else if s.missing = 0 ∧ c ≠ dotdot ∧ NAME_MAX < c.length then .fail ()
  else refStep fs root s c

/-- The variables of the loop carry the stack, what is left of the path, and the buffer that is
free. -/
structure Agrees (root : Loc) (v : Vars) (s : Stack) (rest : List Name) : Prop where
  realpath : v.realpath = render s.comps
  fd : v.fd = root ++ s.comps.take (s.comps.length - s.missing)
  noents : v.noents = s.missing
  missing : s.missing ≤ s.comps.length
  rest : rest = (v.ptr.map fun p => components (deref v.dbuf p)).getD []
  free : ∀ p, v.ptr = some p → p.1 = !v.link
  link : v.link = decide (v.nlinks % 2 = 1)
  names : ∀ c ∈ s.comps, c ≠ [] ∧ '/' ∉ c ∧ c ≠ dot ∧ c ≠ dotdot

/-! ## Buffers -/

section Buffers

variable {dbuf : Bool → Str} {p : Bool × ℕ}

theorem deref_setBuf (b : Bool) (s : Str) (k : ℕ) : deref (setBuf dbuf b s) (b, k) = s.drop k := by
  simp [deref, setBuf]

theorem deref_setBuf_of_ne {b : Bool} (hp : p.1 ≠ b) (s : Str) :
    deref (setBuf dbuf b s) p = deref dbuf p := by
  simp [deref, setBuf, hp]

/-- The token `strsep` returns has no slash, and token and rest make up the components. -/
theorem strsep_spec (dbuf : Bool → Str) (p : Bool × ℕ) :
    '/' ∉ (strsep dbuf p).1
      ∧ components (deref dbuf p) = (if (strsep dbuf p).1 = [] then [] else [(strsep dbuf p).1])
          ++ ((strsep dbuf p).2.map fun p' => components (deref dbuf p')).getD []
      ∧ ∀ p', (strsep dbuf p).2 = some p' →
          p'.1 = p.1 ∧ (deref dbuf p').length + 1 ≤ (deref dbuf p).length := by
  set d := deref dbuf p with hd
  have hfile : (strsep dbuf p).1 = token d := rfl
  refine ⟨slash_notMem_token d, ?_⟩
  by_cases hslash : '/' ∈ d
  · obtain ⟨t, ht⟩ := exists_eq_token_append hslash
    have hptr : (strsep dbuf p).2 = some (p.1, p.2 + (token d).length + 1) := if_pos hslash
    have hderef : deref dbuf (p.1, p.2 + (token d).length + 1) = t := by
      have hdrop : deref dbuf (p.1, p.2 + (token d).length + 1)
          = d.drop ((token d).length + 1) := by
        rw [hd, deref, deref, List.drop_drop, Nat.add_assoc]
      have hcut : (token d ++ '/' :: t).drop ((token d).length + 1) = t := by simp
      rw [hdrop]
      rwa [← ht] at hcut
    have hlen : d.length = (token d).length + (t.length + 1) := by
      have := congrArg List.length ht
      simpa using this
    refine ⟨?_, fun p' hp' => ?_⟩
    · have hsplit := components_append_slash (token d) t
      rw [← ht] at hsplit
      rw [hfile, hptr, Option.map_some, Option.getD_some, hderef, hsplit]
      split_ifs with he
      · rw [he, components_nil]
      · rw [components_of_not_mem (slash_notMem_token d) he]
    · rw [hptr, Option.some.injEq] at hp'
      rw [← hp', hderef]
      exact ⟨rfl, by omega⟩
  · have hptr : (strsep dbuf p).2 = none := if_neg hslash
    refine ⟨?_, fun p' hp' => ?_⟩
    · rw [hfile, hptr, token_eq_self hslash, Option.map_none, Option.getD_none, List.append_nil]
      split_ifs with he
      · rw [he, components_nil]
      · exact components_of_not_mem hslash he
    · rw [hptr] at hp'
      cases hp'

end Buffers

/-! ## One turn of the loop -/

section Turn

variable {fs : Tree} {root path file : Str} {R : Loc} {v v' : Vars} {s : Stack} {rest : List Name}

theorem append_ok {buf path t : Str} (h : append buf path = .ok t) :
    pathAppend buf path = (true, t) := by
  rw [append] at h
  split at h
  · next heq => rw [heq, Except.ok.inj h]
  · cases h

/-- Appending a component keeps everything else. -/
theorem Vars.push_ok (hreal : v.realpath = render s.comps)
    (hnames : ∀ c ∈ s.comps, c ≠ [] ∧ '/' ∉ c ∧ c ≠ dot ∧ c ≠ dotdot)
    (hfile : file ≠ [] ∧ '/' ∉ file) (h : v.push file = .ok v') :
    v' = { v with realpath := render (s.comps ++ [file]) } := by
  obtain ⟨t, ht, h⟩ := Except.bind_eq_ok h
  have hpush := append_ok ht
  rw [hreal] at hpush
  obtain rfl := pathAppend_render (fun d hd => ⟨(hnames d hd).1, (hnames d hd).2.1⟩) hfile hpush
  exact (Except.ok.inj h).symm

theorem names_append {c : Name} (hnames : ∀ d ∈ s.comps, d ≠ [] ∧ '/' ∉ d ∧ d ≠ dot ∧ d ≠ dotdot)
    (hc : c ≠ [] ∧ '/' ∉ c ∧ c ≠ dot ∧ c ≠ dotdot) :
    ∀ d ∈ s.comps ++ [c], d ≠ [] ∧ '/' ∉ d ∧ d ≠ dot ∧ d ≠ dotdot := by
  intro d hd
  rcases List.mem_append.mp hd with hd | hd
  · exact hnames d hd
  · rw [List.mem_singleton.mp hd]
    exact hc

/-- With nothing missing the descriptor is open on the resolved components. -/
theorem Agrees.fd_eq (ha : Agrees R v s rest) (hm : s.missing = 0) : v.fd = R ++ s.comps := by
  rw [ha.fd, hm, Nat.sub_zero, List.take_length]

/-- `..` pops. -/
theorem Agrees.up (ha : Agrees R v s rest) (h : v.up fs root path = .ok v') :
    boundedStep fs R s dotdot = .next s.pop ∧ Agrees R v' s.pop rest
      ∧ v'.nlinks = v.nlinks ∧ v'.ptr = v.ptr ∧ v'.dbuf = v.dbuf := by
  rw [Vars.up, ha.realpath] at h
  rcases List.eq_nil_or_concat s.comps with he | ⟨cs, c, he⟩
  · rw [he, render_nil, cutLast_nil] at h
    cases h
  rw [List.concat_eq_append] at he
  have hc := ha.names c (by simp [he])
  have hpop : s.pop.comps = cs := by simp [Stack.pop, he]
  have hlen : s.comps.length = cs.length + 1 := by simp [he]
  rw [he, cutLast_render cs hc.2.1] at h
  simp only at h
  have hstep : refStep fs R s dotdot = .next s.pop := by
    simp [refStep, dotdot, dot, he]
  have hnames : ∀ d ∈ s.pop.comps, d ≠ [] ∧ '/' ∉ d ∧ d ≠ dot ∧ d ≠ dotdot := by
    intro d hd
    rw [hpop] at hd
    exact ha.names d (by simp [he, hd])
  by_cases hm : 0 < v.noents
  · rw [if_pos hm] at h
    obtain rfl := Except.ok.inj h
    rw [ha.noents] at hm
    refine ⟨?_, ⟨?_, ?_, ?_, ?_, ha.rest, ha.free, ha.link, hnames⟩, rfl, rfl, rfl⟩
    · rw [boundedStep, if_neg (by omega), if_neg (by omega), hstep]
    · rw [hpop]
    · have hmiss := ha.missing
      have hkeep : s.comps.length - s.missing = cs.length - (s.missing - 1) := by omega
      rw [hpop]
      simp only [Stack.pop]
      rw [ha.fd, hkeep, he, List.take_append_of_le_length (by omega)]
    · simp only [ha.noents, Stack.pop]
    · have hmiss := ha.missing
      rw [hpop]
      simp only [Stack.pop]
      omega
  · rw [if_neg hm] at h
    obtain ⟨fd, hfd, h⟩ := Except.bind_eq_ok h
    obtain rfl := Except.ok.inj h
    have hm0 : s.missing = 0 := by rw [ha.noents] at hm; omega
    rw [openParent, ha.fd_eq hm0] at hfd
    split_ifs at hfd with hdir
    obtain rfl := Except.ok.inj hfd
    refine ⟨?_, ⟨?_, ?_, ?_, ?_, ha.rest, ha.free, ha.link, hnames⟩, rfl, rfl, rfl⟩
    · rw [boundedStep, if_neg (by simp [hdir]), if_neg (by simp), hstep]
    · rw [hpop]
    · rw [hpop]
      simp only [Stack.pop, hm0, Nat.zero_sub, Nat.sub_zero, List.take_length]
      rw [he, ← List.append_assoc, List.dropLast_concat]
    · simp only [ha.noents, hm0, Stack.pop]
    · simp [Stack.pop, hm0]

/-- A missing component is pushed. -/
theorem Agrees.pushMissing (ha : Agrees R v s rest)
    (hfile : file ≠ [] ∧ '/' ∉ file ∧ file ≠ dot ∧ file ≠ dotdot)
    (h : { v with noents := v.noents + 1 }.push file = .ok v') :
    Agrees R v' (s.pushMissing file) rest ∧ v'.nlinks = v.nlinks ∧ v'.ptr = v.ptr
      ∧ v'.dbuf = v.dbuf := by
  obtain rfl := Vars.push_ok (v := { v with noents := v.noents + 1 }) ha.realpath ha.names
    ⟨hfile.1, hfile.2.1⟩ h
  have hmiss := ha.missing
  refine ⟨⟨rfl, ?_, ?_, ?_, ha.rest, ha.free, ha.link, names_append ha.names hfile⟩, rfl, rfl, rfl⟩
  · simp only [Stack.pushMissing, List.length_append, List.length_singleton]
    rw [ha.fd, List.take_append_of_le_length (by omega)]
    congr 2
    omega
  · simp only [Stack.pushMissing, ha.noents]
  · simp only [Stack.pushMissing, List.length_append, List.length_singleton]
    omega

/-- An existing component that is no link is pushed, the descriptor opened on it. -/
theorem Agrees.push (ha : Agrees R v s rest) (hm : s.missing = 0)
    (hfile : file ≠ [] ∧ '/' ∉ file ∧ file ≠ dot ∧ file ≠ dotdot)
    (h : { v with fd := v.fd ++ [file] }.push file = .ok v') :
    Agrees R v' (s.push file) rest ∧ v'.nlinks = v.nlinks ∧ v'.ptr = v.ptr ∧ v'.dbuf = v.dbuf := by
  obtain rfl := Vars.push_ok (v := { v with fd := v.fd ++ [file] }) ha.realpath ha.names
    ⟨hfile.1, hfile.2.1⟩ h
  refine ⟨⟨rfl, ?_, ha.noents, ?_, ha.rest, ha.free, ha.link, names_append ha.names hfile⟩, rfl,
    rfl, rfl⟩
  · simp only [Stack.push, hm, Nat.sub_zero, List.take_length]
    rw [ha.fd_eq hm, List.append_assoc]
  · simp only [Stack.push, hm]
    exact Nat.zero_le _

theorem drop_of_head {target : Str} :
    components (target.drop (if target.head? = some '/' then 1 else 0)) = components target := by
  rcases target with _ | ⟨x, t⟩
  · rfl
  · by_cases hx : x = '/'
    · subst hx
      simp
    · simp [hx]

/-- A link: its target stands in front of the rest, in the buffer that was free. -/
theorem Agrees.follow (hroot : openRoot fs root = .ok R) (ha : Agrees R v s rest)
    (hm : s.missing = 0) {target : Str} (hne : target ≠ []) (hlt : target.length < PATH_MAX)
    (h : v.follow fs root target = .ok v') :
    Agrees R v' (s.atLink target) (components target ++ rest) ∧ v'.nlinks = v.nlinks + 1
      ∧ v'.left ≤ PATH_MAX := by
  obtain ⟨v₁, hrestart, h⟩ := Except.bind_eq_ok h
  obtain ⟨t, ht, h⟩ := Except.bind_eq_ok h
  obtain rfl := Except.ok.inj h
  set off := if target.head? = some '/' then 1 else 0 with hoff
  -- restarting at the root leaves the buffers alone
  have hv₁ : v₁.realpath = render (s.atLink target).comps
      ∧ v₁.fd = R ++ (s.atLink target).comps ∧ v₁.noents = 0 := by
    rw [Vars.restart] at hrestart
    split_ifs at hrestart with habs
    · rw [hroot] at hrestart
      obtain rfl := Except.ok.inj hrestart
      simp [Stack.atLink, habs, ha.noents, hm]
    · obtain rfl := Except.ok.inj hrestart
      simp [Stack.atLink, habs, ha.realpath, ha.fd_eq hm, ha.noents, hm]
  have hmiss : (s.atLink target).missing = 0 := by
    rw [Stack.atLink]
    split_ifs <;> exact hm
  have hlen : (target.take off).length = off := by
    rw [List.length_take, hoff]
    obtain ⟨x, l, rfl⟩ := List.exists_cons_of_ne_nil hne
    split_ifs <;> simp
  have hbuf : (setBuf v.dbuf v.link target v.link).take off = target.take off := by
    simp [setBuf]
  -- the string now pointed to
  have hderef : deref (setBuf (setBuf v.dbuf v.link target) v.link
      ((setBuf v.dbuf v.link target v.link).take off ++ t)) (v.link, off) = t := by
    rw [deref_setBuf, hbuf, List.drop_append_of_le_length (by omega), List.drop_eq_nil_of_le
      (by omega), List.nil_append]
  have ht' : components t = components target ++ rest ∧ t.length < PATH_MAX := by
    have hdrop : (target.drop off).length < PATH_MAX := by
      rw [List.length_drop]
      omega
    rcases hp : v.ptr with _ | p
    · rw [hp, appendPtr, deref_setBuf] at ht
      have hrest : rest = [] := by rw [ha.rest, hp]; rfl
      rw [← Except.ok.inj ht, drop_of_head, hrest, List.append_nil]
      exact ⟨rfl, hdrop⟩
    · rw [hp, appendPtr, deref_setBuf] at ht
      have hfree : p.1 ≠ v.link := by
        rw [ha.free p hp]
        simp
      obtain ⟨hcomp, hlong, -⟩ := pathAppend_ok (append_ok ht)
      rw [deref_setBuf_of_ne hfree, drop_of_head] at hcomp
      refine ⟨?_, hlong hdrop⟩
      rw [hcomp, ha.rest, hp]
      rfl
  refine ⟨⟨hv₁.1, ?_, ?_, ?_, ?_, ?_, rfl, ?_⟩, rfl, ?_⟩
  · rw [hmiss, Nat.sub_zero, List.take_length]
    exact hv₁.2.1
  · rw [hmiss]
    exact hv₁.2.2
  · rw [hmiss]
    exact Nat.zero_le _
  · simp only [Option.map_some, Option.getD_some, hderef, ht'.1]
  · intro p hp
    obtain rfl := Option.some.inj hp
    have hparity : decide ((v.nlinks + 1) % 2 = 1) = !decide (v.nlinks % 2 = 1) := by
      by_cases hodd : v.nlinks % 2 = 1
      · simp [hodd]
        omega
      · simp [hodd]
        omega
    simp only [hparity, ← ha.link, Bool.not_not]
  · intro c hc
    rw [Stack.atLink] at hc
    split_ifs at hc
    · simp at hc
    · exact ha.names c hc
  · rw [Vars.left, Option.elim_some, hderef]
    exact ht'.2

theorem readlinkat_noent {fd : Loc} (h : readlinkat fs fd file = .error .ENOENT) :
    fs.isDir fd = true ∧ ¬NAME_MAX < file.length ∧ fs.inode (fd ++ [file]) = none := by
  rw [readlinkat] at h
  split_ifs at h with hdir hlong
  · cases h
  · cases h
  refine ⟨by simpa using hdir, hlong, ?_⟩
  split at h
  · assumption
  · split_ifs at h
    cases h

theorem readlinkat_inval {fd : Loc} (h : readlinkat fs fd file = .error .EINVAL) :
    fs.isDir fd = true ∧ ¬NAME_MAX < file.length
      ∧ ∃ i, fs.inode (fd ++ [file]) = some i ∧ i.isLink = false := by
  rw [readlinkat] at h
  split_ifs at h with hdir hlong
  · cases h
  · cases h
  refine ⟨by simpa using hdir, hlong, ?_⟩
  split at h
  · cases h
  · next i hi =>
    split_ifs at h with hlink
    exact ⟨i, hi, by simpa using hlink⟩

theorem readlinkat_ok {fd : Loc} {target : Str} (h : readlinkat fs fd file = .ok target) :
    fs.isDir fd = true ∧ ¬NAME_MAX < file.length
      ∧ ∃ i, fs.inode (fd ++ [file]) = some i ∧ i.isLink = true
        ∧ target = i.target.take PATH_MAX := by
  rw [readlinkat] at h
  split_ifs at h with hdir hlong
  refine ⟨by simpa using hdir, hlong, ?_⟩
  split at h
  · cases h
  · next i hi =>
    split_ifs at h with hlink
    exact ⟨i, hi, hlink, (Except.ok.inj h).symm⟩

/-- A name looked up in a directory. -/
theorem boundedStep_name (hm : s.missing = 0) (hskip : ¬(file = [] ∨ file = dot))
    (hup : file ≠ dotdot) (hdir : fs.isDir (R ++ s.comps) = true)
    (hlong : ¬NAME_MAX < file.length) :
    boundedStep fs R s file = match fs.inode (R ++ (s.comps ++ [file])) with
      | none => .next (s.pushMissing file)
      | some i =>
        if i.isLink then .splice (s.atLink i.target) (components i.target)
        else .next (s.push file) := by
  rw [boundedStep, if_neg (by simp [hdir]), if_neg fun h => hlong h.2.2, refStep, if_neg hskip,
    if_neg hup, if_neg (by omega)]

/-- With nothing missing the component is looked up at the descriptor. -/
theorem Agrees.lookup (hroot : openRoot fs root = .ok R) (ha : Agrees R v s rest)
    (hm : s.missing = 0) (hfile : file ≠ [] ∧ '/' ∉ file ∧ file ≠ dot ∧ file ≠ dotdot)
    (h : v.lookup fs root path file = .ok v') :
    (∃ s', boundedStep fs R s file = .next s' ∧ Agrees R v' s' rest
        ∧ v'.nlinks = v.nlinks ∧ v'.left = v.left)
      ∨ ∃ s' t, boundedStep fs R s file = .splice s' t ∧ Agrees R v' s' (t ++ rest)
          ∧ v.nlinks < MAXSYMLINKS ∧ v'.nlinks = v.nlinks + 1 ∧ v'.left ≤ PATH_MAX := by
  have hskip : ¬(file = [] ∨ file = dot) := not_or.mpr ⟨hfile.1, hfile.2.2.1⟩
  have hstep (hdir : fs.isDir (R ++ s.comps) = true) (hlong : ¬NAME_MAX < file.length) :=
    boundedStep_name hm hskip hfile.2.2.2 hdir hlong
  have hfd : v.fd ++ [file] = R ++ (s.comps ++ [file]) := by rw [ha.fd_eq hm, List.append_assoc]
  rw [← ha.fd_eq hm, ← hfd] at hstep
  rw [Vars.lookup] at h
  split at h
  · next target hread =>
    obtain ⟨hdir, hlong, i, hi, hlink, htake⟩ := readlinkat_ok hread
    split_ifs at h with hbound
    -- a target shorter than the buffer is the whole target
    have htarget : target = i.target := by
      rw [htake, List.length_take] at hbound
      rw [htake, List.take_of_length_le (by omega)]
    have hne : target ≠ [] := htarget ▸ fs.target _ i hi hlink
    obtain ⟨hv', hn, hleft⟩ := ha.follow hroot hm hne hbound.1 h
    refine .inr ⟨s.atLink target, components target, ?_, hv', hbound.2, hn, hleft⟩
    rw [hstep hdir hlong, hi, htarget]
    exact if_pos hlink
  · next e hread =>
    split_ifs at h with hloop hnoent hinval
    · obtain ⟨hdir, hlong, hi⟩ := readlinkat_noent (hnoent ▸ hread)
      obtain ⟨hv', hn, hp, hb⟩ := ha.pushMissing hfile h
      refine .inl ⟨s.pushMissing file, ?_, hv', hn, by rw [Vars.left, Vars.left, hp, hb]⟩
      rw [hstep hdir hlong, hi]
    · obtain ⟨hdir, hlong, i, hi, hlink⟩ := readlinkat_inval (hinval ▸ hread)
      obtain ⟨hv', hn, hp, hb⟩ := ha.push hm hfile h
      refine .inl ⟨s.push file, ?_, hv', hn, by rw [Vars.left, Vars.left, hp, hb]⟩
      rw [hstep hdir hlong, hi]
      exact if_neg (by simp [hlink])

/-- **One turn of the loop is a step on the stack**, or the token is empty. -/
theorem Agrees.token (hroot : openRoot fs root = .ok R) (ha : Agrees R v s rest)
    (hslash : '/' ∉ file) (h : v.token fs root path file = .ok v') :
    (file = [] ∧ v' = v)
      ∨ (file ≠ [] ∧ ∃ s', boundedStep fs R s file = .next s' ∧ Agrees R v' s' rest
          ∧ v'.nlinks = v.nlinks ∧ v'.left = v.left)
      ∨ (file ≠ [] ∧ ∃ s' t, boundedStep fs R s file = .splice s' t ∧ Agrees R v' s' (t ++ rest)
          ∧ v.nlinks < MAXSYMLINKS ∧ v'.nlinks = v.nlinks + 1 ∧ v'.left ≤ PATH_MAX) := by
  rw [Vars.token] at h
  split_ifs at h with hskip hup
  · obtain rfl := Except.ok.inj h
    by_cases he : file = []
    · exact .inl ⟨he, rfl⟩
    · refine .inr (.inl ⟨he, s, ?_, ha, rfl, rfl⟩)
      obtain rfl := hskip.resolve_left he
      rw [boundedStep, if_neg (by simp), if_neg (by simp [dot, NAME_MAX]), refStep, if_pos hskip]
  · subst hup
    obtain ⟨hstep, hv', hn, hp, hb⟩ := ha.up h
    exact .inr (.inl ⟨by decide, s.pop, hstep, hv', hn, by rw [Vars.left, Vars.left, hp, hb]⟩)
  · obtain ⟨hne, hdot⟩ := not_or.mp hskip
    have hfile : file ≠ [] ∧ '/' ∉ file ∧ file ≠ dot ∧ file ≠ dotdot := ⟨hne, hslash, hdot, hup⟩
    rw [Vars.descend, ha.noents] at h
    by_cases hm : 0 < s.missing
    · rw [if_pos hm, ← ha.noents] at h
      obtain ⟨hv', hn, hp, hb⟩ := ha.pushMissing hfile h
      refine .inr
        (.inl ⟨hne, s.pushMissing file, ?_, hv', hn, by rw [Vars.left, Vars.left, hp, hb]⟩)
      rw [boundedStep, if_neg (by omega), if_neg (by omega), refStep, if_neg hskip, if_neg hup,
        if_pos hm]
    rw [if_neg hm] at h
    exact (ha.lookup hroot (by omega) hfile h).imp (fun h => ⟨hne, h⟩) (fun h => ⟨hne, h⟩) |> .inr

end Turn

/-! ## The loop -/

/-- The variables the loop starts with. -/
def Vars.start (fd : Loc) (rest : Str) : Vars where
  fd := fd
  realpath := []
  dbuf := fun b => if b then rest else []
  ptr := some (true, 0)
  link := false
  noents := 0
  nlinks := 0

/-- The variables once `strsep` has moved the pointer. -/
def Vars.advance (v : Vars) (p : Bool × ℕ) : Vars := { v with ptr := (strsep v.dbuf p).2 }

/-- The component `strsep` has cut off. -/
def Vars.file (v : Vars) (p : Bool × ℕ) : Str := (strsep v.dbuf p).1

/-- One turn of the loop. -/
def Vars.turn (fs : Tree) (root path : Str) (v : Vars) (p : Bool × ℕ) : Except Failure Vars :=
  (v.advance p).token fs root path (v.file p)

section Loop

variable {fs : Tree} {root path : Str} {R : Loc} {v v' : Vars} {p : Bool × ℕ} {s : Stack}
  {rest : List Name}

/-- The component is taken off what is left. -/
theorem Agrees.advance (ha : Agrees R v s rest) (hp : v.ptr = some p) :
    '/' ∉ v.file p ∧ ∃ rest', rest = (if v.file p = [] then [] else [v.file p]) ++ rest'
      ∧ Agrees R (v.advance p) s rest' := by
  obtain ⟨hslash, hcomps, hnext⟩ := strsep_spec v.dbuf p
  refine ⟨hslash, ((strsep v.dbuf p).2.map fun p' => components (deref v.dbuf p')).getD [], ?_,
    ⟨ha.realpath, ha.fd, ha.noents, ha.missing, rfl, fun p' hp' => ?_, ha.link, ha.names⟩⟩
  · rw [ha.rest, hp]
    exact hcomps
  · exact (hnext p' hp').1 ▸ ha.free p hp

/-- Taking a component off leaves less. -/
theorem Vars.left_advance (hp : v.ptr = some p) : (v.advance p).left + 1 ≤ v.left := by
  rw [Vars.left, Vars.left, hp, Option.elim_some, Vars.advance]
  rcases hp' : (strsep v.dbuf p).2 with _ | p'
  · simp
  · have := ((strsep_spec v.dbuf p).2.2 p' hp').2
    simp only [Option.elim_some]
    omega

theorem loop_succ (hp : v.ptr = some p) (n : ℕ) : loop fs root path (n + 1) v
    = match v.turn fs root path p with
      | .error e => some (.error e)
      | .ok v' => loop fs root path n v' := by
  rw [loop, hp]
  rfl

/-- Turns that are enough from here on. -/
def Vars.turns (v : Vars) : ℕ := (MAXSYMLINKS - v.nlinks) * (PATH_MAX + 1) + v.left

/-- **The loop ends**, and when it ends well it has walked over what was left of the path. -/
theorem loop_spec (hroot : openRoot fs root = .ok R) (n : ℕ) (ha : Agrees R v s rest)
    (hn : v.turns < n) :
    ∃ r, loop fs root path n v = some r ∧ ∀ v', r = .ok v' →
      ∃ m s', walk (boundedStep fs R) () (MAXSYMLINKS - v.nlinks) rest s = .ok (m, s')
        ∧ Agrees R v' s' [] := by
  induction n generalizing v s rest with
  | zero => omega
  | succ n ih =>
    rcases hptr : v.ptr with _ | p
    · have hrest : rest = [] := by rw [ha.rest, hptr]; rfl
      subst hrest
      refine ⟨.ok v, by simp only [loop, hptr], ?_⟩
      rintro v' ⟨⟩
      exact ⟨_, s, walk_nil _ s, ha⟩
    -- the token taken off, the rest of the path shrinks
    obtain ⟨hslash, rest₁, hrest, ha₁⟩ := ha.advance hptr
    have hleft := Vars.left_advance hptr
    rw [loop_succ hptr]
    rcases htok : v.turn fs root path p with e | v₂
    · exact ⟨.error e, rfl, by rintro v' ⟨⟩⟩
    have hlinks : (v.advance p).nlinks = v.nlinks := rfl
    rw [Vars.turns] at hn
    obtain ⟨hnil, rfl⟩ | ⟨hne, s', hstep, ha₂, hn₂, hl₂⟩ |
        ⟨hne, s', t, hstep, ha₂, hmax, hn₂, hl₂⟩ :=
      ha₁.token hroot hslash htok
    · obtain ⟨r, hr, hok⟩ := ih ha₁ (by rw [Vars.turns, hlinks]; omega)
      refine ⟨r, hr, ?_⟩
      rw [hrest, if_pos hnil, List.nil_append]
      exact hok
    · obtain ⟨r, hr, hok⟩ := ih ha₂ (by rw [Vars.turns, hn₂, hlinks]; omega)
      refine ⟨r, hr, fun v' hv' => ?_⟩
      obtain ⟨m, s'', hwalk, hend⟩ := hok v' hv'
      rw [hn₂, hlinks] at hwalk
      refine ⟨m, s'', ?_, hend⟩
      rw [hrest, if_neg hne, List.singleton_append, walk_next hstep, hwalk]
    · obtain ⟨k, hk⟩ : ∃ k, MAXSYMLINKS - v.nlinks = k + 1 :=
        ⟨MAXSYMLINKS - v.nlinks - 1, by omega⟩
      have hk' : MAXSYMLINKS - v₂.nlinks = k := by omega
      have hturns : v₂.turns < n := by
        rw [Vars.turns, hk']
        rw [hk, Nat.add_mul] at hn
        omega
      obtain ⟨r, hr, hok⟩ := ih ha₂ hturns
      refine ⟨r, hr, fun v' hv' => ?_⟩
      obtain ⟨m, s'', hwalk, hend⟩ := hok v' hv'
      rw [hk'] at hwalk
      refine ⟨m, s'', ?_, hend⟩
      rw [hrest, if_neg hne, List.singleton_append, hk, walk_splice hstep, hwalk]

theorem agrees_start {rest : Str} (hrest : append [] path = .ok rest) :
    Agrees R (.start R rest) {} (components path) := by
  refine ⟨rfl, by simp [Vars.start], rfl, Nat.le_refl _, ?_, by rintro p ⟨⟩; rfl, rfl, by simp⟩
  rw [Vars.start, Option.map_some, Option.getD_some]
  exact (pathAppend_ok (append_ok hrest)).1.symm

/-- **The loop ends from the start on.** -/
theorem loop_of_start {rest : Str} (hroot : openRoot fs root = .ok R)
    (hrest : append [] path = .ok rest) :
    ∃ r, loop fs root path maxTurns (.start R rest) = some r ∧ ∀ v', r = .ok v' →
      ∃ m s', walk (boundedStep fs R) () MAXSYMLINKS (components path) {} = .ok (m, s')
        ∧ Agrees R v' s' [] := by
  have hturns : (Vars.start R rest).turns < maxTurns := by
    have hshort : rest.length < PATH_MAX := (pathAppend_ok (append_ok hrest)).2.1 (by decide)
    have hleft : (Vars.start R rest).left = rest.length + 1 := rfl
    have hlinks : (Vars.start R rest).nlinks = 0 := rfl
    rw [Vars.turns, hleft, hlinks, maxTurns]
    simp only [MAXSYMLINKS, PATH_MAX] at hshort ⊢
    omega
  exact loop_spec hroot maxTurns (agrees_start hrest) hturns

end Loop

/-! ## What a walk over the components leaves -/

section Stack

variable {fs : Tree} {R : Loc} {s s' : Stack} {c : Name} {t : List Name} {n m : ℕ} {l : List Name}

/-- Nothing on the stack is a symbolic link, and the last `missing` components do not exist. -/
structure Stack.Resolved (fs : Tree) (R : Loc) (s : Stack) : Prop where
  linkFree : ∀ p, p ≠ [] → p <+: s.comps → ∀ i, fs.inode (R ++ p) = some i → i.isLink = false
  absent : ∀ p, p <+: s.comps → s.comps.length < p.length + s.missing → fs.inode (R ++ p) = none
  saw : 0 < s.missing → s.saw = true

/-- **What a step of the code's resolution that goes on has done.** -/
theorem boundedStep_next (h : boundedStep fs R s c = .next s') :
    (c = [] ∨ c = dot) ∧ s' = s
      ∨ c = dotdot ∧ s' = s.pop ∧ s.comps ≠ [] ∧ (s.missing = 0 → fs.isDir (R ++ s.comps) = true)
      ∨ (c ≠ [] ∧ c ≠ dot ∧ c ≠ dotdot)
        ∧ (s.missing = 0 → fs.isDir (R ++ s.comps) = true ∧ ¬NAME_MAX < c.length)
        ∧ (s' = s.pushMissing c ∧ (s.missing = 0 → fs.inode (R ++ (s.comps ++ [c])) = none)
          ∨ s.missing = 0 ∧ s' = s.push c
            ∧ ∃ i, fs.inode (R ++ (s.comps ++ [c])) = some i ∧ i.isLink = false) := by
  rw [boundedStep] at h
  split_ifs at h with hnodir hlong
  have hdir : s.missing = 0 → c ≠ dot → fs.isDir (R ++ s.comps) = true := by
    intro hm hdot
    by_contra hdir
    exact hnodir ⟨hm, hdot, eq_false_of_ne_true hdir⟩
  rw [refStep] at h
  split_ifs at h with hskip hup hempty hmiss
  · exact .inl ⟨hskip, (Move.next.inj h).symm⟩
  · exact .inr (.inl ⟨hup, (Move.next.inj h).symm, hempty, fun hm => hdir hm fun he =>
      hskip (.inr he)⟩)
  · obtain ⟨hne, hdot⟩ := not_or.mp hskip
    exact .inr (.inr ⟨⟨hne, hdot, hup⟩, by omega, .inl ⟨(Move.next.inj h).symm, by omega⟩⟩)
  · obtain ⟨hne, hdot⟩ := not_or.mp hskip
    refine .inr
      (.inr ⟨⟨hne, hdot, hup⟩, fun hm => ⟨hdir hm hdot, fun hl => hlong ⟨hm, hup, hl⟩⟩, ?_⟩)
    split at h
    · next hi => exact .inl ⟨(Move.next.inj h).symm, fun _ => hi⟩
    · next i hi =>
      split_ifs at h with hlink
      exact .inr ⟨by omega, (Move.next.inj h).symm, i, hi, by simpa using hlink⟩

/-- **What a step of the code's resolution that meets a link has done.** -/
theorem boundedStep_splice (h : boundedStep fs R s c = .splice s' t) :
    s.missing = 0 ∧ (c ≠ dot ∧ c ≠ dotdot ∧ ¬NAME_MAX < c.length) ∧ fs.isDir (R ++ s.comps) = true
      ∧ ∃ i, fs.inode (R ++ (s.comps ++ [c])) = some i ∧ i.isLink = true
        ∧ s' = s.atLink i.target ∧ t = components i.target := by
  rw [boundedStep] at h
  split_ifs at h with hnodir hlong
  rw [refStep] at h
  split_ifs at h with hskip hup hempty hmiss
  obtain ⟨hne, hdot⟩ := not_or.mp hskip
  have hm : s.missing = 0 := by omega
  refine ⟨hm, ⟨hdot, hup, fun hl => hlong ⟨hm, hup, hl⟩⟩, ?_, ?_⟩
  · by_contra hdir
    exact hnodir ⟨hm, hdot, eq_false_of_ne_true hdir⟩
  · split at h
    · cases h
    · next i hi =>
      split_ifs at h with hlink
      obtain ⟨hs, ht⟩ := Move.splice.inj h
      exact ⟨i, hi, hlink, hs.symm, ht.symm⟩

/-- The code's resolution is the reference's wherever it succeeds. -/
theorem reference_of_bounded {path : Str} {k : ℕ} (hk : n ≤ k)
    (h : walk (boundedStep fs R) () n (components path) {} = .ok (m, s)) :
    reference fs R k path = .ok s := by
  obtain ⟨j, rfl⟩ := Nat.exists_eq_add_of_le hk
  have hsame : ∀ {a : Stack} {c : Name}, (∀ e, boundedStep fs R a c ≠ .fail e) →
      refStep fs R a c = boundedStep fs R a c := by
    intro a c hfail
    rw [boundedStep]
    split_ifs with hnodir hlong
    · exact absurd (by rw [boundedStep, if_pos hnodir]) (hfail ())
    · exact absurd (by rw [boundedStep, if_neg hnodir, if_pos hlong]) (hfail ())
    · rfl
  obtain ⟨u, hu, rfl⟩ :
      ∃ u, walk (refStep fs R) () n (components path) {} = .ok (m, u) ∧ s = u := by
    refine walk_sim (R := Eq) ?_ ?_ h rfl
    · rintro a _ c a' rfl hstep
      exact ⟨a', by rw [hsame (by simp [hstep]), hstep], rfl⟩
    · rintro a _ c a' t rfl hstep
      exact ⟨a', by rw [hsame (by simp [hstep]), hstep], rfl⟩
  rw [reference, walk_add hu j]
  rfl

/-- A step keeps the stack resolved. -/
theorem Stack.Resolved.next (hs : s.Resolved fs R) (h : boundedStep fs R s c = .next s') :
    s'.Resolved fs R := by
  obtain ⟨-, rfl⟩ | ⟨-, rfl, hne, -⟩ | ⟨-, -, ⟨rfl, hi⟩ | ⟨hm, rfl, i, hi, hlink⟩⟩ :=
    boundedStep_next h
  · exact hs
  · refine ⟨fun p hp hpre => hs.linkFree p hp (hpre.trans (List.dropLast_prefix _)),
      fun p hpre hlt => hs.absent p (hpre.trans (List.dropLast_prefix _)) ?_,
      fun hm => hs.saw (by simp only [Stack.pop] at hm; omega)⟩
    have hle := hpre.length_le
    have hpos := List.length_pos_iff.mpr hne
    simp only [Stack.pop, List.length_dropLast] at hle hlt
    omega
  · -- the new component does not exist: it was looked up, or its parent does not
    have hnone : fs.inode (R ++ (s.comps ++ [c])) = none := by
      by_cases hm : s.missing = 0
      · exact hi hm
      · have hparent := hs.absent s.comps (List.prefix_refl _) (by omega)
        by_contra hsome
        obtain ⟨i, hi⟩ := Option.ne_none_iff_exists'.mp hsome
        rw [← List.append_assoc] at hi
        obtain ⟨j, hj, -⟩ := Tree.isDir_of_inode hi
        rw [hparent] at hj
        cases hj
    refine ⟨fun p hp hpre i hi => ?_, fun p hpre hlt => ?_, fun _ => rfl⟩
    · rcases List.prefix_concat_iff.mp hpre with rfl | hpre
      · rw [hnone] at hi
        cases hi
      · exact hs.linkFree p hp hpre i hi
    · rcases List.prefix_concat_iff.mp hpre with rfl | hpre
      · exact hnone
      · refine hs.absent p hpre ?_
        simp only [Stack.pushMissing, List.length_append, List.length_singleton] at hlt
        omega
  · refine ⟨fun p hp hpre j hj => ?_, fun p hpre hlt => ?_, fun hm' => ?_⟩
    · rcases List.prefix_concat_iff.mp hpre with rfl | hpre
      · rw [hi, Option.some.injEq] at hj
        exact hj ▸ hlink
      · exact hs.linkFree p hp hpre j hj
    · have hle := hpre.length_le
      simp only [Stack.push, hm] at hlt hle
      omega
    · simp only [Stack.push] at hm'
      omega

theorem Stack.Resolved.splice (hs : s.Resolved fs R) (h : boundedStep fs R s c = .splice s' t) :
    s'.Resolved fs R := by
  obtain ⟨hm, -, -, i, -, -, rfl, -⟩ := boundedStep_splice h
  rw [Stack.atLink]
  split_ifs
  · refine ⟨fun p hp hpre => absurd (List.prefix_nil.mp hpre) hp, fun p _ hlt => ?_, hs.saw⟩
    simp only [List.length_nil, hm] at hlt
    have : p = [] := List.prefix_nil.mp ‹_›
    simp [this] at hlt
  · exact hs

/-- What was missing once is remembered. -/
theorem boundedStep_saw (hs : s.saw = true) :
    (∀ s', boundedStep fs R s c = .next s' → s'.saw = true)
      ∧ ∀ s' t, boundedStep fs R s c = .splice s' t → s'.saw = true := by
  refine ⟨fun s' h => ?_, fun s' t h => ?_⟩
  · obtain ⟨-, rfl⟩ | ⟨-, rfl, -⟩ | ⟨-, -, ⟨rfl, -⟩ | ⟨-, rfl, -⟩⟩ := boundedStep_next h
    exacts [hs, hs, rfl, hs]
  · obtain ⟨-, -, -, i, -, -, rfl, -⟩ := boundedStep_splice h
    rw [Stack.atLink]
    split_ifs <;> exact hs

theorem walk_saw (h : walk (boundedStep fs R) () n l s = .ok (m, s')) (hs : s.saw = true) :
    s'.saw = true :=
  walk_invariant (fun hI h => (boundedStep_saw hI).1 _ h) (fun hI h => (boundedStep_saw hI).2 _ _ h)
    h hs

/-- **With nothing missing the walk is the one of `chroot`**, which fails where a component is. -/
theorem walk_chrootLax (h : walk (boundedStep fs R) () n l s = .ok (m, s')) (hl : ∀ c ∈ l, c ≠ [])
    (hm : s.missing = 0) (hsaw : s.saw = false) :
    walk (fs.walkStep nameComponents R) .ELOOP n (l.filter (· ≠ dot)) (R ++ s.comps)
      = if s'.saw then .error .ENOENT else .ok (m, R ++ s'.comps) := by
  refine walk_induction (P := fun n l s m s' => (∀ c ∈ l, c ≠ []) → s.missing = 0 → s.saw = false →
    walk (fs.walkStep nameComponents R) .ELOOP n (l.filter (· ≠ dot)) (R ++ s.comps)
      = if s'.saw then .error .ENOENT else .ok (m, R ++ s'.comps)) ?_ ?_ ?_ h hl hm hsaw
  · intro n s _ _ hsaw
    rw [hsaw]
    exact walk_nil n _
  · intro n l s c s' m s'' hstep hwalk ih hl hm hsaw
    have hl' : ∀ d ∈ l, d ≠ [] := fun d hd => hl d (List.mem_cons_of_mem c hd)
    obtain ⟨hskip, rfl⟩ | ⟨rfl, rfl, hne, hdir⟩ | ⟨⟨hne, hdot, hup⟩, hlook, hcase⟩ :=
      boundedStep_next hstep
    · obtain rfl := hskip.resolve_left (hl c List.mem_cons_self)
      rw [List.filter_cons_of_neg (by simp), ih hl' hm hsaw]
    · have hmove :
          fs.walkStep nameComponents R (R ++ s.comps) dotdot = .next (R ++ s.pop.comps) := by
        rw [Tree.walkStep, if_neg (by simp [hdir hm]), if_neg (by decide), if_pos rfl,
          if_neg (by simpa using hne), List.dropLast_append_of_ne_nil hne]
        rfl
      rw [List.filter_cons_of_pos (by decide), walk_next hmove]
      exact ih hl' (by simp [Stack.pop, hm]) hsaw
    · obtain ⟨hdir, hlong⟩ := hlook hm
      have hname : fs.walkStep nameComponents R (R ++ s.comps) c = _ :=
        Tree.walkStep_name hdir hdot hup hlong
      rw [List.append_assoc] at hname
      rw [List.filter_cons_of_pos (by simpa using hdot)]
      rcases hcase with ⟨rfl, hnone⟩ | ⟨-, rfl, i, hi, hlink⟩
      · rw [hnone hm] at hname
        rw [walk_fail hname, if_pos (walk_saw hwalk rfl)]
      · rw [hi] at hname
        rw [walk_next (hname.trans (if_neg (by simp [hlink])))]
        exact ih hl' hm hsaw
  · intro n l s c s' t m s'' hstep hwalk ih hl hm hsaw
    obtain ⟨-, ⟨hdot, hup, hlong⟩, hdir, i, hi, hlink, rfl, rfl⟩ := boundedStep_splice hstep
    have hname : fs.walkStep nameComponents R (R ++ s.comps) c = _ :=
      Tree.walkStep_name hdir hdot hup hlong
    rw [List.append_assoc, hi] at hname
    have hcur : (if i.target.head? = some '/' then R else R ++ s.comps)
        = R ++ (s.atLink i.target).comps := by
      rw [Stack.atLink]
      split_ifs <;> simp
    have hcomps : ∀ d ∈ components i.target ++ l, d ≠ [] := by
      intro d hd
      rcases List.mem_append.mp hd with hd | hd
      · exact (mem_components hd).1
      · exact hl d (List.mem_cons_of_mem c hd)
    have hat : (s.atLink i.target).missing = 0 ∧ (s.atLink i.target).saw = false := by
      rw [Stack.atLink]
      split_ifs <;> exact ⟨hm, hsaw⟩
    have hrest := ih hcomps hat.1 hat.2
    rw [List.filter_append] at hrest
    rw [List.filter_cons_of_pos (by simpa using hdot),
      walk_splice (hname.trans (if_pos hlink)), hcur]
    exact hrest

end Stack

/-! ## The resolver -/

section Result

variable {fs : Tree} {full : Bool} {buf root path t : Str}

/-- The string of a root and of components resolved below it. -/
def resultText (full : Bool) (root : Str) (comps : List Name) : Str :=
  if full then root ++ (if root.getLast? = some '/' then (render comps).tail else render comps)
  else render comps

theorem pathJoin_render {comps : List Name} (habs : root.head? = some '/')
    (h : (if full then pathJoin root (render comps) else pathNew (render comps)) = (true, t)) :
    t = resultText full root comps := by
  have hhead : render comps = [] ∨ (render comps).head? = some '/' := by
    rcases comps with _ | ⟨c, cs⟩
    · exact .inl rfl
    · exact .inr (by simp [render])
  have hroot : root ≠ [] := by
    rintro rfl
    simp at habs
  rcases full
  · obtain ⟨-, -, rfl⟩ := pathAppend_ok h
    rcases hhead with hnil | hhead
    · simp [resultText, hnil]
    · simp [resultText, joinText, hhead]
  · rw [if_pos rfl, pathJoin] at h
    split at h
    · next buf hnew =>
      obtain ⟨-, -, rfl⟩ := pathAppend_ok hnew
      obtain ⟨-, -, rfl⟩ := pathAppend_ok h
      rcases hhead with hnil | hhead
      · simp [resultText, hnil, joinText, habs, hroot]
      · by_cases hlast : root.getLast? = some '/'
        · simp [resultText, joinText, hhead, habs, hroot, hlast]
          intro hnil
          simp [hnil]
        · simp [resultText, joinText, hhead, habs, hroot, hlast]
    · cases h

/-- The walk behind a successful resolution. -/
theorem doPathResolve_walk (h : doPathResolve fs full buf root path = (.ok (), t)) :
    ∃ R m s, openRoot fs root = .ok R
      ∧ walk (boundedStep fs R) () MAXSYMLINKS (components path) {} = .ok (m, s)
      ∧ (∀ c ∈ s.comps, c ≠ [] ∧ '/' ∉ c ∧ c ≠ dot ∧ c ≠ dotdot)
      ∧ (if full then pathJoin root (render s.comps) else pathNew (render s.comps)) =
        (true, t) := by
  rw [doPathResolve] at h
  split at h
  · cases h
  next R hroot =>
  split at h
  · cases h
  next rest hrest =>
  obtain ⟨r, hr, hok⟩ := loop_of_start hroot hrest
  rw [Vars.start] at hr
  rw [hr] at h
  rcases r with e | v'
  · cases h
  obtain ⟨m, s, hwalk, hend⟩ := hok v' rfl
  refine ⟨R, m, s, hroot, hwalk, hend.names, ?_⟩
  rw [← hend.realpath]
  simp only at h
  split at h
  · next heq =>
    rw [heq, (Prod.mk.inj h).2]
  · cases h

/-- Nothing a walk from the root has resolved is a link. -/
theorem resolved_of_walk {R : Loc} {n m : ℕ} {l : List Name} {s : Stack}
    (h : walk (boundedStep fs R) () n l {} = .ok (m, s)) : s.Resolved fs R := by
  have hempty : Stack.Resolved fs R {} := by
    refine ⟨fun p hp hpre => absurd (List.prefix_nil.mp hpre) hp, fun p hpre hlt => ?_, by simp⟩
    simp only [List.length_nil] at hlt
    simp [List.prefix_nil.mp hpre] at hlt
  exact walk_invariant (fun hI h => hI.next h) (fun hI h => hI.splice h) h hempty

/-- **A path that resolves resolves as the reference says.**  The result is the root followed by
proper components, nothing of it that exists is a symbolic link, and where `chroot` finds something
it finds the same: it does whenever nothing was missing on the way. -/
theorem doPathResolve_refines (habs : root.head? = some '/')
    (h : doPathResolve fs full buf root path = (.ok (), t)) :
    ∃ R s, openRoot fs root = .ok R
      ∧ (∀ n, MAXSYMLINKS ≤ n → reference fs R n path = .ok s)
      ∧ t = resultText full root s.comps
      ∧ (∀ c ∈ s.comps, c ≠ [] ∧ '/' ∉ c ∧ c ≠ dot ∧ c ≠ dotdot)
      ∧ (∀ p, p ≠ [] → p <+: s.comps → ∀ i, fs.inode (R ++ p) = some i → i.isLink = false)
      ∧ (s.saw = false → fs.chrootLax R path = .ok (R ++ s.comps))
      ∧ ∀ p, fs.chroot R path = .ok p → p = R ++ s.comps := by
  obtain ⟨R, m, s, hroot, hwalk, hnames, htext⟩ := doPathResolve_walk h
  have hres : s.Resolved fs R := resolved_of_walk hwalk
  have hlax : fs.chrootLax R path = if s.saw then .error .ENOENT else .ok (R ++ s.comps) := by
    have hchroot := walk_chrootLax (walk_add hwalk (linkLimit - MAXSYMLINKS))
      (fun c hc => (mem_components hc).1) rfl rfl
    rw [List.append_nil] at hchroot
    rw [Tree.chrootLax, nameComponents]
    refine (congrArg (Except.map (·.2)) hchroot).trans ?_
    rcases s.saw <;> rfl
  refine ⟨R, s, hroot, fun n hn => reference_of_bounded hn hwalk, pathJoin_render habs htext,
    hnames, hres.linkFree, fun hsaw => by rw [hlax, hsaw]; rfl, fun p hp => ?_⟩
  have hsame := hlax.symm.trans (Tree.chrootLax_of_chroot hp)
  split_ifs at hsame
  exact (Except.ok.inj hsame).symm

/-- `/r` holds a directory `e` and a link `l` to `/e`. -/
def linked : Tree :=
  .ofNodes [([], { mode := ⟨.dir, 0x1ed⟩ }), ([['r']], { mode := ⟨.dir, 0x1ed⟩ }),
    ([['r'], ['e']], { mode := ⟨.dir, 0x1ed⟩ }),
    ([['r'], ['l']], { mode := ⟨.lnk, 0x1ff⟩, size := 2, target := ['/', 'e'] })] (by decide)

/-- `l/../l/x/../y` below `/r` is `/r/e/y`. -/
theorem doPathResolve_refines_linked :
    doPathResolve linked true [] ['/', 'r'] ['l', '/', '.', '.', '/', 'l', '/', 'x', '/', '.',
      '.', '/',
        'y'] = (.ok (), ['/', 'r', '/', 'e', '/', 'y'])
      ∧ ∃ (R : Loc) (s : Stack), openRoot linked ['/', 'r'] = .ok R
        ∧ ['/', 'r', '/', 'e', '/', 'y'] = resultText true ['/', 'r'] s.comps
        ∧ ∀ c ∈ s.comps, c ≠ dot ∧ c ≠ dotdot := by
  have h : doPathResolve linked true [] ['/', 'r'] ['l', '/', '.', '.', '/', 'l', '/', 'x',
      '/', '.', '.', '/', 'y'] = (.ok (), ['/', 'r', '/', 'e', '/', 'y']) := by decide +kernel
  obtain ⟨R, s, hroot, -, htext, hnames, -⟩ := doPathResolve_refines rfl h
  exact ⟨h, R, s, hroot, htext, fun c hc => (hnames c hc).2.2⟩

end Result

end Resolve
