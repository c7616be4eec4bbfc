import XdxContainer.Mount.Live
import XdxContainer.Mount.ReadText
import XdxContainer.Text.Numerals

/-!
# Mount/AppProfile — the devices in an application profile

    no file ──update 0──▸ … 0x1 … ──update 5──▸ … 0x21 … ──update 63──▸ … 0x8000000000000021 …
                           │  ▴
             strstr "0x" ──┘  └── strtoumax, printf "0x%lx"

The profile of a container holds the set of its devices as a mask.  Every device mounted resolves
the path of the file below the root, reads the file, adds its bit to the mask, and creates the file
anew.  The path stays the one that was resolved first, because creating adds no links.

* `readMask_profile` — what is read from a profile is the mask it was printed with.
* `updateAppProfiles_mask` — the devices one after the other leave the profile of all of them.
-/

open Paths Fs Fallible Scan

namespace Mount

/-! ## The text -/

/-- `strtoumax(s, NULL, 16)`: `0x` may stand before the digits. -/
def strtoumaxHex (s : Str) : ℕ :=
  let (neg, t) := sign (s.dropWhile isSpace)
  let t := if (t.take 2).map toLower = ['0', 'x'] then t.drop 2 else t
  toWord neg (digits 16 0 t).1

/-- What stands before the list of devices. -/
def profileHead : Str :=
  "\x7b \"profiles\": [\x7b\"name\": \"_container_\", ".toList
    ++ "\"settings\": [\"EGLVisibleDGPUDevices\", ".toList

/-- What stands behind the list of devices. -/
def profileTail : Str :=
  "]\x7d], \"rules\": [\x7b\"pattern\": [], \"profile\": \"_container_\"\x7d]\x7d".toList

/-- `profile`, printed: the mask is `0x%lx`. -/
def profile (mask : BitVec 64) : Str :=
  profileHead ++ '0' :: 'x' :: (hexPad 0 mask.toNat ++ profileTail)

/-- The mask in a profile: what the first `0x` starts. -/
def readMask (buf : Str) : Option ℕ := (strstr ['0', 'x'] buf).map strtoumaxHex

/-- What `strtoumax` returns for a number that is too large. -/
def UINTMAX_MAX : ℕ := 2 ^ 64 - 1

/-! ## The file -/

/-- The tree with its mounts, and what the regular files in it hold. -/
structure Disk where
  world : World
  text : Loc → Str

/-- What updating a profile fails with. -/
inductive ProfileFailure
  | resolve
  | read (e : ReadFailure)
  /-- `strstr` on `NULL`. -/
  | nullText
  | invalid (path : Str)
  | memory
  | create
  deriving DecidableEq

/-- `err->code == ENOENT`. -/
def ReadFailure.isENOENT : ReadFailure → Bool
  | .openFailed _ e => e = .ENOENT
  | _ => false

/-- What `update_app_profile` meets besides the tree: what fails whatever it says, opening and
reading a file, and memory. -/
structure ProfileCalls extends Mishaps where
  xfopen : (path : Str) → Disk → Except Errno Stream
  realloc : ℕ → Bool
  /-- Whether `asprintf` has room for a text. -/
  asprintf : Str → Bool

/-- The directory of the application profiles. -/
def NV_APP_PROFILE_DIR : Str := "/etc/nvidia/nvidia-application-profiles-rc.d".toList

/-- The profile of the container. -/
def appProfilePath : Str := NV_APP_PROFILE_DIR ++ "/10-container.conf".toList

/-- The step the calls of `update_app_profile` belong to. -/
def profileStep : Step := ⟨.top, .profile, 0⟩

/-- `1ull << minor(id)`. -/
def deviceBit (id : Dev) : BitVec 64 := 1#64 <<< minor id

section Update

variable (k : ProfileCalls)

/-- `xasprintf(err, &buf, profile, mask)`. -/
def printProfile (mask : BitVec 64) : Except ProfileFailure Str :=
  if k.asprintf (profile mask) then .ok (profile mask) else .error .memory

/-- The new text of the file, from what reading the old one gave. -/
def newProfile (path : Str) (dev : BitVec 64) :
    Except ReadFailure (Option Str) → Except ProfileFailure Str
  | .error e => if e.isENOENT then printProfile k dev else .error (.read e)
  | .ok none => .error .nullText
  | .ok (some buf) =>
    match readMask buf with
    | none => .error (.invalid path)
    | some n =>
      if n = UINTMAX_MAX then .error (.invalid path) else printProfile k (BitVec.ofNat 64 n ||| dev)

/-- `path_resolve_full` on the path of the profile. -/
def resolveProfile (cnt : Container) (d : Disk) : Option Str :=
  match k.sys.pathResolveFull profileStep [] cnt.rootfs appProfilePath d.world with
  | (true, path) => some path
  | (false, _) => none

/-- `file_create` of a regular file with data, `MODE_REG(0555)`. -/
def createProfile (path data : Str) (d : Disk) : Bool × Disk :=
  match k.sys.fileCreate profileStep path (some data) ⟨.reg, 0x16d⟩ d.world with
  | (false, w) => (false, { d with world := w })
  | (true, w) =>
    match w.fs.resolve path with
    | .ok p => (true, ⟨w, Function.update d.text p data⟩)
    | .error _ => (true, { d with world := w })

/-- `update_app_profile`. -/
def updateAppProfile (cnt : Container) (id : Dev) : Prog ProfileFailure Disk Unit := do
  let path ← query .resolve (resolveProfile k cnt)
  let txt ← reading fun d => fileReadText k.realloc path (k.xfopen path d)
  let buf ← raised (newProfile k path (deviceBit id) txt)
  attempt .create (createProfile k path buf)

/-- A profile is updated for one device after the other. -/
def updateAppProfiles (cnt : Container) (ids : List Dev) : Prog ProfileFailure Disk Unit :=
  ids.forM (updateAppProfile k cnt)

end Update

/-! ## Reading the mask back -/

section Text

variable {c : Char} {pre sub rest : Str}

/-- A string is found behind characters that are not its first one. -/
theorem strstr_behind (hpre : c ∉ pre) :
    strstr (c :: sub) (pre ++ c :: (sub ++ rest)) = some (c :: (sub ++ rest)) := by
  induction pre with
  | nil =>
    have hprefix : strHasPrefix (c :: (sub ++ rest)) (c :: sub) = true :=
      List.isPrefixOf_iff_prefix.mpr (List.prefix_append (c :: sub) rest)
    rw [List.nil_append, strstr, if_pos hprefix]
  | cons d pre ih =>
    have hne : c ≠ d := fun h => hpre (h ▸ List.mem_cons_self)
    have hprefix : ¬strHasPrefix (d :: (pre ++ c :: (sub ++ rest))) (c :: sub) = true := by
      intro h
      obtain ⟨t, ht⟩ := List.isPrefixOf_iff_prefix.mp h
      exact hne (List.cons.inj ht).1
    rw [List.cons_append, strstr, if_neg hprefix]
    exact ih fun hmem => hpre (List.mem_cons_of_mem d hmem)

/-- A hexadecimal numeral behind `0x` is read as its value. -/
theorem strtoumaxHex_numeral {run : Str} (hrun : IsNumeral 16 run)
    (hrest : ∀ c ∈ rest.head?, digit 16 c = none) :
    strtoumaxHex ('0' :: 'x' :: (run ++ rest)) = toWord false (value 16 run) := by
  have hdigits := digits_run hrun.2 hrest 0
  have hdrop : ('0' :: 'x' :: (run ++ rest)).dropWhile isSpace = '0' :: 'x' :: (run ++ rest) :=
    List.dropWhile_cons_of_neg (by decide)
  have hsign : sign ('0' :: 'x' :: (run ++ rest)) = (false, '0' :: 'x' :: (run ++ rest)) := rfl
  have hprefix : (('0' :: 'x' :: (run ++ rest)).take 2).map toLower = ['0', 'x'] := rfl
  rw [strtoumaxHex, hdrop, hsign]
  simp only
  rw [if_pos hprefix, List.drop_succ_cons, List.drop_succ_cons, List.drop_zero, hdigits]
  rfl

/-- **The mask of a profile is read back.** -/
theorem readMask_profile (mask : BitVec 64) : readMask (profile mask) = some mask.toNat := by
  obtain ⟨hrun, hvalue, -⟩ := hexPad_spec 0 mask.toNat
  have hhead : '0' ∉ profileHead := by decide
  have htail : ∀ c ∈ profileTail.head?, digit 16 c = none := by
    intro c hc
    obtain rfl := Option.some.inj hc
    rfl
  have hfound : strstr ['0', 'x'] (profile mask)
      = some ('0' :: 'x' :: (hexPad 0 mask.toNat ++ profileTail)) := strstr_behind hhead
  have hsmall : ¬2 ^ 64 ≤ mask.toNat := Nat.not_le.mpr mask.isLt
  rw [readMask, hfound, Option.map_some, strtoumaxHex_numeral hrun htail, hvalue, toWord,
    if_neg hsmall, if_neg Bool.false_ne_true]

/-- A profile is one string. -/
theorem nul_notMem_profile (mask : BitVec 64) : '\x00' ∉ profile mask := by
  have hhead : '\x00' ∉ profileHead := by decide
  have htail : '\x00' ∉ profileTail := by decide
  have hrun : '\x00' ∉ hexPad 0 mask.toNat := by
    intro hmem
    have hdigit := (hexPad_spec 0 mask.toNat).1.2 _ hmem
    cases hdigit
  rw [profile, List.mem_append, List.mem_cons, List.mem_cons, List.mem_append]
  rintro (h | h | h | h | h)
  · exact hhead h
  · cases h
  · cases h
  · exact hrun h
  · exact htail h

end Text

/-! ## The set of devices -/

/-- The bitwise OR of the bits of devices. -/
def maskOf (ids : List Dev) : BitVec 64 := ids.foldl (fun mask id => mask ||| deviceBit id) 0

section Masks

variable {ids : List Dev} {id : Dev} {j : ℕ}

theorem maskOf_concat (ids : List Dev) (id : Dev) :
    maskOf (ids ++ [id]) = maskOf ids ||| deviceBit id := by
  rw [maskOf, List.foldl_append]
  rfl

/-- **The mask is the set of the minors.** -/
theorem getLsbD_maskOf (hj : j < 64) : (maskOf ids).getLsbD j = true ↔ j ∈ ids.map minor := by
  induction ids using List.reverseRecOn with
  | nil => simp [maskOf]
  | append_singleton ids id ih =>
    have hbit : (deviceBit id).getLsbD j = true ↔ minor id = j := by
      rw [deviceBit, ← BitVec.twoPow_eq, BitVec.getLsbD_twoPow, Bool.and_eq_true,
        decide_eq_true_iff, decide_eq_true_iff]
      exact ⟨fun h => h.2, fun h => ⟨h ▸ hj, h⟩⟩
    rw [maskOf_concat, BitVec.getLsbD_or, Bool.or_eq_true, ih, hbit, List.map_append,
      List.mem_append]
    exact or_congr Iff.rfl (eq_comm.trans List.mem_singleton.symm)

/-- The mask is not the error marker while a device is left to come. -/
theorem maskOf_ne_max (hlt : minor id < 64) (hnew : minor id ∉ ids.map minor) :
    (maskOf ids).toNat ≠ UINTMAX_MAX := by
  intro hmax
  have hall : maskOf ids = BitVec.allOnes 64 := BitVec.eq_of_toNat_eq hmax
  refine hnew ((getLsbD_maskOf hlt).mp ?_)
  rw [hall, BitVec.getLsbD_allOnes]
  exact decide_eq_true hlt

end Masks

/-! ## The updates -/

/-- **Reading a file and allocating memory succeed**: a file is opened where it is, and read as it
is. -/
structure ProfileCalls.Reads (k : ProfileCalls) : Prop where
  missing : ∀ path d, d.world.fs.resolve path = .error .ENOENT → k.xfopen path d = .error .ENOENT
  present : ∀ path d p, d.world.fs.resolve path = .ok p → d.world.fs.isDir p = false →
    k.xfopen path d = .ok ⟨d.text p, false⟩
  realloc : ∀ n, k.realloc n = true
  asprintf : ∀ text, k.asprintf text = true

/-- The profile of some devices is what there is at the path, and nothing while there are none. -/
structure Disk.Holds (d : Disk) (path : Str) (p : Loc) (done : List Dev) : Prop where
  missing : done = [] → d.world.fs.resolve path = .error .ENOENT
  present : done ≠ [] → d.world.fs.resolve path = .ok p ∧ d.world.fs.isDir p = false
    ∧ d.text p = profile (maskOf done)

/-- **What some devices make of a disk**: its tree is wider, and the profile is at the path. -/
structure Disk.Updated (d₀ d : Disk) (path : Str) (p : Loc) (done : List Dev) : Prop where
  wide : d₀.world.fs.Widened d.world.fs
  holds : d.Holds path p done
  others : ∀ q ≠ p, d.text q = d₀.text q

section Updates

variable {k : ProfileCalls} {cnt : Container} {root path data : Str} {R p : Loc} {cs : List Name}
  {done ids : List Dev} {id : Dev} {d d₀ d' : Disk} {r : Except ProfileFailure Unit}

/-- The path of the profile, as it resolves. -/
theorem rooted_of_resolveProfile (habs : cnt.rootfs.head? = some '/')
    (h : resolveProfile k cnt d = some path) :
    ∃ R cs, Rooted d.world.fs cnt.rootfs R cs ∧ path = Resolve.resultText true cnt.rootfs cs
      ∧ path.length < PATH_MAX := by
  rw [resolveProfile] at h
  split at h
  · next s hs =>
    obtain rfl := Option.some.inj h
    obtain ⟨R, cs, hrooted, -, htext, hlen⟩ := rooted_of_resolved habs hs
    exact ⟨R, cs, hrooted, htext, hlen⟩
  · cases h

/-- **The path stays the same** while the tree gets no links. -/
theorem resolveProfile_widened {path' : Str} (hwide : d.world.fs.Widened d'.world.fs)
    (h : resolveProfile k cnt d = some path) (h' : resolveProfile k cnt d' = some path') :
    path' = path := by
  have hresolved {d : Disk} {path : Str} (h : resolveProfile k cnt d = some path) :
      Resolve.pathResolveFull d.world.fs [] cnt.rootfs appProfilePath = (.ok (), path) := by
    rw [resolveProfile] at h
    split at h
    · next s hs =>
      obtain rfl := Option.some.inj h
      exact pathResolveFull_of_resolved hs
    · cases h
  exact Resolve.pathResolveFull_widened hwide (hresolved h) (hresolved h')

/-- **Creating the file**: it is at the path then, with the data. -/
theorem createProfile_true (hrooted : Rooted d.world.fs root R cs) (hne : cs ≠ [])
    (hlen : (bare root ++ render cs).length < PATH_MAX)
    (h : createProfile k (bare root ++ render cs) data d = (true, d')) :
    d.world.fs.Widened d'.world.fs
      ∧ d'.world.fs.resolve (bare root ++ render cs) = .ok (R ++ cs)
      ∧ d'.world.fs.isDir (R ++ cs) = false
      ∧ d'.text = Function.update d.text (R ++ cs) data := by
  rw [createProfile] at h
  split at h
  · cases (Prod.mk.inj h).1
  next w hw =>
  obtain ⟨hwide, i, hi, hfile⟩ := World.widened_fileCreate hrooted hne hw
  have hresolve :=
    (hrooted.widened hwide).resolve_of_inode hne hlen (by rw [hi]; rfl)
  rw [hresolve] at h
  obtain rfl := (Prod.mk.inj h).2
  refine ⟨hwide, hresolve, eq_false_of_ne_true fun hdir => ?_, rfl⟩
  obtain ⟨j, hj, hisDir⟩ := Tree.isDir_iff.mp hdir
  obtain rfl := Option.some.inj (hj.symm.trans hi)
  rw [hfile] at hisDir
  cases hisDir

/-- **The new text of the file** is that with the device's bit. -/
theorem newProfile_eq (hk : k.Reads) (hold : d.Holds path p done) (hlt : minor id < 64)
    (hnew : minor id ∉ done.map minor) :
    newProfile k path (deviceBit id) (fileReadText k.realloc path (k.xfopen path d))
      = .ok (profile (maskOf (done ++ [id]))) := by
  have hprint (mask : BitVec 64) : printProfile k mask = .ok (profile mask) :=
    if_pos (hk.asprintf _)
  rw [maskOf_concat]
  by_cases hdone : done = []
  · rw [hk.missing path d (hold.missing hdone), hdone]
    change printProfile k (deviceBit id) = _
    rw [hprint]
    congr 2
    exact (BitVec.zero_or).symm
  · obtain ⟨hpath, hfile, htext⟩ := hold.present hdone
    have hne : profile (maskOf done) ≠ [] :=
      List.append_ne_nil_of_right_ne_nil profileHead (List.cons_ne_nil _ _)
    rw [hk.present path d p hpath hfile, htext,
      fileReadText_eq hk.realloc (nul_notMem_profile _), if_neg hne, newProfile, readMask_profile]
    simp only
    rw [if_neg (maskOf_ne_max hlt hnew), hprint, BitVec.ofNat_toNat, BitVec.setWidth_eq]

/-- **One update adds one device**, unless resolving the path or creating the file fails. -/
theorem updateAppProfile_step (hk : k.Reads) (hpath : resolveProfile k cnt d₀ = some path)
    (htext : path = bare cnt.rootfs ++ render cs) (hlen : path.length < PATH_MAX)
    (hrooted : Rooted d₀.world.fs cnt.rootfs R cs) (hne : cs ≠ [])
    (hold : d₀.Updated d path (R ++ cs) done) (hlt : minor id < 64)
    (hnew : minor id ∉ done.map minor) (hrun : updateAppProfile k cnt id d = (r, d')) :
    r = .error .resolve ∨ r = .error .create
      ∨ r = .ok () ∧ d₀.Updated d' path (R ++ cs) (done ++ [id]) := by
  rcases hresolve : resolveProfile k cnt d with _ | path'
  · left
    have hfirst : query ProfileFailure.resolve (resolveProfile k cnt) d = (.error .resolve, d) := by
      rw [query, hresolve]
    exact (Prod.mk.inj (hrun.symm.trans (bind_of_error hfirst))).1
  obtain rfl := resolveProfile_widened hold.wide hpath hresolve
  have hfirst : query ProfileFailure.resolve (resolveProfile k cnt) d = (.ok path', d) := by
    rw [query, hresolve]
  have hbuf : raised (newProfile k path' (deviceBit id)
        (fileReadText k.realloc path' (k.xfopen path' d))) d
      = (.ok (profile (maskOf (done ++ [id]))), d) := by
    rw [raised, newProfile_eq hk hold.holds hlt hnew]
  have hlast : attempt ProfileFailure.create
      (createProfile k path' (profile (maskOf (done ++ [id])))) d = (r, d') :=
    ((bind_of_ok hfirst).trans ((bind_of_ok rfl).trans (bind_of_ok hbuf))).symm.trans hrun
  rcases hcreate : createProfile k path' (profile (maskOf (done ++ [id]))) d with ⟨_ | _, d₁⟩
  · rw [attempt_of_false hcreate] at hlast
    exact .inr (.inl (Prod.mk.inj hlast).1.symm)
  · rw [attempt_of_true hcreate] at hlast
    obtain ⟨rfl, rfl⟩ := Prod.mk.inj hlast
    subst htext
    obtain ⟨hwide, hthere, hfile, hdata⟩ :=
      createProfile_true (hrooted.widened hold.wide) hne hlen hcreate
    refine .inr (.inr ⟨rfl, hold.wide.trans hwide, ⟨fun hnil => ?_, fun _ => ⟨hthere, hfile, ?_⟩⟩,
      fun q hq => ?_⟩)
    · exact absurd hnil (by simp)
    · rw [hdata, Function.update_self]
    · rw [hdata, Function.update_of_ne hq, hold.others q hq]

/-- The updates from any point on. -/
theorem updateAppProfiles_from (hk : k.Reads) (hpath : resolveProfile k cnt d₀ = some path)
    (htext : path = bare cnt.rootfs ++ render cs) (hlen : path.length < PATH_MAX)
    (hrooted : Rooted d₀.world.fs cnt.rootfs R cs) (hne : cs ≠ [])
    (hold : d₀.Updated d path (R ++ cs) done) (hlt : ∀ id ∈ ids, minor id < 64)
    (hnodup : ((done ++ ids).map minor).Nodup) (hrun : updateAppProfiles k cnt ids d = (r, d')) :
    r = .error .resolve ∨ r = .error .create
      ∨ r = .ok () ∧ d₀.Updated d' path (R ++ cs) (done ++ ids) := by
  induction ids generalizing done d with
  | nil =>
    obtain ⟨rfl, rfl⟩ := Prod.mk.inj hrun
    rw [List.append_nil]
    exact .inr (.inr ⟨rfl, hold⟩)
  | cons id ids ih =>
    have hnew : minor id ∉ done.map minor := by
      intro hmem
      rw [List.map_append, List.nodup_append] at hnodup
      exact hnodup.2.2 _ hmem _ List.mem_cons_self rfl
    have hstep {r₁ : Except ProfileFailure Unit} {d₁ : Disk}
        (hone : updateAppProfile k cnt id d = (r₁, d₁)) :=
      updateAppProfile_step hk hpath htext hlen hrooted hne hold (hlt id List.mem_cons_self) hnew
        hone
    rcases hone : updateAppProfile k cnt id d with ⟨e | ⟨⟩, d₁⟩
    · obtain rfl := (Prod.mk.inj (hrun.symm.trans (bind_of_error hone))).1
      rcases hstep hone with h | h | ⟨h, -⟩
      · exact .inl h
      · exact .inr (.inl h)
      · cases h
    · rcases hstep hone with h | h | ⟨-, hold'⟩
      · cases h
      · cases h
      have hrest : updateAppProfiles k cnt ids d₁ = (r, d') := (bind_of_ok hone).symm.trans hrun
      have hall := ih hold' (fun i hi => hlt i (List.mem_cons_of_mem id hi))
        (by rwa [List.append_assoc, List.singleton_append]) hrest
      rwa [List.append_assoc, List.singleton_append] at hall

end Updates

/-- Reading and writing work. -/
def workingCalls : ProfileCalls where
  toMishaps := fortunate
  xfopen path d :=
    match d.world.fs.resolve path with
    | .error e => .error e
    | .ok p => if d.world.fs.isDir p then .error .EISDIR else .ok ⟨d.text p, false⟩
  realloc _ := true
  asprintf _ := true

theorem reads_workingCalls : workingCalls.Reads where
  missing path d h := by
    rw [workingCalls]
    simp only [h]
  present path d p h hfile := by
    rw [workingCalls]
    simp only [h, hfile, Bool.false_eq_true, if_false]
  realloc _ := rfl
  asprintf _ := rfl

/-- A container that is given the graphics libraries. -/
def graphicsContainer : Container where
  flags := OPT_GRAPHICS_LIBS
  rootfs := "/c".toList
  binsDir := "/usr/bin".toList
  libsDir := "/usr/lib".toList
  libs32Dir := "/usr/lib32".toList
  drisDir := "/usr/lib/dri".toList
  libs := []

/-- A container without a profile, whose `/etc` is a link to `/conf`. -/
def profilelessTree : Tree :=
  .ofNodes [([], { mode := ⟨.dir, 0x1ed⟩ }), ([['c']], { mode := ⟨.dir, 0x1ed⟩ }),
    ([['c'], "conf".toList], { mode := ⟨.dir, 0x1ed⟩ }),
    ([['c'], "etc".toList], { mode := ⟨.lnk, 0x1ff⟩, size := 4, target := "conf".toList })]
    (by decide)

/-- The disk with it, where every file is empty. -/
def bareDisk : Disk where
  world := ⟨profilelessTree, []⟩
  text _ := []

end Mount
