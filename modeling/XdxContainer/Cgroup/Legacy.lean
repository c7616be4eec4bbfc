import XdxContainer.Cgroup.Locate
import XdxContainer.Mount.Code
import XdxContainer.Path.Joining
import XdxContainer.Text.Fields

/-!
# Cgroup/Legacy — the device cgroup of a container without the Go library, and with it

    mountinfo:  … R M options tags - cgroup source "rw,cpu,devices"     cgroup:  4:cpu,devices:C
    C code:   first lines with `devices` in the last field, in the list ──▸  prefix M (C − R)
    Go code:  first lines with base(M) = `devices`, list = `devices`   ──▸  proc_root / M / (C − R)

`find_device_cgroup_path` of `cgroup_legacy.c`, the build without nvcgo, on the contents of which
`Cgroup/Locate` describes the other build.  Each build opens its files under a name of its own and
finds there what it finds.
`findDeviceCgroupPath_agree_iff` says on which contents the two builds agree.
-/

open Paths Lines Fields Remote Procfs
open Mount (strstr strHasPrefix)

namespace Legacy

/-! ## cgroup_legacy.c -/

/-- What `cgroup_mount` asks of the tokens: the root, which is stored in `prefix`, and the mount
point. -/
def checkMount (subsys : Str) : (root mount fstype substr : Option Str) → Option (Str × Str)
  | some root, some mount, some fstype, some substr =>
    if root = [] ∨ mount = [] ∨ fstype = [] ∨ substr = [] then none
    else if fstype ≠ "cgroup".toList then none
    else if strstr subsys substr = none then none
    else if PATH_MAX ≤ root.length ∨ strHasPrefix root "/..".toList then none
    else some (root, mount)
  | _, _, _, _ => none

/-- `cgroup_mount`.  A line of fewer than six fields, on which `strchr` gets NULL, gives NULL
here. -/
def cgroupMount (subsys line : Str) : Option (Str × Str) :=
  let (root, line) := strsepLast ' ' 3 (some line)
  let (mount, line) := strsep ' ' line
  let line := line.bind (strchr '-')
  let (fstype, line) := strsepLast ' ' 1 line
  let (substr, _) := strsepLast ' ' 1 line
  checkMount subsys root mount fstype substr

/-- The path without the prefix, unless that is a `/`. -/
def strip (pre path : Str) : Str :=
  if pre ≠ ['/'] ∧ strHasPrefix path pre then path.drop pre.length else path

/-- `cgroup_root`. -/
def cgroupRoot (pre subsys line : Str) : Option Str :=
  let (heirarchyId, line) := strsep ':' (some line)
  let (controllerList, line) := strsep ':' line
  match heirarchyId, controllerList, line with
  | some _, some controllerList, some cgroupPath =>
    if cgroupPath = [] ∨ controllerList = [] then none
    else if strstr subsys controllerList = none then none
    else if PATH_MAX ≤ cgroupPath.length ∨ strHasPrefix cgroupPath "/..".toList then none
    else some (strip pre cgroupPath)
  | _, _, _ => none

/-- The loop of `parse_proc_file`.  A line that ends the file without a newline has set `feof`. -/
def parseLines {α : Type} (parse : Str → Option α) (subsys : Str) :
    List (Str × Bool) → Except String α
  | [] => .error ("cgroup subsystem " ++ String.ofList subsys ++ " not found")
  | (line, eof) :: lines =>
    if line = [] then parseLines parse subsys lines
    else
      match parse line with
      | none => parseLines parse subsys lines
      | some ptr =>
        if eof then .error ("cgroup subsystem " ++ String.ofList subsys ++ " not found")
        else .ok ptr

/-- The name of a file of a process, behind a prefix. -/
def procPath (pre : Str) (pid : ℤ) : ProcFile → Str
  | .cgroup => pre ++ "/proc/".toList ++ (toString pid).toList ++ "/cgroup".toList
  | .mountinfo => pre ++ "/proc/".toList ++ (toString pid).toList ++ "/mountinfo".toList

/-- What paths are put behind. -/
def pathPrefix (cnt : Container) : Str := if cnt.standalone then cnt.rootfs else []

/-- `fopen` and the contents of the file of a name, or the text of the error. -/
abbrev Opens := (path : Str) → Except String Str

/-- `xsnprintf` of the file's name, and `parse_proc_file`. -/
def parseProcFile {α : Type} (opens : Opens) (cnt : Container) (pid : ℤ) (procf : ProcFile)
    (parse : Str → Option α) (subsys : Str) : Except String α := do
  let path := procPath (pathPrefix cnt) pid procf
  if PATH_MAX ≤ path.length then .error "string formatting failed"
  else
    let text ← (opens path).mapError fun e =>
      "open failed: " ++ String.ofList path ++ ": " ++ e
    parseLines parse subsys (getlines text)

/-- `find_device_cgroup_path` of the build without the Go library. -/
def findDeviceCgroupPath (opens : Opens) (cnt : Container) : Except String Str := do
  let (rootPrefix, mount) ← parseProcFile opens cnt cnt.mountPid .mountinfo (cgroupMount devices)
    devices
  let root ← parseProcFile opens cnt cnt.pid .cgroup (cgroupRoot rootPrefix devices) devices
  return pathPrefix cnt ++ mount ++ root

/-! ## What a line comes to -/

/-- The fields behind the mount point. -/
def tailFields (m : MountEntry) : List Str :=
  m.options :: m.tags ++ [['-'], m.fsType, m.source, m.superOptions]

/-- The fields behind the first of these with a dash: those behind the separator, where no option or
tag has one. -/
def behindDash (m : MountEntry) : List Str := ((tailFields m).dropWhile ('-' ∉ ·)).tail

/-- The entries of mountinfo that are wanted. -/
def mounts (m : MountEntry) : Bool :=
  m.root ≠ [] ∧ m.mountPoint ≠ [] ∧ (behindDash m)[0]? = some "cgroup".toList
    ∧ (∃ options ∈ (behindDash m)[2]?, (strstr devices options).isSome)
    ∧ m.root.length < PATH_MAX ∧ ¬ "/..".toList <+: m.root

/-- The lines of the cgroup file that are wanted. -/
def lists (l : CgroupLine) : Bool :=
  l.path ≠ [] ∧ (strstr devices l.list).isSome
    ∧ l.path.length < PATH_MAX ∧ ¬ "/..".toList <+: l.path

theorem text_eq_line (m : MountEntry) : some m.text
    = line ' ' ([m.mountId, m.parentId, m.device, m.root, m.mountPoint] ++ tailFields m) := by
  have hfields : [m.mountId, m.parentId, m.device, m.root, m.mountPoint] ++ tailFields m
      = m.fields ++ [m.superOptions] := by
    simp [tailFields, MountEntry.fields]
  rw [hfields, line_concat (by simp [MountEntry.fields]), MountEntry.text]

theorem mem_tailFields_ok (m : MountEntry) {f : Str} (hf : f ∈ tailFields m) : ' ' ∉ f := by
  have hmem : f ∈ m.fields ∨ f = m.superOptions := by
    simp only [tailFields, MountEntry.fields, List.mem_append, List.mem_cons, List.not_mem_nil,
      or_false] at hf ⊢
    tauto
  obtain hf | rfl := hmem
  · exact (m.mem_fields_ok hf).1
  · exact m.superOptions_ok.1

/-- The fields from the first dash on. -/
theorem dropWhile_tailFields (m : MountEntry) :
    ∃ f, '-' ∈ f ∧ (tailFields m).dropWhile ('-' ∉ ·) = f :: behindDash m := by
  have hne : (tailFields m).dropWhile ('-' ∉ ·) ≠ [] := by
    rw [Ne, List.dropWhile_eq_nil_iff]
    intro h
    simpa using h ['-'] (by simp [tailFields])
  obtain ⟨f, behind, hf⟩ := List.exists_cons_of_ne_nil hne
  have hdash := List.head_dropWhile_not (fun g : Str => decide ('-' ∉ g)) hne
  simp only [hf, List.head_cons, decide_eq_false_iff_not, not_not] at hdash
  exact ⟨f, hdash, by rw [behindDash, hf]; rfl⟩

theorem strHasPrefix_iff {s t : Str} : strHasPrefix s t = true ↔ t <+: s :=
  List.isPrefixOf_iff_prefix

/-- What `parse_proc_file` takes from the line of a mount. -/
theorem checkMount_fields (m : MountEntry) :
    checkMount devices (some m.root) (some m.mountPoint) (behindDash m)[0]? (behindDash m)[2]?
      = if mounts m then some (m.root, m.mountPoint) else none := by
  unfold mounts
  generalize (behindDash m)[0]? = fstype
  generalize (behindDash m)[2]? = substr
  cases fstype with
  | none => simp [checkMount]
  | some fstype =>
    cases substr with
    | none => simp [checkMount]
    | some substr =>
      have hsome : (∃ options ∈ some substr, (strstr devices options).isSome)
          ↔ strstr devices substr ≠ none := by
        simp [Option.isSome_iff_ne_none]
      -- an empty field has neither the type nor the subsystem
      have hsub : strstr devices substr ≠ none → substr ≠ [] := by
        rintro h rfl
        exact h rfl
      have hcg : fstype = "cgroup".toList → fstype ≠ [] := by
        rintro rfl
        decide
      simp only [checkMount, strHasPrefix_iff, decide_eq_true_eq, hsome, Option.some_inj]
      generalize "cgroup".toList = cgroup at hcg ⊢
      split_ifs <;> grind

/-- The entries of mountinfo that `cgroup_mount` takes, by their fields. -/
theorem cgroupMount_text (m : MountEntry) :
    cgroupMount devices m.text = if mounts m then some (m.root, m.mountPoint) else none := by
  have hok : ∀ f ∈ [m.mountId, m.parentId, m.device, m.root, m.mountPoint] ++ tailFields m,
      ' ' ∉ f := by
    intro f hf
    obtain hf | hf := List.mem_append.mp hf
    · exact (m.mem_fields_ok (by simp [MountEntry.fields] at hf ⊢; tauto)).1
    · exact mem_tailFields_ok m hf
  obtain ⟨f, hdash, hdrop⟩ := dropWhile_tailFields m
  have hsplit : (tailFields m).takeWhile ('-' ∉ ·) ++ f :: behindDash m = tailFields m := by
    rw [← hdrop, List.takeWhile_append_dropWhile]
  have hbefore : ∀ g ∈ (tailFields m).takeWhile ('-' ∉ ·), '-' ∉ g := fun g hg => by
    simpa using List.mem_takeWhile_imp hg
  have htail : ∀ g ∈ f.dropWhile (· ≠ '-') :: behindDash m, ' ' ∉ g := by
    intro g hg
    obtain rfl | hg := List.mem_cons.mp hg
    · exact fun hsp =>
        mem_tailFields_ok m (hsplit ▸ by simp) ((List.dropWhile_sublist _).subset hsp)
    · exact mem_tailFields_ok m (hsplit ▸ by simp [hg])
  have hroot : strsepLast ' ' 3 (some m.text)
      = (some m.root, line ' ' (m.mountPoint :: tailFields m)) := by
    rw [text_eq_line, strsepLast_line 3 hok]
    rfl
  have hmount : strsep ' ' (line ' ' (m.mountPoint :: tailFields m))
      = (some m.mountPoint, line ' ' (tailFields m)) := strsep_line (hok _ (by simp)) _
  have hchr : (line ' ' (tailFields m)).bind (strchr '-')
      = line ' ' (f.dropWhile (· ≠ '-') :: behindDash m) := by
    rw [← hsplit, strchr_line (by decide) hbefore hdash]
  have hfstype : strsepLast ' ' 1 (line ' ' (f.dropWhile (· ≠ '-') :: behindDash m))
      = ((behindDash m)[0]?, line ' ' ((behindDash m).drop 1)) := strsepLast_line 1 htail
  have hsubstr : (strsepLast ' ' 1 (line ' ' ((behindDash m).drop 1))).1 = (behindDash m)[2]? := by
    rw [strsepLast_line 1 fun g hg => htail g (List.mem_cons_of_mem _ (List.mem_of_mem_drop hg)),
      List.getElem?_drop]
  simp only [cgroupMount, hroot, hmount, hchr, hfstype, hsubstr]
  exact checkMount_fields m
/-- The lines of the cgroup file that `cgroup_root` takes. -/
theorem cgroupRoot_text (pre : Str) (l : CgroupLine) :
    cgroupRoot pre devices l.text = if lists l then some (strip pre l.path) else none := by
  have hsub : strstr devices l.list ≠ none → l.list ≠ [] := by
    intro h hnil
    rw [hnil] at h
    exact h rfl
  rw [CgroupLine.text, cgroupRoot, strsep_append_cons l.hierarchyId_ok.1]
  simp only [strsep_append_cons l.colon_not_mem_list, lists, strHasPrefix_iff, decide_eq_true_eq,
    Option.isSome_iff_ne_none]
  grind

/-! ## The two searches -/

/-- On lines that end in newlines the loop stops at the first one that is wanted. -/
theorem parseLines_toOption {α β : Type} {parse : Str → Option α} (subsys : Str) {text : β → Str}
    {wanted : β → Bool} {read : β → α} {bs : List β}
    (hparse : ∀ b ∈ bs, parse (text b) = if wanted b then some (read b) else none)
    (hne : ∀ b ∈ bs, text b ≠ []) :
    (parseLines parse subsys (bs.map fun b => (text b, false))).toOption
      = (bs.find? wanted).map read := by
  induction bs with
  | nil => rfl
  | cons b bs ih =>
    have htail := ih (fun c hc => hparse c (List.mem_cons_of_mem b hc))
      fun c hc => hne c (List.mem_cons_of_mem b hc)
    rw [List.map_cons, parseLines, if_neg (hne b List.mem_cons_self),
      hparse b List.mem_cons_self]
    cases hw : wanted b with
    | false => simpa [hw] using htail
    | true => simp [hw, Except.toOption]

/-- The names of both files fit their buffer. -/
def Named (cnt : Container) : Prop :=
  (procPath (pathPrefix cnt) cnt.mountPid .mountinfo).length < PATH_MAX
    ∧ (procPath (pathPrefix cnt) cnt.pid .cgroup).length < PATH_MAX

instance (cnt : Container) : Decidable (Named cnt) := inferInstanceAs (Decidable (_ ∧ _))

/-- What a build finds under the names of its two files: entries and lines, or the text of the
error. -/
structure Found where
  entries : Except String (List MountEntry)
  lines : Except String (List CgroupLine)

/-- The first entry the C code wants. -/
def Found.legacyMount (found : Found) : Option MountEntry :=
  found.entries.toOption.bind fun ms => ms.find? mounts

/-- The first line the C code wants. -/
def Found.legacyLine (found : Found) : Option CgroupLine :=
  found.lines.toOption.bind fun ls => ls.find? lists

/-- The first entry the Go code wants. -/
def Found.procfsMount (found : Found) : Option MountEntry :=
  found.entries.toOption.bind fun ms => (scannedMounts ms).find? Version.v1.mounts

/-- The first line the Go code wants. -/
def Found.procfsLine (found : Found) : Option CgroupLine :=
  found.lines.toOption.bind fun ls => (scanned ls).find? Version.v1.lists

section Files

variable {opens : Opens} {files : Files} {cnt : Container} {here there : Found}

/-- What is parsed of a file is read from the first line that is wanted. -/
theorem parseProcFile_toOption {α β : Type} {parse : Str → Option α} {pid : ℤ} {procf : ProcFile}
    (subsys : Str) {text : β → Str} {wanted : β → Bool} {read : β → α}
    {found : Except String (List β)}
    (hfile : opens (procPath (pathPrefix cnt) pid procf)
      = found.map fun bs => unlines (bs.map text))
    (hparse : ∀ b, parse (text b) = if wanted b then some (read b) else none)
    (hne : ∀ b, text b ≠ []) (hline : ∀ b, '\n' ∉ text b) :
    (parseProcFile opens cnt pid procf parse subsys).toOption
      = if (procPath (pathPrefix cnt) pid procf).length < PATH_MAX
        then (found.toOption.bind fun bs => bs.find? wanted).map read else none := by
  unfold parseProcFile
  by_cases hlen : (procPath (pathPrefix cnt) pid procf).length < PATH_MAX
  · rw [if_neg (not_le.mpr hlen), if_pos hlen, hfile]
    rcases found with e | bs
    · rfl
    · have hlines : ∀ l ∈ bs.map text, '\n' ∉ l := by
        intro l hl
        obtain ⟨b, -, rfl⟩ := List.mem_map.mp hl
        exact hline b
      change (parseLines parse subsys (getlines (unlines (bs.map text)))).toOption
        = (bs.find? wanted).map read
      rw [getlines_unlines hlines, List.map_map]
      exact parseLines_toOption subsys (fun b _ => hparse b) fun b _ => hne b
  · rw [if_pos (not_lt.mp hlen), if_neg hlen]
    rfl

/-- What the C code computes. -/
theorem findDeviceCgroupPath_toOption
    (hmounts : opens (procPath (pathPrefix cnt) cnt.mountPid .mountinfo)
      = here.entries.map mountText)
    (hlines : opens (procPath (pathPrefix cnt) cnt.pid .cgroup) = here.lines.map cgroupText) :
    (findDeviceCgroupPath opens cnt).toOption
      = if Named cnt then here.legacyMount.bind fun m => here.legacyLine.map fun l =>
          pathPrefix cnt ++ m.mountPoint ++ strip m.root l.path
        else none := by
  have hmount := parseProcFile_toOption devices hmounts cgroupMount_text
    (fun m => by simp [MountEntry.text]) MountEntry.newline_not_mem_text
  have hroot := fun pre : Str => parseProcFile_toOption devices hlines
    (cgroupRoot_text pre) (fun l => by simp [CgroupLine.text]) CgroupLine.newline_not_mem_text
  rw [findDeviceCgroupPath, Except.toOption_bind, hmount]
  simp only [Except.toOption_bind, hroot, Named, Found.legacyMount, Found.legacyLine]
  by_cases hm : (procPath (pathPrefix cnt) cnt.mountPid .mountinfo).length < PATH_MAX
  · by_cases hl : (procPath (pathPrefix cnt) cnt.pid .cgroup).length < PATH_MAX
    · simp only [hm, hl]
      cases here.entries.toOption.bind fun ms => ms.find? mounts with
      | none => rfl
      | some m =>
        cases here.lines.toOption.bind fun ls => ls.find? lists <;> rfl
    · simp [hm, hl]
  · simp [hm]

/-- The prefix is taken off, unless it is the root. -/
theorem strip_eq (pre path : Str) :
    strip pre path = if pre = ['/'] then path else trimPrefix path pre := by
  unfold strip trimPrefix
  simp only [strHasPrefix_iff]
  split_ifs <;> simp_all

/-- The two Go calls and the joins, on what is found. -/
theorem locate_found {root : Str} {mpPid rpPid : ℤ}
    (hmounts : files root mpPid .mountinfo = there.entries.map mountText)
    (hlines : files root rpPid .cgroup = there.lines.map cgroupText)
    (rules : ℤ → Str → List Cgroup.DeviceRule → Except String Unit) :
    locate (procfsApi files rules) Version.v1.number root mpPid rpPid
      = there.procfsMount.bind fun m =>
          if "/..".toList <+: m.root then none
          else there.procfsLine.bind fun l =>
            joined [] [root, m.mountPoint, strip m.root (dropCR l.path)] := by
  obtain ⟨entries, lines⟩ := there
  simp only [strip_eq]
  rcases entries with e | ms
  · change files root mpPid .mountinfo = .error e at hmounts
    simp only [locate, procfsApi, Site.newInterface_number]
    change (Version.v1.getDeviceCGroupMountPath files root mpPid).toOption.bind _ = none
    rw [Version.getDeviceCGroupMountPath, hmounts]
    rfl
  · rcases lines with e | ls
    · change files root rpPid .cgroup = .error e at hlines
      -- a mount does not help where the other file is not opened
      have hroot (R : Str) :
          (Version.v1.getDeviceCGroupRootPath files root R rpPid).toOption = none := by
        rw [Version.getDeviceCGroupRootPath, hlines]
        rfl
      have hnone : locate (procfsApi files rules) Version.v1.number root mpPid rpPid = none := by
        simp only [locate, procfsApi, Site.newInterface_number]
        change (Version.v1.getDeviceCGroupMountPath files root mpPid).toOption.bind _ = none
        refine Option.bind_eq_none_iff.mpr fun mount _ => ?_
        change (Version.v1.getDeviceCGroupRootPath files root mount.1 rpPid).toOption.bind _ = none
        rw [hroot]
        rfl
      rw [hnone]
      simp [Found.procfsLine, Except.toOption]
    · exact Site.locate_entries .v1 hmounts hlines rules

/-- What the Go code and its service compute. -/
theorem procfs_findDeviceCgroupPath (caps : Caps) (hversion : cnt.devCgVersion = 1)
    (hmounts : files cnt.procRoot cnt.mountPid .mountinfo = there.entries.map mountText)
    (hlines : files cnt.procRoot cnt.pid .cgroup = there.lines.map cgroupText)
    (rules : ℤ → Str → List Cgroup.DeviceRule → Except String Unit) :
    (Remote.findDeviceCgroupPath caps (procfsApi files rules) cnt).1
      = if (caps.raise .container).isOk ∧ caps.drop.isOk then
          there.procfsMount.bind fun m =>
            if "/..".toList <+: m.root then none
            else there.procfsLine.bind fun l =>
              joined [] [cnt.procRoot, m.mountPoint, strip m.root (dropCR l.path)]
        else none := by
  rw [← crosses_find, pathAchieved, achieved, hversion]
  exact congrArg (fun path => if (caps.raise .container).isOk ∧ caps.drop.isOk then path else none)
    (locate_found hmounts hlines rules)

/-! ## When the two agree -/

/-- What the two builds find, each under its own names: for a root that is cleaned, or that is no
plain text as a format, these are two files.  The mount point the C code takes is absolute. -/
structure Contents (opens : Opens) (files : Files) (cnt : Container) (here there : Found) :
    Prop where
  opens_mountinfo :
    opens (procPath (pathPrefix cnt) cnt.mountPid .mountinfo) = here.entries.map mountText
  opens_cgroup : opens (procPath (pathPrefix cnt) cnt.pid .cgroup) = here.lines.map cgroupText
  mountinfo : files cnt.procRoot cnt.mountPid .mountinfo = there.entries.map mountText
  cgroup : files cnt.procRoot cnt.pid .cgroup = there.lines.map cgroupText
  absolute : ∀ m ∈ here.legacyMount, m.mountPoint.head? = some '/'

/-- The path goes on by `rest` behind the root: the root does not stand at its front, or is `/`, or
`rest` is what stands behind it. -/
inductive Behind (root path : Str) : Str → Prop
  | whole (h : root = ['/'] ∨ ¬ root <+: path) : Behind root path path
  | cut {rest : Str} (hroot : root ≠ ['/']) (h : path = root ++ rest) : Behind root path rest

theorem behind_iff {root path rest : Str} : Behind root path rest ↔ strip root path = rest := by
  simp only [strip, strHasPrefix_iff]
  constructor
  · rintro (h | ⟨hroot, rfl⟩)
    · exact if_neg fun hcut => h.elim hcut.1 fun hnot => hnot hcut.2
    · rw [if_pos ⟨hroot, List.prefix_append root rest⟩, List.drop_left]
  · rintro rfl
    split_ifs with hcut
    · obtain ⟨rest, hrest⟩ := hcut.2
      rw [← hrest, List.drop_left]
      exact .cut hcut.1 rfl
    · exact .whole ((not_and_or.mp hcut).imp_left not_not.mp)

/-- The C code goes by this entry and this line, the first ones it wants, and `rest` is what its
path goes on by: the names of the files fit. -/
structure LegacyTakes (cnt : Container) (here : Found) (m : MountEntry) (l : CgroupLine)
    (rest : Str) : Prop where
  named : Named cnt
  mount : here.legacyMount = some m
  line : here.legacyLine = some l
  behind : Behind m.root l.path rest

/-- The Go code goes by this entry and this line, the first ones it wants, and `rest` is what its
path goes on by: it has its capabilities, the root is not relative, and what is joined fits. -/
structure ProcfsTakes (caps : Caps) (cnt : Container) (there : Found) (m : MountEntry)
    (l : CgroupLine) (rest : Str) : Prop where
  raised : (caps.raise .container).isOk
  dropped : caps.drop.isOk
  mount : there.procfsMount = some m
  inside : ¬ "/..".toList <+: m.root
  line : there.procfsLine = some l
  behind : Behind m.root (dropCR l.path) rest
  fits : (glued (glued (glued [] cnt.procRoot) m.mountPoint) rest).length < PATH_MAX

/-- What goes on behind the mount point begins a component. -/
def Begins (mountPoint rest : Str) : Prop :=
  rest = [] ∨ rest.head? = some '/' ∨ mountPoint.getLast? = some '/'

/-- Of two mount points one lies `d` below the other, at which what goes on begins by `d`. -/
def Nested (mount rest mount' rest' : List Str) : Prop :=
  ∃ d, mount' = mount ++ d ∧ rest = d ++ rest' ∨ mount = mount' ++ d ∧ rest' = d ++ rest

/-- **Two mount points, and what goes on behind them, name one directory.**  The C code writes what
goes on directly behind the mount point `M`: where that begins no component, the last name `x` of
`M` and the first name `g` behind it become the one name `x ++ g`. -/
def Meet (m : MountEntry) (rest : Str) (m' : MountEntry) (rest' : Str) : Prop :=
  Begins m.mountPoint rest ∧
    Nested (components m.mountPoint) (components rest) (components m'.mountPoint)
      (components rest') ∨
  ¬ Begins m.mountPoint rest ∧ ∃ up x g below,
    m.mountPoint = up ++ '/' :: x ∧ '/' ∉ x ∧ rest = g ++ below ∧ '/' ∉ g
    ∧ (below = [] ∨ below.head? = some '/')
    ∧ Nested (components up) ((x ++ g) :: components below) (components m'.mountPoint)
        (components rest')

section Places

variable {mountPoint rest up x g below : Str} {a b c d : List Str}

theorem nested_iff : Nested a b c d ↔ a ++ b = c ++ d := by
  rw [List.append_eq_append_iff, Nested, exists_or]

theorem components_of_begins (h : Begins mountPoint rest) :
    components (mountPoint ++ rest) = components mountPoint ++ components rest := by
  rcases h with rfl | hhead | hlast
  · simp
  · obtain ⟨t, rfl⟩ := List.head?_eq_some_iff.mp hhead
    rw [components_append_slash, components_slash]
  · obtain ⟨t, rfl⟩ := List.getLast?_eq_some_iff.mp hlast
    rw [List.append_assoc, List.singleton_append, components_append_slash, components_append_slash,
      components_nil, List.append_nil]

/-- The two names at the seam become one. -/
theorem components_seam (hx : '/' ∉ x) (hg : '/' ∉ g) (hne : x ++ g ≠ [])
    (hbelow : below = [] ∨ below.head? = some '/') :
    components ((up ++ '/' :: x) ++ (g ++ below))
      = components up ++ (x ++ g) :: components below := by
  have hone : components (x ++ g) = [x ++ g] :=
    components_of_not_mem (fun h => (List.mem_append.mp h).elim hx hg) hne
  have hname : components ((x ++ g) ++ below) = (x ++ g) :: components below := by
    rcases hbelow with rfl | hhead
    · rw [List.append_nil, hone]
      rfl
    · obtain ⟨t, rfl⟩ := List.head?_eq_some_iff.mp hhead
      rw [components_append_slash, hone, components_slash]
      rfl
  rw [List.append_assoc, List.cons_append, ← List.append_assoc x, components_append_slash, hname]

/-- The mount point is cut at its last slash, what goes on at its first. -/
theorem exists_seam (rest : Str) (hmount : mountPoint.head? = some '/') : ∃ up x g below,
    mountPoint = up ++ '/' :: x ∧ '/' ∉ x ∧ rest = g ++ below ∧ '/' ∉ g
      ∧ (below = [] ∨ below.head? = some '/') := by
  obtain ⟨up, x, hcut, hx⟩ := exists_eq_append_slash (List.mem_of_mem_head? hmount)
  by_cases hslash : '/' ∈ rest
  · obtain ⟨t, ht⟩ := exists_eq_token_append hslash
    exact ⟨up, x, token rest, '/' :: t, hcut, hx, ht, slash_notMem_token rest, .inr rfl⟩
  · exact ⟨up, x, rest, [], hcut, hx, (List.append_nil rest).symm, hslash, .inl rfl⟩

/-- Something stands at a seam. -/
theorem seam_ne_nil (h : ¬ Begins (up ++ '/' :: x) (g ++ below)) : x ++ g ≠ [] := by
  intro hnil
  obtain ⟨rfl, rfl⟩ := List.append_eq_nil_iff.mp hnil
  exact h (.inr (.inr (by simp)))

/-- **When they meet.** -/
theorem meet_iff {m m' : MountEntry} {rest rest' : Str} (habs : m.mountPoint.head? = some '/') :
    Meet m rest m' rest' ↔ components (m.mountPoint ++ rest)
      = components m'.mountPoint ++ components rest' := by
  by_cases hbegins : Begins m.mountPoint rest
  · rw [Meet, components_of_begins hbegins, nested_iff]
    simp only [hbegins, true_and, not_true_eq_false, false_and, or_false]
  · have hseam : ∀ {up x g below : Str}, m.mountPoint = up ++ '/' :: x → '/' ∉ x →
        rest = g ++ below → '/' ∉ g → (below = [] ∨ below.head? = some '/') →
        components (m.mountPoint ++ rest)
          = components up ++ (x ++ g) :: components below := by
      intro up x g below hmount hx hrest hg hbelow
      have hne : x ++ g ≠ [] := seam_ne_nil (hmount ▸ hrest ▸ hbegins)
      rw [hmount, hrest, components_seam hx hg hne hbelow]
    simp only [Meet, hbegins, false_and, not_false_eq_true, true_and, false_or]
    constructor
    · rintro ⟨up, x, g, below, hmount, hx, hrest, hg, hbelow, hnested⟩
      rw [hseam hmount hx hrest hg hbelow]
      exact nested_iff.mp hnested
    · intro hsame
      obtain ⟨up, x, g, below, hmount, hx, hrest, hg, hbelow⟩ := exists_seam rest habs
      refine ⟨up, x, g, below, hmount, hx, hrest, hg, hbelow, nested_iff.mpr ?_⟩
      rw [← hseam hmount hx hrest hg hbelow]
      exact hsame

end Places

/-! ### What each build returns -/

/-- **Joining paths succeeds where they fit.** -/
theorem joined_eq (root mount rest : Str) : joined [] [root, mount, rest]
    = if (glued (glued (glued [] root) mount) rest).length < PATH_MAX
      then some (glued (glued (glued [] root) mount) rest) else none := by
  have hstep {buf path : Str} (hbuf : buf.length < PATH_MAX) :
      (if (pathAppend buf path).1 then some (pathAppend buf path).2 else none)
        = if (glued buf path).length < PATH_MAX then some (glued buf path) else none := by
    rw [pathAppend_eq hbuf, appended_eq_glued]
    split_ifs <;> simp_all
  have hnil : ([] : Str).length < PATH_MAX := by decide
  have hle := length_le_glued (glued [] root) mount
  have hle' := length_le_glued (glued (glued [] root) mount) rest
  simp only [joined, List.foldlM_cons, List.foldlM_nil, hstep hnil, Option.bind_eq_bind]
  by_cases hroot : (glued [] root).length < PATH_MAX
  · by_cases hmount : (glued (glued [] root) mount).length < PATH_MAX
    · simp only [hroot, if_true, Option.bind_some, hstep hroot, hmount, hstep hmount]
      split_ifs <;> rfl
    · simp only [hroot, if_true, Option.bind_some, hstep hroot, hmount, if_false, Option.bind_none,
        if_neg (show ¬ (glued (glued (glued [] root) mount) rest).length < PATH_MAX by omega)]
  · simp only [hroot, if_false, Option.bind_none,
      if_neg (show ¬ (glued (glued (glued [] root) mount) rest).length < PATH_MAX by omega)]

/-- **What the C code finds**: the prefix, the mount point and the rest of the path. -/
theorem legacy_eq_some_iff (h : Contents opens files cnt here there) {d : Str} :
    (findDeviceCgroupPath opens cnt).toOption = some d ↔
      ∃ m l rest, LegacyTakes cnt here m l rest
        ∧ pathPrefix cnt ++ m.mountPoint ++ rest = d := by
  rw [findDeviceCgroupPath_toOption h.opens_mountinfo h.opens_cgroup]
  simp only [Option.ite_none_right_eq_some, Option.bind_eq_some_iff, Option.map_eq_some_iff]
  constructor
  · rintro ⟨hnamed, m, hm, l, hl, hd⟩
    exact ⟨m, l, _, ⟨hnamed, hm, hl, behind_iff.mpr rfl⟩, hd⟩
  · rintro ⟨m, l, rest, ⟨hnamed, hm, hl, hrest⟩, hd⟩
    exact ⟨hnamed, m, hm, l, hl, by rwa [behind_iff.mp hrest]⟩

/-- **What the Go code finds**: the parts, joined. -/
theorem procfs_eq_some_iff (caps : Caps) (hversion : cnt.devCgVersion = 1)
    (h : Contents opens files cnt here there)
    (rules : ℤ → Str → List Cgroup.DeviceRule → Except String Unit) {d : Str} :
    (Remote.findDeviceCgroupPath caps (procfsApi files rules) cnt).1 = some d ↔
      ∃ m l rest, ProcfsTakes caps cnt there m l rest
        ∧ glued (glued (glued [] cnt.procRoot) m.mountPoint) rest = d := by
  rw [procfs_findDeviceCgroupPath caps hversion h.mountinfo h.cgroup]
  simp only [Option.ite_none_right_eq_some, Option.ite_none_left_eq_some, Option.bind_eq_some_iff,
    joined_eq, Option.some_inj]
  constructor
  · rintro ⟨⟨hraise, hdrop⟩, m, hm, hrel, l, hl, hfits, hd⟩
    exact ⟨m, l, _, ⟨hraise, hdrop, hm, hrel, hl, behind_iff.mpr rfl, hfits⟩, hd⟩
  · rintro ⟨m, l, rest, ⟨hraise, hdrop, hm, hrel, hl, hrest, hfits⟩, hd⟩
    rw [← behind_iff.mp hrest] at hfits hd
    exact ⟨⟨hraise, hdrop⟩, m, hm, hrel, l, hl, hfits, hd⟩

/-- Both sides start from the same directory. -/
theorem components_pathPrefix (cnt : Container) :
    components (pathPrefix cnt) = components cnt.procRoot := by
  rw [pathPrefix, Container.procRoot]
  split_ifs
  · rfl
  · rfl

/-- The two paths are of one directory where mount points and rests meet. -/
theorem components_eq_iff {m m' : MountEntry} {rest rest' : Str}
    (habs : m.mountPoint.head? = some '/') :
    components (pathPrefix cnt ++ m.mountPoint ++ rest)
        = components (glued (glued (glued [] cnt.procRoot) m'.mountPoint) rest') ↔
      Meet m rest m' rest' := by
  have hfront : components (pathPrefix cnt ++ m.mountPoint ++ rest)
      = components cnt.procRoot ++ components (m.mountPoint ++ rest) := by
    obtain ⟨t, ht⟩ := List.head?_eq_some_iff.mp habs
    rw [List.append_assoc, ht, List.cons_append, components_append_slash, components_slash,
      components_pathPrefix]
  rw [hfront, components_glued, components_glued, components_glued, components_nil,
    List.nil_append, List.append_assoc, List.append_cancel_left_eq, meet_iff habs]

theorem map_eq_map_iff {α β : Type} {f : α → β} {a b : Option α} :
    a.map f = b.map f ↔
      a = none ∧ b = none ∨ ∃ x y, a = some x ∧ b = some y ∧ f x = f y := by
  constructor
  · intro h
    cases a with
    | none => exact .inl ⟨rfl, Option.map_eq_none_iff.mp h.symm⟩
    | some x =>
      obtain ⟨y, hy, hxy⟩ := Option.map_eq_some_iff.mp h.symm
      exact .inr ⟨x, y, rfl, hy, hxy.symm⟩
  · rintro (⟨rfl, rfl⟩ | ⟨x, y, rfl, rfl, hxy⟩)
    · rfl
    · exact congrArg some hxy

end Files

/-! ## Two hosts -/

/-- Files of these contents, under the names of the C code. -/
def opensOf (cgroup mountinfo : Str) : Opens := fun path =>
  .ok (if "cgroup".toList <:+ path then cgroup else mountinfo)

/-- The files of the usual host. -/
def podOpens : Opens := opensOf (cgroupText hybridLines) (mountText [podMount])

/-- The files of a pod on a hybrid system. -/
def podFiles : Files := filesOf (cgroupText hybridLines) (mountText [podMount])

/-- The files hold a mount and the lines of a pod. -/
theorem contents_pod : Contents podOpens podFiles podContainer ⟨.ok [podMount], .ok hybridLines⟩
    ⟨.ok [podMount], .ok hybridLines⟩ :=
  ⟨by rfl, by rfl, by rfl, by rfl, by decide⟩

/-- `cpu` and `devices` in one hierarchy, mounted under both names. -/
def sharedMount : MountEntry :=
  ⟨"32".toList, "25".toList, "0:28".toList, "/".toList, "/sys/fs/cgroup/cpu,devices".toList,
    "rw".toList, ["shared:9".toList], "cgroup".toList, "cgroup".toList, "rw,cpu,devices".toList,
    by decide⟩

/-- The files of a host that has them so. -/
def sharedOpens : Opens := opensOf (cgroupText sharedLines) (mountText [sharedMount])

/-- The files of a pod whose controllers share a hierarchy. -/
def sharedFiles : Files := filesOf (cgroupText sharedLines) (mountText [sharedMount])

theorem contents_shared :
    Contents sharedOpens sharedFiles podContainer ⟨.ok [sharedMount], .ok sharedLines⟩
      ⟨.ok [sharedMount], .ok sharedLines⟩ :=
  ⟨by rfl, by rfl, by rfl, by rfl, by decide⟩

end Legacy
