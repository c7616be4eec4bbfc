import XdxContainer.Cgroup.Remote
import XdxContainer.Text.Lines

/-!
# Cgroup/Procfs — where the Go library looks for the device cgroup

    /proc/PID/cgroup     "4:devices:/pod1/c"           ──▸  version, and the path of the process
    /proc/PID/mountinfo  "… /pod1 /sys/fs/cgroup/… - cgroup …"  ──▸  root and mount point

`GetDeviceCGroupVersion` of `api.go`, and the two path functions of `v1.go` and `v2.go`, which
differ only in the entries they look for.  `procfsApi` puts them behind the exported functions of
`main.go`.

* `getDeviceCGroupVersion_iff` — the version is that of the file's grammar, except where `devices`
  shares its hierarchy with other controllers.
-/

open Paths Lines Remote

namespace Procfs

/-! ## The files -/

/-- The files of a process that are read. -/
inductive ProcFile
  | cgroup
  | mountinfo
  deriving DecidableEq, Repr

/-- `os.Open` and the contents, or the text of the error, of the name the Go code makes of a root
and a process: `fmt.Sprintf(filepath.Join(root, "proc", "%v", file), pid)`. -/
abbrev Files := (root : Str) → (pid : ℤ) → ProcFile → Except String Str

/-- The name of the controller. -/
def devices : Str := "devices".toList

/-! ## api.go -/

/-- The controller field of a line of the cgroup file. -/
def controllerField (line : Str) : Except String Str :=
  match splitN ':' 3 line with
  | [_, controllers, _] => .ok controllers
  | _ => .error ("malformed cgroup entry: " ++ String.ofList line)

/-- `GetDeviceCGroupVersion`. -/
def getDeviceCGroupVersion (files : Files) (rootPath : Str) (pid : ℤ) : Except String ℤ := do
  let text ← (files rootPath pid .cgroup).mapError fun e =>
    "failed to open cgroup path for pid '" ++ toString pid ++ "': " ++ e
  let found ← (scanLines text).mapM controllerField
  if devices ∈ found then return 1
  if [] ∈ found then return 2
  .error "no devices or unified cgroup entries found"

/-! ## v1.go and v2.go -/

/-- The loop of `GetDeviceCGroupMountPath`: the first entry of the file system type whose mount
point is wanted. -/
def mountPathIn (fsType : Str) (wanted : Str → Bool) (missing : String) :
    List Str → Except String (Str × Str)
  | [] => .error missing
  | line :: lines =>
    let parts := line.splitOn ' '
    if parts.length < 5 then .error ("malformed mountinfo entry: " ++ String.ofList line)
    else if parts[parts.length - 3]? ≠ some fsType then mountPathIn fsType wanted missing lines
    else if !wanted (parts[4]?.getD []) then mountPathIn fsType wanted missing lines
    else if "/..".toList <+: parts[3]?.getD [] then
      .error ("relative path in mount prefix: " ++ String.ofList (parts[3]?.getD []))
    else .ok (parts[3]?.getD [], parts[4]?.getD [])

/-- The loop of `GetDeviceCGroupRootPath`: the first entry of the subsystem. -/
def rootPathIn (subsystem : Str) (missing : String) (mountPrefix : Str) :
    List Str → Except String Str
  | [] => .error missing
  | line :: lines =>
    match splitN ':' 3 line with
    | [_, controllers, path] =>
      if controllers ≠ subsystem then rootPathIn subsystem missing mountPrefix lines
      else if mountPrefix = ['/'] then .ok path
      else .ok (trimPrefix path mountPrefix)
    | _ => .error ("malformed cgroup entry: " ++ String.ofList line)

/-- The two implementations of the interface. -/
inductive Version
  | v1
  | v2
  deriving DecidableEq, Repr

/-- `GetDeviceCGroupMountPath`: the root of the mount and its mount point. -/
def Version.getDeviceCGroupMountPath (files : Files) (procRootPath : Str) (pid : ℤ) :
    Version → Except String (Str × Str)
  | .v1 => do
    let text ← files procRootPath pid .mountinfo
    mountPathIn "cgroup".toList (base · = devices)
      "no cgroup filesystem mounted for the devices subsytem in mountinfo file" (scanLines text)
  | .v2 => do
    let text ← files procRootPath pid .mountinfo
    mountPathIn "cgroup2".toList (fun _ => true) "no cgroup2 filesystem in mountinfo file"
      (scanLines text)

/-- `GetDeviceCGroupRootPath`. -/
def Version.getDeviceCGroupRootPath (files : Files) (procRootPath mountPrefix : Str) (pid : ℤ) :
    Version → Except String Str
  | .v1 => do
    let text ← files procRootPath pid .cgroup
    rootPathIn devices "no devices cgroup entries found" mountPrefix (scanLines text)
  | .v2 => do
    let text ← files procRootPath pid .cgroup
    rootPathIn [] "no cgroupv2 entries in file" mountPrefix (scanLines text)

/-! ## main.go -/

/-- `New`, with the text the exported functions put before its error. -/
def newInterface (version : ℤ) : Except String Version :=
  if version = 1 then .ok .v1
  else if version = 2 then .ok .v2
  else .error ("unable to create cgroupv" ++ toString version ++ " interface: invalid version")

/-- The version is 1 or 2. -/
theorem getDeviceCGroupVersion_mem (files : Files) (root : Str) (pid v : ℤ)
    (h : getDeviceCGroupVersion files root pid = .ok v) : v = 1 ∨ v = 2 := by
  obtain ⟨text, -, h⟩ := Except.bind_eq_ok h
  obtain ⟨found, -, h⟩ := Except.bind_eq_ok h
  split_ifs at h
  · exact .inl (Except.ok.inj h).symm
  · exact .inr (Except.ok.inj h).symm

/-- The exported functions over a `/proc`; adding rules is the business of the caller. -/
def procfsApi (files : Files)
    (addDeviceRules : (version : ℤ) → (cgroupPath : Str) → List Cgroup.DeviceRule →
      Except String Unit) : GoApi where
  getDeviceCGroupVersion := getDeviceCGroupVersion files
  getDeviceCGroupMountPath version root pid := do
    (← newInterface version).getDeviceCGroupMountPath files root pid
  getDeviceCGroupRootPath version root mountPrefix pid := do
    (← newInterface version).getDeviceCGroupRootPath files root mountPrefix pid
  addDeviceRules := addDeviceRules
  version_mem := getDeviceCGroupVersion_mem files

/-! ## The grammar of the cgroup file -/

/-- A line `hierarchy-ID:controller-list:cgroup-path`. -/
structure CgroupLine where
  hierarchyId : Str
  controllers : List Str
  path : Str
  hierarchyId_ok : ':' ∉ hierarchyId ∧ '\n' ∉ hierarchyId
  controllers_ok : ∀ c ∈ controllers, c ≠ [] ∧ ',' ∉ c ∧ ':' ∉ c ∧ '\n' ∉ c
  path_ok : '\n' ∉ path

namespace CgroupLine

/-- The controller list as it is written. -/
def list (l : CgroupLine) : Str := [','].intercalate l.controllers

/-- The line of `cgroup`. -/
def text (l : CgroupLine) : Str := l.hierarchyId ++ ':' :: (l.list ++ ':' :: l.path)

theorem colon_not_mem_list (l : CgroupLine) : ':' ∉ l.list :=
  not_mem_intercalate (by decide) fun c hc => (l.controllers_ok c hc).2.2.1

theorem newline_not_mem_text (l : CgroupLine) : '\n' ∉ l.text := by
  have hlist : '\n' ∉ l.list :=
    not_mem_intercalate (by decide) fun c hc => (l.controllers_ok c hc).2.2.2
  simp [text, l.hierarchyId_ok.2, hlist, l.path_ok]

/-- The fields read are those written, up to a carriage return at the end of the path. -/
theorem splitN_text (l : CgroupLine) :
    splitN ':' 3 (dropCR l.text) = [l.hierarchyId, l.list, dropCR l.path] := by
  have hcut : dropCR l.text = l.hierarchyId ++ ':' :: (l.list ++ ':' :: dropCR l.path) := by
    rw [text, dropCR_append_cons _ (by decide), dropCR_append_cons _ (by decide)]
  rw [hcut, splitN_three l.hierarchyId_ok.1 l.colon_not_mem_list]

/-- The second field of a line is its list of controllers. -/
theorem controllerField_text (l : CgroupLine) : controllerField (dropCR l.text) = .ok l.list := by
  rw [controllerField, splitN_text]

/-- The list reads as one name only if it holds that name alone. -/
theorem list_eq_iff (l : CgroupLine) {c : Str} (hc : ',' ∉ c) (hne : c ≠ []) :
    l.list = c ↔ l.controllers = [c] := by
  constructor
  · intro h
    have hcs : l.controllers ≠ [] := by
      intro hnil
      rw [list, hnil] at h
      exact hne h.symm
    rw [← List.splitOn_intercalate ',' (fun d hd => (l.controllers_ok d hd).2.1) hcs, ← list, h,
      List.splitOn_eq_singleton hc]
  · intro h
    rw [list, h, List.intercalate_singleton]

theorem list_eq_nil_iff (l : CgroupLine) : l.list = [] ↔ l.controllers = [] := by
  constructor
  · intro h
    by_contra hcs
    have hsplit := List.splitOn_intercalate ',' (fun d hd => (l.controllers_ok d hd).2.1) hcs
    rw [← list, h, List.splitOn_nil] at hsplit
    exact (l.controllers_ok [] (hsplit ▸ List.mem_singleton_self [])).1 rfl
  · intro h
    rw [list, h]
    rfl

end CgroupLine

/-- The text of a cgroup file. -/
def cgroupText (ls : List CgroupLine) : Str := unlines (ls.map CgroupLine.text)

/-- The lines before the first one that is too long for the scanner. -/
def scanned (ls : List CgroupLine) : List CgroupLine := ls.takeWhile (Short ·.text)

/-- The lines that are read of a `cgroup` file. -/
theorem scanLines_cgroupText (ls : List CgroupLine) :
    scanLines (cgroupText ls) = (scanned ls).map (dropCR ·.text) := by
  have hlines : ∀ l ∈ ls.map CgroupLine.text, '\n' ∉ l := by
    intro l hl
    obtain ⟨k, -, rfl⟩ := List.mem_map.mp hl
    exact k.newline_not_mem_text
  rw [cgroupText, scanLines_unlines hlines, List.takeWhile_map, List.map_map]
  rfl

/-! ## The version -/

/-- The version by the grammar: 1 when some line lists `devices`, else 2 when some line lists
nothing. -/
def grammarVersion (ls : List CgroupLine) : Option ℤ :=
  if ∃ l ∈ ls, devices ∈ l.controllers then some 1
  else if ∃ l ∈ ls, l.controllers = [] then some 2
  else none

/-- The controllers of all lines. -/
theorem mapM_controllerField (ls : List CgroupLine) :
    (ls.map (dropCR ·.text)).mapM controllerField = .ok (ls.map CgroupLine.list) := by
  induction ls with
  | nil => rfl
  | cons l ls ih =>
    rw [List.map_cons, List.mapM_cons, l.controllerField_text, ih]
    rfl

/-- What `GetDeviceCGroupVersion` makes of a well-formed file. -/
theorem getDeviceCGroupVersion_toOption {files : Files} {root : Str} {pid : ℤ}
    {ls : List CgroupLine} (hfile : files root pid .cgroup = .ok (cgroupText ls)) :
    (getDeviceCGroupVersion files root pid).toOption
      = if ∃ l ∈ scanned ls, l.controllers = [devices] then some 1
        else if ∃ l ∈ scanned ls, l.controllers = [] then some 2
        else none := by
  have hdev : devices ∈ (scanned ls).map CgroupLine.list
      ↔ ∃ l ∈ scanned ls, l.controllers = [devices] := by
    simp only [List.mem_map]
    exact exists_congr fun l => and_congr_right fun _ => l.list_eq_iff (by decide) (by decide)
  have hnil : [] ∈ (scanned ls).map CgroupLine.list ↔ ∃ l ∈ scanned ls, l.controllers = [] := by
    simp only [List.mem_map]
    exact exists_congr fun l => and_congr_right fun _ => l.list_eq_nil_iff
  have hrun : getDeviceCGroupVersion files root pid
      = if devices ∈ (scanned ls).map CgroupLine.list then .ok 1
        else if [] ∈ (scanned ls).map CgroupLine.list then .ok 2
        else .error "no devices or unified cgroup entries found" := by
    rw [getDeviceCGroupVersion, hfile, Except.mapError]
    change ((scanLines (cgroupText ls)).mapM controllerField >>= _) = _
    rw [scanLines_cgroupText, mapM_controllerField]
    rfl
  rw [hrun]
  simp only [hdev, hnil]
  split_ifs <;> rfl

/-- **The version follows the grammar** exactly when `devices`, if some line lists it, stands alone
in some line the scanner comes to, and an empty list that decides stands in such a line too. -/
theorem getDeviceCGroupVersion_iff {files : Files} {root : Str} {pid : ℤ} {ls : List CgroupLine}
    (hfile : files root pid .cgroup = .ok (cgroupText ls)) :
    (getDeviceCGroupVersion files root pid).toOption = grammarVersion ls ↔
      ((∃ l ∈ ls, devices ∈ l.controllers) → ∃ l ∈ scanned ls, l.controllers = [devices]) ∧
      ((∀ l ∈ ls, devices ∉ l.controllers) → (∃ l ∈ ls, l.controllers = []) →
        ∃ l ∈ scanned ls, l.controllers = []) := by
  have hsub : ∀ l ∈ scanned ls, l ∈ ls := fun l hl => (List.takeWhile_sublist _).subset hl
  have halone :
      (∃ l ∈ scanned ls, l.controllers = [devices]) → ∃ l ∈ ls, devices ∈ l.controllers := by
    rintro ⟨l, hl, hc⟩
    exact ⟨l, hsub l hl, hc ▸ List.mem_singleton_self devices⟩
  have hempty : (∃ l ∈ scanned ls, l.controllers = []) → ∃ l ∈ ls, l.controllers = [] := by
    rintro ⟨l, hl, hc⟩
    exact ⟨l, hsub l hl, hc⟩
  have hnone : (∀ l ∈ ls, devices ∉ l.controllers) ↔ ¬ ∃ l ∈ ls, devices ∈ l.controllers := by
    simp
  rw [getDeviceCGroupVersion_toOption hfile, grammarVersion, hnone]
  split_ifs with h1 h2 h3 h4 h5 h6 h7 h8
  all_goals simp_all

/-- A version 1 host with an empty unified hierarchy. -/
def hybridLines : List CgroupLine :=
  [⟨['4'], [devices], "/pod1/c".toList, by decide, by decide, by decide⟩,
    ⟨['0'], [], "/pod1/c".toList, by decide, by decide, by decide⟩]

/-- The same host with `cpu` and `devices` mounted together. -/
def sharedLines : List CgroupLine :=
  [⟨['4'], ["cpu".toList, devices], "/pod1/c".toList, by decide, by decide, by decide⟩,
    ⟨['0'], [], "/pod1/c".toList, by decide, by decide, by decide⟩]

/-- A `/proc` in which every process has these cgroups and these mounts. -/
def filesOf (cgroup mountinfo : Str) : Files
  | _, _, .cgroup => .ok cgroup
  | _, _, .mountinfo => .ok mountinfo

/-- On a hybrid system the version is 1. -/
theorem getDeviceCGroupVersion_hybrid :
    (getDeviceCGroupVersion (filesOf (cgroupText hybridLines) []) ['/'] 1).toOption
      = grammarVersion hybridLines :=
  (getDeviceCGroupVersion_iff rfl).mpr ⟨fun _ => by decide, fun h => absurd h (by decide)⟩

/-- Next to an empty unified hierarchy, `cpu,devices` reads as version 2. -/
theorem getDeviceCGroupVersion_shared :
    (getDeviceCGroupVersion (filesOf (cgroupText sharedLines) []) ['/'] 1).toOption = some 2 ∧
      grammarVersion sharedLines = some 1 := by
  refine ⟨?_, by decide⟩
  rw [getDeviceCGroupVersion_toOption rfl]
  decide

end Procfs
