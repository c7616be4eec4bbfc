import XdxContainer.Cgroup.Procfs

/-!
# Cgroup/Locate — whether the directory found is the container's own cgroup

    mountinfo:  root R, mount point M          cgroup:  path C
    C = R ++ D  (component by component)  ──▸  <proc_root> / M / D

`find_device_cgroup_path` of the nvcgo build, for both cgroup versions, on files the kernel can have
written.  The code takes R off C as a text, looks at `..` in R only, and loses a carriage return at
the end of C.  `findDeviceCgroupPath_own_iff` says which pairs R, C that goes well for.
-/

open Paths Lines Remote

namespace Procfs

/-! ## The grammar of the mountinfo file -/

/-- A line of `/proc/PID/mountinfo`. -/
structure MountEntry where
  mountId : Str
  parentId : Str
  device : Str
  root : Str
  mountPoint : Str
  options : Str
  tags : List Str
  fsType : Str
  source : Str
  superOptions : Str
  fields_ok : ∀ f ∈ [mountId, parentId, device, root, mountPoint, options] ++ tags
    ++ [fsType, source, superOptions], ' ' ∉ f ∧ '\n' ∉ f

namespace MountEntry

/-- The fields before the last one. -/
def fields (m : MountEntry) : List Str :=
  [m.mountId, m.parentId, m.device, m.root, m.mountPoint, m.options] ++ m.tags
    ++ [['-'], m.fsType, m.source]

/-- The line of `mountinfo`. -/
def text (m : MountEntry) : Str := [' '].intercalate m.fields ++ ' ' :: m.superOptions

theorem mem_fields_ok (m : MountEntry) {f : Str} (hf : f ∈ m.fields) : ' ' ∉ f ∧ '\n' ∉ f := by
  by_cases hdash : f = ['-']
  · subst hdash
    decide
  · refine m.fields_ok f ?_
    simp only [fields, List.mem_append, List.mem_cons, List.not_mem_nil, or_false] at hf ⊢
    tauto

theorem superOptions_ok (m : MountEntry) : ' ' ∉ m.superOptions ∧ '\n' ∉ m.superOptions :=
  m.fields_ok m.superOptions (by simp)

/-- The text of an entry is one line. -/
theorem newline_not_mem_text (m : MountEntry) : '\n' ∉ m.text := by
  have hfields : '\n' ∉ [' '].intercalate m.fields :=
    not_mem_intercalate (by decide) fun f hf => (m.mem_fields_ok hf).2
  simp [text, hfields, m.superOptions_ok.2]

/-- The parts the loop sees of the line. -/
theorem splitOn_text (m : MountEntry) :
    (dropCR m.text).splitOn ' ' = m.fields ++ [dropCR m.superOptions] := by
  have hne : m.fields ≠ [] := by simp [fields]
  rw [text, dropCR_append_cons _ (by decide), List.splitOn_append_cons_self,
    List.splitOn_intercalate ' ' (fun f hf => (m.mem_fields_ok hf).1) hne,
    List.splitOn_eq_singleton (not_mem_dropCR m.superOptions_ok.1)]

/-- The fourth field is the root. -/
theorem part_three (m : MountEntry) (last : Str) : (m.fields ++ [last])[3]? = some m.root := by
  simp [fields]

/-- The fifth field is the mount point. -/
theorem part_four (m : MountEntry) (last : Str) :
    (m.fields ++ [last])[4]? = some m.mountPoint := by
  simp [fields]

theorem length_parts (m : MountEntry) (last : Str) :
    (m.fields ++ [last]).length = m.tags.length + 10 := by
  simp [fields]

theorem part_fsType (m : MountEntry) (last : Str) :
    (m.fields ++ [last])[(m.fields ++ [last]).length - 3]? = some m.fsType := by
  rw [length_parts]
  simp [fields]

end MountEntry

/-- The text of a mountinfo file. -/
def mountText (ms : List MountEntry) : Str := unlines (ms.map MountEntry.text)

/-- The entries before the first one that is too long for the scanner. -/
def scannedMounts (ms : List MountEntry) : List MountEntry := ms.takeWhile (Short ·.text)

/-- The lines that are read of a `mountinfo` file. -/
theorem scanLines_mountText (ms : List MountEntry) :
    scanLines (mountText ms) = (scannedMounts ms).map (dropCR ·.text) := by
  have hlines : ∀ l ∈ ms.map MountEntry.text, '\n' ∉ l := by
    intro l hl
    obtain ⟨m, -, rfl⟩ := List.mem_map.mp hl
    exact m.newline_not_mem_text
  rw [mountText, scanLines_unlines hlines, List.takeWhile_map, List.map_map]
  rfl

/-! ## The two searches on such files -/

/-- What the search in mountinfo comes to: the first wanted entry, unless its root is relative. -/
theorem mountPathIn_entries (fsType : Str) (wanted : Str → Bool) (missing : String)
    (ms : List MountEntry) :
    (mountPathIn fsType wanted missing (ms.map (dropCR ·.text))).toOption
      = (ms.find? fun m => m.fsType = fsType ∧ wanted m.mountPoint).bind fun m =>
          if "/..".toList <+: m.root then none else some (m.root, m.mountPoint) := by
  induction ms with
  | nil => rfl
  | cons m ms ih =>
    have hlen : ¬ (m.fields ++ [dropCR m.superOptions]).length < 5 := by
      rw [m.length_parts]
      omega
    rw [List.map_cons, mountPathIn, m.splitOn_text]
    simp only [hlen, if_false, m.part_fsType, m.part_three, m.part_four, Option.getD_some]
    by_cases htype : m.fsType = fsType
    · cases hw : wanted m.mountPoint with
      | false => simp [htype, hw, ih]
      | true =>
        simp [htype, hw]
        split_ifs <;> rfl
    · simp [htype, ih]

/-- What the search in the cgroup file comes to: the path of the first line of the subsystem, the
prefix taken off. -/
theorem rootPathIn_lines (subsystem : Str) (missing : String) (mountPrefix : Str)
    (ls : List CgroupLine) :
    (rootPathIn subsystem missing mountPrefix (ls.map (dropCR ·.text))).toOption
      = (ls.find? fun l => l.list = subsystem).map fun l =>
          if mountPrefix = ['/'] then dropCR l.path
          else trimPrefix (dropCR l.path) mountPrefix := by
  induction ls with
  | nil => rfl
  | cons l ls ih =>
    rw [List.map_cons, rootPathIn, l.splitN_text]
    by_cases hlist : l.list = subsystem
    · simp [hlist]
      split_ifs <;> rfl
    · simp [hlist, ih]

/-! ## Where a container stands -/

/-- The text of a path the kernel writes. -/
def kernelPath (cs : List Str) : Str := if cs = [] then ['/'] else render cs

/-- Components as they stand in paths. -/
def Proper (cs : List Str) : Prop := ∀ c ∈ cs, c ≠ [] ∧ '/' ∉ c

namespace Version

/-- The number `find_device_cgroup_path` is called with. -/
def number : Version → ℤ
  | .v1 => 1
  | .v2 => 2

/-- The entries of the cgroup file system a version looks for. -/
def mounts (m : MountEntry) : Version → Bool
  | .v1 => m.fsType = "cgroup".toList ∧ base m.mountPoint = devices
  | .v2 => m.fsType = "cgroup2".toList

/-- The lines of the cgroup file a version looks for. -/
def lists (l : CgroupLine) : Version → Bool
  | .v1 => l.list = devices
  | .v2 => l.list = []

end Version

/-- What the files say about a container: the mount of its cgroup file system with root R and mount
point M, and the cgroup path C of its process. -/
structure Site (files : Files) (cnt : Container) where
  version : Version
  mounts : List MountEntry
  lines : List CgroupLine
  mount : MountEntry
  line : CgroupLine
  root : List Str
  cgroup : List Str
  version_eq : cnt.devCgVersion = version.number
  mountinfo_eq : files cnt.procRoot cnt.mountPid .mountinfo = .ok (mountText mounts)
  cgroup_eq : files cnt.procRoot cnt.pid .cgroup = .ok (cgroupText lines)
  mount_found : (scannedMounts mounts).find? version.mounts = some mount
  line_found : (scanned lines).find? version.lists = some line
  root_eq : mount.root = kernelPath root
  path_eq : line.path = kernelPath cgroup
  root_proper : Proper root
  cgroup_proper : Proper cgroup

namespace Site

variable {files : Files} {cnt : Container} (site : Site files cnt)

/-- C is at or below R. -/
def Below : Prop := dotdot ∉ site.cgroup ∧ site.root <+: site.cgroup

/-- The directory is the root of `/proc` joined with M and what C has behind R. -/
def Leads (d : Str) : Prop :=
  ∃ rest, components rest = site.cgroup.drop site.root.length ∧
    joined [] [cnt.procRoot, site.mount.mountPoint, rest] = some d

/-- C with the text of R taken off its front where it stands there. -/
def trimmed : Str :=
  if site.root = [] then dropCR site.line.path
  else trimPrefix (dropCR site.line.path) site.mount.root

/-! ## What the call computes -/

/-- **The mount that is found** is the first one for the controller. -/
theorem mountPath_toOption (version : Version) (ms : List MountEntry) (root : Str) (pid : ℤ)
    (hfile : files root pid .mountinfo = .ok (mountText ms)) :
    (version.getDeviceCGroupMountPath files root pid).toOption
      = ((scannedMounts ms).find? version.mounts).bind fun m =>
          if "/..".toList <+: m.root then none else some (m.root, m.mountPoint) := by
  cases version with
  | v1 =>
    rw [Version.getDeviceCGroupMountPath, hfile]
    change (mountPathIn _ _ _ (scanLines (mountText ms))).toOption = _
    rw [scanLines_mountText, mountPathIn_entries]
    simp only [Version.mounts, decide_eq_true_eq]
  | v2 =>
    rw [Version.getDeviceCGroupMountPath, hfile]
    change (mountPathIn _ _ _ (scanLines (mountText ms))).toOption = _
    rw [scanLines_mountText, mountPathIn_entries]
    simp only [Version.mounts, and_true]

/-- **The path that is found** is the one of the first line for the controller. -/
theorem rootPath_toOption (version : Version) (ls : List CgroupLine) (root mountPrefix : Str)
    (pid : ℤ) (hfile : files root pid .cgroup = .ok (cgroupText ls)) :
    (version.getDeviceCGroupRootPath files root mountPrefix pid).toOption
      = ((scanned ls).find? version.lists).map fun l =>
          if mountPrefix = ['/'] then dropCR l.path
          else trimPrefix (dropCR l.path) mountPrefix := by
  cases version <;>
    · rw [Version.getDeviceCGroupRootPath, hfile]
      change (rootPathIn _ _ _ (scanLines (cgroupText ls))).toOption = _
      rw [scanLines_cgroupText, rootPathIn_lines]
      rfl

theorem newInterface_number (version : Version) : newInterface version.number = .ok version := by
  cases version <;> rfl

/-- The two Go calls and the joins, by the entries they go by. -/
theorem locate_entries (version : Version) {ms : List MountEntry} {ls : List CgroupLine}
    {root : Str} {mpPid rpPid : ℤ} (hmounts : files root mpPid .mountinfo = .ok (mountText ms))
    (hlines : files root rpPid .cgroup = .ok (cgroupText ls))
    (rules : ℤ → Str → List Cgroup.DeviceRule → Except String Unit) :
    locate (procfsApi files rules) version.number root mpPid rpPid
      = ((scannedMounts ms).find? version.mounts).bind fun m =>
          if "/..".toList <+: m.root then none
          else ((scanned ls).find? version.lists).bind fun l =>
            joined [] [root, m.mountPoint,
              if m.root = ['/'] then dropCR l.path else trimPrefix (dropCR l.path) m.root] := by
  have hmount := mountPath_toOption version ms root mpPid hmounts
  have hroot := fun R => rootPath_toOption version ls root R rpPid hlines
  simp only [locate, procfsApi, newInterface_number]
  change (version.getDeviceCGroupMountPath files root mpPid).toOption.bind _ = _
  rw [hmount]
  cases (scannedMounts ms).find? version.mounts with
  | none => rfl
  | some m =>
    by_cases hrel : "/..".toList <+: m.root
    · simp only [Option.bind_some, if_pos hrel, Option.bind_none]
    · simp only [Option.bind_some, if_neg hrel]
      change (version.getDeviceCGroupRootPath files root m.root rpPid).toOption.bind _ = _
      rw [hroot]
      cases (scanned ls).find? version.lists <;> rfl

theorem kernelPath_eq_slash_iff {cs : List Str} (hcs : Proper cs) :
    kernelPath cs = ['/'] ↔ cs = [] := by
  constructor
  · intro h
    by_contra hne
    rw [kernelPath, if_neg hne] at h
    have hcomp := components_render hcs
    rw [h] at hcomp
    exact hne hcomp.symm
  · rintro rfl
    rfl

/-- The two Go calls and the joins, on the files of the container. -/
theorem locate_eq (rules : ℤ → Str → List Cgroup.DeviceRule → Except String Unit) :
    locate (procfsApi files rules) cnt.devCgVersion cnt.procRoot cnt.mountPid cnt.pid
      = if "/..".toList <+: site.mount.root then none
        else joined [] [cnt.procRoot, site.mount.mountPoint, site.trimmed] := by
  have hslash : site.mount.root = ['/'] ↔ site.root = [] := by
    rw [site.root_eq, kernelPath_eq_slash_iff site.root_proper]
  rw [site.version_eq, locate_entries site.version site.mountinfo_eq site.cgroup_eq,
    site.mount_found, Option.bind_some, site.line_found, Option.bind_some]
  simp only [hslash, trimmed]

/-- What the client returns. -/
theorem findDeviceCgroupPath_eq (caps : Caps)
    (rules : ℤ → Str → List Cgroup.DeviceRule → Except String Unit) :
    (findDeviceCgroupPath caps (procfsApi files rules) cnt).1
      = if (caps.raise .container).isOk ∧ caps.drop.isOk ∧ ¬ "/..".toList <+: site.mount.root
        then joined [] [cnt.procRoot, site.mount.mountPoint, site.trimmed] else none := by
  rw [← crosses_find, pathAchieved, achieved, site.locate_eq rules]
  split_ifs <;> simp_all

/-! ## Taking R off C -/

/-- The components of a path the kernel prints. -/
theorem components_kernelPath {cs : List Str} (hcs : Proper cs) :
    components (kernelPath cs) = cs := by
  unfold kernelPath
  split
  · next h => rw [h]; rfl
  · exact components_render hcs

/-- The components of a joined path. -/
theorem components_joined {p q r d : Str} (h : joined [] [p, q, r] = some d) :
    components d = components p ++ components q ++ components r := by
  have step : ∀ {buf path s : Str}, (if (pathAppend buf path).1 then some (pathAppend buf path).2
      else none) = some s → components s = components buf ++ components path := by
    intro buf path s hs
    split_ifs at hs with hok
    exact (pathAppend_ok (Prod.ext hok (Option.some.inj hs))).1
  simp only [joined, List.foldlM_cons, List.foldlM_nil, Option.bind_eq_bind,
    Option.bind_eq_some_iff] at h
  obtain ⟨a, ha, b, hb, c, hc, hd⟩ := h
  obtain rfl : c = d := Option.some.inj hd
  rw [step hc, step hb, step ha]
  rfl

/-- Where C is below R and does not end in a carriage return, what is left of it is the rest. -/
theorem components_trimmed (hbelow : site.root <+: site.cgroup)
    (hcr : site.line.path.getLast? ≠ some '\r') :
    components site.trimmed = site.cgroup.drop site.root.length := by
  obtain ⟨D, hD⟩ := hbelow
  have hDproper : Proper D := fun c hc => site.cgroup_proper c (by simp [← hD, hc])
  rw [trimmed, dropCR_eq_self hcr, site.path_eq]
  split_ifs with hroot
  · rw [components_kernelPath site.cgroup_proper, hroot]
    rfl
  · have hne : site.cgroup ≠ [] := by
      rw [← hD]
      simp [hroot]
    rw [site.root_eq, kernelPath, kernelPath, if_neg hne, if_neg hroot, ← hD, render_append,
      trimPrefix_append, components_render hDproper, List.drop_left]

/-- A text whose components are those of the text with a carriage return behind it. -/
theorem not_components_snoc (q : Str) : components q ≠ components (q ++ ['\r']) := by
  intro h
  have hflat := congrArg List.flatten h
  rw [flatten_components, flatten_components, List.filter_append] at hflat
  have hlen := congrArg List.length hflat
  simp at hlen

theorem eq_singleton_of_flatten {cs : List Str} (hcs : Proper cs) (h : cs.flatten = ['\r']) :
    cs = [['\r']] := by
  cases cs with
  | nil => simp at h
  | cons c cs =>
    have hc := (hcs c List.mem_cons_self).1
    obtain ⟨x, c', rfl⟩ := List.exists_cons_of_ne_nil hc
    rw [List.flatten_cons, List.cons_append, List.cons_eq_cons, List.append_eq_nil_iff] at h
    obtain ⟨rfl, rfl, htail⟩ := h
    cases cs with
    | nil => rfl
    | cons d ds =>
      have hd := (hcs d (by simp)).1
      rw [List.flatten_cons, List.append_eq_nil_iff] at htail
      exact absurd htail.1 hd

/-- Where C ends in a carriage return, what is left of it is the rest only if R and C are nothing
but that. -/
theorem eq_of_components_trimmed (hbelow : site.root <+: site.cgroup)
    (hcr : site.line.path.getLast? = some '\r')
    (h : components site.trimmed = site.cgroup.drop site.root.length) :
    site.root = [['\r']] ∧ site.cgroup = [['\r']] := by
  obtain ⟨D, hD⟩ := hbelow
  have hDproper : Proper D := fun c hc => site.cgroup_proper c (by simp [← hD, hc])
  obtain ⟨q, hq⟩ := List.getLast?_eq_some_iff.mp hcr
  have hcut : dropCR site.line.path = q := by
    rw [dropCR, if_pos hcr, hq, List.dropLast_concat]
  have hcomp : components (q ++ ['\r']) = site.cgroup := by
    rw [← hq, site.path_eq, components_kernelPath site.cgroup_proper]
  have hne : site.cgroup ≠ [] := by
    intro hnil
    rw [site.path_eq, hnil] at hcr
    revert hcr
    decide
  have hroot : site.root ≠ [] := by
    intro hnil
    rw [trimmed, if_pos hnil, hcut, hnil, List.length_nil, List.drop_zero, ← hcomp] at h
    exact not_components_snoc q h
  have htext : q ++ ['\r'] = render site.root ++ render D := by
    rw [← hq, site.path_eq, kernelPath, if_neg hne, ← render_append, hD]
  rw [trimmed, if_neg hroot, hcut, site.root_eq, kernelPath, if_neg hroot, ← hD,
    List.drop_left] at h
  rcases List.eq_nil_or_concat (render D) with hnil | ⟨t, x, ht⟩
  · -- nothing of C is behind R: R itself ends in the carriage return and stays on
    have hDnil : D = [] := by
      rw [← components_render hDproper, hnil]
      rfl
    have hlonger : ¬ render site.root <+: q := by
      intro hpre
      have hlen := hpre.length_le
      rw [hnil, List.append_nil] at htext
      rw [← htext, List.length_append, List.length_singleton] at hlen
      omega
    rw [trimPrefix_of_not hlonger, hDnil] at h
    have hflat : site.cgroup.flatten = ['\r'] := by
      rw [← hcomp, flatten_components, List.filter_append, ← flatten_components, h]
      rfl
    have hcg := eq_singleton_of_flatten site.cgroup_proper hflat
    rw [hDnil, List.append_nil] at hD
    exact ⟨hD.trans hcg, hcg⟩
  · rw [List.concat_eq_append] at ht
    rw [ht, ← List.append_assoc] at htext
    have hqt : q = render site.root ++ t := List.append_inj_left' htext rfl
    obtain rfl : '\r' = x := by simpa using List.append_inj_right' htext rfl
    rw [hqt, trimPrefix_append] at h
    refine absurd ?_ (not_components_snoc t)
    rw [h, ← ht, components_render hDproper]

/-- **The directory found is the container's own** exactly when C is at or below R, without `..` and
without a carriage return at its end; else the call has to fail for another reason: its
capabilities, a relative R, or a path that does not fit. -/
theorem findDeviceCgroupPath_own_iff (caps : Caps)
    (rules : ℤ → Str → List Cgroup.DeviceRule → Except String Unit) :
    (∀ d, (findDeviceCgroupPath caps (procfsApi files rules) cnt).1 = some d →
        site.Below ∧ site.Leads d) ↔
      (site.Below ∧ (site.line.path.getLast? ≠ some '\r' ∨
          site.root = [['\r']] ∧ site.cgroup = [['\r']])) ∨
        ¬ ((caps.raise .container).isOk ∧ caps.drop.isOk) ∨ "/..".toList <+: site.mount.root ∨
        joined [] [cnt.procRoot, site.mount.mountPoint, site.trimmed] = none := by
  rw [site.findDeviceCgroupPath_eq caps rules]
  constructor
  · intro hall
    by_contra hnot
    obtain ⟨hown, hcaps, hrel, hfits⟩ : ¬ (site.Below ∧ _) ∧ _ ∧ _ ∧ _ := by
      simpa only [not_or, not_not] using hnot
    obtain ⟨d, hd⟩ := Option.ne_none_iff_exists'.mp hfits
    rw [if_pos ⟨hcaps.1, hcaps.2, hrel⟩] at hall
    obtain ⟨hbelow, rest, hrest, hjoin⟩ := hall d hd
    have htrim : components site.trimmed = site.cgroup.drop site.root.length := by
      have hcomp := (components_joined hd).symm.trans (components_joined hjoin)
      rw [← hrest]
      exact List.append_cancel_left hcomp
    refine hown ⟨hbelow, or_iff_not_imp_left.mpr fun hcr => ?_⟩
    exact site.eq_of_components_trimmed hbelow.2 (not_not.mp hcr) htrim
  · rintro hcond d hd
    obtain ⟨⟨hraise, hdrop, hrel⟩, hd⟩ := Option.ite_none_right_eq_some.mp hd
    rcases hcond with ⟨hbelow, hcr⟩ | hcaps | hrel' | hnone
    · refine ⟨hbelow, site.trimmed, ?_, hd⟩
      rcases hcr with hcr | ⟨hR, hC⟩
      · exact site.components_trimmed hbelow.2 hcr
      · have hpath : site.line.path = "/\r".toList := by rw [site.path_eq, hC]; decide
        have hmroot : site.mount.root = "/\r".toList := by rw [site.root_eq, hR]; decide
        rw [trimmed, hpath, hmroot, hR, hC]
        decide
    · exact absurd ⟨hraise, hdrop⟩ hcaps
    · exact absurd hrel' hrel
    · rw [hnone] at hd
      cases hd

end Site

/-- The devices hierarchy of `/pod1`, mounted in the namespace of a reader inside it. -/
def podMount : MountEntry :=
  ⟨"32".toList, "25".toList, "0:28".toList, "/pod1".toList, "/sys/fs/cgroup/devices".toList,
    "ro".toList, [], "cgroup".toList, "cgroup".toList, "rw,devices".toList, by decide⟩

theorem hierarchyId_four : ':' ∉ ['4'] ∧ '\n' ∉ ['4'] := by decide

theorem controllers_devices :
    ∀ c ∈ [devices], c ≠ [] ∧ ',' ∉ c ∧ ':' ∉ c ∧ '\n' ∉ c := by decide

/-- A process of the sibling `/pod10`. -/
def siblingLine : CgroupLine :=
  ⟨['4'], [devices], "/pod10/c".toList, hierarchyId_four, controllers_devices, by decide⟩

/-- The files of a process in the sibling `/pod10`. -/
def siblingFiles : Files := filesOf (cgroupText [siblingLine]) (mountText [podMount])

/-- A supervised container on a version 1 host. -/
def podContainer : Container := ⟨false, "/c".toList, 7, 1, [], 5⟩

/-- They are a site, with the mount of `/pod1`. -/
def siblingSite : Site siblingFiles podContainer where
  version := .v1
  mounts := [podMount]
  lines := [siblingLine]
  mount := podMount
  line := siblingLine
  root := ["pod1".toList]
  cgroup := ["pod10".toList, "c".toList]
  version_eq := rfl
  mountinfo_eq := rfl
  cgroup_eq := rfl
  mount_found := rfl
  line_found := rfl
  root_eq := by decide
  path_eq := by decide
  root_proper := by unfold Proper; decide
  cgroup_proper := by unfold Proper; decide

/-- The process is in `/pod10`, not below `/pod1`, and the call finds a directory all the same:
`0/c` below the mount point. -/
theorem findDeviceCgroupPath_sibling :
    (findDeviceCgroupPath grantedCaps (procfsApi siblingFiles fun _ _ _ => .ok ()) podContainer).1
        = some "/sys/fs/cgroup/devices/0/c".toList ∧
      ¬ siblingSite.Below := by
  refine ⟨?_, ?_⟩
  · rw [siblingSite.findDeviceCgroupPath_eq]
    decide
  · unfold Site.Below
    decide

end Procfs
