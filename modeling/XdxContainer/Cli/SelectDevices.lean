import XdxContainer.Control.Fallible
import XdxContainer.Data.Roster
import XdxContainer.Text.Scan
import Mathlib.Algebra.GroupWithZero.Nat

/-!
# Cli/SelectDevices — which devices a comma-separated string selects

The functions of `cli/common.c`.  A device is known by its place: a GPU by its index in the device
information, a MIG device by its GPU's and its own, so that equal places are equal pointers.

    "0,MIG-…,1:2"  ──strsep──▸  tokens  ──select_devices──▸  gpus, migs  ──all──▸  MIG-capable gpus

What is selected stays in the arrays (`Selection`): an array holds nothing twice and only what is
available, so that there is always room for what it does not hold.
-/

open Paths Scan Fallible Roster

namespace Cli

/-! ## Devices -/

/-- The index of a GPU. -/
abbrev Gpu := ℕ

/-- The index of a MIG device's GPU, and its own there. -/
abbrev Mig := ℕ × ℕ

/-- `struct nvc_mig_device`, by what the selection looks at. -/
structure MigDevice where
  uuid : Str
  parent : Gpu

/-- `struct nvc_device`, by what the selection looks at. -/
structure Device where
  uuid : Str
  busid : Str
  migCapable : Bool
  migDevices : List MigDevice

/-- `struct nvc_device_info`. -/
structure DeviceInfo where
  gpus : List Device

namespace DeviceInfo

variable (info : DeviceInfo)

/-- The MIG devices of a GPU. -/
def migDevices (g : Gpu) : List MigDevice := ((info.gpus[g]?).map (·.migDevices)).getD []

/-- What is at the place of a MIG device. -/
def mig? (m : Mig) : Option MigDevice := (info.migDevices m.1)[m.2]?

/-- `mig->parent`, of a MIG device that is there. -/
def parent (m : Mig) : Gpu := ((info.mig? m).map (·.parent)).getD 0

/-- `gpu->mig_capable`, of a GPU that is there. -/
def migCapable (g : Gpu) : Bool := (info.gpus[g]?).any (·.migCapable)

/-- `&available->gpus[i]`, for every GPU. -/
def allGpus : List Gpu := List.range info.gpus.length

/-- `&gpu->mig_devices.devices[j]`, for every MIG device of every GPU. -/
def allMigs : List Mig :=
  info.allGpus.flatMap fun i => (List.range (info.migDevices i).length).map fun j => (i, j)

/-- `count_mig_devices`. -/
def countMigDevices : ℕ := (info.gpus.map fun g => g.migDevices.length).sum

/-- The parent of every MIG device is the GPU that owns it. -/
def Owned : Prop := ∀ m d, info.mig? m = some d → d.parent = m.1

end DeviceInfo

/-- `struct devices`. -/
structure Devices where
  all : Bool
  gpus : List Gpu
  maxGpus : ℕ
  migs : List Mig
  maxMigs : ℕ

/-- `new_devices`. -/
def newDevices (dev : DeviceInfo) : Devices where
  all := false
  gpus := []
  maxGpus := dev.gpus.length
  migs := []
  maxMigs := dev.countMigDevices

/-! ## Errors -/

/-- What adding a device fails with. -/
inductive Full
  | gpus | migs
  deriving DecidableEq, Repr

/-- The message of a list that is full. -/
def Full.msg : Full → Str
  | .gpus => "exceeds maximum GPU device count".toList
  | .migs => "exceeds maximum MIG device count".toList

/-- What selecting devices fails with. -/
inductive Failure
  | allGpus (e : Full) | allMigs (e : Full) | gpu (e : Full) | mig (e : Full) | add (e : Full)
  | unknown | migConfig | migMonitor | notAll
  deriving DecidableEq, Repr

/-- The message of a failed selection. -/
def Failure.msg : Failure → Str
  | .allGpus e => "error adding all GPU devices: ".toList ++ e.msg
  | .allMigs e => "error adding all MIG devices: ".toList ++ e.msg
  | .gpu e => "error adding GPU device: ".toList ++ e.msg
  | .mig e => "error adding MIG device: ".toList ++ e.msg
  | .add e => e.msg
  | .unknown => "unknown device".toList
  | .migConfig => "cannot enable mig-config with specific MIG devices selected".toList
  | .migMonitor => "cannot enable mig-monitor with specific MIG devices selected".toList
  | .notAll => "only 'all' devices are currently supported".toList

/-- The token that failed, and why. -/
structure Refused where
  dev : Str
  failure : Failure

/-- The message of a selection that is refused. -/
def Refused.msg (r : Refused) : Str := r.dev ++ ": ".toList ++ r.failure.msg

/-! ## Adding devices -/

/-- `add_gpu_device`. -/
def addGpuDevice (gpu : Gpu) : Prog Full Devices Unit := fun s =>
  match enlist s.maxGpus gpu s.gpus with
  | some gpus => (.ok (), { s with gpus })
  | none => (.error .gpus, s)

/-- `add_mig_device`. -/
def addMigDevice (mig : Mig) : Prog Full Devices Unit := fun s =>
  match enlist s.maxMigs mig s.migs with
  | some migs => (.ok (), { s with migs })
  | none => (.error .migs, s)

/-- `add_gpu_device` of each. -/
def addGpuDevices : List Gpu → Prog Full Devices Unit
  | [] => return
  | gpu :: gpus => do
    addGpuDevice gpu
    addGpuDevices gpus

/-- `add_mig_device` of each. -/
def addMigDevices : List Mig → Prog Full Devices Unit
  | [] => return
  | mig :: migs => do
    addMigDevice mig
    addMigDevices migs

/-- `selected->all = true`. -/
def markAll {ε : Type} : Prog ε Devices Unit := fun s => (.ok (), { s with all := true })

/-! ## Selecting devices -/

section Select

variable (available : DeviceInfo)

/-- `select_all_devices`. -/
def selectAllDevices : Prog Failure Devices Unit := do
  reporting .allGpus (addGpuDevices available.allGpus)
  reporting .allMigs (addMigDevices available.allMigs)

/-- `NVML_DEVICE_PCI_BUS_ID_BUFFER_SIZE`. -/
def NVML_DEVICE_PCI_BUS_ID_BUFFER_SIZE : ℕ := 32

/-- `matches_pci_format`: the bus ID with leading zeros. -/
def matchesPciFormat (gpu : Str) (bufsize : ℕ) : Option Str :=
  (scanBusId gpu).map fun (domainid, busid, deviceid) =>
    (hexPad 8 domainid ++ [':'] ++ hexPad 2 busid ++ [':'] ++ hexPad 2 deviceid ++ ['.', '0']).take
      (bufsize - 1)

/-- The GPU a token names: by its UUID, its bus ID or its index.  `uuid` is the string two
characters into the token. -/
def findGpuDevice (dev uuid : Str) : Option Gpu :=
  let byUuid := available.gpus.findIdx? fun g =>
    g.uuid.length = uuid.length && strCaseEqual g.uuid uuid
  let byBusId := (matchesPciFormat dev (NVML_DEVICE_PCI_BUS_ID_BUFFER_SIZE + 1)).bind fun buf =>
    available.gpus.findIdx? fun g => strnCaseEqual g.busid buf buf.length
  let (n, ptr) := strtoumax dev
  let byIndex := if ptr = [] ∧ n < 2 ^ 64 - 1 ∧ n < available.gpus.length then some n else none
  byUuid <|> byBusId <|> byIndex

/-- `select_gpu_device`. -/
def selectGpuDevice (dev uuid : Str) : Prog Failure Devices (Option Gpu) :=
  match findGpuDevice available dev uuid with
  | none => return none
  | some gpu => do
    reporting .gpu (addGpuDevice gpu)
    return some gpu

/-- The MIG device a token names: by its UUID or by two indices. -/
def findMigDevice (dev : Str) : Option Mig :=
  let byUuid :=
    if strnCaseEqual dev "MIG-".toList 4 ∧ 4 < dev.length then
      available.allMigs.find? fun m => (available.mig? m).any fun d =>
        d.uuid.length = dev.length && strCaseEqual d.uuid dev
    else none
  let byIndex := (scanPair dev).bind fun (i, j) =>
    if i < available.gpus.length ∧ j < (available.migDevices i).length then some (i, j) else none
  byUuid <|> byIndex

/-- `select_mig_device`. -/
def selectMigDevice (dev : Str) : Prog Failure Devices (Option Mig) :=
  match findMigDevice available dev with
  | none => return none
  | some mig => do
    reporting .mig (addMigDevice mig)
    reporting .gpu (addGpuDevice (available.parent mig))
    return some mig

/-- The body of the loop of `select_devices`: whether it goes on. -/
def selectDevice (dev uuid : Str) : Prog Failure Devices Bool :=
  if strCaseEqual dev "all".toList then do
    selectAllDevices available
    markAll
    return false -- `break`
  else do
    match ← selectGpuDevice available dev uuid with
    | some _ => return true
    | none =>
      match ← selectMigDevice available dev with
      | some _ => return true
      | none => attempt .unknown fun s => (false, s)
                return true

/-- The string two characters into a token: behind a token of one character it is what has not been
split yet, or what is in memory behind the string. -/
def twoIn (beyond dev : Str) (devs : List Str) : Str :=
  if 2 ≤ dev.length then dev.drop 2
  else if devs = [] then beyond else List.intercalate [','] devs

/-- The loop of `select_devices`, over the tokens `strsep` makes. -/
def selectDevices (beyond : Str) : List Str → Prog Refused Devices Unit
  | [] => return
  | dev :: devs =>
    if dev = [] then selectDevices beyond devs
    else do
      let more ← reporting (Refused.mk dev) (selectDevice available dev (twoIn beyond dev devs))
      if more then selectDevices beyond devs else return

/-- The tokens `strsep` makes. -/
def tokens : Option Str → List Str
  | none => []
  | some devs => devs.splitOn ','

/-- The devices after one of the tokens. -/
inductive Reached (beyond : Str) : List Str → Devices → Devices → Prop
  | skip {devs s s'} (h : Reached beyond devs s s') : Reached beyond ([] :: devs) s s'
  | now {dev devs s s' r} (hdev : dev ≠ [])
      (h : selectDevice available dev (twoIn beyond dev devs) s = (r, s')) :
      Reached beyond (dev :: devs) s s'
  | later {dev devs s s' s''} (hdev : dev ≠ [])
      (h : selectDevice available dev (twoIn beyond dev devs) s = (.ok true, s'))
      (hrest : Reached beyond devs s' s'') : Reached beyond (dev :: devs) s s''

/-- `select_mig_config_devices` and `select_mig_monitor_devices`, which differ in what they refuse
with when MIG devices are selected. -/
def selectMigDevices (refusal : Failure) (visible : Devices) : List Str → Prog Refused Devices Unit
  | [] => return
  | dev :: devs =>
    if dev = [] then selectMigDevices refusal visible devs
    else reporting (Refused.mk dev) <|
      if strCaseEqual dev "all".toList then
        if !visible.all && 0 < visible.migs.length then attempt refusal fun s => (false, s)
        else do
          reporting .add (addGpuDevices (visible.gpus.filter available.migCapable))
          reporting .add (addGpuDevices
            ((visible.migs.map available.parent).filter available.migCapable))
          markAll
      else attempt .notAll fun s => (false, s)

/-- `select_mig_config_devices`. -/
def selectMigConfigDevices : (visible : Devices) → List Str → Prog Refused Devices Unit :=
  selectMigDevices available .migConfig

/-- `select_mig_monitor_devices`. -/
def selectMigMonitorDevices : (visible : Devices) → List Str → Prog Refused Devices Unit :=
  selectMigDevices available .migMonitor

end Select

/-! ## What the arrays hold -/

section Selected

variable {info : DeviceInfo} {s s' : Devices} {g : Gpu} {m : Mig}

/-- A GPU of the list is an index into it. -/
theorem mem_allGpus : g ∈ info.allGpus ↔ g < info.gpus.length := List.mem_range

/-- A MIG device of the list is a pair of indices. -/
theorem mem_allMigs :
    m ∈ info.allMigs ↔ m.1 < info.gpus.length ∧ m.2 < (info.migDevices m.1).length := by
  obtain ⟨i, j⟩ := m
  simp only [DeviceInfo.allMigs, List.mem_flatMap, List.mem_map, List.mem_range, mem_allGpus,
    Prod.mk.injEq]
  constructor
  · rintro ⟨i', hi, j', hj, rfl, rfl⟩
    exact ⟨hi, hj⟩
  · rintro ⟨hi, hj⟩
    exact ⟨i, hi, j, hj, rfl, rfl⟩

/-- There is room for every MIG device. -/
theorem length_allMigs : info.allMigs.length = info.countMigDevices := by
  have hlengths : (List.range info.gpus.length).map (fun i => (info.migDevices i).length)
      = info.gpus.map fun g => g.migDevices.length := by
    refine List.ext_getElem (by simp) fun i hi hi' => ?_
    have hlt : i < info.gpus.length := by simpa using hi
    simp [DeviceInfo.migDevices, hlt]
  simp only [DeviceInfo.allMigs, DeviceInfo.allGpus, DeviceInfo.countMigDevices,
    List.length_flatMap, List.length_map, List.length_range, hlengths]

theorem parent_eq (howned : info.Owned) (hm : m ∈ info.allMigs) : info.parent m = m.1 := by
  have hlt := (mem_allMigs.mp hm).2
  have hd : info.mig? m = some (info.migDevices m.1)[m.2] := List.getElem?_eq_getElem hlt
  rw [DeviceInfo.parent, hd]
  exact howned m _ hd

theorem parent_mem (howned : info.Owned) (hm : m ∈ info.allMigs) :
    info.parent m ∈ info.allGpus := by
  rw [parent_eq howned hm, mem_allGpus]
  exact (mem_allMigs.mp hm).1

/-- **The arrays hold nothing twice and only what is available**, and have room for all of it. -/
structure Holds (info : DeviceInfo) (s : Devices) : Prop where
  gpusNodup : s.gpus.Nodup
  gpusAvailable : s.gpus ⊆ info.allGpus
  maxGpus : s.maxGpus = info.gpus.length
  migsNodup : s.migs.Nodup
  migsAvailable : s.migs ⊆ info.allMigs
  maxMigs : s.maxMigs = info.countMigDevices

/-- **What is selected**: the arrays hold the parent of every MIG device, besides. -/
structure Selection (info : DeviceInfo) (s : Devices) : Prop extends Holds info s where
  parents : ∀ m ∈ s.migs, info.parent m ∈ s.gpus

/-- The arrays have room for all devices. -/
theorem holds_newDevices (info : DeviceInfo) : Holds info (newDevices info) :=
  ⟨List.nodup_nil, nofun, rfl, List.nodup_nil, nofun, rfl⟩

theorem selection_newDevices (info : DeviceInfo) : Selection info (newDevices info) :=
  ⟨holds_newDevices info, nofun⟩

namespace Holds

/-- The arrays with GPUs added. -/
theorem withGpus {gs : List Gpu} (h : Holds info s) (hgs : gs ⊆ info.allGpus) :
    Holds info { s with gpus := joinedAll gs s.gpus } where
  gpusNodup := nodup_joinedAll h.gpusNodup
  gpusAvailable _ hg := (mem_joinedAll.mp hg).elim (fun hg => h.gpusAvailable hg) fun hg => hgs hg
  maxGpus := h.maxGpus
  migsNodup := h.migsNodup
  migsAvailable := h.migsAvailable
  maxMigs := h.maxMigs

/-- The arrays with MIG devices added. -/
theorem withMigs {ms : List Mig} (h : Holds info s) (hms : ms ⊆ info.allMigs) :
    Holds info { s with migs := joinedAll ms s.migs } where
  gpusNodup := h.gpusNodup
  gpusAvailable := h.gpusAvailable
  maxGpus := h.maxGpus
  migsNodup := nodup_joinedAll h.migsNodup
  migsAvailable _ hm := (mem_joinedAll.mp hm).elim (fun hm => h.migsAvailable hm) fun hm => hms hm
  maxMigs := h.maxMigs

/-- **There is room for a GPU.** -/
theorem addGpuDevice_eq (h : Holds info s) (hg : g ∈ info.allGpus) :
    addGpuDevice g s = (.ok (), { s with gpus := joinedAll [g] s.gpus }) := by
  have hcap : info.allGpus.length ≤ s.maxGpus :=
    Nat.le_of_eq (List.length_range.trans h.maxGpus.symm)
  rw [addGpuDevice, enlist_eq hcap h.gpusNodup h.gpusAvailable hg]
  rfl

/-- **There is room for a MIG device.** -/
theorem addMigDevice_eq (h : Holds info s) (hm : m ∈ info.allMigs) :
    addMigDevice m s = (.ok (), { s with migs := joinedAll [m] s.migs }) := by
  have hcap : info.allMigs.length ≤ s.maxMigs :=
    Nat.le_of_eq (length_allMigs.trans h.maxMigs.symm)
  rw [addMigDevice, enlist_eq hcap h.migsNodup h.migsAvailable hm]
  rfl

/-- GPUs of the list are added. -/
theorem addGpuDevices_eq {gs : List Gpu} (h : Holds info s) (hgs : gs ⊆ info.allGpus) :
    addGpuDevices gs s = (.ok (), { s with gpus := joinedAll gs s.gpus }) := by
  induction gs generalizing s with
  | nil => rfl
  | cons g gs ih =>
    obtain ⟨hg, hgs⟩ := List.cons_subset.mp hgs
    have hrest := ih (h.withGpus (List.cons_subset.mpr ⟨hg, List.nil_subset _⟩)) hgs
    rw [addGpuDevices, bind_of_ok (h.addGpuDevice_eq hg)]
    exact hrest

/-- MIG devices of the list are added. -/
theorem addMigDevices_eq {ms : List Mig} (h : Holds info s) (hms : ms ⊆ info.allMigs) :
    addMigDevices ms s = (.ok (), { s with migs := joinedAll ms s.migs }) := by
  induction ms generalizing s with
  | nil => rfl
  | cons m ms ih =>
    obtain ⟨hm, hms⟩ := List.cons_subset.mp hms
    have hrest := ih (h.withMigs (List.cons_subset.mpr ⟨hm, List.nil_subset _⟩)) hms
    rw [addMigDevices, bind_of_ok (h.addMigDevice_eq hm)]
    exact hrest

end Holds

/-! ## One token -/

/-- What is found is in the list. -/
theorem findGpuDevice_mem {dev uuid : Str} (h : findGpuDevice info dev uuid = some g) :
    g ∈ info.allGpus := by
  have hidx {p : Device → Bool} (hg : info.gpus.findIdx? p = some g) : g < info.gpus.length :=
    (List.findIdx?_eq_some_iff_getElem.mp hg).1
  rw [mem_allGpus]
  simp only [findGpuDevice, Option.orElse_eq_orElse, Option.orElse_eq_or,
    Option.or_eq_some_iff] at h
  rcases h with h | ⟨-, h | ⟨-, h⟩⟩
  · exact hidx h
  · obtain ⟨buf, -, h⟩ := Option.bind_eq_some_iff.mp h
    exact hidx h
  · split_ifs at h with hn
    exact Option.some.inj h ▸ hn.2.2

theorem findMigDevice_mem {dev : Str} (h : findMigDevice info dev = some m) : m ∈ info.allMigs := by
  simp only [findMigDevice, Option.orElse_eq_orElse, Option.orElse_eq_or,
    Option.or_eq_some_iff] at h
  rcases h with h | ⟨-, h⟩
  · split_ifs at h
    exact List.mem_of_find?_eq_some h
  · obtain ⟨⟨i, j⟩, -, h⟩ := Option.bind_eq_some_iff.mp h
    split_ifs at h with hij
    obtain rfl := Option.some.inj h
    exact mem_allMigs.mpr hij

/-- A GPU that is found is selected. -/
theorem Holds.selectGpuDevice_eq (h : Holds info s) {dev uuid : Str}
    (hgpu : findGpuDevice info dev uuid = some g) :
    selectGpuDevice info dev uuid s
      = (.ok (some g), { s with gpus := joinedAll [g] s.gpus }) := by
  rw [selectGpuDevice, hgpu]
  dsimp only
  rw [bind_of_ok (reporting_of_ok (h.addGpuDevice_eq (findGpuDevice_mem hgpu)))]
  rfl

/-- Where none is found nothing is selected. -/
theorem selectGpuDevice_none {dev uuid : Str} (hgpu : findGpuDevice info dev uuid = none) :
    selectGpuDevice info dev uuid s = (.ok none, s) := by
  rw [selectGpuDevice, hgpu]
  rfl

/-- A MIG device that is found is selected, and its parent with it. -/
theorem Holds.selectMigDevice_eq (howned : info.Owned) (h : Holds info s) {dev : Str}
    (hmig : findMigDevice info dev = some m) :
    selectMigDevice info dev s = (.ok (some m), { s with
      gpus := joinedAll [info.parent m] s.gpus, migs := joinedAll [m] s.migs }) := by
  have hm := findMigDevice_mem hmig
  have hparent := (h.withMigs (List.cons_subset.mpr ⟨hm, List.nil_subset _⟩)).addGpuDevice_eq
    (parent_mem howned hm)
  rw [selectMigDevice, hmig]
  dsimp only
  rw [bind_of_ok (reporting_of_ok (h.addMigDevice_eq hm)), bind_of_ok (reporting_of_ok hparent)]
  rfl

theorem selectMigDevice_none {dev : Str} (hmig : findMigDevice info dev = none) :
    selectMigDevice info dev s = (.ok none, s) := by
  rw [selectMigDevice, hmig]
  rfl

/-- What a token other than `all` does, by what it names. -/
theorem Holds.selectDevice_eq (howned : info.Owned) (h : Holds info s) {dev : Str} (uuid : Str)
    (hall : ¬strCaseEqual dev "all".toList = true) :
    (∀ g, findGpuDevice info dev uuid = some g →
        selectDevice info dev uuid s = (.ok true, { s with gpus := joinedAll [g] s.gpus }))
      ∧ (findGpuDevice info dev uuid = none → ∀ m, findMigDevice info dev = some m →
        selectDevice info dev uuid s = (.ok true, { s with
          gpus := joinedAll [info.parent m] s.gpus, migs := joinedAll [m] s.migs }))
      ∧ (findGpuDevice info dev uuid = none → findMigDevice info dev = none →
        selectDevice info dev uuid s = (.error .unknown, s)) := by
  rw [selectDevice, if_neg hall]
  refine ⟨fun g hgpu => bind_of_ok (h.selectGpuDevice_eq hgpu), fun hgpu m hmig => ?_,
    fun hgpu hmig => ?_⟩
  · rw [bind_of_ok (selectGpuDevice_none hgpu)]
    exact bind_of_ok (h.selectMigDevice_eq howned hmig)
  · rw [bind_of_ok (selectGpuDevice_none hgpu)]
    exact bind_of_ok (selectMigDevice_none hmig)

/-- **What one token does**: the devices it names are added, and its parent if it is a MIG
device. -/
theorem selectDevice_cases (howned : info.Owned) (h : Holds info s) (dev uuid : Str) :
    selectDevice info dev uuid s = (.ok false, { s with
        all := true, gpus := joinedAll info.allGpus s.gpus, migs := joinedAll info.allMigs s.migs })
      ∨ (∃ g ∈ info.allGpus,
        selectDevice info dev uuid s = (.ok true, { s with gpus := joinedAll [g] s.gpus }))
      ∨ (∃ m ∈ info.allMigs, selectDevice info dev uuid s = (.ok true, { s with
        gpus := joinedAll [info.parent m] s.gpus, migs := joinedAll [m] s.migs }))
      ∨ selectDevice info dev uuid s = (.error .unknown, s) := by
  by_cases hall : strCaseEqual dev "all".toList = true
  · refine .inl ?_
    have hgpus := h.addGpuDevices_eq (List.Subset.refl info.allGpus)
    have hmigs := (h.withGpus (List.Subset.refl _)).addMigDevices_eq (List.Subset.refl info.allMigs)
    have hselect : selectAllDevices info s = (.ok (), { s with
        gpus := joinedAll info.allGpus s.gpus, migs := joinedAll info.allMigs s.migs }) := by
      rw [selectAllDevices, bind_of_ok (reporting_of_ok hgpus)]
      exact reporting_of_ok hmigs
    rw [selectDevice, if_pos hall, bind_of_ok hselect]
    rfl
  refine .inr ?_
  obtain ⟨hgpu, hmig, hunknown⟩ := h.selectDevice_eq howned uuid hall
  rcases hg : findGpuDevice info dev uuid with _ | g
  · rcases hm : findMigDevice info dev with _ | m
    · exact .inr (.inr (hunknown hg hm))
    · exact .inr (.inl ⟨m, findMigDevice_mem hm, hmig hg m hm⟩)
  · exact .inl ⟨g, findGpuDevice_mem hg, hgpu g hg⟩

/-- **A token keeps the selection**, and can only be unknown. -/
theorem Selection.selectDevice (howned : info.Owned) (h : Selection info s) {dev uuid : Str}
    {r : Except Failure Bool} (hrun : selectDevice info dev uuid s = (r, s')) :
    Selection info s' ∧ ∀ e, r = .error e → e = .unknown := by
  rcases selectDevice_cases howned h.toHolds dev uuid with
    heq | ⟨g, hg, heq⟩ | ⟨m, hm, heq⟩ | heq
  · obtain ⟨rfl, rfl⟩ := Prod.mk.inj (heq.symm.trans hrun)
    have hholds := (h.withGpus (List.Subset.refl info.allGpus)).withMigs
      (List.Subset.refl info.allMigs)
    refine ⟨⟨⟨hholds.1, hholds.2, hholds.3, hholds.4, hholds.5, hholds.6⟩, fun m hm => ?_⟩, nofun⟩
    exact mem_joinedAll.mpr (.inr (parent_mem howned (hholds.migsAvailable hm)))
  · obtain ⟨rfl, rfl⟩ := Prod.mk.inj (heq.symm.trans hrun)
    refine ⟨⟨h.withGpus (List.cons_subset.mpr ⟨hg, List.nil_subset _⟩), fun m hm => ?_⟩, nofun⟩
    exact mem_joinedAll.mpr (.inl (h.parents m hm))
  · obtain ⟨rfl, rfl⟩ := Prod.mk.inj (heq.symm.trans hrun)
    refine ⟨⟨(h.withGpus (List.cons_subset.mpr ⟨parent_mem howned hm, List.nil_subset _⟩)).withMigs
      (List.cons_subset.mpr ⟨hm, List.nil_subset _⟩), fun m' hm' => ?_⟩, nofun⟩
    rcases mem_joinedAll.mp hm' with hm' | hm'
    · exact mem_joinedAll.mpr (.inl (h.parents m' hm'))
    · rw [List.mem_singleton.mp hm']
      exact mem_joinedAll.mpr (.inr List.mem_cons_self)
  · obtain ⟨rfl, rfl⟩ := Prod.mk.inj (heq.symm.trans hrun)
    exact ⟨h, fun e he => (Except.error.inj he).symm⟩

/-! ## The whole run -/

/-- After every token the selection is kept. -/
theorem Selection.reached (howned : info.Owned) (h : Selection info s) {beyond : Str}
    {devs : List Str} (hrun : Reached info beyond devs s s') : Selection info s' := by
  induction hrun with
  | skip _ ih => exact ih h
  | now _ hrun => exact (h.selectDevice howned hrun).1
  | later _ hrun _ ih => exact ih (h.selectDevice howned hrun).1

theorem Selection.selectDevices (howned : info.Owned) (h : Selection info s) {beyond : Str}
    {devs : List Str} {r : Except Refused Unit}
    (hrun : selectDevices info beyond devs s = (r, s')) :
    Selection info s' ∧ ∀ e, r = .error e → e.failure = .unknown := by
  induction devs generalizing s with
  | nil =>
    obtain ⟨rfl, rfl⟩ := Prod.mk.inj hrun
    exact ⟨h, nofun⟩
  | cons dev devs ih =>
    rw [Cli.selectDevices] at hrun
    split_ifs at hrun with hdev
    · exact ih h hrun
    · rcases hone : Cli.selectDevice info dev (twoIn beyond dev devs) s with ⟨e | more, t⟩
      · have hreport : reporting (Refused.mk dev)
            (Cli.selectDevice info dev (twoIn beyond dev devs)) s = (.error ⟨dev, e⟩, t) := by
          rw [reporting, hone]
        obtain ⟨rfl, rfl⟩ := Prod.mk.inj ((bind_of_error hreport).symm.trans hrun)
        obtain ⟨hsel, hunknown⟩ := h.selectDevice howned hone
        exact ⟨hsel, fun e' he => Except.error.inj he ▸ hunknown e rfl⟩
      · rw [bind_of_ok (reporting_of_ok hone)] at hrun
        have hsel := (h.selectDevice howned hone).1
        split_ifs at hrun
        · exact ih hsel hrun
        · obtain ⟨rfl, rfl⟩ := Prod.mk.inj hrun
          exact ⟨hsel, nofun⟩

/-- **What `all` selects for MIG configuration or monitoring** among the devices selected. -/
theorem Selection.selectMigDevices (h : Selection info s) (refusal : Failure) {devs : List Str}
    {dev : Str} (hfirst : devs.find? (· ≠ []) = some dev)
    (hall : strCaseEqual dev "all".toList = true) :
    selectMigDevices info refusal s devs (newDevices info)
      = if s.all = false ∧ s.migs ≠ [] then (.error ⟨dev, refusal⟩, newDevices info)
        else (.ok (), { newDevices info with
          all := true, gpus := s.gpus.filter info.migCapable }) := by
  induction devs with
  | nil => cases hfirst
  | cons d devs ih =>
    rw [Cli.selectMigDevices]
    by_cases hd : d = []
    · rw [if_pos hd]
      exact ih (by rwa [List.find?_cons_of_neg (by simpa using hd)] at hfirst)
    rw [List.find?_cons_of_pos (by simpa using hd)] at hfirst
    obtain rfl := Option.some.inj hfirst
    rw [if_neg hd, if_pos hall]
    by_cases hrefuse : s.all = false ∧ s.migs ≠ []
    · rw [if_pos hrefuse, if_pos (by simp [hrefuse.1, List.length_pos_iff.mpr hrefuse.2])]
      rfl
    · rw [if_neg hrefuse, if_neg (by simpa [List.length_pos_iff] using hrefuse)]
      have hgs : s.gpus.filter info.migCapable ⊆ info.allGpus :=
        List.Subset.trans (List.filter_subset_self s.gpus) h.gpusAvailable
      have hgpus := (holds_newDevices info).addGpuDevices_eq hgs
      have hnew : joinedAll (s.gpus.filter info.migCapable) (newDevices info).gpus
          = s.gpus.filter info.migCapable :=
        joinedAll_of_disjoint (h.gpusNodup.filter _) nofun
      have hsub : (s.migs.map info.parent).filter info.migCapable
          ⊆ s.gpus.filter info.migCapable := by
        intro g hg
        obtain ⟨hmem, hcap⟩ := List.mem_filter.mp hg
        obtain ⟨m, hm, rfl⟩ := List.mem_map.mp hmem
        exact List.mem_filter.mpr ⟨h.parents m hm, hcap⟩
      have hmigs := ((holds_newDevices info).withGpus hgs).addGpuDevices_eq
        (List.Subset.trans hsub hgs)
      rw [hnew] at hgpus hmigs
      rw [joinedAll_of_subset hsub] at hmigs
      refine reporting_of_ok ?_
      rw [bind_of_ok (reporting_of_ok hgpus), bind_of_ok (reporting_of_ok hmigs)]
      rfl

/-- **Device selection**: after every token, and at the end, nothing is held twice, only what is
available and the parent of every MIG device; no array is ever full; and `all` then configures or
monitors exactly the MIG-capable GPUs selected, unless MIG devices were selected one by one. -/
theorem selectDevices_selection (howned : info.Owned) (beyond : Str) (devs : Option Str) :
    (∀ s, Reached info beyond (tokens devs) (newDevices info) s → Selection info s)
      ∧ ∀ r s, selectDevices info beyond (tokens devs) (newDevices info) = (r, s) →
        Selection info s ∧ (∀ e, r = .error e → e.failure = .unknown)
        ∧ ∀ devs' dev, (tokens devs').find? (· ≠ []) = some dev →
          strCaseEqual dev "all".toList = true →
          (selectMigConfigDevices info s (tokens devs') (newDevices info)
            = if s.all = false ∧ s.migs ≠ [] then (.error ⟨dev, .migConfig⟩, newDevices info)
              else (.ok (), { newDevices info with
                all := true, gpus := s.gpus.filter info.migCapable }))
          ∧ selectMigMonitorDevices info s (tokens devs') (newDevices info)
            = if s.all = false ∧ s.migs ≠ [] then (.error ⟨dev, .migMonitor⟩, newDevices info)
              else (.ok (), { newDevices info with
                all := true, gpus := s.gpus.filter info.migCapable }) := by
  have hstart := selection_newDevices info
  refine ⟨fun s hs => hstart.reached howned hs, fun r s hrun => ?_⟩
  obtain ⟨hsel, hunknown⟩ := hstart.selectDevices howned hrun
  refine ⟨hsel, hunknown, fun devs' dev hfirst hall => ?_⟩
  exact ⟨hsel.selectMigDevices .migConfig hfirst hall,
    hsel.selectMigDevices .migMonitor hfirst hall⟩

end Selected

/-- Two GPUs, the second with a MIG device. -/
def twoGpus : DeviceInfo where
  gpus := [⟨['a'], ['0'], false, []⟩, ⟨['b'], ['1'], true, [⟨['M', 'I', 'G', '-', 'x'], 1⟩]⟩]

theorem twoGpus_owned : twoGpus.Owned := by
  rintro ⟨i, j⟩ d h
  rcases i with _ | _ | i
  · cases h
  · rcases j with _ | j
    · exact Option.some.inj h ▸ rfl
    · cases h
  · cases h

/-- `1:0,0` selects the MIG device, its GPU and the first one. -/
theorem selectDevices_selection_twoGpus :
    selectDevices twoGpus [] (tokens (some ['1', ':', '0', ',', '0'])) (newDevices twoGpus)
        = (.ok (), ⟨false, [1, 0], 2, [(1, 0)], 1⟩)
      ∧ Selection twoGpus ⟨false, [1, 0], 2, [(1, 0)], 1⟩ := by
  have hrun :
      selectDevices twoGpus [] (tokens (some ['1', ':', '0', ',', '0'])) (newDevices twoGpus)
      = (.ok (), ⟨false, [1, 0], 2, [(1, 0)], 1⟩) := rfl
  exact ⟨hrun, ((selectDevices_selection twoGpus_owned [] _).2 _ _ hrun).1⟩

end Cli
