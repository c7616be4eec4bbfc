import Mathlib.Data.Nat.Find
import XdxContainer.Cli.Tokens
import XdxContainer.Text.Numerals

/-!
# Cli/BusIds — the bus IDs the driver prints and the ones a token may be

    address ──driver_get_device_busid──▸ "0000003b:00:00.0" ◂──matches_pci_format── "3B:0:0.0"

The driver prints a GPU's address with leading zeros; a token is read as an address and printed the
same way again, and the GPU whose bus ID starts with that is picked.

* `driverGetDeviceBusid_prefix_iff` — no bus ID starts with another one.
* `selectGpuDevice_busId` — every spelling of an address picks its GPU.
-/

open Paths Scan Fallible Roster

namespace Cli

/-- `xdxml_pci_info_t`. -/
structure PciInfo where
  domain : ℕ
  bus : ℕ
  device : ℕ
  deriving DecidableEq

/-- `driver_get_device_busid_1_svc`. -/
def driverGetDeviceBusid (pci : PciInfo) : Str :=
  hexPad 8 pci.domain ++ [':'] ++ hexPad 2 pci.bus ++ [':'] ++ hexPad 2 pci.device ++ ['.', '0']

/-- The addresses of the GPUs, from which their bus IDs were made. -/
structure Located (info : DeviceInfo) where
  pci : Gpu → PciInfo
  busid : ∀ g (hg : g < info.gpus.length), info.gpus[g].busid = driverGetDeviceBusid (pci g)

/-- The numbers the driver promises. -/
structure PciInfo.InRange (pci : PciInfo) : Prop where
  domain : pci.domain < 2 ^ 32
  bus : pci.bus < 2 ^ 8
  device : pci.device < 2 ^ 5

/-- The string is a spelling `DOMAIN:BUS:DEVICE.0` of the address: hexadecimal numerals, the domain
of at most eight digits, the others of at most two. -/
def PciInfo.Spells (pci : PciInfo) (dev : Str) : Prop :=
  ∃ domain bus device, dev = domain ++ ':' :: (bus ++ ':' :: (device ++ ['.', '0']))
    ∧ (IsNumeral 16 domain ∧ domain.length ≤ 8 ∧ value 16 domain = pci.domain)
    ∧ (IsNumeral 16 bus ∧ bus.length ≤ 2 ∧ value 16 bus = pci.bus)
    ∧ IsNumeral 16 device ∧ device.length ≤ 2 ∧ value 16 device = pci.device

section Text

variable {pci pci' : PciInfo}

theorem driverGetDeviceBusid_eq (pci : PciInfo) : driverGetDeviceBusid pci
    = hexPad 8 pci.domain ++ ':' :: (hexPad 2 pci.bus ++ ':' :: (hexPad 2 pci.device ++ ['.', '0']))
    := by
  simp [driverGetDeviceBusid]

/-- **No bus ID starts with another one.** -/
theorem driverGetDeviceBusid_prefix_iff :
    driverGetDeviceBusid pci <+: driverGetDeviceBusid pci' ↔ pci = pci' := by
  refine ⟨fun ⟨more, hmore⟩ => ?_, fun h => h ▸ List.prefix_refl _⟩
  have hcolon {width n : ℕ} : ':' ∉ hexPad width n :=
    separator_notMem (hexPad_spec width n).1 (.inl rfl)
  have hdot {width n : ℕ} : '.' ∉ hexPad width n :=
    separator_notMem (hexPad_spec width n).1 (.inr rfl)
  rw [driverGetDeviceBusid_eq, driverGetDeviceBusid_eq] at hmore
  simp only [List.append_assoc, List.cons_append] at hmore
  obtain ⟨hdomain, hmore⟩ := append_cons_inj hcolon hcolon hmore
  obtain ⟨hbus, hmore⟩ := append_cons_inj hcolon hcolon hmore
  obtain ⟨hdevice, -⟩ := append_cons_inj hdot hdot hmore
  obtain ⟨d, b, v⟩ := pci
  obtain ⟨d', b', v'⟩ := pci'
  rw [PciInfo.mk.injEq]
  exact ⟨hexPad_injective hdomain, hexPad_injective hbus, hexPad_injective hdevice⟩

theorem toLower_driverGetDeviceBusid (pci : PciInfo) :
    (driverGetDeviceBusid pci).map toLower = driverGetDeviceBusid pci := by
  have hlower {width n : ℕ} : (hexPad width n).map toLower = hexPad width n :=
    (hexPad_spec width n).2.2
  simp only [driverGetDeviceBusid, List.map_append, hlower, List.map_cons, List.map_nil]
  rfl

/-- Bus IDs are compared by their addresses. -/
theorem strnCaseEqual_busid_iff : strnCaseEqual (driverGetDeviceBusid pci')
    (driverGetDeviceBusid pci) (driverGetDeviceBusid pci).length = true ↔ pci = pci' := by
  rw [strnCaseEqual, decide_eq_true_iff, toLower_driverGetDeviceBusid,
    toLower_driverGetDeviceBusid, List.take_length, ← driverGetDeviceBusid_prefix_iff,
    List.prefix_iff_eq_take]
  exact eq_comm

/-- **`matches_pci_format` prints the address it reads** as the driver does. -/
theorem matchesPciFormat_eq (dev : Str) :
    matchesPciFormat dev (NVML_DEVICE_PCI_BUS_ID_BUFFER_SIZE + 1)
      = (scanBusId dev).map fun a => driverGetDeviceBusid ⟨a.1, a.2.1, a.2.2⟩ := by
  rw [matchesPciFormat]
  refine Option.map_congr fun a ha => ?_
  obtain ⟨d, b, v⟩ := a
  obtain ⟨h₁, h₂, h₃⟩ := scanBusId_lt ha
  have hlen (width n : ℕ) (hn : n < 2 ^ 32) (hwidth : width ≤ 8) :
      (hexPad width n).length ≤ 8 := length_hexPad_le (by omega) (by omega) hwidth
  have hdomain := hlen 8 d h₁ (by omega)
  have hbus := hlen 2 b h₂ (by omega)
  have hdevice := hlen 2 v h₃ (by omega)
  refine List.take_of_length_le ?_
  simp only [List.length_append, List.length_cons, List.length_nil,
    NVML_DEVICE_PCI_BUS_ID_BUFFER_SIZE]
  omega

end Text

/-! ## What a token picks by its address -/

section Pick

variable {info : DeviceInfo} {g : Gpu} {pci : PciInfo} {dev : Str}

/-- A spelling of an address in range is read as that address. -/
theorem PciInfo.Spells.scanBusId (h : pci.Spells dev) :
    scanBusId dev = some (pci.domain, pci.bus, pci.device) := by
  obtain ⟨domain, bus, device, rfl, ⟨hdomain, hlen, hd⟩, ⟨hbus, hbus', hb⟩, hdevice, hdevice',
    hv⟩ := h
  have hlt := value_lt hdomain.2
  have hpow : 16 ^ domain.length ≤ 16 ^ 8 := Nat.pow_le_pow_right (by decide) hlen
  have hsmall : value 16 domain < 2 ^ 32 := by omega
  have hrest : Ends 2 device ['.', '0'] := .inr fun c hc => .inr (Option.some.inj hc).symm
  rw [scanBusId_numerals hdomain hbus hbus' hdevice hdevice' hrest, toWord_mod hsmall, hd, hb, hv]

/-- The bus ID the driver prints is a spelling itself. -/
theorem PciInfo.InRange.spells (h : pci.InRange) : pci.Spells (driverGetDeviceBusid pci) := by
  obtain ⟨hdomain, hbus, hdevice⟩ := h
  have hnumeral (width n : ℕ) := hexPad_spec width n
  refine ⟨hexPad 8 pci.domain, hexPad 2 pci.bus, hexPad 2 pci.device,
    driverGetDeviceBusid_eq pci, ⟨(hnumeral 8 _).1, ?_, (hnumeral 8 _).2.1⟩,
    ⟨(hnumeral 2 _).1, ?_, (hnumeral 2 _).2.1⟩, (hnumeral 2 _).1, ?_, (hnumeral 2 _).2.1⟩
  · exact Nat.le_of_eq (length_hexPad (by omega) (by decide))
  · exact Nat.le_of_eq (length_hexPad (by omega) (by decide))
  · exact Nat.le_of_eq (length_hexPad (by omega) (by decide))

/-- The GPU whose bus ID the text of a token stands for. -/
def withBusId (info : DeviceInfo) (dev : Str) : Option Gpu :=
  (matchesPciFormat dev (NVML_DEVICE_PCI_BUS_ID_BUFFER_SIZE + 1)).bind fun buf =>
    info.gpus.findIdx? fun g => strnCaseEqual g.busid buf buf.length

/-- **A token picks a GPU by its bus ID exactly when it is read as the GPU's address**, and the GPU
is the first one there. -/
theorem Located.withBusId_eq_some_iff (hloc : Located info) :
    withBusId info dev = some g ↔ g < info.gpus.length
      ∧ Scan.scanBusId dev = some ((hloc.pci g).domain, (hloc.pci g).bus, (hloc.pci g).device)
      ∧ ∀ g' < g, hloc.pci g' ≠ hloc.pci g := by
  have hmatch (a : ℕ × ℕ × ℕ) (k : ℕ) (hk : k < info.gpus.length) :
      strnCaseEqual info.gpus[k].busid (driverGetDeviceBusid ⟨a.1, a.2.1, a.2.2⟩)
          (driverGetDeviceBusid ⟨a.1, a.2.1, a.2.2⟩).length = true
        ↔ a = ((hloc.pci k).domain, (hloc.pci k).bus, (hloc.pci k).device) := by
    rw [hloc.busid k hk, strnCaseEqual_busid_iff]
    obtain ⟨d, b, v⟩ := a
    simp [← PciInfo.mk.injEq]
  rw [withBusId, matchesPciFormat_eq]
  rcases hscan : Scan.scanBusId dev with _ | a
  · simp
  rw [Option.map_some, Option.bind_some, List.findIdx?_eq_some_iff_getElem]
  constructor
  · rintro ⟨hg, hhit, hfirst⟩
    obtain rfl := (hmatch a g hg).mp hhit
    refine ⟨hg, rfl, fun g' hg' heq => hfirst g' hg' ?_⟩
    rw [hmatch _ g' (Nat.lt_trans hg' hg), heq]
  · rintro ⟨hg, hread, hfirst⟩
    obtain rfl := Option.some.inj hread
    refine ⟨hg, (hmatch _ g hg).mpr rfl, fun g' hg' hhit => hfirst g' hg' ?_⟩
    have heq := (hmatch _ g' (Nat.lt_trans hg' hg)).mp hhit
    simp only [Prod.mk.injEq] at heq
    obtain ⟨hd, hb, hv⟩ := heq
    rcases hpci : hloc.pci g with ⟨d, b, v⟩
    rcases hpci' : hloc.pci g' with ⟨d', b', v'⟩
    rw [hpci, hpci'] at hd hb hv
    rw [PciInfo.mk.injEq]
    exact ⟨hd.symm, hb.symm, hv.symm⟩

/-- The text of a token is read as the address of a GPU. -/
def Located.ReadAsAddress (loc : Located info) (dev : Str) : Prop :=
  ∃ g < info.gpus.length,
    Scan.scanBusId dev = some ((loc.pci g).domain, (loc.pci g).bus, (loc.pci g).device)

/-- A token picks a GPU by its bus ID exactly when it is read as the address of one. -/
theorem Located.withBusId_ne_none_iff (loc : Located info) :
    withBusId info dev ≠ none ↔ loc.ReadAsAddress dev := by
  constructor
  · intro hne
    obtain ⟨g, hg⟩ := Option.ne_none_iff_exists'.mp hne
    obtain ⟨hlt, hscan, -⟩ := loc.withBusId_eq_some_iff.mp hg
    exact ⟨g, hlt, hscan⟩
  · intro hread
    classical
    -- the first GPU that has the address
    obtain ⟨hlt, hscan⟩ := Nat.find_spec hread
    have hfirst : ∀ g' < Nat.find hread, loc.pci g' ≠ loc.pci (Nat.find hread) := by
      intro g' hg' heq
      refine Nat.find_min hread hg' ⟨Nat.lt_trans hg' hlt, ?_⟩
      rw [heq]
      exact hscan
    rw [loc.withBusId_eq_some_iff.mpr ⟨hlt, hscan, hfirst⟩]
    exact Option.some_ne_none _

/-- **Bus IDs decode what the driver encodes**: every spelling of a GPU's address, the bus ID itself
included, picks that GPU, unless it holds a GPU's UUID. -/
theorem selectGpuDevice_busId (loc : Located info)
    (hrange : ∀ g < info.gpus.length, (loc.pci g).InRange)
    (hdistinct : ∀ g < info.gpus.length, ∀ g' < info.gpus.length, loc.pci g = loc.pci g' → g = g')
    (hg : g < info.gpus.length) :
    (loc.pci g).Spells info.gpus[g].busid
      ∧ ∀ dev, (loc.pci g).Spells dev →
        (∀ d ∈ info.gpus, strCaseEqual d.uuid (dev.drop 2) = false) →
        ∀ s, Holds info s → selectGpuDevice info dev (dev.drop 2) s
          = (.ok (some g), { s with gpus := joinedAll [g] s.gpus }) := by
  refine ⟨?_, fun dev hspells huuid s hs => ?_⟩
  · rw [loc.busid g hg]
    exact (hrange g hg).spells
  · have hbus : withBusId info dev = some g := by
      refine loc.withBusId_eq_some_iff.mpr ⟨hg, hspells.scanBusId, fun g' hlt heq => ?_⟩
      exact absurd (hdistinct g' (Nat.lt_trans hlt hg) g hg heq) (Nat.ne_of_lt hlt)
    have hnone : withUuid info (dev.drop 2) = none := by
      rw [withUuid_eq]
      exact List.findIdx?_eq_none_iff.mpr huuid
    have hfind : findGpuDevice info dev (dev.drop 2) = some g := by
      rw [findGpuDevice_eq, hnone, named, ← withBusId, hbus]
      rfl
    exact hs.selectGpuDevice_eq hfind

end Pick

/-- A GPU on bus `5e` and one in domain `3b`. -/
def twoDomains : DeviceInfo where
  gpus := [⟨['a'], driverGetDeviceBusid ⟨0, 0x5e, 0⟩, false, []⟩,
    ⟨['b'], driverGetDeviceBusid ⟨0x3b, 0, 1⟩, false, []⟩]

/-- Their addresses. -/
def Located.twoDomains : Located twoDomains where
  pci g := if g = 0 then ⟨0, 0x5e, 0⟩ else ⟨0x3b, 0, 1⟩
  busid g hg := by
    rcases g with _ | _ | g
    · rfl
    · rfl
    · exact absurd hg (by simp [Cli.twoDomains])

/-- `3B:0:01.0` picks the second one. -/
theorem selectGpuDevice_busId_twoDomains :
    selectGpuDevice twoDomains ['3', 'B', ':', '0', ':', '0', '1', '.', '0']
      [':', '0', ':', '0', '1', '.', '0'] (newDevices twoDomains)
      = (.ok (some 1), ⟨false, [1], 2, [], 0⟩) := by
  have hspells : (Located.twoDomains.pci 1).Spells ['3', 'B', ':', '0', ':', '0', '1', '.', '0'] :=
    ⟨['3', 'B'], ['0'], ['0', '1'], rfl, by decide, by decide, by decide⟩
  have hrange : ∀ g < twoDomains.gpus.length, (Located.twoDomains.pci g).InRange := by
    intro g _
    rcases g with _ | g
    · exact ⟨by decide, by decide, by decide⟩
    · have hsecond : Located.twoDomains.pci (g + 1) = ⟨0x3b, 0, 1⟩ := rfl
      rw [hsecond]
      exact ⟨by decide, by decide, by decide⟩
  have hdistinct : ∀ g < twoDomains.gpus.length, ∀ g' < twoDomains.gpus.length,
      Located.twoDomains.pci g = Located.twoDomains.pci g' → g = g' := by decide
  have huuid : ∀ d ∈ twoDomains.gpus,
      strCaseEqual d.uuid (['3', 'B', ':', '0', ':', '0', '1', '.', '0'].drop 2) = false := by
    intro d hd
    have hall : twoDomains.gpus.all (fun d => !strCaseEqual d.uuid
        (['3', 'B', ':', '0', ':', '0', '1', '.', '0'].drop 2)) = true := by decide
    simpa using List.all_eq_true.mp hall d hd
  exact (selectGpuDevice_busId Located.twoDomains hrange hdistinct (g := 1) (by decide)).2 _ hspells
    huuid _ (holds_newDevices twoDomains)

end Cli
