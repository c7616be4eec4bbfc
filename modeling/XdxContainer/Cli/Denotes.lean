import XdxContainer.Cli.BusIds

/-!
# Cli/Denotes — which tokens select a GPU they do not denote

    token ──UUID──▸ ╮
          ──sscanf──▸ GPU        what a token denotes: a UUID, DOMAIN:BUS:DEVICE.FUNCTION, an index
          ──strtoumax──▸ ╯

Numbers are left to the C library, which reads a token up to where the last conversion ends, and
takes signs and white space.

* `onlyDenoted_iff` — a token selects only what it denotes exactly when it is not one of those.
-/

open Paths Scan

namespace Cli

/-! ## What a token denotes -/

/-- `DOMAIN:BUS:DEVICE.FUNCTION`, hexadecimal numerals: a function of the device at an address. -/
def IsAddress (dev : Str) (pci : PciInfo) (function : ℕ) : Prop :=
  ∃ domain bus device func, dev = domain ++ ':' :: (bus ++ ':' :: (device ++ '.' :: func))
    ∧ (IsNumeral 16 domain ∧ value 16 domain = pci.domain)
    ∧ (IsNumeral 16 bus ∧ value 16 bus = pci.bus)
    ∧ (IsNumeral 16 device ∧ value 16 device = pci.device)
    ∧ IsNumeral 16 func ∧ value 16 func = function

/-- **The token denotes the GPU**: behind its first two characters is the GPU's UUID, or it is the
GPU's address with function 0, or the decimal numeral of its index. -/
def Located.Denotes {info : DeviceInfo} (loc : Located info) (dev : Str) (g : Gpu) : Prop :=
  (∃ d, info.gpus[g]? = some d ∧ strCaseEqual d.uuid (dev.drop 2) = true)
    ∨ IsAddress dev (loc.pci g) 0 ∨ IsNumeral 10 dev ∧ value 10 dev = g

/-- **A token selects a GPU only if it denotes it**, wherever it stands. -/
def OnlyDenoted {info : DeviceInfo} (loc : Located info) (t : Token) : Prop :=
  ∀ (p : Place t) (g : Gpu), p.pick info = some g → loc.Denotes t.text g

/-! ## Which tokens are read too loosely -/

/-- The GPU whose index `strtoumax` reads. -/
def withIndex (info : DeviceInfo) (dev : Str) : Option Gpu :=
  if (strtoumax dev).2 = [] ∧ (strtoumax dev).1 < 2 ^ 64 - 1 ∧ (strtoumax dev).1 < info.gpus.length
    then some (strtoumax dev).1 else none

/-- A bus ID that is read as it is written: hexadecimal numerals `DOMAIN:BUS:DEVICE.FUNCTION`, the
domain in 32 bits, a device that is as large as its first two digits, and function 0. -/
def ProperBusId (dev : Str) : Prop :=
  ∃ domain bus device func, dev = domain ++ ':' :: (bus ++ ':' :: (device ++ '.' :: func))
    ∧ (IsNumeral 16 domain ∧ value 16 domain < 2 ^ 32) ∧ IsNumeral 16 bus
    ∧ (IsNumeral 16 device ∧ value 16 (device.take 2) = value 16 device)
    ∧ IsNumeral 16 func ∧ value 16 func = 0

/-- The text of a token is read as the index of a GPU. -/
def ReadAsIndex (info : DeviceInfo) (dev : Str) : Prop :=
  (strtoumax dev).2 = [] ∧ (strtoumax dev).1 < 2 ^ 64 - 1 ∧ (strtoumax dev).1 < info.gpus.length

/-- **A token that is not read too loosely**: a GPU has its UUID; or it is a proper bus ID if it is
read as the address of a GPU, and a decimal numeral if otherwise as the index of one. -/
def Located.ReadStrictly {info : DeviceInfo} (loc : Located info) (dev : Str) : Prop :=
  (∃ d ∈ info.gpus, strCaseEqual d.uuid (dev.drop 2) = true)
    ∨ (loc.ReadAsAddress dev → ProperBusId dev)
      ∧ (¬loc.ReadAsAddress dev → ReadAsIndex info dev → IsNumeral 10 dev)

section Denotes

variable {info : DeviceInfo} {dev : Str} {g : Gpu}

theorem findGpuDevice_or (info : DeviceInfo) (dev uuid : Str) : findGpuDevice info dev uuid
    = (withUuid info uuid <|> (withBusId info dev <|> withIndex info dev)) := rfl

/-- Some GPU has a UUID exactly when there is one with it. -/
theorem withUuid_ne_none_iff {uuid : Str} :
    withUuid info uuid ≠ none ↔ ∃ d ∈ info.gpus, strCaseEqual d.uuid uuid = true := by
  rw [withUuid_eq, Ne, List.findIdx?_eq_none_iff]
  push Not
  simp only [Bool.not_eq_false]

theorem withIndex_ne_none_iff : withIndex info dev ≠ none ↔ ReadAsIndex info dev := by
  rw [withIndex, ReadAsIndex]
  split_ifs with hread
  · exact iff_of_true (Option.some_ne_none _) hread
  · exact iff_of_false (not_not.mpr rfl) hread

/-- **A token is read strictly** if some GPU has its UUID, or it is a proper bus ID if one has its
bus ID, and a numeral if one has its index. -/
theorem Located.readStrictly_iff (loc : Located info) : loc.ReadStrictly dev
    ↔ withUuid info (dev.drop 2) ≠ none
      ∨ (withBusId info dev ≠ none → ProperBusId dev)
        ∧ (withBusId info dev = none → withIndex info dev ≠ none → IsNumeral 10 dev) := by
  rw [Located.ReadStrictly, withUuid_ne_none_iff, withIndex_ne_none_iff,
    ← loc.withBusId_ne_none_iff, not_not]

/-- The GPU with a UUID has it. -/
theorem denotes_of_withUuid (loc : Located info) (h : withUuid info (dev.drop 2) = some g) :
    loc.Denotes dev g := by
  rw [withUuid_eq] at h
  obtain ⟨hg, hhit, -⟩ := List.findIdx?_eq_some_iff_getElem.mp h
  exact .inl ⟨info.gpus[g], List.getElem?_eq_getElem hg, hhit⟩

/-- Where no GPU has the UUID, a token denotes a GPU by its address or its index. -/
theorem denotes_iff_of_withUuid (loc : Located info) (h : withUuid info (dev.drop 2) = none) :
    loc.Denotes dev g ↔ IsAddress dev (loc.pci g) 0 ∨ IsNumeral 10 dev ∧ value 10 dev = g := by
  refine or_iff_right ?_
  rintro ⟨d, hd, hhit⟩
  rw [withUuid_eq, List.findIdx?_eq_none_iff] at h
  rw [h d (List.mem_of_getElem? hd)] at hhit
  cases hhit

/-- **A token that is read as a GPU's address is that address exactly when it is a proper one.** -/
theorem isAddress_iff (loc : Located info) (h : withBusId info dev = some g) :
    IsAddress dev (loc.pci g) 0 ↔ ProperBusId dev := by
  obtain ⟨-, hscan, -⟩ := loc.withBusId_eq_some_iff.mp h
  have hread {domain bus device func : Str} (hdomain : IsNumeral 16 domain)
      (hbus : IsNumeral 16 bus) (hdevice : IsNumeral 16 device)
      (hdev : dev = domain ++ ':' :: (bus ++ ':' :: (device ++ '.' :: func))) :
      toWord false (value 16 domain) % 2 ^ 32 = (loc.pci g).domain
        ∧ value 16 bus = (loc.pci g).bus ∧ value 16 (device.take 2) = (loc.pci g).device := by
    rw [hdev, scanBusId_address hdomain hbus hdevice] at hscan
    split_ifs at hscan
    simpa using hscan
  constructor
  · rintro ⟨domain, bus, device, func, hdev, ⟨hdomain, hd⟩, ⟨hbus, -⟩, ⟨hdevice, hv⟩, hfunc, hf⟩
    obtain ⟨-, -, hv'⟩ := hread hdomain hbus hdevice hdev
    have hlt : (loc.pci g).domain < 2 ^ 32 := (scanBusId_lt hscan).1
    exact ⟨domain, bus, device, func, hdev, ⟨hdomain, by omega⟩, hbus, ⟨hdevice, by omega⟩, hfunc,
      hf⟩
  · rintro ⟨domain, bus, device, func, hdev, ⟨hdomain, hd⟩, hbus, ⟨hdevice, hv⟩, hfunc, hf⟩
    obtain ⟨hd', hb', hv'⟩ := hread hdomain hbus hdevice hdev
    rw [toWord_mod hd] at hd'
    exact ⟨domain, bus, device, func, hdev, ⟨hdomain, hd'⟩, ⟨hbus, hb'⟩, ⟨hdevice, by omega⟩,
      hfunc, hf⟩

/-- A token that is read as an index to its end is no address. -/
theorem not_isAddress (h : withIndex info dev = some g) (pci : PciInfo) (function : ℕ) :
    ¬IsAddress dev pci function := by
  rintro ⟨domain, bus, device, func, hdev, -⟩
  rw [withIndex, Option.ite_none_right_eq_some] at h
  have hcolon : ':' ∈ dev := by simp [hdev]
  rcases strtoumax_eq_nil h.1.1 hcolon with hc | hc | hc | hc
  · cases hc
  · cases hc
  · cases hc
  · cases hc

/-- The index a numeral is read as is its value. -/
theorem value_of_withIndex (h : withIndex info dev = some g) (hdev : IsNumeral 10 dev) :
    value 10 dev = g := by
  rw [withIndex, Option.ite_none_right_eq_some, strtoumax_numeral hdev] at h
  obtain ⟨⟨-, hsmall, -⟩, hg⟩ := h
  have hword : toWord false (value 10 dev) = if 2 ^ 64 ≤ value 10 dev then 2 ^ 64 - 1
      else value 10 dev := rfl
  rw [hword] at hsmall hg
  split_ifs at hsmall hg
  · omega
  · exact Option.some.inj hg

/-- **When a token selects only the GPU it denotes**: exactly when it is not read too loosely. -/
theorem onlyDenoted_iff (loc : Located info) (t : Token) (htwo : 2 ≤ t.text.length) :
    OnlyDenoted loc t ↔ loc.ReadStrictly t.text := by
  have hpick (p : Place t) : p.pick info = (withUuid info (t.text.drop 2)
      <|> (withBusId info t.text <|> withIndex info t.text)) := by
    rw [pick_eq_of_two_le htwo, findGpuDevice_or]
  have hall : OnlyDenoted loc t ↔ ∀ g, (withUuid info (t.text.drop 2)
      <|> (withBusId info t.text <|> withIndex info t.text)) = some g → loc.Denotes t.text g := by
    refine ⟨fun h g hg => h (Place.alone t []) g (by rw [hpick, hg]), fun h p g hg => h g ?_⟩
    rw [← hpick p, hg]
  rw [hall, loc.readStrictly_iff]
  rcases huuid : withUuid info (t.text.drop 2) with _ | k
  · rcases hbus : withBusId info t.text with _ | k
    · rcases hindex : withIndex info t.text with _ | k
      · exact iff_of_true nofun (.inr ⟨nofun, nofun⟩)
      · have hdenotes : loc.Denotes t.text k ↔ IsNumeral 10 t.text := by
          rw [denotes_iff_of_withUuid loc huuid, or_iff_right (not_isAddress hindex _ _)]
          exact and_iff_left_of_imp (value_of_withIndex hindex)
        simp [hdenotes]
    · have hdenotes : loc.Denotes t.text k ↔ ProperBusId t.text := by
        have hnot : ¬(IsNumeral 10 t.text ∧ value 10 t.text = k) := by
          rintro ⟨hdecimal, -⟩
          obtain ⟨-, hscan, -⟩ := loc.withBusId_eq_some_iff.mp hbus
          rw [scanBusId_decimal hdecimal] at hscan
          cases hscan
        rw [denotes_iff_of_withUuid loc huuid, or_iff_left hnot, isAddress_iff loc hbus]
      simp [hdenotes]
  · refine iff_of_true (fun g hg => ?_) (.inl nofun)
    obtain rfl := Option.some.inj hg
    exact denotes_of_withUuid loc huuid

end Denotes

/-- The token `0:5e:0.1`. -/
def functionOne : Token := ⟨['0', ':', '5', 'e', ':', '0', '.', '1'], by decide, by decide⟩

/-- **`0:5e:0.1` selects the GPU with function 0**, which it does not denote. -/
theorem not_onlyDenoted : ¬OnlyDenoted Located.twoDomains functionOne := by
  intro honly
  have hpick : (Place.alone functionOne []).pick twoDomains = some 0 := by decide +kernel
  obtain ⟨d, hd, huuid⟩ | ⟨domain, bus, device, func, hdev, ⟨hdomain, -⟩, ⟨hbus, -⟩,
      ⟨hdevice, -⟩, -, hfunc⟩ | ⟨hdecimal, -⟩ := honly _ 0 hpick
  · obtain rfl := Option.some.inj hd
    exact absurd huuid (by decide)
  · have hwritten : functionOne.text
        = ['0'] ++ ':' :: (['5', 'e'] ++ ':' :: (['0'] ++ '.' :: ['1'])) := rfl
    obtain ⟨-, hdev⟩ := append_cons_inj (by simp) (separator_notMem hdomain (.inl rfl))
      (hwritten.symm.trans hdev)
    obtain ⟨-, hdev⟩ := append_cons_inj (by simp) (separator_notMem hbus (.inl rfl)) hdev
    obtain ⟨-, rfl⟩ := append_cons_inj (by simp) (separator_notMem hdevice (.inr rfl)) hdev
    exact absurd hfunc (by decide)
  · exact absurd hdecimal (by decide)

/-- The token `3B:0:1.0`. -/
def functionZero : Token := ⟨['3', 'B', ':', '0', ':', '1', '.', '0'], by decide, by decide⟩

/-- `3B:0:1.0` is a proper bus ID. -/
theorem onlyDenoted_functionZero : OnlyDenoted Located.twoDomains functionZero := by
  have hread : Located.twoDomains.ReadAsAddress functionZero.text := ⟨1, by decide, by decide⟩
  refine (onlyDenoted_iff Located.twoDomains functionZero (by decide)).mpr (.inr ⟨fun _ => ?_,
    fun hnot => absurd hread hnot⟩)
  exact ⟨['3', 'B'], ['0'], ['1'], ['0'], rfl, by decide, by decide, by decide, by decide⟩

end Cli
