import XdxContainer.Cli.SelectDevices

/-!
# Cli/Tokens — what a device token is resolved by

    "0,MIG-…"  ──strsep──▸  "0" ▸ "MIG-…"        the UUID is compared two characters into the token
                                ╰── dev + 2        of a token of one character: behind it

A run gives a token what comes after it in the list, and the memory behind the list.  The GPU picked
for the token ought to depend on neither.

* `ownCharacters_iff` — it does not, exactly for the tokens of two or more characters, and where it
  makes no difference.
-/

open Paths Scan

namespace Cli

/-- What `strsep` cuts out of the list, and the loop does not skip. -/
structure Token where
  text : Str
  text_ne : text ≠ []
  comma_free : ',' ∉ text

/-- A place where a token stands: a list that contains it, and the memory behind the list. -/
structure Place (t : Token) where
  devs : Str
  beyond : Str
  before : List Str
  after : List Str
  tokens_eq : tokens (some devs) = before ++ t.text :: after

variable {info : DeviceInfo} {t : Token}

/-- The GPU `select_gpu_device` picks for the token there. -/
def Place.pick (info : DeviceInfo) (p : Place t) : Option Gpu :=
  findGpuDevice info t.text (twoIn p.beyond t.text p.after)

/-- **A token is resolved by its own characters only.** -/
def OwnCharacters (info : DeviceInfo) (t : Token) : Prop :=
  ∀ p q : Place t, p.pick info = q.pick info

/-- The token is the whole list, and this text is in memory behind it. -/
def Place.alone (t : Token) (beyond : Str) : Place t where
  devs := t.text
  beyond := beyond
  before := []
  after := []
  tokens_eq := List.splitOn_eq_singleton t.comma_free

/-! ## What a token is resolved by -/

/-- The GPU with a UUID. -/
def withUuid (info : DeviceInfo) (uuid : Str) : Option Gpu :=
  info.gpus.findIdx? fun g => g.uuid.length = uuid.length && strCaseEqual g.uuid uuid

/-- The GPU the text of a token names otherwise: by its bus ID or its index. -/
def named (info : DeviceInfo) (dev : Str) : Option Gpu :=
  ((matchesPciFormat dev (NVML_DEVICE_PCI_BUS_ID_BUFFER_SIZE + 1)).bind fun buf =>
      info.gpus.findIdx? fun g => strnCaseEqual g.busid buf buf.length)
    <|> if (strtoumax dev).2 = [] ∧ (strtoumax dev).1 < 2 ^ 64 - 1
        ∧ (strtoumax dev).1 < info.gpus.length then some (strtoumax dev).1 else none

/-- A GPU is found by its UUID, or else by its bus ID or index. -/
theorem findGpuDevice_eq (info : DeviceInfo) (dev uuid : Str) :
    findGpuDevice info dev uuid = (withUuid info uuid <|> named info dev) := rfl

/-- A token of two characters is picked by its own. -/
theorem pick_eq_of_two_le (h : 2 ≤ t.text.length) (p : Place t) :
    p.pick info = findGpuDevice info t.text (t.text.drop 2) := by
  rw [Place.pick, twoIn, if_pos h]

/-- A shorter token is compared with what is behind it. -/
theorem pick_alone (h : t.text.length < 2) (uuid : Str) :
    (Place.alone t uuid).pick info = (withUuid info uuid <|> named info t.text) := by
  rw [Place.pick, twoIn, if_neg (Nat.not_le_of_lt h), findGpuDevice_eq]
  rfl

theorem named_singleton (info : DeviceInfo) (c : Char) :
    named info [c] = if (strtoumax [c]).2 = [] ∧ (strtoumax [c]).1 < 2 ^ 64 - 1
      ∧ (strtoumax [c]).1 < info.gpus.length then some (strtoumax [c]).1 else none := by
  rw [named, matchesPciFormat, scanBusId_singleton]
  rfl

/-- The only token of one character that names the first GPU. -/
theorem eq_zero_of_named {c : Char} (h : named info [c] = some 0) : c = '0' := by
  rw [named_singleton, Option.ite_none_right_eq_some] at h
  exact eq_zero_of_strtoumax (Prod.ext (Option.some.inj h.2) h.1.1)

/-- UUIDs of one length that differ in case only. -/
theorem withUuid_eq (info : DeviceInfo) (uuid : Str) :
    withUuid info uuid = info.gpus.findIdx? fun g => strCaseEqual g.uuid uuid := by
  refine congrArg (List.findIdx? · info.gpus) (funext fun g => ?_)
  rw [Bool.and_eq_right_iff_imp]
  intro h
  have hlen := congrArg List.length (of_decide_eq_true h)
  rw [List.length_map, List.length_map] at hlen
  exact decide_eq_true hlen

/-- Some text is no GPU's UUID. -/
theorem exists_withUuid_eq_none (info : DeviceInfo) : ∃ uuid, withUuid info uuid = none := by
  refine ⟨'x' :: (info.gpus.map (·.uuid)).flatten, List.findIdx?_eq_none_iff.mpr fun g hg => ?_⟩
  have hle := (List.sublist_flatten_of_mem (List.mem_map_of_mem (f := (·.uuid)) hg)).length_le
  rw [Bool.and_eq_false_iff]
  refine .inl (decide_eq_false ?_)
  rw [List.length_cons]
  omega

/-- Two UUIDs that are read as the same. -/
def SameUuid (g g' : Device) : Prop := strCaseEqual g.uuid g'.uuid = true

theorem sameUuid_iff {g g' : Device} : SameUuid g g' ↔ g.uuid.map toLower = g'.uuid.map toLower :=
  decide_eq_true_iff

/-- A token of one character that is resolved by it only is the index of the first GPU, and every
GPU has the UUID of the first. -/
theorem zero_of_ownCharacters (hown : OwnCharacters info t) {c : Char} (htext : t.text = [c])
    {g₀ : Device} {gs : List Device} (hgpus : info.gpus = g₀ :: gs) :
    c = '0' ∧ ∀ g ∈ info.gpus, SameUuid g₀ g := by
  obtain ⟨uuid₀, hnone⟩ := exists_withUuid_eq_none info
  have hone : t.text.length < 2 := by
    rw [htext]
    exact Nat.one_lt_two
  have hpick : ∀ uuid, (withUuid info uuid <|> named info [c]) = named info [c] := by
    intro uuid
    have h := hown (Place.alone t uuid) (Place.alone t uuid₀)
    rw [pick_alone hone, pick_alone hone, hnone, htext] at h
    exact h
  have hfirst : withUuid info g₀.uuid = some 0 := by
    have hself : strCaseEqual g₀.uuid g₀.uuid = true := sameUuid_iff.mpr rfl
    rw [withUuid_eq, hgpus, List.findIdx?_cons, if_pos hself]
  have hzero : named info [c] = some 0 := by
    rw [← hpick g₀.uuid, hfirst]
    rfl
  refine ⟨eq_zero_of_named hzero, fun g hg => ?_⟩
  rcases hfind : withUuid info g.uuid with _ | k
  · rw [withUuid_eq, List.findIdx?_eq_none_iff] at hfind
    exact absurd (sameUuid_iff.mpr rfl) (Bool.eq_false_iff.mp (hfind g hg))
  · have hk := hpick g.uuid
    rw [hfind, hzero] at hk
    obtain rfl : k = 0 := Option.some.inj hk
    rw [withUuid_eq, hgpus, List.findIdx?_cons] at hfind
    split_ifs at hfind with hsame
    · exact hsame
    · obtain ⟨i, -, hi⟩ := Option.map_eq_some_iff.mp hfind
      exact absurd hi (Nat.succ_ne_zero i)

theorem pick_of_no_gpus (hgpus : info.gpus = []) (p : Place t) :
    p.pick info = named info t.text := by
  rw [Place.pick, findGpuDevice_eq, withUuid_eq, hgpus, List.findIdx?_nil]
  rfl

/-- Where all GPUs have one UUID, the index of the first one picks it whatever text is behind it. -/
theorem pick_zero (htext : t.text = ['0']) (hne : info.gpus ≠ [])
    (hsame : ∀ g ∈ info.gpus, ∀ g' ∈ info.gpus, SameUuid g g') (p : Place t) :
    p.pick info = some 0 := by
  obtain ⟨g₀, gs, hgpus⟩ := List.exists_cons_of_ne_nil hne
  have hzero : named info ['0'] = some 0 := by
    have hread : strtoumax ['0'] = (0, []) := by decide
    rw [named_singleton, hread, hgpus]
    exact if_pos ⟨rfl, by decide, Nat.succ_pos _⟩
  rw [Place.pick, findGpuDevice_eq, withUuid_eq, htext, hzero]
  generalize twoIn p.beyond ['0'] p.after = uuid
  rcases hfind : info.gpus.findIdx? (fun g => strCaseEqual g.uuid uuid) with _ | k
  · rw [hfind]
    rfl
  · obtain ⟨hk, hmatch, -⟩ := List.findIdx?_eq_some_iff_getElem.mp hfind
    have hmatch₀ : strCaseEqual g₀.uuid uuid = true := by
      have hfirst := hsame g₀ (hgpus ▸ List.mem_cons_self) _ (List.getElem_mem hk)
      exact decide_eq_true ((sameUuid_iff.mp hfirst).trans (of_decide_eq_true hmatch))
    rw [hgpus, List.findIdx?_cons, if_pos hmatch₀]
    rfl

/-- **When a token is resolved by its own characters**: when it has two or more of them, or there is
no GPU, or it is the index of the first GPU and all GPUs have one UUID. -/
theorem ownCharacters_iff (info : DeviceInfo) (t : Token) :
    OwnCharacters info t ↔ 2 ≤ t.text.length ∨ info.gpus = []
      ∨ t.text = ['0'] ∧ ∀ g ∈ info.gpus, ∀ g' ∈ info.gpus, SameUuid g g' := by
  constructor
  · intro hown
    refine or_iff_not_imp_left.mpr fun hone => or_iff_not_imp_left.mpr fun hgpus => ?_
    obtain ⟨g₀, gs, hgpus⟩ := List.exists_cons_of_ne_nil hgpus
    have hlen : t.text.length = 1 := by
      have hpos := List.length_pos_iff.mpr t.text_ne
      omega
    obtain ⟨c, htext⟩ := List.length_eq_one_iff.mp hlen
    obtain ⟨rfl, hsame⟩ := zero_of_ownCharacters hown htext hgpus
    refine ⟨htext, fun g hg g' hg' => ?_⟩
    exact sameUuid_iff.mpr
      ((sameUuid_iff.mp (hsame g hg)).symm.trans (sameUuid_iff.mp (hsame g' hg')))
  · rintro (htwo | hgpus | ⟨htext, hsame⟩) p q
    · rw [pick_eq_of_two_le htwo, pick_eq_of_two_le htwo]
    · rw [pick_of_no_gpus hgpus, pick_of_no_gpus hgpus]
    · by_cases hgpus : info.gpus = []
      · rw [pick_of_no_gpus hgpus, pick_of_no_gpus hgpus]
      · rw [pick_zero htext hgpus hsame, pick_zero htext hgpus hsame]

/-- The token `1`. -/
def tokenOne : Token := ⟨['1'], by decide, by decide⟩

/-- The token `1` in the list `1,a`. -/
def beforeA : Place tokenOne := ⟨['1', ',', 'a'], [], [], [['a']], by decide⟩

/-- **`1` picks the first GPU where `a` follows**, which is its UUID, and the second one alone. -/
theorem ownCharacters_tokenOne :
    beforeA.pick twoGpus = some 0 ∧ (Place.alone tokenOne []).pick twoGpus = some 1
      ∧ ¬OwnCharacters twoGpus tokenOne := by
  have hbefore : beforeA.pick twoGpus = some 0 := by decide +kernel
  have halone : (Place.alone tokenOne []).pick twoGpus = some 1 := by decide +kernel
  refine ⟨hbefore, halone, fun hown => ?_⟩
  have h := hown beforeA (Place.alone tokenOne [])
  rw [hbefore, halone] at h
  cases h

end Cli
