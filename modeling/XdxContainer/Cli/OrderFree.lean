import XdxContainer.Cli.SelectDevices

/-!
# Cli/OrderFree — a selection does not depend on the order of its tokens

    "1:0,00,1:0"  ──asked──▸  tokens  ──chosenGpu, chosenMig──▸  devices, each taken once

A token of two or more characters that is not `all` is resolved by itself, so that what a string
selects is what its tokens name: all of it, or nothing if one of them is unknown.

* `selectDevices_orderFree` — two strings of the same tokens select the same devices, or both fail;
  the GPUs stand in the order in which they were named first.
-/

open Paths Scan Fallible Roster

namespace Cli

/-- The tokens of a device string that are not skipped. -/
def asked (devs : Option Str) : List Str := (tokens devs).filter (· ≠ [])

/-- Every token has two or more characters, and none is `all`. -/
structure Plain (toks : List Str) : Prop where
  two_le : ∀ dev ∈ toks, dev ≠ [] → 2 ≤ dev.length
  not_all : ∀ dev ∈ toks, ¬strCaseEqual dev "all".toList = true

section Chosen

variable (info : DeviceInfo)

/-- The GPU that is selected for a token: the one it names, or the parent of the MIG device. -/
def chosenGpu (dev : Str) : Option Gpu :=
  findGpuDevice info dev (dev.drop 2) <|> (findMigDevice info dev).map info.parent

/-- The MIG device that is selected for a token: the one it names, if it names no GPU. -/
def chosenMig (dev : Str) : Option Mig :=
  if (findGpuDevice info dev (dev.drop 2)).isSome then none else findMigDevice info dev

end Chosen

/-- `select_devices` of a device string, from `new_devices`. -/
def selected (info : DeviceInfo) (beyond : Str) (devs : Option Str) :
    Except Refused Unit × Devices :=
  selectDevices info beyond (tokens devs) (newDevices info)

section Order

variable {info : DeviceInfo} {s : Devices} {dev : Str} {devs : List Str}

theorem Plain.of_cons (h : Plain (dev :: devs)) : Plain devs :=
  ⟨fun d hd => h.two_le d (List.mem_cons_of_mem dev hd),
    fun d hd => h.not_all d (List.mem_cons_of_mem dev hd)⟩

/-- The selection with what a token names added. -/
def Devices.withToken (info : DeviceInfo) (s : Devices) (dev : Str) : Devices :=
  { s with
    gpus := joinedAll (chosenGpu info dev).toList s.gpus
    migs := joinedAll (chosenMig info dev).toList s.migs }

/-- A chosen GPU is one of the list. -/
theorem chosenGpu_mem (howned : info.Owned) {g : Gpu} (h : chosenGpu info dev = some g) :
    g ∈ info.allGpus := by
  rw [chosenGpu, Option.orElse_eq_orElse, Option.orElse_eq_or, Option.or_eq_some_iff] at h
  rcases h with h | ⟨-, h⟩
  · exact findGpuDevice_mem h
  · obtain ⟨m, hm, rfl⟩ := Option.map_eq_some_iff.mp h
    exact parent_mem howned (findMigDevice_mem hm)

/-- A chosen MIG device is one of the list. -/
theorem chosenMig_mem {m : Mig} (h : chosenMig info dev = some m) : m ∈ info.allMigs := by
  rw [chosenMig] at h
  split_ifs at h
  exact findMigDevice_mem h

theorem Holds.withToken (howned : info.Owned) (h : Holds info s) (dev : Str) :
    Holds info (s.withToken info dev) := by
  have hgpus : (chosenGpu info dev).toList ⊆ info.allGpus :=
    fun g hg => chosenGpu_mem howned (Option.mem_toList.mp hg)
  have hmigs : (chosenMig info dev).toList ⊆ info.allMigs :=
    fun m hm => chosenMig_mem (Option.mem_toList.mp hm)
  exact (h.withGpus hgpus).withMigs hmigs

/-- **One token**: what it names is added, or it is unknown. -/
theorem Holds.selectDevice_plain (howned : info.Owned) (h : Holds info s)
    (hall : ¬strCaseEqual dev "all".toList = true) :
    selectDevice info dev (dev.drop 2) s = if (chosenGpu info dev).isSome
      then (.ok true, s.withToken info dev) else (.error .unknown, s) := by
  obtain ⟨hgpu, hmig, hunknown⟩ := h.selectDevice_eq howned (dev.drop 2) hall
  rcases hg : findGpuDevice info dev (dev.drop 2) with _ | g
  · rcases hm : findMigDevice info dev with _ | m
    · have hnone : chosenGpu info dev = none := by rw [chosenGpu, hg, hm]; rfl
      rw [hunknown hg hm, hnone]
      rfl
    · have hsome : chosenGpu info dev = some (info.parent m) := by rw [chosenGpu, hg, hm]; rfl
      have hmig' : chosenMig info dev = some m := by rw [chosenMig, hg, hm]; rfl
      rw [hmig hg m hm, Devices.withToken, hsome, hmig']
      rfl
  · have hsome : chosenGpu info dev = some g := by rw [chosenGpu, hg]; rfl
    have hmig' : chosenMig info dev = none := by rw [chosenMig, hg]; rfl
    rw [hgpu g hg, Devices.withToken, hsome, hmig']
    rfl

/-- **A run over known tokens adds what they name**, in their order. -/
theorem Holds.selectDevices_known (howned : info.Owned) (h : Holds info s) (beyond : Str)
    (hplain : Plain devs)
    (hknown : ∀ dev ∈ devs, dev ≠ [] → (chosenGpu info dev).isSome = true) :
    selectDevices info beyond devs s = (.ok (), { s with
      gpus := joinedAll ((devs.filter (· ≠ [])).filterMap (chosenGpu info)) s.gpus
      migs := joinedAll ((devs.filter (· ≠ [])).filterMap (chosenMig info)) s.migs }) := by
  induction devs generalizing s with
  | nil => rfl
  | cons dev devs ih =>
    have hrest := fun d hd => hknown d (List.mem_cons_of_mem dev hd)
    rw [Cli.selectDevices]
    by_cases hdev : dev = []
    · rw [if_pos hdev, ih h hplain.of_cons hrest, List.filter_cons_of_neg (by simpa using hdev)]
    · have htwo := hplain.two_le dev List.mem_cons_self hdev
      have hsome := hknown dev List.mem_cons_self hdev
      have hone := h.selectDevice_plain howned (hplain.not_all dev List.mem_cons_self)
      rw [if_pos hsome] at hone
      rw [if_neg hdev, twoIn, if_pos htwo, bind_of_ok (reporting_of_ok hone), if_pos rfl,
        ih (h.withToken howned dev) hplain.of_cons hrest,
        List.filter_cons_of_pos (by simpa using hdev), ← List.singleton_append,
        List.filterMap_append, List.filterMap_append, joinedAll_append, joinedAll_append]
      obtain ⟨g, hg⟩ := Option.isSome_iff_exists.mp hsome
      rcases hm : chosenMig info dev with _ | m <;>
        simp [Devices.withToken, hg, hm]

/-- **An unknown token makes the run fail.** -/
theorem Holds.selectDevices_unknown (howned : info.Owned) (h : Holds info s) (beyond : Str)
    (hplain : Plain devs)
    (hunknown : ∃ dev ∈ devs, dev ≠ [] ∧ chosenGpu info dev = none) :
    ∃ e s', selectDevices info beyond devs s = (.error e, s') := by
  induction devs generalizing s with
  | nil =>
    obtain ⟨dev, hdev, -⟩ := hunknown
    cases hdev
  | cons dev devs ih =>
    rw [Cli.selectDevices]
    obtain ⟨d, hd, hne, hnone⟩ := hunknown
    by_cases hdev : dev = []
    · rw [if_pos hdev]
      refine ih h hplain.of_cons ⟨d, ?_, hne, hnone⟩
      exact (List.mem_cons.mp hd).resolve_left fun he => hne (he.trans hdev)
    · have htwo := hplain.two_le dev List.mem_cons_self hdev
      have hone := h.selectDevice_plain howned (hplain.not_all dev List.mem_cons_self)
      rw [if_neg hdev, twoIn, if_pos htwo]
      by_cases hsome : (chosenGpu info dev).isSome = true
      · rw [if_pos hsome] at hone
        rw [bind_of_ok (reporting_of_ok hone), if_pos rfl]
        refine ih (h.withToken howned dev) hplain.of_cons ⟨d, ?_, hne, hnone⟩
        refine (List.mem_cons.mp hd).resolve_left fun he => ?_
        rw [← he, hnone] at hsome
        cases hsome
      · rw [if_neg hsome] at hone
        have hreport : reporting (Refused.mk dev) (selectDevice info dev (dev.drop 2)) s
            = (.error ⟨dev, .unknown⟩, s) := by
          rw [reporting, hone]
        exact ⟨_, _, bind_of_error hreport⟩

/-- **When a selection succeeds, and what it is then.** -/
theorem selected_ok (howned : info.Owned) (beyond : Str) {devs : Option Str}
    (hplain : Plain (tokens devs)) :
    ((selected info beyond devs).1 = .ok () ↔
        ∀ dev ∈ asked devs, (chosenGpu info dev).isSome = true)
      ∧ ((selected info beyond devs).1 = .ok () →
        (selected info beyond devs).2.gpus = joinedAll ((asked devs).filterMap (chosenGpu info)) []
          ∧ (selected info beyond devs).2.migs
            = joinedAll ((asked devs).filterMap (chosenMig info)) []) := by
  have hasked : ∀ dev, dev ∈ asked devs ↔ dev ∈ tokens devs ∧ dev ≠ [] := by
    simp [asked]
  have hstart := holds_newDevices info
  by_cases hknown : ∀ dev ∈ asked devs, (chosenGpu info dev).isSome = true
  · have hrun := hstart.selectDevices_known howned beyond hplain
      fun dev hdev hne => hknown dev ((hasked dev).mpr ⟨hdev, hne⟩)
    rw [← selected] at hrun
    rw [hrun]
    exact ⟨iff_of_true rfl hknown, fun _ => ⟨rfl, rfl⟩⟩
  · have hunknown : ∃ dev ∈ tokens devs, dev ≠ [] ∧ chosenGpu info dev = none := by
      obtain ⟨dev, hdev, hnone⟩ := not_forall₂.mp hknown
      obtain ⟨hmem, hne⟩ := (hasked dev).mp hdev
      exact ⟨dev, hmem, hne, by simpa using hnone⟩
    obtain ⟨e, s', hrun⟩ := hstart.selectDevices_unknown howned beyond hplain hunknown
    rw [← selected] at hrun
    rw [hrun]
    exact ⟨iff_of_false nofun hknown, nofun⟩

/-- **Selection is order independent**: strings of the same tokens, each of two or more characters
and none of them `all`, both succeed or both fail, and select the same devices; the GPUs stand in
the order of first selection. -/
theorem selectDevices_orderFree (howned : info.Owned) (beyond beyond' : Str)
    {devs devs' : Option Str} (hplain : Plain (tokens devs))
    (hplain' : Plain (tokens devs'))
    (hsame : ∀ dev, dev ∈ asked devs ↔ dev ∈ asked devs') :
    ((selected info beyond devs).1 = .ok () ↔ (selected info beyond' devs').1 = .ok ())
      ∧ ((selected info beyond devs).1 = .ok () →
        (∀ g, g ∈ (selected info beyond devs).2.gpus ↔ g ∈ (selected info beyond' devs').2.gpus)
          ∧ (∀ m, m ∈ (selected info beyond devs).2.migs
            ↔ m ∈ (selected info beyond' devs').2.migs)
          ∧ (selected info beyond devs).2.gpus.Nodup
          ∧ ∀ g ∈ (selected info beyond devs).2.gpus, ∀ g' ∈ (selected info beyond devs).2.gpus,
            ((selected info beyond devs).2.gpus.idxOf g
                < (selected info beyond devs).2.gpus.idxOf g' ↔
              ((asked devs).filterMap (chosenGpu info)).idxOf g
                < ((asked devs).filterMap (chosenGpu info)).idxOf g')) := by
  obtain ⟨hok, hlists⟩ := selected_ok howned beyond hplain
  obtain ⟨hok', hlists'⟩ := selected_ok howned beyond' hplain'
  have hboth : (selected info beyond devs).1 = .ok ()
      ↔ (selected info beyond' devs').1 = .ok () := by
    rw [hok, hok']
    exact forall_congr' fun dev => imp_congr_left (hsame dev)
  have hpicks {α : Type} (f : Str → Option α) (a : α) :
      a ∈ (asked devs).filterMap f ↔ a ∈ (asked devs').filterMap f := by
    rw [List.mem_filterMap, List.mem_filterMap]
    exact exists_congr fun dev => and_congr_left' (hsame dev)
  refine ⟨hboth, fun hrun => ?_⟩
  obtain ⟨hgpus, hmigs⟩ := hlists hrun
  obtain ⟨hgpus', hmigs'⟩ := hlists' (hboth.mp hrun)
  rw [hgpus, hgpus', hmigs, hmigs']
  refine ⟨fun g => ?_, fun m => ?_, nodup_joinedAll List.nodup_nil, fun g hg g' hg' => ?_⟩
  · rw [mem_joinedAll, mem_joinedAll, hpicks]
  · rw [mem_joinedAll, mem_joinedAll, hpicks]
  · have hin : ∀ k, k ∈ joinedAll ((asked devs).filterMap (chosenGpu info)) [] →
        k ∈ (asked devs).filterMap (chosenGpu info) :=
      fun k hk => (mem_joinedAll.mp hk).resolve_left List.not_mem_nil
    exact idxOf_joinedAll (hin g hg) (hin g' hg')

/-- `1:0,00` and `00,,1:0,00` select the same devices, the MIG device's GPU first in one order and
last in the other. -/
theorem selectDevices_orderFree_twoGpus :
    (selected twoGpus [] (some ['1', ':', '0', ',', '0', '0'])).2.gpus = [1, 0]
      ∧ (selected twoGpus [] (some ['0', '0', ',', ',', '1', ':', '0', ',', '0', '0'])).2.gpus
        = [0, 1]
      ∧ ((selected twoGpus [] (some ['1', ':', '0', ',', '0', '0'])).1 = .ok ()
        ↔ (selected twoGpus [] (some ['0', '0', ',', ',', '1', ':', '0', ',', '0', '0'])).1
          = .ok ()) := by
  have howned : twoGpus.Owned := twoGpus_owned
  have hone : tokens (some ['1', ':', '0', ',', '0', '0']) = [['1', ':', '0'], ['0', '0']] := by
    decide
  have htwo : tokens (some ['0', '0', ',', ',', '1', ':', '0', ',', '0', '0'])
      = [['0', '0'], [], ['1', ':', '0'], ['0', '0']] := by decide
  have hplain : Plain (tokens (some ['1', ':', '0', ',', '0', '0'])) := by
    rw [hone]
    exact ⟨by decide, by decide⟩
  have hplain' : Plain (tokens (some ['0', '0', ',', ',', '1', ':', '0', ',', '0', '0'])) := by
    rw [htwo]
    exact ⟨by decide, by decide⟩
  refine ⟨by decide +kernel, by decide +kernel,
    (selectDevices_orderFree howned [] [] hplain hplain' fun dev => ?_).1⟩
  rw [asked, asked, hone, htwo]
  simp
  tauto

end Order

end Cli
