import XdxContainer.Data.Except
import XdxContainer.Driver.Client

/-!
# Driver/Simulation — the service is the directory

    plan ──▸ wire ──▸ service ──▸ words of the table
      ‖                             ▲ slot
    plan ──▸ directory ─────────────┴ held

A step of the service on the words is a step of the directory on the names, by the place a name has
in the table.  The addresses a plan holds are those of the names it holds, so it never asks for
anything outside the table.
-/

open Xdr Messages

namespace Driver

/-! ## Addresses -/

section Addresses

variable (m : Layout)

theorem toInt_addr {w : ℕ} (hw : w < tableWords) : (m.addr w).toInt = m.base + 8 * w := by
  have hbase := m.base_lt
  exact Int64.toInt_ofInt_of_le (by omega) (by omega)

/-- The word at the address of a word is that word. -/
theorem word_addr (w : Fin tableWords) : m.word (m.addr w) = some w := by
  have hw := w.isLt
  have hd : (m.addr w).toInt - m.base = 8 * (w : ℕ) := by
    rw [toInt_addr m hw]
    omega
  unfold Layout.word
  simp only [hd]
  rw [dif_pos (by omega)]
  refine congrArg some (Fin.ext ?_)
  simp

theorem addr_ne_zero {w : ℕ} (hw : w < tableWords) : m.addr w ≠ 0 := by
  intro h
  have hint := toInt_addr m hw
  rw [h] at hint
  have hpos := m.base_pos
  have hzero : (0 : Int64).toInt = 0 := rfl
  omega

end Addresses

/-- The place of a device in the table. -/
def Ref.slot : Ref → Fin tableWords
  | .gpu i => ⟨deviceWords * i, by
    have := i.isLt
    simp only [tableWords, deviceWords, maxDevices, maxMigDevices] at *
    omega⟩
  | .mig i j => ⟨deviceWords * i + 1 + j, by
    have := i.isLt
    have := j.isLt
    simp only [tableWords, deviceWords, maxDevices, maxMigDevices] at *
    omega⟩

/-- No two devices are at one place. -/
theorem Ref.slot_injective : Function.Injective Ref.slot := by
  intro r r' h
  have hval : (r.slot : ℕ) = r'.slot := congrArg Fin.val h
  rcases r with i | ⟨i, j⟩ <;> rcases r' with i' | ⟨i', j'⟩
  · simp only [Ref.slot, deviceWords, maxMigDevices] at hval
    rw [show i = i' from Fin.ext (by omega)]
  · have := j'.isLt
    simp only [Ref.slot, deviceWords, maxMigDevices] at hval this
    omega
  · have := j.isLt
    simp only [Ref.slot, deviceWords, maxMigDevices] at hval this
    omega
  · have := j.isLt
    have := j'.isLt
    simp only [Ref.slot, deviceWords, maxMigDevices] at *
    rw [show i = i' from Fin.ext (by omega), show j = j' from Fin.ext (by omega)]

/-! ## The calls -/

section Calls

variable {σ : Type} (lib : Library σ) (m : Layout) (setting : Setting)

/-- The strings of a value are there. -/
def Whole : (p : DriverProc) → p.Value → Prop
  | .getRmVersion, s | .getDeviceBusid, s | .getDeviceUuid, s | .getDeviceModel, s
  | .getDeviceBrand, s => s.isSome
  | _, _ => True

/-- A failure can be sent, and a value whose strings are there. -/
theorem writes_sent {p : DriverProc} {r : Except Failure p.Value}
    (h : ∀ a, r = .ok a → Whole p a) : p.xdrRes.Writes (sent r) := by
  rcases r with e | a
  · cases p <;> exact writes_xdrResult.mpr rfl
  · have ha := h a rfl
    cases p <;> first
      | exact writes_xdrResult.mpr rfl
      | exact writes_xdrResult.mpr (writes_string.mpr ha)

/-- The functions of `driver.h` with the wire between them and the service. -/
abbrev wired : ∀ p, driverProgram.Arg p → Option (State σ) →
    RpcProgram.Stat (driverProgram.Res p) × Option (State σ) :=
  driverProgram.clntCall (service lib m setting)

/-- **A procedure that keeps to the table reaches the client as it is.** -/
theorem remote_of_handle {p : DriverProc} {a : p.Arg} {st st' : State σ}
    {r : Except Failure p.Value} (h : handle lib m setting p a st = some (r, st'))
    (hwhole : ∀ a, r = .ok a → Whole p a) :
    remote (wired lib m setting) p a (some st) = (r, some st') := by
  have hserve : service lib m setting p a (some st) = (true, sent r, some st') := by
    simp [service, h]
  have hcall : wired lib m setting p a (some st) = (.success (sent r), some st') := by
    rw [wired, RpcProgram.clntCall_eq_direct, RpcProgram.direct, if_pos (writes_driverArgument p a),
      hserve]
    simp [writes_sent hwhole]
  rw [remote, hcall]
  rcases r with e | a <;> rfl

end Calls

/-! ## A step of the service -/

/-- The service runs, and its words are the handles of the directory. -/
structure Serves {σ : Type} (st : State σ) (d : Directory σ) : Prop where
  loaded : st.dl = .loaded
  running : st.exiting = false
  lib : st.lib = d.lib
  words : ∀ r : Ref, st.words r.slot = d.held r

section Steps

variable {σ : Type} {lib : Library σ} {m : Layout} {setting : Setting} {st : State σ}
  {d : Directory σ}

theorem Serves.setLib (h : Serves st d) (l : σ) :
    Serves { st with lib := l } { d with lib := l } :=
  ⟨h.loaded, h.running, rfl, h.words⟩

/-- A handle stored at the place of a device is the one the device has then. -/
theorem Serves.store (h : Serves st d) (r : Ref) (handle : Handle) (l : σ) :
    Serves { st with words := Function.update st.words r.slot handle, lib := l }
      ⟨Function.update d.held r handle, l⟩ := by
  refine ⟨h.loaded, h.running, rfl, fun r' => ?_⟩
  by_cases hr : r' = r
  · subst hr
    simp
  · have hslot : r'.slot ≠ r.slot := fun heq => hr (Ref.slot_injective heq)
    simp [Function.update_of_ne hr, Function.update_of_ne hslot, h.words]

variable (lib) in
/-- A library that is loaded answers. -/
theorem Serves.callLibrary (h : Serves st d) (what : Phrase) (c : Call) :
    callLibrary lib what c st
      = some ((asked lib what c d.lib).1, { st with lib := (asked lib what c d.lib).2 }) := by
  simp only [Driver.callLibrary, answer, h.loaded, asked, errorText, h.lib, Option.map_some,
    if_true]

variable (lib m) in
/-- A question about a device at its address. -/
theorem Serves.asking (h : Serves st d) {α : Type} (what : Phrase) (q : Ask) (f : q.Out → α)
    (r : Ref) : asking lib m what q f (m.addr r.slot) st
      = some ((askedAbout lib what q f (d.held r) d.lib).1,
          { st with lib := (askedAbout lib what q f (d.held r) d.lib).2 }) := by
  rw [← h.words r]
  simp only [Driver.asking, word_addr, Option.bind_eq_bind, Option.bind_some, h.callLibrary lib]
  rfl

variable (lib m) in
/-- **Looking up a GPU** gives the address of its place. -/
theorem Serves.getDeviceSvc (h : Serves st d) (idx : UInt32) : ∃ st',
    driverGetDeviceSvc lib m idx st
      = some ((d.device lib idx).1.map fun i => m.addr (Ref.gpu i).slot, st')
    ∧ Serves st' (d.device lib idx).2 := by
  by_cases hidx : idx.toNat < maxDevices
  · have hcall := h.callLibrary lib xdxmlError (.deviceGetHandleByIndex idx)
    rw [driverGetDeviceSvc, dif_neg (not_le.mpr hidx), Directory.device, dif_pos hidx, hcall]
    rcases asked lib xdxmlError (.deviceGetHandleByIndex idx) d.lib with ⟨e | handle, l⟩
    · exact ⟨_, rfl, h.setLib l⟩
    · exact ⟨_, rfl, h.store (.gpu ⟨idx.toNat, hidx⟩) handle l⟩
  · rw [driverGetDeviceSvc, dif_pos (not_lt.mp hidx), Directory.device, dif_neg hidx]
    exact ⟨st, rfl, h⟩

variable (lib m) in
/-- **Looking up a MIG device** gives the address of its place, or NULL. -/
theorem Serves.getDeviceMigDeviceSvc (h : Serves st d) (i : Fin maxDevices) (idx : UInt32) : ∃ st',
    driverGetDeviceMigDeviceSvc lib m (m.addr (Ref.gpu i).slot) idx st
      = some ((d.migDevice lib i idx).1.map fun p =>
          p.elim 0 fun p => m.addr (Ref.mig p.1 p.2).slot, st')
    ∧ Serves st' (d.migDevice lib i idx).2 := by
  by_cases hidx : idx.toNat < maxMigDevices
  · have hcall := h.callLibrary lib nvmlError
      (.deviceGetMigDeviceHandleByIndex (d.held (.gpu i)) idx)
    have hslot : ((Ref.gpu i).slot : ℕ) + 1 + idx.toNat < tableWords :=
      (Ref.mig i ⟨idx.toNat, hidx⟩).slot.isLt
    rw [driverGetDeviceMigDeviceSvc, if_neg (not_le.mpr hidx), Directory.migDevice, dif_pos hidx]
    simp only [word_addr, Option.bind_eq_bind, Option.bind_some]
    rw [h.words, hcall, Option.bind_some]
    rcases asked lib nvmlError (.deviceGetMigDeviceHandleByIndex (d.held (.gpu i)) idx) d.lib
      with ⟨e | handle, l⟩
    · refine ⟨{ st with lib := l }, ?_, h.setLib l⟩
      by_cases he : e.code = notFound
      · simp [he, Except.map]
      · simp [he, Except.map]
    · refine ⟨_, dif_pos hslot, h.store (.mig i ⟨idx.toNat, hidx⟩) handle l⟩
  · rw [driverGetDeviceMigDeviceSvc, if_pos (not_lt.mp hidx), Directory.migDevice, dif_neg hidx]
    exact ⟨st, rfl, h⟩

/-- The answer to a question is whole. -/
theorem whole_answered {q : Query} {handle : Handle} {l : σ} {a : q.Value}
    (h : (q.answered lib handle l).1 = .ok a) : Whole q.proc a := by
  cases q with
  | busid | uuid | model | brand =>
    obtain ⟨b, -, rfl⟩ := Except.map_eq_ok h
    rfl
  | _ => trivial

/-- **A question about a device** is put to the library about its handle. -/
theorem Serves.procedure_query (h : Serves st d) (q : Query) (r : Ref) :
    procedure lib m setting q.proc (q.argument m.ctx (m.addr r.slot)) st
      = some ((q.answered lib (d.held r) d.lib).1,
          { st with lib := (q.answered lib (d.held r) d.lib).2 }) := by
  cases q with
  | migMode =>
    have hask := h.asking lib m nvmlError .migMode id r
    simp only [procedure, Query.proc, Query.argument, driverGetDeviceMigModeSvc, hask]
    rfl
  | _ => exact h.asking lib m _ _ _ r

/-! ## A call of a client -/

variable (lib m setting)

/-- **What a procedure does is what its client gets.** -/
theorem Serves.remote (h : Serves st d) {p : DriverProc} {a : p.Arg} {r : Except Failure p.Value}
    {st' : State σ} (hctx : contextOf p a = m.ctx)
    (hproc : procedure lib m setting p a st = some (r, st'))
    (hwhole : ∀ a, r = .ok a → Whole p a) :
    remote (wired lib m setting) p a (some st) = (r, some st') :=
  remote_of_handle lib m setting ((if_pos ⟨h.running, hctx⟩).trans hproc) hwhole

/-- The number of devices is the library's. -/
theorem Serves.count (h : Serves st d) :
    driverGetDeviceCount (wired lib m setting) m (some st)
      = ((asked lib xdxmlError .deviceGetCount d.lib).1,
        some { st with lib := (asked lib xdxmlError .deviceGetCount d.lib).2 }) :=
  h.remote lib m setting rfl (h.callLibrary lib xdxmlError .deviceGetCount) fun _ _ => trivial

/-- A device is answered by its address. -/
theorem Serves.device (h : Serves st d) (idx : UInt32) : ∃ st',
    driverGetDevice (wired lib m setting) m idx (some st)
      = ((d.device lib idx).1.map fun i => m.addr (Ref.gpu i).slot, some st')
    ∧ Serves st' (d.device lib idx).2 := by
  obtain ⟨st', hproc, hst'⟩ := h.getDeviceSvc lib m idx
  exact ⟨st', h.remote lib m setting rfl hproc fun _ _ => trivial, hst'⟩

/-- A MIG device is answered by its address. -/
theorem Serves.migDevice (h : Serves st d) (i : Fin maxDevices) (idx : UInt32) : ∃ st',
    driverGetDeviceMigDevice (wired lib m setting) m (m.addr (Ref.gpu i).slot) idx (some st)
      = ((d.migDevice lib i idx).1.map fun p =>
          p.elim 0 fun p => m.addr (Ref.mig p.1 p.2).slot, some st')
    ∧ Serves st' (d.migDevice lib i idx).2 := by
  obtain ⟨st', hproc, hst'⟩ := h.getDeviceMigDeviceSvc lib m i idx
  exact ⟨st', h.remote lib m setting rfl hproc fun _ _ => trivial, hst'⟩

/-- A query is answered by what the library says of the device. -/
theorem Serves.query (h : Serves st d) (q : Query) (r : Ref) :
    driverGetDeviceQuery (wired lib m setting) m q (m.addr r.slot) (some st)
      = ((q.answered lib (d.held r) d.lib).1,
        some { st with lib := (q.answered lib (d.held r) d.lib).2 }) := by
  refine h.remote lib m setting ?_ (h.procedure_query q r) fun _ ha => whole_answered ha
  cases q <;> rfl

end Steps

/-! ## Runs -/

section Runs

variable {σ ρ : Type} (lib : Library σ) (m : Layout) (setting : Setting)

/-- The devices a plan of the directory was given. -/
abbrev Names := Devices (Fin maxDevices) (Fin maxDevices × Fin maxMigDevices)

/-- Their addresses. -/
def Devices.addresses (ds : Names) : Devices Ptr Ptr where
  gpus := ds.gpus.map fun i => m.addr (Ref.gpu i).slot
  migs := ds.migs.map fun p => m.addr (Ref.mig p.1 p.2).slot

theorem address_addresses (ds : Names) (dev : Given) :
    (ds.addresses m).address dev = (ds.name dev).map fun r => m.addr r.slot := by
  rcases dev with n | n
  · simp [Devices.address, Devices.addresses, Devices.name, Function.comp_def]
  · simp [Devices.address, Devices.addresses, Devices.name, Function.comp_def]

/-- **Every plan gets over the wire what it gets of the directory**, and the service stays inside
its table. -/
theorem Plan.run_wired (plan : Plan ρ) (ds : Names) {st : State σ} {d : Directory σ}
    (h : Serves st d) : ∃ st', plan.run (wired lib m setting) m (ds.addresses m) (some st)
      = ((plan.runIn lib ds d).1, some st') ∧ Serves st' (plan.runIn lib ds d).2 := by
  induction plan generalizing ds st d with
  | done r => exact ⟨st, rfl, h⟩
  | count next ih =>
    rw [Plan.run, h.count lib m setting, Plan.runIn]
    exact ih _ ds (h.setLib _)
  | device idx next ih =>
    obtain ⟨st', hcall, hst'⟩ := h.device lib m setting idx
    rw [Plan.run, hcall, Plan.runIn]
    revert hst'
    rcases d.device lib idx with ⟨e | i, d'⟩
    · exact ih _ ds
    · intro hst'
      have hds : ({ ds.addresses m with
          gpus := (ds.addresses m).gpus ++ [m.addr (Ref.gpu i).slot] } : Devices Ptr Ptr)
          = ({ ds with gpus := ds.gpus ++ [i] } : Names).addresses m := by
        simp [Devices.addresses]
      simp only [Except.map, hds]
      exact ih _ _ hst'
  | migDevice gpu idx next ih =>
    rw [Plan.run, Plan.runIn]
    rcases hgpu : ds.gpus[gpu]? with _ | i
    · have hptr : (ds.addresses m).gpus[gpu]? = none := by simp [Devices.addresses, hgpu]
      rw [hptr]
      exact ⟨st, rfl, h⟩
    · have hptr : (ds.addresses m).gpus[gpu]? = some (m.addr (Ref.gpu i).slot) := by
        simp [Devices.addresses, hgpu]
      obtain ⟨st', hcall, hst'⟩ := h.migDevice lib m setting i idx
      rw [hptr]
      simp only [hcall]
      revert hst'
      rcases d.migDevice lib i idx with ⟨e | _ | p, d'⟩
      · exact ih _ ds
      · simp only [Except.map, Option.elim, if_true]
        exact ih _ ds
      · intro hst'
        have hne : m.addr (Ref.mig p.1 p.2).slot ≠ 0 := addr_ne_zero m (Ref.mig p.1 p.2).slot.isLt
        have hds : ({ ds.addresses m with
            migs := (ds.addresses m).migs ++ [m.addr (Ref.mig p.1 p.2).slot] } : Devices Ptr Ptr)
            = ({ ds with migs := ds.migs ++ [p] } : Names).addresses m := by
          simp [Devices.addresses]
        simp only [Except.map, Option.elim, if_neg hne, hds]
        exact ih _ _ hst'
  | query q dev next ih =>
    rw [Plan.run, Plan.runIn, address_addresses]
    rcases ds.name dev with _ | r
    · exact ⟨st, rfl, h⟩
    · rw [Option.map_some]
      simp only [h.query lib m setting q r]
      exact ih _ ds (h.setLib _)

end Runs

end Driver
