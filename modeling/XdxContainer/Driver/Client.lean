import XdxContainer.Driver.Service

/-!
# Driver/Client — the clients of the driver service, and the directory of devices they see

    plan ──▸ call_rpc ──▸ wire ──▸ service ──▸ table ──▸ library
      └───────────────▸ directory ─────────────────────▸ library

A plan is a client of `driver.h`: it asks for devices, and asks about the devices it was given,
going on by the answers; it cannot make up an address.  The directory says what the service is for:
a GPU or MIG device has a name, and under that name the handle the library gave last.
`Plan.run_wired`: every plan gets over the wire what it gets of the directory, and the service
stays inside its table.
-/

open Xdr Messages

namespace Driver

/-! ## The functions of driver.h -/

/-- A question about a device. -/
inductive Query
  | minor
  | busid
  | uuid
  | arch
  | model
  | brand
  | migMode
  | maxMigDeviceCount
  | gpuInstanceId
  | computeInstanceId
  deriving DecidableEq

/-- The procedure that answers it. -/
@[simp] abbrev Query.proc : Query → DriverProc
  | minor => .getDeviceMinor
  | busid => .getDeviceBusid
  | uuid => .getDeviceUuid
  | arch => .getDeviceArch
  | model => .getDeviceModel
  | brand => .getDeviceBrand
  | migMode => .getDeviceMigMode
  | maxMigDeviceCount => .getDeviceMaxMigDeviceCount
  | gpuInstanceId => .getDeviceGpuInstanceId
  | computeInstanceId => .getDeviceComputeInstanceId

/-- What a query is answered with. -/
abbrev Query.Value (q : Query) : Type := q.proc.Value

/-- The argument of the procedure. -/
def Query.argument (ctx dev : Ptr) : (q : Query) → q.proc.Arg
  | minor | busid | uuid | arch | model | brand | migMode | maxMigDeviceCount | gpuInstanceId
  | computeInstanceId => (ctx, dev)

/-- What is put before the error of a call that got no answer. -/
def driverRpcError : Phrase := ⟨ascii "driver rpc error", by decide, by decide⟩

section Functions

variable {τ : Type}
  (call : ∀ p, driverProgram.Arg p → τ → RpcProgram.Stat (driverProgram.Res p) × τ) (m : Layout)

/-- A function of `driver.h`: `call_rpc`, by the procedure. -/
def remote (p : DriverProc) (a : p.Arg) (s : τ) : Except Failure p.Value × τ :=
  let (stat, s) := call p a s
  (callRpc driverRpcError stat, s)

/-- `driver_get_device_count`. -/
def driverGetDeviceCount : τ → Except Failure UInt32 × τ := remote call .getDeviceCount m.ctx

/-- `driver_get_device`. -/
def driverGetDevice (idx : UInt32) : τ → Except Failure Ptr × τ :=
  remote call .getDevice (m.ctx, idx)

/-- `*mig_dev`, NULL if there is no such device. -/
def driverGetDeviceMigDevice (dev : Ptr) (idx : UInt32) : τ → Except Failure Ptr × τ :=
  remote call .getDeviceMigDevice (m.ctx, dev, idx)

/-- `driver_get_device_minor` and the others about one device. -/
def driverGetDeviceQuery (q : Query) (dev : Ptr) : τ → Except Failure q.Value × τ :=
  remote call q.proc (q.argument m.ctx dev)

end Functions

/-! ## Plans -/

/-- A device a plan was given: the GPUs and the MIG devices are counted as they come. -/
inductive Given
  | gpu (n : ℕ)
  | mig (n : ℕ)
  deriving DecidableEq

/-- A client of `driver.h`. -/
inductive Plan (ρ : Type)
  | done (r : ρ)
  | count (next : Except Failure UInt32 → Plan ρ)
  | device (idx : UInt32) (next : Except Failure Unit → Plan ρ)
  /-- Ask for a MIG device of a GPU, and be told whether there is one. -/
  | migDevice (gpu : ℕ) (idx : UInt32) (next : Except Failure Bool → Plan ρ)
  | query (q : Query) (dev : Given) (next : Except Failure q.Value → Plan ρ)

/-- The devices given so far. -/
structure Devices (γ μ : Type) where
  gpus : List γ := []
  migs : List μ := []

section Wire

variable {τ ρ : Type}
  (call : ∀ p, driverProgram.Arg p → τ → RpcProgram.Stat (driverProgram.Res p) × τ) (m : Layout)

/-- The address of a device given. -/
def Devices.address (ds : Devices Ptr Ptr) : Given → Option Ptr
  | .gpu n => ds.gpus[n]?
  | .mig n => ds.migs[n]?

/-- **Running a plan** with the functions of `driver.h`; none if it asks about a device it was not
given. -/
def Plan.run : Plan ρ → Devices Ptr Ptr → τ → Option ρ × τ
  | .done r, _, s => (some r, s)
  | .count next, ds, s =>
    let (r, s) := driverGetDeviceCount call m s
    (next r).run ds s
  | .device idx next, ds, s =>
    match driverGetDevice call m idx s with
    | (.ok p, s) => (next (.ok ())).run { ds with gpus := ds.gpus ++ [p] } s
    | (.error e, s) => (next (.error e)).run ds s
  | .migDevice gpu idx next, ds, s =>
    match ds.gpus[gpu]? with
    | none => (none, s)
    | some dev =>
      match driverGetDeviceMigDevice call m dev idx s with
      | (.ok p, s) =>
        if p = 0 then (next (.ok false)).run ds s
        else (next (.ok true)).run { ds with migs := ds.migs ++ [p] } s
      | (.error e, s) => (next (.error e)).run ds s
  | .query q dev next, ds, s =>
    match ds.address dev with
    | none => (none, s)
    | some p =>
      let (r, s) := driverGetDeviceQuery call m q p s
      (next r).run ds s

end Wire

/-! ## The directory -/

/-- The name of a device. -/
inductive Ref
  | gpu (i : Fin maxDevices)
  | mig (i : Fin maxDevices) (j : Fin maxMigDevices)
  deriving DecidableEq

/-- The devices by their names, each with the handle the library gave last, and the library. -/
structure Directory (σ : Type) where
  held : Ref → Handle
  lib : σ

section Names

variable {σ ρ : Type} (lib : Library σ)

/-- What the library answers. -/
def asked (what : Phrase) (c : Call) (l : σ) : Except Failure c.Out × σ :=
  let (r, l) := lib.call c l
  (r.mapError fun code => .set code what (lib.errorString code), l)

/-- A question about one device, put to the library. -/
def askedAbout {α : Type} (what : Phrase) (q : Ask) (f : q.Out → α) (h : Handle) (l : σ) :
    Except Failure α × σ :=
  let (r, l) := asked lib what (.ask q h) l
  (r.map f, l)

/-- What the library says to a question about a device. -/
def Query.answered (h : Handle) (l : σ) : (q : Query) → Except Failure q.Value × σ
  | minor => askedAbout lib xdxmlError .minorNumber id h l
  | busid => askedAbout lib xdxmlError .pciInfo (fun pci => some (busidText pci)) h l
  | uuid => askedAbout lib xdxmlError .uuid some h l
  | arch => askedAbout lib nvmlError .cudaComputeCapability
      (fun v => (⟨v.1.toUInt32, v.2.toUInt32⟩ : DriverDeviceArch)) h l
  | model => askedAbout lib xdxmlError .productName some h l
  | brand => askedAbout lib nvmlError .brand (fun brand => some (brandName brand)) h l
  | migMode =>
    let (r, l) := askedAbout lib nvmlError .migMode id h l
    (.ok (migModeOf lib.unset r), l)
  | maxMigDeviceCount => askedAbout lib nvmlError .maxMigDeviceCount id h l
  | gpuInstanceId => askedAbout lib nvmlError .gpuInstanceId id h l
  | computeInstanceId => askedAbout lib nvmlError .computeInstanceId id h l

/-- The GPU of an index, looked up: its handle is what the library gives. -/
def Directory.device (idx : UInt32) (d : Directory σ) :
    Except Failure (Fin maxDevices) × Directory σ :=
  if hidx : idx.toNat < maxDevices then
    match asked lib xdxmlError (.deviceGetHandleByIndex idx) d.lib with
    | (.ok h, l) => (.ok ⟨idx.toNat, hidx⟩, ⟨Function.update d.held (.gpu ⟨idx.toNat, hidx⟩) h, l⟩)
    | (.error e, l) => (.error e, { d with lib := l })
  else (.error tooManyDevices, d)

/-- The MIG device of an index, none if the library finds none. -/
def Directory.migDevice (i : Fin maxDevices) (idx : UInt32) (d : Directory σ) :
    Except Failure (Option (Fin maxDevices × Fin maxMigDevices)) × Directory σ :=
  if hidx : idx.toNat < maxMigDevices then
    match asked lib nvmlError (.deviceGetMigDeviceHandleByIndex (d.held (.gpu i)) idx) d.lib with
    | (.ok h, l) => (.ok (some (i, ⟨idx.toNat, hidx⟩)),
        ⟨Function.update d.held (.mig i ⟨idx.toNat, hidx⟩) h, l⟩)
    | (.error e, l) => (if e.code = notFound then .ok none else .error e, { d with lib := l })
  else (.error tooManyMigDevices, d)

/-- The name of a device given. -/
def Devices.name (ds : Devices (Fin maxDevices) (Fin maxDevices × Fin maxMigDevices)) :
    Given → Option Ref
  | .gpu n => ds.gpus[n]?.map Ref.gpu
  | .mig n => ds.migs[n]?.map fun p => Ref.mig p.1 p.2

/-- **Running a plan** with the directory. -/
def Plan.runIn : Plan ρ → Devices (Fin maxDevices) (Fin maxDevices × Fin maxMigDevices) →
    Directory σ → Option ρ × Directory σ
  | .done r, _, d => (some r, d)
  | .count next, ds, d =>
    let (r, l) := asked lib xdxmlError .deviceGetCount d.lib
    (next r).runIn ds { d with lib := l }
  | .device idx next, ds, d =>
    match d.device lib idx with
    | (.ok i, d) => (next (.ok ())).runIn { ds with gpus := ds.gpus ++ [i] } d
    | (.error e, d) => (next (.error e)).runIn ds d
  | .migDevice gpu idx next, ds, d =>
    match ds.gpus[gpu]? with
    | none => (none, d)
    | some i =>
      match d.migDevice lib i idx with
      | (.ok (some p), d) => (next (.ok true)).runIn { ds with migs := ds.migs ++ [p] } d
      | (.ok none, d) => (next (.ok false)).runIn ds d
      | (.error e, d) => (next (.error e)).runIn ds d
  | .query q dev next, ds, d =>
    match ds.name dev with
    | none => (none, d)
    | some r =>
      let (a, l) := q.answered lib (d.held r) d.lib
      (next a).runIn ds { d with lib := l }

end Names

end Driver
