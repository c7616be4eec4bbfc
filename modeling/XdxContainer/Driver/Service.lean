import XdxContainer.Cli.BusIds
import XdxContainer.Rpc.Errors

/-!
# Driver/Service — the driver service: its table of devices and its procedures

    deviceHandles:  ▐ gpu 0 │ mig 0 0 … mig 0 7 ▌▐ gpu 1 │ mig 1 0 … ▌ … ▐ gpu 63 │ … ▌
                      ▲
    a client's device is an address; the service reads the handle behind it

`driver.c`, on the service's side.  The table is one row of words, each the handle of a device of
the management library, and clients name devices by the addresses of their words.  An access
outside of it is `none`.  The management library has a state of its own; a function it does not have
answers `XDXML_ERROR_FUNCTION_NOT_FOUND`.  Memory allocations succeed.
-/

open Xdr Messages

namespace Driver

/-- `MAX_DEVICES`. -/
def maxDevices : ℕ := 64

/-- `MAX_MIG_DEVICES`. -/
def maxMigDevices : ℕ := 8

/-- The words of a device: its handle and those of its MIG devices. -/
def deviceWords : ℕ := 1 + maxMigDevices

/-- The words of the device table. -/
def tableWords : ℕ := maxDevices * deviceWords

/-! ## The management library -/

/-- A handle: a pointer of the library. -/
abbrev Handle := UInt64

/-- What is asked about a device. -/
inductive Ask
  | minorNumber
  | pciInfo
  | uuid
  | productName
  | brand
  | cudaComputeCapability
  | migMode
  | maxMigDeviceCount
  | gpuInstanceId
  | computeInstanceId
  deriving DecidableEq

/-- What the library answers a question about a device with. -/
abbrev Ask.Out : Ask → Type
  | pciInfo => UInt64 × UInt64 × UInt64
  | uuid | productName => CStr
  | brand => Int32
  | cudaComputeCapability => Int32 × Int32
  | migMode => UInt32 × UInt32
  | _ => UInt32

/-- A call of the library. -/
inductive Call
  | init
  | shutdown
  | systemGetDriverVersion
  | systemGetCudaDriverVersion
  | deviceGetCount
  | deviceGetHandleByIndex (i : UInt32)
  | deviceGetMigDeviceHandleByIndex (h : Handle) (i : UInt32)
  | ask (q : Ask) (h : Handle)
  deriving DecidableEq

/-- What the library answers a call with. -/
abbrev Call.Out : Call → Type
  | init | shutdown => Unit
  | systemGetDriverVersion => CStr
  | systemGetCudaDriverVersion => Int32
  | deviceGetCount => UInt32
  | deviceGetHandleByIndex _ | deviceGetMigDeviceHandleByIndex _ _ => Handle
  | ask q _ => q.Out

/-- The management library, on its state. -/
structure Library (σ : Type) where
  call : (c : Call) → σ → Except Code c.Out × σ
  /-- `nvmlErrorString`, or that the error is unknown. -/
  errorString : Code → Phrase
  /-- What the variables of `driver_get_device_mig_mode_1_svc` hold when nothing was stored. -/
  unset : UInt32 × UInt32

/-! ## Memory -/

/-- Where the context and the table are. -/
structure Layout where
  ctx : Ptr
  base : ℕ
  base_pos : 0 < base
  base_lt : base + 8 * tableWords < 2 ^ 63

/-- The address of a word of the table. -/
def Layout.addr (m : Layout) (w : ℕ) : Ptr := .ofInt (m.base + 8 * w)

/-- The word at an address, if it is one of the table. -/
def Layout.word (m : Layout) (p : Ptr) : Option (Fin tableWords) :=
  let d := p.toInt - m.base
  if h : 0 ≤ d ∧ d % 8 = 0 ∧ d / 8 < tableWords then some ⟨(d / 8).toNat, by omega⟩ else none

/-- `nvml_dl`. -/
inductive Dl
  | unloaded
  | loaded
  | closed
  deriving DecidableEq

/-- The memory of the service that its procedures use, and the library's state. -/
structure State (σ : Type) where
  words : Fin tableWords → Handle
  dl : Dl
  exiting : Bool
  lib : σ

/-! ## Texts -/

/-- Digits are ASCII characters. -/
theorem toNat_of_digit {c : Char} (h : (Scan.digit 16 c).isSome) : 0 < c.toNat ∧ c.toNat < 128 := by
  have hbetween {a b : Char} (hab : a ≤ c ∧ c ≤ b) (ha : 0 < a.toNat) (hb : b.toNat < 128) :
      0 < c.toNat ∧ c.toNat < 128 := by
    have hlow : a.toNat ≤ c.toNat := UInt32.le_iff_toNat_le.mp hab.1
    have hhigh : c.toNat ≤ b.toNat := UInt32.le_iff_toNat_le.mp hab.2
    omega
  obtain ⟨d, hd⟩ := Option.isSome_iff_exists.mp h
  obtain ⟨hlt, hvalue⟩ := Scan.digit_eq_some_iff.mp hd
  split_ifs at hvalue with hnumber hletter
  · exact hbetween hnumber (by decide) (by decide)
  · unfold Scan.toLower at hletter
    split_ifs at hletter with hupper
    · exact hbetween hupper (by decide) (by decide)
    · exact hbetween hletter (by decide) (by decide)
  · omega

/-- The characters of a printed bus ID are letters, digits, colons and dots. -/
theorem toNat_of_mem_busid {pci : Cli.PciInfo} {c : Char} (h : c ∈ Cli.driverGetDeviceBusid pci) :
    0 < c.toNat ∧ c.toNat < 128 := by
  have hpad {width n : ℕ} (hmem : c ∈ Scan.hexPad width n) : 0 < c.toNat ∧ c.toNat < 128 :=
    toNat_of_digit ((Scan.hexPad_spec width n).1.2 c hmem)
  simp only [Cli.driverGetDeviceBusid_eq, List.mem_append, List.mem_cons, List.not_mem_nil,
    or_false] at h
  rcases h with hdomain | rfl | hbus | rfl | hdevice | rfl | rfl
  · exact hpad hdomain
  · decide
  · exact hpad hbus
  · decide
  · exact hpad hdevice
  · decide
  · decide

/-- A bus ID fits a string of a message. -/
theorem length_busid_lt (pci : UInt64 × UInt64 × UInt64) :
    (Cli.driverGetDeviceBusid ⟨pci.1.toNat, pci.2.1.toNat, pci.2.2.toNat⟩).length + 1 < 2 ^ 32 := by
  have hpad (width : ℕ) (n : UInt64) (hwidth : width ≤ 16) :
      (Scan.hexPad width n.toNat).length ≤ 16 :=
    Scan.length_hexPad_le n.toNat_lt (by decide) hwidth
  have hdomain := hpad 8 pci.1 (by decide)
  have hbus := hpad 2 pci.2.1 (by decide)
  have hdevice := hpad 2 pci.2.2 (by decide)
  simp only [Cli.driverGetDeviceBusid_eq, List.length_append, List.length_cons, List.length_nil]
  omega

/-- The bus ID as the service prints it. -/
def busidText (pci : UInt64 × UInt64 × UInt64) : CStr where
  bytes := (Cli.driverGetDeviceBusid ⟨pci.1.toNat, pci.2.1.toNat, pci.2.2.toNat⟩).map
    fun c => .ofNat c.toNat
  nul_notMem hmem := by
    obtain ⟨c, hc, h0⟩ := List.mem_map.mp hmem
    obtain ⟨hpos, hlt⟩ := toNat_of_mem_busid hc
    have hzero := congrArg UInt8.toNat h0
    rw [UInt8.toNat_ofNat'] at hzero
    simp at hzero
    omega
  length_lt := by
    rw [List.length_map]
    exact length_busid_lt pci

/-- The names of the brands, by their numbers in `nvml.h`. -/
def brands : List (Int32 × Phrase) :=
  [(1, ⟨ascii "Quadro", by decide, by decide⟩), (2, ⟨ascii "Tesla", by decide, by decide⟩),
   (3, ⟨ascii "NVS", by decide, by decide⟩), (4, ⟨ascii "GRID", by decide, by decide⟩),
   (5, ⟨ascii "GeForce", by decide, by decide⟩), (6, ⟨ascii "TITAN", by decide, by decide⟩),
   (7, ⟨ascii "VApps", by decide, by decide⟩), (8, ⟨ascii "VPC", by decide, by decide⟩),
   (9, ⟨ascii "VCS", by decide, by decide⟩), (10, ⟨ascii "VWS", by decide, by decide⟩),
   (11, ⟨ascii "CloudGaming", by decide, by decide⟩),
   (12, ⟨ascii "QuadroRTX", by decide, by decide⟩),
   (13, ⟨ascii "NvidiaRTX", by decide, by decide⟩), (14, ⟨ascii "Nvidia", by decide, by decide⟩),
   (15, ⟨ascii "GeForceRTX", by decide, by decide⟩),
   (16, ⟨ascii "TitanRTX", by decide, by decide⟩)]

/-- The name of a brand, `Unknown` where the table has none. -/
def brandName (brand : Int32) : CStr :=
  ((brands.lookup brand).getD ⟨ascii "Unknown", by decide, by decide⟩).cstr

/-! ## The procedures -/

section Procedures

variable {σ : Type} (lib : Library σ) (m : Layout)

/-- A procedure: what it comes to, and the state then; none when it accesses other memory. -/
abbrev Svc (σ α : Type) := State σ → Option (Except Failure α × State σ)

/-- `XDXML_ERROR_FUNCTION_NOT_FOUND`. -/
def functionNotFound : Code := ⟨13, by decide⟩

/-- `XDXML_ERROR_NOT_FOUND`. -/
def notFound : Code := ⟨6, by decide⟩

/-- What `call_xdxml` puts before an error. -/
def xdxmlError : Phrase := ⟨ascii "xdxml error", by decide, by decide⟩

/-- What `call_nvml` puts before an error. -/
def nvmlError : Phrase := ⟨ascii "nvml error", by decide, by decide⟩

/-- What `dlsym` and the function it finds answer.  In a library that is not there it finds none. -/
def answer (c : Call) (st : State σ) : Option (Except Code c.Out × State σ) :=
  match st.dl with
  | .unloaded => some (.error functionNotFound, st)
  | .loaded =>
    let (r, l) := lib.call c st.lib
    some (r, { st with lib := l })
  | .closed => none

/-- The error of a library that cannot describe one. -/
def unknownError : Phrase := ⟨ascii "unknown error", by decide, by decide⟩

/-- The reason `error_set_nvml` gives. -/
def errorText (dl : Dl) (code : Code) : Phrase :=
  if dl = .loaded then lib.errorString code else unknownError

/-- `call_nvml` and `call_xdxml`, by the text they put before an error. -/
def callLibrary (what : Phrase) (c : Call) : Svc σ c.Out := fun st =>
  (answer lib c st).map fun (r, st) =>
    (r.mapError fun code => .set code what (errorText lib st.dl code), st)

/-- A procedure about one device: it asks the library about the handle at the address given. -/
def asking {α : Type} (what : Phrase) (q : Ask) (f : q.Out → α) (dev : Ptr) :
    Svc σ α := fun st => do
  let w ← m.word dev
  let (r, st) ← callLibrary lib what (.ask q (st.words w)) st
  return (r.map f, st)

/-- `driver_get_rm_version_1_svc`. -/
def driverGetRmVersionSvc : Svc σ (Option CStr) := fun st =>
  (callLibrary lib nvmlError .systemGetDriverVersion st).map fun (r, st) => (r.map some, st)

/-- `driver_get_cuda_version_1_svc`. -/
def driverGetCudaVersionSvc : Svc σ DriverCudaVersion := fun st =>
  (callLibrary lib nvmlError .systemGetCudaDriverVersion st).map fun (r, st) =>
    (r.map fun version => ⟨version.toUInt32 / 1000, version.toUInt32 % 100 / 10⟩, st)

/-- `driver_get_device_count_1_svc`. -/
def driverGetDeviceCountSvc : Svc σ UInt32 := callLibrary lib xdxmlError .deviceGetCount

/-- The error for an index behind the table. -/
def tooManyDevices : Failure := .setx ⟨ascii "too many devices", by decide, by decide⟩

/-- `driver_get_device_1_svc`. -/
def driverGetDeviceSvc (idx : UInt32) : Svc σ Ptr := fun st =>
  if h : maxDevices ≤ idx.toNat then some (.error tooManyDevices, st)
  else do
    let w : Fin tableWords := ⟨deviceWords * idx.toNat, by
      simp only [tableWords, deviceWords, maxDevices, maxMigDevices] at h ⊢; omega⟩
    let (r, st) ← callLibrary lib xdxmlError (.deviceGetHandleByIndex idx) st
    match r with
    | .error e => some (.error e, st)
    | .ok h => some (.ok (m.addr w), { st with words := Function.update st.words w h })

/-- `driver_get_device_minor_1_svc`. -/
def driverGetDeviceMinorSvc : Ptr → Svc σ UInt32 := asking lib m xdxmlError .minorNumber id

/-- `driver_get_device_busid_1_svc`. -/
def driverGetDeviceBusidSvc : Ptr → Svc σ (Option CStr) :=
  asking lib m xdxmlError .pciInfo fun pci => some (busidText pci)

/-- `driver_get_device_uuid_1_svc`. -/
def driverGetDeviceUuidSvc : Ptr → Svc σ (Option CStr) := asking lib m xdxmlError .uuid some

/-- `driver_get_device_model_1_svc`. -/
def driverGetDeviceModelSvc : Ptr → Svc σ (Option CStr) := asking lib m xdxmlError .productName some

/-- `driver_get_device_brand_1_svc`. -/
def driverGetDeviceBrandSvc : Ptr → Svc σ (Option CStr) :=
  asking lib m nvmlError .brand fun brand => some (brandName brand)

/-- `driver_get_device_arch_1_svc`. -/
def driverGetDeviceArchSvc : Ptr → Svc σ DriverDeviceArch :=
  asking lib m nvmlError .cudaComputeCapability fun v => ⟨v.1.toUInt32, v.2.toUInt32⟩

/-- The mode, with the error in it: this procedure never fails. -/
def migModeOf (unset : UInt32 × UInt32) : Except Failure (UInt32 × UInt32) → DriverDeviceMigMode
  | .ok (current, pending) => ⟨0, current, pending⟩
  | .error e => ⟨e.code, unset.1, unset.2⟩

/-- `driver_get_device_mig_mode_1_svc`: it succeeds whatever the library says. -/
def driverGetDeviceMigModeSvc (dev : Ptr) : Svc σ DriverDeviceMigMode := fun st =>
  (asking lib m nvmlError .migMode id dev st).map fun (r, st) => (.ok (migModeOf lib.unset r), st)

/-- `driver_get_device_max_mig_device_count_1_svc`. -/
def driverGetDeviceMaxMigDeviceCountSvc : Ptr → Svc σ UInt32 :=
  asking lib m nvmlError .maxMigDeviceCount id

/-- The error for an index behind the MIG devices of a device. -/
def tooManyMigDevices : Failure := .setx ⟨ascii "too many MIG devices", by decide, by decide⟩

/-- `driver_get_device_mig_device_1_svc`. -/
def driverGetDeviceMigDeviceSvc (dev : Ptr) (idx : UInt32) : Svc σ Ptr := fun st =>
  if maxMigDevices ≤ idx.toNat then some (.error tooManyMigDevices, st)
  else do
    let w ← m.word dev
    let (r, st) ← callLibrary lib nvmlError (.deviceGetMigDeviceHandleByIndex (st.words w) idx) st
    match r with
    -- a device that is not there is no error: the result is NULL
    | .error e => some (if e.code = notFound then .ok 0 else .error e, st)
    | .ok h =>
      -- `&handle->mig[idx]`
      if hw : w + 1 + idx.toNat < tableWords then
        some (.ok (m.addr (w + 1 + idx.toNat)),
          { st with words := Function.update st.words ⟨w + 1 + idx.toNat, hw⟩ h })
      else none

/-- `driver_get_device_gpu_instance_id_1_svc`. -/
def driverGetDeviceGpuInstanceIdSvc : Ptr → Svc σ UInt32 := asking lib m nvmlError .gpuInstanceId id

/-- `driver_get_device_compute_instance_id_1_svc`. -/
def driverGetDeviceComputeInstanceIdSvc : Ptr → Svc σ UInt32 :=
  asking lib m nvmlError .computeInstanceId id

/-! ## Starting and stopping -/

/-- The steps of `driver_init_1_svc` before the library is initialized. -/
inductive InitStep
  | preload (soname : String)
  | changeRoot
  | dropPrivileges
  | dropCapabilities
  | loadLibrary
  deriving DecidableEq

/-- What a service starts with: whether its root is `/`, the machine, and which steps fail. -/
structure Setting where
  hostRoot : Bool
  aarch64 : Bool
  outcome : InitStep → Option Failure

/-- The steps in their order; a root of the host is not entered. -/
def Setting.steps (setting : Setting) : List InitStep :=
  (if setting.hostRoot then []
   else [.preload "libm.so.6", .preload "librt.so.1", .preload "libpthread.so.0"]
    ++ (if setting.aarch64 then [.preload "libgcc_s.so.1"] else []) ++ [.changeRoot])
  ++ [.dropPrivileges, .dropCapabilities, .loadLibrary]

/-- `driver_init_1_svc`. -/
def driverInitSvc (setting : Setting) : Svc σ Unit := fun st =>
  match setting.steps.findSome? setting.outcome with
  | some e => some (.error e, st)
  | none => callLibrary lib xdxmlError .init { st with dl := .loaded }

/-- `xdlclose`: there is nothing to close in a library that is not there. -/
def Dl.close : Dl → Dl
  | .unloaded => .unloaded
  | _ => .closed

/-- `driver_shutdown_1_svc`. -/
def driverShutdownSvc : Svc σ Unit := fun st => do
  let (r, st) ← callLibrary lib xdxmlError .shutdown st
  return (r, { st with exiting := st.exiting || r.isOk, dl := st.dl.close })

end Procedures

/-! ## The service -/

section Service

variable {σ : Type} (lib : Library σ) (m : Layout) (setting : Setting)

/-- The procedures by name, on the context at the first argument. -/
def procedure : (p : DriverProc) → p.Arg → Svc σ p.Value
  | .init, _ => driverInitSvc lib setting
  | .shutdown, _ => driverShutdownSvc lib
  | .getRmVersion, _ => driverGetRmVersionSvc lib
  | .getCudaVersion, _ => driverGetCudaVersionSvc lib
  | .getDeviceCount, _ => driverGetDeviceCountSvc lib
  | .getDevice, (_, idx) => driverGetDeviceSvc lib m idx
  | .getDeviceMinor, (_, dev) => driverGetDeviceMinorSvc lib m dev
  | .getDeviceBusid, (_, dev) => driverGetDeviceBusidSvc lib m dev
  | .getDeviceUuid, (_, dev) => driverGetDeviceUuidSvc lib m dev
  | .getDeviceArch, (_, dev) => driverGetDeviceArchSvc lib m dev
  | .getDeviceModel, (_, dev) => driverGetDeviceModelSvc lib m dev
  | .getDeviceBrand, (_, dev) => driverGetDeviceBrandSvc lib m dev
  | .getDeviceMigMode, (_, dev) => driverGetDeviceMigModeSvc lib m dev
  | .getDeviceMaxMigDeviceCount, (_, dev) => driverGetDeviceMaxMigDeviceCountSvc lib m dev
  | .getDeviceMigDevice, (_, dev, idx) => driverGetDeviceMigDeviceSvc lib m dev idx
  | .getDeviceGpuInstanceId, (_, dev) => driverGetDeviceGpuInstanceIdSvc lib m dev
  | .getDeviceComputeInstanceId, (_, dev) => driverGetDeviceComputeInstanceIdSvc lib m dev

/-- The context of a call. -/
def contextOf : (p : DriverProc) → p.Arg → Ptr
  | .init, ctx | .shutdown, ctx | .getRmVersion, ctx | .getCudaVersion, ctx
  | .getDeviceCount, ctx => ctx
  | .getDevice, (ctx, _) | .getDeviceMigDevice, (ctx, _) => ctx
  | .getDeviceMinor, (ctx, _) | .getDeviceBusid, (ctx, _) | .getDeviceUuid, (ctx, _)
  | .getDeviceArch, (ctx, _) | .getDeviceModel, (ctx, _) | .getDeviceBrand, (ctx, _)
  | .getDeviceMigMode, (ctx, _) | .getDeviceMaxMigDeviceCount, (ctx, _)
  | .getDeviceGpuInstanceId, (ctx, _) | .getDeviceComputeInstanceId, (ctx, _) => ctx

/-- A result as it is sent: a failure by `error_to_xdr`. -/
def sent {α : Type} : Except Failure α → Result α
  | .ok a => .value a
  | .error e => errorToXdr e

/-- A request to a service that still takes requests, with the context the service has. -/
def handle (p : DriverProc) (a : p.Arg) : Svc σ p.Value := fun st =>
  if st.exiting = false ∧ contextOf p a = m.ctx then procedure lib m setting p a st else none

/-- **The driver service.**  Every procedure is answered.  A service that has come to its end, or
that accessed memory other than its table, answers nothing any more. -/
def service : driverProgram.Service (Option (State σ)) := fun p a st =>
  match st.bind (handle lib m setting p a) with
  | some (r, st) => (true, sent r, some st)
  | none => (false, .failure functionNotFound none, none)

end Service

end Driver
