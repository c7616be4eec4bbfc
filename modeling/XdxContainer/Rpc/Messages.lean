import XdxContainer.Xdr.Program

/-!
# Rpc/Messages — the messages of the two programs, and their procedures

    client stub: number, argument routine, result routine       dispatcher: number ──▸ procedure
                 nvc_clt.c                                                  nvc_svc.c

`nvc_rpc.x` as `rpcgen` compiled it.  A result is a union: no error and a value, or an error code
and a text.  The first argument of every procedure is the address of the context.
-/

open Xdr

namespace Messages

/-- `ptr_t`. -/
abbrev Ptr := Int64

/-- `driver_cuda_version`. -/
structure DriverCudaVersion where
  major : UInt32
  minor : UInt32
  deriving DecidableEq

/-- `driver_device_arch`. -/
structure DriverDeviceArch where
  major : UInt32
  minor : UInt32
  deriving DecidableEq

/-- `driver_device_mig_mode`. -/
structure DriverDeviceMigMode where
  error : Int32
  current : UInt32
  pending : UInt32
  deriving DecidableEq

/-- A result: `union switch (int errcode) { case 0: …; default: string errmsg<>; }`. -/
inductive Result (α : Type)
  | value (a : α)
  | failure (errcode : {c : Int32 // c ≠ 0}) (errmsg : Option CStr)
  deriving DecidableEq

/-! ## nvc_xdr.c -/

section Routines

variable {α : Type}

/-- The arms of a result. -/
def Result.arms : α ⊕ {c : Int32 // c ≠ 0} × Option CStr ≃ Result α where
  toFun
    | .inl a => .value a
    | .inr (c, msg) => .failure c msg
  invFun
    | .value a => .inl a
    | .failure c msg => .inr (c, msg)
  left_inv x := by rcases x with a | ⟨c, msg⟩ <;> rfl
  right_inv x := by rcases x with a | ⟨c, msg⟩ <;> rfl

/-- The routine of a result union, by the one of the value. -/
def xdrResult (value : Xdr α) : Xdr (Result α) := (int.switch 0 value string).map Result.arms

/-- `xdr_ptr`. -/
def xdrPtr : Xdr Ptr := int64

/-- `xdr_driver_cuda_version`. -/
def xdrDriverCudaVersion : Xdr DriverCudaVersion :=
  (uInt.both uInt).map
    ⟨fun p => ⟨p.1, p.2⟩, fun v => (v.major, v.minor), fun _ => rfl, fun _ => rfl⟩

/-- `xdr_driver_device_arch`. -/
def xdrDriverDeviceArch : Xdr DriverDeviceArch :=
  (uInt.both uInt).map
    ⟨fun p => ⟨p.1, p.2⟩, fun v => (v.major, v.minor), fun _ => rfl, fun _ => rfl⟩

/-- `xdr_driver_device_mig_mode`. -/
def xdrDriverDeviceMigMode : Xdr DriverDeviceMigMode :=
  (int.both (uInt.both uInt)).map
    ⟨fun p => ⟨p.1, p.2.1, p.2.2⟩, fun m => (m.error, m.current, m.pending), fun _ => rfl,
      fun _ => rfl⟩

/-- `xdr_driver_init_res`. -/
def xdrDriverInitRes : Xdr (Result Unit) := xdrResult .unit

/-- `xdr_driver_shutdown_res`. -/
def xdrDriverShutdownRes : Xdr (Result Unit) := xdrResult .unit

/-- `xdr_driver_get_rm_version_res`. -/
def xdrDriverGetRmVersionRes : Xdr (Result (Option CStr)) := xdrResult string

/-- `xdr_driver_get_cuda_version_res`. -/
def xdrDriverGetCudaVersionRes : Xdr (Result DriverCudaVersion) := xdrResult xdrDriverCudaVersion

/-- `xdr_driver_get_device_arch_res`. -/
def xdrDriverGetDeviceArchRes : Xdr (Result DriverDeviceArch) := xdrResult xdrDriverDeviceArch

/-- `xdr_driver_get_device_count_res`. -/
def xdrDriverGetDeviceCountRes : Xdr (Result UInt32) := xdrResult uInt

/-- `xdr_driver_get_device_res`. -/
def xdrDriverGetDeviceRes : Xdr (Result Ptr) := xdrResult xdrPtr

/-- `xdr_driver_get_device_minor_res`. -/
def xdrDriverGetDeviceMinorRes : Xdr (Result UInt32) := xdrResult uInt

/-- `xdr_driver_get_device_busid_res`. -/
def xdrDriverGetDeviceBusidRes : Xdr (Result (Option CStr)) := xdrResult string

/-- `xdr_driver_get_device_uuid_res`. -/
def xdrDriverGetDeviceUuidRes : Xdr (Result (Option CStr)) := xdrResult string

/-- `xdr_driver_get_device_model_res`. -/
def xdrDriverGetDeviceModelRes : Xdr (Result (Option CStr)) := xdrResult string

/-- `xdr_driver_get_device_brand_res`. -/
def xdrDriverGetDeviceBrandRes : Xdr (Result (Option CStr)) := xdrResult string

/-- `xdr_driver_get_device_mig_mode_res`. -/
def xdrDriverGetDeviceMigModeRes : Xdr (Result DriverDeviceMigMode) :=
  xdrResult xdrDriverDeviceMigMode

/-- `xdr_driver_get_device_max_mig_device_count_res`. -/
def xdrDriverGetDeviceMaxMigDeviceCountRes : Xdr (Result UInt32) := xdrResult uInt

/-- `xdr_driver_get_device_mig_device_res`. -/
def xdrDriverGetDeviceMigDeviceRes : Xdr (Result Ptr) := xdrResult xdrPtr

/-- `xdr_driver_get_device_gpu_instance_id_res`. -/
def xdrDriverGetDeviceGpuInstanceIdRes : Xdr (Result UInt32) := xdrResult uInt

/-- `xdr_driver_get_device_compute_instance_id_res`. -/
def xdrDriverGetDeviceComputeInstanceIdRes : Xdr (Result UInt32) := xdrResult uInt

/-- `xdr_driver_get_device_1_argument`. -/
def xdrDriverGetDevice1Argument : Xdr (Ptr × UInt32) := xdrPtr.both uInt

/-- `xdr_driver_get_device_minor_1_argument`. -/
def xdrDriverGetDeviceMinor1Argument : Xdr (Ptr × Ptr) := xdrPtr.both xdrPtr

/-- `xdr_driver_get_device_busid_1_argument`. -/
def xdrDriverGetDeviceBusid1Argument : Xdr (Ptr × Ptr) := xdrPtr.both xdrPtr

/-- `xdr_driver_get_device_uuid_1_argument`. -/
def xdrDriverGetDeviceUuid1Argument : Xdr (Ptr × Ptr) := xdrPtr.both xdrPtr

/-- `xdr_driver_get_device_arch_1_argument`. -/
def xdrDriverGetDeviceArch1Argument : Xdr (Ptr × Ptr) := xdrPtr.both xdrPtr

/-- `xdr_driver_get_device_model_1_argument`. -/
def xdrDriverGetDeviceModel1Argument : Xdr (Ptr × Ptr) := xdrPtr.both xdrPtr

/-- `xdr_driver_get_device_brand_1_argument`. -/
def xdrDriverGetDeviceBrand1Argument : Xdr (Ptr × Ptr) := xdrPtr.both xdrPtr

/-- `xdr_driver_get_device_mig_mode_1_argument`. -/
def xdrDriverGetDeviceMigMode1Argument : Xdr (Ptr × Ptr) := xdrPtr.both xdrPtr

/-- `xdr_driver_get_device_max_mig_device_count_1_argument`. -/
def xdrDriverGetDeviceMaxMigDeviceCount1Argument : Xdr (Ptr × Ptr) := xdrPtr.both xdrPtr

/-- `xdr_driver_get_device_mig_device_1_argument`. -/
def xdrDriverGetDeviceMigDevice1Argument : Xdr (Ptr × Ptr × UInt32) :=
  xdrPtr.both (xdrPtr.both uInt)

/-- `xdr_driver_get_device_gpu_instance_id_1_argument`. -/
def xdrDriverGetDeviceGpuInstanceId1Argument : Xdr (Ptr × Ptr) := xdrPtr.both xdrPtr

/-- `xdr_driver_get_device_compute_instance_id_1_argument`. -/
def xdrDriverGetDeviceComputeInstanceId1Argument : Xdr (Ptr × Ptr) := xdrPtr.both xdrPtr

/-- `xdr_nvcgo_init_res`. -/
def xdrNvcgoInitRes : Xdr (Result Unit) := xdrResult .unit

/-- `xdr_nvcgo_shutdown_res`. -/
def xdrNvcgoShutdownRes : Xdr (Result Unit) := xdrResult .unit

/-- `xdr_nvcgo_get_device_cgroup_version_res`. -/
def xdrNvcgoGetDeviceCgroupVersionRes : Xdr (Result UInt32) := xdrResult uInt

/-- `xdr_nvcgo_find_device_cgroup_path_res`. -/
def xdrNvcgoFindDeviceCgroupPathRes : Xdr (Result (Option CStr)) := xdrResult string

/-- `xdr_nvcgo_setup_device_cgroup_res`. -/
def xdrNvcgoSetupDeviceCgroupRes : Xdr (Result Unit) := xdrResult .unit

/-- `xdr_nvcgo_get_device_cgroup_version_1_argument`. -/
def xdrNvcgoGetDeviceCgroupVersion1Argument : Xdr (Ptr × Option CStr × Int32) :=
  xdrPtr.both (string.both int)

/-- `xdr_nvcgo_find_device_cgroup_path_1_argument`. -/
def xdrNvcgoFindDeviceCgroupPath1Argument : Xdr (Ptr × Int32 × Option CStr × Int32 × Int32) :=
  xdrPtr.both (int.both (string.both (int.both int)))

/-- `xdr_nvcgo_setup_device_cgroup_1_argument`. -/
def xdrNvcgoSetupDeviceCgroup1Argument : Xdr (Ptr × Int32 × Option CStr × UInt64) :=
  xdrPtr.both (int.both (string.both uLong))

end Routines

/-! ## The driver's program -/

/-- The procedures of `DRIVER_PROGRAM`. -/
inductive DriverProc
  | init
  | shutdown
  | getRmVersion
  | getCudaVersion
  | getDeviceCount
  | getDevice
  | getDeviceMinor
  | getDeviceBusid
  | getDeviceUuid
  | getDeviceArch
  | getDeviceModel
  | getDeviceBrand
  | getDeviceMigMode
  | getDeviceMaxMigDeviceCount
  | getDeviceMigDevice
  | getDeviceGpuInstanceId
  | getDeviceComputeInstanceId
  deriving DecidableEq

namespace DriverProc

/-- What a procedure of the driver program takes. -/
abbrev Arg : DriverProc → Type
  | init | shutdown | getRmVersion | getCudaVersion | getDeviceCount => Ptr
  | getDevice => Ptr × UInt32
  | getDeviceMigDevice => Ptr × Ptr × UInt32
  | _ => Ptr × Ptr

/-- What a procedure of the driver program answers with when it succeeds. -/
abbrev Value : DriverProc → Type
  | init | shutdown => Unit
  | getRmVersion | getDeviceBusid | getDeviceUuid | getDeviceModel | getDeviceBrand => Option CStr
  | getCudaVersion => DriverCudaVersion
  | getDeviceArch => DriverDeviceArch
  | getDevice | getDeviceMigDevice => Ptr
  | getDeviceMigMode => DriverDeviceMigMode
  | _ => UInt32

/-- The numbers of `nvc_rpc.h`, which the stubs use. -/
def number : DriverProc → ℕ
  | init => 1
  | shutdown => 2
  | getRmVersion => 3
  | getCudaVersion => 4
  | getDeviceCount => 5
  | getDevice => 6
  | getDeviceMinor => 7
  | getDeviceBusid => 8
  | getDeviceUuid => 9
  | getDeviceArch => 10
  | getDeviceModel => 11
  | getDeviceBrand => 12
  | getDeviceMigMode => 13
  | getDeviceMaxMigDeviceCount => 14
  | getDeviceMigDevice => 15
  | getDeviceGpuInstanceId => 16
  | getDeviceComputeInstanceId => 17

/-- The cases of `driver_program_1`. -/
def entry : ℕ → Option DriverProc
  | 1 => some init
  | 2 => some shutdown
  | 3 => some getRmVersion
  | 4 => some getCudaVersion
  | 5 => some getDeviceCount
  | 6 => some getDevice
  | 7 => some getDeviceMinor
  | 8 => some getDeviceBusid
  | 9 => some getDeviceUuid
  | 10 => some getDeviceArch
  | 11 => some getDeviceModel
  | 12 => some getDeviceBrand
  | 13 => some getDeviceMigMode
  | 14 => some getDeviceMaxMigDeviceCount
  | 15 => some getDeviceMigDevice
  | 16 => some getDeviceGpuInstanceId
  | 17 => some getDeviceComputeInstanceId
  | _ => none

/-- The filter of the arguments. -/
def xdrArgument : (p : DriverProc) → Xdr p.Arg
  | init => xdrPtr
  | shutdown => xdrPtr
  | getRmVersion => xdrPtr
  | getCudaVersion => xdrPtr
  | getDeviceCount => xdrPtr
  | getDevice => xdrDriverGetDevice1Argument
  | getDeviceMinor => xdrDriverGetDeviceMinor1Argument
  | getDeviceBusid => xdrDriverGetDeviceBusid1Argument
  | getDeviceUuid => xdrDriverGetDeviceUuid1Argument
  | getDeviceArch => xdrDriverGetDeviceArch1Argument
  | getDeviceModel => xdrDriverGetDeviceModel1Argument
  | getDeviceBrand => xdrDriverGetDeviceBrand1Argument
  | getDeviceMigMode => xdrDriverGetDeviceMigMode1Argument
  | getDeviceMaxMigDeviceCount => xdrDriverGetDeviceMaxMigDeviceCount1Argument
  | getDeviceMigDevice => xdrDriverGetDeviceMigDevice1Argument
  | getDeviceGpuInstanceId => xdrDriverGetDeviceGpuInstanceId1Argument
  | getDeviceComputeInstanceId => xdrDriverGetDeviceComputeInstanceId1Argument

/-- The filter of the results. -/
def xdrRes : (p : DriverProc) → Xdr (Result p.Value)
  | init => xdrDriverInitRes
  | shutdown => xdrDriverShutdownRes
  | getRmVersion => xdrDriverGetRmVersionRes
  | getCudaVersion => xdrDriverGetCudaVersionRes
  | getDeviceCount => xdrDriverGetDeviceCountRes
  | getDevice => xdrDriverGetDeviceRes
  | getDeviceMinor => xdrDriverGetDeviceMinorRes
  | getDeviceBusid => xdrDriverGetDeviceBusidRes
  | getDeviceUuid => xdrDriverGetDeviceUuidRes
  | getDeviceArch => xdrDriverGetDeviceArchRes
  | getDeviceModel => xdrDriverGetDeviceModelRes
  | getDeviceBrand => xdrDriverGetDeviceBrandRes
  | getDeviceMigMode => xdrDriverGetDeviceMigModeRes
  | getDeviceMaxMigDeviceCount => xdrDriverGetDeviceMaxMigDeviceCountRes
  | getDeviceMigDevice => xdrDriverGetDeviceMigDeviceRes
  | getDeviceGpuInstanceId => xdrDriverGetDeviceGpuInstanceIdRes
  | getDeviceComputeInstanceId => xdrDriverGetDeviceComputeInstanceIdRes

end DriverProc

/-- `DRIVER_PROGRAM`, version 1. -/
abbrev driverProgram : RpcProgram where
  Proc := DriverProc
  Arg := DriverProc.Arg
  Res p := Result p.Value
  number := DriverProc.number
  entry := DriverProc.entry
  xdrArg := DriverProc.xdrArgument
  xdrRes := DriverProc.xdrRes
  number_ne_zero p := by cases p <;> decide
  entry_number p := by cases p <;> rfl

/-! ## The program of the Go library -/

/-- The procedures of `NVCGO_PROGRAM`. -/
inductive NvcgoProc
  | init
  | shutdown
  | getDeviceCgroupVersion
  | findDeviceCgroupPath
  | setupDeviceCgroup
  deriving DecidableEq

namespace NvcgoProc

/-- What a procedure of the nvcgo program takes. -/
abbrev Arg : NvcgoProc → Type
  | init | shutdown => Ptr
  | getDeviceCgroupVersion => Ptr × Option CStr × Int32
  | findDeviceCgroupPath => Ptr × Int32 × Option CStr × Int32 × Int32
  | setupDeviceCgroup => Ptr × Int32 × Option CStr × UInt64

/-- What a procedure of the nvcgo program answers with when it succeeds. -/
abbrev Value : NvcgoProc → Type
  | getDeviceCgroupVersion => UInt32
  | findDeviceCgroupPath => Option CStr
  | _ => Unit

/-- The number of the procedure in `nvc_rpc.x`. -/
def number : NvcgoProc → ℕ
  | init => 1
  | shutdown => 2
  | getDeviceCgroupVersion => 3
  | findDeviceCgroupPath => 4
  | setupDeviceCgroup => 5

/-- The cases of `nvcgo_program_1`. -/
def entry : ℕ → Option NvcgoProc
  | 1 => some init
  | 2 => some shutdown
  | 3 => some getDeviceCgroupVersion
  | 4 => some findDeviceCgroupPath
  | 5 => some setupDeviceCgroup
  | _ => none

/-- The filter of the arguments. -/
def xdrArgument : (p : NvcgoProc) → Xdr p.Arg
  | init => xdrPtr
  | shutdown => xdrPtr
  | getDeviceCgroupVersion => xdrNvcgoGetDeviceCgroupVersion1Argument
  | findDeviceCgroupPath => xdrNvcgoFindDeviceCgroupPath1Argument
  | setupDeviceCgroup => xdrNvcgoSetupDeviceCgroup1Argument

/-- The filter of the results. -/
def xdrRes : (p : NvcgoProc) → Xdr (Result p.Value)
  | init => xdrNvcgoInitRes
  | shutdown => xdrNvcgoShutdownRes
  | getDeviceCgroupVersion => xdrNvcgoGetDeviceCgroupVersionRes
  | findDeviceCgroupPath => xdrNvcgoFindDeviceCgroupPathRes
  | setupDeviceCgroup => xdrNvcgoSetupDeviceCgroupRes

end NvcgoProc

/-- `NVCGO_PROGRAM`, version 1. -/
abbrev nvcgoProgram : RpcProgram where
  Proc := NvcgoProc
  Arg := NvcgoProc.Arg
  Res p := Result p.Value
  number := NvcgoProc.number
  entry := NvcgoProc.entry
  xdrArg := NvcgoProc.xdrArgument
  xdrRes := NvcgoProc.xdrRes
  number_ne_zero p := by cases p <;> decide
  entry_number p := by cases p <;> rfl

/-! ## What can be sent -/

/-- A result can be sent if its value can, or its text is there. -/
theorem writes_xdrResult {α : Type} {value : Xdr α} {res : Result α} :
    (xdrResult value).Writes res ↔
      match res with
      | .value a => value.Writes a
      | .failure _ msg => msg.isSome := by
  rw [xdrResult, Codec.writes_map]
  rcases res with a | ⟨c, msg⟩
  · exact (Codec.writes_switch_inl (a := a)).trans (and_iff_right (writes_int 0))
  · exact (Codec.writes_switch_inr (g := msg)).trans
      ((and_iff_right (writes_int c)).trans writes_string)

/-- Every argument of the driver's procedures can be sent. -/
theorem writes_driverArgument (p : DriverProc) (a : p.Arg) : p.xdrArgument.Writes a := by
  cases p <;> rfl

/-- The arguments of the Go library's procedures can be sent if their string is there and the device
number fits a word. -/
def NvcgoProc.Sendable : (p : NvcgoProc) → p.Arg → Prop
  | init, _ | shutdown, _ => True
  | getDeviceCgroupVersion, (_, root, _) => root.isSome
  | findDeviceCgroupPath, (_, _, root, _, _) => root.isSome
  | setupDeviceCgroup, (_, _, cgroup, id) => cgroup.isSome ∧ id.toNat < 2 ^ 32

/-- Every argument that can be sent is written. -/
theorem writes_nvcgoArgument {p : NvcgoProc} {a : p.Arg} :
    p.xdrArgument.Writes a ↔ p.Sendable a := by
  cases p with
  | init => exact iff_of_true rfl trivial
  | shutdown => exact iff_of_true rfl trivial
  | getDeviceCgroupVersion =>
    refine Codec.writes_both.trans ((and_iff_right (writes_int64 _)).trans ?_)
    exact Codec.writes_both.trans ((and_iff_left (writes_int _)).trans writes_string)
  | findDeviceCgroupPath =>
    refine Codec.writes_both.trans ((and_iff_right (writes_int64 _)).trans ?_)
    refine Codec.writes_both.trans ((and_iff_right (writes_int _)).trans ?_)
    refine Codec.writes_both.trans ((and_iff_left ?_).trans writes_string)
    exact Codec.writes_both.mpr ⟨writes_int _, writes_int _⟩
  | setupDeviceCgroup =>
    refine Codec.writes_both.trans ((and_iff_right (writes_int64 _)).trans ?_)
    refine Codec.writes_both.trans ((and_iff_right (writes_int _)).trans ?_)
    exact Codec.writes_both.trans (and_congr writes_string writes_uLong)

end Messages
