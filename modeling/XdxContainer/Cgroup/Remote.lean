import XdxContainer.Cgroup.DeviceFilter
import XdxContainer.Data.Except
import XdxContainer.Path.Strings

/-!
# Cgroup/Remote — the device cgroup calls, from the library to the privileged service and back

    client ──call_rpc──▸ service ──raise──▸ Go ──▸ … ──▸ drop ──rv──▸ result union ──▸ client

`cgroup.c`: three functions of the library and the three services they call.  What a service left is
in two places, the return code `rv` and the error, and only a negative `rv` puts the error into the
result union.  `crosses_iff` says for which of the three pairs and on which way the client still
gets a value when the service failed.  Memory allocations succeed.
-/

open Paths

namespace Remote

/-! ## Errors and results -/

/-- `struct error`; the code is 0 when it is not set. -/
structure Error where
  code : ℤ := 0
  msg : String := ""
  deriving DecidableEq, Repr

/-- A failed system call: `errno`, never 0 then, and its text in lower case. -/
structure Fault where
  errno : ℕ
  text : String
  errno_ne : errno ≠ 0

/-- `error_set`. -/
def Error.set (msg : String) (f : Fault) : Error := ⟨f.errno, msg ++ ": " ++ f.text⟩

/-- `error_setx`. -/
def Error.setx (msg : String) : Error := ⟨-1, msg⟩

/-- A result union of `nvc_rpc.x`: `errcode` selects the arm. -/
inductive Res (α : Type)
  | value (a : α)
  | failure (err : Error) (errcode_ne : err.code ≠ 0)

/-- `error_to_xdr`. -/
def errorToXdr {α : Type} (err : Error) (res : Res α) : Res α :=
  if h : err.code ≠ 0 then .failure err h else res

/-- `RPC_SYSTEMERROR`, what the dispatcher answers when the result cannot be encoded. -/
def systemError : Error := ⟨12, "nvcgo rpc error: remote system error"⟩

/-- `call_rpc` on a transport that delivers the reply; `sendable` when the value can be encoded. -/
def callRpc {α : Type} (sendable : α → Bool) : Res α → Except Error α
  | .value a => if sendable a then .ok a else .error systemError
  | .failure err _ => .error err

/-! ## What a service calls -/

/-- The capability sets a service raises: `ecaps[NVC_CONTAINER]` and `ecaps[NVC_MOUNT]`. -/
inductive Ecaps
  | container
  | mount
  deriving DecidableEq, Repr

/-- The outcomes of the two capability changes of a service. -/
structure Caps where
  raise : Ecaps → Except Fault Unit
  drop : Except Fault Unit

/-- `perm_set_capabilities`. -/
def permSetCapabilities (change : Except Fault Unit) : Except Error Unit :=
  change.mapError (Error.set "capability change failed")

/-- The functions `main.go` exports, each with the value or the text of the error.  A version is 1
or 2. -/
structure GoApi where
  getDeviceCGroupVersion : (rootPath : Str) → (pid : ℤ) → Except String ℤ
  getDeviceCGroupMountPath : (version : ℤ) → (procRootPath : Str) → (pid : ℤ) →
    Except String (Str × Str)
  getDeviceCGroupRootPath : (version : ℤ) → (procRootPath : Str) → (rootPrefix : Str) →
    (pid : ℤ) → Except String Str
  addDeviceRules : (version : ℤ) → (cgroupPath : Str) → List Cgroup.DeviceRule →
    Except String Unit
  version_mem : ∀ root pid v, getDeviceCGroupVersion root pid = .ok v → v = 1 ∨ v = 2

/-- What an exported function returns beside what it stores. -/
def goReturn {α : Type} : Except String α → ℤ
  | .ok _ => 0
  | .error _ => -1

/-! ## The services -/

/-- The statements of a service before its label: the value stored in the result, or `rv` and the
error at the `goto fail`. -/
abbrev Body (α : Type) := Except (ℤ × Error) α

/-- `if ((rv = call) < 0) { error_setx(err, msg, rerr); goto fail; }`. -/
def orFail {α : Type} (msg : String) (call : Except String α) : Body α :=
  call.mapError fun rerr => (goReturn call, Error.setx (msg ++ rerr))

/-- `if ((rv = path_append(err, buf, path)) < 0) goto fail;`, with what was written in the error. -/
def appending (buf path : Str) : Body Str :=
  match pathAppend buf path with
  | (true, buf') => .ok buf'
  | (false, buf') => .error (-1, ⟨36, "path error: " ++ String.ofList (buf'.drop buf.length) ++ "/"
      ++ String.ofList path ++ ": file name too long"⟩)

/-- What follows the label: the capabilities are dropped, and a negative `rv` puts the error into
the result. -/
def leave {α : Type} (caps : Caps) (zero : α) (body : Body α) : Res α :=
  let (rv, err, res) : ℤ × Error × Res α :=
    match body with
    | .ok a => (0, {}, .value a)
    | .error (rv, err) => (rv, err, .value zero)
  let (rv, err) : ℤ × Error :=
    match permSetCapabilities caps.drop with
    | .ok () => (rv, err)
    | .error e => (-1, e)
  if rv < 0 then errorToXdr err res else res

/-- Raising the capabilities, at the start of each service: `rv` is still -1. -/
def raising (caps : Caps) (ecaps : Ecaps) : Body Unit :=
  (permSetCapabilities (caps.raise ecaps)).mapError fun e => (-1, e)

/-- `nvcgo_get_device_cgroup_version_1_svc`, before its label. -/
def versionBody (caps : Caps) (api : GoApi) (procRoot : Str) (pid : ℤ) : Body ℕ := do
  raising caps .container
  let call := api.getDeviceCGroupVersion procRoot pid
  -- `(rv = call < 0)`: here the parentheses give `rv` the value of the comparison
  let rv : ℤ := if goReturn call < 0 then 1 else 0
  match call with
  | .error rerr => .error (rv, Error.setx ("failed to get device cgroup version: " ++ rerr))
  | .ok version => .ok (version % 2 ^ 32).toNat

/-- `nvcgo_find_device_cgroup_path_1_svc`, before its label; the result is a `char *`. -/
def findBody (caps : Caps) (api : GoApi) (version : ℤ) (procRoot : Str) (mpPid rpPid : ℤ) :
    Body (Option Str) := do
  raising caps .container
  let (mountPrefix, mount) ← orFail "failed to get device cgroup mount path: "
    (api.getDeviceCGroupMountPath version procRoot mpPid)
  let root ← orFail "failed to get device cgroup root path: "
    (api.getDeviceCGroupRootPath version procRoot mountPrefix rpPid)
  let path ← appending [] procRoot
  let path ← appending path mount
  let path ← appending path root
  return some path

/-- `nvcgo_setup_device_cgroup_1_svc`, before its label. -/
def setupBody (caps : Caps) (api : GoApi) (version : ℤ) (devCg : Str) (major minor : ℕ) :
    Body Unit := do
  raising caps .mount
  orFail "failed to add device rules: " (api.addDeviceRules version devCg
    [{ allow := true, type := "c", access := "rw", major := major, minor := minor }])

/-- `nvcgo_get_device_cgroup_version_1_svc`. -/
def getDeviceCgroupVersionSvc (caps : Caps) (api : GoApi) (procRoot : Str) (pid : ℤ) : Res ℕ :=
  leave caps 0 (versionBody caps api procRoot pid)

/-- `nvcgo_find_device_cgroup_path_1_svc`. -/
def findDeviceCgroupPathSvc (caps : Caps) (api : GoApi) (version : ℤ) (procRoot : Str)
    (mpPid rpPid : ℤ) : Res (Option Str) :=
  leave caps none (findBody caps api version procRoot mpPid rpPid)

/-- `nvcgo_setup_device_cgroup_1_svc`. -/
def setupDeviceCgroupSvc (caps : Caps) (api : GoApi) (version : ℤ) (devCg : Str)
    (major minor : ℕ) : Res Unit :=
  leave caps () (setupBody caps api version devCg major minor)

/-! ## The clients -/

/-- What the clients read of the container and of the process. -/
structure Container where
  standalone : Bool
  rootfs : Str
  pid : ℤ
  devCgVersion : ℤ
  devCg : Str
  ppid : ℤ

/-- Where `/proc` is looked for. -/
def Container.procRoot (cnt : Container) : Str := if cnt.standalone then cnt.rootfs else ['/']

/-- The process whose mounts are read. -/
def Container.mountPid (cnt : Container) : ℤ := if cnt.standalone then cnt.pid else cnt.ppid

/-- `(int)` of an unsigned 32-bit integer. -/
def toInt (n : ℕ) : ℤ := if n < 2 ^ 31 then n else n - 2 ^ 32

/-- `get_device_cgroup_version`: what it returns, and the error. -/
def getDeviceCgroupVersion (caps : Caps) (api : GoApi) (cnt : Container) : ℤ × Error :=
  match callRpc (fun _ => true) (getDeviceCgroupVersionSvc caps api cnt.procRoot cnt.pid) with
  | .ok vers => (toInt vers, {})
  | .error e => (-1, e)

/-- `find_device_cgroup_path`: what it returns, and the error. -/
def findDeviceCgroupPath (caps : Caps) (api : GoApi) (cnt : Container) : Option Str × Error :=
  match callRpc Option.isSome (findDeviceCgroupPathSvc caps api cnt.devCgVersion cnt.procRoot
      cnt.mountPid cnt.pid) with
  | .ok path => (path, {})
  | .error e => (none, e)

/-- `setup_device_cgroup`: what it returns, and the error. -/
def setupDeviceCgroup (caps : Caps) (api : GoApi) (cnt : Container) (major minor : ℕ) : ℤ × Error :=
  match callRpc (fun _ => true) (setupDeviceCgroupSvc caps api cnt.devCgVersion cnt.devCg major
      minor) with
  | .ok () => (0, {})
  | .error e => (-1, e)

/-! ## What the services achieve, and what the clients report -/

/-- Joining paths, none if the result does not fit. -/
def joined (path : Str) (rest : List Str) : Option Str :=
  rest.foldlM (fun buf p => if (pathAppend buf p).1 then some (pathAppend buf p).2 else none) path

/-- What a service achieves: the work in between, if both capability changes succeed. -/
def achieved {α : Type} (caps : Caps) (ecaps : Ecaps) (work : Option α) : Option α :=
  if (caps.raise ecaps).isOk ∧ caps.drop.isOk then work else none

/-- The version the Go call produced, none if the service failed. -/
def versionAchieved (caps : Caps) (api : GoApi) (cnt : Container) : Option ℤ :=
  achieved caps .container (api.getDeviceCGroupVersion cnt.procRoot cnt.pid).toOption

/-- The root joined with the two paths the Go calls produce. -/
def locate (api : GoApi) (version : ℤ) (procRoot : Str) (mpPid rpPid : ℤ) : Option Str := do
  let (mountPrefix, mount) ← (api.getDeviceCGroupMountPath version procRoot mpPid).toOption
  let root ← (api.getDeviceCGroupRootPath version procRoot mountPrefix rpPid).toOption
  joined [] [procRoot, mount, root]

/-- The path the Go calls produced, none if the service failed. -/
def pathAchieved (caps : Caps) (api : GoApi) (cnt : Container) : Option Str :=
  achieved caps .container (locate api cnt.devCgVersion cnt.procRoot cnt.mountPid cnt.pid)

/-- Whether the rules were added, none if the service failed. -/
def setupAchieved (caps : Caps) (api : GoApi) (cnt : Container) (major minor : ℕ) : Option Unit :=
  achieved caps .mount (api.addDeviceRules cnt.devCgVersion cnt.devCg
    [{ allow := true, type := "c", access := "rw", major := major, minor := minor }]).toOption

/-- The three pairs of client and service. -/
inductive Pair
  | version
  | find
  | setup (major minor : ℕ)
  deriving DecidableEq

/-- The client reports a failure exactly when the service failed, and else the value produced. -/
def Pair.Crosses (caps : Caps) (api : GoApi) (cnt : Container) : Pair → Prop
  | .version =>
    let rv := (getDeviceCgroupVersion caps api cnt).1
    versionAchieved caps api cnt = if rv < 0 then none else some rv
  | .find => pathAchieved caps api cnt = (findDeviceCgroupPath caps api cnt).1
  | .setup major minor =>
    let rv := (setupDeviceCgroup caps api cnt major minor).1
    setupAchieved caps api cnt major minor = if rv < 0 then none else some ()

/-! ## The way back -/

section Leave

variable {α : Type} {caps : Caps} {zero : α} {sendable : α → Bool} {body : Body α}

/-- Every `goto fail` of the service has a negative `rv` and a set error. -/
def Flagged (body : Body α) : Prop := ∀ rv err, body = .error (rv, err) → rv < 0 ∧ err.code ≠ 0

theorem Flagged.ok (a : α) : Flagged (.ok a) := fun _ _ h => nomatch h

/-- An error of a sequence is an error of one of its parts. -/
theorem Flagged.bind {β : Type} {x : Body α} {f : α → Body β} (hx : Flagged x)
    (hf : ∀ a, Flagged (f a)) : Flagged (x >>= f) := by
  intro rv err h
  rcases x with ⟨rv', err'⟩ | a
  · obtain ⟨rfl, rfl⟩ := Prod.mk.inj (Except.error.inj h)
    exact hx _ _ rfl
  · exact hf a rv err h

/-- A call that fails sets the error. -/
theorem flagged_orFail (msg : String) (call : Except String α) : Flagged (orFail msg call) := by
  rcases call with rerr | a
  · intro rv err h
    obtain ⟨rfl, rfl⟩ := Prod.mk.inj (Except.error.inj h)
    exact ⟨by simp [goReturn], by simp [Error.setx]⟩
  · exact Flagged.ok a

theorem flagged_appending (buf path : Str) : Flagged (appending buf path) := by
  intro rv err h
  unfold appending at h
  split at h
  · cases h
  · obtain ⟨rfl, rfl⟩ := Prod.mk.inj (Except.error.inj h)
    exact ⟨by decide, by simp⟩

/-- The code of an error that is set is not 0. -/
theorem Error.set_code_ne (msg : String) (f : Fault) : (Error.set msg f).code ≠ 0 := by
  simpa [Error.set] using f.errno_ne

theorem flagged_raising (caps : Caps) (ecaps : Ecaps) : Flagged (raising caps ecaps) := by
  unfold raising
  rcases caps.raise ecaps with f | u
  · intro rv err h
    obtain ⟨rfl, rfl⟩ := Prod.mk.inj (Except.error.inj h)
    exact ⟨by decide, Error.set_code_ne _ f⟩
  · exact Flagged.ok u

/-- With the capabilities raised the rest is done. -/
theorem raising_toOption (caps : Caps) (ecaps : Ecaps) (x : Body α) :
    (raising caps ecaps >>= fun _ => x).toOption
      = if (caps.raise ecaps).isOk then x.toOption else none := by
  unfold raising
  rcases caps.raise ecaps with f | u <;> rfl

/-- A failed drop fails the call. -/
theorem callRpc_leave_of_drop {f : Fault} (hdrop : caps.drop = .error f) :
    callRpc sendable (leave caps zero body) = .error (Error.set "capability change failed" f) := by
  have hne := Error.set_code_ne "capability change failed" f
  simp only [leave, hdrop, permSetCapabilities, Except.mapError]
  simp [errorToXdr, hne, callRpc]

/-- A service that stored its value has it delivered. -/
theorem callRpc_leave_of_ok {a : α} (hdrop : caps.drop.isOk) (hbody : body = .ok a) :
    callRpc sendable (leave caps zero body) = callRpc sendable (.value a) := by
  rcases hc : caps.drop with f | u
  · rw [hc] at hdrop
    cases hdrop
  · simp [leave, hbody, hc, permSetCapabilities, Except.mapError]

/-- A `goto fail` delivers the error where `rv` is negative, and the zeroed result elsewhere. -/
theorem callRpc_leave_of_error {rv : ℤ} {err : Error} (hdrop : caps.drop.isOk)
    (hbody : body = .error (rv, err)) (herr : err.code ≠ 0) :
    callRpc sendable (leave caps zero body)
      = if rv < 0 then .error err else callRpc sendable (.value zero) := by
  rcases hc : caps.drop with f | u
  · rw [hc] at hdrop
    cases hdrop
  · simp only [leave, hbody, hc, permSetCapabilities, Except.mapError]
    split_ifs
    · simp [errorToXdr, herr, callRpc]
    · rfl

/-- **A flagged service crosses**: the client gets the value stored, if the capabilities were
dropped. -/
theorem callRpc_leave (caps : Caps) (zero : α) (hbody : Flagged body)
    (hsend : ∀ a, body = .ok a → sendable a) : (callRpc sendable (leave caps zero body)).toOption
      = if caps.drop.isOk then body.toOption else none := by
  by_cases hdrop : caps.drop.isOk
  · rw [if_pos hdrop]
    rcases hb : body with ⟨rv, err⟩ | a
    · obtain ⟨hrv, herr⟩ := hbody rv err hb
      rw [← hb, callRpc_leave_of_error hdrop hb herr, if_pos hrv, hb]
      rfl
    · rw [← hb, callRpc_leave_of_ok hdrop hb, callRpc, if_pos (hsend a hb), hb]
      rfl
  · rw [if_neg hdrop]
    rcases hc : caps.drop with f | u
    · rw [callRpc_leave_of_drop hc]
      rfl
    · rw [hc] at hdrop
      exact absurd rfl hdrop

end Leave

/-! ## The three pairs -/

variable (caps : Caps) (api : GoApi) (cnt : Container)

/-- Whatever fails in `find`, the error is set. -/
theorem flagged_findBody (version : ℤ) (procRoot : Str) (mpPid rpPid : ℤ) :
    Flagged (findBody caps api version procRoot mpPid rpPid) :=
  (flagged_raising caps .container).bind fun _ =>
    (flagged_orFail _ _).bind fun _ =>
      (flagged_orFail _ _).bind fun _ =>
        (flagged_appending _ _).bind fun _ =>
          (flagged_appending _ _).bind fun _ =>
            (flagged_appending _ _).bind fun _ => Flagged.ok _

/-- Whatever fails in `setup`, the error is set. -/
theorem flagged_setupBody (version : ℤ) (devCg : Str) (major minor : ℕ) :
    Flagged (setupBody caps api version devCg major minor) :=
  (flagged_raising caps .mount).bind fun _ => flagged_orFail _ _

/-- The error of the version service is flagged unless it is that of the Go call. -/
theorem flagged_versionBody {v : ℤ} {procRoot : Str} {pid : ℤ}
    (hgo : api.getDeviceCGroupVersion procRoot pid = .ok v) :
    Flagged (versionBody caps api procRoot pid) := by
  refine (flagged_raising caps .container).bind fun _ => ?_
  rw [hgo]
  exact Flagged.ok _

/-- A version comes back from the unsigned number it is sent as. -/
theorem toInt_version {v : ℤ} (hv : v = 1 ∨ v = 2) : toInt (v % 2 ^ 32).toNat = v := by
  rcases hv with rfl | rfl <;> rfl

theorem achieved_eq {α : Type} (ecaps : Ecaps) (work : Option α) :
    achieved caps ecaps work
      = if caps.drop.isOk then (if (caps.raise ecaps).isOk then work else none) else none := by
  unfold achieved
  split_ifs <;> simp_all

theorem appending_toOption (buf path : Str) :
    (appending buf path).toOption
      = if (pathAppend buf path).1 then some (pathAppend buf path).2 else none := by
  unfold appending
  rcases pathAppend buf path with ⟨_ | _, buf'⟩ <;> rfl

/-- What the service finds, if the capabilities can be raised. -/
theorem findBody_toOption (version : ℤ) (procRoot : Str) (mpPid rpPid : ℤ) :
    (findBody caps api version procRoot mpPid rpPid).toOption
      = (if (caps.raise .container).isOk then locate api version procRoot mpPid rpPid
          else none).map some := by
  rw [findBody, raising_toOption, apply_ite (Option.map some)]
  congr 1
  simp only [locate, Except.toOption_bind, orFail, Except.toOption_mapError, appending_toOption,
    joined, List.foldlM_cons, List.foldlM_nil, Option.bind_eq_bind, Option.map_bind,
    Function.comp_def]
  rfl

/-- `find` crosses as it is. -/
theorem crosses_find : Pair.find.Crosses caps api cnt := by
  have hbody := findBody_toOption caps api cnt.devCgVersion cnt.procRoot cnt.mountPid cnt.pid
  have hsend : ∀ a, findBody caps api cnt.devCgVersion cnt.procRoot cnt.mountPid cnt.pid = .ok a →
      a.isSome := by
    intro a ha
    rw [ha] at hbody
    obtain ⟨path, -, rfl⟩ := Option.map_eq_some_iff.mp hbody.symm
    rfl
  have hcall : (callRpc Option.isSome (findDeviceCgroupPathSvc caps api cnt.devCgVersion
      cnt.procRoot cnt.mountPid cnt.pid)).toOption = (pathAchieved caps api cnt).map some := by
    have hflag := flagged_findBody caps api cnt.devCgVersion cnt.procRoot cnt.mountPid cnt.pid
    rw [findDeviceCgroupPathSvc, callRpc_leave caps none hflag hsend, hbody, pathAchieved,
      achieved_eq, apply_ite (Option.map some) (caps.drop.isOk = true), Option.map_none]
  rw [Pair.Crosses, findDeviceCgroupPath]
  generalize callRpc Option.isSome (findDeviceCgroupPathSvc caps api cnt.devCgVersion
      cnt.procRoot cnt.mountPid cnt.pid) = r at hcall
  rcases r with e | path
  · exact Option.map_eq_none_iff.mp hcall.symm
  · obtain ⟨p, hp, rfl⟩ := Option.map_eq_some_iff.mp hcall.symm
    exact hp

/-- `setup` crosses as it is. -/
theorem crosses_setup (major minor : ℕ) : (Pair.setup major minor).Crosses caps api cnt := by
  have hcall : (callRpc (fun _ => true) (setupDeviceCgroupSvc caps api cnt.devCgVersion cnt.devCg
      major minor)).toOption = setupAchieved caps api cnt major minor := by
    have hflag := flagged_setupBody caps api cnt.devCgVersion cnt.devCg major minor
    rw [setupDeviceCgroupSvc, callRpc_leave caps () hflag fun _ _ => rfl, setupBody,
      raising_toOption, orFail, Except.toOption_mapError, setupAchieved, achieved_eq]
  rw [Pair.Crosses, setupDeviceCgroup, ← hcall]
  rcases callRpc (fun _ => true) (setupDeviceCgroupSvc caps api cnt.devCgVersion cnt.devCg
    major minor) with e | u <;> rfl

/-- The version pair crosses when the Go call succeeds. -/
theorem crosses_version_of_ok {v : ℤ}
    (hgo : api.getDeviceCGroupVersion cnt.procRoot cnt.pid = .ok v) :
    Pair.version.Crosses caps api cnt := by
  have hv := api.version_mem _ _ v hgo
  have hcall : (callRpc (fun _ => true) (getDeviceCgroupVersionSvc caps api cnt.procRoot
      cnt.pid)).toOption.map toInt = versionAchieved caps api cnt := by
    rw [getDeviceCgroupVersionSvc, callRpc_leave caps 0 (flagged_versionBody caps api hgo)
      fun _ _ => rfl, versionBody, raising_toOption, versionAchieved, achieved_eq, hgo]
    split_ifs
    · exact congrArg some (toInt_version hv)
    · rfl
    · rfl
  have hpos : ∀ w, versionAchieved caps api cnt = some w → ¬ w < 0 := by
    intro w hw
    rw [versionAchieved, achieved, hgo] at hw
    split_ifs at hw
    obtain rfl : v = w := Option.some.inj hw
    omega
  rw [Pair.Crosses, getDeviceCgroupVersion]
  generalize callRpc (fun _ => true) (getDeviceCgroupVersionSvc caps api cnt.procRoot cnt.pid) = r
    at hcall
  rcases r with e | vers
  · exact hcall.symm
  · have hvers : versionAchieved caps api cnt = some (toInt vers) := hcall.symm
    rw [if_neg (hpos _ hvers), hvers]

/-- The version pair crosses when a capability change fails. -/
theorem crosses_version_of_caps (hcaps : ¬ ((caps.raise .container).isOk ∧ caps.drop.isOk)) :
    Pair.version.Crosses caps api cnt := by
  have hach : versionAchieved caps api cnt = none := if_neg hcaps
  have hcall : ∃ e, callRpc (fun _ => true) (getDeviceCgroupVersionSvc caps api cnt.procRoot
      cnt.pid) = .error e := by
    rcases hdrop : caps.drop with f | u
    · exact ⟨_, callRpc_leave_of_drop hdrop⟩
    · have hok : caps.drop.isOk := by rw [hdrop]; rfl
      rcases hraise : caps.raise .container with f | u
      · have hbody : versionBody caps api cnt.procRoot cnt.pid
            = .error (-1, Error.set "capability change failed" f) := by
          rw [versionBody, raising, hraise]
          rfl
        refine ⟨Error.set "capability change failed" f, ?_⟩
        exact (callRpc_leave_of_error hok hbody (Error.set_code_ne _ f)).trans (if_pos (by decide))
      · exact absurd ⟨by rw [hraise]; rfl, hok⟩ hcaps
  obtain ⟨e, he⟩ := hcall
  rw [Pair.Crosses, getDeviceCgroupVersion, he, hach]
  rfl

/-- When the Go call fails between two successful capability changes the client returns version
0. -/
theorem getDeviceCgroupVersion_of_error {rerr : String} (hraise : (caps.raise .container).isOk)
    (hdrop : caps.drop.isOk)
    (hgo : api.getDeviceCGroupVersion cnt.procRoot cnt.pid = .error rerr) :
    getDeviceCgroupVersion caps api cnt = (0, {}) := by
  have hbody : versionBody caps api cnt.procRoot cnt.pid
      = .error (1, Error.setx ("failed to get device cgroup version: " ++ rerr)) := by
    rw [versionBody, raising, Except.eq_ok_of_isOk hraise (), hgo]
    rfl
  have hcall : callRpc (fun _ => true) (getDeviceCgroupVersionSvc caps api cnt.procRoot cnt.pid)
      = .ok 0 := by
    have hcode : (Error.setx ("failed to get device cgroup version: " ++ rerr)).code ≠ 0 := by
      simp [Error.setx]
    exact (callRpc_leave_of_error hdrop hbody hcode).trans (if_neg (by decide))
  rw [getDeviceCgroupVersion, hcall]
  rfl

/-- **Where failures cross.**  Every failure of a service reaches its client, and every value too,
except that the version pair loses the failure of the Go call. -/
theorem Pair.crosses_iff (p : Pair) :
    p.Crosses caps api cnt ↔ ¬ (p = .version ∧ (caps.raise .container).isOk ∧ caps.drop.isOk ∧
      ¬ (api.getDeviceCGroupVersion cnt.procRoot cnt.pid).isOk) := by
  cases p with
  | find => simpa using crosses_find caps api cnt
  | setup major minor => simpa using crosses_setup caps api cnt major minor
  | version =>
    constructor
    · rintro hcross ⟨-, hraise, hdrop, hgo⟩
      rcases hcall : api.getDeviceCGroupVersion cnt.procRoot cnt.pid with rerr | v
      · rw [Pair.Crosses, getDeviceCgroupVersion_of_error caps api cnt hraise hdrop hcall,
          versionAchieved, hcall, achieved, if_pos ⟨hraise, hdrop⟩] at hcross
        cases hcross
      · rw [hcall] at hgo
        exact hgo rfl
    · intro hnot
      rcases hcall : api.getDeviceCGroupVersion cnt.procRoot cnt.pid with rerr | v
      · refine crosses_version_of_caps caps api cnt fun hcaps => hnot ⟨rfl, hcaps.1, hcaps.2, ?_⟩
        rw [hcall]
        exact Bool.false_ne_true
      · exact crosses_version_of_ok caps api cnt hcall

/-- A host without `/proc`: every Go call fails. -/
def bareApi : GoApi where
  getDeviceCGroupVersion _ _ := .error "failed to open cgroup path for pid '1': no such file"
  getDeviceCGroupMountPath _ _ _ := .error "no such file"
  getDeviceCGroupRootPath _ _ _ _ := .error "no such file"
  addDeviceRules _ _ _ := .error "no such file"
  version_mem _ _ _ h := nomatch h

/-- Capability changes that succeed. -/
def grantedCaps : Caps := ⟨fun _ => .ok (), .ok ()⟩

/-- A supervised container of process 1. -/
def supervised : Container := ⟨false, "/c".toList, 1, 0, [], 1⟩

/-- The Go call finds no cgroup file and the client returns 0, as if it were a version. -/
theorem version_failure_lost :
    getDeviceCgroupVersion grantedCaps bareApi supervised = (0, {}) ∧
      ¬ ∀ p : Pair, p.Crosses grantedCaps bareApi supervised := by
  refine ⟨by decide, fun hall => ?_⟩
  have hcross : (none : Option ℤ) = some 0 := hall .version
  cases hcross

end Remote
