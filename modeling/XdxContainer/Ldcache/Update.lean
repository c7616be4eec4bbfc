import XdxContainer.Cgroup.Remote
import XdxContainer.Control.Fallible
import XdxContainer.Mount.Code

/-!
# Ldcache/Update — running ldconfig in the container

    parent   validate, open, clone ───────────────────────────────▸ waitpid ──▸ 0 or -1
                               │                                       ▴
    child                      └─▸ namespace, capabilities, root, ─────┘ exit status
                                   limits, privileges, system calls,
                                   exec ldconfig

Whatever the child fails at, it exits with success if the error it is left with has the code
`ENOENT`.  The parent sees the exit status alone.

* `confine_follows` — the code is that of the first call that fails.
* `reportsTruly_iff` — an update is reported that has not happened exactly when a step before exec
  is the first to fail, with `ENOENT`.
-/

open Paths Fallible
open Remote (Error Fault)
open Mount (strHasPrefix)

namespace Update

/-! ## Errors -/

/-- What a thread knows of the calls that failed: its error and `errno`. -/
structure Thread where
  err : Error
  errno : Fault

/-- `error_set`. -/
def Thread.errorSet (msg : String) (s : Thread) : Thread := { s with err := .set msg s.errno }

/-- `error_setx`. -/
def Thread.errorSetx (msg : String) (s : Thread) : Thread := { s with err := .setx msg }

/-- `error_reset`. -/
def Thread.errorReset (s : Thread) : Thread := { s with err := {} }

/-- What follows the label of `create_process`, in the child and in the parent: the output is not
captured, and the process goes on. -/
def Thread.afterClone (captured : Bool) (s : Thread) : Thread :=
  if captured then s else s.errorReset

/-- The operation is not permitted. -/
def EPERM : ℤ := 1

/-- There is no such file. -/
def ENOENT : ℤ := 2

section Calls

variable {ε α : Type}

/-- A system call: one that fails leaves `errno`. -/
def sys (fault : ε → Option Fault) (e : ε) : Prog ε Thread Unit := attempt e fun s =>
  match fault e with
  | none => (true, s)
  | some f => (false, { s with errno := f })

/-- `error_set` where the call fails. -/
def failing (msg : String) (m : Prog ε Thread α) : Prog ε Thread α := onError m (·.errorSet msg)

/-- `error_setx` where the call fails. -/
def failingx (msg : String) (m : Prog ε Thread α) : Prog ε Thread α := onError m (·.errorSetx msg)

/-- A call that may fail with `EPERM`: whether it succeeded. -/
def exceptEPERM (code : Thread → ℤ) (m : Prog ε Thread Unit) : Prog ε Thread Bool := fun s =>
  match m s with
  | (.ok (), t) => (.ok true, t)
  | (.error e, t) => if code t = EPERM then (.ok false, t) else (.error e, t)

end Calls

/-! ## The child -/

/-- The resources that are limited. -/
inductive Rlimit
  | cpu | as | nofile | fsize
  deriving DecidableEq

/-- The fallible calls of the child before exec, in the order of the source. -/
inductive ChildCall
  | openNs | setns
  | noInheritable | inheritable | ambient
  | openLastCap | parseLastCap | capbsetDrop (c : ℕ)
  | unshare | mountPrivate | bindRootfs
  | moveRootfs | openOldroot | openNewroot | fchdirNewroot | pivotRoot | fchdirOldroot
  | umountOldroot | fchdirNewrootAgain | chroot
  | mountProc | hide (path : String) | remountDev | createFd | remountDevRdonly
  | setrlimit (r : Rlimit)
  | securebits | dropPrivileges (dropGroups : Bool)
  | seccomp | noSeccomp
  deriving DecidableEq

/-- How a process ends. -/
inductive WaitStatus
  | exited (n : ℕ)
  | signaled (n : ℕ)
  deriving DecidableEq

/-- What `execve` or `fexecve` comes to: it fails, or the program runs and ends. -/
inductive Exec
  | failed (f : Fault)
  | ran (status : WaitStatus)

/-- What the child's calls come to. -/
structure ChildCalls where
  /-- The failure of a call, if it fails. -/
  fault : ChildCall → Option Fault
  /-- The number in `/proc/sys/kernel/cap_last_cap`. -/
  lastCap : ℕ
  /-- `prctl(PR_CAPBSET_READ, c) > 0`. -/
  capbsetRead : ℕ → Bool
  /-- What is read of the line in `/proc/self/setgroups`, nothing if that fails. -/
  setgroups : Str
  /-- The child could redirect its output. -/
  captured : Bool
  exec : Exec

/-- What the update is asked for, and how the library is built and run. -/
structure Request where
  initialized : Bool
  /-- The container is not `NULL`. -/
  container : Bool
  ldconfig : Str
  rootfs : Str
  mntNs : Str
  uid : ℕ
  noPivot : Bool
  /-- `secure_mode`. -/
  secure : Bool
  /-- `WITH_SECCOMP`. -/
  withSeccomp : Bool
  CAP_LAST_CAP : ℕ

/-- The path of ldconfig is one of the host. -/
def Request.hostLdconfig (c : Request) : Bool := c.ldconfig.head? = some '@'

/-- `argv[0]`. -/
def Request.program (c : Request) : String :=
  String.ofList (if c.hostLdconfig then c.ldconfig.tail else c.ldconfig)

/-- The mount points that are hidden. -/
def mounts : List String := ["/proc", "/sys", "/dev"]

/-- The file that holds the number of the last capability. -/
def PROC_LAST_CAP_PATH : String := "/proc/sys/kernel/cap_last_cap"

section Child

variable (k : ChildCalls) (c : Request)

/-- `xopen`. -/
def xopen (e : ChildCall) (path : String) : Prog ChildCall Thread Unit :=
  failing ("open failed: " ++ path) (sys k.fault e)

/-- `xmount`, without a source or with one that is the target. -/
def xmount (e : ChildCall) (target : String) : Prog ChildCall Thread Unit :=
  failing ("mount operation failed: " ++ target) (sys k.fault e)

/-- `ns_enter`. -/
def nsEnter : Prog ChildCall Thread Unit := do
  xopen k .openNs (String.ofList c.mntNs)
  failing ("namespace association failed: " ++ String.ofList c.mntNs) (sys k.fault .setns)

/-- `perm_set_capabilities`. -/
def permSetCapabilities (e : ChildCall) : Prog ChildCall Thread Unit :=
  failing "capability change failed" (sys k.fault e)

/-- The last capability `perm_set_bounds` looks at. -/
def lastCap : ℕ :=
  if k.lastCap < 2 ^ 31 ∧ c.CAP_LAST_CAP < k.lastCap then k.lastCap else c.CAP_LAST_CAP

/-- The capabilities `perm_set_bounds` drops. -/
def boundsDropped (caps : List ℕ) : List ℕ :=
  (List.range (lastCap k c + 1)).filter fun n => n ∉ caps ∧ k.capbsetRead n

/-- `perm_set_bounds`. -/
def permSetBounds (caps : List ℕ) : Prog ChildCall Thread Unit := do
  xopen k .openLastCap PROC_LAST_CAP_PATH
  failingx ("file read error: " ++ PROC_LAST_CAP_PATH) (sys k.fault .parseLastCap)
  (boundsDropped k c caps).forM fun n => permSetCapabilities k (.capbsetDrop n)

/-- The inheritable and the ambient capabilities. -/
def setInheritable : Prog ChildCall Thread Unit :=
  if c.secure && !c.hostLdconfig then permSetCapabilities k .noInheritable
  else do
    let granted ← exceptEPERM (·.err.code) (permSetCapabilities k .inheritable)
    if granted then
      onlyIf (c.uid ≠ 0) do
        let _ ← exceptEPERM (·.err.code) (permSetCapabilities k .ambient)
    else permSetCapabilities k .noInheritable

/-- `adjust_capabilities`. -/
def adjustCapabilities : Prog ChildCall Thread Unit := do
  setInheritable k c
  permSetBounds k c []

/-- The new root directory: moved over the old one, or swapped with it. -/
def switchRoot : Prog ChildCall Thread Unit :=
  if c.noPivot then do
    xmount k .moveRootfs
      (if strHasPrefix c.rootfs ['/'] then String.ofList c.rootfs else "/")
    xopen k .openNewroot (String.ofList c.rootfs)
    sys k.fault .fchdirNewroot
  else do
    xopen k .openOldroot "/"
    xopen k .openNewroot (String.ofList c.rootfs)
    sys k.fault .fchdirNewroot
    sys k.fault .pivotRoot
    sys k.fault .fchdirOldroot
    sys k.fault .umountOldroot
    sys k.fault .fchdirNewrootAgain

/-- `/dev/fd`, on a `/dev` that is writable for it. -/
def linkFd : Prog ChildCall Thread Unit := do
  xmount k .remountDev "/dev"
  failing "file creation failed: /dev/fd" (sys k.fault .createFd)
  xmount k .remountDevRdonly "/dev"

/-- `change_rootfs` before its label. -/
def enterRootfs : Prog ChildCall Thread Unit := do
  sys k.fault .unshare
  xmount k .mountPrivate "/"
  xmount k .bindRootfs (String.ofList c.rootfs)
  switchRoot k c
  sys k.fault .chroot
  onlyIf c.hostLdconfig (xmount k .mountProc "/proc")
  (mounts.drop c.hostLdconfig.toNat).forM fun path => xmount k (.hide path) path
  linkFd k

/-- `*drop_groups`. -/
def dropGroups : Bool := !strHasPrefix k.setgroups "deny".toList

/-- `change_rootfs`. -/
def changeRootfs : Prog ChildCall Thread Bool := do
  fun s => (.ok (), s.errorReset)
  onError (enterRootfs k c) fun s =>
    if s.err.code = 0 then s.errorSet "process confinement failed" else s
  return dropGroups k

/-- `limit_resources`. -/
def limitResources : Prog ChildCall Thread Unit :=
  failing "resource limiting failed"
    ([.cpu, .as, .nofile, .fsize].forM fun r => sys k.fault (.setrlimit r))

/-- The secure bits, which a process without privileges cannot set. -/
def setSecurebits : Prog ChildCall Thread Unit :=
  onlyIf (c.uid ≠ 0) (failing "privilege change failed" do
    let _ ← exceptEPERM (·.errno.errno) (sys k.fault .securebits))

/-- `adjust_privileges`. -/
def adjustPrivileges (drop : Bool) : Prog ChildCall Thread Unit := do
  setSecurebits k c
  failing "privilege change failed" (sys k.fault (.dropPrivileges drop))

/-- `limit_syscalls`. -/
def limitSyscalls : Prog ChildCall Thread Unit :=
  if c.withSeccomp then failingx "syscall limiting failed" (sys k.fault .seccomp)
  else failingx "running in secure mode with seccomp disabled"
    (attempt .noSeccomp fun s => (!c.secure, s))

/-- **The confinement**: what the child does before exec. -/
def confine : Prog ChildCall Thread Unit := do
  nsEnter k c
  adjustCapabilities k c
  let drop ← changeRootfs k c
  limitResources k
  adjustPrivileges k c drop
  limitSyscalls k c

/-- What the child exits with behind its label. -/
def exitCode (err : Error) : ℕ := if err.code = ENOENT then 0 else 1

/-- How the child ends. -/
def childStatus (s : Thread) : WaitStatus :=
  match confine k c (s.afterClone k.captured) with
  | (.error _, t) => .exited (exitCode t.err)
  | (.ok (), t) =>
    match k.exec with
    | .failed f =>
      .exited (exitCode ({ t with errno := f }.errorSet "process execution failed").err)
    | .ran status => status

end Child

/-! ## The parent -/

/-- The calls of the parent that decide what it returns. -/
inductive ParentCall
  | validateContext | validateArgs | openLdconfig | createProcess | waitpid
  /-- The child was terminated. -/
  | signaled
  /-- The child failed. -/
  | failed
  deriving DecidableEq

/-- What the parent's calls come to. -/
structure ParentCalls where
  /-- The failure of a call, if it fails. -/
  fault : ParentCall → Option Fault
  /-- The parent could log the child's output. -/
  captured : Bool

section Parent

variable (p : ParentCalls) (k : ChildCalls) (c : Request)

/-- What the parent makes of the way the child ended. -/
def reap : WaitStatus → Prog ParentCall Thread Unit
  | .signaled n =>
    failingx ("process " ++ c.program ++ " terminated with signal " ++ toString n)
      (attempt .signaled fun s => (false, s))
  | .exited n =>
    failingx ("process " ++ c.program ++ " failed with error code: " ++ toString n)
      (attempt .failed fun s => (n = 0, s))

/-- `nvc_ldcache_update`. -/
def nvcLdcacheUpdate : Prog ParentCall Thread Unit := do
  failingx "context uninitialized" (attempt .validateContext fun s => (c.initialized, s))
  failingx "invalid argument" (attempt .validateArgs fun s => (c.container, s))
  onlyIf c.hostLdconfig (failing ("open failed: " ++ c.program) (sys p.fault .openLdconfig))
  failing "process creation failed" (sys p.fault .createProcess)
  let status ← reading (childStatus k c)
  fun s => (.ok (), s.afterClone p.captured)
  failing "process reaping failed" (sys p.fault .waitpid)
  reap c status

end Parent

/-! ## The plan of the child -/

section Plans

variable (k : ChildCalls) (c : Request)

/-- A call, with whether it fails. -/
def ChildCalls.call (e : ChildCall) : ChildCall × Bool := (e, (k.fault e).isSome)

/-- A call that may fail with `EPERM`. -/
def ChildCalls.callExceptEPERM (e : ChildCall) : ChildCall × Bool :=
  (e, (k.fault e).any fun f => f.errno ≠ EPERM)

/-- The calls for the inheritable capabilities. -/
def inheritablePlan : List (ChildCall × Bool) :=
  if c.secure && !c.hostLdconfig then [k.call .noInheritable]
  else k.callExceptEPERM .inheritable ::
    if (k.fault .inheritable).isNone then
      if c.uid ≠ 0 then [k.callExceptEPERM .ambient] else []
    else [k.call .noInheritable]

/-- The calls of `limit_capabilities`. -/
def boundsPlan (caps : List ℕ) : List (ChildCall × Bool) :=
  k.call .openLastCap :: k.call .parseLastCap ::
    (boundsDropped k c caps).flatMap fun n => [k.call (.capbsetDrop n)]

/-- The calls that change the root, with or without a pivot. -/
def switchPlan : List (ChildCall × Bool) :=
  (if c.noPivot then [.moveRootfs, .openNewroot, .fchdirNewroot]
    else [.openOldroot, .openNewroot, .fchdirNewroot, .pivotRoot, .fchdirOldroot, .umountOldroot,
      .fchdirNewrootAgain]).map k.call

/-- The calls of `change_rootfs`. -/
def rootfsPlan : List (ChildCall × Bool) :=
  k.call .unshare :: k.call .mountPrivate :: k.call .bindRootfs ::
    (switchPlan k c ++ k.call .chroot ::
      ((if c.hostLdconfig then [k.call .mountProc] else [])
        ++ (((mounts.drop c.hostLdconfig.toNat).flatMap fun path => [k.call (.hide path)])
          ++ [k.call .remountDev, k.call .createFd, k.call .remountDevRdonly])))

/-- The calls of `limit_resources`. -/
def limitsPlan : List (ChildCall × Bool) :=
  [Rlimit.cpu, .as, .nofile, .fsize].flatMap fun r => [k.call (.setrlimit r)]

/-- The calls of `drop_privileges`. -/
def privilegesPlan (drop : Bool) : List (ChildCall × Bool) :=
  (if c.uid ≠ 0 then [k.callExceptEPERM .securebits] else []) ++ [k.call (.dropPrivileges drop)]

/-- The calls of `limit_syscalls`. -/
def syscallsPlan : List (ChildCall × Bool) :=
  if c.withSeccomp then [k.call .seccomp] else [(.noSeccomp, c.secure)]

/-- **The steps of the confinement**, each with whether it fails. -/
def confinePlan : List (ChildCall × Bool) :=
  [k.call .openNs, k.call .setns] ++ ((inheritablePlan k c ++ boundsPlan k c [])
    ++ (rootfsPlan k c
      ++ (limitsPlan k ++ (privilegesPlan k c (dropGroups k) ++ syscallsPlan k c))))

/-- Whether the error of a call is its `errno`. -/
def ChildCall.reportsErrno : ChildCall → Bool
  | .parseLastCap | .seccomp | .noSeccomp => false
  | _ => true

/-- The code that a call which fails leaves in the error. -/
def ChildCalls.code (e : ChildCall) : ℤ :=
  if e.reportsErrno then ((k.fault e).map fun f => (f.errno : ℤ)).getD 0 else -1

/-- The error tells of a call. -/
def ChildCalls.Tells (e : ChildCall) (t : Thread) : Prop := t.err.code = k.code e ∧ t.err.code ≠ 0

end Plans

section Follow

variable {k : ChildCalls} {c : Request} {s : Thread} {e : ChildCall} {msg : String}
  {p : List (ChildCall × Bool)}

theorem follows_sys {ε : Type} (fault : ε → Option Fault) (e : ε) (s : Thread) :
    Follows (sys fault e) [(e, (fault e).isSome)] s () s
      (fun e' t => e' = e ∧ t.err = s.err ∧ fault e' = some t.errno) := by
  rcases hf : fault e with _ | f
  · exact ⟨fun _ => by rw [sys, attempt, hf], fun e' h => absurd h.symm (Option.some_ne_none e')⟩
  · refine ⟨fun h => absurd h (Option.some_ne_none e), fun e' h => ?_⟩
    obtain rfl := Option.some.inj h
    exact ⟨{ s with errno := f }, by rw [sys, attempt, hf], rfl, rfl, hf⟩

/-- `error_set` tells of the call. -/
theorem tells_errorSet {t : Thread} (he : e.reportsErrno = true) (h : k.fault e = some t.errno)
    (msg : String) : k.Tells e (t.errorSet msg) := by
  have hcode : k.code e = t.errno.errno := by
    rw [ChildCalls.code, if_pos he, h]
    rfl
  refine ⟨hcode.symm, ?_⟩
  exact Int.natCast_ne_zero.mpr t.errno.errno_ne

/-- `error_setx` tells of the call. -/
theorem tells_errorSetx (he : e.reportsErrno = false) (msg : String) (t : Thread) :
    k.Tells e (t.errorSetx msg) := by
  have hcode : k.code e = -1 := if_neg (by rw [he]; exact Bool.false_ne_true)
  exact ⟨hcode.symm, fun h => absurd h (by decide : (-1 : ℤ) ≠ 0)⟩

/-- A call that sets `errno`, and whose failure is told. -/
theorem follows_failing (he : e.reportsErrno = true) (msg : String) (s : Thread) :
    Follows (failing msg (sys k.fault e)) [k.call e] s () s k.Tells := by
  refine (follows_sys k.fault e s).onError fun e' t _ h => ?_
  obtain ⟨rfl, -, hfault⟩ := h
  exact tells_errorSet he hfault msg

/-- A call that sets no `errno`, and whose failure is told. -/
theorem follows_failingx (he : e.reportsErrno = false) (msg : String) (s : Thread) :
    Follows (failingx msg (sys k.fault e)) [k.call e] s () s k.Tells := by
  refine (follows_sys k.fault e s).onError fun e' t _ h => ?_
  obtain ⟨rfl, -, -⟩ := h
  exact tells_errorSetx he msg t

/-- A call under a condition, which leaves the state. -/
theorem follows_onlyIf {cond : Bool} {m : Prog ChildCall Thread Unit}
    {U : ChildCall → Thread → Prop} (hm : Follows m p s () s U) :
    Follows (onlyIf cond m) (if cond then p else []) s () s U := by
  have h := Follows.onlyIf (c := cond) fun _ => hm
  rwa [ite_self] at h

/-- A failure with `EPERM` is none. -/
theorem follows_exceptEPERM {code : Thread → ℤ} {m : Prog ChildCall Thread Unit}
    {U : ChildCall → Thread → Prop} (hm : Follows m [k.call e] s () s U)
    (hcode : ∀ t f, U e t → k.fault e = some f → code t = f.errno) :
    ∃ s', Follows (exceptEPERM code m) [k.callExceptEPERM e] s (k.fault e).isNone s' U := by
  rcases hf : k.fault e with _ | f
  · have hok := hm.done (by rw [ChildCalls.call, hf]; rfl)
    refine ⟨s, fun _ => ?_, fun e' h => ?_⟩
    · rw [exceptEPERM, hok]
      rfl
    · rw [ChildCalls.callExceptEPERM, hf] at h
      cases h
  · obtain ⟨t, ht, hU⟩ := hm.failed e (by rw [ChildCalls.call, hf]; rfl)
    refine ⟨t, fun h => ?_, fun e' h => ?_⟩
    · have hperm : code t = EPERM := by
        by_contra hne
        rw [hcode t f hU hf] at hne
        rw [ChildCalls.callExceptEPERM, hf, Option.any_some, decide_eq_true hne] at h
        cases h
      rw [exceptEPERM, ht]
      simp only
      rw [if_pos hperm]
      rfl
    · rw [ChildCalls.callExceptEPERM, hf, Option.any_some] at h
      by_cases hperm : (f.errno : ℤ) ≠ EPERM
      · rw [decide_eq_true hperm] at h
        obtain rfl := Option.some.inj h
        refine ⟨t, ?_, hU⟩
        rw [exceptEPERM, ht]
        simp only
        rw [if_neg (by rw [hcode t f hU hf]; exact hperm)]
      · rw [decide_eq_false hperm] at h
        cases h

theorem follows_nsEnter (s : Thread) :
    Follows (nsEnter k c) [k.call .openNs, k.call .setns] s () s k.Tells :=
  (follows_failing rfl _ s).bind (follows_failing rfl _ s)

/-- A change of capabilities that is let fail with `EPERM`. -/
theorem follows_setCapability (he : e.reportsErrno = true) (s : Thread) :
    ∃ s', Follows (exceptEPERM (·.err.code) (permSetCapabilities k e)) [k.callExceptEPERM e] s
      (k.fault e).isNone s' k.Tells := by
  refine follows_exceptEPERM (follows_failing he _ s) fun t f htells hf => ?_
  rw [htells.1, ChildCalls.code, if_pos he, hf]
  rfl

/-- What is done for other users than root only. -/
theorem follows_unlessRoot {m : Prog ChildCall Thread Unit} {U : ChildCall → Thread → Prop}
    (hm : ∃ s', Follows m p s () s' U) :
    ∃ s', Follows (onlyIf (c.uid ≠ 0) m) (if c.uid ≠ 0 then p else []) s () s' U := by
  obtain ⟨s', h⟩ := hm
  rw [onlyIf]
  split_ifs with hcond huid huid
  · exact ⟨s', h⟩
  · exact absurd (of_decide_eq_true hcond) huid
  · exact absurd (decide_eq_true huid) hcond
  · exact ⟨s, Follows.pure () s U⟩

theorem follows_setInheritable (s : Thread) :
    ∃ s', Follows (setInheritable k c) (inheritablePlan k c) s () s' k.Tells := by
  rw [setInheritable, inheritablePlan]
  by_cases hsecure : (c.secure && !c.hostLdconfig) = true
  · rw [if_pos hsecure, if_pos hsecure]
    exact ⟨s, follows_failing rfl _ s⟩
  rw [if_neg hsecure, if_neg hsecure]
  obtain ⟨s₁, h₁⟩ := follows_setCapability (k := k) (e := .inheritable) rfl s
  rcases hgranted : (k.fault .inheritable).isNone
  · rw [hgranted] at h₁
    exact ⟨s₁, h₁.bind (follows_failing rfl _ s₁)⟩
  · rw [hgranted] at h₁
    obtain ⟨s₂, h₂⟩ := follows_setCapability (k := k) (e := .ambient) rfl s₁
    obtain ⟨s₃, h₃⟩ := follows_unlessRoot (c := c) ⟨s₂, h₂.bind_pure fun _ => ()⟩
    exact ⟨s₃, h₁.bind h₃⟩

theorem follows_permSetBounds (caps : List ℕ) (s : Thread) :
    Follows (permSetBounds k c caps) (boundsPlan k c caps) s () s k.Tells := by
  have hdrop : Follows
      ((boundsDropped k c caps).forM fun n => permSetCapabilities k (.capbsetDrop n))
      ((boundsDropped k c caps).flatMap fun n => [k.call (.capbsetDrop n)]) s () s k.Tells :=
    Follows.forM fun n _ => follows_failing rfl _ s
  exact (follows_failing rfl _ s).bind ((follows_failingx rfl _ s).bind hdrop)

theorem follows_adjustCapabilities (s : Thread) :
    ∃ s', Follows (adjustCapabilities k c) (inheritablePlan k c ++ boundsPlan k c []) s () s'
      k.Tells := by
  obtain ⟨s', h⟩ := follows_setInheritable (k := k) (c := c) s
  exact ⟨s', h.bind (follows_permSetBounds [] s')⟩

/-! ## The root directory -/

/-- The error tells of a call, or is left for the label to tell. -/
def ChildCalls.Pending (k : ChildCalls) (e : ChildCall) (t : Thread) : Prop :=
  k.Tells e t ∨ t.err.code = 0 ∧ e.reportsErrno = true ∧ k.fault e = some t.errno

theorem pending_sys (he : e.reportsErrno = true) (hs : s.err.code = 0) :
    Follows (sys k.fault e) [k.call e] s () s k.Pending := by
  refine (follows_sys k.fault e s).mono fun e' t _ h => .inr ?_
  obtain ⟨rfl, herr, hfault⟩ := h
  exact ⟨by rw [herr, hs], he, hfault⟩

theorem pending_failing (he : e.reportsErrno = true) (msg : String) (s : Thread) :
    Follows (failing msg (sys k.fault e)) [k.call e] s () s k.Pending :=
  (follows_failing he msg s).mono fun _ _ _ h => .inl h

/-- The change of the root; its failure is told by the caller. -/
theorem follows_switchRoot (hs : s.err.code = 0) :
    Follows (switchRoot k c) (switchPlan k c) s () s k.Pending := by
  rw [switchRoot, switchPlan]
  by_cases hpivot : c.noPivot = true
  · rw [if_pos hpivot, if_pos hpivot]
    exact (pending_failing rfl _ s).bind ((pending_failing rfl _ s).bind (pending_sys rfl hs))
  · rw [if_neg hpivot, if_neg hpivot]
    exact (pending_failing rfl _ s).bind ((pending_failing rfl _ s).bind
      ((pending_sys rfl hs).bind ((pending_sys rfl hs).bind ((pending_sys rfl hs).bind
        ((pending_sys rfl hs).bind (pending_sys rfl hs))))))

theorem follows_linkFd (s : Thread) :
    Follows (linkFd k) [k.call .remountDev, k.call .createFd, k.call .remountDevRdonly] s () s
      k.Pending :=
  (pending_failing rfl _ s).bind ((pending_failing rfl _ s).bind (pending_failing rfl _ s))

/-- The way into the container, step by step. -/
theorem follows_enterRootfs (hs : s.err.code = 0) :
    Follows (enterRootfs k c) (rootfsPlan k c) s () s k.Pending := by
  have hproc : Follows (onlyIf c.hostLdconfig (xmount k .mountProc "/proc"))
      (if c.hostLdconfig then [k.call .mountProc] else []) s () s k.Pending :=
    follows_onlyIf (pending_failing rfl _ s)
  have hhide : Follows
      ((mounts.drop c.hostLdconfig.toNat).forM fun path => xmount k (.hide path) path)
      ((mounts.drop c.hostLdconfig.toNat).flatMap fun path => [k.call (.hide path)]) s () s
      k.Pending :=
    Follows.forM fun path _ => pending_failing rfl _ s
  exact (pending_sys rfl hs).bind ((pending_failing rfl _ s).bind
    ((pending_failing rfl _ s).bind ((follows_switchRoot hs).bind ((pending_sys rfl hs).bind
      (hproc.bind (hhide.bind (follows_linkFd s)))))))

/-- **The label tells what is left to tell**, so that the error has the code of the call. -/
theorem follows_changeRootfs (s : Thread) :
    Follows (changeRootfs k c) (rootfsPlan k c) s (dropGroups k) s.errorReset k.Tells := by
  have henter := follows_enterRootfs (k := k) (c := c) (s := s.errorReset) rfl
  have hlabel : Follows (onError (enterRootfs k c) fun s =>
        if s.err.code = 0 then s.errorSet "process confinement failed" else s)
      (rootfsPlan k c) s.errorReset () s.errorReset k.Tells := by
    refine henter.onError fun e t _ h => ?_
    rcases h with htells | ⟨hcode, he, hfault⟩
    · rw [if_neg htells.2]
      exact htells
    · rw [if_pos hcode]
      exact tells_errorSet he hfault _
  have hreset : Follows (fun s => (.ok (), s.errorReset) : Prog ChildCall Thread Unit) [] s ()
      s.errorReset k.Tells := ⟨fun _ => rfl, nofun⟩
  exact hreset.bind (hlabel.bind_pure fun _ => dropGroups k)

/-! ## The confinement -/

theorem follows_limitResources (s : Thread) :
    Follows (limitResources k) (limitsPlan k) s () s k.Tells := by
  have hloop : Follows ([.cpu, .as, .nofile, .fsize].forM fun r => sys k.fault (.setrlimit r))
      (limitsPlan k) s () s fun e t => e.reportsErrno = true ∧ k.fault e = some t.errno := by
    refine Follows.forM fun r _ => (follows_sys k.fault _ s).mono fun e t _ h => ?_
    obtain ⟨rfl, -, hfault⟩ := h
    exact ⟨rfl, hfault⟩
  exact hloop.onError fun e t _ h => tells_errorSet h.1 h.2 _

theorem follows_adjustPrivileges (drop : Bool) (s : Thread) :
    ∃ s', Follows (adjustPrivileges k c drop) (privilegesPlan k c drop) s () s' k.Tells := by
  obtain ⟨s₁, h₁⟩ : ∃ s', Follows (exceptEPERM (·.errno.errno) (sys k.fault .securebits))
      [k.callExceptEPERM .securebits] s (k.fault .securebits).isNone s'
      fun e t => e = .securebits ∧ t.err = s.err ∧ k.fault e = some t.errno := by
    refine follows_exceptEPERM (follows_sys k.fault _ s) fun t f h hf => ?_
    rw [Option.some.inj (h.2.2.symm.trans hf)]
  have hset : Follows (failing "privilege change failed" do
        let _ ← exceptEPERM (·.errno.errno) (sys k.fault .securebits))
      [k.callExceptEPERM .securebits] s () s₁ k.Tells := by
    refine (h₁.bind_pure fun _ => ()).onError fun e t _ h => ?_
    obtain ⟨rfl, -, hfault⟩ := h
    exact tells_errorSet rfl hfault _
  obtain ⟨s₂, h₂⟩ := follows_unlessRoot (c := c) ⟨s₁, hset⟩
  exact ⟨s₂, h₂.bind (follows_failing rfl _ s₂)⟩

/-- The filter of system calls, where there is one. -/
theorem follows_limitSyscalls (s : Thread) :
    Follows (limitSyscalls k c) (syscallsPlan k c) s () s k.Tells := by
  rw [limitSyscalls, syscallsPlan]
  split_ifs
  · exact follows_failingx rfl _ s
  · have hsecure : Follows (attempt .noSeccomp fun s : Thread => (!c.secure, s))
        [(.noSeccomp, !!c.secure)] s () s fun e _ => e = ChildCall.noSeccomp :=
      Follows.attempt rfl fun _ => rfl
    rw [Bool.not_not] at hsecure
    refine hsecure.onError fun e t _ h => ?_
    rw [h]
    exact tells_errorSetx rfl _ t

/-- **The confinement takes the steps of the plan**, and the first that fails is the one the error
tells of. -/
theorem confine_follows (s : Thread) :
    ∃ s', Follows (confine k c) (confinePlan k c) s () s' k.Tells := by
  obtain ⟨s₁, h₁⟩ := follows_adjustCapabilities (k := k) (c := c) s
  obtain ⟨s₂, h₂⟩ := follows_adjustPrivileges (k := k) (c := c) (dropGroups k) s₁.errorReset
  refine ⟨s₂, (follows_nsEnter s).bind (h₁.bind ((follows_changeRootfs s₁).bind ?_))⟩
  exact (follows_limitResources s₁.errorReset).bind (h₂.bind (follows_limitSyscalls s₂))

end Follow

/-! ## The update -/

section Reported

variable (p : ParentCalls) (k : ChildCalls) (c : Request)

/-- The calls of the parent, each with whether it fails. -/
def parentPlan : List (ParentCall × Bool) :=
  (.validateContext, !c.initialized) :: (.validateArgs, !c.container) ::
    ((if c.hostLdconfig then [(.openLdconfig, (p.fault .openLdconfig).isSome)] else [])
      ++ [(.createProcess, (p.fault .createProcess).isSome), (.waitpid, (p.fault .waitpid).isSome)])

/-- How the child ended, as one more call. -/
def reapPlan : WaitStatus → List (ParentCall × Bool)
  | .signaled _ => [(.signaled, true)]
  | .exited n => [(.failed, n ≠ 0)]

/-- **The update has happened**: behind all of the confinement ldconfig ran and ended well, or it
does not exist. -/
def Updated (s : Thread) : Prop :=
  (∃ t, confine k c (s.afterClone k.captured) = (.ok (), t))
    ∧ (k.exec = .ran (.exited 0) ∨ ∃ f, k.exec = .failed f ∧ (f.errno : ℤ) = ENOENT)

/-- **What is reported has happened**. -/
def ReportsTruly (s : Thread) : Prop :=
  ∀ t, nvcLdcacheUpdate p k c s = (.ok (), t) → Updated k c s

variable {p k c} {s : Thread}

/-- The child is reaped without a failure if it exited with 0. -/
theorem firstFailure_reapPlan {status : WaitStatus} :
    firstFailure (reapPlan status) = none ↔ status = .exited 0 := by
  rcases status with n | n
  · by_cases hn : n = 0
    · rw [hn]
      exact ⟨fun _ => rfl, fun _ => rfl⟩
    · rw [reapPlan, decide_eq_true hn]
      exact ⟨nofun, fun h => absurd (WaitStatus.exited.inj h) hn⟩
  · exact ⟨nofun, nofun⟩

theorem follows_reap (status : WaitStatus) (s : Thread) :
    Follows (reap c status) (reapPlan status) s () s fun _ _ => True := by
  rcases status with n | n
  · have h : Follows (attempt .failed fun s : Thread => (decide (n = 0), s))
        [(ParentCall.failed, !decide (n = 0))] s () s fun _ _ => True :=
      Follows.attempt rfl fun _ => trivial
    rw [← decide_not] at h
    exact h.onError fun _ _ _ _ => trivial
  · have h : Follows (attempt .signaled fun s : Thread => (false, s))
        [(ParentCall.signaled, true)] s () s fun _ _ => True :=
      Follows.attempt rfl fun _ => trivial
    exact h.onError fun _ _ _ _ => trivial

/-- The update takes the steps of the parent, and succeeds if the child ended well. -/
theorem update_follows (s : Thread) :
    Follows (nvcLdcacheUpdate p k c) (parentPlan p c ++ reapPlan (childStatus k c s)) s ()
      (s.afterClone p.captured) fun _ _ => True := by
  have hsys (msg : String) (e : ParentCall) (s : Thread) :
      Follows (failing msg (sys p.fault e)) [(e, (p.fault e).isSome)] s () s fun _ _ => True :=
    (follows_sys p.fault e s).onError fun _ _ _ _ => trivial
  have hcheck (msg : String) (e : ParentCall) (b : Bool) :
      Follows (failingx msg (attempt e fun s : Thread => (b, s))) [(e, !b)] s () s
        fun _ _ => True := by
    have h : Follows (attempt e fun s : Thread => (b, s)) [(e, !b)] s () s fun _ _ => True :=
      Follows.attempt rfl fun _ => trivial
    exact h.onError fun _ _ _ _ => trivial
  have hopen := Follows.onlyIf (c := c.hostLdconfig)
    fun _ => hsys ("open failed: " ++ c.program) .openLdconfig s
  have hclone : Follows (fun s => (.ok (), s.afterClone p.captured) : Prog ParentCall Thread Unit)
      [] s () (s.afterClone p.captured) fun _ _ => True :=
    ⟨fun _ => rfl, fun e h => absurd h.symm (Option.some_ne_none e)⟩
  rw [ite_self] at hopen
  rw [parentPlan, List.cons_append, List.cons_append, List.append_assoc]
  exact (hcheck _ _ _).bind ((hcheck _ _ _).bind (hopen.bind ((hsys _ _ s).bind
    ((Follows.reading (childStatus k c) s _).bind (hclone.bind ((hsys _ _ _).bind
      (follows_reap _ _)))))))

/-- **The child ends well** when the update has happened, and when a step before exec is the first
to fail and leaves `ENOENT`. -/
theorem childStatus_eq_zero :
    childStatus k c s = .exited 0
      ↔ Updated k c s ∨ ∃ e, firstFailure (confinePlan k c) = some e ∧ k.code e = ENOENT := by
  have hexit {err : Error} : WaitStatus.exited (exitCode err) = .exited 0 ↔ err.code = ENOENT := by
    rw [exitCode, WaitStatus.exited.injEq]
    split_ifs with h
    · exact ⟨fun _ => h, fun _ => rfl⟩
    · exact ⟨nofun, fun h' => absurd h' h⟩
  obtain ⟨s', hfollows⟩ := confine_follows (k := k) (c := c) (s.afterClone k.captured)
  rcases hfirst : firstFailure (confinePlan k c) with _ | e
  · have hok := hfollows.done hfirst
    have hupdated : Updated k c s ↔ k.exec = .ran (.exited 0)
        ∨ ∃ f, k.exec = .failed f ∧ (f.errno : ℤ) = ENOENT :=
      ⟨fun h => h.2, fun h => ⟨⟨s', hok⟩, h⟩⟩
    rw [childStatus, hok, hupdated]
    rcases k.exec with f | status
    · rw [hexit]
      constructor
      · exact fun h => .inl (.inr ⟨f, rfl, h⟩)
      · rintro ((h | ⟨f', h, hcode⟩) | ⟨e, h, -⟩)
        · cases h
        · rw [Exec.failed.inj h]
          exact hcode
        · cases h
    · constructor
      · rintro rfl
        exact .inl (.inl rfl)
      · rintro ((h | ⟨f', h, -⟩) | ⟨e, h, -⟩)
        · exact Exec.ran.inj h
        · cases h
        · cases h
  · obtain ⟨t, ht, htells⟩ := hfollows.failed e hfirst
    rw [childStatus, ht, hexit, htells.1]
    constructor
    · exact fun h => .inr ⟨e, rfl, h⟩
    · rintro (⟨⟨t', ht'⟩, -⟩ | ⟨e', he', hcode⟩)
      · rw [ht] at ht'
        cases (Prod.mk.inj ht').1
      · rw [Option.some.inj he']
        exact hcode

/-- **When what is reported has happened**: when a call of the parent fails, or no step of the
confinement does, or the first that does leaves another code than `ENOENT`. -/
theorem reportsTruly_iff :
    ReportsTruly p k c s
      ↔ firstFailure (parentPlan p c) ≠ none
        ∨ ∀ e, firstFailure (confinePlan k c) = some e → k.code e ≠ ENOENT := by
  have hfollows : Follows (nvcLdcacheUpdate p k c) _ s () _ _ := update_follows s
  have hok := hfollows.ok_iff
  rw [firstFailure_append, Option.or_eq_none_iff, firstFailure_reapPlan, childStatus_eq_zero]
    at hok
  constructor
  · intro h
    refine or_iff_not_imp_left.mpr fun hparent e he hcode => ?_
    obtain ⟨⟨⟩, t, ht⟩ := hok.mpr ⟨not_not.mp hparent, .inr ⟨e, he, hcode⟩⟩
    have hplan := (confine_follows (k := k) (c := c) (s.afterClone k.captured)).choose_spec.ok_iff
    obtain ⟨t', ht'⟩ := (h t ht).1
    rw [hplan.mp ⟨(), t', ht'⟩] at he
    cases he
  · intro h t ht
    obtain ⟨hparent, hupdated⟩ := hok.mp ⟨(), t, ht⟩
    refine hupdated.resolve_right fun hmissed => ?_
    obtain ⟨e, he, hcode⟩ := hmissed
    exact (h.resolve_left (not_not_intro hparent)) e he hcode

/-- A container without `/sys`, run by root, with every other call a success and an ldconfig that
never comes to run. -/
def withoutSys : ChildCalls where
  fault e := if e = .hide "/sys" then some ⟨2, "no such file or directory", by decide⟩ else none
  lastCap := 40
  capbsetRead _ := true
  setgroups := "allow".toList
  captured := true
  exec := .ran (.exited 1)

/-- A request of the superuser. -/
def rootRequest : Request where
  initialized := true
  container := true
  ldconfig := "/sbin/ldconfig".toList
  rootfs := "/c".toList
  mntNs := "/proc/1/ns/mnt".toList
  uid := 0
  noPivot := false
  secure := true
  withSeccomp := true
  CAP_LAST_CAP := 40

/-- **A container without `/sys` is reported to be updated**, and no ldconfig has run. -/
theorem not_reportsTruly :
    ¬ReportsTruly ⟨fun _ => none, true⟩ withoutSys rootRequest ⟨{}, ⟨1, "", by decide⟩⟩ := by
  intro h
  obtain ⟨⟨t, ht⟩, -⟩ := h ⟨{}, ⟨1, "", by decide⟩⟩ rfl
  cases congrArg (fun r => r.1.isOk) ht

end Reported

end Update
