import XdxContainer.Mount.DriverMount
import XdxContainer.Mount.Mirror

/-!
# Mount/Namespace — the mount operations and the namespace they run in

    home ──ns_enter──▸ container ──body──▸ container ──ns_enter_at──▸ home

The process is in one mount namespace at a time, and what a call does with a path depends on it.  A
`Kernel` says what every call does in every namespace; `Kernel.host` is the host the operations see.
`Request.run_home` says that every operation comes back, and that it makes no call but `ns_enter`
outside the container's namespace: it does what it would do if there were only the container's side.
-/

open Paths Fs Fallible

namespace Mount

variable {V W : Type}

/-! ## Namespaces -/

/-- The mount namespaces: the one `ctx->mnt_ns` was opened in, and the container's. -/
inductive Ns
  | home
  | container
  deriving DecidableEq, Repr

/-- What the operations call and read. -/
structure System (W : Type) where
  host : Host W
  migMajor : W → Option ℕ
  migMinors : Step → W → Option (List Str)

/-- What every call does, by the namespace the process is in. -/
abbrev Kernel (V : Type) := Ns → System V

/-- The host of a process whose namespace is part of its state: `setns` changes it when it succeeds,
and nothing else does. -/
def Kernel.host (k : Kernel V) : Host (V × Ns) where
  pathResolveFull e buf root path w := (k w.2).host.pathResolveFull e buf root path w.1
  fileMode e path w := (k w.2).host.fileMode e path w.1
  xstat e path w := (k w.2).host.xstat e path w.1
  fileCreate e path data mode w :=
    let r := (k w.2).host.fileCreate e path data mode w.1
    (r.1, (r.2, w.2))
  mount e src dst w :=
    let r := (k w.2).host.mount e src dst w.1
    (r.1, (r.2, w.2))
  remount e dst flags w :=
    let r := (k w.2).host.remount e dst flags w.1
    (r.1, (r.2, w.2))
  alloc e w := (k w.2).host.alloc e w.1
  umount2 path w := ((k w.2).host.umount2 path w.1, w.2)
  fileRemove path w := ((k w.2).host.fileRemove path w.1, w.2)
  nsEnter e w :=
    let r := (k w.2).host.nsEnter e w.1
    (r.1, (r.2, if r.1 then .container else w.2))
  nsEnterAt e w :=
    let r := (k w.2).host.nsEnterAt e w.1
    (r.1, (r.2, if r.1 then .home else w.2))
  setupDeviceCgroup e id w :=
    let r := (k w.2).host.setupDeviceCgroup e id w.1
    (r.1, (r.2, w.2))
  updateAppProfile e id w :=
    let r := (k w.2).host.updateAppProfile e id w.1
    (r.1, (r.2, w.2))
  readDir e path w := (k w.2).host.readDir e path w.1
  nvcapsDevice e path w := (k w.2).host.nvcapsDevice e path w.1
  hasNvcaps w := (k w.2).host.hasNvcaps w.1

/-- The system of such a process. -/
def Kernel.system (k : Kernel V) : System (V × Ns) where
  host := k.host
  migMajor w := (k w.2).migMajor w.1
  migMinors e w := (k w.2).migMinors e w.1

/-- The container's side of a kernel: `ns_enter` is the home namespace's, every other call is what
it is in the container's. -/
def Kernel.inside (k : Kernel V) : System V :=
  { k .container with host := { (k .container).host with nsEnter := (k .home).host.nsEnter } }

/-- Going home always succeeds. -/
def Kernel.ComesBack (k : Kernel V) : Prop :=
  ∀ v, ((k .container).host.nsEnterAt ⟨.top, .nsLeave, 0⟩ v).1 = true

/-- In the container's namespace the process sees the container's side. -/
theorem Kernel.mirrors (k : Kernel V) :
    Host.Mirrors (fun v => (v, Ns.container)) k.host k.inside.host := by
  constructor <;> intros <;> rfl

/-! ## There and back -/

namespace Kernel

variable {α : Type} {k : Kernel V} (hback : k.ComesBack)

include hback

/-- Leaving the container's namespace is going home. -/
theorem nsEnterAt_container (v : V) :
    k.host.nsEnterAt ⟨.top, .nsLeave, 0⟩ (v, .container)
      = (true, (k.inside.host.nsEnterAt ⟨.top, .nsLeave, 0⟩ v).2, .home) := by
  have hok : ((k .container).host.nsEnterAt ⟨.top, .nsLeave, 0⟩ v).1 = true := hback v
  simp only [Kernel.host, hok, if_true]
  rfl

/-- What runs in the container ends at home, whether it fails or not. -/
theorem leave_along {body : Prog Step (V × Ns) α} {body₀ : Prog Step V α}
    (hbody : Along (fun v => (v, Ns.container)) body body₀) (v : V) :
    (onError body (fun w => (k.host.nsEnterAt ⟨.top, .nsLeave, 0⟩ w).2)
        >>= fun _ => attempt ⟨.top, .nsLeave, 0⟩ (k.host.nsEnterAt ⟨.top, .nsLeave, 0⟩))
        (v, .container)
      = (((onError body₀ (fun v => (k.inside.host.nsEnterAt ⟨.top, .nsLeave, 0⟩ v).2)
            >>= fun _ =>
              attempt ⟨.top, .nsLeave, 0⟩ (k.inside.host.nsEnterAt ⟨.top, .nsLeave, 0⟩)) v).1,
          ((onError body₀ (fun v => (k.inside.host.nsEnterAt ⟨.top, .nsLeave, 0⟩ v).2)
            >>= fun _ =>
              attempt ⟨.top, .nsLeave, 0⟩ (k.inside.host.nsEnterAt ⟨.top, .nsLeave, 0⟩)) v).2,
          .home) := by
  have hrun := hbody.run v
  have hok : ∀ v, (k.inside.host.nsEnterAt ⟨.top, .nsLeave, 0⟩ v).1 = true := hback
  rcases h₀ : body₀ v with ⟨e' | a, v'⟩
  · rw [h₀] at hrun
    rw [bind_of_error (onError_of_error hrun), bind_of_error (onError_of_error h₀),
      nsEnterAt_container hback]
  · rw [h₀] at hrun
    rw [bind_of_ok (onError_of_ok hrun), bind_of_ok (onError_of_ok h₀),
      attempt_of_true (nsEnterAt_container hback v'),
      attempt_of_true (Prod.ext (hok v') rfl)]

/-- **Home again.**  What runs in the container, entered from home, ends at home. -/
theorem inContainer_along (ctx : Context) {body : Prog Step (V × Ns) α} {body₀ : Prog Step V α}
    (hbody : Along (fun v => (v, Ns.container)) body body₀) :
    Along (fun v => (v, Ns.home)) (k.host.inContainer ctx body)
      (k.inside.host.inContainer ctx body₀) := by
  refine (Along.attempt fun _ => rfl).bind fun _ => ⟨fun v => ?_⟩
  rcases h : (k .home).host.nsEnter ⟨.top, .nsEnter, 0⟩ v with ⟨_ | _, v'⟩
  · have hk : k.host.nsEnter ⟨.top, .nsEnter, 0⟩ (v, .home) = (false, v', .home) := by
      simp only [Kernel.host, h, Bool.false_eq_true, if_false]
    have hi : k.inside.host.nsEnter ⟨.top, .nsEnter, 0⟩ v = (false, v') := h
    rw [bind_of_error (attempt_of_false hk), bind_of_error (attempt_of_false hi)]
  · have hk : k.host.nsEnter ⟨.top, .nsEnter, 0⟩ (v, .home) = (true, v', .container) := by
      simp only [Kernel.host, h, if_true]
    have hi : k.inside.host.nsEnter ⟨.top, .nsEnter, 0⟩ v = (true, v') := h
    rw [bind_of_ok (attempt_of_true hk), bind_of_ok (attempt_of_true hi)]
    exact leave_along hback hbody v'

end Kernel

/-! ## The operations -/

/-- The mount operations. -/
inductive Operation
  | driver (info : DriverInfo)
  | device (store : DriverStore) (dev : DeviceNode)
  | migAccess (giCapsPath ciCapsPath : Str)
  | migConfig (uninit : Option Str)
  | migMonitor (uninit : Option Str)
  | deviceMig (id : Dev)

/-- What an operation does on a system. -/
def Operation.run (op : Operation) (sys : System W) (ctx : Context) (cnt : Container) :
    Prog Step W Unit :=
  match op with
  | driver info => sys.host.nvcDriverMount ctx cnt info
  | device store dev => sys.host.nvcDeviceMountAny ctx cnt store dev
  | migAccess gi ci => sys.host.nvcMigDeviceAccessCapsMount ctx cnt gi ci
  | migConfig uninit => sys.host.nvcMigConfigGlobalCapsMount ctx cnt uninit
  | migMonitor uninit => sys.host.nvcMigMonitorGlobalCapsMount ctx cnt uninit
  | deviceMig id => sys.host.nvcDeviceMigCapsMount ctx cnt sys.migMajor sys.migMinors id

/-- Every operation, started at home, is what it is on the container's side alone, and ends at
home. -/
theorem Operation.run_along {k : Kernel V} (hback : k.ComesBack) (op : Operation) (ctx : Context)
    (cnt : Container) :
    Along (fun v => (v, Ns.home)) (op.run k.system ctx cnt) (op.run k.inside ctx cnt) := by
  have h : Host.Mirrors (fun v => (v, Ns.container)) k.host k.inside.host := k.mirrors
  match op with
  | driver info => exact k.inContainer_along hback ctx (h.driverBody ctx cnt info)
  | device store dev => exact k.inContainer_along hback ctx (h.deviceMount ctx cnt store dev)
  | migAccess gi ci => exact k.inContainer_along hback ctx (h.accessBody ctx cnt gi ci)
  | migConfig uninit => exact k.inContainer_along hback ctx (h.globalBody ctx cnt _ uninit)
  | migMonitor uninit => exact k.inContainer_along hback ctx (h.globalBody ctx cnt _ uninit)
  | deviceMig id =>
    exact k.inContainer_along hback ctx (h.migCaps cnt (fun _ => rfl) (fun _ _ => rfl) id)

/-- A call of an operation. -/
structure Request (V : Type) where
  kernel : Kernel V
  ctx : Context
  cnt : Container
  op : Operation

/-- The call, from the namespace the process is in. -/
def Request.run (r : Request V) : Prog Step (V × Ns) Unit := r.op.run r.kernel.system r.ctx r.cnt

/-- The call, if there were only the container's side. -/
def Request.runInside (r : Request V) : Prog Step V Unit := r.op.run r.kernel.inside r.ctx r.cnt

/-- **Home after every call.**  Calls from home, one after the other and whatever they return, end
at home; and what they return and do is what they would if there were only the container's side, so
no call but `ns_enter` is made from home. -/
theorem Request.run_home (rs : List (Request V)) (hback : ∀ r ∈ rs, r.kernel.ComesBack) (v : V) :
    inTurn (rs.map Request.run) (v, Ns.home)
      = ((inTurn (rs.map Request.runInside) v).1,
          (inTurn (rs.map Request.runInside) v).2, Ns.home) := by
  have hall : ∀ r ∈ rs, Along (fun v => (v, Ns.home)) r.run r.runInside :=
    fun r hr => r.op.run_along (hback r hr) r.ctx r.cnt
  exact Along.inTurn hall v

/-- A system in which one step fails, and what resolves is below a directory of its own. -/
def oneFault (e : Step) (dst : Call → Str) : System (Table Name) where
  host := (onlyFails e dst).host
  migMajor _ := none
  migMinors _ _ := none

/-- A container in which no capability is found, and a host in which nothing is to be mounted. -/
def capless : Kernel (Table Name)
  | .home => oneFault ⟨.caps, .bind, 0⟩ fun _ => "/host".toList
  | .container => oneFault ⟨.capsDir, .capLookup, 0⟩ fun _ => "/dir".toList

/-- A call that fails in the container, and one that does not. -/
def failThenMount : List (Request (Table Name)) :=
  [⟨capless, hostContext, utilityContainer, .migConfig none⟩,
    ⟨capless, hostContext, utilityContainer, .driver oneBinary⟩]

theorem failThenMount_home :
    (inTurn (failThenMount.map Request.run) ({}, Ns.home)).1
        = [.error ⟨.capsDir, .capLookup, 0⟩, .ok ()]
      ∧ (inTurn (failThenMount.map Request.run) ({}, Ns.home)).2.2 = Ns.home := by
  have hback : ∀ r ∈ failThenMount, r.kernel.ComesBack := by
    intro r hr
    simp only [failThenMount, List.mem_cons, List.not_mem_nil, or_false] at hr
    rcases hr with rfl | rfl <;> exact fun _ => rfl
  rw [Request.run_home failThenMount hback {}]
  exact ⟨by decide +kernel, rfl⟩

end Mount
