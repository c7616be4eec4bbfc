import XdxContainer.Mount.DriverMount

/-!
# Mount/MigMount — what the failed MIG mount operations leave in the mount table

    access:   /proc of the GPU instance ▸ its device ▸ /proc of the compute instance ▸ its device
              unmounted by the label      forgotten    unmounted by the label
    config,   /proc/…/capabilities ▸ /dev/nvidia-caps
    monitor:  unmounted by the label  never unmounted

Where the destinations lie apart, a mount the label does not know is left when a later step fails;
it is gone only if some unmounting that was not due happens to hit it: of the destination of a mount
that was not made, or of what an uninitialised pointer points to.  Where `/dev/nvidia-caps` is below
the capabilities, say, unmounting these takes it with them (`MigOp.leaves_nothing_iff`).
-/

open Paths Fs Fallible

namespace Mount

/-- The three operations, with the capability paths of the device for the first. -/
inductive MigOp
  | access (giCapsPath ciCapsPath : Str)
  | config
  | monitor

/-- The operation; `uninit` is what the uninitialised pointer of `mount_with_flags` points to. -/
def MigOp.run {W : Type} (host : Host W) (ctx : Context) (cnt : Container) (uninit : Option Str) :
    MigOp → Prog Step W Unit
  | .access giCapsPath ciCapsPath => host.nvcMigDeviceAccessCapsMount ctx cnt giCapsPath ciCapsPath
  | .config => host.nvcMigConfigGlobalCapsMount ctx cnt uninit
  | .monitor => host.nvcMigMonitorGlobalCapsMount ctx cnt uninit

section Plan

variable (env : Faults) (ctx : Context) (cnt : Container) (uninit : Option Str)

/-- The calls of `cap_device_mount`, and which of them fail. -/
def capPlan (call : Call) : List (Step × Bool) :=
  [(⟨call, .capLookup, 0⟩, env.fails ⟨call, .capLookup, 0⟩)]
    ++ ((if !cnt.has OPT_NO_DEVBIND then
        devicePlan env call ctx.root (env.capNode ⟨call, .capLookup, 0⟩) else [])
    ++ cgroupPlan env cnt call)

/-- The steps of the device of an instance. -/
def capPart (call : Call) : List (Step × Bool) :=
  if env.hasNvcaps then capPlan env ctx cnt call else []

/-- The calls for the compute instance. -/
def computePlan (ciCapsPath : Str) : List (Step × Bool) :=
  [(⟨.ci, .appendSrc, 0⟩, !(pathJoin ciCapsPath Host.NV_MIG_ACCESS_FILE).1)]
    ++ (undoingPlan env .ci ctx.root (pathJoin ciCapsPath Host.NV_MIG_ACCESS_FILE).2
    ++ ([] ++ capPart env ctx cnt .ciCap))

/-- The calls of `nvc_mig_device_access_caps_mount`. -/
def accessPlan (giCapsPath ciCapsPath : Str) : List (Step × Bool) :=
  [(⟨.gi, .appendSrc, 0⟩, !(pathJoin giCapsPath Host.NV_MIG_ACCESS_FILE).1)]
    ++ (undoingPlan env .gi ctx.root (pathJoin giCapsPath Host.NV_MIG_ACCESS_FILE).2
    ++ ([] ++ (capPart env ctx cnt .giCap
    ++ computePlan env ctx cnt ciCapsPath)))

/-- The calls for the directory of the capability devices. -/
def capsDirectoryPlan (file : Str) : List (Step × Bool) :=
  [(⟨.capsDir, .pathSrc, 0⟩, !(pathJoin ctx.root Host.NV_CAPS_DEVICE_DIR).1),
    (⟨.capsDir, .resolve, 0⟩, !(env.resolved ⟨.capsDir, .resolve, 0⟩).1)]
    ++ env.plan .capsDir 0 [.mode, .create, .bind, .remount, .strdup]
    ++ ([(⟨.capsDir, .appendSrc, 0⟩, !(pathJoin Host.NV_MIG_CAPS_PATH file).1)]
    ++ ([(⟨.capsDir, .capLookup, 0⟩, env.fails ⟨.capsDir, .capLookup, 0⟩)]
    ++ cgroupPlan env cnt .capsDir))

/-- The calls for one of the global capabilities. -/
def globalPlan (file : Str) : List (Step × Bool) :=
  undoingPlan env .caps ctx.root Host.NV_PROC_DRIVER_CAPS
    ++ ([] ++ if env.hasNvcaps then capsDirectoryPlan env ctx cnt file else [])

/-- **The steps of an operation**, in order, each with whether it fails. -/
def MigOp.plan : MigOp → List (Step × Bool)
  | .access giCapsPath ciCapsPath =>
    inContainerPlan env ctx (accessPlan env ctx cnt giCapsPath ciCapsPath)
  | .config => inContainerPlan env ctx (globalPlan env ctx cnt "config".toList)
  | .monitor => inContainerPlan env ctx (globalPlan env ctx cnt "monitor".toList)

/-! ## What is unmounted -/

/-- The destination of a step of the MIG operations. -/
def migDst : Step → Str := env.dstOf fun _ => none

/-- What the labels of the mount functions unmount. -/
def migLabel (e : Step) : List Str :=
  match e.call with
  | .gi | .ci | .caps => undoingLabel env e
  | .giCap | .ciCap => deviceLabel env e
  | _ => []

/-- What a failed `cap_device_mount` unmounts. -/
def capUndone (s : List Step) (e : Step) : List Str :=
  (if e.op = .cgroup then copied (migDst env) (· = e.call) s else []) ++ migLabel env e

/-- **What failed access mounts unmount**, in order, when these steps are done and the next one
fails. -/
def accessUndone (s : List Step) (e : Step) : List Str :=
  if e.op = .nsLeave then []
  else capUndone env s e ++ (copied (migDst env) (· = .gi) s ++ copied (migDst env) (· = .ci) s)

/-- The steps of `mount_with_flags` whose failure unmounts what the uninitialised pointer points
to. -/
def Step.strays (e : Step) : Bool :=
  e.call = .capsDir && (e.op = .mode || e.op = .create || e.op = .bind || e.op = .remount)

/-- What failed global mounts unmount before the label. -/
def globalOwn (e : Step) : List Str :=
  (if e.strays then uninit.toList else []) ++ migLabel env e

/-- **What failed global mounts unmount**, in order, when these steps are done and the next one
fails. -/
def globalUndone (s : List Step) (e : Step) : List Str :=
  if e.op = .nsLeave then [] else globalOwn env uninit e ++ copied (migDst env) (· = .caps) s

end Plan

section Body

variable {env : Faults} {ctx : Context} {cnt : Container} {uninit : Option Str} {t₀ : Table Name}
  {s : List Step}

/-! ## Devices of capabilities -/

theorem capUndone_of_mount {e : Step} (h : e.op ≠ .cgroup) :
    capUndone env s e = migLabel env e := by
  rw [capUndone, if_neg h, List.nil_append]

/-- **`cap_device_mount`.** -/
theorem traced_capDeviceMount (call : Call) (capPath : Str) (hnew : Unlisted call s)
    (hlabel : ∀ e, e.call = call → migLabel env e = deviceLabel env e) :
    Traced env (capUndone env) t₀ s (env.host.capDeviceMount ctx cnt call capPath)
      (capPlan env ctx cnt call) () := by
  have hlookup : Unlisted call (s ++ [⟨call, .capLookup, 0⟩]) := hnew.append (by simp [Unlisted])
  have hfirst : capUndone env s ⟨call, .capLookup, 0⟩ = [] := by
    rw [capUndone_of_mount (by simp), hlabel _ rfl]
    rfl
  refine (Traced.query (by simp) (fun _ => rfl) hfirst).bind
    (Traced.bind (a := deviceMnt env cnt call) ?_ ?_)
  · refine Traced.optionally _ fun _ => (traced_mountDevice ctx.root _).congr fun e he => ?_
    obtain ⟨hcall, hop⟩ : e.call = call ∧ e.op.ofMount = true :=
      devicePlan_call (mem_of_firstFailure he)
    rw [capUndone_of_mount (ne_of_ofMount hop rfl), hlabel e hcall]
  · refine (traced_cgroup (U := nothing) call _ rfl).onError (unmount_opt_eq _) fun e he => ?_
    obtain rfl : e = ⟨call, .cgroup, 0⟩ := cgroupPlan_step (mem_of_firstFailure he)
    rw [capUndone, if_pos rfl, hlabel _ rfl, copied_append,
      plain_cgroupPlan.copied_eq_nil (succeeded_sublist _).subset, List.append_nil]
    exact (List.append_nil _).trans
      (copied_device rfl hlookup ctx.root (env.capNode ⟨call, .capLookup, 0⟩))

/-! ## The access mounts -/

/-- What is unmounted with the mounts of the two instances. -/
theorem accessUndone_eq {e : Step} (hop : e.op ≠ .nsLeave) : accessUndone env s e
    = capUndone env s e ++ (copied (migDst env) (· = .gi) s ++ copied (migDst env) (· = .ci) s) :=
  if_neg hop

/-- What is recorded of a file below `/proc`. -/
theorem copied_undoing {call : Call} (hnew : Unlisted call s) (root dir : Str) :
    copied (migDst env) (· = call) (s ++ (undoingPlan env call root dir).map (·.1))
      = [env.dst call] := by
  rw [copied_append, hnew.copied_eq_nil,
    copied_own (fun _ hx => (undoingPlan_call hx).1) (List.Subset.refl _)]
  exact copied_undoingPlan rfl root dir

/-- What a failed call of `mount_procfs_mig` unmounts, and the label with it. -/
theorem accessUndone_of_undoing {call : Call} {root dir : Str} {e : Step}
    (hlabel : ∀ e, e.call = call → migLabel env e = undoingLabel env e)
    (he : firstFailure (undoingPlan env call root dir) = some e) :
    accessUndone env (s ++ succeeded (undoingPlan env call root dir)) e = undoingLabel env e
      ++ (copied (migDst env) (· = .gi) s ++ copied (migDst env) (· = .ci) s) := by
  obtain ⟨hcall, hop⟩ : e.call = call ∧ e.op.ofMount = true :=
    undoingPlan_call (mem_of_firstFailure he)
  rw [accessUndone_eq (ne_of_ofMount hop rfl), capUndone_of_mount (ne_of_ofMount hop rfl),
    hlabel e hcall, copied_append, copied_append, copied_undoingPlan_of_failed he,
    copied_undoingPlan_of_failed he, List.append_nil, List.append_nil]

theorem capPlan_step {call : Call} {x : Step × Bool} (hx : x ∈ capPlan env ctx cnt call) :
    x.1.call = call ∧ x.1.op ≠ .nsLeave := by
  rcases List.mem_append.mp hx with hx | hx
  · rw [List.mem_singleton.mp hx]
    exact ⟨rfl, by simp⟩
  rcases List.mem_append.mp hx with hx | hx
  · exact ⟨(boundDevice_call hx).1, ne_of_ofMount (boundDevice_call hx).2 rfl⟩
  · rw [cgroupPlan_step hx]
    exact ⟨rfl, by simp⟩

theorem capPart_step {call : Call} {x : Step × Bool}
    (hx : x ∈ capPart env ctx cnt call) : x.1.call = call ∧ x.1.op ≠ .nsLeave := by
  rw [capPart] at hx
  split_ifs at hx
  · exact capPlan_step hx
  · cases hx

/-- The device of an instance, and the label with it. -/
theorem traced_capPart {call : Call} (access : Str) {clean : Table Name → Table Name}
    (hgi : call ≠ .gi) (hci : call ≠ .ci)
    (hlabel : ∀ e, e.call = call → migLabel env e = deviceLabel env e) (hnew : Unlisted call s)
    (hclean : ∀ t, clean t = t.umounts env.reaches
      (copied (migDst env) (· = .gi) s ++ copied (migDst env) (· = .ci) s)) :
    Traced env (accessUndone env) t₀ s
      (onError (onlyIf env.hasNvcaps (env.host.capDeviceMount ctx cnt call access)) clean)
      (capPart env ctx cnt call) () := by
  have hrun : Traced env (capUndone env) t₀ s
      (onlyIf env.hasNvcaps (env.host.capDeviceMount ctx cnt call access))
      (capPart env ctx cnt call) () :=
    Traced.onlyIf _ fun _ => traced_capDeviceMount call access hnew hlabel
  refine hrun.onError hclean fun e he => ?_
  have hnone {call' : Call} (hne : call ≠ call') : copied (migDst env) (· = call')
      (succeeded (capPart env ctx cnt call)) = [] := by
    rw [copied_of_call (fun x hx => (capPart_step hx).1) (succeeded_sublist _).subset,
      if_neg (by simpa using hne)]
  rw [accessUndone_eq (capPart_step (mem_of_firstFailure he)).2, copied_append, copied_append,
    hnone hgi, hnone hci, List.append_nil, List.append_nil]

/-! ### The compute instance -/

theorem traced_ciPath (ciCapsPath : Str) (hgi : copied (migDst env) (· = .gi) s = [env.dst .gi])
    (hci : Unlisted .ci s) : Traced env (accessUndone env) t₀ s
      (onError (joined ⟨.ci, .appendSrc, 0⟩ (pathJoin ciCapsPath Host.NV_MIG_ACCESS_FILE))
        (env.host.unmount (some (env.dst .gi))))
      [(⟨.ci, .appendSrc, 0⟩, !(pathJoin ciCapsPath Host.NV_MIG_ACCESS_FILE).1)]
      (pathJoin ciCapsPath Host.NV_MIG_ACCESS_FILE).2 := by
  refine (Traced.joined (U := nothing) _ (by simp) rfl).onError (unmount_eq _) fun e he => ?_
  obtain ⟨rfl, htrue⟩ := Prod.mk.inj (List.mem_singleton.mp (mem_of_firstFailure he))
  rw [← htrue, succeeded_cons_true, List.append_nil, accessUndone_eq (by simp), hgi,
    hci.copied_eq_nil]
  rfl

theorem traced_ciProc (access : Str) (hgi : copied (migDst env) (· = .gi) s = [env.dst .gi])
    (hci : Unlisted .ci s) : Traced env (accessUndone env) t₀ s
      (onError (mountProcfsMig env.host.toSys cnt .ci ctx.root access)
        (env.host.unmount (some (env.dst .gi))))
      (undoingPlan env .ci ctx.root access) (env.dst .ci) := by
  refine (traced_mountUndoing _ _ _).onError (unmount_eq _) fun e he => ?_
  rw [accessUndone_of_undoing (fun e he => by rw [migLabel, he]) he, hgi, hci.copied_eq_nil]
  rfl

theorem traced_ciCap (access : Str) (hgi : copied (migDst env) (· = .gi) s = [env.dst .gi])
    (hci : copied (migDst env) (· = .ci) s = [env.dst .ci]) (hcap : Unlisted .ciCap s) :
    Traced env (accessUndone env) t₀ s
      (onError (onlyIf env.hasNvcaps (env.host.capDeviceMount ctx cnt .ciCap access)) fun w =>
        env.host.unmount (some (env.dst .ci)) (env.host.unmount (some (env.dst .gi)) w))
      (capPart env ctx cnt .ciCap) () := by
  refine traced_capPart access (by simp) (by simp) (fun e he => by rw [migLabel, he]) hcap
    fun t => ?_
  rw [hgi, hci, Table.umounts_append, unmount_eq, unmount_eq]

/-- What is recorded of an instance is still recorded after steps of another. -/
theorem copied_after {call call' : Call} {p : List (Step × Bool)} {ps : List Str}
    (h : copied (migDst env) (· = call) s = ps) (hp : ∀ x ∈ p, x.1.call = call')
    (hne : call' ≠ call) : copied (migDst env) (· = call) (s ++ p.map (·.1)) = ps := by
  rw [copied_append, h, (Unlisted.of_call hp hne).copied_eq_nil, List.append_nil]

/-- **The part for the compute instance.** -/
theorem traced_computeAccess (ciCapsPath : Str)
    (hgi : copied (migDst env) (· = .gi) s = [env.dst .gi]) (hci : Unlisted .ci s)
    (hcap : Unlisted .ciCap s) :
    Traced env (accessUndone env) t₀ s (env.host.computeAccess ctx cnt ciCapsPath (env.dst .gi))
      (computePlan env ctx cnt ciCapsPath) () := by
  set p := [((⟨.ci, .appendSrc, 0⟩ : Step), !(pathJoin ciCapsPath Host.NV_MIG_ACCESS_FILE).1)]
  have hgi' : copied (migDst env) (· = .gi) (s ++ p.map (·.1)) = [env.dst .gi] :=
    copied_after hgi (show ∀ x ∈ p, x.1.call = Call.ci by simp [p]) (by simp)
  have hci' : Unlisted .ci (s ++ p.map (·.1)) := hci.append (by simp [Unlisted, p])
  have hcap' : Unlisted .ciCap (s ++ p.map (·.1)) := hcap.append (by simp [Unlisted, p])
  have hproc {x : Step × Bool} (access : Str) (hx : x ∈ undoingPlan env .ci ctx.root access) :
      x.1.call = .ci := (undoingPlan_call hx).1
  refine (traced_ciPath ciCapsPath hgi hci).bind ((traced_ciProc _ hgi' hci').bind
    ((Traced.reading fun _ => rfl).bind (traced_ciCap _ ?_ ?_ ?_)))
  · rw [List.map_nil, List.append_nil]
    exact copied_after hgi' (fun x => hproc _) (by simp)
  · rw [List.map_nil, List.append_nil]
    exact copied_undoing hci' ctx.root _
  · rw [List.map_nil, List.append_nil]
    exact hcap'.append (.of_call (fun x => hproc _) (by simp))

/-- **The body of `nvc_mig_device_access_caps_mount`.** -/
theorem traced_access (giCapsPath ciCapsPath : Str) (hs : ∀ e ∈ s, e.op ≠ .strdup) :
    Traced env (accessUndone env) t₀ s (env.host.accessBody ctx cnt giCapsPath ciCapsPath)
      (accessPlan env ctx cnt giCapsPath ciCapsPath) () := by
  have hnew (call : Call) : Unlisted call s := fun e he hop => absurd hop (hs e he)
  set p := [((⟨.gi, .appendSrc, 0⟩ : Step), !(pathJoin giCapsPath Host.NV_MIG_ACCESS_FILE).1)]
  have hstart (call : Call) : Unlisted call (s ++ p.map (·.1)) :=
    (hnew call).append (by simp [Unlisted, p])
  set q := undoingPlan env .gi ctx.root (pathJoin giCapsPath Host.NV_MIG_ACCESS_FILE).2
  have hproc : ∀ x ∈ q, x.1.call = .gi := fun x hx => (undoingPlan_call hx).1
  have hgi : copied (migDst env) (· = .gi) (s ++ p.map (·.1) ++ q.map (·.1)) = [env.dst .gi] :=
    copied_undoing (hstart .gi) ctx.root _
  have hafter {call : Call} (hne : .gi ≠ call) : Unlisted call (s ++ p.map (·.1) ++ q.map (·.1)) :=
    (hstart call).append (.of_call hproc hne)
  have hcap : ∀ x ∈ capPart env ctx cnt .giCap, x.1.call = .giCap :=
    fun x hx => (capPart_step hx).1
  have hfirst : accessUndone env s ⟨.gi, .appendSrc, 0⟩ = [] := by
    rw [accessUndone_eq (by simp), (hnew .gi).copied_eq_nil, (hnew .ci).copied_eq_nil]
    rfl
  have hgiProc : Traced env (accessUndone env) t₀ (s ++ p.map (·.1))
      (mountProcfsMig env.host.toSys cnt .gi ctx.root
        (pathJoin giCapsPath Host.NV_MIG_ACCESS_FILE).2) q (env.dst .gi) := by
    refine (traced_mountUndoing _ _ _).congr fun e he => ?_
    rw [accessUndone_of_undoing (fun e he => by rw [migLabel, he]) he,
      (hstart .gi).copied_eq_nil, (hstart .ci).copied_eq_nil]
    exact List.append_nil _
  have hgiCap (access : Str) : Traced env (accessUndone env) t₀ (s ++ p.map (·.1) ++ q.map (·.1))
      (onError (onlyIf env.hasNvcaps (env.host.capDeviceMount ctx cnt .giCap access))
        (env.host.unmount (some (env.dst .gi))))
      (capPart env ctx cnt .giCap) () := by
    refine traced_capPart access (by simp) (by simp) (fun e he => by rw [migLabel, he])
      (hafter (by simp)) fun t => ?_
    rw [hgi, (hafter (by simp)).copied_eq_nil]
    exact unmount_eq _ t
  refine (Traced.joined _ (by simp) hfirst).bind
    (hgiProc.bind ((Traced.reading fun _ => rfl).bind ?_))
  rw [List.map_nil, List.append_nil]
  refine (hgiCap _).bind (traced_computeAccess ciCapsPath (copied_after hgi hcap (by simp)) ?_ ?_)
  · exact (hafter (by simp)).append (.of_call hcap (by simp))
  · exact (hafter (by simp)).append (.of_call hcap (by simp))

/-! ## The global mounts -/

/-- The mount of the directory. -/
theorem traced_createAndRemount (flags : MountFlags) (src dst : Str) : Traced env nothing t₀ s
    (createAndRemount env.host.toSys flags .capsDir src dst)
    (env.plan .capsDir 0 [.mode, .create, .bind, .remount]) () :=
  (Traced.query (by simp) (fun _ => rfl) rfl).bind
    ((Traced.attempt (by simp) (fun _ => rfl) rfl).bind
    ((traced_mount src dst).bind (Traced.attempt (by simp) (fun _ => rfl) rfl)))

/-- The steps of `mount_directory`. -/
def directoryPlan (env : Faults) (root : Str) : List (Step × Bool) :=
  [(⟨.capsDir, .pathSrc, 0⟩, !(pathJoin root Host.NV_CAPS_DEVICE_DIR).1),
      (⟨.capsDir, .resolve, 0⟩, !(env.resolved ⟨.capsDir, .resolve, 0⟩).1)]
    ++ env.plan .capsDir 0 [.mode, .create, .bind, .remount, .strdup]

/-- **`mount_directory`** on the device directory. -/
theorem traced_mountDirectory (root : Str) : Traced env (fun _ e => globalOwn env uninit e) t₀ s
    (mountDirectory env.host.toSys cnt uninit .capsDir root Host.NV_CAPS_DEVICE_DIR)
    (directoryPlan env root) (env.dst .capsDir) := by
  have hbind (flags : MountFlags) (src dst : Str) {s : List Step} :
      Traced env (fun _ e => globalOwn env uninit e) t₀ s
        (onError (createAndRemount env.host.toSys flags .capsDir src dst)
          (env.host.unmount uninit))
        (env.plan .capsDir 0 [.mode, .create, .bind, .remount]) () := by
    refine (traced_createAndRemount flags src dst).onError (unmount_opt_eq uninit) fun e he => ?_
    obtain ⟨op, hop, hstep⟩ := List.mem_map.mp (mem_of_firstFailure he)
    obtain ⟨rfl, -⟩ := Prod.mk.inj hstep
    simp only [List.mem_cons, List.not_mem_nil, or_false] at hop
    rcases hop with rfl | rfl | rfl | rfl <;> exact List.append_nil _
  have hdup {s : List Step} : Traced env (fun _ e => globalOwn env uninit e) t₀ s
      (onError (env.host.allocate ⟨.capsDir, .strdup, 0⟩) (env.host.unmount none))
      (env.plan .capsDir 0 [.strdup]) () :=
    (Traced.allocate (U := nothing) (by simp) rfl).onError_idle (fun _ => rfl) fun e he => by
      obtain ⟨rfl, -⟩ := Prod.mk.inj (List.mem_singleton.mp (mem_of_firstFailure he))
      rfl
  exact (Traced.joined _ (by simp) rfl).bind ((Traced.resolve _ _ (by simp) rfl).bind
    ((hbind _ _ _).bind (hdup.bind (Traced.pure _))))

/-- The device directory, and the device of the capability in the cgroup. -/
theorem traced_capsDirectory (file : Str) : Traced env (fun _ e => globalOwn env uninit e) t₀ s
    (env.host.capsDirectory ctx cnt file uninit) (capsDirectoryPlan env ctx cnt file) () :=
  (traced_mountDirectory ctx.root).bind ((Traced.joined _ (by simp) rfl).bind
    ((Traced.query (by simp) (fun _ => rfl) rfl).bind (traced_cgroup _ _ rfl)))

theorem directoryPlan_step {root : Str} {x : Step × Bool} (hx : x ∈ directoryPlan env root) :
    x.1.call = .capsDir ∧ x.1.op.ofMount = true := by
  simp only [directoryPlan, Faults.plan, List.map_cons, List.map_nil, List.mem_append,
    List.mem_cons, List.not_mem_nil, or_false] at hx
  rcases hx with (rfl | rfl) | rfl | rfl | rfl | rfl | rfl <;> exact ⟨rfl, rfl⟩

/-- The steps behind the mount of the device directory. -/
def cgroupOfPlan (env : Faults) (cnt : Container) (file : Str) : List (Step × Bool) :=
  [(⟨.capsDir, .appendSrc, 0⟩, !(pathJoin Host.NV_MIG_CAPS_PATH file).1)]
    ++ ([(⟨.capsDir, .capLookup, 0⟩, env.fails ⟨.capsDir, .capLookup, 0⟩)]
    ++ cgroupPlan env cnt .capsDir)

theorem cgroupOfPlan_step {file : Str} {x : Step × Bool} (hx : x ∈ cgroupOfPlan env cnt file) :
    x.1.call = .capsDir ∧ (x.1.op = .appendSrc ∨ x.1.op = .capLookup ∨ x.1.op = .cgroup) := by
  rcases List.mem_append.mp hx with hx | hx
  · rw [List.mem_singleton.mp hx]
    exact ⟨rfl, .inl rfl⟩
  rcases List.mem_append.mp hx with hx | hx
  · rw [List.mem_singleton.mp hx]
    exact ⟨rfl, .inr (.inl rfl)⟩
  · rw [cgroupPlan_step hx]
    exact ⟨rfl, .inr (.inr rfl)⟩

/-- The steps of the device directory. -/
theorem capsDirectoryPlan_step {file : Str} {x : Step × Bool}
    (hx : x ∈ if env.hasNvcaps then capsDirectoryPlan env ctx cnt file else []) :
    x.1.call = .capsDir ∧ x.1.op ≠ .nsLeave := by
  split_ifs at hx
  · have hsplit : capsDirectoryPlan env ctx cnt file
        = directoryPlan env ctx.root ++ cgroupOfPlan env cnt file := rfl
    rw [hsplit] at hx
    rcases List.mem_append.mp hx with hx | hx
    · exact ⟨(directoryPlan_step hx).1, ne_of_ofMount (directoryPlan_step hx).2 rfl⟩
    · refine ⟨(cgroupOfPlan_step hx).1, fun hop => ?_⟩
      rcases (cgroupOfPlan_step hx).2 with h | h | h <;> cases h.symm.trans hop
  · cases hx

theorem globalUndone_eq {e : Step} (hop : e.op ≠ .nsLeave) :
    globalUndone env uninit s e = globalOwn env uninit e ++ copied (migDst env) (· = .caps) s :=
  if_neg hop

/-- **The body of the global operations.** -/
theorem traced_globalBody (file : Str) (hs : ∀ e ∈ s, e.op ≠ .strdup) :
    Traced env (globalUndone env uninit) t₀ s (env.host.globalBody ctx cnt file uninit)
      (globalPlan env ctx cnt file) () := by
  have hnew : Unlisted .caps s := fun e he hop => absurd hop (hs e he)
  have hproc : Traced env (globalUndone env uninit) t₀ s
      (mountProcfsMig env.host.toSys cnt .caps ctx.root Host.NV_PROC_DRIVER_CAPS)
      (undoingPlan env .caps ctx.root Host.NV_PROC_DRIVER_CAPS) (env.dst .caps) := by
    refine (traced_mountUndoing _ _ _).congr fun e he => ?_
    obtain ⟨hcall, hop⟩ : e.call = .caps ∧ e.op.ofMount = true :=
      undoingPlan_call (mem_of_firstFailure he)
    have hown : globalOwn env uninit e = undoingLabel env e := by
      simp [globalOwn, Step.strays, migLabel, hcall]
    rw [globalUndone_eq (ne_of_ofMount hop rfl), hown, copied_append, hnew.copied_eq_nil,
      copied_undoingPlan_of_failed he]
    exact List.append_nil _
  refine hproc.bind ((Traced.reading fun _ => rfl).bind ?_)
  refine (Traced.onlyIf _ fun _ => traced_capsDirectory file).onError (unmount_eq _) fun e he => ?_
  rw [globalUndone_eq (capsDirectoryPlan_step (mem_of_firstFailure he)).2, List.map_nil,
    List.append_nil, copied_append, copied_undoing hnew, copied_of_call
    (fun x hx => (capsDirectoryPlan_step hx).1) (succeeded_sublist _).subset, if_neg (by simp),
    List.append_nil]

/-! ## The plans -/

/-- No call of `mount_files` is among the access mounts. -/
theorem orderly_capPlan {call : Call} (files : Call → Bool)
    (hlabel : ∀ e, e.call = call → migLabel env e = deviceLabel env e) :
    Orderly (migDst env) (migLabel env) files (capPlan env ctx cnt call) := by
  have hlookup : Orderly (migDst env) (migLabel env) files
      [((⟨call, .capLookup, 0⟩ : Step), env.fails ⟨call, .capLookup, 0⟩)] :=
    .of_plain (by simp [Plain, Op.ofBind]) (by simp [hlabel, deviceLabel, Op.ofBind]) (by simp)
  have hdev : Orderly (migDst env) (migLabel env) files
      (devicePlan env call ctx.root (env.capNode ⟨call, .capLookup, 0⟩)) :=
    orderly_devicePlan rfl hlabel _
  refine hlookup.append ((Orderly.ite hdev .nil).append (orderly_cgroupPlan ?_))
  rw [hlabel _ rfl]
  rfl

/-- The plan of the access operation is in order. -/
theorem orderly_accessPlan (giCapsPath ciCapsPath : Str) :
    Orderly (migDst env) (migLabel env) (fun _ => false)
      (accessPlan env ctx cnt giCapsPath ciCapsPath) := by
  have hpath {call : Call} (b : Bool) (hlabel : migLabel env ⟨call, .appendSrc, 0⟩ = []) :
      Orderly (migDst env) (migLabel env) (fun _ => false)
        [((⟨call, .appendSrc, 0⟩ : Step), b)] :=
    .of_plain (by simp [Plain, Op.ofBind]) (by simp [hlabel]) (by simp)
  have hproc {call : Call} (access : Str)
      (hlabel : ∀ e, e.call = call → migLabel env e = undoingLabel env e) :
      Orderly (migDst env) (migLabel env) (fun _ => false)
        (undoingPlan env call ctx.root access) := orderly_undoingPlan rfl hlabel
  have hcap {call : Call} (hlabel : ∀ e, e.call = call → migLabel env e = deviceLabel env e) :
      Orderly (migDst env) (migLabel env) (fun _ => false)
        (capPart env ctx cnt call) :=
    .ite (orderly_capPlan _ hlabel) .nil
  have hcompute : Orderly (migDst env) (migLabel env) (fun _ => false)
      (computePlan env ctx cnt ciCapsPath) :=
    (hpath _ rfl).append ((hproc _ fun e he => by rw [migLabel, he]).append
      (Orderly.nil.append (hcap fun e he => by rw [migLabel, he])))
  exact (hpath _ rfl).append ((hproc _ fun e he => by rw [migLabel, he]).append
    (Orderly.nil.append ((hcap fun e he => by rw [migLabel, he]).append hcompute)))

/-- The plan of the global operations is in order. -/
theorem orderly_globalPlan (file : Str) : Orderly (migDst env) (migLabel env) (· = .capsDir)
    (globalPlan env ctx cnt file) := by
  have hlabel {e : Step} (he : e.call = .capsDir) : migLabel env e = [] := by rw [migLabel, he]
  have hproc : Orderly (migDst env) (migLabel env) (· = .capsDir)
      (undoingPlan env .caps ctx.root Host.NV_PROC_DRIVER_CAPS) :=
    orderly_undoingPlan rfl fun e he => by rw [migLabel, he]
  have hregular : Regular (migDst env) (directoryPlan env ctx.root) := by
    have hD (op : Op) : migDst env ⟨.capsDir, op, 0⟩ = env.dst .capsDir := rfl
    have hplain : Plain [((⟨.capsDir, .pathSrc, 0⟩ : Step),
        !(pathJoin ctx.root Host.NV_CAPS_DEVICE_DIR).1),
        (⟨.capsDir, .resolve, 0⟩, !(env.resolved ⟨.capsDir, .resolve, 0⟩).1)] := by
      simp [Plain, Op.ofBind]
    have hmiddle : Plain (env.plan .capsDir 0 [.mode, .create]) := by
      simp [Plain, Faults.plan, Op.ofBind]
    refine (Regular.of_plain hplain).append_of_done (fun hok => ?_) ?_
    · have hbind : Regular (migDst env) (env.plan .capsDir 0 [.bind, .remount, .strdup]) :=
        .of_bindAt hD (dst_ne hok)
      exact (Regular.of_plain hmiddle).append hbind
    · simp [aimed, copied, Faults.plan, hD]
  have hdirectory : Orderly (migDst env) (migLabel env) (· = .capsDir)
      (directoryPlan env ctx.root) := by
    refine ⟨hregular, ⟨fun x hx d hd => ?_, fun x hx _ => .inl ?_⟩, fun x hx =>
      ne_of_ofMount (directoryPlan_step hx).2 rfl⟩
    · rw [hlabel (directoryPlan_step hx).1] at hd
      cases hd
    · simp [(directoryPlan_step hx).1]
  have hafter : Orderly (migDst env) (migLabel env) (· = .capsDir) (cgroupOfPlan env cnt file) := by
    refine .of_plain (fun x hx => ?_) (fun x hx => hlabel (cgroupOfPlan_step hx).1)
      fun x hx hop => ?_
    · rcases (cgroupOfPlan_step hx).2 with h | h | h <;> rw [h] <;> rfl
    · rcases (cgroupOfPlan_step hx).2 with h | h | h <;> cases h.symm.trans hop
  exact hproc.append (Orderly.nil.append (.ite (hdirectory.append hafter) .nil))

end Body

/-! ## Which steps may fail -/

/-- The device of the GPU instance, whose destination `cap_device_mount` frees. -/
def forgotten (env : Faults) (cnt : Container) : Option Str :=
  if env.hasNvcaps then deviceMnt env cnt .giCap else none

/-- **The step of the access mounts may fail without one being left where the destinations lie
apart**: it is not the way back, and where it belongs to the compute instance either no device is
forgotten or the label hits it by chance. -/
structure AccessClean (env : Faults) (cnt : Container) (t : Table Name) (e : Step) : Prop where
  leave : e.op ≠ .nsLeave
  compute : e.call = .ci ∨ e.call = .ciCap → forgotten env cnt = none ∨ e.unrecorded = false
    ∧ ∃ d ∈ migLabel env e, env.reaches t.entries d = some (env.target ⟨.giCap, .bind, 0⟩)

/-- **The step of the global mounts may fail without one being left where the destinations lie
apart**: it is not the way back, and it comes before the device directory is bound, or is its
remount with the pointer leading there by chance. -/
structure GlobalClean (env : Faults) (uninit : Option Str) (t : Table Name) (e : Step) : Prop where
  leave : e.op ≠ .nsLeave
  directory : e.call = .capsDir →
    e.op = .pathSrc ∨ e.op = .resolve ∨ e.op = .mode ∨ e.op = .create ∨ e.op = .bind
      ∨ e.op = .remount ∧ ∃ d ∈ uninit.toList,
        env.reaches t.entries d = some (env.target ⟨.capsDir, .bind, 0⟩)

namespace MigOp

/-- What the operation unmounts, in order, when these steps are done and the next one fails. -/
def undone (op : MigOp) (env : Faults) (uninit : Option Str) : List Step → Step → List Str :=
  match op with
  | .access .. => accessUndone env
  | .config | .monitor => globalUndone env uninit

/-- What may be unmounted that is no destination. -/
def stray (op : MigOp) (uninit : Option Str) : List Str :=
  match op with
  | .access .. => []
  | .config | .monitor => uninit.toList

/-- The destinations of a call lie apart. -/
def apart (op : MigOp) (env : Faults) (ctx : Context) (cnt : Container) (uninit : Option Str) :
    Prop := ∃ place, env.Apart (migDst env) (op.plan env ctx cnt) (op.stray uninit) place

/-- The step may fail without a mount being left where the destinations lie apart. -/
def Clean (op : MigOp) (env : Faults) (cnt : Container) (uninit : Option Str) (t : Table Name)
    (e : Step) : Prop :=
  match op with
  | .access .. => AccessClean env cnt t e
  | .config | .monitor => GlobalClean env uninit t e

/-- **The step may fail without a mount of the operation being left.**  Where destinations lie below
one another, what is unmounted has to take the layers of the mounts made off. -/
structure LeavesNothing (op : MigOp) (env : Faults) (ctx : Context) (cnt : Container)
    (uninit : Option Str) (t : Table Name) (e : Step) : Prop where
  apart : op.apart env ctx cnt uninit → op.Clean env cnt uninit t e
  nested : ¬op.apart env ctx cnt uninit → Layers.Unwinds Entry.node env.reaches True
    (Table.made t.next (env.bound (succeeded (op.plan env ctx cnt)))) t.entries
    (op.undone env uninit (succeeded (op.plan env ctx cnt)) e)

end MigOp

section Operations

variable {env : Faults} {ctx : Context} {cnt : Container} {uninit : Option Str} {t : Table Name}
  {place : Str → Loc} {e : Step} {giCapsPath ciCapsPath file : Str}

/-! ## Where the access mounts fail -/

/-- The calls whose mounts are not unmounted when the step fails. -/
def accessLost (e : Step) (call : Call) : Bool :=
  !(call = .gi) && !(call = .ci) && !(e.op = .cgroup && call = e.call)

/-- The steps of the GPU instance's file. -/
def giPlan (env : Faults) (ctx : Context) (giCapsPath : Str) : List (Step × Bool) :=
  [(⟨.top, .validate, 0⟩, !ctx.initialized), (⟨.top, .nsEnter, 0⟩, env.fails ⟨.top, .nsEnter, 0⟩),
      (⟨.gi, .appendSrc, 0⟩, !(pathJoin giCapsPath Host.NV_MIG_ACCESS_FILE).1)]
    ++ undoingPlan env .gi ctx.root (pathJoin giCapsPath Host.NV_MIG_ACCESS_FILE).2

theorem accessPlan_eq : (MigOp.access giCapsPath ciCapsPath).plan env ctx cnt
    = giPlan env ctx giCapsPath ++ (capPart env ctx cnt .giCap
      ++ (computePlan env ctx cnt ciCapsPath
        ++ [(⟨.top, .nsLeave, 0⟩, env.fails ⟨.top, .nsLeave, 0⟩)])) := by
  simp only [MigOp.plan, inContainerPlan, accessPlan, giPlan, capPart, List.append_assoc,
    List.cons_append, List.nil_append]

theorem giPlan_step {x : Step × Bool} (hx : x ∈ giPlan env ctx giCapsPath) :
    (x.1.call = .top ∨ x.1.call = .gi) ∧ x.1.op ≠ .cgroup ∧ x.1.op ≠ .nsLeave
      ∧ (x.1.op = .strdup → x.1.call = .gi) := by
  rcases List.mem_append.mp hx with hx | hx
  · simp only [List.mem_cons, List.not_mem_nil, or_false] at hx
    rcases hx with rfl | rfl | rfl <;> simp
  · obtain ⟨hcall, hop⟩ := undoingPlan_call hx
    exact ⟨.inr hcall, ne_of_ofMount hop rfl, ne_of_ofMount hop rfl, fun _ => hcall⟩

theorem computePlan_step {x : Step × Bool} (hx : x ∈ computePlan env ctx cnt ciCapsPath) :
    (x.1.call = .ci ∨ x.1.call = .ciCap) ∧ x.1.op ≠ .nsLeave
      ∧ (x.1.op = .cgroup → x.1.call = .ciCap) := by
  rcases List.mem_append.mp hx with hx | hx
  · rw [List.mem_singleton.mp hx]
    simp
  rcases List.mem_append.mp hx with hx | hx
  · obtain ⟨hcall, hop⟩ := undoingPlan_call hx
    exact ⟨.inl hcall, ne_of_ofMount hop rfl, fun h => absurd h (ne_of_ofMount hop rfl)⟩
  · rw [List.nil_append] at hx
    exact ⟨.inr (capPart_step hx).1, (capPart_step hx).2, fun _ => (capPart_step hx).1⟩

/-- What is recorded of the device of an instance. -/
theorem copied_capPart {call : Call} {calls : Call → Bool} (h : calls call = true) :
    copied (migDst env) calls ((capPart env ctx cnt call).map (·.1))
      = (if env.hasNvcaps then deviceMnt env cnt call else none).toList := by
  rw [copied_of_call (fun x hx => (capPart_step hx).1) (List.Subset.refl _), if_pos h, capPart]
  split_ifs
  · rw [capPlan, List.map_append, List.map_append, copied_append, copied_append,
      plain_cgroupPlan.copied_eq_nil (List.Subset.refl _), List.append_nil]
    exact copied_boundDevice rfl ctx.root _
  · rfl

/-- A device is recorded only if all but its place in the cgroup is done. -/
theorem copied_capPart_of_failed {call : Call} {calls : Call → Bool}
    (he : firstFailure (capPart env ctx cnt call) = some e) (hop : e.op ≠ .cgroup) :
    copied (migDst env) calls (succeeded (capPart env ctx cnt call)) = [] := by
  rw [capPart] at he ⊢
  split_ifs at he ⊢
  · rcases firstFailure_append_cases he with ⟨-, hs⟩ | ⟨-, he, hs⟩
    · rw [capPlan, hs]
      exact copied_eq_nil fun e' he' h => by
        have hmem := (succeeded_sublist _).subset he'
        simp only [List.map_cons, List.map_nil, List.mem_singleton] at hmem
        rw [hmem] at h
        cases h
    rcases firstFailure_append_cases he with ⟨he, hs'⟩ | ⟨-, he, -⟩
    · rw [capPlan, hs, hs', copied_append, copied_boundDevice_of_failed he]
      rfl
    · obtain rfl : e = ⟨call, .cgroup, 0⟩ := cgroupPlan_step (mem_of_firstFailure he)
      exact absurd rfl hop
  · cases he

/-- What is recorded of the compute instance is unmounted. -/
theorem copied_compute_of_failed (he : firstFailure (computePlan env ctx cnt ciCapsPath) = some e) :
    copied (migDst env) (accessLost e) (succeeded (computePlan env ctx cnt ciCapsPath)) = [] := by
  have hci {s : List Step} {p : List (Step × Bool)} (hp : ∀ x ∈ p, x.1.call = .ci)
      (hs : s ⊆ p.map (·.1)) : copied (migDst env) (accessLost e) s = [] := by
    rw [copied_of_call hp hs]
    exact if_neg (by simp [accessLost])
  have hpath : ∀ x ∈ [((⟨.ci, .appendSrc, 0⟩ : Step),
      !(pathJoin ciCapsPath Host.NV_MIG_ACCESS_FILE).1)], x.1.call = .ci := by simp
  rcases firstFailure_append_cases he with ⟨-, hs⟩ | ⟨-, he, hs⟩
  · rw [computePlan, hs]
    exact hci hpath (succeeded_sublist _).subset
  rw [computePlan, hs, copied_append, hci hpath (List.Subset.refl _), List.nil_append]
  rcases firstFailure_append_cases he with ⟨-, hs⟩ | ⟨-, he, hs⟩
  · rw [hs]
    exact hci (fun x hx => (undoingPlan_call hx).1) (succeeded_sublist _).subset
  rw [hs, copied_append, hci (fun x hx => (undoingPlan_call hx).1) (List.Subset.refl _),
    List.nil_append]
  by_cases hop : e.op = .cgroup
  · have hcall : e.call = .ciCap := (capPart_step (mem_of_firstFailure he)).1
    rw [List.nil_append, copied_of_call (fun x hx => (capPart_step hx).1)
      (succeeded_sublist _).subset]
    exact if_neg (by simp [accessLost, hop, hcall])
  · exact copied_capPart_of_failed he hop

/-- **Where the access mounts fail**, and what is recorded then that is not unmounted. -/
theorem accessPlan_cases
    (he : firstFailure ((MigOp.access giCapsPath ciCapsPath).plan env ctx cnt) = some e) :
    (copied (migDst env) (accessLost e)
          (succeeded ((MigOp.access giCapsPath ciCapsPath).plan env ctx cnt)) = []
        ∧ ¬(e.call = .ci ∨ e.call = .ciCap) ∧ e.op ≠ .nsLeave
        ∧ (e.op = .cgroup → e.call = .giCap))
      ∨ (copied (migDst env) (accessLost e)
          (succeeded ((MigOp.access giCapsPath ciCapsPath).plan env ctx cnt))
            = (forgotten env cnt).toList
        ∧ (e.call = .ci ∨ e.call = .ciCap) ∧ e.op ≠ .nsLeave ∧ (e.op = .cgroup → e.call = .ciCap))
      ∨ e = ⟨.top, .nsLeave, 0⟩ := by
  have hfront {s : List Step} (hs : s ⊆ (giPlan env ctx giCapsPath).map (·.1)) :
      copied (migDst env) (accessLost e) s = [] := by
    refine copied_eq_nil fun e' he' hop => ?_
    obtain ⟨x, hx, rfl⟩ := List.mem_map.mp (hs he')
    simp [accessLost, (giPlan_step hx).2.2.2 hop]
  rw [accessPlan_eq] at he ⊢
  rcases firstFailure_append_cases he with ⟨he, hs⟩ | ⟨-, he, hs⟩
  · obtain ⟨hcall, hcgroup, hleave, -⟩ := giPlan_step (mem_of_firstFailure he)
    rw [hs, hfront (succeeded_sublist _).subset]
    refine .inl ⟨rfl, ?_, hleave, fun hop => absurd hop hcgroup⟩
    rcases hcall with h | h <;> simp_all
  rw [hs, copied_append, hfront (List.Subset.refl _), List.nil_append]
  rcases firstFailure_append_cases he with ⟨he, hs⟩ | ⟨-, he, hs⟩
  · obtain ⟨hcall, hleave⟩ := capPart_step (mem_of_firstFailure he)
    have hcall : e.call = .giCap := hcall
    rw [hs]
    refine .inl ⟨?_, by simp [hcall], hleave, fun _ => hcall⟩
    by_cases hop : e.op = .cgroup
    · rw [copied_of_call (fun x hx => (capPart_step hx).1) (succeeded_sublist _).subset]
      exact if_neg (by simp [accessLost, hop, hcall])
    · exact copied_capPart_of_failed he hop
  rw [hs, copied_append]
  rcases firstFailure_append_cases he with ⟨he, hs⟩ | ⟨-, he, -⟩
  · obtain ⟨hcall, hleave, hcgroup⟩ := computePlan_step (mem_of_firstFailure he)
    have hlost : accessLost e .giCap = true := by
      have hcall : e.call = .ci ∨ e.call = .ciCap := hcall
      rcases hcall with hcall | hcall <;> simp [accessLost, hcall]
    rw [hs, copied_capPart hlost, copied_compute_of_failed he, List.append_nil]
    exact .inr (.inl ⟨rfl, hcall, hleave, hcgroup⟩)
  · exact .inr (.inr (Prod.mk.inj (List.mem_singleton.mp (mem_of_firstFailure he))).1)

/-! ## What the access mounts leave where the destinations lie apart -/

/-- What is recorded is unmounted or not. -/
theorem copied_perm_accessLost (hcgroup : e.op = .cgroup → e.call = .giCap ∨ e.call = .ciCap)
    (s : List Step) : (copied (migDst env) (fun _ => true) s).Perm
      (((if e.op = .cgroup then copied (migDst env) (· = e.call) s else [])
        ++ (copied (migDst env) (· = .gi) s ++ copied (migDst env) (· = .ci) s))
      ++ copied (migDst env) (accessLost e) s) := by
  have hgi := copied_perm (migDst env) (fun _ => true) (· = .gi) s
  have hci := copied_perm (migDst env) (fun c => true && !(c = .gi : Bool)) (· = .ci) s
  have hcalls : (fun c : Call => (true && !(c = .gi : Bool)) && (c = .ci : Bool))
      = fun c => (c = .ci : Bool) := by
    funext c
    cases c <;> rfl
  rw [hcalls] at hci
  have hknown : (copied (migDst env) (fun _ => true) s).Perm
      (copied (migDst env) (· = .gi) s ++ (copied (migDst env) (· = .ci) s
        ++ copied (migDst env) (fun c => (true && !(c = .gi : Bool)) && !(c = .ci : Bool)) s)) :=
    hgi.symm.trans (hci.symm.append_left _)
  by_cases hop : e.op = .cgroup
  · rw [if_pos hop]
    have hown := copied_perm (migDst env)
      (fun c => (true && !(c = .gi : Bool)) && !(c = .ci : Bool)) (· = e.call) s
    have hleft : (fun c : Call => ((true && !(c = .gi : Bool)) && !(c = .ci : Bool))
        && (c = e.call : Bool)) = fun c => (c = e.call : Bool) := by
      funext c
      rcases hcgroup hop with h | h <;> rw [h] <;> cases c <;> rfl
    have hright : (fun c : Call => ((true && !(c = .gi : Bool)) && !(c = .ci : Bool))
        && !(c = e.call : Bool)) = accessLost e := by
      funext c
      simp [accessLost, hop]
    rw [hleft, hright] at hown
    refine hknown.trans ?_
    rw [← List.append_assoc]
    refine (hown.symm.append_left _).trans ?_
    rw [← List.append_assoc]
    exact List.perm_append_comm.append_right _
  · have hlost : (fun c : Call => (true && !(c = .gi : Bool)) && !(c = .ci : Bool))
        = accessLost e := by
      funext c
      simp [accessLost, hop]
    rw [if_neg hop, List.nil_append, List.append_assoc, ← hlost]
    exact hknown

/-- What is unmounted has to cover what is lost. -/
theorem access_cleared_iff {p : List (Step × Bool)} (h : env.Apart (migDst env) p [] place)
    (hreg : Regular (migDst env) p) (hlabelled : Labelled (migDst env) (migLabel env)
      (fun _ => false) p) (he : firstFailure p = some e) (hop : e.op ≠ .nsLeave)
    (hcgroup : e.op = .cgroup → e.call = .giCap ∨ e.call = .ciCap) :
    (∀ x ∈ ((t.binds (env.bound (succeeded p))).umounts env.reaches
      (accessUndone env (succeeded p) e)).entries, x.id < t.next)
      ↔ ((copied (migDst env) (accessLost e) (succeeded p)).map place
        ++ if e.unrecorded then [place (migDst env e)] else []).Subperm
          (((migLabel env e).filter (· ≠ [])).map place) := by
  have hundone : accessUndone env (succeeded p) e = migLabel env e
      ++ ((if e.op = .cgroup then copied (migDst env) (· = e.call) (succeeded p) else [])
        ++ (copied (migDst env) (· = .gi) (succeeded p)
          ++ copied (migDst env) (· = .ci) (succeeded p))) := by
    rw [accessUndone_eq hop, capUndone, List.append_assoc]
    by_cases hcg : e.op = .cgroup
    · have hlabel : migLabel env e = [] := by
        rcases hcgroup hcg with hcall | hcall <;>
          simp [migLabel, hcall, deviceLabel, hcg, Op.ofBind]
      rw [hlabel, List.nil_append, List.nil_append]
    · rw [if_neg hcg, List.nil_append, List.nil_append]
  rw [hundone]
  refine h.cleared_iff_of_perm hreg he (fun d hd => ?_) (copied_perm_accessLost hcgroup _)
  exact List.mem_append_left _ (hlabelled.dests _ (mem_of_firstFailure he) d hd)

/-- Steps that are left around a body unmount nothing. -/
theorem migLabel_of_top {e : Step} (h : e.call = .top) : migLabel env e = [] := by
  rw [migLabel, h]

/-- Where a destination is bound. -/
theorem place_eq_target {p : List (Step × Bool)} {more : List Str} {call : Call}
    (h : env.Apart (migDst env) p more place) (hbind : ⟨call, .bind, 0⟩ ∈ p.map (·.1))
    (hne : env.dst call ≠ []) : place (env.dst call) = env.target ⟨call, .bind, 0⟩ := by
  obtain ⟨x, hx, hstep⟩ := List.mem_map.mp hbind
  have htarget := h.target x hx (by rw [hstep]) (by rw [hstep]; exact hne)
  rw [hstep] at htarget
  exact htarget.symm

/-- One destination is covered by what is unmounted if that leads there. -/
theorem singleton_subperm_iff {p : List (Step × Bool)} {more us : List Str} {k : Loc}
    (h : env.Apart (migDst env) p more place)
    (hus : ∀ d ∈ us, d ∈ aimed (migDst env) (p.map (·.1)) ++ more) :
    [k].Subperm ((us.filter (· ≠ [])).map place)
      ↔ ∃ d ∈ us, env.reaches t.entries d = some k := by
  have hreaches := h.reaches_eq (fun d hd _ => hus d hd) t.entries
  rw [List.singleton_subperm_iff]
  constructor
  · intro hmem
    obtain ⟨d, hd, rfl⟩ := List.mem_map.mp hmem
    exact ⟨d, (List.mem_filter.mp hd).1, hreaches d hd⟩
  · rintro ⟨d, hd, hk⟩
    have hne : d ≠ [] := by
      rintro rfl
      simp [Faults.reaches] at hk
    have hmem : d ∈ us.filter (· ≠ []) := by simp [hd, hne]
    exact List.mem_map.mpr ⟨d, hmem, Option.some.inj ((hreaches d hmem).symm.trans hk)⟩

/-- The device of the GPU instance has a name once it is bound, and is bound in the plan. -/
theorem forgotten_spec (ctx : Context) (giCapsPath ciCapsPath : Str) {d : Str}
    (hd : forgotten env cnt = some d) :
    d = env.dst .giCap ∧ ⟨.giCap, .bind, 0⟩
      ∈ ((MigOp.access giCapsPath ciCapsPath).plan env ctx cnt).map (·.1) := by
  rw [forgotten, deviceMnt] at hd
  split_ifs at hd with hcaps hbind
  refine ⟨(Option.some.inj hd).symm, ?_⟩
  rw [accessPlan_eq, capPart, if_pos hcaps, capPlan, if_pos hbind]
  simp [devicePlan, Faults.plan]

/-- The plan of the access mounts is aimed at destinations that are mounted, bind by bind. -/
theorem regular_accessTopPlan :
    Regular (migDst env) ((MigOp.access giCapsPath ciCapsPath).plan env ctx cnt) :=
  (orderly_accessPlan _ _).toRegular.inContainer

/-- Its labels unmount what is bound and not recorded. -/
theorem labelled_accessTopPlan : Labelled (migDst env) (migLabel env) (fun _ => false)
    ((MigOp.access giCapsPath ciCapsPath).plan env ctx cnt) :=
  (orderly_accessPlan _ _).toLabelled.inContainer fun _ => migLabel_of_top

section Failing

variable
  (h : env.Apart (migDst env) ((MigOp.access giCapsPath ciCapsPath).plan env ctx cnt) [] place)
  (he : firstFailure ((MigOp.access giCapsPath ciCapsPath).plan env ctx cnt) = some e)

include h he

/-- A step that loses no mount leaves nothing: its label unmounts the bind at hand. -/
theorem access_cleared_of_kept (hlost : copied (migDst env) (accessLost e)
      (succeeded ((MigOp.access giCapsPath ciCapsPath).plan env ctx cnt)) = [])
    (hleave : e.op ≠ .nsLeave) (hcgroup : e.op = .cgroup → e.call = .giCap ∨ e.call = .ciCap) :
    ∀ x ∈ ((t.binds (env.bound (succeeded
        ((MigOp.access giCapsPath ciCapsPath).plan env ctx cnt)))).umounts env.reaches
      (accessUndone env
        (succeeded ((MigOp.access giCapsPath ciCapsPath).plan env ctx cnt)) e)).entries,
      x.id < t.next := by
  rw [access_cleared_iff h regular_accessTopPlan labelled_accessTopPlan he hleave hcgroup, hlost]
  exact labelled_accessTopPlan.atHand_subperm regular_accessTopPlan he (by simp) place

/-- A step of the compute instance loses the device of the GPU instance: that is gone where what is
unmounted happens to lead there. -/
theorem access_cleared_iff_of_forgotten {d : Str} (hforgotten : forgotten env cnt = some d)
    (hlost : copied (migDst env) (accessLost e)
      (succeeded ((MigOp.access giCapsPath ciCapsPath).plan env ctx cnt)) = [d])
    (hleave : e.op ≠ .nsLeave) (hcgroup : e.op = .cgroup → e.call = .giCap ∨ e.call = .ciCap) :
    (∀ x ∈ ((t.binds (env.bound (succeeded
        ((MigOp.access giCapsPath ciCapsPath).plan env ctx cnt)))).umounts env.reaches
      (accessUndone env
        (succeeded ((MigOp.access giCapsPath ciCapsPath).plan env ctx cnt)) e)).entries,
      x.id < t.next) ↔ e.unrecorded = false ∧ ∃ d ∈ migLabel env e,
        env.reaches t.entries d = some (env.target ⟨.giCap, .bind, 0⟩) := by
  obtain ⟨rfl, hbind⟩ := forgotten_spec ctx giCapsPath ciCapsPath hforgotten
  have hne : env.dst .giCap ≠ [] := by
    refine regular_accessTopPlan.copied_ne he (accessLost e) _ ?_
    rw [hlost]
    exact List.mem_singleton_self _
  rw [access_cleared_iff h regular_accessTopPlan labelled_accessTopPlan he hleave hcgroup, hlost]
  rcases hrec : e.unrecorded
  · have hcovered := singleton_subperm_iff (t := t) (k := place (env.dst .giCap)) h fun d hd =>
      List.mem_append_left _ (labelled_accessTopPlan.dests _ (mem_of_firstFailure he) d hd)
    rw [place_eq_target h hbind hne] at hcovered
    simpa [place_eq_target h hbind hne] using hcovered
  · -- one unmounting does not take off two mounts
    have hown := labelled_accessTopPlan.filter_label_eq regular_accessTopPlan he (by simp) hrec
    refine iff_of_false (fun hle => ?_) fun hclean => by cases hclean.1
    have hlen := hle.length_le
    rw [hown] at hlen
    simp at hlen

end Failing

/-- **What a failing step of the access mounts leaves where the destinations lie apart.** -/
theorem access_cleared_iff_clean
    (h : env.Apart (migDst env) ((MigOp.access giCapsPath ciCapsPath).plan env ctx cnt) [] place)
    (he : firstFailure ((MigOp.access giCapsPath ciCapsPath).plan env ctx cnt) = some e) :
    (∀ x ∈ ((t.binds (env.bound (succeeded
        ((MigOp.access giCapsPath ciCapsPath).plan env ctx cnt)))).umounts env.reaches
      (accessUndone env
        (succeeded ((MigOp.access giCapsPath ciCapsPath).plan env ctx cnt)) e)).entries,
      x.id < t.next) ↔ AccessClean env cnt t e := by
  rcases accessPlan_cases he with ⟨hlost, hcall, hleave, hcgroup⟩ | ⟨hlost, hcall, hleave, hcgroup⟩
    | rfl
  · exact iff_of_true (access_cleared_of_kept h he hlost hleave fun hop => .inl (hcgroup hop))
      ⟨hleave, fun h => absurd h hcall⟩
  · rcases hforgotten : forgotten env cnt with _ | d
    · rw [hforgotten] at hlost
      exact iff_of_true (access_cleared_of_kept h he hlost hleave fun hop => .inr (hcgroup hop))
        ⟨hleave, fun _ => .inl hforgotten⟩
    · rw [hforgotten] at hlost
      rw [access_cleared_iff_of_forgotten h he hforgotten hlost hleave
        fun hop => .inr (hcgroup hop)]
      exact ⟨fun hhit => ⟨hleave, fun _ => .inr hhit⟩,
        fun hclean => (hclean.compute hcall).resolve_left (by simp [hforgotten])⟩
  · -- the mount of the GPU instance's file is there at least
    have hmem : env.dst .gi ∈ aimed (migDst env)
        (succeeded ((MigOp.access giCapsPath ciCapsPath).plan env ctx cnt)) := by
      rw [MigOp.plan, succeeded_of_nsLeave (orderly_accessPlan _ _).inside he rfl]
      refine List.mem_map.mpr ⟨⟨.gi, .bind, 0⟩, ?_, rfl⟩
      simp [accessPlan, undoingPlan, Faults.plan]
    exact iff_of_false (h.not_cleared regular_accessTopPlan hmem) fun hclean => hclean.leave rfl

/-! ## Where the global mounts fail -/

/-- The plan of the global operations. -/
def globalTopPlan (env : Faults) (ctx : Context) (cnt : Container) (file : Str) :
    List (Step × Bool) := inContainerPlan env ctx (globalPlan env ctx cnt file)

/-- The steps of the capabilities' files. -/
def capsPlan (env : Faults) (ctx : Context) : List (Step × Bool) :=
  [(⟨.top, .validate, 0⟩, !ctx.initialized), (⟨.top, .nsEnter, 0⟩, env.fails ⟨.top, .nsEnter, 0⟩)]
    ++ undoingPlan env .caps ctx.root Host.NV_PROC_DRIVER_CAPS

theorem globalTopPlan_eq : globalTopPlan env ctx cnt file = capsPlan env ctx
    ++ ((if env.hasNvcaps then directoryPlan env ctx.root ++ cgroupOfPlan env cnt file else [])
      ++ [(⟨.top, .nsLeave, 0⟩, env.fails ⟨.top, .nsLeave, 0⟩)]) := by
  simp only [globalTopPlan, inContainerPlan, globalPlan, capsPlan, List.append_assoc,
    List.cons_append, List.nil_append]
  rfl

theorem capsPlan_step {x : Step × Bool} (hx : x ∈ capsPlan env ctx) :
    x.1.call ≠ .capsDir ∧ x.1.op ≠ .nsLeave ∧ (x.1.op = .strdup → x.1.call = .caps) := by
  rcases List.mem_append.mp hx with hx | hx
  · simp only [List.mem_cons, List.not_mem_nil, or_false] at hx
    rcases hx with rfl | rfl <;> simp
  · obtain ⟨hcall, hop⟩ := undoingPlan_call hx
    exact ⟨by simp [hcall], ne_of_ofMount hop rfl, fun _ => hcall⟩

theorem copied_directoryPlan : copied (migDst env) (fun c => true && !(c = .caps : Bool))
    ((directoryPlan env ctx.root).map (·.1)) = [env.dst .capsDir] := by
  rw [copied_of_call (fun x hx => (directoryPlan_step hx).1) (List.Subset.refl _)]
  rfl

theorem copied_directoryPlan_of_failed {calls : Call → Bool} {root : Str}
    (he : firstFailure (directoryPlan env root) = some e) :
    copied (migDst env) calls (succeeded (directoryPlan env root)) = [] :=
  copied_succeeded_eq_nil (p := (directoryPlan env root).dropLast)
    (by simp [directoryPlan, Faults.plan]) he

/-- **Where the global mounts fail**, and what is recorded then that is not unmounted. -/
theorem globalPlan_cases (he : firstFailure (globalTopPlan env ctx cnt file) = some e) :
    (copied (migDst env) (fun c => true && !(c = .caps : Bool))
          (succeeded (globalTopPlan env ctx cnt file)) = []
        ∧ e.call ≠ .capsDir ∧ e.op ≠ .nsLeave)
      ∨ (copied (migDst env) (fun c => true && !(c = .caps : Bool))
          (succeeded (globalTopPlan env ctx cnt file)) = []
        ∧ env.hasNvcaps = true ∧ (e, true) ∈ directoryPlan env ctx.root)
      ∨ (copied (migDst env) (fun c => true && !(c = .caps : Bool))
          (succeeded (globalTopPlan env ctx cnt file)) = [env.dst .capsDir]
        ∧ e.call = .capsDir ∧ (e.op = .appendSrc ∨ e.op = .capLookup ∨ e.op = .cgroup))
      ∨ e = ⟨.top, .nsLeave, 0⟩ := by
  have hfront {s : List Step} (hs : s ⊆ (capsPlan env ctx).map (·.1)) :
      copied (migDst env) (fun c => true && !(c = .caps : Bool)) s = [] := by
    refine copied_eq_nil fun e' he' hop => ?_
    obtain ⟨x, hx, rfl⟩ := List.mem_map.mp (hs he')
    simp [(capsPlan_step hx).2.2 hop]
  rw [globalTopPlan_eq] at he ⊢
  rcases firstFailure_append_cases he with ⟨he, hs⟩ | ⟨-, he, hs⟩
  · obtain ⟨hcall, hleave, -⟩ := capsPlan_step (mem_of_firstFailure he)
    rw [hs, hfront (succeeded_sublist _).subset]
    exact .inl ⟨rfl, hcall, hleave⟩
  rw [hs, copied_append, hfront (List.Subset.refl _), List.nil_append]
  rcases firstFailure_append_cases he with ⟨he, hs⟩ | ⟨-, he, -⟩
  · rw [hs]
    split_ifs at he ⊢ with hcaps
    · rcases firstFailure_append_cases he with ⟨he, hs⟩ | ⟨-, he, hs⟩
      · rw [hs, copied_directoryPlan_of_failed he]
        exact .inr (.inl ⟨rfl, hcaps, mem_of_firstFailure he⟩)
      · obtain ⟨hcall, hop⟩ := cgroupOfPlan_step (mem_of_firstFailure he)
        have hnone : copied (migDst env) (fun c => true && !(c = .caps : Bool))
            (succeeded (cgroupOfPlan env cnt file)) = [] := by
          refine copied_eq_nil fun e' he' h => ?_
          obtain ⟨x, hx, rfl⟩ := List.mem_map.mp ((succeeded_sublist _).subset he')
          rcases (cgroupOfPlan_step hx).2 with h' | h' | h' <;> cases h'.symm.trans h
        rw [hs, copied_append, copied_directoryPlan, hnone]
        exact .inr (.inr (.inl ⟨rfl, hcall, hop⟩))
    · cases he
  · exact .inr (.inr (.inr (Prod.mk.inj (List.mem_singleton.mp (mem_of_firstFailure he))).1))

theorem regular_globalTopPlan : Regular (migDst env) (globalTopPlan env ctx cnt file) :=
  (orderly_globalPlan _).toRegular.inContainer

theorem labelled_globalTopPlan : Labelled (migDst env) (migLabel env) (· = .capsDir)
    (globalTopPlan env ctx cnt file) :=
  (orderly_globalPlan _).toLabelled.inContainer fun _ => migLabel_of_top

section Global

variable (h : env.Apart (migDst env) (globalTopPlan env ctx cnt file) uninit.toList place)
  (he : firstFailure (globalTopPlan env ctx cnt file) = some e)

include he

/-- What the failed step unmounts of its own is a destination of the plan, or the pointer's. -/
theorem globalOwn_subset : ∀ d ∈ globalOwn env uninit e,
    d ∈ aimed (migDst env) ((globalTopPlan env ctx cnt file).map (·.1)) ++ uninit.toList := by
  intro d hd
  rcases List.mem_append.mp hd with hd | hd
  · split_ifs at hd
    · exact List.mem_append_right _ hd
    · cases hd
  · exact List.mem_append_left _ (labelled_globalTopPlan.dests _ (mem_of_firstFailure he) d hd)

include h

/-- **What has to be unmounted**: the mounts that are recorded and not undone, and the one at
hand. -/
theorem global_cleared_iff (hop : e.op ≠ .nsLeave) :
    (∀ x ∈ ((t.binds (env.bound (succeeded (globalTopPlan env ctx cnt file)))).umounts env.reaches
      (globalUndone env uninit (succeeded (globalTopPlan env ctx cnt file)) e)).entries,
      x.id < t.next)
      ↔ ((copied (migDst env) (fun c => true && !(c = .caps : Bool))
            (succeeded (globalTopPlan env ctx cnt file))).map place
          ++ if e.unrecorded then [place (migDst env e)] else []).Subperm
        (((globalOwn env uninit e).filter (· ≠ [])).map place) := by
  have hperm := (copied_perm (migDst env) (fun _ => true) (· = .caps)
    (succeeded (globalTopPlan env ctx cnt file))).symm
  rw [globalUndone_eq hop]
  exact h.cleared_iff_of_perm regular_globalTopPlan he (globalOwn_subset he) hperm

/-- A step elsewhere leaves nothing: its label unmounts the bind at hand. -/
theorem global_cleared_iff_of_elsewhere
    (hlost : copied (migDst env) (fun c => true && !(c = .caps : Bool))
      (succeeded (globalTopPlan env ctx cnt file)) = [])
    (hcall : e.call ≠ .capsDir) (hleave : e.op ≠ .nsLeave) :
    (∀ x ∈ ((t.binds (env.bound (succeeded (globalTopPlan env ctx cnt file)))).umounts env.reaches
      (globalUndone env uninit (succeeded (globalTopPlan env ctx cnt file)) e)).entries,
      x.id < t.next) ↔ GlobalClean env uninit t e := by
  rw [global_cleared_iff h he hleave, hlost]
  refine iff_of_true ?_ ⟨hleave, fun h => absurd h hcall⟩
  have hown : globalOwn env uninit e = migLabel env e := by
    simp [globalOwn, Step.strays, hcall]
  rw [hown]
  exact labelled_globalTopPlan.atHand_subperm regular_globalTopPlan he (by simpa using hcall) place

/-- The remount of the directory unmounts what the pointer leads to. -/
theorem global_cleared_iff_of_remount (hcaps : env.hasNvcaps = true)
    (hlost : copied (migDst env) (fun c => true && !(c = .caps : Bool))
      (succeeded (globalTopPlan env ctx cnt file)) = []) (hstep : e = ⟨.capsDir, .remount, 0⟩) :
    (∀ x ∈ ((t.binds (env.bound (succeeded (globalTopPlan env ctx cnt file)))).umounts env.reaches
      (globalUndone env uninit (succeeded (globalTopPlan env ctx cnt file)) e)).entries,
      x.id < t.next) ↔ GlobalClean env uninit t e := by
  subst hstep
  have hbind : ⟨.capsDir, .bind, 0⟩ ∈ (globalTopPlan env ctx cnt file).map (·.1) := by
    rw [globalTopPlan_eq, if_pos hcaps]
    simp [directoryPlan, Faults.plan]
  have hne : env.dst .capsDir ≠ [] := regular_globalTopPlan.dst_ne_of_unrecorded he rfl
  have hown : globalOwn env uninit ⟨.capsDir, .remount, 0⟩ = uninit.toList := List.append_nil _
  have hcovered := singleton_subperm_iff (t := t) (k := place (env.dst .capsDir)) h
    (globalOwn_subset he)
  rw [hown, place_eq_target h hbind hne] at hcovered
  rw [global_cleared_iff h he (by simp), hlost, hown]
  refine Iff.trans (b := [place (env.dst .capsDir)].Subperm _) Iff.rfl ?_
  rw [place_eq_target h hbind hne, hcovered]
  refine ⟨fun hhit => ⟨by simp, fun _ => ?_⟩, fun hclean => ?_⟩
  · simpa using hhit
  · simpa using hclean.directory rfl

/-- A step of the directory leaves nothing before the bind, and the mount behind it. -/
theorem global_cleared_iff_of_directory (hcaps : env.hasNvcaps = true)
    (hlost : copied (migDst env) (fun c => true && !(c = .caps : Bool))
      (succeeded (globalTopPlan env ctx cnt file)) = [])
    (hmem : (e, true) ∈ directoryPlan env ctx.root) :
    (∀ x ∈ ((t.binds (env.bound (succeeded (globalTopPlan env ctx cnt file)))).umounts env.reaches
      (globalUndone env uninit (succeeded (globalTopPlan env ctx cnt file)) e)).entries,
      x.id < t.next) ↔ GlobalClean env uninit t e := by
  have hleave : e.op ≠ .nsLeave := ne_of_ofMount (directoryPlan_step hmem).2 rfl
  have hbefore (hrec : e.unrecorded = false) (hop : e.op = .pathSrc ∨ e.op = .resolve
      ∨ e.op = .mode ∨ e.op = .create ∨ e.op = .bind) := by
    refine (global_cleared_iff (t := t) h he hleave).trans (iff_of_true ?_
      (⟨hleave, fun _ => ?_⟩ : GlobalClean env uninit t e))
    · rw [hlost, hrec]
      exact List.nil_subperm
    · rcases hop with hop | hop | hop | hop | hop <;> simp [hop]
  simp only [directoryPlan, Faults.plan, List.map_cons, List.map_nil, List.mem_append,
    List.mem_cons, Prod.mk.injEq, List.not_mem_nil, or_false] at hmem
  rcases hmem with (⟨rfl, -⟩ | ⟨rfl, -⟩) | ⟨rfl, -⟩ | ⟨rfl, -⟩ | ⟨rfl, -⟩ | ⟨rfl, -⟩ | ⟨rfl, -⟩
  · exact hbefore rfl (by simp)
  · exact hbefore rfl (by simp)
  · exact hbefore rfl (by simp)
  · exact hbefore rfl (by simp)
  · exact hbefore rfl (by simp)
  · exact global_cleared_iff_of_remount h he hcaps hlost rfl
  · rw [global_cleared_iff h he hleave, hlost]
    refine iff_of_false (fun hle => ?_) fun hclean => ?_
    · have hlen := hle.length_le
      simp [globalOwn, Step.strays, migLabel, Step.unrecorded] at hlen
    · simpa using hclean.directory rfl

/-- A step behind the mount of the directory leaves it. -/
theorem global_cleared_iff_of_cgroup
    (hlost : copied (migDst env) (fun c => true && !(c = .caps : Bool))
      (succeeded (globalTopPlan env ctx cnt file)) = [env.dst .capsDir])
    (hcall : e.call = .capsDir) (hop : e.op = .appendSrc ∨ e.op = .capLookup ∨ e.op = .cgroup) :
    (∀ x ∈ ((t.binds (env.bound (succeeded (globalTopPlan env ctx cnt file)))).umounts env.reaches
      (globalUndone env uninit (succeeded (globalTopPlan env ctx cnt file)) e)).entries,
      x.id < t.next) ↔ GlobalClean env uninit t e := by
  have hleave : e.op ≠ .nsLeave := by
    rcases hop with h | h | h <;> rw [h] <;> simp
  rw [global_cleared_iff h he hleave, hlost]
  refine iff_of_false (fun hle => ?_) fun hclean => ?_
  · have hown : globalOwn env uninit e = [] := by
      rcases hop with h | h | h <;> simp [globalOwn, Step.strays, migLabel, hcall, h]
    have hlen := hle.length_le
    simp [hown] at hlen
  · rcases hop with h | h | h <;> simpa [h] using hclean.directory hcall

/-- **What a failing step of the global mounts leaves where the destinations lie apart.** -/
theorem global_cleared_iff_clean :
    (∀ x ∈ ((t.binds (env.bound (succeeded (globalTopPlan env ctx cnt file)))).umounts env.reaches
      (globalUndone env uninit (succeeded (globalTopPlan env ctx cnt file)) e)).entries,
      x.id < t.next) ↔ GlobalClean env uninit t e := by
  rcases globalPlan_cases he with ⟨hlost, hcall, hleave⟩ | ⟨hlost, hcaps, hmem⟩
    | ⟨hlost, hcall, hop⟩ | rfl
  · exact global_cleared_iff_of_elsewhere h he hlost hcall hleave
  · exact global_cleared_iff_of_directory h he hcaps hlost hmem
  · exact global_cleared_iff_of_cgroup h he hlost hcall hop
  · -- the mount of the capabilities' files is there at least
    have hmem : env.dst .caps ∈ aimed (migDst env)
        (succeeded (globalTopPlan env ctx cnt file)) := by
      rw [globalTopPlan, succeeded_of_nsLeave (orderly_globalPlan _).inside he rfl]
      refine List.mem_map.mpr ⟨⟨.caps, .bind, 0⟩, ?_, rfl⟩
      simp [globalPlan, undoingPlan, Faults.plan]
    exact iff_of_false (h.not_cleared regular_globalTopPlan hmem) fun hclean => hclean.leave rfl

end Global

end Operations

/-! ## The operations -/

/-- Where the destinations of the global mounts are in the container. -/
def globalDst : Call → Str
  | .caps => Host.NV_PROC_DRIVER_CAPS
  | _ => Host.NV_CAPS_DEVICE_DIR

end Mount
