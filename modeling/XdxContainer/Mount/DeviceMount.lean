import XdxContainer.Mount.DriverMount

/-!
# Mount/DeviceMount — what a failed `nvc_device_mount` leaves in the mount table

    mounted, in order:   device ▸ ld.so.conf.d ▸ xdxsmi ▸ DRI libraries
    known to the label:  ✓        ✓              ✗        ✗

The label of `device_mount_native` unmounts the first two.  Where the destinations lie apart, a
mount of the call is left exactly when a step fails behind one of the others, when a DRI library's
mount is bound and not recorded, or when the way back into the process's namespace fails.  Where
`xdxsmi` is below `ld.so.conf.d`, say, unmounting the one takes the other with it
(`nvcDeviceMount_leaves_nothing_iff`).
-/

open Paths Fs Fallible

namespace Mount

section Plan

variable (env : Faults) (ctx : Context) (cnt : Container) (dev : DeviceNode)

/-- What `library_search_in_dir` finds. -/
def driLibs : List Str :=
  (env.names.filter Host.matchDri).map fun name => cnt.drisDir ++ '/' :: name

/-- The container takes the DRI libraries. -/
def takesDri : Bool := cnt.has OPT_VIDEO_LIBS || cnt.has OPT_GRAPHICS_LIBS

/-- The steps behind the mount of `ld.so.conf.d`. -/
def nativeRestPlan : List (Step × Bool) :=
  (if cnt.has OPT_GRAPHICS_LIBS then [(⟨.top, .profile, 0⟩, env.fails ⟨.top, .profile, 0⟩)] else [])
    ++ ((if cnt.has OPT_UTILITY_LIBS then undoingPlan env .smi ctx.root Host.SMI_FRONT_DIR else [])
    ++ ((if takesDri cnt then filesPlan env cnt .dri ctx.root (driLibs env cnt) else [])
    ++ cgroupPlan env cnt .node))

/-- The calls of `device_mount_native`, and which of them fail. -/
def nativePlan : List (Step × Bool) :=
  [(⟨.dri, .search, 0⟩, env.fails ⟨.dri, .search, 0⟩)]
    ++ ((if !cnt.has OPT_NO_DEVBIND then devicePlan env .node ctx.root dev else [])
    ++ (undoingPlan env .ldConfig ctx.root Host.LD_CONFIG_DIR ++ nativeRestPlan env ctx cnt))

/-- **The steps of `nvc_device_mount`**, in order, each with whether it fails. -/
def devicePlanTop : List (Step × Bool) := inContainerPlan env ctx (nativePlan env ctx cnt dev)

/-- The destination for the front end of `xdxsmi`, if it is mounted. -/
def smiMnt : List Str := (if cnt.has OPT_UTILITY_LIBS then some (env.dst .smi) else none).toList

/-- The destinations of the DRI libraries, if they are mounted. -/
def driMnt : List Str := if takesDri cnt then filesMnt env cnt .dri (driLibs env cnt) else []

/-- The paths of the call of `mount_files` in `device_mount_native`. -/
def nativeFiles : Call → Option (List Str)
  | .dri => some (driLibs env cnt)
  | _ => none

/-- The destination of a step of `nvc_device_mount`. -/
def deviceDst : Step → Str := env.dstOf (nativeFiles env cnt)

/-- What the labels of the mount functions unmount in `nvc_device_mount`. -/
def nativeLabel (e : Step) : List Str :=
  match e.call with
  | .node => deviceLabel env e
  | .ldConfig | .smi => undoingLabel env e
  | _ => []

/-- What is unmounted before the label of `device_mount_native`. -/
def nativeOwn (s : List Step) (e : Step) : List Str :=
  (if e.call = .dri then copied (deviceDst env cnt) (· = .dri) s else []) ++ nativeLabel env e

/-- **What a failed `nvc_device_mount` unmounts**, in order, when these steps are done and the next
one fails. -/
def nativeUndone (s : List Step) (e : Step) : List Str :=
  if e.op = .nsLeave then []
  else nativeOwn env cnt s e ++ (copied (deviceDst env cnt) (· = .ldConfig) s
    ++ copied (deviceDst env cnt) (· = .node) s)

end Plan

section Body

variable {env : Faults} {ctx : Context} {cnt : Container} {dev : DeviceNode} {t₀ : Table Name}
  {s : List Step}

/-! ## The plan -/

theorem orderly_nativeRestPlan : Orderly (deviceDst env cnt) (nativeLabel env) (· = .dri)
    (nativeRestPlan env ctx cnt) := by
  have hprofile : Orderly (deviceDst env cnt) (nativeLabel env) (· = .dri)
      [((⟨.top, .profile, 0⟩ : Step), env.fails ⟨.top, .profile, 0⟩)] :=
    .of_plain (by simp [Plain, Op.ofBind]) (by simp [nativeLabel]) (by simp)
  have hsmi : Orderly (deviceDst env cnt) (nativeLabel env) (· = .dri)
      (undoingPlan env .smi ctx.root Host.SMI_FRONT_DIR) :=
    orderly_undoingPlan rfl fun e he => by rw [nativeLabel, he]
  have hdri : Orderly (deviceDst env cnt) (nativeLabel env) (· = .dri)
      (filesPlan env cnt .dri ctx.root (driLibs env cnt)) :=
    orderly_filesPlan rfl rfl fun e he => by rw [nativeLabel, he]
  exact (Orderly.ite hprofile .nil).append ((Orderly.ite hsmi .nil).append
    ((Orderly.ite hdri .nil).append (orderly_cgroupPlan rfl)))

/-- The plan is in order. -/
theorem orderly_nativePlan : Orderly (deviceDst env cnt) (nativeLabel env) (· = .dri)
    (nativePlan env ctx cnt dev) := by
  have hsearch : Orderly (deviceDst env cnt) (nativeLabel env) (· = .dri)
      [((⟨.dri, .search, 0⟩ : Step), env.fails ⟨.dri, .search, 0⟩)] :=
    .of_plain (by simp [Plain, Op.ofBind]) (by simp [nativeLabel]) (by simp)
  have hnode : Orderly (deviceDst env cnt) (nativeLabel env) (· = .dri)
      (devicePlan env .node ctx.root dev) :=
    orderly_devicePlan rfl (fun e he => by rw [nativeLabel, he]) dev
  have hconfig : Orderly (deviceDst env cnt) (nativeLabel env) (· = .dri)
      (undoingPlan env .ldConfig ctx.root Host.LD_CONFIG_DIR) :=
    orderly_undoingPlan rfl fun e he => by rw [nativeLabel, he]
  exact hsearch.append ((Orderly.ite hnode .nil).append (hconfig.append orderly_nativeRestPlan))

/-! ## The part behind the two mounts that are known -/

theorem traced_profile (id : Dev) : Traced env (nativeOwn env cnt) t₀ s
    (onlyIf (cnt.has OPT_GRAPHICS_LIBS) (attempt ⟨.top, .profile, 0⟩
      (env.host.updateAppProfile ⟨.top, .profile, 0⟩ id)))
    (if cnt.has OPT_GRAPHICS_LIBS then [(⟨.top, .profile, 0⟩, env.fails ⟨.top, .profile, 0⟩)]
      else []) () :=
  Traced.onlyIf _ fun _ => Traced.attempt (by simp) (fun _ => rfl) rfl

theorem nativeOwn_of_ne {e : Step} (h : e.call ≠ .dri) :
    nativeOwn env cnt s e = nativeLabel env e := by
  rw [nativeOwn, if_neg h, List.nil_append]

/-- The mount of the front end. -/
theorem traced_smi : Traced env (nativeOwn env cnt) t₀ s
    (optionally (cnt.has OPT_UTILITY_LIBS)
      (mountConfigFile env.host.toSys cnt .smi ctx.root Host.SMI_FRONT_DIR))
    (if cnt.has OPT_UTILITY_LIBS then undoingPlan env .smi ctx.root Host.SMI_FRONT_DIR else [])
    (if cnt.has OPT_UTILITY_LIBS then some (env.dst .smi) else none) := by
  refine Traced.optionally _ fun _ => (traced_mountUndoing _ _ _).congr fun e he => ?_
  have hcall : e.call = .smi := (undoingPlan_call (mem_of_firstFailure he)).1
  rw [nativeOwn_of_ne (by simp [hcall]), nativeLabel, hcall]

/-- The mounts of the DRI libraries. -/
theorem traced_dri (hnew : Unlisted .dri s) : Traced env (nativeOwn env cnt) t₀ s
    (optionally (takesDri cnt)
      (mountFiles env.host.toSys cnt .dri ctx.root cnt.drisDir (driLibs env cnt)))
    (if takesDri cnt then filesPlan env cnt .dri ctx.root (driLibs env cnt) else [])
    (if takesDri cnt then some (filesMnt env cnt .dri (driLibs env cnt)) else none) := by
  refine Traced.optionally _ fun _ => ?_
  refine (traced_mountFiles _ _ (show nativeFiles env cnt .dri = _ from rfl) hnew).congr
    fun e he => ?_
  have hcall : e.call = .dri := (filesPlan_call (mem_of_firstFailure he)).1
  have hlabel : nativeLabel env e = [] := by rw [nativeLabel, hcall]
  rw [nativeOwn, if_pos hcall, hlabel, List.append_nil]
  rfl

theorem unlisted_onlyIf {call call' : Call} {c : Bool} {p : List (Step × Bool)}
    (h : ∀ x ∈ p, x.1.call = call') (hne : call' ≠ call) :
    Unlisted call ((if c then p else []).map (·.1)) := by
  split_ifs
  · exact .of_call h hne
  · simp [Unlisted]

/-- **The part behind the two mounts that are known.** -/
theorem traced_deviceMountRest (dev : DeviceNode) (hnew : Unlisted .dri s) :
    Traced env (nativeOwn env cnt) t₀ s
      (env.host.deviceMountRest ctx cnt dev (driLibs env cnt)) (nativeRestPlan env ctx cnt) () := by
  have hprofile : Unlisted .dri ((if cnt.has OPT_GRAPHICS_LIBS then
      [((⟨.top, .profile, 0⟩ : Step), env.fails ⟨.top, .profile, 0⟩)] else []).map (·.1)) :=
    @unlisted_onlyIf .dri .top _ _ (by simp) (by simp)
  have hsmi : Unlisted .dri ((if cnt.has OPT_UTILITY_LIBS then
      undoingPlan env .smi ctx.root Host.SMI_FRONT_DIR else []).map (·.1)) :=
    unlisted_onlyIf (fun _ hx => (undoingPlan_call hx).1) (by simp)
  exact (traced_profile dev.id).bind (traced_smi.bind
    ((traced_dri ((hnew.append hprofile).append hsmi)).bind (traced_cgroup _ _ rfl)))

/-! ## The body -/

/-- The search for the DRI libraries. -/
theorem traced_search {U : List Step → Step → List Str} (hU : U s ⟨.dri, .search, 0⟩ = []) :
    Traced env U t₀ s (env.host.librarySearchInDir cnt.drisDir)
      [(⟨.dri, .search, 0⟩, env.fails ⟨.dri, .search, 0⟩)] (driLibs env cnt) :=
  (Traced.query (a := env.names) (by simp) (fun _ => rfl) hU).bind_pure _

/-- What is unmounted when a step fails in front of the DRI libraries. -/
theorem nativeUndone_of_label {e : Step} (hcall : e.call ≠ .dri) (hop : e.op ≠ .nsLeave) :
    nativeUndone env cnt s e = nativeLabel env e ++ (copied (deviceDst env cnt) (· = .ldConfig) s
      ++ copied (deviceDst env cnt) (· = .node) s) := by
  rw [nativeUndone, if_neg hop, nativeOwn_of_ne hcall]

/-- The mount of the device. -/
theorem traced_node (hnode : Unlisted .node s) (hld : Unlisted .ldConfig s) :
    Traced env (nativeUndone env cnt) t₀ s
      (optionally (!cnt.has OPT_NO_DEVBIND)
        (mountDevice env.host.toSys cnt .node ctx.root dev))
      (if !cnt.has OPT_NO_DEVBIND then devicePlan env .node ctx.root dev else [])
      (deviceMnt env cnt .node) := by
  refine Traced.optionally _ fun _ => (traced_mountDevice ctx.root dev).congr fun e he => ?_
  obtain ⟨hcall, hop⟩ : e.call = .node ∧ e.op.ofMount = true :=
    devicePlan_call (mem_of_firstFailure he)
  have hlabel : nativeLabel env e = deviceLabel env e := by rw [nativeLabel, hcall]
  rw [nativeUndone_of_label (by simp [hcall]) (ne_of_ofMount hop rfl), hlabel, copied_append,
    copied_append, copied_devicePlan_of_failed he, copied_devicePlan_of_failed he,
    hld.copied_eq_nil, hnode.copied_eq_nil]
  exact List.append_nil _

/-- The mount of `/etc/ld.so.conf.d`. -/
theorem traced_ldConfig (hnode : copied (deviceDst env cnt) (· = .node) s
      = (deviceMnt env cnt .node).toList) (hld : Unlisted .ldConfig s) :
    Traced env (nativeUndone env cnt) t₀ s
      (onError (mountConfigFile env.host.toSys cnt .ldConfig ctx.root Host.LD_CONFIG_DIR)
        (env.host.unmount (deviceMnt env cnt .node)))
      (undoingPlan env .ldConfig ctx.root Host.LD_CONFIG_DIR) (env.dst .ldConfig) := by
  refine (traced_mountUndoing _ _ _).onError (unmount_opt_eq _) fun e he => ?_
  obtain ⟨hcall, hop⟩ : e.call = .ldConfig ∧ e.op.ofMount = true :=
    undoingPlan_call (mem_of_firstFailure he)
  have hlabel : nativeLabel env e = undoingLabel env e := by rw [nativeLabel, hcall]
  rw [nativeUndone_of_label (by simp [hcall]) (ne_of_ofMount hop rfl), hlabel, copied_append,
    copied_append, copied_undoingPlan_of_failed he, copied_undoingPlan_of_failed he,
    hld.copied_eq_nil, hnode, List.append_nil]
  simp

/-- Steps that record nothing of the two mounts the label knows. -/
theorem unlisted_nativeRestPlan {call : Call} (hsmi : .smi ≠ call) (hdri : .dri ≠ call)
    {s' : List Step} (hs' : s' ⊆ (nativeRestPlan env ctx cnt).map (·.1)) : Unlisted call s' := by
  intro e he hop
  obtain ⟨x, hx, rfl⟩ := List.mem_map.mp (hs' he)
  rw [nativeRestPlan] at hx
  rcases List.mem_append.mp hx with hx | hx
  · split_ifs at hx
    · rw [List.mem_singleton.mp hx] at hop
      cases hop
    · cases hx
  rcases List.mem_append.mp hx with hx | hx
  · split_ifs at hx
    · rw [(undoingPlan_call hx).1]
      exact hsmi
    · cases hx
  rcases List.mem_append.mp hx with hx | hx
  · split_ifs at hx
    · rw [(filesPlan_call hx).1]
      exact hdri
    · cases hx
  · rw [cgroupPlan_step hx] at hop
    cases hop

/-- What is done behind the first two mounts. -/
theorem traced_rest (hnode : copied (deviceDst env cnt) (· = .node) s
      = (deviceMnt env cnt .node).toList)
    (hld : copied (deviceDst env cnt) (· = .ldConfig) s = [env.dst .ldConfig])
    (hnew : Unlisted .dri s) : Traced env (nativeUndone env cnt) t₀ s
      (onError (env.host.deviceMountRest ctx cnt dev (driLibs env cnt)) fun w =>
        env.host.unmount (deviceMnt env cnt .node) (env.host.unmount (some (env.dst .ldConfig)) w))
      (nativeRestPlan env ctx cnt) () := by
  have hclean (t : Table Name) :
      env.host.unmount (deviceMnt env cnt .node) (env.host.unmount (some (env.dst .ldConfig)) t)
        = t.umounts env.reaches ([env.dst .ldConfig] ++ (deviceMnt env cnt .node).toList) := by
    rw [unmount_opt_eq, unmount_eq, Table.umounts_append]
  refine (traced_deviceMountRest dev hnew).onError hclean fun e he => ?_
  · have hsub := (succeeded_sublist (nativeRestPlan env ctx cnt)).subset
    have hop : e.op ≠ .nsLeave := orderly_nativeRestPlan.inside _ (mem_of_firstFailure he)
    rw [nativeUndone, if_neg hop, copied_append, copied_append, hld, hnode,
      (unlisted_nativeRestPlan (by simp) (by simp) hsub).copied_eq_nil,
      (unlisted_nativeRestPlan (by simp) (by simp) hsub).copied_eq_nil, List.append_nil,
      List.append_nil]

/-- **The body of `nvc_device_mount`.** -/
theorem traced_deviceMountNative (hs : ∀ e ∈ s, e.op ≠ .strdup) :
    Traced env (nativeUndone env cnt) t₀ s (env.host.deviceMountNative ctx cnt dev)
      (nativePlan env ctx cnt dev) () := by
  have hnew (call : Call) : Unlisted call s := fun e he hop => absurd hop (hs e he)
  have hsearch (call : Call) : Unlisted call (s ++ [(⟨.dri, .search, 0⟩ : Step)]) :=
    (hnew call).append (by simp [Unlisted])
  have hdev {call : Call} (hne : .node ≠ call) : Unlisted call
      ((if !cnt.has OPT_NO_DEVBIND then devicePlan env .node ctx.root dev else []).map (·.1)) :=
    unlisted_onlyIf (fun _ hx => (devicePlan_call hx).1) hne
  have hconfig {call : Call} (hne : .ldConfig ≠ call) : Unlisted call
      ((undoingPlan env .ldConfig ctx.root Host.LD_CONFIG_DIR).map (·.1)) :=
    .of_call (fun _ hx => (undoingPlan_call hx).1) hne
  have hnode : copied (deviceDst env cnt) (· = .node) (s ++ [⟨.dri, .search, 0⟩]
      ++ (if !cnt.has OPT_NO_DEVBIND then devicePlan env .node ctx.root dev else []).map (·.1))
        = (deviceMnt env cnt .node).toList := copied_device rfl (hsearch .node) ctx.root dev
  have hld := (hsearch .ldConfig).append (hdev (by simp))
  have hfirst : nativeUndone env cnt s ⟨.dri, .search, 0⟩ = [] := by
    rw [nativeUndone, if_neg (by simp), nativeOwn, if_pos rfl, (hnew _).copied_eq_nil,
      (hnew _).copied_eq_nil, (hnew _).copied_eq_nil]
    rfl
  refine (traced_search hfirst).bind ((traced_node (hsearch _) (hsearch _)).bind
    ((traced_ldConfig hnode hld).bind (traced_rest ?_ ?_ ?_)))
  · rw [copied_append, hnode, (hconfig (by simp)).copied_eq_nil, List.append_nil]
  · have hown : copied (deviceDst env cnt) (· = .ldConfig)
        ((undoingPlan env .ldConfig ctx.root Host.LD_CONFIG_DIR).map (·.1)) = [env.dst .ldConfig] :=
      (copied_own (fun _ hx => (undoingPlan_call hx).1) (List.Subset.refl _)).trans
        (copied_undoingPlan rfl _ _)
    rw [copied_append, hld.copied_eq_nil, hown]
    rfl
  · exact ((hsearch _).append (hdev (by simp))).append (hconfig (by simp))

end Body

/-! ## Which step may fail -/

/-- The destinations of a call lie apart. -/
def nativeApart (env : Faults) (ctx : Context) (cnt : Container) (dev : DeviceNode) : Prop :=
  ∃ place, env.Apart (deviceDst env cnt) (devicePlanTop env ctx cnt dev) [] place

/-- **The step may fail without a mount of the call being left where the destinations lie apart**:
it is not the way back, not a step of the DRI libraries behind the mount of the front end or between
binding and recording, and not the cgroup behind a mount the label does not know. -/
structure ForgetsNothing (env : Faults) (cnt : Container) (e : Step) : Prop where
  leave : e.op ≠ .nsLeave
  dri : e.call = .dri → e.op ≠ .search → smiMnt env cnt = [] ∧ e.unrecorded = false
  cgroup : e.op = .cgroup → smiMnt env cnt = [] ∧ driMnt env cnt = []

/-- **The step may fail without a mount of the call being left.**  Where destinations lie below one
another, what is unmounted has to take the layers of the mounts made off. -/
structure LeavesNothing (env : Faults) (ctx : Context) (cnt : Container) (dev : DeviceNode)
    (t : Table Name) (e : Step) : Prop where
  apart : nativeApart env ctx cnt dev → ForgetsNothing env cnt e
  nested : ¬nativeApart env ctx cnt dev → Layers.Unwinds Entry.node env.reaches True
    (Table.made t.next (env.bound (succeeded (devicePlanTop env ctx cnt dev)))) t.entries
    (nativeUndone env cnt (succeeded (devicePlanTop env ctx cnt dev)) e)

section Operation

variable {env : Faults} {ctx : Context} {cnt : Container} {dev : DeviceNode} {t : Table Name}
  {place : Str → Loc} {s : List Step} {e : Step}

theorem labelled_devicePlanTop : Labelled (deviceDst env cnt) (nativeLabel env) (· = .dri)
    (devicePlanTop env ctx cnt dev) :=
  orderly_nativePlan.toLabelled.inContainer fun e he => by rw [nativeLabel, he]

theorem regular_devicePlanTop : Regular (deviceDst env cnt) (devicePlanTop env ctx cnt dev) :=
  orderly_nativePlan.toRegular.inContainer

/-- The calls whose mounts the label does not know. -/
def Call.unknown (call : Call) : Bool := !(call = .ldConfig) && !(call = .node)

/-- What is recorded is known to the label or not. -/
theorem copied_perm_unknown (s : List Step) : (copied (deviceDst env cnt) (fun _ => true) s).Perm
    ((copied (deviceDst env cnt) (· = .ldConfig) s ++ copied (deviceDst env cnt) (· = .node) s)
      ++ copied (deviceDst env cnt) Call.unknown s) := by
  have hld := copied_perm (deviceDst env cnt) (fun _ => true) (· = .ldConfig) s
  have hnode := copied_perm (deviceDst env cnt) (fun c => true && !(c = .ldConfig : Bool))
    (· = .node) s
  have hcalls : (fun c : Call => (true && !(c = .ldConfig : Bool)) && (c = .node : Bool))
      = fun c => (c = .node : Bool) := by
    funext c
    cases c <;> rfl
  rw [hcalls] at hnode
  refine hld.symm.trans ?_
  rw [List.append_assoc]
  exact (hnode.symm).append_left _

/-- The steps up to the profile. -/
def frontPlan (env : Faults) (ctx : Context) (cnt : Container) (dev : DeviceNode) :
    List (Step × Bool) :=
  [(⟨.top, .validate, 0⟩, !ctx.initialized), (⟨.top, .nsEnter, 0⟩, env.fails ⟨.top, .nsEnter, 0⟩),
      (⟨.dri, .search, 0⟩, env.fails ⟨.dri, .search, 0⟩)]
    ++ (if !cnt.has OPT_NO_DEVBIND then devicePlan env .node ctx.root dev else [])
    ++ undoingPlan env .ldConfig ctx.root Host.LD_CONFIG_DIR
    ++ if cnt.has OPT_GRAPHICS_LIBS then [(⟨.top, .profile, 0⟩, env.fails ⟨.top, .profile, 0⟩)]
      else []

/-- The steps of the front end. -/
def smiPlan (env : Faults) (ctx : Context) (cnt : Container) : List (Step × Bool) :=
  if cnt.has OPT_UTILITY_LIBS then undoingPlan env .smi ctx.root Host.SMI_FRONT_DIR else []

/-- The steps of the DRI libraries. -/
def driPlan (env : Faults) (ctx : Context) (cnt : Container) : List (Step × Bool) :=
  if takesDri cnt then filesPlan env cnt .dri ctx.root (driLibs env cnt) else []

/-- The plan, part by part. -/
theorem devicePlanTop_eq : devicePlanTop env ctx cnt dev
    = frontPlan env ctx cnt dev ++ (smiPlan env ctx cnt ++ (driPlan env ctx cnt
      ++ (cgroupPlan env cnt .node
        ++ [(⟨.top, .nsLeave, 0⟩, env.fails ⟨.top, .nsLeave, 0⟩)]))) := by
  simp only [devicePlanTop, inContainerPlan, nativePlan, nativeRestPlan, frontPlan, smiPlan,
    driPlan, List.append_assoc, List.cons_append, List.nil_append]

/-- What the steps up to the profile are. -/
theorem frontPlan_step {x : Step × Bool} (hx : x ∈ frontPlan env ctx cnt dev) :
    (x.1.op = .strdup → x.1.call.unknown = false) ∧ x.1.op ≠ .cgroup ∧ x.1.op ≠ .nsLeave
      ∧ (x.1.call = .dri → x.1.op = .search) ∧ x.1.call ≠ .smi := by
  rw [frontPlan] at hx
  rcases List.mem_append.mp hx with hx | hx
  · rcases List.mem_append.mp hx with hx | hx
    · rcases List.mem_append.mp hx with hx | hx
      · simp only [List.mem_cons, List.not_mem_nil, or_false] at hx
        rcases hx with rfl | rfl | rfl <;> simp
      · split_ifs at hx
        · obtain ⟨hcall, hop⟩ := devicePlan_call hx
          exact ⟨fun _ => by rw [hcall]; rfl, ne_of_ofMount hop rfl, ne_of_ofMount hop rfl,
            by simp [hcall], by simp [hcall]⟩
        · cases hx
    · obtain ⟨hcall, hop⟩ := undoingPlan_call hx
      exact ⟨fun _ => by rw [hcall]; rfl, ne_of_ofMount hop rfl, ne_of_ofMount hop rfl,
        by simp [hcall], by simp [hcall]⟩
  · split_ifs at hx
    · rw [List.mem_singleton.mp hx]
      simp
    · cases hx

/-- Nothing unknown is recorded in front. -/
theorem copied_front (hs : s ⊆ (frontPlan env ctx cnt dev).map (·.1)) :
    copied (deviceDst env cnt) Call.unknown s = [] := by
  refine copied_eq_nil fun e he hop => ?_
  obtain ⟨x, hx, rfl⟩ := List.mem_map.mp (hs he)
  exact (frontPlan_step hx).1 hop

theorem smiPlan_step {x : Step × Bool} (hx : x ∈ smiPlan env ctx cnt) :
    x.1.call = .smi ∧ x.1.op.ofMount = true := by
  rw [smiPlan] at hx
  split_ifs at hx
  · exact undoingPlan_call hx
  · cases hx

theorem driPlan_step {x : Step × Bool} (hx : x ∈ driPlan env ctx cnt) :
    x.1.call = .dri ∧ x.1.op.ofMount = true := by
  rw [driPlan] at hx
  split_ifs at hx
  · exact filesPlan_call hx
  · cases hx

/-- What is recorded of the front end. -/
theorem copied_smi {calls : Call → Bool} (h : calls .smi = true) : copied (deviceDst env cnt) calls
    ((smiPlan env ctx cnt).map (·.1)) = smiMnt env cnt := by
  rw [copied_of_call (fun x hx => (smiPlan_step hx).1) (List.Subset.refl _), if_pos h, smiPlan,
    smiMnt]
  split_ifs
  · exact copied_undoingPlan rfl _ _
  · rfl

theorem copied_smi_of_failed {calls : Call → Bool}
    (he : firstFailure (smiPlan env ctx cnt) = some e) :
    copied (deviceDst env cnt) calls (succeeded (smiPlan env ctx cnt)) = [] := by
  rw [smiPlan] at he ⊢
  split_ifs at he ⊢
  · exact copied_undoingPlan_of_failed he
  · cases he

/-- What is recorded of the DRI libraries. -/
theorem copied_dri : copied (deviceDst env cnt) Call.unknown ((driPlan env ctx cnt).map (·.1))
    = driMnt env cnt := by
  have hdri : Call.unknown .dri = true := rfl
  rw [copied_of_call (fun x hx => (driPlan_step hx).1) (List.Subset.refl _), if_pos hdri, driPlan,
    driMnt]
  split_ifs
  · exact copied_filesPlan rfl
  · rfl

/-- **Where the call fails**, and what is recorded then that the label does not know. -/
theorem devicePlanTop_cases (he : firstFailure (devicePlanTop env ctx cnt dev) = some e) :
    (copied (deviceDst env cnt) Call.unknown (succeeded (devicePlanTop env ctx cnt dev)) = []
        ∧ e.op ≠ .cgroup ∧ e.op ≠ .nsLeave ∧ (e.call = .dri → e.op = .search))
      ∨ (copied (deviceDst env cnt) (fun c => c.unknown && !(c = .dri : Bool))
          (succeeded (devicePlanTop env ctx cnt dev)) = smiMnt env cnt
        ∧ e.call = .dri ∧ e.op.ofMount = true)
      ∨ (copied (deviceDst env cnt) Call.unknown (succeeded (devicePlanTop env ctx cnt dev))
          = smiMnt env cnt ++ driMnt env cnt ∧ e = ⟨.node, .cgroup, 0⟩)
      ∨ e = ⟨.top, .nsLeave, 0⟩ := by
  rw [devicePlanTop_eq] at he ⊢
  rcases firstFailure_append_cases he with ⟨he, hs⟩ | ⟨-, he, hs⟩
  · obtain ⟨-, hcgroup, hleave, hdri, -⟩ := frontPlan_step (mem_of_firstFailure he)
    rw [hs, copied_front (succeeded_sublist _).subset]
    exact .inl ⟨rfl, hcgroup, hleave, hdri⟩
  have hfront : copied (deviceDst env cnt) (fun c => c.unknown && !(c = .dri : Bool))
      ((frontPlan env ctx cnt dev).map (·.1)) = [] := by
    refine copied_eq_nil fun e he hop => ?_
    obtain ⟨x, hx, rfl⟩ := List.mem_map.mp he
    rw [(frontPlan_step hx).1 hop]
    rfl
  rw [hs]
  simp only [copied_append, copied_front (List.Subset.refl _), hfront, List.nil_append]
  rcases firstFailure_append_cases he with ⟨he, hs⟩ | ⟨-, he, hs⟩
  · obtain ⟨hcall, hop⟩ : e.call = .smi ∧ e.op.ofMount = true :=
      smiPlan_step (mem_of_firstFailure he)
    rw [hs]
    exact .inl ⟨copied_smi_of_failed he, ne_of_ofMount hop rfl, ne_of_ofMount hop rfl,
      by simp [hcall]⟩
  rw [hs]
  simp only [copied_append]
  rcases firstFailure_append_cases he with ⟨he, hs⟩ | ⟨-, he, hs⟩
  · have hdri : copied (deviceDst env cnt) (fun c => c.unknown && !(c = .dri : Bool))
        (succeeded (driPlan env ctx cnt)) = [] := by
      rw [copied_of_call (fun x hx => (driPlan_step hx).1) (succeeded_sublist _).subset]
      rfl
    have hsmi : copied (deviceDst env cnt) (fun c => c.unknown && !(c = .dri : Bool))
        ((smiPlan env ctx cnt).map (·.1)) = smiMnt env cnt := copied_smi rfl
    rw [hs, hdri, hsmi, List.append_nil]
    exact .inr (.inl ⟨rfl, driPlan_step (mem_of_firstFailure he)⟩)
  rw [hs]
  simp only [copied_append]
  rcases firstFailure_append_cases he with ⟨he, hs⟩ | ⟨-, he, -⟩
  · rw [hs, copied_smi rfl, copied_dri, plain_cgroupPlan.copied_eq_nil (succeeded_sublist _).subset,
      List.append_nil]
    exact .inr (.inr (.inl ⟨rfl, cgroupPlan_step (mem_of_firstFailure he)⟩))
  · exact .inr (.inr (.inr (Prod.mk.inj (List.mem_singleton.mp (mem_of_firstFailure he))).1))

/-- **A step behind the two mounts that are known**: what is unmounted besides has to cover what the
label does not know. -/
theorem cleared_iff_of_label (h : env.Apart (deviceDst env cnt) (devicePlanTop env ctx cnt dev) []
    place) (he : firstFailure (devicePlanTop env ctx cnt dev) = some e) (hcall : e.call ≠ .dri)
    (hop : e.op ≠ .nsLeave) :
    (∀ x ∈ ((t.binds (env.bound (succeeded (devicePlanTop env ctx cnt dev)))).umounts env.reaches
      (nativeUndone env cnt (succeeded (devicePlanTop env ctx cnt dev)) e)).entries, x.id < t.next)
      ↔ ((copied (deviceDst env cnt) Call.unknown (succeeded (devicePlanTop env ctx cnt dev))).map
        place ++ if e.unrecorded then [place (deviceDst env cnt e)] else []).Subperm
          (((nativeLabel env e).filter (· ≠ [])).map place) := by
  rw [nativeUndone_of_label hcall hop]
  refine h.cleared_iff_of_perm regular_devicePlanTop he (fun d hd => ?_) (copied_perm_unknown _)
  exact List.mem_append_left _ (labelled_devicePlanTop.dests _ (mem_of_firstFailure he) d hd)

/-- **A step of the DRI libraries**: nothing else may be recorded that the label does not know. -/
theorem cleared_iff_of_dri (h : env.Apart (deviceDst env cnt) (devicePlanTop env ctx cnt dev) []
    place) (he : firstFailure (devicePlanTop env ctx cnt dev) = some e) (hcall : e.call = .dri)
    (hop : e.op ≠ .nsLeave) :
    (∀ x ∈ ((t.binds (env.bound (succeeded (devicePlanTop env ctx cnt dev)))).umounts env.reaches
      (nativeUndone env cnt (succeeded (devicePlanTop env ctx cnt dev)) e)).entries, x.id < t.next)
      ↔ copied (deviceDst env cnt) (fun c => c.unknown && !(c = .dri : Bool))
          (succeeded (devicePlanTop env ctx cnt dev)) = [] ∧ e.unrecorded = false := by
  set s := succeeded (devicePlanTop env ctx cnt dev) with hs
  have hlabel : nativeLabel env e = [] := by rw [nativeLabel, hcall]
  have hundone : nativeUndone env cnt s e = [] ++ (copied (deviceDst env cnt) (· = .dri) s
      ++ (copied (deviceDst env cnt) (· = .ldConfig) s
        ++ copied (deviceDst env cnt) (· = .node) s)) := by
    rw [nativeUndone, if_neg hop, nativeOwn, if_pos hcall, hlabel, List.append_nil,
      List.nil_append]
  have hsplit : (copied (deviceDst env cnt) (· = .dri) s
      ++ copied (deviceDst env cnt) (fun c => c.unknown && !(c = .dri : Bool)) s).Perm
        (copied (deviceDst env cnt) Call.unknown s) := by
    have hcalls : (fun c : Call => c.unknown && (c = .dri : Bool))
        = fun c => (c = .dri : Bool) := by
      funext c
      cases c <;> rfl
    have hperm := copied_perm (deviceDst env cnt) Call.unknown (· = .dri) s
    rwa [hcalls] at hperm
  rw [hundone, hs, h.cleared_iff_of_perm regular_devicePlanTop he (by simp) ?_]
  · constructor
    · intro hle
      have hlen := hle.length_le
      simp only [List.filter_nil, List.map_nil, List.length_nil, Nat.le_zero, List.length_append,
        Nat.add_eq_zero_iff, List.length_map, List.length_eq_zero_iff] at hlen
      refine ⟨hlen.1, ?_⟩
      by_contra hrec
      rw [if_pos (Bool.of_not_eq_false hrec)] at hlen
      cases hlen.2
    · rintro ⟨hnone, hrec⟩
      rw [hnone, hrec]
      exact List.Subperm.refl _
  · refine (copied_perm_unknown s).trans ((hsplit.symm.append_left _).trans ?_)
    rw [← List.append_assoc]
    exact List.perm_append_comm.append_right _

/-- **What a failing step leaves where the destinations lie apart.** -/
theorem cleared_iff_forgets (h : env.Apart (deviceDst env cnt) (devicePlanTop env ctx cnt dev) []
    place) (he : firstFailure (devicePlanTop env ctx cnt dev) = some e) :
    (∀ x ∈ ((t.binds (env.bound (succeeded (devicePlanTop env ctx cnt dev)))).umounts env.reaches
      (nativeUndone env cnt (succeeded (devicePlanTop env ctx cnt dev)) e)).entries, x.id < t.next)
      ↔ ForgetsNothing env cnt e := by
  have hreg : Regular (deviceDst env cnt) (devicePlanTop env ctx cnt dev) := regular_devicePlanTop
  rcases devicePlanTop_cases he with ⟨hnone, hcgroup, hleave, hdri⟩ | ⟨hsmi, hcall, hop⟩
    | ⟨hboth, rfl⟩ | rfl
  · have hforgets : ForgetsNothing env cnt e :=
      ⟨hleave, fun hcall hop => absurd (hdri hcall) hop, fun hop => absurd hop hcgroup⟩
    by_cases hcall : e.call = .dri
    · have hperm := copied_perm (deviceDst env cnt) Call.unknown (· = .dri)
        (succeeded (devicePlanTop env ctx cnt dev))
      rw [hnone] at hperm
      rw [cleared_iff_of_dri h he hcall hleave]
      refine iff_of_true ⟨(List.append_eq_nil_iff.mp hperm.eq_nil).2, ?_⟩ hforgets
      simp [Step.unrecorded, hdri hcall]
    · rw [cleared_iff_of_label h he hcall hleave, hnone]
      exact iff_of_true
        (labelled_devicePlanTop.atHand_subperm hreg he (by simpa using hcall) place) hforgets
  · rw [cleared_iff_of_dri h he hcall (ne_of_ofMount hop rfl), hsmi]
    exact ⟨fun hnone => ⟨ne_of_ofMount hop rfl, fun _ _ => hnone,
      fun hcgroup => absurd hcgroup (ne_of_ofMount hop rfl)⟩,
      fun hforgets => hforgets.dri hcall (ne_of_ofMount hop rfl)⟩
  · have hlabel : nativeLabel env ⟨.node, .cgroup, 0⟩ = [] := rfl
    rw [cleared_iff_of_label h he (by simp) (by simp), hboth, hlabel]
    constructor
    · intro hle
      have hlen := hle.length_le
      refine ⟨by simp, by simp, fun _ => ?_⟩
      simpa [Step.unrecorded] using hlen
    · intro hforgets
      obtain ⟨hsmi, hdri⟩ := hforgets.cgroup rfl
      simp [hsmi, hdri, Step.unrecorded]
  · -- `ld.so.conf.d` at least is mounted
    have hmem : env.dst .ldConfig ∈ aimed (deviceDst env cnt)
        (succeeded (devicePlanTop env ctx cnt dev)) := by
      rw [devicePlanTop, succeeded_of_nsLeave orderly_nativePlan.inside he rfl]
      refine List.mem_map.mpr ⟨⟨.ldConfig, .bind, 0⟩, ?_, rfl⟩
      simp [nativePlan, undoingPlan, Faults.plan]
    exact iff_of_false (h.not_cleared hreg hmem) fun hforgets => hforgets.leave rfl

end Operation

/-! ## The operation -/

/-- Where the destinations of a device mount are in the container. -/
def nativeDst : Call → Str
  | .node => "/dev/x".toList
  | .ldConfig => Host.LD_CONFIG_DIR
  | _ => Host.SMI_FRONT_DIR

end Mount
