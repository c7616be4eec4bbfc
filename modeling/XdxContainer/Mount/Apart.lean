import XdxContainer.Mount.Faults

/-!
# Mount/Apart — mounts and unmountings where no destination is below another

Where each path leads to one location all along and none of these is below another (`Faults.Apart`),
the order of unmounting does not matter: what is left of a failed call depends on how often each
destination was bound and how often it is unmounted.

    bound        what was recorded, and the bind at hand if its remount or copy fails  (`Regular`)
    unmounted    what the label names, and of the recorded what the labels remember    (`Labelled`)

* `Faults.Apart.restored_iff`, `Faults.Apart.cleared_iff` — the two questions about the table,
  answered by counting.
-/

open Paths Fs Fallible

namespace Mount

/-- The destinations bound in these steps. -/
def aimed (D : Step → Str) (s : List Step) : List Str := (s.filter (·.op = .bind)).map D

/-- The paths a plan may unmount: its destinations, and what else is named. -/
def reached (D : Step → Str) (p : List (Step × Bool)) (more : List Str) : Set Str :=
  {d | d ≠ [] ∧ d ∈ aimed D (p.map (·.1)) ++ more}

/-- **The destinations lie apart**: each path leads to one location all along, the one its bind
mounts at, and none of the locations is below another. -/
structure Faults.Apart (env : Faults) (D : Step → Str) (p : List (Step × Bool)) (more : List Str)
    (place : Str → Loc) : Prop where
  antichain : IsAntichain (· <+: ·) (place '' reached D p more)
  target : ∀ x ∈ p, x.1.op = .bind → D x.1 ≠ [] → env.target x.1 = place (D x.1)
  leads : ∀ l, ∀ d ∈ reached D p more, env.leads l d = some (place d)

/-- The steps between binding a file and recording its destination. -/
def Step.unrecorded (e : Step) : Bool := e.op = .remount || e.op = .strdup

/-- **What is bound is recorded**, but for the bind at hand when its remount or copy fails; and what
is bound has a name. -/
structure Regular (D : Step → Str) (p : List (Step × Bool)) : Prop where
  whole : aimed D (p.map (·.1)) = copied D (fun _ => true) (p.map (·.1))
  part : ∀ e, firstFailure p = some e → aimed D (succeeded p)
    = copied D (fun _ => true) (succeeded p) ++ if e.unrecorded then [D e] else []
  named : ∀ d ∈ aimed D (succeeded p), d ≠ []

/-- **The labels unmount destinations**, and the one that was bound and not recorded, unless it is
that of a file. -/
structure Labelled (D : Step → Str) (label : Step → List Str) (files : Call → Bool)
    (p : List (Step × Bool)) : Prop where
  dests : ∀ x ∈ p, ∀ d ∈ label x.1, d ∈ aimed D (p.map (·.1))
  unrecorded : ∀ x ∈ p, x.1.unrecorded = true → files x.1.call = true ∨ label x.1 = [D x.1]

variable {D : Step → Str} {p q : List (Step × Bool)} {e : Step} {s : List Step} {env : Faults}

/-- What two parts are aimed at. -/
theorem aimed_append (s s' : List Step) : aimed D (s ++ s') = aimed D s ++ aimed D s' := by
  rw [aimed, List.filter_append, List.map_append, aimed, aimed]

theorem succeeded_sublist (p : List (Step × Bool)) : (succeeded p).Sublist (p.map (·.1)) :=
  (List.takeWhile_sublist _).map _

theorem aimed_succeeded_subset (p : List (Step × Bool)) :
    aimed D (succeeded p) ⊆ aimed D (p.map (·.1)) :=
  (((succeeded_sublist p).filter _).map _).subset

/-- Steps around the binds. -/
def Plain (p : List (Step × Bool)) : Prop := ∀ x ∈ p, x.1.op.ofBind = false

namespace Plain

theorem aimed_eq_nil (h : Plain p) (hs : s ⊆ p.map (·.1)) : aimed D s = [] := by
  rw [aimed, List.map_eq_nil_iff, List.filter_eq_nil_iff]
  intro e he
  obtain ⟨x, hx, rfl⟩ := List.mem_map.mp (hs he)
  have hplain := h x hx
  rcases hop : x.1.op <;> simp_all [Op.ofBind]

/-- A plan that mounts nothing records nothing. -/
theorem copied_eq_nil {calls : Call → Bool} (h : Plain p) (hs : s ⊆ p.map (·.1)) :
    copied D calls s = [] := by
  refine Mount.copied_eq_nil fun e he hop => ?_
  obtain ⟨x, hx, rfl⟩ := List.mem_map.mp (hs he)
  have hplain := h x hx
  rw [hop] at hplain
  cases hplain

theorem unrecorded_eq_false (h : Plain p) {x : Step × Bool} (hx : x ∈ p) :
    x.1.unrecorded = false := by
  have hplain := h x hx
  rcases hop : x.1.op <;> simp_all [Op.ofBind, Step.unrecorded]

end Plain

namespace Regular

/-- A plan behind one that is done; of the second, all that is aimed at is recorded. -/
theorem append_of_done (hp : Regular D p) (hq : firstFailure p = none → Regular D q)
    (hwhole : aimed D (q.map (·.1)) = copied D (fun _ => true) (q.map (·.1))) :
    Regular D (p ++ q) := by
  have hsplit : aimed D ((p ++ q).map (·.1)) = copied D (fun _ => true) ((p ++ q).map (·.1)) := by
    rw [List.map_append, aimed_append, copied_append, hp.whole, hwhole]
  rcases hdone : firstFailure p with _ | e
  · have hq := hq hdone
    have hall : succeeded p = p.map (·.1) := succeeded_of_done hdone
    refine ⟨hsplit, fun e he => ?_, fun d hd => ?_⟩
    · rw [firstFailure_append, hdone] at he
      rw [succeeded_append_of_done hdone, aimed_append, copied_append, hp.whole, hq.part e he,
        List.append_assoc]
    · rw [succeeded_append_of_done hdone, aimed_append] at hd
      rcases List.mem_append.mp hd with hd | hd
      · exact hp.named d (hall ▸ hd)
      · exact hq.named d hd
  · refine ⟨hsplit, fun e' he => ?_, fun d hd => ?_⟩
    · rw [firstFailure_append, hdone] at he
      rw [succeeded_append_of_failed hdone]
      exact hp.part e' (hdone.trans he)
    · rw [succeeded_append_of_failed hdone] at hd
      exact hp.named d hd

/-- Two plans, one behind the other. -/
theorem append (hp : Regular D p) (hq : Regular D q) : Regular D (p ++ q) :=
  hp.append_of_done (fun _ => hq) hq.whole

/-- A plan that mounts nothing. -/
theorem of_plain (h : Plain p) : Regular D p := by
  have hsub := (succeeded_sublist p).subset
  refine ⟨?_, fun e he => ?_, fun d hd => ?_⟩
  · rw [h.aimed_eq_nil (List.Subset.refl _), h.copied_eq_nil (List.Subset.refl _)]
  · have hrec : e.unrecorded = false := h.unrecorded_eq_false (mem_of_firstFailure he)
    rw [h.aimed_eq_nil hsub, h.copied_eq_nil hsub, hrec]
    rfl
  · rw [h.aimed_eq_nil hsub] at hd
    cases hd

/-- The steps of a bind of a destination with a name. -/
theorem of_bindAt {call : Call} {i : ℕ} {d : Str} (hD : ∀ op, D ⟨call, op, i⟩ = d) (hd : d ≠ []) :
    Regular D (env.plan call i [.bind, .remount, .strdup]) := by
  have hfails (op : Op) (b : Bool) (hb : env.fails ⟨call, op, i⟩ = b) :
      env.plan call i [op] = [(⟨call, op, i⟩, b)] := by
    rw [← hb]
    rfl
  have hplan : env.plan call i [.bind, .remount, .strdup]
      = env.plan call i [.bind] ++ env.plan call i [.remount] ++ env.plan call i [.strdup] := rfl
  rw [hplan]
  rcases hb : env.fails ⟨call, .bind, i⟩
  · rcases hr : env.fails ⟨call, .remount, i⟩
    · rcases hs : env.fails ⟨call, .strdup, i⟩
      · simp only [hfails _ _ hb, hfails _ _ hr, hfails _ _ hs]
        exact ⟨by simp [aimed, copied, hD], by simp, by simp [aimed, succeeded, hD, hd]⟩
      · simp only [hfails _ _ hb, hfails _ _ hr, hfails _ _ hs]
        refine ⟨by simp [aimed, copied, hD], fun e he => ?_, by simp [aimed, succeeded, hD, hd]⟩
        obtain rfl : ⟨call, .strdup, i⟩ = e := by simpa using he
        simp [aimed, copied, succeeded, hD, Step.unrecorded]
    · simp only [hfails _ _ hb, hfails _ _ hr]
      refine ⟨by simp [aimed, copied, hD, Faults.plan], fun e he => ?_,
        by simp [aimed, succeeded, hD, hd]⟩
      obtain rfl : ⟨call, .remount, i⟩ = e := by simpa using he
      simp [aimed, copied, succeeded, hD, Step.unrecorded]
  · simp only [hfails _ _ hb]
    refine ⟨by simp [aimed, copied, hD, Faults.plan], fun e he => ?_, by simp [aimed, succeeded]⟩
    obtain rfl : ⟨call, .bind, i⟩ = e := by simpa using he
    simp [aimed, copied, succeeded, Step.unrecorded]

/-- What is recorded is bound. -/
theorem copied_subset_succeeded (h : Regular D p) (he : firstFailure p = some e)
    (calls : Call → Bool) : copied D calls (succeeded p) ⊆ aimed D (succeeded p) := by
  intro d hd
  rw [h.part e he]
  refine List.mem_append_left _ ?_
  obtain ⟨x, hx, rfl⟩ := List.mem_map.mp hd
  refine List.mem_map_of_mem ?_
  simp only [List.mem_filter, Bool.and_eq_true] at hx ⊢
  exact ⟨hx.1, hx.2.1, trivial⟩

/-- What is recorded is a destination. -/
theorem copied_subset (h : Regular D p) (he : firstFailure p = some e) (calls : Call → Bool) :
    copied D calls (succeeded p) ⊆ aimed D (p.map (·.1)) := fun _ hd =>
  aimed_succeeded_subset p (h.copied_subset_succeeded he calls hd)

theorem copied_ne (h : Regular D p) (he : firstFailure p = some e) (calls : Call → Bool) :
    ∀ d ∈ copied D calls (succeeded p), d ≠ [] := fun d hd =>
  h.named d (h.copied_subset_succeeded he calls hd)

/-- The bind at hand has a name. -/
theorem dst_ne_of_unrecorded (h : Regular D p) (he : firstFailure p = some e)
    (hrec : e.unrecorded = true) : D e ≠ [] := by
  refine h.named _ ?_
  rw [h.part e he, hrec]
  simp

end Regular

namespace Labelled

variable {label : Step → List Str} {files : Call → Bool}

/-- Two plans, one behind the other. -/
theorem append (hp : Labelled D label files p) (hq : Labelled D label files q) :
    Labelled D label files (p ++ q) := by
  refine ⟨fun x hx d hd => ?_, fun x hx hrec => ?_⟩
  · rw [List.map_append, aimed_append]
    rcases List.mem_append.mp hx with hx | hx
    · exact List.mem_append_left _ (hp.dests x hx d hd)
    · exact List.mem_append_right _ (hq.dests x hx d hd)
  · rcases List.mem_append.mp hx with hx | hx
    · exact hp.unrecorded x hx hrec
    · exact hq.unrecorded x hx hrec

theorem of_plain (h : Plain p) (hlabel : ∀ x ∈ p, label x.1 = []) : Labelled D label files p := by
  refine ⟨fun x hx d hd => ?_, fun x hx hrec => ?_⟩
  · rw [hlabel x hx] at hd
    cases hd
  · rw [h.unrecorded_eq_false hx] at hrec
    cases hrec

/-- The bind at hand is what its label unmounts. -/
theorem filter_label_eq (h : Labelled D label files p) (hreg : Regular D p)
    (he : firstFailure p = some e) (hfile : files e.call ≠ true) (hrec : e.unrecorded = true) :
    (label e).filter (· ≠ []) = [D e] := by
  have hne : D e ≠ [] := hreg.dst_ne_of_unrecorded he hrec
  rw [(h.unrecorded _ (mem_of_firstFailure he) hrec).resolve_left hfile]
  simp [hne]

/-- Whether or not a bind is at hand, the label covers it. -/
theorem atHand_subperm (h : Labelled D label files p) (hreg : Regular D p)
    (he : firstFailure p = some e) (hfile : files e.call ≠ true) (place : Str → Loc) :
    (if e.unrecorded then [place (D e)] else []).Subperm
      (((label e).filter (· ≠ [])).map place) := by
  rcases hrec : e.unrecorded
  · exact List.nil_subperm
  · rw [h.filter_label_eq hreg he hfile hrec]
    exact List.Subperm.refl _

end Labelled

/-- **The plan of a body**: regular, labelled, and without the way back. -/
structure Orderly (D : Step → Str) (label : Step → List Str) (files : Call → Bool)
    (p : List (Step × Bool)) : Prop extends Regular D p, Labelled D label files p where
  inside : ∀ x ∈ p, x.1.op ≠ .nsLeave

namespace Orderly

variable {label : Step → List Str} {files : Call → Bool}

/-- Two plans, one behind the other. -/
theorem append (hp : Orderly D label files p) (hq : Orderly D label files q) :
    Orderly D label files (p ++ q) where
  toRegular := hp.toRegular.append hq.toRegular
  toLabelled := hp.toLabelled.append hq.toLabelled
  inside x hx := (List.mem_append.mp hx).elim (hp.inside x) (hq.inside x)

theorem of_plain (h : Plain p) (hlabel : ∀ x ∈ p, label x.1 = [])
    (hinside : ∀ x ∈ p, x.1.op ≠ .nsLeave) : Orderly D label files p where
  toRegular := .of_plain h
  toLabelled := .of_plain h hlabel
  inside := hinside

theorem nil : Orderly D label files [] :=
  of_plain (by simp [Plain]) (by simp) (by simp)

/-- A part that may be left out. -/
theorem ite {c : Prop} [Decidable c] (hp : Orderly D label files p) (hq : Orderly D label files q) :
    Orderly D label files (if c then p else q) := by
  split_ifs
  · exact hp
  · exact hq

end Orderly

/-! ## The calls -/

section Calls

variable {cnt : Container} {call : Call} {src dst root dir : Str} {paths : List Str}
  {files : Call → Option (List Str)}

/-- What is selected has a name. -/
theorem basename_ne_of_selected {path : Str} (hsel : selected cnt path = true) :
    basename path ≠ [] := by
  intro hnil
  have hbins : strArrayMatchPrefix [] utilityBins = false := rfl
  have hdxcore : strArrayMatchPrefix [] dxcoreLibs = false := rfl
  have hutility : strArrayMatchPrefix [] utilityLibs = false := rfl
  have hcompute : strArrayMatchPrefix [] computeLibs = false := rfl
  have hvideo : strArrayMatchPrefix [] videoLibs = false := rfl
  have hgraphics : strArrayMatchPrefix [] graphicsLibs = false := rfl
  simp [selected, hnil, matchBinaryFlags, matchLibraryFlags, hbins, hdxcore, hutility, hcompute,
    hvideo, hgraphics] at hsel

/-- A destination for a file is not empty. -/
theorem pathAppend_ne {buf path : Str} (hslash : '/' ∉ path) (hne : path ≠ []) :
    (pathAppend buf path).2 ≠ [] := by
  have hhead : path.head? ≠ some '/' := fun h => hslash (List.mem_of_mem_head? h)
  have htext : buf ++ joinText buf path ≠ [] := by simp [joinText, hhead, hne]
  rw [pathAppend, if_neg hne]
  split_ifs
  · exact htext
  · obtain ⟨c, l, hl⟩ := List.exists_cons_of_ne_nil htext
    simp [hl, PATH_MAX]

/-- The destination of what is selected is not empty. -/
theorem fileDst_ne {path : Str} (hsel : selected cnt path = true) : fileDst dst path ≠ [] := by
  refine pathAppend_ne (fun hmem => ?_) (basename_ne_of_selected hsel)
  exact slash_notMem_token path.reverse (List.mem_reverse.mp hmem)

theorem regular_filesLoopPlan (i : ℕ) (paths : List Str)
    (hD : ∀ j path op, paths[j]? = some path → D ⟨call, op, i + j⟩ = fileDst dst path) :
    Regular D (filesLoopPlan env cnt call src dst i paths) := by
  induction paths generalizing i with
  | nil => exact .of_plain (by simp [Plain, filesLoopPlan])
  | cons path paths ih =>
    have hrest : Regular D (filesLoopPlan env cnt call src dst (i + 1) paths) := by
      refine ih (i + 1) fun j path op hj => ?_
      rw [Nat.add_right_comm]
      exact hD (j + 1) path op hj
    rw [filesLoopPlan]
    refine Regular.append ?_ hrest
    split_ifs with hsel
    · have hfirst : Plain ([(⟨call, .appendSrc, i⟩, !(pathAppend src path).1),
          (⟨call, .appendDst, i⟩, !(pathAppend dst (basename path)).1)]
          ++ env.plan call i [.mode, .create]) := by
        simp [Plain, Faults.plan, Op.ofBind]
      have hbind : Regular D (env.plan call i [.bind, .remount, .strdup]) :=
        .of_bindAt (fun op => hD 0 path op rfl) (fileDst_ne hsel)
      exact (Regular.of_plain hfirst).append hbind
    · exact .of_plain (by simp [Plain])

/-- Files are mounted at their destinations. -/
theorem regular_filesPlan (hfiles : files call = some paths) :
    Regular (env.dstOf files) (filesPlan env cnt call root paths) := by
  have hfirst : Plain ((⟨call, .pathSrc, 0⟩, !(pathNew root).1)
      :: (⟨call, .resolve, 0⟩, !(env.resolved ⟨call, .resolve, 0⟩).1)
      :: env.plan call 0 [.createDir, .arrayNew]) := by
    simp [Plain, Faults.plan, Op.ofBind]
  have hrest : Regular (env.dstOf files)
      (filesLoopPlan env cnt call (pathNew root).2 (env.dst call) 0 paths) := by
    refine regular_filesLoopPlan 0 paths fun j path op hj => ?_
    simp [Faults.dstOf, hfiles, hj]
  exact (Regular.of_plain hfirst).append hrest

/-- What resolved is not empty. -/
theorem dst_ne {r : Bool} (h : firstFailure [((⟨call, .pathSrc, 0⟩ : Step), r),
    (⟨call, .resolve, 0⟩, !(env.resolved ⟨call, .resolve, 0⟩).1)] = none) :
    env.dst call ≠ [] := by
  refine env.resolved_ne _ ?_
  by_contra hfails
  rw [eq_false_of_ne_true hfails] at h
  rcases r <;> cases h

/-- A device is mounted at its destination. -/
theorem regular_devicePlan (hfiles : files call = none) (dev : DeviceNode) :
    Regular (env.dstOf files) (devicePlan env call root dev) := by
  have hD (op : Op) : env.dstOf files ⟨call, op, 0⟩ = env.dst call := by
    simp [Faults.dstOf, hfiles]
  have hplain : Plain [((⟨call, .pathSrc, 0⟩ : Step), !(pathJoin root dev.path).1),
      (⟨call, .resolve, 0⟩, !(env.resolved ⟨call, .resolve, 0⟩).1)] := by
    simp [Plain, Op.ofBind]
  have hmiddle : Plain ([((⟨call, .stat, 0⟩ : Step), env.fails ⟨call, .stat, 0⟩),
      (⟨call, .rdev, 0⟩, !decide (env.rdevOf ⟨call, .stat, 0⟩ = dev.id))]
      ++ env.plan call 0 [.mode, .create]) := by
    simp [Plain, Faults.plan, Op.ofBind]
  refine (Regular.of_plain hplain).append_of_done (fun hok => ?_) ?_
  · have hbind : Regular (env.dstOf files) (env.plan call 0 [.bind, .remount, .strdup]) :=
      .of_bindAt hD (dst_ne hok)
    exact (Regular.of_plain hmiddle).append hbind
  · simp [aimed, copied, Faults.plan, hD]

theorem regular_undoingPlan (hfiles : files call = none) :
    Regular (env.dstOf files) (undoingPlan env call root dir) := by
  have hD (op : Op) : env.dstOf files ⟨call, op, 0⟩ = env.dst call := by
    simp [Faults.dstOf, hfiles]
  have hplain : Plain [((⟨call, .pathSrc, 0⟩ : Step), !(pathJoin root dir).1),
      (⟨call, .resolve, 0⟩, !(env.resolved ⟨call, .resolve, 0⟩).1)] := by
    simp [Plain, Op.ofBind]
  have hmiddle : Plain (env.plan call 0 [.mode, .create]) := by
    simp [Plain, Faults.plan, Op.ofBind]
  refine (Regular.of_plain hplain).append_of_done (fun hok => ?_) ?_
  · have hbind : Regular (env.dstOf files) (env.plan call 0 [.bind, .remount, .strdup]) :=
      .of_bindAt hD (dst_ne hok)
    exact (Regular.of_plain hmiddle).append hbind
  · simp [aimed, copied, hD]

variable {label : Step → List Str} {isFiles : Call → Bool}

/-- A failed file unmounts nothing of its own. -/
theorem labelled_filesPlan (hfiles : isFiles call = true)
    (hlabel : ∀ e, e.call = call → label e = []) :
    Labelled D label isFiles (filesPlan env cnt call root paths) := by
  refine ⟨fun x hx d hd => ?_, fun x hx _ => ?_⟩
  · rw [hlabel _ (filesPlan_call hx).1] at hd
    cases hd
  · rw [(filesPlan_call hx).1]
    exact .inl hfiles

/-- A failed device unmounts its destination, if its bind was tried. -/
theorem labelled_devicePlan (hfiles : files call = none)
    (hlabel : ∀ e, e.call = call → label e = deviceLabel env e) (dev : DeviceNode) :
    Labelled (env.dstOf files) label isFiles (devicePlan env call root dev) := by
  have hD (e : Step) (he : e.call = call) : env.dstOf files e = env.dst call := by
    simp [Faults.dstOf, he, hfiles]
  refine ⟨fun x hx d hd => ?_, fun x hx hrec => .inr ?_⟩
  · obtain rfl : d = env.dst call := by
      rw [hlabel _ (devicePlan_call hx).1, deviceLabel, (devicePlan_call hx).1] at hd
      split_ifs at hd
      · exact List.mem_singleton.mp hd
      · cases hd
    simp [aimed, devicePlan, Faults.plan, hD]
  · have hcall := (devicePlan_call hx).1
    have hbind : x.1.op.ofBind = true := by
      rcases hop : x.1.op <;> simp_all [Step.unrecorded, Op.ofBind]
    rw [hlabel _ hcall, deviceLabel, if_pos hbind, hD _ hcall, hcall]

theorem labelled_undoingPlan (hfiles : files call = none)
    (hlabel : ∀ e, e.call = call → label e = undoingLabel env e) :
    Labelled (env.dstOf files) label isFiles (undoingPlan env call root dir) := by
  have hD (e : Step) (he : e.call = call) : env.dstOf files e = env.dst call := by
    simp [Faults.dstOf, he, hfiles]
  refine ⟨fun x hx d hd => ?_, fun x hx hrec => .inr ?_⟩
  · obtain rfl : d = env.dst call := by
      rw [hlabel _ (undoingPlan_call hx).1, undoingLabel, (undoingPlan_call hx).1] at hd
      split_ifs at hd
      · exact List.mem_singleton.mp hd
      · cases hd
    simp [aimed, undoingPlan, Faults.plan, hD]
  · have hcall := (undoingPlan_call hx).1
    have hbind : x.1.op.behindSrc = true := by
      rcases hop : x.1.op <;> simp_all [Step.unrecorded, Op.behindSrc, Op.ofBind]
    rw [hlabel _ hcall, undoingLabel, if_pos hbind, hD _ hcall, hcall]

/-- The mount functions stay where they are. -/
theorem ne_of_ofMount {op op' : Op} (hop : op.ofMount = true) (hop' : op'.ofMount = false) :
    op ≠ op' := by
  rintro rfl
  rw [hop] at hop'
  cases hop'

theorem orderly_filesPlan (hfiles : files call = some paths) (hcall : isFiles call = true)
    (hlabel : ∀ e, e.call = call → label e = []) :
    Orderly (env.dstOf files) label isFiles (filesPlan env cnt call root paths) where
  toRegular := regular_filesPlan hfiles
  toLabelled := labelled_filesPlan hcall hlabel
  inside _ hx := ne_of_ofMount (filesPlan_call hx).2 rfl

/-- The plan of a device is in order. -/
theorem orderly_devicePlan (hfiles : files call = none)
    (hlabel : ∀ e, e.call = call → label e = deviceLabel env e) (dev : DeviceNode) :
    Orderly (env.dstOf files) label isFiles (devicePlan env call root dev) where
  toRegular := regular_devicePlan hfiles dev
  toLabelled := labelled_devicePlan hfiles hlabel dev
  inside _ hx := ne_of_ofMount (devicePlan_call hx).2 rfl

theorem orderly_undoingPlan (hfiles : files call = none)
    (hlabel : ∀ e, e.call = call → label e = undoingLabel env e) :
    Orderly (env.dstOf files) label isFiles (undoingPlan env call root dir) where
  toRegular := regular_undoingPlan hfiles
  toLabelled := labelled_undoingPlan hfiles hlabel
  inside _ hx := ne_of_ofMount (undoingPlan_call hx).2 rfl

end Calls

/-! ## What is left in the table -/

section Left

variable {t : Table Name} {place : Str → Loc} {ps more : List Str}

/-- The same on both sides cancels. -/
theorem perm_append_iff {α : Type} {us known all rest : List α} (h : known.Perm all) :
    (us ++ known).Perm (all ++ rest) ↔ us.Perm rest := by
  have hcomm : (us ++ known).Perm (all ++ us) :=
    List.perm_append_comm.trans (h.append_right us)
  exact ⟨fun hperm => (List.perm_append_left_iff all).mp (hcomm.symm.trans hperm),
    fun hperm => hcomm.trans (hperm.append_left all)⟩

/-- The paths that are looked up. -/
theorem umounts_named (ps : List Str) (t : Table Name) :
    t.umounts env.reaches ps = t.umounts env.reaches (ps.filter (· ≠ [])) := by
  induction ps generalizing t with
  | nil => rfl
  | cons d ps ih =>
    change (t.umount env.reaches d).umounts env.reaches ps = _
    rw [ih]
    by_cases hd : d = []
    · have hnone : t.umount env.reaches d = t := Table.umount_of_none fun l => if_pos hd
      rw [hnone, List.filter_cons_of_neg (by simpa using hd)]
    · rw [List.filter_cons_of_pos (by simpa using hd)]
      rfl

theorem reached_of_mem (hps : ∀ d ∈ ps, d ≠ [] → d ∈ aimed D (p.map (·.1)) ++ more) :
    ∀ d ∈ ps.filter (· ≠ []), d ∈ reached D p more := by
  intro d hd
  have hne : d ≠ [] := by simpa using (List.mem_filter.mp hd).2
  exact ⟨hne, hps d (List.mem_filter.mp hd).1 hne⟩

namespace Faults.Apart

variable (h : env.Apart D p more place) (hreg : Regular D p)
  (hps : ∀ d ∈ ps, d ≠ [] → d ∈ aimed D (p.map (·.1)) ++ more)

include h hreg

/-- Where the mounts are made. -/
theorem bound_eq : env.bound (succeeded p) = (aimed D (succeeded p)).map place := by
  rw [bound, aimed, List.map_map]
  refine List.map_congr_left fun e he => ?_
  have hmem := (List.mem_filter.mp he).1
  have hop : e.op = .bind := by simpa using (List.mem_filter.mp he).2
  obtain ⟨x, hx, rfl⟩ := List.mem_map.mp ((succeeded_sublist p).subset hmem)
  exact h.target x hx hop (hreg.named _ (List.mem_map_of_mem he))

/-- What is bound is among the places the paths reach. -/
theorem bound_mem : ∀ k ∈ env.bound (succeeded p), k ∈ place '' reached D p more := by
  rw [h.bound_eq hreg]
  intro k hk
  obtain ⟨d, hd, rfl⟩ := List.mem_map.mp hk
  refine ⟨d, ⟨hreg.named d hd, ?_⟩, rfl⟩
  exact List.mem_append_left _ (aimed_succeeded_subset p hd)

omit hreg
include hps

/-- A path leads to its place, whatever is mounted. -/
theorem reaches_eq : ∀ l, ∀ d ∈ ps.filter (· ≠ []), env.reaches l d = some (place d) := by
  intro l d hd
  have hmem := reached_of_mem hps d hd
  rw [reaches, if_neg hmem.1]
  exact h.leads l d hmem

include hreg

/-- **The mounts made are all that is unmounted** exactly when each destination is unmounted as
often as it was bound, and what is unmounted besides carries no mount one sees. -/
theorem restored_iff : ((t.binds (env.bound (succeeded p))).umounts env.reaches ps).entries
      = t.entries
    ↔ ∃ ks, ((ps.filter (· ≠ [])).map place).Perm ((aimed D (succeeded p)).map place ++ ks)
      ∧ ∀ k ∈ ks, Layers.starts Entry.node k t.entries = false := by
  rw [umounts_named, ← h.bound_eq hreg]
  exact Table.restored_iff_of_apart h.antichain (h.reaches_eq hps) (h.bound_mem hreg)
    fun d hd => Set.mem_image_of_mem place (reached_of_mem hps d hd)

/-- **No mount made is left** exactly when each destination is unmounted as often as it was
bound. -/
theorem cleared_iff : (∀ x ∈ ((t.binds (env.bound (succeeded p))).umounts env.reaches ps).entries,
      x.id < t.next)
    ↔ ((aimed D (succeeded p)).map place).Subperm ((ps.filter (· ≠ [])).map place) := by
  rw [umounts_named, ← h.bound_eq hreg]
  exact Table.cleared_iff_of_apart h.antichain (h.reaches_eq hps) (h.bound_mem hreg)
    fun d hd => Set.mem_image_of_mem place (reached_of_mem hps d hd)

omit hps

/-- Without unmounting, what is bound is left. -/
theorem not_cleared {d : Str} (hd : d ∈ aimed D (succeeded p)) :
    ¬∀ x ∈ ((t.binds (env.bound (succeeded p))).umounts env.reaches []).entries, x.id < t.next := by
  rw [h.cleared_iff hreg (by simp)]
  intro hle
  have hnil := List.length_eq_zero_iff.mp (Nat.le_zero.mp hle.length_le)
  rw [List.map_eq_nil_iff] at hnil
  rw [hnil] at hd
  cases hd

/-- **A label that unmounts all that was recorded**, and `us` besides. -/
theorem restored_iff_of_perm {us known : List Str} (he : firstFailure p = some e)
    (hus : ∀ d ∈ us, d ∈ aimed D (p.map (·.1)) ++ more)
    (hknown : known.Perm (copied D (fun _ => true) (succeeded p))) :
    ((t.binds (env.bound (succeeded p))).umounts env.reaches (us ++ known)).entries = t.entries
      ↔ ∃ ks, ((us.filter (· ≠ [])).map place).Perm
          ((if e.unrecorded then [place (D e)] else []) ++ ks)
        ∧ ∀ k ∈ ks, Layers.starts Entry.node k t.entries = false := by
  have hmem : ∀ d ∈ us ++ known, d ≠ [] → d ∈ aimed D (p.map (·.1)) ++ more := by
    intro d hd _
    rcases List.mem_append.mp hd with hd | hd
    · exact hus d hd
    · exact List.mem_append_left _ (hreg.copied_subset he _ (hknown.subset hd))
  have hnamed : known.filter (· ≠ []) = known :=
    List.filter_eq_self.mpr fun d hd => by simpa using hreg.copied_ne he _ d (hknown.subset hd)
  have hlast : (if e.unrecorded then [D e] else []).map place
      = if e.unrecorded then [place (D e)] else [] := by
    split_ifs <;> rfl
  rw [h.restored_iff hreg hmem, List.filter_append, hnamed, hreg.part e he, List.map_append,
    List.map_append, hlast]
  refine exists_congr fun ks => and_congr_left fun _ => ?_
  rw [List.append_assoc]
  exact perm_append_iff (hknown.map place)

/-- **A label that unmounts some of what was recorded**, and `us` besides. -/
theorem cleared_iff_of_perm {us known lost : List Str} (he : firstFailure p = some e)
    (hus : ∀ d ∈ us, d ∈ aimed D (p.map (·.1)) ++ more)
    (hknown : (copied D (fun _ => true) (succeeded p)).Perm (known ++ lost)) :
    (∀ x ∈ ((t.binds (env.bound (succeeded p))).umounts env.reaches (us ++ known)).entries,
      x.id < t.next) ↔ (lost.map place ++ if e.unrecorded then [place (D e)] else []).Subperm
        ((us.filter (· ≠ [])).map place) := by
  have hrecorded : ∀ d ∈ known, d ∈ copied D (fun _ => true) (succeeded p) := fun d hd =>
    hknown.symm.subset (List.mem_append_left lost hd)
  have hmem : ∀ d ∈ us ++ known, d ≠ [] → d ∈ aimed D (p.map (·.1)) ++ more := by
    intro d hd _
    rcases List.mem_append.mp hd with hd | hd
    · exact hus d hd
    · exact List.mem_append_left _ (hreg.copied_subset he _ (hrecorded d hd))
  have hnamed : known.filter (· ≠ []) = known :=
    List.filter_eq_self.mpr fun d hd => by simpa using hreg.copied_ne he _ d (hrecorded d hd)
  have hlast : (if e.unrecorded then [D e] else []).map place
      = if e.unrecorded then [place (D e)] else [] := by
    split_ifs <;> rfl
  have hmap : ((copied D (fun _ => true) (succeeded p)).map place).Perm
      (known.map place ++ lost.map place) := by
    rw [← List.map_append]
    exact hknown.map place
  rw [h.cleared_iff hreg hmem, List.filter_append, hnamed, hreg.part e he, List.map_append,
    List.map_append, hlast, (hmap.append_right _).subperm_right, List.append_assoc,
    List.perm_append_comm.subperm_left, List.subperm_append_left]

end Faults.Apart

end Left

end Mount
