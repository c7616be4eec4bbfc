import XdxContainer.Mount.Code
import XdxContainer.Mount.Table

/-!
# Mount/Faults — the mount functions when any of their steps may fail

`Faults` decides for every step whether it fails, what the paths resolve to, where a bind mounts and
where a path leads when it is unmounted, which may depend on what is mounted then.  The state is the
mount table alone.  Each mount function follows a plan (`Traced`):

    steps  s₁ … sₙ │ e        the mounts of s₁ … sₙ are made (`Faults.bound`),
                     ╰ fails  then the labels unmount, path by path

so that a failed call is a row of mounts and then a row of unmountings.  Which of these give the
table back is a question about the table (`Mount/Table`).
-/

open Paths Fs Fallible

namespace Mount

/-! ## The environment -/

/-- How the steps of a call turn out. -/
structure Faults where
  fails : Step → Bool
  /-- `path_resolve_full`: whether it succeeds, and what is in the buffer then. -/
  resolved : Step → Bool × Str
  /-- What resolves starts with the root, which is not empty. -/
  resolved_ne : ∀ e, (resolved e).1 = true → (resolved e).2 ≠ []
  modeOf : Step → Mode
  rdevOf : Step → Dev
  names : List Name
  capNode : Step → DeviceNode
  hasNvcaps : Bool
  /-- The location a bind mounts at: where its destination leads then. -/
  target : Step → Loc
  /-- The location a path leads to when it is unmounted with these mounts in place, if any. -/
  leads : List (Entry Name) → Str → Option Loc

/-- The system in which the steps turn out so. -/
def Faults.host (env : Faults) : Host (Table Name) where
  pathResolveFull e _ _ _ _ := env.resolved e
  fileMode e _ _ := if env.fails e then none else some (env.modeOf e)
  xstat e _ _ := if env.fails e then none else some (env.rdevOf e)
  fileCreate e _ _ _ t := (!env.fails e, t)
  mount e _ _ t := if env.fails e then (false, t) else (true, t.bind (env.target e))
  remount e _ _ t := (!env.fails e, t)
  alloc e _ := !env.fails e
  umount2 p t := t.umount env.leads p
  fileRemove _ t := t
  nsEnter e t := (!env.fails e, t)
  nsEnterAt e t := (!env.fails e, t)
  setupDeviceCgroup e _ t := (!env.fails e, t)
  updateAppProfile e _ t := (!env.fails e, t)
  readDir e _ _ := if env.fails e then none else some env.names
  nvcapsDevice e _ _ := if env.fails e then none else some (env.capNode e)
  hasNvcaps _ := env.hasNvcaps

/-- Steps whose outcome the environment decides. -/
def Faults.plan (env : Faults) (call : Call) (i : ℕ) (ops : List Op) : List (Step × Bool) :=
  ops.map fun op => (⟨call, op, i⟩, env.fails ⟨call, op, i⟩)

/-- The destination of a call that resolves it. -/
def Faults.dst (env : Faults) (call : Call) : Str := (env.resolved ⟨call, .resolve, 0⟩).2

/-- Where `mount_files` mounts a path. -/
def fileDst (dst path : Str) : Str := (pathAppend dst (basename path)).2

/-- The destination of a step, in an operation whose calls of `mount_files` take these paths. -/
def Faults.dstOf (env : Faults) (files : Call → Option (List Str)) (e : Step) : Str :=
  match files e.call with
  | some paths => fileDst (env.dst e.call) (paths.getD e.item [])
  | none => env.dst e.call

/-! ## What steps have done -/

/-- The steps of a plan before the first that fails. -/
def succeeded (p : List (Step × Bool)) : List Step := (p.takeWhile (!·.2)).map (·.1)

/-- The locations mounted at in these steps. -/
def Faults.bound (env : Faults) (s : List Step) : List Loc :=
  (s.filter (·.op = .bind)).map env.target

/-- The destinations recorded in these steps of these calls. -/
def copied (dst : Step → Str) (calls : Call → Bool) (s : List Step) : List Str :=
  (s.filter fun e => e.op = .strdup && calls e.call).map dst

section Steps

variable {p q : List (Step × Bool)} {e : Step} {s s' : List Step} {dst : Step → Str}
  {calls : Call → Bool} {env : Faults}

@[simp] theorem succeeded_cons_true (e : Step) (p : List (Step × Bool)) :
    succeeded ((e, true) :: p) = [] := rfl

@[simp] theorem succeeded_cons_false (e : Step) (p : List (Step × Bool)) :
    succeeded ((e, false) :: p) = e :: succeeded p := rfl

/-- Behind a plan that is done come the steps of the next. -/
theorem succeeded_append_of_done (h : firstFailure p = none) :
    succeeded (p ++ q) = p.map (·.1) ++ succeeded q := by
  induction p with
  | nil => rfl
  | cons x p ih =>
    obtain ⟨e, _ | _⟩ := x
    · exact congrArg (e :: ·) (ih h)
    · cases h

/-- A plan without a failure is done. -/
theorem succeeded_of_done (h : firstFailure p = none) : succeeded p = p.map (·.1) := by
  have happend := succeeded_append_of_done (q := []) h
  rwa [List.append_nil, show succeeded [] = [] from rfl, List.append_nil] at happend

/-- Nothing comes behind a failure. -/
theorem succeeded_append_of_failed (h : firstFailure p = some e) :
    succeeded (p ++ q) = succeeded p := by
  induction p with
  | nil => cases h
  | cons x p ih =>
    obtain ⟨e, _ | _⟩ := x
    · exact congrArg (e :: ·) (ih h)
    · rfl

/-- **Where a plan in two parts fails.** -/
theorem firstFailure_append_cases (h : firstFailure (p ++ q) = some e) :
    (firstFailure p = some e ∧ succeeded (p ++ q) = succeeded p)
      ∨ (firstFailure p = none ∧ firstFailure q = some e
        ∧ succeeded (p ++ q) = p.map (·.1) ++ succeeded q) := by
  rcases hp : firstFailure p with _ | e'
  · rw [firstFailure_append, hp] at h
    exact .inr ⟨rfl, h, succeeded_append_of_done hp⟩
  · rw [firstFailure_append, hp] at h
    obtain rfl := Option.some.inj h
    exact .inl ⟨rfl, succeeded_append_of_failed hp⟩

/-- The binds of two parts. -/
theorem bound_append (s s' : List Step) : env.bound (s ++ s') = env.bound s ++ env.bound s' := by
  rw [Faults.bound, List.filter_append, List.map_append, Faults.bound, Faults.bound]

/-- What two parts have recorded. -/
theorem copied_append (s s' : List Step) :
    copied dst calls (s ++ s') = copied dst calls s ++ copied dst calls s' := by
  rw [copied, List.filter_append, List.map_append, copied, copied]

/-- Steps that bind nothing. -/
theorem bound_eq_nil (h : ∀ e ∈ s, e.op ≠ .bind) : env.bound s = [] := by
  rw [Faults.bound, List.map_eq_nil_iff, List.filter_eq_nil_iff]
  simpa using h

/-- Steps that record nothing of these calls. -/
theorem copied_eq_nil (h : ∀ e ∈ s, e.op = .strdup → calls e.call = false) :
    copied dst calls s = [] := by
  rw [copied, List.map_eq_nil_iff, List.filter_eq_nil_iff]
  simpa using h

/-- What is recorded of some calls, and of those among them. -/
theorem copied_perm (dst : Step → Str) (calls some : Call → Bool) (s : List Step) :
    (copied dst (fun c => calls c && some c) s ++ copied dst (fun c => calls c && !some c) s).Perm
      (copied dst calls s) := by
  have hsplit (f : Call → Bool) : s.filter (fun e => e.op = .strdup && (calls e.call && f e.call))
      = (s.filter fun e => e.op = .strdup && calls e.call).filter fun e => f e.call := by
    rw [List.filter_filter]
    refine List.filter_congr fun e _ => ?_
    rw [Bool.and_comm (f e.call), Bool.and_assoc]
  rw [copied, copied, hsplit, hsplit fun c => !some c, ← List.map_append]
  exact (List.filter_append_perm (fun e : Step => some e.call) _).map dst

/-- What is recorded in the steps of one call. -/
theorem copied_of_call {call : Call} (h : ∀ x ∈ p, x.1.call = call) (hs : s ⊆ p.map (·.1)) :
    copied dst calls s = if calls call then copied dst (fun _ => true) s else [] := by
  have hcalls : copied dst calls s = copied dst (fun _ => calls call) s := by
    refine congrArg (List.map dst) (List.filter_congr fun e he => ?_)
    obtain ⟨x, hx, rfl⟩ := List.mem_map.mp (hs he)
    rw [h x hx]
  rw [hcalls]
  split_ifs with hcall
  · rw [hcall]
  · exact copied_eq_nil fun _ _ _ => eq_false_of_ne_true hcall

theorem copied_own {call : Call} (h : ∀ x ∈ p, x.1.call = call) (hs : s ⊆ p.map (·.1)) :
    copied dst (· = call) s = copied dst (fun _ => true) s := by
  rw [copied_of_call h hs, if_pos (decide_eq_true rfl)]

/-- Nothing of a call is recorded in these steps. -/
def Unlisted (call : Call) (s : List Step) : Prop := ∀ e ∈ s, e.op = .strdup → e.call ≠ call

namespace Unlisted

variable {call call' : Call}

/-- A call that neither part lists. -/
theorem append (h : Unlisted call s) (h' : Unlisted call s') : Unlisted call (s ++ s') :=
  fun e he => (List.mem_append.mp he).elim (h e) (h' e)

/-- A plan of one call lists no other. -/
theorem of_call (h : ∀ x ∈ p, x.1.call = call') (hne : call' ≠ call) :
    Unlisted call (p.map (·.1)) := by
  intro e he _ hcall
  obtain ⟨x, hx, rfl⟩ := List.mem_map.mp he
  exact hne ((h x hx).symm.trans hcall)

/-- Nothing is recorded of a call that is not listed. -/
theorem copied_eq_nil (h : Unlisted call s) : copied dst (· = call) s = [] :=
  Mount.copied_eq_nil fun e he hop => by simpa using h e he hop

theorem copied_ne (h : Unlisted call s) :
    copied dst (· ≠ call) s = copied dst (fun _ => true) s := by
  refine congrArg (List.map dst) (List.filter_congr fun e he => ?_)
  by_cases hop : e.op = .strdup
  · simp [hop, h e he hop]
  · simp [hop]

end Unlisted

end Steps

/-! ## Traced programs -/

/-- Where a path leads when `unmount` is called on it; an empty path is not looked up. -/
def Faults.reaches (env : Faults) (l : List (Entry Name)) (p : Str) : Option Loc :=
  if p = [] then none else env.leads l p

/-- **The program takes the steps of the plan**, behind the steps `s`: the mounts made are those of
the steps taken, and where a step fails the paths `U` are unmounted. -/
def Traced {α : Type} (env : Faults) (U : List Step → Step → List Str) (t₀ : Table Name)
    (s : List Step) (m : Prog Step (Table Name) α) (p : List (Step × Bool)) (a : α) : Prop :=
  Follows m p (t₀.binds (env.bound s)) a (t₀.binds (env.bound (s ++ p.map (·.1))))
    fun e t => t = (t₀.binds (env.bound (s ++ succeeded p))).umounts env.reaches
      (U (s ++ succeeded p) e)

variable {env : Faults} {t₀ : Table Name} {U V : List Step → Step → List Str} {s : List Step}

namespace Traced

variable {α β : Type} {m : Prog Step (Table Name) α} {f : α → Prog Step (Table Name) β}
  {p q : List (Step × Bool)} {a : α} {b : β}

/-- Nothing is done. -/
theorem pure (a : α) : Traced env U t₀ s (Pure.pure a) [] a := by
  rw [Traced, List.map_nil, List.append_nil]
  exact Follows.pure a _ _

theorem bind_of_done (hm : Traced env U t₀ s m p a)
    (hf : firstFailure p = none → Traced env U t₀ (s ++ p.map (·.1)) (f a) q b) :
    Traced env U t₀ s (m >>= f) (p ++ q) b := by
  rw [Traced, List.map_append, ← List.append_assoc]
  have hfirst : Follows m p (t₀.binds (env.bound s)) a (t₀.binds (env.bound (s ++ p.map (·.1))))
      fun e t => t = (t₀.binds (env.bound (s ++ succeeded (p ++ q)))).umounts env.reaches
        (U (s ++ succeeded (p ++ q)) e) := by
    refine Follows.mono hm fun e t he ht => ?_
    rwa [succeeded_append_of_failed he]
  refine hfirst.bind_of_done fun hdone => ?_
  rw [succeeded_append_of_done hdone, ← List.append_assoc]
  exact hf hdone

/-- The plans of a sequence, one behind the other. -/
theorem bind (hm : Traced env U t₀ s m p a)
    (hf : Traced env U t₀ (s ++ p.map (·.1)) (f a) q b) :
    Traced env U t₀ s (m >>= f) (p ++ q) b :=
  hm.bind_of_done fun _ => hf

theorem bind_pure (hm : Traced env U t₀ s m p a) (g : α → β) :
    Traced env U t₀ s (m >>= fun x => Pure.pure (g x)) p (g a) :=
  Follows.bind_pure hm g

/-- Only what is unmounted when a step of the plan fails matters. -/
theorem congr (hm : Traced env U t₀ s m p a)
    (h : ∀ e, firstFailure p = some e → V (s ++ succeeded p) e = U (s ++ succeeded p) e) :
    Traced env V t₀ s m p a := by
  refine Follows.mono hm fun e t he ht => ?_
  rwa [h e he]

/-- Unmounting more paths when the program fails. -/
theorem onError {clean : Table Name → Table Name} {ps : List Str} (hm : Traced env U t₀ s m p a)
    (hclean : ∀ t, clean t = t.umounts env.reaches ps)
    (h : ∀ e, firstFailure p = some e →
      V (s ++ succeeded p) e = U (s ++ succeeded p) e ++ ps) :
    Traced env V t₀ s (Fallible.onError m clean) p a := by
  refine Follows.onError hm fun e t he ht => ?_
  rw [hclean, ht, h e he, Table.umounts_append]

/-- A clean-up that leaves the table alone. -/
theorem onError_idle {clean : Table Name → Table Name} (hm : Traced env U t₀ s m p a)
    (hclean : ∀ t, clean t = t)
    (h : ∀ e, firstFailure p = some e → V (s ++ succeeded p) e = U (s ++ succeeded p) e) :
    Traced env V t₀ s (Fallible.onError m clean) p a := by
  have hnone : ∀ t, clean t = t.umounts env.reaches [] := hclean
  exact hm.onError hnone fun e he => (h e he).trans (List.append_nil _).symm

/-- A step that does not mount. -/
theorem of_follows {e : Step} {fails : Bool} (hop : e.op ≠ .bind)
    (hm : ∀ t, Follows m [(e, fails)] t a t fun _ t' => t' = t)
    (hU : fails = true → U s e = []) : Traced env U t₀ s m [(e, fails)] a := by
  have hstep : env.bound [e] = [] := bound_eq_nil (by simpa using hop)
  have hend : env.bound (s ++ [(e, fails)].map (·.1)) = env.bound s := by
    rw [List.map_singleton, bound_append, hstep, List.append_nil]
  rw [Traced, hend]
  refine (hm _).mono fun e' t he ht => ?_
  rcases fails
  · cases he
  · obtain rfl := Option.some.inj he
    rw [succeeded_cons_true, List.append_nil, hU rfl]
    exact ht

/-- A call that is not a bind. -/
theorem attempt {e : Step} {g : Table Name → Bool × Table Name} (hop : e.op ≠ .bind)
    (hg : ∀ t, g t = (!env.fails e, t)) (hU : U s e = []) :
    Traced env U t₀ s (Fallible.attempt e g) [(e, env.fails e)] () := by
  refine of_follows hop (fun t => ?_) fun _ => hU
  have h := Follows.attempt (U := fun _ t' => t' = t) (e := e) (hg t) fun _ => rfl
  rwa [Bool.not_not] at h

/-- A query. -/
theorem query {e : Step} {g : Table Name → Option α} (hop : e.op ≠ .bind)
    (hg : ∀ t, g t = if env.fails e then none else some a) (hU : U s e = []) :
    Traced env U t₀ s (Fallible.query e g) [(e, env.fails e)] a :=
  of_follows hop (fun t => Follows.query (hg t) fun _ => rfl) fun _ => hU

theorem require {e : Step} (ok : Bool) (hop : e.op ≠ .bind) (hU : U s e = []) :
    Traced env U t₀ s (Mount.require e ok) [(e, !ok)] () :=
  of_follows hop (fun _ => Follows.attempt rfl fun _ => rfl) fun _ => hU

theorem joined {e : Step} (r : Bool × Str) (hop : e.op ≠ .bind) (hU : U s e = []) :
    Traced env U t₀ s (Mount.joined e r) [(e, !r.1)] r.2 := by
  refine of_follows hop (fun t => Follows.query ?_ fun _ => rfl) fun _ => hU
  rcases r.1 <;> rfl

theorem resolve {e : Step} (root path : Str) (hop : e.op ≠ .bind) (hU : U s e = []) :
    Traced env U t₀ s (env.host.resolve e root path) [(e, !(env.resolved e).1)]
      (env.resolved e).2 := by
  refine of_follows hop (fun t => Follows.query ?_ fun _ => rfl) fun _ => hU
  simp only [Faults.host]
  rcases env.resolved e with ⟨_ | _, dst⟩ <;> rfl

theorem allocate {e : Step} (hop : e.op ≠ .bind) (hU : U s e = []) :
    Traced env U t₀ s (env.host.allocate e) [(e, env.fails e)] () :=
  attempt hop (fun _ => rfl) hU

theorem reading {g : Table Name → α} (hg : ∀ t, g t = a) :
    Traced env U t₀ s (Fallible.reading g) [] a := by
  rw [Traced, List.map_nil, List.append_nil, ← hg (t₀.binds (env.bound s))]
  exact Follows.reading g _ _

/-- A part that is run only under a condition. -/
theorem onlyIf {m : Prog Step (Table Name) Unit} (c : Bool)
    (hm : c = true → Traced env U t₀ s m p ()) :
    Traced env U t₀ s (Fallible.onlyIf c m) (if c then p else []) () := by
  rcases c
  · exact pure ()
  · exact hm rfl

/-- A part whose answer is kept only under a condition. -/
theorem optionally (c : Bool) (hm : c = true → Traced env U t₀ s m p a) :
    Traced env U t₀ s (Fallible.optionally c m) (if c then p else [])
      (if c then some a else none) := by
  rcases c
  · exact pure none
  · exact (hm rfl).bind_pure some

/-- A part that is left out under a condition. -/
theorem skipping {c : Prop} [Decidable c] {a₀ : α} (hc : c → a = a₀)
    (hm : ¬c → Traced env U t₀ s m p a) :
    Traced env U t₀ s (if c then Pure.pure a₀ else m) (if c then [] else p) a := by
  by_cases h : c
  · rw [if_pos h, if_pos h, hc h]
    exact pure a₀
  · rw [if_neg h, if_neg h]
    exact hm h

/-- **When every failure leaves what is asked for**: when what the first failing step leaves is. -/
theorem forall_error_iff {P : Table Name → Prop} {Q : Step → Prop} (hm : Traced env U t₀ [] m p a)
    (h : ∀ e, firstFailure p = some e →
      (P ((t₀.binds (env.bound (succeeded p))).umounts env.reaches (U (succeeded p) e)) ↔ Q e)) :
    (∀ e t, m t₀ = (.error e, t) → P t) ↔ ∀ e, firstFailure p = some e → Q e := by
  have hrun : Follows m p t₀ a _ fun e t => firstFailure p = some e
      ∧ t = (t₀.binds (env.bound (succeeded p))).umounts env.reaches (U (succeeded p) e) :=
    Follows.mono hm fun e t he ht => ⟨he, ht⟩
  refine hrun.forall_error_iff fun e t het => ?_
  obtain ⟨he, rfl⟩ := het
  exact h e he

end Traced

/-! ## Unmounting -/

theorem unmount_eq (p : Str) (t : Table Name) :
    env.host.unmount (some p) t = t.umounts env.reaches [p] := by
  by_cases hp : p = []
  · have hnone : t.umount env.reaches p = t := Table.umount_of_none fun l => if_pos hp
    rw [Sys.unmount, if_pos hp]
    exact hnone.symm
  · rw [Sys.unmount, if_neg hp]
    have hleads : env.leads t.entries p = env.reaches t.entries p := (if_neg hp).symm
    refine Table.ext ?_ rfl
    change (env.leads t.entries p).elim _ _ = (env.reaches t.entries p).elim _ _
    rw [hleads]

/-- The unmountings take mounts off the table. -/
theorem unmountAll_eq (mnt : List Str) (t : Table Name) :
    env.host.unmountAll mnt t = t.umounts env.reaches mnt := by
  induction mnt generalizing t with
  | nil => rfl
  | cons p mnt ih =>
    change env.host.unmountAll mnt (env.host.unmount (some p) t) = _
    rw [ih, unmount_eq]
    rfl

theorem unmount_opt_eq (m : Option Str) (t : Table Name) :
    env.host.unmount m t = t.umounts env.reaches m.toList := by
  rcases m with _ | p
  · rfl
  · exact unmount_eq p t

/-! ## Binding -/

/-- Nothing is unmounted. -/
def nothing : List Step → Step → List Str := fun _ _ => []

section Binding

variable {call : Call} {i : ℕ}

/-- The bind itself. -/
theorem traced_mount (src dst : Str) : Traced env nothing t₀ s
    (attempt ⟨call, .bind, i⟩ (env.host.mount ⟨call, .bind, i⟩ src dst))
    (env.plan call i [.bind]) () := by
  have hend : env.bound (s ++ (env.plan call i [.bind]).map (·.1))
      = env.bound s ++ [env.target ⟨call, .bind, i⟩] := by
    rw [bound_append]
    rfl
  rw [Traced, hend, Table.binds_append]
  rcases hfails : env.fails ⟨call, .bind, i⟩
  · refine ⟨fun _ => ?_, fun e he => ?_⟩
    · simp [attempt, Faults.host, hfails, Table.binds]
    · simp [Faults.plan, hfails] at he
  · refine ⟨fun h => ?_, fun e he => ?_⟩
    · simp [Faults.plan, hfails] at h
    · obtain rfl : ⟨call, .bind, i⟩ = e := by simpa [Faults.plan, hfails] using he
      refine ⟨t₀.binds (env.bound s), by simp [attempt, Faults.host, hfails], ?_⟩
      simp [Faults.plan, hfails, nothing, Table.umounts]

/-- Binding, setting the flags and copying the destination out. -/
theorem traced_bindAt (src dst : Str) (flags : MountFlags) : Traced env nothing t₀ s
    (env.host.bindAt call i src dst flags) (env.plan call i [.bind, .remount, .strdup]) dst :=
  (traced_mount src dst).bind ((Traced.attempt (by simp) (fun _ => rfl) rfl).bind
    ((Traced.allocate (by simp) rfl).bind (Traced.pure dst)))

end Binding

/-! ## Files -/

section Files

variable (env) (cnt : Container) (call : Call) (src dst : Str)

/-- The calls of one turn of `mount_files`, and which of them fail. -/
def filePlan (i : ℕ) (path : Str) : List (Step × Bool) :=
  (⟨call, .appendSrc, i⟩, !(pathAppend src path).1)
    :: (⟨call, .appendDst, i⟩, !(pathAppend dst (basename path)).1)
    :: env.plan call i [.mode, .create, .bind, .remount, .strdup]

/-- The calls for the paths that are selected. -/
def filesLoopPlan : ℕ → List Str → List (Step × Bool)
  | _, [] => []
  | i, path :: paths =>
    (if selected cnt path then filePlan env call src dst i path else [])
      ++ filesLoopPlan (i + 1) paths

/-- The calls of `mount_files`. -/
def filesPlan (root : Str) (paths : List Str) : List (Step × Bool) :=
  (⟨call, .pathSrc, 0⟩, !(pathNew root).1)
    :: (⟨call, .resolve, 0⟩, !(env.resolved ⟨call, .resolve, 0⟩).1)
    :: env.plan call 0 [.createDir, .arrayNew]
    ++ filesLoopPlan env cnt call (pathNew root).2 (env.dst call) 0 paths

/-- The destinations `mount_files` returns. -/
def filesMnt (paths : List Str) : List Str :=
  (paths.filter (selected cnt)).map (fileDst (env.dst call))

/-- The kinds of steps the mount functions take. -/
def Op.ofMount : Op → Bool
  | .validate | .nsEnter | .nsLeave | .arrayCopy | .search | .profile | .cgroup | .capLookup
  | .linkDup | .linkPath | .linkCreate => false
  | _ => true

variable {env cnt call src dst} {files : Call → Option (List Str)} {calls : Call → Bool}

theorem filesLoopPlan_call {i : ℕ} {paths : List Str} {x : Step × Bool}
    (hx : x ∈ filesLoopPlan env cnt call src dst i paths) :
    x.1.call = call ∧ x.1.op.ofMount = true := by
  induction paths generalizing i with
  | nil => simp [filesLoopPlan] at hx
  | cons path paths ih =>
    rw [filesLoopPlan] at hx
    rcases List.mem_append.mp hx with hx | hx
    · split_ifs at hx
      · simp only [filePlan, Faults.plan, List.map_cons, List.map_nil, List.mem_cons,
          List.not_mem_nil, or_false] at hx
        rcases hx with rfl | rfl | rfl | rfl | rfl | rfl | rfl <;> exact ⟨rfl, rfl⟩
      · simp at hx
    · exact ih hx

/-- The steps of a plan are those of its call. -/
theorem filesPlan_call {root : Str} {paths : List Str} {x : Step × Bool}
    (hx : x ∈ filesPlan env cnt call root paths) : x.1.call = call ∧ x.1.op.ofMount = true := by
  rw [filesPlan] at hx
  rcases List.mem_append.mp hx with hx | hx
  · simp only [Faults.plan, List.map_cons, List.map_nil, List.mem_cons, List.not_mem_nil,
      or_false] at hx
    rcases hx with rfl | rfl | rfl | rfl <;> exact ⟨rfl, rfl⟩
  · exact filesLoopPlan_call hx

/-- Where a plan fails whose last step alone records a destination, nothing is recorded. -/
theorem copied_succeeded_eq_nil {p : List (Step × Bool)} {x : Step × Bool} {e : Step}
    {D : Step → Str} (hp : ∀ y ∈ p, y.1.op ≠ .strdup) (h : firstFailure (p ++ [x]) = some e) :
    copied D calls (succeeded (p ++ [x])) = [] := by
  refine copied_eq_nil fun e' he' hop => ?_
  have hmem : e' ∈ p.map (·.1) := by
    rcases hdone : firstFailure p with _ | e''
    · rw [succeeded_append_of_done hdone] at he'
      rcases List.mem_append.mp he' with he' | he'
      · exact he'
      · obtain ⟨e₁, _ | _⟩ := x
        · rw [firstFailure_append, hdone] at h
          cases h
        · cases he'
    · rw [succeeded_append_of_failed hdone] at he'
      exact ((List.takeWhile_sublist _).map _).subset he'
  obtain ⟨y, hy, rfl⟩ := List.mem_map.mp hmem
  exact absurd hop (hp y hy)

/-- One turn of `mount_files`. -/
theorem traced_mountFile (i : ℕ) (path : Str) : Traced env nothing t₀ s
    (mountFile env.host.toSys call src dst i path) (filePlan env call src dst i path)
    (fileDst dst path) :=
  (Traced.joined _ (by simp) rfl).bind ((Traced.joined _ (by simp) rfl).bind
    ((Traced.query (by simp) (fun _ => rfl) rfl).bind
    ((Traced.attempt (by simp) (fun _ => rfl) rfl).bind (traced_bindAt _ (fileDst dst path) _))))

/-- **The loop of `mount_files`**: a failure unmounts what was recorded. -/
theorem traced_mountFilesLoop {D : Step → Str} (i : ℕ) (paths mnt : List Str)
    (hD : ∀ j path, paths[j]? = some path → D ⟨call, .strdup, i + j⟩ = fileDst dst path)
    (hmnt : copied D (· = call) s = mnt) : Traced env (fun s _ => copied D (· = call) s) t₀ s
      (mountFilesLoop env.host.toSys cnt call src dst i mnt paths)
      (filesLoopPlan env cnt call src dst i paths)
      (mnt ++ (paths.filter (selected cnt)).map (fileDst dst)) := by
  induction paths generalizing i mnt s with
  | nil =>
    rw [List.filter_nil, List.map_nil, List.append_nil]
    exact Traced.pure mnt
  | cons path paths ih =>
    have hD' : ∀ j path, paths[j]? = some path →
        D ⟨call, .strdup, i + 1 + j⟩ = fileDst dst path := by
      intro j path hj
      rw [Nat.add_right_comm]
      exact hD (j + 1) path hj
    rw [mountFilesLoop, filesLoopPlan]
    by_cases hsel : selected cnt path = true
    · rw [if_pos hsel, if_pos hsel, List.filter_cons_of_pos hsel, List.map_cons, List.append_cons]
      refine ((traced_mountFile i path).onError (unmountAll_eq mnt) fun e he => ?_).bind
        (ih (i + 1) _ hD' ?_)
      · have hnone : copied D (· = call) (succeeded (filePlan env call src dst i path)) = [] :=
          copied_succeeded_eq_nil (p := (filePlan env call src dst i path).dropLast)
            (by simp [filePlan, Faults.plan]) he
        rw [copied_append, hnone, hmnt, nothing]
        simp
      · rw [copied_append, hmnt, ← hD 0 path rfl]
        simp [copied, filePlan, Faults.plan]
    · rw [if_neg hsel, if_neg hsel, List.filter_cons_of_neg hsel, List.nil_append]
      exact ih (i + 1) mnt hD' hmnt

/-- **`mount_files`.** -/
theorem traced_mountFiles (root dir : Str) {paths : List Str} (hfiles : files call = some paths)
    (hnew : Unlisted call s) : Traced env (fun s _ => copied (env.dstOf files) (· = call) s) t₀ s
      (mountFiles env.host.toSys cnt call root dir paths) (filesPlan env cnt call root paths)
      (filesMnt env cnt call paths) := by
  have hU (e : Step) (s' : List Step) (h : copied (env.dstOf files) (· = call) s' = [])
      (hop : e.op ≠ .strdup) : copied (env.dstOf files) (· = call) (s' ++ [e]) = [] := by
    rw [copied_append, h, copied_eq_nil (by simpa using fun h => absurd h hop), List.append_nil]
  have hD : ∀ j path, paths[j]? = some path →
      env.dstOf files ⟨call, .strdup, 0 + j⟩ = fileDst (env.dst call) path := by
    intro j path hj
    simp [Faults.dstOf, hfiles, hj]
  have hs : copied (env.dstOf files) (· = call) s = [] := hnew.copied_eq_nil
  have h₁ := hU ⟨call, .pathSrc, 0⟩ s hs (by simp)
  have h₂ := hU ⟨call, .resolve, 0⟩ _ h₁ (by simp)
  have h₃ := hU ⟨call, .createDir, 0⟩ _ h₂ (by simp)
  have h₄ := hU ⟨call, .arrayNew, 0⟩ _ h₃ (by simp)
  exact (Traced.joined _ (by simp) hs).bind ((Traced.resolve _ _ (by simp) h₁).bind
    ((Traced.attempt (by simp) (fun _ => rfl) h₂).bind ((Traced.allocate (by simp) h₃).bind
    (traced_mountFilesLoop 0 paths [] hD h₄))))

/-- What the loop records are the files it mounts. -/
theorem copied_filesLoopPlan {D : Step → Str} (i : ℕ) (paths : List Str)
    (hD : ∀ j path, paths[j]? = some path → D ⟨call, .strdup, i + j⟩ = fileDst dst path) :
    copied D (fun _ => true) ((filesLoopPlan env cnt call src dst i paths).map (·.1))
      = (paths.filter (selected cnt)).map (fileDst dst) := by
  induction paths generalizing i with
  | nil => rfl
  | cons path paths ih =>
    have hrest := ih (i + 1) fun j path hj => by
      rw [Nat.add_right_comm]
      exact hD (j + 1) path hj
    rw [filesLoopPlan, List.map_append, copied_append, hrest]
    by_cases hsel : selected cnt path = true
    · rw [if_pos hsel, List.filter_cons_of_pos hsel, List.map_cons, ← hD 0 path rfl]
      simp [copied, filePlan, Faults.plan]
    · rw [if_neg hsel, List.filter_cons_of_neg hsel]
      simp [copied]

/-- What a call of `mount_files` records. -/
theorem copied_filesPlan {root : Str} {paths : List Str} (hfiles : files call = some paths) :
    copied (env.dstOf files) (fun _ => true) ((filesPlan env cnt call root paths).map (·.1))
      = filesMnt env cnt call paths := by
  have hloop : copied (env.dstOf files) (fun _ => true)
      ((filesLoopPlan env cnt call (pathNew root).2 (env.dst call) 0 paths).map (·.1))
      = filesMnt env cnt call paths := by
    refine copied_filesLoopPlan 0 paths fun j path hj => ?_
    simp [Faults.dstOf, hfiles, hj]
  rw [filesPlan, List.map_append, copied_append, hloop]
  simp [copied, Faults.plan]

end Files

/-! ## Devices and configuration -/

/-- The steps of a bind, from the bind itself on. -/
def Op.ofBind : Op → Bool
  | .bind | .remount | .strdup => true
  | _ => false

/-- The steps of `mount_config_file` behind the path of the source. -/
def Op.behindSrc : Op → Bool
  | .resolve | .mode | .create => true
  | op => op.ofBind

section Devices

variable (env) (cnt : Container) (call : Call)

/-- The calls of `mount_device`. -/
def devicePlan (root : Str) (dev : DeviceNode) : List (Step × Bool) :=
  (⟨call, .pathSrc, 0⟩, !(pathJoin root dev.path).1)
    :: (⟨call, .resolve, 0⟩, !(env.resolved ⟨call, .resolve, 0⟩).1)
    :: (⟨call, .stat, 0⟩, env.fails ⟨call, .stat, 0⟩)
    :: (⟨call, .rdev, 0⟩, !decide (env.rdevOf ⟨call, .stat, 0⟩ = dev.id))
    :: env.plan call 0 [.mode, .create, .bind, .remount, .strdup]

/-- The calls of `mount_config_file` and `mount_procfs_mig`. -/
def undoingPlan (root dir : Str) : List (Step × Bool) :=
  (⟨call, .pathSrc, 0⟩, !(pathJoin root dir).1)
    :: (⟨call, .resolve, 0⟩, !(env.resolved ⟨call, .resolve, 0⟩).1)
    :: env.plan call 0 [.mode, .create, .bind, .remount, .strdup]

/-- What the label of `mount_device` unmounts, whether or not the bind was made. -/
def deviceLabel (e : Step) : List Str := if e.op.ofBind then [env.dst e.call] else []

/-- What the label of `mount_config_file` unmounts, whether or not the bind was made. -/
def undoingLabel (e : Step) : List Str := if e.op.behindSrc then [env.dst e.call] else []

variable {env cnt call}

theorem devicePlan_call {root : Str} {dev : DeviceNode} {x : Step × Bool}
    (hx : x ∈ devicePlan env call root dev) : x.1.call = call ∧ x.1.op.ofMount = true := by
  simp only [devicePlan, Faults.plan, List.map_cons, List.map_nil, List.mem_cons, List.not_mem_nil,
    or_false] at hx
  rcases hx with rfl | rfl | rfl | rfl | rfl | rfl | rfl | rfl | rfl <;> exact ⟨rfl, rfl⟩

theorem undoingPlan_call {root dir : Str} {x : Step × Bool}
    (hx : x ∈ undoingPlan env call root dir) : x.1.call = call ∧ x.1.op.ofMount = true := by
  simp only [undoingPlan, Faults.plan, List.map_cons, List.map_nil, List.mem_cons, List.not_mem_nil,
    or_false] at hx
  rcases hx with rfl | rfl | rfl | rfl | rfl | rfl | rfl <;> exact ⟨rfl, rfl⟩

/-- What `mount_device` records. -/
theorem copied_devicePlan {files : Call → Option (List Str)} (hfiles : files call = none)
    (root : Str) (dev : DeviceNode) : copied (env.dstOf files) (fun _ => true)
      ((devicePlan env call root dev).map (·.1)) = [env.dst call] := by
  simp [copied, devicePlan, Faults.plan, Faults.dstOf, hfiles]

/-- A device that is not mounted is not recorded. -/
theorem copied_devicePlan_of_failed {D : Step → Str} {calls : Call → Bool} {root : Str}
    {dev : DeviceNode} {e : Step} (h : firstFailure (devicePlan env call root dev) = some e) :
    copied D calls (succeeded (devicePlan env call root dev)) = [] :=
  copied_succeeded_eq_nil (p := (devicePlan env call root dev).dropLast)
    (by simp [devicePlan, Faults.plan]) h

/-- What `mount_config_file` records. -/
theorem copied_undoingPlan {files : Call → Option (List Str)} (hfiles : files call = none)
    (root dir : Str) : copied (env.dstOf files) (fun _ => true)
      ((undoingPlan env call root dir).map (·.1)) = [env.dst call] := by
  simp [copied, undoingPlan, Faults.plan, Faults.dstOf, hfiles]

theorem copied_undoingPlan_of_failed {D : Step → Str} {calls : Call → Bool} {root dir : Str}
    {e : Step} (h : firstFailure (undoingPlan env call root dir) = some e) :
    copied D calls (succeeded (undoingPlan env call root dir)) = [] :=
  copied_succeeded_eq_nil (p := (undoingPlan env call root dir).dropLast)
    (by simp [undoingPlan, Faults.plan]) h

/-- **`mount_device`.** -/
theorem traced_mountDevice (root : Str) (dev : DeviceNode) :
    Traced env (fun _ e => deviceLabel env e) t₀ s (mountDevice env.host.toSys cnt call root dev)
      (devicePlan env call root dev) (env.dst call) := by
  refine (Traced.joined _ (by simp) rfl).bind ((Traced.resolve _ _ (by simp) rfl).bind
    ((Traced.query (by simp) (fun _ => rfl) rfl).bind ((Traced.require _ (by simp) rfl).bind
    ((Traced.query (by simp) (fun _ => rfl) rfl).bind
    ((Traced.attempt (by simp) (fun _ => rfl) rfl).bind
    ((traced_bindAt _ _ _).onError (unmount_eq _) fun e he => ?_))))))
  obtain ⟨op, hop, hstep⟩ := List.mem_map.mp (mem_of_firstFailure he)
  obtain ⟨rfl, -⟩ := Prod.mk.inj hstep
  simp only [List.mem_cons, List.not_mem_nil, or_false] at hop
  rcases hop with rfl | rfl | rfl <;> rfl

/-- What comes behind the resolution of the destination. -/
theorem traced_createAndBind (flags : MountFlags) (src dst : Str) : Traced env nothing t₀ s
    (createAndBind env.host.toSys flags call (env.resolved ⟨call, .resolve, 0⟩).1 src dst)
    ((⟨call, .resolve, 0⟩, !(env.resolved ⟨call, .resolve, 0⟩).1)
      :: env.plan call 0 [.mode, .create, .bind, .remount, .strdup]) dst :=
  (Traced.require _ (by simp) rfl).bind ((Traced.query (by simp) (fun _ => rfl) rfl).bind
    ((Traced.attempt (by simp) (fun _ => rfl) rfl).bind (traced_bindAt _ _ _)))

/-- **`mount_config_file` and `mount_procfs_mig`.** -/
theorem traced_mountUndoing (flags : MountFlags) (root dir : Str) :
    Traced env (fun _ e => undoingLabel env e) t₀ s
      (mountUndoing env.host.toSys cnt flags call root dir) (undoingPlan env call root dir)
      (env.dst call) := by
  have hsrc : Traced env (fun _ e => undoingLabel env e) t₀ s
      (onError (joined ⟨call, .pathSrc, 0⟩ (pathJoin root dir)) (env.host.unmount (some [])))
      [(⟨call, .pathSrc, 0⟩, !(pathJoin root dir).1)] (pathJoin root dir).2 := by
    refine (Traced.joined (U := nothing) _ (by simp) rfl).onError_idle (fun _ => rfl)
      fun e he => ?_
    obtain ⟨rfl, -⟩ := Prod.mk.inj (List.mem_singleton.mp (mem_of_firstFailure he))
    rfl
  refine hsrc.bind ((Traced.reading fun _ => rfl).bind ?_)
  refine (traced_createAndBind flags _ (env.dst call)).onError (unmount_eq _) fun e he => ?_
  rcases List.mem_cons.mp (mem_of_firstFailure he) with hstep | hmem
  · obtain ⟨rfl, -⟩ := Prod.mk.inj hstep
    rfl
  · obtain ⟨op, hop, hstep⟩ := List.mem_map.mp hmem
    obtain ⟨rfl, -⟩ := Prod.mk.inj hstep
    simp only [List.mem_cons, List.not_mem_nil, or_false] at hop
    rcases hop with rfl | rfl | rfl | rfl | rfl <;> rfl

end Devices

end Mount
