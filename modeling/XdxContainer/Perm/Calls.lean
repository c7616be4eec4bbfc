import XdxContainer.Perm.Kernel

/-!
# Perm/Calls — the functions of the library that change capabilities

    perm_set_capabilities    cap_get_proc ──▸ one set replaced ──▸ cap_set_proc
    perm_set_bounds          0, 1, …, last capability: those not kept are dropped
    set_fsugid               filesystem IDs, and CAP_DAC_OVERRIDE given back

`utils.c`, on a task.  A call fails where the kernel's rules do not let it through, and for whatever
other reason: `k` has the `errno` of those that do.
-/

open Fallible Relation

namespace Perm

/-- The operation is not permitted. -/
def EPERM : ℤ := 1

/-- An argument is invalid. -/
def EINVAL : ℤ := 22

/-- The last capability the library was built with. -/
def CAP_LAST_CAP : Cap := 40

/-- The calls that may fail. -/
inductive PermCall
  | getProc
  /-- One of the calls that change a `cap_t`. -/
  | edit
  | setProc
  | ambientClear
  | ambientRaise (c : Cap)
  | readLastCap
  | capbsetDrop (c : Cap)
  | setfsgid
  deriving DecidableEq

/-- `cap_flag_t`, with `CAP_AMBIENT`. -/
inductive Flag
  | effective
  | permitted
  | inheritable
  | ambient
  deriving DecidableEq

section Calls

/-- A call that changes the task where the kernel lets it through. -/
def ruled {κ : Type} (k : κ → Option ℤ) (e : κ) (f : Task → Option Task) :
    Prog ℤ Task Unit := fun t =>
  match k e with
  | some errno => (.error errno, t)
  | none =>
    match f t with
    | some t' => (.ok (), t')
    | none => (.error EPERM, t)

/-- A call that changes nothing of the task. -/
def unruled {κ : Type} (k : κ → Option ℤ) (e : κ) : Prog ℤ Task Unit := ruled k e some

variable (k : PermCall → Option ℤ)

/-- A failure with `EINVAL` is none. -/
def tolerating (m : Prog ℤ Task Unit) : Prog ℤ Task Unit := fun t =>
  match m t with
  | (.error errno, t') => if errno = EINVAL then (.ok (), t') else (.error errno, t')
  | (.ok (), t') => (.ok (), t')

/-- One of the three sets of a `cap_t`. -/
def CapState.put (s : CapState) (f : Flag) (set : Finset Cap) : CapState :=
  match f with
  | .effective => { s with effective := set }
  | .permitted => { s with permitted := set }
  | .inheritable => { s with inheritable := set }
  | .ambient => s

/-- The effective set for a permitted set: each capability as it was. -/
def effectiveAsIn (tmp : CapState) (caps : List Cap) : Finset Cap :=
  caps.foldl (fun e c => if c ∈ tmp.effective then insert c e else e.erase c) ∅

/-- `perm_set_capabilities`. -/
def permSetCapabilities (type : Flag) (caps : List Cap) : Prog ℤ Task Unit :=
  if type = .ambient then do
    tolerating (ruled k .ambientClear fun t => some { t with caps := t.caps.ambientClear })
    caps.forM fun c => tolerating (ruled k (.ambientRaise c) fun t =>
      if t.securebits.noAmbientRaise then none
      else (t.caps.ambientRaise c).map fun c => { t with caps := c })
  else do
    unruled k .getProc
    let state ← reading (·.caps.state)
    unruled k .edit
    let state := (state.put type ∅).put type caps.toFinset
    let state :=
      if type = .permitted then state.put .effective (effectiveAsIn state caps) else state
    ruled k .setProc fun t => (t.caps.capset state).map fun c => { t with caps := c }

/-- The last capability there is, by what the kernel says and by what the library knows. -/
def lastCapOf (n : ℕ) : Cap := if CAP_LAST_CAP < n ∧ n < 2 ^ 31 then n else CAP_LAST_CAP

/-- `perm_set_bounds`, where the kernel says that its last capability is `n`. -/
def permSetBounds (n : ℕ) (caps : List Cap) : Prog ℤ Task Unit := do
  unruled k .readLastCap
  (List.range (lastCapOf n + 1)).forM fun c =>
    if c ∈ caps then pure ()
    else do
      let bounding ← reading (·.caps.bounding)
      onlyIf (c ∈ bounding) (ruled k (.capbsetDrop c) fun t =>
        (t.caps.capbsetDrop c).map fun c => { t with caps := c })

/-- `setfsuid`: where it is not let through, nothing happens. -/
def setfsuid (id : Id) (t : Task) : Task :=
  if id ≠ UNCHANGED ∧ t.MaySetFsuid id then t.setFsuid id else t

/-- `set_fsugid`; whether the group ID could be set is for `k` to say. -/
def setFsugid (uid : Id) : Prog ℤ Task Unit := do
  unruled k .setfsgid
  attempt EPERM fun t => (true, setfsuid uid t)
  query EPERM fun t => if t.fsuid = uid then some () else none
  unruled k .getProc
  let state ← reading (·.caps.state)
  onlyIf (CAP_DAC_OVERRIDE ∈ state.permitted) do
    unruled k .edit
    let state := state.put .effective (insert CAP_DAC_OVERRIDE state.effective)
    ruled k .setProc fun t => (t.caps.capset state).map fun c => { t with caps := c }

end Calls

/-! ## What they do -/

section Ruled

variable {κ : Type} {k : κ → Option ℤ} {e : κ} {t t' : Task}

/-- A call is let through, or changes nothing. -/
theorem ruled_cases {f : Task → Option Task} {r : Except ℤ Unit}
    (h : ruled k e f t = (r, t')) : (∃ errno, r = .error errno) ∧ t' = t ∨
      r = .ok () ∧ f t = some t' := by
  rw [ruled] at h
  rcases hk : k e with _ | errno
  · rcases hf : f t with _ | s
    · rw [hk, hf] at h
      obtain ⟨rfl, rfl⟩ := Prod.mk.inj h
      exact .inl ⟨⟨EPERM, rfl⟩, rfl⟩
    · rw [hk, hf] at h
      obtain ⟨rfl, rfl⟩ := Prod.mk.inj h
      exact .inr ⟨rfl, rfl⟩
  · rw [hk] at h
    obtain ⟨rfl, rfl⟩ := Prod.mk.inj h
    exact .inl ⟨⟨errno, rfl⟩, rfl⟩

theorem ruled_ok {f : Task → Option Task} {u : Unit}
    (h : ruled k e f t = (.ok u, t')) : f t = some t' := by
  rcases ruled_cases h with ⟨⟨errno, herr⟩, -⟩ | ⟨-, hf⟩
  · cases herr
  · exact hf

theorem ruled_error {f : Task → Option Task} {errno : ℤ}
    (h : ruled k e f t = (.error errno, t')) : t' = t := by
  rcases ruled_cases h with ⟨-, heq⟩ | ⟨hok, -⟩
  · exact heq
  · cases hok

end Ruled

section Effects

variable {k : PermCall → Option ℤ} {t t' : Task}

/-- Each capability of the list as it was: those of the list that were effective. -/
theorem effectiveAsIn_eq (tmp : CapState) (caps : List Cap) :
    effectiveAsIn tmp caps = caps.toFinset ∩ tmp.effective := by
  have hfold (e : Finset Cap) (x : Cap) :
      x ∈ caps.foldl (fun e c => if c ∈ tmp.effective then insert c e else e.erase c) e ↔
        x ∈ caps ∧ x ∈ tmp.effective ∨ x ∉ caps ∧ x ∈ e := by
    induction caps generalizing e with
    | nil => simp
    | cons c caps ih =>
      rw [List.foldl_cons, ih]
      split_ifs with hc
      · grind
      · grind
  ext x
  rw [effectiveAsIn, hfold, Finset.mem_inter, List.mem_toFinset]
  exact ⟨fun h => h.resolve_right fun hnone => absurd hnone.2 (Finset.notMem_empty x), .inl⟩

/-- What is asked of `capset`. -/
def Caps.request (c : Caps) (set : Finset Cap) : Flag → CapState
  | .effective => ⟨c.permitted, set, c.inheritable⟩
  | .permitted => ⟨set, set ∩ c.effective, c.inheritable⟩
  | .inheritable => ⟨c.permitted, c.effective, set⟩
  | .ambient => c.state

/-- **One set is replaced, or nothing is changed.** -/
theorem permSetCapabilities_cases {type : Flag} (htype : type ≠ .ambient) {caps : List Cap}
    {r : Except ℤ Unit} (h : permSetCapabilities k type caps t = (r, t')) :
    (∃ errno, r = .error errno) ∧ t' = t ∨
      r = .ok () ∧ ∃ c, t.caps.capset (t.caps.request caps.toFinset type) = some c
        ∧ t' = { t with caps := c } := by
  have hrequest : (if type = .permitted then
      ((t.caps.state.put type ∅).put type caps.toFinset).put .effective
        (effectiveAsIn ((t.caps.state.put type ∅).put type caps.toFinset) caps)
      else (t.caps.state.put type ∅).put type caps.toFinset)
      = t.caps.request caps.toFinset type := by
    cases type with
    | effective | inheritable => rfl
    | permitted => simp [CapState.put, Caps.state, effectiveAsIn_eq, Caps.request]
    | ambient => exact absurd rfl htype
  simp only [permSetCapabilities, if_neg htype] at h
  rcases bind_cases h with ⟨errno, rfl, hget⟩ | ⟨_, s, hget, h⟩
  · exact .inl ⟨⟨errno, rfl⟩, ruled_error hget⟩
  obtain rfl := Option.some.inj (ruled_ok hget)
  rcases bind_cases h with ⟨errno, rfl, hread⟩ | ⟨state, s, hread, h⟩
  · cases (Prod.mk.inj hread).1
  obtain ⟨rfl, rfl⟩ := reading_ok hread
  rcases bind_cases h with ⟨errno, rfl, hedit⟩ | ⟨_, s, hedit, h⟩
  · exact .inl ⟨⟨errno, rfl⟩, ruled_error hedit⟩
  obtain rfl := Option.some.inj (ruled_ok hedit)
  rw [hrequest] at h
  rcases r with errno | ⟨⟩
  · exact .inl ⟨⟨errno, rfl⟩, ruled_error h⟩
  · obtain ⟨c, hset, rfl⟩ := Option.map_eq_some_iff.mp (ruled_ok h)
    exact .inr ⟨rfl, c, hset, rfl⟩

/-- A failure changes nothing. -/
theorem permSetCapabilities_error {type : Flag} (htype : type ≠ .ambient) {caps : List Cap}
    {errno : ℤ} (h : permSetCapabilities k type caps t = (.error errno, t')) : t' = t := by
  rcases permSetCapabilities_cases htype h with ⟨-, heq⟩ | ⟨hok, -⟩
  · exact heq
  · cases hok

/-- **The effective set is the one asked for**, and everything else is as it was. -/
theorem permSetCapabilities_effective {caps : List Cap}
    (h : permSetCapabilities k .effective caps t = (.ok (), t')) :
    ∃ hsub : caps.toFinset ⊆ t.caps.permitted,
      t' = { t with caps := t.caps.withEffective caps.toFinset hsub } := by
  rcases permSetCapabilities_cases Flag.noConfusion h with ⟨⟨errno, herr⟩, -⟩ | ⟨-, c, hset, rfl⟩
  · cases herr
  · obtain ⟨hmay, rfl⟩ := Caps.capset_eq_some.mp hset
    refine ⟨hmay.1, congrArg (fun c => ({ t with caps := c } : Task)) ?_⟩
    exact Caps.ext rfl rfl rfl rfl (Finset.inter_eq_left.mpr t.caps.ambient_subset)

/-- **The permitted set is the one asked for**, and what was effective of it stays so. -/
theorem permSetCapabilities_permitted {caps : List Cap}
    (h : permSetCapabilities k .permitted caps t = (.ok (), t')) :
    caps.toFinset ⊆ t.caps.permitted ∧ ∃ c, t' = { t with caps := c }
      ∧ c.permitted = caps.toFinset ∧ c.effective = caps.toFinset ∩ t.caps.effective
      ∧ c.inheritable = t.caps.inheritable ∧ c.bounding = t.caps.bounding := by
  rcases permSetCapabilities_cases Flag.noConfusion h with ⟨⟨errno, herr⟩, -⟩ | ⟨-, c, hset, rfl⟩
  · cases herr
  · obtain ⟨hmay, rfl⟩ := Caps.capset_eq_some.mp hset
    exact ⟨hmay.2.1, _, rfl, rfl, rfl, rfl, rfl⟩

/-- **The inheritable set is the one asked for**, and ambient capabilities go with it. -/
theorem permSetCapabilities_inheritable {caps : List Cap}
    (h : permSetCapabilities k .inheritable caps t = (.ok (), t')) :
    ∃ c, t' = { t with caps := c } ∧ c.permitted = t.caps.permitted
      ∧ c.effective = t.caps.effective ∧ c.inheritable = caps.toFinset
      ∧ c.bounding = t.caps.bounding
      ∧ c.ambient = t.caps.ambient ∩ (t.caps.permitted ∩ caps.toFinset) := by
  rcases permSetCapabilities_cases Flag.noConfusion h with ⟨⟨errno, herr⟩, -⟩ | ⟨-, c, hset, rfl⟩
  · cases herr
  · obtain ⟨hmay, rfl⟩ := Caps.capset_eq_some.mp hset
    exact ⟨_, rfl, rfl, rfl, rfl, rfl, rfl⟩

/-! ### The bounding set -/

/-- The task with another bounding set. -/
def Task.withBounding (t : Task) (b : Finset Cap) : Task :=
  { t with caps := { t.caps with bounding := b } }

/-- One turn of `perm_set_bounds`. -/
def boundsTurn (k : PermCall → Option ℤ) (caps : List Cap) (c : Cap) : Prog ℤ Task Unit :=
  if c ∈ caps then pure ()
  else do
    let bounding ← reading (·.caps.bounding)
    onlyIf (c ∈ bounding) (ruled k (.capbsetDrop c) fun t =>
      (t.caps.capbsetDrop c).map fun c => { t with caps := c })

/-- A turn drops its capability unless it is kept, or it fails and changes nothing. -/
theorem boundsTurn_cases {caps : List Cap} {c : Cap} {r : Except ℤ Unit}
    (h : boundsTurn k caps c t = (r, t')) : (∃ errno, r = .error errno) ∧ t' = t ∨
      r = .ok () ∧ t' = t.withBounding (t.caps.bounding.filter fun x => x = c → x ∈ caps) := by
  have hsame (hb : t.caps.bounding.filter (fun x => x = c → x ∈ caps) = t.caps.bounding) :
      t = t.withBounding (t.caps.bounding.filter fun x => x = c → x ∈ caps) := by rw [hb]; rfl
  rw [boundsTurn] at h
  split_ifs at h with hkeep
  · obtain ⟨rfl, rfl⟩ := Prod.mk.inj h
    refine .inr ⟨rfl, hsame (Finset.filter_true_of_mem ?_)⟩
    rintro x - rfl
    exact hkeep
  · rcases bind_cases h with ⟨errno, rfl, hread⟩ | ⟨b, s, hread, h⟩
    · cases (Prod.mk.inj hread).1
    obtain ⟨rfl, rfl⟩ := reading_ok hread
    by_cases hc : c ∈ s.caps.bounding
    · rw [decide_eq_true hc, onlyIf, if_pos rfl] at h
      rcases ruled_cases h with herr | ⟨rfl, hdrop⟩
      · exact .inl herr
      · obtain ⟨c', hbset, rfl⟩ := Option.map_eq_some_iff.mp hdrop
        obtain ⟨-, rfl⟩ := Caps.capbsetDrop_eq_some.mp hbset
        refine .inr ⟨rfl, congrArg s.withBounding (Finset.ext fun x => ?_)⟩
        grind
    · rw [decide_eq_false hc, onlyIf, if_neg Bool.false_ne_true] at h
      obtain ⟨rfl, rfl⟩ := Prod.mk.inj h
      refine .inr ⟨rfl, hsame (Finset.filter_true_of_mem ?_)⟩
      rintro x hx rfl
      exact absurd hx hc

/-- The turns of the capabilities of a list. -/
theorem boundsTurns_cases {caps cs : List Cap} {r : Except ℤ Unit}
    (h : cs.forM (boundsTurn k caps) t = (r, t')) :
    (∃ b ⊆ t.caps.bounding, t' = t.withBounding b) ∧
      (r = .ok () → t' = t.withBounding (t.caps.bounding.filter fun x => x ∈ cs → x ∈ caps)) := by
  induction cs generalizing t with
  | nil =>
    obtain ⟨rfl, rfl⟩ := Prod.mk.inj h
    refine ⟨⟨_, subset_rfl, rfl⟩, fun _ => ?_⟩
    simp [Task.withBounding]
  | cons c cs ih =>
    change (boundsTurn k caps c >>= fun _ => cs.forM (boundsTurn k caps)) t = (r, t') at h
    rcases bind_cases h with ⟨errno, rfl, hturn⟩ | ⟨_, s, hturn, h⟩
    · rcases boundsTurn_cases hturn with ⟨-, rfl⟩ | ⟨hok, -⟩
      · exact ⟨⟨_, subset_rfl, rfl⟩, fun hok => by cases hok⟩
      · cases hok
    · rcases boundsTurn_cases hturn with ⟨⟨errno, herr⟩, -⟩ | ⟨-, rfl⟩
      · cases herr
      obtain ⟨⟨b, hb, rfl⟩, hok⟩ := ih h
      refine ⟨⟨b, hb.trans (Finset.filter_subset _ _), rfl⟩, fun hr => (hok hr).trans ?_⟩
      refine congrArg t.withBounding (Finset.ext fun x => ?_)
      simp only [Task.withBounding, Finset.mem_filter, List.mem_cons]
      grind

/-- **Only capabilities that are kept stay bounding**, of those the loop comes to; nothing but the
bounding set changes. -/
theorem permSetBounds_cases {n : ℕ} {caps : List Cap} {r : Except ℤ Unit}
    (h : permSetBounds k n caps t = (r, t')) :
    (∃ b ⊆ t.caps.bounding, t' = t.withBounding b) ∧ (r = .ok () → t' = t.withBounding
      (t.caps.bounding.filter fun x => x ≤ lastCapOf n → x ∈ caps)) := by
  change (unruled k .readLastCap >>= fun _ =>
    (List.range (lastCapOf n + 1)).forM (boundsTurn k caps)) t = (r, t') at h
  rcases bind_cases h with ⟨errno, rfl, hread⟩ | ⟨_, s, hread, h⟩
  · rw [ruled_error hread]
    exact ⟨⟨_, subset_rfl, rfl⟩, fun hok => by cases hok⟩
  · obtain rfl := Option.some.inj (ruled_ok hread)
    simpa only [List.mem_range, Nat.lt_succ_iff] using boundsTurns_cases h

/-! ### The filesystem user ID -/

/-- `set_fsugid` gives `CAP_DAC_OVERRIDE` back, where it is permitted. -/
def Caps.withOverride (c : Caps) : Caps :=
  c.withEffective (c.effective ∪ c.permitted ∩ {CAP_DAC_OVERRIDE})
    (Finset.union_subset c.effective_subset Finset.inter_subset_left)

theorem Caps.withOverride_of_notMem {c : Caps} (h : CAP_DAC_OVERRIDE ∉ c.permitted) :
    c.withOverride = c := by
  refine Caps.ext rfl ?_ rfl rfl rfl
  ext x
  simp only [withOverride, withEffective, Finset.mem_union, Finset.mem_inter, Finset.mem_singleton]
  grind

/-- Giving `CAP_DAC_OVERRIDE` back is let through. -/
theorem Caps.capset_override {c : Caps} (h : CAP_DAC_OVERRIDE ∈ c.permitted) :
    c.capset (c.state.put .effective (insert CAP_DAC_OVERRIDE c.state.effective))
      = some c.withOverride := by
  have hmay : c.MaySet (c.state.put .effective (insert CAP_DAC_OVERRIDE c.state.effective)) :=
    ⟨Finset.insert_subset h c.effective_subset, subset_rfl, .inr Finset.subset_union_left,
      Finset.subset_union_left⟩
  refine Caps.capset_eq_some.mpr ⟨hmay, Caps.ext rfl ?_ rfl rfl ?_⟩
  · ext x
    simp only [withOverride, withEffective, setTo, CapState.put, state, Finset.mem_insert,
      Finset.mem_union, Finset.mem_inter, Finset.mem_singleton]
    grind
  · exact (Finset.inter_eq_left.mpr c.ambient_subset).symm

/-- The task after the filesystem user ID was set, with `CAP_DAC_OVERRIDE`. -/
def overriding (uid : Id) (t : Task) : Task :=
  { setfsuid uid t with caps := (setfsuid uid t).caps.withOverride }

/-- **What `set_fsugid` does**: a failure leaves the task as it was, or with the new ID and without
what was to be given back. -/
theorem setFsugid_cases {uid : Id} {r : Except ℤ Unit} (h : setFsugid k uid t = (r, t')) :
    (∃ errno, r = .error errno) ∧ (t' = t ∨ t' = setfsuid uid t) ∨
      r = .ok () ∧ (setfsuid uid t).fsuid = uid ∧ t' = overriding uid t := by
  rcases bind_cases h with ⟨errno, rfl, hgid⟩ | ⟨_, s, hgid, h⟩
  · exact .inl ⟨⟨errno, rfl⟩, .inl (ruled_error hgid)⟩
  obtain rfl := Option.some.inj (ruled_ok hgid)
  rcases bind_cases h with ⟨errno, rfl, hset⟩ | ⟨_, s, hset, h⟩
  · cases (Prod.mk.inj hset).1
  obtain rfl : setfsuid uid t = s := (Prod.mk.inj hset).2
  rcases bind_cases h with ⟨errno, rfl, hcheck⟩ | ⟨_, s, hcheck, h⟩
  · exact .inl ⟨⟨errno, rfl⟩, .inr (query_error hcheck).2.2⟩
  obtain ⟨hid, rfl⟩ := query_ok hcheck
  have hfsuid : (setfsuid uid t).fsuid = uid := by
    by_contra hne
    rw [if_neg hne] at hid
    cases hid
  rcases bind_cases h with ⟨errno, rfl, hget⟩ | ⟨_, s, hget, h⟩
  · exact .inl ⟨⟨errno, rfl⟩, .inr (ruled_error hget)⟩
  obtain rfl := Option.some.inj (ruled_ok hget)
  rcases bind_cases h with ⟨errno, rfl, hread⟩ | ⟨state, s, hread, h⟩
  · cases (Prod.mk.inj hread).1
  obtain ⟨rfl, rfl⟩ := reading_ok hread
  by_cases hperm : CAP_DAC_OVERRIDE ∈ (setfsuid uid t).caps.permitted
  · have hbit : decide (CAP_DAC_OVERRIDE ∈ (setfsuid uid t).caps.state.permitted) = true :=
      decide_eq_true hperm
    rw [hbit, onlyIf, if_pos rfl] at h
    rcases bind_cases h with ⟨errno, rfl, hedit⟩ | ⟨_, s, hedit, h⟩
    · exact .inl ⟨⟨errno, rfl⟩, .inr (ruled_error hedit)⟩
    obtain rfl := Option.some.inj (ruled_ok hedit)
    rcases ruled_cases h with ⟨⟨errno, rfl⟩, rfl⟩ | ⟨rfl, hset⟩
    · exact .inl ⟨⟨errno, rfl⟩, .inr rfl⟩
    · obtain ⟨c, hcap, rfl⟩ := Option.map_eq_some_iff.mp hset
      obtain rfl := Option.some.inj ((Caps.capset_override hperm).symm.trans hcap)
      exact .inr ⟨rfl, hfsuid, rfl⟩
  · have hbit : decide (CAP_DAC_OVERRIDE ∈ (setfsuid uid t).caps.state.permitted) = false :=
      decide_eq_false hperm
    rw [hbit, onlyIf, if_neg Bool.false_ne_true] at h
    obtain ⟨rfl, rfl⟩ := Prod.mk.inj h
    refine .inr ⟨rfl, hfsuid, ?_⟩
    rw [overriding, Caps.withOverride_of_notMem hperm]

/-- Tasks that differ in the effective capabilities and the filesystem user ID at most. -/
structure Task.Alike (t t' : Task) : Prop where
  creds : t'.creds = t.creds
  securebits : t'.securebits = t.securebits
  permitted : t'.caps.permitted = t.caps.permitted
  inheritable : t'.caps.inheritable = t.caps.inheritable
  bounding : t'.caps.bounding = t.caps.bounding
  ambient : t'.caps.ambient = t.caps.ambient

theorem Task.Alike.refl (t : Task) : t.Alike t := ⟨rfl, rfl, rfl, rfl, rfl, rfl⟩

/-- Alike twice. -/
theorem Task.Alike.trans {t₁ t₂ t₃ : Task} (h : t₁.Alike t₂) (h' : t₂.Alike t₃) : t₁.Alike t₃ :=
  ⟨h'.creds.trans h.creds, h'.securebits.trans h.securebits, h'.permitted.trans h.permitted,
    h'.inheritable.trans h.inheritable, h'.bounding.trans h.bounding,
    h'.ambient.trans h.ambient⟩

/-- `setfsuid` changes the effective capabilities only. -/
theorem alike_setfsuid (uid : Id) (t : Task) : t.Alike (setfsuid uid t) := by
  rw [setfsuid]
  split_ifs
  · obtain ⟨hp, hi, hb, ha⟩ := t.caps.fsuidFixup_same t.fsuid uid
    rw [Task.setFsuid]
    split_ifs
    · exact ⟨rfl, rfl, rfl, rfl, rfl, rfl⟩
    · exact ⟨rfl, rfl, hp, hi, hb, ha⟩
  · exact .refl t

theorem alike_overriding (uid : Id) (t : Task) : t.Alike (overriding uid t) :=
  (alike_setfsuid uid t).trans ⟨rfl, rfl, rfl, rfl, rfl, rfl⟩

theorem alike_setFsugid {uid : Id} {r : Except ℤ Unit} (h : setFsugid k uid t = (r, t')) :
    t.Alike t' := by
  rcases setFsugid_cases h with ⟨-, rfl | rfl⟩ | ⟨-, -, rfl⟩
  · exact .refl _
  · exact alike_setfsuid uid t
  · exact alike_overriding uid t

/-- The IDs while `file_create` creates a file for a user, and after; none where the assertion fails
that they are set back. -/
def fileCreateIds (k k' : PermCall → Option ℤ) (uid : Id) (t : Task) : Option Task :=
  match setFsugid k' t.creds.users.effective (setFsugid k uid t).2 with
  | (.ok (), t') => some t'
  | (.error _, _) => none

theorem fileCreateIds_eq_some {k' : PermCall → Option ℤ} {uid : Id}
    (h : fileCreateIds k k' uid t = some t') :
    setFsugid k' t.creds.users.effective (setFsugid k uid t).2 = (.ok (), t') := by
  rw [fileCreateIds] at h
  rcases hback : setFsugid k' t.creds.users.effective (setFsugid k uid t).2 with ⟨_ | ⟨⟩, s⟩
  · rw [hback] at h
    cases h
  · rw [hback] at h
    rw [Option.some.inj h]

/-- Nothing but the effective capabilities is left changed, and the filesystem user ID is the
effective one. -/
theorem alike_fileCreateIds {k' : PermCall → Option ℤ} {uid : Id}
    (h : fileCreateIds k k' uid t = some t') :
    t.Alike t' ∧ t'.fsuid = t.creds.users.effective := by
  have hback := fileCreateIds_eq_some h
  refine ⟨(alike_setFsugid rfl).trans (alike_setFsugid hback), ?_⟩
  rcases setFsugid_cases hback with ⟨⟨errno, herr⟩, -⟩ | ⟨-, hfsuid, rfl⟩
  · cases herr
  · exact hfsuid

/-- The effective capabilities after the filesystem user ID was changed. -/
def Task.effectiveFor (t : Task) (uid : Id) : Finset Cap :=
  if t.securebits.noSetuidFixup then t.caps.effective
  else (t.caps.fsuidFixup t.fsuid uid).effective

theorem effective_setfsuid (uid : Id) (t : Task) :
    (setfsuid uid t).caps.effective = t.caps.effective ∧ (setfsuid uid t).fsuid = t.fsuid ∨
    (setfsuid uid t).caps.effective = t.effectiveFor uid ∧ (setfsuid uid t).fsuid = uid := by
  rw [setfsuid]
  split_ifs
  · refine .inr ⟨?_, rfl⟩
    rw [Task.setFsuid, Task.effectiveFor]
    split_ifs
    · rfl
    · rfl
  · exact .inl ⟨rfl, rfl⟩

/-- Which capabilities are effective for a user of the file system. -/
theorem mem_effectiveFor {uid : Id} {x : Cap} : x ∈ t.effectiveFor uid ↔
    if t.securebits.noSetuidFixup then x ∈ t.caps.effective
    else if t.fsuid = 0 ∧ uid ≠ 0 then x ∈ t.caps.effective ∧ x ∉ CAP_FS_SET
    else if t.fsuid ≠ 0 ∧ uid = 0 then
      x ∈ t.caps.effective ∨ x ∈ t.caps.permitted ∧ x ∈ CAP_FS_SET
    else x ∈ t.caps.effective := by
  rw [Task.effectiveFor, Caps.fsuidFixup]
  split_ifs
  · rfl
  · exact Finset.mem_sdiff
  · exact Finset.mem_union.trans (or_congr_right Finset.mem_inter)
  · rfl

/-- The sets are the same, or the second one also has `CAP_DAC_OVERRIDE`, which is permitted. -/
def Task.UpToOverride (t : Task) (e e' : Finset Cap) : Prop :=
  e ⊆ e' ∧ e' ⊆ e ∪ t.caps.permitted ∩ {CAP_DAC_OVERRIDE}

/-- What is effective for creating files. -/
theorem effective_overriding (uid : Id) (t : Task) : (overriding uid t).caps.effective
    = (setfsuid uid t).caps.effective ∪ t.caps.permitted ∩ {CAP_DAC_OVERRIDE} := by
  rw [← (alike_setfsuid uid t).permitted]
  rfl

/-- The effective capabilities when `set_fsugid` is done, whatever it comes to. -/
theorem effective_setFsugid (uid : Id) (t : Task) :
    t.UpToOverride t.caps.effective (setFsugid k uid t).2.caps.effective
      ∧ (setFsugid k uid t).2.fsuid = t.fsuid ∨
    t.UpToOverride (t.effectiveFor uid) (setFsugid k uid t).2.caps.effective
      ∧ (setFsugid k uid t).2.fsuid = uid := by
  have hsame (e : Finset Cap) : t.UpToOverride e e := ⟨subset_rfl, Finset.subset_union_left⟩
  have hmore (e : Finset Cap) :
      t.UpToOverride e (e ∪ t.caps.permitted ∩ {CAP_DAC_OVERRIDE}) :=
    ⟨Finset.subset_union_left, subset_rfl⟩
  rcases h : setFsugid k uid t with ⟨r, s⟩
  rcases setFsugid_cases h with ⟨-, rfl | rfl⟩ | ⟨-, -, rfl⟩
  · exact .inl ⟨hsame _, rfl⟩
  · rcases effective_setfsuid uid t with ⟨he, hid⟩ | ⟨he, hid⟩
    · exact .inl ⟨by rw [he]; exact hsame _, hid⟩
    · exact .inr ⟨by rw [he]; exact hsame _, hid⟩
  · rw [effective_overriding]
    rcases effective_setfsuid uid t with ⟨he, hid⟩ | ⟨he, hid⟩
    · exact .inl ⟨by rw [he]; exact hmore _, hid⟩
    · exact .inr ⟨by rw [he]; exact hmore _, hid⟩

/-- **What creating files does to the effective capabilities.**  Root gets those for files that are
permitted where the file is another user's; another user gets `CAP_DAC_OVERRIDE` at most. -/
theorem effective_fileCreateIds {k' : PermCall → Option ℤ} {uid : Id}
    (h : fileCreateIds k k' uid t = some t') (hids : t.fsuid = t.creds.users.effective) :
    (t.creds.users.effective = 0 →
      t'.caps.effective = t.caps.effective ∪ t.caps.permitted ∩ {CAP_DAC_OVERRIDE} ∨
      t'.caps.effective = t.caps.effective ∪ t.caps.permitted ∩ CAP_FS_SET) ∧
    (t.creds.users.effective ≠ 0 → t.caps.effective \ CAP_FS_SET ⊆ t'.caps.effective ∧
      t'.caps.effective ⊆ t.caps.effective ∪ t.caps.permitted ∩ {CAP_DAC_OVERRIDE}) := by
  have hback := fileCreateIds_eq_some h
  rcases setFsugid_cases hback with ⟨⟨errno, herr⟩, -⟩ | ⟨-, hfsuid, rfl⟩
  · cases herr
  have hfirst := effective_setFsugid (k := k) uid t
  have halike : t.Alike (setFsugid k uid t).2 := alike_setFsugid rfl
  generalize (setFsugid k uid t).2 = s at *
  have hover : CAP_DAC_OVERRIDE ∈ CAP_FS_SET := by decide
  have hsub := t.caps.effective_subset
  have hsecond := effective_setfsuid t.creds.users.effective s
  rw [effective_overriding, halike.permitted]
  simp only [Task.UpToOverride, Finset.subset_iff, Finset.ext_iff, Finset.mem_union,
    Finset.mem_inter, Finset.mem_singleton, Finset.mem_sdiff, mem_effectiveFor, halike.securebits,
    halike.permitted] at *
  rcases hfix : t.securebits.noSetuidFixup with _ | _
  · simp only [hfix, Bool.false_eq_true, if_false] at *
    constructor
    · intro hroot
      by_cases huid : uid = 0
      · left
        grind
      · rcases hfirst with ⟨h1, hf1⟩ | ⟨h1, hf1⟩
        · left
          grind
        · right
          grind
    · intro hroot
      grind
  · grind

end Effects

end Perm
