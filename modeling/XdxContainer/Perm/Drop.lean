import Mathlib.Logic.Relation
import XdxContainer.Control.Fallible

/-!
# Perm/Drop — dropping privileges

                    real  effective  saved
    users            r        e        s     ──e ≠ uid──▸ uid uid uid     ──e = uid──▸ as they are
    groups           r        e        s     ──e ≠ gid──▸ gid gid gid     ──e = gid──▸ as they are
    supplementary    g₁ … gₙ                 ──drop_groups──▸ gid at most

`perm_drop_privileges` looks at the effective IDs alone.

* `Ids.forGood_iff` — a process is left with one ID for good when its three IDs are that one.
* `droppedForGood_iff` — dropping does that, unless an effective ID is the wanted one already and
  the real or the saved one is not.
-/

open Fallible Relation

namespace Perm

/-! ## The IDs of a process -/

/-- `uid_t`, `gid_t`. -/
abbrev Id := BitVec 32

/-- The three IDs of a kind that a process has. -/
structure Ids where
  real : Id
  effective : Id
  saved : Id
  deriving DecidableEq

namespace Ids

/-- All three IDs are one. -/
def all (id : Id) : Ids := ⟨id, id, id⟩

/-- The process has an ID. -/
def Has (ids : Ids) (id : Id) : Prop := id = ids.real ∨ id = ids.effective ∨ id = ids.saved

/-- What a process without privileges may do to its IDs: permute and repeat them. -/
def Switch (ids ids' : Ids) : Prop := ∀ id, ids'.Has id → ids.Has id

variable {ids ids' : Ids} {id : Id}

/-- One ID for all. -/
theorem has_all {id' : Id} : (all id).Has id' ↔ id' = id := by
  rw [Has, all, or_self, or_self]

theorem eq_all_iff : ids = all id ↔ ∀ id', ids.Has id' → id' = id := by
  constructor
  · rintro rfl id' h
    exact has_all.mp h
  · intro h
    have hreal := h ids.real (.inl rfl)
    have heffective := h ids.effective (.inr (.inl rfl))
    have hsaved := h ids.saved (.inr (.inr rfl))
    rw [← hreal, all, Ids.mk.injEq]
    exact ⟨rfl, heffective.trans hreal.symm, hsaved.trans hreal.symm⟩

/-- Several switches are one. -/
theorem switch_of_run (h : ReflTransGen Switch ids ids') : Switch ids ids' := by
  induction h with
  | refl => exact fun id hid => hid
  | tail _ hstep ih => exact fun id hid => ih id (hstep id hid)

/-- **A process acts under one ID for good** when it has no other. -/
theorem forGood_iff :
    (∀ ids', ReflTransGen Switch ids ids' → ids'.effective = id) ↔ ids = all id := by
  rw [eq_all_iff]
  constructor
  · intro h id' hid
    have hswitch : Switch ids (all id') := by
      intro x hx
      rw [has_all.mp hx]
      exact hid
    exact h (all id') (.single hswitch)
  · intro h ids' hrun
    exact h _ (switch_of_run hrun _ (.inr (.inl rfl)))

end Ids

/-- The credentials of a process. -/
structure Creds where
  users : Ids
  groups : Ids
  supplementary : List Id
  noNewPrivs : Bool

/-! ## The calls -/

/-- What dropping privileges fails at. -/
inductive DropCall
  | countGroups | readGroup | setgroups | setregid | setreuid
  /-- The effective IDs are looked at again. -/
  | verify
  | prctl
  deriving DecidableEq

/-- `(uid_t)-1`: the ID that leaves an ID unchanged. -/
def UNCHANGED : Id := -1

/-- `setreuid(id, id)`, `setregid(id, id)`. -/
def setre (id : Id) (ids : Ids) : Ids := if id = UNCHANGED then ids else .all id

section Drop

variable (k : DropCall → Bool)

/-- A system call that changes the credentials, if the kernel lets it. -/
def syscall (e : DropCall) (f : Creds → Creds) : Prog DropCall Creds Unit :=
  attempt e fun s => if k e then (true, f s) else (false, s)

/-- A system call that reads the credentials. -/
def sysread {α : Type} (e : DropCall) (f : Creds → Option α) : Prog DropCall Creds α :=
  query e fun s => if k e then f s else none

/-- `setgroups(1, &gid)`. -/
def setOnlyGroup (gid : Id) : Prog DropCall Creds Unit :=
  syscall k .setgroups fun s => { s with supplementary := [gid] }

/-- The part of `perm_drop_privileges` that is for `drop_groups`. -/
def dropGroups (gid : Id) : Prog DropCall Creds Unit := do
  let n ← sysread k .countGroups fun s => some s.supplementary.length
  match n with
  | 0 => pure ()
  | 1 =>
    let egroup ← sysread k .readGroup (·.supplementary.head?)
    if egroup = gid then pure () else setOnlyGroup k gid
  | _ => setOnlyGroup k gid

/-- `perm_drop_privileges`. -/
def permDropPrivileges (uid gid : Id) (drop : Bool) : Prog DropCall Creds Unit := do
  let euid ← reading (·.users.effective)
  let egid ← reading (·.groups.effective)
  onlyIf drop (dropGroups k gid)
  onlyIf (egid ≠ gid) (syscall k .setregid fun s => { s with groups := setre gid s.groups })
  onlyIf (euid ≠ uid) (syscall k .setreuid fun s => { s with users := setre uid s.users })
  query .verify fun s =>
    if egid ≠ gid ∧ s.groups.effective ≠ gid ∨ euid ≠ uid ∧ s.users.effective ≠ uid then none
    else some ()
  syscall k .prctl fun s => { s with noNewPrivs := true }

end Drop

/-! ## What dropping leaves -/

/-- The IDs are left as they are, some of them other than the wanted one. -/
def Ids.Skipped (ids : Ids) (id : Id) : Prop := ids.effective = id ∧ ids ≠ .all id

/-- The wanted ID cannot be set. -/
def Ids.Stuck (ids : Ids) (id : Id) : Prop := ids.effective ≠ id ∧ id = UNCHANGED

/-- The IDs behind the guard. -/
def Ids.dropped (ids : Ids) (id : Id) : Ids := if ids.effective = id then ids else setre id ids

section Left

variable {k : DropCall → Bool} {s t : Creds} {uid gid : Id} {drop : Bool} {ids : Ids} {id : Id}

/-- The effective ID is the wanted one, unless that cannot be set. -/
theorem Ids.effective_dropped : (ids.dropped id).effective = id ↔ ¬ids.Stuck id := by
  rw [dropped, setre, Stuck]
  split_ifs with heffective hid
  · exact ⟨fun _ h => h.1 heffective, fun _ => heffective⟩
  · exact ⟨fun h => absurd h heffective, fun h => absurd ⟨heffective, hid⟩ h⟩
  · exact ⟨fun _ h => hid h.2, fun _ => rfl⟩

/-- **The IDs are all the wanted one unless the guard skips them.** -/
theorem Ids.dropped_eq_all (h : ¬ids.Stuck id) : ids.dropped id = .all id ↔ ¬ids.Skipped id := by
  rw [dropped, setre, Skipped]
  split_ifs with heffective hid
  · exact ⟨fun hall hne => hne.2 hall, fun hne => by_contra fun hall => hne ⟨heffective, hall⟩⟩
  · exact absurd ⟨heffective, hid⟩ h
  · exact ⟨fun _ hne => heffective hne.1, fun _ => rfl⟩

theorem syscall_ok {e : DropCall} {f : Creds → Creds} (h : syscall k e f s = (.ok (), t)) :
    t = f s := by
  have hcall := attempt_ok h
  split_ifs at hcall
  · exact (Prod.mk.inj hcall).2.symm
  · cases (Prod.mk.inj hcall).1

theorem sysread_ok {α : Type} {e : DropCall} {f : Creds → Option α} {a : α}
    (h : sysread k e f s = (.ok a, t)) : f s = some a ∧ t = s := by
  obtain ⟨hread, hsame⟩ := query_ok h
  split_ifs at hread
  exact ⟨hread, hsame⟩

/-- Every supplementary group is the wanted one, and nothing else has changed. -/
theorem dropGroups_ok (h : dropGroups k gid s = (.ok (), t)) :
    (∀ g ∈ t.supplementary, g = gid) ∧ t.users = s.users ∧ t.groups = s.groups := by
  have hset (h : setOnlyGroup k gid s = (.ok (), t)) :
      (∀ g ∈ t.supplementary, g = gid) ∧ t.users = s.users ∧ t.groups = s.groups := by
    rw [syscall_ok h]
    exact ⟨fun g hg => List.mem_singleton.mp hg, rfl, rfl⟩
  obtain ⟨n, s₁, hcount, hrest⟩ := bind_ok h
  obtain ⟨hlen, rfl⟩ := sysread_ok hcount
  have hlen := Option.some.inj hlen
  match n with
  | 0 =>
    obtain ⟨-, rfl⟩ := pure_ok hrest
    rw [List.length_eq_zero_iff.mp hlen]
    exact ⟨fun g hg => absurd hg List.not_mem_nil, rfl, rfl⟩
  | 1 =>
    obtain ⟨egroup, s₂, hread, hrest⟩ := bind_ok hrest
    obtain ⟨hhead, rfl⟩ := sysread_ok hread
    obtain ⟨g, hg⟩ := List.length_eq_one_iff.mp hlen
    rw [hg] at hhead
    obtain rfl := Option.some.inj hhead
    split_ifs at hrest with hsame
    · obtain ⟨-, rfl⟩ := pure_ok hrest
      rw [hg, ← hsame]
      exact ⟨fun g hg => List.mem_singleton.mp hg, rfl, rfl⟩
    · exact hset hrest
  | n + 2 => exact hset hrest

/-- A guarded change of credentials. -/
theorem onlyIf_syscall_ok {c : Prop} [Decidable c] {e : DropCall} {f : Creds → Creds}
    (h : onlyIf c (syscall k e f) s = (.ok (), t)) : t = if c then f s else s := by
  rw [onlyIf] at h
  by_cases hc : c
  · rw [if_pos (decide_eq_true hc)] at h
    rw [if_pos hc, syscall_ok h]
  · rw [if_neg (by simpa using hc)] at h
    rw [if_neg hc, (pure_ok h).2]

theorem onlyIf_syscall {c : Prop} [Decidable c] {e : DropCall} (f : Creds → Creds) (s : Creds) :
    onlyIf c (syscall (fun _ => true) e f) s = (.ok (), if c then f s else s) := by
  rw [onlyIf]
  by_cases hc : c
  · rw [if_pos (decide_eq_true hc), if_pos hc]
    rfl
  · rw [if_neg (by simpa using hc), if_neg hc]
    rfl

/-- The user and group IDs behind the guards. -/
def Creds.switched (s : Creds) (uid gid : Id) : Creds :=
  let s₁ := if s.groups.effective ≠ gid then { s with groups := setre gid s.groups } else s
  if s.users.effective ≠ uid then { s₁ with users := setre uid s₁.users } else s₁

theorem Creds.switched_eq (s : Creds) (uid gid : Id) :
    s.switched uid gid
      = { s with users := s.users.dropped uid, groups := s.groups.dropped gid } := by
  simp only [switched, Ids.dropped, ite_not]
  split_ifs <;> rfl

/-- **What a success leaves.** -/
theorem permDropPrivileges_ok (h : permDropPrivileges k uid gid drop s = (.ok (), t)) :
    t.users = s.users.dropped uid ∧ t.groups = s.groups.dropped gid
      ∧ ¬s.users.Stuck uid ∧ ¬s.groups.Stuck gid
      ∧ (drop = true → ∀ g ∈ t.supplementary, g = gid) ∧ t.noNewPrivs = true := by
  obtain ⟨euid, s₁, heuid, h⟩ := bind_ok h
  obtain ⟨egid, s₂, hegid, h⟩ := bind_ok h
  obtain ⟨rfl, hs₁⟩ := reading_ok heuid
  obtain ⟨rfl, hs₂⟩ := reading_ok hegid
  rw [hs₂, hs₁] at h
  obtain ⟨⟨⟩, s₁, hdrop, h⟩ := bind_ok h
  obtain ⟨⟨⟩, s₂, hgroups, h⟩ := bind_ok h
  obtain ⟨⟨⟩, s₃, husers, h⟩ := bind_ok h
  obtain ⟨⟨⟩, s₄, hverify, h⟩ := bind_ok h
  obtain ⟨hsame, hs₄⟩ := query_ok hverify
  rw [hs₄] at h
  have hkept : (drop = true → ∀ g ∈ s₁.supplementary, g = gid)
      ∧ s₁.users = s.users ∧ s₁.groups = s.groups := by
    rw [onlyIf] at hdrop
    split_ifs at hdrop with hd
    · obtain ⟨honly, hrest⟩ := dropGroups_ok hdrop
      exact ⟨fun _ => honly, hrest⟩
    · rw [← (pure_ok hdrop).2]
      exact ⟨fun h => absurd h hd, rfl, rfl⟩
  obtain ⟨honly, hu, hg⟩ := hkept
  have hswitched : s₃ = s₁.switched uid gid := by
    rw [onlyIf_syscall_ok husers, onlyIf_syscall_ok hgroups, Creds.switched, hu, hg]
  rw [Creds.switched_eq, hu, hg] at hswitched
  have hpassed : ¬(s.groups.effective ≠ gid ∧ s₃.groups.effective ≠ gid
      ∨ s.users.effective ≠ uid ∧ s₃.users.effective ≠ uid) := by
    intro hbad
    rw [if_pos hbad] at hsame
    cases hsame
  rw [syscall_ok h, hswitched]
  rw [hswitched] at hpassed
  refine ⟨rfl, rfl, fun hstuck => hpassed ?_, fun hstuck => hpassed ?_, honly, rfl⟩
  · exact .inr ⟨hstuck.1, fun heq => Ids.effective_dropped.mp heq hstuck⟩
  · exact .inl ⟨hstuck.1, fun heq => Ids.effective_dropped.mp heq hstuck⟩

/-- Dropping the groups where no call fails. -/
theorem dropGroups_of_succeeds (gid : Id) (s : Creds) :
    ∃ groups, dropGroups (fun _ => true) gid s = (.ok (), { s with supplementary := groups }) := by
  have hset : setOnlyGroup (fun _ => true) gid s = (.ok (), { s with supplementary := [gid] }) :=
    rfl
  have hcount : sysread (fun _ => true) .countGroups (fun s => some s.supplementary.length) s
      = (.ok s.supplementary.length, s) := rfl
  rw [dropGroups, bind_of_ok hcount]
  match hgroups : s.supplementary with
  | [] => exact ⟨s.supplementary, rfl⟩
  | [g] =>
    have hread : sysread (fun _ => true) .readGroup (·.supplementary.head?) s = (.ok g, s) := by
      rw [sysread, query, hgroups]
      rfl
    refine (em (g = gid)).elim (fun h => ⟨s.supplementary, ?_⟩) fun h => ⟨[gid], ?_⟩
    · refine (bind_of_ok hread).trans ?_
      rw [if_pos h]
      rfl
    · refine (bind_of_ok hread).trans ?_
      rw [if_neg h]
      exact hset
  | _ :: _ :: _ => exact ⟨[gid], hset⟩

/-- **Where no call fails, dropping succeeds** if the IDs can be set. -/
theorem permDropPrivileges_of_succeeds (hu : ¬s.users.Stuck uid) (hg : ¬s.groups.Stuck gid)
    (drop : Bool) : ∃ t, permDropPrivileges (fun _ => true) uid gid drop s = (.ok (), t) := by
  obtain ⟨groups, hdrop⟩ : ∃ groups, onlyIf drop (dropGroups (fun _ => true) gid) s
      = (.ok (), { s with supplementary := groups }) := by
    rw [onlyIf]
    split_ifs
    · exact dropGroups_of_succeeds gid s
    · exact ⟨s.supplementary, rfl⟩
  have hpassed : ¬(s.groups.effective ≠ gid ∧ (s.groups.dropped gid).effective ≠ gid
      ∨ s.users.effective ≠ uid ∧ (s.users.dropped uid).effective ≠ uid) := by
    rintro (h | h)
    · exact h.2 (Ids.effective_dropped.mpr hg)
    · exact h.2 (Ids.effective_dropped.mpr hu)
  set s₁ : Creds := { s with supplementary := groups } with hs₁
  have hverify : query .verify (fun t =>
        if s.groups.effective ≠ gid ∧ t.groups.effective ≠ gid
          ∨ s.users.effective ≠ uid ∧ t.users.effective ≠ uid then none else some ())
      (s₁.switched uid gid) = ((.ok () : Except DropCall Unit), s₁.switched uid gid) := by
    rw [query, Creds.switched_eq, if_neg hpassed]
  have hgroups := onlyIf_syscall (c := s.groups.effective ≠ gid) (e := .setregid)
    (fun s => { s with groups := setre gid s.groups }) s₁
  refine ⟨{ s₁.switched uid gid with noNewPrivs := true }, ?_⟩
  refine (bind_of_ok rfl).trans ((bind_of_ok rfl).trans ((bind_of_ok hdrop).trans
    ((bind_of_ok hgroups).trans ((bind_of_ok (onlyIf_syscall _ _)).trans ?_))))
  exact (bind_of_ok hverify).trans rfl

end Left

/-! ## Dropped for good -/

/-- **Privileges are dropped for good**: after a success the three user IDs and the three group IDs
are the wanted ones, and no other supplementary group is left. -/
def DroppedForGood (k : DropCall → Bool) (s : Creds) (uid gid : Id) (drop : Bool) : Prop :=
  ∀ t, permDropPrivileges k uid gid drop s = (.ok (), t) →
    t.users = .all uid ∧ t.groups = .all gid ∧ (drop = true → ∀ g ∈ t.supplementary, g = gid)

/-- **When privileges are dropped for good**, whichever calls fail: when no IDs are skipped, or
some cannot be set, so that dropping does not succeed. -/
theorem droppedForGood_iff (s : Creds) (uid gid : Id) (drop : Bool) :
    (∀ k, DroppedForGood k s uid gid drop)
      ↔ s.users.Stuck uid ∨ s.groups.Stuck gid
        ∨ ¬s.users.Skipped uid ∧ ¬s.groups.Skipped gid := by
  constructor
  · intro h
    by_contra hnot
    obtain ⟨hu, hnot⟩ := not_or.mp hnot
    obtain ⟨hg, hnot⟩ := not_or.mp hnot
    obtain ⟨t, ht⟩ := permDropPrivileges_of_succeeds hu hg drop
    obtain ⟨husers, hgroups, -⟩ := permDropPrivileges_ok ht
    obtain ⟨hallu, hallg, -⟩ := h _ t ht
    refine hnot ⟨(Ids.dropped_eq_all hu).mp ?_, (Ids.dropped_eq_all hg).mp ?_⟩
    · rw [← husers, hallu]
    · rw [← hgroups, hallg]
  · intro h k t ht
    obtain ⟨husers, hgroups, hu, hg, honly, -⟩ := permDropPrivileges_ok ht
    obtain ⟨hskipu, hskipg⟩ := (h.resolve_left hu).resolve_left hg
    rw [husers, hgroups, Ids.dropped_eq_all hu, Ids.dropped_eq_all hg]
    exact ⟨hskipu, hskipg, honly⟩

/-- **A process whose saved user ID is root's keeps it** where the effective one is the wanted one
already. -/
theorem not_droppedForGood :
    ¬DroppedForGood (fun _ => true) ⟨⟨1000, 1000, 0⟩, .all 1000, [], false⟩ 1000 1000 true := by
  intro h
  obtain ⟨husers, -⟩ := h _ rfl
  cases congrArg Ids.saved husers

/-- Dropped for good, a process acts under no other user or group ID again. -/
theorem DroppedForGood.forGood {k : DropCall → Bool} {s t : Creds} {uid gid : Id} {drop : Bool}
    (h : DroppedForGood k s uid gid drop) (ht : permDropPrivileges k uid gid drop s = (.ok (), t)) :
    (∀ ids', ReflTransGen Ids.Switch t.users ids' → ids'.effective = uid)
      ∧ ∀ ids', ReflTransGen Ids.Switch t.groups ids' → ids'.effective = gid := by
  obtain ⟨husers, hgroups, -⟩ := h t ht
  exact ⟨Ids.forGood_iff.mpr husers, Ids.forGood_iff.mpr hgroups⟩

end Perm
