import XdxContainer.Data.Layers

/-!
# Mount/Table — a mount table: mounts laid over the locations of a container

    bind k      ──▸ a new entry at `k`, over whatever is there
    umount p    ──▸ the entry seen where `p` leads is gone, if it starts there, and the newer ones
                    below it with it (`MNT_DETACH`)

Entries are kept newest first and carry an id that is never used again, so that a mount is known
even when another one has taken its place.  `Layers` says what unmounting leaves of them.

* `restored_iff`, `cleared_iff` — when unmounting gives the table back that was there before, and
  when it leaves no mount made since.
-/

namespace Mount

variable {κ π : Type}

/-- A mount: its number in the table, and the node it is attached to. -/
structure Entry (κ : Type) where
  id : ℕ
  node : List κ
  deriving DecidableEq

/-- A mount table; ids are given out in order. -/
@[ext] structure Table (κ : Type) where
  entries : List (Entry κ) := []
  next : ℕ := 0
  fresh : ∀ e ∈ entries, e.id < next := by exact List.forall_mem_nil _

namespace Table

variable {t : Table κ}

/-! ## Mounting -/

/-- Mount something at a location. -/
def bind (k : List κ) (t : Table κ) : Table κ where
  entries := ⟨t.next, k⟩ :: t.entries
  next := t.next + 1
  fresh e he := by
    rcases List.mem_cons.mp he with rfl | he
    · exact Nat.lt_succ_self _
    · exact Nat.lt_succ_of_lt (t.fresh e he)

/-- Mount at one location after the other. -/
def binds (ks : List (List κ)) (t : Table κ) : Table κ := ks.foldl (fun t k => t.bind k) t

/-- Binds of two lists. -/
theorem binds_append (ks ks' : List (List κ)) (t : Table κ) :
    t.binds (ks ++ ks') = (t.binds ks).binds ks' := by
  rw [binds, List.foldl_append, binds, binds]

/-- The mounts made at locations, newest first, with ids from `n` on. -/
def made (n : ℕ) : List (List κ) → List (Entry κ)
  | [] => []
  | k :: ks => made (n + 1) ks ++ [⟨n, k⟩]

/-- The newest mounts come first. -/
theorem entries_binds (ks : List (List κ)) (t : Table κ) :
    (t.binds ks).entries = made t.next ks ++ t.entries := by
  induction ks generalizing t with
  | nil => rfl
  | cons k ks ih =>
    change ((t.bind k).binds ks).entries = _
    rw [ih, made, List.append_assoc]
    rfl

theorem map_node_made (n : ℕ) (ks : List (List κ)) : ((made n ks).map (·.node)).Perm ks := by
  induction ks generalizing n with
  | nil => exact List.Perm.refl _
  | cons k ks ih =>
    rw [made, List.map_append]
    exact (List.perm_append_singleton _ _).trans ((ih (n + 1)).cons k)

theorem le_of_mem_made {n : ℕ} {ks : List (List κ)} {x : Entry κ} (hx : x ∈ made n ks) :
    n ≤ x.id := by
  induction ks generalizing n with
  | nil => cases hx
  | cons k ks ih =>
    rcases List.mem_append.mp hx with hx | hx
    · exact Nat.le_of_succ_le (ih hx)
    · rw [List.mem_singleton.mp hx]

/-- A mount that was made is at one of the locations. -/
theorem node_mem_of_mem_made {n : ℕ} {ks : List (List κ)} {x : Entry κ} (hx : x ∈ made n ks) :
    x.node ∈ ks :=
  (map_node_made n ks).subset (List.mem_map_of_mem hx)

/-- What is mounted since was not there. -/
theorem notMem_of_mem_made {ks : List (List κ)} {x : Entry κ} (hx : x ∈ made t.next ks) :
    x ∉ t.entries := fun h => absurd (t.fresh x h) (Nat.not_lt.mpr (le_of_mem_made hx))

/-! ## Unmounting -/

variable [DecidableEq κ] {leads : List (Entry κ) → π → Option (List κ)}

/-- Unmount what is mounted where a path leads. -/
def umount (leads : List (Entry κ) → π → Option (List κ)) (p : π) (t : Table κ) : Table κ where
  entries := Layers.off (·.node) leads t.entries p
  next := t.next
  fresh e he := t.fresh e ((Layers.off_sublist t.entries p).mem he)

/-- Unmount one path after the other. -/
def umounts (leads : List (Entry κ) → π → Option (List κ)) (ps : List π) (t : Table κ) : Table κ :=
  ps.foldl (fun t p => t.umount leads p) t

/-- Unmountings of two lists. -/
theorem umounts_append (ps qs : List π) (t : Table κ) :
    t.umounts leads (ps ++ qs) = (t.umounts leads ps).umounts leads qs := by
  rw [umounts, List.foldl_append, umounts, umounts]

/-- Unmounting takes layers off. -/
theorem entries_umounts (ps : List π) (t : Table κ) :
    (t.umounts leads ps).entries = Layers.offs (·.node) leads ps t.entries := by
  induction ps generalizing t with
  | nil => rfl
  | cons p ps ih => exact ih (t.umount leads p)

/-- A path that leads nowhere unmounts nothing. -/
theorem umount_of_none {p : π} (h : ∀ l, leads l p = none) : t.umount leads p = t := by
  have hentries : Layers.off (·.node) leads t.entries p = t.entries := by
    rw [Layers.off, h]
    rfl
  exact Table.ext hentries rfl

/-! ## What is left of the mounts made since -/

variable {ks : List (List κ)} {ps : List π}

/-- The mounts made since are unmounted, and no others. -/
theorem restored_iff : ((t.binds ks).umounts leads ps).entries = t.entries
    ↔ Layers.Unwinds (·.node) leads False (made t.next ks) t.entries ps := by
  rw [entries_umounts, entries_binds]
  exact Layers.unwinds_iff fun x hx => notMem_of_mem_made hx

/-- What is left was there before exactly where it is none of what was mounted since. -/
theorem forall_old_iff : (∀ x ∈ ((t.binds ks).umounts leads ps).entries, x.id < t.next)
    ↔ ∀ x ∈ Layers.offs (·.node) leads ps (made t.next ks ++ t.entries), x ∉ made t.next ks := by
  rw [entries_umounts, entries_binds]
  refine forall₂_congr fun x hx => ⟨fun h hmade => ?_, fun h => ?_⟩
  · exact absurd h (Nat.not_lt.mpr (le_of_mem_made hmade))
  · rcases List.mem_append.mp ((Layers.offs_sublist _ _ ps _).mem hx) with hmade | hold
    · exact absurd hmade h
    · exact t.fresh x hold

/-- The mounts made since are unmounted. -/
theorem cleared_iff : (∀ x ∈ ((t.binds ks).umounts leads ps).entries, x.id < t.next)
    ↔ Layers.Unwinds (·.node) leads True (made t.next ks) t.entries ps := by
  rw [forall_old_iff]
  exact Layers.clears_iff fun x hx => notMem_of_mem_made hx

section Apart

variable {place : π → List κ} {S : Set (List κ)}

/-- Where each path leads to one location and none of these is below another, only how often each is
unmounted matters. -/
theorem restored_iff_of_apart (hS : IsAntichain (· <+: ·) S)
    (hplace : ∀ l, ∀ p ∈ ps, leads l p = some (place p)) (hks : ∀ k ∈ ks, k ∈ S)
    (hps : ∀ p ∈ ps, place p ∈ S) :
    ((t.binds ks).umounts leads ps).entries = t.entries
      ↔ ∃ more, (ps.map place).Perm (ks ++ more)
        ∧ ∀ k ∈ more, Layers.starts Entry.node k t.entries = false := by
  have hown : ∀ x ∈ made t.next ks, x.node ∈ S := fun x hx => hks _ (node_mem_of_mem_made hx)
  have hmap : ∀ k ∈ ps.map place, k ∈ S := by simpa using hps
  rw [entries_umounts, entries_binds, Layers.offs_eq_pops hplace,
    Layers.pops_eq_iff hS hown hmap fun x hx => notMem_of_mem_made hx]
  have hperm := map_node_made t.next ks
  refine exists_congr fun more => and_congr_left fun _ => ?_
  exact ⟨fun h => h.trans (hperm.append_right more),
    fun h => h.trans (hperm.symm.append_right more)⟩

/-- Mounts apart are gone when each is unmounted. -/
theorem cleared_iff_of_apart (hS : IsAntichain (· <+: ·) S)
    (hplace : ∀ l, ∀ p ∈ ps, leads l p = some (place p)) (hks : ∀ k ∈ ks, k ∈ S)
    (hps : ∀ p ∈ ps, place p ∈ S) :
    (∀ x ∈ ((t.binds ks).umounts leads ps).entries, x.id < t.next)
      ↔ ks.Subperm (ps.map place) := by
  have hown : ∀ x ∈ made t.next ks, x.node ∈ S := fun x hx => hks _ (node_mem_of_mem_made hx)
  have hmap : ∀ k ∈ ps.map place, k ∈ S := by simpa using hps
  rw [forall_old_iff, Layers.offs_eq_pops hplace,
    Layers.pops_left_iff hS hown hmap fun x hx => notMem_of_mem_made hx]
  exact (map_node_made t.next ks).subperm_right

end Apart

end Table

end Mount
