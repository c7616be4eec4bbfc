import XdxContainer.Mount.Live
import XdxContainer.Fs.Remove

/-!
# Mount/Rollback — what a failed `mount_config_file` takes away

The label unmounts the destination and removes what is empty below it, whoever made it:

    fails at                          umount2(dst)                file_remove(dst)
    ────────────────────────────────────────────────────────────────────────────────────────
    path_join                         dst is still empty          the same
    resolve, mode, create, bind       takes a mount off that      removes what was empty
    remount, strdup                   takes its own mount off     removes what was empty

so that everything is kept exactly when there is nothing to take off and nothing to remove
(`mountConfigFile_keeps_iff`).
-/

open Paths Fs Fallible

namespace Mount

/-- Everything one saw is still seen, and no mount is missing. -/
structure Keeps (w w' : World) : Prop where
  nodes : Tree.Le w.fs w'.fs
  mounts : w.mounts.Sublist w'.mounts

/-- Mounts are at nodes one sees. -/
def OnNodes (w : World) : Prop := ∀ p, (w.mountAt p).isSome → (w.fs.inode p).isSome

/-- The step comes after the bind. -/
def Step.bound (e : Step) : Bool := e.op = .remount || e.op = .strdup

/-- **The failure takes nothing away**: before the bind there is no mount at the destination; after
it the destination still leads to where the source is bound; and the first entry below the
destination that is not kept is no removal. -/
def Harmless (w : World) (src dst : Str) (e : Step) : Prop :=
  e.op = .pathSrc ∨ dst = []
    ∨ (if e.bound then ∀ p w', w.fs.resolve dst = .ok p → w.mount src dst = .ok w' →
        w'.fs.resolve dst = .ok p
      else ∀ p, w.fs.resolve dst = .ok p → w.mountAt p = none)
      ∧ w.firstRemoval (w.fs.nftw dst) = none

section Run

variable {env : Mishaps} {cnt : Container} {flags : MountFlags} {call : Call}
    {root dir src dst : Str}
  {w w₁ w₂ w' : World} {e : Step} {ok : Bool}

/-! ## Where a call fails -/

/-- What the calls before the bind leave. -/
def Prepared (env : Mishaps) (call : Call) (dst : Str) (w w₁ : World) : Prop :=
  w₁ = w ∨ ∃ mode, w₁ = (w.fileCreate (env.creation ⟨call, .create, 0⟩) dst none mode).2

/-- **How a call fails**, when `dst` is the destination. -/
theorem createAndBind_failed
    (h : createAndBind env.sys flags call ok src dst w = (.error e, w')) :
    e.op ≠ .pathSrc ∧ ∃ w₁, Prepared env call dst w w₁ ∧ (w₁ = w ∨ ok = true)
      ∧ (e.bound = false ∧ w' = w₁ ∨ e.bound = true ∧ w₁.mount src dst = .ok w') := by
  rcases bind_error h with h₁ | ⟨_, s₁, hok, h₁⟩
  · obtain ⟨rfl, hfail⟩ := attempt_error h₁
    exact ⟨nofun, w, .inl rfl, .inl rfl, .inl ⟨rfl, (Prod.mk.inj hfail).2.symm⟩⟩
  obtain ⟨rfl, rfl⟩ := Prod.mk.inj (attempt_ok hok)
  rcases bind_error h₁ with h₂ | ⟨mode, s₂, hmode, h₂⟩
  · obtain ⟨rfl, -, rfl⟩ := query_error h₂
    exact ⟨nofun, w', .inl rfl, .inl rfl, .inl ⟨rfl, rfl⟩⟩
  obtain ⟨-, rfl⟩ := query_ok hmode
  rcases bind_error h₂ with h₃ | ⟨_, w₁, hcreate, h₃⟩
  · obtain ⟨rfl, hfail⟩ := attempt_error h₃
    exact ⟨nofun, w', .inr ⟨mode, (congrArg Prod.snd hfail).symm⟩, .inr rfl, .inl ⟨rfl, rfl⟩⟩
  have hprep : Prepared env call dst s₂ w₁ :=
    .inr ⟨mode, (congrArg Prod.snd (attempt_ok hcreate)).symm⟩
  rcases bind_error h₃ with h₄ | ⟨_, w₂, hbind, h₄⟩
  · obtain ⟨rfl, hfail⟩ := attempt_error h₄
    rcases mount_cases hfail with ⟨-, rfl⟩ | ⟨hfalse, -⟩
    · exact ⟨nofun, w', hprep, .inr rfl, .inl ⟨rfl, rfl⟩⟩
    · cases hfalse
  have hw₂ : w₁.mount src dst = .ok w₂ := by
    rcases mount_cases (attempt_ok hbind) with ⟨hfalse, -⟩ | ⟨-, hok⟩
    · cases hfalse
    · exact hok
  rcases bind_error h₄ with h₅ | ⟨_, s₅, hremount, h₅⟩
  · obtain ⟨rfl, hfail⟩ := attempt_error h₅
    exact ⟨nofun, w₁, hprep, .inr rfl, .inr ⟨rfl, (Prod.mk.inj hfail).2 ▸ hw₂⟩⟩
  obtain rfl := (Prod.mk.inj (attempt_ok hremount)).2
  rcases bind_error h₅ with h₆ | ⟨_, s₆, hdup, h₆⟩
  · obtain ⟨rfl, hfail⟩ := attempt_error h₆
    exact ⟨nofun, w₁, hprep, .inr rfl, .inr ⟨rfl, (Prod.mk.inj hfail).2 ▸ hw₂⟩⟩
  · exact (pure_error h₆).elim

/-! ## What the calls before the bind leave -/

/-- The path is below the root, and nothing is there yet. -/
structure Fresh (root dst : Str) (w w₁ : World) (R : Loc) (ds : List Name) (c : Name) : Prop where
  rooted : Rooted w.fs root R (ds ++ [c])
  text : dst = bare root ++ render (ds ++ [c])
  length : dst.length < PATH_MAX
  absent : w.fs.inode (R ++ (ds ++ [c])) = none
  grown : w.Grown w₁ (R ++ (ds ++ [c]))

/-- **Either nothing changed, or the destination was not there.** -/
theorem prepared_cases (habs : root.head? = some '/')
    (hres : env.sys.pathResolveFull e [] root dir w = (true, dst))
    (h : Prepared env call dst w w₁) : w₁ = w ∨ ∃ R ds c, Fresh root dst w w₁ R ds c := by
  rcases h with rfl | ⟨mode, rfl⟩
  · exact .inl rfl
  by_cases hex : ∃ T, w.fs.resolveNoFollow (Tree.ftwStart dst) = .ok T
  · obtain ⟨T, hT⟩ := hex
    exact .inl (World.fileCreate_of_exists hT)
  obtain ⟨R, cs, hrooted, hroot, htext, hlen⟩ := rooted_of_resolved habs hres
  rcases List.eq_nil_or_concat cs with rfl | ⟨ds, c, rfl⟩
  · -- the root is there
    refine absurd ?_ hex
    have hdst : dst = root := by
      rw [htext]
      simp [Resolve.resultText]
    rw [Resolve.openRoot] at hroot
    split at hroot
    · cases hroot
    next p hp =>
    split_ifs at hroot with hdir
    rw [hdst]
    exact World.exists_ftwStart hp hdir
  · rw [List.concat_eq_append] at hrooted htext
    rw [resultText_eq (by simp)] at htext
    refine .inr ⟨R, ds, c, hrooted, htext, hlen, ?_, ?_⟩
    · by_contra hne
      refine hex ⟨R ++ (ds ++ [c]), ?_⟩
      rw [htext, hrooted.ftwStart_eq]
      exact (hrooted.of_prefix (List.prefix_append ds [c])).resolveNoFollow_of_inode
        (hrooted.names c (by simp)) (htext ▸ hlen) (Option.isSome_iff_ne_none.mpr hne)
    · rw [htext]
      exact World.grown_fileCreate hrooted

/-! ## A destination that was not there -/

section Fresh

variable {R : Loc} {ds : List Name} {c : Name}

theorem Fresh.resolve_ne (h : Fresh root dst w w₁ R ds c) (p : Loc) : w.fs.resolve dst ≠ .ok p := by
  intro hp
  obtain ⟨i, hi, -⟩ := Tree.inode_of_resolve hp
  rw [h.text] at hp
  rw [h.rooted.resolve (by simp) hp, h.absent] at hi
  cases hi

theorem Fresh.nftw_eq_nil (h : Fresh root dst w w₁ R ds c) : w.fs.nftw dst = [] := by
  rw [Tree.nftw, h.text, h.rooted.ftwStart_eq]
  split
  · rfl
  · next p hp =>
    obtain ⟨rfl, hsome⟩ := h.rooted.resolveNoFollow hp
    rw [h.absent] at hsome
    cases hsome

/-- What is below the destination then is the call's own. -/
theorem Fresh.keeps_fileRemove (h : Fresh root dst w w₁ R ds c) : Keeps w (w₁.fileRemove dst) := by
  have hrooted := h.rooted.grown h.grown.fs
  have hleaf (d : Name) : w₁.fs.inode (R ++ (ds ++ [c]) ++ [d]) = none := by
    by_contra hne
    obtain ⟨i, hi⟩ := Option.ne_none_iff_exists'.mp hne
    rcases h.grown.fs.new _ i hi with hold | ⟨hpre, -⟩
    · rw [Tree.inode_eq_none_below h.absent (List.prefix_append _ [d])] at hold
      cases hold
    · have hlen := hpre.length_le
      simp at hlen
  refine ⟨?_, ?_⟩
  · rw [World.fileRemove]
    rcases hfound : w₁.fs.resolveNoFollow (Tree.ftwStart dst) with err | p
    · have hnil : w₁.fs.nftw dst = [] := by rw [Tree.nftw, hfound]
      rw [hnil]
      exact h.grown.fs.le
    · have hfound' := hfound
      rw [h.text, hrooted.ftwStart_eq] at hfound'
      obtain ⟨rfl, hsome⟩ := hrooted.resolveNoFollow hfound'
      obtain ⟨i, hi⟩ := Option.isSome_iff_exists.mp hsome
      obtain ⟨v, hv, hpath⟩ := World.nftw_of_leaf hfound hi hleaf
      rw [hv, World.removeAll, World.doFileRemove_eq]
      rcases hfate : w₁.fate v with _ | q | _
      · exact h.grown.fs.le
      · -- the node removed is the destination
        obtain ⟨dir', c', hparent, rfl, -⟩ := World.named_of_fate hfate
        rw [hpath, h.text, hrooted.ftwStart_eq] at hparent
        obtain ⟨rfl, rfl⟩ := hrooted.resolveParent hparent
        intro p j hj
        have hnot : ¬R ++ ds ++ [c'] <+: p := by
          intro hpre
          rw [List.append_assoc] at hpre
          rw [Tree.inode_eq_none_below h.absent hpre] at hj
          cases hj
        change (w₁.fs.prune (R ++ ds ++ [c'])).inode p = some j
        rw [Tree.inode_prune, if_neg fun hpre => hnot hpre.2]
        exact h.grown.fs.le p j hj
      · exact h.grown.fs.le
  · rw [World.fileRemove, World.removeAll_mounts, h.grown.mounts]

/-- Nothing is mounted there. -/
theorem Fresh.umount2_eq (h : Fresh root dst w w₁ R ds c) (hw : OnNodes w) :
    w₁.umount2 dst = w₁ := by
  rw [World.umount2]
  split
  · rfl
  next p hp =>
  rw [h.text] at hp
  obtain rfl := (h.rooted.grown h.grown.fs).resolve (by simp) hp
  have hnone : w₁.mountAt (R ++ (ds ++ [c])) = none := by
    by_contra hne
    have hsome : (w.mountAt (R ++ (ds ++ [c]))).isSome := by
      rw [World.mountAt, World.mountOf, ← h.grown.mounts]
      exact Option.isSome_iff_ne_none.mpr hne
    have hnode := hw _ hsome
    rw [h.absent] at hnode
    cases hnode
  rw [hnone]

/-- The call's own mount goes, and what it covers comes back. -/
theorem Fresh.keeps_of_mount (h : Fresh root dst w w₁ R ds c) (hm : w₁.mount src dst = .ok w₂) :
    Keeps w ((w₂.umount2 dst).fileRemove dst) := by
  obtain ⟨S, L, hS, hL, hkind, hdst, hsrc, rfl⟩ := World.mount_eq_ok hm
  have hrooted := h.rooted.grown h.grown.fs
  obtain rfl : L = R ++ (ds ++ [c]) := hrooted.resolve (by simp) (h.text ▸ hdst)
  set top : Loc := R ++ (ds ++ [c]) with htop
  have hle : Tree.Le w.fs (w₁.bind S top hS hL hkind).fs := by
    intro p i hi
    rw [World.inode_bind_of_not_prefix hS hL hkind, h.grown.fs.le p i hi]
    intro hpre
    rw [Tree.inode_eq_none_below h.absent hpre] at hi
    cases hi
  -- the destination leads to the bound node: above it nothing has changed
  have hbound : Rooted (w₁.bind S top hS hL hkind).fs root R (ds ++ [c]) := by
    obtain ⟨m, hwalk⟩ := h.rooted.walk
    refine ⟨⟨m, hle.walk hwalk⟩, ?_, h.rooted.length, h.rooted.names, fun p hp hpre i hi => ?_⟩
    · exact Tree.isDir_iff.mp (hle.isDir (Tree.isDir_iff.mpr h.rooted.dir))
    · by_cases heq : p = ds ++ [c]
      · rw [heq, ← htop, World.inode_bind_top hS hL hkind] at hi
        obtain ⟨j, hj, hlink⟩ := Tree.inode_of_resolve hsrc
        obtain rfl : j = i := Option.some.inj (hj.symm.trans hi)
        exact hlink
      · rw [World.inode_bind_of_not_prefix hS hL hkind] at hi
        · exact hrooted.linkFree p hp hpre i hi
        · intro hlong
          have hle' := ((List.prefix_append_right_inj R).mp hlong).length_le
          exact heq (hpre.eq_of_length (Nat.le_antisymm hpre.length_le hle'))
  have hresolve : (w₁.bind S top hS hL hkind).fs.resolve dst = .ok top := by
    rw [h.text]
    refine hbound.resolve_of_inode (by simp) (h.text ▸ h.length) ?_
    rwa [← htop, World.inode_bind_top hS hL hkind]
  have humount : (w₁.bind S top hS hL hkind).umount2 dst = World.unbound hS hL hkind := by
    rw [World.umount2, hresolve]
    simp only [World.mountAt_bind hS hL hkind]
    rfl
  rw [humount]
  have hinode := World.inode_unbound hS hL hkind
  refine Fresh.keeps_fileRemove ⟨h.rooted, h.text, h.length, h.absent, ⟨?_, ?_⟩, ?_⟩
  · intro p i hi
    rw [hinode, h.grown.fs.le p i hi]
  · intro p i hi
    rw [hinode] at hi
    exact h.grown.fs.new p i hi
  · rw [World.mounts_unbound hS hL hkind, h.grown.mounts]

end Fresh

/-! ## A destination that was there -/

/-- What unmounting does. -/
theorem umount2_cases (w : World) (dst : Str) : w.umount2 dst = w
    ∨ ∃ p m, w.fs.resolve dst = .ok p ∧ w.mountAt p = some m ∧ w.umount2 dst = w.detach m := by
  rw [World.umount2]
  split
  · exact .inl rfl
  · next p hp =>
    rcases hm : w.mountAt p with _ | m
    · exact .inl rfl
    · exact .inr ⟨p, m, hp, hm, rfl⟩

/-- The label, before the bind. -/
theorem keeps_iff_of_unbound (w : World) (dst : Str) :
    Keeps w ((w.umount2 dst).fileRemove dst)
      ↔ (∀ p, w.fs.resolve dst = .ok p → w.mountAt p = none)
        ∧ w.firstRemoval (w.fs.nftw dst) = none := by
  by_cases hnone : ∀ p, w.fs.resolve dst = .ok p → w.mountAt p = none
  · have humount : w.umount2 dst = w := by
      rw [World.umount2]
      split
      · rfl
      · next p hp => rw [hnone p hp]
    rw [humount, and_iff_right hnone, ← World.le_removeAll_iff]
    refine ⟨fun h => h.nodes, fun h => ⟨h, ?_⟩⟩
    rw [World.fileRemove, World.removeAll_mounts]
  · refine iff_of_false (fun h => ?_) fun h => hnone h.1
    simp only [not_forall] at hnone
    obtain ⟨p, hp, hne⟩ := hnone
    obtain ⟨m, hm⟩ := Option.ne_none_iff_exists'.mp hne
    obtain ⟨i, hi, -⟩ := Tree.inode_of_resolve hp
    have hmounts := h.mounts
    rw [World.fileRemove, World.removeAll_mounts, World.umount2, hp] at hmounts
    simp only [hm] at hmounts
    have hcount := hmounts.countP_le (p := fun n => decide (n.top = p))
    have hlt := World.countP_detach_lt hm (by rw [hi]; rfl)
    omega

/-- The label, after the bind. -/
theorem keeps_iff_of_bound (hm : w.mount src dst = .ok w₂) :
    Keeps w ((w₂.umount2 dst).fileRemove dst)
      ↔ (∀ p w', w.fs.resolve dst = .ok p → w.mount src dst = .ok w' → w'.fs.resolve dst = .ok p)
        ∧ w.firstRemoval (w.fs.nftw dst) = none := by
  obtain ⟨S, L, hS, hL, hkind, hdst, hsrc, hw₂⟩ := World.mount_eq_ok hm
  have hstable : (∀ p w', w.fs.resolve dst = .ok p → w.mount src dst = .ok w' →
      w'.fs.resolve dst = .ok p) ↔ w₂.fs.resolve dst = .ok L := by
    refine ⟨fun h => h L w₂ hdst hm, fun h p w' hp hw' => ?_⟩
    obtain rfl := Except.ok.inj (hdst.symm.trans hp)
    obtain rfl := Except.ok.inj (hm.symm.trans hw')
    exact h
  rw [hstable]
  by_cases hresolve : w₂.fs.resolve dst = .ok L
  · rw [and_iff_right hresolve]
    have humount : w₂.umount2 dst = World.unbound hS hL hkind := by
      rw [World.umount2, hresolve]
      simp only [hw₂, World.mountAt_bind hS hL hkind]
      rfl
    have hinode := World.inode_unbound hS hL hkind
    have hmounts := World.mounts_unbound hS hL hkind
    have hnftw : (World.unbound hS hL hkind).fs.nftw dst = w.fs.nftw dst := by
      refine World.nftw_unbound hS hL hkind dst fun p i hp hi hd => ?_
      have hdir : w.fs.isDir p = true := Tree.isDir_iff.mpr ⟨i, hi, hd⟩
      exact World.resolve_eq_of_ftwStart hp hdir hdst ▸ List.prefix_rfl
    rw [humount, World.fileRemove, hnftw, ← World.firstRemoval_congr hinode hmounts,
      ← World.le_removeAll_iff]
    refine ⟨fun h p i hi => ?_, fun h => ⟨fun p i hi => ?_, ?_⟩⟩
    · rw [hinode] at hi
      exact h.nodes p i hi
    · rw [← hinode] at hi
      exact h p i hi
    · rw [World.removeAll_mounts, hmounts]
  · refine iff_of_false (fun h => hresolve ?_) fun h => hresolve h.1
    have hmounts := h.mounts
    rw [World.fileRemove, World.removeAll_mounts] at hmounts
    rcases umount2_cases w₂ dst with hsame | ⟨p, m, hp, hat, hdetach⟩
    · -- nothing is taken off: what is kept leads there still
      rw [hsame] at h
      exact (h.nodes.trans (World.removeAll_le _ _)).resolve hdst
    · -- another mount is taken off
      by_cases hpL : p = L
      · rw [← hpL, hp]
      · exfalso
        obtain ⟨i, hi, -⟩ := Tree.inode_of_resolve hp
        have hlt := World.countP_detach_lt hat (by rw [hi]; rfl)
        rw [hdetach] at hmounts
        have hcount := hmounts.countP_le (p := fun n => decide (n.top = p))
        have hnew : w₂.mounts.countP (fun n => decide (n.top = p))
            = w.mounts.countP fun n => decide (n.top = p) := by
          rw [hw₂, World.bind, List.countP_cons_of_neg]
          simpa using fun heq => hpL heq.symm
        omega

/-! ## The call -/

/-- **A failed call that had a destination**: the label has run on it. -/
theorem keeps_iff_of_failed (habs : cnt.rootfs.head? = some '/') (hw : OnNodes w) (hdst : dst ≠ [])
    (hres : env.sys.pathResolveFull ⟨call, .resolve, 0⟩ [] cnt.rootfs dir w = (ok, dst))
    (h : createAndBind env.sys flags call ok src dst w = (.error e, w₂)) :
    Keeps w ((w₂.umount2 dst).fileRemove dst) ↔ Harmless w src dst e := by
  obtain ⟨hop, w₁, hprep, hok, hend⟩ := createAndBind_failed h
  have hharmless : Harmless w src dst e ↔ (if e.bound then ∀ p w', w.fs.resolve dst = .ok p →
      w.mount src dst = .ok w' → w'.fs.resolve dst = .ok p
      else ∀ p, w.fs.resolve dst = .ok p → w.mountAt p = none)
      ∧ w.firstRemoval (w.fs.nftw dst) = none := by
    rw [Harmless, or_iff_right hop, or_iff_right hdst]
  have hcases : w₁ = w ∨ ∃ R ds c, Fresh cnt.rootfs dst w w₁ R ds c := by
    rcases hok with hsame | rfl
    · exact .inl hsame
    · exact prepared_cases habs hres hprep
  rcases hcases with rfl | ⟨R, ds, c, hfresh⟩
  · rcases hend with ⟨hbound, rfl⟩ | ⟨hbound, hm⟩
    · rw [hharmless, hbound]
      exact keeps_iff_of_unbound w₂ dst
    · rw [hharmless, hbound]
      exact keeps_iff_of_bound hm
  · -- what is at the destination is the call's own
    refine iff_of_true ?_ ?_
    · rcases hend with ⟨-, rfl⟩ | ⟨-, hm⟩
      · rw [hfresh.umount2_eq hw]
        exact hfresh.keeps_fileRemove
      · exact hfresh.keeps_of_mount hm
    · rw [hharmless, hfresh.nftw_eq_nil]
      refine ⟨?_, rfl⟩
      split_ifs
      · exact fun p _ hp => absurd hp (hfresh.resolve_ne p)
      · exact fun p hp => absurd hp (hfresh.resolve_ne p)

/-- Without a destination nothing is bound, created or undone. -/
theorem eq_of_failed_of_nil (habs : cnt.rootfs.head? = some '/')
    (hres : env.sys.pathResolveFull ⟨call, .resolve, 0⟩ [] cnt.rootfs dir w = (ok, []))
    (h : createAndBind env.sys flags call ok src [] w = (.error e, w')) : w' = w := by
  obtain ⟨-, w₁, hprep, hok, hend⟩ := createAndBind_failed h
  have hsame : w₁ = w := by
    rcases hok with hsame | rfl
    · exact hsame
    · rcases prepared_cases habs hres hprep with hsame | ⟨R, ds, c, hfresh⟩
      · exact hsame
      · have htext := hfresh.text
        simp [render] at htext
  rcases hend with ⟨-, rfl⟩ | ⟨-, hm⟩
  · exact hsame
  · obtain ⟨S, L, -, -, -, hL, -⟩ := World.mount_eq_ok hm
    exact absurd rfl (Tree.resolve_eq_ok_iff.mp hL).1

theorem mountUndoing_keeps_iff (habs : cnt.rootfs.head? = some '/') (hw : OnNodes w)
    (h : mountUndoing env.sys cnt flags call root dir w = (.error e, w')) :
    Keeps w w' ↔ Harmless w (pathJoin root dir).2
      (env.sys.pathResolveFull ⟨call, .resolve, 0⟩ [] cnt.rootfs dir w).2 e := by
  rcases bind_error h with h₁ | ⟨src, w₁, hsrc, h₁⟩
  · obtain ⟨w₂, hjoin, rfl⟩ := onError_error h₁
    obtain ⟨rfl, -, rfl⟩ := query_error hjoin
    exact iff_of_true ⟨Tree.Le.refl _, List.Sublist.refl _⟩ (.inl rfl)
  obtain ⟨hjoin, rfl⟩ := query_ok (onError_ok hsrc)
  split_ifs at hjoin
  obtain rfl := Option.some.inj hjoin
  rcases bind_error h₁ with h₂ | ⟨⟨ok, dst⟩, w₂, hread, hrun⟩
  · cases h₂
  obtain ⟨hres, rfl⟩ := reading_ok hread
  rw [hres]
  obtain ⟨w₃, hfail, rfl⟩ := onError_error hrun
  by_cases hdst : dst = []
  · rw [hdst] at hfail hres ⊢
    rw [eq_of_failed_of_nil habs hres hfail]
    exact iff_of_true ⟨Tree.Le.refl _, List.Sublist.refl _⟩ (.inr (.inl rfl))
  · rw [Sys.unmount, if_neg hdst]
    exact keeps_iff_of_failed habs hw hdst hres hfail

/-- **What a failed `mount_config_file` or `mount_procfs_mig` takes away**: everything is kept
exactly when the failure is harmless. -/
theorem mountConfigFile_keeps_iff {run : Call → Str → Str → Prog Step World Str}
    (hrun : run = mountConfigFile env.sys cnt ∨ run = mountProcfsMig env.sys cnt)
    (habs : cnt.rootfs.head? = some '/') (hw : OnNodes w)
    (h : run call root dir w = (.error e, w')) :
    Keeps w w' ↔ Harmless w (pathJoin root dir).2
      (env.sys.pathResolveFull ⟨call, .resolve, 0⟩ [] cnt.rootfs dir w).2 e := by
  rcases hrun with rfl | rfl
  · exact mountUndoing_keeps_iff habs hw h
  · exact mountUndoing_keeps_iff habs hw h

end Run

/-! ## A directory that was there -/

/-- A container at `/c` that has an empty directory `e`, which the host has not. -/
def bareWorld : World where
  fs := .ofNodes [([], { mode := ⟨.dir, 0x1ed⟩ }), ([['c']], { mode := ⟨.dir, 0x1ed⟩ }),
    ([['c'], ['e']], { mode := ⟨.dir, 0x1ed⟩ })] (by decide)
  mounts := []

/-- A container that is given nothing. -/
def bareContainer : Container where
  flags := 0
  rootfs := ['/', 'c']
  binsDir := []
  libsDir := []
  libs32Dir := []
  drisDir := []
  libs := []

/-- The same container with a file `k` of three bytes in `e`. -/
def filledWorld : World where
  fs := .ofNodes [([], { mode := ⟨.dir, 0x1ed⟩ }), ([['c']], { mode := ⟨.dir, 0x1ed⟩ }),
    ([['c'], ['e']], { mode := ⟨.dir, 0x1ed⟩ }),
    ([['c'], ['e'], ['k']], { mode := ⟨.reg, 0x1a4⟩, size := 3 })] (by decide)
  mounts := []

/-- The host has no `/e`, and the container's is kept, with what is in it. -/
theorem mountConfigFile_keeps_filledWorld :
    ∃ w', mountConfigFile fortunate.sys bareContainer .ldConfig ['/'] ['/', 'e'] filledWorld
        = (.error ⟨.ldConfig, .mode, 0⟩, w')
      ∧ Keeps filledWorld w' := by
  have hrun : mountConfigFile fortunate.sys bareContainer .ldConfig ['/'] ['/', 'e'] filledWorld
      = (.error ⟨.ldConfig, .mode, 0⟩,
        (mountConfigFile fortunate.sys bareContainer .ldConfig ['/'] ['/', 'e'] filledWorld).2) :=
    Prod.ext (by decide +kernel) rfl
  refine ⟨_, hrun, (mountConfigFile_keeps_iff (.inl rfl) rfl (fun p hp => ?_) hrun).mpr
    (.inr (.inr ⟨fun p hp => rfl, by decide +kernel⟩))⟩
  cases hp

/-- **`/e` is removed from the container** because the host has none to mount there. -/
theorem mountConfigFile_removes_dir :
    ∃ w', mountConfigFile fortunate.sys bareContainer .ldConfig ['/'] ['/', 'e'] bareWorld
        = (.error ⟨.ldConfig, .mode, 0⟩, w')
      ∧ OnNodes bareWorld ∧ ¬Keeps bareWorld w' := by
  have hrun : mountConfigFile fortunate.sys bareContainer .ldConfig ['/'] ['/', 'e'] bareWorld
      = (.error ⟨.ldConfig, .mode, 0⟩,
        (mountConfigFile fortunate.sys bareContainer .ldConfig ['/'] ['/', 'e'] bareWorld).2) :=
    Prod.ext (by decide +kernel) rfl
  refine ⟨_, hrun, fun p hp => ?_, fun h => ?_⟩
  · cases hp
  · have hkept := h.nodes [['c'], ['e']] { mode := ⟨.dir, 0x1ed⟩ } (by decide +kernel)
    revert hkept
    decide +kernel

end Mount
