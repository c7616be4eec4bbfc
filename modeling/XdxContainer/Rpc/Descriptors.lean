import XdxContainer.Rpc.Service
import XdxContainer.Control.Machine

/-!
# Rpc/Descriptors — which descriptors the services close

    at rest ──enter──▸ wiped ──rpcInit──▸ started ──initCall──▸ at rest, initialized
                         │         └──▸ failed ──giveUp──▸ at rest
                         └─storePath─▸ failed

`driver_init`, `nvcgo_init` and the two shutdowns as a machine, its steps interleaved with other
parts of the process that open and close descriptors.  `setup_client` closes the service's end of
the pair and leaves its number in the object, and every later close of that number is of a
descriptor the object no longer has.  `clean_iff_tidy` says exactly which runs make no such close.
-/

open Machine

namespace Services

/-- A global context: its rpc object, and its own flag. -/
structure Ctx where
  rpc : Rpc
  initialized : Bool

/-- How far a call of `driver_init` or `nvcgo_init` has come. -/
inductive Phase
  | rest
  | wiped
  | started
  | failed
  deriving DecidableEq

/-- The descriptors and processes, and what the contexts of the services say. -/
structure State where
  world : World
  ctx : Service → Ctx
  phase : Service → Phase

/-- What the process does. -/
inductive Step
  /-- Another part of the process opens a descriptor. -/
  | openOther
  /-- It closes one of its own. -/
  | closeOther (n : ℕ)
  /-- `driver_init` or `nvcgo_init` starts and overwrites its context. -/
  | enter (s : Service)
  /-- `driver_init` on a dxcore system: joining the path of the driver store fails. -/
  | storePath
  | rpcInit (s : Service) (o : InitOutcome)
  /-- The first call of the service succeeds or fails. -/
  | initCall (s : Service) (ok : Bool)
  /-- The label of `driver_init` or `nvcgo_init`: `rpc_shutdown`. -/
  | giveUp (s : Service) (waited : Bool)
  /-- `driver_shutdown` or `nvcgo_shutdown`. -/
  | shutdown (s : Service) (waited : Bool)

namespace State

/-- A service's context, phase and the world are replaced. -/
def put (st : State) (s : Service) (c : Ctx) (p : Phase) (w : World) : State where
  world := w
  ctx := Function.update st.ctx s c
  phase := Function.update st.phase s p

/-- One step, if it can be taken. -/
def step (st : State) : Step → Option State
  | .openOther => some { st with world := st.world.openOther }
  | .closeOther n =>
    if n ∈ st.world.others then some { st with world := st.world.closeOther n } else none
  | .enter s =>
    if st.phase s = .rest then some (st.put s ⟨Rpc.zero, false⟩ .wiped st.world) else none
  | .storePath =>
    if st.phase .driver = .wiped then some (st.put .driver (st.ctx .driver) .failed st.world)
    else none
  | .rpcInit s o =>
    if st.phase s = .wiped then
      let (ok, r, w) := rpcInit s o (st.ctx s).rpc st.world
      some (st.put s { st.ctx s with rpc := r } (if ok then .started else .failed) w)
    else none
  | .initCall s ok =>
    if st.phase s = .started then
      if ok then some (st.put s { st.ctx s with initialized := true } .rest st.world)
      else some (st.put s (st.ctx s) .failed st.world)
    else none
  | .giveUp s waited =>
    if st.phase s = .failed then
      let (_, r, w) := rpcShutdown s waited (st.ctx s).rpc st.world
      some (st.put s { st.ctx s with rpc := r } .rest w)
    else none
  | .shutdown s waited =>
    if st.phase s = .rest then
      if (st.ctx s).initialized then
        let (ok, r, w) := rpcShutdown s waited (st.ctx s).rpc st.world
        some (st.put s ⟨r, !ok⟩ .rest w)
      else some st
    else none

/-- A step that closes only what the object still has: `setup_client` does not fail, and
`rpc_shutdown` closes nothing, because the object has no descriptors or because the process cannot
be reaped. -/
def Tidy (st : State) : Step → Prop
  | .rpcInit _ o =>
    o.socketpair = true → o.fork.isSome → o.getpeername = true ∧ o.clntunixCreate = true
  | .giveUp s waited =>
    ((st.ctx s).rpc.clt < 0 ∧ (st.ctx s).rpc.svc < 0) ∨
      (0 < (st.ctx s).rpc.pid ∧ ¬ Reaps (st.ctx s).rpc.pid waited st.world)
  | .shutdown s waited =>
    (st.ctx s).initialized → ¬ Reaps (st.ctx s).rpc.pid waited st.world
  | _ => True

/-! ## The invariant -/

/-- An object whose service is up has both numbers, but the service's end is not open any more. -/
structure Up (held : Finset ℕ) (r : Rpc) : Prop where
  pid : 0 < r.pid
  clt : 0 ≤ r.clt
  svc : 0 ≤ r.svc
  closed : r.svc.toNat ∉ held

/-- An object that is given up has no numbers, or two that cannot both be closed. -/
def Down (held : Finset ℕ) (r : Rpc) : Prop :=
  (r.clt < 0 ∧ r.svc < 0) ∨
    (0 ≤ r.clt ∧ 0 ≤ r.svc ∧ (r.svc.toNat ∉ held ∨ r.svc.toNat = r.clt.toNat))

/-- What holds of a service's object in each phase. -/
def Fits (held : Finset ℕ) (c : Ctx) : Phase → Prop
  | .rest => c.initialized → Up held c.rpc
  | .wiped => c.rpc = Rpc.zero ∧ c.initialized = false
  | .started => Up held c.rpc ∧ c.initialized = false
  | .failed => Down held c.rpc ∧ c.initialized = false

/-- Each context fits what its service holds. -/
def Inv (st : State) : Prop := ∀ s, Fits (st.world.held s) (st.ctx s) (st.phase s)

/-- Only the service that acted has to be looked at. -/
theorem Inv.put {st : State} (hst : st.Inv) {s : Service} {c : Ctx} {p : Phase} {w : World}
    (hw : ∀ s', s' ≠ s → w.held s' = st.world.held s') (hs : Fits (w.held s) c p) :
    (st.put s c p w).Inv := by
  intro s'
  by_cases h : s' = s
  · subst h
    simpa [State.put] using hs
  · have hother := hst s'
    rw [← hw s' h] at hother
    simpa [State.put, h] using hother

end State

/-! ## The steps of rpc.c -/

section Spec

variable (s : Service) (o : InitOutcome) {r : Rpc} (w : World)

/-- The pair a `socketpair` gives: two numbers, both held. -/
theorem socketpair_spec : ∃ (a b : ℕ) (w' : World), w.socketpair s = (a, b, w') ∧ b ≠ a ∧
    a ∈ w'.held s ∧ b ∈ w'.held s ∧ (∀ s', s' ≠ s → w'.held s' = w.held s') ∧
    (w'.Clean ↔ w.Clean) := by
  refine ⟨_, _, _, rfl, ?_, by simp, by simp, fun s' h => by simp [h], Iff.rfl⟩
  intro he
  refine lowestFree_notMem (insert (lowestFree w.opened) w.opened) ?_
  rw [he]
  exact Finset.mem_insert_self _ _

theorem rpcInit_of_socketpair (hr : r.initialized = false) (ho : o.socketpair = false) :
    rpcInit s o r w = (false, Rpc.blank, w) := by
  simp [rpcInit, hr, ho, rpcInitFail, Rpc.blank, World.xclose]

/-- The process cannot be forked: both ends are closed, and the object keeps their numbers. -/
theorem rpcInit_of_fork (hr : r.initialized = false) (ho : o.socketpair = true)
    (hfork : o.fork = none) : ∃ (r' : Rpc) (w' : World), rpcInit s o r w = (false, r', w') ∧
      State.Down (w'.held s) r' ∧ (∀ s', s' ≠ s → w'.held s' = w.held s') ∧
      (w'.Clean ↔ w.Clean) := by
  obtain ⟨a, b, w₁, hpair, hne, ha, hb, hother, hclean⟩ := socketpair_spec s w
  refine ⟨{ Rpc.blank with clt := a, svc := b }, (w₁.xclose s a).xclose s b, ?_, .inr ⟨?_, ?_, ?_⟩,
    fun s' h => ?_, ?_⟩
  · simp [rpcInit, hr, ho, hpair, hfork, rpcInitFail, Rpc.blank]
  · exact Int.natCast_nonneg a
  · exact Int.natCast_nonneg b
  · left
    rw [World.held_xclose _ _ (Int.natCast_nonneg b)]
    simp
  · rw [World.held_xclose_of_ne _ _ h, World.held_xclose_of_ne _ _ h, hother s' h]
  · rw [World.clean_xclose_xclose _ _ (Int.natCast_nonneg a) (Int.natCast_nonneg b)]
    simp [ha, hb, hne, hclean]

/-- The child's number is positive, and nothing happens to descriptors. -/
theorem fork_spec (seed : ℕ) : ∃ (pid : ℕ) (w' : World), w.fork s seed = (pid, w') ∧ 0 < pid ∧
    w'.held = w.held ∧ (w'.Clean ↔ w.Clean) := by
  refine ⟨_, _, rfl, ?_, rfl, Iff.rfl⟩
  unfold World.freshPid
  split_ifs with h
  · exact h.1
  · exact Nat.succ_pos _

/-- What there is when the process is forked: the client's end held, the service's end closed. -/
theorem forked_spec (seed : ℕ) : ∃ (a b pid : ℕ) (w₁ w₂ : World),
    w.socketpair s = (a, b, w₁) ∧ w₁.fork s seed = (pid, w₂) ∧
      State.Up ((w₂.xclose s b).held s) { Rpc.blank with clt := a, svc := b, pid := pid } ∧
      (∀ s', s' ≠ s → (w₂.xclose s b).held s' = w.held s') ∧
      ((w₂.xclose s b).Clean ↔ w.Clean) := by
  obtain ⟨a, b, w₁, hpair, -, -, hb, hother, hclean⟩ := socketpair_spec s w
  obtain ⟨pid, w₂, hfork, hpid, hheld, hclean₂⟩ := fork_spec s w₁ seed
  refine ⟨a, b, pid, w₁, w₂, hpair, hfork, ⟨?_, ?_, ?_, ?_⟩, fun s' h => ?_, ?_⟩
  · exact Int.natCast_pos.mpr hpid
  · exact Int.natCast_nonneg a
  · exact Int.natCast_nonneg b
  · rw [World.held_xclose _ _ (Int.natCast_nonneg b)]
    simp
  · rw [World.held_xclose_of_ne _ _ h, hheld, hother s' h]
  · rw [World.clean_xclose _ _ (Int.natCast_nonneg b), hheld, hclean₂, hclean]
    simp [hb]

theorem rpcInit_of_ok (hr : r.initialized = false) (ho : o.socketpair = true)
    (hfork : o.fork.isSome) (hsetup : o.getpeername = true ∧ o.clntunixCreate = true) :
    ∃ (r' : Rpc) (w' : World), rpcInit s o r w = (true, r', w') ∧ State.Up (w'.held s) r' ∧
      (∀ s', s' ≠ s → w'.held s' = w.held s') ∧ (w'.Clean ↔ w.Clean) := by
  obtain ⟨seed, hseed⟩ := Option.isSome_iff_exists.mp hfork
  obtain ⟨a, b, pid, w₁, w₂, hpair, hforked, hup, hother, hclean⟩ := forked_spec s w seed
  refine ⟨⟨true, a, b, pid, true⟩, w₂.xclose s b, ?_, ⟨hup.pid, hup.clt, hup.svc, hup.closed⟩,
    hother, hclean⟩
  simp [rpcInit, hr, ho, hpair, hseed, hforked, setupClient, hsetup, Rpc.blank]

theorem setupClient_of_not (r : Rpc) (h : ¬ (o.getpeername = true ∧ o.clntunixCreate = true)) :
    setupClient s o r w = (false, r, w.xclose s r.svc) := by
  unfold setupClient
  split_ifs with h₁ h₂
  · rfl
  · rfl
  · exact absurd ⟨by simpa using h₁, by simpa using h₂⟩ h

/-- `setup_client` fails: the label closes the service's end once more. -/
theorem rpcInit_of_setup (hr : r.initialized = false) (ho : o.socketpair = true)
    (hfork : o.fork.isSome) (hsetup : ¬ (o.getpeername = true ∧ o.clntunixCreate = true)) :
    ∃ (r' : Rpc) (w' : World), rpcInit s o r w = (false, r', w') ∧ ¬ w'.Clean := by
  obtain ⟨seed, hseed⟩ := Option.isSome_iff_exists.mp hfork
  obtain ⟨a, b, pid, w₁, w₂, hpair, hforked, hup, hother, hclean⟩ := forked_spec s w seed
  have hfail := fun r' => setupClient_of_not s o w₂ r' hsetup
  have hpid : (0 : ℤ) < pid := hup.pid
  refine ⟨{ Rpc.blank with clt := a, svc := b, pid := pid },
    ((reapProcess pid o.waited (w₂.xclose s b)).2.xclose s a).xclose s b, ?_, ?_⟩
  · simp only [rpcInit, hr, ho, hpair, hseed, hforked, hfail, Rpc.blank, rpcInitFail, hpid, if_true,
      Bool.not_true, Bool.false_eq_true, if_false]
  · rw [World.clean_xclose_xclose _ _ (Int.natCast_nonneg a) (Int.natCast_nonneg b),
      reapProcess_held]
    rintro ⟨-, -, hb, -⟩
    exact hup.closed hb

theorem State.Up.down {held : Finset ℕ} (h : State.Up held r) : State.Down held r :=
  .inr ⟨h.clt, h.svc, .inl h.closed⟩

theorem rpcShutdown_held_of_ne {s' : Service} (h : s' ≠ s) (waited : Bool) :
    (rpcShutdown s waited r w).2.2.held s' = w.held s' := by
  by_cases hreap : 0 < r.pid → Reaps r.pid waited w
  · obtain ⟨w', hw', hheld, -⟩ := rpcShutdown_of_reaps s w hreap
    rw [hw', World.held_xclose_of_ne _ _ h, World.held_xclose_of_ne _ _ h, hheld]
  · obtain ⟨hpid, hnot⟩ := Classical.not_imp.mp hreap
    rw [rpcShutdown_of_not_reaps s w hpid hnot]

/-- Giving an object up is clean when there is nothing to close or the closes are not reached. -/
theorem clean_rpcShutdown {waited : Bool} (hr : State.Down (w.held s) r) :
    (rpcShutdown s waited r w).2.2.Clean ↔
      w.Clean ∧ ((r.clt < 0 ∧ r.svc < 0) ∨ (0 < r.pid ∧ ¬ Reaps r.pid waited w)) := by
  by_cases hreap : 0 < r.pid → Reaps r.pid waited w
  · obtain ⟨w', hw', hheld, hclean⟩ := rpcShutdown_of_reaps s w hreap
    rw [hw']
    have hnot : ¬ (0 < r.pid ∧ ¬ Reaps r.pid waited w) := fun h => h.2 (hreap h.1)
    rcases hr with ⟨hclt, hsvc⟩ | ⟨hclt, hsvc, hbad⟩
    · rw [World.xclose_of_neg _ _ hclt, World.xclose_of_neg _ _ hsvc, hclean]
      simp [hclt, hsvc]
    · rw [World.clean_xclose_xclose _ _ hclt hsvc, hheld]
      have hclt' : ¬ r.clt < 0 := not_lt.mpr hclt
      tauto
  · obtain ⟨hpid, hnot⟩ := Classical.not_imp.mp hreap
    rw [rpcShutdown_of_not_reaps s w hpid hnot]
    simp [hpid, hnot]

theorem clean_of_rpcShutdown {waited : Bool} (h : (rpcShutdown s waited r w).2.2.Clean) :
    w.Clean := by
  by_cases hreap : 0 < r.pid → Reaps r.pid waited w
  · obtain ⟨w', hw', -, hclean⟩ := rpcShutdown_of_reaps s w hreap
    rw [hw'] at h
    exact hclean.mp (World.clean_of_xclose _ _ (World.clean_of_xclose _ _ h))
  · obtain ⟨hpid, hnot⟩ := Classical.not_imp.mp hreap
    rwa [rpcShutdown_of_not_reaps s w hpid hnot] at h

/-- The four ways of `rpc_init` on an object that is not initialised. -/
theorem rpcInit_cases (hr : r.initialized = false) :
    ∃ (ok : Bool) (r' : Rpc) (w' : World), rpcInit s o r w = (ok, r', w') ∧
      ((ok = true ∧ State.Up (w'.held s) r' ∧ (∀ s', s' ≠ s → w'.held s' = w.held s') ∧
          (w'.Clean ↔ w.Clean) ∧ o.socketpair = true ∧ o.fork.isSome ∧
          o.getpeername = true ∧ o.clntunixCreate = true) ∨
        (ok = false ∧ State.Down (w'.held s) r' ∧ (∀ s', s' ≠ s → w'.held s' = w.held s') ∧
          (w'.Clean ↔ w.Clean) ∧ ¬ (o.socketpair = true ∧ o.fork.isSome)) ∨
        (ok = false ∧ ¬ w'.Clean ∧ o.socketpair = true ∧ o.fork.isSome ∧
          ¬ (o.getpeername = true ∧ o.clntunixCreate = true))) := by
  by_cases ho : o.socketpair = true
  · by_cases hfork : o.fork.isSome
    · by_cases hsetup : o.getpeername = true ∧ o.clntunixCreate = true
      · obtain ⟨r', w', heq, hup, hother, hclean⟩ := rpcInit_of_ok s o w hr ho hfork hsetup
        exact ⟨true, r', w', heq, .inl ⟨rfl, hup, hother, hclean, ho, hfork, hsetup⟩⟩
      · obtain ⟨r', w', heq, hfoul⟩ := rpcInit_of_setup s o w hr ho hfork hsetup
        exact ⟨false, r', w', heq, .inr (.inr ⟨rfl, hfoul, ho, hfork, hsetup⟩)⟩
    · have hnone : o.fork = none := by simpa using hfork
      obtain ⟨r', w', heq, hdown, hother, hclean⟩ := rpcInit_of_fork s o w hr ho hnone
      exact ⟨false, r', w', heq, .inr (.inl ⟨rfl, hdown, hother, hclean, fun h => hfork h.2⟩)⟩
  · have hdown : State.Down (w.held s) Rpc.blank := .inl (by decide)
    exact ⟨false, Rpc.blank, w, rpcInit_of_socketpair s o w hr (by simpa using ho),
      .inr (.inl ⟨rfl, hdown, fun _ _ => rfl, Iff.rfl, fun h => ho h.1⟩)⟩

end Spec

/-! ## The steps of the machine -/

namespace State

variable {st t : State} {a : Step}

/-- A step that met the condition keeps the invariant. -/
theorem inv_step (hst : st.Inv) (htidy : st.Tidy a) (h : st.step a = some t) : t.Inv := by
  cases a with
  | openOther =>
    obtain rfl := Option.some.inj h
    exact hst
  | closeOther n =>
    obtain ⟨-, h⟩ := Option.ite_none_right_eq_some.mp h
    obtain rfl := Option.some.inj h
    exact hst
  | enter s =>
    obtain ⟨-, h⟩ := Option.ite_none_right_eq_some.mp h
    obtain rfl := Option.some.inj h
    exact hst.put (fun _ _ => rfl) ⟨rfl, rfl⟩
  | storePath =>
    obtain ⟨hphase, h⟩ := Option.ite_none_right_eq_some.mp h
    obtain rfl := Option.some.inj h
    have hfits := hst .driver
    rw [hphase] at hfits
    refine hst.put (fun _ _ => rfl) ⟨?_, hfits.2⟩
    rw [hfits.1]
    exact .inr ⟨le_rfl, le_rfl, .inr rfl⟩
  | rpcInit s o =>
    rw [step] at h
    obtain ⟨hphase, h⟩ := Option.ite_none_right_eq_some.mp h
    have hfits := hst s
    rw [hphase] at hfits
    have hinit : (st.ctx s).rpc.initialized = false := by rw [hfits.1]; rfl
    obtain ⟨ok, r', w', heq, hcases⟩ := rpcInit_cases s o st.world hinit
    rw [heq] at h
    obtain rfl := Option.some.inj h
    rcases hcases with ⟨rfl, hup, hother, -⟩ | ⟨rfl, hdown, hother, -⟩ | ⟨rfl, -, ho, hfork, hbad⟩
    · exact hst.put hother ⟨hup, hfits.2⟩
    · exact hst.put hother ⟨hdown, hfits.2⟩
    · exact absurd (htidy ho hfork) hbad
  | initCall s ok =>
    rw [step] at h
    obtain ⟨hphase, h⟩ := Option.ite_none_right_eq_some.mp h
    have hfits := hst s
    rw [hphase] at hfits
    cases ok with
    | true =>
      obtain rfl := Option.some.inj h
      exact hst.put (fun _ _ => rfl) fun _ => hfits.1
    | false =>
      obtain rfl := Option.some.inj h
      exact hst.put (fun _ _ => rfl) ⟨hfits.1.down, hfits.2⟩
  | giveUp s waited =>
    rw [step] at h
    obtain ⟨hphase, h⟩ := Option.ite_none_right_eq_some.mp h
    have hfits := hst s
    rw [hphase] at hfits
    obtain rfl := Option.some.inj h
    refine hst.put (fun s' hs' => rpcShutdown_held_of_ne s _ hs' waited) fun hi => ?_
    have hflag : (st.ctx s).initialized = true := hi
    rw [hfits.2] at hflag
    cases hflag
  | shutdown s waited =>
    rw [step] at h
    obtain ⟨hphase, h⟩ := Option.ite_none_right_eq_some.mp h
    have hfits := hst s
    rw [hphase] at hfits
    split_ifs at h with hi
    · have hup : Up (st.world.held s) (st.ctx s).rpc := hfits hi
      rw [rpcShutdown_of_not_reaps s st.world hup.pid (htidy hi)] at h
      obtain rfl := Option.some.inj h
      exact hst.put (fun _ _ => rfl) fun _ => hup
    · obtain rfl := Option.some.inj h
      exact hst

/-- What a step does to the descriptors: nothing the rpc code closes, a start, or a shutdown. -/
theorem step_world (h : st.step a = some t) :
    (t.world.closes = st.world.closes ∧ st.Tidy a) ∨
      (∃ s o, a = .rpcInit s o ∧ st.phase s = .wiped ∧
        t.world = (Services.rpcInit s o (st.ctx s).rpc st.world).2.2) ∨
      (∃ s waited, t.world = (rpcShutdown s waited (st.ctx s).rpc st.world).2.2 ∧
        (a = .giveUp s waited ∧ st.phase s = .failed ∨
          a = .shutdown s waited ∧ st.phase s = .rest ∧ (st.ctx s).initialized = true)) := by
  cases a with
  | openOther =>
    obtain rfl := Option.some.inj h
    exact .inl ⟨rfl, trivial⟩
  | closeOther n =>
    obtain ⟨-, h⟩ := Option.ite_none_right_eq_some.mp h
    obtain rfl := Option.some.inj h
    exact .inl ⟨rfl, trivial⟩
  | enter s =>
    obtain ⟨-, h⟩ := Option.ite_none_right_eq_some.mp h
    obtain rfl := Option.some.inj h
    exact .inl ⟨rfl, trivial⟩
  | storePath =>
    obtain ⟨-, h⟩ := Option.ite_none_right_eq_some.mp h
    obtain rfl := Option.some.inj h
    exact .inl ⟨rfl, trivial⟩
  | rpcInit s o =>
    rw [step] at h
    obtain ⟨hphase, h⟩ := Option.ite_none_right_eq_some.mp h
    obtain rfl := Option.some.inj h
    exact .inr (.inl ⟨s, o, rfl, hphase, rfl⟩)
  | initCall s ok =>
    rw [step] at h
    obtain ⟨-, h⟩ := Option.ite_none_right_eq_some.mp h
    split_ifs at h <;> obtain rfl := Option.some.inj h <;> exact .inl ⟨rfl, trivial⟩
  | giveUp s waited =>
    rw [step] at h
    obtain ⟨hphase, h⟩ := Option.ite_none_right_eq_some.mp h
    obtain rfl := Option.some.inj h
    exact .inr (.inr ⟨s, waited, rfl, .inl ⟨rfl, hphase⟩⟩)
  | shutdown s waited =>
    rw [step] at h
    obtain ⟨hphase, h⟩ := Option.ite_none_right_eq_some.mp h
    split_ifs at h with hi
    · obtain rfl := Option.some.inj h
      exact .inr (.inr ⟨s, waited, rfl, .inr ⟨rfl, hphase, hi⟩⟩)
    · obtain rfl := Option.some.inj h
      exact .inl ⟨rfl, fun hi' => absurd hi' hi⟩

/-- A foul close stays on record. -/
theorem clean_of_step (h : st.step a = some t) (ht : t.world.Clean) : st.world.Clean := by
  rcases step_world h with ⟨hcloses, -⟩ | ⟨s, o, -, -, hw⟩ | ⟨s, waited, hw, -⟩
  · rw [World.Clean, hcloses] at ht
    exact ht
  · rw [hw] at ht
    by_cases hinit : (st.ctx s).rpc.initialized = true
    · rw [Services.rpcInit, if_pos hinit] at ht
      exact ht
    · obtain ⟨ok, r', w', heq, hcases⟩ := rpcInit_cases s o st.world (by simpa using hinit)
      rw [heq] at ht
      rcases hcases with ⟨-, -, -, hclean, -⟩ | ⟨-, -, -, hclean, -⟩ | ⟨-, hfoul, -⟩
      · exact hclean.mp ht
      · exact hclean.mp ht
      · exact absurd ht hfoul
  · rw [hw] at ht
    exact clean_of_rpcShutdown s st.world ht

/-- A step makes only rightful closes exactly when it meets the condition. -/
theorem clean_step_iff (hst : st.Inv) (hclean : st.world.Clean) (h : st.step a = some t) :
    t.world.Clean ↔ st.Tidy a := by
  rcases step_world h with ⟨hcloses, htidy⟩ | ⟨s, o, rfl, hphase, hw⟩ | ⟨s, waited, hw, hcall⟩
  · refine iff_of_true ?_ htidy
    rw [World.Clean, hcloses]
    exact hclean
  · have hfits := hst s
    rw [hphase] at hfits
    have hinit : (st.ctx s).rpc.initialized = false := by rw [hfits.1]; rfl
    obtain ⟨ok, r', w', heq, hcases⟩ := rpcInit_cases s o st.world hinit
    rw [hw, heq]
    rcases hcases with ⟨-, -, -, hiff, ho, hfork, hsetup⟩ | ⟨-, -, -, hiff, hnot⟩ |
      ⟨-, hfoul, ho, hfork, hbad⟩
    · exact iff_of_true (hiff.mpr hclean) fun _ _ => hsetup
    · exact iff_of_true (hiff.mpr hclean) fun ho hfork => absurd ⟨ho, hfork⟩ hnot
    · exact iff_of_false hfoul fun htidy => hbad (htidy ho hfork)
  · have hfits := hst s
    rcases hcall with ⟨rfl, hphase⟩ | ⟨rfl, hphase, hi⟩
    · rw [hphase] at hfits
      rw [hw, clean_rpcShutdown s st.world hfits.1]
      exact and_iff_right hclean
    · rw [hphase] at hfits
      have hup : Up (st.world.held s) (st.ctx s).rpc := hfits hi
      rw [hw, clean_rpcShutdown s st.world hup.down]
      have hclt : ¬ (st.ctx s).rpc.clt < 0 := not_lt.mpr hup.clt
      simp [Tidy, hclean, hclt, hup.pid, hi]

/-- A process that has not started a service: its global contexts are zero. -/
structure Initial (st : State) : Prop where
  rest : ∀ s, st.phase s = .rest
  down : ∀ s, (st.ctx s).initialized = false
  fresh : st.world.closes = []

/-- **Which runs close only their own descriptors.**  From a fresh process, whatever is open in it
and whatever its other parts open and close in between, every close of the rpc code is on a number
its object opened and has not closed yet exactly when every step is tidy. -/
theorem clean_iff_tidy (h₀ : st.Initial) {steps : List Step} (hrun : run step st steps = some t) :
    t.world.Clean ↔ Throughout step Tidy st steps := by
  have hinv : st.Inv := by
    intro s
    rw [h₀.rest s]
    intro hi
    rw [h₀.down s] at hi
    cases hi
  have hclean : st.world.Clean := by
    rw [World.Clean, h₀.fresh]
    simp
  exact good_iff_throughout clean_of_step clean_step_iff inv_step hinv hclean hrun

/-- A process with its three standard descriptors. -/
def process : State where
  world := ⟨{0, 1, 2}, {0, 1, 2}, fun _ => ∅, [], []⟩
  ctx _ := ⟨Rpc.zero, false⟩
  phase _ := .rest

/-- Every call of `rpc_init` succeeds. -/
def succeeding : InitOutcome := ⟨true, some 7, true, true, true⟩

theorem process_initial : process.Initial :=
  ⟨fun _ => rfl, fun _ => rfl, rfl⟩

/-- `driver_init` succeeds. -/
def driverStart : List Step :=
  [.enter .driver, .rpcInit .driver succeeding, .initCall .driver true]

/-- **A shutdown that cannot reap the process closes nothing**: number 4, which another part of the
process got in between, stays open. -/
theorem clean_unreapedShutdown :
    ∃ t, run step process (driverStart ++ [.openOther, .shutdown .driver false]) = some t
      ∧ 4 ∈ t.world.others ∧ 4 ∈ t.world.opened ∧ t.world.Clean := by
  have hshutdown (st : State) : st.Tidy (.shutdown .driver false) := fun _ hreaps =>
    Bool.false_ne_true hreaps.1
  have htidy : Throughout step Tidy process
      (driverStart ++ [.openOther, .shutdown .driver false]) :=
    ⟨trivial, fun _ _ => ⟨fun _ _ => ⟨rfl, rfl⟩, fun _ _ => ⟨trivial, fun _ _ =>
      ⟨trivial, fun t _ => ⟨hshutdown t, fun _ _ => trivial⟩⟩⟩⟩⟩
  obtain ⟨t, ht, hother, hopen⟩ : ∃ t,
      run step process (driverStart ++ [.openOther, .shutdown .driver false]) = some t
        ∧ 4 ∈ t.world.others ∧ 4 ∈ t.world.opened := by
    refine ⟨_, rfl, ?_, ?_⟩ <;> decide
  exact ⟨t, ht, hother, hopen, (clean_iff_tidy process_initial ht).mpr htidy⟩

/-- The driver service is started, another part of the process opens a descriptor and gets number 4,
and the shutdown closes it. -/
theorem shutdown_closes_other :
    ∃ t, run step process (driverStart ++ [.openOther, .shutdown .driver true]) = some t ∧
      4 ∈ t.world.others ∧ 4 ∉ t.world.opened ∧ ⟨.driver, 4, false⟩ ∈ t.world.closes := by
  refine ⟨_, rfl, ?_, ?_, ?_⟩ <;> decide

end State

end Services
