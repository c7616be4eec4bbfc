import XdxContainer.Rpc.Descriptors
import Mathlib.Data.List.MinMax

/-!
# Rpc/Processes — whether a service process can be lost

    nvc_init:      … ──▸ driver_init ──▸ nvcgo_init        (each overwrites its global context)
    nvc_shutdown:  nvcgo_shutdown ──▸ driver_shutdown ──▸ …

Whole calls of `nvc_init` and `nvc_shutdown`, on any number of contexts over the two global ones.  A
process is found again through the global context alone, and only while that says it is initialised.
`recorded_of_careful` says which runs never leave a process behind.
-/

open Machine

namespace Services

/-! ## driver.c and nvcgo.c -/

/-- What becomes of the calls of `driver_init` or `nvcgo_init`. -/
structure StartOutcome where
  /-- The path of the driver store, on a dxcore system. -/
  storePath : Bool
  rpc : InitOutcome
  /-- The first call of the service. -/
  call : Bool
  /-- Waiting for the process, when the service is given up. -/
  waited : Bool

/-- What follows the label of `driver_init` and `nvcgo_init`. -/
def giveUp (s : Service) (o : StartOutcome) (r : Rpc) (w : World) : Bool × Ctx × World :=
  let (_, r, w) := rpcShutdown s o.waited r w
  (false, ⟨r, false⟩, w)

/-- `driver_init` and `nvcgo_init`: whether it succeeds, and the global context then. -/
def serviceInit (s : Service) (o : StartOutcome) (w : World) : Bool × Ctx × World :=
  if s = .driver ∧ !o.storePath then giveUp s o Rpc.zero w
  else
    let (ok, r, w) := rpcInit s o.rpc Rpc.zero w
    if !ok then giveUp s o r w
    else if !o.call then giveUp s o r w
    else (true, ⟨r, true⟩, w)

/-- `driver_shutdown` and `nvcgo_shutdown`. -/
def serviceShutdown (s : Service) (waited : Bool) (c : Ctx) (w : World) : Bool × Ctx × World :=
  if !c.initialized then (true, c, w)
  else
    let (ok, r, w) := rpcShutdown s waited c.rpc w
    (ok, ⟨r, !ok⟩, w)

/-! ## nvc.c -/

/-- The process: the two global contexts, and which library contexts are initialised. -/
structure Library where
  world : World
  ctx : Service → Ctx
  initialized : ℕ → Bool

/-- A call on a library context, `none` for a null pointer, with what becomes of its steps. -/
inductive Call
  /-- `prelude`: everything before `driver_init` succeeds. -/
  | init (ctx : Option ℕ) (prelude : Bool) (outcome : Service → StartOutcome)
  | shutdown (ctx : Option ℕ) (waited : Service → Bool)

namespace Library

/-- A service's global context and the world are replaced. -/
def put (lib : Library) (s : Service) (c : Ctx) (w : World) : Library :=
  { lib with world := w, ctx := Function.update lib.ctx s c }

/-- A service is started from the library. -/
def start (lib : Library) (s : Service) (o : StartOutcome) : Bool × Library :=
  let (ok, c, w) := serviceInit s o lib.world
  (ok, lib.put s c w)

/-- A service is shut down from the library. -/
def stop (lib : Library) (s : Service) (waited : Bool) : Bool × Library :=
  let (ok, c, w) := serviceShutdown s waited (lib.ctx s) lib.world
  (ok, lib.put s c w)

/-- `nvc_init`. -/
def nvcInit (lib : Library) (prelude : Bool) (o : Service → StartOutcome) : Option ℕ → ℤ × Library
  | none => (-1, lib)
  | some n =>
    if lib.initialized n then (0, lib)
    else if !prelude then (-1, lib)
    else
      let (ok, lib) := lib.start .driver (o .driver)
      if !ok then (-1, lib)
      else
        let (ok, lib) := lib.start .nvcgo (o .nvcgo)
        if !ok then (-1, lib)
        else (0, { lib with initialized := Function.update lib.initialized n true })

/-- `nvc_shutdown`. -/
def nvcShutdown (lib : Library) (waited : Service → Bool) : Option ℕ → ℤ × Library
  | none => (-1, lib)
  | some n =>
    let (ok₁, lib) := lib.stop .nvcgo (waited .nvcgo)
    let (ok₂, lib) := lib.stop .driver (waited .driver)
    let rv := if ok₁ ∧ ok₂ then 0 else -1
    if !lib.initialized n then (rv, lib)
    else (rv, { lib with initialized := Function.update lib.initialized n false })

/-- What a call returns, and the process after it. -/
def call (lib : Library) : Call → ℤ × Library
  | .init n prelude o => lib.nvcInit prelude o n
  | .shutdown n waited => lib.nvcShutdown waited n

/-! ## What must not happen -/

/-- Every child is the process recorded in the global context of its service, where a shutdown looks
for it. -/
def Recorded (lib : Library) : Prop :=
  ∀ c ∈ lib.world.children,
    (lib.ctx c.service).initialized = true ∧ (lib.ctx c.service).rpc.pid = c.pid

end Library

namespace StartOutcome

/-- `rpc_init` is reached. -/
def Reached (o : StartOutcome) (s : Service) : Prop := s = .driver → o.storePath = true

/-- The process is forked. -/
def Forked (o : StartOutcome) (s : Service) : Prop :=
  o.Reached s ∧ o.rpc.socketpair = true ∧ o.rpc.fork.isSome

/-- `setup_client` succeeds. -/
def Set (o : StartOutcome) : Prop := o.rpc.getpeername = true ∧ o.rpc.clntunixCreate = true

/-- Every call of the start succeeds. -/
def Succeeds (o : StartOutcome) (s : Service) : Prop := o.Forked s ∧ o.Set ∧ o.call = true

/-- A start that is given up after its fork waits for the process with success, in `rpc_init` or in
its caller. -/
def Clears (o : StartOutcome) (s : Service) : Prop :=
  o.Forked s → ¬ o.Succeeds s → o.waited = true ∨ (¬ o.Set ∧ o.rpc.waited = true)

end StartOutcome

/-- A call that loses no process: a service is only started while its global context is not in use,
and a start that fails clears up after itself. -/
def Library.Careful (lib : Library) : Call → Prop
  | .init (some n) true o =>
    lib.initialized n = false →
      ((lib.ctx .driver).initialized = false ∧ (o .driver).Clears .driver) ∧
        ((o .driver).Succeeds .driver →
          (lib.ctx .nvcgo).initialized = false ∧ (o .nvcgo).Clears .nvcgo)
  | _ => True

/-! ## Children -/

section Children

variable (s : Service) (w : World)

/-- The number of a new child is not that of an old one. -/
theorem freshPid_ne (children : List Child) (seed : ℕ) :
    ∀ c ∈ children, c.pid ≠ World.freshPid children seed := by
  intro c hc
  unfold World.freshPid
  split_ifs with h
  · exact h.2 c hc
  · have hle : c.pid ≤ (children.map Child.pid).foldr max 0 :=
      List.le_max_of_le' 0 (List.mem_map_of_mem hc) le_rfl
    omega

theorem freshPid_pos (children : List Child) (seed : ℕ) : 0 < World.freshPid children seed := by
  unfold World.freshPid
  split_ifs with h
  · exact h.1
  · exact Nat.succ_pos _

/-- Waiting for a child removes it and no other. -/
theorem filter_cons_fresh {pid : ℕ} {children : List Child} (hfresh : ∀ c ∈ children, c.pid ≠ pid) :
    (⟨pid, s⟩ :: children).filter (fun c => ((c.pid : ℕ) : ℤ) ≠ pid) = children := by
  rw [List.filter_cons_of_neg (by simp), List.filter_eq_self]
  intro c hc
  have hne : c.pid ≠ pid := hfresh c hc
  rw [decide_eq_true_iff]
  omega

/-- The number of the object after an unsuccessful start is that of no child. -/
def Stale (r : Rpc) (children : List Child) : Prop := ∀ c ∈ children, (c.pid : ℤ) ≠ r.pid

/-- Shutting down an object whose process is not there keeps the children. -/
theorem rpcShutdown_children_of_stale {r : Rpc} {waited : Bool} (h : Stale r w.children) :
    (rpcShutdown s waited r w).2.2.children = w.children := by
  have hnot : ¬ Reaps r.pid waited w := by
    rintro ⟨-, c, hc, he⟩
    exact h c hc he
  by_cases hpid : 0 < r.pid
  · rw [rpcShutdown_of_not_reaps s w hpid hnot]
  · simp [rpcShutdown, hpid]

/-- Waiting for the newest child. -/
theorem reapProcess_fresh {pid : ℕ} {children : List Child} (waited : Bool)
    (hw : w.children = ⟨pid, s⟩ :: children) (hfresh : ∀ c ∈ children, c.pid ≠ pid) :
    (reapProcess pid waited w).1 = waited ∧
      (reapProcess pid waited w).2.children = if waited then children else w.children := by
  have hex : ∃ c ∈ w.children, (c.pid : ℤ) = pid := ⟨⟨pid, s⟩, by simp [hw], rfl⟩
  cases waited with
  | false => exact ⟨rfl, rfl⟩
  | true =>
    rw [reapProcess, if_pos ⟨rfl, hex⟩]
    refine ⟨rfl, ?_⟩
    rw [hw]
    exact filter_cons_fresh s hfresh

/-- Shutting down an object whose process is the newest child. -/
theorem rpcShutdown_children_of_fresh {r : Rpc} {pid : ℕ} {children : List Child} (waited : Bool)
    (hw : w.children = ⟨pid, s⟩ :: children) (hr : r.pid = pid) (hpos : 0 < pid)
    (hfresh : ∀ c ∈ children, c.pid ≠ pid) :
    (rpcShutdown s waited r w).2.2.children = if waited then children else w.children := by
  have hpid : 0 < r.pid := by omega
  obtain ⟨hreap, hchildren⟩ := reapProcess_fresh s w waited hw hfresh
  rw [rpcShutdown, if_pos hpid, hr]
  cases waited with
  | false =>
    simp [hreap, hchildren]
  | true =>
    simp [hreap, hchildren]

/-- `rpc_init` without a fork. -/
theorem rpcInit_unforked (o : InitOutcome) (h : ¬ (o.socketpair = true ∧ o.fork.isSome)) :
    ∃ (r : Rpc) (w' : World), rpcInit s o Rpc.zero w = (false, r, w') ∧ r.pid = -1 ∧
      w'.children = w.children := by
  cases hpair : o.socketpair with
  | false => exact ⟨_, _, rpcInit_of_socketpair s o w rfl hpair, rfl, rfl⟩
  | true =>
    have hfork : o.fork = none := by simpa [hpair] using h
    obtain ⟨a, b, w₁, hw₁, hchildren⟩ : ∃ (a b : ℕ) (w₁ : World), w.socketpair s = (a, b, w₁) ∧
        w₁.children = w.children := ⟨_, _, _, rfl, rfl⟩
    refine ⟨{ Rpc.blank with clt := a, svc := b }, (w₁.xclose s a).xclose s b, ?_, rfl, ?_⟩
    · simp [rpcInit, Rpc.zero, hpair, hfork, hw₁, rpcInitFail, Rpc.blank]
    · rw [World.xclose_children, World.xclose_children, hchildren]

/-- `rpc_init` with a fork: the new child, and whether it is still there. -/
theorem rpcInit_forked (o : InitOutcome) (hpair : o.socketpair = true) (hfork : o.fork.isSome) :
    ∃ (ok : Bool) (r : Rpc) (w' : World) (pid : ℕ), rpcInit s o Rpc.zero w = (ok, r, w') ∧
      r.pid = pid ∧ 0 < pid ∧ (∀ c ∈ w.children, c.pid ≠ pid) ∧
      (ok = true ↔ o.getpeername = true ∧ o.clntunixCreate = true) ∧
      w'.children = if ok = false ∧ o.waited then w.children else ⟨pid, s⟩ :: w.children := by
  obtain ⟨seed, hseed⟩ := Option.isSome_iff_exists.mp hfork
  obtain ⟨a, b, w₁, hw₁, hchildren⟩ : ∃ (a b : ℕ) (w₁ : World), w.socketpair s = (a, b, w₁) ∧
      w₁.children = w.children := ⟨_, _, _, rfl, rfl⟩
  obtain ⟨pid, w₂, hw₂, hpos, hfresh, hnew⟩ : ∃ (pid : ℕ) (w₂ : World),
      w₁.fork s seed = (pid, w₂) ∧ 0 < pid ∧ (∀ c ∈ w.children, c.pid ≠ pid) ∧
      w₂.children = ⟨pid, s⟩ :: w.children :=
    ⟨_, _, rfl, freshPid_pos _ _, hchildren ▸ freshPid_ne _ _, by rw [hchildren]⟩
  have hpid : (0 : ℤ) < pid := by omega
  by_cases hset : o.getpeername = true ∧ o.clntunixCreate = true
  · refine ⟨true, ⟨true, a, b, pid, true⟩, w₂.xclose s b, pid, ?_, rfl, hpos, hfresh,
      iff_of_true rfl hset, ?_⟩
    · simp [rpcInit, Rpc.zero, hpair, hseed, hw₁, hw₂, setupClient, hset, Rpc.blank]
    · rw [World.xclose_children, hnew]
      rfl
  · have hfail := fun r' => setupClient_of_not s o w₂ r' hset
    refine ⟨false, { Rpc.blank with clt := a, svc := b, pid := pid },
      ((reapProcess pid o.waited (w₂.xclose s b)).2.xclose s a).xclose s b, pid, ?_, rfl, hpos,
      hfresh, iff_of_false Bool.false_ne_true hset, ?_⟩
    · simp only [rpcInit, Rpc.zero, hpair, hseed, hw₁, hw₂, hfail, Rpc.blank, rpcInitFail, hpid,
        if_true, Bool.not_true, Bool.false_eq_true, if_false]
    · have hnew' : (w₂.xclose s b).children = ⟨pid, s⟩ :: w.children := by
        rw [World.xclose_children, hnew]
      rw [World.xclose_children, World.xclose_children,
        (reapProcess_fresh s _ o.waited hnew' hfresh).2, hnew']
      simp

variable {s} {o : StartOutcome}

theorem serviceInit_of_reached (h : o.Reached s) :
    serviceInit s o w =
      (let (ok, r, w') := rpcInit s o.rpc Rpc.zero w
       if !ok then giveUp s o r w'
       else if !o.call then giveUp s o r w'
       else (true, ⟨r, true⟩, w')) := by
  refine if_neg ?_
  rintro ⟨hs, hpath⟩
  rw [h hs] at hpath
  cases hpath

/-- A start that succeeds adds its process to the children and records it. -/
theorem serviceInit_of_succeeds (h : o.Succeeds s) :
    ∃ (r : Rpc) (w' : World) (pid : ℕ), serviceInit s o w = (true, ⟨r, true⟩, w') ∧ r.pid = pid ∧
      0 < pid ∧ (∀ c ∈ w.children, c.pid ≠ pid) ∧ w'.children = ⟨pid, s⟩ :: w.children := by
  obtain ⟨⟨hreached, hpair, hfork⟩, hset, hcall⟩ := h
  obtain ⟨ok, r, w', pid, heq, hpid, hpos, hfresh, hok, hchildren⟩ :=
    rpcInit_forked s w o.rpc hpair hfork
  obtain rfl : ok = true := hok.mpr hset
  refine ⟨r, w', pid, ?_, hpid, hpos, hfresh, by simpa using hchildren⟩
  rw [serviceInit_of_reached w hreached, heq]
  simp [hcall]

/-- A start that fails and clears up leaves the children as they were. -/
theorem serviceInit_of_clears (hpos : ∀ c ∈ w.children, 0 < c.pid) (hclears : o.Clears s)
    (h : ¬ o.Succeeds s) :
    ∃ (r : Rpc) (w' : World), serviceInit s o w = (false, ⟨r, false⟩, w') ∧
      w'.children = w.children := by
  by_cases hreached : o.Reached s
  · by_cases hforked : o.rpc.socketpair = true ∧ o.rpc.fork.isSome
    · obtain ⟨ok, r, w', pid, heq, hpid, hpid', hfresh, hok, hchildren⟩ :=
        rpcInit_forked s w o.rpc hforked.1 hforked.2
      have hclear := hclears ⟨hreached, hforked⟩ h
      refine ⟨(rpcShutdown s o.waited r w').2.1, (rpcShutdown s o.waited r w').2.2, ?_, ?_⟩
      · rw [serviceInit_of_reached w hreached, heq]
        cases ok with
        | false => rfl
        | true =>
          have hcall : o.call = false := by
            by_contra hcall
            exact h ⟨⟨hreached, hforked⟩, hok.mp rfl, by simpa using hcall⟩
          simp [hcall, giveUp]
      · cases ok with
        | true =>
          have hwaited : o.waited = true := hclear.resolve_right fun hset => hset.1 (hok.mp rfl)
          rw [rpcShutdown_children_of_fresh s w' _ (by simpa using hchildren) hpid hpid' hfresh,
            if_pos hwaited]
        | false =>
          cases hw : o.rpc.waited with
          | true =>
            have hsame : w'.children = w.children := by simpa [hw] using hchildren
            have hstale : Stale r w'.children := by
              intro c hc
              rw [hsame] at hc
              have hne := hfresh c hc
              omega
            rw [rpcShutdown_children_of_stale s w' hstale, hsame]
          | false =>
            have hwaited : o.waited = true := hclear.resolve_right fun hset => by simp [hw] at hset
            have hnew : w'.children = ⟨pid, s⟩ :: w.children := by simpa [hw] using hchildren
            rw [rpcShutdown_children_of_fresh s w' _ hnew hpid hpid' hfresh, if_pos hwaited]
    · obtain ⟨r, w', heq, hpid, hchildren⟩ := rpcInit_unforked s w o.rpc hforked
      have hstale : Stale r w'.children := fun c _ => by omega
      refine ⟨(rpcShutdown s o.waited r w').2.1, (rpcShutdown s o.waited r w').2.2, ?_, ?_⟩
      · rw [serviceInit_of_reached w hreached, heq]
        rfl
      · rw [rpcShutdown_children_of_stale s w' hstale, hchildren]
  · obtain ⟨rfl, hpath⟩ := Classical.not_imp.mp hreached
    have hstale : Stale Rpc.zero w.children := fun c hc => by
      have := hpos c hc
      simp only [Rpc.zero]
      omega
    refine ⟨(rpcShutdown .driver o.waited Rpc.zero w).2.1,
      (rpcShutdown .driver o.waited Rpc.zero w).2.2, ?_, rpcShutdown_children_of_stale _ w hstale⟩
    rw [serviceInit, if_pos ⟨rfl, by simpa using hpath⟩]
    rfl

end Children

/-! ## The invariant -/

namespace Library

variable {lib : Library} {s : Service}

/-- Every child is recorded, and a service that is initialized has one. -/
structure Inv (lib : Library) : Prop where
  recorded : lib.Recorded
  alive : ∀ s, (lib.ctx s).initialized = true → ∃ c ∈ lib.world.children, c.service = s
  pos : ∀ c ∈ lib.world.children, 0 < c.pid
  distinct : ∀ c ∈ lib.world.children, ∀ d ∈ lib.world.children, c.pid = d.pid → c = d

@[simp] theorem put_ctx_self (c : Ctx) (w : World) : (lib.put s c w).ctx s = c := by simp [put]

theorem put_ctx_of_ne {s' : Service} (h : s' ≠ s) (c : Ctx) (w : World) :
    (lib.put s c w).ctx s' = lib.ctx s' := by
  simp [put, h]

@[simp] theorem put_self : lib.put s (lib.ctx s) lib.world = lib := by
  simp [put]

/-- Nothing is running while no context is in use. -/
theorem Inv.children_eq_nil (h : lib.Inv) (hdown : ∀ s, (lib.ctx s).initialized = false) :
    lib.world.children = [] := by
  rw [List.eq_nil_iff_forall_not_mem]
  intro c hc
  have hup := (h.recorded c hc).1
  rw [hdown] at hup
  cases hup

/-- A context that is not in use has no child. -/
theorem Inv.service_ne (h : lib.Inv) (hs : (lib.ctx s).initialized = false) :
    ∀ c ∈ lib.world.children, c.service ≠ s := by
  rintro c hc rfl
  have hup := (h.recorded c hc).1
  rw [hs] at hup
  cases hup

/-- A context is replaced by one that is not in use either. -/
theorem Inv.put_down (h : lib.Inv) (hs : (lib.ctx s).initialized = false) (r : Rpc) {w : World}
    (hw : w.children = lib.world.children) : (lib.put s ⟨r, false⟩ w).Inv := by
  have hne := h.service_ne hs
  refine ⟨fun c hc => ?_, fun s' hs' => ?_, ?_, ?_⟩
  · have hc' : c ∈ lib.world.children := hw ▸ hc
    rw [put_ctx_of_ne (hne c hc')]
    exact h.recorded c hc'
  · have hss : s' ≠ s := by
      rintro rfl
      rw [put_ctx_self] at hs'
      cases hs'
    rw [put_ctx_of_ne hss] at hs'
    change ∃ c ∈ w.children, c.service = s'
    rw [hw]
    exact h.alive s' hs'
  · change ∀ c ∈ w.children, 0 < c.pid
    rw [hw]
    exact h.pos
  · change ∀ c ∈ w.children, ∀ d ∈ w.children, c.pid = d.pid → c = d
    rw [hw]
    exact h.distinct

/-- A context is replaced by one that records a new child. -/
theorem Inv.put_up (h : lib.Inv) (hs : (lib.ctx s).initialized = false) {r : Rpc} {w : World}
    {pid : ℕ} (hr : r.pid = pid) (hpos : 0 < pid)
    (hfresh : ∀ c ∈ lib.world.children, c.pid ≠ pid)
    (hw : w.children = ⟨pid, s⟩ :: lib.world.children) : (lib.put s ⟨r, true⟩ w).Inv := by
  have hne := h.service_ne hs
  have hmem : ∀ c, c ∈ (lib.put s ⟨r, true⟩ w).world.children ↔
      c = ⟨pid, s⟩ ∨ c ∈ lib.world.children := by
    intro c
    change c ∈ w.children ↔ _
    rw [hw, List.mem_cons]
  refine ⟨fun c hc => ?_, fun s' hs' => ?_, fun c hc => ?_, fun c hc d hd he => ?_⟩
  · rcases (hmem c).mp hc with rfl | hc
    · rw [put_ctx_self]
      exact ⟨rfl, hr⟩
    · rw [put_ctx_of_ne (hne c hc)]
      exact h.recorded c hc
  · by_cases hss : s' = s
    · exact ⟨⟨pid, s⟩, (hmem _).mpr (.inl rfl), hss.symm⟩
    · rw [put_ctx_of_ne hss] at hs'
      obtain ⟨c, hc, he⟩ := h.alive s' hs'
      exact ⟨c, (hmem c).mpr (.inr hc), he⟩
  · rcases (hmem c).mp hc with rfl | hc
    · exact hpos
    · exact h.pos c hc
  · rcases (hmem c).mp hc with rfl | hc <;> rcases (hmem d).mp hd with rfl | hd
    · rfl
    · exact absurd he.symm (hfresh d hd)
    · exact absurd he (hfresh c hc)
    · exact h.distinct c hc d hd he

/-- Starting a service whose context is not in use. -/
theorem Inv.start (h : lib.Inv) {o : StartOutcome} (hs : (lib.ctx s).initialized = false)
    (ho : o.Clears s) : (lib.start s o).2.Inv ∧ ((lib.start s o).1 = true → o.Succeeds s) ∧
      ∀ s', s' ≠ s → (lib.start s o).2.ctx s' = lib.ctx s' := by
  by_cases hok : o.Succeeds s
  · obtain ⟨r, w', pid, heq, hr, hpos, hfresh, hw⟩ := serviceInit_of_succeeds lib.world hok
    have hstart : lib.start s o = (true, lib.put s ⟨r, true⟩ w') := by rw [Library.start, heq]
    rw [hstart]
    exact ⟨h.put_up hs hr hpos hfresh hw, fun _ => hok, fun s' hs' => put_ctx_of_ne hs' _ _⟩
  · obtain ⟨r, w', heq, hw⟩ := serviceInit_of_clears lib.world h.pos ho hok
    have hstart : lib.start s o = (false, lib.put s ⟨r, false⟩ w') := by rw [Library.start, heq]
    rw [hstart]
    exact ⟨h.put_down hs r hw, fun hf => (by cases hf), fun s' hs' => put_ctx_of_ne hs' _ _⟩

/-- Waiting for the recorded process of a service. -/
theorem Inv.put_reaped (h : lib.Inv) (hs : (lib.ctx s).initialized = true) (r : Rpc) {w : World}
    (hw : w.children = lib.world.children.filter fun c => (c.pid : ℤ) ≠ (lib.ctx s).rpc.pid) :
    (lib.put s ⟨r, false⟩ w).Inv := by
  have hmem : ∀ c, c ∈ (lib.put s ⟨r, false⟩ w).world.children →
      c ∈ lib.world.children ∧ c.service ≠ s := by
    intro c hc
    have hc' : c ∈ w.children := hc
    rw [hw, List.mem_filter, decide_eq_true_iff] at hc'
    refine ⟨hc'.1, ?_⟩
    rintro rfl
    exact hc'.2 (h.recorded c hc'.1).2.symm
  refine ⟨fun c hc => ?_, fun s' hs' => ?_, fun c hc => h.pos c (hmem c hc).1,
    fun c hc d hd => h.distinct c (hmem c hc).1 d (hmem d hd).1⟩
  · rw [put_ctx_of_ne (hmem c hc).2]
    exact h.recorded c (hmem c hc).1
  · have hss : s' ≠ s := by
      rintro rfl
      rw [put_ctx_self] at hs'
      cases hs'
    rw [put_ctx_of_ne hss] at hs'
    obtain ⟨c, hc, hcs⟩ := h.alive s' hs'
    obtain ⟨d, hd, hds⟩ := h.alive s hs
    refine ⟨c, ?_, hcs⟩
    change c ∈ w.children
    rw [hw, List.mem_filter, decide_eq_true_iff]
    refine ⟨hc, fun he => hss ?_⟩
    -- the two processes have different numbers
    have hpid := (h.recorded d hd).2
    rw [hds] at hpid
    obtain rfl := h.distinct c hc d hd (by omega)
    exact hcs.symm.trans hds

/-- Shutting a service down. -/
theorem Inv.stop (h : lib.Inv) (waited : Bool) : (lib.stop s waited).2.Inv ∧
    ((lib.stop s waited).1 = true → ((lib.stop s waited).2.ctx s).initialized = false) ∧
    (waited = true → (lib.stop s waited).1 = true) ∧
    ∀ s', s' ≠ s → (lib.stop s waited).2.ctx s' = lib.ctx s' := by
  have hother : ∀ s', s' ≠ s → (lib.stop s waited).2.ctx s' = lib.ctx s' := fun s' hs' =>
    put_ctx_of_ne hs' _ _
  cases hs : (lib.ctx s).initialized with
  | false =>
    have hstop : lib.stop s waited = (true, lib) := by
      simp [Library.stop, serviceShutdown, hs]
    refine ⟨?_, fun _ => ?_, fun _ => ?_, hother⟩
    · rw [hstop]
      exact h
    · rw [hstop]
      exact hs
    · rw [hstop]
  | true =>
    obtain ⟨c, hc, hcs⟩ := h.alive s hs
    have hcpid : (lib.ctx s).rpc.pid = c.pid := hcs ▸ (h.recorded c hc).2
    have hpid : 0 < (lib.ctx s).rpc.pid := by
      have := h.pos c hc
      omega
    cases waited with
    | false =>
      have hnot : ¬ Reaps (lib.ctx s).rpc.pid false lib.world := fun hr => Bool.false_ne_true hr.1
      have hctx : (⟨(lib.ctx s).rpc, true⟩ : Ctx) = lib.ctx s := by rw [← hs]
      have hstop : lib.stop s false = (false, lib) := by
        simp [Library.stop, serviceShutdown, hs,
          rpcShutdown_of_not_reaps s lib.world hpid hnot, hctx]
      refine ⟨?_, fun hf => ?_, fun hf => (by cases hf), hother⟩
      · rw [hstop]
        exact h
      · rw [hstop] at hf
        cases hf
    | true =>
      have hex : ∃ d ∈ lib.world.children, (d.pid : ℤ) = (lib.ctx s).rpc.pid := ⟨c, hc, hcpid.symm⟩
      have hreap : reapProcess (lib.ctx s).rpc.pid true lib.world = (true, { lib.world with
          children := lib.world.children.filter fun d => (d.pid : ℤ) ≠ (lib.ctx s).rpc.pid }) :=
        if_pos ⟨rfl, hex⟩
      obtain ⟨w', hstop, hw'⟩ :
          ∃ w' : World, lib.stop s true = (true, lib.put s ⟨Rpc.blank, false⟩ w') ∧
          w'.children = lib.world.children.filter fun d => (d.pid : ℤ) ≠ (lib.ctx s).rpc.pid := by
        refine ⟨_,
          by simp only [Library.stop, serviceShutdown, hs, rpcShutdown, hpid, hreap]; rfl, ?_⟩
        simp
      refine ⟨?_, fun _ => ?_, fun _ => ?_, hother⟩
      · rw [hstop]
        exact h.put_reaped hs Rpc.blank hw'
      · rw [hstop, put_ctx_self]
      · rw [hstop]

/-! ## Calls and runs -/

/-- The flags of the library contexts do not matter to the services. -/
theorem Inv.flags (h : lib.Inv) (flags : ℕ → Bool) : Inv { lib with initialized := flags } :=
  ⟨h.recorded, h.alive, h.pos, h.distinct⟩

/-- `nvc_init` keeps the invariant when it is careful. -/
theorem Inv.nvcInit (h : lib.Inv) {prelude : Bool} {o : Service → StartOutcome} {ctx : Option ℕ}
    (hcareful : lib.Careful (.init ctx prelude o)) : (lib.nvcInit prelude o ctx).2.Inv := by
  cases ctx with
  | none => exact h
  | some n =>
    rw [Library.nvcInit]
    split_ifs with hinit hpre
    · exact h
    · exact h
    · obtain rfl : prelude = true := by simpa using hpre
      obtain ⟨⟨hdriver, hclears⟩, hnvcgo⟩ := hcareful (by simpa using hinit)
      obtain ⟨hinv, hok, hother⟩ := h.start hdriver hclears
      generalize lib.start .driver (o .driver) = started at hinv hok hother
      obtain ⟨ok, lib₁⟩ := started
      cases ok with
      | false => exact hinv
      | true =>
        obtain ⟨hdown, hclears'⟩ := hnvcgo (hok rfl)
        have hdown₁ : (lib₁.ctx .nvcgo).initialized = false := by
          rw [hother .nvcgo (by decide)]
          exact hdown
        obtain ⟨hinv₂, -, -⟩ := hinv.start hdown₁ hclears'
        simp only [Bool.not_true, Bool.false_eq_true, if_false]
        split_ifs
        · exact hinv₂
        · exact hinv₂.flags _

/-- `nvc_shutdown` keeps the invariant; when it returns 0 no process is left, and it returns 0 when
the processes can be waited for. -/
theorem Inv.nvcShutdown (h : lib.Inv) (waited : Service → Bool) (ctx : Option ℕ) :
    (lib.nvcShutdown waited ctx).2.Inv ∧
      ((lib.nvcShutdown waited ctx).1 = 0 → (lib.nvcShutdown waited ctx).2.world.children = []) ∧
      (ctx.isSome → (∀ s, waited s = true) → (lib.nvcShutdown waited ctx).1 = 0) := by
  cases ctx with
  | none =>
    refine ⟨h, fun h0 => ?_, fun hf => (by cases hf)⟩
    cases h0
  | some n =>
    rw [Library.nvcShutdown]
    obtain ⟨hinv₁, hdown₁, hok₁, -⟩ := h.stop (s := .nvcgo) (waited .nvcgo)
    generalize lib.stop .nvcgo (waited .nvcgo) = stopped at hinv₁ hdown₁ hok₁
    obtain ⟨ok₁, lib₁⟩ := stopped
    obtain ⟨hinv₂, hdown₂, hok₂, hother⟩ := hinv₁.stop (s := .driver) (waited .driver)
    simp only
    generalize lib₁.stop .driver (waited .driver) = stopped at hinv₂ hdown₂ hok₂ hother
    obtain ⟨ok₂, lib₂⟩ := stopped
    have hnil :
        (if ok₁ = true ∧ ok₂ = true then (0 : ℤ) else -1) = 0 → lib₂.world.children = [] := by
      intro h0
      obtain ⟨h₁, h₂⟩ : ok₁ = true ∧ ok₂ = true := by
        by_contra hnot
        rw [if_neg hnot] at h0
        cases h0
      refine hinv₂.children_eq_nil fun s => ?_
      cases s with
      | driver => exact hdown₂ h₂
      | nvcgo =>
        rw [hother .nvcgo (by decide)]
        exact hdown₁ h₁
    have hzero : (∀ s, waited s = true) → (if ok₁ = true ∧ ok₂ = true then (0 : ℤ) else -1) = 0 :=
      fun hw => if_pos ⟨hok₁ (hw .nvcgo), hok₂ (hw .driver)⟩
    by_cases hflag : (!lib₂.initialized n) = true
    · simp only [if_pos hflag]
      exact ⟨hinv₂, hnil, fun _ => hzero⟩
    · simp only [if_neg hflag]
      exact ⟨hinv₂.flags _, hnil, fun _ => hzero⟩

/-- A call as a step of the process. -/
def step (lib : Library) (c : Call) : Option Library := some (lib.call c).2

theorem inv_step {t : Library} {c : Call} (h : lib.Inv) (hcareful : lib.Careful c)
    (hstep : lib.step c = some t) : t.Inv := by
  obtain rfl := Option.some.inj hstep
  cases c with
  | init ctx prelude o => exact h.nvcInit hcareful
  | shutdown ctx waited => exact (h.nvcShutdown waited ctx).1

/-- A process that has not started a service. -/
structure Fresh (lib : Library) : Prop where
  down : ∀ s, (lib.ctx s).initialized = false
  childless : lib.world.children = []

/-- **No service process is lost** in a run of careful calls: every one that is left is recorded
where a shutdown looks for it, an `nvc_shutdown` that can wait for them returns 0, and after one
that returns 0 there is none. -/
theorem recorded_of_careful {t : Library} {calls : List Call} (h₀ : lib.Fresh)
    (hcareful : Throughout step Careful lib calls) (hrun : run step lib calls = some t) :
    t.Recorded ∧ ∀ n waited,
      ((∀ s, waited s = true) → (t.nvcShutdown waited (some n)).1 = 0) ∧
      ((t.nvcShutdown waited (some n)).1 = 0 →
        (t.nvcShutdown waited (some n)).2.world.children = []) := by
  have hinv₀ : lib.Inv := by
    refine ⟨?_, fun s hs => ?_, ?_, ?_⟩
    · intro c hc
      rw [h₀.childless] at hc
      cases hc
    · rw [h₀.down s] at hs
      cases hs
    · simp [h₀.childless]
    · simp [h₀.childless]
  have hinv : t.Inv := run_inv inv_step hinv₀ hcareful hrun
  refine ⟨hinv.recorded, fun n waited => ?_⟩
  obtain ⟨-, hnil, hzero⟩ := hinv.nvcShutdown waited (some n)
  exact ⟨hzero rfl, hnil⟩

/-- A process that has just started. -/
def launched : Library where
  world := ⟨{0, 1, 2}, {0, 1, 2}, fun _ => ∅, [], []⟩
  ctx _ := ⟨Rpc.zero, false⟩
  initialized _ := false

/-- Every step of a start succeeds. -/
def smooth (pid : ℕ) : StartOutcome := ⟨true, ⟨true, some pid, true, true, true⟩, true, true⟩

theorem launched_fresh : launched.Fresh := ⟨fun _ => rfl, rfl⟩

/-- One context initialised and shut down. -/
def oneContext : List Call :=
  [.init (some 0) true fun s => smooth (if s = .driver then 7 else 8),
    .shutdown (some 0) fun _ => true]

theorem recorded_oneContext : ∃ t, run step launched oneContext = some t ∧ t.Recorded := by
  have hcareful : Throughout step Careful launched oneContext := by
    refine ⟨fun _ =>
      ⟨⟨rfl, fun _ hnot => absurd ?_ hnot⟩, fun _ => ⟨rfl, fun _ hnot => absurd ?_ hnot⟩⟩,
      fun _ _ => ⟨trivial, fun _ _ => trivial⟩⟩
    · exact ⟨⟨fun _ => rfl, rfl, rfl⟩, ⟨rfl, rfl⟩, rfl⟩
    · exact ⟨⟨fun _ => rfl, rfl, rfl⟩, ⟨rfl, rfl⟩, rfl⟩
  obtain ⟨t, ht⟩ : ∃ t, run step launched oneContext = some t := ⟨_, rfl⟩
  exact ⟨t, ht, (recorded_of_careful launched_fresh hcareful ht).1⟩

/-- Two contexts initialised, then the first one shut down. -/
def twoContexts : List Call :=
  [.init (some 0) true fun s => smooth (if s = .driver then 7 else 8),
    .init (some 1) true fun s => smooth (if s = .driver then 9 else 10)]

/-- The second `nvc_init` overwrites the global contexts: the shutdown that follows returns 0 and
leaves the two processes of the first. -/
theorem second_init_loses :
    ∃ t, run step launched twoContexts = some t ∧ ¬ t.Recorded ∧
      (t.nvcShutdown (fun _ => true) (some 0)).1 = 0 ∧
      (t.nvcShutdown (fun _ => true) (some 0)).2.world.children = [⟨8, .nvcgo⟩, ⟨7, .driver⟩] := by
  refine ⟨_, rfl, fun hrec => ?_, by decide, by decide⟩
  have hlost := (hrec ⟨7, .driver⟩ (by decide)).2
  revert hlost
  decide

end Library

end Services
