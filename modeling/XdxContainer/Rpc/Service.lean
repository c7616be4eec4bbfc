import Mathlib.Data.Finset.Insert
import Mathlib.Data.Finset.Card
import Mathlib.Data.Finset.Range
import Mathlib.Data.Int.Notation

/-!
# Rpc/Service — starting and stopping the service processes

    rpc_init:      socketpair ──▸ fork ──▸ setup_client (closes the service's end)
    rpc_shutdown:  reap the process ──▸ close both numbers

`rpc.c` on the descriptors and the children of the process.  A descriptor is its number, and the
kernel gives out the lowest one that is free.  Beside what the kernel knows the world keeps who
opened what: `held s` are the numbers the rpc object of service `s` opened and has not closed yet,
`closes` is every call of `close` the rpc code made, with whether the object held the number then.
-/

namespace Services

/-- The services. -/
inductive Service
  | driver
  | nvcgo
  deriving DecidableEq, Repr

/-! ## Descriptors and children -/

/-- The lowest number that is not taken. -/
def lowestFree (taken : Finset ℕ) : ℕ :=
  ((List.range (taken.card + 1)).find? (· ∉ taken)).getD 0

/-- The number that is given out is free. -/
theorem lowestFree_notMem (taken : Finset ℕ) : lowestFree taken ∉ taken := by
  rcases h : (List.range (taken.card + 1)).find? (· ∉ taken) with _ | n
  · have hsub : Finset.range (taken.card + 1) ⊆ taken := by
      intro n hn
      have hall := List.find?_eq_none.mp h n (by simpa using hn)
      simpa using hall
    have hcard := Finset.card_le_card hsub
    rw [Finset.card_range] at hcard
    omega
  · have hn := List.find?_some h
    rw [lowestFree, h]
    simpa using hn

/-- A child that has not been waited for. -/
structure Child where
  pid : ℕ
  service : Service
  deriving DecidableEq, Repr

/-- A call of `close` by the rpc code: for which service, on which number, and whether the service's
object held it. -/
structure Close where
  service : Service
  fd : ℕ
  rightful : Bool
  deriving DecidableEq, Repr

/-- The descriptors and the processes there are. -/
structure World where
  /-- The numbers that are open. -/
  opened : Finset ℕ
  /-- The numbers other parts of the process opened and have not closed. -/
  others : Finset ℕ
  held : Service → Finset ℕ
  closes : List Close
  children : List Child

namespace World

/-- Another part of the process opens a descriptor. -/
def openOther (w : World) : World :=
  let n := lowestFree w.opened
  { w with opened := insert n w.opened, others := insert n w.others }

/-- It closes one of its own. -/
def closeOther (n : ℕ) (w : World) : World :=
  { w with opened := w.opened.erase n, others := w.others.erase n }

/-- `xclose`: nothing is done about a negative number. -/
def xclose (s : Service) (fd : ℤ) (w : World) : World :=
  if fd < 0 then w
  else
    let n := fd.toNat
    { w with
      opened := w.opened.erase n
      held := Function.update w.held s ((w.held s).erase n)
      closes := w.closes ++ [⟨s, n, n ∈ w.held s⟩] }

/-- `socketpair`, when it succeeds. -/
def socketpair (s : Service) (w : World) : ℕ × ℕ × World :=
  let a := lowestFree w.opened
  let b := lowestFree (insert a w.opened)
  (a, b, { w with
    opened := insert b (insert a w.opened)
    held := Function.update w.held s (insert b (insert a (w.held s))) })

/-- A process number that is not in use, the one asked for if it is not. -/
def freshPid (children : List Child) (seed : ℕ) : ℕ :=
  if 0 < seed ∧ ∀ c ∈ children, c.pid ≠ seed then seed
  else (children.map Child.pid).foldr max 0 + 1

/-- `fork`, when it succeeds. -/
def fork (s : Service) (seed : ℕ) (w : World) : ℕ × World :=
  let pid := freshPid w.children seed
  (pid, { w with children := ⟨pid, s⟩ :: w.children })

/-- Every close of the rpc code was on a number its object held. -/
def Clean (w : World) : Prop := ∀ c ∈ w.closes, c.rightful

section Closing

variable (w : World) (s : Service) {fd : ℤ}

theorem xclose_of_neg (h : fd < 0) : w.xclose s fd = w := if_pos h

@[simp] theorem xclose_children : (w.xclose s fd).children = w.children := by
  unfold xclose
  split_ifs <;> rfl

/-- The service no longer holds the number. -/
theorem held_xclose (h : 0 ≤ fd) : (w.xclose s fd).held s = (w.held s).erase fd.toNat := by
  simp [xclose, not_lt.mpr h]

/-- The other service holds what it held. -/
theorem held_xclose_of_ne {s' : Service} (hs : s' ≠ s) : (w.xclose s fd).held s' = w.held s' := by
  unfold xclose
  split_ifs
  · rfl
  · exact Function.update_of_ne hs _ _

/-- A close is clean when the number is held. -/
theorem clean_xclose (h : 0 ≤ fd) : (w.xclose s fd).Clean ↔ w.Clean ∧ fd.toNat ∈ w.held s := by
  simp only [xclose, not_lt.mpr h, if_false, Clean, List.mem_append, List.mem_singleton]
  constructor
  · intro hall
    refine ⟨fun c hc => hall c (.inl hc), ?_⟩
    simpa using hall _ (.inr rfl)
  · rintro ⟨hw, hmem⟩ c (hc | rfl)
    · exact hw c hc
    · simpa using hmem

/-- Closing never makes a world clean. -/
theorem clean_of_xclose (h : (w.xclose s fd).Clean) : w.Clean := by
  by_cases hfd : fd < 0
  · rwa [xclose_of_neg w s hfd] at h
  · exact ((clean_xclose w s (not_lt.mp hfd)).mp h).1

/-- Closing two numbers is clean when both are held and they differ. -/
theorem clean_xclose_xclose {fd' : ℤ} (h : 0 ≤ fd) (h' : 0 ≤ fd') :
    ((w.xclose s fd).xclose s fd').Clean
      ↔ w.Clean ∧ fd.toNat ∈ w.held s ∧ fd'.toNat ∈ w.held s ∧ fd'.toNat ≠ fd.toNat := by
  rw [clean_xclose _ _ h', clean_xclose _ _ h, held_xclose _ _ h, Finset.mem_erase]
  tauto

end Closing

end World

/-! ## rpc.c -/

/-- `struct rpc`, without its program. -/
structure Rpc where
  initialized : Bool
  clt : ℤ
  svc : ℤ
  pid : ℤ
  /-- `clt != NULL`. -/
  client : Bool
  deriving DecidableEq, Repr

/-- The object `rpc_init` starts from and `rpc_shutdown` leaves. -/
def Rpc.blank : Rpc := ⟨false, -1, -1, -1, false⟩

/-- The object with every byte zero. -/
def Rpc.zero : Rpc := ⟨false, 0, 0, 0, false⟩

/-- `reap_process`: it succeeds if the process is a child and, in the end, waiting for it does. -/
def reapProcess (pid : ℤ) (waited : Bool) (w : World) : Bool × World :=
  if waited ∧ ∃ c ∈ w.children, (c.pid : ℤ) = pid then
    (true, { w with children := w.children.filter fun c => (c.pid : ℤ) ≠ pid })
  else (false, w)

/-- What becomes of the calls `rpc_init` makes; `fork` fails or gives a process number. -/
structure InitOutcome where
  socketpair : Bool
  fork : Option ℕ
  getpeername : Bool
  clntunixCreate : Bool
  /-- Waiting for the process, when the service is given up. -/
  waited : Bool

/-- `setup_client`. -/
def setupClient (s : Service) (o : InitOutcome) (r : Rpc) (w : World) : Bool × Rpc × World :=
  let w := w.xclose s r.svc
  if !o.getpeername then (false, r, w)
  else if !o.clntunixCreate then (false, r, w)
  else (true, { r with client := true }, w)

/-- What follows the label of `rpc_init`. -/
def rpcInitFail (s : Service) (o : InitOutcome) (r : Rpc) (w : World) : Bool × Rpc × World :=
  let w := if 0 < r.pid then (reapProcess r.pid o.waited w).2 else w
  (false, r, (w.xclose s r.clt).xclose s r.svc)

/-- `rpc_init`: whether it succeeds, and the object then. -/
def rpcInit (s : Service) (o : InitOutcome) (r : Rpc) (w : World) : Bool × Rpc × World :=
  if r.initialized then (true, r, w)
  else if !o.socketpair then rpcInitFail s o Rpc.blank w
  else
    let (a, b, w) := w.socketpair s
    let r := { Rpc.blank with clt := a, svc := b }
    match o.fork with
    | none => rpcInitFail s o r w
    | some seed =>
      let (pid, w) := w.fork s seed
      let (ok, r, w) := setupClient s o { r with pid := pid } w
      if ok then (true, { r with initialized := true }, w) else rpcInitFail s o r w

/-- `rpc_shutdown`. -/
def rpcShutdown (s : Service) (waited : Bool) (r : Rpc) (w : World) : Bool × Rpc × World :=
  let (reaped, w) := if 0 < r.pid then reapProcess r.pid waited w else (true, w)
  if reaped then (true, Rpc.blank, (w.xclose s r.clt).xclose s r.svc) else (false, r, w)

/-! ## What they do -/

section Laws

variable (s : Service) (o : InitOutcome) {r : Rpc} (w : World)

/-- Whether `reap_process` succeeds. -/
def Reaps (pid : ℤ) (waited : Bool) (w : World) : Prop :=
  waited ∧ ∃ c ∈ w.children, (c.pid : ℤ) = pid

/-- When a process is reaped. -/
theorem reapProcess_fst (pid : ℤ) (waited : Bool) :
    (reapProcess pid waited w).1 = true ↔ Reaps pid waited w := by
  unfold reapProcess Reaps
  split_ifs with h
  · exact iff_of_true rfl h
  · exact iff_of_false not_false h

@[simp] theorem reapProcess_held (pid : ℤ) (waited : Bool) :
    (reapProcess pid waited w).2.held = w.held := by
  unfold reapProcess
  split_ifs <;> rfl

@[simp] theorem reapProcess_closes (pid : ℤ) (waited : Bool) :
    (reapProcess pid waited w).2.closes = w.closes := by
  unfold reapProcess
  split_ifs <;> rfl

/-- Reaping closes nothing. -/
theorem clean_reapProcess (pid : ℤ) (waited : Bool) :
    (reapProcess pid waited w).2.Clean ↔ w.Clean := by
  rw [World.Clean, reapProcess_closes, World.Clean]

/-- `rpc_shutdown` where the process is reaped, or there is none. -/
theorem rpcShutdown_of_reaps {waited : Bool} (h : 0 < r.pid → Reaps r.pid waited w) :
    ∃ w' : World, rpcShutdown s waited r w = (true, Rpc.blank, (w'.xclose s r.clt).xclose s r.svc) ∧
      w'.held = w.held ∧ (w'.Clean ↔ w.Clean) := by
  by_cases hpid : 0 < r.pid
  · refine ⟨(reapProcess r.pid waited w).2, ?_, reapProcess_held .., clean_reapProcess ..⟩
    simp [rpcShutdown, hpid, (reapProcess_fst w r.pid waited).mpr (h hpid)]
  · refine ⟨w, ?_, rfl, Iff.rfl⟩
    simp [rpcShutdown, hpid]

/-- `rpc_shutdown` where reaping the process fails. -/
theorem rpcShutdown_of_not_reaps {waited : Bool} (hpid : 0 < r.pid)
    (h : ¬ Reaps r.pid waited w) : rpcShutdown s waited r w = (false, r, w) := by
  have hfail : reapProcess r.pid waited w = (false, w) := if_neg h
  simp [rpcShutdown, hpid, hfail]

end Laws

end Services
