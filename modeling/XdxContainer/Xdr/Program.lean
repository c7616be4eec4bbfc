import XdxContainer.Xdr.Words

/-!
# Xdr/Program — remote procedures: what a client gets over the wire is what it gets without it

    client ──encode──▸ (number, words) ──dispatch──▸ procedure ──encode──▸ words ──decode──▸ client
       └────────────────────────────── direct ─────────────────────────────────────────────────┘

An RPC program names its procedures; each has the number the client calls it by and a routine for
its argument and one for its result.  The dispatcher has its own table of numbers.  A service runs
the procedures on its state.  `clntCall` goes through the words and the table, `direct` does not,
and **no client can tell them apart**, however it picks its calls by the answers it got:
`Client.run_clntCall`.
-/

/-- An RPC program: what `rpcgen` makes of one, on both sides. -/
structure RpcProgram where
  Proc : Type
  Arg : Proc → Type
  Res : Proc → Type
  /-- The number in the client's stub. -/
  number : Proc → ℕ
  /-- The switch of the dispatcher, without its null procedure. -/
  entry : ℕ → Option Proc
  xdrArg : ∀ p, Xdr (Arg p)
  xdrRes : ∀ p, Xdr (Res p)
  number_ne_zero : ∀ p, number p ≠ 0
  entry_number : ∀ p, entry (number p) = some p

namespace RpcProgram

variable (P : RpcProgram) {σ : Type}

/-- The procedures on the state of a service; a procedure also says whether it is to be answered. -/
abbrev Service (σ : Type) := ∀ p, P.Arg p → σ → Bool × P.Res p × σ

/-- What the dispatcher answers. -/
inductive Reply
  | success (body : List UInt8)
  | procUnavail
  | garbageArgs
  | systemErr
  deriving DecidableEq

/-- What a call comes to, `enum clnt_stat` with the result. -/
inductive Stat (α : Type)
  | success (a : α)
  | cantEncodeArgs
  | cantDecodeRes
  | timedOut
  | procUnavail
  | cantDecodeArgs
  | systemError
  deriving DecidableEq

/-! ## The service's side -/

/-- `svc_sendreply`, and `svcerr_systemerr` when it fails. -/
def sendReply {α : Type} (xdr : Xdr α) (a : α) : Reply :=
  match xdr.encode a with
  | some w => .success w
  | none => .systemErr

/-- A procedure with its argument decoded. -/
def serve (svc : P.Service σ) (p : P.Proc) (a : P.Arg p) (s : σ) : Option Reply × σ :=
  let (retval, res, s) := svc p a s
  (if retval then some (sendReply (P.xdrRes p) res) else none, s)

/-- The dispatcher, on the number and the rest of a request. -/
def dispatch (svc : P.Service σ) (proc : ℕ) (body : List UInt8) (s : σ) : Option Reply × σ :=
  if proc = 0 then (some (.success []), s)
  else
    match P.entry proc with
    | none => (some .procUnavail, s)
    | some p =>
      match (P.xdrArg p).decode body with
      | none => (some .garbageArgs, s)
      | some (a, _) => P.serve svc p a s

/-! ## The client's side -/

/-- What the client makes of a reply. -/
def receive {α : Type} (xdr : Xdr α) : Option Reply → Stat α
  | none => .timedOut
  | some (.success w) =>
    match xdr.decode w with
    | some (a, _) => .success a
    | none => .cantDecodeRes
  | some .procUnavail => .procUnavail
  | some .garbageArgs => .cantDecodeArgs
  | some .systemErr => .systemError

/-- `clnt_call` with the stub's number and routines, on a transport that delivers. -/
def clntCall (svc : P.Service σ) (p : P.Proc) (a : P.Arg p) (s : σ) : Stat (P.Res p) × σ :=
  match (P.xdrArg p).encode a with
  | none => (.cantEncodeArgs, s)
  | some w =>
    let (reply, s) := P.dispatch svc (P.number p) w s
    (receive (P.xdrRes p) reply, s)

/-- **The call without the wire**: the procedure itself, where argument and result can be
written. -/
def direct (svc : P.Service σ) (p : P.Proc) (a : P.Arg p) (s : σ) : Stat (P.Res p) × σ :=
  if (P.xdrArg p).Writes a then
    let (retval, res, s) := svc p a s
    (if retval then
      if (P.xdrRes p).Writes res then .success res else .systemError
     else .timedOut, s)
  else (.cantEncodeArgs, s)

/-! ## One call -/

section Call

variable (svc : P.Service σ) (s : σ)

theorem dispatch_of_entry {proc : ℕ} {p : P.Proc} {a : P.Arg p} {body rest : List UInt8}
    (hproc : proc ≠ 0) (hp : P.entry proc = some p)
    (ha : (P.xdrArg p).decode body = some (a, rest)) :
    P.dispatch svc proc body s = P.serve svc p a s := by
  simp [dispatch, hproc, hp, ha]

theorem receive_sendReply {α : Type} (xdr : Xdr α) (a : α) :
    receive xdr (some (sendReply xdr a))
      = if xdr.Writes a then .success a else .systemError := by
  unfold sendReply
  rcases h : xdr.encode a with _ | w
  · simp [receive, Codec.Writes, h]
  · simp [receive, xdr.decode_encode_self h, Codec.Writes, h]

/-- **A call over the wire is the call.** -/
theorem clntCall_eq_direct (p : P.Proc) (a : P.Arg p) :
    P.clntCall svc p a s = P.direct svc p a s := by
  rcases h : (P.xdrArg p).encode a with _ | w
  · simp [clntCall, direct, Codec.Writes, h]
  · have hread := (P.xdrArg p).decode_encode_self h
    have hserve := P.dispatch_of_entry svc s (P.number_ne_zero p) (P.entry_number p) hread
    simp only [clntCall, direct, (P.xdrArg p).writes_iff.mpr ⟨w, h⟩, h, hserve, serve, if_true]
    rcases svc p a s with ⟨_ | _, res, s'⟩
    · rfl
    · exact Prod.ext (receive_sendReply _ res) rfl

/-! ## Any request -/

/-- The request runs the procedure `p` with the argument `a`. -/
def Runs (proc : ℕ) (body : List UInt8) (p : P.Proc) (a : P.Arg p) : Prop :=
  proc ≠ 0 ∧ P.entry proc = some p ∧ ∃ rest, (P.xdrArg p).decode body = some (a, rest)

/-- **A request runs one procedure or none.**  It runs none if its number is not in the table or its
argument cannot be read, and then it leaves the state alone and is answered without a result. -/
theorem dispatch_cases (proc : ℕ) (body : List UInt8) :
    (∃ p a, P.Runs proc body p a ∧ P.dispatch svc proc body s = P.serve svc p a s) ∨
    (¬ ∃ p a, P.Runs proc body p a) ∧ (P.dispatch svc proc body s).2 = s ∧
      (P.dispatch svc proc body s).1 = some (if proc = 0 then .success []
        else if P.entry proc = none then .procUnavail else .garbageArgs) := by
  by_cases hproc : proc = 0
  · refine .inr ⟨fun ⟨p, a, hruns⟩ => hruns.1 hproc, ?_, ?_⟩
    · rw [dispatch, if_pos hproc]
    · rw [dispatch, if_pos hproc, if_pos hproc]
  · rcases hp : P.entry proc with _ | p
    · refine .inr ⟨fun ⟨p, a, hruns⟩ => ?_, ?_, ?_⟩
      · have hnone : some p = none := hruns.2.1.symm.trans hp
        cases hnone
      · simp [dispatch, hproc, hp]
      · simp [dispatch, hproc, hp]
    · rcases ha : (P.xdrArg p).decode body with _ | ⟨a, rest⟩
      · refine .inr ⟨fun ⟨q, a, hruns⟩ => ?_, ?_, ?_⟩
        · obtain ⟨-, hq, rest, hread⟩ := hruns
          obtain rfl : p = q := Option.some.inj (hp.symm.trans hq)
          have hnone : none = some (a, rest) := ha.symm.trans hread
          cases hnone
        · simp [dispatch, hproc, hp, ha]
        · simp [dispatch, hproc, hp, ha]
      · exact .inl ⟨p, a, ⟨hproc, hp, rest, ha⟩, P.dispatch_of_entry svc s hproc hp ha⟩

/-- **A request cut off in its argument runs nothing.** -/
theorem not_runs_of_truncated {p : P.Proc} {a : P.Arg p} {w v : List UInt8}
    (h : (P.xdrArg p).encode a = some (w ++ v)) (hv : v ≠ []) (q : P.Proc) (b : P.Arg q) :
    ¬ P.Runs (P.number p) w q b := by
  rintro ⟨-, hq, rest, hread⟩
  obtain rfl : p = q := Option.some.inj ((P.entry_number p).symm.trans hq)
  have hnone : none = some (b, rest) :=
    ((P.xdrArg p).decode_eq_none_of_truncated h hv).symm.trans hread
  cases hnone

end Call

/-! ## Clients -/

/-- A client: it is done, or makes a call and goes on by the answer. -/
inductive Client (ρ : Type)
  | done (r : ρ)
  | call (p : P.Proc) (a : P.Arg p) (next : Stat (P.Res p) → Client ρ)

variable {P} {ρ : Type}

/-- Running a client, by a way to call. -/
def Client.run (call : ∀ p, P.Arg p → σ → Stat (P.Res p) × σ) : P.Client ρ → σ → ρ × σ
  | .done r, s => (r, s)
  | .call p a next, s =>
    let (stat, s) := call p a s
    (next stat).run call s

/-- **No client can tell the wire from the procedures**: it ends with the same result, and leaves
the service in the same state. -/
theorem Client.run_clntCall (svc : P.Service σ) (client : P.Client ρ) (s : σ) :
    client.run (P.clntCall svc) s = client.run (P.direct svc) s := by
  induction client generalizing s with
  | done r => rfl
  | call p a next ih =>
    rw [Client.run, Client.run, clntCall_eq_direct]
    exact ih _ _

/-- What every call keeps, whatever its argument, a client keeps. -/
theorem Client.run_inv {call : ∀ p, P.Arg p → σ → Stat (P.Res p) × σ} {Inv : σ → Prop}
    (hcall : ∀ p a s, Inv s → Inv (call p a s).2) (client : P.Client ρ) {s : σ} (hs : Inv s) :
    Inv (client.run call s).2 := by
  induction client generalizing s with
  | done r => exact hs
  | call p a next ih => exact ih _ (hcall p a s hs)

end RpcProgram
