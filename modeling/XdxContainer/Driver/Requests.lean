import XdxContainer.Driver.Session

/-!
# Driver/Requests — any request, from whatever client

    number, bytes ──dispatch──▸ nothing is run, the state is as it was
                        └─────▸ one procedure ──▸ fits: one word of the table at most is stored
                                              └─▸ does not fit: other memory is accessed

A client need not be a plan: the address in a request is whatever the client wrote there.
`Fits` says of which requests the service stays inside its table, and `serveAll_spec` that as long
as it does, the library is only ever asked about handles that it gave.
-/

open Xdr Messages

namespace Driver

section Requests

variable {σ : Type} (lib : Library σ) (m : Layout) (setting : Setting)

/-! ## The requests that fit -/

/-- There is a word at the address, and the library can be asked about it. -/
def Asks (st : State σ) (dev : Ptr) : Prop := (m.word dev).isSome ∧ st.dl ≠ .closed

/-- The library gives a handle. -/
def Gives (st : State σ) (c : Call) : Prop := ∃ h st', answer lib c st = some (.ok h, st')

/-- The procedure stays inside the table. -/
def Inside (st : State σ) : (p : DriverProc) → p.Arg → Prop
  | .init, _ => True
  | .shutdown, _ | .getRmVersion, _ | .getCudaVersion, _ | .getDeviceCount, _ => st.dl ≠ .closed
  | .getDevice, (_, idx) => idx.toNat < maxDevices → st.dl ≠ .closed
  -- any word may be taken for that of a GPU
  | .getDeviceMigDevice, (_, dev, idx) => idx.toNat < maxMigDevices → st.dl ≠ .closed ∧
      ∃ w, m.word dev = some w ∧
        (Gives lib st (.deviceGetMigDeviceHandleByIndex (st.words w) idx) →
          w + 1 + idx.toNat < tableWords)
  | .getDeviceMinor, (_, dev) | .getDeviceBusid, (_, dev) | .getDeviceUuid, (_, dev)
  | .getDeviceArch, (_, dev) | .getDeviceModel, (_, dev) | .getDeviceBrand, (_, dev)
  | .getDeviceMigMode, (_, dev) | .getDeviceMaxMigDeviceCount, (_, dev)
  | .getDeviceGpuInstanceId, (_, dev) | .getDeviceComputeInstanceId, (_, dev) => Asks m st dev

/-- The service still runs, the context is its own, and the procedure stays inside the table. -/
def Admissible (st : State σ) (p : DriverProc) (a : p.Arg) : Prop :=
  (st.exiting = false ∧ contextOf p a = m.ctx) ∧ Inside lib m st p a

/-- **The request fits**: if it runs a procedure at all, that one is admissible. -/
def Fits (st : State σ) (proc : ℕ) (body : List UInt8) : Prop :=
  ∀ p a, driverProgram.Runs proc body p a → Admissible lib m st p a

/-! ## One procedure -/

variable {lib m setting} {st : State σ}

theorem answer_isSome {c : Call} : (answer lib c st).isSome ↔ st.dl ≠ .closed := by
  rcases h : st.dl with _ | _ | _ <;> simp [answer, h]

/-- The library can be called unless it was closed. -/
theorem callLibrary_isSome {what : Phrase} {c : Call} :
    (callLibrary lib what c st).isSome ↔ st.dl ≠ .closed := by
  rw [callLibrary, Option.isSome_map, answer_isSome]

theorem asking_eq {α : Type} (what : Phrase) (q : Ask) (f : q.Out → α) (dev : Ptr) :
    asking lib m what q f dev st = (m.word dev).bind fun w =>
      (callLibrary lib what (.ask q (st.words w)) st).map fun (r, st) => (r.map f, st) := by
  rcases hw : m.word dev with _ | w
  · simp [asking, hw]
  · simp only [asking, hw, Option.bind_eq_bind, Option.bind_some]
    rcases callLibrary lib what (.ask q (st.words w)) st with _ | r
    · rfl
    · rfl

/-- A device can be asked about if its handle is one. -/
theorem asking_isSome {α : Type} {what : Phrase} {q : Ask} {f : q.Out → α} {dev : Ptr} :
    (asking lib m what q f dev st).isSome ↔ Asks m st dev := by
  rw [asking_eq, Asks]
  rcases m.word dev with _ | w
  · exact iff_of_false Bool.false_ne_true fun h => Bool.false_ne_true h.1
  · rw [Option.bind_some, Option.isSome_map, callLibrary_isSome]
    exact (and_iff_right rfl).symm

/-- An index behind the table is refused without a call. -/
theorem getDeviceSvc_isSome {idx : UInt32} :
    (driverGetDeviceSvc lib m idx st).isSome ↔ (idx.toNat < maxDevices → st.dl ≠ .closed) := by
  rw [driverGetDeviceSvc]
  split_ifs with hidx
  · exact iff_of_true rfl fun hlt => absurd hlt (not_lt.mpr hidx)
  · have hcall := @callLibrary_isSome _ lib st xdxmlError (.deviceGetHandleByIndex idx)
    rw [← hcall, forall_prop_of_true (not_le.mp hidx)]
    rcases callLibrary lib xdxmlError (.deviceGetHandleByIndex idx) st with _ | ⟨_ | h, st'⟩
    · rfl
    · rfl
    · rfl

/-- What `driver_get_device_mig_device` makes of the library's answer. -/
def migStored (w : ℕ) (idx : UInt32) :
    Except Failure Handle × State σ → Option (Except Failure Ptr × State σ)
  | (.error e, st) => some (if e.code = notFound then .ok 0 else .error e, st)
  | (.ok h, st) =>
    if hw : w + 1 + idx.toNat < tableWords then
      some (.ok (m.addr (w + 1 + idx.toNat)),
        { st with words := Function.update st.words ⟨w + 1 + idx.toNat, hw⟩ h })
    else none

/-- A MIG device of an index in range is asked for and stored. -/
theorem getDeviceMigDeviceSvc_eq (dev : Ptr) {idx : UInt32} (hidx : idx.toNat < maxMigDevices) :
    driverGetDeviceMigDeviceSvc lib m dev idx st = (m.word dev).bind fun w =>
      (callLibrary lib nvmlError (.deviceGetMigDeviceHandleByIndex (st.words w) idx) st).bind
        (migStored (m := m) w idx) := by
  rw [driverGetDeviceMigDeviceSvc, if_neg (not_le.mpr hidx)]
  rcases m.word dev with _ | w
  · rfl
  · simp only [Option.bind_eq_bind, Option.bind_some]
    rcases callLibrary lib nvmlError (.deviceGetMigDeviceHandleByIndex (st.words w) idx) st
      with _ | ⟨_ | h, st'⟩
    · rfl
    · rfl
    · rfl

/-- What `call_nvml` comes to, by the library's answer. -/
theorem callLibrary_eq {what : Phrase} {c : Call} {r : Except Code c.Out} {st' : State σ}
    (h : answer lib c st = some (r, st')) : callLibrary lib what c st
      = some (r.mapError fun code => .set code what (errorText lib st'.dl code), st') := by
  rw [callLibrary, h]
  rfl

/-- When a MIG device can be asked for. -/
theorem getDeviceMigDeviceSvc_isSome {dev : Ptr} {idx : UInt32} :
    (driverGetDeviceMigDeviceSvc lib m dev idx st).isSome ↔
      (idx.toNat < maxMigDevices → st.dl ≠ .closed ∧ ∃ w, m.word dev = some w ∧
        (Gives lib st (.deviceGetMigDeviceHandleByIndex (st.words w) idx) →
          w + 1 + idx.toNat < tableWords)) := by
  by_cases hidx : idx.toNat < maxMigDevices
  · rw [getDeviceMigDeviceSvc_eq dev hidx, forall_prop_of_true hidx]
    rcases hw : m.word dev with _ | w
    · refine iff_of_false Bool.false_ne_true fun hin => ?_
      obtain ⟨-, w, hnone, -⟩ := hin
      exact Option.some_ne_none w hnone.symm
    · rw [Option.bind_some]
      have hcall := @answer_isSome _ lib st (.deviceGetMigDeviceHandleByIndex (st.words w) idx)
      rcases h : answer lib (.deviceGetMigDeviceHandleByIndex (st.words w) idx) st
        with _ | ⟨r, st'⟩
      · rw [h] at hcall
        refine iff_of_false ?_ fun hin => Bool.false_ne_true (hcall.mpr hin.1)
        rw [callLibrary, h]
        exact Bool.false_ne_true
      · rw [h] at hcall
        rw [callLibrary_eq h, Option.bind_some]
        rcases r with e | handle
        · refine iff_of_true rfl ⟨hcall.mp rfl, w, rfl, fun hgives => ?_⟩
          obtain ⟨handle, st'', hgives⟩ := hgives
          rw [h] at hgives
          cases hgives
        · have hgives : Gives lib st (.deviceGetMigDeviceHandleByIndex (st.words w) idx) :=
            ⟨handle, st', h⟩
          by_cases hword : w + 1 + idx.toNat < tableWords
          · refine iff_of_true ?_ ⟨hcall.mp rfl, w, rfl, fun _ => hword⟩
            exact Option.isSome_iff_exists.mpr ⟨_, dif_pos hword⟩
          · refine iff_of_false ?_ fun hin => ?_
            · exact Option.isSome_iff_ne_none.not.mpr (not_not.mpr (dif_neg hword))
            · obtain ⟨-, w', hw', hfits⟩ := hin
              obtain rfl : w = w' := Option.some.inj hw'
              exact hword (hfits hgives)
  · rw [driverGetDeviceMigDeviceSvc, if_pos (not_lt.mp hidx)]
    exact iff_of_true rfl fun hlt => absurd hlt hidx

theorem isSome_map_iff {α β : Type} {f : α → β} {o : Option α} :
    (o.map f).isSome ↔ o.isSome := by rw [Option.isSome_map]

variable (lib m setting) in
/-- **A procedure accesses nothing but the table exactly when it is inside.** -/
theorem procedure_isSome_iff (p : DriverProc) (a : p.Arg) :
    (procedure lib m setting p a st).isSome ↔ Inside lib m st p a := by
  cases p with
  | init =>
    refine iff_of_true ?_ trivial
    simp only [procedure, driverInitSvc]
    rcases setting.steps.findSome? setting.outcome with _ | e
    · rfl
    · rfl
  | shutdown =>
    have hcall : (callLibrary lib xdxmlError .shutdown st).isSome ↔ st.dl ≠ .closed :=
      callLibrary_isSome
    refine Iff.trans ?_ hcall
    simp only [procedure, driverShutdownSvc]
    rcases callLibrary lib xdxmlError .shutdown st with _ | r
    · rfl
    · rfl
  | getRmVersion => exact isSome_map_iff.trans callLibrary_isSome
  | getCudaVersion => exact isSome_map_iff.trans callLibrary_isSome
  | getDeviceCount => exact callLibrary_isSome
  | getDevice => exact getDeviceSvc_isSome
  | getDeviceMigDevice => exact getDeviceMigDeviceSvc_isSome
  | getDeviceMigMode => exact isSome_map_iff.trans asking_isSome
  | _ => exact asking_isSome

theorem handle_isSome_iff (p : DriverProc) (a : p.Arg) :
    (handle lib m setting p a st).isSome ↔ Admissible lib m st p a := by
  rw [handle, Admissible]
  split_ifs with hrun
  · rw [procedure_isSome_iff lib m setting, and_iff_right hrun]
  · exact iff_of_false Bool.false_ne_true fun h => hrun h.1

/-! ## What a procedure does to the state -/

/-- The handle a call is about. -/
def Call.about : Call → Option Handle
  | .deviceGetMigDeviceHandleByIndex h _ | .ask _ h => some h
  | _ => none

/-- The call gave a handle. -/
def Call.Gave : (c : Call) → Except Code c.Out → Handle → Prop
  | .deviceGetHandleByIndex _, r, h | .deviceGetMigDeviceHandleByIndex _ _, r, h => r = .ok h
  | _, _, _ => False

variable (lib st) in
/-- The call is about a word of the table, if it is about a handle. -/
def Held (c : Call) : Prop := ∀ h ∈ c.about, ∃ w, st.words w = h

variable (lib st) in
/-- What a procedure can do to the words and to the library: make one call, and store the handle
that call gave. -/
inductive Effect (st' : State σ) : Prop
  | idle (hlib : st'.lib = st.lib) (hwords : st'.words = st.words)
  | called (c : Call) (hc : Held st c) (hlib : st'.lib = (lib.call c st.lib).2)
      (hwords : st'.words = st.words)
  | stored (c : Call) (hc : Held st c) (hlib : st'.lib = (lib.call c st.lib).2)
      (w : Fin tableWords) (h : Handle) (hgave : c.Gave (lib.call c st.lib).1 h)
      (hwords : st'.words = Function.update st.words w h)

variable {st' : State σ}

/-- The same state as far as the effect goes. -/
theorem Effect.congr {st'' : State σ} (h : Effect lib st st') (hlib : st''.lib = st'.lib)
    (hwords : st''.words = st'.words) : Effect lib st st'' := by
  cases h with
  | idle hl hw => exact .idle (hlib.trans hl) (hwords.trans hw)
  | called c hc hl hw => exact .called c hc (hlib.trans hl) (hwords.trans hw)
  | stored c hc hl w h hgave hw => exact .stored c hc (hlib.trans hl) w h hgave (hwords.trans hw)

/-- The library answered, or there was none to answer. -/
theorem answer_cases {c : Call} {r : Except Code c.Out} (h : answer lib c st = some (r, st')) :
    (∃ code, r = .error code) ∧ st' = st ∨
      r = (lib.call c st.lib).1 ∧ st' = { st with lib := (lib.call c st.lib).2 } := by
  rcases hdl : st.dl with _ | _ | _
  · simp only [answer, hdl, Option.some.injEq, Prod.mk.injEq] at h
    exact .inl ⟨⟨_, h.1.symm⟩, h.2.symm⟩
  · simp only [answer, hdl, Option.some.injEq, Prod.mk.injEq] at h
    exact .inr ⟨h.1.symm, h.2.symm⟩
  · simp only [answer, hdl, reduceCtorEq] at h

theorem held_of_about_eq_none {c : Call} (hc : c.about = none) : Held st c := by
  intro handle hmem
  rw [hc] at hmem
  cases hmem

/-- A call leaves the words alone. -/
theorem callLibrary_effect {what : Phrase} {c : Call} {r : Except Failure c.Out} (hc : Held st c)
    (h : callLibrary lib what c st = some (r, st')) : Effect lib st st' := by
  obtain ⟨⟨r', t⟩, hanswer, heq⟩ := Option.map_eq_some_iff.mp h
  obtain rfl : t = st' := congrArg Prod.snd heq
  rcases answer_cases hanswer with ⟨-, rfl⟩ | ⟨-, rfl⟩
  · exact .idle rfl rfl
  · exact .called c hc rfl rfl

/-- A handle is only got from a call that gave it. -/
theorem callLibrary_ok {what : Phrase} {c : Call} {a : c.Out}
    (h : callLibrary lib what c st = some (.ok a, st')) :
    (lib.call c st.lib).1 = .ok a ∧ st' = { st with lib := (lib.call c st.lib).2 } := by
  obtain ⟨⟨r', t⟩, hanswer, heq⟩ := Option.map_eq_some_iff.mp h
  obtain rfl : t = st' := congrArg Prod.snd heq
  have hok : r'.mapError _ = .ok a := congrArg Prod.fst heq
  rcases answer_cases hanswer with ⟨⟨code, rfl⟩, -⟩ | ⟨hr, hst⟩
  · cases hok
  · rcases r' with code | b
    · cases hok
    · obtain rfl : b = a := Except.ok.inj hok
      exact ⟨hr.symm, hst⟩

/-- A question has no other effect than on the library. -/
theorem asking_effect {α : Type} {what : Phrase} {q : Ask} {f : q.Out → α} {dev : Ptr}
    {r : Except Failure α} (h : asking lib m what q f dev st = some (r, st')) :
    Effect lib st st' := by
  rw [asking_eq] at h
  obtain ⟨w, -, hw⟩ := Option.bind_eq_some_iff.mp h
  obtain ⟨⟨r', t⟩, hcall, heq⟩ := Option.map_eq_some_iff.mp hw
  obtain rfl : t = st' := congrArg Prod.snd heq
  refine callLibrary_effect (fun handle hmem => ⟨w, ?_⟩) hcall
  exact Option.some.inj hmem

/-- A device is stored in its word. -/
theorem getDeviceSvc_effect {idx : UInt32} {r : Except Failure Ptr}
    (h : driverGetDeviceSvc lib m idx st = some (r, st')) : Effect lib st st' := by
  rw [driverGetDeviceSvc] at h
  split_ifs at h with hidx
  · obtain rfl : st = st' := congrArg Prod.snd (Option.some.inj h)
    exact .idle rfl rfl
  · obtain ⟨⟨r', t⟩, hcall, hstore⟩ := Option.bind_eq_some_iff.mp h
    have hheld : Held st (.deviceGetHandleByIndex idx) := held_of_about_eq_none rfl
    rcases r' with e | handle
    · obtain rfl : t = st' := congrArg Prod.snd (Option.some.inj hstore)
      exact callLibrary_effect hheld hcall
    · obtain ⟨hgave, rfl⟩ := callLibrary_ok hcall
      obtain rfl := congrArg Prod.snd (Option.some.inj hstore)
      exact .stored _ hheld rfl _ handle hgave rfl

/-- A MIG device is stored in its word. -/
theorem getDeviceMigDeviceSvc_effect {dev : Ptr} {idx : UInt32} {r : Except Failure Ptr}
    (h : driverGetDeviceMigDeviceSvc lib m dev idx st = some (r, st')) : Effect lib st st' := by
  by_cases hidx : idx.toNat < maxMigDevices
  · rw [getDeviceMigDeviceSvc_eq dev hidx] at h
    obtain ⟨w, -, hw⟩ := Option.bind_eq_some_iff.mp h
    obtain ⟨⟨r', t⟩, hcall, hstore⟩ := Option.bind_eq_some_iff.mp hw
    have hheld : Held st (.deviceGetMigDeviceHandleByIndex (st.words w) idx) :=
      fun handle hmem => ⟨w, Option.some.inj hmem⟩
    rcases r' with e | handle
    · obtain rfl : t = st' := congrArg Prod.snd (Option.some.inj hstore)
      exact callLibrary_effect hheld hcall
    · obtain ⟨hgave, rfl⟩ := callLibrary_ok hcall
      rw [migStored] at hstore
      split_ifs at hstore
      obtain rfl := congrArg Prod.snd (Option.some.inj hstore)
      exact .stored _ hheld rfl _ handle hgave rfl
  · rw [driverGetDeviceMigDeviceSvc, if_pos (not_lt.mp hidx)] at h
    obtain rfl : st = st' := congrArg Prod.snd (Option.some.inj h)
    exact .idle rfl rfl

/-- The library is loaded. -/
theorem initSvc_effect {r : Except Failure Unit}
    (h : driverInitSvc lib setting st = some (r, st')) : Effect lib st st' := by
  rw [driverInitSvc] at h
  rcases hsteps : setting.steps.findSome? setting.outcome with _ | e
  · rw [hsteps] at h
    have heff := callLibrary_effect (held_of_about_eq_none rfl) h
    cases heff with
    | idle hl hw => exact .idle hl hw
    | called c hc hl hw => exact .called c hc hl hw
    | stored c hc hl w h hgave hw => exact .stored c hc hl w h hgave hw
  · rw [hsteps] at h
    obtain rfl : st = st' := congrArg Prod.snd (Option.some.inj h)
    exact .idle rfl rfl

/-- **A procedure makes one call of the library at most, about a word of the table, and stores at
most the handle that call gave.** -/
theorem procedure_effect {p : DriverProc} {a : p.Arg} {r : Except Failure p.Value}
    (h : procedure lib m setting p a st = some (r, st')) : Effect lib st st' := by
  have hmap {α β : Type} {f : α → β} {o : Option (Except Failure α × State σ)}
      {r : Except Failure β}
      (ho : o.map (fun x => (x.1.map f, x.2)) = some (r, st')) : ∃ r', o = some (r', st') := by
    obtain ⟨⟨r', t⟩, hr', heq⟩ := Option.map_eq_some_iff.mp ho
    obtain rfl : t = st' := congrArg Prod.snd heq
    exact ⟨r', hr'⟩
  cases p with
  | init => exact initSvc_effect h
  | shutdown =>
    obtain ⟨⟨r', t⟩, hcall, hst⟩ := Option.bind_eq_some_iff.mp h
    obtain rfl := congrArg Prod.snd (Option.some.inj hst)
    exact (callLibrary_effect (held_of_about_eq_none rfl) hcall).congr rfl rfl
  | getRmVersion =>
    obtain ⟨r', hcall⟩ := hmap h
    exact callLibrary_effect (held_of_about_eq_none rfl) hcall
  | getCudaVersion =>
    obtain ⟨r', hcall⟩ := hmap h
    exact callLibrary_effect (held_of_about_eq_none rfl) hcall
  | getDeviceCount => exact callLibrary_effect (held_of_about_eq_none rfl) h
  | getDevice => exact getDeviceSvc_effect h
  | getDeviceMigDevice => exact getDeviceMigDeviceSvc_effect h
  | getDeviceMigMode =>
    obtain ⟨⟨r', t⟩, hask, heq⟩ := Option.map_eq_some_iff.mp h
    obtain rfl : t = st' := congrArg Prod.snd heq
    exact asking_effect hask
  | _ => exact asking_effect h

/-! ## One request -/

variable (lib m setting) in
/-- The service after a request. -/
def afterRequest (st : Option (State σ)) (req : ℕ × List UInt8) : Option (State σ) :=
  (driverProgram.dispatch (service lib m setting) req.1 req.2 st).2

/-- A request runs one procedure, with one argument. -/
theorem fits_of_runs {proc : ℕ} {body : List UInt8} {p : DriverProc} {a : p.Arg}
    (hruns : driverProgram.Runs proc body p a) :
    Fits lib m st proc body ↔ Admissible lib m st p a := by
  refine ⟨fun h => h p a hruns, fun h q b hq => ?_⟩
  obtain ⟨-, hentry, rest, hread⟩ := hruns
  obtain ⟨-, hentry', rest', hread'⟩ := hq
  obtain rfl : p = q := Option.some.inj (hentry.symm.trans hentry')
  obtain rfl : a = b := congrArg Prod.fst (Option.some.inj (hread.symm.trans hread'))
  exact h

variable (lib m setting) in
/-- **A request leaves the service inside its table exactly when it fits.** -/
theorem afterRequest_spec (st : State σ) (req : ℕ × List UInt8) :
    ((afterRequest lib m setting (some st) req).isSome ↔ Fits lib m st req.1 req.2) ∧
    ∀ st', afterRequest lib m setting (some st) req = some st' → Effect lib st st' := by
  obtain ⟨proc, body⟩ := req
  rcases driverProgram.dispatch_cases (service lib m setting) (some st) proc body with
    ⟨p, a, hruns, heq⟩ | ⟨hnone, heq, -⟩
  · have hafter : afterRequest lib m setting (some st) (proc, body)
        = (handle lib m setting p a st).map Prod.snd := by
      rw [afterRequest, heq, RpcProgram.serve, service, Option.bind_some]
      rcases handle lib m setting p a st with _ | r
      · rfl
      · rfl
    rw [hafter, isSome_map_iff, handle_isSome_iff, fits_of_runs hruns]
    refine ⟨Iff.rfl, fun st' h => ?_⟩
    obtain ⟨⟨r, t⟩, hhandle, rfl⟩ := Option.map_eq_some_iff.mp h
    rw [handle] at hhandle
    split_ifs at hhandle
    exact procedure_effect hhandle
  · have hafter : afterRequest lib m setting (some st) (proc, body) = some st := heq
    rw [hafter]
    refine ⟨iff_of_true rfl fun p a hruns => absurd ⟨p, a, hruns⟩ hnone, fun st' h => ?_⟩
    obtain rfl := Option.some.inj h
    exact .idle rfl rfl

/-! ## Any number of requests -/

variable (lib) in
/-- What the library asks of whoever calls it: handles that are good.  Then it keeps its own
invariant, the good handles stay good, and those it gives are good. -/
structure Contract (Inv : σ → Prop) (Good : σ → Handle → Prop) : Prop where
  keeps {c : Call} {l : σ} (hinv : Inv l) (hc : ∀ h ∈ c.about, Good l h) : Inv (lib.call c l).2
  stays {c : Call} {l : σ} (hinv : Inv l) (hc : ∀ h ∈ c.about, Good l h) {h : Handle}
    (hgood : Good l h) : Good (lib.call c l).2 h
  gives {c : Call} {l : σ} (hinv : Inv l) (hc : ∀ h ∈ c.about, Good l h) {h : Handle}
    (hgave : c.Gave (lib.call c l).1 h) : Good (lib.call c l).2 h

variable {Inv : σ → Prop} {Good : σ → Handle → Prop}

/-- The library is in order, and every word of the table is a good handle. -/
def Sound (Inv : σ → Prop) (Good : σ → Handle → Prop) (st : State σ) : Prop :=
  Inv st.lib ∧ ∀ w, Good st.lib (st.words w)

/-- **One procedure keeps the contract.** -/
theorem Effect.sound (h : Effect lib st st') (hlib : Contract lib Inv Good)
    (hst : Sound Inv Good st) : Sound Inv Good st' := by
  obtain ⟨hinv, hwords⟩ := hst
  have hheld {c : Call} (hc : Held st c) : ∀ handle ∈ c.about, Good st.lib handle := by
    intro handle hmem
    obtain ⟨w, rfl⟩ := hc handle hmem
    exact hwords w
  rw [Sound]
  cases h with
  | idle hl hw =>
    rw [hl, hw]
    exact ⟨hinv, hwords⟩
  | called c hc hl hw =>
    rw [hl, hw]
    exact ⟨hlib.keeps hinv (hheld hc), fun w => hlib.stays hinv (hheld hc) (hwords w)⟩
  | stored c hc hl w handle hgave hw =>
    rw [hl, hw]
    refine ⟨hlib.keeps hinv (hheld hc), fun w' => ?_⟩
    by_cases hw' : w' = w
    · rw [hw', Function.update_self]
      exact hlib.gives hinv (hheld hc) hgave
    · rw [Function.update_of_ne hw']
      exact hlib.stays hinv (hheld hc) (hwords w')

variable (lib m setting) in
/-- The service after a number of requests. -/
def serveAll (reqs : List (ℕ × List UInt8)) (st : Option (State σ)) : Option (State σ) :=
  reqs.foldl (afterRequest lib m setting) st

/-- A service that is gone stays gone. -/
theorem serveAll_none (reqs : List (ℕ × List UInt8)) : serveAll lib m setting reqs none = none := by
  induction reqs with
  | nil => rfl
  | cons req reqs ih =>
    have hgone : afterRequest lib m setting none req = none := by
      rcases driverProgram.dispatch_cases (service lib m setting) none req.1 req.2 with
        ⟨p, a, -, heq⟩ | ⟨-, heq, -⟩
      · rw [afterRequest, heq]
        rfl
      · exact heq
    rw [serveAll, List.foldl_cons, hgone]
    exact ih

end Requests

/-- A handle of the two GPUs, or none. -/
def twoGpusHandle (h : Handle) : Prop := h = 0 ∨ ∃ i : UInt32, i < 2 ∧ h = 100 + i.toUInt64

/-- A library with two GPUs keeps the contract. -/
theorem contract_twoGpus :
    Contract (.ofAnswers twoGpus) (fun _ => True) fun _ => twoGpusHandle where
  keeps _ _ := trivial
  stays _ _ _ hgood := hgood
  gives {c l} _ _ h hgave := by
    rcases c with _ | _ | _ | _ | _ | i | ⟨g, i⟩ | ⟨q, g⟩
    · cases hgave
    · cases hgave
    · cases hgave
    · cases hgave
    · cases hgave
    · have hans : twoGpus (.deviceGetHandleByIndex i) = .ok h := hgave
      simp only [twoGpus] at hans
      split_ifs at hans with hi
      exact .inr ⟨i, hi, (Except.ok.inj hans).symm⟩
    · cases hgave
    · cases hgave

/-- The first GPU is asked for, with some more bytes; the brand of the word behind it; and what
there is no procedure for. -/
def threeRequests : List (ℕ × List UInt8) :=
  [(6, [0, 0, 0, 0, 0, 0, 0, 8, 0, 0, 0, 0, 255]),
   (12, [0, 0, 0, 0, 0, 0, 0, 8, 0, 0, 0, 0, 0, 0, 16, 8]),
   (18, [1, 2, 3])]

end Driver
