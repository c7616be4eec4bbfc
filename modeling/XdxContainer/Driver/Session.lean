import XdxContainer.Driver.Simulation

/-!
# Driver/Session — a session with the driver service, and a client linked against the library

    driver_init ──▸ plan ──▸ driver_shutdown          plan, over the service
                                                        ‖  while handles stay what they are
                                                      plan, with the library in its own process

A service that was started serves every plan.  Where the library gives one handle for one index all
along, a plan cannot tell the service from the library itself: what it asks about a device is asked
about that device, however many others it looked up in between.
-/

open Xdr Messages

namespace Driver

variable {σ ρ : Type} (lib : Library σ) (m : Layout) (setting : Setting)

/-! ## Starting and stopping -/

/-- A service before it is initialized: its memory is zero. -/
def State.start (l : σ) : State σ := ⟨fun _ => 0, .unloaded, false, l⟩

/-- `driver_init`. -/
def driverInit : Option (State σ) → Except Failure Unit × Option (State σ) :=
  remote (wired lib m setting) .init m.ctx

/-- `driver_shutdown`. -/
def driverShutdown : Option (State σ) → Except Failure Unit × Option (State σ) :=
  remote (wired lib m setting) .shutdown m.ctx

/-- **Starting**: the first step that fails is what the client is told; if none does, the library is
initialized, and the service serves if it was. -/
theorem driverInit_start (l : σ) : driverInit lib m setting (some (State.start l))
    = match setting.steps.findSome? setting.outcome with
      | some e => (.error e, some (State.start l))
      | none => ((asked lib xdxmlError .init l).1,
          some ⟨fun _ => 0, .loaded, false, (asked lib xdxmlError .init l).2⟩) := by
  have hhandle : handle lib m setting .init m.ctx (State.start l)
      = driverInitSvc lib setting (State.start l) := if_pos ⟨rfl, rfl⟩
  rcases hsteps : setting.steps.findSome? setting.outcome with _ | e
  · refine remote_of_handle lib m setting ?_ fun _ _ => trivial
    rw [hhandle, driverInitSvc, hsteps]
    rfl
  · refine remote_of_handle lib m setting ?_ fun _ _ => trivial
    rw [hhandle, driverInitSvc, hsteps]

/-- What a session starts from, once `driver_init` succeeded. -/
theorem serves_of_driverInit {l : σ} {s : Option (State σ)}
    (h : driverInit lib m setting (some (State.start l)) = (.ok (), s)) :
    ∃ st, s = some st ∧ Serves st ⟨fun _ => 0, (asked lib xdxmlError .init l).2⟩ := by
  rw [driverInit_start] at h
  rcases hsteps : setting.steps.findSome? setting.outcome with _ | e
  · rw [hsteps] at h
    exact ⟨_, (Prod.mk.inj h).2.symm, ⟨rfl, rfl, rfl, fun _ => rfl⟩⟩
  · rw [hsteps] at h
    cases (Prod.mk.inj h).1

/-- **Stopping**: the client is told what the library says, and a service that was shut down answers
no more. -/
theorem Serves.shutdown {st : State σ} {d : Directory σ} (h : Serves st d) :
    ∃ st', driverShutdown lib m setting (some st)
      = ((asked lib xdxmlError .shutdown d.lib).1, some st')
    ∧ (st'.exiting = true ↔ (asked lib xdxmlError .shutdown d.lib).1 = .ok ()) := by
  have hcall := h.callLibrary lib xdxmlError .shutdown
  have hproc : procedure lib m setting .shutdown m.ctx st
      = some ((asked lib xdxmlError .shutdown d.lib).1,
        ⟨st.words, .closed, (asked lib xdxmlError .shutdown d.lib).1.isOk,
          (asked lib xdxmlError .shutdown d.lib).2⟩) := by
    simp [procedure, driverShutdownSvc, hcall, h.running, h.loaded, Dl.close]
  refine ⟨_, h.remote lib m setting rfl hproc fun _ _ => trivial, ?_⟩
  · rcases (asked lib xdxmlError .shutdown d.lib).1 with e | ⟨⟩
    · simp [Except.isOk, Except.toBool]
    · simp [Except.isOk, Except.toBool]

/-- A library that answers every call by itself. -/
def Library.ofAnswers (ans : (c : Call) → Except Code c.Out) : Library Unit where
  call c l := (ans c, l)
  errorString _ := unknownError
  unset := (0, 0)

/-- Two GPUs, of the minor numbers 0 and 1, without MIG devices. -/
def twoGpus : (c : Call) → Except Code c.Out
  | .init | .shutdown => .ok ()
  | .systemGetDriverVersion => .ok xdxmlError.cstr
  | .systemGetCudaDriverVersion => .error functionNotFound
  | .deviceGetCount => .ok 2
  | .deviceGetHandleByIndex i => if i < 2 then .ok (100 + i.toUInt64) else .error notFound
  | .deviceGetMigDeviceHandleByIndex _ _ => .error notFound
  | .ask .minorNumber h => .ok (h - 100).toUInt32
  | .ask .pciInfo h => .ok (0, h - 100, 0)
  | .ask .uuid _ | .ask .productName _ => .ok xdxmlError.cstr
  | .ask .brand _ | .ask .cudaComputeCapability _ | .ask .migMode _ | .ask .maxMigDeviceCount _
  | .ask .gpuInstanceId _ | .ask .computeInstanceId _ => .error functionNotFound

/-- A library with its table somewhere. -/
def someLayout : Layout := ⟨8, 4096, by decide, by decide⟩

/-- A driver that needs no other root. -/
def onHost : Setting := ⟨true, false, fun _ => none⟩

theorem driverInit_twoGpus : driverInit (.ofAnswers twoGpus) someLayout onHost
    (some (State.start ())) = (.ok (), some ⟨fun _ => 0, .loaded, false, ()⟩) := by
  rw [driverInit_start]
  rfl

/-- The second GPU, the first one, and then the minor number of the one given first. -/
def secondThenFirst : Plan (Option UInt32) :=
  .device 1 fun _ => .device 0 fun _ => .query .minor (.gpu 0) fun r => .done r.toOption

/-- The handle of a device given. -/
def Devices.handle (ds : Devices Handle Handle) : Given → Option Handle
  | .gpu n => ds.gpus[n]?
  | .mig n => ds.migs[n]?

/-- **Running a plan** with the library itself, on the handles it gives. -/
def Plan.runWith : Plan ρ → Devices Handle Handle → σ → Option ρ × σ
  | .done r, _, l => (some r, l)
  | .count next, ds, l =>
    let (r, l) := asked lib xdxmlError .deviceGetCount l
    (next r).runWith ds l
  | .device idx next, ds, l =>
    if idx.toNat < maxDevices then
      match asked lib xdxmlError (.deviceGetHandleByIndex idx) l with
      | (.ok h, l) => (next (.ok ())).runWith { ds with gpus := ds.gpus ++ [h] } l
      | (.error e, l) => (next (.error e)).runWith ds l
    else (next (.error tooManyDevices)).runWith ds l
  | .migDevice gpu idx next, ds, l =>
    match ds.gpus[gpu]? with
    | none => (none, l)
    | some g =>
      if idx.toNat < maxMigDevices then
        match asked lib nvmlError (.deviceGetMigDeviceHandleByIndex g idx) l with
        | (.ok h, l) => (next (.ok true)).runWith { ds with migs := ds.migs ++ [h] } l
        | (.error e, l) =>
          (next (if e.code = notFound then .ok false else .error e)).runWith ds l
      else (next (.error tooManyMigDevices)).runWith ds l
  | .query q dev next, ds, l =>
    match ds.handle dev with
    | none => (none, l)
    | some h =>
      let (r, l) := q.answered lib h l
      (next r).runWith ds l

/-- The library gives one handle for a GPU's index, and one for a MIG device's. -/
structure Library.Steady (gpu : UInt32 → Handle) (mig : Handle → UInt32 → Handle) : Prop where
  gpu : ∀ idx l h l', lib.call (.deviceGetHandleByIndex idx) l = (.ok h, l') → h = gpu idx
  mig : ∀ g idx l h l', lib.call (.deviceGetMigDeviceHandleByIndex g idx) l = (.ok h, l') →
    h = mig g idx

section Steady

variable {lib} {gpu : UInt32 → Handle} {mig : Handle → UInt32 → Handle}

/-- An answer of the library behind `asked`. -/
theorem call_of_asked {what : Phrase} {c : Call} {l l' : σ} {a : c.Out}
    (h : asked lib what c l = (.ok a, l')) : lib.call c l = (.ok a, l') := by
  rw [asked] at h
  rcases hcall : lib.call c l with ⟨e | b, l''⟩
  · rw [hcall] at h
    cases (Prod.mk.inj h).1
  · rw [hcall] at h
    obtain ⟨hr, rfl⟩ := Prod.mk.inj h
    rw [Except.ok.inj hr]

/-- The handles of the devices given, in a steady library. -/
def Devices.handles (gpu : UInt32 → Handle) (mig : Handle → UInt32 → Handle) (ds : Names) :
    Devices Handle Handle where
  gpus := ds.gpus.map fun (i : Fin maxDevices) => gpu (.ofNat i.val)
  migs := ds.migs.map fun p => mig (gpu (.ofNat p.1)) (.ofNat p.2)

/-- The devices given are held by their handles. -/
structure Holds (gpu : UInt32 → Handle) (mig : Handle → UInt32 → Handle) (ds : Names)
    (d : Directory σ) : Prop where
  gpus : ∀ i ∈ ds.gpus, d.held (.gpu i) = gpu (.ofNat i)
  migs : ∀ p ∈ ds.migs, d.held (.mig p.1 p.2) = mig (gpu (.ofNat p.1)) (.ofNat p.2)

section Keeping

variable {ds : Names} {d : Directory σ}

theorem Holds.setLib (h : Holds gpu mig ds d) (l : σ) : Holds gpu mig ds { d with lib := l } :=
  ⟨h.gpus, h.migs⟩

/-- One GPU more. -/
theorem Holds.addGpu (h : Holds gpu mig ds d) (i : Fin maxDevices) (l : σ) :
    Holds gpu mig { ds with gpus := ds.gpus ++ [i] }
      ⟨Function.update d.held (.gpu i) (gpu (.ofNat i)), l⟩ := by
  refine ⟨fun i' hi' => ?_, fun p hp => ?_⟩
  · by_cases heq : i' = i
    · subst heq
      simp
    · have hold : i' ∈ ds.gpus := by simpa [heq] using hi'
      simp [heq, h.gpus i' hold]
  · simp [h.migs p hp]

/-- One MIG device more. -/
theorem Holds.addMig (h : Holds gpu mig ds d) (i : Fin maxDevices) (j : Fin maxMigDevices) (l : σ) :
    Holds gpu mig { ds with migs := ds.migs ++ [(i, j)] }
      ⟨Function.update d.held (.mig i j) (mig (gpu (.ofNat i)) (.ofNat j)), l⟩ := by
  refine ⟨fun i' hi' => ?_, fun p hp => ?_⟩
  · simp [h.gpus i' hi']
  · by_cases heq : p = (i, j)
    · subst heq
      simp
    · have hold : p ∈ ds.migs := by simpa [heq] using hp
      have hne : (Ref.mig p.1 p.2) ≠ .mig i j := fun h => heq (Prod.ext_iff.mpr (by simpa using h))
      simp [Function.update_of_ne hne, h.migs p hold]

theorem Holds.handle (h : Holds gpu mig ds d) (dev : Given) :
    (ds.handles gpu mig).handle dev = (ds.name dev).map d.held := by
  rcases dev with n | n
  · rcases hn : ds.gpus[n]? with _ | i
    · simp [Devices.handle, Devices.handles, Devices.name, hn]
    · simp [Devices.handle, Devices.handles, Devices.name, hn,
        h.gpus i (List.mem_of_getElem? hn)]
  · rcases hn : ds.migs[n]? with _ | p
    · simp [Devices.handle, Devices.handles, Devices.name, hn]
    · simp [Devices.handle, Devices.handles, Devices.name, hn,
        h.migs p (List.mem_of_getElem? hn)]

end Keeping

/-- **In a steady library a plan gets of the directory what it gets of the library.** -/
theorem Plan.runIn_eq_runWith (h : lib.Steady gpu mig) (plan : Plan ρ) (ds : Names)
    {d : Directory σ} (hds : Holds gpu mig ds d) :
    (plan.runIn lib ds d).1 = (plan.runWith lib (ds.handles gpu mig) d.lib).1
    ∧ (plan.runIn lib ds d).2.lib = (plan.runWith lib (ds.handles gpu mig) d.lib).2 := by
  induction plan generalizing ds d with
  | done r => exact ⟨rfl, rfl⟩
  | count next ih => exact ih _ ds (hds.setLib _)
  | device idx next ih =>
    rw [Plan.runIn, Plan.runWith, Directory.device]
    by_cases hidx : idx.toNat < maxDevices
    · rw [dif_pos hidx, if_pos hidx]
      rcases hcall : asked lib xdxmlError (.deviceGetHandleByIndex idx) d.lib with ⟨e | handle, l⟩
      · exact ih _ ds (hds.setLib l)
      · have hhandle : handle = gpu idx := h.gpu _ _ _ _ (call_of_asked hcall)
        have hof : UInt32.ofNat idx.toNat = idx := UInt32.ofNat_toNat
        have hadd := hds.addGpu ⟨idx.toNat, hidx⟩ l
        rw [hof, ← hhandle] at hadd
        have hnext := ih (.ok ()) _ hadd
        have hds' : ({ ds with gpus := ds.gpus ++ [⟨idx.toNat, hidx⟩] } : Names).handles gpu mig
            = { ds.handles gpu mig with gpus := (ds.handles gpu mig).gpus ++ [handle] } := by
          simp [Devices.handles, hhandle]
        rw [hds'] at hnext
        exact hnext
    · rw [dif_neg hidx, if_neg hidx]
      exact ih _ ds hds
  | migDevice g idx next ih =>
    rw [Plan.runIn, Plan.runWith]
    rcases hg : ds.gpus[g]? with _ | i
    · have hnone : (ds.handles gpu mig).gpus[g]? = none := by simp [Devices.handles, hg]
      rw [hnone]
      exact ⟨rfl, rfl⟩
    · have hsome : (ds.handles gpu mig).gpus[g]? = some (d.held (.gpu i)) := by
        simp [Devices.handles, hg, hds.gpus i (List.mem_of_getElem? hg)]
      rw [hsome]
      simp only [Directory.migDevice]
      by_cases hidx : idx.toNat < maxMigDevices
      · rw [dif_pos hidx, if_pos hidx]
        rcases hcall : asked lib nvmlError
          (.deviceGetMigDeviceHandleByIndex (d.held (.gpu i)) idx) d.lib with ⟨e | handle, l⟩
        · by_cases he : e.code = notFound
          · simp only [if_pos he]
            exact ih _ ds (hds.setLib l)
          · simp only [if_neg he]
            exact ih _ ds (hds.setLib l)
        · have hhandle : handle = mig (gpu (.ofNat i)) idx := by
            rw [← hds.gpus i (List.mem_of_getElem? hg)]
            exact h.mig _ _ _ _ _ (call_of_asked hcall)
          have hof : UInt32.ofNat idx.toNat = idx := UInt32.ofNat_toNat
          have hadd := hds.addMig i ⟨idx.toNat, hidx⟩ l
          rw [hof, ← hhandle] at hadd
          have hnext := ih (.ok true) _ hadd
          have hds' : ({ ds with migs := ds.migs ++ [(i, ⟨idx.toNat, hidx⟩)] } : Names).handles gpu
              mig = { ds.handles gpu mig with migs := (ds.handles gpu mig).migs ++ [handle] } := by
            simp [Devices.handles, hhandle]
          rw [hds'] at hnext
          exact hnext
      · rw [dif_neg hidx, if_neg hidx]
        exact ih _ ds hds
  | query q dev next ih =>
    rw [Plan.runIn, Plan.runWith, hds.handle]
    rcases ds.name dev with _ | r
    · exact ⟨rfl, rfl⟩
    · exact ih _ ds (hds.setLib _)

variable (lib)

/-- Where handles stay what they are, a plan run behind a successful start gets what it would get of
the library in its own process. -/
theorem Plan.run_steady (h : lib.Steady gpu mig) (plan : Plan ρ) {l : σ} {s : Option (State σ)}
    (hinit : driverInit lib m setting (some (State.start l)) = (.ok (), s)) :
    ∃ st d, plan.run (wired lib m setting) m {} s
      = ((plan.runWith lib {} (asked lib xdxmlError .init l).2).1, some st)
    ∧ Serves st d ∧ d.lib = (plan.runWith lib {} (asked lib xdxmlError .init l).2).2 := by
  obtain ⟨st, rfl, hst⟩ := serves_of_driverInit lib m setting hinit
  obtain ⟨st', hrun, hst'⟩ := plan.run_wired lib m setting {} hst
  obtain ⟨hres, hlib⟩ := plan.runIn_eq_runWith h {}
    (d := ⟨fun _ => 0, (asked lib xdxmlError .init l).2⟩) ⟨by simp, by simp⟩
  exact ⟨st', _, hrun.trans (Prod.ext hres rfl), hst', hlib⟩

end Steady

theorem steady_twoGpus : (Library.ofAnswers twoGpus).Steady (fun i => 100 + i.toUInt64)
    fun _ _ => 0 := by
  constructor
  · intro idx l h l' hcall
    have hans := (Prod.mk.inj hcall).1
    simp only [twoGpus] at hans
    split_ifs at hans
    exact (Except.ok.inj hans).symm
  · intro g idx l h l' hcall
    cases (Prod.mk.inj hcall).1

end Driver
