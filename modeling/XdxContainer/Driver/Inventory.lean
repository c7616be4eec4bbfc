import XdxContainer.Cli.Configure
import XdxContainer.Driver.Session

/-!
# Driver/Inventory — the device information, read through the service

    n ← driver_get_device_count
    gpus[i] ← device i: model, minor, busid, uuid, minor again        i = 0 … n - 1

`nvc_device_info_new` is a plan.  Through the service it reads of every GPU what the library says of
that GPU; it has them all or fails, and it fails wherever there are more than the table holds.
-/

open Xdr Messages

namespace Driver

variable {σ ρ : Type}

/-- The characters of a string, one a byte. -/
def text (s : CStr) : Paths.Str := s.bytes.map fun b => Char.ofNat b.toNat

/-! ## The plan -/

/-- `if (call < 0) goto fail;`. -/
def orFail {α β : Type} (next : Except Failure β → Plan ρ) (use : α → Plan ρ) :
    Except Failure α → Plan ρ
  | .ok a => use a
  | .error e => next (.error e)

/-- A question about the GPU given as number `i`. -/
def asks {β : Type} (next : Except Failure β → Plan ρ) (q : Query) (i : ℕ)
    (use : q.Value → Plan ρ) : Plan ρ :=
  .query q (.gpu i) (orFail next use)

/-- The device, where it has a node of its own and where it has none. -/
def nodeDevice (model busid uuid : Option CStr) (minor : UInt32) : Cli.NvcDevice where
  model := model.map text
  uuid := uuid.map text
  busid := busid.map text
  arch := none
  brand := none
  path := some ("/dev/dri/card".toList ++ Nat.toDigits 10 minor.toNat)
  id := Mount.makedev Mount.NV_DEVICE_MAJOR minor.toNat
  migCapable := false
  migCapsPath := none
  migDevices := []

/-- What `init_nvc_device` fills in of a dxcore adapter. -/
def dxcoreDevice (model busid uuid : Option CStr) : Cli.NvcDevice where
  model := model.map text
  uuid := uuid.map text
  busid := busid.map text
  arch := none
  brand := none
  path := none
  id := 0
  migCapable := false
  migCapsPath := none
  migDevices := []

/-- `init_nvc_device`. -/
def initNvcDevice (dxcore : Bool) (i : ℕ) (next : Except Failure Cli.NvcDevice → Plan ρ) : Plan ρ :=
  .device (.ofNat i) <| orFail next fun () =>
    asks next .model i fun model =>
    asks next .minor i fun _ =>
    asks next .busid i fun busid =>
    asks next .uuid i fun uuid =>
    if dxcore then next (.ok (dxcoreDevice model busid uuid))
    else asks next .minor i fun minor => next (.ok (nodeDevice model busid uuid minor))

/-- The loop of `nvc_device_info_new`, for `n` devices from the one of index `i` on. -/
def initLoop (dxcore : Bool) :
    ℕ → ℕ → List Cli.NvcDevice → Plan (Except Failure (List Cli.NvcDevice))
  | 0, _, gpus => .done (.ok gpus)
  | n + 1, i, gpus =>
    initNvcDevice dxcore i (orFail .done fun gpu => initLoop dxcore n (i + 1) (gpus ++ [gpu]))

/-- `nvc_device_info_new`. -/
def nvcDeviceInfoNew (dxcore : Bool) : Plan (Except Failure (List Cli.NvcDevice)) :=
  .count (orFail .done fun n => initLoop dxcore n.toNat 0 [])

/-! ## What there is to read -/

/-- A library that answers every call alike, whenever it is made. -/
structure Fixed (lib : Library σ) (ans : (c : Call) → Except Code c.Out) : Prop where
  call : ∀ c l, lib.call c l = (ans c, l)

section Reading

variable (lib : Library σ) (ans : (c : Call) → Except Code c.Out)

/-- What the library says, with an error as the service reports it. -/
def said (what : Phrase) (c : Call) : Except Failure c.Out :=
  (ans c).mapError fun code => .set code what (lib.errorString code)

/-- What it says about a device. -/
def saidAbout {α : Type} (what : Phrase) (q : Ask) (f : q.Out → α) (h : Handle) :
    Except Failure α :=
  (said lib ans what (.ask q h)).map f

/-- The device of a handle, read of the library itself. -/
def deviceOf (dxcore : Bool) (h : Handle) : Except Failure Cli.NvcDevice := do
  let model ← saidAbout lib ans xdxmlError .productName some h
  let minor ← saidAbout lib ans xdxmlError .minorNumber id h
  let busid ← saidAbout lib ans xdxmlError .pciInfo (fun pci => some (busidText pci)) h
  let uuid ← saidAbout lib ans xdxmlError .uuid some h
  return if dxcore then dxcoreDevice model busid uuid else nodeDevice model busid uuid minor

/-- **The device of an index.** -/
def deviceAt (dxcore : Bool) (i : ℕ) : Except Failure Cli.NvcDevice :=
  if maxDevices ≤ i then .error tooManyDevices
  else (said lib ans xdxmlError (.deviceGetHandleByIndex (.ofNat i))).bind (deviceOf lib ans dxcore)

/-- **The inventory**: every device the library counts. -/
def inventory (dxcore : Bool) : Except Failure (List Cli.NvcDevice) := do
  let n : UInt32 ← said lib ans xdxmlError .deviceGetCount
  (List.range n.toNat).mapM (deviceAt lib ans dxcore)

end Reading

/-! ## Reading it -/

section Runs

variable {lib : Library σ} {ans : (c : Call) → Except Code c.Out}

theorem Fixed.asked (h : Fixed lib ans) (what : Phrase) (c : Call) (l : σ) :
    asked lib what c l = (said lib ans what c, l) := by
  rw [Driver.asked, h.call, said]

theorem Fixed.askedAbout (h : Fixed lib ans) {α : Type} (what : Phrase) (q : Ask) (f : q.Out → α)
    (handle : Handle) (l : σ) :
    askedAbout lib what q f handle l = (saidAbout lib ans what q f handle, l) := by
  rw [Driver.askedAbout, h.asked]
  rfl

/-- A library that answers alike gives one handle for one index. -/
theorem Fixed.steady (h : Fixed lib ans) : lib.Steady
    (fun idx => (ans (.deviceGetHandleByIndex idx)).toOption.getD 0)
    (fun g idx => (ans (.deviceGetMigDeviceHandleByIndex g idx)).toOption.getD 0) := by
  constructor
  · intro idx l handle l' hcall
    rw [h.call] at hcall
    rw [(Prod.mk.inj hcall).1]
    rfl
  · intro g idx l handle l' hcall
    rw [h.call] at hcall
    rw [(Prod.mk.inj hcall).1]
    rfl

/-- A question about a device given. -/
theorem runWith_asks {β : Type} {next : Except Failure β → Plan ρ} {q : Query} {i : ℕ}
    {use : q.Value → Plan ρ} {ds : Devices Handle Handle} {handle : Handle} {l : σ}
    {a : Except Failure q.Value} (hi : ds.gpus[i]? = some handle)
    (ha : q.answered lib handle l = (a, l)) :
    (asks next q i use).runWith lib ds l = (orFail next use a).runWith lib ds l := by
  simp only [asks, Plan.runWith, Devices.handle, hi, ha]

/-- **Reading a device** is asking the library about the device of its index. -/
theorem runWith_initNvcDevice (h : Fixed lib ans) (dxcore : Bool)
    (next : Except Failure Cli.NvcDevice → Plan ρ) {ds : Devices Handle Handle} {i : ℕ} {l : σ}
    (hi : ds.gpus.length = i) (hlt : i < 2 ^ 32) : ∃ ds' : Devices Handle Handle,
    (initNvcDevice dxcore i next).runWith lib ds l
      = (next (deviceAt lib ans dxcore i)).runWith lib ds' l
    ∧ ((deviceAt lib ans dxcore i).isOk → ds'.gpus.length = i + 1) := by
  have hof : (UInt32.ofNat i).toNat = i := by
    rw [UInt32.toNat_ofNat']
    exact Nat.mod_eq_of_lt hlt
  rw [initNvcDevice, Plan.runWith, hof, deviceAt]
  by_cases hmax : maxDevices ≤ i
  · rw [if_neg (not_lt.mpr hmax), if_pos hmax]
    exact ⟨ds, rfl, fun hok => by cases hok⟩
  · rw [if_pos (not_le.mp hmax), if_neg hmax, h.asked]
    rcases said lib ans xdxmlError (.deviceGetHandleByIndex (.ofNat i)) with e | handle
    · exact ⟨ds, rfl, fun hok => by cases hok⟩
    · have hget : ({ ds with gpus := ds.gpus ++ [handle] } : Devices Handle Handle).gpus[i]?
          = some handle := by simp [← hi]
      refine ⟨{ ds with gpus := ds.gpus ++ [handle] }, ?_, fun _ => by simp [hi]⟩
      rw [Except.bind, deviceOf]
      refine (runWith_asks (q := .model) hget
        (h.askedAbout xdxmlError .productName some handle l)).trans ?_
      rcases saidAbout lib ans xdxmlError .productName some handle with e | model
      · rfl
      refine (runWith_asks (q := .minor) hget
        (h.askedAbout xdxmlError .minorNumber id handle l)).trans ?_
      rcases hminor : saidAbout lib ans xdxmlError .minorNumber id handle with e | minor
      · rfl
      refine (runWith_asks (q := .busid) hget
        (h.askedAbout xdxmlError .pciInfo _ handle l)).trans ?_
      rcases saidAbout lib ans xdxmlError .pciInfo (fun pci => some (busidText pci)) handle
        with e | busid
      · rfl
      refine (runWith_asks (q := .uuid) hget (h.askedAbout xdxmlError .uuid some handle l)).trans ?_
      rcases saidAbout lib ans xdxmlError .uuid some handle with e | uuid
      · rfl
      cases dxcore with
      | true => rfl
      | false =>
        -- the minor number is asked for a second time
        refine (runWith_asks (q := .minor) hget
          (h.askedAbout xdxmlError .minorNumber id handle l)).trans ?_
        rw [hminor]
        rfl

/-- The loop reads the devices one after another. -/
theorem runWith_initLoop (h : Fixed lib ans) (dxcore : Bool) (n i : ℕ) (gpus : List Cli.NvcDevice)
    {ds : Devices Handle Handle} {l : σ} (hi : ds.gpus.length = i) (hlt : i + n ≤ 2 ^ 32) :
    ((initLoop dxcore n i gpus).runWith lib ds l).1
      = some (((List.range' i n).mapM (deviceAt lib ans dxcore)).map (gpus ++ ·)) := by
  induction n generalizing i gpus ds with
  | zero => simp [initLoop, Plan.runWith, Except.map, pure, Except.pure]
  | succ n ih =>
    obtain ⟨ds', hrun, hlen⟩ := runWith_initNvcDevice h dxcore
      (orFail .done fun gpu => initLoop dxcore n (i + 1) (gpus ++ [gpu])) (l := l) hi (by omega)
    rw [initLoop, hrun, List.range'_succ, List.mapM_cons]
    rcases hdev : deviceAt lib ans dxcore i with e | gpu
    · rfl
    · rw [orFail, ih (i + 1) (gpus ++ [gpu]) (hlen (by rw [hdev]; rfl)) (by omega)]
      rcases (List.range' (i + 1) n).mapM (deviceAt lib ans dxcore) with e | rest
      · rfl
      · simp [Except.map, bind, Except.bind, pure, Except.pure]

/-- **Read of the library itself, the device information is the inventory.** -/
theorem runWith_nvcDeviceInfoNew (h : Fixed lib ans) (dxcore : Bool) (l : σ) :
    ((nvcDeviceInfoNew dxcore).runWith lib {} l).1 = some (inventory lib ans dxcore) := by
  rw [nvcDeviceInfoNew, Plan.runWith, h.asked, inventory]
  rcases said lib ans xdxmlError .deviceGetCount with e | n
  · rfl
  · have hn := n.toNat_lt
    refine (runWith_initLoop h dxcore n.toNat 0 [] rfl (by omega)).trans ?_
    rw [← List.range_eq_range']
    rcases hdevs : (List.range n.toNat).mapM (deviceAt lib ans dxcore) with e | gpus
    · simp [Except.map, bind, Except.bind, hdevs]
    · simp [Except.map, bind, Except.bind, hdevs]

theorem said_eq_ok {what : Phrase} {c : Call} {a : c.Out} :
    said lib ans what c = .ok a ↔ ans c = .ok a := by
  rw [said]
  rcases ans c with e | b
  · exact iff_of_false (fun h => by cases h) (fun h => by cases h)
  · constructor
    · intro h
      rw [Except.ok.inj h]
    · intro h
      rw [Except.ok.inj h]
      rfl

/-- No device is read behind the table. -/
theorem lt_of_deviceAt {dxcore : Bool} {i : ℕ} {gpu : Cli.NvcDevice}
    (h : deviceAt lib ans dxcore i = .ok gpu) : i < maxDevices := by
  by_contra hmax
  rw [deviceAt, if_pos (not_lt.mp hmax)] at h
  cases h

/-- The inventory is there when every device counted is, and the table holds them all. -/
theorem inventory_eq_ok_iff {dxcore : Bool} {gpus : List Cli.NvcDevice} :
    inventory lib ans dxcore = .ok gpus ↔ ∃ n, ans .deviceGetCount = .ok n
      ∧ n.toNat ≤ maxDevices ∧ gpus.length = n.toNat
      ∧ ∀ i (hi : i < gpus.length), deviceAt lib ans dxcore i = .ok gpus[i] := by
  constructor
  · intro h
    obtain ⟨n, hn, h⟩ := Except.bind_eq_ok h
    obtain ⟨hlen, hall⟩ := List.forall₂_iff_get.mp (Except.mapM_eq_ok_iff.mp h)
    rw [List.length_range] at hlen
    have hdev : ∀ i (hi : i < gpus.length), deviceAt lib ans dxcore i = .ok gpus[i] := by
      intro i hi
      have hi' := hall i (by rw [List.length_range]; omega) hi
      simpa using hi'
    refine ⟨n, said_eq_ok.mp hn, ?_, hlen.symm, hdev⟩
    -- the last device is in the table
    rcases Nat.eq_zero_or_pos n.toNat with hzero | hpos
    · omega
    · have hlast := lt_of_deviceAt (hdev (n.toNat - 1) (by omega))
      omega
  · rintro ⟨n, hn, -, hlen, hdev⟩
    have hmap : (List.range n.toNat).mapM (deviceAt lib ans dxcore) = .ok gpus := by
      refine Except.mapM_eq_ok_iff.mpr (List.forall₂_iff_get.mpr ⟨by simp [hlen], ?_⟩)
      intro i hi hi'
      simpa using hdev i hi'
    rw [inventory, said_eq_ok.mpr hn]
    exact hmap

variable (m : Layout) (setting : Setting)

end Runs

/-! ## The device information of a configure run -/

section Configure

variable (lib : Library σ) (ans : (c : Call) → Except Code c.Out)

/-- What the library answers about a device, as the configure run takes it. -/
def answersOf (h : Handle) : Cli.Answers where
  device := true
  model := (ans (.ask .productName h)).toOption.map text
  minor := (ans (.ask .minorNumber h)).toOption.map UInt32.toNat
  busid := (ans (.ask .pciInfo h)).toOption.map fun pci => text (busidText pci)
  uuid := (ans (.ask .uuid h)).toOption.map text
  minorAgain := (ans (.ask .minorNumber h)).toOption.map UInt32.toNat

/-- The same by the index; nothing is answered about a device that is not found. -/
def answersAt (i : ℕ) : Cli.Answers :=
  if maxDevices ≤ i then ⟨false, none, none, none, none, none⟩
  else (ans (.deviceGetHandleByIndex (.ofNat i))).toOption.elim
    ⟨false, none, none, none, none, none⟩ (answersOf ans)

theorem saidAbout_toOption {α : Type} (what : Phrase) (q : Ask) (f : q.Out → α) (h : Handle) :
    (saidAbout lib ans what q f h).toOption = (ans (.ask q h)).toOption.map f := by
  rw [saidAbout, said]
  rcases ans (.ask q h) with e | a <;> rfl

theorem deviceAt_toOption (i : ℕ) :
    (deviceAt lib ans false i).toOption = Cli.initNvcDevice (answersAt ans i) := by
  rw [deviceAt, answersAt]
  by_cases hmax : maxDevices ≤ i
  · rw [if_pos hmax, if_pos hmax]
    rfl
  · rw [if_neg hmax, if_neg hmax, said]
    rcases ans (.deviceGetHandleByIndex (.ofNat i)) with e | h
    · rfl
    · change (deviceOf lib ans false h).toOption = Cli.initNvcDevice (answersOf ans h)
      simp only [deviceOf, Except.toOption_bind, saidAbout_toOption, Cli.initNvcDevice, answersOf]
      rcases (ans (.ask .productName h)).toOption with _ | model
      · rfl
      rcases (ans (.ask .minorNumber h)).toOption with _ | minor
      · rfl
      rcases (ans (.ask .pciInfo h)).toOption with _ | pci
      · rfl
      rcases (ans (.ask .uuid h)).toOption with _ | uuid
      · rfl
      rfl

/-- **The inventory is the device information of a configure run** on what the library answers. -/
theorem inventory_toOption {n : UInt32} (hn : ans .deviceGetCount = .ok n) :
    (inventory lib ans false).toOption
      = Cli.nvcDeviceInfoNew ((List.range n.toNat).map (answersAt ans)) := by
  rw [inventory, said_eq_ok.mpr hn]
  refine (Except.toOption_mapM _ _).trans ?_
  rw [Cli.nvcDeviceInfoNew, List.mapM_map]
  exact congrArg (fun f => List.mapM f (List.range n.toNat)) (funext (deviceAt_toOption lib ans))

end Configure

end Driver
