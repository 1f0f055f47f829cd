import DdeSeatd.ServerRefinement
import DdeSeatd.Lib.RefCount

set_option autoImplicit false

/-! # The device table

Each client has a list of open devices. `seat_open_device` looks for the canonical path in it: a
device that is there already gets one more reference, and otherwise a new entry is put in front,
with an id larger than all others. `seat_close_device` takes a reference off, and removes the
entry with the last one.

* Whatever the state, a device that is found in the list is returned as it is: if it was
  deactivated, the client gets a device without access to it (`seatOpenDevice_active_iff`). This
  happens to every input device that is reopened after the client was disabled, because input
  devices are not activated again (`reopened_evdev_inactive`).
* The entries have different paths and ids and count their references, in every run
  (`device_tables`). The history of calls on an entry is kept by `deviceOps`, in the terms of
  `Lib/RefCount`; `DeviceTable` is what the list has to do with it.
-/

namespace DdeSeatd

open Labelled RefCount

section

variable (k : Kernel) (s : Server)

/-! ## What the calls do to the table -/

theorem devices_of_view {s s' : Server} {c : ClientId} {ds : List SeatDevice}
    (h : s'.view none = (s.view none).setDevices c ds) :
    (s'.clients c).devices = ds
      ∧ ∀ o, o ≠ c → (s'.clients o).devices = (s.clients o).devices := by
  have hclient : ∀ o, (s'.clients o).view = (((s.view none).setDevices c ds).client o) :=
    fun o => congrArg (fun v => View.client v o) h
  constructor
  · have hc := hclient c
    rw [View.client_setDevices, if_pos rfl] at hc
    exact congrArg ClientView.devices hc
  · intro o hoc
    have ho := hclient o
    rw [View.client_setDevices, if_neg hoc] at ho
    exact congrArg ClientView.devices ho

/-- The entry `seat_open_device` finds: the client is ACTIVE, the path leads to a device, and this
entry is the first with the canonical path. -/
def Finds (c : ClientId) (path : CString) (d : SeatDevice) : Prop :=
  (s.clients c).state = .active ∧ ∃ p, k.realpath s.trace path = .ok p
    ∧ deviceType k.platform p ≠ none ∧ (s.clients c).devices.find? (fun d => d.path = p) = some d

theorem Finds.unique {k : Kernel} {s : Server} {c : ClientId} {path : CString} {d d' : SeatDevice}
    (h : Finds k s c path d) (h' : Finds k s c path d') : d = d' := by
  obtain ⟨-, p, hp, -, hd⟩ := h
  obtain ⟨-, p', hp', -, hd'⟩ := h'
  obtain rfl : p = p' := Except.ok.inj (hp.symm.trans hp')
  exact Option.some.inj (hd.symm.trans hd')

/-- **What `seat_open_device` does to the table**: nothing if it fails; otherwise it adds a
reference to the entry it finds, or if there is none, a new entry. -/
theorem seatOpenDevice_table (c : ClientId) (path : CString) :
    ((seatOpenDevice k s c path).1 = none ∧ (∀ d, ¬ Finds k s c path d)
      ∧ (seatOpenDevice k s c path).2.view none = s.view none)
    ∨ (∃ i d, (seatOpenDevice k s c path).1 = some i ∧ Finds k s c path d
        ∧ (s.clients c).devices[i]? = some d
        ∧ (seatOpenDevice k s c path).2.view none = (s.view none).setDevices c
            ((s.clients c).devices.modify i fun d => { d with refCnt := d.refCnt + 1 }))
    ∨ ∃ fd p type, (seatOpenDevice k s c path).1 = some 0 ∧ (∀ d, ¬ Finds k s c path d)
        ∧ (∀ d ∈ (s.clients c).devices, d.path ≠ p)
        ∧ (s.clients c).devices.length < MAX_SEAT_DEVICES
        ∧ (seatOpenDevice k s c path).2.view none = (s.view none).setDevices c
            (⟨nextDeviceId (s.clients c).devices, fd, 1, true, p, type⟩
              :: (s.clients c).devices) := by
  unfold seatOpenDevice
  dsimp only
  by_cases hst : (s.clients c).state ≠ .active
  · rw [if_pos hst]
    exact Or.inl ⟨rfl, fun _ h => hst h.1, rfl⟩
  rw [if_neg hst]
  cases hreal : k.realpath s.trace path with
  | error e =>
      refine Or.inl ⟨rfl, ?_, rfl⟩
      rintro d ⟨-, p, hp, -⟩
      rw [hreal] at hp
      cases hp
  | ok p =>
      dsimp only
      have hsame : ∀ {d}, Finds k s c path d → deviceType k.platform p ≠ none
          ∧ (s.clients c).devices.find? (fun d => d.path = p) = some d := by
        rintro d ⟨-, p', hp', h⟩
        obtain rfl : p = p' := Except.ok.inj (hreal.symm.trans hp')
        exact h
      cases htype : deviceType k.platform p with
      | none => exact Or.inl ⟨rfl, fun _ h => (hsame h).1 htype, rfl⟩
      | some type =>
          dsimp only
          cases hfind : (s.clients c).devices.findIdx? fun d => d.path = p with
          | some i =>
              obtain ⟨d, hd, hfirst⟩ : ∃ d, (s.clients c).devices[i]? = some d
                  ∧ (s.clients c).devices.find? (fun d => d.path = p) = some d := by
                obtain ⟨hi, -⟩ := List.findIdx?_eq_some_iff_getElem.mp hfind
                refine ⟨_, List.getElem?_eq_getElem hi, ?_⟩
                rw [List.find?_eq_bind_findIdx?_getElem?, hfind]
                exact List.getElem?_eq_getElem hi
              refine Or.inr (Or.inl ⟨i, d, rfl, ⟨not_not.mp hst, p, hreal, ?_, hfirst⟩, hd,
                view_setDevices s none c _⟩)
              rw [htype]
              exact Option.some_ne_none type
          | none =>
              dsimp only
              have hnew : ∀ d ∈ (s.clients c).devices, d.path ≠ p := by
                simpa using List.findIdx?_eq_none_iff.mp hfind
              have hnot : ∀ d, ¬ Finds k s c path d := fun d h =>
                hnew d (List.mem_of_find?_eq_some (hsame h).2)
                  (by simpa using List.find?_some (hsame h).2)
              split_ifs with hfull
              · exact Or.inl ⟨rfl, hnot, rfl⟩
              · rcases openNewDevice_cases k s c p type with ⟨hfail, hview⟩ | ⟨fd, hok, hview⟩
                · exact Or.inl ⟨hfail, hnot, hview⟩
                · exact Or.inr (Or.inr ⟨fd, p, type, hok, hnot, hnew, not_le.mp hfull, hview⟩)

end

/-! ## Reopening a device -/

/-- **What `seat_open_device` returns is active, unless it finds an inactive entry**, whatever the
state it is called in. -/
theorem seatOpenDevice_active_iff (k : Kernel) (s : Server) (c : ClientId) (path : CString) :
    (∀ i, (seatOpenDevice k s c path).1 = some i →
      ∃ d, ((seatOpenDevice k s c path).2.clients c).devices[i]? = some d ∧ d.active = true)
    ↔ ¬ ∃ d, Finds k s c path d ∧ d.active = false := by
  rcases seatOpenDevice_table k s c path with
    ⟨hnone, hnot, -⟩ | ⟨i, d, hi, hfinds, hd, hview⟩ | ⟨fd, p, type, hi, hnot, -, -, hview⟩
  · rw [hnone]
    exact iff_of_true (fun i hi => absurd hi.symm (Option.some_ne_none i)) fun ⟨d, h, _⟩ => hnot d h
  · rw [hi, (devices_of_view hview).1]
    -- the entry is returned with its flag as it was
    have hentry : ((s.clients c).devices.modify i fun d => { d with refCnt := d.refCnt + 1 })[i]?
        = some { d with refCnt := d.refCnt + 1 } := by
      rw [List.getElem?_modify_eq, hd]
      rfl
    constructor
    · rintro h ⟨d', hfinds', hinactive⟩
      obtain rfl := hfinds.unique hfinds'
      obtain ⟨e, he, hactive⟩ := h i rfl
      rw [hentry] at he
      cases he
      rw [hinactive] at hactive
      cases hactive
    · rintro h _ ⟨⟩
      refine ⟨_, hentry, ?_⟩
      by_contra hactive
      exact h ⟨d, hfinds, by simpa using hactive⟩
  · rw [hi, (devices_of_view hview).1]
    refine iff_of_true ?_ fun ⟨d, h, _⟩ => hnot d h
    rintro _ ⟨⟩
    exact ⟨_, rfl, rfl⟩

/-- An evdev device is opened, its client disabled and enabled again. When the client then
reopens the device, it gets the revoked one back. -/
theorem reopened_evdev_inactive :
    let path := EVDEV_PREFIX ++ ascii ['0']
    let s := run (.obliging 1) true [.connect 100, .request 0 .openSeat,
      .request 0 (.openDevice path), .vtEvent 1 2, .request 0 .disableSeat, .vtEvent 2 1]
    (seatOpenDevice (.obliging 1) s 0 path).1 = some 0
      ∧ ((seatOpenDevice (.obliging 1) s 0 path).2.clients 0).devices.map
          (fun d => (d.fd, d.refCnt, d.active)) = [(0, 2, false)]
      ∧ .sys (.evdevRevoke 0) 0 ∈ s.trace := by
  decide +kernel

/-! ## Tables that are in order -/

/-- The id of a new device is larger than all others. -/
theorem lt_nextDeviceId (ds : List SeatDevice) :
    1 ≤ nextDeviceId ds ∧ ∀ d ∈ ds, d.deviceId < nextDeviceId ds := by
  -- the loop: from any start, the result is not below it and above every id
  have hloop : ∀ (ds : List SeatDevice) (n : Int),
      n ≤ ds.foldl (fun id d => if d.deviceId ≥ id then d.deviceId + 1 else id) n
      ∧ ∀ d ∈ ds, d.deviceId
          < ds.foldl (fun id d => if d.deviceId ≥ id then d.deviceId + 1 else id) n := by
    intro ds
    induction ds with
    | nil => exact fun n => ⟨le_rfl, fun d hd => absurd hd List.not_mem_nil⟩
    | cons e ds ih =>
        intro n
        have hstep : n ≤ (if e.deviceId ≥ n then e.deviceId + 1 else n)
            ∧ e.deviceId < (if e.deviceId ≥ n then e.deviceId + 1 else n) := by
          split_ifs <;> omega
        obtain ⟨hle, hlt⟩ := ih (if e.deviceId ≥ n then e.deviceId + 1 else n)
        refine ⟨hstep.1.trans hle, fun d hd => ?_⟩
        rcases List.mem_cons.mp hd with rfl | hd
        · exact hstep.2.trans_le hle
        · exact hlt d hd
  exact hloop ds 1

/-- ... and it is the next number, if the others are at most `n`. -/
theorem nextDeviceId_le {ds : List SeatDevice} {n : Int} (hn : 0 ≤ n)
    (h : ∀ d ∈ ds, d.deviceId ≤ n) : nextDeviceId ds ≤ n + 1 := by
  have hloop : ∀ (ds : List SeatDevice) (m : Int), m ≤ n + 1 → (∀ d ∈ ds, d.deviceId ≤ n) →
      ds.foldl (fun id d => if d.deviceId ≥ id then d.deviceId + 1 else id) m ≤ n + 1 := by
    intro ds
    induction ds with
    | nil => exact fun m hm _ => hm
    | cons e ds ih =>
        intro m hm hds
        have he := hds e List.mem_cons_self
        refine ih _ ?_ fun d hd => hds d (List.mem_cons_of_mem e hd)
        dsimp only
        split_ifs <;> omega
  exact hloop ds 1 (by omega) h

/-- An entry without its access flag. -/
def SeatDevice.row (d : SeatDevice) : SeatDevice := { d with active := true }

/-- The device list of the client `c`, after a history of calls among which the client asked `n`
times for a device. -/
structure DeviceTable (c : ClientId) (ops : List (Op (ClientId × Int))) (n : Nat)
    (ds : List SeatDevice) : Prop where
  size : ds.length ≤ MAX_SEAT_DEVICES
  paths : (ds.map SeatDevice.path).Nodup
  ids : (ds.map SeatDevice.deviceId).Nodup
  positive : ∀ d ∈ ds, 1 ≤ d.deviceId
  refs : ∀ d ∈ ds, 1 ≤ d.refCnt ∧ (d.refCnt : Int) = balance (c, d.deviceId) ops
  bounded : ∀ d ∈ ds, d.deviceId ≤ n ∧ d.refCnt ≤ n

namespace DeviceTable

variable {c : ClientId} {ops : List (Op (ClientId × Int))} {n : Nat} {ds : List SeatDevice}
  {i : Nat} {d : SeatDevice}

theorem nil : DeviceTable c ops n [] :=
  ⟨Nat.zero_le _, List.nodup_nil, List.nodup_nil, fun _ h => absurd h List.not_mem_nil,
    fun _ h => absurd h List.not_mem_nil, fun _ h => absurd h List.not_mem_nil⟩

theorem counted (h : DeviceTable c ops n ds) :
    Counted (fun d : SeatDevice => (c, d.deviceId)) SeatDevice.refCnt ops ds := by
  refine ⟨?_, h.refs⟩
  have hpairs : ds.map (fun d : SeatDevice => (c, d.deviceId))
      = (ds.map SeatDevice.deviceId).map (Prod.mk c) := by rw [List.map_map]; rfl
  rw [hpairs]
  exact h.ids.map fun _ _ heq => (Prod.mk.inj heq).2

/-- What the counts do not depend on, in terms of the list before. -/
theorem of_counted (h : DeviceTable c ops n ds) {ops' : List (Op (ClientId × Int))} {m : Nat}
    {ds' : List SeatDevice}
    (hcounted : Counted (fun d : SeatDevice => (c, d.deviceId)) SeatDevice.refCnt ops' ds')
    (hsub : (ds'.map SeatDevice.path).Sublist (ds.map SeatDevice.path))
    (hids : (ds'.map SeatDevice.deviceId).Sublist (ds.map SeatDevice.deviceId))
    (hnm : n ≤ m) (hrefs : ∀ d ∈ ds', d.refCnt ≤ m) : DeviceTable c ops' m ds' := by
  have hfrom : ∀ d ∈ ds', ∃ e ∈ ds, e.deviceId = d.deviceId := fun d hd =>
    List.mem_map.mp (hids.subset (List.mem_map_of_mem hd))
  refine ⟨?_, h.paths.sublist hsub, h.ids.sublist hids, fun d hd => ?_, hcounted.counts,
    fun d hd => ⟨?_, hrefs d hd⟩⟩
  · have hlength := hsub.length_le
    rw [List.length_map, List.length_map] at hlength
    exact hlength.trans h.size
  · obtain ⟨e, he, heq⟩ := hfrom d hd
    exact heq ▸ h.positive e he
  · obtain ⟨e, he, heq⟩ := hfrom d hd
    have := (h.bounded e he).1
    omega

/-- The same for the same entries. -/
theorem of_same (h : DeviceTable c ops n ds) {ops' : List (Op (ClientId × Int))} {m : Nat}
    {ds' : List SeatDevice}
    (hcounted : Counted (fun d : SeatDevice => (c, d.deviceId)) SeatDevice.refCnt ops' ds')
    (hpaths : ds'.map SeatDevice.path = ds.map SeatDevice.path)
    (hids : ds'.map SeatDevice.deviceId = ds.map SeatDevice.deviceId)
    (hnm : n ≤ m) (hrefs : ∀ d ∈ ds', d.refCnt ≤ m) : DeviceTable c ops' m ds' :=
  h.of_counted hcounted (hpaths ▸ List.Sublist.refl _) (hids ▸ List.Sublist.refl _) hnm hrefs

/-- Other clients' calls do not matter. -/
theorem foreign (h : DeviceTable c ops n ds) {op : Op (ClientId × Int)} (hop : op.key.1 ≠ c) :
    DeviceTable c (op :: ops) n ds :=
  h.of_same (h.counted.foreign fun _ _ heq => hop (congrArg Prod.fst heq)) rfl rfl le_rfl
    fun d hd => (h.bounded d hd).2

theorem foreigns (h : DeviceTable c ops n ds) {ops' : List (Op (ClientId × Int))}
    (hops : ∀ op ∈ ops', op.key.1 ≠ c) : DeviceTable c (ops' ++ ops) n ds := by
  induction ops' with
  | nil => exact h
  | cons op ops' ih =>
      exact (ih fun op' hop' => hops op' (List.mem_cons_of_mem op hop')).foreign
        (hops op List.mem_cons_self)

/-- Nor does what the table says about access. -/
theorem of_rows (h : DeviceTable c ops n ds) {ds' : List SeatDevice}
    (hrows : ds'.map SeatDevice.row = ds.map SeatDevice.row) : DeviceTable c ops n ds' := by
  have hmap : ∀ {β : Type} (f : SeatDevice → β), (∀ d, f d.row = f d) →
      ds'.map f = ds.map f := by
    intro β f hf
    have := congrArg (List.map f) hrows
    simpa only [List.map_map, Function.comp_def, hf] using this
  have hfrom : ∀ d ∈ ds', ∃ e ∈ ds, e.deviceId = d.deviceId ∧ e.refCnt = d.refCnt := by
    intro d hd
    have hpair := hmap (fun d => (d.deviceId, d.refCnt)) fun _ => rfl
    have hmem : (d.deviceId, d.refCnt) ∈ ds.map fun d => (d.deviceId, d.refCnt) :=
      hpair ▸ List.mem_map_of_mem hd
    obtain ⟨e, he, heq⟩ := List.mem_map.mp hmem
    exact ⟨e, he, (Prod.mk.inj heq).1, (Prod.mk.inj heq).2⟩
  have hids := hmap SeatDevice.deviceId fun _ => rfl
  have hkeys := hmap (fun d => (c, d.deviceId)) fun _ => rfl
  refine h.of_same ⟨hkeys ▸ h.counted.keys, fun d hd => ?_⟩
    (hmap SeatDevice.path fun _ => rfl) hids le_rfl fun d hd => ?_
  · obtain ⟨e, he, hid, href⟩ := hfrom d hd
    rw [← hid, ← href]
    exact h.refs e he
  · obtain ⟨e, he, -, href⟩ := hfrom d hd
    exact href ▸ (h.bounded e he).2

theorem mono (h : DeviceTable c ops n ds) {m : Nat} (hnm : n ≤ m) : DeviceTable c ops m ds :=
  h.of_same h.counted rfl rfl hnm fun d hd => (h.bounded d hd).2.trans hnm

/-- Another count for an entry. -/
theorem recount (h : DeviceTable c ops n ds) {ops' : List (Op (ClientId × Int))} {m : Nat}
    {g : Nat → Nat} (hnm : n ≤ m) (hg : ∀ refCnt ≤ n, g refCnt ≤ m)
    (hcounted : Counted (fun d : SeatDevice => (c, d.deviceId)) SeatDevice.refCnt ops'
      (ds.modify i fun d => { d with refCnt := g d.refCnt })) :
    DeviceTable c ops' m (ds.modify i fun d => { d with refCnt := g d.refCnt }) := by
  have hkeep : ∀ {β : Type} (f : SeatDevice → β),
      (∀ d : SeatDevice, f { d with refCnt := g d.refCnt } = f d) →
      (ds.modify i fun d => { d with refCnt := g d.refCnt }).map f = ds.map f :=
    fun f hf => ListRel.map_modify hf ds i
  refine h.of_same hcounted (hkeep _ fun _ => rfl) (hkeep _ fun _ => rfl) hnm fun e he => ?_
  obtain ⟨e', he', heq⟩ := ListRel.exists_left (ListRel.forall₂_modify
    (R := fun a b : SeatDevice => b.refCnt = a.refCnt ∨ b.refCnt = g a.refCnt)
    (fun _ => Or.inl rfl) (fun _ => Or.inr rfl) ds i) he
  have hle := (h.bounded e' he').2
  rcases heq with heq | heq
  · exact heq ▸ hle.trans hnm
  · exact heq ▸ hg _ hle

/-- One more reference to an entry. -/
theorem acquire (h : DeviceTable c ops n ds) (hd : ds[i]? = some d) :
    DeviceTable c (.acquire (c, d.deviceId) :: ops) (n + 1)
      (ds.modify i fun d => { d with refCnt := d.refCnt + 1 }) :=
  h.recount (Nat.le_succ n) (fun _ => Nat.succ_le_succ)
    (h.counted.acquire hd (fun _ => rfl) fun _ => rfl)

/-- A new entry. -/
theorem create (h : DeviceTable c ops n ds) {fd : Nat} {p : CString} {type : SeatDeviceType}
    (hpath : ∀ d ∈ ds, d.path ≠ p) (hroom : ds.length < MAX_SEAT_DEVICES) :
    DeviceTable c (.create (c, nextDeviceId ds) :: ops) (n + 1)
      (⟨nextDeviceId ds, fd, 1, true, p, type⟩ :: ds) := by
  obtain ⟨hone, hlt⟩ := lt_nextDeviceId ds
  have hle : nextDeviceId ds ≤ (n : Int) + 1 :=
    nextDeviceId_le (by omega) fun d hd => (h.bounded d hd).1
  have hcounted := h.counted.create (r := ⟨nextDeviceId ds, fd, 1, true, p, type⟩)
    (fun d hd heq => (hlt d hd).ne (Prod.mk.inj heq).2) rfl
  refine ⟨hroom, List.nodup_cons.mpr ⟨?_, h.paths⟩, List.nodup_cons.mpr ⟨?_, h.ids⟩, ?_,
    hcounted.counts, ?_⟩
  · intro hmem
    obtain ⟨d, hd, heq⟩ := List.mem_map.mp hmem
    exact hpath d hd heq
  · intro hmem
    obtain ⟨d, hd, heq⟩ := List.mem_map.mp hmem
    exact (hlt d hd).ne heq
  · intro d hd
    rcases List.mem_cons.mp hd with rfl | hd
    · exact hone
    · exact h.positive d hd
  · intro d hd
    rcases List.mem_cons.mp hd with rfl | hd
    · exact ⟨by push_cast; exact hle, Nat.le_add_left 1 n⟩
    · have := h.bounded d hd
      exact ⟨by push_cast; omega, by omega⟩

/-- A reference less. -/
theorem release (h : DeviceTable c ops n ds) (hd : ds[i]? = some d) :
    DeviceTable c (.release (c, d.deviceId) :: ops) n
      (if 0 < d.refCnt - 1 then ds.modify i fun d => { d with refCnt := d.refCnt - 1 }
        else ds.eraseIdx i) := by
  split_ifs with hmore
  · exact h.recount le_rfl (fun _ hle => (Nat.sub_le _ _).trans hle)
      (h.counted.release hd (fun _ => rfl) (fun _ => rfl) hmore)
  · have hsub := List.eraseIdx_sublist ds i
    exact h.of_counted (h.counted.remove hd) (hsub.map _) (hsub.map _) le_rfl
      fun e he => (h.bounded e (hsub.subset he)).2

end DeviceTable

/-! ## The handlers -/

/-- The calls of `seat_open_device` that returned an entry, and those of `seat_close_device`, in
the handler of a request; the newest first. An entry is new if the list has become longer. -/
def Request.deviceOps (k : Kernel) (s : Server) (c : ClientId) :
    Request → List (Op (ClientId × Int))
  | .openDevice path =>
      let o := seatOpenDevice k s c path
      match o.1.bind fun i => (o.2.clients c).devices[i]? with
      | none => []
      | some d =>
          let opened := if (s.clients c).devices.length < (o.2.clients c).devices.length then
            Op.create (c, d.deviceId) else .acquire (c, d.deviceId)
          if (o.2.call k (.dup d.fd)).1 then [opened] else [.release (c, d.deviceId), opened]
  | .closeDevice id =>
      match (seatFindDevice s c id).1.bind fun i => (s.clients c).devices[i]? with
      | none => []
      | some d => [.release (c, d.deviceId)]
  | _ => []

section

variable {k : Kernel} {s : Server} {c : ClientId}

theorem devices_of_same_view {s s' : Server} (h : s'.view none = s.view none) (o : ClientId) :
    (s'.clients o).devices = (s.clients o).devices :=
  congrArg (fun v => (View.client v o).devices) h

theorem devices_sendDevice (d : SeatDevice) (o : ClientId) :
    ((sendDevice k s c d).2.clients o).devices = (s.clients o).devices := by
  unfold sendDevice
  dsimp only
  cases connectionPutFd (s.newFd.clients c).connection s.nextFd with
  | error e => rfl
  | ok conn =>
      dsimp only
      rw [devices_of_same_view (view_clientPutMsg k _ none c rfl)]
      have hview : (s.newFd.setConnection (.client c) conn).view none = s.view none :=
        (view_setConnection _ none _ conn).trans rfl
      exact devices_of_same_view hview o

theorem devices_seatCloseDevice {i : Nat} {d : SeatDevice}
    (hd : (s.clients c).devices[i]? = some d) :
    ((seatCloseDevice k s c i).clients c).devices
      = if 0 < d.refCnt - 1 then
          (s.clients c).devices.modify i fun d => { d with refCnt := d.refCnt - 1 }
        else (s.clients c).devices.eraseIdx i := by
  split_ifs with href
  · exact (devices_of_view (view_seatCloseDevice_unref k s none hd href)).1
  · obtain ⟨evs, d', -, -, hview⟩ := view_seatCloseDevice_last k s none hd href
    show (((seatCloseDevice k s c i).view none).client c).devices = _
    rw [hview]
    simp [View.push]

variable {ops : List (Op (ClientId × Int))} {n : Nat}

/-- The rest of `handle_open_device`: the entry is given back if its fd cannot be duplicated. -/
theorem handleOpenDevice_entry {path : CString} {i : Nat} {d : SeatDevice} {op : Op (ClientId × Int)}
    (hseat : (s.clients c).seat = true) (hi : (seatOpenDevice k s c path).1 = some i)
    (hd : ((seatOpenDevice k s c path).2.clients c).devices[i]? = some d)
    (hop : (if (s.clients c).devices.length
        < ((seatOpenDevice k s c path).2.clients c).devices.length then
        Op.create (c, d.deviceId) else .acquire (c, d.deviceId)) = op)
    (h : DeviceTable c (op :: ops) n ((seatOpenDevice k s c path).2.clients c).devices) :
    DeviceTable c (Request.deviceOps k s c (.openDevice path) ++ ops) n
      ((handleOpenDevice k s c path).2.clients c).devices := by
  have hdup := devices_of_same_view
    (view_call k (seatOpenDevice k s c path).2 none (c := .dup d.fd) rfl) c
  simp only [Request.deviceOps, handleOpenDevice, hseat, Bool.true_eq_false, if_false, hi,
    Option.bind_some, hd, Option.map_some, hop]
  split_ifs
  · rw [devices_sendDevice, hdup]
    exact h
  · rw [devices_of_same_view (view_clientSendError k _ none c _),
      devices_seatCloseDevice (by rw [hdup]; exact hd), hdup]
    exact h.release hd

/-- **`handle_open_device` keeps the table in order.** -/
theorem handleOpenDevice_table {path : CString} (hseat : (s.clients c).seat = true)
    (h : DeviceTable c ops n (s.clients c).devices) :
    DeviceTable c (Request.deviceOps k s c (.openDevice path) ++ ops) (n + 1)
      ((handleOpenDevice k s c path).2.clients c).devices := by
  rcases seatOpenDevice_table k s c path with
    ⟨hnone, -, hview⟩ | ⟨i, d, hi, -, hd, hview⟩ | ⟨fd, p, type, hi, -, hpath, hroom, hview⟩
  · simp only [Request.deviceOps, handleOpenDevice, hseat, Bool.true_eq_false, if_false, hnone,
      Option.bind_none, List.nil_append]
    rw [devices_of_same_view (view_clientSendError k _ none c _), devices_of_same_view hview]
    exact h.mono (Nat.le_succ n)
  · have hds := (devices_of_view hview).1
    have hacquired := h.acquire hd
    refine handleOpenDevice_entry hseat hi (d := { d with refCnt := d.refCnt + 1 }) ?_ (if_neg ?_) ?_
    · rw [hds, List.getElem?_modify_eq, hd]
      rfl
    · rw [hds, List.length_modify]
      exact lt_irrefl _
    · rw [hds]
      exact hacquired
  · have hds := (devices_of_view hview).1
    refine handleOpenDevice_entry hseat hi
      (d := ⟨nextDeviceId (s.clients c).devices, fd, 1, true, p, type⟩) ?_ (if_pos ?_) ?_
    · rw [hds]
      rfl
    · rw [hds]
      exact Nat.lt_succ_self _
    · rw [hds]
      exact h.create hpath hroom

/-- **`handle_close_device` keeps the table in order.** -/
theorem handleCloseDevice_table {deviceId : Int} (hseat : (s.clients c).seat = true)
    (h : DeviceTable c ops n (s.clients c).devices) :
    DeviceTable c (Request.deviceOps k s c (.closeDevice deviceId) ++ ops) n
      ((handleCloseDevice k s c deviceId).2.clients c).devices := by
  have hsame := devices_of_same_view (view_seatFindDevice s c deviceId) c
  simp only [Request.deviceOps, handleCloseDevice, hseat, Bool.true_eq_false, if_false]
  cases hfind : (seatFindDevice s c deviceId).1 with
  | none =>
      simp only [Option.bind_none, List.nil_append]
      rw [devices_of_same_view (view_clientSendError k _ none c _), hsame]
      exact h
  | some i =>
      simp only [Option.bind_some]
      rw [devices_of_same_view (view_clientPutMsg k _ none c rfl)]
      cases hd : (s.clients c).devices[i]? with
      | none =>
          have hnone : seatCloseDevice k (seatFindDevice s c deviceId).2 c i
              = (seatFindDevice s c deviceId).2 := by
            rw [seatCloseDevice, hsame, hd]
          rw [hnone, hsame]
          exact h
      | some d =>
          rw [devices_seatCloseDevice (by rw [hsame]; exact hd), hsame]
          exact h.release hd

end

/-! ## What other transitions do -/

/-- Transitions that add an entry, remove one or change a count of the client `o`. -/
def Act.Tables (o : ClientId) : Act → Prop
  | .openDevice c _ | .adjust c _ | .closeDevice c _ => c = o
  | _ => False

theorem Down.row {k : Kernel} {evs : List Event} {d d' : SeatDevice} (h : Down k evs d d') :
    d'.row = d.row := by
  cases h <;> rfl

theorem SeatDevice.up_row (d : SeatDevice) : d.up.row = d.row := by
  unfold SeatDevice.up
  split_ifs <;> rfl

theorem rows_of_forall₂ {R : SeatDevice → SeatDevice → Prop} (hR : ∀ d d', R d d' → d'.row = d.row)
    {ds ds' : List SeatDevice} (h : List.Forall₂ R ds ds') :
    ds'.map SeatDevice.row = ds.map SeatDevice.row := by
  induction h with
  | nil => rfl
  | cons hd _ ih => rw [List.map_cons, List.map_cons, ih, hR _ _ hd]

/-- The other transitions change at most the access flags of the devices of a client that is
there. -/
theorem Act.Trans.rows {k : Kernel} {a : Act} {v v' : View} (ht : a.Trans k v v') {o : ClientId}
    (ha : ¬ a.Tables o) (ho : o < v.nextId) :
    (v'.client o).devices.map SeatDevice.row = (v.client o).devices.map SeatDevice.row := by
  rcases ht.devices fun _ => ho.ne with hturns | ⟨d, rfl, -⟩ | ⟨i, rfl, -⟩
  · refine rows_of_forall₂ (fun d d' hd => ?_) hturns
    cases hd with
    | same => rfl
    | counted => exact absurd rfl ha
    | opened | restored => exact d.up_row
    | failed h => exact h.row.trans d.up_row
    | disabled h | dropped h => exact h.row
  · exact absurd rfl ha
  · exact absurd rfl ha

/-- Along a path without such transitions for `o`: if `o` is on the seat at the end, it was on it
before with the same rows, or it joined, with none. -/
theorem rows_of_path {k : Kernel} {P : Act → Prop} {v v' : View} (hp : Act.Path k P v v')
    (hwf : v.WF) {o : ClientId} (hP : ∀ a, P a → ¬ a.Tables o) (ho : o ∈ v'.seat.clients) :
    o ∈ v.seat.clients ∧ (v'.client o).devices.map SeatDevice.row
        = (v.client o).devices.map SeatDevice.row
      ∨ (v'.client o).devices = [] := by
  refine (Path.invariant (I := fun u => u.WF ∧ (o ∈ u.seat.clients → o ∈ v.seat.clients
      ∧ (u.client o).devices.map SeatDevice.row = (v.client o).devices.map SeatDevice.row
    ∨ (u.client o).devices = [])) (fun a u u' ha ht hu => ⟨hu.1.trans ht, fun ho' => ?_⟩) hp
    ⟨hwf, fun h => Or.inl ⟨h, rfl⟩⟩).2 ho
  obtain ⟨hu, hsince⟩ := hu
  by_cases hon : o ∈ u.seat.clients
  · have hrows := ht.rows (hP a ha) (hu.fresh o ((hu.live_iff o).mpr (Or.inr (Or.inl hon))))
    rcases hsince hon with ⟨hbefore, hsame⟩ | hnil
    · exact Or.inl ⟨hbefore, hrows.trans hsame⟩
    · rw [hnil] at hrows
      exact Or.inr (List.map_eq_nil_iff.mp hrows)
  · -- only `join` puts a client on the seat
    obtain ⟨evs, hg, -, -, rfl⟩ := ht
    cases a with
    | join c n =>
        obtain rfl : o = c := by
          rcases List.mem_cons.mp ho' with h | h
          · exact h
          · exact absurd h hon
        refine Or.inr ?_
        have hidle := (hu.idle o hg.2.1).2.1
        simpa [Act.effect, View.push] using hidle
    | detach c => exact absurd (List.mem_of_mem_erase ho') hon
    | _ => exact absurd ho' hon

/-! ## Steps -/

section

variable {k : Kernel} {s : Server} {c : ClientId} {r : Request}

/-- After `seat_remove_client`, the client is not on the seat. -/
theorem not_onSeat_seatRemoveClient (h : (s.view none).WF) (hc : c ∈ s.seat.clients) :
    c ∉ (seatRemoveClient k s c).seat.clients :=
  ((h.path (seatRemoveClient_path k s h hc).1).leaving_off c rfl).2

/-- A destroyed client is not on the seat. -/
theorem not_onSeat_clientDestroy (h : (s.view none).WF) (hlive : c ∈ s.live) :
    c ∉ (clientDestroy k s c).seat.clients := by
  unfold clientDestroy
  dsimp only
  cases hseat : (s.clients c).seat with
  | true => exact not_onSeat_seatRemoveClient h (mem_of_seat s h hlive hseat)
  | false => exact h.idle_off c (mem_idle_of_seat s h hlive hseat)

/-- All handlers but two refuse a client without a seat. -/
theorem handleRequest_off (hseat : (s.clients c).seat = false) (hopen : r ≠ .openSeat)
    (hping : r ≠ .ping) : handleRequest k s c r = (false, s) := by
  cases r with
  | openSeat => exact absurd rfl hopen
  | ping => exact absurd rfl hping
  | _ => exact if_pos hseat

/-- Requests other than these three leave the device tables alone. -/
theorem handleRequest_rows (h : (s.view none).WF) (hlive : c ∈ s.live)
    (hopen : ∀ path, r ≠ .openDevice path) (hclose : ∀ id, r ≠ .closeDevice id)
    (hleave : r ≠ .closeSeat) :
    Act.Path k (fun a => ∀ o, ¬ a.Tables o) (s.view none) ((handleRequest k s c r).2.view none) := by
  have hopens : ∀ {Q : ClientId → Prop} (a : Act), a.Opens Q → ∀ o, ¬ a.Tables o := by
    intro Q a ha o hto
    cases a <;> first | cases ha | cases hto
  cases r with
  | openSeat =>
      exact handleOpenSeat_path k s (fun _ => id) (fun _ _ _ _ => id) (fun _ => hopens) h hlive
  | closeSeat => exact absurd rfl hleave
  | openDevice path => exact absurd rfl (hopen path)
  | closeDevice id => exact absurd rfl (hclose id)
  | switchSession session =>
      exact handleSwitchSession_path k s (fun _ _ _ => id) (fun _ _ _ _ => id) h hlive
  | disableSeat => exact handleDisableSeat_path k s (fun _ => id) (fun _ _ => hopens) h hlive
  | ping =>
      show Act.Path k _ (s.view none) ((clientPutMsg k s c .pong).2.view none)
      rw [view_clientPutMsg k s none c rfl]
      exact .refl _

/-- The calls of a step. -/
def Step.deviceOps (k : Kernel) (s : Server) : Step → List (Op (ClientId × Int))
  | .request c r => if c ∈ s.live ∧ (s.clients c).seat = true then r.deviceOps k s c else []
  | _ => []

/-- Whether the client asks for a device. -/
def Step.asksDevice (c : ClientId) : Step → Bool
  | .request o (.openDevice _) => o = c
  | _ => false

theorem client_of_asksDevice {st : Step} (h : st.asksDevice c = true) :
    st.client = some c := by
  cases st with
  | request o r =>
      cases r with
      | openDevice path => exact congrArg some (of_decide_eq_true h)
      | _ => cases h
  | _ => cases h

/-- The calls are about devices of the client that asks. -/
theorem Request.client_of_deviceOps {op : Op (ClientId × Int)}
    (h : op ∈ r.deviceOps k s c) : op.key.1 = c := by
  cases r with
  | openDevice path =>
      simp only [Request.deviceOps] at h
      cases hd : (seatOpenDevice k s c path).1.bind
          fun i => ((seatOpenDevice k s c path).2.clients c).devices[i]? with
      | none => simp [hd] at h
      | some d =>
          rw [hd] at h
          dsimp only at h
          split_ifs at h <;> simp only [List.mem_cons, List.not_mem_nil, or_false] at h <;>
            rcases h with rfl | rfl <;> rfl
  | closeDevice id =>
      simp only [Request.deviceOps] at h
      cases hd : (seatFindDevice s c id).1.bind fun i => (s.clients c).devices[i]? with
      | none => simp [hd] at h
      | some d =>
          obtain rfl : op = .release (c, d.deviceId) := by simpa [hd] using h
          rfl
  | _ => exact absurd h List.not_mem_nil

theorem client_of_deviceOps {st : Step} {op : Op (ClientId × Int)} (h : op ∈ st.deviceOps k s) :
    st.client = some op.key.1 := by
  cases st with
  | request c r =>
      simp only [Step.deviceOps] at h
      split_ifs at h
      · exact congrArg some (Request.client_of_deviceOps h).symm
      · exact absurd h List.not_mem_nil
  | _ => exact absurd h List.not_mem_nil

/-- **The handler of a request keeps the client's table in order.** -/
theorem handleRequest_table (h : (s.view none).WF) (hlive : c ∈ s.live) (r : Request)
    {ops : List (Op (ClientId × Int))} {n : Nat}
    (htable : c ∈ s.seat.clients → DeviceTable c ops n (s.clients c).devices)
    (hc : c ∈ (handleRequest k s c r).2.seat.clients) :
    DeviceTable c (Step.deviceOps k s (.request c r) ++ ops)
      (n + if Step.asksDevice c (.request c r) then 1 else 0)
      ((handleRequest k s c r).2.clients c).devices := by
  have hquiet : (∀ path, r ≠ .openDevice path) → (∀ id, r ≠ .closeDevice id) → r ≠ .closeSeat →
      DeviceTable c ops n ((handleRequest k s c r).2.clients c).devices := by
    intro hopen hclose hleave
    rcases rows_of_path (handleRequest_rows h hlive hopen hclose hleave) h (fun a ha => ha c) hc with
      ⟨hon, hrows⟩ | hnil
    · exact (htable hon).of_rows hrows
    · rw [show ((handleRequest k s c r).2.clients c).devices = [] from hnil]
      exact .nil
  have hseat : r ≠ .openSeat → r ≠ .ping → (s.clients c).seat = true ∧ c ∈ s.seat.clients := by
    intro hopen hping
    by_cases hs : (s.clients c).seat = true
    · exact ⟨hs, mem_of_seat s h hlive hs⟩
    · rw [handleRequest_off (by simpa using hs) hopen hping] at hc
      exact absurd (h.onSeat c hc).1 hs
  cases r with
  | openDevice path =>
      obtain ⟨hs, hon⟩ := hseat (fun h => by cases h) fun h => by cases h
      rw [Step.deviceOps, if_pos ⟨hlive, hs⟩, show Step.asksDevice c (.request c _) = true by
        simp [Step.asksDevice], if_pos rfl]
      exact handleOpenDevice_table hs (htable hon)
  | closeDevice id =>
      obtain ⟨hs, hon⟩ := hseat (fun h => by cases h) fun h => by cases h
      rw [Step.deviceOps, if_pos ⟨hlive, hs⟩]
      exact handleCloseDevice_table hs (htable hon)
  | closeSeat =>
      -- the client has left the seat
      obtain ⟨hs, hon⟩ := hseat (fun h => by cases h) fun h => by cases h
      rw [handleRequest, handleCloseSeat, if_neg (by simp [hs])] at hc
      have hput : (clientPutMsg k { seatRemoveClient k s c with
          idleClients := c :: (seatRemoveClient k s c).idleClients } c .seatClosed).2.seat.clients
          = (seatRemoveClient k s c).seat.clients :=
        congrArg (fun v => (View.seat v).clients) (view_clientPutMsg k _ none c rfl)
      exact absurd (hput ▸ hc) (not_onSeat_seatRemoveClient h hon)
  | openSeat | switchSession session | disableSeat | ping =>
      simp only [Step.deviceOps, Request.deviceOps, ite_self, List.nil_append]
      exact hquiet (fun _ h => by cases h) (fun _ h => by cases h) fun h => by cases h

/-- Only a step of the client itself changes its table. -/
theorem Step.Allows.tables {st : Step} {a : Act} {o : ClientId} (h : st.Allows k s a)
    (ha : a.Tables o) : st.client = some o := by
  cases a with
  | openDevice c d | adjust c ds | closeDevice c i =>
      obtain rfl : c = o := ha
      cases st <;> grind [Step.Allows, Request.Allows, ControlRequest.Allows, Act.Destroys,
        Act.Removes, Act.Opens, Act.Frees, Step.client]
  | _ => cases ha

/-- **A step keeps the tables of the clients on the seat in order.** -/
theorem step_table (h : (s.view none).WF) (st : Step) {o : ClientId}
    {ops : List (Op (ClientId × Int))} {n : Nat}
    (htable : o ∈ s.seat.clients → DeviceTable o ops n (s.clients o).devices)
    (ho : o ∈ (step k s st).seat.clients) :
    DeviceTable o (st.deviceOps k s ++ ops) (n + if st.asksDevice o then 1 else 0)
      ((step k s st).clients o).devices := by
  by_cases hclient : st.client = some o
  · have hlive : o ∈ s.live := by
      by_contra hnot
      rw [step, if_pos (Or.inl ⟨o, hclient, hnot⟩)] at ho
      exact hnot ((h.live_iff o).mpr (Or.inr (Or.inl ho)))
    have hcontrol : st.controlClient = none := by
      cases st <;> first | rfl | cases hclient
    have hstep : step k s st = handleStep k s st := by
      refine if_neg ?_
      rintro (⟨c, hc, hnot⟩ | ⟨i, hi, -⟩)
      · obtain rfl : o = c := Option.some.inj (hclient.symm.trans hc)
        exact hnot hlive
      · rw [hcontrol] at hi
        cases hi
    rw [hstep] at ho ⊢
    cases st with
    | request c r =>
        obtain rfl : c = o := Option.some.inj hclient
        change c ∈ (clientHandleRequest k s c r).seat.clients at ho
        show DeviceTable c _ _ ((clientHandleRequest k s c r).clients c).devices
        rcases clientHandleRequest_cases k s c r with ⟨-, hsame⟩ | ⟨s', hs', heq, -⟩
        · rw [devices_of_same_view hsame]
          refine handleRequest_table h hlive r htable ?_
          rwa [← show (clientHandleRequest k s c r).seat = (handleRequest k s c r).2.seat from
            congrArg View.seat hsame]
        · have hwf' : (s'.view none).WF := hs' ▸ h.path (handleRequest_path k s h hlive r)
          have hlive' := live_of_handleRequest k s h hlive r hs'
          rw [heq] at ho
          exact absurd ho (not_onSeat_clientDestroy hwf' hlive')
    | writable c =>
        obtain rfl : c = o := Option.some.inj hclient
        change c ∈ (clientHandleWritable k s c).seat.clients at ho
        show DeviceTable c ops n ((clientHandleWritable k s c).clients c).devices
        rcases clientHandleWritable_cases k s c with hsame | ⟨s', hs', heq, -⟩
        · rw [devices_of_same_view hsame]
          refine htable ?_
          rwa [← show (clientHandleWritable k s c).seat = s.seat from congrArg View.seat hsame]
        · rw [heq] at ho
          have hlive' : c ∈ s'.live := by
            rw [show s'.live = s.live from congrArg View.live hs']
            exact hlive
          exact absurd ho (not_onSeat_clientDestroy (hs' ▸ h) hlive')
    | disconnect c =>
        obtain rfl : c = o := Option.some.inj hclient
        exact absurd ho (not_onSeat_clientDestroy h hlive)
    | _ => cases hclient
  · have hasks : ¬ st.asksDevice o = true := fun hasks => hclient (client_of_asksDevice hasks)
    rw [if_neg hasks, add_zero]
    have hforeign : ∀ op ∈ st.deviceOps k s, op.key.1 ≠ o := by
      rintro op hop rfl
      exact hclient (client_of_deviceOps hop)
    rcases rows_of_path (step_path k s h st) h (fun a ha hto => hclient (ha.tables hto)) ho with
      ⟨hon, hrows⟩ | hnil
    · exact ((htable hon).foreigns hforeign).of_rows hrows
    · rw [show ((step k s st).clients o).devices = [] from hnil]
      exact .nil

end

/-! ## Runs -/

/-- The daemon with the history of the calls about devices. -/
structure Tabled where
  server : Server
  ops : List (Op (ClientId × Int))

def Tabled.step (k : Kernel) (t : Tabled) (st : Step) : Tabled :=
  ⟨DdeSeatd.step k t.server st, st.deviceOps k t.server ++ t.ops⟩

/-- The calls of a run of the daemon. -/
def deviceHistory (k : Kernel) (vtBound : Bool) (steps : List Step) : List (Op (ClientId × Int)) :=
  (Run.run (Tabled.step k) ⟨serverInit vtBound, []⟩ steps).ops

theorem server_run_tabled (k : Kernel) (vtBound : Bool) (steps : List Step) :
    (Run.run (Tabled.step k) ⟨serverInit vtBound, []⟩ steps).server = run k vtBound steps := by
  induction steps using List.reverseRecOn with
  | nil => rfl
  | append_singleton steps st ih =>
      simp only [run, Run.run_append, Run.run_cons, Run.run_nil]
      show DdeSeatd.step k (Run.run (Tabled.step k) _ steps).server st = _
      rw [ih]
      rfl

theorem deviceHistory_append (k : Kernel) (vtBound : Bool) (steps : List Step) (st : Step) :
    deviceHistory k vtBound (steps ++ [st])
      = st.deviceOps k (run k vtBound steps) ++ deviceHistory k vtBound steps := by
  rw [deviceHistory, Run.run_append, Run.run_cons, Run.run_nil]
  show st.deviceOps k (Run.run (Tabled.step k) _ steps).server ++ _ = _
  rw [server_run_tabled]
  rfl

/-- In every run, the tables of the clients on the seat are in order. -/
theorem deviceTable_run (k : Kernel) (vtBound : Bool) (steps : List Step) :
    ∀ c ∈ (run k vtBound steps).seat.clients, DeviceTable c (deviceHistory k vtBound steps)
      (steps.countP (Step.asksDevice c)) ((run k vtBound steps).clients c).devices := by
  induction steps using List.reverseRecOn with
  | nil => exact fun c hc => absurd hc List.not_mem_nil
  | append_singleton steps st ih =>
      intro c hc
      have hlast : run k vtBound (steps ++ [st]) = step k (run k vtBound steps) st := by
        simp [run, Run.run_append]
      rw [hlast] at hc ⊢
      rw [deviceHistory_append, List.countP_append, List.countP_singleton]
      exact step_table (wf_run k vtBound steps) st (ih c) hc

/-- **The device tables.** In every run the device list of each client has room for no more than
`MAX_SEAT_DEVICES` entries, with different paths and different positive ids, and the count of
each is that of the calls that returned it less those that closed it; ids and counts are at most
as large as the number of devices the client has asked for. A call that fails changes no table,
and the loop that closes all devices of a client ends, with none left. -/
theorem device_tables (k : Kernel) :
    (∀ (vtBound : Bool) (steps : List Step),
      (∀ c, steps.countP (Step.asksDevice c) < 2 ^ 31 - 1) →
      ∀ c ∈ (run k vtBound steps).live,
        DeviceTable c (deviceHistory k vtBound steps) (steps.countP (Step.asksDevice c))
          ((run k vtBound steps).clients c).devices
        ∧ ∀ d ∈ ((run k vtBound steps).clients c).devices,
          d.deviceId < 2 ^ 31 - 1 ∧ d.refCnt < 2 ^ 31 - 1)
    ∧ (∀ (s : Server) (c : ClientId) (path : CString), (seatOpenDevice k s c path).1 = none →
      ∀ o, ((seatOpenDevice k s c path).2.clients o).devices = (s.clients o).devices)
    ∧ (∀ (s : Server) (c : ClientId) (deviceId : Int), (seatFindDevice s c deviceId).1 = none →
      ∀ o, ((seatFindDevice s c deviceId).2.clients o).devices = (s.clients o).devices)
    ∧ ∀ (s : Server) (c : ClientId) (fuel : Nat), closeRounds (s.clients c).devices ≤ fuel →
      ((seatCloseDevices k c fuel s).clients c).devices = [] := by
  refine ⟨fun vtBound steps hasks c hlive => ?_, fun s c path hnone o => ?_,
    fun s c id _ o => devices_of_same_view (view_seatFindDevice s c id) o,
    fun s c fuel hfuel => seatCloseDevices_empty k s fuel hfuel⟩
  · have htable : DeviceTable c (deviceHistory k vtBound steps)
        (steps.countP (Step.asksDevice c)) ((run k vtBound steps).clients c).devices := by
      rcases ((wf_run k vtBound steps).live_iff c).mp hlive with hidle | hon | hleaving
      · rw [show ((run k vtBound steps).clients c).devices = [] from
          ((wf_run k vtBound steps).idle c hidle).2.1]
        exact .nil
      · exact deviceTable_run k vtBound steps c hon
      · cases hleaving
    refine ⟨htable, fun d hd => ?_⟩
    have hbound := htable.bounded d hd
    have hlt := hasks c
    omega
  · rcases seatOpenDevice_table k s c path with ⟨-, -, hview⟩ | ⟨i, d, hi, -⟩ | ⟨fd, p, type, hi, -⟩
    · exact devices_of_same_view hview o
    · rw [hnone] at hi
      cases hi
    · rw [hnone] at hi
      cases hi

/-- A device that is opened twice and closed once has one reference. -/
theorem device_tables_evdev :
    let path := EVDEV_PREFIX ++ ascii ['0']
    let steps : List Step := [.connect 100, .request 0 .openSeat, .request 0 (.openDevice path),
      .request 0 (.openDevice path), .request 0 (.closeDevice 1)]
    deviceHistory (.obliging 1) true steps = [.release (0, 1), .acquire (0, 1), .create (0, 1)]
    ∧ DeviceTable 0 (deviceHistory (.obliging 1) true steps) 2
        ((run (.obliging 1) true steps).clients 0).devices
    ∧ ((run (.obliging 1) true steps).clients 0).devices.map SeatDevice.refCnt = [1] := by
  intro path steps
  have hasks : ∀ c, steps.countP (Step.asksDevice c) < 2 ^ 31 - 1 := fun c =>
    lt_of_le_of_lt List.countP_le_length (by decide)
  exact ⟨by decide +kernel,
    ((device_tables (.obliging 1)).1 true steps hasks 0 (by decide +kernel)).1, by decide +kernel⟩

end DdeSeatd
