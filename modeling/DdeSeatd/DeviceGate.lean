import DdeSeatd.Device

set_option autoImplicit false

/-! # The device gate

`seat_open_device` opens, as root, whatever path its chain of tests lets through. Here the chain
is compared with a table: for each platform and each type of device, the prefixes of the paths
that are supported (`supportedPrefixes`).

Every test is a comparison with a prefix, except for one: NetBSD's `/dev/wsmux` is compared over
the length of `/dev/wsmouse`, two bytes more than it has, so that its terminating NUL takes part in
the comparison and only the path `/dev/wsmux` itself passes (`pathIsWscons_iff`). Apart from the
paths this rejects, the gate is exact (`deviceType_correct_iff`).
-/

namespace DdeSeatd

/-! ## The table -/

/-- The supported devices: how the paths of each type begin. -/
def supportedPrefixes (p : Platform) (type : SeatDeviceType) : List CString :=
  match type, p with
  | .evdev, .linux _ | .evdev, .freebsd => [EVDEV_PREFIX]
  | .drm, .freebsd => [DRI_PREFIX, DRM_PREFIX]
  | .drm, _ => [DRI_PREFIX]
  | .hidraw, .linux true => [HIDRAW_PREFIX]
  | .wscons, .netbsd => [WSKBD_PREFIX, WSMOUSE_PREFIX, WSMUX_PREFIX]
  | _, _ => []

/-- The path is one of a supported device of the type. -/
def Supported (p : Platform) (type : SeatDeviceType) (path : CString) : Prop :=
  ∃ pre ∈ supportedPrefixes p type, pre <+: path

instance (p : Platform) (type : SeatDeviceType) (path : CString) :
    Decidable (Supported p type path) :=
  inferInstanceAs (Decidable (∃ pre ∈ supportedPrefixes p type, pre <+: path))

/-- The prefixes of different types exclude each other. -/
theorem supportedPrefixes_apart (p : Platform) {type type' : SeatDeviceType} (h : type ≠ type') :
    ∀ pre ∈ supportedPrefixes p type, ∀ pre' ∈ supportedPrefixes p type', ¬ pre <+: pre' := by
  cases p with
  | linux hidraw => revert hidraw; cases type <;> cases type' <;> first | decide | exact absurd rfl h
  | freebsd | netbsd => cases type <;> cases type' <;> first | decide | exact absurd rfl h

/-- A path is supported as one type of device only. -/
theorem Supported.unique {p : Platform} {path : CString} {type type' : SeatDeviceType}
    (h : Supported p type path) (h' : Supported p type' path) : type = type' := by
  by_contra hne
  obtain ⟨pre, hmem, hpre⟩ := h
  obtain ⟨pre', hmem', hpre'⟩ := h'
  -- of two beginnings of one path, one begins the other
  rcases List.prefix_or_prefix_of_prefix hpre hpre' with hle | hle
  · exact supportedPrefixes_apart p hne pre hmem pre' hmem' hle
  · exact supportedPrefixes_apart p (Ne.symm hne) pre' hmem' pre hmem hle

/-! ## The tests -/

/-- The test for one type of device. -/
def pathIsType (p : Platform) : SeatDeviceType → CString → Bool
  | .evdev => pathIsEvdev p
  | .drm => pathIsDrm p
  | .wscons => pathIsWscons p
  | .hidraw => pathIsHidraw p

/-- The chain of tests in some order. -/
def deviceTypeIn (order : List SeatDeviceType) (p : Platform) (path : CString) :
    Option SeatDeviceType := order.find? fun type => pathIsType p type path

/-- The order of `seat_open_device`. -/
theorem deviceType_eq (p : Platform) (path : CString) :
    deviceType p path = deviceTypeIn [.evdev, .drm, .wscons, .hidraw] p path := by
  simp only [deviceType, deviceTypeIn, List.find?_cons, pathIsType]
  cases pathIsEvdev p path <;> cases pathIsDrm p path <;> cases pathIsWscons p path <;>
    cases pathIsHidraw p path <;> rfl

theorem strHasPrefix_iff (pre path : CString) :
    strHasPrefix pre path pre.length = true ↔ pre <+: path := by
  rw [strHasPrefix, decide_eq_true_iff, List.take_length, List.prefix_iff_eq_take]

/-- The comparison that takes the NUL in: both strings are the same. -/
theorem take_nul_eq_iff (pre path : CString) {n : Nat} (hn : pre.length + 1 < n) :
    (pre ++ [0]).take n = (path ++ [0]).take n ↔ path = pre := by
  constructor
  · intro h
    have hpre : (pre ++ [0]).take n = pre ++ [0] := List.take_of_length_le (by simp; omega)
    have hlen := congrArg List.length h
    simp only [List.length_take, List.length_append, List.length_singleton] at hlen
    have hpath : (path ++ [0]).take n = path ++ [0] := List.take_of_length_le (by simp; omega)
    rw [hpre, hpath] at h
    exact (List.append_cancel_right h).symm
  · rintro rfl
    rfl

/-- On NetBSD: a keyboard, a mouse, or the multiplexer named exactly `/dev/wsmux`. -/
theorem pathIsWscons_iff (path : CString) :
    pathIsWscons .netbsd path = true
      ↔ WSKBD_PREFIX <+: path ∨ WSMOUSE_PREFIX <+: path ∨ path = WSMUX_PREFIX := by
  have hmux := take_nul_eq_iff WSMUX_PREFIX path (n := WSMOUSE_PREFIX.length) (by decide)
  simp only [pathIsWscons, Bool.or_eq_true, strHasPrefix_iff, decide_eq_true_iff, hmux, or_assoc]

/-- The paths of NetBSD's console multiplexers other than the first. -/
def IsNumberedMux (p : Platform) (path : CString) : Prop :=
  p = .netbsd ∧ WSMUX_PREFIX <+: path ∧ path ≠ WSMUX_PREFIX

/-- **Each test accepts the supported paths of its type**, the numbered multiplexers apart. -/
theorem pathIsType_iff (p : Platform) (type : SeatDeviceType) (path : CString) :
    pathIsType p type path = true
      ↔ Supported p type path ∧ ¬ (type = .wscons ∧ IsNumberedMux p path) := by
  cases type with
  | evdev => cases p <;> simp [pathIsType, pathIsEvdev, Supported, supportedPrefixes,
      strHasPrefix_iff]
  | drm => cases p <;> simp [pathIsType, pathIsDrm, Supported, supportedPrefixes, strHasPrefix_iff]
  | hidraw =>
      cases p with
      | linux hidraw => cases hidraw <;> simp [pathIsType, pathIsHidraw, Supported,
          supportedPrefixes, strHasPrefix_iff]
      | freebsd | netbsd => simp [pathIsType, pathIsHidraw, Supported, supportedPrefixes]
  | wscons =>
      cases p with
      | linux hidraw | freebsd => simp [pathIsType, pathIsWscons, Supported, supportedPrefixes]
      | netbsd =>
          have hkbd : WSKBD_PREFIX <+: path → ¬ WSMUX_PREFIX <+: path := fun h h' =>
            (List.prefix_or_prefix_of_prefix h h').elim (by decide) (by decide)
          have hmouse : WSMOUSE_PREFIX <+: path → ¬ WSMUX_PREFIX <+: path := fun h h' =>
            (List.prefix_or_prefix_of_prefix h h').elim (by decide) (by decide)
          have hmux : path = WSMUX_PREFIX → WSMUX_PREFIX <+: path := fun h => h ▸ List.prefix_rfl
          simp only [pathIsType, pathIsWscons_iff, Supported, supportedPrefixes, IsNumberedMux,
            List.mem_cons, List.not_mem_nil, or_false, exists_eq_or_imp, exists_eq_left]
          tauto

theorem pathIsType_unique {p : Platform} {path : CString} {type type' : SeatDeviceType}
    (h : pathIsType p type path = true) (h' : pathIsType p type' path = true) : type = type' :=
  ((pathIsType_iff p type path).mp h).1.unique ((pathIsType_iff p type' path).mp h').1

/-- The chain finds the type whose test the path passes, in any order that tries every type. -/
theorem deviceTypeIn_iff {order : List SeatDeviceType} (horder : ∀ type, type ∈ order)
    (p : Platform) (path : CString) (type : SeatDeviceType) :
    deviceTypeIn order p path = some type ↔ pathIsType p type path = true := by
  have hpasses : ∀ found, deviceTypeIn order p path = some found →
      pathIsType p found path = true := fun found h =>
    List.find?_some (p := fun type => pathIsType p type path) h
  constructor
  · exact hpasses type
  · intro h
    have hsome : (deviceTypeIn order p path).isSome :=
      List.find?_isSome.mpr ⟨type, horder type, h⟩
    obtain ⟨found, hfound⟩ := Option.isSome_iff_exists.mp hsome
    rw [hfound, pathIsType_unique (hpasses found hfound) h]

/-! ## The gate -/

/-- The gate does right by a path: it gives the type of a supported path and rejects the others,
at most one test passes, and the order of the tests does not matter. -/
structure GateCorrect (p : Platform) (path : CString) : Prop where
  assigns : ∀ type, deviceType p path = some type ↔ Supported p type path
  rejects : deviceType p path = none ↔ ∀ type, ¬ Supported p type path
  unique : ∀ type type', pathIsType p type path = true → pathIsType p type' path = true →
    type = type'
  anyOrder : ∀ order : List SeatDeviceType, order.Perm [.evdev, .drm, .wscons, .hidraw] →
    deviceTypeIn order p path = deviceType p path

theorem deviceType_iff (p : Platform) (path : CString) (type : SeatDeviceType) :
    deviceType p path = some type ↔ pathIsType p type path = true := by
  rw [deviceType_eq]
  exact deviceTypeIn_iff (fun type => by cases type <;> decide) p path type

/-- **The gate is right about every path except the numbered multiplexers of NetBSD**, which it
rejects although they are supported. -/
theorem deviceType_correct_iff (p : Platform) (path : CString) :
    GateCorrect p path ↔ ¬ (p = .netbsd ∧ WSMUX_PREFIX <+: path ∧ path ≠ WSMUX_PREFIX) := by
  constructor
  · rintro h ⟨rfl, hpre, hne⟩
    have hsupported : Supported .netbsd .wscons path := ⟨WSMUX_PREFIX, by decide, hpre⟩
    have hpasses := (deviceType_iff _ _ _).mp ((h.assigns .wscons).mpr hsupported)
    exact ((pathIsType_iff _ _ _).mp hpasses).2 ⟨rfl, rfl, hpre, hne⟩
  · intro h
    have hassigns : ∀ type, deviceType p path = some type ↔ Supported p type path := fun type => by
      rw [deviceType_iff, pathIsType_iff]
      exact and_iff_left fun hmux => h hmux.2
    refine ⟨hassigns, ?_, fun _ _ => pathIsType_unique, fun order horder => ?_⟩
    · simp only [← hassigns, Option.eq_none_iff_forall_ne_some]
    · have hall : ∀ type, type ∈ order := fun type =>
        horder.mem_iff.mpr (by cases type <;> decide)
      ext type
      rw [deviceTypeIn_iff hall, deviceType_iff]

/-- `/dev/wsmux0` is a supported device, and the gate turns it away. -/
theorem wsmux0_rejected : Supported .netbsd .wscons (WSMUX_PREFIX ++ ascii ['0'])
    ∧ deviceType .netbsd (WSMUX_PREFIX ++ ascii ['0']) = none := by
  decide

end DdeSeatd
