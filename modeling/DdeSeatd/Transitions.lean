import DdeSeatd.Abstraction
import DdeSeatd.Lib.ListRel

set_option autoImplicit false

/-! # What a transition does to one client

Most transitions of the seat machine change one client, and of that one little: its state, its
session or its devices. The lemmas say which do, and what becomes of the devices; invariants about
a client start from them.
-/

namespace DdeSeatd

open ClientState

/-- Transitions that set the state of `o`. -/
def Act.SetsState (o : ClientId) : Act → Prop
  | .opened c | .disabled c _ _ | .acked c | .retire c => c = o
  | _ => False

/-- The transition neither activates the device `d` of `o` nor deactivates it. -/
def Act.Spares (o : ClientId) (d : SeatDevice) : Act → Prop
  | .opened c | .restoreDrm c _ | .openFailed c _ | .disabled c _ _ => c ≠ o
  | .dropDrm c _ => c = o → d.type ≠ .drm
  | _ => True

/-- What becomes of a device `d` of `o`. -/
inductive Act.Turns (k : Kernel) (o : ClientId) : Act → SeatDevice → SeatDevice → Prop where
  | same {a : Act} {d : SeatDevice} (ha : a.Spares o d) : Turns k o a d d
  | counted {ds : List SeatDevice} {d d' : SeatDevice} (heq : d' = { d with refCnt := d'.refCnt }) :
      Turns k o (.adjust o ds) d d'
  | opened {d : SeatDevice} : Turns k o (.opened o) d d.up
  | restored {st : ClientState} {d : SeatDevice} : Turns k o (.restoreDrm o st) d d.up
  | failed {evs : List Event} {ds : List SeatDevice} {d d' : SeatDevice} (h : Down k evs d.up d') :
      Turns k o (.openFailed o ds) d d'
  | disabled {evs : List Event} {ds : List SeatDevice} {next : Option ClientId} {d d' : SeatDevice}
      (h : Down k evs d d') : Turns k o (.disabled o ds next) d d'
  | dropped {evs : List Event} {ds : List SeatDevice} {d d' : SeatDevice} (h : Down k evs d d') :
      Turns k o (.dropDrm o ds) d d'

section

variable {k : Kernel} {a : Act} {v v' : View} {o : ClientId}

theorem Act.Trans.state (ht : a.Trans k v v') (ha : ¬ a.SetsState o)
    (ho : a = .create → o ≠ v.nextId) : (v'.client o).state = (v.client o).state := by
  obtain ⟨evs, -, -, -, rfl⟩ := ht
  cases a with
  | create => simp [Act.effect, View.push, ho rfl]
  | opened c | disabled c _ _ | acked c | retire c =>
      simp [Act.effect, View.push, Ne.symm (show ¬ c = o from ha)]
  | join c _ | openFailed c _ | dropDrm c _ | restoreDrm c _ | openDevice c _ | adjust c _
  | closeDevice c _ =>
      by_cases hoc : o = c <;> simp [Act.effect, View.push, hoc]
  | _ => rfl

/-- Sessions are given out to new clients and clients that join. -/
theorem Act.Trans.session_of_ne (ht : a.Trans k v v') (ho : a = .create → o ≠ v.nextId)
    (hjoin : ∀ n, a ≠ .join o n) : (v'.client o).session = (v.client o).session := by
  obtain ⟨evs, -, -, -, rfl⟩ := ht
  cases a with
  | create => simp [Act.effect, View.push, ho rfl]
  | join c n =>
      have hne : o ≠ c := fun heq => hjoin n (heq ▸ rfl)
      simp [Act.effect, View.push, hne]
  | opened c | openFailed c _ | disabled c _ _ | acked c | retire c | dropDrm c _
  | restoreDrm c _ | openDevice c _ | adjust c _ | closeDevice c _ =>
      by_cases hoc : o = c <;> simp [Act.effect, View.push, hoc]
  | _ => rfl

theorem Act.Trans.session (ht : a.Trans k v v') (hcreate : a ≠ .create)
    (hjoin : ∀ c n, a ≠ .join c n) (o : ClientId) :
    (v'.client o).session = (v.client o).session :=
  ht.session_of_ne (fun ha => absurd ha hcreate) (hjoin o)

/-- **What a transition does to the devices of a client that is there**: it opens one, closes one,
or turns each of them. -/
theorem Act.Trans.devices (ht : a.Trans k v v') (ho : a = .create → o ≠ v.nextId) :
    List.Forall₂ (a.Turns k o) (v.client o).devices (v'.client o).devices
    ∨ (∃ d, a = .openDevice o d ∧ (v'.client o).devices = d :: (v.client o).devices)
    ∨ ∃ i, a = .closeDevice o i ∧ (v'.client o).devices = (v.client o).devices.eraseIdx i := by
  obtain ⟨evs, hg, -, -, rfl⟩ := ht
  have hkeep : (∀ d, a.Spares o d) →
      List.Forall₂ (a.Turns k o) (v.client o).devices (v.client o).devices :=
    fun ha => List.forall₂_same.mpr fun d _ => .same (ha d)
  -- the record of `c` is replaced
  have hset : ∀ {c : ClientId} (cl : ClientView), (c ≠ o → ∀ d, a.Spares o d) →
      (c = o → List.Forall₂ (a.Turns k o) (v.client o).devices cl.devices) →
      List.Forall₂ (a.Turns k o) (v.client o).devices ((v.set c cl).client o).devices := by
    intro c cl hne heq
    rw [View.client_set]
    split_ifs with hoc
    · exact heq hoc.symm
    · exact hkeep (hne (Ne.symm hoc))
  have hup : ∀ {R : SeatDevice → SeatDevice → Prop}, (∀ d, R d d.up) →
      List.Forall₂ R (v.client o).devices ((v.client o).devices.map SeatDevice.up) :=
    fun hR => List.forall₂_map_right_iff.mpr (List.forall₂_same.mpr fun d _ => hR d)
  cases a with
  | create =>
      refine .inl ?_
      rw [show ((Act.create.effect v).push evs).client o = v.client o by
        simp [Act.effect, View.push, ho rfl]]
      exact hkeep fun _ => trivial
  | join c _ | acked c | retire c =>
      exact .inl (hset _ (fun _ _ => trivial) fun hc => hc ▸ hkeep fun _ => trivial)
  | opened c =>
      refine .inl (hset _ (fun hne _ => hne) fun hc => ?_)
      subst hc
      exact hup fun _ => .opened
  | restoreDrm c st =>
      refine .inl (hset _ (fun hne _ => hne) fun hc => ?_)
      subst hc
      exact hup fun _ => .restored
  | openFailed c ds =>
      refine .inl (hset _ (fun hne _ => hne) fun hc => ?_)
      subst hc
      exact (List.forall₂_map_left_iff.mp hg.2.2.2.2).imp fun _ _ => .failed
  | disabled c ds next =>
      exact .inl (hset _ (fun hne _ => hne) fun hc => hc ▸ hg.2.2.1.imp fun _ _ => .disabled)
  | dropDrm c ds =>
      refine .inl (hset _ (fun hne _ heq => absurd heq hne) fun hc => ?_)
      subst hc
      refine hg.2.2.imp fun d d' hd => ?_
      split_ifs at hd with htype
      · exact .dropped hd
      · exact hd.symm ▸ .same fun _ => htype
  | adjust c ds =>
      refine .inl (hset _ (fun _ _ => trivial) fun hc => ?_)
      subst hc
      exact hg.2.imp fun d d' hd => .counted hd
  | openDevice c d =>
      by_cases hc : c = o
      · subst hc
        exact .inr (.inl ⟨d, rfl, by simp [Act.effect, View.push]⟩)
      · exact .inl (hset _ (fun _ _ => trivial) fun heq => absurd heq hc)
  | closeDevice c i =>
      by_cases hc : c = o
      · subst hc
        exact .inr (.inr ⟨i, rfl, by simp [Act.effect, View.push]⟩)
      · exact .inl (hset _ (fun _ _ => trivial) fun heq => absurd heq hc)
  | _ => exact .inl (hkeep fun _ => trivial)

theorem Act.Trans.live (ht : a.Trans k v v') (ho : a = .create → o ≠ v.nextId)
    (hlive : o ∈ v'.live) : o ∈ v.live := by
  obtain ⟨evs, -, -, -, rfl⟩ := ht
  cases a with
  | create => exact (List.mem_cons.mp hlive).resolve_left (ho rfl)
  | free c | freeIdle c => exact List.mem_of_mem_erase hlive
  | _ => exact hlive

/-- Where a device comes from that is there after a transition. -/
theorem Act.Trans.device (ht : a.Trans k v v') {d' : SeatDevice} (hd' : d' ∈ (v'.client o).devices) :
    (o ∈ v'.live → o ∈ v.live)
      ∧ ((∃ d ∈ (v.client o).devices, a.Turns k o d d') ∨ a = .openDevice o d') := by
  by_cases hnew : a = .create ∧ o = v.nextId
  · obtain ⟨evs, -, -, -, rfl⟩ := ht
    obtain ⟨rfl, rfl⟩ := hnew
    simp [Act.effect, View.push] at hd'
  refine ⟨ht.live fun ha ho => hnew ⟨ha, ho⟩, ?_⟩
  rcases ht.devices fun ha ho => hnew ⟨ha, ho⟩ with hturns | ⟨d, rfl, heq⟩ | ⟨i, rfl, heq⟩
  · exact .inl (ListRel.exists_left hturns hd')
  · rw [heq] at hd'
    rcases List.mem_cons.mp hd' with rfl | hd'
    · exact .inr rfl
    · exact .inl ⟨d', hd', .same trivial⟩
  · rw [heq] at hd'
    exact .inl ⟨d', List.mem_of_mem_eraseIdx hd', .same trivial⟩

theorem Act.Turns.type {d d' : SeatDevice} (h : a.Turns k o d d') : d'.type = d.type := by
  cases h with
  | same => rfl
  | counted heq => rw [heq]
  | opened | restored => exact d.up_type
  | failed h => exact h.same.1.trans d.up_type
  | disabled h | dropped h => exact h.same.1

/-- A client that is ACTIVE and stays was so before, unless it was opened. -/
theorem Act.Trans.active (ht : a.Trans k v v') (hwf : v.WF) (ho : v'.seat.activeClient = some o)
    (hleave : v'.leaving ≠ some o) (hst : (v'.client o).state = active) :
    a = .opened o
      ∨ v.seat.activeClient = some o ∧ v.leaving ≠ some o ∧ (v.client o).state = active := by
  by_cases hopened : a = .opened o
  · exact .inl hopened
  have ht' := ht
  obtain ⟨evs, hg, -, -, rfl⟩ := ht
  have hactive : v.seat.activeClient = some o := by
    cases a with
    | opened c => exact absurd (congrArg Act.opened (Option.some.inj ho)) hopened
    | acked c | vacate c => cases ho
    | _ => exact ho
  have hne : o ≠ v.nextId :=
    Nat.ne_of_lt (hwf.fresh o ((hwf.live_iff o).mpr (.inr (hwf.active o hactive).1)))
  have hstate : (v.client o).state = active := by
    refine (ht'.state (fun hsets => ?_) fun _ => hne).symm.trans hst
    cases a with
    | opened c => exact hopened (congrArg Act.opened hsets)
    | acked c => cases ho
    | disabled c ds next =>
        obtain rfl : c = o := hsets
        simp [Act.effect, View.push] at hst
    | retire c => exact hg.2.1 ((show c = o from hsets) ▸ hactive)
    | _ => exact hsets
  refine .inr ⟨hactive, fun hleaving => ?_, hstate⟩
  cases a with
  | detach c => cases hg.1.symm.trans hleaving
  | shelve c | free c =>
      -- the client that has left is closed
      obtain rfl : c = o := Option.some.inj (hg.1.symm.trans hleaving)
      cases hg.2.1.symm.trans hstate
  | _ => exact hleave hleaving

end

end DdeSeatd
