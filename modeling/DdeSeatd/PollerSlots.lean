import DdeSeatd.Poller

set_option autoImplicit false

/-! # The slot table of the poller

`regenerate` gives every source that is not destroyed a slot in `pollfds`. Between two calls of it
the list of sources changes in three ways only: new sources without a slot come to its front,
sources are marked as destroyed, and masks change (`Slots`). So the slots of the sources behind the
new ones stay right, and `dispatch` finds in them what `poll` returned (`slot_table`).
-/

namespace DdeSeatd

/-! ## The table -/

/-- What `poll` is asked about. -/
def Poller.request (p : Poller) : List (Int × UInt16) :=
  (p.pollfds.take p.fdEventSources).map fun slot => (slot.fd, slot.events)

/-- What `poll` should be asked about: the signal pipe, and the sources that are alive. -/
def Poller.wanted (p : Poller) : List (Int × UInt16) :=
  (p.signalFd, POLLIN) :: p.live.map fun bpfd => (bpfd.fd, eventMaskToPollMask bpfd.mask)

/-- The indices from 1 on. -/
def slotIndices (n : Nat) : List (Option Nat) := (List.range' 1 n).map some

/-- The list of sources consists of `new` ones without a slot and of `old` ones with the slots from
1 on. If nothing has changed since `regenerate`, the table is what is wanted. -/
structure Slots (p : Poller) (new old : List EventSourceFd) : Prop where
  split : p.fds = new ++ old
  unslotted : ∀ bpfd ∈ new, bpfd.pollfdIdx = none
  slotted : old.map EventSourceFd.pollfdIdx = slotIndices old.length
  fds : ((p.pollfds.drop 1).take old.length).map Pollfd.fd = old.map EventSourceFd.fd
  clean : p.dirty = false → new = [] ∧ (∀ bpfd ∈ old, bpfd.killed = false) ∧ p.request = p.wanted

/-- The sources with slots, and the events that `poll` returned for them. -/
def Poller.returned (p : Poller) (old : List EventSourceFd) : List (SourceId × Int × UInt16) :=
  (old.zip (p.pollfds.drop 1)).map fun x => (x.1.id, x.1.fd, x.2.revents)

/-- A callback was called for a source that was alive, with its own fd and the events that `poll`
returned for it. -/
def FdCall.Right (polled : List (SourceId × Int × UInt16)) (call : FdCall) : Prop :=
  call.alive = true ∧ ∃ revents, revents ≠ 0 ∧ (call.source, call.fd, revents) ∈ polled
    ∧ call.mask = pollMaskToEventMask revents

/-- `dispatch` is running. -/
def PollerPc.dispatching : PollerPc → Bool
  | .idle | .polling => false
  | _ => true

/-- The loops stand at sources of their lists, and the loop over the fd sources does not come to a
source again whose callback it has called. -/
def PollerState.CursorOk (st : PollerState) : Prop :=
  let fds := st.poller.fds
  let signals := st.poller.signals.map EventSourceSignal.id
  match st.pc with
  | .idle | .polling => True
  | .draining => st.calls = []
  | .signalAt cursor => st.calls = [] ∧ ∀ x ∈ cursor, x ∈ signals
  | .inSignal x | .resetting x => st.calls = [] ∧ x ∈ signals
  | .fdAt cursor => (∀ x ∈ cursor, x ∈ fds.map EventSourceFd.id)
      ∧ ∀ call ∈ st.calls, call.source ∉ Cursor.ahead EventSourceFd.id fds cursor
  | .inFd x => x ∈ fds.map EventSourceFd.id ∧ ∀ call ∈ st.calls,
      call.source ∉ Cursor.ahead EventSourceFd.id fds (Cursor.next EventSourceFd.id fds x)

structure PollerState.Inv (st : PollerState) : Prop where
  nodup : (st.poller.fds.map EventSourceFd.id).Nodup
  fresh : ∀ bpfd ∈ st.poller.fds, bpfd.id < st.poller.nextId
  signalsNodup : (st.poller.signals.map EventSourceSignal.id).Nodup
  signalsFresh : ∀ bps ∈ st.poller.signals, bps.id < st.poller.nextId
  count : st.poller.fdEventSources = 1 + st.poller.live.length
  sound : st.sound = true
  polling : st.pc = .polling → st.poller.dirty = false
  slots : ∃ new old, Slots st.poller new old
    ∧ (st.pc.dispatching = true → st.polled = st.poller.returned old)
  once : (st.calls.map FdCall.source).Nodup
  right : ∀ call ∈ st.calls, call.Right st.polled
  cursor : st.CursorOk

/-! ## `regenerate` -/

/-- The loop gives the sources that are alive the slots from `idx` on. -/
theorem regenerateLoop_eq (fds : List EventSourceFd) (idx : Nat) (slots : List Pollfd)
    (hfit : idx + (fds.filter fun b => b.killed = false).length ≤ slots.length) :
    let live := fds.filter fun b => b.killed = false
    regenerateLoop fds idx slots
      = (live.mapIdx fun j b => { b with pollfdIdx := some (idx + j) }, idx + live.length,
          slots.take idx ++ (live.map fun b => ⟨b.fd, eventMaskToPollMask b.mask, 0⟩)
            ++ slots.drop (idx + live.length), true) := by
  induction fds generalizing idx slots with
  | nil => simp [regenerateLoop]
  | cons b fds ih =>
      unfold regenerateLoop
      cases hk : b.killed with
      | true =>
          have hfilter : (b :: fds).filter (fun b => b.killed = false)
              = fds.filter fun b => b.killed = false := by simp [hk]
          rw [hfilter] at hfit ⊢
          rw [if_pos rfl]
          exact ih idx slots hfit
      | false =>
          have hfilter : (b :: fds).filter (fun b => b.killed = false)
              = b :: fds.filter fun b => b.killed = false := by simp [hk]
          rw [hfilter, List.length_cons] at hfit
          have hlt : idx < slots.length := by omega
          have hrest := ih (idx + 1) (slots.set idx ⟨b.fd, eventMaskToPollMask b.mask, 0⟩)
            (by rw [List.length_set]; omega)
          dsimp only at hrest ⊢
          rw [if_neg Bool.false_ne_true, hrest, hfilter]
          set live := fds.filter fun b => b.killed = false
          have hset : slots.set idx ⟨b.fd, eventMaskToPollMask b.mask, 0⟩
              = slots.take idx ++ ⟨b.fd, eventMaskToPollMask b.mask, 0⟩ :: slots.drop (idx + 1) :=
            List.set_eq_take_append_cons_drop.trans (if_pos hlt)
          refine Prod.ext ?_ (Prod.ext ?_ (Prod.ext ?_ ?_))
          · have hshift : ∀ j, idx + 1 + j = idx + (j + 1) := fun j => by omega
            simp [List.mapIdx_cons, hshift, hk]
          · simp only [List.length_cons]
            omega
          · have htake : (slots.set idx ⟨b.fd, eventMaskToPollMask b.mask, 0⟩).take (idx + 1)
                = slots.take idx ++ [⟨b.fd, eventMaskToPollMask b.mask, 0⟩] := by
              rw [hset, List.take_append, List.length_take, Nat.min_eq_left (by omega)]
              simp
            have hdrop : (slots.set idx ⟨b.fd, eventMaskToPollMask b.mask, 0⟩).drop
                (idx + 1 + live.length) = slots.drop (idx + (live.length + 1)) := by
              rw [List.drop_set_of_lt (by omega)]
              congr 1
              omega
            simp [htake, hdrop]
          · simp [hlt]

/-- The sources with the slots from 1 on. -/
def numbered (fds : List EventSourceFd) : List EventSourceFd :=
  fds.mapIdx fun j b => { b with pollfdIdx := some (1 + j) }

@[simp] theorem length_numbered (fds : List EventSourceFd) : (numbered fds).length = fds.length :=
  List.length_mapIdx

/-- Numbering changes nothing but the index. -/
theorem map_numbered {β : Type} (fds : List EventSourceFd) {g : EventSourceFd → β}
    (hg : ∀ b idx, g { b with pollfdIdx := idx } = g b) : (numbered fds).map g = fds.map g := by
  refine List.ext_getElem (by simp) fun j h₁ h₂ => ?_
  simp [numbered, hg]

theorem slotted_numbered (fds : List EventSourceFd) :
    (numbered fds).map EventSourceFd.pollfdIdx = slotIndices (numbered fds).length := by
  refine List.ext_getElem (by simp [slotIndices]) fun j h₁ h₂ => ?_
  simp [numbered, slotIndices]

theorem mem_numbered {fds : List EventSourceFd} {b : EventSourceFd} (h : b ∈ numbered fds) :
    ∃ b' ∈ fds, b.id = b'.id ∧ b.killed = b'.killed := by
  obtain ⟨j, hj, rfl⟩ := List.mem_iff_getElem.mp h
  rw [length_numbered] at hj
  exact ⟨fds[j], List.getElem_mem hj, by simp [numbered], by simp [numbered]⟩

theorem live_numbered {p : Poller} {fds : List EventSourceFd} (h : ∀ b ∈ fds, b.killed = false)
    (hp : p.fds = numbered fds) : p.live = numbered fds := by
  unfold Poller.live
  rw [hp]
  refine List.filter_eq_self.mpr fun b hb => ?_
  obtain ⟨b', hb', -, hk⟩ := mem_numbered hb
  simp [hk, h b' hb']

theorem killed_of_mem_live {p : Poller} {b : EventSourceFd} (h : b ∈ p.live) : b.killed = false := by
  simpa using (List.mem_filter.mp h).2

/-- The table that the loop of `regenerate` leaves, if there is room for all slots. -/
theorem regenerateLoop_slots {p : Poller} {slots : List Pollfd}
    (hcount : p.fdEventSources = 1 + p.live.length) (hroom : p.fdEventSources ≤ slots.length) :
    let r := regenerateLoop p.fds 1 (slots.set 0 ⟨p.signalFd, POLLIN, 0⟩)
    r.1 = numbered p.live ∧ r.2.1 = p.fdEventSources ∧ r.2.2.2 = true
      ∧ ∀ q : Poller, q.fds = r.1 → q.pollfds = r.2.2.1 → q.fdEventSources = p.fdEventSources →
        q.signalFd = p.signalFd → Slots q [] (numbered p.live) := by
  intro r
  have hloop := regenerateLoop_eq p.fds 1 (slots.set 0 ⟨p.signalFd, POLLIN, 0⟩)
    (by rw [List.length_set]; exact hcount ▸ hroom)
  dsimp only at hloop
  rw [show (p.fds.filter fun b => b.killed = false) = p.live from rfl] at hloop
  have hhead : (slots.set 0 ⟨p.signalFd, POLLIN, 0⟩).take 1 = [⟨p.signalFd, POLLIN, 0⟩] := by
    cases slots with
    | nil => rw [List.length_nil] at hroom; omega
    | cons slot slots => rfl
  rw [hhead] at hloop
  refine ⟨congrArg Prod.fst hloop, ?_, congrArg (·.2.2.2) hloop, ?_⟩
  · rw [show r.2.1 = _ from congrArg (·.2.1) hloop, hcount]
  · intro q hfds hslots hsources hsignal
    have hfds' : q.fds = numbered p.live := hfds.trans (congrArg Prod.fst hloop)
    have hlive : q.live = numbered p.live := live_numbered (fun b => killed_of_mem_live) hfds'
    have hslots' : q.pollfds = _ := hslots.trans (congrArg (·.2.2.1) hloop)
    set slotsOf := p.live.map fun b => (⟨b.fd, eventMaskToPollMask b.mask, 0⟩ : Pollfd) with hslotsOf
    have hlen : slotsOf.length = p.live.length := List.length_map _
    refine ⟨by rw [hfds', List.nil_append], fun _ hb => (by cases hb), slotted_numbered _, ?_,
      fun _ => ⟨rfl, fun b hb => ?_, ?_⟩⟩
    · rw [hslots', length_numbered, map_numbered p.live (fun _ _ => rfl), ← hlen]
      simp [hslotsOf]
    · obtain ⟨b', hb', -, hk⟩ := mem_numbered hb
      rw [hk]
      exact killed_of_mem_live hb'
    · have htake : q.pollfds.take q.fdEventSources = ⟨p.signalFd, POLLIN, 0⟩ :: slotsOf := by
        rw [hslots', hsources, hcount, ← hlen, Nat.add_comm]
        simp
      rw [Poller.request, htake, Poller.wanted, hlive, hsignal, List.map_cons,
        map_numbered p.live (fun _ _ => rfl), hslotsOf, List.map_map]
      rfl

/-- **`regenerate` keeps its assertions and builds the table that is wanted**, if the number of
sources is right. -/
theorem regenerate_spec {p p' : Poller} {realloc ok : Bool}
    (hcount : p.fdEventSources = 1 + p.live.length) (h : regenerate p realloc = some (p', ok)) :
    ok = true ∧ p'.fds = numbered p.live ∧ p'.signals = p.liveSignals
      ∧ p'.fdEventSources = p.fdEventSources ∧ p'.nextId = p.nextId
      ∧ Slots { p' with dirty := false } [] (numbered p.live) := by
  unfold regenerate at h
  dsimp only at h
  by_cases hfail : p.fdEventSources > p.pollfds.length ∧ realloc = false
  · rw [if_pos hfail] at h
    cases h
  rw [if_neg hfail] at h
  set slots := if p.fdEventSources > p.pollfds.length then
      p.pollfds ++ List.replicate (p.fdEventSources - p.pollfds.length) ⟨0, 0, 0⟩
    else p.pollfds with hslots
  -- either the array has grown, or it was large enough
  have hroom : p.fdEventSources ≤ slots.length := by
    rw [hslots]
    split_ifs with hgrow
    · rw [List.length_append, List.length_replicate]
      omega
    · omega
  obtain ⟨hfds, hidx, hok, htable⟩ := regenerateLoop_slots hcount hroom
  obtain ⟨rfl, rfl⟩ := Prod.mk.inj (Option.some.inj h)
  refine ⟨?_, hfds, rfl, rfl, rfl, htable _ rfl rfl rfl rfl⟩
  rw [hidx, hok]
  simp
  omega

/-! ## Edits -/

section

variable {st : PollerState}

/-- A change that leaves the fd sources and their slots alone. -/
theorem PollerState.Inv.editRest (h : st.Inv) {q : Poller} (hfds : q.fds = st.poller.fds)
    (hslots : q.pollfds = st.poller.pollfds) (hsources : q.fdEventSources = st.poller.fdEventSources)
    (hsignalFd : q.signalFd = st.poller.signalFd) (hnext : st.poller.nextId ≤ q.nextId)
    (hdirty : q.dirty = false → st.poller.dirty = false)
    (hpolling : st.pc = .polling → q.dirty = false)
    (hnodup : (q.signals.map EventSourceSignal.id).Nodup)
    (hfresh : ∀ bps ∈ q.signals, bps.id < q.nextId)
    (hsub : st.poller.signals.map EventSourceSignal.id ⊆ q.signals.map EventSourceSignal.id) :
    { st with poller := q }.Inv := by
  have hlive : q.live = st.poller.live := by rw [Poller.live, hfds]; rfl
  obtain ⟨new, old, hs, hpolled⟩ := h.slots
  refine ⟨?_, fun b hb => ?_, hnodup, hfresh, ?_, h.sound, hpolling, ⟨new, old, ?_, fun hpc => ?_⟩,
    h.once, h.right, ?_⟩
  · show (q.fds.map _).Nodup
    rw [hfds]
    exact h.nodup
  · exact (h.fresh b (hfds ▸ hb)).trans_le hnext
  · show q.fdEventSources = 1 + q.live.length
    rw [hsources, hlive]
    exact h.count
  · refine ⟨hfds.trans hs.split, hs.unslotted, hs.slotted, hslots ▸ hs.fds, fun hd => ?_⟩
    obtain ⟨hnew, halive, htable⟩ := hs.clean (hdirty hd)
    refine ⟨hnew, halive, ?_⟩
    unfold Poller.request Poller.wanted at htable ⊢
    rw [hslots, hsources, hsignalFd, hlive]
    exact htable
  · show st.polled = q.returned old
    rw [hpolled hpc]
    unfold Poller.returned
    rw [hslots]
  · have hc := h.cursor
    unfold PollerState.CursorOk at hc ⊢
    dsimp only
    rw [hfds]
    cases hpc : st.pc with
    | idle | polling => trivial
    | draining | fdAt cursor | inFd x => rw [hpc] at hc; exact hc
    | signalAt cursor => rw [hpc] at hc; exact ⟨hc.1, fun x hx => hsub (hc.2 x hx)⟩
    | inSignal x => rw [hpc] at hc; exact ⟨hc.1, hsub hc.2⟩
    | resetting x => rw [hpc] at hc; exact ⟨hc.1, hsub hc.2⟩

/-- A change of fd sources that keeps their addresses, fds and slots. -/
theorem PollerState.Inv.editFds (h : st.Inv) {f : EventSourceFd → EventSourceFd}
    (hf : ∀ b, (f b).id = b.id ∧ (f b).fd = b.fd ∧ (f b).pollfdIdx = b.pollfdIdx) {n : Nat}
    (hn : n = 1 + ((st.poller.fds.map f).filter fun b => b.killed = false).length)
    (hpc : st.pc ≠ .polling) :
    { st with poller := { st.poller with fds := st.poller.fds.map f, dirty := true,
                                         fdEventSources := n } }.Inv := by
  have hids : ∀ bs : List EventSourceFd, (bs.map f).map EventSourceFd.id = bs.map EventSourceFd.id :=
    fun bs => by
      rw [List.map_map]
      exact List.map_congr_left fun b _ => (hf b).1
  obtain ⟨new, old, hs, hpolled⟩ := h.slots
  refine ⟨?_, fun b hb => ?_, h.signalsNodup, h.signalsFresh, hn, h.sound, fun hp => absurd hp hpc,
    ⟨new.map f, old.map f, ?_, fun hd => ?_⟩, h.once, h.right, ?_⟩
  · show ((st.poller.fds.map f).map _).Nodup
    rw [hids]
    exact h.nodup
  · obtain ⟨b', hb', rfl⟩ := List.mem_map.mp hb
    rw [(hf b').1]
    exact h.fresh b' hb'
  · refine ⟨?_, fun b hb => ?_, ?_, ?_, fun hd => (by cases hd)⟩
    · show st.poller.fds.map f = _
      rw [hs.split, List.map_append]
    · obtain ⟨b', hb', rfl⟩ := List.mem_map.mp hb
      rw [(hf b').2.2]
      exact hs.unslotted b' hb'
    · rw [List.map_map, List.length_map, ← hs.slotted]
      exact List.map_congr_left fun b _ => (hf b).2.2
    · rw [List.map_map, List.length_map]
      exact hs.fds.trans (List.map_congr_left fun b _ => (hf b).2.1.symm)
  · show st.polled = _
    rw [hpolled hd]
    unfold Poller.returned
    rw [List.zip_map_left, List.map_map]
    refine List.map_congr_left fun x _ => ?_
    simp [hf]
  · have hc := h.cursor
    have hkey : ∀ b, EventSourceFd.id (f b) = EventSourceFd.id b := fun b => (hf b).1
    unfold PollerState.CursorOk at hc ⊢
    dsimp only
    cases hpc' : st.pc with
    | idle | polling => trivial
    | draining | signalAt cursor | inSignal x | resetting x => rw [hpc'] at hc; exact hc
    | fdAt cursor =>
        rw [hpc'] at hc
        dsimp only
        rw [hids, Cursor.ahead_map hkey]
        exact hc
    | inFd x =>
        rw [hpc'] at hc
        dsimp only
        rw [hids, Cursor.next_map hkey, Cursor.ahead_map hkey]
        exact hc

/-- Destroying a source takes one away from those that are alive. -/
theorem length_live_kill {fds : List EventSourceFd} (hnodup : (fds.map EventSourceFd.id).Nodup)
    {x : SourceId} (hx : x ∈ (fds.filter fun b => b.killed = false).map EventSourceFd.id) :
    ((fds.map fun b => if b.id = x then { b with killed := true } else b).filter
        fun b => b.killed = false).length + 1
      = (fds.filter fun b => b.killed = false).length := by
  induction fds with
  | nil => cases hx
  | cons b fds ih =>
      obtain ⟨hb, hnodup⟩ := List.nodup_cons.mp hnodup
      by_cases hid : b.id = x
      · -- the source is this one, and no other has its address
        have hsame : (fds.map fun b => if b.id = x then { b with killed := true } else b) = fds := by
          refine (List.map_congr_left fun b' hb' => ?_).trans (List.map_id fds)
          refine if_neg fun heq => hb ?_
          rw [hid, ← heq]
          exact List.mem_map_of_mem hb'
        have halive : b.killed = false := by
          by_contra hk
          have hskip : (b :: fds).filter (fun b => b.killed = false)
              = fds.filter fun b => b.killed = false := by simp [hk]
          rw [hskip] at hx
          obtain ⟨b', hb', heq⟩ := List.mem_map.mp hx
          refine hb ?_
          rw [hid, ← heq]
          exact List.mem_map_of_mem (List.mem_filter.mp hb').1
        rw [List.map_cons, if_pos hid, hsame]
        simp [halive]
      · have hx' : x ∈ (fds.filter fun b => b.killed = false).map EventSourceFd.id := by
          cases hk : b.killed with
          | true => simpa [hk] using hx
          | false =>
              rw [List.filter_cons_of_pos (by simp [hk]), List.map_cons] at hx
              exact (List.mem_cons.mp hx).resolve_left (Ne.symm hid)
        have ih := ih hnodup hx'
        rw [List.map_cons, if_neg hid]
        cases hk : b.killed with
        | true => simpa [hk] using ih
        | false => simpa [hk] using ih

/-- **Adding a source** puts it in front of the list, without a slot. -/
theorem PollerState.Inv.addFd (h : st.Inv) (fd : Int) (mask : UInt32) (hpc : st.pc ≠ .polling) :
    { st with poller := pollerAddFd st.poller fd mask }.Inv := by
  set b : EventSourceFd := ⟨st.poller.nextId, fd, mask, false, none⟩ with hb
  have hnew : ∀ x ∈ st.poller.fds.map EventSourceFd.id, b.id ≠ x := by
    intro x hx heq
    obtain ⟨b', hb', rfl⟩ := List.mem_map.mp hx
    exact (h.fresh b' hb').ne heq.symm
  obtain ⟨new, old, hs, hpolled⟩ := h.slots
  refine ⟨?_, fun b' hb' => ?_, h.signalsNodup, fun bps hbps => ?_, ?_, h.sound,
    fun hp => absurd hp hpc, ⟨b :: new, old, ?_, hpolled⟩, h.once, h.right, ?_⟩
  · exact List.nodup_cons.mpr ⟨fun hmem => hnew _ hmem rfl, h.nodup⟩
  · rcases List.mem_cons.mp hb' with rfl | hb'
    · exact Nat.lt_succ_self _
    · exact (h.fresh b' hb').trans (Nat.lt_succ_self _)
  · exact (h.signalsFresh bps hbps).trans (Nat.lt_succ_self _)
  · show st.poller.fdEventSources + 1 = 1 + (List.filter _ (b :: st.poller.fds)).length
    rw [List.filter_cons_of_pos (by simp [hb]), List.length_cons, h.count]
    rfl
  · refine ⟨congrArg (b :: ·) hs.split, fun b' hb' => ?_, hs.slotted, hs.fds,
      fun hd => (by cases hd)⟩
    rcases List.mem_cons.mp hb' with rfl | hb'
    · rfl
    · exact hs.unslotted b' hb'
  · have hc := h.cursor
    unfold PollerState.CursorOk at hc ⊢
    dsimp only
    cases hpc' : st.pc with
    | idle | polling => trivial
    | draining | signalAt cursor | inSignal x | resetting x => rw [hpc'] at hc; exact hc
    | fdAt cursor =>
        rw [hpc'] at hc
        obtain ⟨hin, hahead⟩ := hc
        refine ⟨fun x hx => List.mem_cons_of_mem _ (hin x hx), fun call hcall => ?_⟩
        show _ ∉ Cursor.ahead _ (b :: st.poller.fds) cursor
        rw [Cursor.ahead_cons fun x hx => hnew x (hin x hx)]
        exact hahead call hcall
    | inFd x =>
        rw [hpc'] at hc
        obtain ⟨hin, hahead⟩ := hc
        refine ⟨List.mem_cons_of_mem _ hin, fun call hcall => ?_⟩
        have hnext : Cursor.next EventSourceFd.id (b :: st.poller.fds) x
            = Cursor.next EventSourceFd.id st.poller.fds x := if_neg (hnew x hin)
        show _ ∉ Cursor.ahead _ (b :: st.poller.fds) (Cursor.next _ (b :: st.poller.fds) x)
        rw [hnext, Cursor.ahead_cons fun y hy => hnew y (Cursor.next_mem h.nodup hin hy)]
        exact hahead call hcall

end

/-! ## The steps of `poller_poll` -/

section

variable {st : PollerState} {x : SourceId}

theorem PollerState.Inv.callPoll (h : st.Inv) (realloc : Bool) :
    (st.callPoll realloc).Inv := by
  unfold PollerState.callPoll
  cases hd : st.poller.dirty with
  | false =>
      rw [if_neg Bool.false_ne_true]
      obtain ⟨new, old, hs, -⟩ := h.slots
      exact ⟨h.nodup, h.fresh, h.signalsNodup, h.signalsFresh, h.count, h.sound, fun _ => hd,
        ⟨new, old, hs, fun hdisp => (by cases hdisp)⟩, h.once, h.right, trivial⟩
  | true =>
      rw [if_pos rfl]
      cases hr : regenerate st.poller realloc with
      | none => exact h
      | some r =>
          obtain ⟨p, ok⟩ := r
          obtain ⟨hok, hfds, hsignals, hsources, hnext, hs⟩ := regenerate_spec h.count hr
          have hlive : p.live = numbered st.poller.live :=
            live_numbered (fun b => killed_of_mem_live) hfds
          refine ⟨?_, fun b hb => ?_, ?_, fun bps hbps => ?_, ?_, ?_, fun _ => rfl,
            ⟨[], _, hs, fun hdisp => (by cases hdisp)⟩, h.once, h.right, trivial⟩
          · show (p.fds.map _).Nodup
            rw [hfds, map_numbered _ (fun _ _ => rfl)]
            exact h.nodup.sublist (List.filter_sublist.map _)
          · obtain ⟨b', hb', hid, -⟩ := mem_numbered (hfds ▸ hb)
            show b.id < p.nextId
            rw [hnext, hid]
            exact h.fresh b' (List.mem_filter.mp hb').1
          · show (p.signals.map _).Nodup
            rw [hsignals]
            exact h.signalsNodup.sublist (List.filter_sublist.map _)
          · show bps.id < p.nextId
            rw [hnext]
            have hmem : bps ∈ st.poller.liveSignals := hsignals ▸ hbps
            exact h.signalsFresh bps (List.mem_filter.mp hmem).1
          · show p.fdEventSources = 1 + p.live.length
            rw [hsources, hlive, length_numbered]
            exact h.count
          · show (st.sound && ok) = true
            rw [h.sound, hok]
            rfl

/-- **A slot belongs to its source**: it is in the table, has the fd of the source, and `poll`
returned its events for the source. -/
theorem Slots.slot {p : Poller} {new old : List EventSourceFd} (hs : Slots p new old)
    {b : EventSourceFd} (hb : b ∈ p.fds) {idx : Nat} (hidx : b.pollfdIdx = some idx) :
    ∃ slot, p.pollfds[idx]? = some slot ∧ slot.fd = b.fd
      ∧ (b.id, b.fd, slot.revents) ∈ p.returned old := by
  have hold : b ∈ old := by
    rw [hs.split] at hb
    rcases List.mem_append.mp hb with hnew | hold
    · rw [hs.unslotted b hnew] at hidx
      cases hidx
    · exact hold
  obtain ⟨j, hj⟩ := List.mem_iff_getElem?.mp hold
  have hjlt : j < old.length := (List.getElem?_eq_some_iff.mp hj).1
  obtain rfl : idx = 1 + j := by
    have hslot := congrArg (·[j]?) hs.slotted
    simp only [List.getElem?_map, hj, slotIndices, Option.map_some, hidx,
      List.getElem?_range' hjlt] at hslot
    simpa using hslot
  have hfd := congrArg (·[j]?) hs.fds
  simp only [List.getElem?_map, hj, List.getElem?_take_of_lt hjlt, List.getElem?_drop] at hfd
  obtain ⟨slot, hslot, hfd⟩ := Option.map_eq_some_iff.mp hfd
  refine ⟨slot, hslot, hfd, List.mem_map.mpr ⟨(b, slot), ?_, rfl⟩⟩
  refine List.mem_iff_getElem?.mpr ⟨j, ?_⟩
  rw [List.getElem?_zip_eq_some]
  exact ⟨hj, by rw [List.getElem?_drop]; exact hslot⟩

/-- The loop over the fd sources goes on. -/
theorem PollerState.Inv.advance (h : st.Inv) (hpc : st.pc = .fdAt (some x)) :
    { st with pc := .fdAt (Cursor.next EventSourceFd.id st.poller.fds x) }.Inv := by
  have hc := h.cursor
  unfold PollerState.CursorOk at hc
  rw [hpc] at hc
  obtain ⟨hin, hahead⟩ := hc
  have hx := hin x rfl
  obtain ⟨new, old, hs, hpolled⟩ := h.slots
  rw [hpc] at hpolled
  refine ⟨h.nodup, h.fresh, h.signalsNodup, h.signalsFresh, h.count, h.sound,
    fun hp => (by cases hp), ⟨new, old, hs, hpolled⟩, h.once, h.right,
    fun y hy => Cursor.next_mem h.nodup hx hy, fun call hcall hmem => ?_⟩
  refine hahead call hcall ?_
  rw [Cursor.ahead_next h.nodup hx]
  exact List.mem_cons_of_mem x hmem

/-- One turn of the loop over the fd sources. -/
theorem PollerState.Inv.dispatchFd (h : st.Inv) (hpc : st.pc = .fdAt (some x)) :
    (st.dispatchFd x).Inv := by
  have hc := h.cursor
  unfold PollerState.CursorOk at hc
  rw [hpc] at hc
  obtain ⟨hin, hahead⟩ := hc
  have hx := hin x rfl
  obtain ⟨b, hb, rfl⟩ := List.mem_map.mp hx
  obtain ⟨new, old, hs, hpolled⟩ := h.slots
  rw [hpc] at hpolled
  unfold PollerState.dispatchFd
  dsimp only
  rw [Cursor.find_eq h.nodup hb]
  dsimp only
  cases hidx : b.pollfdIdx with
  | none => exact h.advance hpc
  | some idx =>
      obtain ⟨slot, hslot, hfd, hret⟩ := hs.slot hb hidx
      have hget : st.poller.pollfds.getD idx ⟨0, 0, 0⟩ = slot := by
        rw [List.getD_eq_getElem?_getD, hslot]
        rfl
      have hlt : idx < st.poller.pollfds.length := (List.getElem?_eq_some_iff.mp hslot).1
      have hsound : (st.sound && decide (idx < st.poller.pollfds.length)) = st.sound := by
        simp [hlt]
      dsimp only
      rw [hget, hsound]
      split_ifs with hk hzero
      · exact h.advance hpc
      · exact h.advance hpc
      · -- the callback is called
        have hnot : ∀ call ∈ st.calls, call.source ≠ b.id := fun call hcall heq => by
          refine hahead call hcall ?_
          rw [heq, Cursor.ahead_next h.nodup hx]
          exact List.mem_cons_self
        have halive : b ∈ st.poller.live := List.mem_filter.mpr ⟨hb, by simpa using hk⟩
        refine ⟨h.nodup, h.fresh, h.signalsNodup, h.signalsFresh, h.count, h.sound,
          fun hp => (by cases hp), ⟨new, old, hs, fun _ => hpolled rfl⟩, ?_, fun call hcall => ?_,
          hx, fun call hcall => ?_⟩
        · rw [List.map_append, List.nodup_append]
          refine ⟨h.once, List.nodup_singleton _, fun y hy z hz => ?_⟩
          obtain ⟨call, hcall, rfl⟩ := List.mem_map.mp hy
          rw [List.map_singleton, List.mem_singleton] at hz
          rw [hz]
          exact hnot call hcall
        · rcases List.mem_append.mp hcall with hcall | hcall
          · exact h.right call hcall
          · rw [List.mem_singleton.mp hcall]
            refine ⟨decide_eq_true (List.mem_map_of_mem halive), slot.revents, hzero, ?_, rfl⟩
            show (b.id, slot.fd, slot.revents) ∈ st.polled
            rw [hfd, hpolled rfl]
            exact hret
        · have hdup := Cursor.ahead_nodup h.nodup (some b.id)
          rw [Cursor.ahead_next h.nodup hx] at hdup
          rcases List.mem_append.mp hcall with hcall | hcall
          · intro hmem
            refine hahead call hcall ?_
            rw [Cursor.ahead_next h.nodup hx]
            exact List.mem_cons_of_mem _ hmem
          · rw [List.mem_singleton.mp hcall]
            exact (List.nodup_cons.mp hdup).1

/-- `poll` fills in nothing but the events returned. -/
theorem map_setRevents {β : Type} (p : Poller) (revents : List UInt16) {g : Pollfd → β}
    (hg : ∀ slot r, g { slot with revents := r } = g slot) :
    (p.setRevents revents).pollfds.map g = p.pollfds.map g := by
  refine List.ext_getElem (by simp [Poller.setRevents]) fun j h₁ h₂ => ?_
  simp only [Poller.setRevents, List.getElem_map, List.getElem_mapIdx]
  split_ifs
  · exact hg _ _
  · rfl

/-- The return of `poll`. -/
theorem PollerState.Inv.pollReturns (h : st.Inv) (hpc : st.pc = .polling) (revents : List UInt16) :
    (st.pollReturns revents).Inv := by
  obtain ⟨new, old, hs, -⟩ := h.slots
  obtain ⟨rfl, halive, htable⟩ := hs.clean (h.polling hpc)
  have hfds : st.poller.fds = old := hs.split
  have hlive : st.poller.live = old := by
    unfold Poller.live
    rw [hfds]
    exact List.filter_eq_self.mpr fun b hb => by simp [halive b hb]
  set p := st.poller.setRevents revents with hp
  have hslots : Slots p [] old := by
    refine ⟨hs.split, hs.unslotted, hs.slotted, ?_, fun _ => ⟨rfl, halive, ?_⟩⟩
    · rw [List.map_take, List.map_drop, hp, map_setRevents _ _ (fun _ _ => rfl), ← List.map_drop,
        ← List.map_take]
      exact hs.fds
    · show (p.pollfds.take st.poller.fdEventSources).map _ = st.poller.wanted
      rw [List.map_take, hp, map_setRevents _ _ (fun _ _ => rfl), ← List.map_take]
      exact htable
  -- the events returned are in the slots
  have hpolled : (p.live.mapIdx fun j b => (b.id, b.fd, revents.getD (j + 1) 0)) = p.returned old := by
    have hroom : old.length ≤ st.poller.pollfds.length - 1 := by
      have hlen := congrArg List.length hs.fds
      simp only [List.length_map, List.length_take, List.length_drop] at hlen
      omega
    rw [show p.live = old from hlive]
    refine List.ext_getElem (by simp [Poller.returned, hp, Poller.setRevents]; omega) fun j h₁ h₂ => ?_
    have hj : j < old.length := by simpa using h₁
    have hasked : 1 + j < st.poller.fdEventSources := by
      rw [h.count, hlive]
      omega
    simp [Poller.returned, hp, Poller.setRevents, Nat.add_comm j 1, hasked]
  have hcursor : ∀ x ∈ Cursor.first EventSourceFd.id p.fds, x ∈ p.fds.map EventSourceFd.id :=
    fun x hx => Cursor.first_mem hx
  unfold PollerState.pollReturns
  dsimp only
  refine ⟨h.nodup, h.fresh, h.signalsNodup, h.signalsFresh, h.count, h.sound, fun hpoll => ?_,
    ⟨[], old, hslots, fun _ => hpolled⟩, .nil, fun _ hcall => (by cases hcall), ?_⟩
  · dsimp only at hpoll
    split_ifs at hpoll
  · unfold PollerState.CursorOk
    dsimp only
    split_ifs
    · rfl
    · exact ⟨hcursor, fun _ hcall => (by cases hcall)⟩

/-- One turn of the loop over the signal sources. -/
theorem PollerState.Inv.dispatchSignal (h : st.Inv)
    (hpc : st.pc = .signalAt (some x)) : (st.dispatchSignal x).Inv := by
  have hc := h.cursor
  unfold PollerState.CursorOk at hc
  rw [hpc] at hc
  obtain ⟨hcalls, hin⟩ := hc
  have hx := hin x rfl
  obtain ⟨bps, hbps, rfl⟩ := List.mem_map.mp hx
  obtain ⟨new, old, hs, hpolled⟩ := h.slots
  rw [hpc] at hpolled
  unfold PollerState.dispatchSignal
  dsimp only
  rw [Cursor.find_eq h.signalsNodup hbps]
  dsimp only
  split_ifs
  · exact ⟨h.nodup, h.fresh, h.signalsNodup, h.signalsFresh, h.count, h.sound,
      fun hp => (by cases hp), ⟨new, old, hs, fun _ => hpolled rfl⟩, h.once, h.right, hcalls,
      fun y hy => Cursor.next_mem h.signalsNodup hx hy⟩
  · exact ⟨h.nodup, h.fresh, h.signalsNodup, h.signalsFresh, h.count, h.sound,
      fun hp => (by cases hp), ⟨new, old, hs, fun _ => hpolled rfl⟩, h.once, h.right, hcalls, hx⟩

/-- A step of the program that leaves the poller alone. -/
theorem PollerState.Inv.goto (h : st.Inv) {pc : PollerPc}
    (hdisp : pc.dispatching = true → st.pc.dispatching = true) (hpoll : pc ≠ .polling)
    (hcursor : { st with pc := pc }.CursorOk) : { st with pc := pc }.Inv := by
  obtain ⟨new, old, hs, hpolled⟩ := h.slots
  exact ⟨h.nodup, h.fresh, h.signalsNodup, h.signalsFresh, h.count, h.sound,
    fun hp => absurd hp hpoll, ⟨new, old, hs, fun hd => hpolled (hdisp hd)⟩, h.once, h.right, hcursor⟩

/-- **One step of `dispatch`.** -/
theorem PollerState.Inv.dispatch (h : st.Inv) : st.dispatch.Inv := by
  have hc := h.cursor
  unfold PollerState.CursorOk at hc
  unfold PollerState.dispatch
  dsimp only
  cases hpc : st.pc with
  | idle | polling => exact h
  | inSignal x | inFd x => exact h
  | draining =>
      rw [hpc] at hc
      dsimp only
      split_ifs with hempty
      · exact h.goto (fun _ => by rw [hpc]; rfl) (by simp) ⟨hc, fun x hx => Cursor.first_mem hx⟩
      · have hread := h.editRest (q := { st.poller with pipe := st.poller.pipe - min 8 st.poller.pipe })
          rfl rfl rfl rfl le_rfl id h.polling h.signalsNodup h.signalsFresh (fun _ hx => hx)
        rwa [hpc] at hread
  | signalAt cursor =>
      cases cursor with
      | none =>
          rw [hpc] at hc
          refine h.goto (fun _ => by rw [hpc]; rfl) (by simp) ⟨fun x hx => Cursor.first_mem hx, ?_⟩
          rw [show _ = [] from hc.1]
          exact fun _ hcall => (by cases hcall)
      | some x => exact h.dispatchSignal hpc
  | resetting x =>
      rw [hpc] at hc
      obtain ⟨hcalls, hx⟩ := hc
      have hids : ∀ bps : EventSourceSignal, EventSourceSignal.id
          (if bps.id = x then { bps with raised := false } else bps) = bps.id := fun bps => by
        split_ifs <;> rfl
      have hmap : (st.poller.modifySignal x fun bps => { bps with raised := false }).signals.map
          EventSourceSignal.id = st.poller.signals.map EventSourceSignal.id := by
        unfold Poller.modifySignal
        rw [List.map_map]
        exact List.map_congr_left fun bps _ => hids bps
      have hedit := h.editRest (q := st.poller.modifySignal x fun bps => { bps with raised := false })
        rfl rfl rfl rfl le_rfl id h.polling (hmap ▸ h.signalsNodup) ?_ (hmap ▸ fun _ hx => hx)
      · refine hedit.goto (fun _ => by show st.pc.dispatching = true; rw [hpc]; rfl) (by simp)
          ⟨hcalls, fun y hy => ?_⟩
        show y ∈ (st.poller.modifySignal x _).signals.map EventSourceSignal.id
        rw [hmap]
        exact Cursor.next_mem h.signalsNodup hx hy
      · intro bps hbps
        obtain ⟨bps', hbps', rfl⟩ := List.mem_map.mp hbps
        rw [hids]
        exact h.signalsFresh bps' hbps'
  | fdAt cursor =>
      cases cursor with
      | none => exact h.goto (fun hd => (by cases hd)) (by simp) trivial
      | some x => exact h.dispatchFd hpc

/-- A change of signal sources that keeps their addresses. -/
theorem PollerState.Inv.editSignals (h : st.Inv) {f : EventSourceSignal → EventSourceSignal}
    (hf : ∀ bps, (f bps).id = bps.id) {q : Poller} (hfds : q.fds = st.poller.fds)
    (hslots : q.pollfds = st.poller.pollfds) (hsources : q.fdEventSources = st.poller.fdEventSources)
    (hsignalFd : q.signalFd = st.poller.signalFd) (hnext : q.nextId = st.poller.nextId)
    (hdirty : q.dirty = false → st.poller.dirty = false)
    (hpolling : st.pc = .polling → q.dirty = false) (hsignals : q.signals = st.poller.signals.map f) :
    { st with poller := q }.Inv := by
  have hmap : q.signals.map EventSourceSignal.id = st.poller.signals.map EventSourceSignal.id := by
    rw [hsignals, List.map_map]
    exact List.map_congr_left fun bps _ => hf bps
  refine h.editRest hfds hslots hsources hsignalFd hnext.ge hdirty hpolling (hmap ▸ h.signalsNodup)
    (fun bps hbps => ?_) (hmap ▸ fun _ hx => hx)
  obtain ⟨bps', hbps', rfl⟩ := List.mem_map.mp (hsignals ▸ hbps)
  rw [hf, hnext]
  exact h.signalsFresh bps' hbps'

theorem PollerPc.ne_polling {pc : PollerPc} (h : pc.mayCall = true) : pc ≠ .polling := by
  rintro rfl
  cases h

/-- **Every step keeps the invariant.** -/
theorem PollerState.Inv.step (h : st.Inv) (m : PollerMove) : (st.step m).Inv := by
  unfold PollerState.step
  cases m with
  | addFd fd mask =>
      dsimp only
      split_ifs with hpc
      · exact h.addFd fd mask (PollerPc.ne_polling hpc)
      · exact h
  | updateFd x mask =>
      dsimp only
      split_ifs with hpc
      · refine h.editFds (f := fun b => if b.id = x then { b with mask := mask } else b)
          (fun b => ?_) ?_ (PollerPc.ne_polling hpc.1)
        · split_ifs <;> exact ⟨rfl, rfl, rfl⟩
        · -- as many are alive as before
          rw [List.filter_map, List.length_map, h.count]
          congr 2
          refine List.filter_congr fun b _ => ?_
          simp only [Function.comp]
          split_ifs <;> rfl
      · exact h
  | destroyFd x =>
      dsimp only
      split_ifs with hpc
      · have hkill := length_live_kill h.nodup hpc.2
        refine h.editFds (f := fun b => if b.id = x then { b with killed := true } else b)
          (fun b => ?_) ?_ (PollerPc.ne_polling hpc.1)
        · split_ifs <;> exact ⟨rfl, rfl, rfl⟩
        · show st.poller.fdEventSources - 1 = 1 + _
          have hcount : st.poller.fdEventSources
              = 1 + (st.poller.fds.filter fun b => b.killed = false).length := h.count
          omega
      · exact h
  | addSignal sig =>
      dsimp only
      split_ifs with hpc
      · refine h.editRest rfl rfl rfl rfl (Nat.le_succ _) id
          (fun hp => absurd hp (PollerPc.ne_polling hpc)) ?_ (fun bps hbps => ?_)
          (fun _ hx => List.mem_cons_of_mem _ hx)
        · refine List.nodup_cons.mpr ⟨fun hmem => ?_, h.signalsNodup⟩
          obtain ⟨bps, hbps, heq⟩ := List.mem_map.mp hmem
          exact (h.signalsFresh bps hbps).ne heq
        · rcases List.mem_cons.mp hbps with rfl | hbps
          · exact Nat.lt_succ_self _
          · exact (h.signalsFresh bps hbps).trans (Nat.lt_succ_self _)
      · exact h
  | destroySignal x =>
      dsimp only
      split_ifs with hpc
      · unfold eventSourceSignalDestroy
        cases Cursor.find EventSourceSignal.id st.poller.signals x with
        | none => exact h
        | some bps =>
            refine h.editSignals (f := fun b => if b.id = x then { b with killed := true } else b)
              (fun b => ?_) rfl rfl rfl rfl rfl (fun hd => (by cases hd))
              (fun hp => absurd hp (PollerPc.ne_polling hpc.1)) rfl
            split_ifs <;> rfl
      · exact h
  | signal sig =>
      dsimp only
      split_ifs
      · refine h.editSignals
          (f := fun b => if b.signal = sig then { b with raised := true } else b)
          (fun b => ?_) rfl rfl rfl rfl rfl id h.polling rfl
        split_ifs <;> rfl
      · exact h
  | poll realloc =>
      dsimp only
      split_ifs
      · exact h.callPoll realloc
      · exact h
  | pollFails errno =>
      dsimp only
      split_ifs
      · exact h.goto (fun hd => (by cases hd)) (by simp) trivial
      · exact h
  | pollReturns revents =>
      dsimp only
      split_ifs with hpc
      · exact h.pollReturns hpc revents
      · exact h
  | run => exact h.dispatch
  | callbackReturns =>
      have hc := h.cursor
      unfold PollerState.CursorOk at hc
      dsimp only
      cases hpc : st.pc with
      | inSignal x =>
          rw [hpc] at hc
          exact h.goto (fun _ => by rw [hpc]; rfl) (by simp) hc
      | inFd x =>
          rw [hpc] at hc
          exact h.goto (fun _ => by rw [hpc]; rfl) (by simp)
            ⟨fun y hy => Cursor.next_mem h.nodup hc.1 hy, hc.2⟩
      | idle | polling | draining | signalAt _ | resetting _ | fdAt _ => exact h

end

theorem pollerStart_inv (signalFd : Int) : (pollerStart signalFd).Inv where
  nodup := .nil
  fresh := fun _ hb => (by cases hb)
  signalsNodup := .nil
  signalsFresh := fun _ hb => (by cases hb)
  count := rfl
  sound := rfl
  polling := fun hp => (by cases hp)
  slots := ⟨[], [], ⟨rfl, fun _ hb => (by cases hb), rfl, rfl, fun hd => (by cases hd)⟩,
    fun hd => (by cases hd)⟩
  once := .nil
  right := fun _ hcall => (by cases hcall)
  cursor := trivial

theorem pollerRun_inv (signalFd : Int) (moves : List PollerMove) : (pollerRun signalFd moves).Inv :=
  Run.run_invariant (P := PollerState.Inv) (fun _ m h => h.step m) (pollerStart_inv signalFd) moves

/-! ## The theorem -/

/-- The slot table is right. -/
structure PollerState.SlotTable (st : PollerState) : Prop where
  /-- One slot for the pipe, and one for each source that is not destroyed. -/
  count : st.poller.fdEventSources = 1 + (st.poller.fds.filter fun b => b.killed = false).length
  /-- No assertion has failed, nothing was written behind the end of `pollfds`, and no loop came to
  a source that was freed. -/
  sound : st.sound = true
  /-- When `poll` is called, slot 0 is the signal pipe, and the live sources have the slots from 1
  on, in the order of the list, each with its fd and its mask of the moment. -/
  atPoll : st.pc = .polling → st.poller.request = st.poller.wanted
    ∧ st.poller.live.map EventSourceFd.pollfdIdx = slotIndices st.poller.live.length
  /-- Since the last `poll`, callbacks were called for different sources, -/
  once : (st.calls.map FdCall.source).Nodup
  /-- each alive at the time, with its own fd and the events returned for it. -/
  right : ∀ call ∈ st.calls, call.Right st.polled

/-- **The slot table is right in every state** that the poller comes to, whatever sources are added,
changed and destroyed, also in callbacks, whatever `poll` returns, and whenever signals arrive. -/
theorem poller_slot_table (signalFd : Int) (moves : List PollerMove) :
    (pollerRun signalFd moves).SlotTable := by
  have h := pollerRun_inv signalFd moves
  refine ⟨h.count, h.sound, fun hpc => ?_, h.once, h.right⟩
  obtain ⟨new, old, hs, -⟩ := h.slots
  obtain ⟨rfl, halive, htable⟩ := hs.clean (h.polling hpc)
  refine ⟨htable, ?_⟩
  have hlive : (pollerRun signalFd moves).poller.live = old := by
    unfold Poller.live
    rw [show _ = old from hs.split]
    exact List.filter_eq_self.mpr fun b hb => by simp [halive b hb]
  rw [hlive]
  exact hs.slotted

/-- A callback destroys a source that has events too and adds one with the same fd: the new source
gets a slot of its own only for the next poll. -/
example :
    let moves : List PollerMove := [.addFd 10 EVENT_READABLE, .addFd 11 EVENT_READABLE, .poll true,
      .pollReturns [0, POLLIN, POLLIN], .run, .destroyFd 0, .addFd 10 EVENT_READABLE,
      .callbackReturns, .run, .run, .poll true]
    let st := pollerRun 5 moves
    st.pc = .polling ∧ st.calls = [⟨1, 11, EVENT_READABLE, true⟩]
      ∧ st.poller.request = [(5, POLLIN), (10, POLLIN), (11, POLLIN)] := by
  decide +kernel

end DdeSeatd
