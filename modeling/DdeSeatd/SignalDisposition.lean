import DdeSeatd.PollerSlots

set_option autoImplicit false

/-! # Signal dispositions follow the signal sources, or do not

A signal should be caught by `signal_handler` exactly as long as a source for it is registered.
Registering a source installs the handler. `event_source_signal_destroy` counts the sources of the
signal that are not destroyed before it marks its own as destroyed, so that the count is never 0
and the default disposition never comes back (`eventSourceSignalDestroy_installed`).

The handler and the sources therefore agree for as long as no source is destroyed that is the last
one of its signal, and no longer (`dispositions_follow_iff`).
-/

namespace DdeSeatd

/-! ## Registrations -/

/-- The sources that are not destroyed, each with its signal. -/
def Poller.registered (p : Poller) : List (SourceId × Int) :=
  p.liveSignals.map fun bps => (bps.id, bps.signal)

/-- `signal_handler` is installed exactly for the signals that have a source. -/
def Poller.Follows (p : Poller) : Prop :=
  ∀ sig, sig ∈ p.installed ↔ ∃ x, (x, sig) ∈ p.registered

/-- The step does not destroy the last source of a signal. -/
def PollerState.LeavesOne (st : PollerState) (m : PollerMove) : Prop :=
  ∀ x sig, m = .destroySignal x → st.pc.mayCall = true → (x, sig) ∈ st.poller.registered →
    ∃ y, y ≠ x ∧ (y, sig) ∈ st.poller.registered

theorem mem_registered {p : Poller} {x : SourceId} {sig : Int} :
    (x, sig) ∈ p.registered
      ↔ ∃ bps ∈ p.signals, bps.killed = false ∧ bps.id = x ∧ bps.signal = sig := by
  simp only [Poller.registered, Poller.liveSignals, List.mem_map, List.mem_filter,
    decide_eq_true_iff, Prod.mk.injEq, and_assoc]

/-- A change of the sources that keeps what they are registered for. -/
theorem registered_map {p q : Poller} {f : EventSourceSignal → EventSourceSignal}
    (hq : q.signals = p.signals.map f)
    (hf : ∀ bps, (f bps).id = bps.id ∧ (f bps).signal = bps.signal ∧ (f bps).killed = bps.killed) :
    q.registered = p.registered := by
  have hkilled : ((fun bps : EventSourceSignal => decide (bps.killed = false)) ∘ f)
      = fun bps => decide (bps.killed = false) := funext fun bps => by
    simp only [Function.comp, (hf bps).2.2]
  simp only [Poller.registered, Poller.liveSignals, hq, List.filter_map, List.map_map, hkilled]
  refine List.map_congr_left fun bps _ => ?_
  simp only [Function.comp, (hf bps).1, (hf bps).2.1]

section

variable {p : Poller}

theorem signalHandler_registered (sig : Int) :
    (signalHandler p sig).registered = p.registered :=
  registered_map rfl fun bps => by split_ifs <;> exact ⟨rfl, rfl, rfl⟩

/-- Taking the destroyed sources off the list. -/
theorem registered_filter {q : Poller}
    (hq : q.signals = p.signals.filter fun bps => bps.killed = false) :
    q.registered = p.registered := by
  simp only [Poller.registered, Poller.liveSignals, hq, List.filter_filter, Bool.and_self]

theorem pollerAddSignal_registered (sig : Int) :
    (pollerAddSignal p sig).registered = (p.nextId, sig) :: p.registered := rfl

theorem mem_pollerAddSignal_installed (sig sig' : Int) :
    sig' ∈ (pollerAddSignal p sig).installed ↔ sig' = sig ∨ sig' ∈ p.installed := by
  show sig' ∈ (if sig ∈ p.installed then _ else _) ↔ _
  split_ifs with hin
  · exact ⟨.inr, fun h => h.elim (fun heq => heq ▸ hin) id⟩
  · exact List.mem_cons

/-- The source that is being destroyed counts, so the handler is never uninstalled. -/
theorem eventSourceSignalDestroy_installed (hnodup : (p.signals.map EventSourceSignal.id).Nodup)
    {x : SourceId} (hx : x ∈ p.liveSignals.map EventSourceSignal.id) :
    (eventSourceSignalDestroy p x).installed = p.installed := by
  obtain ⟨bps, hbps, rfl⟩ := List.mem_map.mp hx
  obtain ⟨hmem, halive⟩ := List.mem_filter.mp hbps
  have hrefcnt : (p.signals.countP fun b => b.signal = bps.signal ∧ b.killed = false) ≠ 0 :=
    (List.countP_pos_iff.mpr ⟨bps, hmem, by simpa using halive⟩).ne'
  unfold eventSourceSignalDestroy
  rw [Cursor.find_eq hnodup hmem]
  dsimp only
  rw [if_neg hrefcnt]
  rfl

theorem mem_eventSourceSignalDestroy_registered
    (hnodup : (p.signals.map EventSourceSignal.id).Nodup) {x : SourceId}
    (hx : x ∈ p.liveSignals.map EventSourceSignal.id) (y : SourceId) (sig : Int) :
    (y, sig) ∈ (eventSourceSignalDestroy p x).registered ↔ y ≠ x ∧ (y, sig) ∈ p.registered := by
  have hsignals : (eventSourceSignalDestroy p x).signals
      = p.signals.map fun b => if b.id = x then { b with killed := true } else b := by
    obtain ⟨bps, hbps, rfl⟩ := List.mem_map.mp hx
    unfold eventSourceSignalDestroy
    rw [Cursor.find_eq hnodup (List.mem_filter.mp hbps).1]
    rfl
  rw [mem_registered, mem_registered, hsignals]
  constructor
  · rintro ⟨b, hb, halive, rfl, rfl⟩
    obtain ⟨old, hold, rfl⟩ := List.mem_map.mp hb
    -- a source with that address is destroyed now
    split_ifs at halive ⊢ with heq
    exact ⟨heq, old, hold, halive, rfl, rfl⟩
  · rintro ⟨hne, b, hb, halive, rfl, rfl⟩
    refine ⟨b, List.mem_map.mpr ⟨b, hb, if_neg hne⟩, halive, rfl, rfl⟩

end

/-! ## Steps -/

section

variable {st : PollerState}

/-- A step by which neither the sources nor the handlers change. -/
def PollerState.SameSignals (st st' : PollerState) : Prop :=
  st'.poller.registered = st.poller.registered ∧ st'.poller.installed = st.poller.installed

theorem PollerState.sameSignals_callPoll (realloc : Bool) :
    st.SameSignals (st.callPoll realloc) := by
  unfold PollerState.callPoll regenerate
  dsimp only
  by_cases hdirty : st.poller.dirty = true
  · rw [if_pos hdirty]
    by_cases hfails : st.poller.fdEventSources > st.poller.pollfds.length ∧ realloc = false
    · rw [if_pos hfails]
      exact ⟨rfl, rfl⟩
    · rw [if_neg hfails]
      exact ⟨registered_filter rfl, rfl⟩
  · rw [if_neg hdirty]
    exact ⟨rfl, rfl⟩

theorem PollerState.sameSignals_dispatchSignal (x : SourceId) :
    st.SameSignals (st.dispatchSignal x) := by
  unfold PollerState.dispatchSignal
  dsimp only
  cases Cursor.find EventSourceSignal.id st.poller.signals x with
  | none => exact ⟨rfl, rfl⟩
  | some bps =>
      dsimp only
      split_ifs <;> exact ⟨rfl, rfl⟩

theorem PollerState.sameSignals_dispatchFd (x : SourceId) : st.SameSignals (st.dispatchFd x) := by
  unfold PollerState.dispatchFd
  dsimp only
  cases Cursor.find EventSourceFd.id st.poller.fds x with
  | none => exact ⟨rfl, rfl⟩
  | some bpfd =>
      dsimp only
      cases bpfd.pollfdIdx with
      | none => exact ⟨rfl, rfl⟩
      | some idx =>
          dsimp only
          split_ifs <;> exact ⟨rfl, rfl⟩

theorem PollerState.sameSignals_dispatch : st.SameSignals st.dispatch := by
  unfold PollerState.dispatch
  dsimp only
  cases hpc : st.pc with
  | draining =>
      dsimp only
      split_ifs <;> exact ⟨rfl, rfl⟩
  | signalAt cursor =>
      cases cursor with
      | none => exact ⟨rfl, rfl⟩
      | some x => exact st.sameSignals_dispatchSignal x
  | resetting x =>
      exact ⟨registered_map rfl fun bps => by split_ifs <;> exact ⟨rfl, rfl, rfl⟩, rfl⟩
  | fdAt cursor =>
      cases cursor with
      | none => exact ⟨rfl, rfl⟩
      | some x => exact st.sameSignals_dispatchFd x
  | idle | polling | inSignal _ | inFd _ => exact ⟨rfl, rfl⟩

/-- **What a step does to the sources and the handlers**: only registering and destroying a source
change either. -/
theorem PollerState.step_sameSignals {m : PollerMove} (hadd : ∀ sig, m ≠ .addSignal sig)
    (hdestroy : ∀ x, m ≠ .destroySignal x) : st.SameSignals (st.step m) := by
  unfold PollerState.step
  cases m with
  | addSignal sig => exact absurd rfl (hadd sig)
  | destroySignal x => exact absurd rfl (hdestroy x)
  | addFd _ _ | updateFd _ _ | destroyFd _ | pollFails _ | pollReturns _ =>
      dsimp only
      split_ifs <;> exact ⟨rfl, rfl⟩
  | signal sig =>
      dsimp only
      split_ifs
      · exact ⟨signalHandler_registered sig, rfl⟩
      · exact ⟨rfl, rfl⟩
  | poll realloc =>
      dsimp only
      split_ifs
      · exact st.sameSignals_callPoll realloc
      · exact ⟨rfl, rfl⟩
  | run => exact st.sameSignals_dispatch
  | callbackReturns =>
      dsimp only
      cases hpc : st.pc with
      | inSignal x | inFd x => exact ⟨rfl, rfl⟩
      | idle | polling | draining | signalAt _ | resetting _ | fdAt _ => exact ⟨rfl, rfl⟩

theorem PollerState.SameSignals.follows {st' : PollerState} (h : st.SameSignals st')
    (hfollows : st.poller.Follows) : st'.poller.Follows := by
  unfold Poller.Follows
  rw [h.1, h.2]
  exact hfollows

theorem follows_addSignal (h : st.poller.Follows) (sig : Int) :
    (pollerAddSignal st.poller sig).Follows := by
  intro sig'
  rw [mem_pollerAddSignal_installed, pollerAddSignal_registered, h sig']
  simp only [List.mem_cons, Prod.mk.injEq]
  constructor
  · rintro (rfl | ⟨x, hx⟩)
    · exact ⟨_, .inl ⟨rfl, rfl⟩⟩
    · exact ⟨x, .inr hx⟩
  · rintro ⟨x, ⟨-, rfl⟩ | hx⟩
    · exact .inl rfl
    · exact .inr ⟨x, hx⟩

/-- Destroying a source keeps the agreement exactly if its signal has another one. -/
theorem follows_destroySignal_iff (hinv : st.Inv) (h : st.poller.Follows) {x : SourceId}
    (hx : x ∈ st.poller.liveSignals.map EventSourceSignal.id) :
    (eventSourceSignalDestroy st.poller x).Follows
      ↔ ∀ sig, (x, sig) ∈ st.poller.registered →
        ∃ y, y ≠ x ∧ (y, sig) ∈ st.poller.registered := by
  unfold Poller.Follows
  simp only [eventSourceSignalDestroy_installed hinv.signalsNodup hx,
    mem_eventSourceSignalDestroy_registered hinv.signalsNodup hx]
  constructor
  · intro hnew sig hreg
    exact (hnew sig).mp ((h sig).mpr ⟨x, hreg⟩)
  · intro hother sig
    rw [h sig]
    refine ⟨fun ⟨y, hy⟩ => ?_, fun ⟨y, _, hy⟩ => ⟨y, hy⟩⟩
    by_cases hyx : y = x
    · exact hother sig (hyx ▸ hy)
    · exact ⟨y, hyx, hy⟩

/-- **One step keeps the agreement exactly if it leaves every signal a source.** -/
theorem PollerState.step_follows_iff (hinv : st.Inv) (h : st.poller.Follows) (m : PollerMove) :
    (st.step m).poller.Follows ↔ st.LeavesOne m := by
  by_cases hadd : ∃ sig, m = .addSignal sig
  · obtain ⟨sig, rfl⟩ := hadd
    refine iff_of_true ?_ fun _ _ hm => by cases hm
    unfold PollerState.step
    dsimp only
    split_ifs
    · exact follows_addSignal h sig
    · exact h
  · by_cases hdestroy : ∃ x, m = .destroySignal x
    · obtain ⟨x, rfl⟩ := hdestroy
      unfold PollerState.step PollerState.LeavesOne
      dsimp only
      split_ifs with hpc
      · rw [follows_destroySignal_iff hinv h hpc.2]
        refine ⟨fun hother y sig hm _ hreg => ?_, fun hother sig => hother x sig rfl hpc.1⟩
        obtain rfl : x = y := by simpa using hm
        exact hother sig hreg
      · refine iff_of_true h fun y sig hm hmay hreg => absurd ⟨hmay, ?_⟩ hpc
        obtain rfl : x = y := by simpa using hm
        obtain ⟨bps, hmem, halive, hid, -⟩ := mem_registered.mp hreg
        exact List.mem_map.mpr ⟨bps, List.mem_filter.mpr ⟨hmem, by simpa using halive⟩, hid⟩
    · push Not at hadd hdestroy
      exact iff_of_true ((st.step_sameSignals hadd hdestroy).follows h) fun x _ hm _ =>
        absurd hm (hdestroy x)

end

/-! ## The theorem -/

/-- **Dispositions follow the sources exactly until the last source of a signal is destroyed.** In
every run, the handler is installed for exactly the signals that have a source, after every call,
if and only if no call destroys the last source of its signal. -/
theorem dispositions_follow_iff (signalFd : Int) (moves : List PollerMove) :
    (∀ pre, pre <+: moves → (pollerRun signalFd pre).poller.Follows) ↔
      Run.Meets PollerState.step PollerState.LeavesOne (pollerStart signalFd) moves := by
  refine Run.forall_prefix_iff_meets (I := fun st : PollerState => st.Inv ∧ st.poller.Follows)
    (P := fun st : PollerState => st.poller.Follows) (fun _ h => h.2)
    (fun st m h hone => ⟨h.1.step m, (st.step_follows_iff h.1 h.2 m).mpr hone⟩)
    (fun st m h hnew => (st.step_follows_iff h.1 h.2 m).mp hnew) ?_ moves
  refine ⟨pollerStart_inv signalFd, fun sig => ?_⟩
  simp [pollerStart, pollerInit, Poller.registered, Poller.liveSignals]

/-- One source is registered and destroyed: the handler stays, also after the next
`poller_poll` has freed the source. -/
theorem handler_outlives_source :
    let st := pollerRun 3 [.addSignal 10, .destroySignal 0, .poll true]
    st.poller.installed = [10] ∧ st.poller.signals = [] ∧ ¬ st.poller.Follows := by
  refine ⟨by decide +kernel, by decide +kernel, fun h => ?_⟩
  have hnone : (pollerRun 3 [.addSignal 10, .destroySignal 0, .poll true]).poller.registered = [] := by
    decide +kernel
  obtain ⟨x, hx⟩ := (h 10).mp (by decide +kernel)
  rw [hnone] at hx
  exact absurd hx List.not_mem_nil

end DdeSeatd
