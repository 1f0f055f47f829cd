import DdeSeatd.PollerSlots

set_option autoImplicit false

/-! # Signals and the poller

`signal_handler` sets `raised` of the sources of its signal and writes a byte to the pipe, so that
`poll` returns; `dispatch` empties the pipe and calls the callbacks of the sources that are raised.
The handler can run between any two steps. Wherever it runs, a delivery is answered by a callback
that starts after it, with one exception: `dispatch` resets `raised` after the callback, and so
drops a signal that came while the callback ran (`no_signal_lost_iff`).
-/

namespace DdeSeatd

/-! ## Watching deliveries -/

/-- The poller; the sources with a delivery since their callback last started; those of them that
had one when `poller_poll` was last called; and whether the pipe was emptied since that call. -/
structure SignalWatch where
  state : PollerState
  owed : SourceId → Bool
  due : SourceId → Bool
  drained : Bool

/-- The move delivers its signal to a registered source that is not destroyed. -/
def PollerState.delivers (st : PollerState) (x : SourceId) : PollerMove → Bool
  | .signal sig => decide (sig ∈ st.poller.installed)
      && st.poller.liveSignals.any fun bps => bps.id = x ∧ bps.signal = sig
  | _ => false

/-- The move starts the callback of the signal source. -/
def PollerState.starts (st : PollerState) (x : SourceId) (m : PollerMove) : Bool :=
  st.pc = .signalAt (some x) ∧ (st.step m).pc = .inSignal x

/-- The move calls `poll`. -/
def PollerState.polls (st : PollerState) (m : PollerMove) : Bool :=
  st.pc = .idle ∧ (st.step m).pc = .polling

/-- The move finds the pipe empty. -/
def PollerState.empties (st : PollerState) (m : PollerMove) : Bool :=
  st.pc = .draining ∧ (st.step m).pc ≠ .draining

def SignalWatch.step (w : SignalWatch) (m : PollerMove) : SignalWatch where
  state := w.state.step m
  owed x := (w.owed x || w.state.delivers x m) && !w.state.starts x m
  due x := (if w.state.polls m then w.owed x else w.due x) && !w.state.starts x m
  drained := if w.state.polls m then false else w.drained || w.state.empties m

def signalWatchRun (signalFd : Int) (moves : List PollerMove) : SignalWatch :=
  Run.run SignalWatch.step ⟨pollerStart signalFd, fun _ => false, fun _ => false, false⟩ moves

/-- The signal sources that the running loop is still to come to. -/
def PollerState.toCome (st : PollerState) : List SourceId :=
  let signals := st.poller.signals
  match st.pc with
  | .draining => signals.map EventSourceSignal.id
  | .signalAt cursor => Cursor.ahead EventSourceSignal.id signals cursor
  | .inSignal x | .resetting x =>
      Cursor.ahead EventSourceSignal.id signals (Cursor.next EventSourceSignal.id signals x)
  | .idle | .polling | .fdAt _ | .inFd _ => []

/-- `dispatch` is not before or in its loop over the signal sources. -/
def PollerPc.signalsOver : PollerPc → Bool
  | .draining | .signalAt _ | .inSignal _ | .resetting _ => false
  | _ => true

/-- No delivery is lost: for every source that is not destroyed, the handler is installed, a
delivery that is not answered yet is noted and will be seen, and those from before the last call of
`poller_poll` are answered once the pipe was emptied and the loop is over. -/
def SignalWatch.NoneLost (w : SignalWatch) : Prop :=
  ∀ bps ∈ w.state.poller.liveSignals,
    bps.signal ∈ w.state.poller.installed
      ∧ (w.owed bps.id = true →
          bps.raised = true ∧ (0 < w.state.poller.pipe ∨ bps.id ∈ w.state.toCome))
      ∧ (w.drained = true → w.state.pc.signalsOver = true → w.due bps.id = false)

/-- The move does not reset `raised` of a source whose signal was delivered since its callback
started. -/
def SignalWatch.ResetsInTime (w : SignalWatch) (m : PollerMove) : Prop :=
  ∀ x, m = .run → w.state.pc = .resetting x →
    x ∈ w.state.poller.liveSignals.map EventSourceSignal.id → w.owed x = false

/-! ## What a step does to the signal sources -/

section

variable {st : PollerState}

/-- Only `dispatch` moves on from the pipe or from the loop over the signal sources. -/
theorem PollerState.step_pc_of_ne_run {m : PollerMove} (hm : m ≠ .run)
    (hpc : st.pc = .draining ∨ ∃ cursor, st.pc = .signalAt cursor) : (st.step m).pc = st.pc := by
  rcases hpc with hpc | ⟨cursor, hpc⟩ <;> cases m with
  | run => exact absurd rfl hm
  | signal sig =>
      unfold PollerState.step
      dsimp only
      split_ifs <;> rfl
  | addFd _ _ | updateFd _ _ | destroyFd _ | addSignal _ | destroySignal _ | poll _ | pollFails _
  | pollReturns _ | callbackReturns => simp [PollerState.step, hpc, PollerPc.mayCall]

/-- Sources may change as long as they keep their addresses. -/
theorem PollerState.toCome_map {f : EventSourceSignal → EventSourceSignal}
    (hf : ∀ bps, (f bps).id = bps.id) {q : Poller} (hq : q.signals = st.poller.signals.map f) :
    { st with poller := q }.toCome = st.toCome := by
  unfold PollerState.toCome
  dsimp only
  rw [hq]
  cases st.pc with
  | idle | polling | fdAt _ | inFd _ => rfl
  | draining =>
      show (st.poller.signals.map f).map EventSourceSignal.id = _
      rw [List.map_map]
      exact List.map_congr_left fun bps _ => hf bps
  | signalAt cursor => exact Cursor.ahead_map hf _ cursor
  | inSignal x | resetting x =>
      show Cursor.ahead _ (st.poller.signals.map f) (Cursor.next _ (st.poller.signals.map f) x) = _
      rw [Cursor.next_map hf, Cursor.ahead_map hf]

/-- A source that is added in a callback is not ahead of the loop. -/
theorem PollerState.Inv.toCome_addSignal (h : st.Inv) (hpc : st.pc.mayCall = true) (sig : Int) :
    { st with poller := pollerAddSignal st.poller sig }.toCome = st.toCome := by
  have hc := h.cursor
  unfold PollerState.CursorOk at hc
  unfold PollerState.toCome
  dsimp only
  cases hst : st.pc with
  | idle | polling | fdAt _ | inFd _ => rfl
  | draining | signalAt _ | resetting _ =>
      rw [hst] at hpc
      cases hpc
  | inSignal x =>
      rw [hst] at hc
      have hne : ∀ y ∈ st.poller.signals.map EventSourceSignal.id, st.poller.nextId ≠ y := by
        intro y hy
        obtain ⟨bps, hbps, rfl⟩ := List.mem_map.mp hy
        exact (h.signalsFresh bps hbps).ne'
      have hnext : Cursor.next EventSourceSignal.id (pollerAddSignal st.poller sig).signals x
          = Cursor.next EventSourceSignal.id st.poller.signals x := if_neg (hne x hc.2)
      dsimp only
      rw [hnext]
      exact Cursor.ahead_cons fun y hy => hne y (Cursor.next_mem h.signalsNodup hc.2 hy)

/-- A step that neither delivers a signal nor belongs to `dispatch`: it can add a source, and
otherwise keeps the sources that it does not destroy, and what is to come. -/
structure PollerState.Keeps (st st' : PollerState) : Prop where
  live : ∀ bps ∈ st'.poller.liveSignals, bps ∈ st.poller.liveSignals
    ∨ bps.id = st.poller.nextId ∧ bps.signal ∈ st'.poller.installed
  installed : st.poller.installed ⊆ st'.poller.installed
  pipe : st'.poller.pipe = st.poller.pipe
  nextId : st.poller.nextId ≤ st'.poller.nextId
  toCome : st.toCome ⊆ st'.toCome

/-- A step that leaves what concerns signals alone. -/
theorem PollerState.Keeps.of_eq {st' : PollerState}
    (hlive : st'.poller.liveSignals = st.poller.liveSignals)
    (hinstalled : st'.poller.installed = st.poller.installed)
    (hpipe : st'.poller.pipe = st.poller.pipe) (hnext : st.poller.nextId ≤ st'.poller.nextId)
    (hcome : st.toCome ⊆ st'.toCome) : st.Keeps st' :=
  ⟨fun _ hb => .inl (hlive ▸ hb), hinstalled ▸ fun _ hx => hx, hpipe, hnext, hcome⟩

theorem PollerState.Keeps.refl (st : PollerState) : st.Keeps st :=
  .of_eq rfl rfl rfl le_rfl fun _ hx => hx

theorem PollerState.Keeps.addSignal (h : st.Inv) (hpc : st.pc.mayCall = true) (sig : Int) :
    st.Keeps { st with poller := pollerAddSignal st.poller sig } where
  live := by
    intro bps hbps
    obtain ⟨hmem, hlive⟩ := List.mem_filter.mp hbps
    rcases List.mem_cons.mp hmem with rfl | hmem
    · refine .inr ⟨rfl, ?_⟩
      show sig ∈ if sig ∈ st.poller.installed then _ else _
      split_ifs with hin
      · exact hin
      · exact List.mem_cons_self
    · exact .inl (List.mem_filter.mpr ⟨hmem, hlive⟩)
  installed := by
    intro x hx
    show x ∈ if sig ∈ st.poller.installed then _ else _
    split_ifs
    · exact hx
    · exact List.mem_cons_of_mem _ hx
  pipe := rfl
  nextId := Nat.le_succ _
  toCome := (h.toCome_addSignal hpc sig) ▸ fun _ hx => hx

/-- The handler stays installed: the source that is destroyed still counts. -/
theorem PollerState.Keeps.destroySignal (h : st.Inv) {x : SourceId}
    (hx : x ∈ st.poller.liveSignals.map EventSourceSignal.id) :
    st.Keeps { st with poller := eventSourceSignalDestroy st.poller x } := by
  obtain ⟨bps, hbps, rfl⟩ := List.mem_map.mp hx
  obtain ⟨hmem, halive⟩ := List.mem_filter.mp hbps
  have hrefcnt : (st.poller.signals.countP fun b => b.signal = bps.signal ∧ b.killed = false) ≠ 0 :=
    (List.countP_pos_iff.mpr ⟨bps, hmem, by simpa using halive⟩).ne'
  have hids : ∀ b : EventSourceSignal, EventSourceSignal.id
      (if b.id = bps.id then { b with killed := true } else b) = b.id := fun b => by
    split_ifs <;> rfl
  unfold eventSourceSignalDestroy
  rw [Cursor.find_eq h.signalsNodup hmem]
  dsimp only
  rw [if_neg hrefcnt]
  refine ⟨fun b hb => .inl ?_, fun _ hsig => hsig, rfl, le_rfl, ?_⟩
  · obtain ⟨hnew, hlive⟩ := List.mem_filter.mp hb
    obtain ⟨old, hold, rfl⟩ := List.mem_map.mp hnew
    split_ifs at hlive ⊢ with heq
    · simp at hlive
    · exact List.mem_filter.mpr ⟨hold, hlive⟩
  · intro y hy
    rw [PollerState.toCome_map hids (by rfl)]
    exact hy

theorem PollerState.Keeps.callPoll (hpc : st.pc = .idle) (realloc : Bool) :
    st.Keeps (st.callPoll realloc) := by
  have hcome : st.toCome = [] := by
    unfold PollerState.toCome
    rw [hpc]
  unfold PollerState.callPoll regenerate
  dsimp only
  by_cases hdirty : st.poller.dirty = true
  · rw [if_pos hdirty]
    by_cases hfails : st.poller.fdEventSources > st.poller.pollfds.length ∧ realloc = false
    · rw [if_pos hfails]
      exact .refl st
    · rw [if_neg hfails]
      refine .of_eq ?_ rfl rfl le_rfl (hcome ▸ List.nil_subset _)
      show List.filter _ (List.filter _ _) = List.filter _ _
      rw [List.filter_filter]
      simp only [Bool.and_self]
  · rw [if_neg hdirty]
    exact .of_eq rfl rfl rfl le_rfl (hcome ▸ List.nil_subset _)

theorem PollerState.Keeps.pollReturns (hpc : st.pc = .polling) (revents : List UInt16) :
    st.Keeps (st.pollReturns revents) := by
  have hcome : st.toCome = [] := by
    unfold PollerState.toCome
    rw [hpc]
  exact .of_eq rfl rfl rfl le_rfl (hcome ▸ List.nil_subset _)

/-- **What a step does that is not one of `dispatch` or a delivery.** -/
theorem PollerState.Inv.keeps (h : st.Inv) {m : PollerMove} (hrun : m ≠ .run)
    (hsignal : ∀ sig, m ≠ .signal sig) : st.Keeps (st.step m) := by
  unfold PollerState.step
  cases m with
  | run => exact absurd rfl hrun
  | signal sig => exact absurd rfl (hsignal sig)
  | addFd fd mask =>
      dsimp only
      split_ifs
      · exact .of_eq rfl rfl rfl (Nat.le_succ _) fun _ hx => hx
      · exact .refl st
  | updateFd x mask | destroyFd x =>
      dsimp only
      split_ifs
      · exact .of_eq rfl rfl rfl le_rfl fun _ hx => hx
      · exact .refl st
  | addSignal sig =>
      dsimp only
      split_ifs with hpc
      · exact .addSignal h hpc sig
      · exact .refl st
  | destroySignal x =>
      dsimp only
      split_ifs with hpc
      · exact .destroySignal h hpc.2
      · exact .refl st
  | poll realloc =>
      dsimp only
      split_ifs with hpc
      · exact .callPoll hpc realloc
      · exact .refl st
  | pollFails errno =>
      dsimp only
      split_ifs with hpc
      · refine .of_eq rfl rfl rfl le_rfl ?_
        unfold PollerState.toCome
        rw [hpc.1]
        exact List.nil_subset _
      · exact .refl st
  | pollReturns revents =>
      dsimp only
      split_ifs with hpc
      · exact .pollReturns hpc revents
      · exact .refl st
  | callbackReturns =>
      dsimp only
      cases hpc : st.pc with
      | inSignal x | inFd x =>
          refine .of_eq rfl rfl rfl le_rfl ?_
          unfold PollerState.toCome
          rw [hpc]
          exact fun _ hx => hx
      | idle | polling | draining | signalAt _ | resetting _ | fdAt _ => exact .refl st

end

/-! ## The invariant -/

/-- A delivery that is not answered is noted in its source, and its byte is in the pipe or the loop
is still to come to the source. -/
structure SignalWatch.Inv (w : SignalWatch) : Prop where
  state : w.state.Inv
  installed : ∀ bps ∈ w.state.poller.liveSignals, bps.signal ∈ w.state.poller.installed
  noted : ∀ bps ∈ w.state.poller.liveSignals, w.owed bps.id = true → bps.raised = true
  seen : ∀ bps ∈ w.state.poller.liveSignals, w.owed bps.id = true →
    0 < w.state.poller.pipe ∨ bps.id ∈ w.state.toCome
  fresh : ∀ x, w.owed x = true → x < w.state.poller.nextId
  dueOwed : ∀ x, w.due x = true → w.owed x = true
  answered : w.drained = true → ∀ bps ∈ w.state.poller.liveSignals, w.due bps.id = true →
    bps.id ∈ w.state.toCome

section

variable {w : SignalWatch} {m : PollerMove}

/-- Callbacks start, and the pipe is found empty, in `dispatch` only. -/
theorem PollerState.starts_of_ne_run (st : PollerState) (hm : m ≠ .run)
    (x : SourceId) : st.starts x m = false := by
  refine decide_eq_false ?_
  rintro ⟨hpc, hstart⟩
  rw [st.step_pc_of_ne_run hm (.inr ⟨_, hpc⟩), hpc] at hstart
  cases hstart

theorem PollerState.empties_of_ne_run (st : PollerState) (hm : m ≠ .run) :
    st.empties m = false := by
  refine decide_eq_false ?_
  rintro ⟨hpc, hempty⟩
  exact hempty ((st.step_pc_of_ne_run hm (.inl hpc)).trans hpc)

theorem SignalWatch.Inv.other (h : w.Inv) (hrun : m ≠ .run)
    (hsignal : ∀ sig, m ≠ .signal sig) : (w.step m).Inv := by
  have hk := h.state.keeps hrun hsignal
  have hdelivers : ∀ x, w.state.delivers x m = false := by
    intro x
    cases m with
    | signal sig => exact absurd rfl (hsignal sig)
    | run | addFd _ _ | updateFd _ _ | destroyFd _ | addSignal _ | destroySignal _ | poll _
    | pollFails _ | pollReturns _ | callbackReturns => rfl
  have howed : (w.step m).owed = w.owed := by
    funext x
    simp [SignalWatch.step, hdelivers x, w.state.starts_of_ne_run hrun x]
  have hdue : ∀ x, (w.step m).due x = if w.state.polls m then w.owed x else w.due x := by
    intro x
    simp [SignalWatch.step, w.state.starts_of_ne_run hrun x]
  have hdrained : (w.step m).drained = if w.state.polls m then false else w.drained := by
    simp [SignalWatch.step, w.state.empties_of_ne_run hrun]
  -- nothing is owed to a source that is just added
  have hold : ∀ bps ∈ (w.step m).state.poller.liveSignals, w.owed bps.id = true →
      bps ∈ w.state.poller.liveSignals := by
    intro bps hbps ho
    refine (hk.live bps hbps).resolve_right fun hnew => ?_
    exact (h.fresh bps.id ho).ne hnew.1
  refine ⟨h.state.step m, fun bps hbps => ?_, fun bps hbps ho => ?_, fun bps hbps ho => ?_,
    fun x hx => ?_, fun x hx => ?_, fun hd bps hbps hx => ?_⟩
  · rcases hk.live bps hbps with hbps | hnew
    · exact hk.installed (h.installed bps hbps)
    · exact hnew.2
  · rw [howed] at ho
    exact h.noted bps (hold bps hbps ho) ho
  · rw [howed] at ho
    rcases h.seen bps (hold bps hbps ho) ho with hpipe | hcome
    · exact .inl (hk.pipe.symm ▸ hpipe)
    · exact .inr (hk.toCome hcome)
  · rw [howed] at hx
    exact (h.fresh x hx).trans_le hk.nextId
  · rw [hdue] at hx
    rw [howed]
    split_ifs at hx
    · exact hx
    · exact h.dueOwed x hx
  · rw [hdrained] at hd
    rw [hdue] at hx
    split_ifs at hd hx
    exact hk.toCome (h.answered hd bps (hold bps hbps (h.dueOwed _ hx)) hx)

/-- **A delivery.** -/
theorem SignalWatch.Inv.signal (h : w.Inv) (sig : Int) : (w.step (.signal sig)).Inv := by
  have hpc : (w.state.step (.signal sig)).pc = w.state.pc := by
    unfold PollerState.step
    dsimp only
    split_ifs <;> rfl
  have hpolls : w.state.polls (.signal sig) = false := by
    refine decide_eq_false ?_
    rintro ⟨hidle, hpolling⟩
    rw [hpc, hidle] at hpolling
    cases hpolling
  have hrun : PollerMove.signal sig ≠ .run := by simp
  have howed : ∀ x, (w.step (.signal sig)).owed x
      = (w.owed x || w.state.delivers x (.signal sig)) := by
    intro x
    simp [SignalWatch.step, w.state.starts_of_ne_run hrun x]
  have hdue : (w.step (.signal sig)).due = w.due := by
    funext x
    simp [SignalWatch.step, hpolls, w.state.starts_of_ne_run hrun x]
  have hdrained : (w.step (.signal sig)).drained = w.drained := by
    simp [SignalWatch.step, hpolls, w.state.empties_of_ne_run hrun]
  by_cases hin : sig ∈ w.state.poller.installed
  · have hstate : (w.step (.signal sig)).state
        = { w.state with poller := signalHandler w.state.poller sig } := if_pos hin
    have hids : ∀ b : EventSourceSignal, EventSourceSignal.id
        (if b.signal = sig then { b with raised := true } else b) = b.id := fun b => by
      split_ifs <;> rfl
    have hcome : (w.step (.signal sig)).state.toCome = w.state.toCome := by
      rw [hstate]
      exact PollerState.toCome_map hids rfl
    -- each source of the signal is raised, the others are as before
    have hlive : ∀ bps ∈ (w.step (.signal sig)).state.poller.liveSignals,
        ∃ old ∈ w.state.poller.liveSignals, old.id = bps.id ∧ old.signal = bps.signal
          ∧ (bps.raised = true ∨ bps = old ∧ old.signal ≠ sig) := by
      intro bps hbps
      rw [hstate] at hbps
      obtain ⟨hnew, hlive⟩ := List.mem_filter.mp hbps
      obtain ⟨old, hold, rfl⟩ := List.mem_map.mp hnew
      by_cases heq : old.signal = sig
      · rw [if_pos heq] at hlive ⊢
        exact ⟨old, List.mem_filter.mpr ⟨hold, hlive⟩, rfl, rfl, .inl rfl⟩
      · rw [if_neg heq] at hlive ⊢
        exact ⟨old, List.mem_filter.mpr ⟨hold, hlive⟩, rfl, rfl, .inr ⟨rfl, heq⟩⟩
    refine ⟨h.state.step (.signal sig), fun bps hbps => ?_, fun bps hbps ho => ?_,
      fun bps hbps ho => .inl ?_,
      fun x hx => ?_, fun x hx => ?_, fun hd bps hbps hx => ?_⟩
    · obtain ⟨old, hold, -, hsig, -⟩ := hlive bps hbps
      rw [hstate, ← hsig]
      exact h.installed old hold
    · obtain ⟨old, hold, -, -, hraised | ⟨rfl, hne⟩⟩ := hlive bps hbps
      · exact hraised
      · -- it is not this signal's source, so the delivery is an older one
        rw [howed, Bool.or_eq_true] at ho
        refine h.noted bps hold (ho.resolve_right fun hdel => hne ?_)
        obtain ⟨b, hb, hbid, hbsig⟩ : ∃ b ∈ w.state.poller.liveSignals,
            b.id = bps.id ∧ b.signal = sig := by
          simpa [PollerState.delivers, hin] using hdel
        have hsame := List.inj_on_of_nodup_map h.state.signalsNodup
          (List.mem_filter.mp hb).1 (List.mem_filter.mp hold).1 hbid
        exact hsame ▸ hbsig
    · rw [hstate]
      show 0 < min (w.state.poller.pipe + 1) PIPE_CAPACITY
      exact lt_min (Nat.succ_pos _) (by decide)
    · rw [howed, Bool.or_eq_true] at hx
      rw [hstate]
      rcases hx with hx | hdel
      · exact h.fresh x hx
      · obtain ⟨b, hb, rfl, -⟩ : ∃ b ∈ w.state.poller.liveSignals, b.id = x ∧ b.signal = sig := by
          simpa [PollerState.delivers, hin] using hdel
        exact h.state.signalsFresh b (List.mem_filter.mp hb).1
    · rw [hdue] at hx
      rw [howed, h.dueOwed x hx, Bool.true_or]
    · obtain ⟨old, hold, hid, -, -⟩ := hlive bps hbps
      rw [hdrained] at hd
      rw [hdue, ← hid] at hx
      rw [hcome, ← hid]
      exact h.answered hd old hold hx
  · have hstate : (w.step (.signal sig)).state = w.state := if_neg hin
    have hsame : (w.step (.signal sig)).owed = w.owed := by
      funext x
      rw [howed]
      simp [PollerState.delivers, hin]
    obtain ⟨h1, h2, h3, h4, h5, h6, h7⟩ := h
    constructor <;> simpa only [hstate, hsame, hdue, hdrained]

/-- A step of `dispatch` that leaves the sources alone: what is still owed has to be seen, and what
is still due to come. -/
theorem SignalWatch.Inv.dispatch (h : w.Inv)
    (hsignals : w.state.dispatch.poller.signals = w.state.poller.signals)
    (hinstalled : w.state.dispatch.poller.installed = w.state.poller.installed)
    (hnext : w.state.dispatch.poller.nextId = w.state.poller.nextId)
    (hpolls : w.state.polls .run = false)
    (hcome : ∀ bps ∈ w.state.poller.liveSignals, bps.raised = true →
      w.state.starts bps.id .run = false → bps.id ∈ w.state.toCome →
      bps.id ∈ w.state.dispatch.toCome)
    (hpipe : ∀ bps ∈ w.state.poller.liveSignals, w.state.dispatch.poller.pipe = w.state.poller.pipe
      ∨ bps.id ∈ w.state.dispatch.toCome)
    (hempties : w.state.empties .run = true → ∀ bps ∈ w.state.poller.liveSignals,
      bps.id ∈ w.state.dispatch.toCome) : (w.step .run).Inv := by
  have hlive : (w.step .run).state.poller.liveSignals = w.state.poller.liveSignals := by
    show w.state.dispatch.poller.liveSignals = _
    unfold Poller.liveSignals
    rw [hsignals]
  have howed : ∀ x, (w.step .run).owed x = true →
      w.owed x = true ∧ w.state.starts x .run = false := by
    intro x hx
    simpa [SignalWatch.step, PollerState.delivers] using hx
  have hdue : ∀ x, (w.step .run).due x = true →
      w.due x = true ∧ w.state.starts x .run = false := by
    intro x hx
    simpa [SignalWatch.step, hpolls] using hx
  refine ⟨h.state.step .run, fun bps hbps => ?_, fun bps hbps ho => ?_, fun bps hbps ho => ?_,
    fun x hx => ?_, fun x hx => ?_, fun hd bps hbps hx => ?_⟩
  · rw [hlive] at hbps
    exact hinstalled.symm ▸ h.installed bps hbps
  · rw [hlive] at hbps
    exact h.noted bps hbps (howed _ ho).1
  · rw [hlive] at hbps
    obtain ⟨ho, hstart⟩ := howed _ ho
    rcases h.seen bps hbps ho with hbyte | hin
    · rcases hpipe bps hbps with heq | hin
      · exact .inl (lt_of_lt_of_eq hbyte heq.symm)
      · exact .inr hin
    · exact .inr (hcome bps hbps (h.noted bps hbps ho) hstart hin)
  · exact hnext.symm ▸ h.fresh x (howed x hx).1
  · obtain ⟨hx, hstart⟩ := hdue x hx
    simp [SignalWatch.step, h.dueOwed x hx, hstart]
  · rw [hlive] at hbps
    obtain ⟨hx, hstart⟩ := hdue _ hx
    have hcases : w.drained = true ∨ w.state.empties .run = true := by
      simpa [SignalWatch.step, hpolls] using hd
    rcases hcases with hd | he
    · exact hcome bps hbps (h.noted bps hbps (h.dueOwed _ hx)) hstart (h.answered hd bps hbps hx)
    · exact hempties he bps hbps

theorem SignalWatch.state_reset {x : SourceId} (hpc : w.state.pc = .resetting x) :
    (w.step .run).state = { w.state with
      poller := w.state.poller.modifySignal x fun bps => { bps with raised := false }
      pc := .signalAt (Cursor.next EventSourceSignal.id w.state.poller.signals x) } := by
  show w.state.dispatch = _
  unfold PollerState.dispatch
  rw [hpc]

/-- The reset of `raised`, where nothing was delivered since the callback started. -/
theorem SignalWatch.Inv.reset (h : w.Inv) {x : SourceId} (hpc : w.state.pc = .resetting x)
    (hquiet : x ∈ w.state.poller.liveSignals.map EventSourceSignal.id → w.owed x = false) :
    (w.step .run).Inv := by
  have hstate := w.state_reset hpc
  have hghosts : (w.step .run).owed = w.owed ∧ (w.step .run).due = w.due
      ∧ (w.step .run).drained = w.drained := by
    simp [SignalWatch.step, PollerState.starts, PollerState.polls, PollerState.empties,
      PollerState.delivers, hpc]
  obtain ⟨howed, hdue, hdrained⟩ := hghosts
  have hids : ∀ b : EventSourceSignal, EventSourceSignal.id
      (if b.id = x then { b with raised := false } else b) = b.id := fun b => by
    split_ifs <;> rfl
  have hcome : (w.step .run).state.toCome = w.state.toCome := by
    rw [hstate]
    unfold PollerState.toCome
    rw [hpc]
    exact Cursor.ahead_map hids _ _
  have hlive : ∀ bps ∈ (w.step .run).state.poller.liveSignals, ∃ old ∈ w.state.poller.liveSignals,
      old.id = bps.id ∧ old.signal = bps.signal ∧ (bps = old ∨ bps.id = x) := by
    intro bps hbps
    rw [hstate] at hbps
    obtain ⟨hnew, hlive⟩ := List.mem_filter.mp hbps
    obtain ⟨old, hold, rfl⟩ := List.mem_map.mp hnew
    by_cases heq : old.id = x
    · rw [if_pos heq] at hlive ⊢
      exact ⟨old, List.mem_filter.mpr ⟨hold, hlive⟩, rfl, rfl, .inr heq⟩
    · rw [if_neg heq] at hlive ⊢
      exact ⟨old, List.mem_filter.mpr ⟨hold, hlive⟩, rfl, rfl, .inl rfl⟩
  refine ⟨h.state.step .run, fun bps hbps => ?_, fun bps hbps ho => ?_, fun bps hbps ho => ?_,
    fun y hy => ?_, fun y hy => ?_, fun hd bps hbps hy => ?_⟩
  · obtain ⟨old, hold, -, hsig, -⟩ := hlive bps hbps
    rw [hstate, ← hsig]
    exact h.installed old hold
  · obtain ⟨old, hold, hid, -, rfl | heq⟩ := hlive bps hbps
    · exact h.noted bps hold (howed ▸ ho)
    · have hnone := hquiet (heq ▸ hid ▸ List.mem_map_of_mem hold)
      rw [howed, heq, hnone] at ho
      cases ho
  · obtain ⟨old, hold, hid, -, -⟩ := hlive bps hbps
    rw [howed, ← hid] at ho
    rw [hcome, ← hid, hstate]
    exact h.seen old hold ho
  · rw [howed] at hy
    rw [hstate]
    exact h.fresh y hy
  · rw [hdue] at hy
    rw [howed]
    exact h.dueOwed y hy
  · obtain ⟨old, hold, hid, -, -⟩ := hlive bps hbps
    rw [hdrained] at hd
    rw [hdue, ← hid] at hy
    rw [hcome, ← hid]
    exact h.answered hd old hold hy

/-- A turn of the loop over the signal sources passes over no live source that is raised. -/
theorem SignalWatch.Inv.dispatchSignal (h : w.Inv) {x : SourceId}
    (hpc : w.state.pc = .signalAt (some x)) : (w.step .run).Inv := by
  have hc := h.state.cursor
  unfold PollerState.CursorOk at hc
  rw [hpc] at hc
  have hx := hc.2 x rfl
  obtain ⟨bps, hbps, rfl⟩ := List.mem_map.mp hx
  have hahead : w.state.toCome = bps.id :: Cursor.ahead EventSourceSignal.id w.state.poller.signals
      (Cursor.next EventSourceSignal.id w.state.poller.signals bps.id) := by
    unfold PollerState.toCome
    rw [hpc]
    exact Cursor.ahead_next h.state.signalsNodup hx
  have hstate : w.state.dispatch = if bps.raised = false ∨ bps.killed = true then
      { w.state with pc := .signalAt (Cursor.next EventSourceSignal.id w.state.poller.signals bps.id) }
      else { w.state with pc := .inSignal bps.id } := by
    unfold PollerState.dispatch
    rw [hpc]
    show w.state.dispatchSignal bps.id = _
    unfold PollerState.dispatchSignal
    dsimp only
    rw [Cursor.find_eq h.state.signalsNodup hbps]
  have hpoller : w.state.dispatch.poller = w.state.poller := by
    rw [hstate]
    split_ifs <;> rfl
  have hnext : w.state.dispatch.toCome = Cursor.ahead EventSourceSignal.id w.state.poller.signals
      (Cursor.next EventSourceSignal.id w.state.poller.signals bps.id) := by
    rw [hstate]
    split_ifs <;> rfl
  refine h.dispatch (by rw [hpoller]) (by rw [hpoller]) (by rw [hpoller])
    (by simp [PollerState.polls, hpc]) (fun b hb hraised hstart hin => ?_)
    (fun _ _ => .inl (by rw [hpoller])) (fun he => by simp [PollerState.empties, hpc] at he)
  rw [hahead, List.mem_cons] at hin
  rw [hnext]
  refine hin.resolve_left fun heq => ?_
  -- the loop is at this very source, which is live and raised, so it calls its callback
  obtain ⟨hmem, halive⟩ := List.mem_filter.mp hb
  obtain rfl := List.inj_on_of_nodup_map h.state.signalsNodup hmem hbps heq
  have hcalls : ¬(b.raised = false ∨ b.killed = true) := by
    rintro (hno | hkilled)
    · rw [hraised] at hno
      cases hno
    · simp [hkilled] at halive
  rw [if_neg hcalls] at hstate
  refine absurd hstart ?_
  simp only [PollerState.starts, hpc, PollerState.step, hstate]
  simp

/-- **Every step of `dispatch`.** -/
theorem SignalWatch.Inv.run (h : w.Inv) (hresets : w.ResetsInTime .run) : (w.step .run).Inv := by
  cases hpc : w.state.pc with
  | resetting x => exact h.reset hpc (hresets x rfl hpc)
  | signalAt cursor =>
      cases cursor with
      | some x => exact h.dispatchSignal hpc
      | none =>
          have hstate : w.state.dispatch = { w.state with
              pc := .fdAt (Cursor.first EventSourceFd.id w.state.poller.fds) } := by
            unfold PollerState.dispatch
            rw [hpc]
          have hcome : w.state.toCome = [] := by
            unfold PollerState.toCome
            rw [hpc]
            rfl
          exact h.dispatch (by rw [hstate]) (by rw [hstate]) (by rw [hstate])
            (by simp [PollerState.polls, hpc]) (fun _ _ _ _ hin => by simp [hcome] at hin)
            (fun _ _ => .inl (by rw [hstate])) (fun he => by simp [PollerState.empties, hpc] at he)
  | draining =>
      have hall : w.state.dispatch.toCome = w.state.poller.signals.map EventSourceSignal.id
          ∧ w.state.dispatch.poller.signals = w.state.poller.signals
          ∧ w.state.dispatch.poller.installed = w.state.poller.installed
          ∧ w.state.dispatch.poller.nextId = w.state.poller.nextId := by
        unfold PollerState.dispatch
        rw [hpc]
        dsimp only
        split_ifs
        · exact ⟨Cursor.ahead_first _, rfl, rfl, rfl⟩
        · exact ⟨rfl, rfl, rfl, rfl⟩
      obtain ⟨hcome, hsignals, hinstalled, hnext⟩ := hall
      have hin : ∀ bps ∈ w.state.poller.liveSignals, bps.id ∈ w.state.dispatch.toCome := by
        intro bps hbps
        rw [hcome]
        exact List.mem_map_of_mem (List.mem_filter.mp hbps).1
      exact h.dispatch hsignals hinstalled hnext (by simp [PollerState.polls, hpc])
        (fun bps hbps _ _ _ => hin bps hbps) (fun bps hbps => .inr (hin bps hbps)) (fun _ => hin)
  | fdAt cursor =>
      have hpoller : w.state.dispatch.poller = w.state.poller := by
        unfold PollerState.dispatch
        rw [hpc]
        cases cursor with
        | none => rfl
        | some x =>
            show (w.state.dispatchFd x).poller = _
            unfold PollerState.dispatchFd
            dsimp only
            cases Cursor.find EventSourceFd.id w.state.poller.fds x with
            | none => rfl
            | some bpfd =>
                dsimp only
                cases bpfd.pollfdIdx with
                | none => rfl
                | some idx =>
                    dsimp only
                    split_ifs <;> rfl
      have hcome : w.state.toCome = [] := by
        unfold PollerState.toCome
        rw [hpc]
      exact h.dispatch (by rw [hpoller]) (by rw [hpoller]) (by rw [hpoller])
        (by simp [PollerState.polls, hpc]) (fun _ _ _ _ hin => by simp [hcome] at hin)
        (fun _ _ => .inl (by rw [hpoller])) (fun he => by simp [PollerState.empties, hpc] at he)
  | idle | polling | inSignal _ | inFd _ =>
      have hstate : w.state.dispatch = w.state := by
        unfold PollerState.dispatch
        rw [hpc]
      exact h.dispatch (by rw [hstate]) (by rw [hstate]) (by rw [hstate])
        (by simp [PollerState.polls, PollerState.step, hstate, hpc])
        (fun _ _ _ _ hin => by rwa [hstate]) (fun _ _ => .inl (by rw [hstate]))
        (fun he => by simp [PollerState.empties, hpc] at he)

theorem SignalWatch.Inv.step (h : w.Inv) (hresets : w.ResetsInTime m) :
    (w.step m).Inv := by
  by_cases hrun : m = .run
  · subst hrun
    exact h.run hresets
  · by_cases hsignal : ∃ sig, m = .signal sig
    · obtain ⟨sig, rfl⟩ := hsignal
      exact h.signal sig
    · exact h.other hrun fun sig hm => hsignal ⟨sig, hm⟩

theorem PollerState.toCome_of_signalsOver {st : PollerState} (h : st.pc.signalsOver = true) :
    st.toCome = [] := by
  unfold PollerState.toCome
  cases hpc : st.pc with
  | idle | polling | fdAt _ | inFd _ => rfl
  | draining | signalAt _ | inSignal _ | resetting _ =>
      rw [hpc] at h
      cases h

theorem SignalWatch.Inv.noneLost (h : w.Inv) : w.NoneLost := by
  intro bps hbps
  refine ⟨h.installed bps hbps, fun ho => ⟨h.noted bps hbps ho, h.seen bps hbps ho⟩,
    fun hd hover => ?_⟩
  cases hdue : w.due bps.id with
  | false => rfl
  | true =>
      have hin := h.answered hd bps hbps hdue
      rw [PollerState.toCome_of_signalsOver hover] at hin
      cases hin

/-- A reset that drops a delivery shows at once: the source is owed a callback and not raised. -/
theorem SignalWatch.resetsInTime_of_noneLost (hnone : (w.step m).NoneLost) :
    w.ResetsInTime m := by
  rintro x rfl hpc hx
  obtain ⟨bps, hbps, rfl⟩ := List.mem_map.mp hx
  obtain ⟨hmem, halive⟩ := List.mem_filter.mp hbps
  have hreset : { bps with raised := false } ∈ (w.step .run).state.poller.liveSignals := by
    rw [w.state_reset hpc]
    exact List.mem_filter.mpr ⟨List.mem_map.mpr ⟨bps, hmem, if_pos rfl⟩, halive⟩
  have howed : (w.step .run).owed bps.id = w.owed bps.id := by
    simp [SignalWatch.step, PollerState.starts, PollerState.delivers, hpc]
  cases ho : w.owed bps.id with
  | false => rfl
  | true => exact absurd ((hnone _ hreset).2.1 (howed.trans ho)).1 Bool.false_ne_true

end

/-! ## The theorem -/

/-- **Signals are lost exactly by late resets.** In every interleaving of deliveries with
`poller_poll`, `dispatch` and the callbacks, no delivery is lost as long as no step resets `raised`
of a source whose signal was delivered since its callback started; and such a step loses one. -/
theorem no_signal_lost_iff (signalFd : Int) (moves : List PollerMove) :
    (∀ pre, pre <+: moves → (signalWatchRun signalFd pre).NoneLost) ↔
      Run.Meets SignalWatch.step SignalWatch.ResetsInTime
        ⟨pollerStart signalFd, fun _ => false, fun _ => false, false⟩ moves := by
  refine Run.forall_prefix_iff_meets (I := SignalWatch.Inv) (fun _ h => h.noneLost)
    (fun _ _ h hresets => h.step hresets)
    (fun _ _ _ hnone => SignalWatch.resetsInTime_of_noneLost hnone) ?_ moves
  exact ⟨pollerStart_inv signalFd, fun _ hb => (by cases hb), fun _ hb => (by cases hb),
    fun _ hb => (by cases hb), fun _ hx => (by cases hx), fun _ hx => (by cases hx),
    fun hd => (by cases hd)⟩

/-- The signal comes a second time while its callback runs. The next `poller_poll` empties the pipe
and returns without a call of the callback. -/
theorem signal_lost_in_callback :
    let w := signalWatchRun 3 [.addSignal 10, .poll true, .signal 10, .pollReturns [POLLIN],
      .run, .run, .run, .signal 10, .callbackReturns, .run, .run, .run,
      .poll true, .pollReturns [POLLIN], .run, .run, .run, .run, .run]
    w.state.pc = .idle ∧ w.drained = true ∧ w.due 0 = true ∧ w.state.poller.pipe = 0
      ∧ w.state.poller.liveSignals = [⟨0, 10, false, false⟩] := by
  decide +kernel

end DdeSeatd
