/-
# What a monitor has recorded

A monitor is asked to abort, to terminate and to go back to idle through any of its handles
and through the guards of its phases, in any order. What it has recorded, and how it answers
the next request, depends on the requests since the last reset alone, and not on who made
them: it is the strongest of them, and only the first request of all is ever recorded.

* `Handles.Act` — what is done with the handles on a number of monitors
* `Handles.Act.asks`, `Handles.asked` — what one act, and a history, asks of one monitor
* `InterruptRequest.pending` — the requests since the last reset
* `Handles.monitor_act`, `Handles.monitor_of_history` — a monitor is where the requests made
  of it lead
* `Handles.ofHandle_of_history`, `Handles.lookup_beginPhase_of_history` — handles and guards
  stay on their monitors
* `Handles.shows_what_is_pending` — what a handle shows and answers after any history
-/

import Mathlib.Data.List.DropRight
import ClusterKeeper.Interrupt.Handles

namespace ClusterKeeper

/-! ### One monitor and the requests it was handed -/

/-- The requests since the last reset. -/
def InterruptRequest.pending (rs : List InterruptRequest) : List InterruptRequest :=
  rs.rtakeWhile (· ≠ .reset)

/-- What there is to show for requests none of which is a reset: the strongest of them. -/
def Signal.ofPending (rs : List InterruptRequest) : Signal :=
  if .terminate ∈ rs then .terminateRequested
  else if .abort ∈ rs then .abortRequested
  else .idle

namespace InterruptRequest

theorem pending_concat_reset (rs : List InterruptRequest) : pending (rs ++ [.reset]) = [] :=
  List.rtakeWhile_concat_neg _ _ _ (by simp)

theorem pending_concat {r : InterruptRequest} (hr : r ≠ .reset) (rs : List InterruptRequest) :
    pending (rs ++ [r]) = pending rs ++ [r] :=
  List.rtakeWhile_concat_pos _ _ _ (by simpa using hr)

theorem ne_reset_of_mem_pending {r : InterruptRequest} {rs : List InterruptRequest}
    (hr : r ∈ pending rs) : r ≠ .reset := by
  simpa using List.mem_rtakeWhile_imp hr

/-- Nothing is shown exactly if nothing is pending. -/
theorem ofPending_pending_eq_idle_iff (rs : List InterruptRequest) :
    Signal.ofPending (pending rs) = .idle ↔ pending rs = [] := by
  constructor
  · intro idle
    refine List.eq_nil_iff_forall_not_mem.2 fun r hr => ?_
    unfold Signal.ofPending at idle
    cases r with
    | abort => split at idle <;> simp_all
    | terminate => simp [hr] at idle
    | reset => exact ne_reset_of_mem_pending hr rfl
  · intro nothing
    simp [Signal.ofPending, nothing]

end InterruptRequest

namespace Monitor

open InterruptRequest

/-- One more request to abort shows only where nothing was shown before. -/
theorem signal_requestAbort (m : Monitor) :
    m.requestAbort.2.signal = if m.signal = .idle then .abortRequested else m.signal := by
  unfold requestAbort
  split <;> rfl

/-- A monitor shows the strongest of the requests since the last reset. -/
theorem signal_of_requests (rs : List InterruptRequest) :
    (rs.foldl request {}).signal = Signal.ofPending (pending rs) := by
  -- by the last request, since a reset there leaves nothing of those before it
  induction rs using List.reverseRecOn with
  | nil => rfl
  | append_singleton rs r ih =>
    rw [List.foldl_concat]
    cases r with
    | reset =>
      rw [pending_concat_reset]
      rfl
    | terminate =>
      rw [pending_concat (by decide)]
      simp [request, requestTerminate, send, Signal.ofPending]
    | abort =>
      rw [pending_concat (by decide), request, signal_requestAbort, ih]
      -- a terminate that is pending is not taken back
      by_cases terminated : .terminate ∈ pending rs
      · simp [Signal.ofPending, terminated]
      · by_cases aborted : .abort ∈ pending rs <;>
          simp [Signal.ofPending, terminated, aborted]

/-- Only the first request of all is recorded when it asks to abort. -/
theorem escalation_abort (m : Monitor) :
    m.escalation? .abort =
      some (if m.signal = .idle then .recorded .abortRequested else .forceExit) := by
  simp only [escalation?, requestAbort]
  split <;> rfl

end Monitor

namespace Handles

/-! ### What is done with handles -/

/-- Something done with the handles on a number of monitors, the guards that hold their
phases open and the watchers that look at them. -/
inductive Act where
  | request (handle : Nat) (r : InterruptRequest)
  | clone (handle : Nat)
  | detached
  | beginPhase (handle : Nat) (guard : String)
  | endPhase (guard : String)
  | watch (handle : Nat) (watcher : String)
  | look (watcher : String)
  deriving DecidableEq, Repr

/-- What an act makes of the handles. -/
def act (h : Handles) : Act → Handles
  | .request handle r => (h.request handle r).2
  | .clone handle => h.clone handle
  | .detached => h.detached
  | .beginPhase handle guard => h.beginPhase handle guard
  | .endPhase guard => (h.endPhase guard).2
  | .watch handle watcher => h.watch handle watcher
  | .look watcher => (h.look watcher).2

/-- What an act asks of the monitor at a position. The phase that a guard holds open ends
where it is let go, which is also where its name is given to another phase. -/
def Act.asks (h : Handles) (i : Nat) : Act → List InterruptRequest
  | .request handle r => if h.ofHandle handle = i then [r] else []
  | .beginPhase _ guard | .endPhase guard =>
    if h.guards.lookup guard = some i then [.reset] else []
  | .clone _ | .detached | .watch .. | .look _ => []

/-- The guard that an act begins or ends a phase with. -/
def Act.guard? : Act → Option String
  | .beginPhase _ guard | .endPhase guard => some guard
  | .request .. | .clone _ | .detached | .watch .. | .look _ => none

/-- What a history asks of the monitor at a position, in order. -/
def asked (i : Nat) : Handles → List Act → List InterruptRequest
  | _, [] => []
  | h, a :: acts => a.asks h i ++ asked i (h.act a) acts

/-! ### Handles and guards are on monitors that exist -/

/-- Every handle and every guard is on a monitor that exists, and there is one at all. -/
structure Sound (h : Handles) : Prop where
  handles : ∀ i ∈ h.handles, i < h.monitors.length
  guards : ∀ g ∈ h.guards, g.2 < h.monitors.length
  exists_monitor : 0 < h.monitors.length

variable {h : Handles} {i j handle : Nat} {guard : String}

theorem Sound.single (listen : Option SignalPolicy) : (single listen).Sound where
  handles := by simp [Handles.single]
  guards := by simp [Handles.single]
  exists_monitor := by simp [Handles.single]

theorem Sound.ofHandle_lt (sound : h.Sound) (handle : Nat) :
    h.ofHandle handle < h.monitors.length := by
  unfold ofHandle
  rw [List.getD_eq_getElem?_getD]
  cases found : h.handles[handle]? with
  | none => exact sound.exists_monitor
  | some i => exact sound.handles i (List.mem_of_getElem? found)

theorem Sound.lookup_lt (sound : h.Sound) (found : h.guards.lookup guard = some i) :
    i < h.monitors.length := by
  obtain ⟨before, later, split, -⟩ := List.lookup_eq_some_iff.1 found
  exact sound.guards (guard, i) (by simp [split])

/-- A guard that holds no phase open is let go without a trace. -/
theorem endPhase_of_lookup_none (free : h.guards.lookup guard = none) :
    h.endPhase guard = (false, h) := by
  simp [endPhase, free]

theorem endPhase_of_lookup_some (held : h.guards.lookup guard = some i) :
    (h.endPhase guard).2 =
      { h.modifyAt i Monitor.reset with guards := h.guards.filter (·.1 != guard) } := by
  simp [endPhase, held]

theorem handles_endPhase (h : Handles) (guard : String) :
    (h.endPhase guard).2.handles = h.handles := by
  unfold endPhase
  split <;> rfl

theorem length_monitors_endPhase (h : Handles) (guard : String) :
    (h.endPhase guard).2.monitors.length = h.monitors.length := by
  unfold endPhase
  split <;> simp [modifyAt]

theorem mem_of_mem_guards_endPhase {g : String × Nat}
    (hg : g ∈ (h.endPhase guard).2.guards) : g ∈ h.guards := by
  unfold endPhase at hg
  split at hg
  · exact hg
  · exact List.mem_of_mem_filter hg

theorem Sound.endPhase (sound : h.Sound) (guard : String) : (h.endPhase guard).2.Sound where
  handles := by
    rw [handles_endPhase, length_monitors_endPhase]
    exact sound.handles
  guards g hg := by
    rw [length_monitors_endPhase]
    exact sound.guards g (mem_of_mem_guards_endPhase hg)
  exists_monitor := by
    rw [length_monitors_endPhase]
    exact sound.exists_monitor

theorem monitors_look (h : Handles) (watcher : String) :
    (h.look watcher).2.monitors = h.monitors := by
  unfold look
  split <;> rfl

theorem handles_look (h : Handles) (watcher : String) :
    (h.look watcher).2.handles = h.handles := by
  unfold look
  split <;> rfl

theorem guards_look (h : Handles) (watcher : String) :
    (h.look watcher).2.guards = h.guards := by
  unfold look
  split <;> rfl

/-- Whatever is done leaves the handles and the guards on monitors that exist. -/
theorem Sound.act (sound : h.Sound) (a : Act) : (h.act a).Sound := by
  cases a with
  | request handle r =>
    have kept : (h.act (.request handle r)).monitors.length = h.monitors.length := by
      simp [Handles.act, Handles.request, modifyAt]
    exact ⟨kept ▸ sound.handles, kept ▸ sound.guards, kept ▸ sound.exists_monitor⟩
  | clone handle =>
    refine ⟨fun i hi => ?_, sound.guards, sound.exists_monitor⟩
    obtain old | rfl : i ∈ h.handles ∨ i = h.ofHandle handle := by
      simpa [Handles.act, Handles.clone] using hi
    · exact sound.handles i old
    · exact sound.ofHandle_lt handle
  | detached =>
    have grown : (h.act .detached).monitors.length = h.monitors.length + 1 := by
      simp [Handles.act, Handles.detached]
    refine ⟨fun i hi => ?_, fun g hg => ?_, by omega⟩
    · obtain old | rfl : i ∈ h.handles ∨ i = h.monitors.length := by
        simpa [Handles.act, Handles.detached] using hi
      · have := sound.handles i old
        omega
      · omega
    · have := sound.guards g hg
      omega
  | beginPhase handle guard =>
    have ended := sound.endPhase guard
    refine ⟨ended.handles, fun g hg => ?_, ended.exists_monitor⟩
    obtain rfl | old := List.mem_cons.1 hg
    · exact (sound.ofHandle_lt handle).trans_eq (length_monitors_endPhase h guard).symm
    · exact ended.guards g old
  | endPhase guard => exact sound.endPhase guard
  | watch handle watcher => exact ⟨sound.handles, sound.guards, sound.exists_monitor⟩
  | look watcher =>
    unfold Handles.act
    constructor
    · rw [handles_look, monitors_look]
      exact sound.handles
    · rw [guards_look, monitors_look]
      exact sound.guards
    · rw [monitors_look]
      exact sound.exists_monitor

/-! ### A monitor is where the requests made of it lead -/

/-- Monitors that are the same show the same at every position. -/
theorem monitorAt_congr {h' : Handles} (same : h'.monitors = h.monitors) :
    h'.monitorAt i = h.monitorAt i := by
  rw [monitorAt, monitorAt, same]

theorem monitor_modifyAt (hi : i < h.monitors.length) (f : Monitor → Monitor) :
    ((h.modifyAt i f).monitorAt j).monitor =
      if i = j then f (h.monitorAt j).monitor else (h.monitorAt j).monitor := by
  simp only [monitorAt, modifyAt, List.getD_eq_getElem?_getD, List.getElem?_modify]
  split
  · subst j
    simp [hi]
  · simp

/-- A monitor that is made afresh is what was to be found at its position before. -/
theorem monitorAt_detached (h : Handles) : h.detached.monitorAt i = h.monitorAt i := by
  simp only [monitorAt, detached, List.getD_eq_getElem?_getD]
  -- A position that has no monitor reads as an idle one.
  rcases lt_trichotomy i h.monitors.length with old | rfl | beyond
  · rw [List.getElem?_append_left old]
  · simp
  · rw [List.getElem?_eq_none beyond.le, List.getElem?_eq_none]
    simpa using Nat.succ_le_of_lt beyond

/-- The end of a phase resets the monitor that it was begun on, and no other. -/
theorem monitor_endPhase (sound : h.Sound) (guard : String) :
    ((h.endPhase guard).2.monitorAt i).monitor =
      ((Act.endPhase guard).asks h i).foldl Monitor.request (h.monitorAt i).monitor := by
  cases held : h.guards.lookup guard with
  | none => simp [endPhase_of_lookup_none held, Act.asks, held]
  | some j =>
    rw [endPhase_of_lookup_some held]
    refine (monitor_modifyAt (sound.lookup_lt held) Monitor.reset).trans ?_
    by_cases there : j = i <;> simp [Act.asks, held, there, Monitor.request]

/-- Whatever is done changes a monitor by what it asks of that monitor, and by nothing else. -/
theorem monitor_act (sound : h.Sound) (a : Act) (i : Nat) :
    ((h.act a).monitorAt i).monitor =
      (a.asks h i).foldl Monitor.request (h.monitorAt i).monitor := by
  cases a with
  | request handle r =>
    refine (monitor_modifyAt (sound.ofHandle_lt handle) fun m => m.request r).trans ?_
    by_cases there : h.ofHandle handle = i <;> simp [Act.asks, there]
  | endPhase guard => exact monitor_endPhase sound guard
  | beginPhase handle guard => exact monitor_endPhase sound guard
  | detached => exact congrArg SharedMonitor.monitor (monitorAt_detached h)
  | clone handle => rfl
  | watch handle watcher => rfl
  | look watcher => exact congrArg SharedMonitor.monitor (monitorAt_congr (monitors_look h watcher))

/-- After any history a monitor is where the requests made of it lead. -/
theorem monitor_of_history (sound : h.Sound) (acts : List Act) (i : Nat) :
    ((acts.foldl act h).monitorAt i).monitor =
      (asked i h acts).foldl Monitor.request (h.monitorAt i).monitor := by
  -- What an act asks is told by the handles and guards just before it.
  induction acts generalizing h with
  | nil => rfl
  | cons a acts ih =>
    rw [List.foldl_cons, asked, List.foldl_append, ← monitor_act sound]
    exact ih (sound.act a)

/-! ### Handles stay on their monitors -/

/-- Whatever is done only ever adds handles. -/
theorem more_handles_act (h : Handles) (a : Act) : h.handles <+: (h.act a).handles := by
  cases a with
  | clone handle => exact List.prefix_append ..
  | detached => exact List.prefix_append ..
  | request handle r => exact List.prefix_rfl
  | watch handle watcher => exact List.prefix_rfl
  | beginPhase handle guard => exact (handles_endPhase h guard).symm ▸ List.prefix_rfl
  | endPhase guard => exact (handles_endPhase h guard).symm ▸ List.prefix_rfl
  | look watcher => exact (handles_look h watcher).symm ▸ List.prefix_rfl

theorem ofHandle_of_more {h' : Handles} (more : h.handles <+: h'.handles)
    (hh : handle < h.handles.length) : h'.ofHandle handle = h.ofHandle handle := by
  obtain ⟨others, grown⟩ := more
  simp only [ofHandle, ← grown, List.getD_eq_getElem?_getD, List.getElem?_append_left hh]

/-- A handle stays on its monitor, whatever is done. -/
theorem ofHandle_of_history (acts : List Act) (hh : handle < h.handles.length) :
    (acts.foldl act h).ofHandle handle = h.ofHandle handle := by
  induction acts generalizing h with
  | nil => rfl
  | cons a acts ih =>
    have more := more_handles_act h a
    rw [List.foldl_cons, ih (hh.trans_le more.length_le), ofHandle_of_more more hh]

/-- A clone and the handle that it was made of are on one monitor from then on. -/
theorem ofHandle_clone_of_history (acts : List Act) (hh : handle < h.handles.length) :
    (acts.foldl act (h.clone handle)).ofHandle h.handles.length =
      (acts.foldl act (h.clone handle)).ofHandle handle := by
  have made : (h.clone handle).handles.length = h.handles.length + 1 := by simp [clone]
  rw [ofHandle_of_history acts (by omega), ofHandle_of_history acts (by omega)]
  calc (h.clone handle).ofHandle h.handles.length
      = h.ofHandle handle := by simp [clone, ofHandle]
    _ = (h.clone handle).ofHandle handle :=
        (ofHandle_of_more (more_handles_act h (.clone handle)) hh).symm

/-! ### Guards stay on their monitors -/

/-- A guard that is let go holds nothing open. -/
theorem lookup_endPhase_self (h : Handles) (guard : String) :
    (h.endPhase guard).2.guards.lookup guard = none := by
  cases held : h.guards.lookup guard with
  | none => rwa [endPhase_of_lookup_none held]
  | some i =>
    rw [endPhase_of_lookup_some held]
    refine List.lookup_eq_none_iff.2 fun g hg => ?_
    rw [bne_comm]
    exact (List.mem_filter.1 hg).2

theorem lookup_endPhase_of_ne {other : String} (hne : guard ≠ other)
    (held : h.guards.lookup guard = some i) :
    (h.endPhase other).2.guards.lookup guard = some i := by
  unfold endPhase
  split
  · exact held
  · obtain ⟨before, later, split, hbefore⟩ := List.lookup_eq_some_iff.1 held
    refine List.lookup_eq_some_iff.2 ⟨before.filter (·.1 != other),
      later.filter (·.1 != other), ?_, fun g hg => hbefore g (List.mem_of_mem_filter hg)⟩
    simp [split, hne]

/-- A guard that is not named in an act holds its phase open beyond it. -/
theorem lookup_act (a : Act) (ha : a.guard? ≠ some guard)
    (held : h.guards.lookup guard = some i) : (h.act a).guards.lookup guard = some i := by
  cases a with
  | request handle r => exact held
  | clone handle => exact held
  | detached => exact held
  | watch handle watcher => exact held
  | look watcher => exact (guards_look h watcher).symm ▸ held
  | endPhase other => exact lookup_endPhase_of_ne (fun same => ha (congrArg some same.symm)) held
  | beginPhase handle other =>
    have hne : guard ≠ other := fun same => ha (congrArg some same.symm)
    change List.lookup guard ((other, h.ofHandle handle) :: (h.endPhase other).2.guards) = some i
    rw [List.lookup_cons, beq_eq_false_iff_ne.2 hne]
    exact lookup_endPhase_of_ne hne held

/-- A guard is on the monitor that its phase was begun on, as long as it is not named again. -/
theorem lookup_beginPhase_of_history (acts : List Act)
    (hacts : ∀ a ∈ acts, a.guard? ≠ some guard) :
    (acts.foldl act (h.beginPhase handle guard)).guards.lookup guard =
      some (h.ofHandle handle) := by
  induction acts using List.reverseRecOn with
  | nil => exact List.lookup_cons_self
  | append_singleton acts a ih =>
    obtain ⟨hbefore, hlast⟩ := List.forall_mem_append.1 hacts
    rw [List.foldl_concat]
    exact lookup_act a (hlast a (List.mem_singleton_self a)) (ih hbefore)

/-! ### What a handle shows and answers -/

/-- A handle goes by the requests that are pending with its monitor. -/
structure GoesBy (h : Handles) (handle : Nat) (pending : List InterruptRequest) : Prop where
  /-- The strongest of the requests is shown. -/
  signal : h.signal handle = Signal.ofPending pending
  /-- A request to abort is recorded if there is no other, and else insists on an exit. -/
  abort : (h.request handle .abort).1 =
    some (if pending = [] then .recorded .abortRequested else .forceExit)
  /-- A request to terminate always insists on an exit. -/
  terminate : (h.request handle .terminate).1 = some .forceExit
  /-- A phase that begins leaves every monitor and every handle as it is. -/
  begins : ∀ guard, h.guards.lookup guard = none →
    (h.beginPhase handle guard).monitors = h.monitors ∧
    (h.beginPhase handle guard).handles = h.handles
  /-- What the phase is begun on is what its guard resets, whatever is done in between. -/
  held : ∀ guard, ∀ acts : List Act, (∀ a ∈ acts, a.guard? ≠ some guard) →
    (acts.foldl act (h.beginPhase handle guard)).guards.lookup guard = some (h.ofHandle handle)
  /-- A phase ends once. -/
  released : ∀ guard, (h.endPhase guard).2.guards.lookup guard = none
  /-- A clone is on the same monitor whatever is done from then on. -/
  shared : handle < h.handles.length → ∀ acts : List Act,
    (acts.foldl act (h.clone handle)).ofHandle h.handles.length =
      (acts.foldl act (h.clone handle)).ofHandle handle

/-- What a handle shows and answers after any history is a matter of what its monitor was
asked since the last reset, by whichever handle. -/
theorem shows_what_is_pending (listen : Option SignalPolicy) (acts : List Act) (handle : Nat) :
    let h := acts.foldl act (single listen)
    h.GoesBy handle
      (InterruptRequest.pending (asked (h.ofHandle handle) (single listen) acts)) := by
  intro h
  set i := h.ofHandle handle
  have fresh : ((single listen).monitorAt i).monitor = {} := by
    cases i <;> rfl
  have shown : (h.monitorAt i).monitor.signal =
      Signal.ofPending (InterruptRequest.pending (asked i (single listen) acts)) := by
    rw [monitor_of_history (.single listen), fresh, Monitor.signal_of_requests]
  exact {
    signal := shown
    abort := by
      refine (Monitor.escalation_abort (h.monitorAt i).monitor).trans ?_
      simp only [shown, InterruptRequest.ofPending_pending_eq_idle_iff]
    terminate := rfl
    begins := fun guard free => by
      simp [beginPhase, endPhase_of_lookup_none free]
    held := fun guard acts hacts => lookup_beginPhase_of_history acts hacts
    released := lookup_endPhase_self h
    shared := fun hh acts => ofHandle_clone_of_history acts hh }

/-- Two phases that overlap: the one that ends first takes back what the clone asked for,
and what is asked after it is not taken back by aborts, nor by a phase that begins. -/
example :
    let h := [.clone 0, .beginPhase 0 "outer", .request 1 .abort, .beginPhase 1 "inner",
      .endPhase "outer", .request 0 .terminate, .request 1 .abort,
      .beginPhase 0 "next"].foldl act (single none)
    h.signal 0 = .terminateRequested ∧ h.signal 1 = .terminateRequested ∧
      (h.request 1 .abort).1 = some .forceExit ∧ (h.act (.endPhase "inner")).signal 0 = .idle := by
  decide

end Handles

end ClusterKeeper
