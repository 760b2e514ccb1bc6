import Andrix.Native.Record
import Andrix.Native.GateMoves
import Mathlib.Data.Finset.Card

/-! What one action of a call may do to the records of a registry, and what every
action keeps. The metadata of a record is coherent whenever nobody holds its mutex;
that a complete record is done, that its gate is stopped and that the budget counts
the charged records holds at every moment.

The same steps serve two readings. The plain one asks nothing of the callers. The
strict one is for callers that prepare a gate only after its admission was accepted:
there a record without a scope or an initial process has a gate that nobody enters. -/
namespace Andrix.Native
open Andrix.Lib List

abbrev WorkHistory := History WorkCall WorkSystem

/-! ## The system -/

namespace WorkSystem

variable (s : WorkSystem) (r : Nat)

@[simp] theorem setRecord_same (record : Record) : (s.setRecord r record).records r = record :=
  if_pos rfl

theorem setRecord_other {n : Nat} (record : Record) (other : n ≠ r) :
    (s.setRecord r record).records n = s.records n := if_neg other

@[simp] theorem setGate_same (gate : Shared) : (s.setGate r gate).gates r = gate := if_pos rfl

theorem setGate_other {n : Nat} (gate : Shared) (other : n ≠ r) :
    (s.setGate r gate).gates n = s.gates n := if_neg other

@[simp] theorem setUsed_records (used : Nat) : (s.setUsed used).records = s.records := rfl

theorem setGate_self : s.setGate r (s.gates r) = s := by
  have same : (fun n => if n = r then s.gates r else s.gates n) = s.gates := by
    funext n
    by_cases same : n = r
    · rw [if_pos same, same]
    · rw [if_neg same]
  simp only [setGate, same]

end WorkSystem

/-- The call of the gate that an action on it belongs to; the calls of the registry
read and stop gates and do nothing else to them. -/
def WorkCall.onGate (r : Nat) : WorkCall → GateCall
  | .gate n call => if n = r then call else .stop
  | _ => .stop

/-- What a history shows of one gate. -/
def gateView (r : Nat) (h : WorkHistory) : GateHistory := h.view (·.gates r) (WorkCall.onGate r)

@[simp] theorem gateView_state (r : Nat) (h : WorkHistory) : (gateView r h).state = h.state.gates r :=
  rfl

def WorkSystem.Stopped (s : WorkSystem) (r : Nat) : Prop := has (s.gates r).flags kStopped = true

/-! ## One record -/

/-- Nothing of the work is left to wait for. -/
structure RecordData.Done (d : RecordData) : Prop where
  admission : d.state.admissionPending = false
  creator : d.state.creatorPending = false
  observation : d.observation = 0
  cleanup : d.cleanup = 0
  initial : d.state.initial = .absent ∨ d.state.initial = .reaped
  scope : d.state.scope = .absent ∨ d.state.scope = .reclaimed
  fault : d.permanentFault = false
  charge : d.creatorCharged = false

/-- How the fields of a record fit together while nobody holds its mutex. -/
structure RecordData.Coherent (d : RecordData) : Prop where
  charged : d.creatorCharged = (d.state.admissionPending || d.state.creatorPending)
  unstarted : d.state.startAccepted = false →
    d.state.admissionPending = false ∧ d.state.creatorPending = false ∧ d.observation = 0 ∧
      d.cleanup = 0 ∧ d.permanentFault = false ∧
      (d.state.complete = false → d.state.initial = .notRequested)
  admission : d.state.admissionPending = true →
    d.state.creatorPending = false ∧ d.state.initial = .notRequested
  observing : d.observation ≠ 0 → d.boundaryClosed = true ∧ d.state.scope = .captured ∧
    d.permanentFault = false ∧ d.cleanup = 0
  cleaning : d.cleanup ≠ 0 → d.boundaryClosed = true ∧ d.state.scope = .captured ∧
    d.permanentFault = false ∧ d.observation = 0

theorem boundaryClosed_inv {d : RecordData} (closed : d.boundaryClosed = true) :
    d.state.startAccepted = true ∧ d.state.admissionPending = false ∧
      d.state.creatorPending = false ∧ (d.state.initial = .absent ∨ d.state.initial = .reaped) := by
  simpa [RecordData.boundaryClosed, RecordData.initialAccounted, and_assoc] using closed

/-- A creator was admitted for the record at some time. -/
def Opened (r : Nat) (h : WorkHistory) : Prop :=
  ∃ a ∈ h.steps, (a.after.records r).data.state.creatorPending = true

variable {r : Nat}

theorem Opened.step {h : WorkHistory} (opened : Opened r h) {i : Nat} {call : WorkCall}
    {s : WorkSystem} : Opened r (h.step i call s) := by
  obtain ⟨a, among, pending⟩ := opened
  exact ⟨a, mem_cons_of_mem _ among, pending⟩

theorem Opened.of_step {h : WorkHistory} {i : Nat} {call : WorkCall} {s : WorkSystem}
    (opened : Opened r (h.step i call s)) :
    Opened r h ∨ (s.records r).data.state.creatorPending = true := by
  obtain ⟨a, among, pending⟩ := opened
  rcases mem_cons.mp among with rfl | old
  · exact .inr pending
  · exact .inl ⟨a, old, pending⟩

section Steps

variable (strict : Prop) (prepares : Nat → Prop)

/-- The gate may be prepared: its creator was admitted and somebody asks for it. -/
def MayPrepare (r : Nat) (h : WorkHistory) : Prop := Opened r h ∧ prepares r

/-- Nobody entered through the gate and nobody will. -/
def Barred (r : Nat) (h : WorkHistory) : Prop :=
  has (h.state.gates r).flags kEntered = false ∧
    (h.state.Stopped r ∨ ¬ MayPrepare prepares r h)

/-- How the holder of the mutex may change the metadata. -/
structure Edit (r : Nat) (h : WorkHistory) (d d' : RecordData) : Prop where
  complete : d'.state.complete = d.state.complete
  frozen : d.state.complete = true →
    d' = { d with state := { d.state with forgotten := d'.state.forgotten } }
  charged : d'.creatorCharged = d.creatorCharged
  creator : d'.state.creatorPending = true → d.state.creatorPending = true ∨
    d'.state.initial = .unknown ∧ d'.state.scope = .unknown
  requested : d.state.initial ≠ .notRequested → d'.state.initial ≠ .notRequested
  absent : strict → d'.state.initial = .absent ∨ d'.state.scope = .absent → Barred prepares r h

def Record.settled (record : Record) : Record :=
  { record with
    requests := record.requests ||| kComplete
    data :=
      { record.data with
        state :=
          { record.data.state with
            stopSources := record.requests &&& kStopMask
            complete := true
            blocked := false } } }

/-- What one action may do to one record. -/
inductive RecordMove (i r : Nat) (h : WorkHistory) (record : Record) : Record → Prop
  | same : RecordMove i r h record record
  | request (source : WorkStopSource) : has record.requests kComplete = false →
    RecordMove i r h record { record with requests := record.requests ||| source.bit }
  | lock : record.mutex = none → RecordMove i r h record { record with mutex := some i }
  | unlock : record.mutex = some i → record.data.Coherent →
    RecordMove i r h record { record with mutex := none }
  | modify (d : RecordData) : record.mutex = some i → Edit strict prepares r h record.data d →
    RecordMove i r h record { record with data := d }
  | charge (charged : Bool) : record.mutex = some i → record.data.state.complete = false →
    RecordMove i r h record { record with data := { record.data with creatorCharged := charged } }
  | settle : record.mutex = some i → record.data.state.complete = false → record.data.Done →
    h.state.Stopped r → RecordMove i r h record record.settled

/-- What one action of a call may do. -/
inductive WorkStep (i : Nat) (call : WorkCall) (h : WorkHistory) : WorkSystem → Prop
  | gate (r : Nat) {g : Shared} : GateStep i (call.onGate r) (gateView r h) g →
    (strict → (h.state.gates r).flags = kBound → g.flags = kBound ||| kPrepared →
      MayPrepare prepares r h) →
    WorkStep i call h (h.state.setGate r g)
  | record (r : Nat) {record : Record} :
    RecordMove strict prepares i r h (h.state.records r) record →
    record.data.creatorCharged = (h.state.records r).data.creatorCharged →
    WorkStep i call h (h.state.setRecord r record)
  | acquire (r : Nat) {record : Record} :
    RecordMove strict prepares i r h (h.state.records r) record →
    (h.state.records r).data.creatorCharged = false → record.data.creatorCharged = true →
    h.state.used < h.state.maximum →
    WorkStep i call h ((h.state.setUsed (h.state.used + 1)).setRecord r record)
  | release (r : Nat) {record : Record} :
    RecordMove strict prepares i r h (h.state.records r) record →
    (h.state.records r).data.creatorCharged = true → record.data.creatorCharged = false →
    WorkStep i call h ((h.state.setUsed (h.state.used - 1)).setRecord r record)
  | registry (mutex : Option Nat) (closed : Bool) : WorkStep i call h { h.state with mutex, closed }

/-- What every run keeps of one record. -/
structure RecordKept (r : Nat) (h : WorkHistory) : Prop where
  coherent : (h.state.records r).mutex = none → (h.state.records r).data.Coherent
  word : (h.state.records r).data.state.complete = has (h.state.records r).requests kComplete
  done : (h.state.records r).data.state.complete = true → (h.state.records r).data.Done ∧
    h.state.Stopped r ∧
    (h.state.records r).data.state.stopSources = (h.state.records r).requests &&& kStopMask
  opened : (h.state.records r).data.state.creatorPending = true → Opened r h
  requested : Opened r h → (h.state.records r).data.state.initial ≠ .notRequested
  prepared : strict → has (h.state.gates r).flags kPrepared = true → MayPrepare prepares r h
  absent : strict → (h.state.records r).data.state.initial = .absent ∨
    (h.state.records r).data.state.scope = .absent → Barred prepares r h

def Counted (s : WorkSystem) : Prop :=
  ∃ charged : Finset Nat, (∀ r, r ∈ charged ↔ (s.records r).data.creatorCharged = true) ∧
    charged.card = s.used ∧ s.used ≤ s.maximum

/-- What every run keeps. -/
structure WorkKept (works : Nat → WorkIdentity) (h : WorkHistory) : Prop where
  gates : ∀ r, GateKept (works r) (gateView r h)
  records : ∀ r, RecordKept strict prepares r h
  budget : Counted h.state

end Steps

variable {strict : Prop} {prepares : Nat → Prop} {works : Nat → WorkIdentity} {i j : Nat}
  {call : WorkCall} {h k : WorkHistory} {s : WorkSystem}

/-! ## What an action does to one gate and to one record -/

theorem WorkStep.gateStep (step : WorkStep strict prepares i call h s) (r : Nat) :
    GateStep i (call.onGate r) (gateView r h) (s.gates r) := by
  cases step with
  | gate n step _ =>
    by_cases same : r = n
    · subst same
      rw [WorkSystem.setGate_same]
      exact step
    · rw [WorkSystem.setGate_other _ _ _ same]
      exact .read
  | record | acquire | release | registry => exact .read

theorem WorkStep.guarded (step : WorkStep strict prepares i call h s) (r : Nat) (rules : strict)
    (bound : (h.state.gates r).flags = kBound) (prepared : (s.gates r).flags = kBound ||| kPrepared) :
    MayPrepare prepares r h := by
  have read (same : s.gates r = h.state.gates r) : MayPrepare prepares r h := by
    rw [same, bound] at prepared
    exact absurd prepared (by decide)
  cases step with
  | gate n step guard =>
    by_cases same : r = n
    · subst same
      rw [WorkSystem.setGate_same] at prepared
      exact guard rules bound prepared
    · exact read (WorkSystem.setGate_other _ _ _ same)
  | record | acquire | release | registry => exact read rfl

theorem WorkStep.recordMove (step : WorkStep strict prepares i call h s) (r : Nat) :
    RecordMove strict prepares i r h (h.state.records r) (s.records r) := by
  have set {n : Nat} {record : Record} {t : WorkSystem} (records : t.records = h.state.records)
      (move : RecordMove strict prepares i n h (h.state.records n) record) :
      RecordMove strict prepares i r h (h.state.records r) ((t.setRecord n record).records r) := by
    by_cases same : r = n
    · subst same
      rw [WorkSystem.setRecord_same]
      exact move
    · rw [WorkSystem.setRecord_other _ _ _ same, records]
      exact .same
  cases step with
  | gate | registry => exact .same
  | record n move _ | acquire n move _ _ _ | release n move _ _ => exact set rfl move

variable {g : GateHistory} {c : GateCall} {t : Shared}

theorem GateStep.frozen (step : GateStep i c g t)
    (among : g.state.flags ∈ gateWords) (stopped : has g.state.flags kStopped = true) :
    t.flags = g.state.flags := by
  have stops : ∀ word ∈ gateWords, has word kStopped = true → word ||| kStopped = word :=
    all_iff_forall_prop.mp (by decide)
  have moves : ∀ edge ∈ gateEdges, has edge.1 kStopped = false :=
    all_iff_forall_prop.mp (by decide)
  rcases step.wordStep with same | stop | edge
  · exact same
  · exact stop.trans (stops _ among stopped)
  · rw [moves _ edge] at stopped
    cases stopped

/-- The word of a gate newly shows a preparation only where a call prepares it. -/
theorem GateStep.newly_prepared (step : GateStep i c g t)
    (among : g.state.flags ∈ gateWords) (unprepared : has g.state.flags kPrepared = false)
    (prepared : has t.flags kPrepared = true) :
    g.state.flags = kBound ∧ t.flags = kBound ||| kPrepared := by
  have stops : ∀ word ∈ gateWords, has word kPrepared = false →
      has (word ||| kStopped) kPrepared = false := all_iff_forall_prop.mp (by decide)
  have moves : ∀ edge ∈ gateEdges, has edge.1 kPrepared = false → has edge.2 kPrepared = true →
      edge.1 = kBound ∧ edge.2 = kBound ||| kPrepared := all_iff_forall_prop.mp (by decide)
  rcases step.wordStep with same | stop | edge
  · rw [same, unprepared] at prepared
    cases prepared
  · rw [stop, stops _ among unprepared] at prepared
    cases prepared
  · exact moves _ edge unprepared prepared

/-- An entry is newly taken only through a prepared gate that is not stopped. -/
theorem GateStep.newly_entered (step : GateStep i c g t)
    (among : g.state.flags ∈ gateWords) (outside : has g.state.flags kEntered = false)
    (entered : has t.flags kEntered = true) :
    has g.state.flags kPrepared = true ∧ has g.state.flags kStopped = false := by
  have stops : ∀ word ∈ gateWords, has word kEntered = false →
      has (word ||| kStopped) kEntered = false := all_iff_forall_prop.mp (by decide)
  have moves : ∀ edge ∈ gateEdges, has edge.1 kEntered = false → has edge.2 kEntered = true →
      has edge.1 kPrepared = true ∧ has edge.1 kStopped = false :=
    all_iff_forall_prop.mp (by decide)
  rcases step.wordStep with same | stop | edge
  · rw [same, outside] at entered
    cases entered
  · rw [stop, stops _ among outside] at entered
    cases entered
  · exact moves _ edge outside entered

/-! ## The words of the stop requests -/

theorem or_masked (a b mask : UInt32) : (a ||| b) &&& mask = (a &&& mask) ||| (b &&& mask) := by
  rw [← UInt32.toBitVec_inj]
  simp only [UInt32.toBitVec_or, UInt32.toBitVec_and]
  exact BitVec.and_or_distrib_right

theorem has_or (a b mask : UInt32) : has (a ||| b) mask = (has a mask || has b mask) := by
  have zero : (a &&& mask) ||| (b &&& mask) = 0 ↔ a &&& mask = 0 ∧ b &&& mask = 0 :=
    UInt32.or_eq_zero_iff
  rw [Bool.eq_iff_iff]
  simp only [has, or_masked, ne_eq, zero, Bool.or_eq_true, decide_eq_true_eq]
  exact Classical.not_and_iff_not_or_not

theorem has_source (word : UInt32) (source : WorkStopSource) :
    has (word ||| source.bit) kComplete = has word kComplete := by
  have apart : has source.bit kComplete = false := by cases source <;> decide
  rw [has_or, apart, Bool.or_false]

theorem complete_masked (word : UInt32) : (word ||| kComplete) &&& kStopMask = word &&& kStopMask := by
  have apart : kComplete &&& kStopMask = 0 := by decide
  rw [or_masked, apart, UInt32.or_zero]

theorem has_complete (word : UInt32) : has (word ||| kComplete) kComplete = true := by
  have own : has kComplete kComplete = true := by decide
  rw [has_or, own, Bool.or_true]

/-! ## One action on one record -/

variable {r : Nat} {record record' : Record}

/-- A complete record only changes in whether it is forgotten. -/
theorem RecordMove.frozen (move : RecordMove strict prepares i r h record record')
    (word : record.data.state.complete = has record.requests kComplete)
    (complete : record.data.state.complete = true) :
    record'.requests = record.requests ∧ record'.data =
      { record.data with
        state := { record.data.state with forgotten := record'.data.state.forgotten } } := by
  cases move with
  | same | lock | unlock => exact ⟨rfl, rfl⟩
  | request source incomplete =>
    rw [← word, complete] at incomplete
    cases incomplete
  | modify d _ edit => exact ⟨rfl, edit.frozen complete⟩
  | charge charged _ incomplete | settle _ incomplete _ _ =>
    rw [complete] at incomplete
    cases incomplete

theorem RecordMove.complete (move : RecordMove strict prepares i r h record record')
    (complete : record.data.state.complete = true) : record'.data.state.complete = true := by
  cases move with
  | same | request | lock | unlock | charge => exact complete
  | modify d _ edit => exact edit.complete.trans complete
  | settle => rfl

theorem RecordMove.word (move : RecordMove strict prepares i r h record record')
    (word : record.data.state.complete = has record.requests kComplete) :
    record'.data.state.complete = has record'.requests kComplete := by
  cases move with
  | same | lock | unlock | charge => exact word
  | request source _ =>
    rw [has_source]
    exact word
  | modify d _ edit => exact edit.complete.trans word
  | settle => exact (has_complete _).symm

/-- A creator is only admitted with its resources unknown. -/
theorem RecordMove.creator (move : RecordMove strict prepares i r h record record')
    (pending : record'.data.state.creatorPending = true) :
    record.data.state.creatorPending = true ∨
      record'.data.state.initial = .unknown ∧ record'.data.state.scope = .unknown := by
  cases move with
  | same | request | lock | unlock | charge | settle => exact .inl pending
  | modify d _ edit => exact edit.creator pending

theorem RecordMove.requested (move : RecordMove strict prepares i r h record record')
    (requested : record.data.state.initial ≠ .notRequested) :
    record'.data.state.initial ≠ .notRequested := by
  cases move with
  | same | request | lock | unlock | charge | settle => exact requested
  | modify d _ edit => exact edit.requested requested

/-- Resources are only absent behind a gate that nobody enters. -/
theorem RecordMove.absent (move : RecordMove strict prepares i r h record record') (rules : strict)
    (barred : record.data.state.initial = .absent ∨ record.data.state.scope = .absent →
      Barred prepares r h)
    (absent : record'.data.state.initial = .absent ∨ record'.data.state.scope = .absent) :
    Barred prepares r h := by
  cases move with
  | same | request | lock | unlock | charge | settle => exact barred absent
  | modify d _ edit => exact edit.absent rules absent

/-- Nobody but its holder changes a record that is held, save for its requests. -/
theorem RecordMove.held (move : RecordMove strict prepares j r h record record')
    (mutex : record.mutex = some i) (other : j ≠ i) :
    record'.mutex = some i ∧ record'.data = record.data := by
  have apart (mine : record.mutex = some j) : False := by
    rw [mutex] at mine
    exact other (Option.some.inj mine).symm
  cases move with
  | same | request => exact ⟨mutex, rfl⟩
  | lock free =>
    rw [mutex] at free
    cases free
  | unlock mine _ | modify d mine _ | charge c mine _ | settle mine _ _ _ => exact (apart mine).elim

theorem RecordMove.requests (move : RecordMove strict prepares i r h record record') {bit : UInt32}
    (requested : has record.requests bit = true) : has record'.requests bit = true := by
  cases move with
  | same | lock | unlock | modify | charge => exact requested
  | request source _ =>
    rw [has_or, requested, Bool.true_or]
  | settle =>
    rw [Record.settled, has_or, requested, Bool.true_or]

/-! ## What an action keeps -/

theorem WorkKept.stopped_step (kept : WorkKept strict prepares works h)
    (step : WorkStep strict prepares i call h s) (stopped : h.state.Stopped r) :
    s.Stopped r ∧ (s.gates r).flags = (h.state.gates r).flags := by
  have same := (step.gateStep r).frozen (kept.gates r).word stopped
  refine ⟨?_, same⟩
  rw [WorkSystem.Stopped, same]
  exact stopped

theorem RecordData.Done.forgets {d : RecordData} (done : d.Done) (forgotten : Bool) :
    RecordData.Done { d with state := { d.state with forgotten } } :=
  ⟨done.admission, done.creator, done.observation, done.cleanup, done.initial, done.scope, done.fault,
    done.charge⟩

theorem RecordKept.coherent_step (kept : RecordKept strict prepares r h)
    (move : RecordMove strict prepares i r h (h.state.records r) record)
    (free : record.mutex = none) : record.data.Coherent := by
  cases move with
  | same | request => exact kept.coherent free
  | lock => cases free
  | unlock _ coherent => exact coherent
  | modify d mine _ | charge c mine _ | settle mine _ _ _ => cases mine.symm.trans free

theorem RecordKept.done_step (kept : RecordKept strict prepares r h)
    (move : RecordMove strict prepares i r h (h.state.records r) record)
    (stops : h.state.Stopped r → s.Stopped r) (complete : record.data.state.complete = true) :
    record.data.Done ∧ s.Stopped r ∧
      record.data.state.stopSources = record.requests &&& kStopMask := by
  by_cases before : (h.state.records r).data.state.complete = true
  · obtain ⟨done, stopped, sources⟩ := kept.done before
    obtain ⟨requests, data⟩ := move.frozen kept.word before
    rw [data, requests]
    exact ⟨done.forgets _, stops stopped, sources⟩
  · cases move with
    | same | request | lock | unlock | charge => exact absurd complete before
    | modify d _ edit => exact absurd (edit.complete.symm.trans complete) before
    | settle _ _ done stopped =>
      refine ⟨⟨done.admission, done.creator, done.observation, done.cleanup, done.initial, done.scope,
        done.fault, done.charge⟩, stops stopped, ?_⟩
      rw [Record.settled, complete_masked]

theorem RecordKept.barred_step (kept : RecordKept strict prepares r h)
    (gates : (h.state.gates r).flags ∈ gateWords) (step : WorkStep strict prepares i call h s)
    (rules : strict) (stops : h.state.Stopped r → s.Stopped r) (barred : Barred prepares r h)
    (absent : (s.records r).data.state.initial = .absent ∨
      (s.records r).data.state.scope = .absent) : Barred prepares r (h.step i call s) := by
  obtain ⟨outside, closed⟩ := barred
  refine ⟨?_, ?_⟩
  · by_contra entered
    obtain ⟨prepared, unstopped⟩ :=
      (step.gateStep r).newly_entered gates outside (by simpa using entered)
    rcases closed with stopped | unprepared
    · exact absurd stopped (by simpa [WorkSystem.Stopped] using unstopped)
    · exact unprepared (kept.prepared rules prepared)
  rcases closed with stopped | unprepared
  · exact .inl (stops stopped)
  refine .inr fun may => unprepared ⟨?_, may.2⟩
  rcases may.1.of_step with opened | pending
  · exact opened
  rcases (step.recordMove r).creator pending with earlier | ⟨initial, scope⟩
  · exact kept.opened earlier
  · rw [initial, scope] at absent
    simp at absent

theorem RecordKept.step (kept : RecordKept strict prepares r h)
    (gates : (h.state.gates r).flags ∈ gateWords) (stops : h.state.Stopped r → s.Stopped r)
    (step : WorkStep strict prepares i call h s) : RecordKept strict prepares r (h.step i call s) where
  coherent := kept.coherent_step (step.recordMove r)
  word := (step.recordMove r).word kept.word
  done := kept.done_step (step.recordMove r) stops
  opened := fun pending => ⟨_, mem_cons_self, pending⟩
  requested := by
    intro opened
    have move := step.recordMove r
    rcases opened.of_step with earlier | pending
    · exact move.requested (kept.requested earlier)
    rcases move.creator pending with earlier | ⟨initial, _⟩
    · exact move.requested (kept.requested (kept.opened earlier))
    · rw [History.step_state, initial]
      decide
  prepared := by
    intro rules prepared
    have may : MayPrepare prepares r h := by
      by_cases before : has (h.state.gates r).flags kPrepared = true
      · exact kept.prepared rules before
      · obtain ⟨bound, target⟩ :=
          (step.gateStep r).newly_prepared gates (by simpa using before) prepared
        exact step.guarded r rules bound target
    exact ⟨may.1.step, may.2⟩
  absent := fun rules absent =>
    kept.barred_step gates step rules stops
      ((step.recordMove r).absent rules (kept.absent rules) absent) absent

theorem Counted.step (counted : Counted h.state) (step : WorkStep strict prepares i call h s) :
    Counted s := by
  obtain ⟨charged, among, size, bound⟩ := counted
  have set {n : Nat} {record : Record} {t : WorkSystem} (records : t.records = h.state.records)
      (m : Nat) (other : m ≠ n) :
      ((t.setRecord n record).records m).data.creatorCharged =
        (h.state.records m).data.creatorCharged := by
    rw [WorkSystem.setRecord_other _ _ _ other, records]
  cases step with
  | gate | registry => exact ⟨charged, among, size, bound⟩
  | record n move same =>
    refine ⟨charged, fun m => ?_, size, bound⟩
    by_cases other : m = n
    · subst other
      rw [WorkSystem.setRecord_same, same]
      exact among m
    · rw [set rfl m other]
      exact among m
  | acquire n move free taken room =>
    have outside : n ∉ charged := by
      rw [among, free]
      simp
    refine ⟨insert n charged, fun m => ?_, ?_, room⟩
    · by_cases other : m = n
      · subst other
        simp [taken]
      · rw [set (WorkSystem.setUsed_records _ _) m other, ← among, Finset.mem_insert]
        exact or_iff_right other
    · rw [Finset.card_insert_of_notMem outside, size]
      rfl
  | release n move held freed =>
    have inside : n ∈ charged := (among n).mpr held
    refine ⟨charged.erase n, fun m => ?_, ?_, Nat.le_trans (Nat.sub_le _ _) bound⟩
    · by_cases other : m = n
      · subst other
        simp [freed]
      · rw [set (WorkSystem.setUsed_records _ _) m other, ← among, Finset.mem_erase]
        exact and_iff_right other
    · rw [Finset.card_erase_of_mem inside, size]
      rfl

theorem WorkKept.step (kept : WorkKept strict prepares works h) (step : WorkStep strict prepares i call h s) :
    WorkKept strict prepares works (h.step i call s) where
  gates := fun r => (kept.gates r).step (step.gateStep r)
  records := fun r =>
    (kept.records r).step (kept.gates r).word (fun stopped => (kept.stopped_step step stopped).1) step
  budget := kept.budget.step step

theorem WorkKept.fresh (manager : UInt64) (creators : Nat) (operationLimit : UInt64)
    (streams sequences : Nat → UInt64) :
    WorkKept strict prepares works
      ⟨.fresh manager creators operationLimit works streams sequences, []⟩ where
  gates := fun r => gateKept_start (works r)
  records := by
    intro r
    have unset : has 0 kComplete = false ∧ has 0 kPrepared = false := by decide
    refine ⟨fun _ => ⟨rfl, fun _ => ⟨rfl, rfl, rfl, rfl, rfl, fun _ => rfl⟩, ?_, ?_, ?_⟩, unset.1.symm,
      ?_, ?_, ?_, ?_, ?_⟩
    · intro pending
      cases pending
    · intro pending
      exact absurd rfl pending
    · intro pending
      exact absurd rfl pending
    · intro complete
      cases complete
    · intro pending
      cases pending
    · rintro ⟨a, among, _⟩
      cases among
    · intro _ prepared
      cases unset.2.symm.trans prepared
    · rintro _ (absent | absent) <;> cases absent
  budget := ⟨∅, fun r => by simp [WorkSystem.fresh], rfl, Nat.zero_le _⟩

end Andrix.Native
