import Andrix.Native.RecordLaws

/-! Entered work and the scope it leaves behind. A creator may report an absent scope
while the gate stays open, and an entry that is claimed afterwards completes without
any reclamation. With callers that report absence only behind a closed gate, and that
prepare a gate only after its admission was accepted, it cannot happen. -/
namespace Andrix.Native
open Andrix.Lib

/-- The binding of the gate begins only after the start of its record was accepted. -/
def BoundAfterStart (r : Nat) (h : WorkHistory) : Prop :=
  ∀ a ∈ h.steps, (a.before.gates r).flags = 0 → (a.after.gates r).flags = kBinding →
    (a.before.records r).data.state.startAccepted = true

/-- A creator that captured the process and found no scope reports both without an
error; the gate was published before and is entered afterwards. -/
def enteringAbsentTurns : List (Turn WorkCall) :=
  inOrder
    [(.start 0 [] { closedPlan := true } false, 14), (.gate 0 (.bind sampleEpoch), 5),
      (.admissionFinished 0 .accepted, 11), (.initialCreated 0, 4), (.gate 0 .prepared, 1),
      (.gate 0 (.publish 5 10), 4), (.creatorFinished 0 .captured .absent 0, 8),
      (.gate 0 (.claimEntry sampleWork sampleEpoch 6), 8), (.initialExited 0 ⟨.code, 0⟩, 5),
      (.initialReaped 0, 7)]

theorem entered_work_without_scope :
    ∃ p, workRun (fun _ => true) sampleRegistry enteringAbsentTurns = some p ∧
      BoundAfterStart 0 p.history ∧ has (p.history.state.gates 0).flags kEntered = true ∧
      (p.history.state.records 0).data.state.complete = true ∧
      (p.history.state.records 0).data.state.scope = .absent := by
  have found : (workRun (fun _ => true) sampleRegistry enteringAbsentTurns).any (fun p =>
      (p.history.steps.all fun a => !decide ((a.before.gates 0).flags = 0) ||
        !decide ((a.after.gates 0).flags = kBinding) ||
          (a.before.records 0).data.state.startAccepted) &&
      has (p.history.state.gates 0).flags kEntered &&
      (p.history.state.records 0).data.state.complete &&
      decide ((p.history.state.records 0).data.state.scope = .absent)) = true := by
    decide +kernel
  obtain ⟨p, ran, facts⟩ := (Option.any_eq_true _ _).mp found
  simp only [Bool.and_eq_true, List.all_eq_true, Bool.or_eq_true, Bool.not_eq_true',
    decide_eq_false_iff_not, decide_eq_true_eq] at facts
  obtain ⟨⟨⟨bound, entered⟩, complete⟩, scope⟩ := facts
  refine ⟨p, ran, fun a among source target => ?_, entered, complete, scope⟩
  rcases bound a among with (unfound | unbound) | started
  · exact absurd source unfound
  · exact absurd target unbound
  · exact started

def Prepares (turns : List (Turn WorkCall)) (r : Nat) : Prop :=
  Turn.start (.gate r .prepared) ∈ turns

/-- How an orderly caller starts a call: a gate is prepared only after an admission of
its record returned true, and absent resources are reported only while the gate is
stopped, or where nobody prepares it. -/
def OrderlyStart (turns : List (Turn WorkCall)) (call : WorkCall)
    (q : Pool WorkCall WorkSystem WorkReply) : Prop :=
  match call with
  | .gate r .prepared => ∃ i result, q.Returned i (.admissionFinished r result) (.flag true)
  | .creatorFinished r initial scope _ => initial = .absent ∨ scope = .absent →
    phaseOf (q.history.state.gates r).flags = .stopped ∨ ¬ Prepares turns r
  | _ => True

def Orderly (decodes : List UInt8 → Bool) (start : WorkSystem) (turns : List (Turn WorkCall)) : Prop :=
  Pool.Ready (WorkCall.body decodes) start (OrderlyStart turns) turns

section Runs

variable {decodes : List UInt8 → Bool} {manager : UInt64} {creators : Nat} {operationLimit : UInt64}
  {works : Nat → WorkIdentity} {streams sequences : Nat → UInt64} {turns : List (Turn WorkCall)}
  {p q : Pool WorkCall WorkSystem WorkReply}

theorem OrderlyStart.ready {call : WorkCall}
    (meeting : q.Meeting (WorkStep True (Prepares turns)) (WorkKept True (Prepares turns) works)
      workPosts)
    (orderly : OrderlyStart turns call q) (among : Turn.start call ∈ turns) :
    WorkReady (Prepares turns) q.history call := by
  unfold WorkReady
  split
  · next r =>
    obtain ⟨i, result, begun, found⟩ := orderly
    exact ⟨returned_promise meeting found rfl, among⟩
  · next r initial scope error =>
    intro absent
    exact (orderly absent).imp_left phaseOf_stopped.mp
  · trivial

theorem orderly_run_meets
    (orderly : Orderly decodes (.fresh manager creators operationLimit works streams sequences) turns)
    (ran : workRun decodes (.fresh manager creators operationLimit works streams sequences) turns =
      some p) :
    p.Meeting (WorkStep True (Prepares turns)) (WorkKept True (Prepares turns) works) workPosts := by
  have starts : Pool.Ready (WorkCall.body decodes)
      (.fresh manager creators operationLimit works streams sequences)
      (fun call q => OrderlyStart turns call q ∧ Turn.start call ∈ turns) turns := by
    intro earlier call later q split before
    refine ⟨orderly earlier call later q split before, ?_⟩
    rw [split]
    simp
  refine Pool.ready_run_meets (WorkKept.fresh manager creators operationLimit streams sequences)
    (fun _ _ _ _ kept step => kept.step step) ?_ starts ran
  rintro q call meeting ⟨starts, among⟩
  exact work_body_meets decodes meeting.history call fun _ => starts.ready meeting among

/-- With orderly callers, entered work completes only with its scope reclaimed and its
initial process reaped. -/
theorem entered_work_is_reclaimed
    (orderly : Orderly decodes (.fresh manager creators operationLimit works streams sequences) turns)
    (ran : workRun decodes (.fresh manager creators operationLimit works streams sequences) turns =
      some p) (r : Nat) (entered : has (p.history.state.gates r).flags kEntered = true)
    (complete : (p.history.state.records r).data.state.complete = true) :
    (p.history.state.records r).data.state.scope = .reclaimed ∧
      (p.history.state.records r).data.state.initial = .reaped := by
  have kept := (orderly_run_meets orderly ran).history.records r
  have done := (kept.done complete).1
  have present : ¬ ((p.history.state.records r).data.state.initial = .absent ∨
      (p.history.state.records r).data.state.scope = .absent) := by
    intro absent
    have outside := (kept.absent trivial absent).1
    rw [entered] at outside
    cases outside
  obtain ⟨initial, scope⟩ := not_or.mp present
  exact ⟨done.scope.resolve_left scope, done.initial.resolve_left initial⟩

end Runs

/-- The calls of an orderly creator up to the preparation of the gate. -/
def admittedCalls : List (WorkCall × Nat) :=
  [(.start 0 [] { closedPlan := true } false, 14), (.gate 0 (.bind sampleEpoch), 5),
    (.admissionFinished 0 .accepted, 11)]

/-- One entered work from its start to its reclamation. -/
def reclaimingTurns : List (Turn WorkCall) :=
  inOrder (admittedCalls ++
    ([(.gate 0 .prepared, 1), (.captureScope 0 ⟨1, 2⟩, 4), (.initialCreated 0, 4),
      (.gate 0 (.publish 5 10), 4), (.gate 0 (.claimEntry sampleWork sampleEpoch 6), 8),
      (.creatorFinished 0 .captured .captured 0, 8), (.initialExited 0 ⟨.code, 0⟩, 5),
      (.initialReaped 0, 5), (.observe 0, 7), (.observationFinish 0 1 .empty, 4), (.reclaim 0, 8),
      (.cleanupFinish 0 2 .reclaimed 0, 7)] : List (WorkCall × Nat)))

def startsPreparing : Turn WorkCall → Bool
  | .start (.gate _ .prepared) => true
  | _ => false

def reportsAbsent : Turn WorkCall → Bool
  | .start (.creatorFinished _ initial scope _) => initial = .absent || scope = .absent
  | _ => false

private theorem admitted_calls_admit :
    ∃ q, workRun (fun _ => true) sampleRegistry (inOrder admittedCalls) = some q ∧
      q.Returned 2 (.admissionFinished 0 .accepted) (.flag true) :=
  ⟨_, rfl, _, rfl⟩

theorem reclaiming_turns_orderly : Orderly (fun _ => true) sampleRegistry reclaimingTurns := by
  intro earlier call later q split ran
  have found : reclaimingTurns[earlier.length]? = some (.start call) := by
    rw [split]
    simp
  unfold OrderlyStart
  split
  · next r =>
    have position : ∀ n < reclaimingTurns.length, reclaimingTurns[n]?.any startsPreparing = true →
        n = 33 := by
      decide +kernel
    have bound : earlier.length < reclaimingTurns.length := (List.getElem?_eq_some_iff.mp found).1
    have here : earlier.length = 33 := position _ bound (by rw [found]; rfl)
    have admitted : earlier = inOrder admittedCalls := by
      have taken : reclaimingTurns.take earlier.length = earlier := by
        rw [split]
        simp
      rw [← taken, here]
      rfl
    rw [here] at found
    have same : reclaimingTurns[33]? = some (.start (.gate 0 .prepared)) := rfl
    cases same.symm.trans found
    obtain ⟨q', before, returned⟩ := admitted_calls_admit
    rw [admitted] at ran
    cases before.symm.trans ran
    exact ⟨2, .accepted, returned⟩
  · next r initial scope error =>
    intro absent
    have present : ∀ turn ∈ reclaimingTurns, reportsAbsent turn = false := by decide +kernel
    have reported := present _ (List.mem_of_getElem? found)
    simp only [reportsAbsent, Bool.or_eq_false_iff, decide_eq_false_iff_not] at reported
    exact absurd absent (not_or.mpr reported)
  · trivial

theorem reclaiming_turns_reclaim :
    ∃ p, workRun (fun _ => true) sampleRegistry reclaimingTurns = some p ∧
      has (p.history.state.gates 0).flags kEntered = true ∧
      (p.history.state.records 0).data.state.complete = true ∧
      (p.history.state.records 0).data.state.scope = .reclaimed := by
  have found : (workRun (fun _ => true) sampleRegistry reclaimingTurns).any (fun p =>
      has (p.history.state.gates 0).flags kEntered &&
        (p.history.state.records 0).data.state.complete) = true := by
    decide +kernel
  obtain ⟨p, ran, facts⟩ := (Option.any_eq_true _ _).mp found
  obtain ⟨entered, complete⟩ := Bool.and_eq_true_iff.mp facts
  exact ⟨p, ran, entered, complete,
    (entered_work_is_reclaimed reclaiming_turns_orderly ran 0 entered complete).1⟩

end Andrix.Native
