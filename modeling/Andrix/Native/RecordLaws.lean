import Andrix.Native.RecordCalls

/-! Completion under every interleaving of any number of holders: it is never claimed
early, and what it claims is never rewritten. -/
namespace Andrix.Native
open Andrix.Lib

/-- The pool after these turns of the calls of a registry. -/
def workRun (decodes : List UInt8 → Bool) (start : WorkSystem) (turns : List (Turn WorkCall)) :
    Option (Pool WorkCall WorkSystem WorkReply) :=
  Pool.run (WorkCall.body decodes) start turns

/-- What a returned call promises, as the post condition of a pool. -/
abbrev workPosts (_ : Nat) (call : WorkCall) (begun : WorkHistory) (reply : WorkReply)
    (h : WorkHistory) : Prop := WorkPost begun reply h call

section Runs

variable {decodes : List UInt8 → Bool} {manager : UInt64} {creators : Nat} {operationLimit : UInt64}
  {works : Nat → WorkIdentity} {streams sequences : Nat → UInt64} {turns : List (Turn WorkCall)}
  {p q : Pool WorkCall WorkSystem WorkReply}

theorem plain_body_meets (i : Nat) (call : WorkCall) (h : WorkHistory)
    (kept : WorkKept False (fun _ => True) works h) :
    (call.body decodes i).Meets (WorkStep False fun _ => True) (WorkKept False (fun _ => True) works) i
      call (workPosts i call h) h :=
  work_body_meets decodes kept call False.elim

theorem workRun_meets
    (ran : workRun decodes (.fresh manager creators operationLimit works streams sequences) turns =
      some p) :
    p.Meeting (WorkStep False fun _ => True) (WorkKept False (fun _ => True) works) workPosts :=
  Pool.run_meets (WorkKept.fresh manager creators operationLimit streams sequences)
    (fun _ _ _ _ kept step => kept.step step) plain_body_meets ran

variable {prepares : Nat → Prop} {strict : Prop}

theorem returned_promise
    (meeting : p.Meeting (WorkStep strict prepares) (WorkKept strict prepares works) workPosts)
    {i : Nat} {call : WorkCall} {begun : WorkHistory} {reply : WorkReply}
    (found : p.threads[i]? = some ⟨call, begun, .done reply⟩) :
    WorkPost begun reply p.history call := by
  obtain ⟨h, post, kept, _, others⟩ := meeting.returned found
  exact (workPost_lasting begun reply call).others kept others post

/-- What a complete record shows stays, except for whether it is forgotten. -/
theorem complete_lasting (r : Nat) (shown : WorkSnapshot) :
    Lasting strict prepares works fun h => (h.state.records r).data.state.complete = true ∧
      (h.state.snapshotOf r).SameButForgotten shown := by
  rintro h i call s kept step ⟨complete, same⟩
  exact ⟨(step.recordMove r).complete complete, (kept.snapshot_step step complete).trans same⟩

theorem WorkStep.maximum {i : Nat} {call : WorkCall}
    {h : WorkHistory} {s : WorkSystem} (step : WorkStep strict prepares i call h s) :
    s.maximum = h.state.maximum := by
  cases step <;> rfl

theorem workRun_maximum
    (ran : workRun decodes (.fresh manager creators operationLimit works streams sequences) turns =
      some p) : p.history.state.maximum = creators := by
  have start : workRun decodes (.fresh manager creators operationLimit works streams sequences) [] =
      some ⟨⟨_, []⟩, []⟩ := rfl
  have empty := workRun_meets start
  exact (empty.later (fun _ _ _ _ kept step => kept.step step) plain_body_meets
    (fun h => h.state.maximum = creators) (fun _ _ _ _ _ step same => step.maximum.trans same) rfl ran).2

theorem requested_source {r : Nat} {s : WorkSystem} {source : WorkStopSource}
    (sources : (s.records r).data.state.complete = true →
      (s.records r).data.state.stopSources = (s.records r).requests &&& kStopMask)
    (requested : has (s.records r).requests source.bit = true) :
    has (s.snapshotOf r).stopSources source.bit = true := by
  have masked : (s.snapshotOf r).stopSources = (s.records r).requests &&& kStopMask := by
    by_cases complete : (s.records r).data.state.complete = true
    · simp only [WorkSystem.snapshotOf, if_pos complete, sources complete]
    · simp only [WorkSystem.snapshotOf, if_neg complete]
  have inside : kStopMask &&& source.bit = source.bit := by cases source <;> decide
  rw [masked, has, UInt32.and_assoc, inside]
  exact requested

/-- Completion is never claimed early and never rewritten, and the budget counts the
charged records. -/
theorem completion_is_final
    (ran : workRun decodes (.fresh manager creators operationLimit works streams sequences) turns =
      some p) :
    (∀ r, (p.history.state.records r).data.state.complete = true →
      phaseOf (p.history.state.gates r).flags = .stopped ∧ (p.history.state.records r).data.Done) ∧
    (∀ earlier later q r, turns = earlier ++ later →
      workRun decodes (.fresh manager creators operationLimit works streams sequences) earlier = some q →
      (q.history.state.records r).data.state.complete = true →
        (p.history.state.records r).data.state.complete = true ∧
          (p.history.state.snapshotOf r).SameButForgotten (q.history.state.snapshotOf r)) ∧
    (∀ i r w, p.Returned i (.inspect r) (.snapshot w) → w.complete = true →
      w.SameButForgotten (p.history.state.snapshotOf r)) ∧
    (∀ earlier later q r w, turns = earlier ++ .start (.inspect r) :: later →
      workRun decodes (.fresh manager creators operationLimit works streams sequences) earlier = some q →
      (q.history.state.records r).data.state.complete = true →
      p.Returned q.threads.length (.inspect r) (.snapshot w) → w.complete = true) ∧
    (∀ i r source, p.Returned i (.stop r source) (.flag true) →
      has (p.history.state.snapshotOf r).stopSources source.bit = true) ∧
    (∀ i r source reply, p.Returned i (.stop r source) reply →
      phaseOf (p.history.state.gates r).flags = .stopped) ∧
    (∀ i r error, p.Returned i (.abort r error) (.flag true) →
      has (p.history.state.snapshotOf r).stopSources WorkStopSource.backendFailure.bit = true ∧
        phaseOf (p.history.state.gates r).flags = .stopped) ∧
    (∀ i source table reply, p.Returned i (.close source table) reply →
      ∀ r ∈ table, phaseOf (p.history.state.gates r).flags = .stopped) ∧
    ∃ charged : Finset Nat,
      (∀ r, r ∈ charged ↔ (p.history.state.records r).data.creatorCharged = true) ∧
        charged.card = p.history.state.used ∧ p.history.state.used ≤ creators := by
  have meeting := workRun_meets ran
  have kept := meeting.history
  have sources (r : Nat) (complete : (p.history.state.records r).data.state.complete = true) :=
    ((kept.records r).done complete).2.2
  refine ⟨?_, ?_, ?_, ?_, ?_, ?_, ?_, ?_, ?_⟩
  · intro r complete
    obtain ⟨done, stopped, _⟩ := (kept.records r).done complete
    exact ⟨phaseOf_stopped.mpr stopped, done⟩
  · rintro earlier later q r rfl before complete
    obtain ⟨mid, first, rest⟩ := foldlM_append_some.mp ran
    cases first.symm.trans before
    exact ((workRun_meets before).later (fun _ _ _ _ kept step => kept.step step) plain_body_meets _
      (complete_lasting r (q.history.state.snapshotOf r)) ⟨complete, rfl⟩ rest).2
  · rintro i r w ⟨begun, found⟩ complete
    exact ((returned_promise meeting found w rfl).2 complete).2
  · rintro earlier later q r w rfl before complete ⟨begun, found⟩
    obtain ⟨q', first, left, started⟩ := Pool.run_start ran
    cases first.symm.trans before
    cases started.symm.trans found
    exact (returned_promise meeting found w rfl).1 complete
  · rintro i r source ⟨begun, found⟩
    exact requested_source (sources r) ((returned_promise meeting found).2 rfl)
  · rintro i r source reply ⟨begun, found⟩
    exact phaseOf_stopped.mpr (returned_promise meeting found).1
  · rintro i r error ⟨begun, found⟩
    obtain ⟨stopped, requested⟩ := returned_promise meeting found rfl
    exact ⟨requested_source (sources r) requested, phaseOf_stopped.mpr stopped⟩
  · rintro i source table reply ⟨begun, found⟩ r among
    exact phaseOf_stopped.mpr (returned_promise meeting found r among)
  · obtain ⟨charged, among, size, bound⟩ := kept.budget
    rw [workRun_maximum ran] at bound
    exact ⟨charged, among, size, bound⟩

end Runs

/-- The calls one after the other, each with the number of its actions. -/
def inOrder (calls : List (WorkCall × Nat)) : List (Turn WorkCall) :=
  calls.zipIdx.flatMap fun ((call, actions), i) => .start call :: List.replicate actions (.run i)

def sampleRegistry : WorkSystem := .fresh 7 1 100 (fun _ => sampleWork) (fun _ => 1) fun _ => 1

/-- One work from its start to its reclamation, and a stop that comes too late. -/
def completingTurns : List (Turn WorkCall) :=
  inOrder
    [(.start 0 [] { closedPlan := true } false, 14), (.gate 0 (.bind sampleEpoch), 5),
      (.admissionFinished 0 .accepted, 11), (.captureScope 0 ⟨1, 2⟩, 4), (.initialCreated 0, 4),
      (.creatorFinished 0 .captured .captured 0, 8), (.initialExited 0 ⟨.code, 0⟩, 5),
      (.initialReaped 0, 5), (.observe 0, 7), (.observationFinish 0 1 .empty, 4), (.reclaim 0, 8),
      (.cleanupFinish 0 2 .reclaimed 0, 7), (.stop 0 .owner, 2)]

theorem completing_turns_complete :
    ∃ p, workRun (fun _ => true) sampleRegistry completingTurns = some p ∧
      (p.history.state.records 0).data.state.complete = true ∧
      phaseOf (p.history.state.gates 0).flags = .stopped ∧
      (p.history.state.records 0).data.Done := by
  have completes : (workRun (fun _ => true) sampleRegistry completingTurns).any
      (fun p => (p.history.state.records 0).data.state.complete) = true := by
    decide +kernel
  obtain ⟨p, ran, complete⟩ := (Option.any_eq_true _ _).mp completes
  exact ⟨p, ran, complete, (completion_is_final ran).1 0 complete⟩

end Andrix.Native
