import Andrix.Lib.Calls
import Andrix.Supervision.InstanceLaws

/-! What an instance retires on, over whole runs. The past of a run is kept as
its moments; the observation in the slot and the accepted Empty result are
traced back to the moment that issued them, and the boundary says that nothing
closing happened since. -/
namespace Andrix.Supervision
open List
namespace InstanceState
open Lib (Moment past after past_induction past_ordered Ordered)

variable {s t : InstanceState} {moments : List (Moment InstanceState InstanceCall)}

theorem create_cases (identity : InstanceId) (limits : InstanceLimits) :
    ∃ size, create identity limits = { identity, limits, mutations := List.replicate size 0 } ∨
      ∃ fault, create identity limits =
        failClosed { identity, limits, mutations := List.replicate size 0 } fault := by
  refine ⟨if validLimits limits then limits.maxPendingMutations else 0, ?_⟩
  simp only [create]
  by_cases named : identity.valid = true
  · by_cases bounded : validLimits limits = true
    · exact .inl (by simp [named, bounded])
    · exact .inr ⟨.invalidLimits, by simp [named, bounded]⟩
  · exact .inr ⟨.invalidIdentity, by simp [named]⟩

theorem create_sound (identity : InstanceId) (limits : InstanceLimits) :
    (create identity limits).Sound := by
  have fresh (size : Nat) :
      ({ identity, limits, mutations := List.replicate size 0 } : InstanceState).Sound :=
    ⟨Nat.zero_le _, Nat.zero_le _, by simp [countP_replicate], by simp, by simp⟩
  obtain ⟨size, same | ⟨fault, same⟩⟩ := create_cases identity limits
  · exact same ▸ fresh size
  · exact same ▸ failClosed_sound (fresh size) fault

theorem create_idle (identity : InstanceId) (limits : InstanceLimits) :
    (create identity limits).observation = none ∧ (create identity limits).cleanupStep = none ∧
      (create identity limits).population = .unknown := by
  obtain ⟨size, same | ⟨fault, same⟩⟩ := create_cases identity limits <;> rw [same]
  · exact ⟨rfl, rfl, rfl⟩
  · exact ⟨rfl, rfl, rfl⟩

/-- The past of a fresh instance is ordered by what calls may change. -/
theorem past_moved (identity : InstanceId) (limits : InstanceLimits) (calls : List InstanceCall) :
    Ordered call Sound Moved (past call (create identity limits) calls)
      (after call (create identity limits) calls) :=
  past_ordered (fun _ => Moved.refl) (fun _ _ _ => Moved.trans)
    (fun _ call sound => ⟨(call_moves sound call).1, (call_moves sound call).1.sound⟩)
    (create_sound identity limits) calls

theorem after_moved (identity : InstanceId) (limits : InstanceLimits) (calls : List InstanceCall) :
    Moved (create identity limits) (after call (create identity limits) calls) := by
  cases calls with
  | nil => exact .refl (create_sound identity limits)
  | cons first rest =>
    exact (past_moved identity limits (first :: rest)).state ⟨_, first⟩ mem_cons_self

/-! ## The observation in the slot -/

def NoneIssued (moments : List (Moment InstanceState InstanceCall)) : Prop :=
  ∀ moment ∈ moments, issuedObservation (moment.reply call) = none

def NotTimedOut (ticket : ObservationTicket) (moments : List (Moment InstanceState InstanceCall)) :
    Prop :=
  ∀ moment ∈ moments, moment.call ≠ .observationTimedOut ticket

/-- The observation in the slot was issued, nothing was issued since, and unless
it is marked as expired it was not timed out. -/
def Held (moments : List (Moment InstanceState InstanceCall)) (s : InstanceState) : Prop :=
  ∀ ticket, s.observation = some ticket → ∃ earlier issue later,
    moments = earlier ++ issue :: later ∧ issue.reply call = .observation (some ticket) ∧
      NoneIssued later ∧ (s.observationExpired = false → NotTimedOut ticket later)

theorem NoneIssued.snoc (issued : NoneIssued moments) (moment : Moment InstanceState InstanceCall)
    (last : issuedObservation (moment.reply call) = none) : NoneIssued (moments ++ [moment]) := by
  intro other inside
  rcases mem_append.mp inside with inside | same
  · exact issued other inside
  · rw [mem_singleton.mp same]
    exact last

variable {ticket : ObservationTicket}

theorem NotTimedOut.snoc (timely : NotTimedOut ticket moments)
    (moment : Moment InstanceState InstanceCall) (last : moment.call ≠ .observationTimedOut ticket) :
    NotTimedOut ticket (moments ++ [moment]) := by
  intro other inside
  rcases mem_append.mp inside with inside | same
  · exact timely other inside
  · rw [mem_singleton.mp same]
    exact last

variable {call' : InstanceCall}

/-- A call that issues no observation and leaves the slot alone. -/
theorem Held.kept (held : Held moments s)
    (quiet : issuedObservation (s.call call').1 = none) (same : t.observation = s.observation)
    (expired : t.observationExpired = false → s.observationExpired = false ∧
      ∀ ticket, s.observation = some ticket → call' ≠ .observationTimedOut ticket) :
    Held (moments ++ [⟨s, call'⟩]) t := by
  intro ticket found
  rw [same] at found
  obtain ⟨earlier, issue, later, split, issued, none_, timely⟩ := held ticket found
  refine ⟨earlier, issue, later ++ [⟨s, call'⟩], ?_, issued, none_.snoc ⟨s, call'⟩ quiet, fun fresh => ?_⟩
  · rw [split, append_assoc, cons_append]
  · obtain ⟨unexpired, other⟩ := expired fresh
    exact (timely unexpired).snoc ⟨s, call'⟩ (other ticket found)

variable {reply : InstanceReply}

/-- What each kind of call does to the slot, as far as the past of the
observation in it is concerned. -/
theorem Held.turns (held : Held moments s)
    (turns : Turns s call' reply t) (same : (s.call call').1 = reply) :
    Held (moments ++ [⟨s, call'⟩]) t := by
  have empties (slot : t.observation = none) : Held (moments ++ [⟨s, call'⟩]) t := by
    intro ticket found
    rw [slot] at found
    cases found
  cases turns with
  | quiet untouched quiet =>
    refine held.kept (same ▸ untouched.issuedObservation) quiet.observation fun fresh =>
      ⟨quiet.expired ▸ fresh, fun ticket found out => ?_⟩
    have expires := untouched.expires
    subst out
    rw [← same] at expires
    simp [call, observationTimedOut, found, expiresObservation] at expires
  | unallocated _ _ slot expired _ | cleans _ _ slot expired _ _ =>
    exact held.kept (same ▸ rfl) slot fun fresh => ⟨expired ▸ fresh, fun _ _ => by simp⟩
  | observes _ _ _ slot _ _ _ _ _ _ =>
    intro ticket found
    rw [slot, Option.some_inj] at found
    subst found
    exact ⟨moments, _, [], rfl, same, by simp [NoneIssued], fun _ => by simp [NotTimedOut]⟩
  | ends _ _ _ _ _ _ _ slot _ _ _ | empties _ _ _ slot _ _ _ _ | removes _ _ _ _ _ _ slot _ _
  | reclaims _ _ _ _ _ _ _ _ slot _ => exact empties slot
  | expires found slot expired _ _ _ =>
    exact held.kept (same ▸ rfl) (slot.trans found.symm) fun fresh => by simp [expired] at fresh
  | cleaned named _ issued _ _ _ _ _ slot expired _ _ =>
    refine held.kept (same ▸ issued) slot fun fresh => ⟨expired ▸ fresh, fun _ _ out => ?_⟩
    rw [out] at named
    cases named

/-! ## The accepted Empty result -/

/-- The root was seen empty: by an observation that was issued, not timed out
until its Empty result was accepted, and not followed by another observation. -/
def Emptied (moments : List (Moment InstanceState InstanceCall)) (s : InstanceState) : Prop :=
  s.population = .empty →
    ∃ earlier, ∃ issue : Moment _ _, ∃ between, ∃ finish : Moment _ _, ∃ later ticket,
    moments = earlier ++ issue :: (between ++ finish :: later) ∧
      issue.reply call = .observation (some ticket) ∧
      finish.call = .finishObservation ticket .empty ∧ finish.reply call = .accepted true ∧
      NotTimedOut ticket between ∧ NoneIssued (between ++ finish :: later) ∧
      s.populationSequence = ticket.sequence ∧ s.populationBoundary = some ticket.boundary

theorem Emptied.kept (emptied : Emptied moments s)
    (quiet : issuedObservation (s.call call').1 = none) (weakens : Weakens s t) :
    Emptied (moments ++ [⟨s, call'⟩]) t := by
  intro empty
  obtain ⟨empty, boundary, sequence⟩ := weakens empty
  obtain ⟨earlier, issue, between, finish, later, ticket, split, issued, named, accepted, timely,
    none_, number, at_⟩ := emptied empty
  refine ⟨earlier, issue, between, finish, later ++ [⟨s, call'⟩], ticket, ?_, issued, named, accepted,
    timely, ?_, sequence.trans number, boundary.trans at_⟩
  · rw [split, append_assoc, cons_append, append_assoc, cons_append]
  · have none_ := none_.snoc ⟨s, call'⟩ quiet
    rwa [append_assoc, cons_append] at none_

theorem Emptied.turns (held : Held moments s) (emptied : Emptied moments s)
    (turns : Turns s call' reply t) (same : (s.call call').1 = reply) :
    Emptied (moments ++ [⟨s, call'⟩]) t := by
  have unseen {seen : Population} (population : t.population = seen) (other : seen ≠ .empty) :
      Emptied (moments ++ [⟨s, call'⟩]) t := fun empty => absurd (population.symm.trans empty) other
  cases turns with
  | quiet untouched quiet => exact emptied.kept (same ▸ untouched.issuedObservation) quiet.evidence
  | unallocated _ weakens _ _ _ | cleans _ _ _ _ weakens _ =>
    exact emptied.kept (same ▸ rfl) weakens
  | observes _ _ _ _ _ _ population _ _ _ | removes _ _ _ _ _ _ _ _ population
  | expires _ _ _ _ population _ | reclaims _ _ _ _ _ _ _ _ _ population =>
    exact unseen population (by decide)
  | ends _ _ issued _ _ _ _ _ _ weakens _ | cleaned _ _ issued _ _ _ _ _ _ _ weakens _ =>
    exact emptied.kept (same ▸ issued) weakens
  | @empties ticket _ found fresh boundary _ _ boundary' sequence _ =>
    intro _
    obtain ⟨earlier, issue, later, split, issued, none_, timely⟩ := held _ found
    have issuesNothing : issuedObservation (s.call (.finishObservation ticket .empty)).1 = none := same ▸ rfl
    refine ⟨earlier, issue, later, ⟨s, .finishObservation ticket .empty⟩, [], _, ?_, issued, rfl, same, timely fresh, ?_, sequence, ?_⟩
    · rw [split, append_assoc, cons_append]
    · exact none_.snoc _ issuesNothing
    · rw [boundary', boundary]

/-- The past of a run, as far as tickets and evidence go. -/
structure Traced (moments : List (Moment InstanceState InstanceCall)) (s : InstanceState) : Prop where
  sound : s.Sound
  held : Held moments s
  emptied : Emptied moments s

theorem past_traced (identity : InstanceId) (limits : InstanceLimits) (calls : List InstanceCall) :
    Traced (past call (create identity limits) calls)
      (after call (create identity limits) calls) := by
  apply past_induction
  · have start := create_idle identity limits
    refine ⟨create_sound identity limits, fun ticket found => ?_, fun empty => ?_⟩
    · rw [start.1] at found
      cases found
    · rw [start.2.2] at empty
      cases empty
  · intro moments s call' traced
    obtain ⟨moved, turns⟩ := call_moves traced.sound call'
    exact ⟨moved.sound, traced.held.turns turns rfl, traced.emptied.turns traced.held turns rfl⟩

/-! ## Outstanding tickets -/

/-- The observations that were issued and whose end was not reported. -/
def outstandingObservations (moments : List (Moment InstanceState InstanceCall)) :
    List ObservationTicket :=
  moments.foldl (fun out moment =>
    out.filter (endsObservation moment.call ≠ some ·) ++
      (issuedObservation (moment.reply call)).toList) []

/-- The cleanup steps that were issued and whose end was not reported. -/
def outstandingSteps (moments : List (Moment InstanceState InstanceCall)) : List CleanupTicket :=
  moments.foldl (fun out moment =>
    out.filter (endsStep moment.call ≠ some ·) ++ (issuedStep (moment.reply call)).toList) []

/-- The slots hold exactly the outstanding tickets. -/
structure Slots (moments : List (Moment InstanceState InstanceCall)) (s : InstanceState) : Prop where
  sound : s.Sound
  observation : outstandingObservations moments = s.observation.toList
  step : outstandingSteps moments = s.cleanupStep.toList

theorem toList_filter_other {α : Type*} [DecidableEq α] {slot ended : Option α}
    (other : ∀ ticket ∈ ended, slot ≠ some ticket) :
    slot.toList.filter (ended ≠ some ·) = slot.toList := by
  rw [filter_eq_self]
  intro ticket inside
  rw [Option.mem_toList] at inside
  have apart : ended ≠ some ticket := fun same => other ticket same inside
  simpa using apart

theorem toList_filter_same {α : Type*} [DecidableEq α] {slot ended : Option α} {ticket : α}
    (named : ended = some ticket) (held : slot = some ticket) :
    slot.toList.filter (ended ≠ some ·) = [] := by
  simp [named, held]

theorem Turns.observation_slot
    (turns : Turns s call' reply t) :
    s.observation.toList.filter (endsObservation call' ≠ some ·) ++ (issuedObservation reply).toList =
      t.observation.toList := by
  cases turns with
  | quiet untouched quiet =>
    rw [toList_filter_other untouched.observation, untouched.issuedObservation, quiet.observation]
    exact append_nil _
  | ends named held issued _ _ _ _ slot _ _ _ =>
    rw [toList_filter_same named held, issued, slot]
    rfl
  | cleaned _ _ issued _ ends _ _ _ slot _ _ _ =>
    rw [toList_filter_other (by simp [ends]), issued, slot]
    exact append_nil _
  | _ => simp_all [endsObservation, issuedObservation]

theorem Turns.step_slot (turns : Turns s call' reply t) :
    s.cleanupStep.toList.filter (endsStep call' ≠ some ·) ++ (issuedStep reply).toList =
      t.cleanupStep.toList := by
  cases turns with
  | quiet untouched quiet =>
    rw [toList_filter_other untouched.step, untouched.issuedStep, quiet.step]
    exact append_nil _
  | ends _ _ _ issued ends _ _ _ slot _ _ =>
    rw [toList_filter_other (by simp [ends]), issued, slot]
    exact append_nil _
  | cleaned named held _ issued _ _ _ slot _ _ _ _ =>
    rw [toList_filter_same named held, issued, slot]
    rfl
  | _ => simp_all [endsStep, issuedStep]

theorem Slots.turns (slots : Slots moments s) (call' : InstanceCall) :
    Slots (moments ++ [⟨s, call'⟩]) (s.call call').2 := by
  obtain ⟨moved, turns⟩ := call_moves slots.sound call'
  refine ⟨moved.sound, ?_, ?_⟩
  · rw [← turns.observation_slot, ← slots.observation]
    simp [outstandingObservations, Moment.reply]
  · rw [← turns.step_slot, ← slots.step]
    simp [outstandingSteps, Moment.reply]

theorem past_slots (identity : InstanceId) (limits : InstanceLimits) (calls : List InstanceCall) :
    Slots (past call (create identity limits) calls)
      (after call (create identity limits) calls) := by
  apply past_induction
  · obtain ⟨observation, step, -⟩ := create_idle identity limits
    refine ⟨create_sound identity limits, ?_, ?_⟩
    · rw [observation]
      rfl
    · rw [step]
      rfl
  · intro moments s call' slots
    exact slots.turns call'

/-! ## After retirement and after a fault -/

theorem retired_call (sound : s.Sound) (retired : s.cleanup = .retired) (call' : InstanceCall) :
    (s.call call').2 = s := by
  obtain ⟨stopped, settled, observation, step⟩ := sound.retired retired
  have vacant : ∀ sequence ≠ 0, sequence ∉ s.mutations := by
    intro sequence real inside
    have counted := sound.pending
    rw [settled, eq_comm, countP_eq_zero] at counted
    exact counted sequence inside (by simpa using real)
  cases call' with
  | finishMutation ticket =>
    by_cases zero : ticket.sequence = 0
    · simp [call, finishMutation, zero]
    · simp [call, finishMutation, vacant _ zero]
  | stop ref => by_cases own : ref = s.identity <;> simp [call, stop, own, retired]
  | _ =>
    simp [call, beginMutation, captureRoot, verifyProfile, completeSetup, activate,
      reportInitialProcessExit, reportInitialProcessReaped, reportNoInitialProcess, retireUnallocated,
      beginObservation, finishObservation, finishConfirmedRemoval, observationTimedOut,
      acknowledgeObservationCancellation, beginCleanupStep, canBeginCleanup, cleanupTimedOut,
      finishCleanupStep, acknowledgeCleanupCancellation, retired, observation, step]

theorem faulted_issues (faulted : s.fault ≠ .none) (call' : InstanceCall) :
    (s.call call').1.issues = false := by
  cases call' with
  | beginMutation ref => simp [call, beginMutation, faulted, InstanceReply.issues]
  | beginObservation ref => simp [call, beginObservation, faulted, InstanceReply.issues]
  | beginCleanupStep ref =>
    simp [call, beginCleanupStep, canBeginCleanup, closedEmptyBoundary, faulted, InstanceReply.issues]
  | _ => rfl

/-! ## Retirement -/

/-- An observation issued behind the closed boundary: everything that closes the
instance had happened where its ticket was issued, and nothing of it changed
since. -/
structure IssuedClosed (issue : Moment InstanceState InstanceCall)
    (later : List (Moment InstanceState InstanceCall)) (s : InstanceState)
    (ticket : ObservationTicket) : Prop where
  issued : issue.reply call = .observation (some ticket)
  closed : Closed issue.state
  since : ∀ moment ∈ later, moment.state.closing = issue.state.closing
  present : s.closing = issue.state.closing

/-- The evidence on which a call may retire an instance with a captured root: the
confirmed removal of an observation that was not timed out, or a reclaiming step
whose evidence is the Empty result of such an observation, accepted and not
superseded by another observation. -/
inductive Evidence (moments : List (Moment InstanceState InstanceCall)) (s : InstanceState) :
    InstanceCall → Prop
  | removal {earlier} {issue : Moment _ _} {later ticket} : moments = earlier ++ issue :: later →
    IssuedClosed issue later s ticket → NotTimedOut ticket later → NoneIssued later →
    s.observation = some ticket → Evidence moments s (.finishConfirmedRemoval ticket)
  | empty {earlier} {issue : Moment _ _} {between} {finish : Moment _ _} {later ticket step} :
    moments = earlier ++ issue :: (between ++ finish :: later) →
    IssuedClosed issue (between ++ finish :: later) s ticket →
    finish.call = .finishObservation ticket .empty → finish.reply call = .accepted true →
    NotTimedOut ticket between → NoneIssued (between ++ finish :: later) →
    s.cleanupStep = some step → step.observationSequence = ticket.sequence →
    Evidence moments s (.finishCleanupStep step .reclaimed)

theorem Closed.of_closing (closed : Closed s) (same : s.closing = t.closing) : Closed t := by
  simp only [closing, Prod.mk.injEq] at same
  obtain ⟨stopped, bound, exited, reaped, absent, -, pending⟩ := same
  refine ⟨stopped ▸ closed.stopped, bound ▸ closed.bound, ?_, pending ▸ closed.settled⟩
  have gone := closed.gone
  rwa [processGone, exited, reaped, absent] at gone

/-- Issuing an observation changes nothing that closes the instance. -/
theorem Turns.issued
    (turns : Turns s call' (.observation (some ticket)) t) :
    ticket.boundary = t.boundary ∧ t.closing = s.closing := by
  cases turns with
  | quiet untouched _ => exact absurd untouched.issuedObservation (by simp [issuedObservation])
  | observes _ _ _ _ _ _ _ _ boundary closing => exact ⟨boundary, closing⟩
  | ends _ _ issued _ _ _ _ _ _ _ _ | cleaned _ _ issued _ _ _ _ _ _ _ _ _ =>
    exact absurd issued (by simp [issuedObservation])

/-- A ticket whose boundary still stands was issued behind it. -/
theorem issuedClosed_of_boundary {earlier later : List (Moment InstanceState InstanceCall)}
    {issue : Moment InstanceState InstanceCall}
    (ordered : Ordered call Sound Moved moments s) (split : moments = earlier ++ issue :: later)
    (issued : issue.reply call = .observation (some ticket)) (clear : s.fault = .none)
    (closed : Closed s) (boundary : ticket.boundary = s.boundary) :
    IssuedClosed issue later s ticket := by
  have among : issue ∈ moments := by simp [split]
  have turns := (call_moves (ordered.held issue among) issue.call).2
  rw [show (issue.state.call issue.call).1 = _ from issued] at turns
  obtain ⟨stamped, unchanged⟩ := turns.issued
  have onward : Moved (issue.next call) s := ordered.next issue among
  have stands : s.boundary = (issue.next call).boundary := boundary.symm.trans stamped
  have present : s.closing = issue.state.closing := (onward.closing clear stands).trans unchanged
  refine ⟨issued, closed.of_closing present, fun moment inside => ?_, present⟩
  have between : Moved (issue.next call) moment.state := by
    have pairs := ordered.between
    rw [split, pairwise_append] at pairs
    exact (pairwise_cons.mp pairs.2.1).1 moment inside
  have rest : Moved moment.state s := ordered.state moment (by simp [split, inside])
  have same : moment.state.boundary = (issue.next call).boundary := by
    refine UInt64.toNat_inj.mp (le_antisymm ?_ between.boundary)
    rw [← stands]
    exact rest.boundary
  exact (between.closing (rest.faulted clear) same).trans unchanged

/-- A call that retires an instance with a captured root has the evidence. -/
theorem Turns.retires (turns : Turns s call' reply t)
    (ordered : Ordered call Sound Moved moments s) (traced : Traced moments s)
    (live : s.cleanup ≠ .retired) (retired : t.cleanup = .retired) (bound : s.rootBound = true) :
    s.fault = .none ∧ Closed s ∧ reply = .accepted true ∧ Evidence moments s call' := by
  cases turns with
  | quiet _ quiet => exact absurd (quiet.retired retired) live
  | unallocated free _ _ _ _ => simp [bound] at free
  | observes _ _ _ _ _ _ _ cleanup _ _ | empties _ _ _ _ _ _ _ cleanup =>
    exact absurd (cleanup ▸ retired) live
  | ends _ _ _ _ _ _ _ _ _ _ kept | expires _ _ _ _ _ kept | cleaned _ _ _ _ _ _ _ _ _ _ _ kept =>
    exact absurd (kept retired) live
  | removes found fresh boundary clear closed _ _ _ _ =>
    obtain ⟨earlier, issue, later, split, issued, none_, timely⟩ := traced.held _ found
    exact ⟨clear, closed, rfl, .removal split
      (issuedClosed_of_boundary ordered split issued clear closed boundary) (timely fresh) none_ found⟩
  | cleans _ _ _ _ _ cleanup => simp [cleanup] at retired
  | reclaims found clear closed _ empty boundary sequence _ _ _ =>
    obtain ⟨earlier, issue, between, finish, later, ticket, split, issued, named, accepted, timely,
      none_, number, at_⟩ := traced.emptied empty
    have stands : ticket.boundary = s.boundary := Option.some_inj.mp (at_.symm.trans boundary)
    exact ⟨clear, closed, rfl, .empty split
      (issuedClosed_of_boundary ordered split issued clear closed stands) named accepted timely none_
      found (sequence.trans number)⟩

/-- An instance retires only on fresh evidence behind a closed boundary, and for
good; a fault blocks it for good. -/
theorem retires_only_on_fresh_evidence (identity : InstanceId) (limits : InstanceLimits)
    (calls : List InstanceCall) :
    let s := after call (create identity limits) calls
    let moments := past call (create identity limits) calls
    (∀ call', s.cleanup ≠ .retired → (s.call call').2.cleanup = .retired → s.rootBound = true →
      s.fault = .none ∧ Closed s ∧ (s.call call').1 = .accepted true ∧ Evidence moments s call') ∧
    (outstandingObservations moments).length ≤ 1 ∧ (outstandingSteps moments).length ≤ 1 ∧
    (s.cleanup = .retired → ∀ call', (s.call call').2 = s) ∧
    (s.fault ≠ .none → s.cleanup = .blocked ∧
      ∀ call', (s.call call').1.issues = false ∧ (s.call call').2.fault ≠ .none) ∧
    (s.boundary.toNat ≤ limits.maxBoundary.toNat ∧
      s.operationSequence.toNat ≤ limits.maxOperationSequence.toNat ∧
      s.pendingMutations = s.mutations.countP (· ≠ 0) ∧
      ∀ call', s.boundary.toNat ≤ (s.call call').2.boundary.toNat ∧
        s.operationSequence.toNat ≤ (s.call call').2.operationSequence.toNat) := by
  intro s moments
  have ordered : Ordered call Sound Moved moments s := past_moved identity limits calls
  have traced : Traced moments s := past_traced identity limits calls
  have slots : Slots moments s := past_slots identity limits calls
  have limited : s.limits = limits := by
    have started : (create identity limits).limits = limits := by
      obtain ⟨size, same | ⟨fault, same⟩⟩ := create_cases identity limits
      · rw [same]
      · rw [same]
        rfl
    exact (after_moved identity limits calls).limits.trans started
  have moves (call' : InstanceCall) := call_moves traced.sound call'
  refine ⟨fun call' live retired bound => ?_, ?_, ?_, fun retired => retired_call traced.sound retired,
    fun faulted => ⟨(traced.sound.faulted faulted).1, fun call' => ?_⟩, ?_⟩
  · exact (moves call').2.retires ordered traced live retired bound
  · rw [slots.observation]
    cases s.observation <;> simp
  · rw [slots.step]
    cases s.cleanupStep <;> simp
  · exact ⟨faulted_issues faulted call', fun clear => faulted ((moves call').1.faulted clear)⟩
  · rw [← limited]
    exact ⟨traced.sound.boundary, traced.sound.sequence, traced.sound.pending,
      fun call' => ⟨(moves call').1.boundary, (moves call').1.sequence⟩⟩

def sampleInstance : InstanceId := ⟨7, 1⟩

def sampleLimits : InstanceLimits := ⟨4, 100, 100⟩

/-- From setup to a cleanup step over an empty root. -/
def reclaimingCalls : List InstanceCall :=
  [.beginMutation sampleInstance, .captureRoot sampleInstance, .finishMutation ⟨sampleInstance, 1⟩,
    .verifyProfile sampleInstance, .completeSetup sampleInstance, .activate sampleInstance,
    .stop sampleInstance, .reportInitialProcessExit sampleInstance,
    .reportInitialProcessReaped sampleInstance, .beginObservation sampleInstance,
    .finishObservation ⟨sampleInstance, 2, 6⟩ .empty, .beginCleanupStep sampleInstance]

def reclaimingStep : CleanupTicket := ⟨sampleInstance, 3, 6, 2⟩

theorem reclaimed_instance_retires_on_evidence :
    ((after call (create sampleInstance sampleLimits) reclaimingCalls).call
        (.finishCleanupStep reclaimingStep .reclaimed)).2.cleanup = .retired ∧
      Evidence (past call (create sampleInstance sampleLimits) reclaimingCalls)
        (after call (create sampleInstance sampleLimits) reclaimingCalls)
        (.finishCleanupStep reclaimingStep .reclaimed) := by
  have run : (after call (create sampleInstance sampleLimits) reclaimingCalls).cleanup ≠ .retired ∧
      ((after call (create sampleInstance sampleLimits) reclaimingCalls).call
        (.finishCleanupStep reclaimingStep .reclaimed)).2.cleanup = .retired ∧
      (after call (create sampleInstance sampleLimits) reclaimingCalls).rootBound = true := by
    decide +kernel
  obtain ⟨live, retired, bound⟩ := run
  obtain ⟨-, -, -, evidence⟩ :=
    (retires_only_on_fresh_evidence sampleInstance sampleLimits reclaimingCalls).1
      (.finishCleanupStep reclaimingStep .reclaimed) live retired bound
  exact ⟨retired, evidence⟩

end InstanceState
end Andrix.Supervision
