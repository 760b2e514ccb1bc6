
/-! The ordering component of one supervised service instance. It does no work
itself: the owner asks for a ticket, does bounded work outside and delivers the
result, in any order, late or twice. A boundary counter marks every fact after
which earlier observations no longer count. -/
namespace Andrix.Supervision

structure InstanceId where
  boot : UInt64
  serial : UInt64
  deriving DecidableEq

def InstanceId.valid (id : InstanceId) : Bool := id.boot ≠ 0 && id.serial ≠ 0

structure InstanceLimits where
  maxPendingMutations : Nat
  maxOperationSequence : UInt64
  maxBoundary : UInt64
  deriving DecidableEq

def kMaximumMutationCapacity : Nat := 4096

def validLimits (limits : InstanceLimits) : Bool :=
  limits.maxPendingMutations ≤ kMaximumMutationCapacity

inductive Population where
  | unknown | populated | empty | removed
  deriving DecidableEq

inductive Cleanup where
  | notStarted | stopping | reclaiming | blocked | retired
  deriving DecidableEq

inductive InstanceFault where
  | none | invalidIdentity | invalidLimits | sequenceExhausted | boundaryExhausted
  deriving DecidableEq

inductive CleanupResult where
  | progress | failed | reclaimed
  deriving DecidableEq

structure MutationTicket where
  owner : InstanceId
  sequence : UInt64
  deriving DecidableEq

structure ObservationTicket where
  owner : InstanceId
  sequence : UInt64
  boundary : UInt64
  deriving DecidableEq

structure CleanupTicket where
  owner : InstanceId
  sequence : UInt64
  boundary : UInt64
  observationSequence : UInt64
  deriving DecidableEq

structure InstanceState where
  identity : InstanceId
  limits : InstanceLimits
  /-- Zero is vacant. Issued sequences start at one and are never reused. -/
  mutations : List UInt64
  pendingMutations : Nat := 0
  observation : Option ObservationTicket := none
  cleanupStep : Option CleanupTicket := none
  boundary : UInt64 := 0
  operationSequence : UInt64 := 0
  populationBoundary : Option UInt64 := none
  populationSequence : UInt64 := 0
  fault : InstanceFault := .none
  cleanup : Cleanup := .notStarted
  population : Population := .unknown
  rootBound : Bool := false
  profileVerified : Bool := false
  setupComplete : Bool := false
  active : Bool := false
  activatedOnce : Bool := false
  stopLatched : Bool := false
  processExited : Bool := false
  processReaped : Bool := false
  initialProcessAbsent : Bool := false
  observationExpired : Bool := false
  deriving DecidableEq

def maximum : UInt64 := 0xffffffffffffffff

namespace InstanceState

def invalidatePopulation (s : InstanceState) : InstanceState :=
  { s with population := .unknown, populationBoundary := none, populationSequence := 0 }

/-- Exhaustion and invalid construction are a permanent quarantine. -/
def failClosed (s : InstanceState) (fault : InstanceFault) : InstanceState :=
  { s.invalidatePopulation with
    fault := if s.fault = .none then fault else s.fault
    stopLatched := true, active := false, cleanup := .blocked }

def create (identity : InstanceId) (limits : InstanceLimits) : InstanceState :=
  let s : InstanceState :=
    { identity, limits
      mutations := List.replicate (if validLimits limits then limits.maxPendingMutations else 0) 0 }
  if !identity.valid then s.failClosed .invalidIdentity
  else if !validLimits limits then s.failClosed .invalidLimits
  else s

def advanceBoundary (s : InstanceState) : Bool × InstanceState :=
  let s := s.invalidatePopulation
  if s.fault ≠ .none then (false, s)
  else if s.limits.maxBoundary ≤ s.boundary ∨ s.boundary = maximum then
    (false, s.failClosed .boundaryExhausted)
  else (true, { s with boundary := s.boundary + 1 })

def issueSequence (s : InstanceState) : Option UInt64 × InstanceState :=
  if s.fault ≠ .none then (none, s)
  else if s.limits.maxOperationSequence ≤ s.operationSequence ∨ s.operationSequence = maximum then
    (none, s.failClosed .sequenceExhausted)
  else (some (s.operationSequence + 1), { s with operationSequence := s.operationSequence + 1 })

def beginMutation (s : InstanceState) (ref : InstanceId) : Option MutationTicket × InstanceState :=
  if ref ≠ s.identity ∨ s.stopLatched ∨ s.fault ≠ .none ∨ s.cleanup ≠ .notStarted ∨
      s.mutations.length ≤ s.pendingMutations then (none, s)
  else match s.issueSequence with
    | (none, s) => (none, s)
    | (some sequence, s) =>
      match s.advanceBoundary with
      | (false, s) => (none, s)
      | (true, s) =>
        -- Capacity was checked; no external work issued.
        if 0 ∉ s.mutations then (none, s)
        else
          (some ⟨s.identity, sequence⟩,
            { s with
              mutations := s.mutations.replace 0 sequence
              pendingMutations := s.pendingMutations + 1
              setupComplete := if s.activatedOnce then s.setupComplete else false })

/-- Even a failed or exhausted instance must retain late resource facts. -/
def finishMutation (s : InstanceState) (ticket : MutationTicket) : Bool × InstanceState :=
  if ticket.owner ≠ s.identity ∨ ticket.sequence = 0 then (false, s)
  else if ticket.sequence ∉ s.mutations then (false, s)
  else
    (true, { s with
      mutations := s.mutations.replace ticket.sequence 0
      pendingMutations := s.pendingMutations - 1 }.advanceBoundary.2)

def captureRoot (s : InstanceState) (ref : InstanceId) : Bool × InstanceState :=
  if ref ≠ s.identity ∨ s.rootBound ∨ s.cleanup = .retired then (false, s)
  else (true, { s with rootBound := true }.advanceBoundary.2)

def verifyProfile (s : InstanceState) (ref : InstanceId) : Bool × InstanceState :=
  if ref ≠ s.identity ∨ s.cleanup = .retired then (false, s)
  else (true, { s with profileVerified := true })

def completeSetup (s : InstanceState) (ref : InstanceId) : Bool × InstanceState :=
  if ref ≠ s.identity ∨ !s.rootBound ∨ !s.profileVerified ∨ s.processExited ∨ s.stopLatched ∨
      s.fault ≠ .none ∨ s.pendingMutations ≠ 0 ∨ s.cleanup ≠ .notStarted then (false, s)
  else (true, { s with setupComplete := true })

def activate (s : InstanceState) (ref : InstanceId) : Bool × InstanceState :=
  if ref ≠ s.identity ∨ s.activatedOnce ∨ s.stopLatched ∨ s.processExited ∨ s.fault ≠ .none ∨
      !s.rootBound ∨ !s.profileVerified ∨ !s.setupComplete ∨ s.pendingMutations ≠ 0 ∨
      s.cleanup ≠ .notStarted then (false, s)
  else (true, { s with activatedOnce := true, active := true })

def stop (s : InstanceState) (ref : InstanceId) : Bool × InstanceState :=
  if ref ≠ s.identity then (false, s)
  else if s.cleanup = .retired ∨ s.stopLatched then (true, s)
  else
    (true, { s with stopLatched := true, active := false, cleanup := .stopping }.advanceBoundary.2)

def reportInitialProcessExit (s : InstanceState) (ref : InstanceId) : Bool × InstanceState :=
  if ref ≠ s.identity ∨ s.cleanup = .retired ∨ s.initialProcessAbsent then (false, s)
  else
    let s := if s.processExited then s
      else { s with processExited := true, active := false }.advanceBoundary.2
    (true, (s.stop ref).2)

def reportInitialProcessReaped (s : InstanceState) (ref : InstanceId) : Bool × InstanceState :=
  if ref ≠ s.identity ∨ !s.processExited ∨ s.cleanup = .retired then (false, s)
  else (true, if s.processReaped then s else { s with processReaped := true }.advanceBoundary.2)

def reportNoInitialProcess (s : InstanceState) (ref : InstanceId) : Bool × InstanceState :=
  if ref ≠ s.identity ∨ s.cleanup = .retired ∨ s.active ∨ s.activatedOnce ∨ s.processExited ∨
      s.processReaped ∨ s.pendingMutations ≠ 0 then (false, s)
  else
    let s := if s.initialProcessAbsent then s
      else { s with initialProcessAbsent := true }.advanceBoundary.2
    (true, (s.stop ref).2)

/-- No root was removed, and no exit or reap is fabricated. -/
def retireUnallocated (s : InstanceState) (ref : InstanceId) : Bool × InstanceState :=
  if ref ≠ s.identity ∨ s.rootBound ∨ !s.initialProcessAbsent ∨ !s.stopLatched ∨
      s.pendingMutations ≠ 0 ∨ s.observation.isSome ∨ s.cleanupStep.isSome ∨ s.fault ≠ .none ∨
      s.cleanup = .retired then (false, s)
  else (true, { s with cleanup := .retired })

def beginObservation (s : InstanceState) (ref : InstanceId) : Option ObservationTicket × InstanceState :=
  if ref ≠ s.identity ∨ !s.rootBound ∨ s.observation.isSome ∨ s.cleanupStep.isSome ∨
      s.fault ≠ .none ∨ s.cleanup = .retired then (none, s)
  else match s.issueSequence with
    | (none, s) => (none, s)
    | (some sequence, s) =>
      let ticket : ObservationTicket := ⟨s.identity, sequence, s.boundary⟩
      (some ticket,
        { s.invalidatePopulation with observationExpired := false, observation := some ticket })

def blockCleanup (s : InstanceState) : InstanceState :=
  { s with cleanup := if s.cleanup = .retired then .retired else .blocked }

/-- While Stop is latched, what is not an empty root blocks the cleanup. -/
def blockStopped (s : InstanceState) : InstanceState := if s.stopLatched then s.blockCleanup else s

def finishObservation (s : InstanceState) (ticket : ObservationTicket) (population : Population) :
    Bool × InstanceState :=
  if s.observation ≠ some ticket then (false, s)
  else
    let current := ticket.owner = s.identity ∧ ticket.boundary = s.boundary ∧ s.fault = .none ∧
      s.cleanup ≠ .retired ∧ s.observationExpired = false
    let s := { s with observation := none, observationExpired := false }
    if ¬ current then (false, s)
    else
      let seen := { s with
        population, populationBoundary := some s.boundary, populationSequence := ticket.sequence }
      match population with
      | .empty => (true, seen)
      | .populated => (true, seen.blockStopped)
      | .unknown => (true, s.invalidatePopulation.blockStopped)
      -- A missing read cannot authorize retirement; actual removal has a distinct result.
      | .removed => (false, s.invalidatePopulation.blockStopped)

/-- The initial process is gone: there never was one, or it exited and was
reaped. -/
def processGone (s : InstanceState) : Bool :=
  s.initialProcessAbsent || (s.processExited && s.processReaped)

def finishConfirmedRemoval (s : InstanceState) (ticket : ObservationTicket) : Bool × InstanceState :=
  if s.observation ≠ some ticket then (false, s)
  else
    let current := s.observationExpired = false ∧ ticket.owner = s.identity ∧
      ticket.boundary = s.boundary ∧ s.fault = .none ∧ s.cleanup ≠ .retired ∧ s.stopLatched ∧
      s.rootBound ∧ s.processGone ∧ s.pendingMutations = 0 ∧ s.cleanupStep = none
    let s := { s with observation := none, observationExpired := false }
    if ¬ current then (false, s)
    else (true, { s with population := .removed, cleanup := .retired })

def observationTimedOut (s : InstanceState) (ticket : ObservationTicket) : Bool × InstanceState :=
  if s.observation ≠ some ticket then (false, s)
  else (true, { s with observationExpired := true }.invalidatePopulation.blockStopped)

def acknowledgeObservationCancellation (s : InstanceState) (ticket : ObservationTicket) :
    Bool × InstanceState :=
  if s.observation ≠ some ticket then (false, s)
  else (true, { s with observation := none, observationExpired := false }.invalidatePopulation)

def closedEmptyBoundary (s : InstanceState) : Bool :=
  s.fault = .none && s.stopLatched && s.rootBound && s.processGone && s.pendingMutations = 0 &&
    s.observation.isNone && s.population = .empty && s.populationBoundary = some s.boundary &&
    s.populationSequence ≠ 0

def canBeginCleanup (s : InstanceState) : Bool :=
  s.cleanup ≠ .retired && s.cleanupStep.isNone && s.closedEmptyBoundary

def beginCleanupStep (s : InstanceState) (ref : InstanceId) : Option CleanupTicket × InstanceState :=
  if ref ≠ s.identity ∨ !s.canBeginCleanup then (none, s)
  else match s.issueSequence with
    | (none, s) => (none, s)
    | (some sequence, s) =>
      let ticket : CleanupTicket := ⟨s.identity, sequence, s.boundary, s.populationSequence⟩
      (some ticket, { s with cleanupStep := some ticket, cleanup := .reclaiming })

/-- The slot of the still executing worker is not freed. -/
def cleanupTimedOut (s : InstanceState) (ticket : CleanupTicket) : Bool × InstanceState :=
  if s.cleanupStep ≠ some ticket then (false, s)
  else (true, { s with cleanup := .blocked })

def finishCleanupStep (s : InstanceState) (ticket : CleanupTicket) (result : CleanupResult) :
    Bool × InstanceState :=
  if s.cleanupStep ≠ some ticket then (false, s)
  else
    let s := { s with cleanupStep := none }
    if ticket.owner ≠ s.identity ∨ ticket.boundary ≠ s.boundary ∨
        ticket.observationSequence ≠ s.populationSequence ∨ !s.closedEmptyBoundary then
      (false, s.blockCleanup.invalidatePopulation)
    else match result with
      | .reclaimed => (true, { s with population := .removed, cleanup := .retired })
      -- A timed out step remains explicitly blocked. The controller decides on a retry.
      | .progress =>
        (true, { s with cleanup := if s.cleanup = .blocked then .blocked else .reclaiming })
      | .failed => (true, s.blockCleanup.invalidatePopulation)

def acknowledgeCleanupCancellation (s : InstanceState) (ticket : CleanupTicket) :
    Bool × InstanceState :=
  if s.cleanupStep ≠ some ticket then (false, s)
  else (true, { s with cleanupStep := none }.invalidatePopulation.blockCleanup)

def restartAllowed (s : InstanceState) : Bool :=
  s.fault = .none && s.cleanup = .retired && s.pendingMutations = 0 && s.observation.isNone &&
    s.cleanupStep.isNone && s.stopLatched && s.processGone && !s.active

end InstanceState

/-! ## Runs -/

inductive InstanceCall where
  | beginMutation (ref : InstanceId)
  | finishMutation (ticket : MutationTicket)
  | captureRoot (ref : InstanceId)
  | verifyProfile (ref : InstanceId)
  | completeSetup (ref : InstanceId)
  | activate (ref : InstanceId)
  | stop (ref : InstanceId)
  | reportInitialProcessExit (ref : InstanceId)
  | reportInitialProcessReaped (ref : InstanceId)
  | reportNoInitialProcess (ref : InstanceId)
  | retireUnallocated (ref : InstanceId)
  | beginObservation (ref : InstanceId)
  | finishObservation (ticket : ObservationTicket) (population : Population)
  | finishConfirmedRemoval (ticket : ObservationTicket)
  | observationTimedOut (ticket : ObservationTicket)
  | acknowledgeObservationCancellation (ticket : ObservationTicket)
  | beginCleanupStep (ref : InstanceId)
  | cleanupTimedOut (ticket : CleanupTicket)
  | finishCleanupStep (ticket : CleanupTicket) (result : CleanupResult)
  | acknowledgeCleanupCancellation (ticket : CleanupTicket)
  deriving DecidableEq

inductive InstanceReply where
  | accepted (accepted : Bool)
  | mutation (ticket : Option MutationTicket)
  | observation (ticket : Option ObservationTicket)
  | cleanup (ticket : Option CleanupTicket)
  deriving DecidableEq

def InstanceReply.issues : InstanceReply → Bool
  | .accepted _ => false
  | .mutation ticket => ticket.isSome
  | .observation ticket => ticket.isSome
  | .cleanup ticket => ticket.isSome

def InstanceState.call (s : InstanceState) : InstanceCall → InstanceReply × InstanceState
  | .beginMutation ref => (s.beginMutation ref).map .mutation id
  | .finishMutation ticket => (s.finishMutation ticket).map .accepted id
  | .captureRoot ref => (s.captureRoot ref).map .accepted id
  | .verifyProfile ref => (s.verifyProfile ref).map .accepted id
  | .completeSetup ref => (s.completeSetup ref).map .accepted id
  | .activate ref => (s.activate ref).map .accepted id
  | .stop ref => (s.stop ref).map .accepted id
  | .reportInitialProcessExit ref => (s.reportInitialProcessExit ref).map .accepted id
  | .reportInitialProcessReaped ref => (s.reportInitialProcessReaped ref).map .accepted id
  | .reportNoInitialProcess ref => (s.reportNoInitialProcess ref).map .accepted id
  | .retireUnallocated ref => (s.retireUnallocated ref).map .accepted id
  | .beginObservation ref => (s.beginObservation ref).map .observation id
  | .finishObservation ticket population =>
    (s.finishObservation ticket population).map .accepted id
  | .finishConfirmedRemoval ticket => (s.finishConfirmedRemoval ticket).map .accepted id
  | .observationTimedOut ticket => (s.observationTimedOut ticket).map .accepted id
  | .acknowledgeObservationCancellation ticket =>
    (s.acknowledgeObservationCancellation ticket).map .accepted id
  | .beginCleanupStep ref => (s.beginCleanupStep ref).map .cleanup id
  | .cleanupTimedOut ticket => (s.cleanupTimedOut ticket).map .accepted id
  | .finishCleanupStep ticket result => (s.finishCleanupStep ticket result).map .accepted id
  | .acknowledgeCleanupCancellation ticket =>
    (s.acknowledgeCleanupCancellation ticket).map .accepted id

end Andrix.Supervision
