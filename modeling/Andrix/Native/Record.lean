import Andrix.Native.Admission

/-! The work records of a registry. A record's metadata is guarded by its mutex; the
word of its stop requests, its gate and the creators' budget are shared without it.
A call is cut into actions at every access to what is shared without the mutex. A
loop that retries a compare and exchange is the one action of its last round, and a
change of the metadata that follows such an action at once is made with it: nobody
else can see the metadata in between. -/
namespace Andrix.Native
open Andrix.Lib

def kStopMask : UInt32 := 15

def kComplete : UInt32 := 16

inductive WorkInitialState
  | notRequested
  | unknown
  | absent
  | owned
  | exited
  | reaped
  deriving DecidableEq, Repr

inductive WorkScopeState
  | notRequested
  | unknown
  | absent
  | captured
  | reclaimed
  deriving DecidableEq, Repr

inductive WorkPopulation
  | unknown
  | populated
  | empty
  deriving DecidableEq, Repr

inductive WorkExitKind
  | unknown
  | code
  | signal
  deriving DecidableEq, Repr

structure WorkExit where
  kind : WorkExitKind := .unknown
  value : Int := 0
  deriving DecidableEq, Repr

def WorkExit.valid (exit : WorkExit) : Bool :=
  (exit.kind = .code && 0 ≤ exit.value && exit.value ≤ 255) ||
    (exit.kind = .signal && 0 < exit.value && exit.value ≤ 64)

structure WorkScopeIdentity where
  device : UInt64 := 0
  inode : UInt64 := 0
  deriving DecidableEq, Repr

def WorkScopeIdentity.valid (identity : WorkScopeIdentity) : Bool :=
  identity.device ≠ 0 && identity.inode ≠ 0

inductive WorkResourceFact
  | absent
  | captured
  | unknown
  deriving DecidableEq, Repr

inductive WorkCleanupResult
  | progress
  | failed
  | reclaimed
  deriving DecidableEq, Repr

inductive WorkRegistryFault
  | none
  | unknownResources
  | sequenceExhausted
  | invalidAdmission
  deriving DecidableEq, Repr

inductive WorkStopSource
  | owner
  | authority
  | manager
  | backendFailure
  deriving DecidableEq, Repr

def WorkStopSource.bit : WorkStopSource → UInt32
  | .owner => 1
  | .authority => 2
  | .manager => 4
  | .backendFailure => 8

inductive WorkRegistryResult
  | accepted
  | existing
  | pending
  | invalid
  | foreign
  | stale
  | capacity
  | exhausted
  | closed
  | conflict
  | wrongState
  | incomplete
  | notFound
  deriving DecidableEq, Repr

structure WorkIoIdentity where
  manager : UInt64 := 0
  serial : UInt64 := 0
  deriving DecidableEq, Repr

/-- A binding of the pool. Two bindings are the same only at the same address, also
where they carry the same numbers. -/
structure PoolBinding where
  address : Nat
  identity : WorkIoIdentity
  deriving DecidableEq, Repr

/-- The standard streams of a start: a closed plan or a binding of the pool. -/
structure WorkIoBinding where
  closedPlan : Bool := false
  binding : Option PoolBinding := none
  deriving DecidableEq, Repr

def WorkIoBinding.isSet (stdio : WorkIoBinding) : Bool := stdio.closedPlan || stdio.binding.isSome

def WorkIoBinding.identity (stdio : WorkIoBinding) : WorkIoIdentity :=
  (stdio.binding.map PoolBinding.identity).getD {}

structure WorkSnapshot where
  work : WorkIdentity
  stream : UInt64 := 0
  requestSequence : UInt64 := 0
  startAccepted : Bool := false
  admissionPending : Bool := false
  creatorPending : Bool := false
  stdioConfigured : Bool := false
  stdioClosedPlan : Bool := false
  stdio : WorkIoIdentity := {}
  entryClaimed : Bool := false
  entryGateClosed : Bool := false
  stopSources : UInt32 := 0
  epoch : Option AuthorityEpoch := none
  admission : AdmissionResult := .invalid
  initial : WorkInitialState := .notRequested
  initialExit : WorkExit := {}
  scope : WorkScopeState := .notRequested
  scopeIdentity : WorkScopeIdentity := {}
  population : WorkPopulation := .unknown
  observationPending : Bool := false
  cleanupPending : Bool := false
  blocked : Bool := false
  complete : Bool := false
  forgotten : Bool := false
  fault : WorkRegistryFault := .none
  launchError : Int := 0
  cleanupError : Int := 0
  deriving DecidableEq, Repr

/-- What a record's mutex guards. -/
structure RecordData where
  state : WorkSnapshot
  description : List UInt8 := []
  stdio : WorkIoBinding := {}
  sequence : UInt64 := 0
  observation : UInt64 := 0
  cleanup : UInt64 := 0
  observationInvalid : Bool := false
  creatorCharged : Bool := false
  permanentFault : Bool := false
  deriving DecidableEq, Repr

namespace RecordData

def initialAccounted (d : RecordData) : Bool :=
  d.state.initial = .absent || d.state.initial = .reaped

def boundaryClosed (d : RecordData) : Bool :=
  d.state.startAccepted && !d.state.admissionPending && !d.state.creatorPending && d.initialAccounted

def initialFact (d : RecordData) (fact : WorkResourceFact) : Bool :=
  match fact with
  | .captured => d.state.initial = .owned || d.state.initial = .exited || d.state.initial = .reaped
  | .absent | .unknown => d.state.initial = .unknown

def scopeFact (d : RecordData) (fact : WorkResourceFact) : Bool :=
  match fact with
  | .captured => d.state.scope = .captured
  | .absent | .unknown => d.state.scope = .unknown

/-- Whether a record without a scope can be settled. -/
def settlesAbsentScope (d : RecordData) : Bool :=
  !d.permanentFault && d.boundaryClosed && d.state.scope = .absent && d.observation = 0 &&
    d.cleanup = 0 && !d.state.complete

end RecordData

structure Record where
  mutex : Option Nat := none
  data : RecordData
  requests : UInt32 := 0
  operationLimit : UInt64
  deriving DecidableEq, Repr

/-- The part of a registry that its records share, with the records and their gates:
every record has a gate of its own. -/
structure WorkSystem where
  manager : UInt64
  mutex : Option Nat := none
  closed : Bool := false
  used : Nat := 0
  maximum : Nat
  records : Nat → Record
  gates : Nat → Shared

namespace WorkSystem

def setRecord (s : WorkSystem) (r : Nat) (record : Record) : WorkSystem :=
  { s with records := fun n => if n = r then record else s.records n }

def setData (s : WorkSystem) (r : Nat) (data : RecordData) : WorkSystem :=
  s.setRecord r { s.records r with data }

def setUsed (s : WorkSystem) (used : Nat) : WorkSystem := { s with used }

def setGate (s : WorkSystem) (r : Nat) (gate : Shared) : WorkSystem :=
  { s with gates := fun n => if n = r then gate else s.gates n }

end WorkSystem

namespace WorkRecord

abbrev Action := Program WorkSystem

def data (r : Nat) : Action RecordData := .load fun s => (s.records r).data

def modify (r : Nat) (change : RecordData → RecordData) : Action Unit :=
  .store fun s => s.setData r (change (s.records r).data)

def onGate {α : Type} (r : Nat) (p : Program Shared α) : Action α :=
  p.zoom (fun s => s.gates r) fun gate s => s.setGate r gate

def lock (thread r : Nat) : Action Unit :=
  .await (fun s => (s.records r).mutex = none)
    fun s => s.setRecord r { s.records r with mutex := some thread }

def unlock (r : Nat) : Action Unit :=
  .store fun s => s.setRecord r { s.records r with mutex := none }

/-- A call that holds the record's mutex until it returns. -/
def locked {α : Type} (thread r : Nat) (p : Action α) : Action α := do
  lock thread r
  let result ← p
  unlock r
  pure result

/-- Sets the bit of the source unless the record is complete; true for the first
request of this source. -/
def request (r : Nat) (source : WorkStopSource) : Action Bool :=
  .atomic fun s =>
    let requests := (s.records r).requests
    if has requests kComplete || has requests source.bit then (false, s)
    else (true, s.setRecord r { s.records r with requests := requests ||| source.bit })

/-- Every caller closes the gate before it returns. -/
def stop (r : Nat) (source : WorkStopSource) : Action Bool := do
  let first ← request r source
  let _ ← onGate r WorkAdmission.stop
  pure first

def terminationRequested (r : Nat) : Action Bool :=
  .load fun s => (s.records r).requests &&& kStopMask ≠ 0

def acquireCreator (r : Nat) : Action Bool :=
  .atomic fun s =>
    if s.used < s.maximum then
      (true, (s.setUsed (s.used + 1)).setData r { (s.records r).data with creatorCharged := true })
    else (false, s)

def releaseCreator (r : Nat) : Action Unit :=
  .store fun s =>
    if (s.records r).data.creatorCharged then
      (s.setUsed (s.used - 1)).setData r { (s.records r).data with creatorCharged := false }
    else s

def settle (r : Nat) : Action Unit := do
  let _ ← onGate r WorkAdmission.stop
  .store fun s =>
    let record := s.records r
    s.setRecord r
      { record with
        requests := record.requests ||| kComplete
        data :=
          { record.data with
            state :=
              { record.data.state with
                stopSources := record.requests &&& kStopMask
                complete := true
                blocked := false } } }

def settleAbsentScope (r : Nat) : Action Unit := do
  let d ← data r
  if d.settlesAbsentScope then settle r else pure ()

def settleUnstarted (r : Nat) : Action Unit := do
  let d ← data r
  if d.state.startAccepted || d.state.complete then pure ()
  else do
    let phase ← onGate r WorkAdmission.phase
    if phase ≠ .stopped then pure ()
    else do
      modify r fun d => { d with state := { d.state with initial := .absent, scope := .absent } }
      settle r

def issue (r : Nat) : Action UInt64 := do
  let d ← data r
  let limit ← .load fun s => (s.records r).operationLimit
  if d.permanentFault || d.sequence ≥ limit then do
    modify r fun d =>
      { d with
        permanentFault := true
        state :=
          { d.state with
            fault := if d.state.fault = .none then .sequenceExhausted else d.state.fault
            blocked := true } }
    let _ ← stop r .backendFailure
    pure 0
  else do
    modify r fun d => { d with sequence := d.sequence + 1 }
    pure (d.sequence + 1)

/-- The sources of a complete record are fixed. -/
def knownSources (r : Nat) (d : RecordData) : Action UInt32 :=
  if d.state.complete then pure d.state.stopSources
  else .load fun s => (s.records r).requests &&& kStopMask

def snapshot (thread r : Nat) : Action WorkSnapshot :=
  locked thread r do
    settleUnstarted r
    let d ← data r
    let entered ← onGate r WorkAdmission.entered
    let phase ← onGate r WorkAdmission.phase
    let epoch ← onGate r WorkAdmission.epoch
    let sources ← knownSources r d
    pure
      { d.state with
        entryClaimed := entered
        entryGateClosed := phase = .stopped
        epoch := epoch
        stopSources := sources
        observationPending := d.observation ≠ 0
        cleanupPending := d.cleanup ≠ 0 }

/-! ## The holders of a record -/

def cancelUnstarted (thread r : Nat) : Action Bool :=
  locked thread r do
    let d ← data r
    if d.state.startAccepted then pure false
    else do
      let _ ← stop r .manager
      settleUnstarted r
      pure true

/-- Whether a reported admission contradicts the phase of the gate. -/
def contradicts (result : AdmissionResult) (phase : AdmissionPhase) : Bool :=
  (result = .accepted && phase ≠ .admitted && phase ≠ .stopped) ||
    (result ≠ .accepted && phase ≠ .unbound && phase ≠ .stopped)

/-- Only an accepted admission asks for the epoch of the gate. -/
def acceptedEpoch (r : Nat) (result : AdmissionResult) : Action (Option AuthorityEpoch) :=
  if result = .accepted then onGate r WorkAdmission.epoch else pure (some {})

/-- Only an admitted work asks whether its termination was requested. -/
def refused (r : Nat) (result : AdmissionResult) (phase : AdmissionPhase) : Action Bool :=
  if result = .accepted && phase = .admitted then terminationRequested r else pure true

def admissionFinished (thread r : Nat) (result : AdmissionResult) : Action Bool :=
  locked thread r do
    let d ← data r
    if !d.state.admissionPending || d.state.complete then pure false
    else do
      let phase ← onGate r WorkAdmission.phase
      if contradicts result phase then do
        -- The admission slot stays occupied.
        modify r fun d =>
          { d with
            permanentFault := true
            state := { d.state with fault := .invalidAdmission, blocked := true } }
        let _ ← stop r .backendFailure
        pure false
      else if d.permanentFault then pure false
      else do
        let epoch ← acceptedEpoch r result
        if epoch.isNone && phase ≠ .stopped then pure false
        else do
          let result := if epoch.isNone then .stopped else result
          modify r fun d =>
            { d with state := { d.state with admissionPending := false, admission := result } }
          let refuses ← refused r result phase
          if !refuses then do
            modify r fun d =>
              { d with
                state :=
                  { d.state with creatorPending := true, initial := .unknown, scope := .unknown } }
            pure true
          else do
            modify r fun d =>
              { d with
                state :=
                  { d.state with
                    admission := if result = .accepted then .stopped else d.state.admission
                    initial := .absent
                    scope := .absent } }
            releaseCreator r
            settle r
            pure false

def captureScope (thread r : Nat) (identity : WorkScopeIdentity) : Action Bool :=
  if !identity.valid then pure false
  else locked thread r do
    let d ← data r
    if !d.state.creatorPending || d.state.complete then pure false
    else if d.state.scope = .captured then pure (d.state.scopeIdentity = identity)
    else if d.state.scope ≠ .unknown then pure false
    else do
      modify r fun d =>
        { d with state := { d.state with scope := .captured, scopeIdentity := identity } }
      pure true

def initialCreated (thread r : Nat) : Action Bool :=
  locked thread r do
    let d ← data r
    if !d.state.creatorPending || d.state.complete || d.state.initial ≠ .unknown then pure false
    else do
      modify r fun d => { d with state := { d.state with initial := .owned } }
      pure true

def initialExited (thread r : Nat) (exit : WorkExit) : Action Bool :=
  if !exit.valid then pure false
  else locked thread r do
    let d ← data r
    if d.state.complete then pure false
    else if d.state.initial = .exited || d.state.initial = .reaped then
      pure (d.state.initialExit = exit)
    else if d.state.initial ≠ .owned then pure false
    else do
      modify r fun d => { d with state := { d.state with initial := .exited, initialExit := exit } }
      let _ ← onGate r WorkAdmission.stop
      pure true

def initialReaped (thread r : Nat) : Action Bool :=
  locked thread r do
    let d ← data r
    if d.state.complete then pure false
    else if d.state.initial = .reaped then pure true
    else if d.state.initial ≠ .exited then pure false
    else do
      modify r fun d => { d with state := { d.state with initial := .reaped } }
      settleAbsentScope r
      pure true

/-- A stop that a call makes only on a condition. -/
def stopIf (r : Nat) (condition : Bool) (source : WorkStopSource) : Action Unit :=
  if condition then do
    let _ ← stop r source
    pure ()
  else pure ()

def quarantineIf (r : Nat) (condition : Bool) : Action Unit :=
  if condition then do
    modify r fun d =>
      { d with
        permanentFault := true
        state := { d.state with fault := .unknownResources, blocked := true } }
    let _ ← stop r .backendFailure
    pure ()
  else pure ()

/-- The gate of a work without an initial process is closed. -/
def closeAbsent (r : Nat) : Action Unit := do
  let d ← data r
  if d.state.initial = .absent then do
    let _ ← onGate r WorkAdmission.stop
    pure ()
  else pure ()

def creatorFinished (thread r : Nat) (initial scope : WorkResourceFact) (error : Int) : Action Bool :=
  if error < 0 then pure false
  else locked thread r do
    let d ← data r
    if !d.state.creatorPending || d.state.complete || !d.initialFact initial || !d.scopeFact scope then
      pure false
    else do
      let entered ← onGate r WorkAdmission.entered
      if entered && (initial = .absent || scope = .absent) then pure false
      else do
        modify r fun d =>
          { d with
            state :=
              { d.state with
                creatorPending := false
                launchError :=
                  if error ≠ 0 && d.state.launchError = 0 then error else d.state.launchError
                initial := if initial = .absent then .absent else d.state.initial
                scope := if scope = .absent then .absent else d.state.scope } }
        stopIf r (error ≠ 0) .backendFailure
        quarantineIf r (initial = .unknown || scope = .unknown)
        releaseCreator r
        closeAbsent r
        settleAbsentScope r
        pure true

def abort (thread r : Nat) (error : Int) : Action Bool :=
  if error ≤ 0 then pure false
  else do
    let requested ← stop r .backendFailure
    locked thread r do
      modify r fun d =>
        if !d.state.complete && d.state.launchError = 0 then
          { d with state := { d.state with launchError := error } }
        else d
    pure requested

def observe (thread r : Nat) : Action (Option UInt64) :=
  locked thread r do
    let d ← data r
    if d.state.complete || d.permanentFault || !d.boundaryClosed || d.state.scope ≠ .captured ||
        d.observation ≠ 0 || d.cleanup ≠ 0 then pure none
    else do
      let sequence ← issue r
      if sequence = 0 then pure none
      else do
        modify r fun d =>
          { d with
            observation := sequence
            observationInvalid := false
            state := { d.state with population := .unknown } }
        pure (some sequence)

def reclaim (thread r : Nat) : Action (Option UInt64) :=
  locked thread r do
    let d ← data r
    if d.state.complete || d.permanentFault || !d.boundaryClosed || d.state.scope ≠ .captured ||
        d.state.population ≠ .empty || d.observation ≠ 0 || d.cleanup ≠ 0 then pure none
    else do
      let phase ← onGate r WorkAdmission.phase
      if phase ≠ .stopped then pure none
      else do
        let sequence ← issue r
        if sequence = 0 then pure none
        else do
          modify r fun d => { d with cleanup := sequence }
          pure (some sequence)

/-- A call with an observation ticket, which only the outstanding one may make. -/
def withObservation (thread r : Nat) (sequence : UInt64) (change : RecordData → RecordData)
    (reply : RecordData → Bool) : Action Bool :=
  locked thread r do
    let d ← data r
    if sequence = 0 || d.observation ≠ sequence then pure false
    else do
      modify r change
      pure (reply d)

def observationFinish (thread r : Nat) (sequence : UInt64) (population : WorkPopulation) :
    Action Bool :=
  withObservation thread r sequence
    (fun d =>
      { d with
        observation := 0
        observationInvalid := false
        state :=
          { d.state with
            population := if d.observationInvalid then .unknown else population
            blocked := if d.observationInvalid then d.state.blocked else false } })
    fun d => !d.observationInvalid

def observationTimedOut (thread r : Nat) (sequence : UInt64) : Action Bool :=
  withObservation thread r sequence
    (fun d =>
      { d with
        observationInvalid := true
        state := { d.state with population := .unknown, blocked := true } })
    fun _ => true

def observationCeased (thread r : Nat) (sequence : UInt64) : Action Bool :=
  withObservation thread r sequence
    (fun d =>
      { d with
        observation := 0
        observationInvalid := false
        state := { d.state with population := .unknown } })
    fun _ => true

def eIo : Int := 5

def cleanupFinish (thread r : Nat) (sequence : UInt64) (result : WorkCleanupResult) (error : Int) :
    Action Bool :=
  if error < 0 then pure false
  else locked thread r do
    let d ← data r
    if sequence = 0 || d.cleanup ≠ sequence then pure false
    else if result ≠ .failed && error ≠ 0 then pure false
    else do
      modify r fun d =>
        { d with
          cleanup := 0
          state :=
            { d.state with
              cleanupError := if result = .failed && error = 0 then eIo else error } }
      match result with
      | .reclaimed => do
        modify r fun d => { d with state := { d.state with scope := .reclaimed } }
        settle r
        pure true
      | .failed => do
        modify r fun d => { d with state := { d.state with population := .unknown, blocked := true } }
        pure true
      | .progress => do
        modify r fun d => { d with state := { d.state with blocked := false } }
        pure true

def withCleanup (thread r : Nat) (sequence : UInt64) (change : RecordData → RecordData) : Action Bool :=
  locked thread r do
    let d ← data r
    if sequence = 0 || d.cleanup ≠ sequence then pure false
    else do
      modify r change
      pure true

def cleanupTimedOut (thread r : Nat) (sequence : UInt64) : Action Bool :=
  withCleanup thread r sequence fun d => { d with state := { d.state with blocked := true } }

def cleanupCeased (thread r : Nat) (sequence : UInt64) : Action Bool :=
  withCleanup thread r sequence fun d =>
    { d with cleanup := 0, state := { d.state with population := .unknown } }

/-! ## The registry's calls on a record -/

def lockRegistry (thread : Nat) : Action Unit :=
  .await (fun s => s.mutex = none) fun s => { s with mutex := some thread }

def unlockRegistry : Action Unit := .store fun s => { s with mutex := none }

/-- A start with a description that decodes, under both mutexes. -/
def startLocked (r : Nat) (description : List UInt8) (stdio : WorkIoBinding) (available : Bool) :
    Action WorkRegistryResult := do
  let d ← data r
  if d.state.forgotten then pure .stale
  else if d.state.startAccepted then
    pure (if d.description = description && d.stdio = stdio then .existing else .conflict)
  else do
    settleUnstarted r
    let d ← data r
    let closed ← .load (·.closed)
    let phase ← onGate r WorkAdmission.phase
    if closed || d.state.complete || !available || phase = .stopped then pure .closed
    else do
      let phase ← onGate r WorkAdmission.phase
      if phase ≠ .unbound then pure .wrongState
      else do
        let acquired ← acquireCreator r
        if !acquired then pure .capacity
        else do
          modify r fun d =>
            { d with
              description := description
              stdio := stdio
              state :=
                { d.state with
                  stdioConfigured := true
                  stdioClosedPlan := stdio.closedPlan
                  stdio := stdio.identity
                  startAccepted := true
                  admissionPending := true } }
          pure .accepted

def start (decodes : List UInt8 → Bool) (thread r : Nat) (description : List UInt8)
    (stdio : WorkIoBinding) (available : Bool) : Action WorkRegistryResult :=
  if !stdio.isSet then pure .invalid
  else do
    let manager ← .load (·.manager)
    if !stdio.closedPlan && stdio.identity.manager ≠ manager then pure .foreign
    else if !decodes description then pure .invalid
    else do
      lockRegistry thread
      let result ← locked thread r (startLocked r description stdio (stdio.closedPlan || available))
      unlockRegistry
      pure result

def forget (thread r : Nat) : Action WorkRegistryResult :=
  locked thread r do
    settleUnstarted r
    let d ← data r
    if d.state.forgotten then pure .existing
    else if !d.state.complete then pure .incomplete
    else do
      modify r fun d => { d with state := { d.state with forgotten := true } }
      pure .accepted

def stopRecords (source : WorkStopSource) : List Nat → Action Unit
  | [] => pure ()
  | r :: rest => do
    let _ ← stop r source
    stopRecords source rest

/-- Closes the registry and stops the records of its table. -/
def close (thread : Nat) (source : WorkStopSource) (table : List Nat) : Action Unit := do
  lockRegistry thread
  .store fun s => { s with closed := true }
  stopRecords source table
  unlockRegistry

end WorkRecord

/-! ## The calls -/

inductive WorkCall
  | gate (r : Nat) (call : GateCall)
  | stop (r : Nat) (source : WorkStopSource)
  | cancelUnstarted (r : Nat)
  | inspect (r : Nat)
  | start (r : Nat) (description : List UInt8) (stdio : WorkIoBinding) (available : Bool)
  | forget (r : Nat)
  | close (source : WorkStopSource) (table : List Nat)
  | admissionFinished (r : Nat) (result : AdmissionResult)
  | captureScope (r : Nat) (identity : WorkScopeIdentity)
  | initialCreated (r : Nat)
  | initialExited (r : Nat) (exit : WorkExit)
  | initialReaped (r : Nat)
  | creatorFinished (r : Nat) (initial scope : WorkResourceFact) (error : Int)
  | abort (r : Nat) (error : Int)
  | observe (r : Nat)
  | reclaim (r : Nat)
  | observationFinish (r : Nat) (sequence : UInt64) (population : WorkPopulation)
  | observationTimedOut (r : Nat) (sequence : UInt64)
  | observationCeased (r : Nat) (sequence : UInt64)
  | cleanupFinish (r : Nat) (sequence : UInt64) (result : WorkCleanupResult) (error : Int)
  | cleanupTimedOut (r : Nat) (sequence : UInt64)
  | cleanupCeased (r : Nat) (sequence : UInt64)
  deriving DecidableEq, Repr

inductive WorkReply
  | gate (reply : GateReply)
  | flag (value : Bool)
  | result (result : WorkRegistryResult)
  | ticket (sequence : Option UInt64)
  | snapshot (snapshot : WorkSnapshot)
  | closed
  deriving DecidableEq, Repr

open WorkRecord in
def WorkCall.body (decodes : List UInt8 → Bool) (thread : Nat) : WorkCall → Program WorkSystem WorkReply
  | .gate r call => do
    let reply ← onGate r (call.body thread)
    pure (.gate reply)
  | .stop r source => do
    let first ← WorkRecord.stop r source
    pure (.flag first)
  | .cancelUnstarted r => do
    let cancelled ← WorkRecord.cancelUnstarted thread r
    pure (.flag cancelled)
  | .inspect r => do
    let snapshot ← WorkRecord.snapshot thread r
    pure (.snapshot snapshot)
  | .start r description stdio available => do
    let result ← WorkRecord.start decodes thread r description stdio available
    pure (.result result)
  | .forget r => do
    let result ← WorkRecord.forget thread r
    pure (.result result)
  | .close source table => do
    WorkRecord.close thread source table
    pure .closed
  | .admissionFinished r result => do
    let accepted ← WorkRecord.admissionFinished thread r result
    pure (.flag accepted)
  | .captureScope r identity => do
    let captured ← WorkRecord.captureScope thread r identity
    pure (.flag captured)
  | .initialCreated r => do
    let created ← WorkRecord.initialCreated thread r
    pure (.flag created)
  | .initialExited r exit => do
    let exited ← WorkRecord.initialExited thread r exit
    pure (.flag exited)
  | .initialReaped r => do
    let reaped ← WorkRecord.initialReaped thread r
    pure (.flag reaped)
  | .creatorFinished r initial scope error => do
    let finished ← WorkRecord.creatorFinished thread r initial scope error
    pure (.flag finished)
  | .abort r error => do
    let requested ← WorkRecord.abort thread r error
    pure (.flag requested)
  | .observe r => do
    let sequence ← WorkRecord.observe thread r
    pure (.ticket sequence)
  | .reclaim r => do
    let sequence ← WorkRecord.reclaim thread r
    pure (.ticket sequence)
  | .observationFinish r sequence population => do
    let valid ← WorkRecord.observationFinish thread r sequence population
    pure (.flag valid)
  | .observationTimedOut r sequence => do
    let marked ← WorkRecord.observationTimedOut thread r sequence
    pure (.flag marked)
  | .observationCeased r sequence => do
    let ceased ← WorkRecord.observationCeased thread r sequence
    pure (.flag ceased)
  | .cleanupFinish r sequence result error => do
    let finished ← WorkRecord.cleanupFinish thread r sequence result error
    pure (.flag finished)
  | .cleanupTimedOut r sequence => do
    let marked ← WorkRecord.cleanupTimedOut thread r sequence
    pure (.flag marked)
  | .cleanupCeased r sequence => do
    let ceased ← WorkRecord.cleanupCeased thread r sequence
    pure (.flag ceased)

/-- A registry without anything started: the limits of its configuration, and for
every record its work, its stream, its request and a gate reserved for the work. -/
def WorkSystem.fresh (manager : UInt64) (creators : Nat) (operationLimit : UInt64)
    (works : Nat → WorkIdentity) (streams sequences : Nat → UInt64) : WorkSystem where
  manager := manager
  maximum := creators
  records := fun r =>
    { data :=
        { state := { work := works r, stream := streams r, requestSequence := sequences r } }
      operationLimit := operationLimit }
  gates := fun r => { work := works r }

/-- What an inspection of the record shows where it finds nothing to settle. -/
def WorkSystem.snapshotOf (s : WorkSystem) (r : Nat) : WorkSnapshot :=
  let record := s.records r
  let gate := s.gates r
  { record.data.state with
    entryClaimed := has gate.flags kEntered
    entryGateClosed := phaseOf gate.flags = .stopped
    epoch := if has gate.flags kBound then some gate.epoch else none
    stopSources :=
      if record.data.state.complete then record.data.state.stopSources
      else record.requests &&& kStopMask
    observationPending := record.data.observation ≠ 0
    cleanupPending := record.data.cleanup ≠ 0 }

end Andrix.Native
