import Andrix.Native.LaunchDescription
import Andrix.Native.Record

/-! The table of a work registry: the request streams, the slots of the reservations
and the records behind them. Every call here takes the registry's mutex, so a run is a
list of calls. What a call finds outside of the registry comes with the call: how
often a stream, a record or a gate is referenced, the phases that a gate shows, and
whether a record is complete. -/
namespace Andrix.Native
open Andrix.Lib

def kMaximumRecords : Nat := 256

def kMaximumStreams : Nat := 256

structure WorkRegistryLimits where
  records : Nat
  requestStreams : Nat
  creators : Nat
  launch : LaunchLimits := {}
  workSerialLimit : UInt64
  streamSerialLimit : UInt64
  operationLimit : UInt64
  deriving DecidableEq, Repr

def validLimits (manager : UInt64) (limits : WorkRegistryLimits) : Bool :=
  manager ≠ 0 && limits.records ≠ 0 && limits.records ≤ kMaximumRecords &&
    limits.requestStreams ≠ 0 && limits.requestStreams ≤ kMaximumStreams &&
    limits.creators ≤ limits.records && limits.launch.bytes ≥ 24 &&
    limits.launch.bytes ≤ 1024 * 1024 && limits.launch.arguments ≠ 0 &&
    limits.launch.arguments ≤ 4096 && limits.launch.environment ≤ 4096

structure Stream where
  highWater : UInt64 := 0
  closed : Bool := false
  deriving DecidableEq, Repr

inductive ReservationState
  | empty
  | allocating
  | ready
  | failed
  deriving DecidableEq, Repr

/-- One place of the table; a record is named by its number. -/
structure Slot where
  work : WorkIdentity := {}
  stream : UInt64 := 0
  requestSequence : UInt64 := 0
  phase : ReservationState := .empty
  cancelled : Bool := false
  error : Int := 0
  record : Option Nat := none
  deriving DecidableEq, Repr

/-- The registry's own state. A stream is found by its serial also after its place in
the table was taken, as a handle would find it. -/
structure Registry where
  manager : UInt64
  limits : WorkRegistryLimits
  valid : Bool
  closed : Bool
  workSerial : UInt64 := 0
  streamSerial : UInt64 := 0
  slots : List Slot
  streams : List (Option UInt64)
  streamOf : UInt64 → Stream := fun _ => {}
  forgotten : List Bool := []

/-- What a caller holds of a stream. -/
inductive WorkRequestStream
  | empty
  | foreign
  | own (serial : UInt64)
  deriving DecidableEq, Repr

inductive WorkReservation
  | empty
  | foreign
  | own (work : WorkIdentity)
  deriving DecidableEq, Repr

inductive WorkControl
  | empty
  | foreign
  | own (record : Nat)
  deriving DecidableEq, Repr

structure WorkReserveReply where
  result : WorkRegistryResult := .invalid
  work : WorkIdentity := {}
  allocation : WorkReservation := .empty
  control : WorkControl := .empty
  error : Int := 0
  deriving DecidableEq, Repr

/-- How many pointers to a record and to its gate there are. -/
structure UseCounts where
  record : Nat → Nat
  gate : Nat → Nat

/-- The gate that a finished allocation brings, with the phases that it shows at the
three times it is asked. -/
structure ReservedGate where
  work : WorkIdentity
  first : AdmissionPhase
  second : AdmissionPhase
  third : AdmissionPhase
  deriving DecidableEq, Repr

def eCanceled : Int := 125

namespace Registry

def new (manager : UInt64) (limits : WorkRegistryLimits) : Registry :=
  let valid := validLimits manager limits
  { manager, limits, valid
    closed := !valid
    slots := List.replicate (if valid then limits.records else 0) {}
    streams := List.replicate (if valid then limits.requestStreams else 0) none }

def setStream (g : Registry) (serial : UInt64) (stream : Stream) : Registry :=
  { g with streamOf := fun n => if n = serial then stream else g.streamOf n }

def isForgotten (g : Registry) (record : Option Nat) : Bool :=
  (record.bind fun n => g.forgotten[n]?).getD false

def findSlot (g : Registry) (work : WorkIdentity) : Option Nat :=
  if work.serial = 0 || work.manager ≠ g.manager then none
  else g.slots.findIdx? fun slot => slot.phase ≠ .empty && slot.work = work

/-- A place is free, or its stream is closed and nobody else points to it. -/
def streamFree (g : Registry) (alone : UInt64 → Bool) : Option UInt64 → Bool
  | none => true
  | some serial => (g.streamOf serial).closed && alone serial

def openStream (g : Registry) (alone : UInt64 → Bool) : WorkRequestStream × Registry :=
  if g.closed || g.streamSerial ≥ g.limits.streamSerialLimit then (.empty, g)
  else
    match g.streams.findIdx? (g.streamFree alone) with
    | none => (.empty, g)
    | some place =>
      let serial := g.streamSerial + 1
      (.own serial,
        { g with streamSerial := serial, streams := g.streams.set place (some serial) }.setStream
          serial {})

def findStream (g : Registry) (identity : UInt64) : WorkRequestStream :=
  if identity = 0 || g.closed then .empty
  else if g.streams.any fun entry => entry = some identity && !(g.streamOf identity).closed then
    .own identity
  else .empty

def closeStream (g : Registry) : WorkRequestStream → Bool × Registry
  | .empty | .foreign => (false, g)
  | .own serial =>
    (true,
      { g.setStream serial { g.streamOf serial with closed := true } with
        slots := g.slots.map fun slot =>
          if slot.phase = .allocating && slot.stream = serial then { slot with cancelled := true }
          else slot })

def streamUnused (g : Registry) : WorkRequestStream → Bool
  | .empty | .foreign => false
  | .own serial => !g.closed && !(g.streamOf serial).closed && (g.streamOf serial).highWater = 0

def closeStreamIfUnused (g : Registry) : WorkRequestStream → Bool × Registry
  | .empty | .foreign => (false, g)
  | .own serial =>
    if g.closed || (g.streamOf serial).closed || (g.streamOf serial).highWater ≠ 0 then (false, g)
    else (true, g.setStream serial { g.streamOf serial with closed := true })

/-- The answer for a request whose slot is still in the table. -/
def retained (g : Registry) (slot : Slot) : WorkReserveReply :=
  match slot.phase with
  | .allocating => { result := .pending, work := slot.work }
  | .failed => { result := .closed, work := slot.work, error := slot.error }
  | .empty | .ready =>
    if g.isForgotten slot.record then { result := .stale, work := slot.work }
    else
      { result := .existing
        work := slot.work
        control := (slot.record.map WorkControl.own).getD .empty }

def findRequest (g : Registry) (stream sequence : UInt64) : Option Slot :=
  g.slots.find? fun slot =>
    slot.phase ≠ .empty && slot.stream = stream && slot.requestSequence = sequence

/-- A slot that a new reservation may take. -/
def slotFree (g : Registry) (counts : UseCounts) (slot : Slot) : Bool :=
  slot.phase = .empty || slot.phase = .failed ||
    (slot.phase = .ready && slot.record.any (fun n => counts.record n = 1) &&
      g.isForgotten slot.record && slot.record.any fun n => counts.gate n = 1)

def reserve (g : Registry) (stream : WorkRequestStream) (sequence : UInt64) (counts : UseCounts) :
    WorkReserveReply × Registry :=
  match stream with
  | .empty | .foreign => ({ result := .foreign }, g)
  | .own serial =>
    if sequence = 0 then ({ result := .invalid }, g)
    else if g.closed || (g.streamOf serial).closed then ({ result := .closed }, g)
    else
      match g.findRequest serial sequence with
      | some slot => (g.retained slot, g)
      | none =>
        if sequence ≤ (g.streamOf serial).highWater then ({ result := .stale }, g)
        else if g.workSerial ≥ g.limits.workSerialLimit then ({ result := .exhausted }, g)
        else
          match g.slots.findIdx? (g.slotFree counts) with
          | none => ({ result := .capacity }, g)
          | some chosen =>
            let work : WorkIdentity := ⟨g.manager, g.workSerial + 1⟩
            ({ result := .accepted, work := work, allocation := .own work },
              { g with
                workSerial := g.workSerial + 1
                slots := g.slots.set chosen
                  { work := work
                    stream := serial
                    requestSequence := sequence
                    phase := .allocating } }.setStream
                serial { g.streamOf serial with highWater := sequence })

def lookupRequest (g : Registry) (stream sequence : UInt64) : WorkReserveReply :=
  if stream = 0 || sequence = 0 then { result := .invalid }
  else if stream > g.streamSerial then { result := .foreign }
  else
    match g.findRequest stream sequence with
    | some slot => g.retained slot
    | none =>
      if g.streams.any fun entry =>
          entry = some stream && !g.closed && !(g.streamOf stream).closed then
        { result := if sequence > (g.streamOf stream).highWater then .notFound else .stale }
      else { result := .stale }

def reservationFinished (g : Registry) (ticket : WorkReservation) (gate : Option ReservedGate)
    (error : Int) : WorkReserveReply × Registry :=
  match ticket with
  | .empty | .foreign => ({ result := .foreign }, g)
  | .own work =>
    if error < 0 ||
        gate.any (fun gate => gate.work ≠ work || (gate.first ≠ .unbound && gate.second ≠ .stopped)) ||
        (gate.isNone && error = 0) then
      ({ result := .invalid }, g)
    else
      match g.findSlot work with
      | none => ({ result := .stale }, g)
      | some place =>
        let slot := g.slots[place]?.getD {}
        if slot.phase ≠ .allocating then ({ result := .stale }, g)
        else if error ≠ 0 || g.closed || slot.cancelled ||
            gate.any (fun gate => gate.third = .stopped) then
          let error := if error ≠ 0 then error else eCanceled
          ({ result := .closed, work := slot.work, error := error },
            { g with slots := g.slots.set place { slot with phase := .failed, error := error } })
        else
          ({ result := .accepted, work := slot.work, control := .own g.forgotten.length },
            { g with
              slots := g.slots.set place
                { slot with record := some g.forgotten.length, phase := .ready }
              forgotten := g.forgotten ++ [false] })

def cancelReservation (g : Registry) : WorkReservation → Bool × Registry
  | .empty | .foreign => (false, g)
  | .own work =>
    match g.findSlot work with
    | none => (false, g)
    | some place =>
      let slot := g.slots[place]?.getD {}
      if slot.phase ≠ .allocating then (false, g)
      else (true, { g with slots := g.slots.set place { slot with cancelled := true } })

def find (g : Registry) (identity : WorkIdentity) : WorkControl :=
  match g.findSlot identity with
  | none => .empty
  | some place =>
    let slot := g.slots[place]?.getD {}
    if slot.phase ≠ .ready || g.isForgotten slot.record then .empty
    else (slot.record.map WorkControl.own).getD .empty

/-- Forgets a complete record. -/
def forget (g : Registry) (control : WorkControl) (complete : Bool) : WorkRegistryResult × Registry :=
  match control with
  | .empty | .foreign => (.foreign, g)
  | .own record =>
    if g.isForgotten (some record) then (.existing, g)
    else if !complete then (.incomplete, g)
    else (.accepted, { g with forgotten := g.forgotten.set record true })

def close (g : Registry) : Registry :=
  { g with
    closed := true
    streamOf := fun serial =>
      if some serial ∈ g.streams then { g.streamOf serial with closed := true } else g.streamOf serial
    slots := g.slots.map fun slot =>
      if slot.phase = .allocating then { slot with cancelled := true } else slot }

end Registry

inductive RegistryCall
  | openStream (alone : UInt64 → Bool)
  | findStream (identity : UInt64)
  | closeStream (stream : WorkRequestStream)
  | streamUnused (stream : WorkRequestStream)
  | closeStreamIfUnused (stream : WorkRequestStream)
  | reserve (stream : WorkRequestStream) (sequence : UInt64) (counts : UseCounts)
  | lookupRequest (stream sequence : UInt64)
  | reservationFinished (ticket : WorkReservation) (gate : Option ReservedGate) (error : Int)
  | cancelReservation (ticket : WorkReservation)
  | find (identity : WorkIdentity)
  | forget (control : WorkControl) (complete : Bool)
  | close

inductive RegistryReply
  | stream (stream : WorkRequestStream)
  | flag (value : Bool)
  | reserved (reply : WorkReserveReply)
  | control (control : WorkControl)
  | result (result : WorkRegistryResult)
  | closed
  deriving DecidableEq, Repr

def Registry.call (g : Registry) : RegistryCall → RegistryReply × Registry
  | .openStream alone =>
    let (stream, g') := g.openStream alone
    (.stream stream, g')
  | .findStream identity => (.stream (g.findStream identity), g)
  | .closeStream stream =>
    let (done, g') := g.closeStream stream
    (.flag done, g')
  | .streamUnused stream => (.flag (g.streamUnused stream), g)
  | .closeStreamIfUnused stream =>
    let (done, g') := g.closeStreamIfUnused stream
    (.flag done, g')
  | .reserve stream sequence counts =>
    let (reply, g') := g.reserve stream sequence counts
    (.reserved reply, g')
  | .lookupRequest stream sequence => (.reserved (g.lookupRequest stream sequence), g)
  | .reservationFinished ticket gate error =>
    let (reply, g') := g.reservationFinished ticket gate error
    (.reserved reply, g')
  | .cancelReservation ticket =>
    let (done, g') := g.cancelReservation ticket
    (.flag done, g')
  | .find identity => (.control (g.find identity), g)
  | .forget control complete =>
    let (result, g') := g.forget control complete
    (.result result, g')
  | .close => (.closed, g.close)

def Registry.opened (g : Registry) : WorkRequestStream → Bool
  | .empty | .foreign => true
  | .own serial => serial ≠ 0 && serial ≤ g.streamSerial

/-- Callers only hold streams that were opened. -/
def Registry.possible (g : Registry) : RegistryCall → Bool
  | .closeStream stream | .streamUnused stream | .closeStreamIfUnused stream
  | .reserve stream _ _ => g.opened stream
  | _ => true

/-- A registry and what was called on it, the newest first. -/
structure RegistryRun where
  registry : Registry
  calls : List (RegistryCall × RegistryReply)

def RegistryRun.next (run : RegistryRun) (call : RegistryCall) : Option RegistryRun :=
  if run.registry.possible call then
    let (reply, registry) := run.registry.call call
    some ⟨registry, (call, reply) :: run.calls⟩
  else none

/-- The registry after these calls; none where a caller uses a stream nobody opened. -/
def registryRun (manager : UInt64) (limits : WorkRegistryLimits) (calls : List RegistryCall) :
    Option RegistryRun :=
  calls.foldlM RegistryRun.next ⟨.new manager limits, []⟩

end Andrix.Native
