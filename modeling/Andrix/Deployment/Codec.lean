import Andrix.Lib.Wire
import Andrix.Deployment.Records

/-! The one encoding of each deployment record. A record is a frame of magic,
type, version and total length, then the body, then the SHA-256 of all before it.
Numbers are little endian, IDs and digests are their bytes, and texts carry their
length. The decoders verify the frame and then read the fields in the order the
encoders write them. -/
namespace Andrix.Deployment
open Andrix.Lib

/-- The bytes `AXDR` in file order. -/
def magic : Int32 := 0x52445841
def frameBytes : Nat := 12
def checksumBytes : Nat := 32
def lengthOffset : Nat := 8
def idBytes : Nat := 16
def digestBytes : Nat := 32

/-! ## Output -/

namespace Output

def u8 (value : Nat) : ByteString := fixed 1 value
def u16 (value : Nat) : ByteString := fixed 2 value
def i32 (value : Int32) : ByteString := int32 value
def i64 (value : Int64) : ByteString := int64 value
def id (value : Text) : ByteString := unhex value
def digest (value : Text) : ByteString := unhex value

/-- A character in US-ASCII, where any other character is `?`. -/
def ascii (c : Char) : UInt8 := if c.toNat < 128 then UInt8.ofNat c.toNat else 0x3f

def text (value : Text) : ByteString := u16 value.length ++ value.map ascii

def code {α : Type} [Coded α] (value : α) : ByteString := u8 (Coded.code value)

def reference (r : Reference.Fields) : ByteString := List.flatten [
  u8 r.presence.toNat,
  i32 r.sessionId,
  i64 r.createdMillis,
  text r.stageDir,
  i32 r.installerUid,
  id r.nonce]

/-- The frame before a body, with the record's total length. -/
def frame (kind : Kind) (length : Nat) : ByteString :=
  i32 magic ++ u16 kind.code ++ u16 version ++ i32 (Int32.ofNat length)

/-- The record of a body: its frame, the body and the checksum of both. -/
def sealRecord (sha256 : ByteString → Vector UInt8 32) (kind : Kind) (body : ByteString) :
    Checked ByteString :=
  let length := frameBytes + body.length + checksumBytes
  if maxBytes < length then .error (.illegalState "record exceeds MAX_BYTES")
  else
    let record := frame kind length ++ body
    .ok (record ++ (sha256 record).toList)

def plan (p : Plan.Builder) : ByteString := List.flatten [
  id p.installation,
  id p.planId,
  text p.component,
  code p.componentClass,
  code p.target,
  id p.repairs,
  digest p.bundleInput,
  i64 p.bundleVersion,
  digest p.signer,
  digest p.restorationInput,
  i64 p.restorationVersion,
  u8 p.signing,
  text p.fingerprint,
  digest p.factoryApk,
  i64 p.factoryVersion,
  digest p.baseApk,
  i64 p.baseVersion,
  i32 p.baseUid,
  text p.baseContext,
  code p.users,
  code p.data,
  i64 p.selectionRevision,
  digest p.trustPolicy,
  code p.commitMode,
  u16 p.criteria.toNat,
  i64 p.healthWindowMillis,
  code p.healthResponse,
  id p.restorationPlan,
  code p.recoveryRoute,
  i64 p.noticeDelayMillis,
  i64 p.emergencyNoticeMillis,
  u16 p.bootLimit,
  i64 p.rebootTimeLimitMillis,
  u16 p.requestLimit,
  i64 p.activateWindowMillis,
  i64 p.verificationWaitMillis,
  i64 p.createdAt]

def authorization (a : Authorization.Fields) : ByteString := List.flatten [
  id a.installation,
  id a.authorizationId,
  text a.component,
  id a.planId,
  code a.effect,
  u8 a.inputs.toNat,
  code a.actorClass,
  i32 a.actorUser,
  i64 a.actorSerial,
  id a.grant,
  code a.grantScope,
  id a.interaction,
  i64 a.grantedAt]

def health (h : Health.Fields) : ByteString := List.flatten [
  i32 h.user,
  i64 h.serial,
  code h.outcome]

def entry (e : Entry.Fields) : ByteString := List.flatten [
  code e.crossing,
  id e.boot,
  i64 e.instanceId,
  i64 e.elapsed,
  id e.grant,
  id e.reference,
  i64 e.issuedAt]

def ticket (t : Ticket.Builder) : ByteString := List.flatten [
  id t.installation,
  id t.ticketId,
  text t.component,
  id t.planId,
  i32 t.attempt,
  code t.coordinatorClass,
  id t.coordinator,
  code t.state,
  u8 t.flags.toNat,
  code t.cause,
  u16 t.bootCount,
  id t.boot,
  reference t.reference.toFields,
  id t.windowBoot,
  i64 t.windowStart,
  id t.successor,
  u16 t.health.length ++ t.health.flatMap (fun h => health h.toFields),
  u16 t.ledger.length ++ t.ledger.flatMap (fun e => entry e.toFields)]

/-- What an observation holds beyond its common fields. CHECKPOINT and USER carry
no further facts, and every reply names its crossing. -/
def facts (o : Observation.Builder) : ByteString :=
  match o.kind with
  | .boot => text o.text
  | .factory => List.flatten [digest o.digest, i64 o.version]
  | .active => List.flatten [digest o.digest, i64 o.version, i32 o.number, text o.text]
  | .listing => u16 o.number.toUInt32.toNat
  | .session => reference o.reference.toFields
  | .reply => List.flatten [
    id o.subject,
    u16 o.sequence,
    u8 ((o.crossing.map Coded.code).getD 0),
    reference o.reference.toFields]
  | .health => u16 o.number.toUInt32.toNat
  | .signer => id o.subject
  | .bundle => List.flatten [
    id o.subject,
    id o.plan,
    digest o.digest,
    digest o.bundleApk,
    digest o.restorationApk]
  | .receipt => List.flatten [id o.subject, u16 o.sequence]
  | .checkpoint | .user => []

def observation (o : Observation.Builder) : ByteString := List.flatten [
  id o.installation,
  id o.observationId,
  text o.component,
  id o.boot,
  i32 o.user,
  i64 o.serial,
  code o.kind,
  code o.route,
  i64 o.instanceId,
  i64 o.elapsed,
  i64 o.wall,
  digest o.raw,
  u8 o.classification.code,
  facts o]

def selection (s : Selection.Fields) : ByteString := List.flatten [
  id s.installation,
  text s.component,
  i64 s.revision,
  code s.choice,
  id s.planId,
  code s.responsibility,
  i64 s.rebuildWindowMillis,
  code s.realization,
  id s.checkedBoot,
  id s.repair,
  id s.temporary,
  i64 s.changedAt]

end Output

/-! ## Input -/

/-- Reads the body of one record whose frame and checksum were verified. -/
abbrev Input := Reader Failure

namespace Input

def truncated : Failure := .illegalArgument "truncated record"

def u8 : Input Nat := number truncated 1
def u16 : Input Nat := number truncated 2
def i32 : Input Int32 := readInt32 truncated
def i64 : Input Int64 := readInt64 truncated
def id : Input Text := readHex truncated idBytes
def digest : Input Text := readHex truncated digestBytes

def count (max : Nat) : Input Nat := do
  let count ← u16
  StateT.lift (invalid (max < count) "count above its bound")
  pure count

/-- Printable ASCII of at most `maxText` bytes. The value's constructor checks its
grammar. -/
def optionalText : Input Text := do
  let length ← u16
  StateT.lift (invalid (maxText < length) "text too long")
  let bytes ← take truncated length
  StateT.lift (invalid (∃ b ∈ bytes, b.toNat < 0x20 ∨ 0x7e < b.toNat) "text not printable ASCII")
  pure (bytes.map (fun b => Char.ofNat b.toNat))

def text : Input Text := do
  let value ← optionalText
  StateT.lift (invalid (value = []) "empty text")
  pure value

def code {α : Type} [Coded α] (field : String) : Input α := do
  let n ← u8
  StateT.lift (codeOf n field)

def reference : Input Reference := do
  let presence ← u8
  let sessionId ← i32
  let createdMillis ← i64
  let stageDir ← optionalText
  let installerUid ← i32
  let nonce ← id
  StateT.lift (Reference.make {
    presence := BitVec.ofNat 32 presence
    sessionId, createdMillis, stageDir, installerUid, nonce })

def plan : Input Plan.Builder := do
  let installation ← id
  let planId ← id
  let component ← text
  let componentClass ← code "component class"
  let target ← code "target"
  let repairs ← id
  let bundleInput ← digest
  let bundleVersion ← i64
  let signer ← digest
  let restorationInput ← digest
  let restorationVersion ← i64
  let signing ← u8
  let fingerprint ← text
  let factoryApk ← digest
  let factoryVersion ← i64
  let baseApk ← digest
  let baseVersion ← i64
  let baseUid ← i32
  let baseContext ← text
  let users ← code "affected users"
  let data ← code "data transition"
  let selectionRevision ← i64
  let trustPolicy ← digest
  let commitMode ← code "commit mode"
  let criteria ← u16
  let healthWindowMillis ← i64
  let healthResponse ← code "health response"
  let restorationPlan ← id
  let recoveryRoute ← code "recovery route"
  let noticeDelayMillis ← i64
  let emergencyNoticeMillis ← i64
  let bootLimit ← u16
  let rebootTimeLimitMillis ← i64
  let requestLimit ← u16
  let activateWindowMillis ← i64
  let verificationWaitMillis ← i64
  let createdAt ← i64
  pure {
    installation, planId, component, componentClass, target, repairs, bundleInput, bundleVersion
    signer, restorationInput, restorationVersion, signing, fingerprint, factoryApk, factoryVersion
    baseApk, baseVersion, baseUid, baseContext, users, data, selectionRevision, trustPolicy
    commitMode, criteria := BitVec.ofNat 32 criteria, healthWindowMillis, healthResponse
    restorationPlan, recoveryRoute, noticeDelayMillis, emergencyNoticeMillis, bootLimit
    rebootTimeLimitMillis, requestLimit, activateWindowMillis, verificationWaitMillis, createdAt }

def authorization : Input Authorization.Fields := do
  let installation ← id
  let authorizationId ← id
  let component ← text
  let planId ← id
  let effect ← code "effect"
  let inputs ← u8
  let actorClass ← code "actor class"
  let actorUser ← i32
  let actorSerial ← i64
  let grant ← id
  let grantScope ← code "grant scope"
  let interaction ← id
  let grantedAt ← i64
  pure {
    installation, authorizationId, component, planId, effect, inputs := BitVec.ofNat 32 inputs
    actorClass, actorUser, actorSerial, grant, grantScope, interaction, grantedAt }

def health : Input Health := do
  let user ← i32
  let serial ← i64
  let outcome ← code "outcome"
  StateT.lift (Health.make { user, serial, outcome })

def entry : Input Entry := do
  let crossing ← code "crossing"
  let boot ← id
  let instanceId ← i64
  let elapsed ← i64
  let grant ← id
  let reference ← id
  let issuedAt ← i64
  StateT.lift (Entry.make { crossing, boot, instanceId, elapsed, grant, reference, issuedAt })

def ticket : Input Ticket.Builder := do
  let installation ← id
  let ticketId ← id
  let component ← text
  let planId ← id
  let attempt ← i32
  let coordinatorClass ← code "coordinator class"
  let coordinator ← id
  let state ← code "state"
  let flags ← u8
  let cause ← code "cause"
  let bootCount ← u16
  let boot ← id
  let reference ← reference
  let windowBoot ← id
  let windowStart ← i64
  let successor ← id
  let users ← count maxUsers
  let health ← many health users
  let entries ← count maxLedger
  let ledger ← many entry entries
  pure {
    installation, ticketId, component, planId, attempt, coordinatorClass, coordinator, state
    flags := BitVec.ofNat 32 flags, cause, bootCount, boot, reference, windowBoot, windowStart
    successor, health, ledger }

/-- The classification of a kind with a code. -/
def classification (kind : ObservationKind) : Input Classification := do
  let code ← u8
  StateT.lift <|
    match (Classification.values.filter (fun c => c.kind = kind && c.code == code)).getLast? with
    | some classification => .ok classification
    | none => .error (.illegalArgument "unknown classification")

/-- The facts of a kind, set in the builder of the common fields. -/
def facts (b : Observation.Builder) : ObservationKind → Input Observation.Builder
  | .boot => do
    let text ← text
    pure { b with text }
  | .factory => do
    let digest ← digest
    let version ← i64
    pure { b with digest, version }
  | .active => do
    let digest ← digest
    let version ← i64
    let number ← i32
    let text ← text
    pure { b with digest, version, number, text }
  | .listing => do
    let number ← u16
    pure { b with number := Int32.ofNat number }
  | .session => do
    let reference ← reference
    pure { b with reference }
  | .reply => do
    let subject ← id
    let sequence ← u16
    let crossing ← code "crossing"
    let reference ← reference
    pure { b with subject, sequence, crossing := some crossing, reference }
  | .health => do
    let number ← u16
    pure { b with number := Int32.ofNat number }
  | .signer => do
    let subject ← id
    pure { b with subject }
  | .bundle => do
    let subject ← id
    let plan ← id
    let digest ← digest
    let bundleApk ← Input.digest
    let restorationApk ← Input.digest
    pure { b with subject, plan, digest, bundleApk, restorationApk }
  | .receipt => do
    let subject ← id
    let sequence ← u16
    pure { b with subject, sequence }
  | .checkpoint | .user => pure b

def observation : Input Observation.Builder := do
  let installation ← id
  let observationId ← id
  let component ← optionalText
  let boot ← id
  let user ← i32
  let serial ← i64
  let kind ← code "observation kind"
  let route ← code "route"
  let instanceId ← i64
  let elapsed ← i64
  let wall ← i64
  let raw ← digest
  let classification ← classification kind
  facts {
    installation, observationId, component, boot, user, serial, route, instanceId, elapsed, wall
    raw, classification } kind

def selection : Input Selection.Fields := do
  let installation ← id
  let component ← text
  let revision ← i64
  let choice ← code "choice"
  let planId ← id
  let responsibility ← code "update responsibility"
  let rebuildWindowMillis ← i64
  let realization ← code "realization"
  let checkedBoot ← id
  let repair ← id
  let temporary ← id
  let changedAt ← i64
  pure {
    installation, component, revision, choice, planId, responsibility, rebuildWindowMillis
    realization, checkedBoot, repair, temporary, changedAt }

end Input

/-! ## Frames -/

def u16At (bytes : ByteString) (position : Nat) : Nat := word ((bytes.drop position).take 2)

def i32At (bytes : ByteString) (position : Nat) : Int32 := toInt32 ((bytes.drop position).take 4)

section
variable (sha256 : ByteString → Vector UInt8 32)

/-- Refuses a size outside the frame bounds. -/
def bounded (record : ByteString) : Checked Unit := do
  invalid (maxBytes < record.length) "record exceeds MAX_BYTES"
  invalid (record.length < frameBytes + checksumBytes) "record too short"

/-- Verifies the magic, type, length field and checksum, and returns the declared
version. -/
def frame (bytes : ByteString) (kind : Kind) : Checked Nat := do
  invalid (i32At bytes 0 ≠ magic) "not a deployment record"
  invalid (u16At bytes 4 ≠ kind.code) "wrong record type"
  invalid (i32At bytes lengthOffset ≠ Int32.ofNat bytes.length) "wrong record length"
  let last := bytes.length - checksumBytes
  invalid ((sha256 (bytes.take last)).toList ≠ bytes.drop last) "record checksum mismatch"
  pure (u16At bytes 6)

def openRecord (record : ByteString) (kind : Kind) : Checked ByteString := do
  bounded record
  invalid (u16At record 4 ≠ kind.code) "wrong record type"
  let declared ← frame sha256 record kind
  invalid (declared ≠ version) "unsupported record version"
  pure ((record.take (record.length - checksumBytes)).drop frameBytes)

def decodeRecord {α β : Type} (kind : Kind) (input : Input α) (build : α → Checked β)
    (record : ByteString) : Checked β := do
  let body ← openRecord sha256 record kind
  let (fields, rest) ← input.run body
  invalid (rest ≠ []) "trailing bytes"
  build fields

def encodePlan (p : Plan) : Checked ByteString :=
  Output.sealRecord sha256 .plan (Output.plan p.toBuilder)

def encodeAuthorization (a : Authorization) : Checked ByteString :=
  Output.sealRecord sha256 .authorization (Output.authorization a.toFields)

def encodeTicket (t : Ticket) : Checked ByteString :=
  Output.sealRecord sha256 .ticket (Output.ticket t.toBuilder)

def encodeObservation (o : Observation) : Checked ByteString :=
  Output.sealRecord sha256 .observation (Output.observation o.toBuilder)

def encodeSelection (s : Selection) : Checked ByteString :=
  Output.sealRecord sha256 .selection (Output.selection s.toFields)

def decodePlan : ByteString → Checked Plan :=
  decodeRecord sha256 .plan Input.plan Plan.Builder.build

def decodeAuthorization : ByteString → Checked Authorization :=
  decodeRecord sha256 .authorization Input.authorization Authorization.make

def decodeTicket : ByteString → Checked Ticket :=
  decodeRecord sha256 .ticket Input.ticket Ticket.Builder.build

def decodeObservation : ByteString → Checked Observation :=
  decodeRecord sha256 .observation Input.observation Observation.Builder.build

def decodeSelection : ByteString → Checked Selection :=
  decodeRecord sha256 .selection Input.selection Selection.make

end

end Andrix.Deployment
