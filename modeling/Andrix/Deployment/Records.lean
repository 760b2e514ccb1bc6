import Andrix.Deployment.Codes

/-! The five deployment record kinds and the values inside them. A record is
a structure that carries the proof that its constructor's checks passed, so a
value of the type is one the source could have built. The checks stand in the
order the constructors make them. -/
namespace Andrix.Deployment
open Andrix.Lib

/-! ## The native session reference -/

structure Reference.Fields where
  presence : BitVec 32 := 0
  sessionId : Int32 := 0
  createdMillis : Int64 := 0
  stageDir : Text := []
  installerUid : Int32 := 0
  nonce : Text := noId
  deriving DecidableEq

namespace Reference

def session : BitVec 32 := 1
def created : BitVec 32 := 2
def stageDirectory : BitVec 32 := 4
def installer : BitVec 32 := 8
def nonceField : BitVec 32 := 16
def all : BitVec 32 := 31

namespace Fields

def has (r : Fields) (field : BitVec 32) : Prop := r.presence &&& field ≠ 0

instance (r : Fields) (field : BitVec 32) : Decidable (r.has field) :=
  inferInstanceAs (Decidable (_ ≠ _))

def validate (r : Fields) : Checked Unit := do
  invalid (r.presence &&& ~~~ all ≠ 0) "unknown reference presence bits"
  checkId r.nonce "nonce" true
  invalid (if r.has session then r.sessionId ≤ 0 else r.sessionId ≠ 0)
    "session ID and its presence differ"
  invalid (if r.has created then r.createdMillis < 0 else r.createdMillis ≠ 0)
    "createdMillis and its presence differ"
  either (r.has stageDirectory) (checkText r.stageDir 1 "stage directory")
    (invalid (r.stageDir ≠ []) "stage directory and its presence differ")
  invalid (if r.has installer then r.installerUid < 0 else r.installerUid ≠ 0)
    "installer UID and its presence differ"
  invalid (r.has nonceField ↔ r.nonce = noId) "nonce and its presence differ"

end Fields
end Reference

/-- A native session reference. Each field is present or absent, because each
readback route reads only some of them. Absent fields are zero or empty. -/
structure Reference extends Reference.Fields where
  valid : toFields.validate = .ok ()
  deriving DecidableEq

namespace Reference

def make (r : Fields) : Checked Reference := construct Fields.validate Reference.mk r

@[simp] theorem make_eq_ok {f : Fields} {r : Reference} : make f = .ok r ↔ r.toFields = f :=
  construct_eq_ok (fun _ _ => rfl) (·.valid) (fun _ _ => rfl)

/-- Nothing known. -/
def none : Reference where
  toFields := {}
  valid := by decide

/-- The same reference with the nonce of a ticket set. -/
def withNonce (r : Reference) (value : Text) : Checked Reference :=
  make { r.toFields with presence := r.presence ||| nonceField, nonce := value }

end Reference

/-! ## The plan -/

structure Plan.Builder where
  installation : Text := noId
  planId : Text := noId
  component : Text := []
  componentClass : ComponentClass := .stagedSystemApk
  target : Target := .variant
  /-- The plan this one repairs or replaces, or `noId`. -/
  repairs : Text := noId
  bundleInput : Text := noDigest
  bundleVersion : Int64 := 0
  signer : Text := noDigest
  restorationInput : Text := noDigest
  restorationVersion : Int64 := 0
  /-- Signing transactions: 0 when the bundles are already signed, 1 or 2. -/
  signing : Nat := 0
  fingerprint : Text := []
  factoryApk : Text := noDigest
  factoryVersion : Int64 := 0
  baseApk : Text := noDigest
  baseVersion : Int64 := 0
  baseUid : Int32 := 0
  baseContext : Text := []
  users : AffectedUsers := .allUsers
  data : DataTransition := .forwardOnly
  selectionRevision : Int64 := 0
  trustPolicy : Text := noDigest
  commitMode : CommitMode := .late
  criteria : BitVec 32 := Criterion.all
  healthWindowMillis : Int64 := 0
  healthResponse : HealthResponse := .reportAndWait
  /-- The restoration plan approved up front, or `noId`. -/
  restorationPlan : Text := noId
  recoveryRoute : RecoveryRoute := .hostShell
  noticeDelayMillis : Int64 := 0
  emergencyNoticeMillis : Int64 := 0
  bootLimit : Nat := 0
  rebootTimeLimitMillis : Int64 := 0
  requestLimit : Nat := 0
  activateWindowMillis : Int64 := 0
  verificationWaitMillis : Int64 := 0
  createdAt : Int64 := 0

namespace Plan.Builder

/-- Whether the plan names a restoration. -/
def hasRestoration (p : Builder) : Prop := p.restorationInput ≠ noDigest

instance (p : Builder) : Decidable p.hasRestoration := inferInstanceAs (Decidable (_ ≠ _))

/-- A factory plan names no bundle. -/
def validateFactory (p : Builder) : Checked Unit := do
  invalid (p.bundleInput ≠ noDigest ∨ p.bundleVersion ≠ 0 ∨ p.signer ≠ noDigest ∨
    p.hasRestoration ∨ p.restorationVersion ≠ 0 ∨ p.signing ≠ 0) "a factory plan names no bundle"
  invalid (p.baseApk ≠ p.factoryApk) "a factory plan needs the factory copy active"

/-- A variant or temporary factory plan names its bundle. -/
def validateBundle (p : Builder) : Checked Unit := do
  invalid (p.bundleInput = noDigest ∨ p.signer = noDigest)
    "a variant plan names its bundle input and signer"
  invalid (p.bundleVersion ≤ p.factoryVersion ∨ p.bundleVersion ≤ p.baseVersion)
    "bundle versionCode not above the factory and base copies"
  invalid (if p.hasRestoration then p.restorationVersion ≤ p.bundleVersion
    else p.restorationVersion ≠ 0) "restoration versionCode not above the bundle"
  invalid (2 < p.signing ∨ (p.signing = 2 ∧ ¬ p.hasRestoration))
    "signing transactions outside 0..2 or two without a restoration"
  invalid (p.bundleInput = p.restorationInput) "restoration equals the bundle"
  invalid (p.target = .temporaryFactory ∧ p.repairs = noId)
    "a temporary factory plan stands in for the plan it names"

def validate (p : Builder) : Checked Unit := do
  checkId p.installation "installation" false
  checkId p.planId "plan ID" false
  checkPackage p.component
  checkId p.repairs "repairs" true
  invalid (p.repairs = p.planId) "a plan cannot repair itself"
  checkDigest p.bundleInput "bundle input" true
  checkDigest p.signer "signer" true
  checkDigest p.restorationInput "restoration input" true
  checkText p.fingerprint 1 "fingerprint"
  checkDigest p.factoryApk "factory APK" false
  checkDigest p.baseApk "base APK" false
  checkText p.baseContext 1 "base context"
  checkDigest p.trustPolicy "trust policy" false
  invalid (p.factoryVersion < 0) "negative factory versionCode"
  invalid (p.baseVersion < p.factoryVersion) "base versionCode below the factory copy"
  invalid (p.baseApk = p.factoryApk ∧ p.baseVersion ≠ p.factoryVersion)
    "the factory bytes with another versionCode"
  invalid (p.baseUid < 0) "negative base UID"
  invalid (p.selectionRevision < 0) "negative selection revision"
  either (p.target = .factory) p.validateFactory p.validateBundle
  invalid (p.criteria = 0 ∨ p.criteria &&& ~~~ Criterion.all ≠ 0)
    "health criteria outside the defined set"
  invalid (p.healthWindowMillis ≤ 0) "health window not positive"
  invalid (p.healthResponse = .restoreAutomatically ∧ ¬ p.hasRestoration)
    "automatic restoration without a restoration bundle"
  invalid (p.noticeDelayMillis < 0 ∨ p.emergencyNoticeMillis < 0 ∨
    p.noticeDelayMillis < p.emergencyNoticeMillis) "notice delays outside 0..noticeDelay"
  invalid (p.emergencyNoticeMillis < p.noticeDelayMillis ∧ p.repairs = noId)
    "a shorter emergency notice only for a restoration"
  invalid (p.emergencyNoticeMillis < p.noticeDelayMillis ∧ p.target = .temporaryFactory)
    "a temporary factory plan is no restoration and has no shorter notice"
  checkId p.restorationPlan "restoration plan" true
  invalid (p.healthResponse = .restoreAutomatically ↔ p.restorationPlan = noId)
    "a restoration plan exactly for automatic restoration"
  invalid (p.restorationPlan = p.planId ∨
    (p.restorationPlan ≠ noId ∧ p.restorationPlan = p.repairs))
    "the restoration plan is another plan"
  invalid (p.bootLimit < 1 ∨ maxBootLimit < p.bootLimit) "boot limit outside 1..MAX_BOOT_LIMIT"
  invalid (p.requestLimit < 1 ∨ maxRequestLimit < p.requestLimit)
    "request limit outside 1..MAX_REQUEST_LIMIT"
  invalid (p.rebootTimeLimitMillis ≤ 0 ∨ p.activateWindowMillis ≤ 0 ∨
    p.verificationWaitMillis ≤ 0) "time limits must be positive"

end Plan.Builder

/-- An immutable deployment plan. -/
structure Plan extends Plan.Builder where
  valid : toBuilder.validate = .ok ()

def Plan.Builder.build (b : Plan.Builder) : Checked Plan := construct validate Plan.mk b

@[simp] theorem Plan.Builder.build_eq_ok {b : Plan.Builder} {p : Plan} :
    b.build = .ok p ↔ p.toBuilder = b :=
  construct_eq_ok (fun _ _ => rfl) (·.valid) (fun _ _ => rfl)

/-! ## The authorization -/

structure Authorization.Fields where
  installation : Text
  authorizationId : Text
  component : Text
  planId : Text
  effect : Effect
  /-- SIGN only: the inputs it covers. Zero for every other effect. -/
  inputs : BitVec 32
  actorClass : ActorClass
  actorUser : Int32
  actorSerial : Int64
  grant : Text
  grantScope : GrantScope
  interaction : Text
  grantedAt : Int64
  deriving DecidableEq

def Authorization.Fields.validate (a : Authorization.Fields) : Checked Unit := do
  checkId a.installation "installation" false
  checkId a.authorizationId "authorization ID" false
  checkPackage a.component
  checkId a.planId "plan ID" false
  checkId a.grant "grant" true
  checkId a.interaction "interaction" false
  invalid (if a.effect = .sign then a.inputs.toNat < 1 ∨ 3 < a.inputs.toNat else a.inputs ≠ 0)
    "inputs exactly for SIGN"
  checkActor a.actorUser a.actorSerial (a.actorClass = .labOperator)
  invalid (a.actorClass = .grantHolder ↔ a.grant = noId)
    "a grant reference exactly for GRANT_HOLDER"
  invalid (¬ (a.grantScope = .none ↔ a.grant = noId)) "a grant scope exactly with a grant"
  invalid (a.grantedAt ≤ 0) "grant time not positive"

/-- One append only grant for one plan. -/
structure Authorization extends Authorization.Fields where
  valid : toFields.validate = .ok ()
  deriving DecidableEq

def Authorization.make (a : Authorization.Fields) : Checked Authorization :=
  construct Fields.validate Authorization.mk a

@[simp] theorem Authorization.make_eq_ok {f : Fields} {a : Authorization} :
    make f = .ok a ↔ a.toFields = f :=
  construct_eq_ok (fun _ _ => rfl) (·.valid) (fun _ _ => rfl)

/-! ## The ticket -/

structure Health.Fields where
  user : Int32
  serial : Int64
  outcome : Outcome
  deriving DecidableEq

def Health.Fields.validate (h : Health.Fields) : Checked Unit :=
  invalid (h.user < 0 ∨ h.serial < 0) "health of a negative user or serial"

/-- One user's health outcome in a ticket. -/
structure Health extends Health.Fields where
  valid : toFields.validate = .ok ()
  deriving DecidableEq

def Health.make (h : Health.Fields) : Checked Health := construct Fields.validate Health.mk h

@[simp] theorem Health.make_eq_ok {f : Fields} {h : Health} : make f = .ok h ↔ h.toFields = f :=
  construct_eq_ok (fun _ _ => rfl) (·.valid) (fun _ _ => rfl)

structure Entry.Fields where
  crossing : Crossing
  /-- The kernel boot at issue, or `noId` for a host crossing before any boot. -/
  boot : Text
  instanceId : Int64
  elapsed : Int64
  grant : Text
  reference : Text
  issuedAt : Int64
  deriving DecidableEq

/-- The crossings that rely on an authorization. -/
def Crossing.granted (c : Crossing) : Prop :=
  c = .sign ∨ c = .create ∨ c = .commit ∨ c = .reboot ∨ c = .notice

/-- The crossings whose entry names a reference. -/
def Crossing.referenced (c : Crossing) : Prop :=
  c = .sign ∨ c = .publish ∨ c = .create ∨ c = .handover

instance (c : Crossing) : Decidable c.granted := inferInstanceAs (Decidable (_ ∨ _))
instance (c : Crossing) : Decidable c.referenced := inferInstanceAs (Decidable (_ ∨ _))

def Entry.Fields.validate (e : Entry.Fields) : Checked Unit := do
  checkId e.boot "entry boot" true
  checkId e.grant "entry grant" true
  checkId e.reference "entry reference" true
  invalid (e.instanceId < -1) "instance below -1"
  invalid (e.elapsed < 0) "negative elapsed time"
  invalid (e.boot = noId ∧ (e.crossing.device ∨ e.instanceId ≠ -1 ∨ e.elapsed ≠ 0))
    "a device crossing needs its boot"
  invalid (e.crossing.framework ∧ e.instanceId < 0) "a framework crossing needs its instance"
  invalid (e.crossing.granted ↔ e.grant = noId) "a grant exactly for granted crossings"
  invalid (e.crossing.referenced ↔ e.reference = noId) "a reference exactly where one is named"

/-- One issued crossing. Entries never change once written. -/
structure Entry extends Entry.Fields where
  valid : toFields.validate = .ok ()
  deriving DecidableEq

def Entry.make (e : Entry.Fields) : Checked Entry := construct Fields.validate Entry.mk e

@[simp] theorem Entry.make_eq_ok {f : Fields} {e : Entry} : make f = .ok e ↔ e.toFields = f :=
  construct_eq_ok (fun _ _ => rfl) (·.valid) (fun _ _ => rfl)

structure Ticket.Builder where
  installation : Text := noId
  ticketId : Text := noId
  component : Text := []
  planId : Text := noId
  attempt : Int32 := 1
  coordinatorClass : CoordinatorClass := .host
  coordinator : Text := noId
  state : State := .planned
  flags : BitVec 32 := 0
  cause : Cause := .none
  bootCount : Nat := 0
  /-- The last kernel boot the ticket observed, or `noId`. -/
  boot : Text := noId
  reference : Reference := Reference.none
  windowBoot : Text := noId
  windowStart : Int64 := 0
  successor : Text := noId
  /-- Ascending by user then serial. -/
  health : List Health := []
  /-- In issue order. Only grows. -/
  ledger : List Entry := []
  deriving DecidableEq

/-- What `validateLedger` holds while it reads the entries in order. -/
structure LedgerScan where
  counts : Crossing → Nat := fun _ => 0
  phase : Nat := 0
  handedTo : Option Text := .none

def LedgerScan.counted (s : LedgerScan) (crossing : Crossing) (c : Crossing) : Nat :=
  if c = crossing then s.counts c + 1 else s.counts c

/-- What one entry does to the scan. The native sequence never goes back: one
create, one write, one commit. -/
def LedgerScan.advance (s : LedgerScan) (entry : Entry) : Checked LedgerScan :=
  let counts := s.counted entry.crossing
  match entry.crossing with
  | .sign | .publish | .create | .write | .commit => do
    invalid (code entry.crossing < s.phase) "ledger sequence out of order"
    invalid (entry.crossing = .write ∧ counts .create = 0) "write before create"
    invalid (entry.crossing = .commit ∧ counts .write = 0) "commit before write"
    pure { s with counts, phase := code entry.crossing }
  | .abandon => do
    invalid (s.phase < code Crossing.create) "abandon before create"
    pure { s with counts }
  | .reboot => do
    invalid (s.phase < code Crossing.commit) "reboot before commit"
    pure { s with counts }
  | .handover => pure { s with counts, handedTo := some entry.reference }
  | .notice => pure { s with counts }

def LedgerScan.next (nonce : Text) (s : LedgerScan) (entry : Entry) : Checked LedgerScan := do
  invalid (entry.crossing.bound < s.counted entry.crossing entry.crossing)
    "a crossing above its bound"
  let next ← s.advance entry
  invalid (entry.crossing = .create ∧ entry.reference ≠ nonce)
    "create entry without the ticket nonce"
  pure next

namespace Ticket.Builder

def scan (nonce : Text) (ledger : List Entry) : Checked LedgerScan :=
  ledger.foldlM (LedgerScan.next nonce) {}

def validateLedger (t : Builder) : Checked Unit := do
  invalid (maxLedger < t.ledger.length) "ledger above MAX_LEDGER"
  let s ← scan t.reference.nonce t.ledger
  invalid (¬ (0 < s.counts .create ↔ t.reference.has Reference.nonceField))
    "a nonce exactly once created"
  invalid (s.counts .create = 0 ∧ t.reference.presence ≠ 0) "a native reference without a create"
  invalid (∃ heir ∈ s.handedTo, heir ≠ t.coordinator) "coordinator differs from its handover"
  invalid (0 < s.counts .create ∧ code t.state < code State.sessionIntent)
    "a create before SESSION_INTENT"
  invalid (code State.sessionIntent ≤ code t.state ∧ t.state ≠ .signFailed ∧
    s.counts .create = 0 ∧ t.state ≠ .cancelled ∧ t.state ≠ .void ∧ t.state ≠ .closedFailed)
    "a session state without its create"

/-- The health loop: OBSERVING only where it may stand, ascending by user and
serial after the outcome before it. -/
def validateHealth (observing : Bool) : Option Health → List Health → Checked Unit
  | _, [] => pure ()
  | before, h :: rest => do
    invalid (h.outcome = .observing ∧ observing = false) "OBSERVING outside the window"
    invalid (∃ b ∈ before, h.user < b.user ∨ (h.user = b.user ∧ h.serial ≤ b.serial))
      "health outcomes out of order"
    validateHealth observing (some h) rest

/-- The cause a closing state needs. -/
def validateCause (t : Builder) : Checked Unit :=
  match t.state with
  | .cancelled => invalid (t.cause ≠ .cancelled) "CANCELLED needs its cause"
  | .void => invalid (¬ t.cause.voids ∧ t.cause ≠ .otherBytes) "VOID needs a voiding cause"
  | .diverged => invalid (t.cause ≠ .otherBytes) "DIVERGED needs other bytes as its cause"
  | .closedFailed => invalid (t.cause ≠ .none) "CLOSED_FAILED has no recorded cause"
  | _ => pure ()

/-- The states whose tickets may hold health outcomes: only from APPLIED on. -/
def healthState (s : State) : Bool :=
  s = .applied || s = .healthWindow || s = .closedApplied || s = .superseded || s = .diverged

def validate (t : Builder) : Checked Unit := do
  checkId t.installation "installation" false
  checkId t.ticketId "ticket ID" false
  checkPackage t.component
  checkId t.planId "plan ID" false
  invalid (t.attempt < 1) "attempt not positive"
  checkId t.coordinator "coordinator" false
  invalid (t.flags &&& ~~~ (flagUnresolved ||| flagBootLimit ||| flagRequestLimit) ≠ 0)
    "unknown ticket flags"
  invalid (t.flags &&& flagUnresolved ≠ 0 ∧ ¬ t.state.intent) "UNRESOLVED outside an intent state"
  invalid (0xffff < t.bootCount) "boot count outside u16"
  checkId t.boot "boot" true
  invalid (0 < t.bootCount ∧ t.boot = noId) "boots counted without a boot"
  checkId t.windowBoot "window boot" true
  checkId t.successor "successor" true
  invalid (t.state = .healthWindow ↔ t.windowBoot = noId) "a window boot exactly in HEALTH_WINDOW"
  invalid (if t.state = .healthWindow then t.windowStart < 0 else t.windowStart ≠ 0)
    "a window start exactly in HEALTH_WINDOW"
  invalid (t.state = .superseded ↔ t.successor = noId) "a successor exactly in SUPERSEDED"
  invalid (t.successor = t.planId) "a plan cannot supersede its own ticket"
  t.validateCause
  invalid (t.health ≠ [] ∧ ¬ healthState t.state) "health outcomes before APPLIED"
  invalid (maxUsers < t.health.length) "more than MAX_USERS health outcomes"
  validateHealth (t.state = .applied || t.state = .healthWindow) .none t.health
  t.validateLedger

/-! The builder's updates. -/

def set (b : Builder) (bit : BitVec 32) : Builder := { b with flags := b.flags ||| bit }

def clear (b : Builder) (bit : BitVec 32) : Builder := { b with flags := b.flags &&& ~~~ bit }

def window (b : Builder) (boot : Text) (start : Int64) : Builder :=
  { b with windowBoot := boot, windowStart := start }

def append (b : Builder) (e : Entry) : Builder := { b with ledger := b.ledger ++ [e] }

def count (t : Builder) (crossing : Crossing) : Nat :=
  t.ledger.countP (fun e => e.crossing = crossing)

def last (t : Builder) (crossing : Crossing) : Option Entry :=
  (t.ledger.filter (fun e => e.crossing = crossing)).getLast?

/-- `indexOf(last(crossing))`: the ledger index of that entry. The source finds
the object by identity, and each ledger position holds its own. -/
def indexOfLast (t : Builder) (crossing : Crossing) : Option Nat :=
  ((t.ledger.zipIdx.filter (fun p => p.1.crossing = crossing)).getLast?).map Prod.snd

def flag (t : Builder) (bit : BitVec 32) : Prop := t.flags &&& bit ≠ 0

instance (t : Builder) (bit : BitVec 32) : Decidable (t.flag bit) :=
  inferInstanceAs (Decidable (_ ≠ _))

end Ticket.Builder

/-- One attempt under one plan with exactly one owning coordinator. -/
structure Ticket extends Ticket.Builder where
  valid : toBuilder.validate = .ok ()
  deriving DecidableEq

def Ticket.Builder.build (b : Ticket.Builder) : Checked Ticket := construct validate Ticket.mk b

@[simp] theorem Ticket.Builder.build_eq_ok {b : Ticket.Builder} {t : Ticket} :
    b.build = .ok t ↔ t.toBuilder = b :=
  construct_eq_ok (fun _ _ => rfl) (·.valid) (fun _ _ => rfl)

/-! ## The observation -/

structure Observation.Builder where
  installation : Text := noId
  observationId : Text := noId
  /-- The package, or empty for an observation of the boot or the device. -/
  component : Text := []
  boot : Text := noId
  user : Int32 := noUser
  serial : Int64 := noSerial
  route : Route := .shell
  instanceId : Int64 := -1
  elapsed : Int64 := 0
  wall : Int64 := 0
  raw : Text := noDigest
  classification : Classification
  /-- BOOT: the build fingerprint. ACTIVE: the SELinux context. Else empty. -/
  text : Text := []
  /-- FACTORY and ACTIVE: the APK digest. BUNDLE_PUBLISHED: the digest of the
  publication record. Else `noDigest`. -/
  digest : Text := noDigest
  version : Int64 := 0
  /-- ACTIVE: the UID. LISTING: the count of sessions. HEALTH: the criteria. -/
  number : Int32 := 0
  /-- REPLY and RECEIPT: the ticket. SIGNER: the request. BUNDLE: the attempt. -/
  subject : Text := noId
  plan : Text := noId
  bundleApk : Text := noDigest
  restorationApk : Text := noDigest
  /-- REPLY: the ledger index answered. RECEIPT: the index of its NOTICE. -/
  sequence : Nat := 0
  crossing : Option Crossing := .none
  reference : Reference := Reference.none

namespace Observation.Builder

/-- The classification decides the kind: the builder sets both together. -/
def kind (o : Builder) : ObservationKind := o.classification.kind

def validateNumber (o : Builder) : Checked Unit :=
  match o.kind with
  | .active => invalid (o.number < 0) "negative UID"
  | .listing => do
    invalid (o.number < 0 ∨ 0xffff < o.number) "listing count outside u16"
    invalid (¬ (o.classification = .sessionsForPackage ↔ 0 < o.number))
      "listing count differs from its classification"
  | .health =>
    invalid (o.number = 0 ∨ o.number.toBitVec &&& ~~~ Criterion.all ≠ 0)
      "criteria outside the defined set"
  | _ => invalid (o.number ≠ 0) "number fact of another kind"

/-- The reply, receipt and session fields. -/
def validateReply (o : Builder) : Checked Unit :=
  match o.kind with
  | .reply =>
    match o.crossing with
    | .none => .error (.nullPointer "crossing")
    | some crossing => do
      invalid (maxLedger ≤ o.sequence) "reply sequence outside the ledger bound"
      invalid (crossing = .sign ∨ crossing = .publish ∨ crossing = .handover)
        "a reply of a crossing that has its own kind"
      invalid (crossing.framework ∧ o.instanceId < 0) "a framework reply needs its instance"
      invalid ((o.classification = .replyReady ∨ o.classification = .replyAccepted ∨
        o.classification = .replyPending) ∧ crossing ≠ .commit) "a commit reply for another crossing"
      invalid (o.classification = .replySuccess ∧ crossing = .commit)
        "a commit replies ready, accepted or pending"
      invalid (¬ ((crossing = .create ∧ o.classification = .replySuccess) ↔
        o.reference.has Reference.session)) "a session exactly in a create reply"
      invalid (¬ (crossing = .create ∧ o.classification = .replySuccess) ∧ o.reference.presence ≠ 0)
        "a reference outside a create reply"
  | .receipt => do
    invalid (maxLedger ≤ o.sequence) "receipt sequence outside the ledger bound"
    invalid (o.crossing ≠ .none ∨ o.reference.presence ≠ 0) "reply fields in a receipt"
  | kind => do
    invalid (o.sequence ≠ 0 ∨ o.crossing ≠ .none) "reply fields of another kind"
    either (kind = .session)
      (invalid (¬ o.reference.has Reference.session) "a session observation without its ID")
      (invalid (o.reference.presence ≠ 0) "a reference of another kind")

def validate (o : Builder) : Checked Unit := do
  checkId o.installation "installation" false
  checkId o.observationId "observation ID" false
  either (o.component = []) (pure ()) (checkPackage o.component)
  checkId o.boot "boot" true
  checkActor o.user o.serial (o.user = noUser)
  checkDigest o.raw "raw capture digest" false
  invalid (o.instanceId < -1) "instance below -1"
  invalid (o.elapsed < 0) "negative elapsed time"
  invalid (o.route = .host ∧ ¬ (o.kind = .signer ∨ o.kind = .bundle))
    "a device fact read on the host"
  invalid (o.boot = noId ∧ (o.route ≠ .host ∨ o.instanceId ≠ -1 ∨ o.elapsed ≠ 0))
    "only host facts may lack a boot"
  invalid (¬ ((o.kind = .boot ∨ o.kind = .checkpoint ∨ o.kind = .user) ↔ o.component = []))
    "a component exactly for component facts"
  invalid ((o.kind = .user ∨ o.kind = .health ∨ o.kind = .receipt) ↔ o.user = noUser)
    "a user exactly for user facts"
  invalid ((o.kind = .listing ∨ o.kind = .session) ∧ o.instanceId < 0)
    "a framework fact needs its instance"
  either (o.kind = .boot ∨ o.kind = .active) (checkText o.text 1 "text fact")
    (invalid (o.text ≠ []) "text fact of another kind")
  let digestKind : Bool :=
    o.kind = .factory ∨ o.kind = .active ∨ o.classification = .bundlePublished
  checkDigest o.digest "digest fact" (!digestKind)
  invalid (digestKind = false ∧ o.digest ≠ noDigest) "digest fact of another kind"
  invalid (if o.kind = .factory ∨ o.kind = .active then o.version < 0 else o.version ≠ 0)
    "versionCode fact of another kind"
  o.validateNumber
  let subjectKind : Bool :=
    o.kind = .reply ∨ o.kind = .signer ∨ o.kind = .bundle ∨ o.kind = .receipt
  checkId o.subject "subject" (!subjectKind)
  invalid (subjectKind = false ∧ o.subject ≠ noId) "subject of another kind"
  checkId o.plan "plan" (o.kind ≠ .bundle)
  invalid (o.kind ≠ .bundle ∧ o.plan ≠ noId) "plan of another kind"
  checkDigest o.bundleApk "bundle APK" (o.classification ≠ .bundlePublished)
  checkDigest o.restorationApk "restoration APK" true
  invalid (o.classification ≠ .bundlePublished ∧
    (o.bundleApk ≠ noDigest ∨ o.restorationApk ≠ noDigest))
    "APK digests outside a published bundle fact"
  invalid (o.bundleApk = o.restorationApk ∧ o.bundleApk ≠ noDigest)
    "a publication binds one APK to both roles"
  o.validateReply

end Observation.Builder

/-- One append only fact scoped to one kernel boot. -/
structure Observation extends Observation.Builder where
  valid : toBuilder.validate = .ok ()

def Observation.Builder.build (b : Observation.Builder) : Checked Observation :=
  construct validate Observation.mk b

@[simp] theorem Observation.Builder.build_eq_ok {b : Observation.Builder} {o : Observation} :
    b.build = .ok o ↔ o.toBuilder = b :=
  construct_eq_ok (fun _ _ => rfl) (·.valid) (fun _ _ => rfl)

/-! ## The selection -/

structure Selection.Fields where
  installation : Text
  component : Text
  revision : Int64
  choice : ChoiceKind
  /-- The chosen plan, `noId` exactly for FACTORY. -/
  planId : Text
  responsibility : UpdateResponsibility
  rebuildWindowMillis : Int64
  realization : Realization
  /-- The boot of the last cohort check, `noId` exactly for UNCHECKED. -/
  checkedBoot : Text
  /-- A linked repair plan, or `noId`. -/
  repair : Text
  /-- The temporary factory plan, `noId` exactly outside TEMPORARY_FACTORY. -/
  temporary : Text
  changedAt : Int64
  deriving DecidableEq

/-- The realizations that a repair plan may be linked to. -/
def Realization.repairable (r : Realization) : Bool :=
  r = .staleBase || r = .displaced || r = .diverged || r = .temporaryFactory

def Selection.Fields.validate (s : Selection.Fields) : Checked Unit := do
  checkId s.installation "installation" false
  checkPackage s.component
  invalid (s.revision < 0) "negative revision"
  checkId s.planId "plan ID" true
  checkId s.checkedBoot "checked boot" true
  checkId s.repair "repair" true
  checkId s.temporary "temporary plan" true
  invalid (if s.responsibility = .rebuildWindow then s.rebuildWindowMillis ≤ 0
    else s.rebuildWindowMillis ≠ 0) "a rebuild window exactly for REBUILD_WINDOW"
  invalid (¬ (s.choice = .factory ↔ s.planId = noId)) "a plan exactly for a PLAN choice"
  invalid (¬ (s.realization = .unchecked ↔ s.checkedBoot = noId))
    "a checked boot exactly once checked"
  invalid (s.choice = .factory ∧ (s.realization = .staleBase ∨ s.realization = .displaced ∨
    s.realization = .temporaryFactory))
    "the factory copy is never stale, displaced or temporarily replaced"
  invalid (s.realization = .temporaryFactory ↔ s.temporary = noId)
    "a temporary plan exactly in TEMPORARY_FACTORY"
  invalid (s.temporary ≠ noId ∧ (s.temporary = s.planId ∨ s.temporary = s.repair))
    "the temporary plan is another plan"
  invalid (¬ s.realization.repairable ∧ s.repair ≠ noId)
    "a repair link without a realization to repair"
  invalid (s.repair = s.planId ∧ s.repair ≠ noId) "the chosen plan cannot repair itself"

/-- The owner's choice for one component, its revision, responsibility and
realization. -/
structure Selection extends Selection.Fields where
  valid : toFields.validate = .ok ()
  deriving DecidableEq

namespace Selection

def make (s : Fields) : Checked Selection := construct Fields.validate Selection.mk s

@[simp] theorem make_eq_ok {f : Fields} {s : Selection} : make f = .ok s ↔ s.toFields = f :=
  construct_eq_ok (fun _ _ => rfl) (·.valid) (fun _ _ => rfl)

/-- The same choice with a new realization: the choice and revision never
change here. -/
def realized (s : Selection) (status : Realization) (bootId repairPlan temporaryPlan : Text) :
    Checked Selection :=
  make { s.toFields with
    realization := status, checkedBoot := bootId, repair := repairPlan, temporary := temporaryPlan }

/-- The choice moved to a plan, or to the factory copy, at the next revision. -/
def chosen (s : Selection) (kind : ChoiceKind) (plan : Text) (status : Realization)
    (bootId : Text) (at_ : Int64) : Checked Selection :=
  make { s.toFields with
    revision := s.revision + 1, choice := kind, planId := plan, realization := status,
    checkedBoot := bootId, repair := noId, temporary := noId, changedAt := at_ }

end Selection
end Andrix.Deployment
