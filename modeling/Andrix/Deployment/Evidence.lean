import Andrix.Deployment.View

/-! What one step reads: the context, the grants of the plan, the notice owed to
other users, and the evidence about the native session. -/
namespace Andrix.Deployment
open Andrix.Lib Option

/-- Everything one step reads. -/
structure Context where
  plan : Plan
  ticket : Ticket
  /-- Every authorization of the plan. -/
  authorizations : List Authorization
  /-- Every ticket of the plan, this one included, for used grants. -/
  planTickets : List Ticket
  selection : Selection
  trustPolicy : Text
  targetHeld : Bool
  /-- Authorized plans that name this plan as the one they repair. -/
  repairs : List Plan
  /-- The stored plan this plan repairs, when it can be read. -/
  repaired : Option Plan
  view : View
  now : Option Clock
  /-- The owner asked for the activating reboot now (early commit). -/
  rebootRequested : Bool
  /-- What the ID source returns next. A step draws at most one ID. -/
  freshId : Text
  ofPlan : ticket.planId = plan.planId
  sameBoot : ∀ clock ∈ now, clock.boot = view.boot
  repairedPlan : ∀ r ∈ repaired, r.planId = plan.repairs

/-! ## Observations -/

def created (t : Ticket) : Bool := 0 < t.count .create

def committed (t : Ticket) : Bool := 0 < t.count .commit

/-- The clock, once this boot's checkpoint is observed committed: a crossing
into the device waits for that. -/
def crossingNow (c : Context) : Option Clock :=
  c.now.filter (fun _ => c.view.checkpoint = some .checkpointCommitted)

def crossingAllowed (c : Context) : Bool := (crossingNow c).isSome

/-- The same with a framework instance running, for the framework calls. -/
def frameworkNow (c : Context) : Option Clock := (crossingNow c).filter (fun now => 0 ≤ now.instanceId)

theorem crossingNow_some {c : Context} {now : Clock} (found : crossingNow c = some now) :
    c.now = some now ∧ ∃ o, (c.view.ofKind .checkpoint).getLast? = some o ∧
      o.classification = .checkpointCommitted := by
  obtain ⟨clock, allowed⟩ := filter_eq_some_iff.mp found
  simp only [decide_eq_true_eq, View.checkpoint, map_eq_some_iff, View.latest_eq_getLast]
    at allowed
  exact ⟨clock, allowed⟩

theorem frameworkNow_some {c : Context} {now : Clock} (found : frameworkNow c = some now) :
    crossingNow c = some now ∧ 0 ≤ now.instanceId := by
  obtain ⟨crossing, instance_⟩ := filter_eq_some_iff.mp found
  exact ⟨crossing, of_decide_eq_true instance_⟩

def cohortChanged (c : Context) : Bool :=
  match c.view.latest .boot, c.view.latest .factory with
  | some boot, some factory => boot.text ≠ c.plan.fingerprint || factory.digest ≠ c.plan.factoryApk
  | _, _ => false

inductive Bytes where
  | bundle | prior | other
  deriving DecidableEq, Repr

/-- The APK digest the plan's publication binds to its VARIANT role, once read. -/
def bundleApk (c : Context) : Option Text := c.view.boundApk c.plan.planId

def bytes (c : Context) (active : Observation) : Bytes :=
  if some active.digest = bundleApk c then .bundle
  else if active.digest = c.plan.baseApk then .prior
  else .other

/-- The states whose rules compare the active bytes with the bundle's. -/
def judgesBytes (state : State) : Bool :=
  state = .bootObserved || state = .appliedProvisional || state = .applied ||
    state = .healthWindow || state = .nativeRecordLost

/-- Whether the publication read that a published ticket needs is missing. -/
def unbound (c : Context) : Bool :=
  code State.published ≤ code c.ticket.state && c.ticket.state ≠ .signFailed && bundleApk c = none

def maxCause (a b : Cause) : Cause := if code a < code b then b else a

theorem maxCause_eq_none {a b : Cause} : maxCause a b = .none ↔ a = .none ∧ b = .none := by
  cases a <;> cases b <;> decide

/-- Whether the selection already holds this plan's own move: the plan chosen
at the revision after the one it expected. -/
def ownMove (c : Context) : Bool :=
  c.plan.target ≠ .temporaryFactory && c.selection.choice = .plan &&
    c.selection.planId = c.plan.planId && c.selection.revision = c.plan.selectionRevision + 1

def observedCause (c : Context) : Cause :=
  let t := c.ticket
  let open_ := !reachedApplied t.state && t.state ≠ .appliedProvisional
  -- The plan's own move, written before its ticket, is no change of revision.
  let selection := if open_ && c.selection.revision ≠ c.plan.selectionRevision && !ownMove c
    then Cause.voidSelection else .none
  let trust := if open_ && c.trustPolicy ≠ c.plan.trustPolicy then Cause.voidTrust else .none
  let target := if open_ && c.targetHeld then Cause.voidTarget else .none
  let base := if cohortChanged c then Cause.voidBase else .none
  let others := match c.view.latest .active with
    | some active =>
      if !cohortChanged c && !unbound c && bytes c active = .other && t.state ≠ .healthWindow
      then Cause.otherBytes else .none
    | none => .none
  maxCause (maxCause (maxCause (maxCause (maxCause .none selection) trust) target) base) others

/-! ## The native session -/

/-- A reference good enough to bind a session across framework instances. -/
def complete (r : Reference) : Bool :=
  r.has Reference.session && r.has Reference.created && r.has Reference.installer &&
    (r.has Reference.stageDirectory || r.has Reference.nonceField)

def merge (ticket seen : Reference) : Checked Reference :=
  Reference.make { seen.toFields with
    presence := seen.presence ||| Reference.nonceField, nonce := ticket.nonce }

def both (a b : Reference) (field : BitVec 32) : Bool := a.has field && b.has field

/-- Whether the ticket's ID in an observation can be told apart from a reused
one. -/
def decidable (ticket seen : Reference) : Bool :=
  both ticket seen Reference.created || both ticket seen Reference.nonceField

/-- Whether an observed reference is the ticket's exact native reference.
Session IDs can be issued again: one field that tells a reused ID apart must
agree. -/
def isExact (ticket seen : Reference) : Bool :=
  ticket.has Reference.session && seen.has Reference.session && ticket.sessionId = seen.sessionId &&
    !(both ticket seen Reference.created && ticket.createdMillis ≠ seen.createdMillis) &&
    !(both ticket seen Reference.stageDirectory && ticket.stageDir ≠ seen.stageDir) &&
    !(both ticket seen Reference.installer && ticket.installerUid ≠ seen.installerUid) &&
    !(both ticket seen Reference.nonceField && ticket.nonce ≠ seen.nonce) &&
    decidable ticket seen

/-- The latest observation of the exact native reference in this boot. -/
def latestExact (c : Context) : Option Observation :=
  pick (fun s => isExact c.ticket.reference s.reference) (fun s best => best.elapsed ≤ s.elapsed)
    (c.view.ofKind .session)

/-- An observation in a later framework instance than an entry's: another boot,
or a later instance of the same one. -/
def later (o : Observation) (e : Option Entry) : Bool :=
  e.all (fun e => o.boot ≠ e.boot || e.instanceId < o.instanceId)

/-- A session that a listing of its framework instance counts. Historical
entries are not listed sessions. -/
def listed (listing s : Observation) : Bool :=
  s.instanceId = listing.instanceId && (s.classification.live ||
    s.classification = .sessionApplied || s.classification = .sessionFailed)

/-- The listing's sessions are all observed and none is the ticket's. -/
def listedWithout (c : Context) (listing : Observation) : Bool :=
  let r := c.ticket.reference
  let sessions := (c.view.ofKind .session).filter (listed listing)
  !sessions.any (fun s => s.reference.sessionId = r.sessionId &&
      (!decidable r s.reference || isExact r s.reference)) &&
    (sessions.length : Int) = listing.number.toInt

/-- Whether a complete listing later than the entry, and not older than the
observation, shows no session of the ticket. -/
def absentSince (c : Context) (exact : Option Observation) (e : Option Entry) : Bool :=
  (c.view.ofKind .listing).any (fun listing =>
    listing.classification ≠ .listingIncomplete && later listing e &&
      exact.all (fun x => x.elapsed ≤ listing.elapsed) && listedWithout c listing)

/-- The session's current state: its latest exact observation, unless a
complete listing taken after it no longer shows it. -/
def exactSession (c : Context) : Option Observation :=
  (latestExact c).filter (fun s => !absentSince c (some s) none)

/-- The session's current state is a fact of the ticket's exact session in this
boot. -/
theorem exactSession_some {c : Context} {s : Observation} (found : exactSession c = some s) :
    s ∈ c.view.facts ∧ s.kind = .session ∧ s.boot = c.view.boot ∧
      isExact c.ticket.reference s.reference = true := by
  obtain ⟨latest, _⟩ := filter_eq_some_iff.mp found
  obtain ⟨member, exact_⟩ := pick_some latest
  obtain ⟨fact, kind, boot⟩ := View.mem_ofKind.mp member
  exact ⟨fact, kind, boot, exact_⟩

/-- A complete listing of this boot, in a later framework instance than the
entry, shows the session gone, with no exact observation after it. -/
def goneAfter (c : Context) (e : Option Entry) : Bool := absentSince c (latestExact c) e

def goneNow (c : Context) : Bool := goneAfter c none

/-- Proof that a lost create made no session: a complete listing in a later
framework instance that shows no staged session for the package at all, or on
the device route, whose sessions all carry a nonce and none the ticket's. -/
def absentAfter (c : Context) (create : Option Entry) : Bool :=
  (c.view.ofKind .listing).any (fun listing =>
    later listing create &&
      (listing.classification = .noneForPackage ||
        (listing.classification = .sessionsForPackage && listing.route = .device &&
          let sessions := (c.view.ofKind .session).filter (listed listing)
          sessions.all (fun s => s.reference.has Reference.nonceField &&
            s.reference.nonce ≠ c.ticket.reference.nonce) &&
          (sessions.length : Int) = listing.number.toInt)))

/-! ## Grants -/

def authorization (c : Context) (id : Text) : Option Authorization :=
  c.authorizations.find? (fun a => a.authorizationId = id)

/-- An entry of a ticket that uses a grant. An ACTIVATE is used only once a
reboot requested under it took effect: a later boot was observed after it. -/
def uses (t : Ticket) (a : Authorization) (e : Entry) : Bool :=
  e.grant = a.authorizationId && (a.effect ≠ .activate || (e.crossing = .reboot && t.boot ≠ e.boot))

def used (c : Context) (a : Authorization) : Bool :=
  c.planTickets.any (fun t =>
    let current := if t.ticketId = c.ticket.ticketId then c.ticket else t
    current.ledger.any (uses current a))

def unusedStage (c : Context) : Option Authorization :=
  c.authorizations.find? (fun a => a.effect = .stage && !used c a)

def expired (c : Context) (a : Authorization) : Bool :=
  match c.now with
  | none => true
  | some now => now.wall < a.grantedAt || c.plan.activateWindowMillis ≤ now.wall - a.grantedAt

/-- An unexpired ACTIVATE that no reboot has used. -/
def validActivate (c : Context) : Option Authorization :=
  c.authorizations.find? (fun a => a.effect = .activate && !expired c a && !used c a)

/-! ## Publication and signing inputs -/

/-- The plan's publication reads after the PUBLISH attempts of its tickets. -/
def publications (c : Context) : List (Option Classification) :=
  c.planTickets.flatMap (fun other => (other.ledger.filter (fun e => e.crossing = .publish)).map
    (fun e => c.view.publication e.reference c.plan.planId))

/-- Whether any attempt read the plan's publication naming other bytes. -/
def mismatch (c : Context) : Bool := (publications c).contains (some .bundleMismatch)

/-- The plan's publication read back complete after an attempt of any of its
tickets, and no attempt read a mismatch. -/
def published (c : Context) : Bool :=
  !mismatch c && (publications c).contains (some .bundlePublished)

/-- The inputs that a ledger entry's signing request covers. -/
def signedInputs (c : Context) (e : Entry) : BitVec 32 :=
  if e.crossing = .sign then ((authorization c e.grant).map (·.inputs)).getD 0 else 0

/-- The inputs this ticket must still sign: none when the plan's bundles are
already signed or read back published, otherwise every input not yet
requested. -/
def signingNeeded (c : Context) : BitVec 32 :=
  if c.plan.signing = 0 then 0
  else if published c then 0
  else c.ticket.ledger.foldl (fun all e => all &&& ~~~ signedInputs c e)
    (inputVariant ||| if c.plan.hasRestoration then inputRestoration else 0)

def bitCount (x : BitVec 32) : Nat := (List.range 32).countP x.getLsbD

/-- The loop of `signGrants`: an unused SIGN grant within the needed inputs, of
the plan's shape and not covered yet, joins the result. -/
def signGrant (c : Context) (needed : BitVec 32) (acc : List Authorization × BitVec 32)
    (a : Authorization) : List Authorization × BitVec 32 :=
  if a.effect ≠ .sign ∨ used c a ∨ a.inputs &&& ~~~ needed ≠ 0 then acc
  else
    let shape := if c.plan.signing = 1 then a.inputs = needed else bitCount a.inputs = 1
    if shape ∧ a.inputs &&& acc.2 = 0 then (acc.1 ++ [a], acc.2 ||| a.inputs) else acc

/-- Unused SIGN grants that cover the needed inputs: one covering all under one
transaction, one per input under two. -/
def signGrants (c : Context) (needed : BitVec 32) : Option (List Authorization) :=
  let (result, covered) := c.authorizations.foldl (signGrant c needed) ([], 0)
  if covered = needed then some result else none

/-! ## Notice -/

def running (o : Observation) : Bool :=
  o.classification = .runningUnlocked || o.classification = .runningLocked

/-- The latest USER fact of each user and serial. A later fact of the same user
replaces an earlier one. -/
def latestUsers (users : List Observation) : List Observation :=
  users.foldl (fun latest u =>
    latest.filter (fun o => !(o.user = u.user && o.serial = u.serial)) ++ [u]) []

/-- The holder needs no notice: the ACTIVATE's actor, or user 0 for the lab
operator who stands in for the owner. -/
def holder (activate : Authorization) (u : Observation) : Bool :=
  if activate.actorClass = .labOperator then u.user = 0
  else u.user = activate.actorUser && u.serial = activate.actorSerial

/-- The other users running in this boot, by the latest USER fact of each, or
none without any USER fact of this boot. -/
def noticeUsers (c : Context) (activate : Authorization) : Option (List Observation) :=
  let users := c.view.ofKind .user
  if users = [] then none
  else some ((latestUsers users).filter (fun u => running u && !holder activate u))

/-- Whether a receipt records a NOTICE of this ticket given in this boot. -/
def givenNow (c : Context) (receipt : Observation) : Bool :=
  receipt.subject = c.ticket.ticketId &&
    (c.ticket.ledger[receipt.sequence]?).any (fun e =>
      e.crossing = .notice && e.boot = c.view.boot)

/-- A user's first receipt in this boot of a NOTICE that this ticket gave in
this boot. -/
def firstReceipt (c : Context) (user : Int32) (serial : Int64) : Option Observation :=
  pick (fun r => r.user = user && r.serial = serial && givenNow c r)
    (fun r first => r.elapsed < first.elapsed) (c.view.ofKind .receipt)

/-- A restoration approved in advance: the plan it repairs names it as its
restoration, and it installs exactly that plan's restoration bundle. -/
def approvedRestoration (c : Context) : Bool :=
  match c.repaired with
  | none => false
  | some r =>
    c.plan.target = .variant && r.restorationPlan = c.plan.planId && r.hasRestoration &&
      c.plan.bundleInput = r.restorationInput && c.plan.bundleVersion = r.restorationVersion &&
      (c.view.bound r.planId).any (fun listed => bundleApk c = some listed.restorationApk)

/-- Only a restoration approved in advance may wait the shorter emergency delay,
only under an EMERGENCY_NOTICE policy, and only when SystemUI could not deliver
the notice. -/
def noticeDelay (c : Context) (delivered : Bool) : Int64 :=
  let p := c.plan
  if p.noticeDelayMillis ≤ p.emergencyNoticeMillis then p.noticeDelayMillis
  else if c.authorizations.any (fun a => a.effect = .emergencyNotice) && approvedRestoration c &&
      !delivered then p.emergencyNoticeMillis
  else p.noticeDelayMillis

/-- Every other running user has a receipt in this boot of a NOTICE of this
ticket, and the delay has run from the last of those users' first receipts. -/
def noticeSatisfied (c : Context) (now : Clock) (activate : Authorization) : Bool :=
  match noticeUsers c activate with
  | none => false
  | some [] => true
  | some required =>
    match required.mapM (fun u => firstReceipt c u.user u.serial) with
    | none => false
    | some receipts =>
      let last := receipts.foldl (fun last r => if last < r.elapsed then r.elapsed else last) (-1)
      let delivered := receipts.any (fun r => r.classification = .receiptSystemui)
      noticeDelay c delivered ≤ now.elapsed - last

/-- The index of this boot's latest NOTICE entry. -/
def latestNotice (c : Context) (now : Clock) : Option Nat :=
  ((c.ticket.ledger.zipIdx.filter (fun p =>
    p.1.crossing = .notice && p.1.boot = now.boot)).getLast?).map Prod.snd

/-- Whether this boot's latest notice, at a ledger index, is owed again: no
reply accepted it and no receipt records it, or a required user without a
receipt was not seen running when it was given or has waited the delay. -/
def noticeAgain (c : Context) (now : Clock) (activate : Authorization) (latest : Nat) : Bool :=
  let t := c.ticket
  let accepted := (c.view.reply t.ticketId (some latest)).any
    (fun r => r.classification = .replySuccess)
  let recorded := (c.view.ofKind .receipt).any
    (fun r => r.subject = t.ticketId && r.sequence = latest)
  if !accepted && !recorded then true
  else
    match noticeUsers c activate, t.ledger[latest]? with
    | some required, some entry =>
      let waited := c.plan.noticeDelayMillis ≤ now.elapsed - entry.elapsed
      required.any (fun u => (firstReceipt c u.user u.serial).isNone &&
        (waited || !(c.view.ofKind .user).any (fun o => o.user = u.user && o.serial = u.serial &&
          o.elapsed ≤ entry.elapsed && running o)))
    | _, _ => false

/-- Lost reboot requests: each request that the same boot outlived, as the next
request in that boot or the current boot shows. -/
def lostRequests (t : Ticket) (boot : Text) : Nat :=
  let boots := (t.ledger.filter (fun e => e.crossing = .reboot)).map (·.boot) ++ [boot]
  (boots.zip boots.tail).countP (fun (previous, next) => previous = next)

/-! ## A sample deployment

One plan for SystemUI on one installation, with its grants and facts, at which
the results below are evaluated. -/

/-- The sample IDs and digests differ in their last digit. -/
def sampleId (digit : Char) : Text := List.replicate 31 '0' ++ [digit]

def sampleDigest (digit : Char) : Text := List.replicate 63 '0' ++ [digit]

def sampleComponent : Text := "com.android.systemui".toList

/-- The sample plan with its bundle still to be signed in so many transactions. -/
def samplePlanFields (signing : Nat) : Plan.Builder where
  installation := sampleId '1'
  planId := sampleId '2'
  component := sampleComponent
  bundleInput := sampleDigest '1'
  bundleVersion := 3
  signer := sampleDigest '2'
  restorationInput := sampleDigest '3'
  restorationVersion := 4
  signing := signing
  fingerprint := "image".toList
  factoryApk := sampleDigest '4'
  factoryVersion := 1
  baseApk := sampleDigest '4'
  baseVersion := 1
  baseUid := 10050
  baseContext := "platform_app".toList
  trustPolicy := sampleDigest '5'
  healthWindowMillis := 400
  noticeDelayMillis := 60
  emergencyNoticeMillis := 60
  bootLimit := 3
  requestLimit := 2
  rebootTimeLimitMillis := 100
  activateWindowMillis := 10000
  verificationWaitMillis := 100

def samplePlan : Plan := ⟨samplePlanFields 0, by decide +kernel⟩

def sampleGrantFields (digit : Char) (effect : Effect) (inputs : BitVec 32) : Authorization.Fields where
  installation := sampleId '1'
  authorizationId := sampleId digit
  component := sampleComponent
  planId := sampleId '2'
  effect := effect
  inputs := inputs
  actorClass := .labOperator
  actorUser := noUser
  actorSerial := noSerial
  grant := noId
  grantScope := .none
  interaction := sampleId '3'
  grantedAt := 1000

def sampleStage : Authorization := ⟨sampleGrantFields '4' .stage 0, by decide +kernel⟩

def sampleActivate : Authorization := ⟨sampleGrantFields '5' .activate 0, by decide +kernel⟩

/-- A clock of the sample device, with its wall time. -/
def sampleClock (boot : Char) (elapsed : Int64) : Option Clock :=
  if valid : checkId (sampleId boot) "boot" false = .ok () then
    some ⟨sampleId boot, 0, elapsed, 2000 + elapsed, valid⟩
  else none

def sampleTicketFields : Ticket.Builder where
  installation := sampleId '1'
  ticketId := sampleId '6'
  component := sampleComponent
  planId := sampleId '2'
  coordinator := sampleId '7'

/-- A fact of the sample device's boot, read so long after it started. -/
def sampleFact (classification : Classification) (elapsed : Int64) : Observation.Builder where
  installation := sampleId '1'
  observationId := sampleId '8'
  boot := sampleId '9'
  elapsed := elapsed
  raw := sampleDigest '6'
  classification := classification

def sampleBoot (elapsed : Int64) : Observation.Builder :=
  { sampleFact .bootCompleted elapsed with text := "image".toList }

def sampleComponentFact (classification : Classification) (elapsed : Int64) : Observation.Builder :=
  { sampleFact classification elapsed with component := sampleComponent }

/-- The same fact in another boot. -/
def inBoot (boot : Char) (o : Observation.Builder) : Observation.Builder :=
  { o with boot := sampleId boot }

def sampleReference : Reference where
  toFields := ⟨31, 7, 20, "/stage".toList, 2000, sampleId 'b'⟩
  valid := by decide +kernel

/-- A reply to one of the sample ticket's entries. -/
def sampleReply (sequence : Nat) (crossing : Crossing) (classification : Classification) :
    Observation.Builder :=
  { sampleComponentFact classification 20 with
    instanceId := 0, subject := sampleId '6', sequence, crossing := some crossing }

/-- The publication read back, binding the bundle's APK. -/
def samplePublication : Observation.Builder :=
  { sampleFact .bundlePublished 1 with
    component := sampleComponent, route := .host, digest := sampleDigest '7', subject := sampleId 'a'
    plan := sampleId '2', bundleApk := sampleDigest '8', restorationApk := sampleDigest '9' }

/-- What the samples begin with: the publication, the boot's own facts and its
committed checkpoint. -/
def sampleOpening : List Observation := [
  ⟨samplePublication, by decide +kernel⟩,
  ⟨sampleBoot 2, by decide +kernel⟩,
  ⟨sampleFact .checkpointCommitted 3, by decide +kernel⟩]

def sampleSelection : Selection where
  installation := sampleId '1'
  component := sampleComponent
  revision := 0
  choice := .factory
  planId := noId
  responsibility := .keepStale
  rebuildWindowMillis := 0
  realization := .unchecked
  checkedBoot := noId
  repair := noId
  temporary := noId
  changedAt := 0
  valid := by decide +kernel

end Andrix.Deployment
