import Andrix.Deployment.Validity
import Andrix.Deployment.Evidence

/-! Reconciliation from observations. Given the durable records and the
observations of the current kernel boot, `step` computes the next ticket value
and at most one crossing. Each rule works on one ticket builder and leaves a
draft: the builder and, unless the rule only waits, what it hands to `done`. -/
namespace Andrix.Deployment
open Andrix.Lib

structure Step where
  /-- The next ticket value. Equal to the input when nothing changes. -/
  ticket : Ticket
  /-- The crossing to issue once the ticket is synced: the last ledger entry. -/
  issue : Option Entry
  /-- The next selection value, when the choice or realization changes. -/
  selection : Option Selection
  reason : String

/-- What a rule hands to `done` beside its builder. -/
structure Handed where
  issue : Option Entry
  selection : Option Selection
  why : String

/-- What a rule leaves. Without a result the source returns null and the step
waits with the builder as the rule left it. -/
structure Draft where
  builder : Ticket.Builder
  result : Option Handed

def waits (b : Ticket.Builder) : Checked Draft := .ok ⟨b, none⟩

/-- `return done(c, b, issue, selection, why)`. -/
def hands (b : Ticket.Builder) (issue : Option Entry) (selection : Option Selection)
    (why : String) : Checked Draft := .ok ⟨b, some ⟨issue, selection, why⟩⟩

/-- A step that keeps the builder's state and issues nothing. -/
def holds (b : Ticket.Builder) (why : String) : Checked Draft := hands b none none why

/-! ## Transitions -/

def entry (c : Context) (crossing : Crossing) (grant reference : Text) : Checked Entry := do
  let boot := (c.now.map (·.boot)).getD noId
  let instanceId := (c.now.map (·.instanceId)).getD (-1)
  let elapsed := (c.now.map (·.elapsed)).getD 0
  let wall := (c.now.map (·.wall)).getD 0
  refuse (crossing.framework ∧ instanceId < 0) (Failure.illegalState "no framework instance")
  Entry.make {
    crossing, boot, instanceId := if boot = noId then -1 else instanceId, elapsed, grant, reference,
    issuedAt := wall }

def goTo (b : Ticket.Builder) (state : State) (why : String) : Checked Draft :=
  holds { b with state } why

def issue (b : Ticket.Builder) (state : State) (e : Entry) (why : String) : Checked Draft :=
  hands ((({ b with state } : Ticket.Builder).append e).clear flagUnresolved) (some e) none why

/-- Abandons the exact session: a crossing, so it waits for the checkpoint
commit. -/
def abandon (c : Context) (b : Ticket.Builder) (why : String) : Checked Draft :=
  match frameworkNow c with
  | none => holds b (why ++ "; waiting to abandon")
  | some _ =>
    if c.plan.requestLimit ≤ c.ticket.count .abandon then
      holds (b.set flagRequestLimit) (why ++ "; abandon request limit: holding and alerting")
    else do
      let e ← entry c .abandon noId noId
      issue (b.clear flagUnresolved) .abandonIntent e why

def unresolved (b : Ticket.Builder) (why : String) : Checked Draft :=
  holds (b.set flagUnresolved) why

/-- Nothing irreversible before the checkpoint commit: once a session may
exist, a ticket closes only in a boot whose checkpoint is observed committed. -/
def closeTo (c : Context) (b : Ticket.Builder) (state : State) (why : String) : Checked Draft :=
  if created c.ticket ∧ ¬ crossingAllowed c then holds b (why ++ "; waiting for the checkpoint")
  else holds { (b.clear flagUnresolved).window noId 0 with state } why

/-- The closing state of a recorded cause: CANCELLED, VOID, or DIVERGED once
COMMIT_INTENT was reached. -/
def closingState (t : Ticket) (cause : Cause) : State :=
  if cause = .cancelled then .cancelled
  else if cause.voids then .void
  else if cause = .otherBytes then if committed t then .diverged else .void
  else .closedFailed

def close (c : Context) (b : Ticket.Builder) (why : String) : Checked Draft :=
  closeTo c b (closingState c.ticket b.cause) why

def raise (b : Ticket.Builder) (cause : Cause) : Ticket.Builder :=
  { b with cause := maxCause b.cause cause }

/-! ## Signing and publication -/

def signNext (c : Context) (b : Ticket.Builder) (into : State) : Checked Draft :=
  let needed := signingNeeded c
  if needed = 0 then goTo b into "nothing left to sign"
  else match signGrants c needed with
    | none => waits b
    | some [] => .error .indexOutOfBounds
    | some (grant :: _) => do
      let e ← entry c .sign grant.authorizationId c.freshId
      issue b into e "sign"

def signing (c : Context) (b : Ticket.Builder) : Checked Draft :=
  let t := c.ticket
  let refused := t.ledger.any (fun e => e.crossing = .sign &&
    (c.view.signer e.reference = some .signRefused ||
      c.view.signer e.reference = some .signCannotComplete))
  if refused then
    goTo (b.clear flagUnresolved) .signFailed "the signer refused or proved no completion"
  else if (t.last .sign).any (fun e => c.view.signer e.reference ≠ some .signCompleted) then
    unresolved b "signing reply missing: resolved only by its request ID"
  else
    let b := b.clear flagUnresolved
    if signingNeeded c = 0 then goTo b .signed "every transaction verified and private"
    else signNext c b .signing

/-- A lost acknowledgement is resolved by reading, never by publishing again.
Only the plan's publication record read absent after the last attempt shows that
the attempt had no effect. One more attempt then follows. -/
def publish (c : Context) (b : Ticket.Builder) : Checked Draft :=
  match c.ticket.last .publish with
  | none => do
    let e ← entry c .publish noId c.freshId
    issue b .signed e "publish"
  | some last =>
    if mismatch c then
      holds (b.set flagRequestLimit) "the publication names other bytes: holding and alerting"
    else if c.view.publication last.reference c.plan.planId ≠ some .bundleAbsent then waits b
    else if c.ticket.count .publish < Crossing.publish.bound then do
      let e ← entry c .publish noId c.freshId
      issue b .signed e "the publication had no effect: publish once more from the held bundles"
    else
      holds (b.set flagRequestLimit) "a second publication had no effect: holding and alerting"

/-! ## Staging -/

/-- Gives the notice, or waits for its receipts and its delay. Each boot allows
the request limit plus one NOTICE entries. -/
def notice (c : Context) (now : Clock) (b : Ticket.Builder) (activate : Authorization)
    (why : Option String) : Checked Draft :=
  let t := c.ticket
  let latest := latestNotice c now
  if latest.any (fun i => !noticeAgain c now activate i) then holds b "notice delay"
  else
    let inBoot := t.ledger.countP (fun e => e.crossing = .notice && e.boot = now.boot)
    if c.plan.requestLimit + 1 ≤ inBoot ∨ Crossing.notice.bound ≤ t.count .notice then
      if created t then abandon c b "notice limit"
      else holds (b.set flagRequestLimit) "notice limit: holding and alerting"
    else do
      let e ← entry c .notice activate.authorizationId noId
      issue b t.state e (match why with
        | none => "notice before the session"
        | some _ => if latest.isSome then "notice again" else "notice")

/-- Creates the session under an unused STAGE, once any notice is satisfied. -/
def createSession (c : Context) (b : Ticket.Builder) (stage : Authorization) : Checked Draft := do
  let reference ← Reference.none.withNonce c.freshId
  let e ← entry c .create stage.authorizationId c.freshId
  issue { b with reference } .sessionIntent e "create"

def stage (c : Context) (b : Ticket.Builder) : Checked Draft :=
  if b.cause ≠ .none then close c b "recorded cause before any session"
  -- Version 1 stages SystemUI's class only.
  else if c.plan.componentClass ≠ .stagedSystemApk then waits b
  else match unusedStage c with
    | none => waits b
    | some stage =>
      if c.plan.commitMode = .late then
        -- Late commit: ACTIVATE before SESSION_INTENT.
        match validActivate c, frameworkNow c with
        | some activate, some now =>
          if noticeSatisfied c now activate then createSession c b stage
          else notice c now b activate none
        | _, _ => waits b
      else match frameworkNow c with
        | none => waits b
        | some _ => createSession c b stage

def sessionIntent (c : Context) (b : Ticket.Builder) : Checked Draft :=
  let t := c.ticket
  let cleared := b.clear flagUnresolved
  let reply := c.view.reply t.ticketId (t.indexOfLast .create)
  let refused := reply.any (fun r => r.classification = .replyRefused)
  let bound := reply.filter (fun r => r.classification = .replySuccess && complete r.reference &&
    (!r.reference.has Reference.nonceField || r.reference.nonce = t.reference.nonce))
  -- A route that reads the referrer finds the session by its nonce.
  let found := (c.view.ofKind .session).find? (fun s => s.reference.has Reference.nonceField &&
    s.reference.nonce = t.reference.nonce && complete s.reference)
  if refused then goTo cleared .noSession "create refused"
  else match bound, found with
    | some r, _ => do
      let reference ← merge t.reference r.reference
      goTo { cleared with reference } .sessionBound "create reply with its reference"
    | none, some s => do
      let reference ← merge t.reference s.reference
      goTo { cleared with reference } .sessionBound "session found by its nonce"
    | none, none =>
      if absentAfter c (t.last .create) then
        goTo cleared .noSession "a complete listing in a later instance shows none"
      else unresolved b "create reply lost or incomplete"

/-- SESSION_BOUND and WRITTEN. -/
def bound (c : Context) (b : Ticket.Builder) : Checked Draft :=
  let t := c.ticket
  if b.cause ≠ .none then abandon c b "recorded cause with a live session"
  else if goneAfter c (t.last .create) then goTo b .nativeRecordLost "session gone"
  else if t.state = .sessionBound then
    match t.last .write with
    | none => match frameworkNow c with
      | none => waits b
      | some _ => do
        let e ← entry c .write noId noId
        issue b .sessionBound e "write"
    | some _ =>
      if (c.view.reply t.ticketId (t.indexOfLast .write)).any
          (fun r => r.classification = .replySuccess) then goTo b .written "written"
      else abandon c b "write failed or its reply was lost"
  else match validActivate c with
    | none => abandon c b "no unexpired ACTIVATE before commit"
    | some activate => match frameworkNow c with
      | none => waits b
      | some _ => do
        let e ← entry c .commit activate.authorizationId noId
        issue b .commitIntent e "commit"

/-! ## Commit and activation -/

/-- What an observed exact session decides at COMMIT_INTENT. -/
def commitObserved (c : Context) (b : Ticket.Builder) (s : Observation) : Checked Draft :=
  let b := b.clear flagUnresolved
  match s.classification with
  | .sessionReady => goTo b .ready "session observed ready"
  | .sessionFailed | .sessionRefused =>
    goTo b .failedNative "session failed or refused at validation"
  -- Destroyed in memory only: a later framework instance tells whether it stuck.
  | .sessionAbandoned => holds b "session destroyed; confirmed in a later instance"
  | live =>
    if live.live && later s (c.ticket.last .commit) then
      abandon c b "live but not ready in a later framework instance"
    else holds b "verifying"

def commitIntent (c : Context) (b : Ticket.Builder) (newBoot : Bool) : Checked Draft :=
  let t := c.ticket
  let commit := t.last .commit
  let cleared := b.clear flagUnresolved
  let reply := c.view.reply t.ticketId (t.indexOfLast .commit)
  let refused := reply.any (fun r => r.classification = .replyRefused)
  if newBoot then goTo cleared .bootObserved "a kernel boot during commit"
  else if reply.any (fun r => r.classification = .replyReady) then
    goTo cleared .ready "commit replied ready"
  else match exactSession c with
    | some s =>
      -- A refusal ends the attempt: a session it left live is abandoned first.
      if refused && s.classification.live && s.classification ≠ .sessionReady then
        abandon c cleared "commit refused with the session still open"
      else if refused && !s.classification.live then goTo cleared .failedNative "commit refused"
      else commitObserved c b s
    | none =>
      if refused then
        if absentSince c none commit then goTo cleared .failedNative "commit refused"
        else holds cleared "commit refused; observing"
      else if goneAfter c commit then goTo cleared .nativeRecordLost "session gone"
      else unresolved b "commit reply lost or ambiguous"

/-- REBOOT_INTENT under an unexpired ACTIVATE that no reboot has used, as soon
as the boot allows a crossing and after any notice, otherwise ABANDON_INTENT. -/
def activate (c : Context) (b : Ticket.Builder) : Checked Draft :=
  let t := c.ticket
  match crossingNow c with
  | none => waits b
  | some now => match validActivate c with
    | none => abandon c b "no unexpired ACTIVATE that no reboot has used"
    | some grant =>
      if c.plan.requestLimit ≤ lostRequests t now.boot then abandon c b "reboot request limit"
      else if Crossing.reboot.bound ≤ t.count .reboot then
        abandon c b "the ledger holds no more reboots"
      else if !noticeSatisfied c now grant then
        notice c now b grant (some "notice not given or its delay not over")
      else do
        let e ← entry c .reboot grant.authorizationId noId
        issue b .rebootIntent e "activating reboot"

/-- READY and READY_AGAIN. -/
def ready (c : Context) (b : Ticket.Builder) (newBoot : Bool) : Checked Draft :=
  if newBoot then goTo b .bootObserved "a boot nobody requested"
  else if goneAfter c (c.ticket.last .commit) then
    goTo b .nativeRecordLost "Android dropped the session"
  else if (exactSession c).any (fun s => s.classification = .sessionAbandoned) then
    holds b "session destroyed; confirmed in a later instance"
  else if b.cause ≠ .none then abandon c b "recorded cause before activation"
  else if c.plan.commitMode = .late then activate c b
  -- Early commit: any reboot applies the change while an ACTIVATE stands.
  else if (validActivate c).isNone then abandon c b "no unexpired ACTIVATE under early commit"
  else if c.rebootRequested then activate c b
  else waits b

def rebootIntent (c : Context) (b : Ticket.Builder) (newBoot : Bool) : Checked Draft :=
  let t := c.ticket
  if newBoot then
    goTo (b.clear flagUnresolved) .bootObserved "a new boot ID after the request"
  else match c.now with
    | none => unresolved b "reboot requested"
    | some now => match t.last .reboot with
      | none => .error (.nullPointer "reboot")
      | some reboot =>
        if now.boot = reboot.boot ∧ c.plan.rebootTimeLimitMillis ≤ now.elapsed - reboot.elapsed then
          let b := b.clear flagUnresolved
          if c.plan.requestLimit ≤ lostRequests t now.boot then abandon c b "reboot request limit"
          else goTo b .ready "the same boot after the time limit: the request was lost"
        else unresolved b "reboot requested"

/-- The earlier abandon had no lasting effect on a session still live in a later
instance. Only Android can remove the session. -/
def abandonAgain (c : Context) (b : Ticket.Builder) (s : Observation) : Checked Draft :=
  let b := b.clear flagUnresolved
  if s.classification = .sessionFailed ∨ s.classification = .sessionRefused then
    goTo b .abandoned "the session is terminal"
  else if !s.classification.live then holds b "not live; gone only in a complete listing"
  else if c.plan.requestLimit ≤ c.ticket.count .abandon then
    holds (b.set flagRequestLimit) "abandon request limit: holding and alerting"
  else match frameworkNow c with
    | none => holds b "waiting for the checkpoint"
    | some _ => do
      let e ← entry c .abandon noId noId
      issue b .abandonIntent e "abandon again"

def abandonIntent (c : Context) (b : Ticket.Builder) (newBoot : Bool) : Checked Draft :=
  let t := c.ticket
  let last := t.last .abandon
  let cleared := b.clear flagUnresolved
  if newBoot && committed t then
    goTo cleared .bootObserved "a kernel boot came first after commit"
  else match (exactSession c).filter (fun s => later s last) with
    | some s => abandonAgain c b s
    | none =>
      if goneAfter c last then goTo cleared .abandoned "gone in a later instance"
      else if (c.view.reply t.ticketId (t.indexOfLast .abandon)).any
          (fun r => r.classification = .replySuccess) then
        holds cleared "abandon replied; confirmed in a later instance"
      else unresolved b "abandon reply lost or ambiguous"

/-! ## Activation boots -/

/-- What an exact session decides in the boot after an activation. -/
def bootSession (c : Context) (b : Ticket.Builder) (active s : Observation) : Checked Draft :=
  match s.classification with
  | .sessionApplied =>
    if bytes c active = .bundle then goTo b .appliedProvisional "applied in this boot"
    -- An image change waits for the record to go, and the lost record decides.
    else if cohortChanged c then waits b
    -- Other or prior bytes replaced the applied bytes: no session of the ticket lives.
    else closeTo c (raise b .otherBytes) .diverged "applied, but other or prior bytes are active"
  | .sessionFailed | .sessionRefused => goTo b .failedNative "failed at boot"
  | .sessionAbandoned => waits b
  | other =>
    if bytes c active = .other && !cohortChanged c then
      abandon c (raise b .otherBytes) "other bytes active while the session lives"
    else if 0 < c.ticket.count .abandon then
      abandon c b "the earlier abandon had no lasting effect"
    else if other = .sessionReady then goTo b .readyAgain "made ready again after the boot"
    else
      let completed := c.view.completedAt
      if 0 ≤ completed && c.now.any (fun now =>
          c.plan.verificationWaitMillis ≤ now.elapsed - completed) then
        abandon c b "live but still not ready after verification had time to run"
      else waits b

def bootObserved (c : Context) (b : Ticket.Builder) : Checked Draft :=
  match c.view.latest .active, c.view.latest .factory with
  | some active, some _ =>
    match exactSession c with
    | some s => bootSession c b active s
    | none =>
      if !goneNow c then waits b
      else match bytes c active with
        | .bundle => goTo b .nativeRecordLost "record lost, the bundle's bytes active"
        | .prior =>
          if 0 < c.ticket.count .abandon then goTo b .abandoned "abandoned, prior bytes active"
          else goTo b .nativeRecordLost "record lost, prior bytes active"
        | .other =>
          if cohortChanged c then goTo b .nativeRecordLost "record lost on another base"
          else closeTo c (raise b .otherBytes) .diverged
            "other bytes active and no session of the ticket lives"
  | _, _ => waits b

def recordLost (c : Context) (b : Ticket.Builder) : Checked Draft :=
  match c.view.latest .active, c.view.latest .factory with
  | some active, some _ =>
    match bytes c active with
    | .bundle =>
      -- A lost record counts as applied only after COMMIT_INTENT.
      if committed c.ticket then goTo b .appliedProvisional "the bundle's bytes are active"
      else close c (raise b .otherBytes)
        "the bundle's bytes are active, but the ticket never committed"
    | .prior => close c b "prior bytes active: by the recorded cause"
    | .other =>
      if cohortChanged c then
        closeTo c (raise b .voidBase) .void "record lost across an image change"
      else closeTo c (raise b .otherBytes) (if committed c.ticket then .diverged else .void)
        "other bytes active"
  | _, _ => waits b

/-- The session applied or its record lost, the bundle's bytes and versionCode
active with the base's UID and context, all in this boot. -/
def appliedFacts (c : Context) : Bool :=
  match c.view.latest .active with
  | none => false
  | some active =>
    some active.digest = bundleApk c && active.version = c.plan.bundleVersion &&
      active.number = c.plan.baseUid && active.text = c.plan.baseContext &&
      match exactSession c with
      | some s => s.classification = .sessionApplied
      | none => committed c.ticket && goneNow c

/-- The selection an applied plan owes, or none when it owes none or the
selection already holds it. A plan with no recorded cause whose expected
revision is still the selection's moves the choice to itself at the next
revision. A TEMPORARY_FACTORY plan instead keeps the choice and revision of the
plan it stands in for and becomes the selection's temporary plan. -/
def move (c : Context) (cause : Cause) : Checked (Option Selection) :=
  let p := c.plan
  let s := c.selection
  match c.now with
  | none => .ok none
  | some now =>
    if cause ≠ .none ∨ s.revision ≠ p.selectionRevision then .ok none
    else if p.target = .temporaryFactory then
      if s.choice ≠ .plan ∨ s.planId ≠ p.repairs then .ok none
      else if (c.view.latest .active).any (fun active => some active.digest ≠ bundleApk c) then
        .ok none
      else do
        let next ← s.realized .temporaryFactory c.view.boot s.repair p.planId
        pure (if next = s then none else some next)
    else do
      let next ← s.chosen .plan p.planId .current c.view.boot now.wall
      some <$> cohortCheck next (some p) none c.view none

def applied (c : Context) (b : Ticket.Builder) : Checked Draft := do
  let next ← move c b.cause
  let why := if next.isSome then "applied: the choice moves, or the temporary factory copy stands in"
    else if ownMove c then "applied: the choice already names the plan"
    else "applied under a recorded cause or another revision: the choice stays"
  hands { b with state := .applied } none next why

/-! ## The health window -/

/-- What one fact of a user shows in the window. -/
def seenOutcome (o : Observation) : Option Outcome :=
  if o.kind = .user ∧ o.classification = .userRemoved then some .removed
  else if o.classification = .healthCrash then some .unhealthy
  else if (o.kind = .user ∧ running o) ∨ o.kind = .health then some .observing
  else none

/-- Replaces the last element that matches. -/
def setLast (p : Health → Bool) (x : Health) : List Health → List Health
  | [] => []
  | h :: rest =>
    if rest.any p then h :: setLast p x rest else if p h then x :: rest else h :: rest

def Health.withOutcome (h : Health) (outcome : Outcome) : Health :=
  ⟨{ h.toFields with outcome }, h.valid⟩

/-- One turn of the loop over the facts: adds a user seen, marks removals and
crashes. Bound by serial. A removal of a user never observed makes no claim. -/
def observeUser (boot : Text) (since : Int64) (result : List Health) (o : Observation) :
    List Health :=
  if named : o.user = noUser then result
  else if o.boot ≠ boot ∨ o.elapsed < since then result
  else match seenOutcome o with
    | none => result
    | some seen =>
      let health : Health := ⟨⟨o.user, o.serial, seen⟩, o.health_valid named⟩
      match TicketMachine.outcomeOf o.user o.serial result with
      | none => if seen = .removed then result else result ++ [health]
      | some known =>
        if known = .observing ∧ seen ≠ .observing then
          setLast (fun h => h.user = o.user && h.serial = o.serial) health result
        else result

/-- Ascending by user then serial. -/
def healthOrder (x y : Health) : Prop := x.user < y.user ∨ (x.user = y.user ∧ x.serial ≤ y.serial)

instance : DecidableRel healthOrder := fun _ _ => inferInstanceAs (Decidable (_ ∨ _))

def observeUsers (c : Context) (current : List Health) (since : Int64) : List Health :=
  let result := (c.view.facts.foldl (observeUser c.view.boot since) current).insertionSort healthOrder
  if maxUsers < result.length then current else result

/-- A user is healthy only when full probes leave no part of the window longer
than this share of it unobserved. -/
def windowParts : Int64 := 4

/-- When a user was first observed unlocked in this boot, or -1. -/
def firstUnlock (c : Context) (user : Int32) (serial : Int64) : Int64 :=
  (((c.view.ofKind .user).find? (fun o => o.user = user && o.serial = serial &&
    o.classification = .runningUnlocked)).map (·.elapsed)).getD (-1)

/-- No two neighbouring times lie further apart than the gap, and the last is
no further from the end. -/
def coversFrom (stop gap : Int64) : Int64 → List Int64 → Bool
  | last, [] => stop - last ≤ gap
  | last, time :: rest => time - last ≤ gap && coversFrom stop gap time rest

/-- Whether probes at these times, in time order, cover a span with no gap above
the bound. -/
def covers (times : List Int64) (start stop gap : Int64) : Bool :=
  match times with
  | [] => false
  | first :: rest => first - start ≤ gap && coversFrom stop gap first rest

/-- Whether a probe held every declared criterion. -/
def holdsCriteria (p : Plan) (o : Observation) : Bool :=
  o.classification = .healthHeld && o.number.toBitVec &&& p.criteria = p.criteria

/-- Judges a user still observed when the window completes. HEALTHY needs every
probe in the window to have held every declared criterion, and those probes to
cover the user's span with no gap above a quarter of the window. -/
def judgeUser (c : Context) (h : Health) : Outcome :=
  let p := c.plan
  let since := c.ticket.windowStart
  let probes := (c.view.ofKind .health).filter (fun o =>
    o.user = h.user && o.serial = h.serial && since ≤ o.elapsed)
  let degraded := probes.any (fun o => o.classification = .healthDegraded)
  let doubt := probes.any (fun o => o.classification ≠ .healthDegraded && !holdsCriteria p o)
  let held := (probes.filter (holdsCriteria p)).map (·.elapsed)
  -- The span starts later than the window only after a listing of the users between the window's
  -- start and the user's first observed unlock.
  let unlocked := firstUnlock c h.user h.serial
  let start := if since < unlocked then
      ((c.view.ofKind .user).filter (fun o => o.elapsed < unlocked)).foldl
        (fun start o => if start < o.elapsed then o.elapsed else start) since
    else since
  if degraded then .degraded
  else if covers held start (since + p.healthWindowMillis) (p.healthWindowMillis / windowParts) &&
      !doubt && !cohortChanged c then .healthy
  else .inconclusive

def judge (c : Context) (outcomes : List Health) : List Health :=
  outcomes.map (fun h => if h.outcome = .observing then h.withOutcome (judgeUser c h) else h)

def finish (outcomes : List Health) (closing : Outcome) : List Health :=
  outcomes.map (fun h => if h.outcome = .observing then h.withOutcome closing else h)

def failed (outcomes : List Health) : Bool := outcomes.any (fun h => h.outcome = .unhealthy)

def startWindow (c : Context) (b : Ticket.Builder) : Checked Draft :=
  match c.now with
  | none => waits b
  | some now => do
    let owed ← move c c.ticket.cause
    let b := b.window now.boot now.elapsed
    let health := observeUsers c b.health now.elapsed
    hands { b with health, state := .healthWindow } none owed
      (if owed.isNone then "health window started"
        else "health window started; the owed choice moves")

/-- Another boot than the window's: the boot limit ends the window, otherwise
the window restarts. -/
def windowBoot (c : Context) (now : Clock) (b : Ticket.Builder) : Checked Draft :=
  if b.flag flagBootLimit then
    let b := { b with health := finish b.health .unhealthy }
    -- The boot limit is an observed failure, so the restoration listed in the approval takes over.
    if c.plan.healthResponse = .restoreAutomatically then
      closeTo c { b with successor := c.plan.restorationPlan } .superseded
        "boot limit: automatic restoration listed in the approval"
    else closeTo c b .closedApplied "boot limit: UNHEALTHY for every user still observed"
  else holds (b.window now.boot now.elapsed) "a reboot restarts the window"

/-- The observation of the users in the window's own boot. -/
def windowUsers (c : Context) (now : Clock) (b : Ticket.Builder) : Checked Draft :=
  let t := c.ticket
  let outcomes := observeUsers c b.health t.windowStart
  -- Automatic restoration runs only when the approval listed it, and only on an observed failure.
  if c.plan.healthResponse = .restoreAutomatically ∧ failed outcomes then
    closeTo c { b with
        health := finish outcomes .inconclusive, successor := c.plan.restorationPlan }
      .superseded "automatic restoration listed in the approval"
  else if now.boot = t.windowBoot ∧ c.plan.healthWindowMillis ≤ now.elapsed - t.windowStart then
    closeTo c { b with health := judge c outcomes } .closedApplied "the window completed"
  else holds { b with health := outcomes } "observing health"

/-- The repair plan that takes over. The restoration approved up front takes
over only by automatic restoration. -/
def takesOver (c : Context) : Option Plan :=
  c.repairs.find? (fun repair =>
    repair.repairs = c.plan.planId && repair.planId ≠ c.plan.restorationPlan)

/-- Each closing waits for the checkpoint commit and is decided again in the
next step. -/
def window (c : Context) (b : Ticket.Builder) : Checked Draft :=
  match c.now with
  | none => waits b
  | some now =>
    if cohortChanged c then
      closeTo c { b with health := finish b.health .inconclusive } .closedApplied
        "an image change ends the window"
    else if c.ticket.windowBoot ≠ now.boot then windowBoot c now b
    else if (c.view.latest .active).any (fun active => some active.digest ≠ bundleApk c) then
      closeTo c (raise { b with health := finish b.health .inconclusive } .otherBytes) .diverged
        "other bytes became active"
    else match takesOver c with
      | some repair =>
        closeTo c { b with
            successor := repair.planId, health := finish b.health .inconclusive }
          .superseded "a repair plan took over"
      | none => windowUsers c now b

/-! ## The step -/

/-- Builds the successor and refuses one that is no legal step. -/
def done (c : Context) (b : Ticket.Builder) (h : Handed) : Checked Step := do
  let next ← b.build
  match TicketMachine.check c.ticket next with
  | .error broken => .error (.illegalState ("illegal step: " ++ broken))
  | .ok () => .ok ⟨next, h.issue, h.selection, h.why⟩

/-- The step a draft leads to, or none where the rule returned null. -/
def Draft.finish (c : Context) (d : Draft) : Checked (Option Step) :=
  match d.result with
  | none => .ok none
  | some h => some <$> done c d.builder h

def Step.withOwed (s : Step) (owed : Selection) : Step :=
  { s with selection := some owed, reason := s.reason ++ "; the owed choice moves" }

/-- A choice move that APPLIED owed and the records do not hold yet goes with
the window's step. -/
def owing (c : Context) (s : Option Step) (b : Ticket.Builder) : Checked (Option Step) := do
  match ← move c c.ticket.cause, s with
  | none, s => .ok s
  | some owed, some s => .ok (some (s.withOwed owed))
  | some owed, none => (fun s => some (s.withOwed owed)) <$> done c b ⟨none, none, "observing health"⟩

/-- Whether the grants for the ticket's first crossing are held. -/
def authorizes (c : Context) : Bool :=
  if signingNeeded c = 0 then (unusedStage c).isSome else (signGrants c (signingNeeded c)).isSome

def rule (c : Context) (b : Ticket.Builder) (newBoot : Bool) : Checked Draft :=
  match c.ticket.state with
  | .planned =>
    if b.cause ≠ .none then close c b "recorded cause before any crossing"
    else if authorizes c then goTo b .authorized "authorized"
    else waits b
  | .authorized =>
    if b.cause ≠ .none then close c b "recorded cause before any crossing"
    else signNext c b .signing
  | .signing => signing c b
  | .signed =>
    if b.cause ≠ .none then close c b "recorded cause before publication"
    else if published c then goTo b .published "bundles read back published"
    else publish c b
  | .published => stage c b
  | .sessionIntent => sessionIntent c b
  | .sessionBound | .written => bound c b
  | .commitIntent => commitIntent c b newBoot
  | .ready | .readyAgain => ready c b newBoot
  | .rebootIntent => rebootIntent c b newBoot
  | .abandonIntent => abandonIntent c b newBoot
  | .bootObserved => bootObserved c b
  | .appliedProvisional =>
    if newBoot then goTo b .bootObserved "another boot while provisional"
    else if crossingAllowed c && appliedFacts c then applied c b
    else waits b
  | .applied => startWindow c b
  | .healthWindow => window c b
  | .failedNative => close c (if cohortChanged c then raise b .voidBase else b) "native failure"
  | .nativeRecordLost => recordLost c b
  | .signFailed | .noSession | .abandoned => close c b "by the recorded cause"
  | .closedApplied | .closedFailed | .cancelled | .void | .diverged | .superseded =>
    .error (.illegalState "state without a rule")

/-- Only the health window's rule goes with an owed move. -/
def ruleOwing (c : Context) (s : Option Step) (b : Ticket.Builder) : Checked (Option Step) :=
  if c.ticket.state = .healthWindow then owing c s b else .ok s

/-- The step of the ticket's rule, with the builder the rule left. -/
def transition (c : Context) (b : Ticket.Builder) (newBoot : Bool) :
    Checked (Option Step × Ticket.Builder) := do
  let d ← rule c b newBoot
  let s ← d.finish c
  let s ← ruleOwing c s d.builder
  .ok (s, d.builder)

/-- The step with the builder, or a step that only waits. -/
def orWaiting (c : Context) (why : String) (x : Option Step × Ticket.Builder) : Checked Step :=
  match x with
  | (some s, _) => .ok s
  | (none, b) => done c b ⟨none, none, why⟩

/-- Whether the step sees another kernel boot than the ticket's last one. -/
def isNewBoot (c : Context) : Bool :=
  c.view.bootObserved && c.ticket.boot ≠ noId && c.now.any (fun now => now.boot ≠ c.ticket.boot)

/-- The last kernel boot the ticket observed, with this step's. -/
def seenBoot (c : Context) : Text :=
  match c.now with
  | some now => if c.view.bootObserved then now.boot else c.ticket.boot
  | none => c.ticket.boot

/-- A new kernel boot is counted from SESSION_INTENT on. -/
def countsBoot (c : Context) : Bool := isNewBoot c && created c.ticket

/-- The builder the step starts with: the boot seen and counted, alerting at the
limit, and the observed cause, which is recorded at once. -/
def opening (c : Context) : Ticket.Builder :=
  let t := c.ticket
  { t.toBuilder with
    boot := seenBoot c
    bootCount := if countsBoot c then t.bootCount + 1 else t.bootCount
    flags := if countsBoot c ∧ c.plan.bootLimit ≤ t.bootCount + 1 then t.flags ||| flagBootLimit
      else t.flags
    cause := maxCause t.cause (observedCause c) }

/-- The clock shows another boot than the ticket's, and no fact of it is read. -/
def unobserved (c : Context) : Bool :=
  c.now.any (fun now => now.boot ≠ c.ticket.boot) && c.ticket.boot ≠ noId && !c.view.bootObserved

def step (c : Context) : Checked Step :=
  let t := c.ticket
  if t.state.terminal then .ok ⟨t, none, none, "terminal"⟩
  else if unobserved c then .ok ⟨t, none, none, "a new boot not yet observed"⟩
  else
    let b := opening c
    if unbound c then
      -- A missing or disagreeing publication read is missing evidence, never other bytes. A recorded
      -- cause still takes effect where no bytes are judged.
      let b := b.set flagRequestLimit
      let holding :=
        "the plan's publication read is missing or disagrees: holding and alerting"
      if b.cause ≠ .none ∧ ¬ judgesBytes t.state then do
        orWaiting c holding (← transition c b (isNewBoot c))
      else done c b ⟨none, none, holding⟩
    else do
      orWaiting c "waiting" (← transition c b (isNewBoot c))

end Andrix.Deployment
