import Andrix.Lib.Words
import Andrix.Deployment.TicketRules
import Andrix.Deployment.Reconciler

/-! What one rule of the reconciler can do. `Turn` lists every draft a rule
leaves, with the guards under which the source leaves it, so that each later
result follows from this one inversion and not from the rules' code. -/
namespace Andrix.Deployment
open Andrix.Lib

def Draft.issue (d : Draft) : Option Entry := d.result.bind (·.issue)

def Draft.selection (d : Draft) : Option Selection := d.result.bind (·.selection)

/-- What an entry records: its crossing, grant and reference, and the clock it
was made at. -/
structure Recorded (c : Context) (crossing : Crossing) (grant reference : Text) (e : Entry) : Prop where
  crossing : e.crossing = crossing
  grant : e.grant = grant
  reference : e.reference = reference
  clock : ∀ now ∈ c.now, e.boot = now.boot ∧ e.instanceId = now.instanceId ∧
    e.elapsed = now.elapsed ∧ e.issuedAt = now.wall
  unclocked : c.now = none → e.boot = noId

theorem Clock.boot_ne (now : Clock) : now.boot ≠ noId := (checkId_eq_ok.mp now.valid).2 rfl

theorem entry_inv {c : Context} {crossing : Crossing} {grant reference : Text} {e : Entry}
    (made : entry c crossing grant reference = .ok e) : Recorded c crossing grant reference e := by
  simp only [entry, refuse_bind_eq_ok, Entry.make_eq_ok] at made
  obtain ⟨_, made⟩ := made
  refine ⟨by rw [made], by rw [made], by rw [made], ?_, ?_⟩
  · intro now clock
    rw [Option.mem_def.mp clock] at made
    have named : ¬ now.boot = noId := now.boot_ne
    simp only [Option.map_some, Option.getD_some, named, if_false] at made
    simp [made]
  · intro none_
    rw [made]
    simp [none_]

/-- The flags of a step that stays: alerts are kept, and UNRESOLVED stands only
where it stood or in an intent state. -/
structure Flagged (state : State) (before after : BitVec 32) : Prop where
  alerts : before &&& (flagBootLimit ||| flagRequestLimit) &&& ~~~ after = 0
  known : before &&& ~~~ (flagUnresolved ||| flagBootLimit ||| flagRequestLimit) = 0 →
    after &&& ~~~ (flagUnresolved ||| flagBootLimit ||| flagRequestLimit) = 0
  unresolved : ¬ after &&& flagUnresolved = 0 → ¬ before &&& flagUnresolved = 0 ∨ state.intent = true

/-- The flags of a step that leaves its state: UNRESOLVED is cleared, or the
state never carried it. -/
def Settled (state : State) (before after : BitVec 32) : Prop :=
  after = before &&& ~~~ flagUnresolved ∨ (after = before ∧ state.intent = false)

/-- A cause that a rule leaves: the builder's, or that raised by a rule. -/
def Raised (before after : Cause) : Prop := after = before ∨ ∃ seen, after = maxCause before seen

/-- The state changes that issue nothing and close nothing, with their guards. -/
inductive Moves (c : Context) (b : Ticket.Builder) (newBoot : Bool) : State → Prop
  | authorized : c.ticket.state = .planned → b.cause = .none → Moves c b newBoot .authorized
  | signing : c.ticket.state = .authorized → b.cause = .none → signingNeeded c = 0 →
    Moves c b newBoot .signing
  | signFailed : c.ticket.state = .signing → Moves c b newBoot .signFailed
  | signed : c.ticket.state = .signing → signingNeeded c = 0 → Moves c b newBoot .signed
  | published : c.ticket.state = .signed → b.cause = .none → published c = true →
    Moves c b newBoot .published
  | noSession : c.ticket.state = .sessionIntent → Moves c b newBoot .noSession
  | written : c.ticket.state = .sessionBound → b.cause = .none → (c.ticket.last .write).isSome →
    Moves c b newBoot .written
  | lost : c.ticket.state = .sessionBound ∨ c.ticket.state = .written ∨
      c.ticket.state = .commitIntent ∨ c.ticket.state = .ready ∨ c.ticket.state = .readyAgain ∨
      c.ticket.state = .bootObserved → Moves c b newBoot .nativeRecordLost
  | ready : c.ticket.state = .commitIntent → Moves c b newBoot .ready
  | readyAfter {now : Clock} {reboot : Entry} : c.ticket.state = .rebootIntent → c.now = some now →
    c.ticket.last .reboot = some reboot → now.boot = reboot.boot →
    c.plan.rebootTimeLimitMillis ≤ now.elapsed - reboot.elapsed → Moves c b newBoot .ready
  | readyAgain : c.ticket.state = .bootObserved → c.ticket.count .abandon = 0 →
    Moves c b newBoot .readyAgain
  | failedNative : c.ticket.state = .commitIntent ∨ c.ticket.state = .bootObserved →
    Moves c b newBoot .failedNative
  | bootObserved : newBoot = true → c.ticket.state = .commitIntent ∨ c.ticket.state = .ready ∨
      c.ticket.state = .readyAgain ∨ c.ticket.state = .rebootIntent ∨
      c.ticket.state = .appliedProvisional ∨
      (c.ticket.state = .abandonIntent ∧ committed c.ticket = true) → Moves c b newBoot .bootObserved
  | abandoned : c.ticket.state = .abandonIntent ∨ c.ticket.state = .bootObserved →
    Moves c b newBoot .abandoned
  | provisional : c.ticket.state = .bootObserved ∨
      (c.ticket.state = .nativeRecordLost ∧ committed c.ticket = true) →
    Moves c b newBoot .appliedProvisional

/-- The last signing request completed and none was refused, so that another
request may follow. -/
structure SignSettled (c : Context) : Prop where
  accepted : ∀ e ∈ c.ticket.ledger, e.crossing = .sign →
    c.view.signer e.reference ≠ some .signRefused ∧
    c.view.signer e.reference ≠ some .signCannotComplete
  completed : ∀ e ∈ c.ticket.last .sign, c.view.signer e.reference = some .signCompleted

inductive Abandons (c : Context) : Prop
  | session : c.ticket.state = .sessionBound ∨ c.ticket.state = .written ∨
      c.ticket.state = .commitIntent ∨ c.ticket.state = .ready ∨ c.ticket.state = .readyAgain ∨
      c.ticket.state = .rebootIntent → Abandons c
  | atBoot {s : Observation} : c.ticket.state = .bootObserved → exactSession c = some s →
    s.classification.live = true → Abandons c
  | again {s : Observation} : c.ticket.state = .abandonIntent → exactSession c = some s →
    later s (c.ticket.last .abandon) = true → s.classification.live = true → Abandons c

/-- The crossings a rule issues: the state they lead into, the entry, and the
ticket's reference and cause after it. -/
inductive Crosses (c : Context) (b : Ticket.Builder) : State → Entry → Reference → Cause → Prop
  | sign {g rest e} : (c.ticket.state = .authorized ∧ b.cause = .none) ∨
      (c.ticket.state = .signing ∧ SignSettled c) → signingNeeded c ≠ 0 →
    signGrants c (signingNeeded c) = some (g :: rest) →
    entry c .sign g.authorizationId c.freshId = .ok e → Crosses c b .signing e b.reference b.cause
  | publish {e} : c.ticket.state = .signed → b.cause = .none → published c = false →
    (c.ticket.last .publish = none ∨ ∃ last, c.ticket.last .publish = some last ∧
      mismatch c = false ∧
      c.view.publication last.reference c.plan.planId = some .bundleAbsent ∧
      c.ticket.count .publish < Crossing.publish.bound) →
    entry c .publish noId c.freshId = .ok e → Crosses c b .signed e b.reference b.cause
  | create {now stage e r} : c.ticket.state = .published → b.cause = .none →
    frameworkNow c = some now → unusedStage c = some stage →
    Reference.none.withNonce c.freshId = .ok r →
    entry c .create stage.authorizationId c.freshId = .ok e → Crosses c b .sessionIntent e r b.cause
  | write {now e} : c.ticket.state = .sessionBound → b.cause = .none → frameworkNow c = some now →
    c.ticket.last .write = none → entry c .write noId noId = .ok e →
    Crosses c b .sessionBound e b.reference b.cause
  | commit {now activate e} : c.ticket.state = .written → b.cause = .none →
    frameworkNow c = some now → validActivate c = some activate →
    entry c .commit activate.authorizationId noId = .ok e → Crosses c b .commitIntent e b.reference b.cause
  | notice {now activate e} : c.ticket.state = .published ∨ c.ticket.state = .ready ∨
      c.ticket.state = .readyAgain → b.cause = .none → crossingNow c = some now →
    validActivate c = some activate → c.ticket.count .notice < Crossing.notice.bound →
    entry c .notice activate.authorizationId noId = .ok e → Crosses c b c.ticket.state e b.reference b.cause
  | reboot {now activate e} : c.ticket.state = .ready ∨ c.ticket.state = .readyAgain →
    b.cause = .none → crossingNow c = some now → validActivate c = some activate →
    lostRequests c.ticket now.boot < c.plan.requestLimit →
    c.ticket.count .reboot < Crossing.reboot.bound → noticeSatisfied c now activate = true →
    entry c .reboot activate.authorizationId noId = .ok e → Crosses c b .rebootIntent e b.reference b.cause
  | abandon {now e k} : Abandons c → frameworkNow c = some now →
    c.ticket.count .abandon < c.plan.requestLimit → entry c .abandon noId noId = .ok e →
    Raised b.cause k → Crosses c b .abandonIntent e b.reference k

/-- The closings outside the health window: the cause they leave and the
terminal state. -/
inductive Closes (c : Context) (b : Ticket.Builder) : Cause → State → Prop
  | caused : c.ticket.state = .planned ∨ c.ticket.state = .authorized ∨
      c.ticket.state = .signed ∨ c.ticket.state = .published → b.cause ≠ .none →
    Closes c b b.cause (closingState c.ticket b.cause)
  | ended {k} : c.ticket.state = .signFailed ∨ c.ticket.state = .noSession ∨
      c.ticket.state = .abandoned ∨ c.ticket.state = .failedNative ∨
      c.ticket.state = .nativeRecordLost → Raised b.cause k → Closes c b k (closingState c.ticket k)
  | diverged : c.ticket.state = .bootObserved ∨
      (c.ticket.state = .nativeRecordLost ∧ committed c.ticket = true) →
    Closes c b (maxCause b.cause .otherBytes) .diverged
  | void {k} : c.ticket.state = .nativeRecordLost → k = .voidBase ∨ k = .otherBytes →
    Closes c b (maxCause b.cause k) .void

/-- What the health window leaves when it closes or has to wait for that: the
outcomes, the cause, the successor and the terminal state. -/
inductive WindowCloses (c : Context) (b : Ticket.Builder) (now : Clock) :
    List Health → Cause → Text → State → Prop
  | imageChange : cohortChanged c = true →
    WindowCloses c b now (finish b.health .inconclusive) b.cause b.successor .closedApplied
  | bootLimit : cohortChanged c = false → c.ticket.windowBoot ≠ now.boot →
    b.flag flagBootLimit → c.plan.healthResponse ≠ .restoreAutomatically →
    WindowCloses c b now (finish b.health .unhealthy) b.cause b.successor .closedApplied
  | bootLimitRestores : cohortChanged c = false → c.ticket.windowBoot ≠ now.boot →
    b.flag flagBootLimit → c.plan.healthResponse = .restoreAutomatically →
    WindowCloses c b now (finish b.health .unhealthy) b.cause c.plan.restorationPlan .superseded
  | otherBytes {active} : cohortChanged c = false → c.ticket.windowBoot = now.boot →
    c.view.latest .active = some active → some active.digest ≠ bundleApk c →
    WindowCloses c b now (finish b.health .inconclusive) (maxCause b.cause .otherBytes)
      b.successor .diverged
  | takenOver {repair} : cohortChanged c = false → c.ticket.windowBoot = now.boot →
    (∀ active ∈ c.view.latest .active, some active.digest = bundleApk c) →
    takesOver c = some repair →
    WindowCloses c b now (finish b.health .inconclusive) b.cause repair.planId .superseded
  | restores : cohortChanged c = false → c.ticket.windowBoot = now.boot →
    (∀ active ∈ c.view.latest .active, some active.digest = bundleApk c) → takesOver c = none →
    c.plan.healthResponse = .restoreAutomatically →
    failed (observeUsers c b.health c.ticket.windowStart) = true →
    WindowCloses c b now
      (finish (observeUsers c b.health c.ticket.windowStart) .inconclusive) b.cause
      c.plan.restorationPlan .superseded
  | completed : cohortChanged c = false → c.ticket.windowBoot = now.boot →
    (∀ active ∈ c.view.latest .active, some active.digest = bundleApk c) → takesOver c = none →
    c.plan.healthWindowMillis ≤ now.elapsed - c.ticket.windowStart →
    WindowCloses c b now (judge c (observeUsers c b.health c.ticket.windowStart)) b.cause
      b.successor .closedApplied

/-- Every draft a rule leaves. -/
inductive Turn (c : Context) (b : Ticket.Builder) (newBoot : Bool) : Draft → Prop
  | stays {f k d} : c.ticket.state ≠ .healthWindow → Flagged c.ticket.state b.flags f →
    Raised b.cause k → d.builder = { b with flags := f, cause := k } → d.issue = none →
    d.selection = none → Turn c b newBoot d
  | moves {s f d} : Moves c b newBoot s → Settled c.ticket.state b.flags f →
    d.builder = { b with state := s, flags := f } → d.issue = none → d.selection = none →
    Turn c b newBoot d
  | binds {seen r d} : c.ticket.state = .sessionIntent → complete seen = true →
    (¬ seen.has Reference.nonceField ∨ seen.nonce = c.ticket.reference.nonce) →
    merge c.ticket.reference seen = .ok r →
    d.builder = { b with
      state := .sessionBound, flags := b.flags &&& ~~~ flagUnresolved, reference := r } →
    d.issue = none → d.selection = none → Turn c b newBoot d
  | crosses {s e r k d} : Crosses c b s e r k →
    d.builder = { b with
      state := s, flags := b.flags &&& ~~~ flagUnresolved, cause := k, reference := r,
      ledger := b.ledger ++ [e] } →
    d.issue = some e → d.selection = none → Turn c b newBoot d
  | closes {k s d} : Closes c b k s → (created c.ticket = true → crossingAllowed c = true) →
    d.builder = { b with
      state := s, flags := b.flags &&& ~~~ flagUnresolved, cause := k, windowBoot := noId,
      windowStart := 0 } →
    d.issue = none → d.selection = none → Turn c b newBoot d
  | applies {next d} : c.ticket.state = .appliedProvisional → newBoot = false →
    crossingAllowed c = true → appliedFacts c = true → move c b.cause = .ok next →
    d.builder = { b with state := .applied } → d.issue = none → d.selection = next →
    Turn c b newBoot d
  | opensWindow {now owed d} : c.ticket.state = .applied → c.now = some now →
    move c c.ticket.cause = .ok owed →
    d.builder = { b with
      state := .healthWindow, windowBoot := now.boot, windowStart := now.elapsed,
      health := observeUsers c b.health now.elapsed } →
    d.issue = none → d.selection = owed → Turn c b newBoot d
  | idles {d} : c.ticket.state = .healthWindow → d.builder = b → d.issue = none →
    d.selection = none → Turn c b newBoot d
  | restarts {now d} : c.ticket.state = .healthWindow → c.now = some now →
    cohortChanged c = false → c.ticket.windowBoot ≠ now.boot → ¬ b.flag flagBootLimit →
    d.builder = { b with windowBoot := now.boot, windowStart := now.elapsed } → d.issue = none →
    d.selection = none → Turn c b newBoot d
  | observes {now d} : c.ticket.state = .healthWindow → c.now = some now →
    cohortChanged c = false → c.ticket.windowBoot = now.boot →
    d.builder = { b with health := observeUsers c b.health c.ticket.windowStart } →
    d.issue = none → d.selection = none → Turn c b newBoot d
  | windowWaits {now h k u s d} : c.ticket.state = .healthWindow → c.now = some now →
    WindowCloses c b now h k u s → created c.ticket = true → crossingAllowed c = false →
    d.builder = { b with health := h, cause := k, successor := u } → d.issue = none →
    d.selection = none → Turn c b newBoot d
  | windowCloses {now h k u s d} : c.ticket.state = .healthWindow → c.now = some now →
    WindowCloses c b now h k u s → (created c.ticket = true → crossingAllowed c = true) →
    d.builder = { b with
      state := s, flags := b.flags &&& ~~~ flagUnresolved, health := h, cause := k,
      successor := u, windowBoot := noId, windowStart := 0 } →
    d.issue = none → d.selection = none → Turn c b newBoot d

/-! ## The steps that rules share -/

namespace Flagged
variable {state : State} {before after : BitVec 32}

theorem refl : Flagged state before before where
  alerts := by simpa using and_not_or_eq_zero (x := before) (r := 0)
  known := id
  unresolved := .inl

theorem alert (flagged : Flagged state before after) :
    Flagged state before (after ||| flagRequestLimit) where
  alerts := by
    have kept := flagged.alerts
    simp only [eq_zero_iff_bits, BitVec.getElem_and, BitVec.getElem_not, BitVec.getElem_or] at kept ⊢
    grind
  known known := or_within (flagged.known known) (by decide)
  unresolved held := flagged.unresolved (by rwa [or_and_of_apart (by decide)] at held)

theorem clear : Flagged state before (before &&& ~~~ flagUnresolved) where
  alerts := and_not_clear_eq_zero (by decide)
  known known := clear_within known
  unresolved held := absurd clear_and_self held

theorem set (intent : state.intent = true) : Flagged state before (before ||| flagUnresolved) where
  alerts := and_not_or_eq_zero
  known known := or_within known (by decide)
  unresolved _ := .inr intent

end Flagged

section Leaves
variable {c : Context} {b : Ticket.Builder} {newBoot : Bool} {f : BitVec 32} {k : Cause}
  {why : String}

private theorem waits_turns (outside : c.ticket.state ≠ .healthWindow) :
    Ensures (waits b) (Turn c b newBoot) :=
  ensures_ok (.stays outside .refl (.inl rfl) rfl rfl rfl)

private theorem holds_turns (outside : c.ticket.state ≠ .healthWindow)
    (flagged : Flagged c.ticket.state b.flags f) (raised : Raised b.cause k) :
    Ensures (holds { b with flags := f, cause := k } why) (Turn c b newBoot) :=
  ensures_ok (.stays outside flagged raised rfl rfl rfl)

private theorem unresolved_turns (intent : c.ticket.state.intent = true) :
    Ensures (unresolved b why) (Turn c b newBoot) := by
  refine holds_turns (f := b.flags ||| flagUnresolved) (k := b.cause) ?_ (.set intent) (.inl rfl)
  rintro window
  simp [window, State.intent] at intent

private theorem goTo_turns {s : State} (moves : Moves c b newBoot s)
    (settled : Settled c.ticket.state b.flags f) :
    Ensures (goTo { b with flags := f } s why) (Turn c b newBoot) :=
  ensures_ok (.moves moves settled rfl rfl rfl)

private theorem issue_turns {s : State} {e : Entry} {r : Reference} (crosses : Crosses c b s e r k)
    (settled : f = b.flags ∨ f = b.flags &&& ~~~ flagUnresolved) :
    Ensures (issue { b with flags := f, cause := k, reference := r } s e why)
      (Turn c b newBoot) := by
  refine ensures_ok (.crosses crosses ?_ rfl rfl)
  have flags : f &&& ~~~ flagUnresolved = b.flags &&& ~~~ flagUnresolved := by
    rcases settled with rfl | rfl
    · rfl
    · exact clear_clear
  simp only [Ticket.Builder.append, Ticket.Builder.clear, flags]

private theorem abandon_turns (outside : c.ticket.state ≠ .healthWindow) (abandons : Abandons c)
    (settled : f = b.flags ∨ f = b.flags &&& ~~~ flagUnresolved) (raised : Raised b.cause k) :
    Ensures (abandon c { b with flags := f, cause := k } why) (Turn c b newBoot) := by
  have flagged : Flagged c.ticket.state b.flags f := by
    rcases settled with rfl | rfl
    · exact .refl
    · exact .clear
  unfold abandon
  split
  · exact holds_turns outside flagged raised
  rename_i now instance_
  split
  · exact holds_turns outside flagged.alert raised
  rename_i room
  refine ensures_bind fun e made => ?_
  refine issue_turns (.abandon abandons instance_ (Nat.not_le.mp room) made raised) (.inr ?_)
  rcases settled with rfl | rfl
  · rfl
  · exact clear_clear

private theorem closeTo_turns {s : State} (outside : c.ticket.state ≠ .healthWindow)
    (closes : Closes c b k s) (raised : Raised b.cause k) :
    Ensures (closeTo c { b with cause := k } s why) (Turn c b newBoot) := by
  unfold closeTo
  split
  · exact holds_turns outside .refl raised
  · rename_i allowed
    exact ensures_ok (.closes closes (by tauto) rfl rfl rfl)

end Leaves

/-! ## The rules -/

section Rules
variable {c : Context} {b : Ticket.Builder} {newBoot : Bool}

private theorem signNext_turns
    (into : (c.ticket.state = .authorized ∧ b.cause = .none) ∨
      (c.ticket.state = .signing ∧ SignSettled c))
    (more : c.ticket.state = .signing → signingNeeded c ≠ 0)
    (settled : f = b.flags ∨ f = b.flags &&& ~~~ flagUnresolved)  :
    Ensures (signNext c { b with flags := f } .signing) (Turn c b newBoot) := by
  have outside : c.ticket.state ≠ .healthWindow := by
    rcases into with ⟨state, _⟩ | ⟨state, _⟩ <;> simp [state]
  have flagged : Flagged c.ticket.state b.flags f := by
    rcases settled with rfl | rfl
    · exact .refl
    · exact .clear
  dsimp only [signNext]
  split
  · rename_i nothing
    rcases into with ⟨state, uncaused⟩ | ⟨state, _⟩
    · refine goTo_turns (.signing state uncaused nothing) ?_
      rcases settled with rfl | rfl
      · exact .inr ⟨rfl, by simp [state, State.intent]⟩
      · exact .inl rfl
    · exact absurd nothing (more state)
  · rename_i needed
    split
    · exact ensures_ok (.stays outside flagged (.inl rfl) rfl rfl rfl)
    · exact ensures_error
    · rename_i grant _ grants
      exact ensures_bind fun e made => issue_turns (.sign into needed grants made) settled

private theorem signing_turns (state : c.ticket.state = .signing) :
    Ensures (signing c b) (Turn c b newBoot) := by
  dsimp only [signing]
  split
  · exact goTo_turns (.signFailed state) (.inl rfl)
  rename_i accepted
  split
  · exact unresolved_turns (by simp [state, State.intent])
  rename_i completed
  have settled : SignSettled c := by
    constructor
    · intro e member sign
      simp only [List.any_eq_true, not_exists, not_and] at accepted
      have := accepted e member
      simpa [sign] using this
    · intro e last
      rw [Option.mem_def.mp last] at completed
      simpa using completed
  split
  · rename_i nothing
    exact goTo_turns (.signed state nothing) (.inl rfl)
  · rename_i needed
    exact signNext_turns (.inr ⟨state, settled⟩) (fun _ => needed) (.inr rfl)

private theorem publish_turns (state : c.ticket.state = .signed) (uncaused : b.cause = .none)
    (unread : published c = false) : Ensures (publish c b) (Turn c b newBoot) := by
  have outside : c.ticket.state ≠ .healthWindow := by simp [state]
  dsimp only [publish]
  split
  · rename_i first
    exact ensures_bind fun e made =>
      issue_turns (.publish state uncaused unread (.inl first) made) (.inl rfl)
  rename_i last again
  split
  · exact holds_turns outside (Flagged.refl.alert) (.inl rfl)
  rename_i matched
  split
  · exact waits_turns outside
  rename_i absent
  split
  · rename_i room
    refine ensures_bind fun e made => issue_turns (.publish state uncaused unread
      (.inr ⟨last, again, by simpa using matched, by simpa using absent, room⟩) made)
      (.inl rfl)
  · exact holds_turns outside (Flagged.refl.alert) (.inl rfl)

private theorem notice_turns {now : Clock} {activate : Authorization} {why : Option String}
    (state : c.ticket.state = .published ∨ c.ticket.state = .ready ∨ c.ticket.state = .readyAgain)
    (uncaused : b.cause = .none) (crossing : crossingNow c = some now)
    (valid : validActivate c = some activate) :
    Ensures (notice c now b activate why) (Turn c b newBoot) := by
  have outside : c.ticket.state ≠ .healthWindow := by
    rcases state with state | state | state <;> simp [state]
  dsimp only [notice]
  split
  · exact holds_turns outside .refl (.inl rfl)
  split
  · split
    · rename_i made
      refine abandon_turns outside (.session ?_) (.inl rfl) (.inl rfl)
      rcases state with state | state | state
      · have early := c.ticket.rules.ledger.early (by simpa [created] using made)
        rw [state] at early
        exact absurd early (by decide)
      · simp [state]
      · simp [state]
    · exact holds_turns outside Flagged.refl.alert (.inl rfl)
  · rename_i room
    refine ensures_bind fun e made => issue_turns ?_ (.inl rfl)
    exact .notice state uncaused crossing valid (by omega) made

private theorem createSession_turns {now : Clock} {stage : Authorization}
    (state : c.ticket.state = .published) (uncaused : b.cause = .none)
    (instance_ : frameworkNow c = some now) (unused : unusedStage c = some stage) :
    Ensures (createSession c b stage) (Turn c b newBoot) := by
  unfold createSession
  exact ensures_bind fun r named => ensures_bind fun e made =>
    issue_turns (.create state uncaused instance_ unused named made) (.inl rfl)

private theorem stage_turns (state : c.ticket.state = .published) :
    Ensures (stage c b) (Turn c b newBoot) := by
  have outside : c.ticket.state ≠ .healthWindow := by simp [state]
  dsimp only [stage]
  split
  · rename_i caused
    exact closeTo_turns outside (.caused (by simp [state]) caused) (.inl rfl)
  rename_i uncaused
  simp only [ne_eq, not_not] at uncaused
  split
  · exact waits_turns outside
  split
  · exact waits_turns outside
  rename_i stage unused
  split
  · split
    · rename_i activate now valid instance_
      split
      · exact createSession_turns state uncaused instance_ unused
      · exact notice_turns (.inl state) uncaused (frameworkNow_some instance_).1 valid
    · exact waits_turns outside
  · split
    · exact waits_turns outside
    · rename_i now instance_
      exact createSession_turns state uncaused instance_ unused

private theorem sessionIntent_turns (state : c.ticket.state = .sessionIntent) :
    Ensures (sessionIntent c b) (Turn c b newBoot) := by
  dsimp only [sessionIntent]
  split
  · exact goTo_turns (.noSession state) (.inl rfl)
  split
  · rename_i r _ replied
    refine ensures_bind fun reference merged => ensures_ok ?_
    have accepted := (Option.filter_eq_some_iff.mp replied).2
    simp only [Bool.and_eq_true, Bool.or_eq_true, decide_eq_true_eq, Bool.not_eq_true',
      decide_eq_false_iff_not] at accepted
    exact .binds state accepted.1.2 accepted.2 merged rfl rfl rfl
  · rename_i s _ found
    refine ensures_bind fun reference merged => ensures_ok ?_
    have accepted := List.find?_some found
    simp only [Bool.and_eq_true, decide_eq_true_eq] at accepted
    exact .binds state accepted.2 (.inr accepted.1.2) merged rfl rfl rfl
  · split
    · exact goTo_turns (.noSession state) (.inl rfl)
    · exact unresolved_turns (by simp [state, State.intent])

private theorem bound_turns (state : c.ticket.state = .sessionBound ∨ c.ticket.state = .written) :
    Ensures (bound c b) (Turn c b newBoot) := by
  have outside : c.ticket.state ≠ .healthWindow := by rcases state with state | state <;> simp [state]
  have calm : c.ticket.state.intent = false := by
    rcases state with state | state <;> simp [state, State.intent]
  have abandons : Abandons c := .session (by rcases state with state | state <;> simp [state])
  dsimp only [bound]
  split
  · exact abandon_turns outside abandons (.inl rfl) (.inl rfl)
  rename_i uncaused
  simp only [ne_eq, not_not] at uncaused
  split
  · exact goTo_turns (.lost (by rcases state with state | state <;> simp [state]))
      (.inr ⟨rfl, calm⟩)
  split
  · rename_i sessionBound
    split
    · rename_i unwritten
      split
      · exact waits_turns outside
      · rename_i now instance_
        exact ensures_bind fun e made =>
          issue_turns (.write sessionBound uncaused instance_ unwritten made) (.inl rfl)
    · rename_i write wrote
      split
      · exact goTo_turns (.written sessionBound uncaused (by simp [wrote])) (.inr ⟨rfl, calm⟩)
      · exact abandon_turns outside abandons (.inl rfl) (.inl rfl)
  · rename_i other
    have written : c.ticket.state = .written := state.resolve_left other
    split
    · exact abandon_turns outside abandons (.inl rfl) (.inl rfl)
    rename_i activate valid
    split
    · exact waits_turns outside
    · rename_i now instance_
      exact ensures_bind fun e made =>
        issue_turns (.commit written uncaused instance_ valid made) (.inl rfl)

private theorem commitObserved_turns {s : Observation} (state : c.ticket.state = .commitIntent) :
    Ensures (commitObserved c b s) (Turn c b newBoot) := by
  have outside : c.ticket.state ≠ .healthWindow := by simp [state]
  dsimp only [commitObserved]
  split
  · exact goTo_turns (.ready state) (.inl rfl)
  · exact goTo_turns (.failedNative (.inl state)) (.inl rfl)
  · exact goTo_turns (.failedNative (.inl state)) (.inl rfl)
  · exact holds_turns outside .clear (.inl rfl)
  · split
    · exact abandon_turns outside (.session (by simp [state])) (.inr rfl) (.inl rfl)
    · exact holds_turns outside .clear (.inl rfl)

private theorem commitIntent_turns (state : c.ticket.state = .commitIntent) :
    Ensures (commitIntent c b newBoot) (Turn c b newBoot) := by
  have outside : c.ticket.state ≠ .healthWindow := by simp [state]
  dsimp only [commitIntent]
  split
  · rename_i booted
    exact goTo_turns (.bootObserved booted (.inl state)) (.inl rfl)
  split
  · exact goTo_turns (.ready state) (.inl rfl)
  split
  · split
    · exact abandon_turns outside (.session (by simp [state])) (.inr rfl) (.inl rfl)
    · split
      · exact goTo_turns (.failedNative (.inl state)) (.inl rfl)
      · exact commitObserved_turns state
  · split
    · split
      · exact goTo_turns (.failedNative (.inl state)) (.inl rfl)
      · exact holds_turns outside .clear (.inl rfl)
    · split
      · exact goTo_turns (.lost (by simp [state])) (.inl rfl)
      · exact unresolved_turns (by simp [state, State.intent])

private theorem activate_turns (state : c.ticket.state = .ready ∨ c.ticket.state = .readyAgain)
    (uncaused : b.cause = .none) : Ensures (activate c b) (Turn c b newBoot) := by
  have outside : c.ticket.state ≠ .healthWindow := by rcases state with state | state <;> simp [state]
  have abandons : Abandons c := .session (by rcases state with state | state <;> simp [state])
  dsimp only [activate]
  split
  · exact waits_turns outside
  rename_i now crossing
  split
  · exact abandon_turns outside abandons (.inl rfl) (.inl rfl)
  rename_i grant valid
  split
  · exact abandon_turns outside abandons (.inl rfl) (.inl rfl)
  rename_i requests
  split
  · exact abandon_turns outside abandons (.inl rfl) (.inl rfl)
  rename_i room
  split
  · exact notice_turns (.inr state) uncaused crossing valid
  rename_i satisfied
  exact ensures_bind fun e made => issue_turns
    (.reboot state uncaused crossing valid (Nat.not_le.mp requests) (Nat.not_le.mp room)
      (by simpa using satisfied) made) (.inl rfl)

private theorem ready_turns (state : c.ticket.state = .ready ∨ c.ticket.state = .readyAgain) :
    Ensures (ready c b newBoot) (Turn c b newBoot) := by
  have outside : c.ticket.state ≠ .healthWindow := by rcases state with state | state <;> simp [state]
  have calm : c.ticket.state.intent = false := by
    rcases state with state | state <;> simp [state, State.intent]
  have abandons : Abandons c := .session (by rcases state with state | state <;> simp [state])
  dsimp only [ready]
  split
  · rename_i booted
    exact goTo_turns (.bootObserved booted (by rcases state with state | state <;> simp [state]))
      (.inr ⟨rfl, calm⟩)
  split
  · exact goTo_turns (.lost (by rcases state with state | state <;> simp [state]))
      (.inr ⟨rfl, calm⟩)
  split
  · exact holds_turns outside .refl (.inl rfl)
  split
  · exact abandon_turns outside abandons (.inl rfl) (.inl rfl)
  rename_i uncaused
  simp only [ne_eq, not_not] at uncaused
  split
  · exact activate_turns state uncaused
  split
  · exact abandon_turns outside abandons (.inl rfl) (.inl rfl)
  · split
    · exact activate_turns state uncaused
    · exact waits_turns outside

private theorem rebootIntent_turns (state : c.ticket.state = .rebootIntent) :
    Ensures (rebootIntent c b newBoot) (Turn c b newBoot) := by
  have outside : c.ticket.state ≠ .healthWindow := by simp [state]
  have intent : c.ticket.state.intent = true := by simp [state, State.intent]
  dsimp only [rebootIntent]
  split
  · rename_i booted
    exact goTo_turns (.bootObserved booted (by simp [state])) (.inl rfl)
  split
  · exact unresolved_turns intent
  rename_i now clock
  split
  · exact ensures_error
  rename_i reboot last
  split
  · rename_i lost
    split
    · exact abandon_turns outside (.session (by simp [state])) (.inr rfl) (.inl rfl)
    · exact goTo_turns (.readyAfter state clock last lost.1 lost.2) (.inl rfl)
  · exact unresolved_turns intent

private theorem abandonAgain_turns {s : Observation} (state : c.ticket.state = .abandonIntent)
    (exact_ : exactSession c = some s) (late : later s (c.ticket.last .abandon) = true) :
    Ensures (abandonAgain c b s) (Turn c b newBoot) := by
  have outside : c.ticket.state ≠ .healthWindow := by simp [state]
  dsimp only [abandonAgain]
  split
  · exact goTo_turns (.abandoned (.inl state)) (.inl rfl)
  split
  · exact holds_turns outside .clear (.inl rfl)
  rename_i live
  split
  · exact holds_turns (b := b) outside Flagged.clear.alert (.inl rfl)
  rename_i room
  split
  · exact holds_turns outside .clear (.inl rfl)
  rename_i now instance_
  exact ensures_bind fun e made => issue_turns
    (.abandon (.again state exact_ late (by simpa using live)) instance_
      (Nat.not_le.mp room) made (.inl rfl)) (.inr rfl)

private theorem abandonIntent_turns (state : c.ticket.state = .abandonIntent) :
    Ensures (abandonIntent c b newBoot) (Turn c b newBoot) := by
  have outside : c.ticket.state ≠ .healthWindow := by simp [state]
  dsimp only [abandonIntent]
  split
  · rename_i booted
    simp only [Bool.and_eq_true] at booted
    exact goTo_turns (.bootObserved booted.1 (by simp [state, booted.2])) (.inl rfl)
  split
  · rename_i s found
    obtain ⟨exact_, late⟩ := Option.filter_eq_some_iff.mp found
    exact abandonAgain_turns state exact_ late
  split
  · exact goTo_turns (.abandoned (.inl state)) (.inl rfl)
  · split
    · exact holds_turns outside .clear (.inl rfl)
    · exact unresolved_turns (by simp [state, State.intent])

private theorem bootSession_turns {active s : Observation} (state : c.ticket.state = .bootObserved)
    (exact_ : exactSession c = some s) :
    Ensures (bootSession c b active s) (Turn c b newBoot) := by
  have outside : c.ticket.state ≠ .healthWindow := by simp [state]
  have calm : Settled c.ticket.state b.flags b.flags := .inr ⟨rfl, by simp [state, State.intent]⟩
  have session : s.classification.kind = .session := (exactSession_some exact_).2.1
  dsimp only [bootSession]
  split
  · split
    · exact goTo_turns (.provisional (.inl state)) calm
    · split
      · exact waits_turns outside
      · exact closeTo_turns outside (.diverged (.inl state)) (.inr ⟨_, rfl⟩)
  · exact goTo_turns (.failedNative (.inr state)) calm
  · exact goTo_turns (.failedNative (.inr state)) calm
  · exact waits_turns outside
  rename_i applied failed refused abandoned
  have live : s.classification.live = true := by
    revert session applied failed refused abandoned
    cases s.classification <;> simp [Classification.kind, Classification.live]
  have abandons : Abandons c := .atBoot state exact_ live
  split
  · exact abandon_turns outside abandons (.inl rfl) (.inr ⟨_, rfl⟩)
  split
  · exact abandon_turns outside abandons (.inl rfl) (.inl rfl)
  rename_i unabandoned
  split
  · exact goTo_turns (.readyAgain state (by omega)) calm
  · split
    · exact abandon_turns outside abandons (.inl rfl) (.inl rfl)
    · exact waits_turns outside

private theorem bootObserved_turns (state : c.ticket.state = .bootObserved) :
    Ensures (bootObserved c b) (Turn c b newBoot) := by
  have outside : c.ticket.state ≠ .healthWindow := by simp [state]
  have calm : Settled c.ticket.state b.flags b.flags := .inr ⟨rfl, by simp [state, State.intent]⟩
  have lost : Moves c b newBoot .nativeRecordLost := .lost (by simp [state])
  dsimp only [bootObserved]
  split
  · split
    · rename_i s exact_
      exact bootSession_turns state exact_
    · split
      · exact waits_turns outside
      · split
        · exact goTo_turns lost calm
        · split
          · exact goTo_turns (.abandoned (.inr state)) calm
          · exact goTo_turns lost calm
        · split
          · exact goTo_turns lost calm
          · exact closeTo_turns outside (.diverged (.inl state)) (.inr ⟨_, rfl⟩)
  · exact waits_turns outside

private theorem recordLost_turns (state : c.ticket.state = .nativeRecordLost) :
    Ensures (recordLost c b) (Turn c b newBoot) := by
  have outside : c.ticket.state ≠ .healthWindow := by simp [state]
  have calm : Settled c.ticket.state b.flags b.flags := .inr ⟨rfl, by simp [state, State.intent]⟩
  dsimp only [recordLost]
  split
  · split
    · split
      · rename_i made
        exact goTo_turns (.provisional (.inr ⟨state, made⟩)) calm
      · exact closeTo_turns outside (.ended (by simp [state]) (.inr ⟨_, rfl⟩)) (.inr ⟨_, rfl⟩)
    · exact closeTo_turns outside (.ended (by simp [state]) (.inl rfl)) (.inl rfl)
    · split
      · exact closeTo_turns outside (.void state (.inl rfl)) (.inr ⟨_, rfl⟩)
      · split
        · rename_i made
          exact closeTo_turns outside (.diverged (.inr ⟨state, made⟩)) (.inr ⟨_, rfl⟩)
        · exact closeTo_turns outside (.void state (.inr rfl)) (.inr ⟨_, rfl⟩)
  · exact waits_turns outside

private theorem startWindow_turns (state : c.ticket.state = .applied) :
    Ensures (startWindow c b) (Turn c b newBoot) := by
  dsimp only [startWindow]
  split
  · exact waits_turns (by simp [state])
  · rename_i now clock
    exact ensures_bind fun owed moved =>
      ensures_ok (.opensWindow state clock moved rfl rfl rfl)

private theorem windowCloseTo_turns {now : Clock} {h : List Health} {k : Cause} {u : Text}
    {s : State} {why : String} (state : c.ticket.state = .healthWindow) (clock : c.now = some now)
    (closes : WindowCloses c b now h k u s) :
    Ensures (closeTo c { b with health := h, cause := k, successor := u } s why)
      (Turn c b newBoot) := by
  unfold closeTo
  split
  · rename_i wait
    exact ensures_ok (.windowWaits state clock closes wait.1 (by simpa using wait.2) rfl rfl rfl)
  · rename_i allowed
    exact ensures_ok (.windowCloses state clock closes (by tauto) rfl rfl rfl)

private theorem window_turns (state : c.ticket.state = .healthWindow) :
    Ensures (window c b) (Turn c b newBoot) := by
  dsimp only [window]
  split
  · rename_i clock
    exact ensures_ok (.idles state rfl rfl rfl)
  rename_i now clock
  split
  · rename_i changed
    exact windowCloseTo_turns state clock (.imageChange changed)
  rename_i same
  simp only [Bool.not_eq_true] at same
  split
  · rename_i booted
    dsimp only [windowBoot]
    split
    · rename_i limit
      split
      · rename_i restore
        exact windowCloseTo_turns state clock (.bootLimitRestores same booted limit restore)
      · rename_i report
        exact windowCloseTo_turns state clock (.bootLimit same booted limit report)
    · rename_i below
      exact ensures_ok (.restarts state clock same booted below rfl rfl rfl)
  · rename_i sameBoot
    simp only [ne_eq, not_not] at sameBoot
    split
    · rename_i other
      cases active : c.view.latest .active with
      | none => simp [active] at other
      | some a =>
        exact windowCloseTo_turns (b := b) state clock
          (.otherBytes same sameBoot active (by simpa [active] using other))
    rename_i bundle
    have bundle : ∀ active ∈ c.view.latest .active, some active.digest = bundleApk c := by
      intro active latest
      simpa [Option.mem_def.mp latest] using bundle
    split
    · rename_i repair takes
      exact windowCloseTo_turns state clock (.takenOver same sameBoot bundle takes)
    rename_i takes
    dsimp only [windowUsers]
    split
    · rename_i restore
      exact windowCloseTo_turns state clock
        (.restores same sameBoot bundle takes restore.1 restore.2)
    split
    · rename_i ended
      exact windowCloseTo_turns state clock
        (.completed same sameBoot bundle takes ended.2)
    · exact ensures_ok (.observes state clock same sameBoot rfl rfl rfl)

/-- Every draft that the rule of a ticket's state leaves is a turn. -/
theorem rule_turns : Ensures (rule c b newBoot) (Turn c b newBoot) := by
  unfold rule
  split
  case h_1 state =>
    split
    · rename_i caused
      exact closeTo_turns (by simp [state]) (.caused (by simp [state]) caused) (.inl rfl)
    rename_i uncaused
    split
    · exact goTo_turns (.authorized state (by simpa using uncaused))
        (.inr ⟨rfl, by simp [state, State.intent]⟩)
    · exact waits_turns (by simp [state])
  case h_2 state =>
    split
    · rename_i caused
      exact closeTo_turns (by simp [state]) (.caused (by simp [state]) caused) (.inl rfl)
    · rename_i uncaused
      exact signNext_turns (.inl ⟨state, by simpa using uncaused⟩) (by simp [state]) (.inl rfl)
  case h_3 state => exact signing_turns state
  case h_4 state =>
    split
    · rename_i caused
      exact closeTo_turns (by simp [state]) (.caused (by simp [state]) caused) (.inl rfl)
    rename_i uncaused
    split
    · rename_i read
      exact goTo_turns (.published state (by simpa using uncaused) read)
        (.inr ⟨rfl, by simp [state, State.intent]⟩)
    · rename_i unread
      exact publish_turns state (by simpa using uncaused) (by simpa using unread)
  case h_5 state => exact stage_turns state
  case h_6 state => exact sessionIntent_turns state
  case h_7 state => exact bound_turns (.inl state)
  case h_8 state => exact bound_turns (.inr state)
  case h_9 state => exact commitIntent_turns state
  case h_10 state => exact ready_turns (.inl state)
  case h_11 state => exact ready_turns (.inr state)
  case h_12 state => exact rebootIntent_turns state
  case h_13 state => exact abandonIntent_turns state
  case h_14 state => exact bootObserved_turns state
  case h_15 state =>
    split
    · rename_i booted
      exact goTo_turns (.bootObserved booted (by simp [state]))
        (.inr ⟨rfl, by simp [state, State.intent]⟩)
    rename_i unbooted
    split
    · rename_i facts
      simp only [Bool.and_eq_true] at facts
      exact ensures_bind fun next moved =>
        ensures_ok (.applies state (by simpa using unbooted) facts.1 facts.2 moved rfl rfl rfl)
    · exact waits_turns (by simp [state])
  case h_16 state => exact startWindow_turns state
  case h_17 state => exact window_turns state
  case h_18 state =>
    split
    · exact closeTo_turns (by simp [state]) (.ended (by simp [state]) (.inr ⟨_, rfl⟩)) (.inr ⟨_, rfl⟩)
    · exact closeTo_turns (by simp [state]) (.ended (by simp [state]) (.inl rfl)) (.inl rfl)
  case h_19 state => exact recordLost_turns state
  case h_20 state =>
    exact closeTo_turns (by simp [state]) (.ended (by simp [state]) (.inl rfl)) (.inl rfl)
  case h_21 state =>
    exact closeTo_turns (by simp [state]) (.ended (by simp [state]) (.inl rfl)) (.inl rfl)
  case h_22 state =>
    exact closeTo_turns (by simp [state]) (.ended (by simp [state]) (.inl rfl)) (.inl rfl)
  all_goals exact ensures_error

end Rules
end Andrix.Deployment
