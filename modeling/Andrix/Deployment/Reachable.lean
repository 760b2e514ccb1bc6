import Andrix.Deployment.Grants
import Andrix.Deployment.Stepped

/-! The tickets that steps and cancellations reach from a stored PLANNED ticket,
and what holds of all of them: which crossings a state has issued, that the
reference of an open create is its nonce alone, and that signing requests cover
disjoint inputs. -/
namespace Andrix.Deployment
open Andrix.Lib List

/-- The owner's cancellation, recorded at once. None where it changes nothing. -/
def cancel (t : Ticket) : Checked (Option Ticket) :=
  if t.state.terminal ∨ code Cause.cancelled ≤ code t.cause then .ok none
  else some <$> ({ t.toBuilder with cause := .cancelled } : Ticket.Builder).build

/-- A context of valid records: the clock's numbers are those of a device, its
boot was observed, the fresh ID names nothing yet, and the plan's authorizations
are those stored, among them every one that the ledger names. -/
structure Context.Sound (stored : Text → Option Authorization) (c : Context) : Prop where
  clock : ∀ now ∈ c.now, -1 ≤ now.instanceId ∧ 0 ≤ now.elapsed
  boot : ∀ now ∈ c.now, ∃ o ∈ c.view.facts, o.kind = .boot ∧ o.boot = now.boot
  fresh : IsHex 32 c.freshId ∧ c.freshId ≠ noId
  grants : ∀ a ∈ c.authorizations, stored a.authorizationId = some a
  named : ∀ e ∈ c.ticket.ledger, e.grant ≠ noId →
    ∃ a ∈ c.authorizations, a.authorizationId = e.grant
  boots : c.ticket.bootCount < 0xffff

/-- The tickets that steps and cancellations reach. -/
inductive Reachable (stored : Text → Option Authorization) : Ticket → Prop
  | planned {t} : t.state = .planned → t.ledger = [] → Reachable stored t
  | step {c s} : Reachable stored c.ticket → c.Sound stored → step c = .ok s →
    Reachable stored s.ticket
  | cancel {t next} : Reachable stored t → cancel t = .ok (some next) → Reachable stored next

variable {t next : Ticket}

theorem cancel_eq_some : cancel t = .ok (some next) ↔
    t.state.terminal = false ∧ t.cause = .none ∧
      next.toBuilder = { t.toBuilder with cause := .cancelled } := by
  have low : ¬ code Cause.cancelled ≤ code t.cause ↔ t.cause = .none := by
    cases t.cause <;> decide
  have mapped {x : Checked Ticket} : (some <$> x) = .ok (some next) ↔ x = .ok next := by
    cases x <;> simp
  unfold cancel
  split
  · rename_i refused
    simp only [Except.ok.injEq, reduceCtorEq, false_iff, not_and]
    rintro live none_
    rcases refused with terminal | high
    · simp [live] at terminal
    · exact absurd high (low.mpr none_)
  · rename_i allowed
    simp only [not_or, Bool.not_eq_true, low] at allowed
    simp only [mapped, Ticket.Builder.build_eq_ok, allowed, true_and]

instance (stored : Text → Option Authorization) (c : Context) : Decidable (c.Sound stored) :=
  decidable_of_iff ((∀ now ∈ c.now, -1 ≤ now.instanceId ∧ 0 ≤ now.elapsed) ∧
      (∀ now ∈ c.now, ∃ o ∈ c.view.facts, o.kind = .boot ∧ o.boot = now.boot) ∧
      (IsHex 32 c.freshId ∧ c.freshId ≠ noId) ∧
      (∀ a ∈ c.authorizations, stored a.authorizationId = some a) ∧
      (∀ e ∈ c.ticket.ledger, e.grant ≠ noId →
        ∃ a ∈ c.authorizations, a.authorizationId = e.grant) ∧ c.ticket.bootCount < 0xffff)
    ⟨fun ⟨clock, boot, fresh, grants, named, boots⟩ => ⟨clock, boot, fresh, grants, named, boots⟩,
      fun ⟨clock, boot, fresh, grants, named, boots⟩ => ⟨clock, boot, fresh, grants, named, boots⟩⟩

/-! ## Replaying steps

A run on one plan's standing inputs, to be evaluated: each event is a step at a
clock with the next fresh ID, or a cancellation. -/

/-- What every step of a replay reads. -/
structure Setting where
  plan : Plan
  authorizations : List Authorization
  selection : Selection
  repairs : List Plan
  facts : List Observation

inductive Event where
  | step (now : Option Clock) (freshId : Text)
  | cancel

def Setting.stored (s : Setting) (id : Text) : Option Authorization :=
  s.authorizations.find? (fun a => a.authorizationId = id)

def Setting.context (s : Setting) (t : Ticket) (ofPlan : t.planId = s.plan.planId)
    (now : Option Clock) (freshId : Text) : Context where
  plan := s.plan
  ticket := t
  authorizations := s.authorizations
  planTickets := [t]
  selection := s.selection
  trustPolicy := s.plan.trustPolicy
  targetHeld := false
  repairs := s.repairs
  repaired := none
  view := View.ofFacts ((now.map (·.boot)).getD noId) s.plan.component s.facts
  now := now
  rebootRequested := false
  freshId := freshId
  ofPlan := ofPlan
  sameBoot clock found := by simp [View.ofFacts, Option.mem_def.mp found]
  repairedPlan := by simp

@[simp] theorem Setting.context_ticket (s : Setting) (t : Ticket) (ofPlan : t.planId = s.plan.planId)
    (now : Option Clock) (freshId : Text) : (s.context t ofPlan now freshId).ticket = t := rfl

def Setting.after (s : Setting) (t : Ticket) : Event → Option Ticket
  | .cancel => (cancel t).toOption.bind id
  | .step now freshId =>
    if ofPlan : t.planId = s.plan.planId then
      if (s.context t ofPlan now freshId).Sound s.stored then
        (step (s.context t ofPlan now freshId)).toOption.map (·.ticket)
      else none
    else none

def Setting.replay (s : Setting) (t : Ticket) (events : List Event) : Option Ticket :=
  events.foldlM s.after t

theorem Setting.after_reachable {s : Setting} {event : Event}
    (reachable : Reachable s.stored t) (ran : s.after t event = some next) :
    Reachable s.stored next := by
  unfold after at ran
  split at ran
  · obtain ⟨found, cancelled, same⟩ := Option.bind_eq_some_iff.mp ran
    rw [show found = some next from same] at cancelled
    exact .cancel reachable (toOption_eq_some.mp cancelled)
  rename_i now freshId
  split at ran
  · rename_i ofPlan
    split at ran
    · rename_i sound
      obtain ⟨value, result, rfl⟩ := Option.map_eq_some_iff.mp ran
      exact .step (c := s.context t ofPlan now freshId) reachable sound (toOption_eq_some.mp result)
    · cases ran
  · cases ran

theorem Setting.replay_reachable {s : Setting} {events : List Event}
    (reachable : Reachable s.stored t) (ran : s.replay t events = some next) :
    Reachable s.stored next := by
  induction events generalizing t with
  | nil =>
    cases ran
    exact reachable
  | cons event rest ih =>
    simp only [replay, foldlM_cons, Option.bind_eq_bind, Option.bind_eq_some_iff] at ran
    obtain ⟨mid, first, rest_⟩ := ran
    exact ih (after_reachable reachable first) rest_

/-- The sample plan's facts: publication, replies, and an activation in the boot
after the reboot. -/
def sampleFacts : List Observation := sampleOpening ++ [
  ⟨{ sampleFact .runningUnlocked 5 with user := 0, serial := 0 }, by decide +kernel⟩,
  ⟨{ sampleReply 1 .create .replySuccess with reference := sampleReference }, by decide +kernel⟩,
  ⟨sampleReply 2 .write .replySuccess, by decide +kernel⟩,
  ⟨sampleReply 3 .commit .replyReady, by decide +kernel⟩,
  ⟨inBoot 'd' (sampleBoot 2), by decide +kernel⟩,
  ⟨inBoot 'd' (sampleFact .checkpointCommitted 3), by decide +kernel⟩,
  ⟨inBoot 'd' { sampleComponentFact .factoryPresent 4 with
    digest := sampleDigest '4', version := 1 }, by decide +kernel⟩,
  ⟨inBoot 'd' { sampleComponentFact .dataCopy 4 with
    digest := sampleDigest '8', version := 3, number := 10050, text := "platform_app".toList },
    by decide +kernel⟩,
  ⟨inBoot 'd' { sampleComponentFact .sessionApplied 5 with
    instanceId := 0, reference := sampleReference }, by decide +kernel⟩,
  ⟨inBoot 'e' (sampleBoot 2), by decide +kernel⟩]

def sampleSetting : Setting where
  plan := samplePlan
  authorizations := [sampleStage, sampleActivate]
  selection := sampleSelection
  repairs := []
  facts := sampleFacts

def sampleTicket : Ticket := ⟨sampleTicketFields, by decide +kernel⟩

/-- The steps from PLANNED to a health window that one more boot restarts before
its checkpoint commits. -/
def sampleRun : List Event :=
  List.replicate 3 (Event.step none (sampleId 'c')) ++
  [Event.step none (sampleId 'a'), .step none (sampleId 'c'),
    .step (sampleClock '9' 30) (sampleId 'b')] ++
  List.replicate 6 (Event.step (sampleClock '9' 31) (sampleId 'c')) ++
  List.replicate 4 (Event.step (sampleClock 'd' 30) (sampleId 'c')) ++
  [Event.step (sampleClock 'e' 30) (sampleId 'c')]

/-! ## The crossings of a state -/

/-- The crossings that a ticket in a state has issued. -/
def State.requires : State → List Crossing
  | .written => [.write]
  | .commitIntent | .ready | .readyAgain | .bootObserved | .appliedProvisional | .applied
  | .healthWindow | .failedNative => [.commit]
  | .rebootIntent => [.commit, .reboot]
  | .abandonIntent => [.abandon]
  | _ => []

/-- The crossings that a ticket in a state has not issued. -/
def State.excludes : State → List Crossing
  | .planned | .authorized => [.sign, .publish]
  | .signing => [.publish]
  | .signFailed => [.create]
  | .sessionIntent | .noSession => [.write, .commit, .abandon]
  | .sessionBound | .written => [.commit, .abandon]
  | .commitIntent | .ready | .readyAgain | .rebootIntent => [.abandon]
  | _ => []

structure Shaped (state : State) (ledger : List Entry) : Prop where
  requires : ∀ x ∈ state.requires, 0 < countOf x ledger
  excludes : ∀ x ∈ state.excludes, countOf x ledger = 0

theorem committed_iff {t : Ticket} : committed t = true ↔ 0 < countOf .commit t.ledger :=
  decide_eq_true_iff

theorem created_iff {t : Ticket} : created t = true ↔ 0 < countOf .create t.ledger :=
  decide_eq_true_iff

variable {b : Ticket.Builder}

theorem last_isSome {x : Crossing} :
    (b.last x).isSome ↔ 0 < b.count x := by
  rw [Ticket.Builder.count_eq, countOf_pos, Ticket.Builder.last, List.getLast?_isSome]
  simp [filter_eq_nil_iff]

theorem last_eq_none {x : Crossing} : b.last x = none ↔ b.count x = 0 := by
  rw [← Option.not_isSome_iff_eq_none, last_isSome]
  omega

variable {c : Context} {s : State} {newBoot : Bool}

/-- A state change that issues nothing leads to a state that suits the ledger. -/
theorem Moves.shaped
    (moves : Moves c b newBoot s) (shaped : Shaped c.ticket.state c.ticket.ledger) :
    Shaped s c.ticket.ledger := by
  obtain ⟨requires, excludes⟩ := shaped
  have rules := c.ticket.rules.ledger
  suffices (∀ x ∈ s.requires, 0 < countOf x c.ticket.ledger) ∧
      (∀ x ∈ s.excludes, countOf x c.ticket.ledger = 0) from ⟨this.1, this.2⟩
  cases moves with
  | authorized state | signing state | signed state | published state | noSession state
  | ready state | readyAfter state | readyAgain state =>
    simp_all [State.requires, State.excludes, Ticket.Builder.count_eq]
  | signFailed state =>
    have none_ : countOf .create c.ticket.ledger = 0 := rules.uncreated (by rw [state]; decide)
    simp [State.requires, State.excludes, none_]
  | written state _ write =>
    simp_all [State.requires, State.excludes, last_isSome, Ticket.Builder.count_eq]
  | lost | abandoned => simp [State.requires, State.excludes]
  | failedNative state =>
    rcases state with state | state <;> simp_all [State.requires, State.excludes]
  | bootObserved _ state =>
    rcases state with state | state | state | state | state | ⟨state, committed_⟩ <;>
      simp_all [State.requires, State.excludes, committed_iff]
  | provisional state =>
    rcases state with state | ⟨state, committed_⟩ <;>
      simp_all [State.requires, State.excludes, committed_iff]

variable {e : Entry} {k : Cause} {r : Reference}

/-- A crossing leads to a state that suits the ledger with its entry. -/
theorem Crosses.shaped
    (crosses : Crosses c b s e r k) (shaped : Shaped c.ticket.state c.ticket.ledger) :
    Shaped s (c.ticket.ledger ++ [e]) := by
  obtain ⟨requires, excludes⟩ := shaped
  have rules := c.ticket.rules.ledger
  constructor <;> simp only [countOf_append_singleton] <;> cases crosses with
  | sign state _ _ made =>
    have crossing := (entry_inv made).crossing
    rcases state with ⟨state, _⟩ | ⟨state, _⟩ <;>
      simp_all [State.requires, State.excludes]
  | publish => simp [State.requires, State.excludes]
  | create state _ _ _ _ made =>
    have crossing := (entry_inv made).crossing
    have none_ : countOf .create c.ticket.ledger = 0 := rules.uncreated (by rw [state]; decide)
    have gone {x : Crossing} := rules.admitted.uncreated none_ (x := x)
    simp [State.requires, State.excludes, crossing, gone]
  | write _ _ _ _ made | commit _ _ _ _ made =>
    have crossing := (entry_inv made).crossing
    simp_all [State.requires, State.excludes]
  | notice state _ _ _ _ made =>
    have crossing := (entry_inv made).crossing
    rcases state with state | state | state <;> simp_all [State.requires, State.excludes]
  | reboot state _ _ _ _ _ _ made =>
    have crossing := (entry_inv made).crossing
    rcases state with state | state <;> simp_all [State.requires, State.excludes]
  | abandon _ _ _ made =>
    have crossing := (entry_inv made).crossing
    simp [State.requires, State.excludes, crossing]

/-! ## The edges of the rules -/

/-- The state changes that issue nothing and close nothing. -/
def moveEdges : List (State × State) :=
  [(.planned, .authorized), (.authorized, .signing), (.signing, .signFailed), (.signing, .signed),
    (.signed, .published), (.sessionIntent, .noSession), (.sessionBound, .written),
    (.sessionBound, .nativeRecordLost), (.written, .nativeRecordLost),
    (.commitIntent, .nativeRecordLost), (.ready, .nativeRecordLost),
    (.readyAgain, .nativeRecordLost), (.bootObserved, .nativeRecordLost), (.commitIntent, .ready),
    (.rebootIntent, .ready), (.bootObserved, .readyAgain), (.commitIntent, .failedNative),
    (.bootObserved, .failedNative), (.commitIntent, .bootObserved), (.ready, .bootObserved),
    (.readyAgain, .bootObserved), (.rebootIntent, .bootObserved),
    (.appliedProvisional, .bootObserved), (.abandonIntent, .bootObserved),
    (.abandonIntent, .abandoned), (.bootObserved, .abandoned), (.bootObserved, .appliedProvisional),
    (.nativeRecordLost, .appliedProvisional)]

theorem Moves.edge
    (moves : Moves c b newBoot s) : (c.ticket.state, s) ∈ moveEdges := by
  cases moves with
  | lost state => rcases state with state | state | state | state | state | state <;> simp [state, moveEdges]
  | bootObserved _ state =>
    rcases state with state | state | state | state | state | ⟨state, _⟩ <;> simp [state, moveEdges]
  | failedNative state | abandoned state => rcases state with state | state <;> simp [state, moveEdges]
  | provisional state => rcases state with state | ⟨state, _⟩ <;> simp [state, moveEdges]
  | authorized state | signing state | signFailed state | signed state | published state
  | noSession state | written state | ready state | readyAfter state | readyAgain state =>
    simp [state, moveEdges]

/-- The crossings with the states they are issued in and lead to. -/
def crossEdges : List (State × Crossing × State) :=
  [(.authorized, .sign, .signing), (.signing, .sign, .signing), (.signed, .publish, .signed),
    (.published, .create, .sessionIntent), (.sessionBound, .write, .sessionBound),
    (.written, .commit, .commitIntent), (.published, .notice, .published), (.ready, .notice, .ready),
    (.readyAgain, .notice, .readyAgain), (.ready, .reboot, .rebootIntent),
    (.readyAgain, .reboot, .rebootIntent), (.sessionBound, .abandon, .abandonIntent),
    (.written, .abandon, .abandonIntent), (.commitIntent, .abandon, .abandonIntent),
    (.ready, .abandon, .abandonIntent), (.readyAgain, .abandon, .abandonIntent),
    (.rebootIntent, .abandon, .abandonIntent), (.bootObserved, .abandon, .abandonIntent),
    (.abandonIntent, .abandon, .abandonIntent)]

theorem Crosses.edge
    (crosses : Crosses c b s e r k) : (c.ticket.state, e.crossing, s) ∈ crossEdges := by
  cases crosses with
  | sign state _ _ made =>
    rcases state with ⟨state, _⟩ | ⟨state, _⟩ <;>
      simp [state, (entry_inv made).crossing, crossEdges]
  | publish state _ _ _ made | create state _ _ _ _ made | write state _ _ _ made
  | commit state _ _ _ made => simp [state, (entry_inv made).crossing, crossEdges]
  | notice state _ _ _ _ made =>
    rcases state with state | state | state <;>
      simp [state, (entry_inv made).crossing, crossEdges]
  | reboot state _ _ _ _ _ _ made =>
    rcases state with state | state <;> simp [state, (entry_inv made).crossing, crossEdges]
  | abandon why _ _ made =>
    have crossing := (entry_inv made).crossing
    cases why with
    | session state =>
      rcases state with state | state | state | state | state | state <;>
        simp [state, crossing, crossEdges]
    | atBoot state | again state => simp [state, crossing, crossEdges]

/-- A closing leads to a terminal state, which asks nothing of the ledger. -/
theorem closingState_terminal (t : Ticket) (k : Cause) : (closingState t k).terminal = true := by
  unfold closingState
  repeat' split
  all_goals decide

theorem Closes.terminal
    (closes : Closes c b k s) : s.terminal = true := by
  cases closes with
  | caused | ended => exact closingState_terminal _ _
  | diverged | void => decide

theorem WindowCloses.terminal {now : Clock} {h : List Health}
    {u : Text} (closes : WindowCloses c b now h k u s) :
    s.terminal = true := by
  cases closes <;> decide

variable {ledger : List Entry}

theorem Shaped.of_terminal (terminal : s.terminal = true) :
    Shaped s ledger := by
  have free : s.requires = [] ∧ s.excludes = [] := by
    revert terminal
    cases s <;> decide
  exact ⟨by simp [free], by simp [free]⟩

theorem Turn.shaped {d : Draft}
    (turn : Turn c (starting c) newBoot d) (shaped : Shaped c.ticket.state c.ticket.ledger) :
    Shaped d.builder.state d.builder.ledger := by
  cases turn with
  | stays _ _ _ built | idles _ built | restarts _ _ _ _ _ built | observes _ _ _ _ built
  | windowWaits _ _ _ _ _ built =>
    rw [built]
    exact shaped
  | moves moves _ built =>
    rw [built]
    exact moves.shaped shaped
  | binds state _ _ _ built =>
    rw [built]
    obtain ⟨_, excludes⟩ := shaped
    simp only [state] at excludes
    have fewer : ∀ x ∈ State.sessionBound.excludes, x ∈ State.sessionIntent.excludes := by decide
    exact ⟨by simp [State.requires], fun x among => excludes x (fewer x among)⟩
  | crosses crosses built =>
    rw [built]
    exact crosses.shaped shaped
  | closes closes _ built | windowCloses _ _ closes _ built =>
    rw [built]
    exact .of_terminal closes.terminal
  | applies state _ _ _ _ built | opensWindow state _ _ built =>
    rw [built]
    obtain ⟨requires, _⟩ := shaped
    simp only [state] at requires
    exact ⟨requires, by simp [State.excludes]⟩

/-! ## Signing requests -/

/-- The inputs that an entry's signing request covers, by the stored grant. -/
def grantedInputs (stored : Text → Option Authorization) (e : Entry) : BitVec 32 :=
  if e.crossing = .sign then ((stored e.grant).map (·.inputs)).getD 0 else 0

/-- Each signing request names a stored SIGN grant, and no two cover one input. -/
structure SignsApart (stored : Text → Option Authorization) (ledger : List Entry) : Prop where
  granted : ∀ e ∈ ledger, e.crossing = .sign → ∃ a, stored e.grant = some a ∧ a.effect = .sign
  apart : ledger.Pairwise (fun d e => grantedInputs stored d &&& grantedInputs stored e = 0)

/-- The plan's authorizations are those stored, among them every one that the
ledger names. -/
structure Context.Granted (stored : Text → Option Authorization) (c : Context) : Prop where
  grants : ∀ a ∈ c.authorizations, stored a.authorizationId = some a
  named : ∀ e ∈ c.ticket.ledger, e.grant ≠ noId →
    ∃ a ∈ c.authorizations, a.authorizationId = e.grant

variable {stored : Text → Option Authorization}

theorem Context.Sound.granted
    (sound : c.Sound stored) : c.Granted stored := ⟨sound.grants, sound.named⟩

theorem authorization_eq {id : Text}
    (grants : ∀ a ∈ c.authorizations, stored a.authorizationId = some a)
    (named : ∃ a ∈ c.authorizations, a.authorizationId = id) : authorization c id = stored id := by
  cases found : authorization c id with
  | none =>
    obtain ⟨a, among, same⟩ := named
    exact absurd same (by simpa using List.find?_eq_none.mp found a among)
  | some a =>
    have same : a.authorizationId = id := by simpa using List.find?_some found
    rw [← same, grants a (mem_of_find?_eq_some found)]

/-- The step reads the inputs of earlier requests as their stored grants say. -/
theorem signedInputs_eq
    (granted : c.Granted stored) (member : e ∈ c.ticket.ledger) :
    signedInputs c e = grantedInputs stored e := by
  unfold signedInputs grantedInputs
  split
  · rename_i sign
    have names : e.grant ≠ noId := by
      intro none_
      have rule := e.rules.grant
      simp [Crossing.granted, sign, none_] at rule
    rw [authorization_eq granted.grants (granted.named e member names)]
  · rfl

/-- A signing request names a SIGN grant for inputs that no earlier one covers. -/
theorem SignsApart.sign
    (granted : c.Granted stored) (signs : SignsApart stored c.ticket.ledger)
    {g : Authorization} {gs : List Authorization}
    (grants : signGrants c (signingNeeded c) = some (g :: gs)) (named : e.grant = g.authorizationId) :
    SignsApart stored (c.ticket.ledger ++ [e]) := by
  obtain ⟨among, effect, _, within⟩ := signGrants_some grants (a := g) (by simp)
  have known : stored e.grant = some g := by rw [named, granted.grants g among]
  constructor
  · intro d member sign
    rcases mem_append.mp member with earlier | last
    · exact signs.granted d earlier sign
    · simp only [mem_singleton] at last
      subst last
      exact ⟨g, known, effect⟩
  refine pairwise_append.mpr ⟨signs.apart, by simp, fun d earlier d' last => ?_⟩
  simp only [mem_singleton] at last
  subst last
  rw [← signedInputs_eq granted earlier]
  unfold grantedInputs
  split
  · simpa [known] using signGrant_apart earlier within
  · simp

theorem SignsApart.other
    (signs : SignsApart stored ledger) (other : e.crossing ≠ .sign) :
    SignsApart stored (ledger ++ [e]) := by
  constructor
  · intro d member sign
    rcases mem_append.mp member with earlier | last
    · exact signs.granted d earlier sign
    · simp only [mem_singleton] at last
      exact absurd (last ▸ sign) other
  · refine pairwise_append.mpr ⟨signs.apart, by simp, fun d _ d' last => ?_⟩
    simp only [mem_singleton] at last
    simp [last, grantedInputs, other]

/-- At most one of three requests over two inputs is apart from the others. -/
private theorem apart_length {l : List (BitVec 32)} (inputs : ∀ x ∈ l, ¬ x.toNat < 1 ∧ ¬ 3 < x.toNat)
    (apart : l.Pairwise (fun x y => x &&& y = 0)) : l.length ≤ 2 := by
  match l with
  | [] | [_] | [_, _] => simp
  | x :: y :: z :: _ =>
    have small {x : BitVec 32} (low : ¬ x.toNat < 1) (high : ¬ 3 < x.toNat) :
        x = 1 ∨ x = 2 ∨ x = 3 := by
      bv_omega
    simp only [mem_cons, forall_eq_or_imp, pairwise_cons] at inputs apart
    obtain ⟨⟨xy, xz, _⟩, ⟨yz, _⟩, _⟩ := apart
    exfalso
    rcases small inputs.1.1 inputs.1.2 with rfl | rfl | rfl <;>
      rcases small inputs.2.1.1 inputs.2.1.2 with rfl | rfl | rfl <;>
      rcases small inputs.2.2.1.1 inputs.2.2.1.2 with rfl | rfl | rfl <;>
      revert xy xz yz <;> decide

theorem SignsApart.count_le
    (signs : SignsApart stored ledger) : countOf .sign ledger ≤ 2 := by
  rw [countOf, countP_eq_length_filter, ← length_map (f := grantedInputs stored)]
  refine apart_length ?_ (pairwise_map.mpr (signs.apart.filter _))
  simp only [forall_mem_map, mem_filter, decide_eq_true_eq]
  rintro e ⟨member, sign⟩
  obtain ⟨a, known, effect⟩ := signs.granted e member sign
  simpa [grantedInputs, sign, known] using a.rules.inputs.1 effect

/-! ## Every reachable ticket -/

/-- What holds of every reachable ticket. -/
structure Sequenced (stored : Text → Option Authorization) (b : Ticket.Builder) : Prop where
  shaped : Shaped b.state b.ledger
  /-- Until the create is resolved, only the nonce of its session is known. -/
  intent : b.state = .sessionIntent → b.reference.presence = Reference.nonceField
  signs : SignsApart stored b.ledger

private theorem Crosses.intent
    (crosses : Crosses c b s e r k) (intent : s = .sessionIntent) :
    r.presence = Reference.nonceField := by
  cases crosses with
  | create _ _ _ _ drawn =>
    rw [Reference.make_eq_ok.mp drawn]
    rfl
  | notice state => rcases state with state | state | state <;> simp [state] at intent
  | sign | publish | write | commit | reboot | abandon => cases intent

theorem Crosses.signs

    (crosses : Crosses c b s e r k) (granted : c.Granted stored)
    (signs : SignsApart stored c.ticket.ledger) : SignsApart stored (c.ticket.ledger ++ [e]) := by
  cases crosses with
  | sign _ _ grants made => exact signs.sign granted grants (entry_inv made).grant
  | publish _ _ _ _ made | create _ _ _ _ _ made | write _ _ _ _ made | commit _ _ _ _ made
  | notice _ _ _ _ _ made | reboot _ _ _ _ _ _ _ made | abandon _ _ _ made =>
    exact signs.other (by simp [(entry_inv made).crossing])

theorem Turn.sequenced
    {d : Draft} (turn : Turn c (starting c) newBoot d) (sound : c.Sound stored)
    (sequenced : Sequenced stored c.ticket.toBuilder) : Sequenced stored d.builder := by
  refine ⟨turn.shaped sequenced.shaped, ?_, ?_⟩
  · intro intent
    cases turn with
    | stays _ _ _ built | idles _ built | restarts _ _ _ _ _ built | observes _ _ _ _ built
    | windowWaits _ _ _ _ _ built =>
      rw [built] at intent ⊢
      exact sequenced.intent intent
    | moves moves _ built =>
      rw [built] at intent
      have other : ∀ edge ∈ moveEdges, edge.2 ≠ .sessionIntent := by decide
      exact absurd intent (other _ moves.edge)
    | crosses crosses built =>
      rw [built] at intent ⊢
      exact crosses.intent intent
    | closes closes _ built | windowCloses _ _ closes _ built =>
      rw [built] at intent
      dsimp only at intent
      subst intent
      exact absurd closes.terminal (by decide)
    | binds _ _ _ _ built | applies _ _ _ _ _ built | opensWindow _ _ _ built =>
      rw [built] at intent
      cases intent
  · cases turn with
    | crosses crosses built =>
      rw [built]
      exact crosses.signs sound.granted sequenced.signs
    | stays _ _ _ built | idles _ built | restarts _ _ _ _ _ built | observes _ _ _ _ built
    | windowWaits _ _ _ _ _ built | moves _ _ built | closes _ _ built
    | windowCloses _ _ _ _ built | binds _ _ _ _ built | applies _ _ _ _ _ built
    | opensWindow _ _ _ built =>
      rw [built]
      exact sequenced.signs

theorem step_sequenced {s : Step}
    (ran : step c = .ok s) (sound : c.Sound stored) (sequenced : Sequenced stored c.ticket.toBuilder) :
    Sequenced stored s.ticket.toBuilder := by
  cases step_inv ran with
  | same _ same => rwa [same]
  | held _ _ _ built =>
    rw [built]
    exact ⟨sequenced.shaped, sequenced.intent, sequenced.signs⟩
  | turned _ _ _ _ turn _ taken =>
    rw [taken.built]
    exact turn.sequenced sound sequenced

theorem Reachable.sequenced {t : Ticket}
    (reachable : Reachable stored t) : Sequenced stored t.toBuilder := by
  induction reachable with
  | planned state empty =>
    exact ⟨⟨by simp [state, State.requires], by simp [empty]⟩, by simp [state],
      ⟨by simp [empty], by simp [empty]⟩⟩
  | step _ sound ran ih => exact step_sequenced ran sound ih
  | cancel _ cancelled ih =>
    rw [(cancel_eq_some.mp cancelled).2.2]
    exact ⟨ih.shaped, ih.intent, ih.signs⟩

/-- The ledger of a reachable ticket has what led to its state and nothing from
beyond it, and at most two signing requests. -/
theorem ledger_suits_the_state {t : Ticket} (reachable : Reachable stored t) :
    Shaped t.state t.ledger ∧ countOf .sign t.ledger ≤ 2 ∧
      (t.state = .sessionIntent → t.reference.presence = Reference.nonceField) := by
  have sequenced := reachable.sequenced
  exact ⟨sequenced.shaped, sequenced.signs.count_le, sequenced.intent⟩

theorem sample_ledger_suits_its_state : ∃ t, sampleSetting.replay sampleTicket sampleRun = some t ∧
    t.state = .healthWindow ∧ Shaped t.state t.ledger := by
  have window : (sampleSetting.replay sampleTicket sampleRun).map (·.state) = some .healthWindow := by
    decide +kernel
  obtain ⟨t, ran, state⟩ := Option.map_eq_some_iff.mp window
  have reachable := Setting.replay_reachable (.planned rfl rfl) ran
  exact ⟨t, ran, state, (ledger_suits_the_state reachable).1⟩

end Andrix.Deployment
