import Andrix.Deployment.Reconciler

/-! What a step reads of its view. Two views with the same readings lead to the
same step, whatever else their facts hold and in whatever order. -/
namespace Andrix.Deployment
open Andrix.Lib Option

def Context.withView (c : Context) (v : View) (same : v.boot = c.view.boot) : Context :=
  { c with
    view := v
    sameBoot := fun clock found => (c.sameBoot clock found).trans same.symm }

@[simp] theorem withView_view (c : Context) (v : View) (same : v.boot = c.view.boot) :
    (c.withView v same).view = v := rfl

@[simp] theorem withView_ticket (c : Context) (v : View) (same : v.boot = c.view.boot) :
    (c.withView v same).ticket = c.ticket := rfl

structure SameContent (a b : Observation) : Prop where
  classification : a.classification = b.classification
  text : a.text = b.text
  digest : a.digest = b.digest
  version : a.version = b.version
  number : a.number = b.number
  reference : a.reference = b.reference

/-- Two facts of a session in the same state and framework instance. -/
structure SameState (a b : Observation) : Prop where
  classification : a.classification = b.classification
  boot : a.boot = b.boot
  instanceId : a.instanceId = b.instanceId

/-- The session that a route which reads the referrer finds by its nonce. -/
def foundBy (v : View) (nonce : Text) : Option Observation :=
  (v.ofKind .session).find? (fun s => s.reference.has Reference.nonceField &&
    s.reference.nonce = nonce && complete s.reference)

structure SameCohort (v w : View) : Prop where
  sameBoot : v.boot = w.boot
  boot : Option.Rel SameContent (v.latest .boot) (w.latest .boot)
  factory : Option.Rel SameContent (v.latest .factory) (w.latest .factory)
  active : Option.Rel SameContent (v.latest .active) (w.latest .active)
  bound : ∀ plan, (v.bound plan).map (fun o => (o.bundleApk, o.restorationApk)) =
    (w.bound plan).map (fun o => (o.bundleApk, o.restorationApk))

/-- What a step reads of a view beside the records of its context. -/
structure SameReadings (c : Context) (v : View) : Prop extends SameCohort v c.view where
  checkpoint : v.checkpoint = c.view.checkpoint
  completedAt : v.completedAt = c.view.completedAt
  reply : ∀ id index, Option.Rel SameContent (v.reply id index) (c.view.reply id index)
  signer : ∀ request, v.signer request = c.view.signer request
  publication : ∀ attempt plan, v.publication attempt plan = c.view.publication attempt plan
  found : Option.Rel (fun s s' => s.reference = s'.reference)
    (foundBy v c.ticket.reference.nonce) (foundBy c.view c.ticket.reference.nonce)
  exact : Option.Rel SameState (exactSession (c.withView v sameBoot)) (exactSession c)
  gone : ∀ e, goneAfter (c.withView v sameBoot) e = goneAfter c e
  absent : ∀ e, absentSince (c.withView v sameBoot) none e = absentSince c none e
  uncreated : ∀ e, absentAfter (c.withView v sameBoot) e = absentAfter c e
  notified : ∀ now activate,
    noticeSatisfied (c.withView v sameBoot) now activate = noticeSatisfied c now activate
  owed : ∀ now activate index,
    noticeAgain (c.withView v sameBoot) now activate index = noticeAgain c now activate index
  users : ∀ current since,
    observeUsers (c.withView v sameBoot) current since = observeUsers c current since
  judged : ∀ h, judgeUser (c.withView v sameBoot) h = judgeUser c h

/-! ## The cohort check -/

theorem SameCohort.boundApk {v w : View} (same : SameCohort v w) (plan : Text) :
    v.boundApk plan = w.boundApk plan := by
  have bound := congrArg (Option.map Prod.fst) (same.bound plan)
  simpa only [View.boundApk, map_map, Function.comp_def] using bound

/-- The status of the active bytes under a plan depends on the contents alone. -/
theorem planRealization_congr {v w : View} (same : SameCohort v w) (s : Selection)
    (chosen temporary : Option Plan) {boot active factory boot' active' factory' : Observation}
    (boots : SameContent boot boot') (actives : SameContent active active')
    (factories : SameContent factory factory') :
    planRealization s chosen temporary v boot active factory =
      planRealization s chosen temporary w boot' active' factory' := by
  simp only [planRealization, same.boundApk, boots.text, actives.digest, actives.classification,
    factories.digest]

theorem cohortCheck_congr {v w : View} (same : SameCohort v w) (s : Selection)
    (chosen temporary : Option Plan) (opened : Option (Ticket × Plan)) :
    cohortCheck s chosen temporary v opened = cohortCheck s chosen temporary w opened := by
  unfold cohortCheck
  rcases rel_cases same.boot with ⟨boot, boot'⟩ | ⟨_, _, boot, boot', boots⟩
  · rw [boot, boot']
  rcases rel_cases same.active with ⟨active, active'⟩ | ⟨_, _, active, active', actives⟩
  · rw [boot, boot', active, active']
  rcases rel_cases same.factory with ⟨factory, factory'⟩ | ⟨_, _, factory, factory', factories⟩
  · rw [boot, boot', active, active', factory, factory']
  · rw [boot, boot', active, active', factory, factory']
    simp only [same.boundApk, same.sameBoot, actives.digest, factories.digest,
      planRealization_congr same s chosen temporary boots actives factories]

theorem SameCohort.cohortChanged {c : Context} {v : View} (same : SameCohort v c.view) :
    cohortChanged (c.withView v same.sameBoot) = Deployment.cohortChanged c := by
  unfold Deployment.cohortChanged
  rcases rel_cases same.boot with ⟨boot, boot'⟩ | ⟨_, _, boot, boot', boots⟩
  · simp only [withView_view, boot, boot']
  rcases rel_cases same.factory with ⟨factory, factory'⟩ | ⟨_, _, factory, factory', factories⟩
  · simp only [withView_view, boot, boot', factory, factory']
  · simp only [withView_view, boot, boot', factory, factory', boots.text, factories.digest]
    rfl

/-- The delay depends on the publications alone. -/
theorem SameCohort.noticeDelay {c : Context} {v : View} (same : SameCohort v c.view) :
    noticeDelay (c.withView v same.sameBoot) = Deployment.noticeDelay c := by
  have listed : ∀ r : Plan, (v.bound r.planId).any (fun o =>
        v.boundApk c.plan.planId = some o.restorationApk) =
      (c.view.bound r.planId).any (fun o =>
        c.view.boundApk c.plan.planId = some o.restorationApk) := by
    intro r
    have apks := congrArg (Option.any (fun apks =>
      decide (c.view.boundApk c.plan.planId = some apks.2))) (same.bound r.planId)
    rw [any_map, any_map] at apks
    rw [same.boundApk]
    exact apks
  have approved : approvedRestoration (c.withView v same.sameBoot) = approvedRestoration c := by
    have repaired : (c.withView v same.sameBoot).repaired = c.repaired := rfl
    unfold approvedRestoration
    rw [repaired]
    cases c.repaired with
    | none => rfl
    | some r => exact congrArg (Bool.and _) (listed r)
  funext delivered
  unfold Deployment.noticeDelay
  rw [approved]
  rfl

/-! ## Evidence -/

theorem SameState.later {s s' : Observation} (states : SameState s s') (e : Option Entry) :
    Deployment.later s e = Deployment.later s' e := by
  simp only [Deployment.later, states.boot, states.instanceId]

/-- What a lost create resolves to, by its reply, the session found and the proof
that there is none. -/
def intentBy (t : Ticket) (b : Ticket.Builder) (reply found : Option Observation) (none_ : Bool) :
    Checked Draft :=
  let cleared := b.clear flagUnresolved
  let bound := reply.filter (fun r => r.classification = .replySuccess && complete r.reference &&
    (!r.reference.has Reference.nonceField || r.reference.nonce = t.reference.nonce))
  if reply.any (fun r => r.classification = .replyRefused) then
    goTo cleared .noSession "create refused"
  else match bound, found with
    | some r, _ => do
      let reference ← merge t.reference r.reference
      goTo { cleared with reference } .sessionBound "create reply with its reference"
    | none, some s => do
      let reference ← merge t.reference s.reference
      goTo { cleared with reference } .sessionBound "session found by its nonce"
    | none, none =>
      if none_ then goTo cleared .noSession "a complete listing in a later instance shows none"
      else unresolved b "create reply lost or incomplete"

theorem sessionIntent_eq (c : Context) (b : Ticket.Builder) : sessionIntent c b =
    intentBy c.ticket b (c.view.reply c.ticket.ticketId (c.ticket.indexOfLast .create))
      (foundBy c.view c.ticket.reference.nonce) (absentAfter c (c.ticket.last .create)) := rfl

theorem intentBy_congr {t : Ticket} {b : Ticket.Builder} {reply reply' found found' : Option Observation}
    {none_ : Bool} (replies : Option.Rel SameContent reply reply')
    (founds : Option.Rel (fun s s' => s.reference = s'.reference) found found') :
    intentBy t b reply found none_ = intentBy t b reply' found' none_ := by
  unfold intentBy
  cases replies with
  | none =>
    cases founds with
    | none => rfl
    | some references => simp only [any_none, filter_none, references]
  | @some o o' same =>
    -- The reply binds the session on both sides or on neither.
    simp only [any_some, filter_some, same.classification, same.reference]
    generalize (decide (o'.classification = .replySuccess) && complete o'.reference &&
      (!decide (o'.reference.has Reference.nonceField) ||
        decide (o'.reference.nonce = t.reference.nonce))) = binds
    cases binds with
    | true => simp only [if_true, same.reference]
    | false =>
      cases founds with
      | none => rfl
      | some references => simp only [Bool.false_eq_true, if_false, references]

section
variable {c : Context} {v : View} (r : SameReadings c v)
include r

theorem crossingNow_congr : crossingNow (c.withView v r.sameBoot) = crossingNow c := by
  simp only [crossingNow, withView_view, r.checkpoint]
  rfl

theorem crossingAllowed_congr : crossingAllowed (c.withView v r.sameBoot) = crossingAllowed c := by
  rw [crossingAllowed, crossingNow_congr r, crossingAllowed]

theorem frameworkNow_congr : frameworkNow (c.withView v r.sameBoot) = frameworkNow c := by
  rw [frameworkNow, crossingNow_congr r, frameworkNow]

theorem cohortChanged_congr : cohortChanged (c.withView v r.sameBoot) = cohortChanged c :=
  r.toSameCohort.cohortChanged

theorem bundleApk_congr : bundleApk (c.withView v r.sameBoot) = bundleApk c :=
  r.toSameCohort.boundApk c.plan.planId

theorem bytes_congr {active active' : Observation} (actives : SameContent active active') :
    bytes (c.withView v r.sameBoot) active = bytes c active' := by
  simp only [bytes, bundleApk_congr r, actives.digest]
  rfl

theorem unbound_congr : unbound (c.withView v r.sameBoot) = unbound c := by
  unfold unbound
  rw [bundleApk_congr r]
  rfl

theorem observedCause_congr : observedCause (c.withView v r.sameBoot) = observedCause c := by
  unfold observedCause
  rw [cohortChanged_congr r, unbound_congr r]
  rcases rel_cases r.active with ⟨active, active'⟩ | ⟨_, _, active, active', actives⟩
  · simp only [withView_view, active, active']
    rfl
  · simp only [withView_view, active, active', bytes_congr r actives]
    rfl

theorem publications_congr : publications (c.withView v r.sameBoot) = publications c := by
  simp only [publications, withView_view, r.publication]
  rfl

theorem published_congr : published (c.withView v r.sameBoot) = published c := by
  simp only [published, mismatch, publications_congr r]

theorem mismatch_congr : mismatch (c.withView v r.sameBoot) = mismatch c := by
  simp only [mismatch, publications_congr r]

theorem signingNeeded_congr : signingNeeded (c.withView v r.sameBoot) = signingNeeded c := by
  unfold signingNeeded
  rw [published_congr r]
  rfl

theorem appliedFacts_congr : appliedFacts (c.withView v r.sameBoot) = appliedFacts c := by
  unfold appliedFacts
  have gone : goneNow (c.withView v r.sameBoot) = goneNow c := r.gone none
  rw [bundleApk_congr r, gone]
  rcases rel_cases r.active with ⟨active, active'⟩ | ⟨_, _, active, active', actives⟩
  · simp only [withView_view, active, active']
  rcases rel_cases r.exact with ⟨exact_, exact'⟩ | ⟨_, _, exact_, exact', states⟩
  · simp only [withView_view, active, active', exact_, exact', actives.digest, actives.version,
      actives.number, actives.text]
    rfl
  · simp only [withView_view, active, active', exact_, exact', actives.digest, actives.version,
      actives.number, actives.text, states.classification]
    rfl

theorem move_congr (cause : Cause) : move (c.withView v r.sameBoot) cause = move c cause := by
  unfold move
  have cohort := cohortCheck_congr r.toSameCohort
  rw [bundleApk_congr r]
  rcases rel_cases r.active with ⟨active, active'⟩ | ⟨_, _, active, active', actives⟩
  · simp only [withView_view, active, active', cohort, r.sameBoot]
    rfl
  · simp only [withView_view, active, active', cohort, r.sameBoot, any_some, actives.digest]
    rfl

/-! ## The rules -/

theorem abandon_congr (b : Ticket.Builder) (why : String) :
    abandon (c.withView v r.sameBoot) b why = abandon c b why := by
  unfold abandon
  rw [frameworkNow_congr r]
  rfl

theorem closeTo_congr (b : Ticket.Builder) (state : State) (why : String) :
    closeTo (c.withView v r.sameBoot) b state why = closeTo c b state why := by
  unfold closeTo
  rw [crossingAllowed_congr r]
  rfl

theorem close_congr (b : Ticket.Builder) (why : String) :
    close (c.withView v r.sameBoot) b why = close c b why :=
  closeTo_congr r b _ why

theorem signNext_congr (b : Ticket.Builder) (into : State) :
    signNext (c.withView v r.sameBoot) b into = signNext c b into := by
  unfold signNext
  rw [signingNeeded_congr r]
  rfl

theorem signing_congr (b : Ticket.Builder) :
    signing (c.withView v r.sameBoot) b = signing c b := by
  unfold signing
  simp only [signingNeeded_congr r, signNext_congr r, withView_view, r.signer]
  rfl

theorem publish_congr (b : Ticket.Builder) :
    publish (c.withView v r.sameBoot) b = publish c b := by
  unfold publish
  simp only [mismatch_congr r, withView_view, r.publication]
  rfl

theorem notice_congr (now : Clock) (b : Ticket.Builder) (activate : Authorization)
    (why : Option String) :
    notice (c.withView v r.sameBoot) now b activate why = notice c now b activate why := by
  unfold notice
  simp only [abandon_congr r, r.owed]
  rfl

theorem stage_congr (b : Ticket.Builder) : stage (c.withView v r.sameBoot) b = stage c b := by
  unfold stage
  simp only [close_congr r, frameworkNow_congr r, r.notified, notice_congr r]
  rfl

/-- A reply is tested for its classification alone. -/
theorem reply_any_congr (id : Text) (index : Option Nat) (classification : Classification) :
    (v.reply id index).any (fun o => o.classification = classification) =
      (c.view.reply id index).any (fun o => o.classification = classification) := by
  rcases rel_cases (r.reply id index) with ⟨reply, reply'⟩ | ⟨_, _, reply, reply', replies⟩
  · rw [reply, reply']
  · simp only [reply, reply', any_some, replies.classification]

theorem sessionIntent_congr (b : Ticket.Builder) :
    sessionIntent (c.withView v r.sameBoot) b = sessionIntent c b := by
  rw [sessionIntent_eq, sessionIntent_eq c, r.uncreated]
  exact intentBy_congr (r.reply _ _) r.found

theorem bound_congr (b : Ticket.Builder) : bound (c.withView v r.sameBoot) b = bound c b := by
  unfold bound
  simp only [abandon_congr r, r.gone, frameworkNow_congr r, withView_view, reply_any_congr r]
  rfl

theorem commitObserved_congr (b : Ticket.Builder) {s s' : Observation} (states : SameState s s') :
    commitObserved (c.withView v r.sameBoot) b s = commitObserved c b s' := by
  unfold commitObserved
  simp only [states.classification, states.later, abandon_congr r]
  rfl

theorem commitIntent_congr (b : Ticket.Builder) (newBoot : Bool) :
    commitIntent (c.withView v r.sameBoot) b newBoot = commitIntent c b newBoot := by
  unfold commitIntent
  rcases rel_cases r.exact with ⟨exact_, exact'⟩ | ⟨_, _, exact_, exact', states⟩
  · simp only [withView_view, reply_any_congr r, exact_, exact', r.absent, r.gone]
    rfl
  · simp only [withView_view, reply_any_congr r, exact_, exact', states.classification,
      abandon_congr r, commitObserved_congr r b states]
    rfl

theorem activate_congr (b : Ticket.Builder) :
    activate (c.withView v r.sameBoot) b = activate c b := by
  unfold activate
  simp only [crossingNow_congr r, abandon_congr r, r.notified, notice_congr r]
  rfl

theorem ready_congr (b : Ticket.Builder) (newBoot : Bool) :
    ready (c.withView v r.sameBoot) b newBoot = ready c b newBoot := by
  unfold ready
  rcases rel_cases r.exact with ⟨exact_, exact'⟩ | ⟨_, _, exact_, exact', states⟩
  · simp only [r.gone, exact_, exact', abandon_congr r, activate_congr r]
    rfl
  · simp only [r.gone, exact_, exact', any_some, states.classification, abandon_congr r,
      activate_congr r]
    rfl

theorem rebootIntent_congr (b : Ticket.Builder) (newBoot : Bool) :
    rebootIntent (c.withView v r.sameBoot) b newBoot = rebootIntent c b newBoot := by
  unfold rebootIntent
  simp only [abandon_congr r]
  rfl

theorem abandonAgain_congr (b : Ticket.Builder) {s s' : Observation} (states : SameState s s') :
    abandonAgain (c.withView v r.sameBoot) b s = abandonAgain c b s' := by
  unfold abandonAgain
  simp only [states.classification, frameworkNow_congr r]
  rfl

theorem abandonIntent_congr (b : Ticket.Builder) (newBoot : Bool) :
    abandonIntent (c.withView v r.sameBoot) b newBoot = abandonIntent c b newBoot := by
  unfold abandonIntent
  rcases rel_cases r.exact with ⟨exact_, exact'⟩ | ⟨s, s', exact_, exact', states⟩
  · simp only [exact_, exact', filter_none, r.gone, withView_view, reply_any_congr r]
    rfl
  have same := states.later (c.ticket.last .abandon)
  cases after : later s' (c.ticket.last .abandon) with
  | true =>
    rw [after] at same
    simp only [withView_ticket, exact_, exact', filter_some, same, after, if_true,
      abandonAgain_congr r b states]
  | false =>
    rw [after] at same
    simp only [withView_ticket, withView_view, exact_, exact', filter_some, same, after,
      Bool.false_eq_true, if_false, r.gone, reply_any_congr r]

theorem bootSession_congr (b : Ticket.Builder) {active active' s s' : Observation}
    (actives : SameContent active active') (states : SameState s s') :
    bootSession (c.withView v r.sameBoot) b active s = bootSession c b active' s' := by
  unfold bootSession
  simp only [states.classification, bytes_congr r actives, cohortChanged_congr r, closeTo_congr r,
    abandon_congr r, withView_view, r.completedAt]
  rfl

theorem bootObserved_congr (b : Ticket.Builder) :
    bootObserved (c.withView v r.sameBoot) b = bootObserved c b := by
  unfold bootObserved
  have gone : goneNow (c.withView v r.sameBoot) = goneNow c := r.gone none
  rcases rel_cases r.active with ⟨active, active'⟩ | ⟨_, _, active, active', actives⟩
  · simp only [withView_view, active, active']
  rcases rel_cases r.factory with ⟨factory, factory'⟩ | ⟨_, _, factory, factory', _⟩
  · simp only [withView_view, active, active', factory, factory']
  rcases rel_cases r.exact with ⟨exact_, exact'⟩ | ⟨_, _, exact_, exact', states⟩
  · simp only [withView_view, active, active', factory, factory', exact_, exact', gone,
      bytes_congr r actives, cohortChanged_congr r, closeTo_congr r]
    rfl
  · simp only [withView_view, active, active', factory, factory', exact_, exact',
      bootSession_congr r b actives states]

theorem recordLost_congr (b : Ticket.Builder) :
    recordLost (c.withView v r.sameBoot) b = recordLost c b := by
  unfold recordLost
  rcases rel_cases r.active with ⟨active, active'⟩ | ⟨_, _, active, active', actives⟩
  · simp only [withView_view, active, active']
  rcases rel_cases r.factory with ⟨factory, factory'⟩ | ⟨_, _, factory, factory', _⟩
  · simp only [withView_view, active, active', factory, factory']
  · simp only [withView_view, active, active', factory, factory', bytes_congr r actives,
      cohortChanged_congr r, close_congr r, closeTo_congr r]
    rfl

theorem applied_congr (b : Ticket.Builder) : applied (c.withView v r.sameBoot) b = applied c b := by
  unfold applied
  simp only [move_congr r]
  rfl

theorem startWindow_congr (b : Ticket.Builder) :
    startWindow (c.withView v r.sameBoot) b = startWindow c b := by
  unfold startWindow
  simp only [move_congr r, r.users]
  rfl

theorem windowBoot_congr (now : Clock) (b : Ticket.Builder) :
    windowBoot (c.withView v r.sameBoot) now b = windowBoot c now b := by
  unfold windowBoot
  simp only [closeTo_congr r]
  rfl

theorem windowUsers_congr (now : Clock) (b : Ticket.Builder) :
    windowUsers (c.withView v r.sameBoot) now b = windowUsers c now b := by
  unfold windowUsers judge
  simp only [closeTo_congr r, r.users, r.judged]
  rfl

theorem window_congr (b : Ticket.Builder) : window (c.withView v r.sameBoot) b = window c b := by
  unfold window
  rcases rel_cases r.active with ⟨active, active'⟩ | ⟨_, _, active, active', actives⟩
  · simp only [withView_view, active, active', cohortChanged_congr r, closeTo_congr r,
      windowBoot_congr r, windowUsers_congr r]
    rfl
  · simp only [withView_view, active, active', any_some, actives.digest, bundleApk_congr r,
      cohortChanged_congr r, closeTo_congr r, windowBoot_congr r, windowUsers_congr r]
    rfl

/-! ## The step -/

theorem rule_congr (b : Ticket.Builder) (newBoot : Bool) :
    rule (c.withView v r.sameBoot) b newBoot = rule c b newBoot := by
  unfold rule authorizes
  simp only [close_congr r, signingNeeded_congr r, signNext_congr r, signing_congr r,
    published_congr r, publish_congr r, stage_congr r, sessionIntent_congr r, bound_congr r,
    commitIntent_congr r, ready_congr r, rebootIntent_congr r, abandonIntent_congr r,
    bootObserved_congr r, crossingAllowed_congr r, appliedFacts_congr r, applied_congr r,
    startWindow_congr r, window_congr r, cohortChanged_congr r, recordLost_congr r]
  rfl

theorem transition_congr (b : Ticket.Builder) (newBoot : Bool) :
    transition (c.withView v r.sameBoot) b newBoot = transition c b newBoot := by
  unfold transition ruleOwing owing
  simp only [rule_congr r, move_congr r]
  rfl

theorem bootObserved_view_congr : v.bootObserved = c.view.bootObserved := by
  unfold View.bootObserved
  rcases rel_cases r.boot with ⟨boot, boot'⟩ | ⟨_, _, boot, boot', _⟩
  · rw [boot, boot']
  · rw [boot, boot']
    rfl

/-- Two views with the same readings lead to the same step. -/
theorem step_congr : step (c.withView v r.sameBoot) = step c := by
  have observed := bootObserved_view_congr r
  have fresh : isNewBoot (c.withView v r.sameBoot) = isNewBoot c := by
    unfold isNewBoot
    rw [withView_view, observed]
    rfl
  have opened : opening (c.withView v r.sameBoot) = opening c := by
    unfold opening countsBoot seenBoot
    rw [fresh, observedCause_congr r, withView_view, observed]
    rfl
  have unseen : unobserved (c.withView v r.sameBoot) = unobserved c := by
    unfold unobserved
    rw [withView_view, observed]
    rfl
  unfold step
  simp only [unseen, unbound_congr r, opened, fresh, transition_congr r]
  rfl

end

end Andrix.Deployment
