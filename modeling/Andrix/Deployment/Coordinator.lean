import Andrix.Deployment.Store
import Andrix.Deployment.Reachable

/-! The host coordinator of one component's tickets. A round observes, records
every new fact, runs the cohort check, steps, writes the step's selection and
then the stepped ticket, and only then issues the step's crossing. Whatever it
does to the world is a list of actions in that order. A coordinator that is lost
has taken the first of them and no more. -/
namespace Andrix.Deployment
open Andrix.Lib

/-! ## Recording -/

/-- Facts about the same thing: the same kind, boot, framework instance, route,
component, user and request, PUBLISH attempt or ledger entry, and for a session
its ID. -/
def sameSubject (a b : Observation) : Bool :=
  a.kind = b.kind && a.boot = b.boot && a.instanceId = b.instanceId && a.route = b.route &&
    a.component = b.component && a.user = b.user && a.serial = b.serial && a.subject = b.subject &&
    a.sequence = b.sequence && a.crossing = b.crossing &&
    (a.kind ≠ .session || a.reference.sessionId = b.reference.sessionId)

def identical (a b : Observation) : Bool :=
  a.classification = b.classification && a.text = b.text && a.digest = b.digest &&
    a.version = b.version && a.number = b.number && a.reference = b.reference && a.plan = b.plan &&
    a.bundleApk = b.bundleApk && a.restorationApk = b.restorationApk

/-- One turn of the loop of `repeats`: the largest time so far, and whether every
fact of that time is identical to the new one. -/
def compareLatest (o : Observation) (seen : Int64 × Bool) (old : Observation) : Int64 × Bool :=
  if !sameSubject old o then seen
  else if seen.1 < old.elapsed then (old.elapsed, identical old o)
  else if old.elapsed = seen.1 then (seen.1, seen.2 && identical old o)
  else seen

/-- Whether a fact adds nothing to the recorded ones: it is identical to the
latest about the same thing. Signer and bundle facts are decided by precedence,
so any identical fact settles them. Users and health are judged by time, so they
are always recorded. -/
def repeats (observations : List Observation) (o : Observation) : Bool :=
  if o.kind = .user ∨ o.kind = .health then false
  else if o.kind = .signer ∨ o.kind = .bundle then
    observations.any (fun old => sameSubject old o && identical old o)
  else (observations.foldl (compareLatest o) (-1, false)).2

/-- The facts that `record` writes of the facts seen, in order. -/
def record (observations : List Observation) : List Observation → List Observation
  | [] => []
  | o :: rest =>
    if repeats observations o then record observations rest
    else o :: record (observations ++ [o]) rest

/-! ## Actions -/

/-- What a coordinator does to the world. -/
inductive Action where
  | observe (o : Observation)
  | select (expected next : Selection)
  | update (expected next : Ticket)
  | cross (ticket : Ticket) (entry : Entry)

/-- The store after an action, or none where the store refuses it. -/
def Action.apply (store : Store) : Action → Option Store
  | .observe o => store.addObservation o
  | .select expected next => store.putSelection (some expected) next
  | .update expected next => store.updateTicket expected next
  | .cross _ _ => some store

def perform (store : Store) (actions : List Action) : Option Store := actions.foldlM Action.apply store

/-! ## Rounds -/

/-- A coordinator: what it was made with, what the owner told it, and the facts
it holds once it has read them. -/
structure Coordinator where
  trustPolicy : Text
  targetHeld : Bool
  rebootRequested : Bool
  observations : Option (List Observation)

/-- The facts a coordinator decides by: those it holds, or for a new one all that
the store lists. -/
def Store.known (store : Store) (held : Option (List Observation)) : List Observation :=
  held.getD (byName (·.observationId) store.observations)

def Coordinator.known (c : Coordinator) (store : Store) : List Observation :=
  store.known c.observations

/-- What one round reads: the device's present, the facts of the device and the
host, a fresh ID, and the reply to its crossing unless it is lost. -/
structure Round where
  clock : Option Clock
  device : List Observation
  host : List Observation
  freshId : Text
  reply : Option Observation

def Round.boot (r : Round) : Text := (r.clock.map (·.boot)).getD noId

def Store.opened (store : Store) (component : Text) : Option (Ticket × Option Plan) :=
  ((byName (·.ticketId) store.tickets).filter
    (fun t => t.component = component && !t.state.terminal)).getLast?.map
      (fun t => (t, store.plan t.planId))

/-- The component's selection after this boot's cohort check. None where the
coordinator throws. An open ticket whose plan cannot be read leaves the
realization as it stands. -/
def checkedSelection (store : Store) (current : Selection) (view : View) : Option Selection :=
  let chosen := if current.choice = .plan then store.plan current.planId else none
  let temporary := if current.temporary = noId then none else store.plan current.temporary
  match store.opened current.component with
  | none => (cohortCheck current chosen temporary view none).toOption
  | some (_, none) => some current
  | some (t, some p) => (cohortCheck current chosen temporary view (some (t, p))).toOption

/-- The write of a selection, unless it is the stored one. -/
def selects (current next : Selection) : List Action :=
  if next = current then [] else [.select current next]

/-- Authorized plans that name this plan as the one they repair. -/
def Store.repairsOf (store : Store) (plan : Plan) : List Plan :=
  (byName (·.planId) store.plans).filter (fun other =>
    other.repairs = plan.planId && !(store.authorizationsOf other.planId).isEmpty)

def Store.repairedBy (store : Store) (plan : Plan) : Option Plan :=
  if plan.repairs = noId then none else store.plan plan.repairs

theorem Store.plan_some {store : Store} {id : Text} {p : Plan} (found : store.plan id = some p) :
    p ∈ store.plans ∧ p.planId = id := by
  have named := List.find?_some found
  exact ⟨List.mem_of_find?_eq_some found, by simpa using named⟩

theorem Store.ticket_some {store : Store} {id : Text} {t : Ticket}
    (found : store.ticket id = some t) : t ∈ store.tickets ∧ t.ticketId = id := by
  have named := List.find?_some found
  exact ⟨List.mem_of_find?_eq_some found, by simpa using named⟩

theorem Store.selection_some {store : Store} {component : Text} {s : Selection}
    (found : store.selection component = some s) : s ∈ store.selections ∧ s.component = component := by
  have named := List.find?_some found
  exact ⟨List.mem_of_find?_eq_some found, by simpa using named⟩

/-- What the step of a round reads. -/
def Coordinator.context (c : Coordinator) (store : Store) (r : Round) (ticket : Ticket) (plan : Plan)
    (ofPlan : ticket.planId = plan.planId) (selection : Selection) (facts : List Observation) :
    Context where
  plan := plan
  ticket := ticket
  authorizations := store.authorizationsOf plan.planId
  planTickets := store.ticketsOf plan.planId
  selection := selection
  trustPolicy := c.trustPolicy
  targetHeld := c.targetHeld
  repairs := store.repairsOf plan
  repaired := store.repairedBy plan
  view := View.ofFacts r.boot plan.component facts
  now := r.clock
  rebootRequested := c.rebootRequested
  freshId := r.freshId
  ofPlan := ofPlan
  sameBoot clock found := by simp [View.ofFacts, Round.boot, Option.mem_def.mp found]
  repairedPlan p found := by
    unfold Store.repairedBy at found
    split at found
    · cases found
    · exact (Store.plan_some found).2

/-- The actions of a step: the selection first, then the ticket, and the crossing
with its reply only after both. -/
def stepActions (r : Round) (c : Context) (s : Step) : List Action :=
  (match s.selection with
    | none => []
    | some next => selects c.selection next) ++
  (if s.ticket = c.ticket then [] else [Action.update c.ticket s.ticket]) ++
  (match s.issue with
    | none => []
    | some entry => .cross s.ticket entry :: (if entry.crossing = .handover then [] else
        (r.reply.map Action.observe).toList))

/-- What a round on a ticket records of what it reads. A terminal ticket reads
nothing from the host. -/
def Coordinator.recorded (c : Coordinator) (store : Store) (r : Round) (ticket : Ticket) :
    List Observation :=
  record (c.known store)
    ((if r.clock.isSome then r.device else []) ++ (if ticket.state.terminal then [] else r.host))

/-- The actions of one round for one ticket, up to where it ends or throws. -/
def Coordinator.round (c : Coordinator) (store : Store) (r : Round) (ticketId : Text) : List Action :=
  match store.ticket ticketId with
  | none => []
  | some ticket =>
    match store.plan ticket.planId with
    | none => []
    | some plan =>
      let new := c.recorded store r ticket
      let facts := c.known store ++ new
      new.map .observe ++
      match store.selection plan.component with
      | none => []
      | some current =>
        match checkedSelection store current (View.ofFacts r.boot plan.component facts) with
        | none => []
        | some selection =>
          selects current selection ++
          if ticket.state.terminal then []
          else if ofPlan : ticket.planId = plan.planId then
            let context := c.context store r ticket plan ofPlan selection facts
            match step context with
            | .error _ => []
            | .ok s => stepActions r context s
          else []

/-- The actions of the cohort check of one component, with no ticket. -/
def Coordinator.check (c : Coordinator) (store : Store) (r : Round) (component : Text) :
    List Action :=
  match r.clock with
  | none => []
  | some clock =>
    let new := record (c.known store) r.device
    new.map .observe ++
    match store.selection component with
    | none => []
    | some current =>
      match checkedSelection store current
          (View.ofFacts clock.boot component (c.known store ++ new)) with
      | none => []
      | some selection => selects current selection

end Andrix.Deployment
