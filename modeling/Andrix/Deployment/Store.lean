import Mathlib.Data.Char
import Mathlib.Data.List.Lex
import Mathlib.Data.List.Sort
import Andrix.Lib.Keyed
import Andrix.Deployment.TicketMachine

/-! The records that a deployment store holds, and its operations on them. Each
operation returns the store with its record written, or none where it refuses.
Equal bytes are equal values, so a record is compared as its value. -/
namespace Andrix.Deployment
open Andrix.Lib

deriving instance DecidableEq for Plan.Builder, Plan, Observation.Builder, Observation

/-- The stored records, by kind. -/
structure Store where
  installation : Text
  plans : List Plan
  authorizations : List Authorization
  tickets : List Ticket
  observations : List Observation
  selections : List Selection
  deriving DecidableEq

/-- Records in the order of their file names. -/
def byName {α : Type} (name : α → Text) (records : List α) : List α :=
  records.insertionSort (fun x y => name x ≤ name y)

theorem mem_byName {α : Type} {name : α → Text} {records : List α} {x : α} :
    x ∈ byName name records ↔ x ∈ records :=
  (List.perm_insertionSort _ records).mem_iff

/-- Writes a record once: a second write of the same value changes nothing, and
one of another value is refused. -/
def addOnce {α : Type} [DecidableEq α] (name : α → Text) (x : α) (records : List α) :
    Option (List α) :=
  match records.find? (fun y => name y = name x) with
  | none => some (records ++ [x])
  | some y => if y = x then some records else none

/-- A record added once is stored, and no other record changes. -/
theorem addOnce_eq_some {α : Type} [DecidableEq α] {name : α → Text} {x : α}
    {records after : List α} (added : addOnce name x records = some after) :
    (after = records ++ [x] ∧ ∀ y ∈ records, name y ≠ name x) ∨ (after = records ∧ x ∈ records) := by
  unfold addOnce at added
  split at added
  · rename_i absent
    left
    refine ⟨(Option.some.inj added).symm, ?_⟩
    intro y among
    simpa using List.find?_eq_none.mp absent y among
  · rename_i y present
    split at added
    · rename_i same
      subst same
      exact .inr ⟨(Option.some.inj added).symm, List.mem_of_find?_eq_some present⟩
    · cases added

namespace Store
variable (s : Store)

/-! ## Reads -/

def plan (id : Text) : Option Plan := s.plans.find? (fun p => p.planId = id)

def ticket (id : Text) : Option Ticket := s.tickets.find? (fun t => t.ticketId = id)

def selection (component : Text) : Option Selection :=
  s.selections.find? (fun c => c.component = component)

def authorizationsOf (planId : Text) : List Authorization :=
  (byName (·.authorizationId) s.authorizations).filter (fun a => a.planId = planId)

def ticketsOf (planId : Text) : List Ticket :=
  (byName (·.ticketId) s.tickets).filter (fun t => t.planId = planId)

/-! ## Writes -/

def addPlan (p : Plan) : Option Store :=
  if p.installation ≠ s.installation then none
  else (addOnce (·.planId) p s.plans).map (fun plans => { s with plans })

/-- Writes an authorization once, for a stored plan of the same component. -/
def addAuthorization (a : Authorization) : Option Store :=
  if (s.plan a.planId).all (fun p => p.component ≠ a.component) then none
  else if a.installation ≠ s.installation then none
  else (addOnce (·.authorizationId) a s.authorizations).map
    (fun authorizations => { s with authorizations })

def addObservation (o : Observation) : Option Store :=
  if o.installation ≠ s.installation then none
  else (addOnce (·.observationId) o s.observations).map (fun observations => { s with observations })

/-- The highest attempt among a plan's tickets, or 0. -/
def lastAttempt (planId : Text) : Int32 :=
  (s.ticketsOf planId).foldl (fun attempt t => max attempt t.attempt) 0

/-- Creates a ticket in PLANNED as the next attempt of its stored plan, when no
ticket of its component is open. -/
def createTicket (t : Ticket) : Option Store :=
  if t.installation ≠ s.installation ∨ t.state ≠ .planned ∨ t.ledger ≠ [] then none
  else if (s.plan t.planId).all (fun p => p.component ≠ t.component) then none
  else if s.tickets.any (fun u => u.component = t.component && !u.state.terminal) then none
  else if t.attempt ≠ s.lastAttempt t.planId + 1 then none
  else if (s.ticket t.ticketId).isSome then none
  else some { s with tickets := s.tickets ++ [t] }

/-- Replaces a ticket with a legal successor, when the stored value is exactly
the expected one. -/
def updateTicket (expected next : Ticket) : Option Store :=
  if expected.ticketId ≠ next.ticketId ∨ TicketMachine.check expected next ≠ .ok () then none
  else if s.ticket expected.ticketId ≠ some expected then none
  else some { s with tickets := replace (·.ticketId) next s.tickets }

def sameChoice (x y : Selection) : Bool :=
  x.choice = y.choice && x.planId = y.planId && x.responsibility = y.responsibility &&
    x.rebuildWindowMillis = y.rebuildWindowMillis

/-- A temporary plan is stored, of the selection's component, and stands in for
the chosen plan. -/
def standsIn (next : Selection) : Bool :=
  (s.plan next.temporary).any (fun p => p.component = next.component &&
    p.target = .temporaryFactory && p.repairs = next.planId)

/-- What a selection must be to follow a stored one: the same choice at the same
revision, or another choice of a stored plan at the next. -/
def follows (expected next : Selection) : Bool :=
  next.installation = s.installation && expected.component = next.component &&
    expected.installation = next.installation &&
    (next.temporary = noId || s.standsIn next) &&
    if next.revision = expected.revision then
      sameChoice expected next && expected.changedAt = next.changedAt
    else next.revision = expected.revision + 1 && !sameChoice expected next &&
      (next.choice ≠ .plan || (s.plan next.planId).any (fun p => p.component = next.component))

/-- Writes a component's selection: the first one, at revision 0 and unchecked,
or one that follows the stored value, which must be exactly the expected one. -/
def putSelection (expected : Option Selection) (next : Selection) : Option Store :=
  match expected with
  | none =>
    if next.installation ≠ s.installation ∨ next.revision ≠ 0 ∨ next.realization ≠ .unchecked ∨
        (s.selection next.component).isSome then none
    else some { s with selections := s.selections ++ [next] }
  | some expected =>
    if !s.follows expected next ∨ s.selection next.component ≠ some expected then none
    else some { s with selections := replace (·.component) next s.selections }

/-- A record that is written once is new, or the store stays as it is. -/
theorem once_inv {α : Type} [DecidableEq α] {name : α → Text} {x : α} {records : List α}
    {put : List α → Store} {s' : Store} {refused : Prop} [Decidable refused]
    (added : (if refused then none else (addOnce name x records).map put) = some s') :
    (s' = put (records ++ [x]) ∧ ∀ y ∈ records, name y ≠ name x) ∨ s' = put records ∧ x ∈ records := by
  obtain ⟨_, written⟩ := Option.ite_none_left_eq_some.mp added
  obtain ⟨after, once, rfl⟩ := Option.map_eq_some_iff.mp written
  rcases addOnce_eq_some once with ⟨rfl, new⟩ | ⟨rfl, stored⟩
  · exact .inl ⟨rfl, new⟩
  · exact .inr ⟨rfl, stored⟩

end Store
end Andrix.Deployment
