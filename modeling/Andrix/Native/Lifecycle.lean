import Andrix.Lib.Steps

/-! The lifecycle gate of the native coordinator. A registration is pending until
a query that was issued to the trusted observer is answered, and its lease runs
from the time the query was issued. Times are 64 bit words and are not assumed
to grow: a clock that runs backwards revokes the registration. -/
namespace Andrix.Native

def kLifecycleLeaseMillis : UInt64 := 2000

def kLifecycleQueryMillis : UInt64 := 1000

/-- The largest generation and query number: the largest signed 64 bit value. -/
def kMaxToken : UInt64 := 9223372036854775807

/-- The last time at which a lease can start without wrapping. -/
def kLastIssue : UInt64 := 18446744073709551615 - kLifecycleLeaseMillis

inductive Registration
  | absent
  | pending
  | ready
  deriving DecidableEq, Repr

structure LifecycleGate where
  generation : UInt64
  observed : UInt64 := 0
  deadline : UInt64 := 0
  querySequence : UInt64
  query : UInt64 := 0
  issued : UInt64 := 0
  state : Registration := .absent
  deriving DecidableEq, Repr

namespace LifecycleGate

def revoke (g : LifecycleGate) : LifecycleGate :=
  { g with state := .absent, deadline := 0, query := 0, issued := 0 }

def advance (g : LifecycleGate) (now : UInt64) : LifecycleGate × Bool :=
  if now < g.observed then (g.revoke, false) else ({ g with observed := now }, true)

def begin (g : LifecycleGate) (now : UInt64) : LifecycleGate × UInt64 :=
  let (g, advanced) := g.revoke.advance now
  if !advanced || g.generation ≥ kMaxToken || now > kLastIssue then (g, 0)
  else
    ({ g with
        generation := g.generation + 1
        state := .pending
        deadline := now + kLifecycleLeaseMillis }, g.generation + 1)

def valid (g : LifecycleGate) (now : UInt64) : LifecycleGate × Bool :=
  let (g, advanced) := g.advance now
  if !advanced then (g, false)
  else
    let g := if g.state ≠ .absent ∧ now ≥ g.deadline then g.revoke else g
    let g := if g.query ≠ 0 ∧ now - g.issued ≥ kLifecycleQueryMillis then g.revoke else g
    (g, g.state ≠ .absent)

def ready (g : LifecycleGate) (now : UInt64) : LifecycleGate × Bool :=
  let (g, valid) := g.valid now
  (g, valid && g.state = .ready)

def readyUntil (g : LifecycleGate) (now : UInt64) : LifecycleGate × UInt64 :=
  let (g, ready) := g.ready now
  if !ready then (g, 0)
  else
    let pending := g.issued + kLifecycleQueryMillis
    (g, if g.query ≠ 0 ∧ pending < g.deadline then pending else g.deadline)

def beginQuery (g : LifecycleGate) (generation now : UInt64) : LifecycleGate × UInt64 :=
  let (g, valid) := g.valid now
  if !valid || generation = 0 || generation ≠ g.generation || g.query ≠ 0 then (g, 0)
  else if g.querySequence ≥ kMaxToken || now > kLastIssue then (g.revoke, 0)
  else
    -- The deadline and the state of the registration stay as they are.
    ({ g with
        querySequence := g.querySequence + 1
        query := g.querySequence + 1
        issued := now }, g.querySequence + 1)

/-- Whether a report answers the outstanding query of the registration. -/
def matching (g : LifecycleGate) (generation challenge now : UInt64) : Bool :=
  let (g, valid) := g.valid now
  valid && generation ≠ 0 && generation = g.generation && challenge ≠ 0 && challenge = g.query

def report (g : LifecycleGate) (generation challenge now : UInt64) (running unlocked : Bool) :
    LifecycleGate × Bool :=
  let matched := g.matching generation challenge now
  let (g, _) := g.valid now
  if !matched then (g, false)
  else
    let issued := g.issued
    -- The query is consumed, also when the reported state is invalid.
    let g := { g with query := 0, issued := 0 }
    if !running || !unlocked then (g.revoke, false)
    else ({ g with deadline := issued + kLifecycleLeaseMillis, state := .ready }, true)

def release (g : LifecycleGate) (generation : UInt64) : LifecycleGate × Bool :=
  if generation = 0 || generation ≠ g.generation then (g, false) else (g.revoke, true)

end LifecycleGate

/-! ## Calls and what they did -/

inductive LifecycleCall
  | begin (now : UInt64)
  | beginQuery (generation now : UInt64)
  | report (generation challenge now : UInt64) (running unlocked : Bool)
  | valid (now : UInt64)
  | ready (now : UInt64)
  | readyUntil (now : UInt64)
  | release (generation : UInt64)
  | revoke
  deriving DecidableEq, Repr

def LifecycleCall.time : LifecycleCall → Option UInt64
  | .begin now | .beginQuery _ now | .report _ _ now _ _ | .valid now | .ready now
  | .readyUntil now => some now
  | .release _ | .revoke => none

def LifecycleGate.perform (g : LifecycleGate) : LifecycleCall → LifecycleGate
  | .begin now => (g.begin now).1
  | .beginQuery generation now => (g.beginQuery generation now).1
  | .report generation challenge now running unlocked =>
    (g.report generation challenge now running unlocked).1
  | .valid now => (g.valid now).1
  | .ready now => (g.ready now).1
  | .readyUntil now => (g.readyUntil now).1
  | .release generation => (g.release generation).1
  | .revoke => g.revoke

def LifecycleGate.run (g : LifecycleGate) (calls : List LifecycleCall) : LifecycleGate :=
  calls.foldl LifecycleGate.perform g

structure LifecycleEvent where
  gate : LifecycleGate
  call : LifecycleCall

def LifecycleGate.trace (g : LifecycleGate) : List LifecycleCall → List LifecycleEvent
  | [] => []
  | call :: calls => ⟨g, call⟩ :: (g.perform call).trace calls

namespace LifecycleEvent

def time (e : LifecycleEvent) : Option UInt64 := e.call.time

def registered (e : LifecycleEvent) : Option UInt64 :=
  match e.call with
  | .begin now => some (e.gate.begin now).2 |>.filter (· ≠ 0)
  | _ => none

/-- A query: the generation it is about, its number and when it was issued. -/
structure Query where
  generation : UInt64
  number : UInt64
  issued : UInt64
  deriving DecidableEq

def asked (e : LifecycleEvent) : Option Query :=
  match e.call with
  | .beginQuery generation now =>
    some ⟨generation, (e.gate.beginQuery generation now).2, now⟩ |>.filter (·.number ≠ 0)
  | _ => none

/-- An answer: to which query of which generation, when, and what it reported. -/
structure Answer where
  generation : UInt64
  number : UInt64
  received : UInt64
  running : Bool
  unlocked : Bool
  deriving DecidableEq

def answered (e : LifecycleEvent) : Option Answer :=
  match e.call with
  | .report generation challenge now running unlocked =>
    if e.gate.matching generation challenge now then
      some ⟨generation, challenge, now, running, unlocked⟩
    else none
  | _ => none

def answers (e : LifecycleEvent) (number : UInt64) : Prop :=
  ∃ answer, e.answered = some answer ∧ answer.number = number

/-- Whether the call ends the registration by what it says: a new registration, a
release of this one, a negative answer or a revocation. -/
def ends (e : LifecycleEvent) : Bool :=
  match e.call with
  | .begin _ | .revoke => true
  | .release generation => generation ≠ 0 && generation = e.gate.generation
  | .report _ _ _ _ _ => e.answered.any fun answer => !(answer.running && answer.unlocked)
  | _ => false

end LifecycleEvent

/-- The additions that a call computes. -/
def LifecycleGate.sums (g : LifecycleGate) : LifecycleCall → List (UInt64 × UInt64)
  | .begin now =>
    let (g, advanced) := g.revoke.advance now
    if !advanced || g.generation ≥ kMaxToken || now > kLastIssue then []
    else [(g.generation, 1), (now, kLifecycleLeaseMillis)]
  | .beginQuery generation now =>
    let (g, valid) := g.valid now
    if !valid || generation = 0 || generation ≠ g.generation || g.query ≠ 0 ||
      g.querySequence ≥ kMaxToken || now > kLastIssue then []
    else [(g.querySequence, 1)]
  | .report generation challenge now running unlocked =>
    if g.matching generation challenge now && running && unlocked then
      [((g.valid now).1.issued, kLifecycleLeaseMillis)]
    else []
  | .readyUntil now =>
    let (g, ready) := g.ready now
    if ready then [(g.issued, kLifecycleQueryMillis)] else []
  | .valid _ | .ready _ | .release _ | .revoke => []

/-- The differences that a call computes: how long the outstanding query has been
waiting, in every call that reads the clock through `valid`. -/
def LifecycleGate.differences (g : LifecycleGate) : LifecycleCall → List (UInt64 × UInt64)
  | .beginQuery _ now | .report _ _ now _ _ | .valid now | .ready now | .readyUntil now =>
    let (g, advanced) := g.advance now
    let g := if g.state ≠ .absent ∧ now ≥ g.deadline then g.revoke else g
    if advanced ∧ g.query ≠ 0 then [(now, g.issued)] else []
  | .begin _ | .release _ | .revoke => []

end Andrix.Native
