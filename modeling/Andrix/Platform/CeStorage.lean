import Andrix.Lib.Keyed

/-! The tracker of credential encrypted storage in the system server. It watches
the key operations of others: a caller begins an operation, makes its downcall
and completes the operation with what the downcall said. Four counters and the
operations' own copies of them decide whether a success may still be published
as availability. -/
namespace Andrix.Platform

def longMax : Nat := 9223372036854775807

def intMax : Nat := 2147483647

structure Snapshot where
  userId : Int
  sequence : Nat
  revocation : Nat
  available : Bool
  deriving DecidableEq

inductive Kind where
  | available | revoke | restore | reset
  deriving DecidableEq

/-- A single use downcall token, with what the tracker was when it was made. -/
structure Operation (α : Type) where
  daemon : Option α
  backend : Nat
  revision : Nat
  userId : Int
  kind : Kind
  eligible : Bool
  counted : Bool
  resetCandidates : List Int := []
  completed : Bool := false
  deriving DecidableEq

structure User where
  state : Snapshot
  listeners : List Nat := []
  deriving DecidableEq

def User.id (u : User) : Int := u.state.userId

structure Delivery where
  state : Snapshot
  listeners : List Nat
  deriving DecidableEq

structure Tracker (α : Type) where
  users : List User := []
  daemon : Option α := none
  backend : Nat
  revision : Nat
  sequence : Nat
  pendingRevocations : Nat := 0
  exhausted : Bool := false
  /-- The tokens made so far; the callers hold their numbers. -/
  operations : List (Operation α) := []
  deriving DecidableEq

namespace Tracker
variable {α : Type} [DecidableEq α]

def create (α : Type) (seed : Nat) : Option (Tracker α) :=
  if seed = 0 ∨ longMax ≤ seed then none
  else some { backend := seed, revision := seed, sequence := seed }

def find (s : Tracker α) (id : Int) : Option User := s.users.find? (fun u => u.id = id)

def available (s : Tracker α) (id : Int) : Bool := (s.find id).any (·.state.available)

/-- The user's entry, made when it is missing. Callers have refused a negative
id. -/
def user (s : Tracker α) (id : Int) : User × Tracker α :=
  match s.find id with
  | some u => (u, s)
  | none =>
    let u : User := { state := ⟨id, s.sequence, s.revision, false⟩ }
    (u, { s with users := s.users ++ [u] })

def exhaust (s : Tracker α) : Tracker α :=
  { s with
    exhausted := true, sequence := longMax, revision := longMax, backend := longMax, daemon := none
    pendingRevocations := 0 }

/-- `longMax` is kept for the terminal invalidation. -/
def advance (s : Tracker α) : Bool × Tracker α :=
  if s.exhausted then (false, s)
  else if longMax - 1 ≤ s.sequence ∨ longMax - 1 ≤ s.revision ∨ longMax - 1 ≤ s.backend then
    (false, s.exhaust)
  else (true, { s with sequence := s.sequence + 1 })

/-- `if (advance()) ++revision`. -/
def revise (s : Tracker α) : Tracker α :=
  if s.advance.1 then { s.advance.2 with revision := s.advance.2.revision + 1 } else s.advance.2

def publish (s : Tracker α) (id : Int) (available revoke : Bool) : Delivery × Tracker α :=
  let (u, s) := s.user id
  let u' : User :=
    { u with
      state :=
        ⟨id, s.sequence, if revoke || s.exhausted then s.revision else u.state.revocation,
          available && !s.exhausted⟩ }
  (⟨u'.state, u'.listeners⟩, { s with users := Lib.replace User.id u' s.users })

def allUnavailable (s : Tracker α) : List Delivery × Tracker α :=
  (s.users.map User.id).foldl (fun (events, s) id =>
    let (delivery, s) := s.publish id false true
    (events ++ [delivery], s)) ([], s)

def invalidateAll (s : Tracker α) : List Delivery × Tracker α := s.revise.allUnavailable

/-- Called under the tracker lock after every potentially exhausting step. -/
def finishEvents (events : List Delivery) (s : Tracker α) : List Delivery × Tracker α :=
  if s.exhausted then s.allUnavailable else (events, s)

inductive Outcome where
  | returned
  | token (n : Nat)
  | snapshot (state : Snapshot)
  | thrown
  deriving DecidableEq

/-- What a call gave back and what it published under the lock. The listeners
are told after the lock is released, unless the call throws. -/
structure Answer where
  outcome : Outcome
  events : List Delivery := []
  deriving DecidableEq

/-- The tracker with other listeners of a user. -/
def relisten (s : Tracker α) (u : User) (listeners : List Nat) : Tracker α :=
  { s with users := Lib.replace User.id { u with listeners } s.users }

def register (s : Tracker α) (id : Int) (listener : Nat) : Answer × Tracker α :=
  if id < 0 then (⟨.thrown, []⟩, s)
  else
    let (u, s) := s.user id
    if listener ∈ u.listeners then (⟨.thrown, []⟩, s)
    else (⟨.snapshot u.state, []⟩, s.relisten u (u.listeners ++ [listener]))

def unregister (s : Tracker α) (id : Int) (listener : Nat) : Answer × Tracker α :=
  match s.find id with
  | none => (⟨.returned, []⟩, s)
  | some u => (⟨.returned, []⟩, s.relisten u (u.listeners.filter (· ≠ listener)))

/-- New vold binding, before restoration and downcalls. Revocations in flight
keep fencing. -/
def connected (s : Tracker α) (identity : α) : Answer × Tracker α :=
  if s.daemon = some identity then (⟨.returned, []⟩, s)
  else
    let (events, s) := s.invalidateAll
    let s := if !s.exhausted then { s with backend := s.backend + 1, daemon := some identity } else s
    let (events, s) := finishEvents events s
    (⟨.returned, events⟩, s)

/-- The death of an old daemon cannot invalidate a replacement binding. -/
def died (s : Tracker α) (identity : Option α) : Answer × Tracker α :=
  if s.daemon = none ∨ s.daemon ≠ identity then (⟨.returned, []⟩, s)
  else
    let (events, s) := s.invalidateAll
    let s := if !s.exhausted then { s with backend := s.backend + 1 } else s
    let (events, s) := finishEvents events { s with daemon := none }
    (⟨.returned, events⟩, s)

def isBound (s : Tracker α) (identity : Option α) : Bool :=
  !s.exhausted && s.daemon.isSome && s.daemon = identity

/-- A token that captures the tracker as it is. -/
def operation (s : Tracker α) (userId : Int) (kind : Kind) (eligible counted : Bool)
    (resetCandidates : List Int) : Operation α :=
  ⟨s.daemon, s.backend, s.revision, userId, kind, eligible, counted, resetCandidates, false⟩

def issue (s : Tracker α) (op : Operation α) : Nat × Tracker α :=
  (s.operations.length, { s with operations := s.operations ++ [op] })

/-- Counts an operation in flight, or exhausts the tracker. -/
def count (s : Tracker α) (counted : Bool) : Bool × Tracker α :=
  if !counted then (false, s)
  else if s.pendingRevocations = intMax then (false, s.exhaust)
  else (true, { s with pendingRevocations := s.pendingRevocations + 1 })

/-- Also counted when the captured binder is null or stale: key methods can see
the binder before it is published. -/
def beginRevocation (s : Tracker α) (id : Int) (_identity : Option α) : Answer × Tracker α :=
  if id < 0 then (⟨.thrown, []⟩, s)
  else
    let s := (s.user id).2.revise
    let (delivery, s) := s.publish id false true
    let (counted, s) := s.count (!s.exhausted)
    let (n, s) := s.issue (s.operation id .revoke false counted [])
    let (events, s) := finishEvents [delivery] s
    (⟨.token n, events⟩, s)

def beginAvailable (s : Tracker α) (id : Int) (identity : Option α) : Answer × Tracker α :=
  if id < 0 then (⟨.thrown, []⟩, s)
  else
    let s := (s.user id).2
    let eligible := s.isBound identity && s.pendingRevocations = 0
    let (n, s) := s.issue (s.operation id .available eligible false [])
    (⟨.token n, []⟩, s)

def beginRestore (s : Tracker α) (identity : Option α) : Answer × Tracker α :=
  let eligible := s.isBound identity && s.pendingRevocations = 0
  let (n, s) := s.issue (s.operation (-1) .restore eligible false [])
  (⟨.token n, []⟩, s)

/-- A reset may only preserve availability that was verified before it. -/
def beginReset (s : Tracker α) (identity : Option α) : Answer × Tracker α :=
  let verified := (s.users.filter (·.state.available)).map User.id
  let (events, s) := s.invalidateAll
  let eligible := s.isBound identity && s.pendingRevocations = 0
  let (counted, s) := s.count (s.isBound identity)
  let (n, s) := s.issue (s.operation (-1) .reset eligible counted verified)
  let (events, s) := finishEvents events s
  (⟨.token n, events⟩, s)

/-- The loop over the platform's unlocked users: whether it threw, what it
published, and the tracker. -/
def publishAll (op : Operation α) : List Int → Tracker α → Bool × List Delivery × Tracker α
  | [], s => (false, [], s)
  | id :: ids, s =>
    if op.kind = .reset ∧ id ∉ op.resetCandidates then publishAll op ids s
    else
      let s := s.advance.2
      -- user() refuses a negative id.
      if id < 0 then (true, [], s)
      else
        let (delivery, s) := s.publish id true false
        let (threw, events, s) := publishAll op ids s
        (threw, delivery :: events, s)

/-- The token's binding is the current one. -/
def sameBackend (s : Tracker α) (op : Operation α) : Bool :=
  op.backend = s.backend && op.daemon = s.daemon

/-- The tracker once a token is used up, with its count drained. -/
def consume (s : Tracker α) (n : Nat) (op : Operation α) : Tracker α :=
  { s with
    operations := s.operations.set n { op with completed := true }
    pendingRevocations :=
      if op.counted ∧ 0 < s.pendingRevocations then s.pendingRevocations - 1
      else s.pendingRevocations }

/-- What a completion does for an unused token. -/
def settle (s : Tracker α) (n : Nat) (op : Operation α) (success : Bool) (unlockedUsers : List Int) :
    Answer × Tracker α :=
  let same := s.sameBackend op
  let s := s.consume n op
  if op.kind = .revoke then (⟨.returned, []⟩, s)
  else if !same || s.exhausted then (⟨.returned, []⟩, s)
  else if !success then
    if op.kind = .available then
      let (delivery, s) := s.revise.publish op.userId false true
      let (events, s) := finishEvents [delivery] s
      (⟨.returned, events⟩, s)
    else
      let (events, s) := s.invalidateAll
      let (events, s) := finishEvents events s
      (⟨.returned, events⟩, s)
  else if op.eligible ∧ op.revision = s.revision ∧ s.pendingRevocations = 0 then
    if op.kind = .available then
      let (delivery, s) := s.advance.2.publish op.userId true false
      let (events, s) := finishEvents [delivery] s
      (⟨.returned, events⟩, s)
    else
      match publishAll op unlockedUsers s with
      | (true, events, s) => (⟨.thrown, events⟩, s)
      | (false, events, s) =>
        let (events, s) := finishEvents events s
        (⟨.returned, events⟩, s)
  else
    let (events, s) := finishEvents [] s
    (⟨.returned, events⟩, s)

def completeInternal (s : Tracker α) (n : Nat) (success : Bool) (unlockedUsers : List Int) :
    Answer × Tracker α :=
  match s.operations[n]? with
  | none => (⟨.returned, []⟩, s)
  | some op =>
    if op.completed then (⟨.returned, []⟩, s) else s.settle n op success unlockedUsers

/-- A caller's token: null, of another tracker, or the `n`th of this one. -/
inductive Token where
  | null
  | foreign (kind : Kind)
  | own (n : Nat)
  deriving DecidableEq

def Token.kind (s : Tracker α) : Token → Option Kind
  | .null => none
  | .foreign kind => some kind
  | .own n => (s.operations[n]?).map Operation.kind

def Kind.bulk : Kind → Bool
  | .reset | .restore => true
  | .available | .revoke => false

/-- Finishes operations of a single user. -/
def complete (s : Tracker α) (token : Token) (success : Bool) : Answer × Tracker α :=
  if (token.kind s).any Kind.bulk then (⟨.thrown, []⟩, s)
  else match token with
    | .own n => s.completeInternal n success []
    | _ => (⟨.returned, []⟩, s)

def completeBulk (s : Tracker α) (token : Token) (success : Bool) (unlockedUsers : List Int) :
    Answer × Tracker α :=
  if (token.kind s).any (fun kind => !Kind.bulk kind) then (⟨.thrown, []⟩, s)
  else match token with
    | .own n => s.completeInternal n success unlockedUsers
    | _ => (⟨.returned, []⟩, s)

/-! ## Runs -/

inductive Call (α : Type) where
  | register (id : Int) (listener : Nat)
  | unregister (id : Int) (listener : Nat)
  | connected (identity : α)
  | died (identity : Option α)
  | beginRevocation (id : Int) (identity : Option α)
  | beginAvailable (id : Int) (identity : Option α)
  | beginRestore (identity : Option α)
  | beginReset (identity : Option α)
  | complete (token : Token) (success : Bool)
  | completeBulk (token : Token) (success : Bool) (unlockedUsers : List Int)
  deriving DecidableEq

def call (s : Tracker α) : Call α → Answer × Tracker α
  | .register id listener => s.register id listener
  | .unregister id listener => s.unregister id listener
  | .connected identity => s.connected identity
  | .died identity => s.died identity
  | .beginRevocation id identity => s.beginRevocation id identity
  | .beginAvailable id identity => s.beginAvailable id identity
  | .beginRestore identity => s.beginRestore identity
  | .beginReset identity => s.beginReset identity
  | .complete token success => s.complete token success
  | .completeBulk token success unlockedUsers => s.completeBulk token success unlockedUsers

end Tracker
end Andrix.Platform
