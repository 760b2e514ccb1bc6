import Andrix.Platform.CeStorage

/-! The owner's lifecycle and the one slot of kept work. The lifecycle joins the
user's callbacks with the storage snapshots into a generation that never spans a
revocation; a keep record is granted in one generation and retired when it ends. -/
namespace Andrix.Platform

/-- What the platform shows: a generation, and whether work may run in it. -/
structure PlatformState where
  generation : Nat
  available : Bool
  deriving DecidableEq

structure OwnerLifecycleState where
  generation : Nat := 1
  userRevision : Nat := 0
  ceSequence : Int := -1
  ceRevocation : Int := -1
  userReady : Bool := false
  ceReady : Bool := false
  failed : Bool := false
  deriving DecidableEq

namespace OwnerLifecycleState

def fail (l : OwnerLifecycleState) : OwnerLifecycleState :=
  { l with failed := true, generation := longMax, userReady := false, ceReady := false }

def revoke (l : OwnerLifecycleState) : OwnerLifecycleState :=
  if longMax - 1 ≤ l.generation then l.fail else { l with generation := l.generation + 1 }

def bootstrapUser (l : OwnerLifecycleState) (expected : Nat) (ready : Bool) : OwnerLifecycleState :=
  if expected = l.userRevision ∧ l.failed = false then { l with userReady := ready } else l

/-- Lifecycle callbacks, not screen focus or relock, drive this value. -/
def user (l : OwnerLifecycleState) (ready : Bool) : OwnerLifecycleState :=
  if l.failed then l
  else if l.userRevision = longMax then l.fail
  else
    let l := { l with userRevision := l.userRevision + 1 }
    let l := if !ready then l.revoke else l
    { l with userReady := ready }

/-- A snapshot of the storage tracker. -/
def ce (l : OwnerLifecycleState) (sequence revocation : Int) (available : Bool) : OwnerLifecycleState :=
  if l.failed then l
  else if sequence ≤ 0 ∨ revocation ≤ 0 then l.fail
  -- Includes a delayed initial snapshot.
  else if sequence ≤ l.ceSequence then l
  else if (0 < l.ceRevocation ∧ revocation < l.ceRevocation) ∨
      (available ∧ (sequence = longMax ∨ revocation = longMax)) then l.fail
  else
    -- A positive carrying a new revocation still ends old work.
    let l := if (l.ceRevocation ≠ -1 ∧ revocation ≠ l.ceRevocation) ∨ (l.ceReady ∧ !available)
      then l.revoke else l
    { l with ceSequence := sequence, ceRevocation := revocation, ceReady := available }

def snapshot (l : OwnerLifecycleState) : PlatformState :=
  ⟨l.generation, !l.failed && l.userReady && l.ceReady⟩

end OwnerLifecycleState

/-! ## The keep slot -/

/-- One attempt to keep work; `β` identifies a binder, `τ` is the lifetime of
its process. -/
structure Record (β τ : Type) where
  binderIdentity : β
  lifetime : τ
  workId : Int
  instanceId : Int
  generation : Nat
  registration : Nat
  token : String
  linked : Bool := false
  active : Bool := false
  retiring : Bool := false
  dead : Bool := false
  stopRequested : Bool := false
  stopInFlight : Bool := false
  deriving DecidableEq

namespace Record
variable {β τ : Type}

def retire (record : Record β τ) : Record β τ := { record with active := false, retiring := true }
def link (record : Record β τ) : Record β τ := { record with linked := true }
def activate (record : Record β τ) : Record β τ := { record with active := true }
def requestStop (record : Record β τ) : Record β τ := { record with stopRequested := true }
def die (record : Record β τ) : Record β τ := { record with dead := true }
def fly (record : Record β τ) (inFlight : Bool) : Record β τ := { record with stopInFlight := inFlight }

end Record

structure KeepWorkState (β τ : Type) where
  instanceId : Int
  lastRegistration : Nat := 0
  /-- The records made so far, by the order of their registration. -/
  records : List (Record β τ) := []
  /-- The record in the slot. -/
  record : Option Nat := none
  deriving DecidableEq

namespace KeepWorkState
variable {β τ : Type}

def create (β τ : Type) (instanceId : Int) : Option (KeepWorkState β τ) :=
  if instanceId ≤ 0 then none else some { instanceId }

def update (k : KeepWorkState β τ) (r : Nat) (change : Record β τ → Record β τ) : KeepWorkState β τ :=
  { k with records := k.records.modify r change }

def has (k : KeepWorkState β τ) (r : Nat) (holds : Record β τ → Bool) : Bool := (k.records[r]?).any holds

def retire (k : KeepWorkState β τ) (r : Nat) : KeepWorkState β τ :=
  k.update r Record.retire

/-- Includes a new positive epoch overtaking a negative. -/
def observe (k : KeepWorkState β τ) (platform : PlatformState) : KeepWorkState β τ :=
  match k.record with
  | none => k
  | some r =>
    if !platform.available || k.has r (·.generation ≠ platform.generation) then k.retire r else k

def stopToken (instanceId : Int) (registration : Nat) (nonce : String) : String :=
  "andrix-keep://stop/" ++ toString instanceId ++ "/" ++ toString registration ++ "/" ++ nonce

/-- A record is installed before its death is linked and its notification is
posted. There is no idempotent duplicate. -/
def begin (k : KeepWorkState β τ) (binderIdentity : Option β) (lifetime : Option τ)
    (workId requestedInstance generation : Int) (platform : PlatformState) (nonce : Option String) :
    Option Nat × KeepWorkState β τ :=
  let k := k.observe platform
  match binderIdentity, lifetime, nonce with
  | some binderIdentity, some lifetime, some nonce =>
    if k.record.isSome ∨ workId ≤ 0 ∨ requestedInstance ≠ k.instanceId ∨ generation ≤ 0 ∨
        platform.available = false ∨ generation ≠ platform.generation ∨
        k.lastRegistration = longMax ∨ nonce = "" then (none, k)
    else
      let registration := k.lastRegistration + 1
      let record : Record β τ :=
        { binderIdentity, lifetime, workId, instanceId := k.instanceId, generation := generation.toNat
          registration, token := stopToken k.instanceId registration nonce }
      (some k.records.length,
        { k with
          lastRegistration := registration, records := k.records ++ [record]
          record := some k.records.length })
  | _, _, _ => (none, k)

def isBound (k : KeepWorkState β τ) (r : Nat) : Bool := k.record = some r && k.has r (!·.dead)

def linked (k : KeepWorkState β τ) (r : Nat) (platform : PlatformState) : Bool × KeepWorkState β τ :=
  let k := k.observe platform
  if !k.isBound r then (false, k)
  else
    let k := k.update r Record.link
    (k.has r (!·.retiring), k)

def commit (k : KeepWorkState β τ) (r : Nat) (platform : PlatformState) : Bool × KeepWorkState β τ :=
  let k := k.observe platform
  if !k.isBound r || k.has r (·.retiring) || k.has r (·.active) || k.has r (!·.linked) then (false, k)
  else (true, k.update r Record.activate)

/-- A concurrent stop or revocation instead owns retirement and must retain its
death link. -/
def abort (k : KeepWorkState β τ) (r : Nat) : KeepWorkState β τ :=
  if k.record = some r ∧ k.has r (fun record => !record.active && !record.retiring) then
    { k with record := none }
  else k

def active (k : KeepWorkState β τ) (platform : PlatformState) : Option Nat × KeepWorkState β τ :=
  let k := k.observe platform
  match k.record with
  | none => (none, k)
  | some r =>
    if k.has r (fun record => record.active && !record.retiring && !record.dead) then (some r, k)
    else (none, k)

/-- A stop of a pending notification is effective immediately. -/
def stop (k : KeepWorkState β τ) (token : String) : Option Nat × KeepWorkState β τ :=
  match k.record with
  | none => (none, k)
  | some r =>
    if k.has r (fun record => record.token ≠ token || record.dead || record.stopRequested) then (none, k)
    else (some r, (k.update r Record.requestStop).retire r)

def revokeNotification (k : KeepWorkState β τ) : Option Nat × KeepWorkState β τ :=
  match k.record.bind (k.records[·]?) with
  | none => (none, k)
  | some record => k.stop record.token

/-- A stop that is already running fences replacement until it returns. -/
def died (k : KeepWorkState β τ) (r : Nat) : KeepWorkState β τ :=
  let k := (k.update r Record.die).retire r
  if k.record = some r ∧ k.has r (!·.stopInFlight) then { k with record := none } else k

def retiring (k : KeepWorkState β τ) : Option Nat :=
  match k.record with
  | none => none
  | some r => if k.has r (·.retiring) then some r else none

def beginStop (k : KeepWorkState β τ) (r : Nat) : Bool × KeepWorkState β τ :=
  if !k.isBound r || k.has r (!·.retiring) || k.has r (!·.stopRequested) || k.has r (·.stopInFlight) then
    (false, k)
  else (true, k.update r (Record.fly · true))

def canStop (k : KeepWorkState β τ) (r : Nat) : Bool := k.isBound r && k.has r (·.stopInFlight)

def finishStop (k : KeepWorkState β τ) (r : Nat) : KeepWorkState β τ :=
  let k := k.update r (Record.fly · false)
  if k.record = some r ∧ k.has r (·.dead) then { k with record := none } else k

end KeepWorkState
end Andrix.Platform
