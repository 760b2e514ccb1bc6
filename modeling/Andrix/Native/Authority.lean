import Andrix.Native.Admission
import Andrix.Native.Lifecycle

/-! The admission authority: a bounded table of admitted gates behind one mutex. It
binds a gate once, under the epoch it first observed, and revokes all of them when
its evidence expires, its clock runs backwards or it is told to. Stops and claims of
entry act on the gates without the mutex. -/
namespace Andrix.Native
open Andrix.Lib

def kMaximumAdmissions : Nat := 64

/-- The state of an authority. The table holds handles of admissions; `mutex` is the
thread that holds the lock. -/
structure AdmissionAuthority where
  capacity : Nat := kMaximumAdmissions
  admissions : List (Option Nat) := List.replicate kMaximumAdmissions none
  epoch : Option AuthorityEpoch := none
  deadline : UInt64 := 0
  observed : UInt64 := 0
  failed : Bool := false
  mutex : Option Nat := none
  deriving DecidableEq, Repr

/-- An authority and the memory of the gates. Two handles may share one gate's
memory, in which case they are different admissions of one gate. -/
structure AdmissionDomain where
  authority : AdmissionAuthority
  gates : Nat → Shared

def AdmissionDomain.setGate (d : AdmissionDomain) (m : Nat) (gate : Shared) : AdmissionDomain :=
  { d with gates := fun n => if n = m then gate else d.gates n }

def AuthorityEpoch.valid (epoch : AuthorityEpoch) : Bool :=
  epoch.platform ≠ 0 && epoch.generation ≠ 0 && epoch.user ≥ 0

namespace AdmissionAuthority

def onGate {α : Type} (m : Nat) (p : Program Shared α) : Program AdmissionDomain α :=
  p.zoom (fun d => d.gates m) fun gate d => d.setGate m gate

def get : Program AdmissionDomain AdmissionAuthority := .load (·.authority)

def modify (change : AdmissionAuthority → AdmissionAuthority) : Program AdmissionDomain Unit :=
  .store fun d => { d with authority := change d.authority }

def lock (thread : Nat) : Program AdmissionDomain Unit :=
  .await (fun d => d.authority.mutex = none)
    fun d => { d with authority := { d.authority with mutex := some thread } }

def unlock : Program AdmissionDomain Unit := modify ({ · with mutex := none })

/-- A call that holds the mutex until it returns. -/
def locked {α : Type} (thread : Nat) (p : Program AdmissionDomain α) :
    Program AdmissionDomain α := do
  lock thread
  let result ← p
  unlock
  pure result

variable (memory : Nat → Nat)

def stopAll : List (Option Nat) → Program AdmissionDomain Unit
  | [] => pure ()
  | none :: rest => stopAll rest
  | some work :: rest => do
    let _ ← onGate (memory work) WorkAdmission.stop
    stopAll rest

def revokeLocked : Program AdmissionDomain Unit := do
  modify fun a => { a with failed := true, deadline := 0 }
  let a ← get
  stopAll memory a.admissions

def revoke (thread : Nat) : Program AdmissionDomain Unit := locked thread (revokeLocked memory)

def revokeIf (condition : Bool) : Program AdmissionDomain Unit :=
  if condition then revokeLocked memory else pure ()

def fresh (now : UInt64) : Program AdmissionDomain Bool := do
  let a ← get
  revokeIf memory (a.capacity = 0 || a.capacity > kMaximumAdmissions || now < a.observed)
  modify ({ · with observed := now })
  let a ← get
  revokeIf memory (a.epoch.isSome && now ≥ a.deadline)
  let a ← get
  pure (!a.failed && a.epoch.isSome)

def refused (m : Nat) : Program AdmissionDomain AdmissionResult := do
  let phase ← onGate m WorkAdmission.phase
  pure (if phase = .stopped then .stopped else .wrongState)

/-- What a call answers when the authority is not fresh. -/
def unfit : Program AdmissionDomain AdmissionResult := do
  let a ← get
  pure (if a.failed then .revoked else .notReady)

def observe (thread : Nat) (epoch : AuthorityEpoch) (deadline now : UInt64) :
    Program AdmissionDomain AdmissionResult :=
  locked thread do
    let _ ← fresh memory now
    let a ← get
    if a.failed then pure .revoked
    else if !epoch.valid ∨ deadline ≤ now ∨ deadline - now > kLifecycleLeaseMillis ∨
        (a.epoch.isSome ∧ a.epoch ≠ some epoch) then do
      revokeLocked memory
      pure .revoked
    else do
      -- Older evidence cannot renew.
      modify fun a =>
        { a with
          epoch := if a.epoch.isNone then some epoch else a.epoch
          deadline := if deadline > a.deadline then deadline else a.deadline }
      pure .accepted

/-- The first entry of the table that is this handle or has its work identity. -/
def clash (work : Nat) (d : AdmissionDomain) : Option AdmissionResult :=
  d.authority.admissions.findSome? fun
    | none => none
    | some entry =>
      if entry = work then some .wrongState
      else if (d.gates (memory entry)).work = (d.gates (memory work)).work then some .foreign
      else none

def freeSlot (a : AdmissionAuthority) : Option Nat :=
  (List.range a.capacity).find? fun slot => a.admissions[slot]? = some none

def admitWork (thread : Nat) (work : Option Nat) (now : UInt64) :
    Program AdmissionDomain AdmissionResult :=
  locked thread do
    let current ← fresh memory now
    if !current then unfit
    else match work with
      | none => pure .invalid
      | some work => do
        let clashes ← .load (clash memory work)
        match clashes with
        | some result => pure result
        | none => do
          let a ← get
          match a.freeSlot with
          | none => pure .capacity
          | some slot => do
            let bound ← onGate (memory work) (WorkAdmission.bind (a.epoch.getD {}))
            if !bound then refused (memory work)
            else do
              modify fun a => { a with admissions := a.admissions.set slot (some work) }
              pure .accepted

/-- Whether the handle is registered and its gate bound to the authority's epoch. -/
def owns (work : Option Nat) : Program AdmissionDomain (Option Nat) := do
  let a ← get
  match work with
  | none => pure none
  | some work =>
    if some work ∉ a.admissions then pure none
    else do
      let epoch ← onGate (memory work) WorkAdmission.epoch
      pure (if epoch ≠ a.epoch then none else some work)

def prepared (thread : Nat) (work : Option Nat) (now : UInt64) :
    Program AdmissionDomain AdmissionResult :=
  locked thread do
    let current ← fresh memory now
    if !current then unfit
    else do
      let owned ← owns memory work
      match owned with
      | none => pure .foreign
      | some work => do
        let done ← onGate (memory work) WorkAdmission.prepared
        if done then pure .accepted else refused (memory work)

def release (thread : Nat) (work : Option Nat) (now deadlineCeiling : UInt64) :
    Program AdmissionDomain AdmissionResult :=
  locked thread do
    let current ← fresh memory now
    if !current then unfit
    else do
      let owned ← owns memory work
      match owned with
      | none => pure .foreign
      | some work => do
        let a ← get
        let deadline := if deadlineCeiling < a.deadline then deadlineCeiling else a.deadline
        if deadline ≤ now then do
          let _ ← onGate (memory work) WorkAdmission.stop
          pure .stopped
        else do
          let released ← onGate (memory work) (WorkAdmission.publish now deadline)
          if released then pure .accepted else refused (memory work)

def retire (thread : Nat) (work : Option Nat) : Program AdmissionDomain AdmissionResult :=
  locked thread do
    match work with
    | none => pure .invalid
    | some work => do
      let a ← get
      match a.admissions.idxOf? (some work) with
      | none => pure .foreign
      | some slot => do
        let phase ← onGate (memory work) WorkAdmission.phase
        if phase ≠ .stopped then pure .wrongState
        else do
          modify fun a => { a with admissions := a.admissions.set slot none }
          pure .accepted

end AdmissionAuthority

/-! ## The calls -/

inductive AuthorityCall
  | observe (epoch : AuthorityEpoch) (deadline now : UInt64)
  | revoke
  | admitWork (work : Option Nat) (now : UInt64)
  | prepared (work : Option Nat) (now : UInt64)
  | release (work : Option Nat) (now deadlineCeiling : UInt64)
  | retire (work : Option Nat)
  | stop (work : Nat)
  | claimEntry (work : Nat) (identity : WorkIdentity) (epoch : AuthorityEpoch) (now : UInt64)
  deriving DecidableEq, Repr

inductive AuthorityReply
  | result (value : AdmissionResult)
  | done
  | first (value : Bool)
  | entry (value : EntryResult)
  deriving DecidableEq, Repr

def AuthorityCall.body (memory : Nat → Nat) (thread : Nat) :
    AuthorityCall → Program AdmissionDomain AuthorityReply
  | .observe epoch deadline now => do
    let result ← AdmissionAuthority.observe memory thread epoch deadline now
    pure (.result result)
  | .revoke => do
    AdmissionAuthority.revoke memory thread
    pure .done
  | .admitWork work now => do
    let result ← AdmissionAuthority.admitWork memory thread work now
    pure (.result result)
  | .prepared work now => do
    let result ← AdmissionAuthority.prepared memory thread work now
    pure (.result result)
  | .release work now deadlineCeiling => do
    let result ← AdmissionAuthority.release memory thread work now deadlineCeiling
    pure (.result result)
  | .retire work => do
    let result ← AdmissionAuthority.retire memory thread work
    pure (.result result)
  | .stop work => do
    let first ← AdmissionAuthority.onGate (memory work) WorkAdmission.stop
    pure (.first first)
  | .claimEntry work identity epoch now => do
    let entry ← AdmissionAuthority.onGate (memory work) (WorkAdmission.claimEntry identity epoch now)
    pure (.entry entry)

end Andrix.Native
