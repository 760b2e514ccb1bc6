import Andrix.Lib.Threads

/-! The admission gate of one work: a shared word that the authority, the launcher
and anybody who stops the work change with single atomic instructions, and the
plain fields that the word publishes. Every shared access is one action of the
program, so that a run may interleave them in any order. -/
namespace Andrix.Native
open Andrix.Lib

structure WorkIdentity where
  manager : UInt64 := 0
  serial : UInt64 := 0
  deriving DecidableEq, Repr

structure AuthorityEpoch where
  platform : UInt64 := 0
  generation : UInt64 := 0
  user : Int32 := -1
  deriving DecidableEq, Repr

inductive AdmissionPhase
  | unbound
  | binding
  | admitted
  | prepared
  | publishing
  | released
  | entered
  | stopped
  deriving DecidableEq, Repr

inductive EntryResult
  | entered
  | notReleased
  | stopped
  | expired
  | foreign
  | alreadyEntered
  deriving DecidableEq, Repr

inductive AdmissionResult
  | accepted
  | notReady
  | revoked
  | foreign
  | stopped
  | wrongState
  | capacity
  | invalid
  deriving DecidableEq, Repr

def kBinding : UInt32 := 1

def kBound : UInt32 := 2

def kPrepared : UInt32 := 4

def kPublishing : UInt32 := 8

def kReleased : UInt32 := 16

def kEntered : UInt32 := 32

def kStopped : UInt32 := 64

def validWord (word : UInt32) : Bool :=
  let word := word &&& ~~~kStopped
  word = 0 || word = kBinding || word = kBound || word = kBound ||| kPrepared ||
    word = kBound ||| kPrepared ||| kPublishing || word = kBound ||| kPrepared ||| kReleased ||
    word = kBound ||| kPrepared ||| kReleased ||| kEntered

/-- The memory of a gate that its parties share. -/
structure Shared where
  flags : UInt32 := 0
  work : WorkIdentity
  epoch : AuthorityEpoch := {}
  releasedAt : UInt64 := 0
  deadline : UInt64 := 0
  deriving DecidableEq, Repr

def has (word bit : UInt32) : Bool := word &&& bit ≠ 0

def phaseOf (word : UInt32) : AdmissionPhase :=
  if has word kStopped then .stopped
  else if has word kEntered then .entered
  else if has word kReleased then .released
  else if has word kPublishing then .publishing
  else if has word kPrepared then .prepared
  else if has word kBound then .admitted
  else if has word kBinding then .binding
  else .unbound

namespace WorkAdmission

def flags : Program Shared UInt32 := .load (·.flags)

/-- Exchanges the word if it is the expected one; reads the word otherwise. -/
def compareExchange (expected desired : UInt32) : Program Shared (Bool × UInt32) :=
  .atomic fun s =>
    if s.flags = expected then ((true, expected), { s with flags := desired })
    else ((false, s.flags), s)

def phase : Program Shared AdmissionPhase := do
  let word ← flags
  pure (phaseOf word)

def entered : Program Shared Bool := do
  let word ← flags
  pure (has word kEntered)

/-- The three words of the epoch, read one after the other. -/
def readEpoch : Program Shared AuthorityEpoch := do
  let platform ← .load (·.epoch.platform)
  let generation ← .load (·.epoch.generation)
  let user ← .load (·.epoch.user)
  pure { platform, generation, user }

def epoch : Program Shared (Option AuthorityEpoch) := do
  let word ← flags
  if !has word kBound then pure none
  else do
    let epoch ← readEpoch
    pure (some epoch)

/-- True for the first stop. -/
def stop : Program Shared Bool :=
  .atomic fun s => (!has s.flags kStopped, { s with flags := s.flags ||| kStopped })

def bind (epoch : AuthorityEpoch) : Program Shared Bool := do
  let (claimed, _) ← compareExchange 0 kBinding
  if !claimed then pure false
  else do
    .store fun s => { s with epoch := { s.epoch with platform := epoch.platform } }
    .store fun s => { s with epoch := { s.epoch with generation := epoch.generation } }
    .store fun s => { s with epoch := { s.epoch with user := epoch.user } }
    let (bound, _) ← compareExchange kBinding kBound
    pure bound

def prepared : Program Shared Bool := do
  let (done, _) ← compareExchange kBound (kBound ||| kPrepared)
  pure done

def publish (now deadline : UInt64) : Program Shared Bool := do
  let (claimed, _) ← compareExchange (kBound ||| kPrepared) (kBound ||| kPrepared ||| kPublishing)
  if !claimed then pure false
  else do
    .store fun s => { s with releasedAt := now }
    .store fun s => { s with deadline := deadline }
    let (released, _) ← compareExchange (kBound ||| kPrepared ||| kPublishing)
      (kBound ||| kPrepared ||| kReleased)
    pure released

def claimEntry (work : WorkIdentity) (epoch : AuthorityEpoch) (now : UInt64) :
    Program Shared EntryResult := do
  let own ← .load (·.work)
  if own ≠ work then pure .foreign
  else do
    let word ← flags
    if !has word kBound then pure (if has word kStopped then .stopped else .notReleased)
    else do
      let bound ← readEpoch
      if bound ≠ epoch then pure .foreign
      else if has word kStopped then pure .stopped
      else if has word kEntered then pure .alreadyEntered
      else if !has word kReleased then pure .notReleased
      else do
        let releasedAt ← .load (·.releasedAt)
        let deadline ← .load (·.deadline)
        if now < releasedAt ∨ now ≥ deadline then do
          let _ ← stop
          pure .expired
        else do
          let (entered, word) ← compareExchange word (word ||| kEntered)
          if entered then pure .entered
          else pure (if has word kStopped then .stopped else .alreadyEntered)

end WorkAdmission

/-! ## The calls on one gate -/

inductive GateCall
  | bind (epoch : AuthorityEpoch)
  | prepared
  | publish (now deadline : UInt64)
  | stop
  | claimEntry (work : WorkIdentity) (epoch : AuthorityEpoch) (now : UInt64)
  deriving DecidableEq, Repr

inductive GateReply
  | flag (value : Bool)
  | entry (result : EntryResult)
  deriving DecidableEq, Repr

def GateCall.body (_thread : Nat) : GateCall → Program Shared GateReply
  | .bind epoch => do
    let bound ← WorkAdmission.bind epoch
    pure (.flag bound)
  | .prepared => do
    let done ← WorkAdmission.prepared
    pure (.flag done)
  | .publish now deadline => do
    let released ← WorkAdmission.publish now deadline
    pure (.flag released)
  | .stop => do
    let first ← WorkAdmission.stop
    pure (.flag first)
  | .claimEntry work epoch now => do
    let result ← WorkAdmission.claimEntry work epoch now
    pure (.entry result)

end Andrix.Native
