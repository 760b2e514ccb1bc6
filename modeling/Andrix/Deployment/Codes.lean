import Andrix.Lib.Checked

/-! The constants, strict codes and field checks of the deployment records.
Every enumeration lists its values with their record codes, and every field
rule refuses with the text the records give. -/
namespace Andrix.Deployment
open Andrix.Lib

/-- A Java string. Every field rule admits printable ASCII only. -/
abbrev Text := List Char

/-- What a constructor or a step throws. -/
inductive Failure where
  | illegalArgument (message : String)
  | illegalState (message : String)
  | nullPointer (name : String)
  | indexOutOfBounds
  deriving DecidableEq, Repr

abbrev Checked := Except Failure

/-- `if (broken) throw invalid(message)`. -/
def invalid (broken : Prop) [Decidable broken] (message : String) : Checked Unit :=
  refuse broken (.illegalArgument message)

variable {u : Unit}

@[simp] theorem invalid_eq_ok {broken : Prop} [Decidable broken] {message : String} :
    invalid broken message = .ok u ↔ ¬ broken := refuse_eq_ok

@[simp] theorem invalid_bind_eq_ok {broken : Prop} [Decidable broken] {message : String}
    {f : Unit → Checked β} {b : β} :
    (invalid broken message >>= f) = .ok b ↔ ¬ broken ∧ f () = .ok b := refuse_bind_eq_ok

/-! ## Constants -/

def maxBytes : Nat := 65536
def version : Nat := 1
/-- The user value of an observation of the boot or the device. -/
def noUser : Int32 := -10000
def noSerial : Int64 := -1
/-- The all zero ID: no reference. Never a record ID. -/
def noId : Text := List.replicate 32 '0'
/-- The all zero digest: no bundle. Never a record digest. -/
def noDigest : Text := List.replicate 64 '0'
def maxUsers : Nat := 64
def maxBootLimit : Nat := 32
def maxRequestLimit : Nat := 16
def maxText : Nat := 255

/-! ## Strict codes -/

/-- An enumeration whose values carry strict record codes: looking a value's
code up in declaration order finds that value. -/
class Coded (α : Type) where
  values : List α
  code : α → Nat
  small (x : α) : code x < 256 := by intro x; cases x <;> decide
  find_code (x : α) : values.find? (fun y => code y == code x) = some x := by
    intro x; cases x <;> rfl

export Coded (code)

theorem Coded.code_injective {α : Type} [Coded α] {x y : α} (same : code x = code y) : x = y := by
  have found := Coded.find_code x
  rw [same, Coded.find_code y] at found
  exact (Option.some.inj found).symm

/-- The value with a code, or the refusal `unknown field`. -/
def codeOf {α : Type} [Coded α] (n : Nat) (field : String) : Checked α :=
  match (Coded.values (α := α)).find? (fun y => code y == n) with
  | some value => .ok value
  | none => .error (.illegalArgument ("unknown " ++ field))

variable {field : String}

theorem codeOf_eq_ok {α : Type} [Coded α] {n : Nat} {x : α} :
    codeOf n field = .ok x ↔ n = code x := by
  unfold codeOf
  constructor
  · intro found
    split at found
    · rename_i value held
      cases found
      exact (by simpa using List.find?_some held : code x = n).symm
    · cases found
  · rintro rfl
    rw [Coded.find_code]

/-- The record kinds and their frame type codes. -/
inductive Kind where
  | plan | authorization | ticket | observation | selection
  deriving DecidableEq, Repr

def Kind.code : Kind → Nat
  | .plan => 1 | .authorization => 2 | .ticket => 3 | .observation => 4 | .selection => 5

def Kind.values : List Kind := [.plan, .authorization, .ticket, .observation, .selection]

inductive ComponentClass where
  | stagedSystemApk | stagedApex | nonstagedApk
  deriving DecidableEq, Repr

instance : Coded ComponentClass where
  values := [.stagedSystemApk, .stagedApex, .nonstagedApk]
  code | .stagedSystemApk => 1 | .stagedApex => 2 | .nonstagedApk => 3

/-- What a plan does: choose its bundle, choose the factory copy, or stand in
for the chosen variant while it is rebuilt. -/
inductive Target where
  | variant | factory | temporaryFactory
  deriving DecidableEq, Repr

instance : Coded Target where
  values := [.variant, .factory, .temporaryFactory]
  code | .variant => 1 | .factory => 2 | .temporaryFactory => 3

inductive AffectedUsers where
  | allUsers
  deriving DecidableEq, Repr

instance : Coded AffectedUsers where
  values := [.allUsers]
  code | .allUsers => 1

inductive DataTransition where
  | forwardOnly
  deriving DecidableEq, Repr

instance : Coded DataTransition where
  values := [.forwardOnly]
  code | .forwardOnly => 1

/-- When commit happens relative to the owner's activation. -/
inductive CommitMode where
  | late | early
  deriving DecidableEq, Repr

instance : Coded CommitMode where
  values := [.late, .early]
  code | .late => 1 | .early => 2

inductive HealthResponse where
  | reportAndWait | restoreAutomatically
  deriving DecidableEq, Repr

instance : Coded HealthResponse where
  values := [.reportAndWait, .restoreAutomatically]
  code | .reportAndWait => 1 | .restoreAutomatically => 2

inductive RecoveryRoute where
  | hostShell | deviceCoordinator
  deriving DecidableEq, Repr

instance : Coded RecoveryRoute where
  values := [.hostShell, .deviceCoordinator]
  code | .hostShell => 1 | .deviceCoordinator => 2

/-- Every defined health criterion, as a bit mask. -/
def Criterion.all : BitVec 32 := 0x7f

/-- What one authorization grants. Each grant is its own record. -/
inductive Effect where
  | sign | stage | activate | select | emergencyNotice
  deriving DecidableEq, Repr

instance : Coded Effect where
  values := [.sign, .stage, .activate, .select, .emergencyNotice]
  code | .sign => 1 | .stage => 2 | .activate => 3 | .select => 4 | .emergencyNotice => 5

/-- The SIGN inputs bits: the variant and its restoration. -/
def inputVariant : BitVec 32 := 1
def inputRestoration : BitVec 32 := 2

inductive ActorClass where
  | grantHolder | labOperator
  deriving DecidableEq, Repr

instance : Coded ActorClass where
  values := [.grantHolder, .labOperator]
  code | .grantHolder => 1 | .labOperator => 2

inductive GrantScope where
  | none | allComponents | oneComponent
  deriving DecidableEq, Repr

instance : Coded GrantScope where
  values := [.none, .allComponents, .oneComponent]
  code | .none => 0 | .allComponents => 1 | .oneComponent => 2

inductive CoordinatorClass where
  | host | device
  deriving DecidableEq, Repr

instance : Coded CoordinatorClass where
  values := [.host, .device]
  code | .host => 1 | .device => 2

/-- The ticket states, terminal ones last. -/
inductive State where
  | planned | authorized | signing | signed | published | sessionIntent | sessionBound | written
  | commitIntent | ready | readyAgain | rebootIntent | abandonIntent | bootObserved
  | appliedProvisional | applied | healthWindow | signFailed | noSession | abandoned | failedNative
  | nativeRecordLost | closedApplied | closedFailed | cancelled | void | diverged | superseded
  deriving DecidableEq, Repr

instance : Coded State where
  values := [.planned, .authorized, .signing, .signed, .published, .sessionIntent, .sessionBound,
    .written, .commitIntent, .ready, .readyAgain, .rebootIntent, .abandonIntent, .bootObserved,
    .appliedProvisional, .applied, .healthWindow, .signFailed, .noSession, .abandoned,
    .failedNative, .nativeRecordLost, .closedApplied, .closedFailed, .cancelled, .void,
    .diverged, .superseded]
  code
    | .planned => 1 | .authorized => 2 | .signing => 3 | .signed => 4 | .published => 5
    | .sessionIntent => 6 | .sessionBound => 7 | .written => 8 | .commitIntent => 9 | .ready => 10
    | .readyAgain => 11 | .rebootIntent => 12 | .abandonIntent => 13 | .bootObserved => 14
    | .appliedProvisional => 15 | .applied => 16 | .healthWindow => 17 | .signFailed => 18
    | .noSession => 19 | .abandoned => 20 | .failedNative => 21 | .nativeRecordLost => 22
    | .closedApplied => 23 | .closedFailed => 24 | .cancelled => 25 | .void => 26
    | .diverged => 27 | .superseded => 28

def State.terminal (s : State) : Bool := code State.closedApplied ≤ code s

/-- The intent states, which carry UNRESOLVED when their reply is lost. -/
def State.intent (s : State) : Bool :=
  s = .signing || s = .sessionIntent || s = .commitIntent || s = .abandonIntent || s = .rebootIntent

def flagUnresolved : BitVec 32 := 1
def flagBootLimit : BitVec 32 := 2
def flagRequestLimit : BitVec 32 := 4

/-- Why a ticket stops. A later cause replaces a recorded one only when its
code is higher. -/
inductive Cause where
  | none | cancelled | voidSelection | voidTrust | voidTarget | voidBase | otherBytes
  deriving DecidableEq, Repr

instance : Coded Cause where
  values := [.none, .cancelled, .voidSelection, .voidTrust, .voidTarget, .voidBase, .otherBytes]
  code
    | .none => 0 | .cancelled => 1 | .voidSelection => 2 | .voidTrust => 3 | .voidTarget => 4
    | .voidBase => 5 | .otherBytes => 6

def Cause.voids (c : Cause) : Bool :=
  code Cause.voidSelection ≤ code c && code c ≤ code Cause.voidBase

inductive Outcome where
  | observing | healthy | degraded | unhealthy | inconclusive | removed
  deriving DecidableEq, Repr

instance : Coded Outcome where
  values := [.observing, .healthy, .degraded, .unhealthy, .inconclusive, .removed]
  code
    | .observing => 0 | .healthy => 1 | .degraded => 2 | .unhealthy => 3 | .inconclusive => 4
    | .removed => 5

/-- The crossings a ticket's ledger records. -/
inductive Crossing where
  | sign | publish | create | write | commit | abandon | reboot | notice | handover
  deriving DecidableEq, Repr

instance : Coded Crossing where
  values := [.sign, .publish, .create, .write, .commit, .abandon, .reboot, .notice, .handover]
  code
    | .sign => 1 | .publish => 2 | .create => 3 | .write => 4 | .commit => 5 | .abandon => 6
    | .reboot => 7 | .notice => 8 | .handover => 9

/-- Most entries of this crossing in one ledger. -/
def Crossing.bound : Crossing → Nat
  | .sign => 2 | .publish => 2 | .create => 1 | .write => 1 | .commit => 1 | .abandon => 16
  | .reboot => 16 | .notice => 17 | .handover => 4

/-- A call into Android's package machinery through a framework instance. -/
def Crossing.framework (c : Crossing) : Bool :=
  c = .create || c = .write || c = .commit || c = .abandon

/-- A crossing into the device: the framework calls, the reboot and the notice. -/
def Crossing.device (c : Crossing) : Bool := c.framework || c = .reboot || c = .notice

/-- Most ledger entries of one ticket: the sum of the per crossing bounds. -/
def maxLedger : Nat := (Coded.values (α := Crossing)).foldl (fun total x => total + x.bound) 0

/-- What an observation records. -/
inductive ObservationKind where
  | boot | checkpoint | factory | active | listing | session | reply | user | health | signer
  | bundle | receipt
  deriving DecidableEq, Repr

instance : Coded ObservationKind where
  values := [.boot, .checkpoint, .factory, .active, .listing, .session, .reply, .user, .health,
    .signer, .bundle, .receipt]
  code
    | .boot => 1 | .checkpoint => 2 | .factory => 3 | .active => 4 | .listing => 5 | .session => 6
    | .reply => 7 | .user => 8 | .health => 9 | .signer => 10 | .bundle => 11 | .receipt => 12

/-- How an observation was read. -/
inductive Route where
  | shell | device | host
  deriving DecidableEq, Repr

instance : Coded Route where
  values := [.shell, .device, .host]
  code | .shell => 1 | .device => 2 | .host => 3

/-- Every classification, by kind. A code is strict within its kind. -/
inductive Classification where
  | booting | bootCompleted
  | checkpointPending | checkpointCommitted
  | factoryPresent
  | factoryCopy | dataCopy
  | noneForPackage | sessionsForPackage | listingIncomplete
  | opened | sealed | verifying | liveNotReady | sessionReady | sessionApplied | sessionFailed
  | sessionAbandoned | sessionRefused
  | replySuccess | replyRefused | replyReady | replyAccepted | replyPending | replyUnrecognized
  | runningUnlocked | runningLocked | notRunning | userRemoved
  | healthHeld | healthDegraded | healthCrash | healthInconclusive
  | signPending | signCompleted | signRefused | signCannotComplete
  | bundlePublished | bundleAbsent | bundleMismatch
  | receiptSystemui | receiptFullScreen
  deriving DecidableEq, Repr

namespace Classification

def values : List Classification :=
  [booting, bootCompleted, checkpointPending, checkpointCommitted, factoryPresent, factoryCopy,
    dataCopy, noneForPackage, sessionsForPackage, listingIncomplete, opened, sealed, verifying,
    liveNotReady, sessionReady, sessionApplied, sessionFailed, sessionAbandoned, sessionRefused,
    replySuccess, replyRefused, replyReady, replyAccepted, replyPending, replyUnrecognized,
    runningUnlocked, runningLocked, notRunning, userRemoved, healthHeld, healthDegraded,
    healthCrash, healthInconclusive, signPending, signCompleted, signRefused, signCannotComplete,
    bundlePublished, bundleAbsent, bundleMismatch, receiptSystemui, receiptFullScreen]

def kind : Classification → ObservationKind
  | booting | bootCompleted => .boot
  | checkpointPending | checkpointCommitted => .checkpoint
  | factoryPresent => .factory
  | factoryCopy | dataCopy => .active
  | noneForPackage | sessionsForPackage | listingIncomplete => .listing
  | opened | sealed | verifying | liveNotReady | sessionReady | sessionApplied | sessionFailed
  | sessionAbandoned | sessionRefused => .session
  | replySuccess | replyRefused | replyReady | replyAccepted | replyPending | replyUnrecognized =>
    .reply
  | runningUnlocked | runningLocked | notRunning | userRemoved => .user
  | healthHeld | healthDegraded | healthCrash | healthInconclusive => .health
  | signPending | signCompleted | signRefused | signCannotComplete => .signer
  | bundlePublished | bundleAbsent | bundleMismatch => .bundle
  | receiptSystemui | receiptFullScreen => .receipt

def code : Classification → Nat
  | booting | checkpointPending | factoryPresent | factoryCopy | noneForPackage | opened
  | replySuccess | runningUnlocked | healthHeld | signPending | bundlePublished
  | receiptSystemui => 1
  | bootCompleted | checkpointCommitted | dataCopy | sessionsForPackage | sealed | replyRefused
  | runningLocked | healthDegraded | signCompleted | bundleAbsent | receiptFullScreen => 2
  | listingIncomplete | verifying | replyReady | notRunning | healthCrash | signRefused
  | bundleMismatch => 3
  | liveNotReady | replyAccepted | userRemoved | healthInconclusive | signCannotComplete => 4
  | sessionReady | replyPending => 5
  | sessionApplied | replyUnrecognized => 6
  | sessionFailed => 7
  | sessionAbandoned => 8
  | sessionRefused => 9

/-- A session observation of a session that is not terminal. -/
def live (c : Classification) : Bool :=
  c = opened || c = sealed || c = verifying || c = liveNotReady || c = sessionReady

end Classification

/-- What the owner chose for a component. -/
inductive ChoiceKind where
  | factory | plan
  deriving DecidableEq, Repr

instance : Coded ChoiceKind where
  values := [.factory, .plan]
  code | .factory => 1 | .plan => 2

inductive UpdateResponsibility where
  | rebuildWindow | keepStale
  deriving DecidableEq, Repr

instance : Coded UpdateResponsibility where
  values := [.rebuildWindow, .keepStale]
  code | .rebuildWindow => 1 | .keepStale => 2

/-- How the active bytes relate to the choice. -/
inductive Realization where
  | unchecked | current | staleBase | displaced | diverged | temporaryFactory
  deriving DecidableEq, Repr

instance : Coded Realization where
  values := [.unchecked, .current, .staleBase, .displaced, .diverged, .temporaryFactory]
  code
    | .unchecked => 1 | .current => 2 | .staleBase => 3 | .displaced => 4 | .diverged => 5
    | .temporaryFactory => 6

/-! ## Field checks -/

def isHexDigit (c : Char) : Bool := ('0' ≤ c && c ≤ '9') || ('a' ≤ c && c ≤ 'f')

def isPrintable (c : Char) : Bool := 0x20 ≤ c.toNat && c.toNat ≤ 0x7e

/-- `digits` lowercase hex digits. -/
def IsHex (digits : Nat) (value : Text) : Prop :=
  value.length = digits ∧ value.all isHexDigit = true

instance (digits : Nat) (value : Text) : Decidable (IsHex digits value) :=
  inferInstanceAs (Decidable (_ ∧ _))

def checkHex (value : Text) (digits : Nat) (field : String) (zeroAllowed : Bool) : Checked Unit := do
  invalid (¬ IsHex digits value) (field ++ " is not " ++ toString digits ++ " lowercase hex digits")
  invalid (value.all (· == '0') ∧ zeroAllowed = false) (field ++ " is zero")

def checkId (value : Text) (field : String) (zeroAllowed : Bool) : Checked Unit :=
  checkHex value 32 field zeroAllowed

def checkDigest (value : Text) (field : String) (zeroAllowed : Bool) : Checked Unit :=
  checkHex value 64 field zeroAllowed

/-- An actor or observed user: a user and serial that are not negative, or
exactly `noUser` and `noSerial` where none is allowed. -/
def checkActor (user : Int32) (serial : Int64) (none : Bool) : Checked Unit :=
  if none then invalid (user ≠ noUser ∨ serial ≠ noSerial) "NO_USER needs NO_SERIAL"
  else invalid (user < 0 ∨ serial < 0) "negative user or serial"

/-- Printable text of at least `min` and at most `maxText` bytes. -/
def IsText (min : Nat) (value : Text) : Prop :=
  min ≤ value.length ∧ value.length ≤ maxText ∧ value.all isPrintable = true

instance (min : Nat) (value : Text) : Decidable (IsText min value) :=
  inferInstanceAs (Decidable (_ ∧ _))

def checkText (value : Text) (min : Nat) (field : String) : Checked Unit := do
  invalid (value.length < min ∨ maxText < value.length) (field ++ " length outside its bounds")
  invalid (¬ value.all isPrintable) (field ++ " not printable ASCII")

/-- The loop of `checkPackage`: whether every character fits the grammar, the
segments begun and whether the last one is still empty. -/
def packageScan : Text → Nat → Bool → Bool × Nat × Bool
  | [], segments, segmentStart => (true, segments, segmentStart)
  | c :: rest, segments, segmentStart =>
    let letter := ('a' ≤ c && c ≤ 'z') || ('A' ≤ c && c ≤ 'Z')
    let trailing := ('0' ≤ c && c ≤ '9') || c == '_'
    if letter || (trailing && !segmentStart) then packageScan rest segments false
    else if c == '.' && !segmentStart then packageScan rest (segments + 1) true
    else (false, segments, segmentStart)

/-- Dot separated ASCII segments. Each starts with a letter, then letters,
digits or `_`, and there are at least two. -/
def IsPackage (name : Text) : Prop :=
  0 < name.length ∧ name.length ≤ maxText ∧
    (packageScan name 1 true).1 = true ∧ (packageScan name 1 true).2.2 = false ∧
    2 ≤ (packageScan name 1 true).2.1

instance (name : Text) : Decidable (IsPackage name) := inferInstanceAs (Decidable (_ ∧ _))

def checkPackage (name : Text) : Checked Unit :=
  invalid (¬ IsPackage name) "malformed package name"

/-! ### What the checks allow -/

variable {value : Text}

theorem all_zero_iff {digits : Nat} (length : value.length = digits) :
    value.all (· == '0') = true ↔ value = List.replicate digits '0' := by
  rw [List.eq_replicate_iff]
  simp [length]

variable {zeroAllowed : Bool}

theorem checkHex_eq_ok {digits : Nat} :
    checkHex value digits field zeroAllowed = .ok u ↔
      IsHex digits value ∧ (zeroAllowed = false → value ≠ List.replicate digits '0') := by
  simp only [checkHex, invalid_bind_eq_ok, invalid_eq_ok, not_not, not_and]
  constructor
  · rintro ⟨hex, nonzero⟩
    exact ⟨hex, fun strict zero => nonzero ((all_zero_iff hex.1).mpr zero) strict⟩
  · rintro ⟨hex, nonzero⟩
    exact ⟨hex, fun zero strict => nonzero strict ((all_zero_iff hex.1).mp zero)⟩

@[simp] theorem checkId_eq_ok :
    checkId value field zeroAllowed = .ok u ↔
      IsHex 32 value ∧ (zeroAllowed = false → value ≠ noId) := checkHex_eq_ok

@[simp] theorem checkDigest_eq_ok :
    checkDigest value field zeroAllowed = .ok u ↔
      IsHex 64 value ∧ (zeroAllowed = false → value ≠ noDigest) := checkHex_eq_ok

@[simp] theorem checkText_eq_ok {min : Nat} :
    checkText value min field = .ok u ↔ IsText min value := by
  simp [checkText, IsText, and_assoc]

@[simp] theorem checkPackage_eq_ok {name : Text} :
    checkPackage name = .ok u ↔ IsPackage name := by
  simp [checkPackage]

@[simp] theorem checkActor_eq_ok {user : Int32} {serial : Int64} {none : Bool} :
    checkActor user serial none = .ok u ↔
      if none then user = noUser ∧ serial = noSerial else ¬ user < 0 ∧ ¬ serial < 0 := by
  cases none <;> simp [checkActor, not_or]

theorem isHex_noId : IsHex 32 noId := by decide

end Andrix.Deployment
