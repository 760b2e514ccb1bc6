import Andrix.Deployment.Records

/-! The ticket state machine: every exit of every state, the class of each
edge, and the check that one ticket value may follow another. The store
applies the check to every ticket update, and the reconciler to every step. -/
namespace Andrix.Deployment
open Andrix.Lib

/-- The state's name in the source, as its messages print it. -/
def State.name : State → String
  | .planned => "PLANNED" | .authorized => "AUTHORIZED" | .signing => "SIGNING"
  | .signed => "SIGNED" | .published => "PUBLISHED" | .sessionIntent => "SESSION_INTENT"
  | .sessionBound => "SESSION_BOUND" | .written => "WRITTEN" | .commitIntent => "COMMIT_INTENT"
  | .ready => "READY" | .readyAgain => "READY_AGAIN" | .rebootIntent => "REBOOT_INTENT"
  | .abandonIntent => "ABANDON_INTENT" | .bootObserved => "BOOT_OBSERVED"
  | .appliedProvisional => "APPLIED_PROVISIONAL" | .applied => "APPLIED"
  | .healthWindow => "HEALTH_WINDOW" | .signFailed => "SIGN_FAILED" | .noSession => "NO_SESSION"
  | .abandoned => "ABANDONED" | .failedNative => "FAILED_NATIVE"
  | .nativeRecordLost => "NATIVE_RECORD_LOST" | .closedApplied => "CLOSED_APPLIED"
  | .closedFailed => "CLOSED_FAILED" | .cancelled => "CANCELLED" | .void => "VOID"
  | .diverged => "DIVERGED" | .superseded => "SUPERSEDED"

def Crossing.name : Crossing → String
  | .sign => "SIGN" | .publish => "PUBLISH" | .create => "CREATE" | .write => "WRITE"
  | .commit => "COMMIT" | .abandon => "ABANDON" | .reboot => "REBOOT" | .notice => "NOTICE"
  | .handover => "HANDOVER"

namespace TicketMachine

/-- Why an edge may be taken. -/
inductive Edge where
  | forward | boot | request
  deriving DecidableEq, Repr

/-- The exits of a state with their classes. Empty exactly for the terminal
states. -/
def exits : State → List (State × Edge)
  | .planned => [(.authorized, .forward), (.cancelled, .forward), (.void, .forward)]
  | .authorized => [(.signing, .forward), (.cancelled, .forward), (.void, .forward)]
  | .signing => [(.signed, .forward), (.signFailed, .forward)]
  | .signed => [(.published, .forward), (.cancelled, .forward), (.void, .forward)]
  | .published => [(.sessionIntent, .forward), (.cancelled, .forward), (.void, .forward)]
  | .sessionIntent => [(.sessionBound, .forward), (.noSession, .forward)]
  | .sessionBound =>
    [(.written, .forward), (.abandonIntent, .forward), (.nativeRecordLost, .forward)]
  | .written =>
    [(.commitIntent, .forward), (.abandonIntent, .forward), (.nativeRecordLost, .forward)]
  | .commitIntent => [(.ready, .forward), (.failedNative, .forward), (.nativeRecordLost, .forward),
    (.bootObserved, .boot), (.abandonIntent, .forward)]
  | .ready => [(.rebootIntent, .forward), (.abandonIntent, .forward), (.bootObserved, .boot),
    (.nativeRecordLost, .forward)]
  | .readyAgain => [(.rebootIntent, .forward), (.abandonIntent, .forward), (.bootObserved, .boot),
    (.nativeRecordLost, .forward)]
  | .rebootIntent => [(.bootObserved, .boot), (.ready, .request), (.abandonIntent, .forward)]
  | .abandonIntent => [(.abandoned, .forward), (.bootObserved, .boot), (.abandonIntent, .request)]
  | .bootObserved => [(.appliedProvisional, .forward), (.failedNative, .forward),
    (.readyAgain, .forward), (.abandoned, .forward), (.nativeRecordLost, .forward),
    (.diverged, .forward), (.abandonIntent, .forward)]
  | .appliedProvisional => [(.applied, .forward), (.bootObserved, .boot)]
  | .applied => [(.healthWindow, .forward)]
  | .healthWindow => [(.closedApplied, .forward), (.superseded, .forward), (.diverged, .forward),
    (.healthWindow, .boot)]
  -- By the recorded cause. DIVERGED only where COMMIT_INTENT can have been reached.
  | .signFailed => [(.cancelled, .forward), (.void, .forward), (.closedFailed, .forward)]
  | .noSession => [(.cancelled, .forward), (.void, .forward), (.closedFailed, .forward)]
  | .abandoned =>
    [(.cancelled, .forward), (.void, .forward), (.diverged, .forward), (.closedFailed, .forward)]
  | .failedNative =>
    [(.void, .forward), (.cancelled, .forward), (.diverged, .forward), (.closedFailed, .forward)]
  | .nativeRecordLost => [(.appliedProvisional, .forward), (.cancelled, .forward),
    (.void, .forward), (.diverged, .forward), (.closedFailed, .forward)]
  | .closedApplied | .closedFailed | .cancelled | .void | .diverged | .superseded => []

/-- The class of an edge, when the table has it. -/
def edge (before after : State) : Option Edge :=
  ((exits before).find? (fun exit => exit.1 = after)).map Prod.snd

/-- The crossing whose entry leads into a state, when entering it issues one. -/
def crossingInto : State → Option Crossing
  | .signing => some .sign
  | .sessionIntent => some .create
  | .commitIntent => some .commit
  | .abandonIntent => some .abandon
  | .rebootIntent => some .reboot
  | _ => none

/-- The states in which an entry of a crossing may be appended without a state
change. -/
def appendsInPlace (crossing : Crossing) (state : State) : Bool :=
  match crossing with
  | .sign => state = .signing
  | .publish => state = .signed
  | .write => state = .sessionBound
  | .notice => state = .published || state = .ready || state = .readyAgain
  | .handover => !state.terminal
  | _ => false

def referenceRule (before after : Reference) : Except String Unit := do
  refuse (after.presence &&& before.presence ≠ before.presence) "a reference field forgotten"
  refuse (before.has Reference.session ∧ before.sessionId ≠ after.sessionId) "session ID changed"
  refuse (before.has Reference.created ∧ before.createdMillis ≠ after.createdMillis)
    "createdMillis changed"
  refuse (before.has Reference.stageDirectory ∧ before.stageDir ≠ after.stageDir)
    "stage directory changed"
  refuse (before.has Reference.installer ∧ before.installerUid ≠ after.installerUid)
    "installer changed"
  refuse (before.has Reference.nonceField ∧ before.nonce ≠ after.nonce) "nonce changed"

/-- The outcome of a user and serial: the last one in the list. -/
def outcomeOf (user : Int32) (serial : Int64) (health : List Health) : Option Outcome :=
  ((health.filter (fun h => h.user = user ∧ h.serial = serial)).getLast?).map (·.outcome)

/-- Final health outcomes never change, and no observed user disappears. -/
def healthRule (after : List Health) : List Health → Except String Unit
  | [] => .ok ()
  | old :: rest =>
    match outcomeOf old.user old.serial after with
    | none => .error "a health outcome dropped"
    | some now => do
      refuse (old.outcome ≠ .observing ∧ now ≠ old.outcome) "a final outcome changed"
      healthRule after rest

/-- The entry that the successor adds must lead into its state. -/
def addedRule (before after : Ticket) : Except String Unit :=
  let sameState := before.state = after.state
  if after.ledger.length = before.ledger.length + 1 then
    match after.ledger.getLast? with
    | none => .ok ()
    | some entry =>
      let into := ¬ sameState ∧ crossingInto after.state = some entry.crossing
      let loop := sameState ∧ after.state = .abandonIntent ∧ entry.crossing = .abandon
      let signAgain := sameState ∧ after.state = .signing ∧ entry.crossing = .sign
      refuse (¬ into ∧ ¬ loop ∧ ¬ signAgain ∧
          ¬ (sameState ∧ appendsInPlace entry.crossing after.state))
        ("crossing " ++ entry.crossing.name ++ " does not lead into " ++ after.state.name)
  else
    -- SIGNING is entered without a request when nothing is left to sign.
    refuse (¬ sameState ∧ after.state ≠ .signing ∧ (crossingInto after.state).isSome)
      ("entering " ++ after.state.name ++ " without its crossing")

/-- Whether the successor records a handover. -/
def handover (before after : Ticket) : Prop :=
  after.ledger.length = before.ledger.length + 1 ∧
    (after.ledger.getLast?).map (·.crossing) = some .handover

instance (before after : Ticket) : Decidable (handover before after) :=
  inferInstanceAs (Decidable (_ ∧ _))

/-- Boots are counted once each and never undone, and a health window restarts
only with a reboot. -/
def bootRule (before after : Ticket) : Except String Unit := do
  let newBoot := before.boot ≠ after.boot
  refuse (newBoot ∧ before.boot = noId ∧ after.bootCount ≠ before.bootCount)
    "the first boot is not counted"
  refuse (after.bootCount < before.bootCount ∨ before.bootCount + 1 < after.bootCount)
    "boot count jumped"
  refuse (after.bootCount ≠ before.bootCount ∧ ¬ newBoot) "a boot counted without a new boot"
  refuse (before.state ≠ after.state ∧ edge before.state after.state = some .boot ∧
    (¬ newBoot ∨ before.boot = noId)) "a boot edge without a new boot"
  refuse (before.state = after.state ∧ after.state = .healthWindow ∧
      (before.windowBoot ≠ after.windowBoot ∨ before.windowStart ≠ after.windowStart) ∧
      (before.windowBoot = after.boot ∨ after.windowBoot ≠ after.boot))
    "the health window restarted without a reboot"

/-- Refuses a successor value that is not a legal step from the current one.
Equal values are legal. -/
def check (before after : Ticket) : Except String Unit :=
  if before = after then .ok () else do
    refuse (before.installation ≠ after.installation ∨ before.ticketId ≠ after.ticketId ∨
      before.component ≠ after.component ∨ before.planId ≠ after.planId ∨
      before.attempt ≠ after.attempt) "identity changed"
    refuse (before.state.terminal) "a terminal ticket changed"
    refuse (before.state ≠ after.state ∧ edge before.state after.state = none)
      ("no exit " ++ before.state.name ++ " -> " ++ after.state.name)
    -- The ledger only grows, by at most one entry per step.
    refuse (after.ledger.length < before.ledger.length ∨
      after.ledger.take before.ledger.length ≠ before.ledger) "ledger rewritten"
    refuse (before.ledger.length + 1 < after.ledger.length) "more than one crossing in one step"
    -- A kernel boot during an abandon, and every DIVERGED close, need COMMIT_INTENT reached.
    refuse (before.state ≠ after.state ∧ after.count .commit = 0 ∧ (after.state = .diverged ∨
        (before.state = .abandonIntent ∧ after.state = .bootObserved)))
      ("no COMMIT in the ledger for " ++ before.state.name ++ " -> " ++ after.state.name)
    addedRule before after
    refuse (before.state = after.state ∧ after.state = .abandonIntent ∧
      after.ledger.length = before.ledger.length ∧ after.count .abandon ≠ before.count .abandon)
      "abandon count changed without an entry"
    refuse (¬ handover before after ∧ (before.coordinatorClass ≠ after.coordinatorClass ∨
      before.coordinator ≠ after.coordinator)) "coordinator changed without a handover"
    bootRule before after
    -- Alerts are never withdrawn. Causes only rise.
    refuse (before.flags &&& (flagBootLimit ||| flagRequestLimit) &&& ~~~ after.flags ≠ 0)
      "an alert withdrawn"
    refuse (code after.cause < code before.cause) "cause lowered"
    refuse (before.cause ≠ .none ∧ after.cause ≠ before.cause ∧
      code after.cause ≤ code before.cause) "cause replaced by a lower one"
    referenceRule before.reference after.reference
    healthRule after.health before.health
    refuse (before.successor ≠ after.successor ∧ after.state ≠ .superseded) "successor changed"

end TicketMachine
end Andrix.Deployment
