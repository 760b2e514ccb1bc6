import Andrix.Lib.Stable
import Andrix.Deployment.TicketMachine

/-! The observations of one kernel boot, as the reconciler reads them, and the
cohort check over them. -/
namespace Andrix.Deployment
open Andrix.Lib

/-- The device's present, read from the route each round. -/
structure Clock where
  boot : Text
  /-- The framework instance, or -1 when none is running or known. -/
  instanceId : Int64
  elapsed : Int64
  wall : Int64
  valid : checkId boot "boot" false = .ok ()

/-! ## Times

A loop over the facts keeps the latest of them or the first, by elapsed time. -/

structure Time where
  millis : Int64

instance : PartialOrder Time where
  le x y := x.millis ≤ y.millis
  le_refl x := Int64.le_refl x.millis
  le_trans _ _ _ := Int64.le_trans
  le_antisymm x y first second := by
    cases x
    cases y
    exact congrArg Time.mk (Int64.le_antisymm first second)

def Observation.time (o : Observation) : Time := ⟨o.elapsed⟩

theorem follows_latest :
    Follows (fun o best : Observation => decide (best.elapsed ≤ o.elapsed)) Observation.time := by
  constructor
  · intro x y wins
    have order : y.elapsed ≤ x.elapsed := of_decide_eq_true wins
    exact order
  · intro x y loses
    exact (Int64.le_total x.elapsed y.elapsed).resolve_right (of_decide_eq_false loses)

theorem follows_first : Follows (fun o best : Observation => decide (o.elapsed < best.elapsed))
    (fun o => OrderDual.toDual o.time) := by
  constructor
  · intro x y wins
    exact Int64.le_of_lt (of_decide_eq_true wins)
  · intro x y loses
    exact Int64.not_lt.mp (of_decide_eq_false loses)

theorem ranked_latest :
    Ranked (fun o best : Observation => decide (best.elapsed ≤ o.elapsed)) := by
  constructor <;> intro x y z <;>
    simp only [decide_eq_true_eq, decide_eq_false_iff_not, Int64.le_iff_toInt_le] <;> omega

theorem ranked_first :
    Ranked (fun o best : Observation => decide (o.elapsed < best.elapsed)) := by
  constructor <;> intro x y z <;>
    simp only [decide_eq_true_eq, decide_eq_false_iff_not, Int64.lt_iff_toInt_lt] <;> omega

/-! ## The view -/

/-- The observations of one kernel boot for one component, plus the host
facts, ordered by elapsed time. -/
structure View where
  boot : Text
  facts : List Observation
  sorted : facts.Pairwise (fun x y => x.elapsed ≤ y.elapsed)

namespace View

/-- Observations of the boot for the component or the device, host facts of
the component and replies. Host facts and replies belong to their request or
ledger entry, not to a boot. -/
def inScope (boot component : Text) (o : Observation) : Bool :=
  (o.component = [] || o.component = component) &&
    (o.boot = boot || o.route = .host || o.kind = .reply)

instance : IsTrans Observation (fun x y => x.elapsed ≤ y.elapsed) :=
  ⟨fun _ _ _ => Int64.le_trans⟩

instance : Std.Total (fun x y : Observation => x.elapsed ≤ y.elapsed) :=
  ⟨fun x y => Int64.le_total x.elapsed y.elapsed⟩

/-- The facts of one boot. The sort is stable: ties keep their order. -/
def ofFacts (boot component : Text) (all : List Observation) : View where
  boot := boot
  facts := (all.filter (inScope boot component)).insertionSort (fun x y => x.elapsed ≤ y.elapsed)
  sorted := List.pairwise_insertionSort _ _

/-- The latest fact of a kind: the largest elapsed time, then the later one in
order. -/
def latest (v : View) (kind : ObservationKind) : Option Observation :=
  pick (fun o => o.kind = kind && o.boot = v.boot) (fun o best => best.elapsed ≤ o.elapsed) v.facts

def bootObserved (v : View) : Bool := (v.latest .boot).isSome

/-- When the boot was first seen completed, or -1. -/
def completedAt (v : View) : Int64 :=
  ((pick (fun o => o.classification = .bootCompleted && o.boot = v.boot)
    (fun o best => o.elapsed < best.elapsed) v.facts).map (·.elapsed)).getD (-1)

def checkpoint (v : View) : Option Classification := (v.latest .checkpoint).map (·.classification)

def reply (v : View) (ticketId : Text) (index : Option Nat) : Option Observation :=
  pick (fun o => o.kind = .reply && o.subject = ticketId && some o.sequence = index)
    (fun _ _ => true) v.facts

/-- A signing request has one outcome. Precedence, not order, decides, failing
closed. -/
def signer (v : View) (request : Text) : Option Classification :=
  let order := [Classification.signPending, .signCompleted, .signRefused, .signCannotComplete]
  (pick (fun o => o.kind = .signer && o.subject = request)
    (fun o best => order.idxOf best.classification < order.idxOf o.classification)
    v.facts).map (·.classification)

/-- What the store read of the plan's publication after one PUBLISH attempt's
call had ended. A published bundle never changes: published wins over absent,
and a mismatch over both. -/
def publication (v : View) (attempt plan : Text) : Option Classification :=
  let order := [Classification.bundleAbsent, .bundlePublished, .bundleMismatch]
  (pick (fun o => o.kind = .bundle && o.subject = attempt && o.plan = plan)
    (fun o best => order.idxOf best.classification < order.idxOf o.classification)
    v.facts).map (·.classification)

/-- What `bound` holds while it reads the facts. -/
structure Reads where
  found : Option Observation := none
  absent : List Text := []
  read : List Text := []

/-- Whether two reads bind other APKs or name another record. -/
def disagree (x y : Observation) : Bool :=
  x.digest ≠ y.digest || x.bundleApk ≠ y.bundleApk || x.restorationApk ≠ y.restorationApk

/-- The loop of `bound`. It ends without a result on a mismatch or on reads
that disagree. -/
def readBundles (plan : Text) : List Observation → Reads → Option Reads
  | [], r => some r
  | o :: rest, r =>
    if o.kind ≠ .bundle ∨ o.plan ≠ plan then readBundles plan rest r
    else if o.classification = .bundleMismatch then none
    else if o.classification = .bundleAbsent then
      readBundles plan rest { r with absent := r.absent ++ [o.subject] }
    else if r.found.any (fun f => disagree f o) then none
    else readBundles plan rest { r with found := some o, read := r.read ++ [o.subject] }

/-- The plan's publication as the store read it back complete, or none when
there is none or the reads of the plan's publication disagree: two such reads
bind other APKs, a read names other bytes, or one attempt read it both
published and absent. -/
def bound (v : View) (plan : Text) : Option Observation := do
  let r ← readBundles plan v.facts {}
  if r.absent.any (fun attempt => r.read.contains attempt) then none else r.found

/-- The APK digest the plan's publication binds to its VARIANT role. -/
def boundApk (v : View) (plan : Text) : Option Text := (v.bound plan).map (·.bundleApk)

def ofKind (v : View) (kind : ObservationKind) : List Observation :=
  v.facts.filter (fun o => o.kind = kind && o.boot = v.boot)

theorem mem_ofKind {v : View} {kind : ObservationKind} {o : Observation} :
    o ∈ v.ofKind kind ↔ o ∈ v.facts ∧ o.kind = kind ∧ o.boot = v.boot := by
  simp [ofKind]

theorem ofKind_sorted (v : View) (kind : ObservationKind) :
    (v.ofKind kind).Pairwise (fun x y => x.elapsed ≤ y.elapsed) :=
  v.sorted.filter _

theorem latest_eq_getLast (v : View) (kind : ObservationKind) :
    v.latest kind = (v.ofKind kind).getLast? :=
  pick_last_of_sorted _ _ v.facts (v.sorted.imp fun order => by simpa using order)

end View

/-! ## The cohort check -/

def reachedApplied (state : State) : Bool :=
  state = .applied || state = .healthWindow || state = .closedApplied || state = .superseded

/-- The status of the active bytes under a plan choice, and the plan that stands
in for the chosen one. None when the facts are incomplete. -/
def planRealization (s : Selection) (chosen temporary : Option Plan) (view : View)
    (boot active factory : Observation) : Option (Realization × Text) := do
  let chosen ← chosen
  if chosen.planId ≠ s.planId then none else
  -- The chosen and stand in bytes are what their publications bound.
  let chosenApk ← view.boundApk chosen.planId
  let standing := temporary.filter (fun t => t.planId = s.temporary)
  let temporaryApk ← match standing with
    | none => some none
    | some t => (view.boundApk t.planId).map some
  if some active.digest = temporaryApk then
    -- The owner's approved stand in from factory source. The choice stays.
    some (.temporaryFactory, s.temporary)
  else if active.digest = chosenApk then
    let cohort := boot.text = chosen.fingerprint ∧ factory.digest = chosen.factoryApk
    some (if cohort then .current else .staleBase, noId)
  else if active.digest = factory.digest ∧ active.classification = .factoryCopy then
    some (.displaced, noId)
  else some (.diverged, noId)

/-- The realization status of a selection in one boot. The choice and revision
never change here. While the active bytes are the bundle of an open ticket that
has not reached APPLIED, the previous status stands. Returns the selection
unchanged when the boot's facts are incomplete. -/
def cohortCheck (s : Selection) (chosen temporary : Option Plan) (view : View)
    (opened : Option (Ticket × Plan)) : Checked Selection :=
  match view.latest .boot, view.latest .active, view.latest .factory with
  | some boot, some active, some factory =>
    -- The open ticket reports the activation of its own bundle until it reaches APPLIED.
    if opened.any (fun (t, p) => !t.state.terminal && !reachedApplied t.state &&
        p.target ≠ .factory && some active.digest = view.boundApk p.planId) then .ok s
    else
      let status := if s.choice = .factory then
          some (if active.digest = factory.digest then Realization.current else .diverged, noId)
        else planRealization s chosen temporary view boot active factory
      match status with
      | none => .ok s
      | some (status, standIn) =>
        let repairing := opened.filter (fun (t, p) => status.repairable && !t.state.terminal &&
          s.choice = .plan && p.repairs = s.planId && p.target ≠ .temporaryFactory)
        let repair := match repairing with
          | some (_, p) => p.planId
          | none => if status.repairable then s.repair else noId
        s.realized status view.boot repair standIn
  | _, _, _ => .ok s

end Andrix.Deployment
