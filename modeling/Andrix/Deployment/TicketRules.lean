import Andrix.Deployment.Ledger

/-! What the ticket's constructor and the ticket machine's check allow. -/
namespace Andrix.Deployment
open Andrix.Lib

/-! ## The constructor -/

namespace Ticket.Builder

theorem count_eq (t : Builder) (c : Crossing) : t.count c = countOf c t.ledger := rfl

/-- The rules between a ticket's ledger and its other fields. -/
structure LedgerRules (t : Builder) : Prop where
  length : t.ledger.length ≤ maxLedger
  admitted : Admitted t.reference.nonce t.ledger
  nonce : 0 < t.count .create ↔ t.reference.has Reference.nonceField
  unreferenced : t.count .create = 0 → t.reference.presence = 0
  handed : ∀ heir ∈ handedTo t.ledger, heir = t.coordinator
  early : 0 < t.count .create → code State.sessionIntent ≤ code t.state
  late : code State.sessionIntent ≤ code t.state ∧ t.state ≠ .signFailed ∧ t.count .create = 0 →
    t.state = .cancelled ∨ t.state = .void ∨ t.state = .closedFailed

theorem validateLedger_eq_ok {t : Builder} : t.validateLedger = .ok () ↔ t.LedgerRules := by
  simp only [validateLedger, invalid_bind_eq_ok, Nat.not_lt]
  rw [bind_eq_ok]
  simp only [bind_unit_eq_ok, invalid_eq_ok, not_not, not_and, not_exists, ne_eq]
  constructor
  · rintro ⟨length, s, ran, nonce, unreferenced, handed, early, late⟩
    obtain ⟨scanned, admitted⟩ := Scanned.of_scan ran
    simp only [scanned.counts, scanned.handed] at nonce unreferenced handed early late
    refine ⟨length, admitted, nonce, unreferenced, handed,
      fun created => Nat.not_lt.mp (early created), ?_⟩
    rintro ⟨session, other, none⟩
    by_cases cancelled : t.state = .cancelled
    · exact .inl cancelled
    · by_cases void : t.state = .void
      · exact .inr (.inl void)
      · exact .inr (.inr (late session other none cancelled void))
  · rintro ⟨length, admitted, nonce, unreferenced, handed, early, late⟩
    obtain ⟨s, ran⟩ := admitted.scan
    obtain ⟨scanned, _⟩ := Scanned.of_scan ran
    refine ⟨length, s, ran, ?_⟩
    simp only [scanned.counts, scanned.handed]
    refine ⟨nonce, unreferenced, handed, fun created => Nat.not_lt.mpr (early created), ?_⟩
    intro session other none cancelled void
    rcases late ⟨session, other, none⟩ with closed | closed | closed
    · exact absurd closed cancelled
    · exact absurd closed void
    · exact closed

theorem LedgerRules.uncreated {t : Builder} (rules : t.LedgerRules)
    (before : code t.state < code State.sessionIntent) : t.count .create = 0 := by
  by_contra created
  exact absurd (rules.early (Nat.pos_of_ne_zero created)) (Nat.not_le.mpr before)

end Ticket.Builder

/-- Strictly before in the health order. -/
def Health.before (x y : Health) : Prop := x.user < y.user ∨ (x.user = y.user ∧ x.serial < y.serial)

theorem Health.before_iff {x y : Health} :
    x.before y ↔ ¬ (y.user < x.user ∨ (y.user = x.user ∧ y.serial ≤ x.serial)) := by
  simp only [Health.before, Int32.lt_iff_toInt_lt, Int64.lt_iff_toInt_lt, Int64.le_iff_toInt_le,
    ← Int32.toInt_inj]
  omega

theorem Health.before_trans {x y z : Health} (first : x.before y) (second : y.before z) :
    x.before z := by
  simp only [Health.before, Int32.lt_iff_toInt_lt, Int64.lt_iff_toInt_lt, ← Int32.toInt_inj] at *
  omega

namespace Ticket.Builder

private theorem validateHealth_some {observing : Bool} {h : Health} {l : List Health} :
    validateHealth observing (some h) l = .ok () ↔
      (∀ x ∈ l, x.outcome = .observing → observing = true) ∧ (h :: l).Pairwise Health.before := by
  induction l generalizing h with
  | nil => simp [validateHealth]
  | cons x rest ih =>
    simp only [validateHealth, bind_unit_eq_ok, invalid_eq_ok, Option.mem_def, Option.some.injEq,
      exists_eq_left', ← Health.before_iff, ih, not_and, Bool.not_eq_false, List.forall_mem_cons]
    constructor
    · rintro ⟨outcome, ordered, outcomes, chain⟩
      refine ⟨⟨outcome, outcomes⟩, List.pairwise_cons.mpr ⟨?_, chain⟩⟩
      rintro y (_ | ⟨_, member⟩)
      · exact ordered
      · exact Health.before_trans ordered ((List.pairwise_cons.mp chain).1 y member)
    · rintro ⟨⟨outcome, outcomes⟩, chain⟩
      obtain ⟨first, chain⟩ := List.pairwise_cons.mp chain
      exact ⟨outcome, first x (by simp), outcomes, chain⟩

/-- The health outcomes stand in strict order, OBSERVING only where it may. -/
theorem validateHealth_eq_ok {observing : Bool} {l : List Health} :
    validateHealth observing .none l = .ok () ↔
      (∀ x ∈ l, x.outcome = .observing → observing = true) ∧ l.Pairwise Health.before := by
  cases l with
  | nil => simp [validateHealth]
  | cons h rest =>
    simp only [validateHealth, bind_unit_eq_ok, invalid_eq_ok, Option.mem_def, reduceCtorEq,
      false_and, exists_false, not_false_eq_true, true_and, validateHealth_some, not_and,
      Bool.not_eq_false, List.forall_mem_cons, and_assoc]

theorem validateCause_eq_ok {t : Builder} : t.validateCause = .ok () ↔
    (t.state = .cancelled → t.cause = .cancelled) ∧
    (t.state = .void → t.cause.voids = true ∨ t.cause = .otherBytes) ∧
    (t.state = .diverged → t.cause = .otherBytes) ∧ (t.state = .closedFailed → t.cause = .none) := by
  unfold validateCause
  split <;> simp_all [or_iff_not_imp_left]

@[mk_iff] structure Valid (t : Builder) : Prop where
  installation : IsHex 32 t.installation ∧ t.installation ≠ noId
  ticketId : IsHex 32 t.ticketId ∧ t.ticketId ≠ noId
  component : IsPackage t.component
  planId : IsHex 32 t.planId ∧ t.planId ≠ noId
  attempt : ¬ t.attempt < 1
  coordinator : IsHex 32 t.coordinator ∧ t.coordinator ≠ noId
  flags : t.flags &&& ~~~ (flagUnresolved ||| flagBootLimit ||| flagRequestLimit) = 0
  unresolved : ¬ t.flags &&& flagUnresolved = 0 → t.state.intent = true
  bootCount : t.bootCount ≤ 0xffff
  boot : IsHex 32 t.boot
  counted : 0 < t.bootCount → ¬ t.boot = noId
  windowHex : IsHex 32 t.windowBoot
  successorHex : IsHex 32 t.successor
  window : ¬ t.state = .healthWindow ↔ t.windowBoot = noId
  windowStart : (t.state = .healthWindow → ¬ t.windowStart < 0) ∧
    (¬ t.state = .healthWindow → t.windowStart = 0)
  successor : ¬ t.state = .superseded ↔ t.successor = noId
  successorOther : ¬ t.successor = t.planId
  cause : t.validateCause = .ok ()
  healthState : ¬ t.health = [] → healthState t.state = true
  healthCount : t.health.length ≤ maxUsers
  health : (∀ x ∈ t.health, x.outcome = .observing →
    (t.state = .applied || t.state = .healthWindow) = true) ∧ t.health.Pairwise Health.before
  ledger : t.LedgerRules

theorem validate_eq_ok {t : Builder} : t.validate = .ok () ↔ t.Valid := by
  rw [valid_iff]
  simp only [validate, bind_unit_eq_ok, invalid_eq_ok, checkId_eq_ok, checkPackage_eq_ok,
    not_ite_iff, not_and, not_not, not_iff, ne_eq, Nat.not_lt, Bool.true_eq_false, false_imp_iff,
    and_true, true_imp_iff, validateHealth_eq_ok, validateLedger_eq_ok]

end Ticket.Builder

theorem Ticket.rules (t : Ticket) : t.toBuilder.Valid := Builder.validate_eq_ok.mp t.valid

/-! ## The ticket machine's check -/

namespace TicketMachine

/-- What the check allows between two different tickets, in its order. -/
structure Legal (before after : Ticket) : Prop where
  identity : before.installation = after.installation ∧ before.ticketId = after.ticketId ∧
    before.component = after.component ∧ before.planId = after.planId ∧
    before.attempt = after.attempt
  nonterminal : ¬ before.state.terminal = true
  exit : ¬ before.state = after.state → ¬ edge before.state after.state = none
  grows : ¬ after.ledger.length < before.ledger.length ∧
    after.ledger.take before.ledger.length = before.ledger
  added : after.ledger.length ≤ before.ledger.length + 1
  commit : ¬ before.state = after.state → after.count .commit = 0 →
    ¬ after.state = .diverged ∧ ¬ (before.state = .abandonIntent ∧ after.state = .bootObserved)
  entry : addedRule before after = .ok ()
  abandons : before.state = after.state → after.state = .abandonIntent →
    after.ledger.length = before.ledger.length → after.count .abandon = before.count .abandon
  coordinator : ¬ handover before after →
    before.coordinatorClass = after.coordinatorClass ∧ before.coordinator = after.coordinator
  boots : bootRule before after = .ok ()
  alerts : before.flags &&& (flagBootLimit ||| flagRequestLimit) &&& ~~~ after.flags = 0
  cause : code before.cause ≤ code after.cause
  higher : ¬ before.cause = .none → ¬ after.cause = before.cause → code before.cause < code after.cause
  reference : referenceRule before.reference after.reference = .ok ()
  health : healthRule after.health before.health = .ok ()
  successor : ¬ before.successor = after.successor → after.state = .superseded

theorem check_eq_ok {before after : Ticket} :
    check before after = .ok () ↔ before = after ∨ Legal before after := by
  by_cases same : before = after
  · simp [check, same]
  simp only [check, same, if_false, false_or, bind_unit_eq_ok, refuse_eq_ok,
    not_and, not_or, not_not, ne_eq, Nat.not_lt, Nat.not_le]
  constructor
  · rintro ⟨h1, h2, h3, h4, h5, h6, h7, h8, h9, h10, h11, h12, h13, h14, h15, h16⟩
    exact ⟨h1, h2, h3, ⟨Nat.not_lt.mpr h4.1, h4.2⟩, h5,
      fun moved none => ⟨(h6 moved none).1, fun both => (h6 moved none).2 both.1 both.2⟩,
      h7, h8, h9, h10, h11, h12, h13, h14, h15, h16⟩
  · rintro ⟨h1, h2, h3, h4, h5, h6, h7, h8, h9, h10, h11, h12, h13, h14, h15, h16⟩
    exact ⟨h1, h2, h3, ⟨Nat.not_lt.mp h4.1, h4.2⟩, h5,
      fun moved none => ⟨(h6 moved none).1, fun a b => (h6 moved none).2 ⟨a, b⟩⟩,
      h7, h8, h9, h10, h11, h12, h13, h14, h15, h16⟩

end TicketMachine
end Andrix.Deployment
