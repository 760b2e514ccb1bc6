import Andrix.Lib.Ranking
import Andrix.Deployment.TicketRules

/-! Every loop of the ticket machine is paid for. The states have a rank that
every edge lowers but two kinds: a boot edge needs a new boot, and entering
REBOOT_INTENT adds a reboot request to the ledger, of which a valid ticket holds
a bounded number. -/
namespace Andrix.Deployment
open Andrix.Lib

/-- How far a state is from a terminal one, along the edges within one boot. -/
def State.rank : State → Nat
  | .planned => 16 | .authorized => 15 | .signing => 14 | .signed => 13 | .published => 12
  | .sessionIntent => 11 | .sessionBound => 10 | .written => 9 | .commitIntent => 8
  | .bootObserved => 8 | .readyAgain => 7 | .rebootIntent => 6 | .ready => 5
  | .nativeRecordLost => 4 | .appliedProvisional => 3 | .applied => 2 | .abandonIntent => 2
  | .healthWindow | .signFailed | .noSession | .abandoned | .failedNative => 1
  | .closedApplied | .closedFailed | .cancelled | .void | .diverged | .superseded => 0

/-- The rank of a ticket: that of its state, and two for each reboot request that
its ledger has room for. -/
def Ticket.rank (t : Ticket) : Nat :=
  t.state.rank + 2 * (Crossing.reboot.bound - t.count .reboot)

def MayFollow (before after : Ticket) : Prop := TicketMachine.check before after = .ok ()

namespace TicketMachine

theorem edge_mem {before after : State} {kind : Edge} (found : edge before after = some kind) :
    (after, kind) ∈ exits before := by
  obtain ⟨⟨target, kind'⟩, exit, rfl⟩ := Option.map_eq_some_iff.mp found
  have same : target = after := by simpa using List.find?_some exit
  subst same
  exact List.mem_of_find?_eq_some exit

/-- Within one boot every edge lowers the rank, but those into REBOOT_INTENT. -/
theorem rank_edge {before after : State} {kind : Edge} (found : edge before after = some kind)
    (inBoot : kind ≠ .boot) (other : before ≠ after) :
    after.rank < before.rank ∨ (after = .rebootIntent ∧ after.rank ≤ before.rank + 1) := by
  have table : ∀ exit ∈ exits before, exit.2 ≠ .boot → before ≠ exit.1 →
      exit.1.rank < before.rank ∨ (exit.1 = .rebootIntent ∧ exit.1.rank ≤ before.rank + 1) := by
    cases before <;> decide
  exact table _ (edge_mem found) inBoot other

variable {before after : Ticket}

theorem Legal.ledger (legal : Legal before after) : ∃ added, after.ledger = before.ledger ++ added ∧
    added.length ≤ 1 := by
  refine ⟨after.ledger.drop before.ledger.length, ?_, ?_⟩
  · have split := List.take_append_drop before.ledger.length after.ledger
    rw [legal.grows.2] at split
    exact split.symm
  · have added := legal.added
    rw [List.length_drop]
    omega

theorem Legal.count_le (legal : Legal before after) (crossing : Crossing) :
    before.count crossing ≤ after.count crossing := by
  obtain ⟨added, grown, _⟩ := legal.ledger
  simp only [Ticket.Builder.count, grown, List.countP_append]
  omega

theorem Legal.enters_reboot (legal : Legal before after) (other : before.state ≠ after.state)
    (reboot : after.state = .rebootIntent) : after.count .reboot = before.count .reboot + 1 := by
  obtain ⟨added, grown, few⟩ := legal.ledger
  have entry := legal.entry
  unfold addedRule at entry
  match added with
  | [] =>
    simp [grown, reboot, crossingInto] at entry
    exact absurd (reboot ▸ entry) other
  | [e] =>
    have same : ¬ before.state = .rebootIntent := reboot ▸ other
    simp [grown, reboot, crossingInto, same] at entry
    simp [Ticket.Builder.count, grown, List.countP_append, ← entry]
  | _ :: _ :: _ => simp at few

/-- A change of state within one boot lowers the rank: the room for a reboot
request pays for entering REBOOT_INTENT. -/
theorem Legal.rank_lt (legal : Legal before after) (inBoot : before.boot = after.boot)
    (other : before.state ≠ after.state) : after.rank < before.rank := by
  have grown := legal.count_le .reboot
  obtain ⟨kind, found⟩ := Option.ne_none_iff_exists'.mp (legal.exit other)
  have inBoot : kind ≠ .boot := by
    rintro rfl
    have boots := legal.boots
    simp [bootRule, inBoot, other, found] at boots
  simp only [Ticket.rank]
  rcases rank_edge found inBoot other with lower | ⟨reboot, raised⟩
  · omega
  have recorded := legal.enters_reboot other reboot
  have room : after.count .reboot ≤ Crossing.reboot.bound :=
    after.rules.ledger.admitted.bounded .reboot
  omega

end TicketMachine

theorem State.rank_le (s : State) : s.rank ≤ 16 := by
  cases s <;> decide

/-- Within one boot the rank of a ticket pays for every change of its state. -/
theorem states_paid : Paid MayFollow (fun t : Ticket => t.state) (fun t => t.boot) Ticket.rank 48 where
  bounded t := by
    have low := t.state.rank_le
    simp only [Ticket.rank, Crossing.bound]
    omega
  kept before after follows inBoot := by
    rcases TicketMachine.check_eq_ok.mp follows with rfl | legal
    · exact Nat.le_refl _
    have grown := legal.count_le .reboot
    by_cases same : before.state = after.state
    · simp only [Ticket.rank, same]
      omega
    · exact Nat.le_of_lt (legal.rank_lt inBoot same)
  paid before after follows inBoot other := by
    rcases TicketMachine.check_eq_ok.mp follows with rfl | legal
    · exact absurd rfl other
    · exact legal.rank_lt inBoot other

/-- There is a bound on the state changes within one boot. A run with so many new
boots changes its state at most so often in each, and a run without new boots
settles. -/
theorem loops_are_paid_for : ∃ bound,
    (∀ run : List Ticket, run.IsChain MayFollow → changes (·.boot) run = 0 →
      changes (·.state) run ≤ bound) ∧
    (∀ run : List Ticket, run.IsChain MayFollow →
      changes (·.state) run ≤ (changes (·.boot) run + 1) * bound) ∧
    (∀ run : Nat → Ticket, (∀ n, MayFollow (run n) (run (n + 1))) →
      (∃ start, ∀ n ≥ start, (run n).boot = (run start).boot) →
      ∃ last, ∀ n ≥ last, (run n).state = (run last).state) := by
  refine ⟨49, ?_, ?_, ?_⟩
  · intro run follows inBoot
    have bounded := states_paid.changes_le follows
    rw [inBoot] at bounded
    simpa using bounded
  · intro run follows
    exact states_paid.changes_le follows
  · rintro run follows ⟨start, inBoot⟩
    exact states_paid.settles follows inBoot

end Andrix.Deployment
