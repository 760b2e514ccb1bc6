import Mathlib.Data.List.Chain
import Mathlib.Data.Nat.Find

/-! Runs whose changes are paid for. A rank that falls with every change of one
reading, and that only a change of another reading may raise, bounds how often the
first changes between changes of the second. -/
namespace Andrix.Lib

variable {α κ μ : Type}

/-- How often a reading changes along a run. -/
def changes [DecidableEq κ] (reading : α → κ) : List α → Nat
  | x :: y :: rest => (if reading x = reading y then 0 else 1) + changes reading (y :: rest)
  | _ => 0

/-- Every change of `reading` lowers the rank, and only a change of `mark` may
raise it. -/
structure Paid (step : α → α → Prop) (reading : α → κ) (mark : α → μ) (rank : α → Nat) (top : Nat) :
    Prop where
  bounded : ∀ x, rank x ≤ top
  kept : ∀ x y, step x y → mark x = mark y → rank y ≤ rank x
  paid : ∀ x y, step x y → mark x = mark y → reading x ≠ reading y → rank y < rank x

namespace Paid
variable {step : α → α → Prop} {reading : α → κ} {mark : α → μ} {rank : α → Nat} {top : Nat}

/-- What the rank of the first element pays for. -/
theorem changes_le_rank [DecidableEq κ] [DecidableEq μ] (paid : Paid step reading mark rank top)
    {x : α} {run : List α} (steps : (x :: run).IsChain step) :
    changes reading (x :: run) ≤ rank x + changes mark (x :: run) * (top + 1) := by
  induction run generalizing x with
  | nil => simp [changes]
  | cons y rest ih =>
    obtain ⟨first, others⟩ := List.isChain_cons_cons.mp steps
    have later := ih others
    have once : (if reading x = reading y then 0 else 1) ≤ 1 := by split <;> omega
    simp only [changes]
    by_cases marked : mark x = mark y
    · -- The step pays for its own change from the rank.
      have own : (if reading x = reading y then 0 else 1) + rank y ≤ rank x := by
        have kept := paid.kept x y first marked
        split
        · omega
        · have fell := paid.paid x y first marked ‹_›
          omega
      simp only [marked, if_true, Nat.zero_add]
      omega
    · -- A new mark pays for a whole rank and for its own step.
      have high := paid.bounded y
      simp only [marked, if_false, Nat.add_mul, Nat.one_mul]
      omega

/-- Between two marks a run changes at most as often as the rank is high. -/
theorem changes_le [DecidableEq κ] [DecidableEq μ] (paid : Paid step reading mark rank top)
    {run : List α} (steps : run.IsChain step) :
    changes reading run ≤ (changes mark run + 1) * (top + 1) := by
  cases run with
  | nil => simp [changes]
  | cons x rest =>
    have ranked := paid.changes_le_rank steps
    have high := paid.bounded x
    rw [Nat.add_mul, Nat.one_mul]
    omega

theorem settles (paid : Paid step reading mark rank top) {run : Nat → α}
    (steps : ∀ n, step (run n) (run (n + 1))) {start : Nat}
    (unmarked : ∀ n ≥ start, mark (run n) = mark (run start)) :
    ∃ last, ∀ n ≥ last, reading (run n) = reading (run last) := by
  have marked (n : Nat) (later : n ≥ start) : mark (run n) = mark (run (n + 1)) := by
    rw [unmarked n later, unmarked (n + 1) (by omega)]
  -- The lowest rank after the last mark is never left again.
  have reached : ∃ r n, n ≥ start ∧ rank (run n) = r := ⟨_, start, Nat.le_refl _, rfl⟩
  classical
  obtain ⟨last, after, lowest⟩ := Nat.find_spec reached
  have least (n : Nat) (later : n ≥ start) : rank (run last) ≤ rank (run n) := by
    rw [lowest]
    exact Nat.find_min' reached ⟨n, later, rfl⟩
  refine ⟨last, fun n later => ?_⟩
  induction n, later using Nat.le_induction with
  | base => rfl
  | succ n later ih =>
    have here : n ≥ start := Nat.le_trans after later
    rw [← ih]
    by_contra changed
    have fell := paid.paid _ _ (steps n) (marked n here) (Ne.symm changed)
    have low := least (n + 1) (by omega)
    have bound : rank (run n) ≤ rank (run last) := by
      clear ih changed fell low
      induction n, later using Nat.le_induction with
      | base => exact Nat.le_refl _
      | succ m later ih =>
        exact Nat.le_trans (paid.kept _ _ (steps m) (marked m (Nat.le_trans after later)))
          (ih (Nat.le_trans after later))
    omega

end Paid
end Andrix.Lib
