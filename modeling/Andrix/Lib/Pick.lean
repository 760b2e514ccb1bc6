import Mathlib.Order.Basic
import Mathlib.Data.List.Induction

/-! A loop that keeps the best matching element seen so far. The loop replaces
the kept element when a matching one is better. When `better` follows a rank,
the result is a match of the greatest rank, so it depends on the order of the
list only where two matches tie. -/
namespace Andrix.Lib
open List

variable {α β : Type}

theorem rel_cases {r : α → β → Prop} {x : Option α} {y : Option β} (rel : Option.Rel r x y) :
    x = none ∧ y = none ∨ ∃ a b, x = some a ∧ y = some b ∧ r a b := by
  cases rel with
  | none => exact .inl ⟨rfl, rfl⟩
  | some related => exact .inr ⟨_, _, rfl, rfl, related⟩

theorem rel_mono {r q : α → β → Prop} {x : Option α} {y : Option β} (rel : Option.Rel r x y)
    (weaker : ∀ a b, r a b → q a b) : Option.Rel q x y := by
  cases rel with
  | none => exact .none
  | some related => exact .some (weaker _ _ related)

/-- One turn of the loop. -/
def pickStep (p : α → Bool) (better : α → α → Bool) (best : Option α) (x : α) : Option α :=
  if p x && best.all (better x) then some x else best

/-- The kept element after the whole list. -/
def pick (p : α → Bool) (better : α → α → Bool) (l : List α) : Option α :=
  l.foldl (pickStep p better) none

theorem pick_append_singleton (p : α → Bool) (better : α → α → Bool) (l : List α) (x : α) :
    pick p better (l ++ [x]) = pickStep p better (pick p better l) x := by
  simp [pick]

variable {better : α → α → Bool} {p : α → Bool} {x : α}

theorem pickStep_eq_none {best : Option α} :
    pickStep p better best x = none ↔ best = none ∧ p x = false := by
  unfold pickStep
  cases best <;> split <;> simp_all

theorem pick_eq_none {l : List α} :
    pick p better l = none ↔ ∀ x ∈ l, p x = false := by
  induction l using List.reverseRecOn with
  | nil => simp [pick]
  | append_singleton l x ih =>
    rw [pick_append_singleton, pickStep_eq_none, ih]
    simp only [mem_append, mem_singleton, or_imp, forall_and, forall_eq]

theorem pick_some {l : List α}
    (kept : pick p better l = some x) : x ∈ l ∧ p x = true := by
  induction l using List.reverseRecOn with
  | nil => cases kept
  | append_singleton l y ih =>
    rw [pick_append_singleton] at kept
    unfold pickStep at kept
    split at kept
    · rename_i chosen
      cases kept
      exact ⟨by simp, (Bool.and_eq_true_iff.mp chosen).1⟩
    · exact ⟨mem_append_left _ (ih kept).1, (ih kept).2⟩

/-- A rank that the loop's comparison follows: a better element ranks no lower,
and one that is not better ranks no higher. -/
structure Follows [Preorder β] (better : α → α → Bool) (rank : α → β) : Prop where
  of_better : ∀ x y, better x y = true → rank y ≤ rank x
  of_not_better : ∀ x y, better x y = false → rank x ≤ rank y

theorem pick_greatest [Preorder β] {rank : α → β}
    (follows : Follows better rank) {l : List α} (kept : pick p better l = some x) :
    ∀ y ∈ l, p y = true → rank y ≤ rank x := by
  induction l using List.reverseRecOn generalizing x with
  | nil => cases kept
  | append_singleton l z ih =>
    rw [pick_append_singleton] at kept
    cases before : pick p better l with
    | none =>
      have none_match := pick_eq_none.mp before
      rw [before] at kept
      intro y member matches_
      rcases mem_append.mp member with earlier | last
      · simp [none_match y earlier] at matches_
      simp only [mem_singleton] at last
      subst last
      simp only [pickStep, matches_, Option.all_none, Bool.and_true, if_true,
        Option.some.injEq] at kept
      rw [kept]
    | some b =>
      rw [before] at kept
      intro y member matches_
      simp only [pickStep, Option.all_some] at kept
      split at kept
      · rename_i chosen
        cases kept
        rcases mem_append.mp member with earlier | last
        · exact le_trans (ih before y earlier matches_)
            (follows.of_better _ _ (Bool.and_eq_true_iff.mp chosen).2)
        · simp only [mem_singleton] at last
          rw [last]
      · rename_i refused
        cases kept
        rcases mem_append.mp member with earlier | last
        · exact ih before y earlier matches_
        simp only [mem_singleton] at last
        subst last
        refine follows.of_not_better _ _ ?_
        simpa [matches_] using refused

/-- When every later element is better, the loop keeps the last match. -/
theorem pick_last_of_sorted (p : α → Bool) (better : α → α → Bool) (l : List α)
    (sorted : l.Pairwise (fun x y => better y x = true)) :
    pick p better l = (l.filter p).getLast? := by
  induction l using List.reverseRecOn with
  | nil => rfl
  | append_singleton l x ih =>
    obtain ⟨before, _, last⟩ := pairwise_append.mp sorted
    rw [pick_append_singleton, filter_append]
    cases kept : pick p better l with
    | none =>
      rw [ih before] at kept
      cases matched : p x <;> simp [pickStep, matched, List.getLast?_append, kept]
    | some y =>
      have after := last y (pick_some kept).1 x (by simp)
      rw [ih before] at kept
      cases matched : p x <;> simp [pickStep, matched, List.getLast?_append, kept, after]

theorem related_to_last {α : Type} {r : α → α → Prop} {l : List α} {z : α} (related : l.Pairwise r)
    (last : l.getLast? = some z) : ∀ x ∈ l, x = z ∨ r x z := by
  obtain ⟨before, rfl⟩ := List.getLast?_eq_some_iff.mp last
  intro x among
  rcases mem_append.mp among with inside | single
  · exact .inr ((pairwise_append.mp related).2.2 x inside z (by simp))
  · exact .inl (mem_singleton.mp single)

end Andrix.Lib
