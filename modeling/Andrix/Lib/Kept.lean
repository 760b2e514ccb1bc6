import Mathlib.Order.Lattice
import Andrix.Lib.Pick

/-! A list of which only some elements were kept. Each element is paired with
whether it was kept, and a loop over the kept ones is compared with the same loop
over all of them. -/
namespace Andrix.Lib
open List

variable {α β : Type}

def kept (l : List (α × Bool)) : List α := (l.filter Prod.snd).map Prod.fst

/-- Every element, kept or not, in order. -/
def allOf (l : List (α × Bool)) : List α := l.map Prod.fst

@[simp] theorem kept_nil : kept ([] : List (α × Bool)) = [] := rfl

@[simp] theorem kept_append (l m : List (α × Bool)) : kept (l ++ m) = kept l ++ kept m := by
  simp [kept]

@[simp] theorem kept_singleton (x : α) (tag : Bool) :
    kept [(x, tag)] = if tag then [x] else [] := by
  cases tag <;> rfl

@[simp] theorem allOf_append (l m : List (α × Bool)) : allOf (l ++ m) = allOf l ++ allOf m := by
  simp [allOf]

@[simp] theorem allOf_singleton (x : α) (tag : Bool) : allOf [(x, tag)] = [x] := rfl

variable {l : List (α × Bool)} {x : α}

@[simp] theorem mem_kept : x ∈ kept l ↔ (x, true) ∈ l := by
  simp [kept]

theorem mem_allOf :
    x ∈ allOf l ↔ (x, true) ∈ l ∨ (x, false) ∈ l := by
  simp [allOf, or_comm]

@[simp] theorem kept_map_true (l : List α) : kept (l.map (·, true)) = l := by
  induction l with
  | nil => rfl
  | cons x l ih => exact congrArg (x :: ·) ih

@[simp] theorem allOf_map_true (l : List α) : allOf (l.map (·, true)) = l := by
  simp [allOf, Function.comp_def]

/-- Elements of which none was left out are the same on both sides. -/
theorem filter_kept {q : α → Bool}
    (none_ : ∀ x, (x, false) ∈ l → q x = false) : (kept l).filter q = (allOf l).filter q := by
  induction l with
  | nil => rfl
  | cons head l ih =>
    obtain ⟨x, tag⟩ := head
    have rest := ih (fun y inside => none_ y (mem_cons_of_mem _ inside))
    cases tag with
    | true =>
      change (x :: kept l).filter q = (x :: allOf l).filter q
      rw [filter_cons, filter_cons, rest]
    | false =>
      change (kept l).filter q = (x :: allOf l).filter q
      rw [filter_cons, if_neg (by simp [none_ x mem_cons_self]), rest]

theorem kept_subset (inside : x ∈ kept l) : x ∈ allOf l :=
  mem_allOf.mpr (.inl (mem_kept.mp inside))

section
variable [LinearOrder β] {better : α → α → Bool} {rank : α → β} {p : α → Bool}

variable (rank) in
/-- A loop that keeps the first least match does not see an element left out for
an earlier one that is no larger. -/
theorem pick_kept_first (strict : ∀ x y, better x y = true ↔ rank x < rank y)
    (l : List (α × Bool))
    (repeated : ∀ front x back, l = front ++ (x, false) :: back → p x = true →
      ∃ y ∈ allOf front, p y = true ∧ rank y ≤ rank x) :
    pick p better (kept l) = pick p better (allOf l) := by
  have follows : Follows better (fun x => OrderDual.toDual (rank x)) := by
    constructor
    · intro x y wins
      exact le_of_lt ((strict x y).mp wins)
    · intro x y loses
      exact not_lt.mp (fun less => by simp [(strict x y).mpr less] at loses)
  induction l using List.reverseRecOn with
  | nil => rfl
  | append_singleton l last ih =>
    obtain ⟨x, tag⟩ := last
    have before := ih (fun front y back split => repeated front y (back ++ [(x, tag)])
      (by simp [split]))
    rw [allOf_append, allOf_singleton, pick_append_singleton, ← before, kept_append, kept_singleton]
    cases tag with
    | true => simp only [if_true, pick_append_singleton]
    | false =>
      simp only [Bool.false_eq_true, if_false, append_nil]
      cases matched : p x with
      | false => simp [pickStep, matched]
      | true =>
        obtain ⟨y, inside, found, below⟩ := repeated l x [] rfl matched
        cases best : pick p better (kept l) with
        | none =>
          rw [before] at best
          simp [pick_eq_none.mp best y inside] at found
        | some b =>
          -- The kept element is no larger than the earlier one, so it stays.
          have least : rank b ≤ rank y := by
            rw [before] at best
            exact pick_greatest follows best y inside found
          have stays : better x b = false := by
            rw [Bool.eq_false_iff]
            intro wins
            exact absurd ((strict x b).mp wins) (not_lt_of_ge (le_trans least below))
          simp [pickStep, stays]

/-- How the loop that keeps the last greatest match stands over the kept elements
beside all of them, in the middle of a batch: the two agree, on an element that
was kept or that is older than the whole batch, or all of them ends at an element
of the batch that was left out. -/
def KeptLast (p : α → Bool) (better : α → α → Bool) (rank : α → β) (R : α → α → Prop)
    (batch old done : List (α × Bool)) : Prop :=
  Option.Rel (fun a b => R a b ∧ (b ∈ kept (old ++ done) ∨
      ∀ t ∈ allOf batch, p t = true → rank b < rank t))
    (pick p better (kept (old ++ done))) (pick p better (allOf (old ++ done))) ∨
  ∃ t, (t, false) ∈ done ∧ p t = true ∧ pick p better (allOf (old ++ done)) = some t

variable {R : α → α → Prop}

private theorem follows_later (later : ∀ x y, better x y = true ↔ rank y ≤ rank x) :
    Follows better rank := by
  constructor
  · intro a b wins
    exact (later a b).mp wins
  · intro a b loses
    exact le_of_not_ge (fun above => by simp [(later a b).mpr above] at loses)

theorem KeptLast.keep (later : ∀ x y, better x y = true ↔ rank y ≤ rank x) (refl : ∀ x, R x x)
    {batch old done : List (α × Bool)} (inside : x ∈ allOf batch)
    (stands : KeptLast p better rank R batch old done) :
    KeptLast p better rank R batch old (done ++ [(x, true)]) := by
  have follows := follows_later later
  unfold KeptLast at stands ⊢
  rw [← append_assoc, kept_append, allOf_append, kept_singleton, allOf_singleton, if_pos rfl,
    pick_append_singleton, pick_append_singleton]
  cases matched : p x with
  | false =>
    simp only [pickStep, matched, Bool.false_and, Bool.false_eq_true, if_false]
    refine stands.imp (fun rel => ?_) (fun left => ?_)
    · exact rel_mono rel (fun a b both => ⟨both.1, both.2.imp_left (mem_append_left _)⟩)
    · obtain ⟨t, out, rest⟩ := left
      exact ⟨t, mem_append_left _ out, rest⟩
  | true =>
    -- Where both loops take the new element they agree on it.
    have taken : R x x ∧ (x ∈ kept (old ++ done) ++ [x] ∨
        ∀ t ∈ allOf batch, p t = true → rank x < rank t) :=
      ⟨refl x, .inl (mem_append_right _ mem_cons_self)⟩
    have below : ∀ a b, pick p better (kept (old ++ done)) = some a →
        pick p better (allOf (old ++ done)) = some b → rank a ≤ rank b := by
      intro a b bestA bestB
      exact pick_greatest follows bestB a (kept_subset (pick_some bestA).1) (pick_some bestA).2
    rcases stands with rel | ⟨t, out, found, best⟩
    · rcases rel_cases rel with ⟨noneA, noneB⟩ | ⟨a, b, bestA, bestB, related, from_⟩
      · simp only [noneA, noneB, pickStep, matched, Option.all_none, Bool.and_self, if_true]
        exact .inl (.some taken)
      · have order := below a b bestA bestB
        simp only [bestA, bestB, pickStep, matched, Option.all_some, Bool.true_and, later]
        by_cases newest : rank b ≤ rank x
        · rw [if_pos (le_trans order newest), if_pos newest]
          exact .inl (.some taken)
        -- The newest of all is no older than the new element, so it was kept.
        have keptB : b ∈ kept (old ++ done) := by
          rcases from_ with keptB | older
          · exact keptB
          · exact absurd (le_of_lt (older x inside matched)) newest
        have same : rank b ≤ rank a := pick_greatest follows bestA b keptB (pick_some bestB).2
        rw [if_neg (fun above => newest (le_trans same above)), if_neg newest]
        exact .inl (.some ⟨related, .inl (mem_append_left _ keptB)⟩)
    · by_cases newest : rank t ≤ rank x
      · refine .inl ?_
        have atX : pickStep p better (pick p better (kept (old ++ done))) x = some x := by
          cases bestA : pick p better (kept (old ++ done)) with
          | none => simp [pickStep, matched]
          | some a => simp [pickStep, matched, (later x a).mpr (le_trans (below a t bestA best) newest)]
        rw [atX, best]
        simp only [pickStep, matched, Option.all_some, (later x t).mpr newest, Bool.and_self, if_true]
        exact .some taken
      · refine .inr ⟨t, mem_append_left _ out, found, ?_⟩
        rw [best]
        simp [pickStep, later, newest]

/-- One element of the batch that was left out. -/
theorem KeptLast.leave {batch old done : List (α × Bool)}
    (stands : KeptLast p better rank R batch old done) :
    KeptLast p better rank R batch old (done ++ [(x, false)]) := by
  unfold KeptLast at stands ⊢
  rw [← append_assoc, kept_append, allOf_append, kept_singleton, allOf_singleton,
    if_neg Bool.false_ne_true, append_nil, pick_append_singleton]
  by_cases taken : p x = true ∧ (pick p better (allOf (old ++ done))).all (better x) = true
  · refine .inr ⟨x, mem_append_right _ mem_cons_self, taken.1, ?_⟩
    rw [pickStep, taken.1, taken.2]
    rfl
  have stays : pickStep p better (pick p better (allOf (old ++ done))) x =
      pick p better (allOf (old ++ done)) := by
    rw [pickStep, if_neg (by simpa using taken)]
  rw [stays]
  refine stands.imp_right (fun left => ?_)
  obtain ⟨t, out, rest⟩ := left
  exact ⟨t, mem_append_left _ out, rest⟩

variable (rank) in
/-- Keeping only some elements of a batch keeps the content of the last greatest
match, when it did before, whatever was left out earlier is older than the batch,
and each match left out of the batch has the content of the last one kept. -/
theorem pick_kept_last (later : ∀ x y, better x y = true ↔ rank y ≤ rank x) (refl : ∀ x, R x x)
    {old batch : List (α × Bool)}
    (before : Option.Rel R (pick p better (kept old)) (pick p better (allOf old)))
    (older : ∀ x ∈ allOf old, p x = true → x ∈ kept old ∨
      ∀ t ∈ allOf batch, p t = true → rank x < rank t)
    (ends : ∀ t, (t, false) ∈ batch → p t = true →
      ∃ a, pick p better (kept (old ++ batch)) = some a ∧ R a t) :
    Option.Rel R (pick p better (kept (old ++ batch))) (pick p better (allOf (old ++ batch))) := by
  have start : KeptLast p better rank R batch old [] := by
    refine .inl ?_
    rw [append_nil]
    rcases rel_cases before with ⟨noneA, noneB⟩ | ⟨a, b, bestA, bestB, related⟩
    · rw [noneA, noneB]
      exact .none
    · rw [bestA, bestB]
      exact .some ⟨related, older b (pick_some bestB).1 (pick_some bestB).2⟩
  have steps : ∀ done, (∀ x ∈ allOf done, x ∈ allOf batch) →
      KeptLast p better rank R batch old done := by
    intro done
    induction done using List.reverseRecOn with
    | nil => exact fun _ => start
    | append_singleton done last ih =>
      intro part
      obtain ⟨x, tag⟩ := last
      have earlier := ih (fun y inside => part y (by simp [inside]))
      cases tag with
      | true => exact earlier.keep later refl (part x (by simp))
      | false => exact earlier.leave
  rcases steps batch (fun _ inside => inside) with rel | ⟨t, out, found, best⟩
  · exact rel_mono rel (fun _ _ both => both.1)
  · obtain ⟨a, bestA, related⟩ := ends t out found
    rw [bestA, best]
    exact .some related

end

end Andrix.Lib
