import Mathlib.Data.List.Sort
import Andrix.Lib.Pick

/-! Stable sorts and loops over them. Sorting commutes with filtering, the loop
that keeps the last greatest or the first least element gives the same before and
after a stable sort, and a loop whose turns commute on ties does not depend on
how ties are ordered. -/
namespace Andrix.Lib
open List

variable {α β σ : Type}

section
variable {r : α → α → Prop} [DecidableRel r]

theorem filter_orderedInsert [IsTrans α r] (p : α → Bool) (a : α) {l : List α}
    (sorted : l.Pairwise r) : (l.orderedInsert r a).filter p =
      if p a then (l.filter p).orderedInsert r a else l.filter p := by
  induction l with
  | nil => cases kept : p a <;> simp [kept]
  | cons b rest ih =>
    obtain ⟨below, sorted⟩ := pairwise_cons.mp sorted
    by_cases before : r a b
    · rw [orderedInsert_cons, if_pos before]
      cases keptA : p a with
      | false => simp [keptA]
      | true =>
        -- What follows `b` is no smaller, so `a` still comes first without it.
        have first : ∀ c ∈ (b :: rest).filter p, r a c := by
          intro c member
          rcases mem_cons.mp (mem_filter.mp member).1 with rfl | inside
          · exact before
          · exact trans_of r before (below c inside)
        have heads : ∀ m : List α, (∀ c ∈ m, r a c) → m.orderedInsert r a = a :: m := by
          intro m all
          cases m with
          | nil => rfl
          | cons c m => rw [orderedInsert_cons, if_pos (all c mem_cons_self)]
        rw [heads _ first]
        simp [keptA]
    · rw [orderedInsert_cons, if_neg before, filter_cons, filter_cons, ih sorted]
      cases keptA : p a <;> cases keptB : p b <;> simp [before]

theorem filter_insertionSort [IsTrans α r] [Std.Total r] (p : α → Bool) (l : List α) :
    (l.insertionSort r).filter p = (l.filter p).insertionSort r := by
  induction l with
  | nil => rfl
  | cons a l ih =>
    rw [insertionSort_cons, filter_orderedInsert p a (pairwise_insertionSort r l), ih]
    cases kept : p a <;> simp [kept]

omit [DecidableRel r] in
/-- A loop whose turns commute on ties gives the same over two sorted orders of
one collection. -/
theorem foldl_eq_of_sorted_perm {f : σ → α → σ} {xs ys : List α} (perm : xs.Perm ys)
    (sortedX : xs.Pairwise r) (sortedY : ys.Pairwise r)
    (commutes : ∀ a ∈ xs, ∀ b ∈ xs, r a b → r b a → ∀ s, f (f s a) b = f (f s b) a) (s : σ) :
    xs.foldl f s = ys.foldl f s := by
  induction xs generalizing ys s with
  | nil => rw [nil_perm.mp perm]
  | cons a xs ih =>
    obtain ⟨least, sortedX⟩ := pairwise_cons.mp sortedX
    obtain ⟨before, after, rfl⟩ := append_of_mem (perm.mem_iff.mp mem_cons_self)
    have rest : xs.Perm (before ++ after) :=
      (perm_cons a).mp (perm.trans perm_middle)
    obtain ⟨_, _, order⟩ := pairwise_append.mp sortedY
    -- Everything before the least element ties with it, so it may go first.
    have ties : ∀ b ∈ before, ∀ s, f (f s b) a = f (f s a) b := by
      intro b inside s
      have inXs : b ∈ xs := rest.mem_iff.mpr (mem_append_left _ inside)
      exact (commutes a mem_cons_self b (mem_cons_of_mem _ inXs) (least b inXs)
        (order b inside a mem_cons_self) s).symm
    have moved : ∀ (part : List α), (∀ b ∈ part, ∀ s, f (f s b) a = f (f s a) b) → ∀ s,
        f (part.foldl f s) a = part.foldl f (f s a) := by
      intro part each
      induction part with
      | nil => intro s; rfl
      | cons b part ih' =>
        intro s
        rw [foldl_cons, ih' (fun c inside => each c (mem_cons_of_mem _ inside)),
          each b mem_cons_self, foldl_cons]
    have sortedRest : (before ++ after).Pairwise r :=
      sortedY.sublist (List.Sublist.append_left (sublist_cons_self a after) before)
    rw [foldl_cons, foldl_append, foldl_cons, moved before ties,
      ← foldl_append]
    exact ih rest sortedX sortedRest (fun c inC d inD => commutes c (mem_cons_of_mem _ inC) d
      (mem_cons_of_mem _ inD)) (f s a)

omit [DecidableRel r] in
/-- Sorted lists are equal when they agree on every key and only elements of one
key tie. -/
theorem eq_of_sorted_of_filters {κ : Type} [DecidableEq κ] [Std.Refl r] (key : α → κ)
    (tie : ∀ a b, r a b → r b a → key a = key b) {xs ys : List α} (sortedX : xs.Pairwise r)
    (sortedY : ys.Pairwise r)
    (same : ∀ k, xs.filter (fun a => key a = k) = ys.filter (fun a => key a = k)) : xs = ys := by
  have member : ∀ a, a ∈ xs ↔ a ∈ ys := by
    intro a
    have here := congrArg (a ∈ ·) (same (key a))
    simpa using here
  induction xs generalizing ys with
  | nil =>
    cases ys with
    | nil => rfl
    | cons b ys => simpa using (member b).mpr mem_cons_self
  | cons a xs ih =>
    cases ys with
    | nil => simpa using (member a).mp mem_cons_self
    | cons b ys =>
      obtain ⟨leastX, tailX⟩ := pairwise_cons.mp sortedX
      obtain ⟨leastY, tailY⟩ := pairwise_cons.mp sortedY
      have before : ∀ c ∈ a :: xs, r a c := by
        intro c inside
        rcases mem_cons.mp inside with rfl | inside
        · exact refl_of r c
        · exact leastX c inside
      have after : ∀ c ∈ b :: ys, r b c := by
        intro c inside
        rcases mem_cons.mp inside with rfl | inside
        · exact refl_of r c
        · exact leastY c inside
      -- Both heads are least, so they tie, and each is the first of its key.
      have keys : key a = key b :=
        tie a b (before b ((member b).mpr mem_cons_self))
          (after a ((member a).mp mem_cons_self))
      have heads : a = b := by
        have firsts := same (key a)
        rw [filter_cons, filter_cons, if_pos (by simp), if_pos (by simp [keys])] at firsts
        exact (List.cons.inj firsts).1
      subst heads
      have rest : ∀ k, xs.filter (fun c => key c = k) = ys.filter (fun c => key c = k) := by
        intro k
        have whole := same k
        rw [filter_cons, filter_cons] at whole
        split at whole
        · exact (List.cons.inj whole).2
        · exact whole
      rw [ih tailX tailY rest (fun c => by simpa using congrArg (c ∈ ·) (rest (key c)))]

end

/-! ## The kept element -/

/-- A comparison that follows some order: what beats a better element beats the
other too, and what beats an element that another does not beat is better than
the other. -/
structure Ranked (better : α → α → Bool) : Prop where
  trans : ∀ x y z, better x y = true → better y z = true → better x z = true
  between : ∀ x y z, better x z = true → better y z = false → better x y = true

theorem pick_filter (p q : α → Bool) (better : α → α → Bool) (l : List α) :
    pick p better (l.filter q) = pick (fun x => q x && p x) better l := by
  induction l using List.reverseRecOn with
  | nil => rfl
  | append_singleton l x ih =>
    rw [pick_append_singleton, filter_append]
    cases passed : q x with
    | false => simp [passed, ih, pickStep]
    | true =>
      rw [filter_cons, if_pos passed, filter_nil, pick_append_singleton, ih]
      simp [pickStep, passed]

/-- Two neighbours of which exactly one beats the other may be read in either
order. -/
theorem pickStep_comm {better : α → α → Bool} (ranked : Ranked better) (p : α → Bool) {a b : α}
    (strict : better a b = !better b a) (s : Option α) :
    pickStep p better (pickStep p better s a) b = pickStep p better (pickStep p better s b) a := by
  cases matchA : p a with
  | false => simp [pickStep, matchA]
  | true =>
    cases matchB : p b with
    | false => simp [pickStep, matchB]
    | true =>
      cases s with
      | none => cases wins : better b a <;> simp [pickStep, matchA, matchB, strict, wins]
      | some z =>
        cases wins : better b a with
        | true =>
          have step := ranked.trans b a z wins
          cases beatsA : better a z <;> cases beatsB : better b z <;>
            simp_all [pickStep]
        | false =>
          have step := ranked.trans a b z (by simpa [wins] using strict)
          cases beatsA : better a z <;> cases beatsB : better b z <;>
            simp_all [pickStep]

/-- The loop keeps the same element before and after a stable sort, when the sort
moves an element only past one that it strictly beats or loses to. -/
theorem pick_insertionSort {r : α → α → Prop} [DecidableRel r] {better : α → α → Bool}
    (ranked : Ranked better) (strict : ∀ a b, ¬ r a b → better a b = !better b a) (p : α → Bool)
    (l : List α) : pick p better (l.insertionSort r) = pick p better l := by
  have inserted : ∀ (a : α) (m : List α) (s : Option α),
      (m.orderedInsert r a).foldl (pickStep p better) s = (a :: m).foldl (pickStep p better) s := by
    intro a m
    induction m with
    | nil => intro s; rfl
    | cons b m ih =>
      intro s
      by_cases before : r a b
      · rw [orderedInsert_cons, if_pos before]
      · rw [orderedInsert_cons, if_neg before, foldl_cons, ih, foldl_cons,
          foldl_cons, foldl_cons, pickStep_comm ranked p (strict a b before)]
  have sorted : ∀ (m : List α) (s : Option α),
      (m.insertionSort r).foldl (pickStep p better) s = m.foldl (pickStep p better) s := by
    intro m
    induction m with
    | nil => intro s; rfl
    | cons a m ih => intro s; rw [insertionSort_cons, inserted, foldl_cons, ih, foldl_cons]
  exact sorted l none

/-- In an order whose later elements never beat earlier ones, the loop keeps the
first match. -/
theorem pick_first_of_sorted (p : α → Bool) (better : α → α → Bool) (l : List α)
    (sorted : l.Pairwise (fun x y => better y x = false)) :
    pick p better l = l.find? p := by
  induction l using List.reverseRecOn with
  | nil => rfl
  | append_singleton l x ih =>
    obtain ⟨before, _, last⟩ := pairwise_append.mp sorted
    rw [pick_append_singleton, List.find?_append, ← ih before]
    cases kept : pick p better l with
    | none => cases matched : p x <;> simp [pickStep, matched]
    | some y => simp [pickStep, last y (pick_some kept).1 x mem_cons_self]

section
variable [PartialOrder β] {better : α → α → Bool} {rank : α → β} {p : α → Bool}

/-- Two collections, each of whose matches is reached by one of the other, keep
matches of one rank. -/
theorem pick_rel (follows : Follows better rank) {xs ys : List α}
    (there : ∀ x ∈ xs, p x = true → ∃ y ∈ ys, p y = true ∧ rank x ≤ rank y)
    (back : ∀ y ∈ ys, p y = true → ∃ x ∈ xs, p x = true ∧ rank y ≤ rank x) :
    Option.Rel (fun x y => (x ∈ xs ∧ p x = true) ∧ (y ∈ ys ∧ p y = true) ∧ rank x = rank y)
      (pick p better xs) (pick p better ys) := by
  cases keptX : pick p better xs with
  | none =>
    cases keptY : pick p better ys with
    | none => exact .none
    | some y =>
      obtain ⟨inside, matched⟩ := pick_some keptY
      obtain ⟨x, member, found, _⟩ := back y inside matched
      simp [pick_eq_none.mp keptX x member] at found
  | some x =>
    obtain ⟨inX, matchX⟩ := pick_some keptX
    cases keptY : pick p better ys with
    | none =>
      obtain ⟨y, member, found, _⟩ := there x inX matchX
      simp [pick_eq_none.mp keptY y member] at found
    | some y =>
      obtain ⟨inY, matchY⟩ := pick_some keptY
      obtain ⟨y', inY', matchY', above⟩ := there x inX matchX
      obtain ⟨x', inX', matchX', below⟩ := back y inY matchY
      refine .some ⟨⟨inX, matchX⟩, ⟨inY, matchY⟩, le_antisymm ?_ ?_⟩
      · exact le_trans above (pick_greatest follows keptY y' inY' matchY')
      · exact le_trans below (pick_greatest follows keptX x' inX' matchX')

/-- Reading one collection in another order keeps a match of the same rank. -/
theorem pick_perm (follows : Follows better rank) {xs ys : List α} (perm : xs.Perm ys) :
    Option.Rel (fun x y => (x ∈ xs ∧ p x = true) ∧ (y ∈ ys ∧ p y = true) ∧ rank x = rank y)
      (pick p better xs) (pick p better ys) := by
  refine pick_rel follows ?_ ?_
  · intro x inside matched
    exact ⟨x, perm.mem_iff.mp inside, matched, le_refl _⟩
  · intro y inside matched
    exact ⟨y, perm.mem_iff.mpr inside, matched, le_refl _⟩

end

end Andrix.Lib
