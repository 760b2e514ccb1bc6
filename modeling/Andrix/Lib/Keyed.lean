import Mathlib.Data.List.Nodup

/-! Lists whose elements have distinct keys, and the replacement of the element
that has a given key. -/
namespace Andrix.Lib
open List

variable {α κ : Type} [DecidableEq κ] {key : α → κ}

/-- The list with `x` in the place of the element of its key. -/
def replace (key : α → κ) (x : α) (l : List α) : List α :=
  l.map (fun y => if key y = key x then x else y)

theorem map_key_replace (x : α) (l : List α) : (replace key x l).map key = l.map key := by
  simp only [replace, map_map, map_inj_left, Function.comp_apply]
  intro y _
  split <;> simp [*]

variable {l : List α}

theorem mem_replace {x y : α} (present : y ∈ l) (same : key y = key x) {z : α} :
    z ∈ replace key x l ↔ z = x ∨ (z ∈ l ∧ key z ≠ key x) := by
  simp only [replace, mem_map]
  constructor
  · rintro ⟨w, among, rfl⟩
    by_cases own : key w = key x
    · simp [own]
    · simp [own, among]
  · rintro (rfl | ⟨among, other⟩)
    · exact ⟨y, present, by simp [same]⟩
    · exact ⟨z, among, by simp [other]⟩

/-- With distinct keys exactly one element is replaced. -/
theorem replace_split {x y : α} (distinct : (l.map key).Nodup) (present : y ∈ l)
    (same : key y = key x) :
    ∃ before after, l = before ++ y :: after ∧ replace key x l = before ++ x :: after := by
  obtain ⟨before, after, rfl⟩ := append_of_mem present
  refine ⟨before, after, rfl, ?_⟩
  simp only [map_append, map_cons, nodup_append, nodup_cons] at distinct
  obtain ⟨_, ⟨notAfter, _⟩, apart⟩ := distinct
  have kept {part : List α} (others : ∀ z ∈ part, key z ≠ key x) :
      part.map (fun z => if key z = key x then x else z) = part := by
    conv_rhs => rw [← map_id part]
    exact map_congr_left fun z among => by simp [others z among]
  have first : before.map (fun z => if key z = key x then x else z) = before := by
    refine kept fun z among own => ?_
    exact apart (key z) (mem_map_of_mem among) (key y) (by simp) (own.trans same.symm)
  have last : after.map (fun z => if key z = key x then x else z) = after := by
    refine kept fun z among own => notAfter ?_
    rw [same, ← own]
    exact mem_map_of_mem among
  simp [replace, first, last, same]

variable {x : α}

theorem replace_self (distinct : (l.map key).Nodup) (present : x ∈ l) :
    replace key x l = l := by
  obtain ⟨before, after, split, replaced⟩ := replace_split distinct present rfl
  rw [replaced, split]

omit [DecidableEq κ] in
theorem nodup_map_append (distinct : (l.map key).Nodup)
    (new : ∀ y ∈ l, key y ≠ key x) : ((l ++ [x]).map key).Nodup := by
  rw [map_append, map_singleton, nodup_append]
  refine ⟨distinct, nodup_singleton _, ?_⟩
  intro k among j single
  obtain ⟨y, inside, rfl⟩ := mem_map.mp among
  rw [mem_singleton.mp single]
  exact new y inside

theorem find_key (distinct : (l.map key).Nodup) (present : x ∈ l) :
    l.find? (fun y => key y = key x) = some x := by
  obtain ⟨y, found⟩ : ∃ y, l.find? (fun y => key y = key x) = some y :=
    Option.isSome_iff_exists.mp (List.find?_isSome.mpr ⟨x, present, by simp⟩)
  have same : key y = key x := by simpa using List.find?_some found
  rw [found, inj_on_of_nodup_map distinct (mem_of_find?_eq_some found) present same]

theorem find_replace_other {k : κ} (other : key x ≠ k) :
    (replace key x l).find? (fun y => key y = k) = l.find? (fun y => key y = k) := by
  induction l with
  | nil => rfl
  | cons y l ih =>
    simp only [replace, map_cons, List.find?_cons] at ih ⊢
    by_cases own : key y = key x
    · simp [own, other, ih]
    · simp [own, ih]

/-- The key of the replaced element finds what replaced it. -/
theorem find_replace_self {x y : α} (present : y ∈ l) (same : key y = key x) :
    (replace key x l).find? (fun z => key z = key x) = some x := by
  induction l with
  | nil => cases present
  | cons z l ih =>
    simp only [replace, map_cons, List.find?_cons] at ih ⊢
    by_cases own : key z = key x
    · simp [own]
    have inside : y ∈ l := by
      rcases mem_cons.mp present with rfl | inside
      · exact absurd same own
      · exact inside
    simp [own, ih inside]

omit [DecidableEq κ] in
theorem modify_split {n : Nat} (found : l[n]? = some x) (change : α → α) :
    ∃ before after, l = before ++ x :: after ∧ l.modify n change = before ++ change x :: after := by
  induction l generalizing n with
  | nil => simp at found
  | cons y l ih =>
    cases n with
    | zero =>
      simp only [List.getElem?_cons_zero, Option.some_inj] at found
      exact ⟨[], l, by rw [found]; rfl, by rw [found]; rfl⟩
    | succ n =>
      obtain ⟨before, after, split, changed⟩ := ih (by simpa using found)
      refine ⟨y :: before, after, by rw [split]; rfl, ?_⟩
      rw [modify_succ_cons, changed]
      rfl

end Andrix.Lib
