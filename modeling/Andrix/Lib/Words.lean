import Mathlib.Tactic.Common

/-! Machine words: setting and clearing the bits of a flag word, and times that
do not overflow. -/
namespace Andrix.Lib
open Int64

variable {w : Nat} {x m r u : BitVec w}

theorem eq_zero_iff_bits : x = 0 ↔ ∀ i, (h : i < w) → x[i] = false := by
  constructor
  · rintro rfl i h
    simp
  · intro bits
    ext i h
    simpa using bits i h

theorem and_not_or_eq_zero : x &&& m &&& ~~~ (x ||| r) = 0 := by
  simp only [eq_zero_iff_bits, BitVec.getElem_and, BitVec.getElem_not, BitVec.getElem_or]
  grind

theorem and_not_clear_eq_zero (apart : m &&& u = 0) : x &&& m &&& ~~~ (x &&& ~~~ u) = 0 := by
  simp only [eq_zero_iff_bits, BitVec.getElem_and, BitVec.getElem_not] at apart ⊢
  grind

theorem or_within (known : x &&& ~~~ m = 0) (bit : r &&& ~~~ m = 0) : (x ||| r) &&& ~~~ m = 0 := by
  simp only [eq_zero_iff_bits, BitVec.getElem_and, BitVec.getElem_not, BitVec.getElem_or]
    at known bit ⊢
  grind

theorem clear_within (known : x &&& ~~~ m = 0) : (x &&& ~~~ u) &&& ~~~ m = 0 := by
  simp only [eq_zero_iff_bits, BitVec.getElem_and, BitVec.getElem_not] at known ⊢
  grind

theorem clear_and_self : (x &&& ~~~ u) &&& u = 0 := by
  simp only [eq_zero_iff_bits, BitVec.getElem_and, BitVec.getElem_not]
  grind

theorem clear_clear : (x &&& ~~~ u) &&& ~~~ u = x &&& ~~~ u := by
  rw [BitVec.and_assoc, BitVec.and_self]

/-- Setting a bit apart from `u` leaves `u` as it was. -/
theorem or_and_of_apart (apart : r &&& u = 0) : (x ||| r) &&& u = x &&& u := by
  ext i h
  simp only [eq_zero_iff_bits, BitVec.getElem_and, BitVec.getElem_or] at apart ⊢
  have := apart i h
  grind

theorem or_and_self_right : (x ||| r) &&& r = r := by
  ext i h
  simp only [BitVec.getElem_and, BitVec.getElem_or]
  grind

/-- A bit outlives clearing a list of words exactly when no word holds it. -/
theorem getElem_foldl_clear {f : α → BitVec w} {l : List α} {start : BitVec w} {i : Nat} (h : i < w) :
    (l.foldl (fun all a => all &&& ~~~ f a) start)[i] = (start[i] && l.all (fun a => !(f a)[i])) := by
  induction l generalizing start with
  | nil => simp
  | cons a rest ih => simp [ih, Bool.and_assoc]

/-- What clearing a list of words leaves is apart from each of them. -/
theorem foldl_clear_apart {f : α → BitVec w} {l : List α} {start : BitVec w} {a : α} (member : a ∈ l) :
    l.foldl (fun all a => all &&& ~~~ f a) start &&& f a = 0 := by
  simp only [eq_zero_iff_bits, BitVec.getElem_and, getElem_foldl_clear]
  intro i h
  cases held : (f a)[i] with
  | false => simp
  | true =>
    have cleared : l.all (fun a => !(f a)[i]) = false := List.all_eq_false.mpr ⟨a, member, by simp [held]⟩
    simp [cleared]

/-- The difference of two times that are not negative is exact. -/
theorem toInt_sub_of_nonneg {x y : Int64} (left : ¬ x < 0) (right : ¬ y < 0) :
    (x - y).toInt = x.toInt - y.toInt := by
  simp only [lt_iff_toInt_lt, toInt_zero, Int.not_lt] at left right
  have := x.toInt_lt
  have := y.toInt_lt
  rw [toInt_sub]
  apply Int.bmod_eq_of_le <;> omega

theorem succ_nonneg_iff {x : Int64} (low : ¬ x < 0) : ¬ x + 1 < 0 ↔ x ≠ Int64.maxValue := by
  have high := x.toInt_lt
  have one : (1 : Int64).toInt = 1 := rfl
  have greatest : Int64.maxValue.toInt = 2 ^ 63 - 1 := rfl
  simp only [ne_eq, lt_iff_toInt_lt, ← toInt_inj, toInt_add, toInt_zero, one,
    greatest, Int.bmod_def] at low ⊢
  split <;> omega

theorem toNat_le_of_within {w : Nat} {x mask : BitVec w} (within : x &&& ~~~ mask = 0) :
    x.toNat ≤ mask.toNat := by
  have masked : x = x &&& mask := by
    ext i bound
    have bit := (eq_zero_iff_bits.mp within) i bound
    simp only [BitVec.getElem_and, BitVec.getElem_not] at bit ⊢
    grind
  rw [masked, BitVec.toNat_and]
  exact Nat.and_le_right

end Andrix.Lib
