import Mathlib.Data.List.Basic

/-! Runs of a step that may be refused: the step folded over a list of inputs. -/
namespace Andrix.Lib
open List Option

universe u v

variable {σ : Type u} {ι : Type v} {step : σ → ι → Option σ} {s t : σ}

theorem foldlM_cons_some {i : ι} {l : List ι} :
    (i :: l).foldlM step s = some t ↔ ∃ mid, step s i = some mid ∧ l.foldlM step mid = some t := by
  simp only [foldlM_cons, bind_eq_bind, bind_eq_some_iff]

theorem foldlM_append_some {l k : List ι} :
    (l ++ k).foldlM step s = some t ↔
      ∃ mid, l.foldlM step s = some mid ∧ k.foldlM step mid = some t := by
  simp only [foldlM_append, bind_eq_bind, bind_eq_some_iff]

/-- An element of an extended list is followed by the extension or lies in it. -/
theorem append_eq_append_cons {a b before after : List ι} {x : ι}
    (split : a ++ b = before ++ x :: after) :
    (∃ rest, a = before ++ x :: rest) ∨ ∃ middle, before = a ++ middle ∧ b = middle ++ x :: after := by
  rcases append_eq_append_iff.mp split with ⟨middle, same, rest⟩ | ⟨rest, same, tail⟩
  · exact .inr ⟨middle, same, rest⟩
  cases rest with
  | nil => exact .inr ⟨[], by simpa using same.symm, by simpa using tail.symm⟩
  | cons y rest =>
    simp only [cons_append, List.cons.injEq] at tail
    exact .inl ⟨rest, by rw [same, tail.1]⟩

theorem append_singleton_split {l a b : List ι} {e x : ι} (split : l ++ [e] = a ++ x :: b) :
    (a = l ∧ x = e ∧ b = []) ∨ ∃ rest, l = a ++ x :: rest ∧ b = rest ++ [e] := by
  rcases append_eq_append_cons split with ⟨rest, stood⟩ | ⟨middle, before, last⟩
  · refine .inr ⟨rest, stood, ?_⟩
    rw [stood, append_assoc, cons_append] at split
    exact (List.cons.inj (append_cancel_left split)).2.symm
  cases middle with
  | nil =>
    simp only [nil_append, List.cons.injEq] at last
    exact .inl ⟨by simpa using before, last.1.symm, last.2.symm⟩
  | cons y middle => simp at last

theorem forall_mem_snoc {p : ι → Prop} {l : List ι} {x : ι} (old : ∀ y ∈ l, p y) (new : p x) :
    ∀ y ∈ l ++ [x], p y := by
  intro y among
  rcases mem_append.mp among with among | last
  · exact old y among
  · rw [mem_singleton.mp last]
    exact new

theorem foldlM_keeps (kept : σ → Prop) {l : List ι}
    (keeps : ∀ s, ∀ i ∈ l, ∀ t, kept s → step s i = some t → kept t) (start : kept s)
    (ran : l.foldlM step s = some t) : kept t := by
  induction l generalizing s with
  | nil =>
    cases ran
    exact start
  | cons i l ih =>
    obtain ⟨mid, first, rest⟩ := foldlM_cons_some.mp ran
    refine ih (fun s j among => keeps s j (mem_cons_of_mem i among)) ?_ rest
    exact keeps s i mem_cons_self mid start first

end Andrix.Lib
