import Mathlib.Data.List.Induction
import Andrix.Lib.Steps

/-! Runs of a component that answers one call at a time, and their past. A
moment is a call with the state it met, so a statement about the order of past
events is a statement about the list of moments. -/
namespace Andrix.Lib
open List

/-- A call and the state it met. -/
structure Moment (σ κ : Type*) where
  state : σ
  call : κ

section Calls
variable {σ κ ρ : Type*} (answer : σ → κ → ρ × σ)

def Moment.reply (moment : Moment σ κ) : ρ := (answer moment.state moment.call).1

def Moment.next (moment : Moment σ κ) : σ := (answer moment.state moment.call).2

/-- The state after a list of calls. -/
def after (s : σ) : List κ → σ
  | [] => s
  | call :: calls => after (answer s call).2 calls

/-- The moments of a list of calls, oldest first. -/
def past (s : σ) : List κ → List (Moment σ κ)
  | [] => []
  | call :: calls => ⟨s, call⟩ :: past (answer s call).2 calls

theorem after_snoc (s : σ) (calls : List κ) (call : κ) :
    after answer s (calls ++ [call]) = (answer (after answer s calls) call).2 := by
  induction calls generalizing s with
  | nil => rfl
  | cons _ _ ih => exact ih _

theorem past_snoc (s : σ) (calls : List κ) (call : κ) :
    past answer s (calls ++ [call]) = past answer s calls ++ [⟨after answer s calls, call⟩] := by
  induction calls generalizing s with
  | nil => rfl
  | cons _ _ ih => exact congrArg (_ :: ·) (ih _)

variable {answer}

theorem call_mem_of_mem_past {s : σ} {calls : List κ} {moment : Moment σ κ}
    (inside : moment ∈ past answer s calls) : moment.call ∈ calls := by
  induction calls generalizing s with
  | nil => cases inside
  | cons call calls ih =>
    rcases mem_cons.mp inside with rfl | later
    · exact mem_cons_self
    · exact mem_cons_of_mem _ (ih later)

/-- What holds at the start and is kept by every call, with the past it joins,
holds after every run. -/
theorem past_induction {holds : List (Moment σ κ) → σ → Prop} {s : σ} (start : holds [] s)
    (kept : ∀ moments s call, holds moments s → holds (moments ++ [⟨s, call⟩]) (answer s call).2)
    (calls : List κ) : holds (past answer s calls) (after answer s calls) := by
  induction calls using List.reverseRecOn with
  | nil => exact start
  | append_singleton calls call ih =>
    rw [past_snoc, after_snoc]
    exact kept _ _ _ ih

/-- `relates` leads from every moment to all later ones and to the present. -/
structure Ordered (answer : σ → κ → ρ × σ) (inv : σ → Prop) (relates : σ → σ → Prop)
    (moments : List (Moment σ κ)) (s : σ) : Prop where
  present : inv s
  between : moments.Pairwise fun earlier later => relates (earlier.next answer) later.state
  held : ∀ moment ∈ moments, inv moment.state
  next : ∀ moment ∈ moments, relates (moment.next answer) s
  state : ∀ moment ∈ moments, relates moment.state s

/-- A transitive relation that every call keeps orders the past. -/
theorem past_ordered {inv : σ → Prop} {relates : σ → σ → Prop} {s : σ}
    (refl : ∀ s, inv s → relates s s)
    (trans : ∀ s t u, relates s t → relates t u → relates s u)
    (kept : ∀ s call, inv s → relates s (answer s call).2 ∧ inv (answer s call).2) (start : inv s)
    (calls : List κ) :
    Ordered answer inv relates (past answer s calls) (after answer s calls) := by
  apply past_induction
  · exact ⟨start, .nil, by simp, by simp, by simp⟩
  intro moments s call earlier
  obtain ⟨step, holds⟩ := kept s call earlier.present
  refine ⟨holds, pairwise_append.mpr ⟨earlier.between, pairwise_singleton _ _, ?_⟩,
    ?_, ?_, ?_⟩
  · intro moment inside last same
    rw [mem_singleton] at same
    rw [same]
    exact earlier.next moment inside
  all_goals
    intro moment inside
    rcases mem_append.mp inside with inside | last
  · exact earlier.held moment inside
  · rw [mem_singleton.mp last]
    exact earlier.present
  · exact trans _ _ _ (earlier.next moment inside) step
  · rw [mem_singleton.mp last]
    exact refl _ holds
  · exact trans _ _ _ (earlier.state moment inside) step
  · rw [mem_singleton.mp last]
    exact step

end Calls

section Since
variable {α : Type*} {starts stops : α → Prop} {moments : List α} {m : α}

/-- A moment of the first kind, and none of the second since. -/
def Since (starts stops : α → Prop) (moments : List α) : Prop :=
  ∃ earlier m later, moments = earlier ++ m :: later ∧ starts m ∧ ∀ n ∈ later, ¬ stops n

theorem since_snoc :
    Since starts stops (moments ++ [m]) ↔ starts m ∨ Since starts stops moments ∧ ¬ stops m := by
  constructor
  · rintro ⟨earlier, n, later, split, started, quiet⟩
    rcases append_singleton_split split with ⟨_, rfl, _⟩ | ⟨rest, stood, rfl⟩
    · exact .inl started
    · simp only [mem_append, mem_singleton] at quiet
      exact .inr ⟨⟨earlier, n, rest, stood, started, fun x among => quiet x (.inl among)⟩,
        quiet m (.inr rfl)⟩
  · rintro (started | ⟨⟨earlier, n, later, rfl, started, quiet⟩, last⟩)
    · exact ⟨moments, m, [], rfl, started, by simp⟩
    · refine ⟨earlier, n, later ++ [m], by simp, started, fun x among => ?_⟩
      rcases mem_append.mp among with among | among
      · exact quiet x among
      · rwa [mem_singleton.mp among]

end Since

end Andrix.Lib
