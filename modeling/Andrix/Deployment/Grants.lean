import Andrix.Lib.Words
import Andrix.Deployment.Validity
import Andrix.Deployment.Evidence

/-! The grants a step reads. An unused grant is named by no entry of the plan's
tickets, and signing requests are made only under grants for inputs that no
earlier request covers. -/
namespace Andrix.Deployment
open Andrix.Lib List

/-- What the context's documentation promises of its lists: the authorizations
are the plan's, and the plan's tickets include this one. -/
structure Context.Listed (c : Context) : Prop where
  authorizations : ∀ a ∈ c.authorizations, a.planId = c.plan.planId
  tickets : ∃ t ∈ c.planTickets, t.ticketId = c.ticket.ticketId

/-- The plan's tickets as the step reads them: its own ticket in the context's
value. -/
def Context.tickets (c : Context) : List Ticket :=
  c.planTickets.map (fun t => if t.ticketId = c.ticket.ticketId then c.ticket else t)

variable {c : Context}

theorem Context.Listed.own (listed : c.Listed) : c.ticket ∈ c.tickets := by
  obtain ⟨stored, among, same⟩ := listed.tickets
  exact mem_map.mpr ⟨stored, among, by simp [same]⟩

variable {a : Authorization}

theorem used_eq_false : used c a = false ↔
    ∀ t ∈ c.tickets, ∀ d ∈ t.ledger, uses t a d = false := by
  simp [used, Context.tickets]

theorem not_used_other (other : a.effect ≠ .activate)
    (fresh : used c a = false) : ∀ t ∈ c.tickets, ∀ d ∈ t.ledger, d.grant ≠ a.authorizationId := by
  intro t member d entry named
  have unused := used_eq_false.mp fresh t member d entry
  simp [uses, named, other] at unused

/-- A grant that `used` passes has no effective reboot in any ticket of the
plan. -/
theorem not_used_activate (activate : a.effect = .activate)
    (fresh : used c a = false) : ∀ t ∈ c.tickets, ∀ d ∈ t.ledger, d.crossing = .reboot →
      d.grant = a.authorizationId → d.boot = t.boot := by
  intro t member d entry reboot named
  have unused := used_eq_false.mp fresh t member d entry
  simp [uses, named, activate, reboot] at unused
  exact unused.symm

theorem unusedStage_some (found : unusedStage c = some a) :
    a ∈ c.authorizations ∧ a.effect = .stage ∧ used c a = false := by
  have sat := List.find?_some found
  simp only [Bool.and_eq_true, decide_eq_true_eq, Bool.not_eq_true'] at sat
  exact ⟨mem_of_find?_eq_some found, sat.1, sat.2⟩

theorem validActivate_some (found : validActivate c = some a) :
    a ∈ c.authorizations ∧ a.effect = .activate ∧ expired c a = false ∧ used c a = false := by
  have sat := List.find?_some found
  simp only [Bool.and_eq_true, decide_eq_true_eq, Bool.not_eq_true'] at sat
  exact ⟨mem_of_find?_eq_some found, sat.1.1, sat.1.2, sat.2⟩

/-! ## Signing -/

/-- What one turn of the loop of `signGrants` does. -/
private theorem signGrant_cases (c : Context) (needed : BitVec 32)
    (acc : List Authorization × BitVec 32) (a : Authorization) :
    signGrant c needed acc a = acc ∨
      (signGrant c needed acc a = (acc.1 ++ [a], acc.2 ||| a.inputs) ∧ a.effect = .sign ∧
        used c a = false ∧ a.inputs &&& ~~~ needed = 0) := by
  unfold signGrant
  split
  · exact .inl rfl
  rename_i allowed
  simp only [not_or, not_not, Bool.not_eq_true] at allowed
  by_cases joins : (if c.plan.signing = 1 then a.inputs = needed else bitCount a.inputs = 1) ∧
      a.inputs &&& acc.2 = 0
  · exact .inr ⟨by simp only [joins, and_self, if_true], allowed⟩
  · exact .inl (by simp only [joins, if_false])

variable {needed : BitVec 32}

private theorem signGrant_fold (l : List Authorization)
    (acc : List Authorization × BitVec 32)
    (member : a ∈ (l.foldl (signGrant c needed) acc).1) :
    a ∈ acc.1 ∨ (a ∈ l ∧ a.effect = .sign ∧ used c a = false ∧ a.inputs &&& ~~~ needed = 0) := by
  induction l generalizing acc with
  | nil => exact .inl member
  | cons x rest ih =>
    rcases ih _ member with earlier | ⟨among, kept⟩
    · rcases signGrant_cases c needed acc x with same | ⟨joined, kept⟩
      · exact .inl (same ▸ earlier)
      · rw [joined] at earlier
        rcases mem_append.mp earlier with earlier | last
        · exact .inl earlier
        · simp only [mem_singleton] at last
          subst last
          exact .inr ⟨by simp, kept⟩
    · exact .inr ⟨mem_cons_of_mem _ among, kept⟩

theorem signGrants_some {gs : List Authorization}
    (found : signGrants c needed = some gs) (member : a ∈ gs) :
    a ∈ c.authorizations ∧ a.effect = .sign ∧ used c a = false ∧ a.inputs &&& ~~~ needed = 0 := by
  dsimp only [signGrants] at found
  split at found
  · cases found
    simpa using signGrant_fold _ _ member
  · cases found

theorem signGrants_ne_nil (some_ : needed ≠ 0) :
    signGrants c needed ≠ some [] := by
  have covers (l : List Authorization) (acc : List Authorization × BitVec 32)
      (start : acc.1 = [] → acc.2 = 0) : (l.foldl (signGrant c needed) acc).1 = [] →
        (l.foldl (signGrant c needed) acc).2 = 0 := by
    induction l generalizing acc with
    | nil => exact start
    | cons a rest ih =>
      refine ih _ ?_
      rcases signGrant_cases c needed acc a with same | ⟨joined, _⟩
      · rwa [same]
      · simp [joined]
  intro found
  dsimp only [signGrants] at found
  split at found
  · rename_i covered
    have none_ := covers c.authorizations ([], 0) (fun _ => rfl) (Option.some.inj found)
    exact some_ (covered.symm.trans none_)
  · cases found

/-- Inputs are never needed again once a request covered them. -/
theorem signingNeeded_apart {e : Entry} (member : e ∈ c.ticket.ledger) :
    signingNeeded c &&& signedInputs c e = 0 := by
  unfold signingNeeded
  split
  · simp
  · split
    · simp
    · exact foldl_clear_apart member

/-- A grant for needed inputs covers none that an earlier request covered. -/
theorem signGrant_apart {e : Entry} (member : e ∈ c.ticket.ledger)
    (within : a.inputs &&& ~~~ signingNeeded c = 0) : signedInputs c e &&& a.inputs = 0 := by
  have apart := signingNeeded_apart member
  simp only [eq_zero_iff_bits, BitVec.getElem_and, BitVec.getElem_not] at apart within ⊢
  grind

end Andrix.Deployment
