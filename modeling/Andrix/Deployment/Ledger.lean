import Mathlib.Algebra.Order.BigOperators.Group.List
import Mathlib.Algebra.Order.Ring.Nat
import Mathlib.Data.List.Induction
import Andrix.Deployment.Validity
import Andrix.Deployment.TicketMachine

/-! The rules of a ticket and of its ledger. The ledger loop of the constructor
is read once: what it counts, how far the native sequence came, and what one more
entry needs. -/
namespace Andrix.Deployment
open Andrix.Lib List

/-! ## The ledger loop -/

/-- The crossings of the native sequence, which never goes back. -/
def Crossing.native (c : Crossing) : Prop :=
  c = .sign ∨ c = .publish ∨ c = .create ∨ c = .write ∨ c = .commit

instance (c : Crossing) : Decidable c.native := inferInstanceAs (Decidable (_ ∨ _))

/-- The number of entries of a crossing. -/
def countOf (c : Crossing) (ledger : List Entry) : Nat := ledger.countP (fun e => e.crossing = c)

@[simp] theorem countOf_nil (c : Crossing) : countOf c [] = 0 := rfl

@[simp] theorem countOf_append_singleton (c : Crossing) (ledger : List Entry) (e : Entry) :
    countOf c (ledger ++ [e]) = countOf c ledger + if e.crossing = c then 1 else 0 := by
  simp [countOf, countP_append, countP_singleton]

variable {ledger : List Entry}

theorem countOf_pos {c : Crossing} :
    0 < countOf c ledger ↔ ∃ e ∈ ledger, e.crossing = c := by
  simp [countOf, countP_pos_iff]

theorem countOf_eq_zero {c : Crossing} :
    countOf c ledger = 0 ↔ ∀ e ∈ ledger, e.crossing ≠ c := by
  simp [countOf, countP_eq_zero]

def handedTo (ledger : List Entry) : Option Text :=
  ((ledger.filter (fun e => e.crossing = .handover)).getLast?).map (·.reference)

/-- What the next entry of a ledger needs: room under the crossing's bound, its
place in the native sequence, and for a create the ticket's nonce. -/
structure Admits (nonce : Text) (ledger : List Entry) (e : Entry) : Prop where
  bound : countOf e.crossing ledger + 1 ≤ e.crossing.bound
  order : e.crossing.native → ∀ d ∈ ledger, d.crossing.native → code d.crossing ≤ code e.crossing
  write : e.crossing = .write → 0 < countOf .create ledger
  commit : e.crossing = .commit → 0 < countOf .write ledger
  abandon : e.crossing = .abandon → 0 < countOf .create ledger
  reboot : e.crossing = .reboot → 0 < countOf .commit ledger
  create : e.crossing = .create → e.reference = nonce

/-- What the loop holds after a ledger it accepts. -/
structure Scanned (ledger : List Entry) (s : LedgerScan) : Prop where
  counts : ∀ c, s.counts c = countOf c ledger
  phase_le : ∀ e ∈ ledger, e.crossing.native → code e.crossing ≤ s.phase
  phase_mem : s.phase = 0 ∨ ∃ e ∈ ledger, e.crossing.native ∧ code e.crossing = s.phase
  created : ∀ e ∈ ledger, e.crossing = .write ∨ e.crossing = .commit → 0 < countOf .create ledger
  handed : s.handedTo = handedTo ledger

variable {s : LedgerScan}

/-- The phase reached a native crossing exactly when the ledger holds it or a
later one. -/
theorem Scanned.reached (scanned : Scanned ledger s) (k : Nat)
    (positive : 0 < k) :
    k ≤ s.phase ↔ ∃ e ∈ ledger, e.crossing.native ∧ k ≤ code e.crossing := by
  constructor
  · intro reached
    rcases scanned.phase_mem with zero | ⟨e, member, native, same⟩
    · omega
    · exact ⟨e, member, native, by omega⟩
  · rintro ⟨e, member, native, reached⟩
    exact Nat.le_trans reached (scanned.phase_le e member native)

private theorem Scanned.create_reached
    (scanned : Scanned ledger s) : code Crossing.create ≤ s.phase ↔ 0 < countOf .create ledger := by
  rw [scanned.reached _ (by decide), countOf_pos]
  constructor
  · rintro ⟨e, member, native, reached⟩
    cases crossing : e.crossing <;> rw [crossing] at native reached
    case create => exact ⟨e, member, crossing⟩
    case write => exact countOf_pos.mp (scanned.created e member (.inl crossing))
    case commit => exact countOf_pos.mp (scanned.created e member (.inr crossing))
    all_goals exact absurd reached (by revert native; decide)
  · rintro ⟨e, member, crossing⟩
    exact ⟨e, member, by simp [crossing, Crossing.native], by simp [crossing]⟩

private theorem Scanned.commit_reached
    (scanned : Scanned ledger s) : code Crossing.commit ≤ s.phase ↔ 0 < countOf .commit ledger := by
  rw [scanned.reached _ (by decide), countOf_pos]
  constructor
  · rintro ⟨e, member, native, reached⟩
    cases crossing : e.crossing <;> rw [crossing] at native reached
    case commit => exact ⟨e, member, crossing⟩
    all_goals exact absurd reached (by revert native; decide)
  · rintro ⟨e, member, crossing⟩
    exact ⟨e, member, by simp [crossing, Crossing.native], by simp [crossing]⟩

def LedgerScan.after (s : LedgerScan) (e : Entry) : LedgerScan where
  counts := s.counted e.crossing
  phase := if e.crossing.native then code e.crossing else s.phase
  handedTo := if e.crossing = .handover then some e.reference else s.handedTo

private theorem advance_eq_ok {s s' : LedgerScan} {e : Entry} :
    s.advance e = .ok s' ↔ (e.crossing.native → s.phase ≤ code e.crossing) ∧
      (e.crossing = .write → 0 < s.counts .create) ∧ (e.crossing = .commit → 0 < s.counts .write) ∧
      (e.crossing = .abandon → code Crossing.create ≤ s.phase) ∧
      (e.crossing = .reboot → code Crossing.commit ≤ s.phase) ∧ s' = s.after e := by
  cases crossing : e.crossing <;>
    simp only [LedgerScan.advance, crossing, invalid_bind_eq_ok, pure_eq_ok] <;>
    simp [LedgerScan.after, LedgerScan.counted, Crossing.native, crossing, Nat.pos_iff_ne_zero,
      eq_comm (a := s')]

variable {nonce : Text}

/-- One entry of the loop is admitted exactly when the ledger so far admits it. -/
theorem next_eq_ok {s s' : LedgerScan} {e : Entry}
    (scanned : Scanned ledger s) :
    LedgerScan.next nonce s e = .ok s' ↔ Admits nonce ledger e ∧ s' = s.after e := by
  have order : s.phase ≤ code e.crossing ↔
      ∀ d ∈ ledger, d.crossing.native → code d.crossing ≤ code e.crossing := by
    constructor
    · intro low d member native
      exact Nat.le_trans (scanned.phase_le d member native) low
    intro low
    rcases scanned.phase_mem with zero | ⟨d, member, native, same⟩
    · omega
    · exact same ▸ low d member native
  simp only [LedgerScan.next, invalid_bind_eq_ok, LedgerScan.counted, if_true, Nat.not_lt]
  simp only [bind_eq_ok, invalid_eq_ok, exists_const, pure_eq_ok, not_and, not_not, advance_eq_ok,
    order, scanned.create_reached, scanned.commit_reached, scanned.counts]
  constructor
  · rintro ⟨bound, next, ⟨order, write, commit, abandon, reboot, rfl⟩, create, rfl⟩
    exact ⟨⟨bound, order, write, commit, abandon, reboot, create⟩, rfl⟩
  · rintro ⟨⟨bound, order, write, commit, abandon, reboot, create⟩, rfl⟩
    exact ⟨bound, _, ⟨order, write, commit, abandon, reboot, rfl⟩, create, rfl⟩

theorem Scanned.nil : Scanned [] {} := by
  constructor <;> simp [handedTo]

/-- The loop's reading of a ledger carries over to one more admitted entry. -/
theorem Scanned.append {e : Entry}
    (scanned : Scanned ledger s) (admits : Admits nonce ledger e) :
    Scanned (ledger ++ [e]) (s.after e) where
  counts c := by
    simp only [LedgerScan.after, LedgerScan.counted, scanned.counts, countOf_append_singleton]
    split <;> simp_all [eq_comm]
  phase_le d member native := by
    simp only [LedgerScan.after]
    rcases mem_append.mp member with earlier | last
    · split
      · exact admits.order ‹_› d earlier native
      · exact scanned.phase_le d earlier native
    · simp only [mem_singleton] at last
      subst last
      simp [native]
  phase_mem := by
    simp only [LedgerScan.after]
    split
    · exact .inr ⟨e, by simp, ‹_›, rfl⟩
    · rcases scanned.phase_mem with zero | ⟨d, member, native, same⟩
      · exact .inl zero
      · exact .inr ⟨d, mem_append_left _ member, native, same⟩
  created d member later := by
    rw [countOf_append_singleton]
    rcases mem_append.mp member with earlier | last
    · exact Nat.add_pos_left (scanned.created d earlier later) _
    simp only [mem_singleton] at last
    subst last
    rcases later with write | commit
    · exact Nat.add_pos_left (admits.write write) _
    · obtain ⟨w, before, write⟩ := countOf_pos.mp (admits.commit commit)
      exact Nat.add_pos_left (scanned.created w before (.inl write)) _
  handed := by
    simp only [LedgerScan.after, handedTo, filter_append, scanned.handed]
    by_cases handover : e.crossing = .handover <;> simp [handover]

/-- A ledger whose entries were each admitted by the ones before. -/
inductive Admitted (nonce : Text) : List Entry → Prop
  | nil : Admitted nonce []
  | append {ledger e} : Admitted nonce ledger → Admits nonce ledger e →
    Admitted nonce (ledger ++ [e])

theorem Admitted.last {e : Entry}
    (admitted : Admitted nonce (ledger ++ [e])) : Admitted nonce ledger ∧ Admits nonce ledger e := by
  generalize whole : ledger ++ [e] = l at admitted
  cases admitted with
  | nil => simp at whole
  | append earlier admits =>
    obtain ⟨rfl, same⟩ := append_inj' whole rfl
    cases same
    exact ⟨earlier, admits⟩

/-- Without a create, none of the crossings that act on its session. -/
theorem Admitted.uncreated (admitted : Admitted nonce ledger)
    (none_ : countOf .create ledger = 0) {x : Crossing}
    (native : x = .write ∨ x = .commit ∨ x = .abandon ∨ x = .reboot) : countOf x ledger = 0 := by
  induction admitted generalizing x with
  | nil => rfl
  | @append ledger e _ admits ih =>
    rw [countOf_append_singleton] at none_ ⊢
    have before : countOf .create ledger = 0 := by omega
    have other : ¬ e.crossing = x := by
      rintro rfl
      rcases native with write | commit | abandon | reboot
      · exact absurd (admits.write write) (by omega)
      · exact absurd (admits.commit commit) (by rw [ih before (.inl rfl)]; omega)
      · exact absurd (admits.abandon abandon) (by omega)
      · exact absurd (admits.reboot reboot) (by rw [ih before (.inr (.inl rfl))]; omega)
    simp [ih before native, other]

theorem Admitted.bounded (admitted : Admitted nonce ledger)
    (x : Crossing) : countOf x ledger ≤ x.bound := by
  induction admitted with
  | nil => simp
  | @append ledger e _ admits ih =>
    rw [countOf_append_singleton]
    split
    · rename_i same
      exact same ▸ admits.bound
    · exact ih

/-- A ledger without a create suits every nonce. -/
theorem Admitted.renonce {nonce other : Text} (admitted : Admitted nonce ledger)
    (none_ : countOf .create ledger = 0) : Admitted other ledger := by
  induction admitted with
  | nil => exact .nil
  | @append ledger e _ admits ih =>
    rw [countOf_append_singleton] at none_
    have here : e.crossing ≠ .create := fun create => by simp [create] at none_
    exact .append (ih (by omega)) { admits with create := fun create => absurd create here }

private theorem length_eq (ledger : List Entry) :
    ledger.length = ((Coded.values (α := Crossing)).map (fun x => countOf x ledger)).sum := by
  induction ledger using List.reverseRecOn with
  | nil => rfl
  | append_singleton ledger e ih =>
    simp only [Coded.values, map_cons, map_nil, sum_cons, sum_nil,
      countOf_append_singleton, length_append, length_singleton] at ih ⊢
    cases e.crossing <;> simp <;> omega

theorem Admitted.length_le (admitted : Admitted nonce ledger) :
    ledger.length ≤ maxLedger := by
  have bounded : ((Coded.values (α := Crossing)).map (fun x => countOf x ledger)).sum ≤
      ((Coded.values (α := Crossing)).map Crossing.bound).sum :=
    sum_le_sum fun x _ => admitted.bounded x
  calc ledger.length
      = ((Coded.values (α := Crossing)).map (fun x => countOf x ledger)).sum := length_eq ledger
    _ ≤ ((Coded.values (α := Crossing)).map Crossing.bound).sum := bounded
    _ = maxLedger := by decide

private theorem scan_append {e : Entry} :
    Ticket.Builder.scan nonce (ledger ++ [e]) = .ok s ↔
      ∃ before, Ticket.Builder.scan nonce ledger = .ok before ∧
        LedgerScan.next nonce before e = .ok s := by
  rw [Ticket.Builder.scan, foldlM_append, bind_eq_ok]
  simp [Ticket.Builder.scan]

/-- A ledger the loop accepts reads as the ledger says. -/
theorem Scanned.of_scan
    (ran : Ticket.Builder.scan nonce ledger = .ok s) : Scanned ledger s ∧ Admitted nonce ledger := by
  induction ledger using List.reverseRecOn generalizing s with
  | nil =>
    cases ran
    exact ⟨.nil, .nil⟩
  | append_singleton ledger e ih =>
    obtain ⟨before, earlier, next⟩ := scan_append.mp ran
    obtain ⟨scanned, admitted⟩ := ih earlier
    obtain ⟨admits, rfl⟩ := (next_eq_ok scanned).mp next
    exact ⟨scanned.append admits, admitted.append admits⟩

/-- The loop accepts every ledger whose entries were each admitted. -/
theorem Admitted.scan (admitted : Admitted nonce ledger) :
    ∃ s, Ticket.Builder.scan nonce ledger = .ok s := by
  induction admitted with
  | nil => exact ⟨_, rfl⟩
  | append _ admits ih =>
    obtain ⟨before, earlier⟩ := ih
    exact ⟨_, scan_append.mpr ⟨before, earlier,
      (next_eq_ok (Scanned.of_scan earlier).1).mpr ⟨admits, rfl⟩⟩⟩

end Andrix.Deployment
