import Andrix.Deployment.Coordinator

/-! What the operations of a store do to its records. `Written` lists every way
in which an operation changes a store, with what it checked first, and `Sound`
is what every store holds that these operations have made: each record under its
own name, one open ticket for a component, and the attempts of a plan in turn. -/
namespace Andrix.Deployment
open Andrix.Lib List

namespace Store

structure Creates (s : Store) (t : Ticket) : Prop where
  state : t.state = .planned
  ledger : t.ledger = []
  planned : ∃ p, s.plan t.planId = some p ∧ p.component = t.component
  closed : ∀ u ∈ s.tickets, u.component = t.component → u.state.terminal = true
  attempt : t.attempt = s.lastAttempt t.planId + 1
  new : ∀ u ∈ s.tickets, u.ticketId ≠ t.ticketId

structure Updates (s : Store) (t next : Ticket) : Prop where
  id : t.ticketId = next.ticketId
  checked : TicketMachine.check t next = .ok ()
  stored : s.ticket t.ticketId = some t

/-- One operation's change of a store. -/
inductive Written (s : Store) : Store → Prop
  | same : Written s s
  | plan {p : Plan} : (∀ q ∈ s.plans, q.planId ≠ p.planId) →
    Written s { s with plans := s.plans ++ [p] }
  | authorization {a : Authorization} : (∀ b ∈ s.authorizations, b.authorizationId ≠ a.authorizationId) →
    Written s { s with authorizations := s.authorizations ++ [a] }
  | observation {o : Observation} : (∀ x ∈ s.observations, x.observationId ≠ o.observationId) →
    Written s { s with observations := s.observations ++ [o] }
  | created {t : Ticket} : Creates s t → Written s { s with tickets := s.tickets ++ [t] }
  | updated {t next : Ticket} : Updates s t next →
    Written s { s with tickets := replace (·.ticketId) next s.tickets }
  | first {x : Selection} : x.installation = s.installation → x.revision = 0 →
    x.realization = .unchecked → (∀ y ∈ s.selections, y.component ≠ x.component) →
    Written s { s with selections := s.selections ++ [x] }
  | selected {x next : Selection} : s.follows x next = true →
    s.selection next.component = some x →
    Written s { s with selections := replace (·.component) next s.selections }

variable {s s' : Store}

theorem addAuthorization_inv {a : Authorization} (added : s.addAuthorization a = some s') :
    (s' = { s with authorizations := s.authorizations ++ [a] } ∧
      ∀ b ∈ s.authorizations, b.authorizationId ≠ a.authorizationId) ∨
      s' = s ∧ a ∈ s.authorizations :=
  once_inv (Option.ite_none_left_eq_some.mp added).2

theorem createTicket_inv {t : Ticket} (created : s.createTicket t = some s') :
    Creates s t ∧ s' = { s with tickets := s.tickets ++ [t] } := by
  simp only [createTicket, Option.ite_none_left_eq_some, Option.some.injEq, not_or, not_not, ne_eq]
    at created
  obtain ⟨⟨_, state, ledger⟩, planned, closed, attempt, absent, same⟩ := created
  refine ⟨⟨state, ledger, ?_, ?_, attempt, ?_⟩, same.symm⟩
  · cases found : s.plan t.planId with
    | none => simp [found] at planned
    | some p => exact ⟨p, rfl, by simpa [found] using planned⟩
  · intro u among same
    simp only [any_eq_true, not_exists, not_and] at closed
    simpa [same] using closed u among
  · intro u among
    have none_ : s.ticket t.ticketId = none := by simpa using absent
    simpa using List.find?_eq_none.mp none_ u among

theorem updateTicket_inv {t next : Ticket} (updated : s.updateTicket t next = some s') :
    Updates s t next ∧ s' = { s with tickets := replace (·.ticketId) next s.tickets } := by
  simp only [updateTicket, Option.ite_none_left_eq_some, Option.some.injEq, not_or, not_not, ne_eq]
    at updated
  obtain ⟨⟨id, checked⟩, stored, same⟩ := updated
  exact ⟨⟨id, checked, stored⟩, same.symm⟩

theorem putSelection_first {x : Selection} (put : s.putSelection none x = some s') :
    (x.installation = s.installation ∧ x.revision = 0 ∧ x.realization = .unchecked ∧
      s.selection x.component = none) ∧ s' = { s with selections := s.selections ++ [x] } := by
  simp only [putSelection, Option.ite_none_left_eq_some, Option.some.injEq, not_or, not_not, ne_eq]
    at put
  exact ⟨by simpa using put.1, put.2.symm⟩

theorem putSelection_inv {x next : Selection} (put : s.putSelection (some x) next = some s') :
    s.follows x next = true ∧ s.selection next.component = some x ∧
      s' = { s with selections := replace (·.component) next s.selections } := by
  simp only [putSelection, Option.ite_none_left_eq_some, Option.some.injEq, not_or, not_not, ne_eq]
    at put
  exact ⟨by simpa using put.1.1, put.1.2, put.2.symm⟩

/-! ## What every operation keeps -/

/-- The attempts of a plan's tickets, as they were created. -/
def attempts (s : Store) (planId : Text) : List Int :=
  (s.tickets.filter (fun t => t.planId = planId)).map (fun t => t.attempt.toInt)

/-- What every store holds that its operations have made. -/
structure Sound (s : Store) : Prop where
  plans : (s.plans.map (·.planId)).Nodup
  authorizations : (s.authorizations.map (·.authorizationId)).Nodup
  observations : (s.observations.map (·.observationId)).Nodup
  tickets : (s.tickets.map (·.ticketId)).Nodup
  selections : (s.selections.map (·.component)).Nodup
  planned : ∀ t ∈ s.tickets, ∃ p, s.plan t.planId = some p ∧ p.component = t.component
  opened : ∀ t ∈ s.tickets, ∀ u ∈ s.tickets, t.component = u.component →
    t.state.terminal = false → u.state.terminal = false → t = u
  attempted : ∀ planId, ∃ n : Nat, s.attempts planId = (List.range n).map (fun k : Nat => (k : Int) + 1)
  selected : ∀ x ∈ s.selections, x.installation = s.installation ∧
    (x.temporary = noId ∨ s.standsIn x = true)

theorem Sound.authorizationsOf_distinct (sound : Sound s) (planId : Text) :
    ((s.authorizationsOf planId).map (·.authorizationId)).Nodup := by
  have sorted : ((byName (·.authorizationId) s.authorizations).map (·.authorizationId)).Nodup :=
    ((perm_insertionSort _ s.authorizations).map _).nodup_iff.mpr sound.authorizations
  exact sorted.sublist (filter_sublist.map _)

theorem Written.plan_kept (written : Written s s') {id : Text} {p : Plan}
    (found : s.plan id = some p) : s'.plan id = some p := by
  cases written with
  | plan new => simp only [Store.plan, List.find?_append] at found ⊢; simp [found]
  | same | authorization _ | observation _ | created _ | updated _ | first _ _ _ _
  | selected _ _ => exact found

theorem Written.standsIn_kept (written : Written s s') {x : Selection}
    (standing : s.standsIn x = true) : s'.standsIn x = true := by
  simp only [standsIn, Option.any_eq_true] at standing ⊢
  obtain ⟨p, found, stands⟩ := standing
  exact ⟨p, written.plan_kept found, stands⟩

theorem Written.installation_kept (written : Written s s') : s'.installation = s.installation := by
  cases written <;> rfl

theorem sound_empty (installation : Text) : Sound ⟨installation, [], [], [], [], []⟩ where
  plans := nodup_nil
  authorizations := nodup_nil
  observations := nodup_nil
  tickets := nodup_nil
  selections := nodup_nil
  planned := by simp
  opened := by simp
  attempted := fun _ => ⟨0, by simp [attempts]⟩
  selected := by simp

private theorem max_attempt (a b : Int32) :
    (max a b = a ∨ max a b = b) ∧ a ≤ max a b ∧ b ≤ max a b := by
  by_cases order : a ≤ b
  · have largest : max a b = b := if_pos order
    rw [largest]
    exact ⟨.inr rfl, order, Int32.le_refl b⟩
  · have largest : max a b = a := if_neg order
    rw [largest]
    exact ⟨.inl rfl, Int32.le_refl a, (Int32.le_total b a).resolve_right order⟩

private theorem foldl_max_attempt (l : List Ticket) (start : Int32) :
    (l.foldl (fun a t => max a t.attempt) start = start ∨
      ∃ t ∈ l, l.foldl (fun a t => max a t.attempt) start = t.attempt) ∧
    start ≤ l.foldl (fun a t => max a t.attempt) start ∧
    ∀ t ∈ l, t.attempt ≤ l.foldl (fun a t => max a t.attempt) start := by
  induction l generalizing start with
  | nil => simp
  | cons t l ih =>
    obtain ⟨reached, above, most⟩ := ih (max start t.attempt)
    obtain ⟨either, left, right⟩ := max_attempt start t.attempt
    simp only [foldl_cons, mem_cons, forall_eq_or_imp, exists_eq_or_imp]
    refine ⟨?_, Int32.le_trans left above, Int32.le_trans right above, most⟩
    rcases reached with same | ⟨u, among, same⟩
    · rw [same]
      rcases either with first | second
      · exact .inl first
      · exact .inr (.inl second)
    · exact .inr (.inr ⟨u, among, same⟩)

theorem lastAttempt_toInt {planId : Text} {n : Nat}
    (dense : s.attempts planId = (List.range n).map (fun k : Nat => (k : Int) + 1)) :
    (s.lastAttempt planId).toInt = n := by
  obtain ⟨reached, above, most⟩ := foldl_max_attempt (s.ticketsOf planId) 0
  have among (t : Ticket) : t ∈ s.ticketsOf planId ↔ t ∈ s.tickets ∧ t.planId = planId := by
    simp [ticketsOf, mem_byName]
  have listed (t : Ticket) (inside : t ∈ s.ticketsOf planId) :
      ∃ k < n, (k : Int) + 1 = t.attempt.toInt := by
    have attempt : t.attempt.toInt ∈ s.attempts planId :=
      mem_map_of_mem (mem_filter.mpr (by simpa using (among t).mp inside))
    rw [dense] at attempt
    simpa using attempt
  change (s.lastAttempt planId = 0 ∨ _) at reached
  have zero : (0 : Int32).toInt = 0 := rfl
  have floor : 0 ≤ (s.lastAttempt planId).toInt := Int32.le_iff_toInt_le.mp above
  -- Where the plan has attempts, the last of them is among its tickets.
  have upper : 0 < n → (n : Int) ≤ (s.lastAttempt planId).toInt := by
    intro some_
    have last : (n : Int) ∈ s.attempts planId := by
      rw [dense, mem_map]
      refine ⟨n - 1, mem_range.mpr (by omega), ?_⟩
      have whole : n - 1 + 1 = n := by omega
      exact_mod_cast whole
    obtain ⟨t, inside, same⟩ := mem_map.mp last
    rw [← same]
    exact Int32.le_iff_toInt_le.mp (most t ((among t).mpr (by simpa using mem_filter.mp inside)))
  rcases reached with start | ⟨t, inside, same⟩
  · rw [start, zero] at upper ⊢
    omega
  · obtain ⟨k, below, attempt⟩ := listed t inside
    have last : (s.lastAttempt planId).toInt = t.attempt.toInt := congrArg Int32.toInt same
    omega

theorem Sound.created_attempt (sound : Sound s) {t : Ticket}
    (attempt : t.attempt = s.lastAttempt t.planId + 1) (planId : Text) :
    ∃ n : Nat, attempts { s with tickets := s.tickets ++ [t] } planId =
      (List.range n).map (fun k : Nat => (k : Int) + 1) := by
  obtain ⟨n, dense⟩ := sound.attempted planId
  by_cases own : t.planId = planId
  · subst own
    have last := lastAttempt_toInt dense
    have positive : ¬ t.attempt < 1 := t.rules.attempt
    rw [attempt] at positive
    -- The sum is positive, so it has not overflowed.
    have next : t.attempt.toInt = n + 1 := by
      rw [attempt]
      have one : (1 : Int32).toInt = 1 := rfl
      rw [Int32.lt_iff_toInt_lt, Int32.toInt_add, last, one, Int.bmod] at positive
      rw [Int32.toInt_add, last, one, Int.bmod]
      have bound := (s.lastAttempt t.planId).toInt_lt
      omega
    refine ⟨n + 1, ?_⟩
    rw [range_succ, map_append, ← dense]
    simp [attempts, next]
  · exact ⟨n, by simpa [attempts, own] using dense⟩

/-- A ticket's update keeps what the store reads of its place. -/
theorem updated_identity {t next : Ticket} (checked : TicketMachine.check t next = .ok ()) :
    t.component = next.component ∧ t.planId = next.planId ∧ t.attempt = next.attempt ∧
      (t = next ∨ t.state.terminal = false) := by
  rcases TicketMachine.check_eq_ok.mp checked with rfl | legal
  · exact ⟨rfl, rfl, rfl, .inl rfl⟩
  · obtain ⟨_, _, component, plan, attempt⟩ := legal.identity
    exact ⟨component, plan, attempt, .inr (by simpa using legal.nonterminal)⟩

theorem ticket_stored {t : Ticket} (found : s.ticket t.ticketId = some t) : t ∈ s.tickets :=
  mem_of_find?_eq_some found

theorem Written.sound (written : Written s s') (sound : Sound s) : Sound s' := by
  have planned : ∀ t ∈ s.tickets, ∃ p, s'.plan t.planId = some p ∧ p.component = t.component := by
    intro t among
    obtain ⟨p, found, component⟩ := sound.planned t among
    exact ⟨p, written.plan_kept found, component⟩
  have selected : ∀ x ∈ s.selections, x.installation = s'.installation ∧
      (x.temporary = noId ∨ s'.standsIn x = true) := by
    intro x among
    rw [written.installation_kept]
    exact ⟨(sound.selected x among).1, (sound.selected x among).2.imp_right written.standsIn_kept⟩
  cases written with
  | same => exact sound
  | plan new =>
    exact { sound with
      plans := nodup_map_append sound.plans new, planned, selected }
  | authorization new =>
    exact { sound with
      authorizations := nodup_map_append sound.authorizations new, planned, selected }
  | observation new =>
    exact { sound with
      observations := nodup_map_append sound.observations new, planned, selected }
  | @created t creates =>
    refine { sound with
      tickets := nodup_map_append sound.tickets creates.new, planned := ?_, opened := ?_,
      attempted := sound.created_attempt creates.attempt, selected }
    · intro u among
      rcases mem_append.mp among with inside | last
      · exact planned u inside
      · rw [mem_singleton.mp last]
        exact creates.planned
    -- No other ticket of the component is open.
    intro u amongU v amongV same openU openV
    rcases mem_append.mp amongU with insideU | lastU <;>
      rcases mem_append.mp amongV with insideV | lastV
    · exact sound.opened u insideU v insideV same openU openV
    · rw [mem_singleton.mp lastV] at same
      simp [creates.closed u insideU same] at openU
    · rw [mem_singleton.mp lastU] at same
      simp [creates.closed v insideV same.symm] at openV
    · rw [mem_singleton.mp lastU, mem_singleton.mp lastV]
  | @updated t next updates =>
    obtain ⟨id, checked, stored⟩ := updates
    obtain ⟨component, plan, attempt, live⟩ := updated_identity checked
    have present := ticket_stored stored
    have members {u : Ticket} : u ∈ replace (·.ticketId) next s.tickets ↔
        u = next ∨ (u ∈ s.tickets ∧ u.ticketId ≠ next.ticketId) := mem_replace present id
    refine { sound with
      tickets := ?_, planned := ?_, opened := ?_, attempted := ?_, selected }
    · rw [map_key_replace]
      exact sound.tickets
    · intro u among
      rcases members.mp among with rfl | ⟨inside, _⟩
      · rw [← plan, ← component]
        exact planned t present
      · exact planned u inside
    · -- An open successor has an open predecessor, the only open ticket before.
      intro u amongU v amongV same openU openV
      have other {w : Ticket} (inside : w ∈ s.tickets) (apart : w.ticketId ≠ next.ticketId)
          (openW : w.state.terminal = false) (openN : next.state.terminal = false)
          (same : w.component = next.component) : w = next := by
        have openT : t.state.terminal = false := by
          rcases live with rfl | live
          · exact openN
          · exact live
        have only := sound.opened w inside t present (same.trans component.symm) openW openT
        rw [only] at apart
        exact absurd id apart
      rcases members.mp amongU with rfl | ⟨insideU, apartU⟩ <;>
        rcases members.mp amongV with rfl | ⟨insideV, apartV⟩
      · rfl
      · exact (other insideV apartV openV openU same.symm).symm
      · exact other insideU apartU openU openV same
      · exact sound.opened u insideU v insideV same openU openV
    · intro planId
      obtain ⟨before, after, split, replaced⟩ := replace_split sound.tickets present id
      obtain ⟨n, dense⟩ := sound.attempted planId
      refine ⟨n, ?_⟩
      rw [← dense]
      simp only [attempts, replaced]
      rw [split]
      simp [filter_cons, plan, apply_ite, attempt]
  | @first x installation _ realization new =>
    refine { sound with
      selections := nodup_map_append sound.selections new, planned, selected := ?_ }
    intro y among
    rcases mem_append.mp among with inside | last
    · exact selected y inside
    · rw [mem_singleton.mp last]
      refine ⟨installation, .inl (x.rules.standIn.mp ?_)⟩
      simp [realization]
  | @selected x next followed stored =>
    have present : x ∈ s.selections := mem_of_find?_eq_some stored
    have named : x.component = next.component := by simpa using List.find?_some stored
    refine { sound with selections := ?_, planned, selected := ?_ }
    · rw [map_key_replace]
      exact sound.selections
    intro y among
    rcases (mem_replace present named).mp among with rfl | ⟨inside, _⟩
    · simp only [follows, Bool.and_eq_true, Bool.or_eq_true, decide_eq_true_eq] at followed
      exact ⟨followed.1.1.1.1, followed.1.2⟩
    · exact selected y inside

end Store

theorem Action.apply_written {s s' : Store} {a : Action} (applied : a.apply s = some s') :
    s.Written s' := by
  cases a with
  | observe o =>
    rcases Store.once_inv applied with ⟨rfl, new⟩ | ⟨rfl, _⟩
    · exact .observation new
    · exact .same
  | select x next =>
    obtain ⟨followed, stored, rfl⟩ := Store.putSelection_inv applied
    exact .selected followed stored
  | update t next =>
    obtain ⟨updates, rfl⟩ := Store.updateTicket_inv applied
    exact .updated updates
  | cross t e =>
    cases applied
    exact .same

end Andrix.Deployment
