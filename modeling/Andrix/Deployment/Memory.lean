import Andrix.Deployment.Loops
import Andrix.Deployment.Replay

/-! What a store never forgets. No operation removes a record, and the check of
a ticket's update refuses a successor that lost what the ticket had recorded.
Both are relations between an earlier and a later value that compose, so every
run keeps them, and a crossing that was issued stays in its ledger for good. -/
namespace Andrix.Deployment
open Andrix.Lib List Option

/-! ## Tickets -/

/-- What a later ticket keeps of an earlier one. -/
structure Ticket.Remembers (before after : Ticket) : Prop where
  identity : before.ticketId = after.ticketId ∧ before.component = after.component ∧
    before.planId = after.planId ∧ before.attempt = after.attempt
  closed : before.state.terminal = true → after = before
  ledger : before.ledger <+: after.ledger
  boots : before.bootCount ≤ after.bootCount
  alerts : before.flags &&& (flagBootLimit ||| flagRequestLimit) &&& ~~~ after.flags = 0
  cause : code before.cause ≤ code after.cause
  reference : TicketMachine.referenceRule before.reference after.reference = .ok ()
  /-- No observed user disappears, and a final outcome stays. -/
  health : ∀ h ∈ before.health, ∃ g ∈ after.health, g.user = h.user ∧ g.serial = h.serial ∧
    (h.outcome ≠ .observing → g.outcome = h.outcome)

namespace TicketMachine

theorem referenceRule_trans {r s t : Reference} (first : referenceRule r s = .ok ())
    (second : referenceRule s t = .ok ()) : referenceRule r t = .ok () := by
  simp only [referenceRule, bind_unit_eq_ok, refuse_eq_ok, not_and, not_not, ne_eq] at first second ⊢
  obtain ⟨presence, sessionId, createdMillis, stageDir, installerUid, nonce⟩ := first
  obtain ⟨presence', sessionId', createdMillis', stageDir', installerUid', nonce'⟩ := second
  have has {field : BitVec 32} (known : r.has field) : s.has field := by
    intro unknown
    apply known
    rw [← presence, BitVec.and_comm s.presence, BitVec.and_assoc, unknown]
    exact BitVec.and_zero
  refine ⟨by rw [← presence, ← BitVec.and_assoc, presence'], ?_⟩
  exact ⟨fun known => (sessionId known).trans (sessionId' (has known)),
    fun known => (createdMillis known).trans (createdMillis' (has known)),
    fun known => (stageDir known).trans (stageDir' (has known)),
    fun known => (installerUid known).trans (installerUid' (has known)),
    fun known => (nonce known).trans (nonce' (has known))⟩

theorem healthRule_remembers {before after : List Health} (kept : healthRule after before = .ok ()) :
    ∀ h ∈ before, ∃ g ∈ after, g.user = h.user ∧ g.serial = h.serial ∧
      (h.outcome ≠ .observing → g.outcome = h.outcome) := by
  induction before with
  | nil => simp
  | cons old rest ih =>
    unfold healthRule at kept
    split at kept
    · cases kept
    rename_i now found
    simp only [bind_unit_eq_ok, refuse_eq_ok, not_and, not_not, ne_eq] at kept
    refine forall_mem_cons.mpr ⟨?_, ih kept.2⟩
    obtain ⟨g, last, rfl⟩ := map_eq_some_iff.mp found
    have among := mem_filter.mp (mem_of_getLast? last)
    simp only [decide_eq_true_eq] at among
    exact ⟨g, among.1, among.2.1, among.2.2, kept.1⟩

end TicketMachine

open TicketMachine

theorem Ticket.Remembers.refl (t : Ticket) : t.Remembers t where
  identity := ⟨rfl, rfl, rfl, rfl⟩
  closed _ := rfl
  ledger := prefix_rfl
  boots := Nat.le_refl _
  alerts := by grind
  cause := Nat.le_refl _
  reference := by simp [referenceRule]
  health h among := ⟨h, among, rfl, rfl, fun _ => rfl⟩

theorem Ticket.Remembers.trans {t u v : Ticket} (first : t.Remembers u) (second : u.Remembers v) :
    t.Remembers v where
  identity := by
    obtain ⟨id, component, plan, attempt⟩ := first.identity
    rw [id, component, plan, attempt]
    exact second.identity
  closed closed := by
    obtain rfl := first.closed closed
    exact second.closed closed
  ledger := first.ledger.trans second.ledger
  boots := Nat.le_trans first.boots second.boots
  alerts := by
    have raised := first.alerts
    have kept := second.alerts
    grind
  cause := Nat.le_trans first.cause second.cause
  reference := referenceRule_trans first.reference second.reference
  health h among := by
    obtain ⟨g, between, user, serial, final⟩ := first.health h among
    obtain ⟨f, last, user', serial', final'⟩ := second.health g between
    refine ⟨f, last, user'.trans user, serial'.trans serial, fun ended => ?_⟩
    exact (final' (final ended ▸ ended)).trans (final ended)

/-- A successor that the check accepts remembers the ticket. -/
theorem MayFollow.remembers {before after : Ticket} (follows : MayFollow before after) :
    before.Remembers after := by
  rcases check_eq_ok.mp follows with rfl | legal
  · exact .refl before
  obtain ⟨added, grown, _⟩ := legal.ledger
  have boots := legal.boots
  simp only [bootRule, bind_unit_eq_ok, refuse_eq_ok, not_or, Nat.not_lt] at boots
  exact ⟨legal.identity.2, fun closed => absurd closed legal.nonterminal, grown ▸ prefix_append _ _,
    boots.2.1.1, legal.alerts, legal.cause, legal.reference, healthRule_remembers legal.health⟩

/-! ## Stores -/

/-- What a later store keeps of an earlier one: the records that are written
once, in their order, and under each ticket's name one that remembers it. -/
structure Store.Keeps (before after : Store) : Prop where
  plans : before.plans <+: after.plans
  authorizations : before.authorizations <+: after.authorizations
  observations : before.observations <+: after.observations
  tickets : ∀ id t, before.ticket id = some t → ∃ u, after.ticket id = some u ∧ t.Remembers u

theorem Store.Keeps.refl (s : Store) : s.Keeps s :=
  ⟨prefix_rfl, prefix_rfl, prefix_rfl, fun _ t found => ⟨t, found, .refl t⟩⟩

theorem Store.Keeps.trans {s t u : Store} (first : s.Keeps t) (second : t.Keeps u) : s.Keeps u where
  plans := first.plans.trans second.plans
  authorizations := first.authorizations.trans second.authorizations
  observations := first.observations.trans second.observations
  tickets id x found := by
    obtain ⟨y, between, remembers⟩ := first.tickets id x found
    obtain ⟨z, last, remembers'⟩ := second.tickets id y between
    exact ⟨z, last, remembers.trans remembers'⟩

theorem Store.Written.keeps {s s' : Store} (written : s.Written s') : s.Keeps s' := by
  have same := Keeps.refl s
  cases written with
  | same | first _ _ _ _ | selected _ _ => exact { same with }
  | plan _ => exact { same with plans := prefix_append _ _ }
  | authorization _ => exact { same with authorizations := prefix_append _ _ }
  | observation _ => exact { same with observations := prefix_append _ _ }
  | created _ =>
    refine { same with tickets := fun id t found => ⟨t, ?_, .refl t⟩ }
    simp only [Store.ticket, List.find?_append] at found ⊢
    simp [found]
  | @updated t next updates =>
    obtain ⟨own, checked, stored⟩ := updates
    refine { same with tickets := fun id u found => ?_ }
    simp only [Store.ticket] at found ⊢
    by_cases named : next.ticketId = id
    · subst named
      rw [find_replace_self (ticket_stored stored) own]
      rw [← own] at found
      obtain rfl := Option.some.inj (stored.symm.trans found)
      exact ⟨next, rfl, MayFollow.remembers checked⟩
    · rw [find_replace_other (x := next) named]
      exact ⟨u, found, .refl u⟩

/-! ## Runs -/

namespace World
variable {w w' : World} {e : WorldEvent}

theorem next_keeps (happened : w.next e = some w') : w.store.Keeps w'.store := by
  obtain ⟨_, ⟨added, adds, performed⟩, _⟩ := next_inv happened
  refine foldlM_keeps w.store.Keeps ?_ (adds_written adds).keeps performed
  exact fun _ _ _ _ before applied => before.trans (Action.apply_written applied).keeps

/-- Each ticket that a crossing was issued for is remembered. -/
def Recorded (w : World) : Prop :=
  ∀ x ∈ crossings w.trace, ∃ u, w.store.ticket x.1.ticketId = some u ∧ x.1.Remembers u

theorem next_recorded (happened : w.next e = some w') (sound : w'.store.Sound)
    (recorded : w.Recorded) : w'.Recorded := by
  intro x issued
  rw [(next_inv happened).2.2, crossings_append, mem_append] at issued
  rcases issued with earlier | now
  · obtain ⟨u, found, remembers⟩ := recorded x earlier
    obtain ⟨v, later, remembers'⟩ := (next_keeps happened).tickets _ u found
    exact ⟨v, later, remembers.trans remembers'⟩
  rcases (next_changed happened).issues with
    none_ | ⟨_, _, _, _, _, s, entry, _, _, _, _, _, _, _, _, written, only⟩
  · rw [none_] at now
    cases now
  · rw [only] at now
    rw [mem_singleton.mp now]
    exact ⟨s.ticket, find_key sound.tickets written, .refl _⟩

end World

open World

variable {installation : Text} {events later : List WorldEvent} {w w' : World}

/-- Whatever happens to a store, it stays sound and keeps what it held. -/
theorem nothing_stored_is_forgotten (ran : (World.start installation).run events = some w)
    (on : w.run later = some w') : w'.store.Sound ∧ w.store.Keeps w'.store := by
  have sound : w.store.Sound := (Unreplayed.run ran).sound
  exact foldlM_keeps (fun x : World => x.store.Sound ∧ w.store.Keeps x.store)
    (fun _ _ _ _ before happened =>
      ⟨next_sound happened before.1, before.2.trans (next_keeps happened)⟩)
    ⟨sound, .refl _⟩ on

theorem publishing_forgets_nothing : ∃ w w', (World.start (sampleId '1')).run
      (publishingEvents.take 8) = some w ∧ w.run (publishingEvents.drop 8) = some w' ∧
    w'.store.Sound ∧ w.store.Keeps w'.store := by
  have whole : ((World.start (sampleId '1')).run
      (publishingEvents.take 8 ++ publishingEvents.drop 8)).isSome = true := by
    decide +kernel
  obtain ⟨w', ran⟩ := isSome_iff_exists.mp whole
  obtain ⟨w, first, rest⟩ := foldlM_append_some.mp ran
  exact ⟨w, w', first, rest, nothing_stored_is_forgotten first rest⟩

/-- Every crossing that a run issued was the last entry of its stored ticket, and
the ticket that the store now has under that name remembers it. -/
theorem issued_crossings_stay_recorded (ran : (World.start installation).run events = some w)
    {t : Ticket} {entry : Entry} (issued : .cross t entry ∈ w.trace) :
    t.ledger.getLast? = some entry ∧
      ∃ u, w.store.ticket t.ticketId = some u ∧ t.Remembers u ∧ entry ∈ u.ledger := by
  have kept : w.store.Sound ∧ w.Recorded := by
    refine foldlM_keeps (fun x : World => x.store.Sound ∧ x.Recorded)
      (fun _ _ _ _ before happened => ?_) ⟨Store.sound_empty installation, ?_⟩ ran
    · have sound := next_sound happened before.1
      exact ⟨sound, next_recorded happened sound before.2⟩
    · exact forall_mem_nil _
  obtain ⟨before, after, split⟩ := append_of_mem issued
  have last := ((Unreplayed.run ran).stored before t entry after split).1
  obtain ⟨u, found, remembers⟩ := kept.2 (t, entry) (mem_filterMap.mpr ⟨_, issued, rfl⟩)
  exact ⟨last, u, found, remembers, remembers.ledger.subset (mem_of_getLast? last)⟩

theorem publish_stays_recorded : ∃ w t entry, (World.start (sampleId '1')).run publishingEvents =
      some w ∧ .cross t entry ∈ w.trace ∧
    ∃ u, w.store.ticket t.ticketId = some u ∧ t.Remembers u ∧ entry ∈ u.ledger := by
  have issued : ((World.start (sampleId '1')).run publishingEvents).map
      (fun w => w.trace.any (fun a => a.crossing.isSome)) = some true := by
    decide +kernel
  obtain ⟨w, ran, crossed⟩ := map_eq_some_iff.mp issued
  obtain ⟨a, among, issues⟩ := any_eq_true.mp crossed
  cases a with
  | cross t entry => exact ⟨w, t, entry, ran, among, (issued_crossings_stay_recorded ran among).2⟩
  | observe _ | select _ _ | update _ _ => cases issues

end Andrix.Deployment
