import Andrix.Deployment.Recording

/-! When an absence proof is sound. Rounds poll a device whose reads list every
session, and a coordinator may be lost between any two writes. A listing counts
the SESSION facts recorded in its framework instance, so it proves the ticket's
session absent only where the facts of its own read are recorded with it. -/
namespace Andrix.Deployment
open Andrix.Lib List

/-! ## What a listing shows -/

/-- A listing by which `goneAfter` holds. -/
structure ShowsGone (c : Context) (e : Option Entry) (listing : Observation) : Prop where
  among : listing ∈ c.view.ofKind .listing
  complete : listing.classification ≠ .listingIncomplete
  later : later listing e = true
  since : (latestExact c).all (fun x => x.elapsed ≤ listing.elapsed) = true
  without : listedWithout c listing = true

instance (c : Context) (e : Option Entry) (listing : Observation) :
    Decidable (ShowsGone c e listing) :=
  decidable_of_iff (listing ∈ c.view.ofKind .listing ∧
      listing.classification ≠ .listingIncomplete ∧ later listing e = true ∧
      (latestExact c).all (fun x => x.elapsed ≤ listing.elapsed) = true ∧
      listedWithout c listing = true)
    ⟨fun h => ⟨h.1, h.2.1, h.2.2.1, h.2.2.2.1, h.2.2.2.2⟩, fun h => ⟨h.1, h.2, h.3, h.4, h.5⟩⟩

variable {c : Context}

theorem goneAfter_iff {e : Option Entry} :
    goneAfter c e = true ↔ ∃ listing, ShowsGone c e listing := by
  simp only [goneAfter, absentSince, any_eq_true, Bool.and_eq_true, ne_eq, decide_not,
    Bool.not_eq_true', decide_eq_false_iff_not]
  constructor
  · rintro ⟨listing, among, ⟨⟨complete, later⟩, since⟩, without⟩
    exact ⟨listing, among, complete, later, since, without⟩
  · rintro ⟨listing, among, complete, later, since, without⟩
    exact ⟨listing, among, ⟨⟨complete, later⟩, since⟩, without⟩

/-- A listing by which `absentAfter` holds: one of no session at all, or one on
the device route whose sessions all carry another nonce than the ticket's. -/
structure ShowsAbsent (c : Context) (e : Option Entry) (listing : Observation) : Prop where
  among : listing ∈ c.view.ofKind .listing
  later : later listing e = true
  without : listing.classification = .noneForPackage ∨
    listing.classification = .sessionsForPackage ∧ listing.route = .device ∧
      (∀ s ∈ (c.view.ofKind .session).filter (listed listing),
        s.reference.has Reference.nonceField ∧ s.reference.nonce ≠ c.ticket.reference.nonce) ∧
      (((c.view.ofKind .session).filter (listed listing)).length : Int) = listing.number.toInt

theorem absentAfter_iff {e : Option Entry} :
    absentAfter c e = true ↔ ∃ listing, ShowsAbsent c e listing := by
  simp only [absentAfter, any_eq_true, Bool.and_eq_true, Bool.or_eq_true, decide_eq_true_eq,
    all_eq_true]
  constructor
  · rintro ⟨listing, among, later, without⟩
    exact ⟨listing, among, later, by simpa only [and_assoc] using without⟩
  · rintro ⟨listing, among, later, without⟩
    exact ⟨listing, among, later, by simpa only [and_assoc] using without⟩

/-! ## Polls -/

/-- One round's device read, what the round is to record of it and what it wrote
before it ended or its coordinator was lost. -/
structure Poll where
  seen : List Observation
  listing : Observation
  recorded : List Observation
  written : List Observation

namespace Poll

def sessions (p : Poll) : List Observation :=
  p.seen.filter (fun s => s.kind = .session && listed p.listing s)

/-- A complete read: a listing that counts the sessions read with it, all in its
boot, framework instance and component. -/
structure Complete (p : Poll) : Prop where
  among : p.listing ∈ p.seen
  kind : p.listing.kind = .listing
  complete : p.listing.classification ≠ .listingIncomplete
  together : ∀ s ∈ p.seen, s.kind = .session → s.boot = p.listing.boot ∧
    s.instanceId = p.listing.instanceId ∧ s.component = p.listing.component
  counted : p.listing.number.toInt = p.sessions.length

/-- The coordinator was not lost between writing the listing and writing the last
SESSION fact of the same read. -/
def Kept (p : Poll) : Prop :=
  p.listing ∈ p.written → ∀ s ∈ p.recorded, s.kind = .session → s ∈ p.written

end Poll

/-- The stores that polling rounds reach. A round writes the first of the facts
it is to record. Once it wrote them all its coordinator may go on, otherwise it
was lost, and the next round uses a new one. -/
inductive Polled (start : Store) : List Poll → Store → Option (List Observation) → Prop
  | start : Polled start [] start none
  | round {polls store held} {poll : Poll} {after next} : Polled start polls store held → poll.Complete →
    poll.recorded = record (store.known held) poll.seen → poll.written <+: poll.recorded →
    perform store (poll.written.map .observe) = some after →
    (∀ l ∈ next, poll.written = poll.recorded ∧ l = store.known held ++ poll.recorded) →
    Polled start (polls ++ [poll]) after next
  | reply {polls store held} {o : Observation} {after} : Polled start polls store held → o.kind = .reply →
    store.addObservation o = some after → Polled start polls after (held.map (· ++ [o]))

/-! ## What is stored -/

variable {store after : Store}

theorem Store.mem_addObservation {o : Observation}
    (added : store.addObservation o = some after) (x : Observation) :
    x ∈ after.observations ↔ x ∈ store.observations ∨ x = o := by
  rcases once_inv added with ⟨rfl, _⟩ | ⟨rfl, present⟩
  · simp
  constructor
  · exact .inl
  · rintro (inside | rfl)
    · exact inside
    · exact present

theorem mem_perform_observe {written : List Observation}
    (performed : perform store (written.map .observe) = some after) (x : Observation) :
    x ∈ after.observations ↔ x ∈ store.observations ∨ x ∈ written := by
  induction written generalizing store with
  | nil =>
    cases performed
    simp
  | cons o rest ih =>
    simp only [perform, map_cons, foldlM_cons, Option.bind_eq_bind,
      Option.bind_eq_some_iff] at performed
    obtain ⟨mid, first, others⟩ := performed
    rw [ih others, Store.mem_addObservation first, mem_cons, or_assoc]

theorem mem_known_none {store : Store} {x : Observation} :
    x ∈ store.known none ↔ x ∈ store.observations := mem_byName

/-- A coordinator that goes on knows exactly the stored facts. -/
theorem Polled.known {start store : Store} {polls : List Poll} {held : Option (List Observation)}
    (run : Polled start polls store held) (x : Observation) :
    x ∈ store.known held ↔ x ∈ store.observations := by
  induction run with
  | start => exact mem_known_none
  | @round _ _ _ _ _ next _ _ _ _ performed goesOn ih =>
    cases next with
    | none => exact mem_known_none
    | some l =>
      obtain ⟨whole, rfl⟩ := goesOn l rfl
      rw [mem_perform_observe performed, whole, ← ih]
      exact mem_append
  | @reply _ store held o after _ _ added ih =>
    rw [Store.mem_addObservation added, ← ih]
    cases held with
    | none =>
      simp only [Option.map_none, mem_known_none, Store.mem_addObservation added]
    | some l => simp [Store.known]

/-- A recorded fact of the same session state as one read. -/
def Stands (s x : Observation) : Prop :=
  x.kind = .session ∧ x.boot = s.boot ∧ x.instanceId = s.instanceId ∧ x.component = s.component ∧
    x.classification = s.classification ∧ x.reference = s.reference

/-- Every session that a kept poll listed with its listing stands in the store. -/
def Standing (store : Store) (p : Poll) : Prop :=
  p.Complete ∧ (p.listing ∈ p.written → ∀ s ∈ p.sessions, ∃ x ∈ store.observations, Stands s x)

variable {p : Poll}

theorem Standing.mono {before after : Store} (standing : Standing before p)
    (grown : ∀ x ∈ before.observations, x ∈ after.observations) : Standing after p := by
  refine ⟨standing.1, fun written s among => ?_⟩
  obtain ⟨x, inside, stands⟩ := standing.2 written s among
  exact ⟨x, grown x inside, stands⟩

/-- A session of the read is written with it or repeats a fact that is stored. -/
theorem standing_of_kept {known : List Observation}
    (complete : p.Complete) (kept : p.Kept) (recorded : p.recorded = record known p.seen)
    (knows : ∀ x ∈ known, x ∈ store.observations)
    (performed : perform store (p.written.map .observe) = some after) : Standing after p := by
  refine ⟨complete, fun written s among => ?_⟩
  obtain ⟨seen, session⟩ := mem_filter.mp among
  simp only [Bool.and_eq_true, decide_eq_true_eq] at session
  have stored {x : Observation} (inside : x ∈ known ∨ x ∈ p.recorded) (kind : x.kind = .session) :
      x ∈ after.observations := by
    rw [mem_perform_observe performed]
    rcases inside with inside | inside
    · exact .inl (knows x inside)
    · exact .inr (kept written x inside kind)
  rcases record_covers (l := known) seen with inside | ⟨old, inside, same, agrees⟩
  · rw [← recorded] at inside
    exact ⟨s, stored (.inr inside) session.1, session.1, rfl, rfl, rfl, rfl, rfl⟩
  rw [← recorded, mem_append] at inside
  obtain ⟨kind, boot, instance_, _, component, _⟩ := sameSubject_iff.mp same
  obtain ⟨classification, _, _, _, _, reference, _⟩ := identical_iff.mp agrees
  rw [session.1] at kind
  exact ⟨old, stored inside kind, kind, boot, instance_, component, classification, reference⟩

theorem Polled.standing {start store : Store} {polls : List Poll} {held : Option (List Observation)}
    (run : Polled start polls store held) (kept : ∀ p ∈ polls, p.Kept) :
    ∀ p ∈ polls, Standing store p := by
  induction run with
  | start => simp
  | round before complete recorded _ performed _ ih =>
    intro p among
    have grown := fun x inside => (mem_perform_observe performed x).mpr (.inl inside)
    rcases mem_append.mp among with among | among
    · exact (ih (fun q inside => kept q (mem_append_left _ inside)) p among).mono grown
    · obtain rfl := mem_singleton.mp among
      exact standing_of_kept complete (kept _ (by simp)) recorded
        (fun x inside => (before.known x).mp inside) performed
  | reply _ _ added ih =>
    intro p among
    exact (ih kept p among).mono fun x inside =>
      (Store.mem_addObservation added x).mpr (.inl inside)

/-! ## Soundness -/

/-- Whether a listed session may be the ticket's: it has the ticket's session ID
and is the exact session, or nothing tells it apart. -/
def mayBeTickets (r : Reference) (s : Observation) : Prop :=
  s.reference.sessionId = r.sessionId ∧ (decidable r s.reference = false ∨ isExact r s.reference)

/-- Whether a listed session may come from the ticket's create: it carries the
ticket's nonce, or no nonce was read. -/
def mayBeCreated (r : Reference) (s : Observation) : Prop :=
  ¬ s.reference.has Reference.nonceField ∨ s.reference.nonce = r.nonce

theorem Stands.counted {s x : Observation} {facts : List Observation}
    (view : c.view = View.ofFacts c.view.boot c.plan.component facts) (complete : p.Complete)
    (listing : p.listing ∈ c.view.ofKind .listing) (among : s ∈ p.sessions) (inside : x ∈ facts)
    (stands : Stands s x) : x ∈ (c.view.ofKind .session).filter (listed p.listing) := by
  obtain ⟨seen, session⟩ := mem_filter.mp among
  simp only [Bool.and_eq_true, decide_eq_true_eq] at session
  obtain ⟨kind, boot, instance_, component, classification, _⟩ := stands
  obtain ⟨sameBoot, _, sameComponent⟩ := complete.together s seen session.1
  obtain ⟨fact, _, bootIs⟩ := View.mem_ofKind.mp listing
  have scope : View.inScope c.view.boot c.plan.component p.listing = true := by
    rw [view] at fact
    have sorted := (perm_insertionSort _ _).mem_iff.mp fact
    exact (mem_filter.mp sorted).2
  have inScope : View.inScope c.view.boot c.plan.component x = true := by
    simp only [View.inScope, Bool.and_eq_true, Bool.or_eq_true, decide_eq_true_eq] at scope ⊢
    rw [component, sameComponent]
    exact ⟨scope.1, .inl (.inl (by rw [boot, sameBoot, bootIs]))⟩
  have member : x ∈ c.view.facts := by
    rw [view]
    exact (perm_insertionSort _ _).mem_iff.mpr (mem_filter.mpr ⟨inside, inScope⟩)
  refine mem_filter.mpr ⟨View.mem_ofKind.mpr ⟨member, kind, ?_⟩, ?_⟩
  · rw [boot, sameBoot, bootIs]
  · simpa [listed, instance_, classification] using session.2

theorem noneForPackage_counts {o : Observation} (none_ : o.classification = .noneForPackage) :
    o.number.toInt = 0 := by
  have number := o.rules.number
  have kind : o.kind = .listing := by
    rw [Observation.Builder.kind, none_]
    rfl
  simp only [Observation.Builder.validateNumber, kind, bind_unit_eq_ok, invalid_eq_ok, not_or, none_,
    reduceCtorEq, false_iff, not_not] at number
  obtain ⟨⟨low, _⟩, high⟩ := number
  rw [Int32.lt_iff_toInt_lt] at low high
  have zero : (0 : Int32).toInt = 0 := by decide
  omega

/-- A component's fact under its own ID, in the framework instance after the
create's. -/
def pollFact (digit : Char) (classification : Classification) (elapsed : Int64) :
    Observation.Builder :=
  { sampleComponentFact classification elapsed with
    observationId := List.replicate 30 '0' ++ ['8', digit], instanceId := 1 }

def otherSession : Reference where
  toFields := ⟨31, 8, 21, "/other".toList, 2000, sampleId 'd'⟩
  valid := by decide +kernel

def boundTicket : Ticket :=
  (sampleSetting.replay sampleTicket (sampleRun.take 7)).get (by decide +kernel)

def pollStore : Store where
  installation := sampleId '1'
  plans := [samplePlan]
  authorizations := [sampleStage, sampleActivate]
  tickets := [boundTicket]
  observations := [
    ⟨{ samplePublication with observationId := sampleId 'a' }, by decide +kernel⟩,
    ⟨{ sampleBoot 2 with observationId := sampleId 'b' }, by decide +kernel⟩,
    ⟨{ sampleFact .checkpointCommitted 3 with observationId := sampleId 'c' }, by decide +kernel⟩]
  selections := [sampleSelection]

def firstListing : Observation :=
  ⟨{ pollFact '1' .sessionsForPackage 40 with number := 1 }, by decide +kernel⟩

def firstFacts : List Observation :=
  [firstListing, ⟨{ pollFact '2' .opened 40 with reference := otherSession }, by decide +kernel⟩]

/-- The read before the ticket's session is listed. -/
def firstPoll : Poll := ⟨firstFacts, firstListing, firstFacts, firstFacts⟩

def secondListing : Observation :=
  ⟨{ pollFact '3' .sessionsForPackage 50 with number := 2 }, by decide +kernel⟩

/-- What the lost coordinator wrote: the listing and the other session, sealed by
now. -/
def secondWritten : List Observation :=
  [secondListing, ⟨{ pollFact '4' .sealed 50 with reference := otherSession }, by decide +kernel⟩]

def secondFacts : List Observation := secondWritten ++
  [⟨{ pollFact '5' .opened 50 with reference := sampleReference }, by decide +kernel⟩]

def cutPoll : Poll := ⟨secondFacts, secondListing, secondFacts, secondWritten⟩

def polledOnce : Store := { pollStore with observations := pollStore.observations ++ firstFacts }

def polledTwice : Store := { polledOnce with observations := polledOnce.observations ++ secondWritten }

theorem boundTicket_plan : boundTicket.planId = samplePlan.planId := by decide +kernel

/-- What a step of a new coordinator on a store reads. -/
def polledContext (store : Store) : Context :=
  { sampleSetting with facts := store.known none }.context boundTicket boundTicket_plan
    (sampleClock '9' 60) (sampleId 'c')

theorem firstPoll_complete : firstPoll.Complete :=
  ⟨by decide +kernel, by decide +kernel, by decide +kernel, by decide +kernel, by decide +kernel⟩

theorem polled_once : Polled pollStore [firstPoll] polledOnce none :=
  .round .start firstPoll_complete (by decide +kernel) (prefix_refl _) rfl (by simp)

end Andrix.Deployment
