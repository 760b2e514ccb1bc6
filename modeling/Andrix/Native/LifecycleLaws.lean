import Andrix.Native.Lifecycle
import Mathlib.Algebra.Order.Ring.Nat
import Mathlib.Data.List.Induction

/-! A ready lifecycle lease is always backed by recent evidence. One lemma says
what a call can do to the gate; the invariant over a run ties the outstanding
query and the ready lease to the calls that made them. -/
namespace Andrix.Native
open Andrix.Lib

theorem lease_toNat : kLifecycleLeaseMillis.toNat = 2000 := rfl

theorem query_toNat : kLifecycleQueryMillis.toNat = 1000 := rfl

theorem lastIssue_toNat : kLastIssue.toNat = 2 ^ 64 - 1 - 2000 := rfl

theorem maxToken_toNat : kMaxToken.toNat = 2 ^ 63 - 1 := rfl

variable {now : UInt64} {g : LifecycleGate}

namespace LifecycleGate

/-- At this time nothing of the registration has expired and the clock did not run
backwards. -/
def Fresh (g : LifecycleGate) (now : UInt64) : Prop :=
  g.observed ≤ now ∧ (g.state ≠ .absent → now < g.deadline) ∧
    (g.query ≠ 0 → now - g.issued < kLifecycleQueryMillis)

instance (g : LifecycleGate) (now : UInt64) : Decidable (g.Fresh now) :=
  inferInstanceAs (Decidable (_ ∧ _ ∧ _))

/-- A revoked gate that may have seen a later time. -/
structure Dropped (g : LifecycleGate) (now : UInt64) (h : LifecycleGate) : Prop where
  state : h.state = .absent
  query : h.query = 0
  issued : h.issued = 0
  deadline : h.deadline = 0
  generation : h.generation = g.generation
  sequence : h.querySequence = g.querySequence
  seen : g.observed ≤ h.observed ∧ now ≤ h.observed

theorem valid_of_fresh (fresh : g.Fresh now) :
    g.valid now = ({ g with observed := now }, decide (g.state ≠ .absent)) := by
  obtain ⟨seen, leased, waited⟩ := fresh
  have current : ¬ now < g.observed := UInt64.not_lt.mpr seen
  have unexpired : ¬ (g.state ≠ .absent ∧ now ≥ g.deadline) := by
    rintro ⟨held, past⟩
    exact UInt64.not_lt.mpr past (leased held)
  have unanswered : ¬ (g.query ≠ 0 ∧ now - g.issued ≥ kLifecycleQueryMillis) := by
    rintro ⟨outstanding, late⟩
    exact UInt64.not_lt.mpr late (waited outstanding)
  simp only [valid, advance, if_neg current, Bool.not_true, Bool.false_eq_true, if_false,
    if_neg unexpired, if_neg unanswered]

theorem revoke_dropped (g : LifecycleGate) (now : UInt64) (seen : now ≤ g.observed) :
    g.Dropped now g.revoke :=
  ⟨rfl, rfl, rfl, rfl, rfl, rfl, UInt64.le_refl _, seen⟩

theorem valid_of_not_fresh (stale : ¬ g.Fresh now) :
    (g.valid now).2 = false ∧ g.Dropped now (g.valid now).1 := by
  by_cases backwards : now < g.observed
  · simp only [valid, advance, if_pos backwards, Bool.not_false, if_true, true_and]
    exact g.revoke_dropped now (UInt64.le_of_lt backwards)
  have seen : g.observed ≤ now := UInt64.not_lt.mp backwards
  have dropped : g.Dropped now ({ g with observed := now } : LifecycleGate).revoke :=
    ⟨rfl, rfl, rfl, rfl, rfl, rfl, seen, UInt64.le_refl _⟩
  simp only [valid, advance, if_neg backwards, Bool.not_true, Bool.false_eq_true, if_false]
  by_cases expired : g.state ≠ .absent ∧ now ≥ g.deadline
  · rw [if_pos expired]
    have cleared : ¬ (({ g with observed := now } : LifecycleGate).revoke.query ≠ 0 ∧
        now - ({ g with observed := now } : LifecycleGate).revoke.issued ≥
          kLifecycleQueryMillis) := fun h => h.1 rfl
    rw [if_neg cleared]
    exact ⟨rfl, dropped⟩
  rw [if_neg expired]
  have unanswered : g.query ≠ 0 ∧ now - g.issued ≥ kLifecycleQueryMillis := by
    by_contra answered
    refine stale ⟨seen, fun held => ?_, fun outstanding => ?_⟩
    · exact UInt64.not_le.mp fun past => expired ⟨held, past⟩
    · exact UInt64.not_le.mp fun late => answered ⟨outstanding, late⟩
  rw [if_pos unanswered]
  exact ⟨rfl, dropped⟩

end LifecycleGate

/-! ## What a call can do -/

/-- A call that says nothing about the registration. -/
structure LifecycleEvent.Quiet (e : LifecycleEvent) : Prop where
  registered : e.registered = none
  asked : e.asked = none
  answered : e.answered = none
  ends : e.ends = false

/-- What a call does to a gate. -/
inductive LifecycleGate.Performed (g : LifecycleGate) (c : LifecycleCall) : LifecycleGate → Prop
  | kept (seen : UInt64) :
    (c.time = some seen ∧ g.Fresh seen ∨ c.time = none ∧ seen = g.observed) →
    LifecycleEvent.Quiet ⟨g, c⟩ → Performed g c { g with observed := seen }
  | dropped {h : LifecycleGate} :
    g.Dropped (c.time.getD 0) h → LifecycleEvent.registered ⟨g, c⟩ = none →
    LifecycleEvent.asked ⟨g, c⟩ = none → Performed g c h
  | registered (now : UInt64) :
    c = .begin now → g.observed ≤ now → g.generation < kMaxToken → now ≤ kLastIssue →
    LifecycleEvent.registered ⟨g, c⟩ = some (g.generation + 1) →
    Performed g c
      { g.revoke with
        observed := now
        generation := g.generation + 1
        state := .pending
        deadline := now + kLifecycleLeaseMillis }
  | asked (now : UInt64) :
    c = .beginQuery g.generation now → g.Fresh now → g.state ≠ .absent → g.query = 0 →
    g.querySequence < kMaxToken → now ≤ kLastIssue →
    LifecycleEvent.asked ⟨g, c⟩ = some ⟨g.generation, g.querySequence + 1, now⟩ →
    Performed g c
      { g with
        observed := now
        querySequence := g.querySequence + 1
        query := g.querySequence + 1
        issued := now }
  | granted (now : UInt64) :
    c = .report g.generation g.query now true true → g.Fresh now → g.state ≠ .absent →
    g.query ≠ 0 →
    LifecycleEvent.answered ⟨g, c⟩ = some ⟨g.generation, g.query, now, true, true⟩ →
    Performed g c
      { g with
        observed := now
        query := 0
        issued := 0
        deadline := g.issued + kLifecycleLeaseMillis
        state := .ready }

variable {n : UInt64}

namespace LifecycleGate

variable {g : LifecycleGate} {now : UInt64}

theorem next_token (below : n < kMaxToken) : (n + 1).toNat = n.toNat + 1 := by
  have bound := UInt64.lt_iff_toNat_lt.mp below
  rw [maxToken_toNat] at bound
  rw [UInt64.toNat_add, show (1 : UInt64).toNat = 1 from rfl]
  omega

theorem next_token_ne (below : n < kMaxToken) : n + 1 ≠ 0 := by
  intro zero
  have value := next_token below
  rw [zero] at value
  exact absurd value (by simp)

theorem lt_next_token {n m : UInt64} (below : n < kMaxToken) (le : m ≤ n) : m < n + 1 := by
  have bound := UInt64.le_iff_toNat_le.mp le
  rw [UInt64.lt_iff_toNat_lt, next_token below]
  omega

/-- A call that only reads the clock through `valid`. -/
theorem performed_valid {c : LifecycleCall} (time : c.time = some now)
    (registered : LifecycleEvent.registered ⟨g, c⟩ = none)
    (asked : LifecycleEvent.asked ⟨g, c⟩ = none)
    (quiet : g.Fresh now → LifecycleEvent.Quiet ⟨g, c⟩) : Performed g c (g.valid now).1 := by
  by_cases fresh : g.Fresh now
  · rw [valid_of_fresh fresh]
    exact .kept now (.inl ⟨time, fresh⟩) (quiet fresh)
  · refine .dropped ?_ registered asked
    rw [time]
    exact (valid_of_not_fresh fresh).2

theorem begin_performed : Performed g (.begin now) (g.begin now).1 := by
  by_cases backwards : now < g.observed
  · have refused : g.begin now = (g.revoke.revoke, 0) := by
      simp [begin, advance, revoke, backwards]
    refine .dropped ?_ (by simp [LifecycleEvent.registered, refused]) rfl
    rw [refused]
    exact ⟨rfl, rfl, rfl, rfl, rfl, rfl, UInt64.le_refl _, UInt64.le_of_lt backwards⟩
  have seen : g.observed ≤ now := UInt64.not_lt.mp backwards
  have current : ¬ now < g.revoke.observed := backwards
  by_cases full : g.generation ≥ kMaxToken ∨ now > kLastIssue
  · have refused : g.begin now = ({ g.revoke with observed := now }, 0) := by
      simp only [begin, advance, if_neg current]
      rw [if_pos]
      rcases full with full | full <;> simp [revoke, full]
    refine .dropped ?_ (by simp [LifecycleEvent.registered, refused]) rfl
    rw [refused]
    exact ⟨rfl, rfl, rfl, rfl, rfl, rfl, seen, UInt64.le_refl _⟩
  · obtain ⟨generation, time⟩ := not_or.mp full
    have below := UInt64.not_le.mp generation
    have issued : g.begin now =
        ({ g.revoke with
            observed := now
            generation := g.generation + 1
            state := .pending
            deadline := now + kLifecycleLeaseMillis }, g.generation + 1) := by
      simp only [begin, advance, if_neg current]
      rw [if_neg]
      · rfl
      · simp only [Bool.not_true, Bool.false_or, Bool.or_eq_true, decide_eq_true_eq]
        exact full
    rw [issued]
    refine .registered now rfl seen below (UInt64.not_lt.mp time) ?_
    simp [LifecycleEvent.registered, issued, next_token_ne below]

theorem beginQuery_of_fit (fresh : g.Fresh now) (held : g.state ≠ .absent) (named : g.generation ≠ 0)
    (free : g.query = 0) :
    g.beginQuery g.generation now =
      if g.querySequence ≥ kMaxToken || now > kLastIssue then
        (({ g with observed := now } : LifecycleGate).revoke, 0)
      else
        ({ g with
            observed := now
            querySequence := g.querySequence + 1
            query := g.querySequence + 1
            issued := now }, g.querySequence + 1) := by
  simp [beginQuery, valid_of_fresh fresh, held, named, free]

theorem beginQuery_of_unfit {generation : UInt64}
    (unfit : ¬ (g.Fresh now ∧ g.state ≠ .absent ∧ generation ≠ 0 ∧ generation = g.generation ∧
      g.query = 0)) : g.beginQuery generation now = ((g.valid now).1, 0) := by
  by_cases fresh : g.Fresh now
  · have refuses : g.state = .absent ∨ generation = 0 ∨ generation ≠ g.generation ∨ g.query ≠ 0 := by
      by_contra fit
      simp only [not_or, not_not] at fit
      exact unfit ⟨fresh, fit⟩
    rw [beginQuery, valid_of_fresh fresh]
    simp only
    rw [if_pos]
    rcases refuses with h | h | h | h <;> simp [h]
  · simp [beginQuery, (valid_of_not_fresh fresh).1]

theorem beginQuery_performed {generation : UInt64} :
    Performed g (.beginQuery generation now) (g.beginQuery generation now).1 := by
  by_cases fit : g.Fresh now ∧ g.state ≠ .absent ∧ generation ≠ 0 ∧ generation = g.generation ∧
      g.query = 0
  · obtain ⟨fresh, held, named, rfl, free⟩ := fit
    have value := beginQuery_of_fit fresh held named free
    by_cases full : g.querySequence ≥ kMaxToken ∨ now > kLastIssue
    · rw [if_pos (by simpa using full)] at value
      refine .dropped ?_ rfl (by simp [LifecycleEvent.asked, value])
      rw [value]
      exact ⟨rfl, rfl, rfl, rfl, rfl, rfl, fresh.1, UInt64.le_refl _⟩
    · rw [if_neg (by simpa using full)] at value
      obtain ⟨sequence, time⟩ := not_or.mp full
      have below := UInt64.not_le.mp sequence
      rw [value]
      refine .asked now rfl fresh held free below (UInt64.not_lt.mp time) ?_
      simp [LifecycleEvent.asked, value, next_token_ne below]
  · have refused := beginQuery_of_unfit fit
    have none_ : LifecycleEvent.asked ⟨g, .beginQuery generation now⟩ = none := by
      simp [LifecycleEvent.asked, refused]
    rw [refused]
    exact performed_valid rfl rfl none_ fun _ => ⟨rfl, none_, rfl, rfl⟩

variable {generation challenge : UInt64}

theorem matching_iff :
    g.matching generation challenge now = true ↔
      g.Fresh now ∧ g.state ≠ .absent ∧ generation ≠ 0 ∧ generation = g.generation ∧
        challenge ≠ 0 ∧ challenge = g.query := by
  by_cases fresh : g.Fresh now
  · simp [matching, valid_of_fresh fresh, fresh, and_assoc]
  · simp [matching, (valid_of_not_fresh fresh).1, fresh]

/-- A report that answers no outstanding query does what reading the clock does. -/
theorem report_of_not_matching {running unlocked : Bool}
    (stale : g.matching generation challenge now = false) :
    g.report generation challenge now running unlocked = ((g.valid now).1, false) := by
  simp [report, stale]

theorem report_performed {running unlocked : Bool} :
    Performed g (.report generation challenge now running unlocked)
      (g.report generation challenge now running unlocked).1 := by
  by_cases matched : g.matching generation challenge now = true
  · obtain ⟨fresh, held, named, rfl, numbered, rfl⟩ := matching_iff.mp matched
    have answered : LifecycleEvent.answered ⟨g, .report g.generation g.query now running unlocked⟩ =
        some ⟨g.generation, g.query, now, running, unlocked⟩ := by
      simp [LifecycleEvent.answered, matched]
    by_cases positive : running = true ∧ unlocked = true
    · obtain ⟨rfl, rfl⟩ := positive
      have value : (g.report g.generation g.query now true true).1 =
          { g with
            observed := now
            query := 0
            issued := 0
            deadline := g.issued + kLifecycleLeaseMillis
            state := .ready } := by
        simp [report, matched, valid_of_fresh fresh]
      rw [value]
      exact .granted now rfl fresh held numbered answered
    · have value : (g.report g.generation g.query now running unlocked).1 =
          ({ g with observed := now } : LifecycleGate).revoke := by
        simp only [report, matched, valid_of_fresh fresh, Bool.not_true, Bool.false_eq_true, if_false]
        rw [if_pos]
        · rfl
        · cases running <;> cases unlocked <;> simp at positive ⊢
      rw [value]
      refine .dropped ?_ rfl rfl
      exact ⟨rfl, rfl, rfl, rfl, rfl, rfl, fresh.1, UInt64.le_refl _⟩
  · have stale := Bool.not_eq_true _ ▸ matched
    rw [report_of_not_matching stale]
    have none_ : LifecycleEvent.answered ⟨g, .report generation challenge now running unlocked⟩ =
        none := by
      simp [LifecycleEvent.answered, stale]
    exact performed_valid rfl rfl rfl fun _ => ⟨rfl, rfl, none_, by simp [LifecycleEvent.ends, none_]⟩

theorem readyUntil_gate : (g.readyUntil now).1 = (g.valid now).1 := by
  have same : (g.ready now).1 = (g.valid now).1 := rfl
  rw [← same, readyUntil]
  obtain ⟨h, held⟩ := g.ready now
  cases held <;> rfl

theorem perform_performed (g : LifecycleGate) (c : LifecycleCall) : Performed g c (g.perform c) := by
  have reads (now : UInt64) {c : LifecycleCall} (time : c.time = some now)
      (quiet : LifecycleEvent.Quiet ⟨g, c⟩) : Performed g c (g.valid now).1 :=
    performed_valid time quiet.registered quiet.asked fun _ => quiet
  cases c with
  | begin now => exact begin_performed
  | beginQuery generation now => exact beginQuery_performed
  | report generation challenge now running unlocked => exact report_performed
  | valid now | ready now => exact reads now rfl ⟨rfl, rfl, rfl, rfl⟩
  | readyUntil now =>
    rw [perform, readyUntil_gate]
    exact reads now rfl ⟨rfl, rfl, rfl, rfl⟩
  | release generation =>
    by_cases mine : generation = 0 ∨ generation ≠ g.generation
    · have value : (g.release generation).1 = { g with observed := g.observed } := by
        rw [release, if_pos (by simpa using mine)]
      rw [perform, value]
      refine .kept g.observed (.inr ⟨rfl, rfl⟩) ⟨rfl, rfl, rfl, ?_⟩
      rcases mine with h | h <;> simp [LifecycleEvent.ends, h]
    · rw [perform, release, if_neg (by simpa using mine)]
      exact .dropped (g.revoke_dropped 0 (UInt64.zero_le)) rfl rfl
  | revoke => exact .dropped (g.revoke_dropped 0 (UInt64.zero_le)) rfl rfl

end LifecycleGate

/-! ## The evidence behind a lease -/

/-- No query of these events was still unanswered when a clock read at least
`kLifecycleQueryMillis` after it was issued. -/
def Waited (events : List LifecycleEvent) : Prop :=
  ∀ earlier (question : LifecycleEvent) later, events = earlier ++ question :: later →
    ∀ query, question.asked = some query →
      ∀ meanwhile (e : LifecycleEvent) rest, later = meanwhile ++ e :: rest → ∀ t, e.time = some t →
        t.toNat < query.issued.toNat + kLifecycleQueryMillis.toNat ∨
          ∃ x ∈ meanwhile, x.answers query.number

/-- The evidence behind a lease of this generation: a query, its one answer, and
nothing after the answer that ends the registration. -/
structure Evidence (generation : UInt64) (past : List LifecycleEvent) where
  before : List LifecycleEvent
  question : LifecycleEvent
  between : List LifecycleEvent
  reply : LifecycleEvent
  since : List LifecycleEvent
  query : LifecycleEvent.Query
  received : UInt64
  order : past = before ++ question :: (between ++ reply :: since)
  asked : question.asked = some query
  current : query.generation = generation
  answered : reply.answered = some ⟨generation, query.number, received, true, true⟩
  prompt : query.issued ≤ received ∧
    received.toNat < query.issued.toNat + kLifecycleQueryMillis.toNat
  once : ∀ e ∈ before ++ question :: (between ++ since), ¬ e.answers query.number
  unended : ∀ e ∈ since, e.ends = false
  latest : ∀ e ∈ before ++ question :: between, ∀ t, e.time = some t → t ≤ received
  forwards : (received :: since.filterMap LifecycleEvent.time).Pairwise (· ≤ ·)
  waited : Waited since

variable {e : LifecycleEvent}

theorem LifecycleEvent.answered_time {answer : LifecycleEvent.Answer}
    (answered : e.answered = some answer) : e.time = some answer.received := by
  unfold LifecycleEvent.answered at answered
  split at answered
  · next call =>
    split at answered
    · cases answered
      simp [LifecycleEvent.time, LifecycleCall.time, call]
    · cases answered
  · cases answered

theorem LifecycleEvent.asked_number {query : LifecycleEvent.Query}
    (asked : e.asked = some query) : query.number ≠ 0 := by
  unfold LifecycleEvent.asked at asked
  split at asked
  · simpa using (Option.filter_eq_some_iff.mp asked).2
  · cases asked

/-- Only the outstanding query of a current registration is ever answered. -/
theorem LifecycleEvent.answers_query {c : LifecycleCall} {number : UInt64}
    (answers : LifecycleEvent.answers ⟨g, c⟩ number) : number ≠ 0 ∧ number = g.query := by
  obtain ⟨answer, answered, rfl⟩ := answers
  unfold LifecycleEvent.answered at answered
  split at answered
  · split at answered
    · next matched =>
      obtain ⟨_, _, _, _, numbered, same⟩ := LifecycleGate.matching_iff.mp matched
      cases answered
      exact ⟨numbered, same⟩
    · cases answered
  · cases answered

theorem Evidence.mem_past {generation : UInt64} {past : List LifecycleEvent}
    (evidence : Evidence generation past)
    (among : e ∈ evidence.before ++ evidence.question :: (evidence.between ++ evidence.reply ::
      evidence.since)) : e ∈ past := by
  rw [evidence.order]
  exact among

/-- Evidence outlives an event that neither ends the registration nor finds a
query unanswered for too long. -/
def Evidence.extend {generation : UInt64} {past : List LifecycleEvent}
    (evidence : Evidence generation past) (e : LifecycleEvent) (unended : e.ends = false)
    (unanswered : ¬ e.answers evidence.query.number)
    (later : ∀ t, e.time = some t → ∀ x ∈ past, ∀ s, x.time = some s → s ≤ t)
    (waited : ∀ t, e.time = some t → ∀ earlier (question : LifecycleEvent) rest,
      evidence.since = earlier ++ question :: rest → ∀ query, question.asked = some query →
        t.toNat < query.issued.toNat + kLifecycleQueryMillis.toNat ∨
          ∃ x ∈ rest, x.answers query.number) :
    Evidence generation (past ++ [e]) where
  before := evidence.before
  question := evidence.question
  between := evidence.between
  reply := evidence.reply
  since := evidence.since ++ [e]
  query := evidence.query
  received := evidence.received
  order := (congrArg (· ++ [e]) evidence.order).trans (by simp)
  asked := evidence.asked
  current := evidence.current
  answered := evidence.answered
  prompt := evidence.prompt
  once := by
    rw [← List.append_assoc, ← List.cons_append, ← List.append_assoc]
    exact forall_mem_snoc evidence.once unanswered
  unended := forall_mem_snoc evidence.unended unended
  latest := evidence.latest
  forwards := by
    rw [List.filterMap_append, ← List.cons_append, List.pairwise_append]
    refine ⟨evidence.forwards, ?_, ?_⟩
    · cases time : e.time <;> simp [time]
    intro s earlier t new
    obtain ⟨x, among, time⟩ := List.mem_filterMap.mp new
    rw [List.mem_singleton.mp among] at time
    rcases List.mem_cons.mp earlier with rfl | earlier
    · refine later t time evidence.reply ?_ _ (LifecycleEvent.answered_time evidence.answered)
      exact evidence.mem_past (by simp)
    · obtain ⟨y, old, seen⟩ := List.mem_filterMap.mp earlier
      exact later t time y (evidence.mem_past (by simp [old])) s seen
  waited := by
    intro earlier question rest split query asked meanwhile f after found t time
    rcases append_singleton_split split with ⟨_, _, rfl⟩ | ⟨shorter, old, rfl⟩
    · simp at found
    · rcases append_singleton_split found with ⟨rfl, rfl, _⟩ | ⟨tail, stood, _⟩
      · exact waited t time earlier question meanwhile old query asked
      · exact evidence.waited earlier question shorter old query asked meanwhile f tail stood t time

/-! ## The invariant of a run -/

private theorem nodup_append_above {l : List UInt64} (once : l.Nodup)
    (below : ∀ m ∈ l, m < n) : (l ++ [n]).Nodup := by
  refine List.nodup_append.mpr ⟨once, by simp, ?_⟩
  intro m old k new same
  rw [List.mem_singleton.mp new] at same
  exact UInt64.lt_irrefl _ (same ▸ below m old)

/-- The outstanding query was asked and not answered, and no clock read since then
was late. -/
structure Outstanding (past : List LifecycleEvent) (g : LifecycleGate) : Prop where
  asked : ∃ before question after, past = before ++ question :: after ∧
    question.asked = some ⟨g.generation, g.query, g.issued⟩
  unanswered : ∀ e ∈ past, ¬ e.answers g.query
  held : g.state ≠ .absent
  seen : g.issued ≤ g.observed
  fits : g.issued ≤ kLastIssue
  early : g.observed.toNat < g.issued.toNat + kLifecycleQueryMillis.toNat

/-- Every query of these events was answered in them or is outstanding. -/
def Open (events : List LifecycleEvent) (g : LifecycleGate) : Prop :=
  ∀ earlier (question : LifecycleEvent) later, events = earlier ++ question :: later →
    ∀ query, question.asked = some query →
      (∃ x ∈ later, x.answers query.number) ∨ (g.query = query.number ∧ g.issued = query.issued)

structure Sound (past : List LifecycleEvent) (g : LifecycleGate) : Prop where
  seen : ∀ e ∈ past, ∀ t, e.time = some t → t ≤ g.observed
  registered_le : ∀ n ∈ past.filterMap LifecycleEvent.registered, n ≤ g.generation
  registered_once : (past.filterMap LifecycleEvent.registered).Nodup
  asked_le : ∀ n ∈ (past.filterMap LifecycleEvent.asked).map (·.number), n ≤ g.querySequence
  asked_once : ((past.filterMap LifecycleEvent.asked).map (·.number)).Nodup
  answered_le : ∀ e ∈ past, ∀ n, e.answers n → n ≤ g.querySequence
  outstanding : g.query ≠ 0 → Outstanding past g
  idle : g.query = 0 → g.issued = 0
  backed : g.state = .ready → ∃ evidence : Evidence g.generation past,
    g.deadline.toNat = evidence.query.issued.toNat + kLifecycleLeaseMillis.toNat ∧
      Open evidence.since g

namespace Sound

variable {past : List LifecycleEvent} {g : LifecycleGate} {c : LifecycleCall} {now : UInt64}

theorem query_le (sound : Sound past g) : g.query ≤ g.querySequence := by
  by_cases none_ : g.query = 0
  · rw [none_]
    exact UInt64.zero_le
  obtain ⟨before, question, after, order, asked⟩ := (sound.outstanding none_).asked
  apply sound.asked_le
  rw [order]
  simp [asked]

theorem answers_le (sound : Sound past g) {number : UInt64}
    (answers : LifecycleEvent.answers ⟨g, c⟩ number) : number ≤ g.querySequence := by
  rw [(LifecycleEvent.answers_query answers).2]
  exact sound.query_le

theorem seen_snoc (sound : Sound past g) {seen : UInt64} (later : g.observed ≤ seen)
    (time : ∀ t, c.time = some t → t ≤ seen) :
    ∀ e ∈ past ++ [(⟨g, c⟩ : LifecycleEvent)], ∀ t, e.call.time = some t → t ≤ seen :=
  forall_mem_snoc (fun e old t at_ => UInt64.le_trans (sound.seen e old t at_) later) time

theorem answered_snoc (sound : Sound past g) :
    ∀ e ∈ past ++ [(⟨g, c⟩ : LifecycleEvent)], ∀ n, e.answers n → n ≤ g.querySequence :=
  forall_mem_snoc sound.answered_le fun _ => sound.answers_le

/-- The part of the invariant that a call other than a registration or a query
keeps whatever it does to the lease. -/
theorem quiet_step (sound : Sound past g) {h : LifecycleGate}
    (registered : LifecycleEvent.registered ⟨g, c⟩ = none)
    (asked : LifecycleEvent.asked ⟨g, c⟩ = none) (generation : h.generation = g.generation)
    (sequence : h.querySequence = g.querySequence) (seen : g.observed ≤ h.observed)
    (time : ∀ t, c.time = some t → t ≤ h.observed)
    (outstanding : h.query ≠ 0 → Outstanding (past ++ [⟨g, c⟩]) h)
    (idle : h.query = 0 → h.issued = 0)
    (backed : h.state = .ready → ∃ evidence : Evidence h.generation (past ++ [⟨g, c⟩]),
      h.deadline.toNat = evidence.query.issued.toNat + kLifecycleLeaseMillis.toNat ∧
        Open evidence.since h) : Sound (past ++ [⟨g, c⟩]) h where
  seen := sound.seen_snoc seen time
  registered_le := by
    simpa [registered, generation] using sound.registered_le
  registered_once := by simpa [registered] using sound.registered_once
  asked_le := by simpa [asked, sequence] using sound.asked_le
  asked_once := by simpa [asked] using sound.asked_once
  answered_le := by
    rw [sequence]
    exact sound.answered_snoc
  outstanding := outstanding
  idle := idle
  backed := backed

/-- The clock reads of a fresh gate are early for its outstanding query. -/
theorem early (sound : Sound past g) (fresh : g.Fresh now) (asked : g.query ≠ 0) :
    now.toNat < g.issued.toNat + kLifecycleQueryMillis.toNat := by
  have issued := UInt64.le_trans (sound.outstanding asked).seen fresh.1
  have waited := UInt64.lt_iff_toNat_lt.mp (fresh.2.2 asked)
  rw [UInt64.toNat_sub_of_le _ _ issued] at waited
  have order := UInt64.le_iff_toNat_le.mp issued
  omega

/-- The evidence of a ready gate outlives a call that neither answers a query nor
ends the registration and that found the gate fresh if it read the clock. -/
theorem extended (sound : Sound past g) (ready : g.state = .ready)
    (ends : LifecycleEvent.ends ⟨g, c⟩ = false) (silent : LifecycleEvent.answered ⟨g, c⟩ = none)
    (fresh : ∀ t, c.time = some t → g.Fresh t) :
    ∃ evidence : Evidence g.generation past, ∃ extended : Evidence g.generation (past ++ [⟨g, c⟩]),
      Open evidence.since g ∧ extended.since = evidence.since ++ [⟨g, c⟩] ∧
        extended.query = evidence.query ∧
        g.deadline.toNat = extended.query.issued.toNat + kLifecycleLeaseMillis.toNat := by
  obtain ⟨evidence, deadline, open_⟩ := sound.backed ready
  have unanswered : ¬ LifecycleEvent.answers ⟨g, c⟩ evidence.query.number := by
    rintro ⟨answer, answered, _⟩
    rw [silent] at answered
    cases answered
  refine ⟨evidence, evidence.extend ⟨g, c⟩ ends unanswered ?_ ?_, open_, rfl, rfl, deadline⟩
  · intro t time x among s at_
    exact UInt64.le_trans (sound.seen x among s at_) (fresh t time).1
  intro t time earlier question rest split query asked
  rcases open_ earlier question rest split query asked with answered | ⟨number, issued⟩
  · exact .inr answered
  -- The query is still outstanding, so the clock was read early enough.
  refine .inl (issued ▸ sound.early (fresh t time) ?_)
  rw [number]
  exact LifecycleEvent.asked_number asked

theorem Open.append {events : List LifecycleEvent} {h : LifecycleGate}
    (open_ : Open events g) (kept : ∀ query : LifecycleEvent.Query, query.number ≠ 0 →
      g.query = query.number → h.query = query.number ∧ h.issued = g.issued)
    (asked : ∀ query, e.asked = some query → h.query = query.number ∧ h.issued = query.issued) :
    Open (events ++ [e]) h := by
  intro earlier question later split query found
  rcases append_singleton_split split with ⟨_, rfl, _⟩ | ⟨rest, old, rfl⟩
  · exact .inr (asked query found)
  rcases open_ earlier question rest old query found with ⟨x, among, answers⟩ | ⟨number, issued⟩
  · exact .inl ⟨x, List.mem_append_left _ among, answers⟩
  · obtain ⟨same, at_⟩ := kept query (LifecycleEvent.asked_number found) number
    exact .inr ⟨same, at_.trans issued⟩

theorem kept_step (sound : Sound past g) {seen : UInt64}
    (read : c.time = some seen ∧ g.Fresh seen ∨ c.time = none ∧ seen = g.observed)
    (quiet : LifecycleEvent.Quiet ⟨g, c⟩) :
    Sound (past ++ [⟨g, c⟩]) { g with observed := seen } := by
  have forwards : g.observed ≤ seen := by
    rcases read with ⟨_, fresh⟩ | ⟨_, rfl⟩
    · exact fresh.1
    · exact UInt64.le_refl _
  have fresh (t : UInt64) (time : c.time = some t) : t = seen ∧ g.Fresh t := by
    rcases read with ⟨timed, fresh⟩ | ⟨untimed, _⟩
    · cases timed.symm.trans time
      exact ⟨rfl, fresh⟩
    · cases untimed.symm.trans time
  refine sound.quiet_step quiet.registered quiet.asked rfl rfl forwards ?_ ?_ sound.idle ?_
  · intro t time
    exact (fresh t time).1 ▸ UInt64.le_refl _
  · intro asked
    have old := sound.outstanding asked
    obtain ⟨before, question, after, order, found⟩ := old.asked
    refine ⟨⟨before, question, after ++ [⟨g, c⟩], by simp [order], found⟩, ?_, old.held,
      UInt64.le_trans old.seen forwards, old.fits, ?_⟩
    · refine forall_mem_snoc old.unanswered ?_
      rintro ⟨answer, answered, _⟩
      rw [quiet.answered] at answered
      cases answered
    · rcases read with ⟨_, fresh⟩ | ⟨_, rfl⟩
      · exact sound.early fresh asked
      · exact old.early
  · intro ready
    obtain ⟨evidence, longer, open_, since, _, deadline⟩ :=
      sound.extended ready quiet.ends quiet.answered fun t time => (fresh t time).2
    refine ⟨longer, deadline, ?_⟩
    rw [since]
    refine Open.append open_ (fun query _ number => ⟨number, rfl⟩) fun query asked => ?_
    rw [quiet.asked] at asked
    cases asked

theorem registered_step (sound : Sound past g) (begins : c = .begin now) (seen : g.observed ≤ now)
    (below : g.generation < kMaxToken)
    (registered : LifecycleEvent.registered ⟨g, c⟩ = some (g.generation + 1)) :
    Sound (past ++ [⟨g, c⟩])
      { g.revoke with
        observed := now
        generation := g.generation + 1
        state := .pending
        deadline := now + kLifecycleLeaseMillis } := by
  have asked : LifecycleEvent.asked ⟨g, c⟩ = none := by rw [begins]; rfl
  have older (n : UInt64) (le : n ≤ g.generation) := LifecycleGate.lt_next_token below le
  constructor
  · refine sound.seen_snoc seen fun t time => ?_
    rw [begins] at time
    cases time
    exact UInt64.le_refl _
  · intro n among
    simp only [List.filterMap_append, List.filterMap_cons, registered, List.filterMap_nil,
      List.mem_append, List.mem_singleton] at among
    rcases among with old | rfl
    · exact UInt64.le_of_lt (older n (sound.registered_le n old))
    · exact UInt64.le_refl _
  · simp only [List.filterMap_append, List.filterMap_cons, registered, List.filterMap_nil]
    exact nodup_append_above sound.registered_once fun n old => older n (sound.registered_le n old)
  · simpa [asked, LifecycleGate.revoke] using sound.asked_le
  · simpa [asked] using sound.asked_once
  · exact sound.answered_snoc
  · intro asked
    exact absurd rfl asked
  · intro _
    rfl
  · intro ready
    cases ready

theorem asked_step (sound : Sound past g) (asks : c = .beginQuery g.generation now)
    (fresh : g.Fresh now) (held : g.state ≠ .absent) (free : g.query = 0)
    (below : g.querySequence < kMaxToken) (fits : now ≤ kLastIssue)
    (asked : LifecycleEvent.asked ⟨g, c⟩ = some ⟨g.generation, g.querySequence + 1, now⟩) :
    Sound (past ++ [⟨g, c⟩])
      { g with
        observed := now
        querySequence := g.querySequence + 1
        query := g.querySequence + 1
        issued := now } := by
  have registered : LifecycleEvent.registered ⟨g, c⟩ = none := by rw [asks]; rfl
  have silent : LifecycleEvent.answered ⟨g, c⟩ = none := by rw [asks]; rfl
  have older (n : UInt64) (le : n ≤ g.querySequence) := LifecycleGate.lt_next_token below le
  have unanswered := sound.answered_snoc (c := c)
  constructor
  · refine sound.seen_snoc fresh.1 fun t time => ?_
    rw [asks] at time
    cases time
    exact UInt64.le_refl _
  · simpa [registered] using sound.registered_le
  · simpa [registered] using sound.registered_once
  · intro n among
    simp only [List.filterMap_append, List.filterMap_cons, asked, List.filterMap_nil,
      List.map_append, List.map_cons, List.map_nil, List.mem_append, List.mem_singleton] at among
    rcases among with old | rfl
    · exact UInt64.le_of_lt (older n (sound.asked_le n old))
    · exact UInt64.le_refl _
  · simp only [List.filterMap_append, List.filterMap_cons, asked, List.filterMap_nil,
      List.map_append, List.map_cons, List.map_nil]
    exact nodup_append_above sound.asked_once fun n old => older n (sound.asked_le n old)
  · intro e among n answers
    exact UInt64.le_of_lt (older n (unanswered e among n answers))
  · intro _
    refine ⟨⟨past, ⟨g, c⟩, [], rfl, asked⟩, ?_, held, UInt64.le_refl _, fits, ?_⟩
    · intro e among answers
      exact UInt64.lt_irrefl _ (older _ (unanswered e among _ answers))
    · rw [query_toNat]
      exact Nat.lt_add_of_pos_right (by decide)
  · intro none_
    exact absurd none_ (LifecycleGate.next_token_ne below)
  intro ready
  have ends : LifecycleEvent.ends ⟨g, c⟩ = false := by rw [asks]; rfl
  obtain ⟨evidence, longer, open_, since, _, deadline⟩ :=
    sound.extended ready ends silent fun t time => by
      rw [asks] at time
      cases time
      exact fresh
  refine ⟨longer, deadline, ?_⟩
  rw [since]
  refine Open.append open_ (fun query numbered number => ?_) fun query found => ?_
  · exact absurd (number.symm.trans free) numbered
  · cases asked.symm.trans found
    exact ⟨rfl, rfl⟩

theorem granted_step (sound : Sound past g) (reports : c = .report g.generation g.query now true true)
    (fresh : g.Fresh now) (asked : g.query ≠ 0)
    (answered : LifecycleEvent.answered ⟨g, c⟩ = some ⟨g.generation, g.query, now, true, true⟩) :
    Sound (past ++ [⟨g, c⟩])
      { g with
        observed := now
        query := 0
        issued := 0
        deadline := g.issued + kLifecycleLeaseMillis
        state := .ready } := by
  have outstanding := sound.outstanding asked
  obtain ⟨before, question, between, order, found⟩ := outstanding.asked
  have unanswered := outstanding.unanswered
  have seen := sound.seen
  rw [order] at unanswered seen
  have issued := UInt64.le_trans outstanding.seen fresh.1
  have fits := UInt64.le_iff_toNat_le.mp outstanding.fits
  refine sound.quiet_step (by rw [reports]; rfl) (by rw [reports]; rfl) rfl rfl fresh.1 ?_ ?_
    (fun _ => rfl) ?_
  · intro t time
    rw [reports] at time
    cases time
    exact UInt64.le_refl _
  · intro asked
    exact absurd rfl asked
  intro _
  refine ⟨
    { before := before
      question := question
      between := between
      reply := ⟨g, c⟩
      since := []
      query := ⟨g.generation, g.query, g.issued⟩
      received := now
      order := by rw [order]; simp
      asked := found
      current := rfl
      answered := answered
      prompt := ⟨issued, sound.early fresh asked⟩
      once := by simpa using unanswered
      unended := by simp
      latest := fun e among t time => UInt64.le_trans (seen e among t time) fresh.1
      forwards := by simp
      waited := fun earlier _ _ split => by simp at split }, ?_, fun _ _ _ split => by simp at split⟩
  -- The query was issued early enough for its lease not to wrap.
  rw [UInt64.toNat_add, lease_toNat]
  rw [lastIssue_toNat] at fits
  exact Nat.mod_eq_of_lt (by omega)

theorem step (sound : Sound past g) (c : LifecycleCall) :
    Sound (past ++ [⟨g, c⟩]) (g.perform c) := by
  have performed := g.perform_performed c
  generalize g.perform c = h at performed
  cases performed with
  | kept seen read quiet => exact sound.kept_step read quiet
  | dropped dropped registered asked =>
    refine sound.quiet_step registered asked dropped.generation dropped.sequence dropped.seen.1 ?_ ?_
      (fun _ => dropped.issued) ?_
    · intro t time
      have seen := dropped.seen.2
      rwa [time] at seen
    · intro outstanding
      exact absurd dropped.query outstanding
    · intro ready
      rw [dropped.state] at ready
      cases ready
  | registered now begins seen below fits registered =>
    exact sound.registered_step begins seen below registered
  | asked now asks fresh held free below fits asked =>
    exact sound.asked_step asks fresh held free below fits asked
  | granted now reports fresh held asked answered =>
    exact sound.granted_step reports fresh asked answered

end Sound

def LifecycleGate.new (seed querySeed : UInt64) : LifecycleGate :=
  { generation := seed, querySequence := querySeed }

theorem sound_new (seed querySeed : UInt64) : Sound [] (LifecycleGate.new seed querySeed) where
  seen := by simp
  registered_le := by simp
  registered_once := by simp
  asked_le := by simp
  asked_once := by simp
  answered_le := by simp
  outstanding := fun asked => absurd rfl asked
  idle := fun _ => rfl
  backed := fun ready => by cases ready

theorem LifecycleGate.trace_append (g : LifecycleGate) (calls : List LifecycleCall)
    (c : LifecycleCall) : g.trace (calls ++ [c]) = g.trace calls ++ [⟨g.run calls, c⟩] := by
  induction calls generalizing g with
  | nil => rfl
  | cons d calls ih => exact congrArg (⟨g, d⟩ :: ·) (ih (g.perform d))

theorem LifecycleGate.run_append (g : LifecycleGate) (calls : List LifecycleCall)
    (c : LifecycleCall) : g.run (calls ++ [c]) = (g.run calls).perform c := by
  simp [run]

theorem sound_run (seed querySeed : UInt64) (calls : List LifecycleCall) :
    Sound ((LifecycleGate.new seed querySeed).trace calls)
      ((LifecycleGate.new seed querySeed).run calls) := by
  induction calls using List.reverseRecOn with
  | nil => exact sound_new seed querySeed
  | append_singleton calls c ih =>
    rw [LifecycleGate.trace_append, LifecycleGate.run_append]
    exact ih.step c

/-! ## The lease -/

section Lease

variable {past : List LifecycleEvent} {g : LifecycleGate}

theorem LifecycleGate.ready_iff :
    (g.ready now).2 = true ↔ g.Fresh now ∧ g.state = .ready := by
  by_cases fresh : g.Fresh now
  · simp only [ready, valid_of_fresh fresh, fresh, true_and]
    cases g.state <;> simp
  · simp [ready, (valid_of_not_fresh fresh).1, fresh]

theorem Sound.ready_backed (sound : Sound past g) (ready : (g.ready now).2 = true) :
    ∃ evidence : Evidence g.generation (past ++ [⟨g, .ready now⟩]),
      evidence.query.issued ≤ now ∧
        now.toNat < evidence.query.issued.toNat + kLifecycleLeaseMillis.toNat := by
  obtain ⟨fresh, state⟩ := LifecycleGate.ready_iff.mp ready
  obtain ⟨_, evidence, _, since, _, deadline⟩ :=
    sound.extended state (c := .ready now) rfl rfl fun t time => by
      cases time
      exact fresh
  refine ⟨evidence, ?_, ?_⟩
  · have last : now ∈ evidence.since.filterMap LifecycleEvent.time := by
      rw [since]
      simp [LifecycleEvent.time, LifecycleCall.time]
    exact UInt64.le_trans evidence.prompt.1 (List.rel_of_pairwise_cons evidence.forwards last)
  · rw [← deadline]
    exact UInt64.lt_iff_toNat_lt.mp (fresh.2.1 (by rw [state]; decide))

/-- A report that does not name the registration and its outstanding query does
nothing but read the clock. -/
theorem LifecycleGate.report_of_stale {generation challenge now : UInt64} (running unlocked : Bool)
    (stale : generation ≠ g.generation ∨ challenge ≠ g.query) :
    g.report generation challenge now running unlocked = ((g.valid now).1, false) := by
  apply report_of_not_matching
  by_contra matched
  obtain ⟨_, _, _, same, _, asked⟩ := matching_iff.mp (by simpa using matched)
  rcases stale with other | other
  · exact other same
  · exact other asked

theorem LifecycleGate.sum_fits (fits : now ≤ kLastIssue) :
    now.toNat + kLifecycleLeaseMillis.toNat < 2 ^ 64 := by
  have bound := UInt64.le_iff_toNat_le.mp fits
  rw [lastIssue_toNat] at bound
  rw [lease_toNat]
  omega

theorem Sound.issued_le (sound : Sound past g) : g.issued ≤ kLastIssue := by
  by_cases asked : g.query = 0
  · rw [sound.idle asked]
    exact UInt64.zero_le
  · exact (sound.outstanding asked).fits

theorem Sound.sums_fit (sound : Sound past g) (c : LifecycleCall) :
    ∀ sum ∈ g.sums c, sum.1.toNat + sum.2.toNat < 2 ^ 64 := by
  have token {n : UInt64} (below : n < kMaxToken) : n.toNat + (1 : UInt64).toNat < 2 ^ 64 := by
    rw [show (1 : UInt64).toNat = 1 from rfl, ← LifecycleGate.next_token below]
    exact UInt64.toNat_lt _
  cases c with
  | begin now =>
    simp only [LifecycleGate.sums]
    split
    · simp
    next issues =>
    simp only [Bool.or_eq_true, not_or, decide_eq_true_eq, UInt64.not_le, UInt64.not_lt, ge_iff_le,
      gt_iff_lt] at issues
    simp only [List.mem_cons, List.not_mem_nil, or_false, forall_eq_or_imp, forall_eq]
    exact ⟨token issues.1.2, LifecycleGate.sum_fits issues.2⟩
  | beginQuery generation now =>
    simp only [LifecycleGate.sums]
    split
    · simp
    next issues =>
    simp only [Bool.or_eq_true, not_or, decide_eq_true_eq, UInt64.not_le, ge_iff_le] at issues
    simp only [List.mem_singleton, forall_eq]
    exact token issues.1.2
  | report generation challenge now running unlocked =>
    simp only [LifecycleGate.sums]
    split
    · next accepted =>
      simp only [Bool.and_eq_true] at accepted
      obtain ⟨fresh, _⟩ := LifecycleGate.matching_iff.mp accepted.1.1
      rw [LifecycleGate.valid_of_fresh fresh]
      simp only [List.mem_singleton, forall_eq]
      exact LifecycleGate.sum_fits sound.issued_le
    · simp
  | readyUntil now =>
    simp only [LifecycleGate.sums]
    split
    · next ready =>
      obtain ⟨fresh, _⟩ := LifecycleGate.ready_iff.mp ready
      have fits := LifecycleGate.sum_fits sound.issued_le
      simp only [LifecycleGate.ready, LifecycleGate.valid_of_fresh fresh, List.mem_singleton,
        forall_eq]
      rw [lease_toNat] at fits
      rw [query_toNat]
      omega
    · simp
  | valid now | ready now | release generation | revoke => simp [LifecycleGate.sums]

theorem Sound.differences_exact (sound : Sound past g) (c : LifecycleCall) :
    ∀ difference ∈ g.differences c, difference.2 ≤ difference.1 := by
  cases c with
  | begin now | release generation | revoke => simp [LifecycleGate.differences]
  | beginQuery _ now | report _ _ now _ _ | valid now | ready now | readyUntil now =>
    by_cases backwards : now < g.observed
    · simp [LifecycleGate.differences, LifecycleGate.advance, backwards]
    simp only [LifecycleGate.differences, LifecycleGate.advance, if_neg backwards]
    by_cases expired : g.state ≠ .absent ∧ now ≥ g.deadline
    · simp [expired, LifecycleGate.revoke]
    rw [if_neg expired]
    by_cases asked : g.query = 0
    · simp [asked]
    · simp only [ne_eq, asked, not_false_eq_true, and_self, if_true, List.mem_singleton,
        forall_eq]
      exact UInt64.le_trans (sound.outstanding asked).seen (UInt64.not_lt.mp backwards)

end Lease

/-- A lifecycle lease is always backed by recent evidence, whatever the calls and
their times. A ready answer has one query of the current generation behind it that
was answered once and in time as running and unlocked, and nothing since the answer
that ends the registration; no generation or query number is issued twice; a report
of another generation or query only reads the clock; and no sum or difference of
times wraps. -/
theorem lease_is_backed (seed querySeed : UInt64) (calls : List LifecycleCall) :
    let gate := (LifecycleGate.new seed querySeed).run calls
    let past := (LifecycleGate.new seed querySeed).trace calls
    (∀ now, (gate.ready now).2 = true →
      ∃ evidence : Evidence gate.generation (past ++ [⟨gate, .ready now⟩]),
        evidence.query.issued ≤ now ∧
          now.toNat < evidence.query.issued.toNat + kLifecycleLeaseMillis.toNat) ∧
    (past.filterMap LifecycleEvent.registered).Nodup ∧
    ((past.filterMap LifecycleEvent.asked).map (·.number)).Nodup ∧
    (∀ generation challenge now running unlocked,
      generation ≠ gate.generation ∨ challenge ≠ gate.query →
        gate.report generation challenge now running unlocked = ((gate.valid now).1, false) ∧
        (gate.Fresh now → (gate.valid now).1 = { gate with observed := now }) ∧
        (¬ gate.Fresh now → gate.Dropped now (gate.valid now).1)) ∧
    ∀ call, (∀ sum ∈ gate.sums call, sum.1.toNat + sum.2.toNat < 2 ^ 64) ∧
      ∀ difference ∈ gate.differences call, difference.2 ≤ difference.1 := by
  intro gate past
  have sound : Sound past gate := sound_run seed querySeed calls
  refine ⟨fun now => sound.ready_backed, sound.registered_once, sound.asked_once, ?_,
    fun call => ⟨sound.sums_fit call, sound.differences_exact call⟩⟩
  intro generation challenge now running unlocked stale
  refine ⟨LifecycleGate.report_of_stale running unlocked stale, fun fresh => ?_, fun expired => ?_⟩
  · rw [LifecycleGate.valid_of_fresh fresh]
  · exact (LifecycleGate.valid_of_not_fresh expired).2

/-- A registration whose first query was answered after one millisecond. -/
def answeredCalls : List LifecycleCall :=
  [.begin 5, .beginQuery 1 5, .report 1 1 6 true true]

theorem answered_lease_is_backed :
    let gate := (LifecycleGate.new 0 0).run answeredCalls
    (gate.ready 7).2 = true ∧
      ∃ evidence : Evidence gate.generation
          ((LifecycleGate.new 0 0).trace answeredCalls ++ [⟨gate, .ready 7⟩]),
        evidence.query.issued ≤ 7 ∧
          (7 : UInt64).toNat < evidence.query.issued.toNat + kLifecycleLeaseMillis.toNat := by
  intro gate
  have ready : (gate.ready 7).2 = true := by decide
  exact ⟨ready, (lease_is_backed 0 0 answeredCalls).1 7 ready⟩

end Andrix.Native
