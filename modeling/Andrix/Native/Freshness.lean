import Andrix.Lib.Calls
import Andrix.Native.Tickets

/-! What a reclamation rests on. The evidence that a scope is empty is one field,
overwritten by observations, their timeouts and the results of cleanups. That it is
fresh is a fact about the past of a record: `TicketHistory` keeps, with the fields,
the calls that led to them. -/
namespace Andrix.Native
open Andrix.Lib Andrix.Lib.Program List

/-- One call that nobody interrupts. -/
def WorkSystem.answer (decodes : List UInt8 → Bool) (s : WorkSystem) (call : WorkCall) :
    WorkReply × WorkSystem :=
  ((call.body decodes 0).exec s).getD (.closed, s)

theorem WorkSystem.answer_of_ends {decodes : List UInt8 → Bool} {s : WorkSystem} {call : WorkCall}
    {post : WorkReply → WorkSystem → Prop} (ends : Ends (call.body decodes 0) s post) :
    post (s.answer decodes call).1 (s.answer decodes call).2 := by
  obtain ⟨reply, t, ran, holds⟩ := ends
  rw [answer, ran]
  exact holds

theorem WorkSystem.answered (decodes : List UInt8 → Bool) {s : WorkSystem} (free : s.Free)
    (call : WorkCall) : Answered s call (s.answer decodes call).1 (s.answer decodes call).2 :=
  answer_of_ends (body_answers free decodes 0 call)

abbrev WorkMoment := Moment WorkSystem WorkCall

def metData (r : Nat) (m : WorkMoment) : RecordData := (m.state.records r).data

section Events
variable (decodes : List UInt8 → Bool) (r : Nat)

abbrev WorkMoment.answers (m : WorkMoment) : WorkReply := m.reply (WorkSystem.answer decodes)

def Numbers (n : UInt64) (m : WorkMoment) : Prop :=
  m.call.onTickets r = true ∧ WorkMoment.answers decodes m = .ticket (some n)

def Issues (n : UInt64) (m : WorkMoment) : Prop :=
  m.call = .observe r ∧ WorkMoment.answers decodes m = .ticket (some n)

/-- The outstanding observation came back: finished, timed out or not, or abandoned. -/
def ComesBack (m : WorkMoment) : Prop :=
  (metData r m).observation ≠ 0 ∧
    ((∃ population, m.call = .observationFinish r (metData r m).observation population) ∨
      m.call = .observationCeased r (metData r m).observation)

/-- The outstanding observation with this number found the scope empty. -/
def FindsEmpty (n : UInt64) (m : WorkMoment) : Prop :=
  m.call = .observationFinish r n .empty ∧ WorkMoment.answers decodes m = .flag true

/-- The outstanding observation with this number was declared timed out. -/
def TimesOut (n : UInt64) (m : WorkMoment) : Prop :=
  m.call = .observationTimedOut r n ∧ WorkMoment.answers decodes m = .flag true

/-- The outstanding cleanup failed or was abandoned. -/
def Undone (m : WorkMoment) : Prop :=
  WorkMoment.answers decodes m = .flag true ∧
    ((∃ n error, m.call = .cleanupFinish r n .failed error) ∨ ∃ n, m.call = .cleanupCeased r n)

/-- The call asks for a number when none is left. -/
def Exhausts (m : WorkMoment) : Prop :=
  ((m.call = .observe r ∧ (metData r m).Issuing) ∨
    (m.call = .reclaim r ∧
      (metData r m).Reclaimable (phaseOf (m.state.gates r).flags = .stopped))) ∧
    (m.state.records r).operationLimit ≤ (metData r m).sequence

/-- The last observation to come back was issued behind a closed boundary, was not
timed out and found the scope empty; since then no observation was issued, and no
cleanup failed or was abandoned. -/
def FreshlyEmpty (moments : List WorkMoment) : Prop :=
  ∃ before issue between finish later n, moments = before ++ issue :: between ++ finish :: later ∧
    Issues decodes r n issue ∧ (metData r issue).boundaryClosed = true ∧
    (∀ m ∈ between, ¬ TimesOut decodes r n m ∧ ¬ ComesBack r m) ∧ FindsEmpty decodes r n finish ∧
    ∀ m ∈ later, ¬ ComesBack r m ∧ ¬ Undone decodes r m ∧ ∀ k, ¬ Issues decodes r k m

/-- The observation with this number is outstanding: where it was issued, and that it
was not timed out if it is still valid. -/
def Underway (moments : List WorkMoment) (n : UInt64) (invalid : Bool) : Prop :=
  ∃ before issue between, moments = before ++ issue :: between ∧ Issues decodes r n issue ∧
    (metData r issue).boundaryClosed = true ∧ (∀ m ∈ between, ¬ ComesBack r m) ∧
    (invalid = false → ∀ m ∈ between, ¬ TimesOut decodes r n m)

end Events

/-- A record that can neither go on nor complete. -/
structure RecordData.Stuck (d : RecordData) : Prop where
  closed : d.boundaryClosed = true
  faulted : d.permanentFault = true
  fault : d.state.fault ≠ .none
  blocked : d.state.blocked = true
  incomplete : d.state.complete = false
  unobserved : d.observation = 0
  uncleaned : d.cleanup = 0

/-- What the past of a record says of its fields. -/
structure TicketHistory (decodes : List UInt8 → Bool) (r : Nat) (moments : List WorkMoment)
    (d : RecordData) : Prop where
  single : d.observation = 0 ∨ d.cleanup = 0
  within : d.observation ≤ d.sequence ∧ d.cleanup ≤ d.sequence
  numbered : ∀ m ∈ moments, ∀ n, Numbers decodes r n m → n ≤ d.sequence
  ordered : moments.Pairwise fun earlier later =>
    ∀ n k, Numbers decodes r n earlier → Numbers decodes r k later → n < k
  timed : ∀ m ∈ moments, ∀ n, TimesOut decodes r n m →
    n ≠ 0 ∧ n ≤ d.sequence ∧ (d.observation = n → d.observationInvalid = true)
  observing : d.observation ≠ 0 → Underway decodes r moments d.observation d.observationInvalid
  fresh : d.state.population = .empty → FreshlyEmpty decodes r moments
  exhausted : (∃ m ∈ moments, Exhausts r m) → d.Stuck

/-! ## The past with one more call -/

section Past
variable {decodes : List UInt8 → Bool} {r : Nat} {moments : List WorkMoment} {m : WorkMoment}
  {n : UInt64} {invalid : Bool} {d' : RecordData}

theorem FreshlyEmpty.snoc (fresh : FreshlyEmpty decodes r moments) (back : ¬ ComesBack r m)
    (undone : ¬ Undone decodes r m) (issues : ∀ k, ¬ Issues decodes r k m) :
    FreshlyEmpty decodes r (moments ++ [m]) := by
  obtain ⟨before, issue, between, finish, later, n, rfl, issued, closed, calm, empty, since⟩ := fresh
  refine ⟨before, issue, between, finish, later ++ [m], n, by simp, issued, closed, calm, empty, ?_⟩
  exact forall_mem_snoc since ⟨back, undone, issues⟩

theorem Underway.snoc {invalid' : Bool} (outstanding : Underway decodes r moments n invalid)
    (back : ¬ ComesBack r m)
    (timely : invalid' = false → invalid = false ∧ ¬ TimesOut decodes r n m) :
    Underway decodes r (moments ++ [m]) n invalid' := by
  obtain ⟨before, issue, between, rfl, issued, closed, calm, timed⟩ := outstanding
  refine ⟨before, issue, between ++ [m], by simp, issued, closed, ?_, fun valid => ?_⟩
  · exact forall_mem_snoc calm back
  · exact forall_mem_snoc (timed (timely valid).1) (timely valid).2

theorem Underway.issued (issues : Issues decodes r n m)
    (closed : (metData r m).boundaryClosed = true) :
    Underway decodes r (moments ++ [m]) n invalid :=
  ⟨moments, m, [], rfl, issues, closed, by simp, by simp⟩

/-- An outstanding observation that is valid and finds the scope empty. -/
theorem Underway.empty (outstanding : Underway decodes r moments n false)
    (empty : FindsEmpty decodes r n m) : FreshlyEmpty decodes r (moments ++ [m]) := by
  obtain ⟨before, issue, between, rfl, issued, closed, calm, timed⟩ := outstanding
  refine ⟨before, issue, between, m, [], n, by simp, issued, closed, fun x inside => ?_, empty, by simp⟩
  exact ⟨timed rfl x inside, calm x inside⟩

/-! ## One call -/

/-- The calls that neither issue nor return a ticket show no event. -/
structure Silent (decodes : List UInt8 → Bool) (r : Nat) (m : WorkMoment) : Prop where
  numbers : ∀ n, ¬ Numbers decodes r n m
  issues : ∀ n, ¬ Issues decodes r n m
  back : ¬ ComesBack r m
  timed : ∀ n, ¬ TimesOut decodes r n m
  undone : ¬ Undone decodes r m
  exhausts : ¬ Exhausts r m

theorem silent_of_quiet (quiet : m.call.onTickets r = false) : Silent decodes r m := by
  have other {call : WorkCall} (same : m.call = call) (ticket : call.onTickets r = true) : False := by
    rw [same, ticket] at quiet
    cases quiet
  refine ⟨?_, ?_, ?_, ?_, ?_, ?_⟩
  · exact fun n numbers => by rw [numbers.1] at quiet; cases quiet
  · exact fun n issues => other issues.1 (by simp [WorkCall.onTickets])
  · rintro ⟨-, ⟨population, same⟩ | same⟩ <;> exact other same (by simp [WorkCall.onTickets])
  · exact fun n timed => other timed.1 (by simp [WorkCall.onTickets])
  · rintro ⟨-, ⟨n, error, same⟩ | ⟨n, same⟩⟩ <;> exact other same (by simp [WorkCall.onTickets])
  · rintro ⟨⟨same, -⟩ | ⟨same, -⟩, -⟩ <;> exact other same (by simp [WorkCall.onTickets])

/-- How a call may change what is outstanding: it keeps the observation, ends it or
issues one with a new number. -/
def RecordData.Passes (d d' : RecordData) : Prop :=
  (d'.observation = d.observation ∧ (d.observationInvalid = true → d'.observationInvalid = true)) ∨
    d'.observation = 0 ∨ d.sequence < d'.observation

theorem TicketHistory.snoc (history : TicketHistory decodes r moments (metData r m))
    (single : d'.observation = 0 ∨ d'.cleanup = 0)
    (within : d'.observation ≤ d'.sequence ∧ d'.cleanup ≤ d'.sequence)
    (grows : (metData r m).sequence ≤ d'.sequence) (passes : (metData r m).Passes d')
    (numbers : ∀ n, Numbers decodes r n m → (metData r m).sequence < n ∧ n ≤ d'.sequence)
    (timed : ∀ n, TimesOut decodes r n m →
      n ≠ 0 ∧ n ≤ d'.sequence ∧ (d'.observation = n → d'.observationInvalid = true))
    (observing : d'.observation ≠ 0 →
      Underway decodes r (moments ++ [m]) d'.observation d'.observationInvalid)
    (fresh : d'.state.population = .empty → FreshlyEmpty decodes r (moments ++ [m]))
    (stuck : (metData r m).Stuck ∨ Exhausts r m → d'.Stuck) :
    TicketHistory decodes r (moments ++ [m]) d' := by
  refine ⟨single, within, ?_, ?_, ?_, observing, fresh, ?_⟩
  · refine forall_mem_snoc (fun x inside n numbered => ?_) fun n numbered => (numbers n numbered).2
    exact UInt64.le_trans (history.numbered x inside n numbered) grows
  · refine pairwise_append.mpr ⟨history.ordered, pairwise_singleton _ _, ?_⟩
    intro earlier inside later last n k numbered numbered'
    rw [mem_singleton.mp last] at numbered'
    exact UInt64.lt_of_le_of_lt (history.numbered earlier inside n numbered) (numbers k numbered').1
  · refine forall_mem_snoc (fun x inside n timed => ?_) timed
    obtain ⟨named, known, invalid⟩ := history.timed x inside n timed
    refine ⟨named, UInt64.le_trans known grows, fun same => ?_⟩
    rcases passes with ⟨kept, stays⟩ | ended | new
    · exact stays (invalid (kept.symm.trans same))
    · exact absurd (same.symm.trans ended) named
    · rw [same] at new
      exact absurd known (UInt64.not_le.mpr new)
  · rintro ⟨x, inside, exhausts⟩
    rcases mem_append.mp inside with inside | here
    · exact stuck (.inl (history.exhausted ⟨x, inside, exhausts⟩))
    · rw [mem_singleton.mp here] at exhausts
      exact stuck (.inr exhausts)

theorem tickets_eq {d : RecordData} {n o c : UInt64} {i : Bool} {p : WorkPopulation} :
    d.tickets = (n, o, c, i, p) ↔ d.sequence = n ∧ d.observation = o ∧ d.cleanup = c ∧
      d.observationInvalid = i ∧ d.state.population = p := by
  simp only [RecordData.tickets, Prod.mk.injEq]

/-- A silent call that leaves the tickets leaves what is known of them. -/
theorem TicketHistory.silent (history : TicketHistory decodes r moments (metData r m))
    (silent : Silent decodes r m) (steady : d'.tickets = (metData r m).tickets)
    (stuck : (metData r m).Stuck → d'.Stuck) : TicketHistory decodes r (moments ++ [m]) d' := by
  obtain ⟨sequence, observation, cleanup, invalid, population⟩ := tickets_eq.mp steady
  apply history.snoc
  · rw [observation, cleanup]
    exact history.single
  · rw [observation, cleanup, sequence]
    exact history.within
  · rw [sequence]
    exact UInt64.le_refl _
  · exact .inl ⟨observation, fun old => invalid.trans old⟩
  · exact fun n numbers => absurd numbers (silent.numbers n)
  · exact fun n timed => absurd timed (silent.timed n)
  · rw [observation, invalid]
    intro outstanding
    exact (history.observing outstanding).snoc silent.back fun valid => ⟨valid, silent.timed _⟩
  · rw [population]
    exact fun empty => (history.fresh empty).snoc silent.back silent.undone silent.issues
  · exact fun either => either.elim stuck fun exhausts => absurd exhausts silent.exhausts

theorem RecordData.Calm.stuck {d : RecordData} (calm : d.Calm d') (stuck : d.Stuck) : d'.Stuck := by
  obtain ⟨closed, faulted, fault, blocked, incomplete⟩ := calm.closed stuck.closed
  obtain ⟨-, observation, cleanup, -, -⟩ := tickets_eq.mp calm.steady
  exact ⟨closed, faulted.trans stuck.faulted, fault ▸ stuck.fault, blocked.trans stuck.blocked,
    incomplete.trans stuck.incomplete, observation.trans stuck.unobserved,
    cleanup.trans stuck.uncleaned⟩

theorem RecordData.Issuing.exhausted {d : RecordData} (issuing : d.Issuing) : d.exhausted.Stuck where
  closed := issuing.closed
  faulted := rfl
  fault := by
    simp only [RecordData.exhausted]
    split
    · simp
    · assumption
  blocked := rfl
  incomplete := issuing.incomplete
  unobserved := issuing.unobserved
  uncleaned := issuing.uncleaned

theorem RecordData.Issuing.not_stuck {d : RecordData} (issuing : d.Issuing) : ¬ d.Stuck := by
  intro stuck
  exact absurd stuck.faulted (by simp [issuing.sound])

theorem lt_next {n limit : UInt64} (room : n < limit) : n < n + 1 := by
  have next := next_toNat room
  rw [UInt64.lt_iff_toNat_lt]
  omega

/-- What the past says of a record, after one more call. -/
theorem TicketHistory.step (history : TicketHistory decodes r moments (metData r m))
    (moves : MovesTo r m.state m.call (WorkMoment.answers decodes m) d') :
    TicketHistory decodes r (moments ++ [m]) d' := by
  have moves : TicketMove r (metData r m) (m.state.records r).operationLimit
    (phaseOf (m.state.gates r).flags = .stopped) m.call (WorkMoment.answers decodes m) d' := moves
  have within := history.within
  generalize called : m.call = call at moves
  generalize replied : WorkMoment.answers decodes m = reply at moves
  cases moves with
  | calm quiet calm =>
    rw [← called] at quiet
    exact history.silent (silent_of_quiet quiet) calm.steady calm.stuck
  | unobservable refused | unreclaimable refused =>
    refine history.silent ⟨?_, ?_, ?_, ?_, ?_, ?_⟩ rfl id <;>
      simp_all [Numbers, Issues, ComesBack, TimesOut, Undone, Exhausts]
  | rejected brings unawaited =>
    refine history.silent ⟨?_, ?_, ?_, ?_, ?_, ?_⟩ rfl id
    · simp [Numbers, replied]
    · simp [Issues, replied]
    · rintro ⟨outstanding, ⟨population, same⟩ | same⟩ <;> rw [called] at same <;> subst same <;>
        exact unawaited ⟨outstanding, rfl⟩
    · simp [TimesOut, replied]
    · simp [Undone, replied]
    · rintro ⟨⟨same, -⟩ | ⟨same, -⟩, -⟩ <;> rw [called] at same <;> subst same <;> cases brings
  | exhausts asks full =>
    have issuing : (metData r m).Issuing := asks.elim (·.2) (·.2.toIssuing)
    have other : ∀ call', m.call = call' → call'.brings r = true → False := by
      rintro _ rfl brings
      rw [called] at brings
      rcases asks with ⟨rfl, -⟩ | ⟨rfl, -⟩ <;> cases brings
    have back : ¬ ComesBack r m := by
      rintro ⟨-, ⟨population, same⟩ | same⟩ <;> exact other _ same (by simp [WorkCall.brings])
    apply history.snoc
    · exact .inl issuing.unobserved
    · exact within
    · exact UInt64.le_refl _
    · exact .inl ⟨rfl, id⟩
    · simp [Numbers, replied]
    · simp [TimesOut, replied]
    · exact fun outstanding => absurd issuing.unobserved outstanding
    · intro empty
      exact (history.fresh empty).snoc back (by simp [Undone, replied]) (by simp [Issues, replied])
    · exact fun _ => issuing.exhausted
  | observes issuing room =>
    have issues : Issues decodes r ((metData r m).sequence + 1) m := ⟨called, replied⟩
    apply history.snoc
    · exact .inr issuing.uncleaned
    · rw [issuing.uncleaned]
      exact ⟨UInt64.le_refl _, UInt64.zero_le⟩
    · exact UInt64.le_of_lt (lt_next room)
    · exact .inr (.inr (lt_next room))
    · rintro n ⟨-, same⟩
      rw [replied] at same
      cases same
      exact ⟨lt_next room, UInt64.le_refl _⟩
    · simp [TimesOut, replied]
    · exact fun _ => .issued issues issuing.closed
    · exact fun empty => by cases empty
    · rintro (stuck | ⟨-, full⟩)
      · exact absurd stuck issuing.not_stuck
      · exact absurd room (UInt64.not_lt.mpr full)
  | reclaims ready room =>
    have issuing := ready.toIssuing
    have back : ¬ ComesBack r m := by simp [ComesBack, called]
    apply history.snoc
    · exact .inl issuing.unobserved
    · exact ⟨UInt64.le_trans within.1 (UInt64.le_of_lt (lt_next room)), UInt64.le_refl _⟩
    · exact UInt64.le_of_lt (lt_next room)
    · exact .inl ⟨rfl, id⟩
    · rintro n ⟨-, same⟩
      rw [replied] at same
      cases same
      exact ⟨lt_next room, UInt64.le_refl _⟩
    · simp [TimesOut, replied]
    · exact fun outstanding => absurd issuing.unobserved outstanding
    · exact fun empty => (history.fresh empty).snoc back (by simp [Undone, replied])
        (by simp [Issues, called])
    · rintro (stuck | ⟨-, full⟩)
      · exact absurd stuck issuing.not_stuck
      · exact absurd room (UInt64.not_lt.mpr full)
  | finishes population outstanding =>
    have exhausts : ¬ Exhausts r m := by simp [Exhausts, called]
    apply history.snoc
    · exact .inl rfl
    · exact ⟨UInt64.zero_le, within.2⟩
    · exact UInt64.le_refl _
    · exact .inr (.inl rfl)
    · simp [Numbers, replied]
    · simp [TimesOut, called]
    · exact fun none_ => absurd rfl none_
    · intro empty
      dsimp only at empty
      cases invalid : (metData r m).observationInvalid with
      | true => simp [invalid] at empty
      | false =>
        have found : population = .empty := by simpa [invalid] using empty
        subst found
        have known := history.observing outstanding
        rw [invalid] at known
        exact known.empty ⟨called, by rw [replied, invalid]; rfl⟩
    · rintro (stuck | exhausting)
      · exact absurd stuck.unobserved outstanding
      · exact absurd exhausting exhausts
  | timesOut outstanding =>
    have exhausts : ¬ Exhausts r m := by simp [Exhausts, called]
    have back : ¬ ComesBack r m := by simp [ComesBack, called]
    apply history.snoc
    · exact history.single
    · exact within
    · exact UInt64.le_refl _
    · exact .inl ⟨rfl, fun _ => rfl⟩
    · simp [Numbers, replied]
    · rintro n ⟨same, -⟩
      rw [called] at same
      cases same
      exact ⟨outstanding, within.1, fun _ => rfl⟩
    · exact fun outstanding => (history.observing outstanding).snoc back fun valid => by cases valid
    · exact fun empty => by cases empty
    · rintro (stuck | exhausting)
      · exact absurd stuck.unobserved outstanding
      · exact absurd exhausting exhausts
  | ceases outstanding =>
    have exhausts : ¬ Exhausts r m := by simp [Exhausts, called]
    apply history.snoc
    · exact .inl rfl
    · exact ⟨UInt64.zero_le, within.2⟩
    · exact UInt64.le_refl _
    · exact .inr (.inl rfl)
    · simp [Numbers, replied]
    · simp [TimesOut, called]
    · exact fun none_ => absurd rfl none_
    · exact fun empty => by cases empty
    · rintro (stuck | exhausting)
      · exact absurd stuck.unobserved outstanding
      · exact absurd exhausting exhausts
  | cleans result error outstanding cleaned =>
    have exhausts : ¬ Exhausts r m := by simp [Exhausts, called]
    have back : ¬ ComesBack r m := by simp [ComesBack, called]
    have unobserved := history.single.resolve_right outstanding
    obtain ⟨sequence, observation, cleanup, invalid, population⟩ := tickets_eq.mp cleaned
    apply history.snoc
    · exact .inr cleanup
    · rw [observation, cleanup, sequence]
      exact ⟨within.1, UInt64.zero_le⟩
    · rw [sequence]
      exact UInt64.le_refl _
    · exact .inl ⟨observation, fun old => invalid.trans old⟩
    · simp [Numbers, replied]
    · simp [TimesOut, called]
    · rw [observation]
      exact fun outstanding => absurd unobserved outstanding
    · rw [population]
      intro empty
      split at empty
      · cases empty
      · rename_i fine
        exact (history.fresh empty).snoc back (by simp [Undone, called, fine])
          (by simp [Issues, called])
    · rintro (stuck | exhausting)
      · exact absurd stuck.uncleaned outstanding
      · exact absurd exhausting exhausts
  | cleanupTimesOut outstanding =>
    refine history.silent ⟨?_, ?_, ?_, ?_, ?_, ?_⟩ rfl
      fun stuck => absurd stuck.uncleaned outstanding
    · simp [Numbers, replied]
    · simp [Issues, called]
    · simp [ComesBack, called]
    · simp [TimesOut, called]
    · simp [Undone, called]
    · simp [Exhausts, called]
  | cleanupCeases outstanding =>
    have exhausts : ¬ Exhausts r m := by simp [Exhausts, called]
    have unobserved := history.single.resolve_right outstanding
    apply history.snoc
    · exact .inr rfl
    · exact ⟨within.1, UInt64.zero_le⟩
    · exact UInt64.le_refl _
    · exact .inl ⟨rfl, id⟩
    · simp [Numbers, replied]
    · simp [TimesOut, called]
    · exact fun outstanding => absurd unobserved outstanding
    · exact fun empty => by cases empty
    · rintro (stuck | exhausting)
      · exact absurd stuck.uncleaned outstanding
      · exact absurd exhausting exhausts

end Past

/-! ## Every run -/

section Runs
variable (decodes : List UInt8 → Bool)

theorem ticketHistory_fresh (manager : UInt64) (creators : Nat) (limit : UInt64)
    (works : Nat → WorkIdentity) (streams sequences : Nat → UInt64) (r : Nat) :
    TicketHistory decodes r [] ((WorkSystem.fresh manager creators limit works streams sequences).records
      r).data where
  single := .inl rfl
  within := ⟨UInt64.le_refl _, UInt64.le_refl _⟩
  numbered := by simp
  ordered := .nil
  timed := by simp
  observing := fun outstanding => absurd rfl outstanding
  fresh := fun empty => by cases empty
  exhausted := by simp

/-- Between the calls nobody holds a mutex, and the past of the record tells its fields. -/
def Recounts (r : Nat) (moments : List WorkMoment) (s : WorkSystem) : Prop :=
  s.Free ∧ TicketHistory decodes r moments (s.records r).data

theorem run_recounts (manager : UInt64) (creators : Nat) (limit : UInt64) (works : Nat → WorkIdentity)
    (streams sequences : Nat → UInt64) (calls : List WorkCall) (r : Nat) :
    let start := WorkSystem.fresh manager creators limit works streams sequences
    Recounts decodes r (past (WorkSystem.answer decodes) start calls)
      (after (WorkSystem.answer decodes) start calls) := by
  intro start
  apply past_induction
  · exact ⟨⟨rfl, fun _ => rfl⟩, ticketHistory_fresh decodes manager creators limit works streams sequences r⟩
  · rintro moments s call ⟨free, history⟩
    have answered := s.answered decodes free call
    exact ⟨answered.free, TicketHistory.step (m := ⟨s, call⟩) history (answered.moves r)⟩

variable {decodes} {s : WorkSystem} {r : Nat} (free : s.Free)
include free

/-- A ticket for a cleanup is issued only for a record that can be reclaimed. -/
theorem reclaim_reclaimable {n : UInt64} (issued : (s.answer decodes (.reclaim r)).1 = .ticket (some n)) :
    (s.records r).data.Reclaimable (phaseOf (s.gates r).flags = .stopped) := by
  have moves := (s.answered decodes free (.reclaim r)).moves r
  rw [issued] at moves
  generalize ((s.answer decodes (.reclaim r)).2.records r).data = d' at moves
  cases moves with
  | calm quiet _ => simp [WorkCall.onTickets] at quiet
  | reclaims ready _ => exact ready

theorem answer_stale {call : WorkCall} (brings : call.brings r = true)
    (stale : ¬ (s.records r).data.Outstanding call) : s.answer decodes call = (.flag false, s) := by
  have same := WorkSystem.answer_of_ends (body_stale decodes 0 (free.records r) brings stale)
  exact Prod.ext same.1 same.2

/-- An observation that was declared timed out can only leave the scope unknown. -/
theorem finish_invalid {n : UInt64} (named : n ≠ 0)
    (invalid : (s.records r).data.observation = n → (s.records r).data.observationInvalid = true)
    (population : WorkPopulation) :
    (s.answer decodes (.observationFinish r n population)).1 = .flag false ∧
      ((s.answer decodes (.observationFinish r n population)).2 = s ∨
        ((s.answer decodes (.observationFinish r n population)).2.records r).data.state.population =
          .unknown) := by
  by_cases same : (s.records r).data.observation = n
  · have moves := (s.answered decodes free (.observationFinish r n population)).moves r
    have timed := invalid same
    generalize replied : (s.answer decodes (.observationFinish r n population)).1 = reply at moves ⊢
    generalize ((s.answer decodes (.observationFinish r n population)).2.records r).data = d' at moves ⊢
    cases moves with
    | calm quiet _ => simp [WorkCall.onTickets] at quiet
    | rejected _ unawaited => exact absurd ⟨named, same⟩ unawaited
    | exhausts asks _ => rcases asks with ⟨other, -⟩ | ⟨other, -⟩ <;> cases other
    | finishes _ _ =>
      rw [timed]
      exact ⟨rfl, .inr rfl⟩
  · have stale : ¬ (s.records r).data.Outstanding (.observationFinish r n population) :=
      fun outstanding => same outstanding.2
    rw [answer_stale free (by simp [WorkCall.brings]) stale]
    exact ⟨rfl, .inl rfl⟩

end Runs

/-- For every record and every sequence of calls: never are an observation and a cleanup
both outstanding; a cleanup is issued only behind fresh emptiness and a stopped gate; a
ticket other than the outstanding one changes nothing, and no number is issued twice; an
observation that was timed out supplies no population; a record that asked for a number
when none was left is blocked with a fault and is not complete. -/
theorem reclaim_rests_on_fresh_emptiness (decodes : List UInt8 → Bool) (manager : UInt64)
    (creators : Nat) (limit : UInt64) (works : Nat → WorkIdentity) (streams sequences : Nat → UInt64)
    (calls : List WorkCall) (r : Nat) :
    let start := WorkSystem.fresh manager creators limit works streams sequences
    let s := after (WorkSystem.answer decodes) start calls
    let moments := past (WorkSystem.answer decodes) start calls
    let d := (s.records r).data
    (d.observation = 0 ∨ d.cleanup = 0) ∧
    (∀ n, (s.answer decodes (.reclaim r)).1 = .ticket (some n) →
      FreshlyEmpty decodes r moments ∧ phaseOf (s.gates r).flags = .stopped) ∧
    (∀ call, call.brings r = true → ¬ d.Outstanding call → s.answer decodes call = (.flag false, s)) ∧
    (moments.Pairwise fun earlier later =>
      ∀ n k, Numbers decodes r n earlier → Numbers decodes r k later → n < k) ∧
    (∀ m ∈ moments, ∀ n population, TimesOut decodes r n m →
      (s.answer decodes (.observationFinish r n population)).1 = .flag false ∧
        ((s.answer decodes (.observationFinish r n population)).2 = s ∨
          ((s.answer decodes (.observationFinish r n population)).2.records r).data.state.population =
            .unknown)) ∧
    ((∃ m ∈ moments, Exhausts r m) →
      d.state.blocked = true ∧ d.state.fault ≠ .none ∧ d.state.complete = false) := by
  intro start s moments d
  obtain ⟨free, history⟩ :=
    run_recounts decodes manager creators limit works streams sequences calls r
  refine ⟨history.single, ?_, ?_, history.ordered, ?_, ?_⟩
  · intro n issued
    have ready := reclaim_reclaimable free issued
    exact ⟨history.fresh ready.empty, by simpa using ready.stopped⟩
  · exact fun call brings stale => answer_stale free brings stale
  · intro m inside n population timed
    obtain ⟨named, -, invalid⟩ := history.timed m inside n timed
    exact finish_invalid free named invalid population
  · intro exhausts
    have stuck := history.exhausted exhausts
    exact ⟨stuck.blocked, stuck.fault, stuck.incomplete⟩

/-- A work that runs, exits and is seen to leave an empty scope. -/
def emptyingCalls : List WorkCall :=
  [.start 0 [] { closedPlan := true } false, .gate 0 (.bind sampleEpoch),
    .admissionFinished 0 .accepted, .captureScope 0 ⟨1, 2⟩, .initialCreated 0,
    .creatorFinished 0 .captured .captured 0, .initialExited 0 ⟨.code, 0⟩, .initialReaped 0,
    .stop 0 .owner, .observe 0, .observationFinish 0 1 .empty]

example : (WorkSystem.answer (fun _ => true)
    (after (WorkSystem.answer fun _ => true)
      (.fresh 7 1 2 (fun _ => sampleWork) (fun _ => 1) fun _ => 1) emptyingCalls)
    (.reclaim 0)).1 = .ticket (some 2) := by
  decide +kernel

end Andrix.Native
