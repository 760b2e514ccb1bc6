import Mathlib.Algebra.Order.Ring.Nat
import Andrix.Supervision.InstanceState

/-! When an instance retires. Every fact that closes the instance moves the
boundary, so an observation whose boundary still stands was issued after all of
them. One description of what a call can change carries this, the quarantine
after a fault and the silence after retirement over whole runs. -/
namespace Andrix.Supervision
namespace InstanceState

/-- What closes an instance: Stop, the captured root, the end of the initial
process and the mutations still owed. -/
def closing (s : InstanceState) : Bool × Bool × Bool × Bool × Bool × List UInt64 × Nat :=
  (s.stopLatched, s.rootBound, s.processExited, s.processReaped, s.initialProcessAbsent, s.mutations,
    s.pendingMutations)

/-- What every call keeps. -/
structure Sound (s : InstanceState) : Prop where
  boundary : s.boundary.toNat ≤ s.limits.maxBoundary.toNat
  sequence : s.operationSequence.toNat ≤ s.limits.maxOperationSequence.toNat
  pending : s.pendingMutations = s.mutations.countP (· ≠ 0)
  faulted : s.fault ≠ .none → s.cleanup = .blocked ∧ s.stopLatched = true
  retired : s.cleanup = .retired → s.stopLatched = true ∧ s.pendingMutations = 0 ∧
    s.observation = none ∧ s.cleanupStep = none

/-- What a call changes at most: it keeps what is kept, moves no counter back,
and without a fault it moves the boundary with every closing fact. -/
structure Moved (s t : InstanceState) : Prop where
  sound : t.Sound
  identity : t.identity = s.identity
  limits : t.limits = s.limits
  boundary : s.boundary.toNat ≤ t.boundary.toNat
  sequence : s.operationSequence.toNat ≤ t.operationSequence.toNat
  faulted : t.fault = .none → s.fault = .none
  closing : t.fault = .none → t.boundary = s.boundary → t.closing = s.closing

variable {s t u : InstanceState}

theorem Moved.refl (sound : s.Sound) : Moved s s :=
  ⟨sound, rfl, rfl, le_rfl, le_rfl, id, fun _ _ => rfl⟩

theorem Moved.trans (first : Moved s t) (second : Moved t u) : Moved s u where
  sound := second.sound
  identity := second.identity.trans first.identity
  limits := second.limits.trans first.limits
  boundary := first.boundary.trans second.boundary
  sequence := first.sequence.trans second.sequence
  faulted clear := first.faulted (second.faulted clear)
  closing clear same := by
    have between : t.boundary = s.boundary := by
      refine UInt64.toNat_inj.mp (le_antisymm ?_ first.boundary)
      exact second.boundary.trans (le_of_eq (congrArg UInt64.toNat same))
    rw [second.closing clear (same.trans between.symm), first.closing (second.faulted clear) between]

/-- A call that leaves the counters and the fault alone. -/
structure Alike (s t : InstanceState) : Prop where
  identity : t.identity = s.identity
  limits : t.limits = s.limits
  boundary : t.boundary = s.boundary
  sequence : t.operationSequence = s.operationSequence
  fault : t.fault = s.fault

theorem Alike.moved (alike : Alike s t) (sound : t.Sound) (closing : t.closing = s.closing) :
    Moved s t :=
  ⟨sound, alike.identity, alike.limits, by rw [alike.boundary], by rw [alike.sequence],
    fun clear => alike.fault ▸ clear, fun _ _ => closing⟩

/-- Once the boundary has moved, closing facts may change with it. -/
theorem Moved.edit (moved : Moved s t) (ahead : s.boundary.toNat < t.boundary.toNat) (alike : Alike t u)
    (sound : u.Sound) : Moved s u where
  sound := sound
  identity := alike.identity.trans moved.identity
  limits := alike.limits.trans moved.limits
  boundary := by
    rw [alike.boundary]
    exact moved.boundary
  sequence := by
    rw [alike.sequence]
    exact moved.sequence
  faulted clear := moved.faulted (alike.fault ▸ clear)
  closing _ same := by
    rw [alike.boundary] at same
    exact absurd (congrArg UInt64.toNat same) (by omega)

/-! ## The steps that calls share -/

theorem failClosed_sound (sound : s.Sound) (fault : InstanceFault) : (s.failClosed fault).Sound :=
  ⟨sound.boundary, sound.sequence, sound.pending, fun _ => ⟨rfl, rfl⟩, by simp [failClosed]⟩

theorem failClosed_faulted (s : InstanceState) {fault : InstanceFault} (real : fault ≠ .none) :
    (s.failClosed fault).fault ≠ .none := by
  unfold failClosed
  dsimp only
  split
  · exact real
  · assumption

/-- Advancing the boundary after an edit, with the edit's closing facts. -/
theorem advance_moved (alike : Alike s t) (sound : t.Sound) : Moved s t.advanceBoundary.2 := by
  have failed (faulted : t.advanceBoundary.2.fault ≠ .none) (sound : t.advanceBoundary.2.Sound)
      (alike : Alike { s with fault := t.advanceBoundary.2.fault } t.advanceBoundary.2) :
      Moved s t.advanceBoundary.2 :=
    ⟨sound, alike.identity, alike.limits, by rw [alike.boundary], by rw [alike.sequence],
      fun clear => absurd clear faulted, fun clear => absurd clear faulted⟩
  have kept : t.invalidatePopulation.Sound :=
    ⟨sound.boundary, sound.sequence, sound.pending, sound.faulted, sound.retired⟩
  unfold advanceBoundary at *
  dsimp only at *
  split at failed
  · rename_i faulted
    rw [if_pos faulted]
    exact failed faulted kept ⟨alike.identity, alike.limits, alike.boundary, alike.sequence, rfl⟩
  rename_i clear
  rw [if_neg clear]
  simp only [ne_eq, not_not] at clear
  split at failed
  · rename_i exhausted
    rw [if_pos exhausted]
    exact failed (failClosed_faulted _ (by decide)) (failClosed_sound kept _)
      ⟨alike.identity, alike.limits, alike.boundary, alike.sequence, rfl⟩
  rename_i room
  rw [if_neg room]
  simp only [not_or, UInt64.not_le, UInt64.lt_iff_toNat_lt] at room
  have upper := t.limits.maxBoundary.toNat_lt
  have next : (t.boundary + 1).toNat = t.boundary.toNat + 1 := by
    rw [UInt64.toNat_add]
    simp only [UInt64.toNat_one]
    have below : t.boundary.toNat < t.limits.maxBoundary.toNat := room.1
    omega
  have below : t.boundary.toNat < t.limits.maxBoundary.toNat := room.1
  refine ⟨⟨?_, kept.sequence, kept.pending, kept.faulted, kept.retired⟩, alike.identity,
    alike.limits, ?_, by rw [← alike.sequence]; exact le_rfl, fun _ => ?_, fun _ same => ?_⟩
  · exact next.trans_le below
  · rw [← alike.boundary]
    exact (Nat.le_succ _).trans_eq next.symm
  · exact alike.fault.symm.trans clear
  · have stays := congrArg UInt64.toNat (same.trans alike.boundary.symm)
    exact absurd (next.symm.trans stays) (by omega)

theorem issueSequence_moved (sound : s.Sound) : Moved s s.issueSequence.2 := by
  unfold issueSequence
  split
  · exact .refl sound
  rename_i clear
  simp only [ne_eq, not_not] at clear
  split
  · exact ⟨failClosed_sound sound _, rfl, rfl, le_rfl, le_rfl,
      fun none_ => absurd none_ (failClosed_faulted _ (by decide)),
      fun none_ => absurd none_ (failClosed_faulted _ (by decide))⟩
  rename_i room
  simp only [not_or, UInt64.not_le, UInt64.lt_iff_toNat_lt] at room
  have upper := s.limits.maxOperationSequence.toNat_lt
  have next : (s.operationSequence + 1).toNat = s.operationSequence.toNat + 1 := by
    rw [UInt64.toNat_add]
    simp only [UInt64.toNat_one]
    omega
  refine ⟨⟨sound.boundary, ?_, sound.pending, sound.faulted, sound.retired⟩, rfl, rfl, le_rfl,
    ?_, id, fun _ _ => rfl⟩
  · exact next.trans_le room.1
  · exact (Nat.le_succ _).trans_eq next.symm

/-- A call that touches no observation and no cleanup step, and at most drops
the evidence of the last observation. -/
structure Quiet (s t : InstanceState) : Prop where
  observation : t.observation = s.observation
  expired : t.observationExpired = s.observationExpired
  step : t.cleanupStep = s.cleanupStep
  evidence : t.population = .empty → s.population = .empty ∧
    t.populationBoundary = s.populationBoundary ∧ t.populationSequence = s.populationSequence
  retired : t.cleanup = .retired → s.cleanup = .retired

theorem Quiet.refl : Quiet s s := ⟨rfl, rfl, rfl, fun empty => ⟨empty, rfl, rfl⟩, id⟩

theorem Quiet.trans (first : Quiet s t) (second : Quiet t u) : Quiet s u where
  observation := second.observation.trans first.observation
  expired := second.expired.trans first.expired
  step := second.step.trans first.step
  evidence empty := by
    obtain ⟨between, boundary, sequence⟩ := second.evidence empty
    obtain ⟨before, boundary', sequence'⟩ := first.evidence between
    exact ⟨before, boundary.trans boundary', sequence.trans sequence'⟩
  retired retired := first.retired (second.retired retired)

theorem advance_quiet (s : InstanceState) : Quiet s s.advanceBoundary.2 := by
  unfold advanceBoundary
  dsimp only
  split
  · exact ⟨rfl, rfl, rfl, by simp [invalidatePopulation], id⟩
  · split
    · exact ⟨rfl, rfl, rfl, by simp [failClosed, invalidatePopulation], by simp [failClosed]⟩
    · exact ⟨rfl, rfl, rfl, by simp [invalidatePopulation], id⟩

theorem issueSequence_quiet (s : InstanceState) : Quiet s s.issueSequence.2 := by
  unfold issueSequence
  split
  · exact .refl
  · split
    · exact ⟨rfl, rfl, rfl, by simp [failClosed, invalidatePopulation], by simp [failClosed]⟩
    · exact ⟨rfl, rfl, rfl, fun empty => ⟨empty, rfl, rfl⟩, id⟩

variable {sequence : UInt64}

/-- An issued sequence is new and no vacancy, and nothing else changes. -/
theorem issueSequence_some (issued : s.issueSequence = (some sequence, t)) :
    s.fault = .none ∧ sequence ≠ 0 ∧ t = { s with operationSequence := sequence } := by
  unfold issueSequence at issued
  split at issued
  · cases issued
  rename_i clear
  split at issued
  · cases issued
  rename_i room
  simp only [not_or] at room
  simp only [Prod.mk.injEq, Option.some.injEq] at issued
  obtain ⟨rfl, rfl⟩ := issued
  refine ⟨by simpa using clear, fun wrapped => room.2 ?_, rfl⟩
  have whole := congrArg UInt64.toNat wrapped
  have upper := s.operationSequence.toNat_lt
  rw [UInt64.toNat_add] at whole
  simp only [UInt64.toNat_one, UInt64.toNat_zero] at whole
  apply UInt64.toNat_inj.mp
  have top : maximum.toNat = 2 ^ 64 - 1 := rfl
  omega

theorem advance_true (advanced : s.advanceBoundary = (true, t)) :
    t.boundary.toNat = s.boundary.toNat + 1 := by
  unfold advanceBoundary at advanced
  dsimp only at advanced
  split at advanced
  · cases advanced
  split at advanced
  · cases advanced
  rename_i room
  simp only [not_or, UInt64.not_le, UInt64.lt_iff_toNat_lt] at room
  have below : s.boundary.toNat < s.limits.maxBoundary.toNat := room.1
  have upper := s.limits.maxBoundary.toNat_lt
  rw [← (Prod.mk.inj advanced).2]
  dsimp only [invalidatePopulation]
  rw [UInt64.toNat_add]
  simp only [UInt64.toNat_one]
  omega

/-- What one call does when it is no observation or cleanup call. -/
def Steady (s t : InstanceState) : Prop := Moved s t ∧ Quiet s t

theorem Steady.refl (sound : s.Sound) : Steady s s := ⟨.refl sound, .refl⟩

theorem Steady.trans (first : Steady s t) (second : Steady t u) : Steady s u :=
  ⟨first.1.trans second.1, first.2.trans second.2⟩

/-- An edit of closing facts that the boundary follows. -/
theorem advance_steady (alike : Alike s t) (sound : t.Sound) (quiet : Quiet s t) :
    Steady s t.advanceBoundary.2 :=
  ⟨advance_moved alike sound, quiet.trans (advance_quiet t)⟩

theorem countP_replace_zero {l : List UInt64} (vacant : 0 ∈ l)
    (real : sequence ≠ 0) :
    (l.replace 0 sequence).countP (· ≠ 0) = l.countP (· ≠ 0) + 1 := by
  induction l with
  | nil => cases vacant
  | cons first rest ih =>
    by_cases here : first = 0
    · subst here
      simp [real]
    have later : 0 ∈ rest := (List.mem_cons.mp vacant).resolve_left (Ne.symm here)
    rw [List.replace_cons]
    have differs : ((0 : UInt64) == first) = false := by simpa using Ne.symm here
    simp only [differs, List.countP_cons, ih later]
    omega

theorem countP_replace_vacate {l : List UInt64} (held : sequence ∈ l)
    (real : sequence ≠ 0) :
    (l.replace sequence 0).countP (· ≠ 0) + 1 = l.countP (· ≠ 0) := by
  induction l with
  | nil => cases held
  | cons first rest ih =>
    by_cases here : first = sequence
    · subst here
      simp [real]
    have later : sequence ∈ rest := (List.mem_cons.mp held).resolve_left (Ne.symm here)
    rw [List.replace_cons]
    have differs : (sequence == first) = false := by simpa using Ne.symm here
    simp only [differs, List.countP_cons]
    have rest_ := ih later
    omega

/-! ## The calls without observation or cleanup -/

theorem beginMutation_steady (sound : s.Sound) (ref : InstanceId) :
    Steady s (s.beginMutation ref).2 := by
  unfold beginMutation
  split
  · exact .refl sound
  rename_i free
  simp only [not_or] at free
  have first : Steady s s.issueSequence.2 := ⟨issueSequence_moved sound, issueSequence_quiet s⟩
  split
  · rename_i t failed
    rwa [failed] at first
  rename_i sequence t issued
  obtain ⟨clear, real, drawn⟩ := issueSequence_some issued
  rw [issued] at first
  have second : Steady t t.advanceBoundary.2 :=
    advance_steady ⟨rfl, rfl, rfl, rfl, rfl⟩ first.1.sound .refl
  split
  · rename_i u failed
    rw [failed] at second
    exact first.trans second
  rename_i u advanced
  rw [advanced] at second
  have both : Steady s u := first.trans second
  split
  · exact both
  rename_i vacant
  simp only [not_not] at vacant
  have ahead : s.boundary.toNat < u.boundary.toNat := by
    have before : s.boundary.toNat ≤ t.boundary.toNat := first.1.boundary
    rw [advance_true advanced]
    omega
  have clear_ : u.cleanup ≠ .retired := fun retired => free.2.2.2.1 (by
    simp [both.2.retired retired])
  refine ⟨both.1.edit ahead ⟨rfl, rfl, rfl, rfl, rfl⟩ ⟨both.1.sound.boundary,
    both.1.sound.sequence, ?_, both.1.sound.faulted, fun retired => absurd retired clear_⟩,
    both.2.trans ⟨rfl, rfl, rfl, fun empty => ⟨empty, rfl, rfl⟩, id⟩⟩
  dsimp only
  rw [countP_replace_zero vacant real, both.1.sound.pending]

theorem finishMutation_steady (sound : s.Sound) (ticket : MutationTicket) :
    Steady s (s.finishMutation ticket).2 := by
  unfold finishMutation
  split
  · exact .refl sound
  rename_i own
  simp only [not_or] at own
  split
  · exact .refl sound
  rename_i held
  simp only [not_not] at held
  have counted := countP_replace_vacate held own.2
  have pending := sound.pending
  refine advance_steady ⟨rfl, rfl, rfl, rfl, rfl⟩
    ⟨sound.boundary, sound.sequence, ?_, sound.faulted, fun retired => ?_⟩
    ⟨rfl, rfl, rfl, fun empty => ⟨empty, rfl, rfl⟩, id⟩
  · dsimp only
    omega
  · obtain ⟨stopped, none_, rest⟩ := sound.retired retired
    dsimp only
    exact ⟨stopped, by omega, rest⟩

/-- An edit of the evidence, the slots and the cleanup's progress. -/
theorem Moved.evidence (alike : Alike s t) (closing : t.closing = s.closing)
    (faulted : s.fault ≠ .none → t.cleanup = .blocked) (sound : s.Sound)
    (retired : t.cleanup = .retired → s.stopLatched = true ∧ s.pendingMutations = 0 ∧
      t.observation = none ∧ t.cleanupStep = none) : Moved s t := by
  have kept := closing
  simp only [InstanceState.closing, Prod.mk.injEq] at kept
  obtain ⟨stopped, -, -, -, -, mutations, pending⟩ := kept
  refine alike.moved ⟨?_, ?_, ?_, ?_, ?_⟩ closing
  · rw [alike.boundary, alike.limits]
    exact sound.boundary
  · rw [alike.sequence, alike.limits]
    exact sound.sequence
  · rw [pending, mutations]
    exact sound.pending
  · rw [alike.fault, stopped]
    exact fun fault => ⟨faulted fault, (sound.faulted fault).2⟩
  · rw [stopped, pending]
    exact retired

/-- An edit of fields that no invariant reads. -/
theorem Steady.edit (alike : Alike s t) (closing : t.closing = s.closing) (quiet : Quiet s t)
    (cleanup : t.cleanup = s.cleanup) (sound : s.Sound) : Steady s t := by
  refine ⟨.evidence alike closing (fun faulted => ?_) sound fun retired => ?_, quiet⟩
  · exact cleanup.trans (sound.faulted faulted).1
  · rw [quiet.observation, quiet.step]
    exact sound.retired (cleanup ▸ retired)

theorem captureRoot_steady (sound : s.Sound) (ref : InstanceId) : Steady s (s.captureRoot ref).2 := by
  unfold captureRoot
  split
  · exact .refl sound
  · exact advance_steady ⟨rfl, rfl, rfl, rfl, rfl⟩
      ⟨sound.boundary, sound.sequence, sound.pending, sound.faulted, sound.retired⟩
      ⟨rfl, rfl, rfl, fun empty => ⟨empty, rfl, rfl⟩, id⟩

theorem verifyProfile_steady (sound : s.Sound) (ref : InstanceId) :
    Steady s (s.verifyProfile ref).2 := by
  unfold verifyProfile
  split
  · exact .refl sound
  · exact .edit ⟨rfl, rfl, rfl, rfl, rfl⟩ rfl ⟨rfl, rfl, rfl, fun empty => ⟨empty, rfl, rfl⟩, id⟩ rfl
      sound

theorem completeSetup_steady (sound : s.Sound) (ref : InstanceId) :
    Steady s (s.completeSetup ref).2 := by
  unfold completeSetup
  split
  · exact .refl sound
  · exact .edit ⟨rfl, rfl, rfl, rfl, rfl⟩ rfl ⟨rfl, rfl, rfl, fun empty => ⟨empty, rfl, rfl⟩, id⟩ rfl
      sound

theorem activate_steady (sound : s.Sound) (ref : InstanceId) : Steady s (s.activate ref).2 := by
  unfold activate
  split
  · exact .refl sound
  · exact .edit ⟨rfl, rfl, rfl, rfl, rfl⟩ rfl ⟨rfl, rfl, rfl, fun empty => ⟨empty, rfl, rfl⟩, id⟩ rfl
      sound

theorem stop_steady (sound : s.Sound) (ref : InstanceId) : Steady s (s.stop ref).2 := by
  unfold stop
  split
  · exact .refl sound
  split
  · exact .refl sound
  rename_i running
  simp only [not_or, Bool.not_eq_true] at running
  have clear : s.fault = .none := by
    by_contra faulted
    simp [(sound.faulted faulted).2] at running
  exact advance_steady ⟨rfl, rfl, rfl, rfl, rfl⟩
    ⟨sound.boundary, sound.sequence, sound.pending, fun faulted => absurd clear faulted,
      by simp⟩
    ⟨rfl, rfl, rfl, fun empty => ⟨empty, rfl, rfl⟩, by simp⟩

theorem reportInitialProcessExit_steady (sound : s.Sound) (ref : InstanceId) :
    Steady s (s.reportInitialProcessExit ref).2 := by
  unfold reportInitialProcessExit
  split
  · exact .refl sound
  dsimp only
  split
  · exact stop_steady sound ref
  have first : Steady s { s with processExited := true, active := false }.advanceBoundary.2 :=
    advance_steady ⟨rfl, rfl, rfl, rfl, rfl⟩
      ⟨sound.boundary, sound.sequence, sound.pending, sound.faulted, sound.retired⟩
      ⟨rfl, rfl, rfl, fun empty => ⟨empty, rfl, rfl⟩, id⟩
  exact first.trans (stop_steady first.1.sound ref)

theorem reportInitialProcessReaped_steady (sound : s.Sound) (ref : InstanceId) :
    Steady s (s.reportInitialProcessReaped ref).2 := by
  unfold reportInitialProcessReaped
  split
  · exact .refl sound
  dsimp only
  split
  · exact .refl sound
  · exact advance_steady ⟨rfl, rfl, rfl, rfl, rfl⟩
      ⟨sound.boundary, sound.sequence, sound.pending, sound.faulted, sound.retired⟩
      ⟨rfl, rfl, rfl, fun empty => ⟨empty, rfl, rfl⟩, id⟩

theorem reportNoInitialProcess_steady (sound : s.Sound) (ref : InstanceId) :
    Steady s (s.reportNoInitialProcess ref).2 := by
  unfold reportNoInitialProcess
  split
  · exact .refl sound
  dsimp only
  split
  · exact stop_steady sound ref
  have first : Steady s { s with initialProcessAbsent := true }.advanceBoundary.2 :=
    advance_steady ⟨rfl, rfl, rfl, rfl, rfl⟩
      ⟨sound.boundary, sound.sequence, sound.pending, sound.faulted, sound.retired⟩
      ⟨rfl, rfl, rfl, fun empty => ⟨empty, rfl, rfl⟩, id⟩
  exact first.trans (stop_steady first.1.sound ref)

/-! ## Observation and cleanup -/

theorem retireUnallocated_moved (sound : s.Sound) (ref : InstanceId) :
    Moved s (s.retireUnallocated ref).2 := by
  unfold retireUnallocated
  split
  · exact .refl sound
  rename_i free
  simp only [not_or, Bool.not_eq_true, Bool.not_eq_true', not_not, Option.isSome_eq_false_iff,
    Option.isNone_iff_eq_none, Bool.not_eq_false, ne_eq] at free
  refine .evidence ⟨rfl, rfl, rfl, rfl, rfl⟩ rfl (fun faulted => absurd free.2.2.2.2.2.2.2.1 faulted)
    sound fun _ => ?_
  exact ⟨free.2.2.2.1, free.2.2.2.2.1, free.2.2.2.2.2.1, free.2.2.2.2.2.2.1⟩

/-! ## What a call does to tickets and evidence -/

def endsObservation : InstanceCall → Option ObservationTicket
  | .finishObservation ticket _ | .finishConfirmedRemoval ticket
  | .acknowledgeObservationCancellation ticket => some ticket
  | _ => none

def endsStep : InstanceCall → Option CleanupTicket
  | .finishCleanupStep ticket _ | .acknowledgeCleanupCancellation ticket => some ticket
  | _ => none

def issuedObservation : InstanceReply → Option ObservationTicket
  | .observation ticket => ticket
  | _ => none

def issuedStep : InstanceReply → Option CleanupTicket
  | .cleanup ticket => ticket
  | _ => none

def expiresObservation : InstanceCall → InstanceReply → Option ObservationTicket
  | .observationTimedOut ticket, .accepted true => some ticket
  | _, _ => none

def emptiesObservation : InstanceCall → InstanceReply → Option ObservationTicket
  | .finishObservation ticket .empty, .accepted true => some ticket
  | _, _ => none

/-- No ticket is issued, no outstanding one ends, no observation times out or is
accepted as Empty. -/
structure Untouched (s : InstanceState) (call : InstanceCall) (reply : InstanceReply) : Prop where
  observation : ∀ ticket ∈ endsObservation call, s.observation ≠ some ticket
  step : ∀ ticket ∈ endsStep call, s.cleanupStep ≠ some ticket
  issuedObservation : issuedObservation reply = none
  issuedStep : issuedStep reply = none
  expires : expiresObservation call reply = none
  empties : emptiesObservation call reply = none

/-- Stop is latched, the root is captured, the initial process is gone and no
mutation is pending. -/
structure Closed (s : InstanceState) : Prop where
  stopped : s.stopLatched = true
  bound : s.rootBound = true
  gone : s.processGone = true
  settled : s.pendingMutations = 0

/-- The same evidence, or none. -/
def Weakens (s t : InstanceState) : Prop :=
  t.population = .empty → s.population = .empty ∧ t.populationBoundary = s.populationBoundary ∧
    t.populationSequence = s.populationSequence

/-- What a call does to the tickets and the evidence. -/
inductive Turns (s : InstanceState) : InstanceCall → InstanceReply → InstanceState → Prop
  | quiet {call reply t} : Untouched s call reply → Quiet s t → Turns s call reply t
  | unallocated {ref t} : s.rootBound = false → Weakens s t → t.observation = s.observation →
    t.observationExpired = s.observationExpired → t.cleanupStep = s.cleanupStep →
    Turns s (.retireUnallocated ref) (.accepted true) t
  | observes {ref ticket t} : s.observation = none → s.cleanupStep = none → s.cleanup ≠ .retired →
    t.observation = some ticket → t.observationExpired = false → t.cleanupStep = none →
    t.population = .unknown → t.cleanup = s.cleanup → ticket.boundary = t.boundary →
    t.closing = s.closing → Turns s (.beginObservation ref) (.observation (some ticket)) t
  | ends {call reply ticket t} : endsObservation call = some ticket → s.observation = some ticket →
    issuedObservation reply = none → issuedStep reply = none → endsStep call = none →
    expiresObservation call reply = none → emptiesObservation call reply = none →
    t.observation = none → t.cleanupStep = s.cleanupStep → Weakens s t →
    (t.cleanup = .retired → s.cleanup = .retired) → Turns s call reply t
  | empties {ticket t} : s.observation = some ticket → s.observationExpired = false →
    ticket.boundary = s.boundary → t.observation = none → t.cleanupStep = s.cleanupStep →
    t.populationBoundary = some s.boundary → t.populationSequence = ticket.sequence →
    t.cleanup = s.cleanup → Turns s (.finishObservation ticket .empty) (.accepted true) t
  | removes {ticket t} : s.observation = some ticket → s.observationExpired = false →
    ticket.boundary = s.boundary → s.fault = .none → Closed s → s.cleanupStep = none →
    t.observation = none → t.cleanupStep = none → t.population = .removed →
    Turns s (.finishConfirmedRemoval ticket) (.accepted true) t
  | expires {ticket t} : s.observation = some ticket → t.observation = some ticket →
    t.observationExpired = true → t.cleanupStep = s.cleanupStep → t.population = .unknown →
    (t.cleanup = .retired → s.cleanup = .retired) →
    Turns s (.observationTimedOut ticket) (.accepted true) t
  | cleans {ref ticket t} : s.cleanupStep = none → t.cleanupStep = some ticket →
    t.observation = s.observation → t.observationExpired = s.observationExpired → Weakens s t →
    t.cleanup = .reclaiming → Turns s (.beginCleanupStep ref) (.cleanup (some ticket)) t
  | cleaned {call reply ticket t} : endsStep call = some ticket → s.cleanupStep = some ticket →
    issuedObservation reply = none → issuedStep reply = none → endsObservation call = none →
    expiresObservation call reply = none → emptiesObservation call reply = none →
    t.cleanupStep = none → t.observation = s.observation →
    t.observationExpired = s.observationExpired → Weakens s t →
    (t.cleanup = .retired → s.cleanup = .retired) → Turns s call reply t
  | reclaims {ticket t} : s.cleanupStep = some ticket → s.fault = .none → Closed s →
    s.observation = none → s.population = .empty → s.populationBoundary = some s.boundary →
    ticket.observationSequence = s.populationSequence → t.cleanupStep = none →
    t.observation = none → t.population = .removed →
    Turns s (.finishCleanupStep ticket .reclaimed) (.accepted true) t

variable {call : InstanceCall} {accepted : Bool}

theorem Turns.of_steady
    (observation : endsObservation call = none) (step : endsStep call = none)
    (expires : expiresObservation call (.accepted accepted) = none)
    (empties : emptiesObservation call (.accepted accepted) = none) (steady : Steady s t) :
    Turns s call (.accepted accepted) t :=
  .quiet ⟨by simp [observation], by simp [step], rfl, rfl, expires, empties⟩ steady.2

theorem beginObservation_moves (sound : s.Sound) (ref : InstanceId) :
    Moved s (s.beginObservation ref).2 ∧
      Turns s (.beginObservation ref) (.observation (s.beginObservation ref).1)
        (s.beginObservation ref).2 := by
  have untouched : Untouched s (.beginObservation ref) (.observation none) :=
    ⟨by simp [endsObservation], by simp [endsStep], rfl, rfl, rfl, rfl⟩
  unfold beginObservation
  split
  · exact ⟨.refl sound, .quiet untouched .refl⟩
  rename_i free
  simp only [not_or, Bool.not_eq_true, Option.isSome_eq_false_iff, Option.isNone_iff_eq_none] at free
  have moved := issueSequence_moved sound
  have quiet := issueSequence_quiet s
  split
  · rename_i t failed
    rw [failed] at moved quiet
    exact ⟨moved, .quiet untouched quiet⟩
  rename_i sequence t issued
  rw [issued] at moved quiet
  have cleanup : t.cleanup = s.cleanup := by
    rw [(issueSequence_some issued).2.2]
  have live : t.cleanup ≠ .retired := fun retired => free.2.2.2.2.2 (cleanup ▸ retired)
  refine ⟨moved.trans (.evidence ⟨rfl, rfl, rfl, rfl, rfl⟩ rfl
    (fun faulted => (moved.sound.faulted faulted).1) moved.sound
    (fun retired => absurd retired live)), ?_⟩
  refine .observes free.2.2.1 free.2.2.2.1 free.2.2.2.2.2 rfl rfl ?_ rfl cleanup rfl ?_
  · exact quiet.step.trans free.2.2.2.1
  · rw [(issueSequence_some issued).2.2]
    rfl

theorem blockStopped_cleanup (s : InstanceState) :
    (s.blockStopped.cleanup = .retired → s.cleanup = .retired) ∧
      (s.cleanup = .blocked → s.blockStopped.cleanup = .blocked) := by
  unfold blockStopped blockCleanup
  split
  · dsimp only
    split <;> simp_all
  · simp

/-- What blocking the cleanup leaves alone. -/
theorem blockStopped_keeps (s : InstanceState) : Alike s s.blockStopped ∧
    s.blockStopped.closing = s.closing ∧ s.blockStopped.observation = s.observation ∧
    s.blockStopped.observationExpired = s.observationExpired ∧
    s.blockStopped.cleanupStep = s.cleanupStep ∧ s.blockStopped.population = s.population ∧
    s.blockStopped.populationBoundary = s.populationBoundary ∧
    s.blockStopped.populationSequence = s.populationSequence := by
  unfold blockStopped
  split <;> exact ⟨⟨rfl, rfl, rfl, rfl, rfl⟩, rfl, rfl, rfl, rfl, rfl, rfl, rfl⟩

/-- Ending an observation without accepting it as Empty. -/
theorem ends_moves {ticket : ObservationTicket} (sound : s.Sound)
    (named : endsObservation call = some ticket) (held : s.observation = some ticket)
    (step : endsStep call = none) (expires : expiresObservation call (.accepted accepted) = none)
    (empties : emptiesObservation call (.accepted accepted) = none) (alike : Alike s t)
    (closing : t.closing = s.closing) (observation : t.observation = none)
    (kept : t.cleanupStep = s.cleanupStep) (weakens : Weakens s t)
    (blocked : s.cleanup = .blocked → t.cleanup = .blocked)
    (retired : t.cleanup = .retired → s.cleanup = .retired) :
    Moved s t ∧ Turns s call (.accepted accepted) t := by
  refine ⟨.evidence alike closing (fun faulted => blocked (sound.faulted faulted).1) sound
    (fun done => ?_), .ends named held rfl rfl step expires empties observation kept weakens retired⟩
  have quiet := sound.retired (retired done)
  rw [held] at quiet
  cases quiet.2.2.1

theorem untouched_observation {ticket : ObservationTicket}
    (named : endsObservation call = some ticket) (other : s.observation ≠ some ticket)
    (step : endsStep call = none) (expires : expiresObservation call (.accepted false) = none)
    (empties : emptiesObservation call (.accepted false) = none) :
    Untouched s call (.accepted false) := by
  refine ⟨fun found same => ?_, by simp [step], rfl, rfl, expires, empties⟩
  rw [named, Option.mem_some_iff] at same
  exact same ▸ other

theorem finishObservation_moves (sound : s.Sound) (ticket : ObservationTicket) (population : Population) :
    Moved s (s.finishObservation ticket population).2 ∧
      Turns s (.finishObservation ticket population)
        (.accepted (s.finishObservation ticket population).1)
        (s.finishObservation ticket population).2 := by
  unfold finishObservation
  split
  · rename_i other
    refine ⟨.refl sound, .quiet (untouched_observation rfl other rfl rfl ?_) .refl⟩
    cases population <;> rfl
  rename_i held
  simp only [ne_eq, not_not] at held
  dsimp only
  split
  · refine ends_moves sound rfl held rfl rfl ?_ ⟨rfl, rfl, rfl, rfl, rfl⟩ rfl rfl rfl
      (fun empty => ⟨empty, rfl, rfl⟩) id id
    cases population <;> rfl
  rename_i current
  simp only [not_not] at current
  cases population with
  | empty =>
    refine ⟨.evidence ⟨rfl, rfl, rfl, rfl, rfl⟩ rfl (fun faulted => (sound.faulted faulted).1) sound
      (fun retired => absurd retired current.2.2.2.1), ?_⟩
    exact .empties held current.2.2.2.2 current.2.1 rfl rfl rfl rfl rfl
  | populated =>
    obtain ⟨alike, closing, observation, _, step, seen, _, _⟩ := blockStopped_keeps
      { s with
        observation := none, observationExpired := false, population := .populated
        populationBoundary := some s.boundary, populationSequence := ticket.sequence }
    obtain ⟨retired, blocked⟩ := blockStopped_cleanup
      { s with
        observation := none, observationExpired := false, population := .populated
        populationBoundary := some s.boundary, populationSequence := ticket.sequence }
    exact ends_moves sound rfl held rfl rfl rfl
      ⟨alike.identity, alike.limits, alike.boundary, alike.sequence, alike.fault⟩ closing observation
      step (fun empty => Population.noConfusion (seen.symm.trans empty)) blocked retired
  | unknown | removed =>
    obtain ⟨alike, closing, observation, _, step, seen, _, _⟩ := blockStopped_keeps
      { s with observation := none, observationExpired := false }.invalidatePopulation
    obtain ⟨retired, blocked⟩ := blockStopped_cleanup
      { s with observation := none, observationExpired := false }.invalidatePopulation
    exact ends_moves sound rfl held rfl rfl rfl
      ⟨alike.identity, alike.limits, alike.boundary, alike.sequence, alike.fault⟩ closing observation
      step (fun empty => Population.noConfusion (seen.symm.trans empty)) blocked retired

theorem finishConfirmedRemoval_moves (sound : s.Sound) (ticket : ObservationTicket) :
    Moved s (s.finishConfirmedRemoval ticket).2 ∧
      Turns s (.finishConfirmedRemoval ticket) (.accepted (s.finishConfirmedRemoval ticket).1)
        (s.finishConfirmedRemoval ticket).2 := by
  unfold finishConfirmedRemoval
  split
  · rename_i other
    exact ⟨.refl sound, .quiet (untouched_observation rfl other rfl rfl rfl) .refl⟩
  rename_i held
  simp only [ne_eq, not_not] at held
  dsimp only
  split
  · exact ends_moves sound rfl held rfl rfl rfl ⟨rfl, rfl, rfl, rfl, rfl⟩ rfl rfl rfl
      (fun empty => ⟨empty, rfl, rfl⟩) id id
  rename_i current
  simp only [not_not] at current
  obtain ⟨fresh, owner, boundary, clear, live, stopped, bound, gone, settled, none_⟩ := current
  refine ⟨.evidence ⟨rfl, rfl, rfl, rfl, rfl⟩ rfl (fun faulted => absurd clear faulted) sound
    (fun _ => ⟨stopped, settled, rfl, none_⟩), ?_⟩
  exact .removes held fresh boundary clear ⟨stopped, bound, gone, settled⟩ none_ rfl none_ rfl

theorem observationTimedOut_moves (sound : s.Sound) (ticket : ObservationTicket) :
    Moved s (s.observationTimedOut ticket).2 ∧
      Turns s (.observationTimedOut ticket) (.accepted (s.observationTimedOut ticket).1)
        (s.observationTimedOut ticket).2 := by
  unfold observationTimedOut
  split
  · exact ⟨.refl sound, .quiet ⟨by simp [endsObservation], by simp [endsStep], rfl, rfl, rfl, rfl⟩ .refl⟩
  rename_i held
  simp only [ne_eq, not_not] at held
  obtain ⟨alike, closing, observation, expired, step, seen, _, _⟩ := blockStopped_keeps
    { s with observationExpired := true }.invalidatePopulation
  obtain ⟨retired, blocked⟩ := blockStopped_cleanup
    { s with observationExpired := true }.invalidatePopulation
  refine ⟨.evidence ⟨alike.identity, alike.limits, alike.boundary, alike.sequence, alike.fault⟩ closing
    (fun faulted => blocked (sound.faulted faulted).1) sound (fun done => ?_), ?_⟩
  · have quiet := sound.retired (retired done)
    rw [held] at quiet
    cases quiet.2.2.1
  · exact .expires held (observation.trans held) expired step seen retired

theorem acknowledgeObservationCancellation_moves (sound : s.Sound) (ticket : ObservationTicket) :
    Moved s (s.acknowledgeObservationCancellation ticket).2 ∧
      Turns s (.acknowledgeObservationCancellation ticket)
        (.accepted (s.acknowledgeObservationCancellation ticket).1)
        (s.acknowledgeObservationCancellation ticket).2 := by
  unfold acknowledgeObservationCancellation
  split
  · rename_i other
    exact ⟨.refl sound, .quiet (untouched_observation rfl other rfl rfl rfl) .refl⟩
  rename_i held
  simp only [ne_eq, not_not] at held
  exact ends_moves sound rfl held rfl rfl rfl ⟨rfl, rfl, rfl, rfl, rfl⟩ rfl rfl rfl
    (by simp [Weakens, invalidatePopulation]) id id

theorem closedEmptyBoundary_iff : s.closedEmptyBoundary = true ↔
    s.fault = .none ∧ Closed s ∧ s.observation = none ∧ s.population = .empty ∧
      s.populationBoundary = some s.boundary ∧ s.populationSequence ≠ 0 := by
  simp only [closedEmptyBoundary, Bool.and_eq_true, decide_eq_true_eq, Option.isNone_iff_eq_none]
  constructor
  · rintro ⟨⟨⟨⟨⟨⟨⟨⟨clear, stopped⟩, bound⟩, gone⟩, settled⟩, none_⟩, empty⟩, boundary⟩, sequence⟩
    exact ⟨clear, ⟨stopped, bound, gone, settled⟩, none_, empty, boundary, sequence⟩
  · rintro ⟨clear, ⟨stopped, bound, gone, settled⟩, none_, empty, boundary, sequence⟩
    exact ⟨⟨⟨⟨⟨⟨⟨⟨clear, stopped⟩, bound⟩, gone⟩, settled⟩, none_⟩, empty⟩, boundary⟩, sequence⟩

theorem beginCleanupStep_moves (sound : s.Sound) (ref : InstanceId) :
    Moved s (s.beginCleanupStep ref).2 ∧
      Turns s (.beginCleanupStep ref) (.cleanup (s.beginCleanupStep ref).1)
        (s.beginCleanupStep ref).2 := by
  have untouched : Untouched s (.beginCleanupStep ref) (.cleanup none) :=
    ⟨by simp [endsObservation], by simp [endsStep], rfl, rfl, rfl, rfl⟩
  unfold beginCleanupStep
  split
  · exact ⟨.refl sound, .quiet untouched .refl⟩
  rename_i free
  simp only [not_or, Bool.not_eq_true', Bool.not_eq_false, canBeginCleanup, Bool.and_eq_true,
    Option.isNone_iff_eq_none] at free
  have moved := issueSequence_moved sound
  have quiet := issueSequence_quiet s
  split
  · rename_i t failed
    rw [failed] at moved quiet
    exact ⟨moved, .quiet untouched quiet⟩
  rename_i sequence t issued
  rw [issued] at moved quiet
  obtain ⟨clear, -, same⟩ := issueSequence_some issued
  have clear' : t.fault = .none := by rw [same]; exact clear
  refine ⟨moved.trans (.evidence ⟨rfl, rfl, rfl, rfl, rfl⟩ rfl
    (fun faulted => absurd clear' faulted) moved.sound (by simp)), ?_⟩
  exact .cleans free.2.1.2 rfl quiet.observation quiet.expired quiet.evidence rfl

theorem cleanupTimedOut_steady (sound : s.Sound) (ticket : CleanupTicket) :
    Steady s (s.cleanupTimedOut ticket).2 := by
  unfold cleanupTimedOut
  split
  · exact .refl sound
  · refine ⟨.evidence ⟨rfl, rfl, rfl, rfl, rfl⟩ rfl (fun _ => rfl) sound (by simp), ?_⟩
    exact ⟨rfl, rfl, rfl, fun empty => ⟨empty, rfl, rfl⟩, by simp⟩

/-- Ending a cleanup step without reclaiming. -/
theorem cleaned_moves {ticket : CleanupTicket} (sound : s.Sound)
    (named : endsStep call = some ticket) (held : s.cleanupStep = some ticket)
    (observation : endsObservation call = none)
    (expires : expiresObservation call (.accepted accepted) = none)
    (empties : emptiesObservation call (.accepted accepted) = none) (alike : Alike s t)
    (closing : t.closing = s.closing) (step : t.cleanupStep = none)
    (kept : t.observation = s.observation) (expired : t.observationExpired = s.observationExpired)
    (weakens : Weakens s t) (blocked : s.cleanup = .blocked → t.cleanup = .blocked)
    (retired : t.cleanup = .retired → s.cleanup = .retired) :
    Moved s t ∧ Turns s call (.accepted accepted) t := by
  refine ⟨.evidence alike closing (fun faulted => blocked (sound.faulted faulted).1) sound
    (fun done => ?_), .cleaned named held rfl rfl observation expires empties step kept expired weakens
      retired⟩
  have quiet := sound.retired (retired done)
  rw [held] at quiet
  cases quiet.2.2.2

theorem untouched_step {ticket : CleanupTicket} (named : endsStep call = some ticket)
    (other : s.cleanupStep ≠ some ticket) (observation : endsObservation call = none)
    (expires : expiresObservation call (.accepted false) = none)
    (empties : emptiesObservation call (.accepted false) = none) :
    Untouched s call (.accepted false) := by
  refine ⟨by simp [observation], fun found same => ?_, rfl, rfl, expires, empties⟩
  rw [named, Option.mem_some_iff] at same
  exact same ▸ other

theorem finishCleanupStep_moves (sound : s.Sound) (ticket : CleanupTicket) (result : CleanupResult) :
    Moved s (s.finishCleanupStep ticket result).2 ∧
      Turns s (.finishCleanupStep ticket result) (.accepted (s.finishCleanupStep ticket result).1)
        (s.finishCleanupStep ticket result).2 := by
  have blocks : (s.cleanup = .blocked →
        (if s.cleanup = .retired then Cleanup.retired else .blocked) = .blocked) ∧
      ((if s.cleanup = .retired then Cleanup.retired else .blocked) = .retired →
        s.cleanup = .retired) := by
    constructor
    · intro blocked
      simp [blocked]
    · intro retired
      by_contra live
      simp [live] at retired
  unfold finishCleanupStep
  split
  · rename_i other
    exact ⟨.refl sound, .quiet (untouched_step rfl other rfl rfl rfl) .refl⟩
  rename_i held
  simp only [ne_eq, not_not] at held
  dsimp only
  split
  · exact cleaned_moves sound rfl held rfl rfl rfl ⟨rfl, rfl, rfl, rfl, rfl⟩ rfl rfl rfl rfl
      (by simp [Weakens, invalidatePopulation]) blocks.1 blocks.2
  rename_i current
  simp only [not_or, not_not, Bool.not_eq_true', Bool.not_eq_false, ne_eq] at current
  obtain ⟨-, boundary, sequence, closed⟩ := current
  obtain ⟨clear, closed, none_, empty, boundary_, -⟩ := closedEmptyBoundary_iff.mp closed
  cases result with
  | reclaimed =>
    refine ⟨.evidence ⟨rfl, rfl, rfl, rfl, rfl⟩ rfl (fun faulted => absurd clear faulted) sound
      (fun _ => ⟨closed.stopped, closed.settled, none_, rfl⟩), ?_⟩
    exact .reclaims held clear ⟨closed.stopped, closed.bound, closed.gone, closed.settled⟩ none_
      empty boundary_ sequence rfl none_ rfl
  | progress =>
    refine cleaned_moves sound rfl held rfl rfl rfl ⟨rfl, rfl, rfl, rfl, rfl⟩ rfl rfl rfl rfl
      (fun empty => ⟨empty, rfl, rfl⟩) ?_ ?_
    · intro blocked
      simp [blocked]
    · dsimp only
      split <;> simp
  | failed =>
    exact cleaned_moves sound rfl held rfl rfl rfl ⟨rfl, rfl, rfl, rfl, rfl⟩ rfl rfl rfl rfl
      (by simp [Weakens, invalidatePopulation]) blocks.1 blocks.2

theorem acknowledgeCleanupCancellation_moves (sound : s.Sound) (ticket : CleanupTicket) :
    Moved s (s.acknowledgeCleanupCancellation ticket).2 ∧
      Turns s (.acknowledgeCleanupCancellation ticket)
        (.accepted (s.acknowledgeCleanupCancellation ticket).1)
        (s.acknowledgeCleanupCancellation ticket).2 := by
  unfold acknowledgeCleanupCancellation
  split
  · rename_i other
    exact ⟨.refl sound, .quiet (untouched_step rfl other rfl rfl rfl) .refl⟩
  rename_i held
  simp only [ne_eq, not_not] at held
  refine cleaned_moves sound rfl held rfl rfl rfl ⟨rfl, rfl, rfl, rfl, rfl⟩ rfl rfl rfl rfl
    (by simp [Weakens, invalidatePopulation, blockCleanup]) ?_ ?_
  · intro blocked
    simp [blockCleanup, invalidatePopulation, blocked]
  · intro retired
    by_contra live
    simp [blockCleanup, invalidatePopulation, live] at retired

/-- Every call, as what it changes and what it does to tickets and evidence. -/
theorem call_moves (sound : s.Sound) (call : InstanceCall) :
    Moved s (s.call call).2 ∧ Turns s call (s.call call).1 (s.call call).2 := by
  cases call with
  | beginMutation ref =>
    have steady := beginMutation_steady sound ref
    exact ⟨steady.1, .quiet ⟨by simp [endsObservation], by simp [endsStep], rfl, rfl, rfl, rfl⟩ steady.2⟩
  | finishMutation ticket =>
    have steady := finishMutation_steady sound ticket
    exact ⟨steady.1, .of_steady rfl rfl rfl rfl steady⟩
  | captureRoot ref =>
    have steady := captureRoot_steady sound ref
    exact ⟨steady.1, .of_steady rfl rfl rfl rfl steady⟩
  | verifyProfile ref =>
    have steady := verifyProfile_steady sound ref
    exact ⟨steady.1, .of_steady rfl rfl rfl rfl steady⟩
  | completeSetup ref =>
    have steady := completeSetup_steady sound ref
    exact ⟨steady.1, .of_steady rfl rfl rfl rfl steady⟩
  | activate ref =>
    have steady := activate_steady sound ref
    exact ⟨steady.1, .of_steady rfl rfl rfl rfl steady⟩
  | stop ref =>
    have steady := stop_steady sound ref
    exact ⟨steady.1, .of_steady rfl rfl rfl rfl steady⟩
  | reportInitialProcessExit ref =>
    have steady := reportInitialProcessExit_steady sound ref
    exact ⟨steady.1, .of_steady rfl rfl rfl rfl steady⟩
  | reportInitialProcessReaped ref =>
    have steady := reportInitialProcessReaped_steady sound ref
    exact ⟨steady.1, .of_steady rfl rfl rfl rfl steady⟩
  | reportNoInitialProcess ref =>
    have steady := reportNoInitialProcess_steady sound ref
    exact ⟨steady.1, .of_steady rfl rfl rfl rfl steady⟩
  | retireUnallocated ref =>
    refine ⟨retireUnallocated_moved sound ref, ?_⟩
    simp only [call, Prod.map, id]
    unfold retireUnallocated
    split
    · exact .of_steady rfl rfl rfl rfl (.refl sound)
    · rename_i free
      simp only [not_or, Bool.not_eq_true] at free
      exact .unallocated free.2.1 (fun empty => ⟨empty, rfl, rfl⟩) rfl rfl rfl
  | beginObservation ref => exact beginObservation_moves sound ref
  | finishObservation ticket population => exact finishObservation_moves sound ticket population
  | finishConfirmedRemoval ticket => exact finishConfirmedRemoval_moves sound ticket
  | observationTimedOut ticket => exact observationTimedOut_moves sound ticket
  | acknowledgeObservationCancellation ticket =>
    exact acknowledgeObservationCancellation_moves sound ticket
  | beginCleanupStep ref => exact beginCleanupStep_moves sound ref
  | cleanupTimedOut ticket =>
    have steady := cleanupTimedOut_steady sound ticket
    exact ⟨steady.1, .of_steady rfl rfl rfl rfl steady⟩
  | finishCleanupStep ticket result => exact finishCleanupStep_moves sound ticket result
  | acknowledgeCleanupCancellation ticket => exact acknowledgeCleanupCancellation_moves sound ticket

end InstanceState
end Andrix.Supervision
