import Andrix.Native.RecordParts

/-! Every call on a record takes only the steps of the registry, leaves the metadata
coherent and returns what it promises, whatever the other threads do meanwhile. -/
namespace Andrix.Native
open Andrix.Lib Andrix.Lib.Program WorkRecord

variable {strict : Prop} {prepares : Nat → Prop} {works : Nat → WorkIdentity} {i r : Nat}
  {call : WorkCall} {h k : WorkHistory} {d : RecordData}

abbrev Free (strict : Prop) (prepares : Nat → Prop) (works : Nat → WorkIdentity) (i r : Nat)
    (h : WorkHistory) : Prop := Holding strict prepares works i r none h

/-- The call returns the mutex that it takes. -/
abbrev Frees {α : Type} (strict : Prop) (prepares : Nat → Prop) (works : Nat → WorkIdentity) (i r : Nat)
    (call : WorkCall) (p : Action α) : Prop :=
  ∀ h, Free strict prepares works i r h →
    Works strict prepares works i call (fun _ k => Free strict prepares works i r k) p h

theorem frees_reads {α : Type} {f : RecordData → Action α}
    (runs : ∀ d h, Holding strict prepares works i r (some d) h → d.Coherent →
      Works strict prepares works i call (fun _ k => Closes strict prepares works i r k) (f d) h) :
    Frees strict prepares works i r call (locked i r (data r >>= f)) := by
  refine fun h holding => section_meets holding fun k d held coherent _ => ?_
  refine (data_meets held).bind ?_
  rintro d l ⟨rfl, held₁, _⟩
  exact runs d l held₁ coherent

/-- What is known of a record without tickets whose creator or initial process is
outstanding. -/
structure RecordData.Busy (d : RecordData) : Prop where
  started : d.state.startAccepted = true
  admission : d.state.admissionPending = false
  observation : d.observation = 0
  cleanup : d.cleanup = 0

theorem RecordData.Busy.coherent (busy : d.Busy)
    (charged : d.creatorCharged = (d.state.admissionPending || d.state.creatorPending)) : d.Coherent where
  charged := charged
  unstarted := fun off => by cases busy.started.symm.trans off
  admission := fun on => by cases busy.admission.symm.trans on
  observing := fun pending => absurd busy.observation pending
  cleaning := fun pending => absurd busy.cleanup pending

theorem RecordData.Coherent.unclosed (coherent : d.Coherent) (closed : d.boundaryClosed = false) :
    d.observation = 0 ∧ d.cleanup = 0 := by
  refine ⟨?_, ?_⟩
  · by_contra observing
    rw [(coherent.observing observing).1] at closed
    cases closed
  · by_contra cleaning
    rw [(coherent.cleaning cleaning).1] at closed
    cases closed

theorem RecordData.Coherent.creating (coherent : d.Coherent) (pending : d.state.creatorPending = true) :
    d.Busy := by
  obtain ⟨observation, cleanup⟩ := coherent.unclosed (by simp [RecordData.boundaryClosed, pending])
  refine ⟨?_, ?_, observation, cleanup⟩
  · by_contra unstarted
    obtain ⟨_, creator, _⟩ := coherent.unstarted (by simpa using unstarted)
    rw [creator] at pending
    cases pending
  · by_contra admission
    obtain ⟨creator, _⟩ := coherent.admission (by simpa using admission)
    rw [creator] at pending
    cases pending

theorem RecordData.Coherent.running (coherent : d.Coherent) (incomplete : ¬ d.state.complete = true)
    (initial : d.state.initial = .owned ∨ d.state.initial = .exited) : d.Busy := by
  have requested : d.state.initial ≠ .notRequested := by rcases initial with initial | initial <;> simp [initial]
  obtain ⟨observation, cleanup⟩ := coherent.unclosed (by
    rcases initial with initial | initial <;>
      simp [RecordData.boundaryClosed, RecordData.initialAccounted, initial])
  refine ⟨?_, ?_, observation, cleanup⟩
  · by_contra unstarted
    exact requested ((coherent.unstarted (by simpa using unstarted)).2.2.2.2.2 (by simpa using incomplete))
  · by_contra admitting
    exact requested (coherent.admission (by simpa using admitting)).2

theorem RecordData.Coherent.admitting (coherent : d.Coherent)
    (pending : d.state.admissionPending = true) :
    d.state.startAccepted = true ∧ d.state.creatorPending = false ∧ d.observation = 0 ∧
      d.cleanup = 0 ∧ d.state.initial = .notRequested := by
  obtain ⟨creator, initial⟩ := coherent.admission pending
  obtain ⟨observation, cleanup⟩ := coherent.unclosed (by simp [RecordData.boundaryClosed, pending])
  refine ⟨?_, creator, observation, cleanup, initial⟩
  by_contra unstarted
  obtain ⟨admission, _⟩ := coherent.unstarted (by simpa using unstarted)
  rw [admission] at pending
  cases pending

theorem cancelUnstarted_meets (calm : call.Unprepared r) :
    Frees strict prepares works i r call (cancelUnstarted i r) := by
  refine frees_reads fun d h held coherent => ?_
  refine meets_ite (fun _ => ⟨_, held, coherent⟩) fun _ => ?_
  refine (stop_record_meets held calm _).bind ?_
  rintro _ m ⟨_, _, held₁, _⟩
  exact (settleUnstarted_meets held₁ calm coherent).bind fun _ _ settles => settles.closes

theorem captureScope_meets (identity : WorkScopeIdentity) :
    Frees strict prepares works i r call (captureScope i r identity) := by
  intro h holding
  refine meets_ite (fun _ => holding) fun _ => ?_
  refine frees_reads (fun d h held coherent => ?_) h holding
  refine meets_ite (fun _ => ⟨_, held, coherent⟩) fun pending => ?_
  simp only [Bool.or_eq_true, Bool.not_eq_true', not_or, Bool.not_eq_false, Bool.not_eq_true] at pending
  refine meets_ite (fun _ => ⟨_, held, coherent⟩) fun _ => ?_
  refine meets_ite (fun _ => ⟨_, held, coherent⟩) fun _ => ?_
  refine (modify_record_meets held fun m held _ =>
    held.edit pending.2 rfl rfl id id id (by simp)).bind ?_
  rintro _ m ⟨held₁, _⟩
  have busy := coherent.creating pending.1
  exact ⟨_, held₁, RecordData.Busy.coherent ⟨busy.1, busy.2, busy.3, busy.4⟩ coherent.charged⟩

theorem initialCreated_meets : Frees strict prepares works i r call (initialCreated i r) := by
  refine frees_reads fun d h held coherent => ?_
  refine meets_ite (fun _ => ⟨_, held, coherent⟩) fun pending => ?_
  simp only [Bool.or_eq_true, Bool.not_eq_true', not_or, Bool.not_eq_false, Bool.not_eq_true,
    decide_eq_true_eq, ne_eq, not_not] at pending
  refine (modify_record_meets held fun m held _ =>
    held.edit pending.1.2 rfl rfl id (by simp) (by simp) id).bind ?_
  rintro _ m ⟨held₁, _⟩
  have busy := coherent.creating pending.1.1
  exact ⟨_, held₁, RecordData.Busy.coherent ⟨busy.1, busy.2, busy.3, busy.4⟩ coherent.charged⟩

theorem initialExited_meets (calm : call.Unprepared r) (exit : WorkExit) :
    Frees strict prepares works i r call (initialExited i r exit) := by
  intro h holding
  refine meets_ite (fun _ => holding) fun _ => ?_
  refine frees_reads (fun d h held coherent => ?_) h holding
  refine meets_ite (fun _ => ⟨_, held, coherent⟩) fun incomplete => ?_
  refine meets_ite (fun _ => ⟨_, held, coherent⟩) fun _ => ?_
  refine meets_ite (fun _ => ⟨_, held, coherent⟩) fun owned => ?_
  refine (modify_record_meets held fun m held _ =>
    held.edit (by simpa using incomplete) rfl rfl id (by simp) (by simp) id).bind ?_
  rintro _ m ⟨held₁, _⟩
  refine (stopGate_meets held₁ calm).bind ?_
  rintro _ n ⟨_, held₂, _⟩
  have busy := coherent.running incomplete (.inl (by simpa using owned))
  exact ⟨_, held₂, RecordData.Busy.coherent ⟨busy.1, busy.2, busy.3, busy.4⟩ coherent.charged⟩

theorem initialReaped_meets (calm : call.Unprepared r) :
    Frees strict prepares works i r call (initialReaped i r) := by
  refine frees_reads fun d h held coherent => ?_
  refine meets_ite (fun _ => ⟨_, held, coherent⟩) fun incomplete => ?_
  refine meets_ite (fun _ => ⟨_, held, coherent⟩) fun _ => ?_
  refine meets_ite (fun _ => ⟨_, held, coherent⟩) fun exited => ?_
  refine (modify_record_meets held fun m held _ =>
    held.edit (by simpa using incomplete) rfl rfl id (by simp) (by simp) id).bind ?_
  rintro _ m ⟨held₁, _⟩
  have busy := coherent.running incomplete (.inr (by simpa using exited))
  refine (settleAbsentScope_meets held₁ calm ?_).bind fun _ _ settles => settles.closes
  exact RecordData.Busy.coherent ⟨busy.1, busy.2, busy.3, busy.4⟩ coherent.charged

/-- A number is issued and the record marked with it, or the record faults. -/
theorem issued_meets {change : UInt64 → RecordData → RecordData}
    (held : Holding strict prepares works i r (some d) h) (calm : call.Unprepared r)
    (incomplete : d.state.complete = false) (coherent : d.Coherent) (closed : d.boundaryClosed = true)
    (free : d.observation = 0 ∧ d.cleanup = 0)
    (edits : ∀ n k, Holding strict prepares works i r (some { d with sequence := n }) k →
      Edit strict prepares r k { d with sequence := n } (change n { d with sequence := n }))
    (marked : ∀ n, (change n { d with sequence := n }).Coherent) :
    Works strict prepares works i call (fun _ k => Closes strict prepares works i r k) (do
      let sequence ← issue r
      if sequence = 0 then pure none
      else do
        modify r (change sequence)
        pure (some sequence)) h := by
  obtain ⟨started, admission, -, -⟩ := boundaryClosed_inv closed
  refine (issue_meets held calm incomplete).bind ?_
  rintro sequence m issued
  refine meets_ite (fun zero => ?_) fun nonzero => ?_
  · rcases issued with ⟨_, fault, held₁⟩ | held₁
    · exact ⟨_, held₁, RecordData.Busy.coherent ⟨started, admission, free.1, free.2⟩ coherent.charged⟩
    · exact ⟨_, held₁, coherent.charged, coherent.unstarted, coherent.admission, coherent.observing,
        coherent.cleaning⟩
  · have held₁ := issued.resolve_left fun none_ => nonzero none_.1
    refine (modify_record_meets held₁ fun n held _ => edits sequence n held).bind ?_
    rintro _ n ⟨held₂, _⟩
    exact ⟨_, held₂, marked sequence⟩

theorem record_observe_meets (calm : call.Unprepared r) :
    Frees strict prepares works i r call (observe i r) := by
  refine frees_reads fun d h held coherent => ?_
  refine meets_ite (fun _ => ⟨_, held, coherent⟩) fun idle => ?_
  simp only [Bool.or_eq_true, Bool.not_eq_true', not_or, Bool.not_eq_false, Bool.not_eq_true,
    decide_eq_true_eq, ne_eq, not_not] at idle
  obtain ⟨⟨⟨⟨⟨incomplete, fault⟩, closed⟩, scope⟩, observation⟩, cleanup⟩ := idle
  have started := (boundaryClosed_inv closed).1
  refine issued_meets held calm incomplete coherent closed ⟨observation, cleanup⟩
    (fun n k held => held.edit incomplete rfl rfl id id id id) fun n => ?_
  exact ⟨coherent.charged, fun off => (by cases started.symm.trans off), coherent.admission,
    fun _ => ⟨closed, scope, fault, cleanup⟩, fun pending => absurd cleanup pending⟩

theorem reclaim_meets (calm : call.Unprepared r) :
    Frees strict prepares works i r call (reclaim i r) := by
  refine frees_reads fun d h held coherent => ?_
  refine meets_ite (fun _ => ⟨_, held, coherent⟩) fun idle => ?_
  simp only [Bool.or_eq_true, Bool.not_eq_true', not_or, Bool.not_eq_false, Bool.not_eq_true,
    decide_eq_true_eq, ne_eq, not_not] at idle
  obtain ⟨⟨⟨⟨⟨⟨incomplete, fault⟩, closed⟩, scope⟩, _⟩, observation⟩, cleanup⟩ := idle
  have started := (boundaryClosed_inv closed).1
  refine (phase_meets held calm).bind ?_
  rintro phase m ⟨_, _, held₁, _⟩
  refine meets_ite (fun _ => ⟨_, held₁, coherent⟩) fun _ => ?_
  refine issued_meets held₁ calm incomplete coherent closed ⟨observation, cleanup⟩
    (fun n k held => held.edit incomplete rfl rfl id id id id) fun n => ?_
  exact ⟨coherent.charged, fun off => (by cases started.symm.trans off), coherent.admission,
    fun pending => absurd observation pending, fun _ => ⟨closed, scope, fault, observation⟩⟩

/-! ## Tickets -/

theorem Holding.outstanding (held : Holding strict prepares works i r (some d) h)
    (pending : d.observation ≠ 0 ∨ d.cleanup ≠ 0) : d.state.complete = false := by
  by_contra complete
  have data := (held.owned d rfl).2
  have done := ((held.kept.records r).done (by rw [data]; simpa using complete)).1
  rw [data] at done
  exact pending.elim (fun pending => pending done.observation) fun pending => pending done.cleanup

/-- What a call with an observation ticket may change. -/
def Observing (change : RecordData → RecordData) : Prop :=
  ∀ d, ∃ observation observationInvalid population blocked,
    change d =
      { d with
        observation := observation
        observationInvalid := observationInvalid
        state := { d.state with population := population, blocked := blocked } }

variable {change : RecordData → RecordData}

/-- A call with a ticket edits the record, or the ticket is not the outstanding one. -/
theorem ticket_meets {outstanding : RecordData → UInt64} {sequence : UInt64}
    {reply : RecordData → Bool}
    (edits : ∀ d h, Holding strict prepares works i r (some d) h → outstanding d ≠ 0 → d.Coherent →
      Edit strict prepares r h d (change d) ∧ (change d).Coherent) :
    Frees strict prepares works i r call (locked i r do
      let d ← data r
      if sequence = 0 || outstanding d ≠ sequence then pure false
      else do
        modify r change
        pure (reply d)) := by
  refine frees_reads fun d h held coherent => ?_
  refine meets_ite (fun _ => ⟨_, held, coherent⟩) fun ticket => ?_
  simp only [Bool.or_eq_true, decide_eq_true_eq, not_or, ne_eq, not_not] at ticket
  have pending : outstanding d ≠ 0 := ticket.2 ▸ ticket.1
  refine (modify_record_meets held fun m held _ => (edits d m held pending coherent).1).bind ?_
  rintro _ m ⟨held₁, _⟩
  exact ⟨_, held₁, (edits d h held pending coherent).2⟩

theorem withObservation_meets (sequence : UInt64)
    (observing : Observing change) (reply : RecordData → Bool) :
    Frees strict prepares works i r call (withObservation i r sequence change reply) := by
  refine ticket_meets fun d h held pending coherent => ?_
  obtain ⟨observation, invalid, population, blocked, changed⟩ := observing d
  obtain ⟨closed, scope, fault, cleanup⟩ := coherent.observing pending
  rw [changed]
  refine ⟨held.edit (held.outstanding (.inl pending)) rfl rfl id id id id, coherent.charged,
    fun unstarted => ?_, coherent.admission, fun _ => ⟨closed, scope, fault, cleanup⟩,
    fun pending => absurd cleanup pending⟩
  exact absurd (coherent.unstarted unstarted).2.2.1 pending

/-- What a call with a cleanup ticket may change, the reclamation apart. -/
def Cleaning (change : RecordData → RecordData) : Prop :=
  ∀ d, ∃ cleanup population blocked,
    change d =
      { d with
        cleanup := cleanup
        state := { d.state with population := population, blocked := blocked } }

theorem withCleanup_meets (sequence : UInt64)
    (cleaning : Cleaning change) :
    Frees strict prepares works i r call (withCleanup i r sequence change) := by
  refine ticket_meets fun d h held pending coherent => ?_
  obtain ⟨cleanup, population, blocked, changed⟩ := cleaning d
  obtain ⟨closed, scope, fault, observation⟩ := coherent.cleaning pending
  rw [changed]
  refine ⟨held.edit (held.outstanding (.inr pending)) rfl rfl id id id id, coherent.charged,
    fun unstarted => ?_, coherent.admission, fun pending => absurd observation pending,
    fun _ => ⟨closed, scope, fault, observation⟩⟩
  exact absurd (coherent.unstarted unstarted).2.2.2.1 pending

theorem cleanupFinish_meets (calm : call.Unprepared r) (sequence : UInt64)
    (result : WorkCleanupResult) (error : Int) :
    Frees strict prepares works i r call (cleanupFinish i r sequence result error) := by
  intro h holding
  refine meets_ite (fun _ => holding) fun _ => ?_
  refine frees_reads (fun d h held coherent => ?_) h holding
  refine meets_ite (fun _ => ⟨_, held, coherent⟩) fun ticket => ?_
  refine meets_ite (fun _ => ⟨_, held, coherent⟩) fun _ => ?_
  simp only [Bool.or_eq_true, decide_eq_true_eq, not_or, ne_eq, not_not] at ticket
  have pending : d.cleanup ≠ 0 := ticket.2 ▸ ticket.1
  have incomplete := held.outstanding (.inr pending)
  obtain ⟨closed, scope, fault, observation⟩ := coherent.cleaning pending
  obtain ⟨started, admission, creator, initial⟩ := boundaryClosed_inv closed
  refine (modify_record_meets held fun m held _ =>
    held.edit incomplete rfl rfl id id id id).bind ?_
  rintro _ m ⟨held₁, _⟩
  cases result with
  | reclaimed =>
    refine (modify_record_meets held₁ fun m held _ =>
      held.edit incomplete rfl rfl id id id (by simp)).bind ?_
    rintro _ n ⟨held₂, _⟩
    have charge : d.creatorCharged = false := by
      rw [coherent.charged, admission, creator]
      rfl
    refine (settle_meets held₂ calm incomplete
      ⟨admission, creator, observation, rfl, initial, .inr rfl, fault, charge⟩).bind ?_
    rintro _ o ⟨d', held₃, coherent', _⟩
    exact ⟨d', held₃, coherent'⟩
  | failed | progress =>
    refine (modify_record_meets held₁ fun m held _ =>
      held.edit incomplete rfl rfl id id id id).bind ?_
    rintro _ n ⟨held₂, _⟩
    exact ⟨_, held₂, RecordData.Busy.coherent ⟨started, admission, observation, rfl⟩ coherent.charged⟩

/-! ## The registry's calls -/

theorem forget_meets (calm : call.Unprepared r) :
    Frees strict prepares works i r call (forget i r) := by
  refine fun h holding => section_meets holding fun k d held coherent _ => ?_
  refine (settleUnstarted_meets held calm coherent).bind ?_
  rintro _ l ⟨d', held₁, coherent', _, _⟩
  refine (data_meets held₁).bind ?_
  rintro d' m ⟨rfl, held₂, _⟩
  refine meets_ite (fun _ => ⟨_, held₂, coherent'⟩) fun _ => ?_
  refine meets_ite (fun _ => ⟨_, held₂, coherent'⟩) fun complete => ?_
  refine (modify_record_meets held₂ fun n held _ => ?_).bind ?_
  · refine ⟨rfl, fun _ => rfl, rfl, .inl, id, fun rules absent => ?_⟩
    refine (held.kept.records r).absent rules ?_
    rw [(held.owned d' rfl).2]
    exact absent
  · rintro _ n ⟨held₃, _⟩
    exact ⟨_, held₃, coherent'.charged, coherent'.unstarted, coherent'.admission, coherent'.observing,
      coherent'.cleaning⟩

theorem startLocked_meets (held : Holding strict prepares works i r (some d) h) (coherent : d.Coherent)
    (calm : call.Unprepared r) (description : List UInt8) (stdio : WorkIoBinding) (available : Bool) :
    Works strict prepares works i call (fun _ k => Closes strict prepares works i r k)
      (startLocked r description stdio available) h := by
  refine (data_meets held).bind ?_
  rintro d l ⟨rfl, held₁, _⟩
  refine meets_ite (fun _ => ⟨_, held₁, coherent⟩) fun _ => ?_
  refine meets_ite (fun _ => ⟨_, held₁, coherent⟩) fun unstarted => ?_
  refine (settleUnstarted_meets held₁ calm coherent).bind ?_
  rintro _ m ⟨d', held₂, coherent', same, _⟩
  refine (data_meets held₂).bind ?_
  rintro d' n ⟨rfl, held₃, _⟩
  refine (read_meets held₃).bind ?_
  rintro closed o ⟨_, held₄, _⟩
  refine (phase_meets held₄ calm).bind ?_
  rintro phase o₁ ⟨_, _, held₅, _⟩
  refine meets_ite (fun _ => ⟨_, held₅, coherent'⟩) fun open_ => ?_
  simp only [Bool.or_eq_true, Bool.not_eq_true', not_or, Bool.not_eq_true] at open_
  have incomplete : d'.state.complete = false := open_.1.1.2
  -- Nothing was settled, so the record is the unstarted one that was found.
  have same : d' = d := same.resolve_right (by simp [incomplete])
  subst same
  have off : d'.state.startAccepted = false := by simpa using unstarted
  obtain ⟨admission, creator, observation, cleanup, fault, unrequested⟩ := coherent.unstarted off
  refine (phase_meets held₅ calm).bind ?_
  rintro phase' o₂ ⟨_, _, held₆, _⟩
  refine meets_ite (fun _ => ⟨_, held₆, coherent⟩) fun _ => ?_
  have free : d'.creatorCharged = false := by
    rw [coherent.charged, admission, creator]
    rfl
  refine (acquireCreator_meets held₆ incomplete free).bind ?_
  rintro acquired o₃ ⟨held₇, _⟩
  refine meets_ite (fun refused => ?_) fun taken => ?_
  · refine ⟨_, held₇, ?_, coherent.unstarted, coherent.admission, coherent.observing, coherent.cleaning⟩
    have failed : acquired = false := by simpa using refused
    rw [failed, ← free]
    exact coherent.charged
  refine (modify_record_meets held₇ fun _ held _ =>
    held.edit incomplete rfl rfl id id id id).bind ?_
  rintro _ o₄ ⟨held₈, _⟩
  refine ⟨_, held₈, ?_, by simp, fun _ => ⟨creator, unrequested incomplete⟩,
    fun pending => absurd observation pending, fun pending => absurd cleanup pending⟩
  have taken : acquired = true := by simpa using taken
  rw [taken]
  rfl

theorem registry_store_meets {mutex : WorkSystem → Option Nat} {closed : WorkSystem → Bool} :
    Works strict prepares works i call (fun _ k => Free strict prepares works i r k)
      (.store fun s => { s with mutex := mutex s, closed := closed s }) h := by
  refine meets_store.mpr fun k _ kept => ?_
  have step : WorkStep strict prepares i call k
      { k.state with mutex := mutex k.state, closed := closed k.state } := .registry _ _
  exact ⟨step, kept.step step, by simp⟩

theorem lockRegistry_meets (r : Nat) :
    Works strict prepares works i call (fun _ k => Free strict prepares works i r k)
      (lockRegistry i) h := by
  refine meets_await.mpr fun k _ kept _ => ?_
  have step : WorkStep strict prepares i call k { k.state with mutex := some i } :=
    .registry (some i) k.state.closed
  exact ⟨step, kept.step step, by simp⟩

theorem start_meets (decodes : List UInt8 → Bool) (calm : call.Unprepared r)
    (description : List UInt8) (stdio : WorkIoBinding) (available : Bool) :
    Frees strict prepares works i r call (start decodes i r description stdio available) := by
  intro h holding
  refine meets_ite (fun _ => holding) fun _ => ?_
  refine (read_meets holding).bind ?_
  rintro manager k ⟨_, holding₁, _⟩
  refine meets_ite (fun _ => holding₁) fun _ => ?_
  refine meets_ite (fun _ => holding₁) fun _ => ?_
  refine (lockRegistry_meets r).bind fun _ l holding₂ => ?_
  refine (section_meets holding₂ fun m d held coherent _ =>
    startLocked_meets held coherent calm description stdio _).bind fun result n _ => ?_
  exact meets_bind.mpr registry_store_meets

/-! ## The creator -/

theorem admissionFinished_meets (holding : Free strict prepares works i r h) (calm : call.Unprepared r)
    (result : AdmissionResult) :
    Works strict prepares works i call
      (fun accepted k => (accepted = true → Opened r k) ∧ Free strict prepares works i r k)
      (admissionFinished i r result) h := by
  refine record_locked_meets holding (fun _ _ _ _ _ _ _ opened accepted => (opened accepted).step)
    fun k d held coherent _ => ?_
  have refuses {d : RecordData} {l : WorkHistory}
      (held : Holding strict prepares works i r (some d) l) (coherent : d.Coherent) :
      Closes strict prepares works i r l ∧ (false = true → Opened r l) :=
    ⟨⟨d, held, coherent⟩, by simp⟩
  refine (data_meets held).bind ?_
  rintro d l ⟨rfl, held₁, _⟩
  refine meets_ite (fun _ => refuses held₁ coherent) fun pending => ?_
  simp only [Bool.or_eq_true, Bool.not_eq_true', not_or, Bool.not_eq_false, Bool.not_eq_true] at pending
  obtain ⟨admitting, incomplete⟩ := pending
  obtain ⟨started, creator, observation, cleanup, unrequested⟩ := coherent.admitting admitting
  have off : d.state.startAccepted ≠ false := by simp [started]
  refine (phase_meets held₁ calm).bind ?_
  rintro phase m ⟨_, _, held₂, _⟩
  refine meets_ite (fun _ => ?_) fun _ => ?_
  · refine (modify_record_meets held₂ fun _ held _ =>
      held.edit incomplete rfl rfl id id id id).bind ?_
    rintro _ n ⟨held₃, _⟩
    refine (stop_record_meets held₃ calm _).bind ?_
    rintro _ o ⟨_, _, held₄, _⟩
    exact refuses held₄ ⟨coherent.charged, fun unstarted => absurd unstarted off, coherent.admission,
      fun pending => absurd observation pending, fun pending => absurd cleanup pending⟩
  refine meets_ite (fun _ => refuses held₂ coherent) fun faultless => ?_
  have reads : Works strict prepares works i call
      (fun _ n => Holding strict prepares works i r (some d) n) (acceptedEpoch r result) m := by
    refine meets_ite (fun _ => ?_) fun _ => held₂
    exact (epoch_meets held₂ calm).mono fun _ _ read => read.2.1
  refine meets_bind.mpr (reads.mono fun epoch n held₃ => ?_)
  refine meets_ite (fun _ => refuses held₃ coherent) fun _ => ?_
  refine (modify_record_meets held₃ fun _ held _ =>
    held.edit incomplete rfl rfl id id id id).bind ?_
  rintro _ o ⟨held₄, _⟩
  generalize (if epoch.isNone = true then AdmissionResult.stopped else result) = final at held₄ ⊢
  have requests : Works strict prepares works i call
      (fun _ n => Holding strict prepares works i r
        (some { d with state := { d.state with admissionPending := false, admission := final } }) n)
      (refused r final phase) o := by
    refine meets_ite (fun _ => ?_) fun _ => held₄
    exact (read_meets held₄).mono fun _ _ read => read.2.1
  refine meets_bind.mpr (requests.mono fun refuses_ o₁ held₅ => ?_)
  refine meets_ite (fun _ => ?_) fun _ => ?_
  · refine (modify_record_meets held₅ fun _ held _ => ?_).bind ?_
    · exact ⟨rfl, fun complete => (by cases incomplete.symm.trans complete), rfl,
        fun _ => .inr ⟨rfl, rfl⟩, by simp, by simp⟩
    · rintro _ o₂ ⟨held₆, _⟩
      refine ⟨⟨_, held₆, ?_, fun unstarted => absurd unstarted off, by simp,
        fun pending => absurd observation pending, fun pending => absurd cleanup pending⟩, fun _ => ?_⟩
      · dsimp only
        rw [coherent.charged, admitting]
        rfl
      · refine (held₆.kept.records r).opened ?_
        rw [(held₆.owned _ rfl).2]
  · refine (modify_record_meets held₅ fun _ held _ =>
      held.absent_edit incomplete unrequested rfl rfl id).bind ?_
    rintro _ o₂ ⟨held₆, _⟩
    refine (releaseCreator_meets held₆ incomplete).bind ?_
    rintro _ o₃ ⟨held₇, _⟩
    refine (settle_meets held₇ calm incomplete
      ⟨rfl, creator, observation, cleanup, .inl rfl, .inl rfl, by simpa using faultless, rfl⟩).bind ?_
    rintro _ o₄ ⟨d', held₈, coherent', _⟩
    exact refuses held₈ coherent'

theorem stopIf_meets (held : Holding strict prepares works i r (some d) h) (calm : call.Unprepared r)
    (condition : Bool) (source : WorkStopSource) :
    Works strict prepares works i call (fun _ k => Holding strict prepares works i r (some d) k)
      (stopIf r condition source) h := by
  refine meets_ite (fun _ => ?_) fun _ => held
  refine (stop_record_meets held calm source).bind ?_
  rintro _ k ⟨_, _, held₁, _⟩
  exact held₁

theorem quarantineIf_meets (held : Holding strict prepares works i r (some d) h)
    (calm : call.Unprepared r) (condition : Bool) (incomplete : d.state.complete = false) :
    Works strict prepares works i call
      (fun _ k => ∃ permanentFault fault blocked, Holding strict prepares works i r
        (some { d with
          permanentFault := permanentFault
          state := { d.state with fault := fault, blocked := blocked } }) k)
      (quarantineIf r condition) h := by
  refine meets_ite (fun _ => ?_) fun _ => ⟨_, _, _, held⟩
  refine (modify_record_meets held fun _ held _ =>
    held.edit incomplete rfl rfl id id id id).bind ?_
  rintro _ k ⟨held₁, _⟩
  refine (stop_record_meets held₁ calm _).bind ?_
  rintro _ l ⟨_, _, held₂, _⟩
  exact ⟨_, _, _, held₂⟩

theorem closeAbsent_meets (held : Holding strict prepares works i r (some d) h)
    (calm : call.Unprepared r) :
    Works strict prepares works i call (fun _ k => Holding strict prepares works i r (some d) k)
      (closeAbsent r) h := by
  refine (data_meets held).bind ?_
  rintro d k ⟨rfl, held₁, _⟩
  refine meets_ite (fun _ => ?_) fun _ => held₁
  refine (stopGate_meets held₁ calm).bind ?_
  rintro _ l ⟨_, held₂, _⟩
  exact held₂

/-- A creator that reports absent resources has a gate that is stopped or that nobody
prepares. -/
theorem creatorFinished_meets (holding : Free strict prepares works i r h) (calm : call.Unprepared r)
    (initial scope : WorkResourceFact) (error : Int)
    (ready : strict → initial = .absent ∨ scope = .absent → h.state.Stopped r ∨ ¬ prepares r) :
    Works strict prepares works i call (fun _ k => Free strict prepares works i r k)
      (creatorFinished i r initial scope error) h := by
  refine meets_ite (fun _ => holding) fun _ => ?_
  refine section_meets holding fun k d held coherent begun => ?_
  refine (data_meets held).bind ?_
  rintro d l ⟨rfl, held₁, along₁⟩
  refine meets_ite (fun _ => ⟨_, held₁, coherent⟩) fun pending => ?_
  simp only [Bool.or_eq_true, Bool.not_eq_true', not_or, Bool.not_eq_false, Bool.not_eq_true] at pending
  obtain ⟨⟨⟨creating, incomplete⟩, initialFact⟩, scopeFact⟩ := pending
  have busy := coherent.creating creating
  have requested : d.state.initial ≠ .notRequested := by
    have opened := (held₁.kept.records r).opened (by rw [(held₁.owned d rfl).2]; exact creating)
    have kept := (held₁.kept.records r).requested opened
    rw [(held₁.owned d rfl).2] at kept
    exact kept
  refine (entered_meets held₁ calm).bind ?_
  rintro entered m ⟨read, held₂, along₂⟩
  refine meets_ite (fun _ => ⟨_, held₂, coherent⟩) fun outside => ?_
  refine (modify_record_meets held₂ fun n held along₃ => ?_).bind ?_
  · refine ⟨rfl, fun complete => (by cases incomplete.symm.trans complete), rfl, by simp, ?_, ?_⟩
    · intro _
      by_cases fact : initial = .absent
      · simp [fact]
      · simpa [fact] using requested
    · intro rules absent
      by_cases facts : initial = .absent ∨ scope = .absent
      · rcases ready rules facts with stopped | unprepared
        · -- The word that was read is the word for good.
          have before := along₁.stopped (begun.stopped stopped)
          have same := (along₂.trans along₃).flags before
          have unentered : entered = false := by
            by_contra won
            exact outside (by simpa [won] using facts)
          refine ⟨?_, .inl ((along₂.trans along₃).stopped before)⟩
          rw [same, ← read before, unentered]
        · exact held.kept.barred rules fun may => unprepared may.2
      · obtain ⟨present, present'⟩ := not_or.mp facts
        simp only [if_neg present, if_neg present'] at absent
        refine (held.kept.records r).absent rules ?_
        rw [(held.owned d rfl).2]
        exact absent
  · rintro _ n ⟨held₃, _⟩
    refine (stopIf_meets held₃ calm _ _).bind fun _ o held₄ => ?_
    refine (quarantineIf_meets held₄ calm _ incomplete).bind ?_
    rintro _ o₁ ⟨permanentFault, fault, blocked, held₅⟩
    refine (releaseCreator_meets held₅ incomplete).bind ?_
    rintro _ o₂ ⟨held₆, _⟩
    refine (closeAbsent_meets held₆ calm).bind fun _ o₃ held₇ => ?_
    refine (settleAbsentScope_meets held₇ calm ?_).bind fun _ _ settles => settles.closes
    refine RecordData.Busy.coherent ⟨busy.1, busy.2, busy.3, busy.4⟩ ?_
    dsimp only
    rw [busy.admission]
    rfl

/-! ## Stopping -/

theorem stopped_lasting (r : Nat) : Lasting strict prepares works fun h => h.state.Stopped r :=
  fun _ _ _ _ kept step stopped => (kept.stopped_step step stopped).1

theorem requested_lasting (r : Nat) (bit : UInt32) :
    Lasting strict prepares works fun h => has (h.state.records r).requests bit = true :=
  fun _ _ _ _ _ step requested => (step.recordMove r).requests requested

theorem abort_meets (holding : Free strict prepares works i r h) (calm : call.Unprepared r)
    (error : Int) :
    Works strict prepares works i call
      (fun requested k => requested = true → k.state.Stopped r ∧
        has (k.state.records r).requests WorkStopSource.backendFailure.bit = true)
      (abort i r error) h := by
  refine meets_ite (fun _ => by simp [meets_pure]) fun _ => ?_
  refine (stop_record_meets holding calm .backendFailure).bind ?_
  rintro first k ⟨requested, stopped, holding₁, _⟩
  have body : Works strict prepares works i call
      (fun _ l => (l.state.Stopped r ∧ (first = true →
          has (l.state.records r).requests WorkStopSource.backendFailure.bit = true)) ∧
        Free strict prepares works i r l)
      (locked i r (modify r fun d =>
        if !d.state.complete && d.state.launchError = 0 then
          { d with state := { d.state with launchError := error } }
        else d)) k := by
    refine record_locked_meets holding₁ (fun _ l j call s kept step both =>
      ⟨stopped_lasting r l j call s kept step both.1, fun won =>
        requested_lasting r _ l j call s kept step (both.2 won)⟩) fun l d held coherent along => ?_
    have facts {m : WorkHistory} (later : Along r l m) : m.state.Stopped r ∧ (first = true →
        has (m.state.records r).requests WorkStopSource.backendFailure.bit = true) :=
      ⟨(along.trans later).stopped stopped, fun won => (along.trans later).requests _ (requested won)⟩
    by_cases records : (!d.state.complete && decide (d.state.launchError = 0)) = true
    · have incomplete : d.state.complete = false := by
        simp only [Bool.and_eq_true, Bool.not_eq_true'] at records
        exact records.1
      refine (modify_record_meets held fun m held _ => ?_).mono ?_
      · rw [if_pos records]
        exact held.edit incomplete rfl rfl id id id id
      rintro _ m ⟨held₁, later⟩
      rw [if_pos records] at held₁
      exact ⟨⟨_, held₁, coherent.charged, coherent.unstarted, coherent.admission,
        coherent.observing, coherent.cleaning⟩, facts later⟩
    · refine (modify_record_meets held fun m held _ => ?_).mono ?_
      · rw [if_neg records]
        refine ⟨rfl, fun _ => rfl, rfl, .inl, id, fun rules absent => ?_⟩
        refine (held.kept.records r).absent rules ?_
        rw [(held.owned d rfl).2]
        exact absent
      · rintro _ m ⟨held₁, later⟩
        rw [if_neg records] at held₁
        exact ⟨⟨_, held₁, coherent⟩, facts later⟩
  refine meets_bind.mpr (body.mono ?_)
  rintro _ l ⟨⟨stopped, requested⟩, _⟩ won
  exact ⟨stopped, requested won⟩

theorem stopRecords_meets (kept : WorkKept strict prepares works h) (calm : ∀ r, call.Unprepared r)
    (source : WorkStopSource) (table : List Nat) :
    Works strict prepares works i call (fun _ k => ∀ r ∈ table, k.state.Stopped r)
      (stopRecords source table) h := by
  induction table generalizing h with
  | nil => exact fun r among => by cases among
  | cons r rest ih =>
    have holding : Free strict prepares works i r h := ⟨kept, by simp⟩
    refine (stop_record_meets holding (calm r) source).bind ?_
    rintro _ k ⟨_, stopped, holding₁, _⟩
    refine ((ih holding₁.kept).reached .refl).mono ?_
    rintro _ l ⟨others, reaches⟩ n among
    rcases List.mem_cons.mp among with rfl | member
    · exact (stopped_lasting n).reached holding₁.kept reaches stopped
    · exact others n member

theorem close_meets (calm : ∀ r, call.Unprepared r) (source : WorkStopSource) (table : List Nat) :
    Works strict prepares works i call (fun _ k => ∀ r ∈ table, k.state.Stopped r)
      (close i source table) h := by
  refine (lockRegistry_meets 0).bind fun _ _ _ => ?_
  refine (registry_store_meets (r := 0)).bind fun _ k holding => ?_
  refine ((stopRecords_meets holding.kept calm source table).reached .refl).bind ?_
  rintro _ l ⟨stopped, reaches⟩
  refine ((registry_store_meets (r := 0)).reached .refl).mono ?_
  rintro _ m ⟨_, last⟩ r among
  exact (stopped_lasting r).reached (holding.kept.reached reaches) last (stopped r among)

/-! ## Inspection -/

/-- The two snapshots differ at most in whether the record is forgotten. -/
def WorkSnapshot.SameButForgotten (w v : WorkSnapshot) : Prop := w = { v with forgotten := w.forgotten }

theorem WorkKept.snapshot_step (kept : WorkKept strict prepares works h) {s : WorkSystem}
    (step : WorkStep strict prepares i call h s)
    (complete : (h.state.records r).data.state.complete = true) :
    (s.snapshotOf r).SameButForgotten (h.state.snapshotOf r) := by
  have along := kept.along step r
  obtain ⟨done, stopped, _⟩ := (kept.records r).done complete
  obtain ⟨requests, data⟩ := (step.recordMove r).frozen (kept.records r).word complete
  have flags : (s.gates r).flags = (h.state.gates r).flags := along.flags stopped
  have epoch : (if has (h.state.gates r).flags kBound then some (s.gates r).epoch else none) =
      if has (h.state.gates r).flags kBound then some (h.state.gates r).epoch else none := by
    by_cases bound : has (h.state.gates r).flags kBound = true
    · rw [if_pos bound, if_pos bound]
      exact congrArg some (along.epoch stopped bound)
    · rw [if_neg bound, if_neg bound]
  generalize (s.records r).data.state.forgotten = forgotten at data
  simp only [WorkSnapshot.SameButForgotten, WorkSystem.snapshotOf, epoch, flags, data, complete, if_true]

theorem WorkSnapshot.SameButForgotten.trans {u v w : WorkSnapshot} (first : u.SameButForgotten v)
    (second : v.SameButForgotten w) : u.SameButForgotten w := by
  unfold SameButForgotten at *
  rw [first, second]

theorem WorkSnapshot.SameButForgotten.symm {v w : WorkSnapshot} (same : v.SameButForgotten w) :
    w.SameButForgotten v := by
  unfold SameButForgotten at *
  rw [same]

/-- An inspection that shows a complete record shows it as it stays. -/
def Shows (r : Nat) (begun : WorkHistory) (w : WorkSnapshot) (h : WorkHistory) : Prop :=
  ((begun.state.records r).data.state.complete = true → w.complete = true) ∧
    (w.complete = true → (h.state.records r).data.state.complete = true ∧
      w.SameButForgotten (h.state.snapshotOf r))

theorem shows_lasting (r : Nat) (begun : WorkHistory) (w : WorkSnapshot) :
    Lasting strict prepares works (Shows r begun w) := by
  rintro h i call s kept step ⟨begins, shows_⟩
  refine ⟨begins, fun complete => ?_⟩
  obtain ⟨still, same⟩ := shows_ complete
  exact ⟨(step.recordMove r).complete still, same.trans (kept.snapshot_step step still).symm⟩

theorem snapshot_meets (holding : Free strict prepares works i r h) (calm : call.Unprepared r) :
    Works strict prepares works i call
      (fun w k => Shows r h w k ∧ Free strict prepares works i r k) (snapshot i r) h := by
  refine record_locked_meets holding (fun w => shows_lasting r h w) fun k d held coherent along => ?_
  refine (settleUnstarted_meets held calm coherent).bind ?_
  rintro _ l ⟨d', held₁, coherent', _, along₁⟩
  refine (data_meets held₁).bind ?_
  rintro d' m ⟨rfl, held₂, along₂⟩
  refine (entered_meets held₂ calm).bind ?_
  rintro entered n₁ ⟨readEntered, held₃, along₃⟩
  refine (phase_meets held₃ calm).bind ?_
  rintro phase n₂ ⟨readPhase, _, held₄, along₄⟩
  refine (epoch_meets held₄ calm).bind ?_
  rintro epoch n₃ ⟨readEpoch, held₅, along₅⟩
  have sources : Works strict prepares works i call
      (fun sources o => (d'.state.complete = true → sources = d'.state.stopSources) ∧
        Holding strict prepares works i r (some d') o ∧ Along r n₃ o)
      (knownSources r d') n₃ := by
    refine meets_ite (fun _ => ⟨fun _ => rfl, held₅, .refl r n₃⟩) fun incomplete => ?_
    exact (read_meets held₅).mono fun _ _ read => ⟨fun complete => absurd complete incomplete, read.2⟩
  refine meets_bind.mpr (sources.mono ?_)
  rintro sources o ⟨known, held₆, along₆⟩
  have data := (held₆.owned d' rfl).2
  refine ⟨⟨_, held₆, coherent'⟩, fun before => ?_, fun complete => ⟨by rw [data]; exact complete, ?_⟩⟩
  · have after := (along.trans (along₁.trans along₂)).complete before
    rw [(held₂.owned d' rfl).2] at after
    exact after
  -- The gate of a complete record is stopped, so all its words were read as they stand.
  have stopped : m.state.Stopped r :=
    ((held₂.kept.records r).done (by rw [(held₂.owned d' rfl).2]; exact complete)).2.1
  have flags₁ := along₃.flags stopped
  have flags₂ := (along₃.trans along₄).flags stopped
  have flags₃ := (along₃.trans (along₄.trans (along₅.trans along₆))).flags stopped
  have stopped₂ := (along₃.trans along₄).stopped stopped
  have epoch₃ : epoch = if has (o.state.gates r).flags kBound then some (o.state.gates r).epoch
      else none := by
    rw [readEpoch stopped₂, flags₃, flags₂]
    by_cases bound : has (m.state.gates r).flags kBound = true
    · rw [if_pos bound, if_pos bound,
        (along₅.trans along₆).epoch stopped₂ (by rw [flags₂]; exact bound)]
    · rw [if_neg bound, if_neg bound]
  rw [readEntered stopped, readPhase (along₃.stopped stopped), known complete, epoch₃]
  have whole : d'.state.complete = true := complete
  simp only [WorkSnapshot.SameButForgotten, WorkSystem.snapshotOf, data, flags₁, flags₃, whole, if_true]

/-! ## Every call -/

/-- What a call that returned promises of every later moment. -/
def WorkPost (begun : WorkHistory) (reply : WorkReply) (h : WorkHistory) : WorkCall → Prop
  | .stop r source => h.state.Stopped r ∧
    (reply = .flag true → has (h.state.records r).requests source.bit = true)
  | .abort r _ => reply = .flag true → h.state.Stopped r ∧
    has (h.state.records r).requests WorkStopSource.backendFailure.bit = true
  | .close _ table => ∀ r ∈ table, h.state.Stopped r
  | .inspect r => ∀ w, reply = .snapshot w → Shows r begun w h
  | .admissionFinished r _ => reply = .flag true → Opened r h
  | _ => True

theorem workPost_lasting (begun : WorkHistory) (reply : WorkReply) (asked : WorkCall) :
    Lasting strict prepares works fun h => WorkPost begun reply h asked := by
  intro h i call s kept step post
  cases asked with
  | stop r source =>
    exact ⟨stopped_lasting r h i call s kept step post.1, fun won =>
      requested_lasting r _ h i call s kept step (post.2 won)⟩
  | abort r error =>
    intro won
    exact ⟨stopped_lasting r h i call s kept step (post won).1,
      requested_lasting r _ h i call s kept step (post won).2⟩
  | close source table => exact fun r among => stopped_lasting r h i call s kept step (post r among)
  | inspect r => exact fun w same => shows_lasting r begun w h i call s kept step (post w same)
  | admissionFinished r result => exact fun won => (post won).step
  | gate | cancelUnstarted | start | forget | captureScope | initialCreated | initialExited
  | initialReaped | creatorFinished | observe | reclaim | observationFinish | observationTimedOut
  | observationCeased | cleanupFinish | cleanupTimedOut | cleanupCeased => trivial

/-- What a call relies on at its start, where the callers keep to the rules. -/
def WorkReady (prepares : Nat → Prop) (h : WorkHistory) : WorkCall → Prop
  | .gate r .prepared => MayPrepare prepares r h
  | .creatorFinished r initial scope _ =>
    initial = .absent ∨ scope = .absent → h.state.Stopped r ∨ ¬ prepares r
  | _ => True

/-- The calls of the registry show as stops on every gate. -/
theorem WorkCall.unprepared (registry : ∀ n asked, call ≠ .gate n asked) (r : Nat) :
    call.Unprepared r := by
  cases call with
  | gate n asked => exact absurd rfl (registry n asked)
  | _ => exact fun same => by cases same

theorem work_body_meets (decodes : List UInt8 → Bool) (kept : WorkKept strict prepares works h)
    (call : WorkCall) (ready : strict → WorkReady prepares h call) :
    Works strict prepares works i call (fun reply k => WorkPost h reply k call)
      (call.body decodes i) h := by
  have free (r : Nat) : Free strict prepares works i r h := ⟨kept, by simp⟩
  have calm : (∀ n asked, call ≠ .gate n asked) → ∀ r, call.Unprepared r := WorkCall.unprepared
  have frees {α : Type} {r : Nat} {p : Action α} {wrap : α → WorkReply}
      (frees : Frees strict prepares works i r call p) (easy : ∀ reply k, WorkPost h reply k call) :
      Works strict prepares works i call (fun reply k => WorkPost h reply k call)
        (do let a ← p; pure (wrap a)) h :=
    (frees h (free r)).bind fun _ k _ => easy _ k
  cases call with
  | gate r asked =>
    have own : WorkCall.onGate r (.gate r asked) = asked := if_pos rfl
    have meets : (asked.body i).Meets GateStep (GateKept (works r)) i
        (WorkCall.onGate r (.gate r asked)) (GatePost i asked (gateView r h)) (gateView r h) := by
      rw [own]
      exact body_meets i asked _ (kept.gates r)
    refine meets_bind.mpr ((onGate_meets (free r) (fun rules prepared => ?_) meets).mono
      fun _ _ _ => trivial)
    rw [own] at prepared
    subst prepared
    exact ready rules
  | stop r source =>
    refine (stop_record_meets (free r) (calm (by simp) r) source).bind ?_
    rintro first k ⟨requested, stopped, _⟩
    refine ⟨stopped, fun won => requested ?_⟩
    cases won
    rfl
  | abort r error =>
    refine (abort_meets (free r) (calm (by simp) r) error).bind ?_
    intro first k requested won
    cases won
    exact requested rfl
  | close source table =>
    exact meets_bind.mpr ((close_meets (calm (by simp)) source table).mono
      fun _ _ stopped => stopped)
  | inspect r =>
    refine (snapshot_meets (free r) (calm (by simp) r)).bind ?_
    rintro w k ⟨shows_, _⟩ v same
    cases same
    exact shows_
  | admissionFinished r result =>
    refine (admissionFinished_meets (free r) (calm (by simp) r) result).bind ?_
    rintro accepted k ⟨opened, _⟩ won
    cases won
    exact opened rfl
  | creatorFinished r initial scope error =>
    exact (creatorFinished_meets (free r) (calm (by simp) r) initial scope error
      ready).bind fun _ _ _ => trivial
  | cancelUnstarted r => exact frees (cancelUnstarted_meets (calm (by simp) r)) fun _ _ => trivial
  | start r description stdio available =>
    exact frees (start_meets decodes (calm (by simp) r) description stdio available) fun _ _ => trivial
  | forget r => exact frees (forget_meets (calm (by simp) r)) fun _ _ => trivial
  | captureScope r identity => exact frees (captureScope_meets identity) fun _ _ => trivial
  | initialCreated r => exact frees initialCreated_meets fun _ _ => trivial
  | initialExited r exit =>
    exact frees (initialExited_meets (calm (by simp) r) exit) fun _ _ => trivial
  | initialReaped r => exact frees (initialReaped_meets (calm (by simp) r)) fun _ _ => trivial
  | observe r => exact frees (record_observe_meets (calm (by simp) r)) fun _ _ => trivial
  | reclaim r => exact frees (reclaim_meets (calm (by simp) r)) fun _ _ => trivial
  | observationFinish r sequence _ | observationTimedOut r sequence | observationCeased r sequence =>
    exact frees (withObservation_meets sequence (fun _ => ⟨_, _, _, _, rfl⟩) _) fun _ _ => trivial
  | cleanupFinish r sequence result error =>
    exact frees (cleanupFinish_meets (calm (by simp) r) sequence result error) fun _ _ => trivial
  | cleanupTimedOut r sequence | cleanupCeased r sequence =>
    exact frees (withCleanup_meets sequence fun _ => ⟨_, _, _, rfl⟩) fun _ _ => trivial

end Andrix.Native
