import Andrix.Native.RecordSteps

/-! The parts that the calls on a record are made of. A thread that holds the mutex
knows the metadata from one action to the next; of the gate and of the requests it
knows what nobody takes back. -/
namespace Andrix.Native
open Andrix.Lib Andrix.Lib.Program WorkRecord

variable {strict : Prop} {prepares : Nat → Prop} {works : Nat → WorkIdentity} {i j r : Nat}
  {call : WorkCall} {h k l : WorkHistory} {s : WorkSystem} {known : Option RecordData}
  {d d' : RecordData} {α β : Type}

/-- The program keeps to the steps of the registry and returns with `post`. -/
abbrev Works (strict : Prop) (prepares : Nat → Prop) (works : Nat → WorkIdentity) (i : Nat)
    (call : WorkCall) (post : α → WorkHistory → Prop) (p : Program WorkSystem α) (h : WorkHistory) :
    Prop :=
  p.Meets (WorkStep strict prepares) (WorkKept strict prepares works) i call post h

/-- What a thread knows of a record: its metadata, while it holds the mutex. -/
structure Holding (strict : Prop) (prepares : Nat → Prop) (works : Nat → WorkIdentity) (i r : Nat)
    (known : Option RecordData) (h : WorkHistory) : Prop where
  kept : WorkKept strict prepares works h
  owned : ∀ d, known = some d → (h.state.records r).mutex = some i ∧ (h.state.records r).data = d

/-- What nobody takes back between the two histories. -/
structure Along (r : Nat) (h k : WorkHistory) : Prop where
  flags : h.state.Stopped r → (k.state.gates r).flags = (h.state.gates r).flags
  epoch : h.state.Stopped r → has (h.state.gates r).flags kBound = true →
    (k.state.gates r).epoch = (h.state.gates r).epoch
  requests : ∀ bit, has (h.state.records r).requests bit = true →
    has (k.state.records r).requests bit = true
  complete : (h.state.records r).data.state.complete = true →
    (k.state.records r).data.state.complete = true

theorem Along.refl (r : Nat) (h : WorkHistory) : Along r h h :=
  ⟨fun _ => rfl, fun _ _ => rfl, fun _ => id, id⟩

theorem Along.stopped (along : Along r h k) (stopped : h.state.Stopped r) : k.state.Stopped r := by
  rw [WorkSystem.Stopped, along.flags stopped]
  exact stopped

theorem Along.trans (first : Along r h k) (second : Along r k l) : Along r h l where
  flags := fun stopped => (second.flags (first.stopped stopped)).trans (first.flags stopped)
  epoch := fun stopped bound =>
    (second.epoch (first.stopped stopped) (by rw [first.flags stopped]; exact bound)).trans
      (first.epoch stopped bound)
  requests := fun bit requested => second.requests bit (first.requests bit requested)
  complete := fun complete => second.complete (first.complete complete)

theorem WorkKept.along (kept : WorkKept strict prepares works h)
    (step : WorkStep strict prepares i call h s) (r : Nat) : Along r h (h.step i call s) where
  flags := fun stopped => (kept.stopped_step step stopped).2
  epoch := fun _ bound => (step.gateStep r).keeps_bound bound
  requests := fun _ requested => (step.recordMove r).requests requested
  complete := fun complete => (step.recordMove r).complete complete

theorem Holding.others (holding : Holding strict prepares works i r known h)
    (others : Others (WorkStep strict prepares) i h k) :
    Holding strict prepares works i r known k ∧ Along r h k := by
  refine others.keeps (fun l => Holding strict prepares works i r known l ∧ Along r h l) ?_
    ⟨holding, .refl r h⟩
  rintro l j call s other step ⟨holding, along⟩
  refine ⟨⟨holding.kept.step step, fun d same => ?_⟩, along.trans (holding.kept.along step r)⟩
  obtain ⟨mutex, data⟩ := holding.owned d same
  obtain ⟨still, unchanged⟩ := (step.recordMove r).held mutex other
  exact ⟨still, unchanged.trans data⟩

theorem Holding.step (holding : Holding strict prepares works i r known h)
    (step : WorkStep strict prepares j call h s)
    (same : (s.records r).mutex = (h.state.records r).mutex ∧
      (s.records r).data = (h.state.records r).data) :
    Holding strict prepares works i r known (h.step j call s) ∧ Along r h (h.step j call s) := by
  refine ⟨⟨holding.kept.step step, fun d known => ?_⟩, holding.kept.along step r⟩
  obtain ⟨mutex, data⟩ := holding.owned d known
  exact ⟨same.1.trans mutex, same.2.trans data⟩

theorem WorkStep.reads : WorkStep strict prepares i call h h.state := .registry _ _

/-! ## Reading -/

theorem read_meets (holding : Holding strict prepares works i r known h) {read : WorkSystem → α} :
    Works strict prepares works i call
      (fun a k => a = read k.state ∧ Holding strict prepares works i r known k ∧ Along r h k)
      (.load read) h := by
  refine meets_load.mpr fun k others _ => ?_
  obtain ⟨still, along⟩ := holding.others others
  have step : WorkStep strict prepares i call k k.state := .reads
  obtain ⟨holding', along'⟩ := still.step step ⟨rfl, rfl⟩
  exact ⟨step, rfl, holding', along.trans along'⟩

theorem data_meets (holding : Holding strict prepares works i r (some d) h) :
    Works strict prepares works i call
      (fun a k => a = d ∧ Holding strict prepares works i r (some d) k ∧ Along r h k)
      (data r) h := by
  refine (read_meets holding).mono fun a k ⟨same, still, along⟩ => ?_
  exact ⟨same.trans (still.owned d rfl).2, still, along⟩

/-! ## The gate -/

theorem GateStep.prepared_call {c : GateCall} {g : GateHistory} {t : Shared} (step : GateStep i c g t)
    (bound : g.state.flags = kBound) (prepared : t.flags = kBound ||| kPrepared) : c = .prepared := by
  cases step with
  | prepared _ asked => exact asked
  | read | writeEpoch | writeRelease =>
    rw [bound] at prepared
    exact absurd prepared (by decide)
  | stop =>
    dsimp only at prepared
    rw [bound] at prepared
    exact absurd prepared (by decide)
  | claimBinding | bound | claimPublishing | released | entered =>
    dsimp only at prepared
    exact absurd prepared (by decide)

/-- A program that was verified on the gate alone. -/
theorem onGate_meets {p : Program Shared α} {post : α → GateHistory → Prop}
    (holding : Holding strict prepares works i r known h)
    (may : strict → call.onGate r = .prepared → MayPrepare prepares r h)
    (meets : p.Meets GateStep (GateKept (works r)) i (call.onGate r) post (gateView r h)) :
    Works strict prepares works i call
      (fun a k => post a (gateView r k) ∧ Holding strict prepares works i r known k ∧ Along r h k)
      (onGate r p) h := by
  refine (Program.Meets.zoom
    (fun k : WorkHistory => Holding strict prepares works i r known k ∧ Along r h k ∧
      (strict → call.onGate r = .prepared → MayPrepare prepares r k))
    (fun g s => WorkSystem.setGate_same s r g) (fun k j call s step => step.gateStep r)
    (fun k kept => kept.gates r) ?_ ?_ ⟨holding, .refl r h, may⟩ meets).mono ?_
  · rintro g k others ⟨holding, along, may⟩ _
    obtain ⟨still, moved⟩ := holding.others others
    refine ⟨still, along.trans moved, fun rules prepared => ?_⟩
    obtain ⟨opened, asked⟩ := may rules prepared
    exact ⟨others.keeps (Opened r) (fun _ _ _ _ _ _ opened => opened.step) opened, asked⟩
  · rintro k g kept ⟨holding, along, may⟩ step
    have whole : WorkStep strict prepares i call k (k.state.setGate r g) :=
      .gate r step fun rules bound prepared => may rules (step.prepared_call bound prepared)
    obtain ⟨still, moved⟩ := holding.step whole ⟨rfl, rfl⟩
    refine ⟨whole, still, along.trans moved, fun rules prepared => ?_⟩
    exact ⟨(may rules prepared).1.step, (may rules prepared).2⟩
  · rintro a k ⟨post, still, along, _⟩
    exact ⟨post, still, along⟩

/-- The calls of the registry prepare no gate. -/
def WorkCall.Unprepared (r : Nat) (call : WorkCall) : Prop := call.onGate r ≠ .prepared

theorem stopGate_meets (holding : Holding strict prepares works i r known h)
    (calm : call.Unprepared r) :
    Works strict prepares works i call
      (fun _ k => k.state.Stopped r ∧ Holding strict prepares works i r known k ∧ Along r h k)
      (onGate r WorkAdmission.stop) h :=
  onGate_meets holding (fun _ prepared => absurd prepared calm) (stop_meets _)

/-- A read of the word: of a stopped gate it is the word for good. -/
theorem flags_meets (holding : Holding strict prepares works i r known h)
    (calm : call.Unprepared r) (read : UInt32 → α) :
    Works strict prepares works i call
      (fun a k => (h.state.Stopped r → a = read (h.state.gates r).flags) ∧
        a = read (k.state.gates r).flags ∧ Holding strict prepares works i r known k ∧ Along r h k)
      (onGate r (do let word ← WorkAdmission.flags; pure (read word))) h := by
  have meets : Program.Meets GateStep (GateKept (works r)) i (call.onGate r)
      (fun a g => a = read g.state.flags) (do let word ← WorkAdmission.flags; pure (read word))
      (gateView r h) :=
    meets_bind.mpr (gate_load fun _ _ _ => meets_pure.mpr rfl)
  refine (onGate_meets holding (fun _ prepared => absurd prepared calm) meets).mono ?_
  rintro a k ⟨same, still, along⟩
  refine ⟨fun stopped => ?_, same, still, along⟩
  rw [same, gateView_state, along.flags stopped]

theorem phase_meets (holding : Holding strict prepares works i r known h)
    (calm : call.Unprepared r) :
    Works strict prepares works i call
      (fun phase k => (h.state.Stopped r → phase = phaseOf (h.state.gates r).flags) ∧
        (phase = .stopped → k.state.Stopped r) ∧
        Holding strict prepares works i r known k ∧ Along r h k)
      (onGate r WorkAdmission.phase) h := by
  refine (flags_meets holding calm phaseOf).mono ?_
  rintro phase k ⟨before, same, still, along⟩
  refine ⟨before, fun stopped => ?_, still, along⟩
  rw [same] at stopped
  exact phaseOf_stopped.mp stopped

theorem entered_meets (holding : Holding strict prepares works i r known h)
    (calm : call.Unprepared r) :
    Works strict prepares works i call
      (fun entered k => (h.state.Stopped r → entered = has (h.state.gates r).flags kEntered) ∧
        Holding strict prepares works i r known k ∧ Along r h k)
      (onGate r WorkAdmission.entered) h := by
  refine (flags_meets holding calm (has · kEntered)).mono ?_
  rintro entered k ⟨before, _, still, along⟩
  exact ⟨before, still, along⟩

theorem epoch_meets (holding : Holding strict prepares works i r known h)
    (calm : call.Unprepared r) :
    Works strict prepares works i call
      (fun epoch k => (h.state.Stopped r → epoch =
          if has (h.state.gates r).flags kBound then some (h.state.gates r).epoch else none) ∧
        Holding strict prepares works i r known k ∧ Along r h k)
      (onGate r WorkAdmission.epoch) h := by
  suffices meets : WorkAdmission.epoch.Meets GateStep (GateKept (works r)) i (call.onGate r)
      (fun epoch _ => h.state.Stopped r → epoch =
        if has (h.state.gates r).flags kBound then some (h.state.gates r).epoch else none)
      (gateView r h) from
    onGate_meets holding (fun _ prepared => absurd prepared calm) meets
  refine meets_bind.mpr (gate_load fun g kept others => ?_)
  have began := holding.kept.gates r
  -- Of a stopped gate the word that was read is the word at the start.
  have word (stopped : h.state.Stopped r) : g.state.flags = (h.state.gates r).flags := by
    refine (others.keeps_kept (GateKept (works r)) (fun _ _ _ _ kept step => kept.step step) began
      (fun l => l.state.flags = (h.state.gates r).flags) ?_ rfl).2
    intro l j c t _ kept step same
    refine (step.frozen kept.word ?_).trans same
    rw [same]
    exact stopped
  refine meets_ite (fun unbound stopped => ?_) fun bound => ?_
  · rw [word stopped] at unbound
    rw [if_neg (by simpa using unbound)]
  have isBound : has g.state.flags kBound = true := by simpa using bound
  refine (readEpoch_meets (kept.step .read) isBound).bind ?_
  rintro epoch m ⟨rfl, _, _⟩ stopped
  have bound' : has (h.state.gates r).flags kBound = true := by
    rw [← word stopped]
    exact isBound
  have published := ((Published.refl (gateView r h)).others began others).bound bound'
  rw [if_pos bound']
  exact congrArg some published.2

/-! ## Stop requests -/

theorem request_meets (holding : Holding strict prepares works i r known h) (source : WorkStopSource) :
    Works strict prepares works i call
      (fun first k => (first = true → has (k.state.records r).requests source.bit = true) ∧
        Holding strict prepares works i r known k ∧ Along r h k)
      (request r source) h := by
  refine meets_atomic.mpr fun k others _ => ?_
  obtain ⟨still, along⟩ := holding.others others
  by_cases late : (has (k.state.records r).requests kComplete ||
      has (k.state.records r).requests source.bit) = true
  · simp only [if_pos late]
    have step : WorkStep strict prepares i call k k.state := .reads
    obtain ⟨holding', along'⟩ := still.step step ⟨rfl, rfl⟩
    exact ⟨step, by simp, holding', along.trans along'⟩
  simp only [if_neg late]
  have incomplete : has (k.state.records r).requests kComplete = false := by
    simp only [Bool.or_eq_true, not_or, Bool.not_eq_true] at late
    exact late.1
  have step : WorkStep strict prepares i call k (k.state.setRecord r
      { k.state.records r with requests := (k.state.records r).requests ||| source.bit }) :=
    .record r (.request source incomplete) rfl
  obtain ⟨holding', along'⟩ := still.step step (by simp)
  have own : has source.bit source.bit = true := by cases source <;> decide
  refine ⟨step, fun _ => ?_, holding', along.trans along'⟩
  simp [has_or, own]

theorem stop_record_meets (holding : Holding strict prepares works i r known h)
    (calm : call.Unprepared r) (source : WorkStopSource) :
    Works strict prepares works i call
      (fun first k => (first = true → has (k.state.records r).requests source.bit = true) ∧
        k.state.Stopped r ∧ Holding strict prepares works i r known k ∧ Along r h k)
      (stop r source) h := by
  refine (request_meets holding source).bind ?_
  rintro first k ⟨requested, still, along⟩
  refine (stopGate_meets still calm).bind ?_
  rintro _ l ⟨stopped, still', along'⟩
  exact ⟨fun won => along'.requests _ (requested won), stopped, still', along.trans along'⟩

/-! ## The metadata -/

/-- The thread that holds the mutex after its own step on the record. -/
theorem Holding.own_step (holding : Holding strict prepares works i r (some d) h)
    (step : WorkStep strict prepares i call h s)
    (left : (s.records r).mutex = some i ∧ (s.records r).data = d') :
    Holding strict prepares works i r (some d') (h.step i call s) ∧ Along r h (h.step i call s) := by
  refine ⟨⟨holding.kept.step step, fun e same => ?_⟩, holding.kept.along step r⟩
  cases same
  exact left

theorem modify_record_meets (holding : Holding strict prepares works i r (some d) h)
    {change : RecordData → RecordData}
    (edit : ∀ k, Holding strict prepares works i r (some d) k → Along r h k →
      Edit strict prepares r k d (change d)) :
    Works strict prepares works i call
      (fun _ k => Holding strict prepares works i r (some (change d)) k ∧ Along r h k)
      (modify r change) h := by
  refine meets_store.mpr fun k others _ => ?_
  obtain ⟨still, along⟩ := holding.others others
  obtain ⟨mutex, data⟩ := still.owned d rfl
  have move : RecordMove strict prepares i r k (k.state.records r)
      { k.state.records r with data := change (k.state.records r).data } := by
    refine .modify _ mutex ?_
    rw [data]
    exact edit k still along
  have step : WorkStep strict prepares i call k
      (k.state.setData r (change (k.state.records r).data)) := by
    refine .record r move ?_
    rw [data]
    exact (edit k still along).charged
  have left : ((k.state.setData r (change (k.state.records r).data)).records r).mutex = some i ∧
      ((k.state.setData r (change (k.state.records r).data)).records r).data = change d := by
    simp [WorkSystem.setData, mutex, data]
  obtain ⟨holding', along'⟩ := still.own_step step left
  exact ⟨step, holding', along.trans along'⟩

/-- An edit that makes nothing absent and admits no creator. -/
theorem Holding.edit (holding : Holding strict prepares works i r (some d) h)
    (incomplete : d.state.complete = false) (complete : d'.state.complete = d.state.complete)
    (charged : d'.creatorCharged = d.creatorCharged)
    (creator : d'.state.creatorPending = true → d.state.creatorPending = true)
    (requested : d.state.initial ≠ .notRequested → d'.state.initial ≠ .notRequested)
    (initial : d'.state.initial = .absent → d.state.initial = .absent)
    (scope : d'.state.scope = .absent → d.state.scope = .absent) : Edit strict prepares r h d d' where
  complete := complete
  frozen := fun complete => by
    rw [incomplete] at complete
    cases complete
  charged := charged
  creator := fun pending => .inl (creator pending)
  requested := requested
  absent := by
    intro rules absent
    have data := (holding.owned d rfl).2
    refine (holding.kept.records r).absent rules ?_
    rw [data]
    exact absent.imp initial scope

/-- Nobody enters through a gate that must not be prepared. -/
theorem WorkKept.barred (kept : WorkKept strict prepares works h) (rules : strict)
    (unprepared : ¬ MayPrepare prepares r h) : Barred prepares r h := by
  refine ⟨?_, .inr unprepared⟩
  by_contra entered
  have prepared : ∀ word ∈ gateWords, has word kEntered = true → has word kPrepared = true :=
    List.all_iff_forall_prop.mp (by decide)
  exact unprepared ((kept.records r).prepared rules
    (prepared _ (kept.gates r).word (by simpa using entered)))

/-- The resources of a record that was never opened may become absent. -/
theorem Holding.absent_edit (holding : Holding strict prepares works i r (some d) h)
    (incomplete : d.state.complete = false) (unrequested : d.state.initial = .notRequested)
    (complete : d'.state.complete = d.state.complete)
    (charged : d'.creatorCharged = d.creatorCharged)
    (creator : d'.state.creatorPending = true → d.state.creatorPending = true) :
    Edit strict prepares r h d d' where
  complete := complete
  frozen := fun complete => by
    rw [incomplete] at complete
    cases complete
  charged := charged
  creator := fun pending => .inl (creator pending)
  requested := fun requested => absurd unrequested requested
  absent := by
    intro rules _
    refine holding.kept.barred rules fun may => ?_
    refine (holding.kept.records r).requested may.1 ?_
    rw [(holding.owned d rfl).2]
    exact unrequested

/-! ## The budget -/

theorem acquireCreator_meets (holding : Holding strict prepares works i r (some d) h)
    (incomplete : d.state.complete = false) (free : d.creatorCharged = false) :
    Works strict prepares works i call
      (fun acquired k => Holding strict prepares works i r
        (some { d with creatorCharged := acquired }) k ∧ Along r h k)
      (acquireCreator r) h := by
  refine meets_atomic.mpr fun k others _ => ?_
  obtain ⟨still, along⟩ := holding.others others
  obtain ⟨mutex, data⟩ := still.owned d rfl
  by_cases room : k.state.used < k.state.maximum
  · simp only [if_pos room]
    have step : WorkStep strict prepares i call k ((k.state.setUsed (k.state.used + 1)).setData r
        { (k.state.records r).data with creatorCharged := true }) := by
      refine .acquire r (.charge true mutex ?_) ?_ rfl room
      · rw [data]
        exact incomplete
      · rw [data]
        exact free
    obtain ⟨holding', along'⟩ := still.own_step step
      ⟨by simp [WorkSystem.setData, mutex], by rw [WorkSystem.setData, WorkSystem.setRecord_same, data]⟩
    exact ⟨step, holding', along.trans along'⟩
  · simp only [if_neg room]
    have step : WorkStep strict prepares i call k k.state := .reads
    obtain ⟨holding', along'⟩ := still.own_step step ⟨mutex, data⟩
    refine ⟨step, ?_, along.trans along'⟩
    rw [← free]
    exact holding'

theorem releaseCreator_meets (holding : Holding strict prepares works i r (some d) h)
    (incomplete : d.state.complete = false) :
    Works strict prepares works i call
      (fun _ k => Holding strict prepares works i r
        (some { d with creatorCharged := false }) k ∧ Along r h k)
      (releaseCreator r) h := by
  refine meets_store.mpr fun k others _ => ?_
  obtain ⟨still, along⟩ := holding.others others
  obtain ⟨mutex, data⟩ := still.owned d rfl
  by_cases charged : (k.state.records r).data.creatorCharged = true
  · simp only [if_pos charged]
    have step : WorkStep strict prepares i call k ((k.state.setUsed (k.state.used - 1)).setData r
        { (k.state.records r).data with creatorCharged := false }) := by
      refine .release r (.charge false mutex ?_) charged rfl
      rw [data]
      exact incomplete
    obtain ⟨holding', along'⟩ := still.own_step step
      ⟨by simp [WorkSystem.setData, mutex], by rw [WorkSystem.setData, WorkSystem.setRecord_same, data]⟩
    exact ⟨step, holding', along.trans along'⟩
  · simp only [if_neg charged]
    have free : d.creatorCharged = false := by
      rw [← data]
      simpa using charged
    have step : WorkStep strict prepares i call k k.state := .reads
    obtain ⟨holding', along'⟩ := still.own_step step ⟨mutex, data⟩
    refine ⟨step, ?_, along.trans along'⟩
    rw [← free]
    exact holding'

/-! ## Settling -/

theorem RecordData.Done.coherent (done : d.Done) (complete : d.state.complete = true) :
    d.Coherent where
  charged := by rw [done.charge, done.admission, done.creator]; rfl
  unstarted := by
    intro _
    refine ⟨done.admission, done.creator, done.observation, done.cleanup, done.fault, ?_⟩
    intro incomplete
    rw [complete] at incomplete
    cases incomplete
  admission := by
    intro pending
    rw [done.admission] at pending
    cases pending
  observing := fun pending => absurd done.observation pending
  cleaning := fun pending => absurd done.cleanup pending

/-- The section of a call on the record may end here: the metadata is coherent, and it
is what it was or complete. -/
def Settles (strict : Prop) (prepares : Nat → Prop) (works : Nat → WorkIdentity) (i r : Nat)
    (d : RecordData) (h k : WorkHistory) : Prop :=
  ∃ d', Holding strict prepares works i r (some d') k ∧ d'.Coherent ∧
    (d' = d ∨ d'.state.complete = true) ∧ Along r h k

theorem settle_meets (holding : Holding strict prepares works i r (some d) h)
    (calm : call.Unprepared r) (incomplete : d.state.complete = false) (done : d.Done) :
    Works strict prepares works i call
      (fun _ k => ∃ d', Holding strict prepares works i r (some d') k ∧ d'.Coherent ∧
        d'.state.complete = true ∧ Along r h k) (settle r) h := by
  refine (stopGate_meets holding calm).bind ?_
  rintro _ l ⟨stopped, holding, before⟩
  refine meets_store.mpr fun k others _ => ?_
  obtain ⟨still, along⟩ := holding.others others
  obtain ⟨mutex, data⟩ := still.owned d rfl
  have move : RecordMove strict prepares i r k (k.state.records r) (k.state.records r).settled :=
    .settle mutex (data ▸ incomplete) (data ▸ done) (along.stopped stopped)
  have step : WorkStep strict prepares i call k (k.state.setRecord r (k.state.records r).settled) :=
    .record r move rfl
  obtain ⟨holding', along'⟩ := still.own_step step
    ⟨by rw [WorkSystem.setRecord_same]; exact mutex, rfl⟩
  have complete : ((k.state.setRecord r (k.state.records r).settled).records r).data.state.complete =
      true := by
    rw [WorkSystem.setRecord_same]
    rfl
  have done' := ((holding'.kept.records r).done complete).1
  exact ⟨step, _, holding', done'.coherent complete, complete, before.trans (along.trans along')⟩

theorem settlesAbsentScope_done (coherent : d.Coherent) (settles : d.settlesAbsentScope = true) :
    d.state.complete = false ∧ d.Done := by
  simp only [RecordData.settlesAbsentScope, RecordData.boundaryClosed, RecordData.initialAccounted,
    Bool.and_eq_true, Bool.or_eq_true, Bool.not_eq_true', decide_eq_true_eq] at settles
  obtain ⟨⟨⟨⟨⟨fault, ⟨⟨_, admission⟩, creator⟩, initial⟩, scope⟩, observation⟩, cleanup⟩,
    incomplete⟩ := settles
  refine ⟨incomplete, admission, creator, observation, cleanup, initial, .inl scope, fault, ?_⟩
  rw [coherent.charged, admission, creator]
  rfl

theorem settleAbsentScope_meets (holding : Holding strict prepares works i r (some d) h)
    (calm : call.Unprepared r) (coherent : d.Coherent) :
    Works strict prepares works i call
      (fun _ k => Settles strict prepares works i r d h k) (settleAbsentScope r) h := by
  refine (data_meets holding).bind ?_
  rintro _ k ⟨rfl, still, along⟩
  refine meets_ite (fun settles => ?_) fun _ => ⟨_, still, coherent, .inl rfl, along⟩
  obtain ⟨incomplete, done⟩ := settlesAbsentScope_done coherent settles
  refine (settle_meets still calm incomplete done).mono ?_
  rintro _ l ⟨d', holding', coherent', complete, along'⟩
  exact ⟨d', holding', coherent', .inr complete, along.trans along'⟩

theorem settleUnstarted_meets (holding : Holding strict prepares works i r (some d) h)
    (calm : call.Unprepared r) (coherent : d.Coherent) :
    Works strict prepares works i call
      (fun _ k => Settles strict prepares works i r d h k) (settleUnstarted r) h := by
  refine (data_meets holding).bind ?_
  rintro _ k ⟨rfl, still, along⟩
  refine meets_ite (fun _ => ⟨_, still, coherent, .inl rfl, along⟩) fun unstarted => ?_
  simp only [Bool.or_eq_true, not_or, Bool.not_eq_true] at unstarted
  obtain ⟨started, incomplete⟩ := unstarted
  obtain ⟨admission, creator, observation, cleanup, fault, unrequested⟩ := coherent.unstarted started
  refine (phase_meets still calm).bind ?_
  rintro phase l ⟨_, _, still₁, along₁⟩
  refine meets_ite (fun _ => ⟨_, still₁, coherent, .inl rfl, along.trans along₁⟩) fun _ => ?_
  refine (modify_record_meets still₁ fun m held _ =>
    held.absent_edit incomplete (unrequested incomplete) rfl rfl id).bind ?_
  rintro _ m ⟨still₂, along₂⟩
  refine (settle_meets still₂ calm incomplete ?_).mono ?_
  · refine ⟨admission, creator, observation, cleanup, .inl rfl, .inl rfl, fault, ?_⟩
    dsimp only
    rw [coherent.charged, admission, creator]
    rfl
  · rintro _ n ⟨d', holding', coherent', complete, along₃⟩
    exact ⟨d', holding', coherent', .inr complete, along.trans (along₁.trans (along₂.trans along₃))⟩

/-! ## Sections under the mutex -/

/-- The section of a call may end here. -/
def Closes (strict : Prop) (prepares : Nat → Prop) (works : Nat → WorkIdentity) (i r : Nat)
    (h : WorkHistory) : Prop :=
  ∃ d, Holding strict prepares works i r (some d) h ∧ d.Coherent

theorem Settles.closes (settles : Settles strict prepares works i r d h k) :
    Closes strict prepares works i r k := by
  obtain ⟨d', holding, coherent, _⟩ := settles
  exact ⟨d', holding, coherent⟩

/-- What every later step keeps. -/
def Lasting (strict : Prop) (prepares : Nat → Prop) (works : Nat → WorkIdentity)
    (q : WorkHistory → Prop) : Prop :=
  ∀ h i call s, WorkKept strict prepares works h → WorkStep strict prepares i call h s → q h →
    q (h.step i call s)

theorem Lasting.others {q : WorkHistory → Prop} (lasting : Lasting strict prepares works q)
    (kept : WorkKept strict prepares works h) (others : Others (WorkStep strict prepares) i h k)
    (holds : q h) : q k :=
  (others.keeps_kept (WorkKept strict prepares works) (fun _ _ _ _ kept step => kept.step step) kept q
    (fun l j call s _ kept step => lasting l j call s kept step) holds).2

theorem WorkKept.reached (kept : WorkKept strict prepares works h)
    (reaches : Reaches (WorkStep strict prepares) h k) : WorkKept strict prepares works k :=
  reaches.keeps (WorkKept strict prepares works) (fun _ _ _ _ step kept => kept.step step) kept

theorem Lasting.reached {q : WorkHistory → Prop} (lasting : Lasting strict prepares works q)
    (kept : WorkKept strict prepares works h) (reaches : Reaches (WorkStep strict prepares) h k)
    (holds : q h) : q k := by
  refine (reaches.keeps (fun l => WorkKept strict prepares works l ∧ q l) ?_ ⟨kept, holds⟩).2
  rintro l j call s step ⟨kept, holds⟩
  exact ⟨kept.step step, lasting l j call s kept step holds⟩

theorem record_locked_meets {p : Action α} {post : α → WorkHistory → Prop}
    (holding : Holding strict prepares works i r none h)
    (lasting : ∀ a, Lasting strict prepares works (post a))
    (runs : ∀ k d, Holding strict prepares works i r (some d) k → d.Coherent → Along r h k →
      Works strict prepares works i call
        (fun a l => Closes strict prepares works i r l ∧ post a l) p k) :
    Works strict prepares works i call
      (fun a k => post a k ∧ Holding strict prepares works i r none k) (locked i r p) h := by
  refine meets_bind.mpr (meets_await.mpr fun k others kept free => ?_)
  obtain ⟨still, along⟩ := holding.others others
  have mutex : (k.state.records r).mutex = none := by simpa using free
  have step : WorkStep strict prepares i call k
      (k.state.setRecord r { k.state.records r with mutex := some i }) := .record r (.lock mutex) rfl
  have held : Holding strict prepares works i r (some (k.state.records r).data)
      (k.step i call (k.state.setRecord r { k.state.records r with mutex := some i })) := by
    refine ⟨kept.step step, fun d same => ?_⟩
    cases same
    exact ⟨by simp, by simp⟩
  refine ⟨step, meets_bind.mpr ?_⟩
  refine (runs _ _ held ((kept.records r).coherent mutex) (along.trans (kept.along step r))).mono ?_
  rintro a l ⟨⟨d, holding, coherent⟩, holds⟩
  refine meets_bind.mpr (meets_store.mpr fun m others kept => ?_)
  have after := lasting a |>.others holding.kept others holds
  obtain ⟨owned, data⟩ := (holding.others others).1.owned d rfl
  have release : WorkStep strict prepares i call m
      (m.state.setRecord r { m.state.records r with mutex := none }) :=
    .record r (.unlock owned (data ▸ coherent)) rfl
  exact ⟨release, lasting a _ _ _ _ kept release after, kept.step release, by simp⟩

/-- A section whose call promises nothing more. -/
theorem section_meets {p : Action α} (holding : Holding strict prepares works i r none h)
    (runs : ∀ k d, Holding strict prepares works i r (some d) k → d.Coherent → Along r h k →
      Works strict prepares works i call (fun _ l => Closes strict prepares works i r l) p k) :
    Works strict prepares works i call
      (fun _ k => Holding strict prepares works i r none k) (locked i r p) h := by
  have both : Works strict prepares works i call
      (fun _ k => True ∧ Holding strict prepares works i r none k) (locked i r p) h := by
    refine record_locked_meets holding (fun _ _ _ _ _ _ _ _ => trivial) fun k d held coherent along => ?_
    exact (runs k d held coherent along).mono fun _ _ closes => ⟨closes, trivial⟩
  exact both.mono fun _ _ met => met.2

/-- The next number of an operation, or a permanent fault. -/
theorem issue_meets (holding : Holding strict prepares works i r (some d) h)
    (calm : call.Unprepared r) (incomplete : d.state.complete = false) :
    Works strict prepares works i call
      (fun sequence k => (sequence = 0 ∧ ∃ fault, Holding strict prepares works i r
          (some { d with
            permanentFault := true
            state := { d.state with fault := fault, blocked := true } }) k) ∨
        Holding strict prepares works i r (some { d with sequence := sequence }) k)
      (issue r) h := by
  refine (data_meets holding).bind ?_
  rintro _ k ⟨rfl, still, along⟩
  refine (read_meets still).bind ?_
  rintro limit l ⟨_, still₁, along₁⟩
  refine meets_ite (fun exhausted => ?_) fun _ => ?_
  · refine (modify_record_meets still₁ fun m held _ =>
      held.edit incomplete rfl rfl id id id id).bind ?_
    rintro _ m ⟨still₂, along₂⟩
    refine (stop_record_meets still₂ calm _).bind ?_
    rintro _ n ⟨_, _, still₃, _⟩
    exact .inl ⟨rfl, _, still₃⟩
  · refine (modify_record_meets still₁ fun m held _ =>
      held.edit incomplete rfl rfl id id id id).bind ?_
    rintro _ m ⟨still₂, _⟩
    exact .inr still₂

end Andrix.Native
