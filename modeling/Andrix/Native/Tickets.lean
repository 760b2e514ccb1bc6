import Andrix.Lib.Alone
import Andrix.Native.RecordSteps

/-! What one call does to the tickets of a record. A record's metadata changes
only under its mutex, so the calls on a record follow one another, and each is told
by what it does alone. The calls that issue or return tickets are told in full; of
the others only that they leave the tickets alone, and that they leave a record
alone whose boundary is closed. -/
namespace Andrix.Native
open Andrix.Lib Andrix.Lib.Program WorkRecord WorkSystem

/-! ## Programs that touch one record -/

def RecordData.tickets (d : RecordData) : UInt64 × UInt64 × UInt64 × Bool × WorkPopulation :=
  (d.sequence, d.observation, d.cleanup, d.observationInvalid, d.state.population)

/-- Nothing but the record is touched, apart from gates and the budget, and neither its
mutex nor its limit. -/
structure Frame (r : Nat) (s t : WorkSystem) : Prop where
  mutex : t.mutex = s.mutex
  others : ∀ n, n ≠ r → t.records n = s.records n
  held : (t.records r).mutex = (s.records r).mutex
  limit : (t.records r).operationLimit = (s.records r).operationLimit

theorem Frame.refl (r : Nat) (s : WorkSystem) : Frame r s s := ⟨rfl, fun _ _ => rfl, rfl, rfl⟩

theorem Frame.trans {r : Nat} {s t u : WorkSystem} (first : Frame r s t) (then_ : Frame r t u) :
    Frame r s u where
  mutex := then_.mutex.trans first.mutex
  others := fun n other => (then_.others n other).trans (first.others n other)
  held := then_.held.trans first.held
  limit := then_.limit.trans first.limit

/-- Only the record is touched, and it keeps this part of its metadata. -/
structure KeepsPart {β : Type} (part : RecordData → β) (r : Nat) (s t : WorkSystem) : Prop where
  frame : Frame r s t
  same : part (t.records r).data = part (s.records r).data

abbrev Touching {α : Type} (r : Nat) (p : Action α) : Prop := Program.Within (KeepsPart RecordData.tickets r) p

/-- The program leaves the metadata of the record alone. -/
abbrev Staying {α : Type} (r : Nat) (p : Action α) : Prop := Program.Within (KeepsPart id r) p

section KeepsPart
variable {α β : Type} {part : RecordData → β} {r : Nat} {s : WorkSystem}

instance : Std.Refl (KeepsPart part r) := ⟨fun s => ⟨.refl r s, rfl⟩⟩

instance : IsTrans WorkSystem (KeepsPart part r) where
  trans _ _ _ first then_ := ⟨first.frame.trans then_.frame, then_.same.trans first.same⟩

theorem Staying.touching {p : Action α} (staying : Staying r p) : Touching r p :=
  staying.mono fun _ _ kept => ⟨kept.frame, congrArg RecordData.tickets kept.same⟩

theorem frame_setRecord {record : Record} (held : record.mutex = (s.records r).mutex)
    (limit : record.operationLimit = (s.records r).operationLimit) : Frame r s (s.setRecord r record) where
  mutex := rfl
  others := fun n other => s.setRecord_other r record other
  held := by rw [setRecord_same, held]
  limit := by rw [setRecord_same, limit]

theorem frame_setData (d : RecordData) : Frame r s (s.setData r d) := frame_setRecord rfl rfl

theorem keeps_setRecord {record : Record} (held : record.mutex = (s.records r).mutex)
    (limit : record.operationLimit = (s.records r).operationLimit)
    (same : part record.data = part (s.records r).data) : KeepsPart part r s (s.setRecord r record) :=
  ⟨frame_setRecord held limit, by rwa [setRecord_same]⟩

theorem keeps_setUsed {used : Nat} : KeepsPart part r s (s.setUsed used) :=
  ⟨⟨rfl, fun _ _ => rfl, rfl, rfl⟩, rfl⟩

theorem touching_modify {change : RecordData → RecordData}
    (same : ∀ d, (change d).tickets = d.tickets) : Touching r (modify r change) :=
  within_store fun _ => keeps_setRecord rfl rfl (same _)

theorem ends_onGate {p : Program Shared α} {post : α → WorkSystem → Prop} :
    Ends (onGate r p) s post ↔ Ends p (s.gates r) fun a g => post a (s.setGate r g) := by
  refine ends_zoom (fun g t => t.setGate_same r g) (fun t => t.setGate_self r) fun g g' t => ?_
  simp only [setGate, mk.injEq, true_and]
  funext n
  split <;> rfl

/-- A program on the gate that always ends touches no record. -/
theorem staying_onGate {p : Program Shared α} (ends : ∀ g, Ends p g fun _ _ => True) :
    Staying r (onGate r p) := by
  intro s
  apply ends_onGate.mpr
  exact (ends _).imp fun _ _ _ => ⟨⟨rfl, fun _ _ => rfl, rfl, rfl⟩, rfl⟩

end KeepsPart

/-! ## The pieces of the calls -/

section Pieces
variable {r : Nat}

theorem staying_phase : Staying r (onGate r WorkAdmission.phase) :=
  staying_onGate fun _ => by simp [WorkAdmission.phase, WorkAdmission.flags]

theorem staying_entered : Staying r (onGate r WorkAdmission.entered) :=
  staying_onGate fun _ => by simp [WorkAdmission.entered, WorkAdmission.flags]

theorem staying_epoch : Staying r (onGate r WorkAdmission.epoch) :=
  staying_onGate fun _ => by
    simp only [WorkAdmission.epoch, WorkAdmission.flags, WorkAdmission.readEpoch, ends_bind, ends_load,
      ends_ite, ends_pure, ite_self]

theorem staying_gateStop : Staying r (onGate r WorkAdmission.stop) :=
  staying_onGate fun _ => by simp [WorkAdmission.stop]

theorem staying_gateCall {thread : Nat} (call : GateCall) : Staying r (onGate r (call.body thread)) := by
  apply staying_onGate
  intro g
  cases call <;>
    simp only [GateCall.body, WorkAdmission.bind, WorkAdmission.prepared, WorkAdmission.publish,
      WorkAdmission.stop, WorkAdmission.claimEntry, WorkAdmission.compareExchange, WorkAdmission.flags,
      WorkAdmission.readEpoch, ends_bind, ends_atomic, ends_load, ends_store, ends_pure, ends_ite,
      ite_self]

theorem staying_stop (source : WorkStopSource) : Staying r (stop r source) := by
  refine within_bind (within_atomic fun s => ?_) fun _ =>
    within_bind staying_gateStop fun _ => within_pure _
  dsimp only
  split
  · exact Std.Refl.refl s
  · exact keeps_setRecord rfl rfl rfl

theorem touching_releaseCreator : Touching r (releaseCreator r) := by
  apply within_store
  intro s
  split
  · exact IsTrans.trans _ _ _ keeps_setUsed (keeps_setRecord rfl rfl rfl)
  · exact Std.Refl.refl s

theorem touching_acquireCreator : Touching r (acquireCreator r) := by
  apply within_atomic
  intro s
  split
  · exact IsTrans.trans _ _ _ keeps_setUsed (keeps_setRecord rfl rfl rfl)
  · exact Std.Refl.refl s

theorem touching_settle : Touching r (settle r) :=
  within_bind staying_gateStop.touching fun _ =>
    within_store fun _ => keeps_setRecord rfl rfl rfl

theorem touching_data : Touching r (data r) := within_load

theorem touching_settleAbsentScope : Touching r (settleAbsentScope r) :=
  within_bind touching_data fun _ => within_ite touching_settle (within_pure _)

theorem touching_settleUnstarted : Touching r (settleUnstarted r) :=
  within_bind touching_data fun _ => within_ite (within_pure _) <|
    within_bind staying_phase.touching fun _ => within_ite (within_pure _) <|
      within_bind (touching_modify fun _ => rfl) fun _ => touching_settle

theorem touching_quarantineIf (condition : Bool) : Touching r (quarantineIf r condition) :=
  within_ite
    (within_bind (touching_modify fun _ => rfl) fun _ =>
      within_bind (staying_stop _).touching fun _ => within_pure _)
    (within_pure _)

theorem touching_closeAbsent : Touching r (closeAbsent r) :=
  within_bind touching_data fun _ =>
    within_ite (within_bind staying_gateStop.touching fun _ => within_pure _) (within_pure _)

theorem touching_startLocked (description : List UInt8) (stdio : WorkIoBinding) (available : Bool) :
    Touching r (startLocked r description stdio available) :=
  within_bind touching_data fun _ => within_ite (within_pure _) <|
    within_ite (within_pure _) <| within_bind touching_settleUnstarted fun _ =>
      within_bind touching_data fun _ => within_bind within_load fun _ =>
        within_bind staying_phase.touching fun _ => within_ite (within_pure _) <|
          within_bind staying_phase.touching fun _ => within_ite (within_pure _) <|
            within_bind touching_acquireCreator fun _ => within_ite (within_pure _) <|
              within_bind (touching_modify fun _ => rfl) fun _ => within_pure _

end Pieces

/-! ## What a call does -/

/-- What a call without tickets does to a record: the tickets stay, and where the
boundary is closed so does everything that a ticket can change. -/
structure RecordData.Calm (d d' : RecordData) : Prop where
  steady : d'.tickets = d.tickets
  closed : d.boundaryClosed = true → d'.boundaryClosed = true ∧
    d'.permanentFault = d.permanentFault ∧ d'.state.fault = d.state.fault ∧
    d'.state.blocked = d.state.blocked ∧ d'.state.complete = d.state.complete

theorem RecordData.Calm.of_eq {d d' : RecordData} (same : d' = d) : d.Calm d' := by
  subst same
  exact ⟨rfl, fun closed => ⟨closed, rfl, rfl, rfl, rfl⟩⟩

/-- Whether the call issues a ticket of the record or brings one back. -/
def WorkCall.onTickets (r : Nat) : WorkCall → Bool
  | .observe n | .reclaim n | .observationFinish n _ _ | .observationTimedOut n _
  | .observationCeased n _ | .cleanupFinish n _ _ _ | .cleanupTimedOut n _ | .cleanupCeased n _ => n = r
  | _ => false

/-- Whether the call brings back a ticket of the record. -/
def WorkCall.brings (r : Nat) : WorkCall → Bool
  | .observationFinish n _ _ | .observationTimedOut n _ | .observationCeased n _
  | .cleanupFinish n _ _ _ | .cleanupTimedOut n _ | .cleanupCeased n _ => n = r
  | _ => false

/-- The call brings back the outstanding observation. -/
def RecordData.Awaits (d : RecordData) : WorkCall → Prop
  | .observationFinish _ n _ | .observationTimedOut _ n | .observationCeased _ n =>
    n ≠ 0 ∧ d.observation = n
  | _ => False

/-- A record that can issue a ticket. -/
structure RecordData.Issuing (d : RecordData) : Prop where
  incomplete : d.state.complete = false
  sound : d.permanentFault = false
  closed : d.boundaryClosed = true
  captured : d.state.scope = .captured
  unobserved : d.observation = 0
  uncleaned : d.cleanup = 0

/-- A record whose scope can be reclaimed. -/
structure RecordData.Reclaimable (d : RecordData) (stopped : Bool) : Prop extends d.Issuing where
  empty : d.state.population = .empty
  stopped : stopped = true

/-- The record after its numbers have run out. -/
def RecordData.exhausted (d : RecordData) : RecordData :=
  { d with
    permanentFault := true
    state :=
      { d.state with
        fault := if d.state.fault = .none then .sequenceExhausted else d.state.fault
        blocked := true } }

/-- What one call does to a record, with its operation limit and whether its gate
is stopped. -/
inductive TicketMove (r : Nat) (d : RecordData) (limit : UInt64) (stopped : Bool) :
    WorkCall → WorkReply → RecordData → Prop
  | calm {call reply d'} : call.onTickets r = false → d.Calm d' →
    TicketMove r d limit stopped call reply d'
  | unobservable : ¬ d.Issuing → TicketMove r d limit stopped (.observe r) (.ticket none) d
  | unreclaimable : ¬ d.Reclaimable stopped →
    TicketMove r d limit stopped (.reclaim r) (.ticket none) d
  | rejected {call} : call.brings r = true → ¬ d.Awaits call →
    TicketMove r d limit stopped call (.flag false) d
  | exhausts {call} : (call = .observe r ∧ d.Issuing) ∨ (call = .reclaim r ∧ d.Reclaimable stopped) →
    limit ≤ d.sequence → TicketMove r d limit stopped call (.ticket none) d.exhausted
  | observes : d.Issuing → d.sequence < limit →
    TicketMove r d limit stopped (.observe r) (.ticket (some (d.sequence + 1)))
      { d with
        sequence := d.sequence + 1
        observation := d.sequence + 1
        observationInvalid := false
        state := { d.state with population := .unknown } }
  | reclaims : d.Reclaimable stopped → d.sequence < limit →
    TicketMove r d limit stopped (.reclaim r) (.ticket (some (d.sequence + 1)))
      { d with sequence := d.sequence + 1, cleanup := d.sequence + 1 }
  | finishes (population : WorkPopulation) : d.observation ≠ 0 →
    TicketMove r d limit stopped (.observationFinish r d.observation population)
      (.flag (!d.observationInvalid))
      { d with
        observation := 0
        observationInvalid := false
        state :=
          { d.state with
            population := if d.observationInvalid then .unknown else population
            blocked := if d.observationInvalid then d.state.blocked else false } }
  | timesOut : d.observation ≠ 0 →
    TicketMove r d limit stopped (.observationTimedOut r d.observation) (.flag true)
      { d with
        observationInvalid := true
        state := { d.state with population := .unknown, blocked := true } }
  | ceases : d.observation ≠ 0 →
    TicketMove r d limit stopped (.observationCeased r d.observation) (.flag true)
      { d with
        observation := 0
        observationInvalid := false
        state := { d.state with population := .unknown } }
  | cleans {d'} (result : WorkCleanupResult) (error : Int) : d.cleanup ≠ 0 →
    d'.tickets = (d.sequence, d.observation, 0, d.observationInvalid,
      if result = .failed then .unknown else d.state.population) →
    TicketMove r d limit stopped (.cleanupFinish r d.cleanup result error) (.flag true) d'
  | cleanupTimesOut : d.cleanup ≠ 0 →
    TicketMove r d limit stopped (.cleanupTimedOut r d.cleanup) (.flag true)
      { d with state := { d.state with blocked := true } }
  | cleanupCeases : d.cleanup ≠ 0 →
    TicketMove r d limit stopped (.cleanupCeased r d.cleanup) (.flag true)
      { d with cleanup := 0, state := { d.state with population := .unknown } }


abbrev MovesTo (r : Nat) (s : WorkSystem) (call : WorkCall) (reply : WorkReply) (d : RecordData) : Prop :=
  TicketMove r (s.records r).data (s.records r).operationLimit
    (phaseOf (s.gates r).flags = .stopped) call reply d

/-- The body of a call ends, touches only this record and moves it. -/
abbrev Moves {α : Type} (r : Nat) (s : WorkSystem) (call : WorkCall) (wrap : α → WorkReply)
    (p : Action α) : Prop :=
  Ends p s fun a t => Frame r s t ∧ MovesTo r s call (wrap a) (t.records r).data

/-! ## Calls under the mutex -/

def WorkSystem.held (s : WorkSystem) (thread r : Nat) : WorkSystem :=
  s.setRecord r { s.records r with mutex := some thread }

section Held
variable {thread r : Nat} {s : WorkSystem}

@[simp] theorem held_data : ((s.held thread r).records r).data = (s.records r).data := by
  simp [held]

@[simp] theorem held_limit :
    ((s.held thread r).records r).operationLimit = (s.records r).operationLimit := by
  simp [held]

@[simp] theorem held_gates : (s.held thread r).gates = s.gates := rfl

theorem held_stays {post : RecordData → Prop} (holds : post (s.records r).data) :
    Frame r (s.held thread r) (s.held thread r) ∧ post ((s.held thread r).records r).data :=
  ⟨.refl _ _, by rwa [held_data]⟩

end Held

section Locked
variable {α : Type} {thread r : Nat} {s : WorkSystem} {p : Action α} {call : WorkCall}
  {wrap : α → WorkReply} (free : (s.records r).mutex = none)

theorem pure_moves {a : α} (quiet : call.onTickets r = false) : Moves r s call wrap (pure a) :=
  ends_pure.mpr ⟨.refl r s, .calm quiet (.of_eq rfl)⟩

include free

theorem ends_locked {post : α → WorkSystem → Prop} :
    Ends (locked thread r p) s post ↔ Ends p (s.held thread r) fun a t =>
      post a (t.setRecord r { t.records r with mutex := none }) := by
  simp [locked, lock, unlock, free, held]

/-- A locked call is told by what its body does to the record. -/
theorem locked_ends {post : α → RecordData → Prop}
    (inner : Ends p (s.held thread r) fun a t =>
      Frame r (s.held thread r) t ∧ post a (t.records r).data) :
    Ends (locked thread r p) s fun a t => Frame r s t ∧ post a (t.records r).data := by
  refine (ends_locked free).mpr (inner.imp ?_)
  rintro a t ⟨frame, holds⟩
  refine ⟨⟨frame.mutex, fun n other => ?_, ?_, ?_⟩, by rwa [setRecord_same]⟩
  · rw [t.setRecord_other r _ other, frame.others n other, held,
      s.setRecord_other r _ other]
  · rw [setRecord_same, free]
  · rw [setRecord_same, frame.limit, held_limit]

/-- Of a call without tickets it suffices to see what it does behind a closed boundary. -/
theorem locked_calm (quiet : call.onTickets r = false) (touching : Touching r p)
    (closed : (s.records r).data.boundaryClosed = true →
      Ends p (s.held thread r) fun _ t => (s.records r).data.Calm (t.records r).data) :
    Moves r s call wrap (locked thread r p) := by
  apply locked_ends free
  by_cases shut : (s.records r).data.boundaryClosed = true
  · apply ((touching _).and (closed shut)).imp
    exact fun _ _ both => ⟨both.1.frame, .calm quiet both.2⟩
  · apply (touching _).imp
    intro _ t kept
    exact ⟨kept.frame, .calm quiet ⟨by simpa using kept.same, fun closed => absurd closed shut⟩⟩

end Locked

/-! ## The calls without tickets -/

section Calls
variable {thread r : Nat} {s : WorkSystem}

theorem settleUnstarted_started (started : (s.records r).data.state.startAccepted = true) :
    Ends (settleUnstarted r) s fun _ t => t = s := by
  simp [settleUnstarted, data, started]

variable (free : (s.records r).mutex = none)
include free

theorem admissionFinished_moves (result : AdmissionResult) :
    Moves r s (.admissionFinished r result) .flag (admissionFinished thread r result) := by
  refine locked_calm free rfl ?_ fun closed => ?_
  · exact within_bind touching_data fun _ => within_ite (within_pure _) <|
      within_bind staying_phase.touching fun _ => within_ite
        (within_bind (touching_modify fun _ => rfl) fun _ =>
          within_bind (staying_stop _).touching fun _ => within_pure _) <|
        within_ite (within_pure _) <|
          within_bind (within_ite staying_epoch.touching (within_pure _)) fun _ =>
            within_ite (within_pure _) <| within_bind (touching_modify fun _ => rfl) fun _ =>
              within_bind (within_ite within_load (within_pure _)) fun _ => within_ite
                (within_bind (touching_modify fun _ => rfl) fun _ => within_pure _)
                (within_bind (touching_modify fun _ => rfl) fun _ =>
                  within_bind touching_releaseCreator fun _ =>
                    within_bind touching_settle fun _ => within_pure _)
  · simp [data, (boundaryClosed_inv closed).2.1, RecordData.Calm.of_eq]

theorem captureScope_moves (identity : WorkScopeIdentity) :
    Moves r s (.captureScope r identity) .flag (captureScope thread r identity) := by
  unfold captureScope
  split
  · exact pure_moves rfl
  refine locked_calm free rfl ?_ fun closed => ?_
  · exact within_bind touching_data fun _ => within_ite (within_pure _) <|
      within_ite (within_pure _) <| within_ite (within_pure _) <|
        within_bind (touching_modify fun _ => rfl) fun _ => within_pure _
  · simp [data, (boundaryClosed_inv closed).2.2.1, RecordData.Calm.of_eq]

theorem initialCreated_moves : Moves r s (.initialCreated r) .flag (initialCreated thread r) := by
  refine locked_calm free rfl ?_ fun closed => ?_
  · exact within_bind touching_data fun _ => within_ite (within_pure _) <|
      within_bind (touching_modify fun _ => rfl) fun _ => within_pure _
  · simp [data, (boundaryClosed_inv closed).2.2.1, RecordData.Calm.of_eq]

theorem initialExited_moves (exit : WorkExit) :
    Moves r s (.initialExited r exit) .flag (initialExited thread r exit) := by
  unfold initialExited
  split
  · exact pure_moves rfl
  refine locked_calm free rfl ?_ fun closed => ?_
  · exact within_bind touching_data fun _ => within_ite (within_pure _) <|
      within_ite (within_pure _) <| within_ite (within_pure _) <|
        within_bind (touching_modify fun _ => rfl) fun _ =>
          within_bind staying_gateStop.touching fun _ => within_pure _
  · rcases (boundaryClosed_inv closed).2.2.2 with initial | initial <;>
      simp [data, ends_ite, initial, RecordData.Calm.of_eq]

theorem initialReaped_moves : Moves r s (.initialReaped r) .flag (initialReaped thread r) := by
  refine locked_calm free rfl ?_ fun closed => ?_
  · exact within_bind touching_data fun _ => within_ite (within_pure _) <|
      within_ite (within_pure _) <| within_ite (within_pure _) <|
        within_bind (touching_modify fun _ => rfl) fun _ =>
          within_bind touching_settleAbsentScope fun _ => within_pure _
  · rcases (boundaryClosed_inv closed).2.2.2 with initial | initial <;>
      simp [data, ends_ite, initial, RecordData.Calm.of_eq]

theorem creatorFinished_moves (initial scope : WorkResourceFact) (error : Int) :
    Moves r s (.creatorFinished r initial scope error) .flag
      (creatorFinished thread r initial scope error) := by
  unfold creatorFinished
  split
  · exact pure_moves rfl
  refine locked_calm free rfl ?_ fun closed => ?_
  · exact within_bind touching_data fun _ => within_ite (within_pure _) <|
      within_bind staying_entered.touching fun _ => within_ite (within_pure _) <|
        within_bind (touching_modify fun _ => rfl) fun _ =>
          within_bind (within_ite (within_bind (staying_stop _).touching fun _ => within_pure _)
            (within_pure _)) fun _ =>
            within_bind (touching_quarantineIf _) fun _ =>
              within_bind touching_releaseCreator fun _ => within_bind touching_closeAbsent fun _ =>
                within_bind touching_settleAbsentScope fun _ => within_pure _
  · simp [data, (boundaryClosed_inv closed).2.2.1, RecordData.Calm.of_eq]

theorem inspect_moves : Moves r s (.inspect r) .snapshot (snapshot thread r) := by
  refine locked_calm free rfl ?_ fun closed => ends_bind.mpr ?_
  · exact within_bind touching_settleUnstarted fun _ => within_bind touching_data fun _ =>
      within_bind staying_entered.touching fun _ => within_bind staying_phase.touching fun _ =>
        within_bind staying_epoch.touching fun _ =>
          within_bind (within_ite (within_pure _) within_load) fun _ => within_pure _
  · apply (settleUnstarted_started (by simpa using (boundaryClosed_inv closed).1)).imp
    rintro _ _ rfl
    refine Ends.imp (Program.Within.ends (?_ : Staying r _) _) fun _ _ kept =>
      .of_eq (kept.same.trans held_data)
    exact within_bind within_load fun _ => within_bind staying_entered fun _ =>
      within_bind staying_phase fun _ => within_bind staying_epoch fun _ =>
        within_bind (within_ite (within_pure _) within_load) fun _ => within_pure _

theorem cancelUnstarted_moves : Moves r s (.cancelUnstarted r) .flag (cancelUnstarted thread r) := by
  refine locked_calm free rfl ?_ fun closed => ?_
  · exact within_bind touching_data fun _ => within_ite (within_pure _) <|
      within_bind (staying_stop _).touching fun _ => within_bind touching_settleUnstarted fun _ =>
        within_pure _
  · simp [data, (boundaryClosed_inv closed).1, RecordData.Calm.of_eq]

theorem record_forget_moves : Moves r s (.forget r) .result (forget thread r) := by
  refine locked_calm free rfl ?_ fun closed => ends_bind.mpr ?_
  · exact within_bind touching_settleUnstarted fun _ => within_bind touching_data fun _ =>
      within_ite (within_pure _) <| within_ite (within_pure _) <|
        within_bind (touching_modify fun _ => rfl) fun _ => within_pure _
  apply (settleUnstarted_started (by simpa using (boundaryClosed_inv closed).1)).imp
  rintro _ _ rfl
  simp only [data, WorkRecord.modify, ends_bind, ends_load, ends_ite, ends_pure, ends_store]
  split
  · exact .of_eq held_data
  split
  · exact .of_eq held_data
  · simp only [setData, setRecord_same, held_data]
    exact ⟨rfl, fun shut => ⟨shut, rfl, rfl, rfl, rfl⟩⟩

theorem abort_moves (error : Int) : Moves r s (.abort r error) .flag (abort thread r error) := by
  unfold abort
  split
  · exact pure_moves rfl
  apply ends_bind.mpr
  apply (staying_stop WorkStopSource.backendFailure s).imp
  intro _ t stays
  apply ends_bind.mpr
  have free' : (t.records r).mutex = none := stays.frame.held.trans free
  have edited : Ends (locked thread r (modify r fun d =>
      if !d.state.complete && d.state.launchError = 0 then
        { d with state := { d.state with launchError := error } } else d)) t
      fun _ u => Frame r t u ∧ (s.records r).data.Calm (u.records r).data := by
    apply locked_ends free'
    apply ends_store.mpr
    refine ⟨frame_setRecord rfl rfl, ?_⟩
    simp only [setData, setRecord_same, held_data]
    rw [show (t.records r).data = (s.records r).data from stays.same]
    split
    · exact ⟨rfl, fun shut => ⟨shut, rfl, rfl, rfl, rfl⟩⟩
    · exact .of_eq rfl
  apply edited.imp
  rintro _ u ⟨frame, calm⟩
  exact ends_pure.mpr ⟨stays.frame.trans frame, .calm rfl calm⟩

theorem start_moves (decodes : List UInt8 → Bool) (description : List UInt8) (stdio : WorkIoBinding)
    (available : Bool) (idle : s.mutex = none) :
    Moves r s (.start r description stdio available) .result
      (start decodes thread r description stdio available) := by
  have stays {reply : WorkReply} :
      Frame r s s ∧ MovesTo r s (.start r description stdio available) reply (s.records r).data :=
    ⟨.refl r s, .calm rfl (.of_eq rfl)⟩
  simp only [start, lockRegistry, unlockRegistry, ends_bind, ends_load, ends_ite, ends_pure, ends_await,
    ends_store, idle, decide_true, true_and]
  split
  · exact stays
  split
  · exact stays
  split
  · exact stays
  have free' : (({ s with mutex := some thread } : WorkSystem).records r).mutex = none := free
  have moves : Moves r { s with mutex := some thread } (.start r description stdio available) .result
      (locked thread r (startLocked r description stdio (stdio.closedPlan || available))) := by
    refine locked_calm free' rfl (touching_startLocked _ _ _) fun closed => ?_
    have started : (s.records r).data.state.startAccepted = true := (boundaryClosed_inv closed).1
    simp only [startLocked, data, ends_bind, ends_load, held_data, ends_ite, ends_pure, started,
      if_true, ite_self]
    exact .of_eq rfl
  apply moves.imp
  rintro _ t ⟨frame, moved⟩
  exact ⟨⟨idle.symm, frame.others, frame.held, frame.limit⟩, moved⟩

end Calls

/-! ## The calls with tickets -/

section TicketCalls
variable {thread r : Nat} {s : WorkSystem}

theorem issue_exhausted (sound : (s.records r).data.permanentFault = false)
    (full : (s.records r).operationLimit ≤ (s.records r).data.sequence) :
    Ends (issue r) s fun n t =>
      n = 0 ∧ Frame r s t ∧ (t.records r).data = (s.records r).data.exhausted := by
  simp only [issue, data, ends_bind, ends_load, ends_ite, sound, Bool.false_or, decide_eq_true_eq,
    ge_iff_le, full, if_true, WorkRecord.modify, ends_store, ends_pure]
  apply (staying_stop WorkStopSource.backendFailure _).imp
  intro _ t stays
  refine ⟨trivial, (frame_setData _).trans stays.frame, ?_⟩
  exact Eq.trans stays.same (congrArg Record.data (s.setRecord_same r _))

theorem issue_next (sound : (s.records r).data.permanentFault = false)
    (room : (s.records r).data.sequence < (s.records r).operationLimit) :
    Ends (issue r) s fun n t => n = (s.records r).data.sequence + 1 ∧
      t = s.setData r { (s.records r).data with sequence := (s.records r).data.sequence + 1 } := by
  have more : ¬ (s.records r).operationLimit ≤ (s.records r).data.sequence :=
    UInt64.not_le.mpr room
  simp [issue, data, sound, more, WorkRecord.modify]

theorem next_toNat {n limit : UInt64} (room : n < limit) : (n + 1).toNat = n.toNat + 1 := by
  have below := UInt64.lt_iff_toNat_lt.mp room
  have bound := limit.toNat_lt
  simp only [UInt64.toNat_add, UInt64.reduceToNat]
  omega

theorem next_ne_zero {n limit : UInt64} (room : n < limit) : n + 1 ≠ 0 := by
  intro wraps
  have next := next_toNat room
  rw [wraps] at next
  cases next

/-- What a call does that asks for a number: none is left, or the next one is issued and
the call goes on. -/
theorem issue_moves {call : WorkCall} {change : UInt64 → RecordData → RecordData}
    (issuing : (s.records r).data.Issuing)
    (exhausts : (s.records r).operationLimit ≤ (s.records r).data.sequence →
      MovesTo r s call (.ticket none) (s.records r).data.exhausted)
    (issues : (s.records r).data.sequence < (s.records r).operationLimit →
      MovesTo r s call (.ticket (some ((s.records r).data.sequence + 1)))
        (change ((s.records r).data.sequence + 1)
          { (s.records r).data with sequence := (s.records r).data.sequence + 1 })) :
    Ends (do
      let sequence ← issue r
      if sequence = 0 then pure none
      else do
        modify r (change sequence)
        pure (some sequence)) (s.held thread r) fun reply t =>
      Frame r (s.held thread r) t ∧ MovesTo r s call (.ticket reply) (t.records r).data := by
  apply ends_bind.mpr
  by_cases full : (s.records r).operationLimit ≤ (s.records r).data.sequence
  · apply (issue_exhausted (by simpa using issuing.sound) (by simpa using full)).imp
    rintro _ t ⟨rfl, frame, same⟩
    rw [held_data] at same
    exact ends_pure.mpr ⟨frame, same ▸ exhausts full⟩
  · have room := UInt64.not_le.mp full
    apply (issue_next (by simpa using issuing.sound) (by simpa using room)).imp
    rintro _ t ⟨rfl, rfl⟩
    simp only [held_data, next_ne_zero room, if_false, WorkRecord.modify, ends_bind, ends_store,
      ends_pure]
    refine ⟨(frame_setData _).trans (frame_setData _), ?_⟩
    simpa only [setData, setRecord_same] using issues room

theorem ends_phase {post : AdmissionPhase → WorkSystem → Prop} :
    Ends (onGate r WorkAdmission.phase) s post ↔ post (phaseOf (s.gates r).flags) s := by
  simp [ends_onGate, WorkAdmission.phase, WorkAdmission.flags, setGate_self]

variable (free : (s.records r).mutex = none)
include free

theorem observe_moves : Moves r s (.observe r) .ticket (observe thread r) := by
  apply locked_ends free
  apply ends_bind.mpr
  apply ends_load.mpr
  rw [held_data]
  split
  · rename_i guard
    refine ends_pure.mpr (held_stays (.unobservable fun issuing => ?_))
    simp [issuing.incomplete, issuing.sound, issuing.closed, issuing.captured, issuing.unobserved,
      issuing.uncleaned] at guard
  · rename_i guard
    have issuing : (s.records r).data.Issuing := by
      simp only [Bool.or_eq_true, decide_eq_true_eq, not_or, Bool.not_eq_true, Bool.not_eq_eq_eq_not,
        Bool.not_true, Bool.not_eq_false, ne_eq, not_not] at guard
      obtain ⟨⟨⟨⟨⟨incomplete, sound⟩, closed⟩, captured⟩, unobserved⟩, uncleaned⟩ := guard
      exact ⟨incomplete, sound, closed, captured, unobserved, uncleaned⟩
    exact issue_moves issuing (.exhausts (.inl ⟨rfl, issuing⟩)) (.observes issuing)

theorem reclaim_moves : Moves r s (.reclaim r) .ticket (reclaim thread r) := by
  apply locked_ends free
  apply ends_bind.mpr
  apply ends_load.mpr
  rw [held_data]
  split
  · rename_i guard
    refine ends_pure.mpr (held_stays (.unreclaimable fun ready => ?_))
    simp [ready.incomplete, ready.sound, ready.closed, ready.captured, ready.unobserved,
      ready.uncleaned, ready.empty] at guard
  rename_i guard
  apply ends_bind.mpr
  apply ends_phase.mpr
  rw [held_gates]
  split
  · rename_i running
    refine ends_pure.mpr (held_stays (.unreclaimable fun ready => ?_))
    exact running (of_decide_eq_true ready.stopped)
  rename_i stopped
  simp only [Bool.or_eq_true, decide_eq_true_eq, not_or, Bool.not_eq_true, Bool.not_eq_eq_eq_not,
    Bool.not_true, Bool.not_eq_false, ne_eq, not_not] at guard stopped
  obtain ⟨⟨⟨⟨⟨⟨incomplete, sound⟩, closed⟩, captured⟩, empty⟩, unobserved⟩, uncleaned⟩ := guard
  have ready : (s.records r).data.Reclaimable (phaseOf (s.gates r).flags = .stopped) :=
    ⟨⟨incomplete, sound, closed, captured, unobserved, uncleaned⟩, empty, decide_eq_true stopped⟩
  exact issue_moves ready.toIssuing (.exhausts (.inr ⟨rfl, ready⟩)) (.reclaims ready)

/-- A call that brings a ticket back, for the change it makes with the outstanding one. -/
theorem returned_moves {call : WorkCall} {outstanding : RecordData → UInt64} {sequence : UInt64}
    {change : RecordData → RecordData} {reply : RecordData → Bool} (ticket : call.brings r = true)
    (awaits : (s.records r).data.Awaits call →
      sequence ≠ 0 ∧ outstanding (s.records r).data = sequence)
    (moves : outstanding (s.records r).data = sequence → sequence ≠ 0 →
      MovesTo r s call (.flag (reply (s.records r).data)) (change (s.records r).data)) :
    Moves r s call .flag (locked thread r do
      let d ← data r
      if sequence = 0 || outstanding d ≠ sequence then pure false
      else do
        modify r change
        pure (reply d)) := by
  apply locked_ends free
  simp only [data, ends_bind, ends_load, held_data, ends_ite, WorkRecord.modify, ends_store, ends_pure]
  split
  · rename_i stale
    refine ⟨.refl _ _, .rejected ticket fun held => ?_⟩
    simp [awaits held] at stale
  rename_i current
  simp only [Bool.or_eq_true, decide_eq_true_eq, not_or, ne_eq, not_not] at current
  refine ⟨frame_setData _, ?_⟩
  simpa only [setData, setRecord_same] using moves current.2 current.1

theorem observationFinish_moves (sequence : UInt64) (population : WorkPopulation) :
    Moves r s (.observationFinish r sequence population) .flag
      (observationFinish thread r sequence population) := by
  refine returned_moves free (by simp [WorkCall.brings]) id ?_
  rintro rfl outstanding
  exact .finishes population outstanding

theorem observationTimedOut_moves (sequence : UInt64) :
    Moves r s (.observationTimedOut r sequence) .flag (observationTimedOut thread r sequence) := by
  refine returned_moves free (by simp [WorkCall.brings]) id ?_
  rintro rfl outstanding
  exact .timesOut outstanding

theorem observationCeased_moves (sequence : UInt64) :
    Moves r s (.observationCeased r sequence) .flag (observationCeased thread r sequence) := by
  refine returned_moves free (by simp [WorkCall.brings]) id ?_
  rintro rfl outstanding
  exact .ceases outstanding

theorem cleanupTimedOut_moves (sequence : UInt64) :
    Moves r s (.cleanupTimedOut r sequence) .flag (cleanupTimedOut thread r sequence) := by
  refine returned_moves free (by simp [WorkCall.brings]) False.elim ?_
  rintro rfl outstanding
  exact .cleanupTimesOut outstanding

theorem cleanupCeased_moves (sequence : UInt64) :
    Moves r s (.cleanupCeased r sequence) .flag (cleanupCeased thread r sequence) := by
  refine returned_moves free (by simp [WorkCall.brings]) False.elim ?_
  rintro rfl outstanding
  exact .cleanupCeases outstanding

theorem cleanupFinish_moves (sequence : UInt64) (result : WorkCleanupResult) (error : Int) :
    Moves r s (.cleanupFinish r sequence result error) .flag
      (cleanupFinish thread r sequence result error) := by
  have ticket : (WorkCall.cleanupFinish r sequence result error).brings r = true := by
    simp [WorkCall.brings]
  unfold cleanupFinish
  split
  · exact ends_pure.mpr ⟨.refl r s, .rejected ticket id⟩
  apply locked_ends free
  have edits {d d' : RecordData} : Frame r (s.held thread r) (((s.held thread r).setData r d).setData r d') :=
    (frame_setData _).trans (frame_setData _)
  simp only [data, ends_bind, ends_load, held_data, ends_ite, WorkRecord.modify, ends_store, ends_pure]
  split
  · exact ⟨.refl _ _, .rejected ticket id⟩
  rename_i outstanding
  simp only [Bool.or_eq_true, decide_eq_true_eq, not_or, ne_eq, not_not] at outstanding
  obtain ⟨named, rfl⟩ := outstanding
  split
  · exact ⟨.refl _ _, .rejected ticket id⟩
  cases result with
  | reclaimed =>
    simp only [ends_bind, ends_store, ends_pure]
    apply (touching_settle _).imp
    intro _ t kept
    refine ⟨edits.trans kept.frame, .cleans _ _ named (kept.same.trans ?_)⟩
    simp only [setData, setRecord_same]
    rfl
  | failed | progress =>
    simp only [ends_bind, ends_store, ends_pure]
    refine ⟨edits, .cleans _ _ named ?_⟩
    simp only [setData, setRecord_same]
    rfl

end TicketCalls

/-! ## Stale tickets -/

/-- The ticket that the call brings back is the outstanding one of its kind. -/
def RecordData.Outstanding (d : RecordData) : WorkCall → Prop
  | .observationFinish _ n _ | .observationTimedOut _ n | .observationCeased _ n =>
    n ≠ 0 ∧ d.observation = n
  | .cleanupFinish _ n _ _ | .cleanupTimedOut _ n | .cleanupCeased _ n => n ≠ 0 ∧ d.cleanup = n
  | _ => False

section Stale
variable {thread r : Nat} {s : WorkSystem} (free : (s.records r).mutex = none)
include free

theorem held_released : (s.held thread r).setRecord r
    { (s.held thread r).records r with mutex := none } = s := by
  simp only [held, setRecord_same]
  obtain ⟨manager, mutex, closed, used, maximum, records, gates⟩ := s
  simp only [setRecord, mk.injEq, true_and, and_true]
  funext n
  by_cases here : n = r
  · rw [here, if_pos rfl, ← free]
  · rw [if_neg here, if_neg here]

/-- A call that brings back another ticket than the outstanding one changes nothing. -/
theorem locked_stale {sequence : UInt64} {outstanding : RecordData → UInt64}
    {rest : RecordData → Action Bool}
    (stale : ¬ (sequence ≠ 0 ∧ outstanding (s.records r).data = sequence)) :
    Ends (locked thread r do
      let d ← data r
      if sequence = 0 || outstanding d ≠ sequence then pure false else rest d) s
      fun reply t => reply = false ∧ t = s := by
  have refuses : (sequence = 0 || outstanding (s.records r).data ≠ sequence) = true := by
    simp only [Bool.or_eq_true, decide_eq_true_eq]
    tauto
  apply (ends_locked free).mpr
  apply ends_bind.mpr
  apply ends_load.mpr
  rw [if_pos (by rwa [held_data])]
  exact ends_pure.mpr ⟨rfl, held_released free⟩

end Stale

/-- A ticket other than the outstanding one changes nothing at all. -/
theorem body_stale (decodes : List UInt8 → Bool) (thread : Nat) {r : Nat} {s : WorkSystem}
    (free : (s.records r).mutex = none) {call : WorkCall} (brings : call.brings r = true)
    (stale : ¬ (s.records r).data.Outstanding call) :
    Ends (call.body decodes thread) s fun reply t => reply = .flag false ∧ t = s := by
  have replies {p : Action Bool} (ends : Ends p s fun reply t => reply = false ∧ t = s) :
      Ends (do let a ← p; pure (WorkReply.flag a)) s fun reply t => reply = .flag false ∧ t = s :=
    ends_bind.mpr (ends.imp fun _ _ same => ends_pure.mpr ⟨congrArg _ same.1, same.2⟩)
  cases call <;> simp only [WorkCall.brings, Bool.false_eq_true, decide_eq_true_eq] at brings <;>
    subst brings
  case cleanupFinish n sequence result error =>
    apply replies
    unfold cleanupFinish
    split
    · exact ends_pure.mpr ⟨rfl, rfl⟩
    · exact locked_stale free stale
  all_goals exact replies (locked_stale free stale)

/-! ## Every call -/

/-- Nobody holds a mutex. -/
structure WorkSystem.Free (s : WorkSystem) : Prop where
  registry : s.mutex = none
  records : ∀ r, (s.records r).mutex = none

/-- What a call leaves of every record, when it began and ended with all mutexes free. -/
structure Answered (s : WorkSystem) (call : WorkCall) (reply : WorkReply) (t : WorkSystem) : Prop where
  free : t.Free
  moves : ∀ r, MovesTo r s call reply (t.records r).data

section Answered
variable {s t : WorkSystem} {call : WorkCall} {reply : WorkReply} {n : Nat} (free : s.Free)
include free

theorem Frame.answered (frame : Frame n s t) (quiet : ∀ r, r ≠ n → call.onTickets r = false)
    (moves : MovesTo n s call reply (t.records n).data) : Answered s call reply t := by
  refine ⟨⟨frame.mutex.trans free.registry, fun r => ?_⟩, fun r => ?_⟩ <;> by_cases here : r = n
  · rw [here, frame.held, free.records]
  · rw [frame.others r here, free.records]
  · rwa [here]
  · rw [frame.others r here]
    exact .calm (quiet r here) (.of_eq rfl)

theorem ends_reply {α : Type} {wrap : α → WorkReply} {p : Action α} (moves : Moves n s call wrap p)
    (quiet : ∀ r, r ≠ n → call.onTickets r = false) :
    Ends (do let a ← p; pure (wrap a)) s fun reply t => Answered s call reply t :=
  ends_bind.mpr (moves.imp fun _ _ does => ends_pure.mpr (does.1.answered free quiet does.2))

omit free in
theorem Staying.moves {α : Type} {wrap : α → WorkReply} {p : Action α} (staying : Staying n p)
    (quiet : call.onTickets n = false) : Moves n s call wrap p :=
  (staying s).imp fun _ _ kept => ⟨kept.frame, .calm quiet (.of_eq kept.same)⟩

omit free in
theorem stopRecords_ends (source : WorkStopSource) (table : List Nat) :
    Ends (stopRecords source table) s fun _ t => t.mutex = s.mutex ∧
      ∀ r, (t.records r).mutex = (s.records r).mutex ∧ (t.records r).data = (s.records r).data := by
  induction table generalizing s with
  | nil => exact ends_pure.mpr ⟨rfl, fun _ => ⟨rfl, rfl⟩⟩
  | cons n rest ih =>
    apply ends_bind.mpr
    apply (staying_stop source s).imp
    intro _ t stays
    apply ih.imp
    rintro _ u ⟨mutex, kept⟩
    refine ⟨mutex.trans stays.frame.mutex, fun r => ?_⟩
    rw [(kept r).1, (kept r).2]
    by_cases here : r = n
    · rw [here]
      exact ⟨stays.frame.held, stays.same⟩
    · rw [stays.frame.others r here]
      exact ⟨rfl, rfl⟩

theorem close_answers (thread : Nat) (source : WorkStopSource) (table : List Nat) :
    Ends (close thread source table) s fun _ t => Answered s (.close source table) .closed t := by
  simp only [close, lockRegistry, unlockRegistry, ends_bind, ends_await, ends_store, free.registry,
    decide_true, true_and]
  apply (stopRecords_ends source table).imp
  rintro _ t ⟨-, kept⟩
  exact ⟨⟨rfl, fun r => (kept r).1.trans (free.records r)⟩,
    fun r => .calm rfl (.of_eq (kept r).2)⟩

/-- Every call ends, and does to each record what is told of it. -/
theorem body_answers (decodes : List UInt8 → Bool) (thread : Nat) (call : WorkCall) :
    Ends (call.body decodes thread) s fun reply t => Answered s call reply t := by
  have quiet {r : Nat} : ∀ n, n ≠ r → decide (r = n) = false := fun _ other =>
    decide_eq_false other.symm
  cases call with
  | gate r call => exact ends_reply free ((staying_gateCall call).moves rfl) fun _ _ => rfl
  | stop r source => exact ends_reply free ((staying_stop source).moves rfl) fun _ _ => rfl
  | close source table =>
    exact ends_bind.mpr ((close_answers free thread source table).imp fun _ _ => ends_pure.mpr)
  | cancelUnstarted r =>
    exact ends_reply free (cancelUnstarted_moves (free.records r)) fun _ _ => rfl
  | inspect r => exact ends_reply free (inspect_moves (free.records r)) fun _ _ => rfl
  | start r description stdio available =>
    exact ends_reply free
      (start_moves (free.records r) decodes description stdio available free.registry) fun _ _ => rfl
  | forget r => exact ends_reply free (record_forget_moves (free.records r)) fun _ _ => rfl
  | admissionFinished r result =>
    exact ends_reply free (admissionFinished_moves (free.records r) result) fun _ _ => rfl
  | captureScope r identity =>
    exact ends_reply free (captureScope_moves (free.records r) identity) fun _ _ => rfl
  | initialCreated r => exact ends_reply free (initialCreated_moves (free.records r)) fun _ _ => rfl
  | initialExited r exit =>
    exact ends_reply free (initialExited_moves (free.records r) exit) fun _ _ => rfl
  | initialReaped r => exact ends_reply free (initialReaped_moves (free.records r)) fun _ _ => rfl
  | creatorFinished r initial scope error =>
    exact ends_reply free (creatorFinished_moves (free.records r) initial scope error) fun _ _ => rfl
  | abort r error => exact ends_reply free (abort_moves (free.records r) error) fun _ _ => rfl
  | observe r => exact ends_reply free (observe_moves (free.records r)) quiet
  | reclaim r => exact ends_reply free (reclaim_moves (free.records r)) quiet
  | observationFinish r sequence population =>
    exact ends_reply free (observationFinish_moves (free.records r) sequence population) quiet
  | observationTimedOut r sequence =>
    exact ends_reply free (observationTimedOut_moves (free.records r) sequence) quiet
  | observationCeased r sequence =>
    exact ends_reply free (observationCeased_moves (free.records r) sequence) quiet
  | cleanupFinish r sequence result error =>
    exact ends_reply free (cleanupFinish_moves (free.records r) sequence result error) quiet
  | cleanupTimedOut r sequence =>
    exact ends_reply free (cleanupTimedOut_moves (free.records r) sequence) quiet
  | cleanupCeased r sequence =>
    exact ends_reply free (cleanupCeased_moves (free.records r) sequence) quiet

end Answered

end Andrix.Native
