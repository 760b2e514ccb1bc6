import Andrix.Lib.Calls
import Andrix.Platform.OwnerLifecycle

/-! The ordering around the keep slot: keep calls, stop commands, revocations and
death callbacks, each a sequence of short lock sections with calls to the outside
in between. A system is all of them at once, and an event is one lock section or
one outside call with its outcome. -/
namespace Andrix.Platform
open List KeepWorkState Option

/-- How a call to the outside ends. A link may fail after it has run the death
callback itself, as the binder adapter's does. -/
inductive Outcome where
  | ok | no | threw | reportedDeath
  deriving DecidableEq

inductive KeepPhase where
  | linking | linked | posting | checking | committing
  | finishing (committed : Bool)
  | cancelling (committed bound : Bool)
  | unlinking (committed : Bool)
  | returned (committed : Bool)
  deriving DecidableEq

def KeepPhase.ended : KeepPhase → Bool
  | .returned _ => true
  | _ => false

structure Keeping where
  record : Nat
  phase : KeepPhase
  deriving DecidableEq

inductive StopPhase where
  | cancelling | beginning | checking | authorizing | stopping | finishing | done
  deriving DecidableEq

structure Stopping where
  record : Nat
  phase : StopPhase
  deriving DecidableEq

structure KeepWork (β τ : Type) where
  enabled : Bool
  lifecycle : OwnerLifecycleState := {}
  state : KeepWorkState β τ
  /-- The lifetimes whose process has died. -/
  gone : List τ := []
  /-- The records whose death link was established, and those whose link was
  removed again. -/
  made : List Nat := []
  removed : List Nat := []
  calls : List Keeping := []
  commands : List Stopping := []

namespace KeepWork
variable {β τ : Type} [DecidableEq τ]

def enter (w : KeepWork β τ) (n : Nat) (phase : KeepPhase) : KeepWork β τ :=
  { w with calls := w.calls.modify n fun call => { call with phase } }

/-- The record's process has died. -/
def hasDied (w : KeepWork β τ) (r : Nat) : Bool := w.state.has r (·.lifetime ∈ w.gone)

/-- The first lock section of `keep`. -/
def keep (w : KeepWork β τ) (identity : Option β) (lifetime : Option τ) (workId instanceId : Int)
    (generation : Int) (nonce : String) : KeepWork β τ :=
  if !w.enabled || lifetime.isNone then w
  else match w.state.begin identity lifetime workId instanceId generation w.lifecycle.snapshot
      (some nonce) with
    | (none, state) => { w with state }
    | (some r, state) => { w with state, calls := w.calls ++ [⟨r, .linking⟩] }

/-- The rest of `keep`, one lock section or outside call at a time. Every path
ends in the `finally` block. -/
def keepStep (w : KeepWork β τ) (n : Nat) (call : Keeping) (outcome : Outcome) : KeepWork β τ :=
  let r := call.record
  match call.phase with
  | .linking =>
    match outcome with
    -- A dead binder cannot be linked.
    | .ok => if w.hasDied r then w else { w.enter n .linked with made := r :: w.made }
    | .no | .threw => w.enter n (.finishing false)
    | .reportedDeath => { w.enter n (.finishing false) with state := w.state.died r }
  | .linked =>
    let (bound, state) := w.state.linked r w.lifecycle.snapshot
    { w.enter n (if bound then .posting else .finishing false) with state }
  | .posting => w.enter n (if outcome = .ok then .checking else .finishing false)
  | .checking => w.enter n (if outcome = .ok then .committing else .finishing false)
  | .committing =>
    let (committed, state) := w.state.commit r w.lifecycle.snapshot
    { w.enter n (.finishing committed) with state }
  | .finishing committed =>
    let state := if committed then w.state else w.state.abort r
    { w.enter n (.cancelling committed (state.isBound r)) with state }
  | .cancelling committed bound =>
    w.enter n (if bound then .returned committed else .unlinking committed)
  | .unlinking committed =>
    { w.enter n (.returned committed) with
      removed := if outcome = .ok then r :: w.removed else w.removed }
  | .returned _ => w

/-- The handler takes the command, or does not. -/
def execute (w : KeepWork β τ) (stopped : Option Nat × KeepWorkState β τ) (accepted : Bool) :
    KeepWork β τ :=
  match stopped with
  | (none, state) => { w with state }
  | (some r, state) =>
    { w with state, commands := if accepted then w.commands ++ [⟨r, .cancelling⟩] else w.commands }

def proceed (w : KeepWork β τ) (n : Nat) (phase : StopPhase) : KeepWork β τ :=
  { w with commands := w.commands.modify n fun command => { command with phase } }

/-- `stopRecord`, one lock section or outside call at a time. -/
def stopStep (w : KeepWork β τ) (n : Nat) (command : Stopping) (outcome : Outcome) : KeepWork β τ :=
  let r := command.record
  match command.phase with
  | .cancelling => w.proceed n .beginning
  | .beginning =>
    let (begun, state) := w.state.beginStop r
    { w.proceed n (if begun then .checking else .done) with state }
  | .checking =>
    match outcome with
    | .ok => w.proceed n .authorizing
    | .no => { w.proceed n .finishing with state := w.state.died r }
    | .threw | .reportedDeath => w.proceed n .finishing
  | .authorizing => w.proceed n (if w.state.canStop r then .stopping else .finishing)
  | .stopping => w.proceed n .finishing
  | .finishing => { w.proceed n .done with state := w.state.finishStop r }
  | .done => w

inductive Event (β τ : Type) where
  | keep (identity : Option β) (lifetime : Option τ) (workId instanceId generation : Int) (nonce : String)
  | call (n : Nat) (outcome : Outcome)
  | stop (token : String) (accepted : Bool)
  | notificationRevoked (accepted : Bool)
  | command (n : Nat) (outcome : Outcome)
  | lifecycle (next : OwnerLifecycleState)
  | platformChanged
  | snapshot
  | processDied (lifetime : τ)
  | callback (r : Nat)

/-- One event; one that cannot happen changes nothing. -/
def step (w : KeepWork β τ) : Event β τ → KeepWork β τ
  | .keep identity lifetime workId instanceId generation nonce =>
    w.keep identity lifetime workId instanceId generation nonce
  | .call n outcome =>
    match w.calls[n]? with
    | none => w
    | some call => w.keepStep n call outcome
  | .stop token accepted => w.execute (w.state.stop token) accepted
  | .notificationRevoked accepted => w.execute w.state.revokeNotification accepted
  | .command n outcome =>
    match w.commands[n]? with
    | none => w
    | some command => w.stopStep n command outcome
  -- The lifecycle changes under its own monitor, in any way.
  | .lifecycle next => { w with lifecycle := next }
  | .platformChanged => { w with state := w.state.observe w.lifecycle.snapshot }
  | .snapshot => { w with state := (w.state.active w.lifecycle.snapshot).2 }
  | .processDied lifetime => { w with gone := lifetime :: w.gone }
  -- Death is reported over a link, once the process has died.
  | .callback r => if r ∈ w.made ∧ w.hasDied r then { w with state := w.state.died r } else w

def run (w : KeepWork β τ) (events : List (Event β τ)) : KeepWork β τ := events.foldl step w

def Quiet (w : KeepWork β τ) : Prop :=
  (∀ call ∈ w.calls, call.phase.ended = true) ∧
    ∀ command ∈ w.commands, command.phase = .done

/-- The record's death link was established and not removed. -/
def Linked (w : KeepWork β τ) (r : Nat) : Prop := r ∈ w.made ∧ r ∉ w.removed

end KeepWork

/-! ## What the slot's calls can do -/

variable {r : Nat}

namespace KeepWorkState
variable {β τ : Type} {k k' : KeepWorkState β τ}

theorem has_update (k : KeepWorkState β τ) (r : Nat) (change : Record β τ → Record β τ) (i : Nat)
    (holds : Record β τ → Bool) :
    (k.update r change).has i holds = if i = r then k.has i (holds ∘ change) else k.has i holds := by
  unfold has update
  rw [List.getElem?_modify]
  split
  · rename_i same
    rw [if_pos same.symm]
    cases k.records[i]? <;> rfl
  · rename_i other
    rw [if_neg fun same => other same.symm]
    cases k.records[i]? <;> rfl

theorem has_update_same (k : KeepWorkState β τ) (r : Nat) (change : Record β τ → Record β τ) (i : Nat)
    (holds : Record β τ → Bool) (same : ∀ record, holds (change record) = holds record) :
    (k.update r change).has i holds = k.has i holds := by
  rw [has_update]
  split
  · exact congrArg (fun p => (k.records[i]?).any p) (funext same)
  · rfl

@[simp] theorem update_record (k : KeepWorkState β τ) (r : Nat) (change : Record β τ → Record β τ) :
    (k.update r change).record = k.record := rfl

@[simp] theorem update_length (k : KeepWorkState β τ) (r : Nat) (change : Record β τ → Record β τ) :
    (k.update r change).records.length = k.records.length := length_modify _ _ _

/-- The slot is kept or freed, and no record is made, dies, becomes active or
gets a stop under way. -/
structure Steady (k k' : KeepWorkState β τ) : Prop where
  length : k'.records.length = k.records.length
  slot : ∀ r, k'.record = some r → k.record = some r
  dead : ∀ r, k'.has r (·.dead) = k.has r (·.dead)
  stopping : ∀ r, k'.has r (·.stopInFlight) = k.has r (·.stopInFlight)
  active : ∀ r, k'.has r (·.active) = true → k.has r (·.active) = true

theorem Steady.refl : Steady k k := ⟨rfl, fun _ => id, fun _ => rfl, fun _ => rfl, fun _ => id⟩

theorem Steady.trans {k'' : KeepWorkState β τ} (first : Steady k k') (second : Steady k' k'') :
    Steady k k'' :=
  ⟨second.length.trans first.length, fun r held => first.slot r (second.slot r held),
    fun r => (second.dead r).trans (first.dead r), fun r => (second.stopping r).trans (first.stopping r),
    fun r held => first.active r (second.active r held)⟩

theorem has_mono {holds implied : Record β τ → Bool} (held : k.has r holds = true)
    (implies : ∀ record, holds record = true → implied record = true) : k.has r implied = true := by
  unfold has at *
  cases found : k.records[r]? with
  | none => simp [found] at held
  | some record =>
    rw [found] at held
    exact implies record held

/-- A change of one record that touches none of its deciding flags. -/
theorem update_steady (k : KeepWorkState β τ) (r : Nat) (change : Record β τ → Record β τ)
    (dead : ∀ record, (change record).dead = record.dead)
    (stopping : ∀ record, (change record).stopInFlight = record.stopInFlight)
    (active : ∀ record, (change record).active = true → record.active = true) :
    Steady k (k.update r change) := by
  refine ⟨update_length _ _ _, fun _ => id, fun i => has_update_same k r change i _ dead,
    fun i => has_update_same k r change i _ stopping, fun i held => ?_⟩
  rw [has_update] at held
  split at held
  · exact has_mono held active
  · exact held

theorem retire_steady (k : KeepWorkState β τ) (r : Nat) : Steady k (k.retire r) :=
  update_steady k r Record.retire (fun _ => rfl) (fun _ => rfl) (by simp [Record.retire])

theorem observe_steady (k : KeepWorkState β τ) (platform : PlatformState) :
    Steady k (k.observe platform) := by
  unfold observe
  split
  · exact .refl
  · split
    · exact retire_steady k _
    · exact .refl

theorem linked_steady (k : KeepWorkState β τ) (r : Nat) (platform : PlatformState) :
    Steady k (k.linked r platform).2 := by
  refine (observe_steady k platform).trans ?_
  unfold linked
  dsimp only
  split
  · exact .refl
  · exact update_steady _ r Record.link (fun _ => rfl) (fun _ => rfl) (fun _ => id)

theorem abort_steady (k : KeepWorkState β τ) (r : Nat) : Steady k (k.abort r) := by
  unfold abort
  split
  · exact ⟨rfl, by simp, fun _ => rfl, fun _ => rfl, fun _ => id⟩
  · exact .refl

theorem active_steady (k : KeepWorkState β τ) (platform : PlatformState) :
    Steady k (k.active platform).2 := by
  refine (observe_steady k platform).trans ?_
  unfold active
  dsimp only
  split
  · exact .refl
  · split <;> exact .refl

theorem stop_steady (k : KeepWorkState β τ) (token : String) : Steady k (k.stop token).2 := by
  unfold stop
  split
  · exact .refl
  rename_i r found
  split
  · exact .refl
  · refine Steady.trans ?_ (retire_steady _ _)
    exact update_steady k r Record.requestStop (fun _ => rfl) (fun _ => rfl) (fun _ => id)

theorem revokeNotification_steady (k : KeepWorkState β τ) : Steady k k.revokeNotification.2 := by
  unfold revokeNotification
  split
  · exact .refl
  · exact stop_steady k _

/-! ## The calls that do more -/

theorem has_lt {holds : Record β τ → Bool} (held : k.has r holds = true) :
    r < k.records.length := by
  unfold has at held
  cases found : k.records[r]? with
  | none => simp [found] at held
  | some record => exact (List.getElem?_eq_some_iff.mp found).1

/-- A new record is at the end, in the slot, and has no flag set. -/
theorem begin_some {binderIdentity : Option β} {lifetime : Option τ} {workId inst generation : Int}
    {platform : PlatformState} {nonce : Option String}
    (begun : k.begin binderIdentity lifetime workId inst generation platform nonce = (some r, k')) :
    r = k.records.length ∧ k.record = none ∧ k'.record = some r ∧ k'.records.length = r + 1 ∧
      (∀ i, k'.has i (·.dead) = k.has i (·.dead)) ∧
      (∀ i, k'.has i (·.stopInFlight) = k.has i (·.stopInFlight)) ∧
      ∀ i, k'.has i (·.active) = true → k.has i (·.active) = true := by
  have steady := observe_steady k platform
  unfold begin at begun
  dsimp only at begun
  split at begun
  · split at begun
    · simp at begun
    · rename_i binder life text open_
      simp only [not_or, not_isSome_iff_eq_none] at open_
      simp only [Prod.mk.injEq, Option.some.injEq] at begun
      obtain ⟨rfl, rfl⟩ := begun
      have free : k.record = none := by
        cases slot : k.record with
        | none => rfl
        | some old =>
          have kept : (k.observe platform).record = some old := by
            unfold observe
            rw [slot]
            dsimp only
            split
            · exact slot
            · exact slot
          rw [kept] at open_
          cases open_.1
      have flag {holds : Record β τ → Bool} (i : Nat)
          (fresh : holds
            { binderIdentity := binder, lifetime := life, workId
              instanceId := (k.observe platform).instanceId, generation := generation.toNat
              registration := (k.observe platform).lastRegistration + 1
              token := stopToken (k.observe platform).instanceId
                ((k.observe platform).lastRegistration + 1) text } = false) :
          has { (k.observe platform) with
              lastRegistration := (k.observe platform).lastRegistration + 1
              records := (k.observe platform).records ++
                [{ binderIdentity := binder, lifetime := life, workId
                   instanceId := (k.observe platform).instanceId, generation := generation.toNat
                   registration := (k.observe platform).lastRegistration + 1
                   token := stopToken (k.observe platform).instanceId
                    ((k.observe platform).lastRegistration + 1) text }]
              record := some (k.observe platform).records.length } i holds =
            (k.observe platform).has i holds := by
        unfold has
        dsimp only
        rcases Nat.lt_trichotomy i (k.observe platform).records.length with below | last | above
        · rw [List.getElem?_append_left below]
        · rw [last, List.getElem?_append_right (Nat.le_refl _), List.getElem?_eq_none (Nat.le_refl _)]
          simpa using fresh
        · rw [List.getElem?_eq_none (by simp; omega), List.getElem?_eq_none (by omega)]
      refine ⟨steady.length, free, rfl, by simp [steady.length], fun i => ?_, fun i => ?_, fun i held => ?_⟩
      · rw [flag i rfl]
        exact steady.dead i
      · rw [flag i rfl]
        exact steady.stopping i
      · rw [flag i rfl] at held
        exact steady.active i held
  · simp at begun

theorem begin_none {binderIdentity : Option β} {lifetime : Option τ} {workId inst generation : Int}
    {platform : PlatformState} {nonce : Option String}
    (refused : k.begin binderIdentity lifetime workId inst generation platform nonce = (none, k')) :
    Steady k k' := by
  have steady := observe_steady k platform
  unfold begin at refused
  dsimp only at refused
  split at refused
  · split at refused
    · cases refused
      exact steady
    · simp at refused
  · cases refused
    exact steady

theorem commit_active (k : KeepWorkState β τ) (r : Nat) (platform : PlatformState) :
    (k.commit r platform).2.records.length = k.records.length ∧
      (∀ i, (k.commit r platform).2.record = some i → k.record = some i) ∧
      (∀ i, (k.commit r platform).2.has i (·.dead) = k.has i (·.dead)) ∧
      (∀ i, (k.commit r platform).2.has i (·.stopInFlight) = k.has i (·.stopInFlight)) ∧
      ∀ i, (k.commit r platform).2.has i (·.active) = true → k.has i (·.active) = true ∨ i = r := by
  have steady := observe_steady k platform
  unfold commit
  dsimp only
  split
  · exact ⟨steady.length, steady.slot, steady.dead, steady.stopping,
      fun i held => .inl (steady.active i held)⟩
  refine ⟨(update_length _ _ _).trans steady.length, steady.slot, fun i => ?_, fun i => ?_,
    fun i held => ?_⟩
  · exact (has_update_same _ r Record.activate i _ fun _ => rfl).trans (steady.dead i)
  · exact (has_update_same _ r Record.activate i _ fun _ => rfl).trans (steady.stopping i)
  by_cases same : i = r
  · exact .inr same
  · rw [has_update, if_neg same] at held
    exact .inl (steady.active i held)

/-- A death frees the slot, unless a stop is under way. -/
theorem died_slot (k : KeepWorkState β τ) (r : Nat) :
    (k.died r).records.length = k.records.length ∧
      (∀ i, (k.died r).record = some i → k.record = some i ∧ (i = r → k.has r (!·.stopInFlight) = false)) ∧
      (∀ i, (k.died r).has i (·.dead) = if i = r then decide (r < k.records.length) else k.has i (·.dead)) ∧
      (∀ i, (k.died r).has i (·.stopInFlight) = k.has i (·.stopInFlight)) ∧
      ∀ i, (k.died r).has i (·.active) = true → k.has i (·.active) = true := by
  have marked (i : Nat) : ((k.update r Record.die).retire r).has i (·.dead) =
      if i = r then decide (r < k.records.length) else k.has i (·.dead) := by
    rw [retire, has_update_same _ r Record.retire i _ fun _ => rfl, has_update]
    split
    · rename_i same
      rw [same]
      unfold has
      by_cases inside : r < k.records.length
      · simp [inside, Record.die]
      · simp [inside]
    · rfl
  have same (i : Nat) (holds : Record β τ → Bool) (dies : ∀ record, holds (Record.die record) = holds record)
      (retires : ∀ record, holds (Record.retire record) = holds record) :
      ((k.update r Record.die).retire r).has i holds = k.has i holds := by
    rw [retire, has_update_same _ r Record.retire i _ retires, has_update_same _ r Record.die i _ dies]
  have actives (i : Nat) (held : ((k.update r Record.die).retire r).has i (·.active) = true) :
      k.has i (·.active) = true :=
    (has_update_same k r Record.die i _ fun _ => rfl).symm.trans ((retire_steady _ r).active i held)
  unfold died
  dsimp only
  split
  · refine ⟨?_, by simp, marked, fun i => same i _ (fun _ => rfl) (fun _ => rfl), actives⟩
    exact (update_length _ _ _).trans (update_length _ _ _)
  rename_i kept
  refine ⟨(update_length _ _ _).trans (update_length _ _ _), fun i slot => ⟨slot, fun own => ?_⟩, marked,
    fun i => same i _ (fun _ => rfl) (fun _ => rfl), actives⟩
  have slot' : ((k.update r Record.die).retire r).record = some r := own ▸ slot
  rw [same r _ (fun _ => rfl) (fun _ => rfl)] at kept
  simpa [slot'] using kept

theorem beginStop_stopping (k : KeepWorkState β τ) (r : Nat) :
    (k.beginStop r).2.records.length = k.records.length ∧ (k.beginStop r).2.record = k.record ∧
      (∀ i, (k.beginStop r).2.has i (·.dead) = k.has i (·.dead)) ∧
      (∀ i, k.has i (·.stopInFlight) = true → (k.beginStop r).2.has i (·.stopInFlight) = true) ∧
      (∀ i, (k.beginStop r).2.has i (·.stopInFlight) = true →
        k.has i (·.stopInFlight) = true ∨ i = r ∧ (k.beginStop r).1 = true) ∧
      ∀ i, (k.beginStop r).2.has i (·.active) = true → k.has i (·.active) = true := by
  unfold beginStop
  split
  · exact ⟨rfl, rfl, fun _ => rfl, fun _ => id, fun _ held => .inl held, fun _ => id⟩
  refine ⟨update_length _ _ _, rfl, fun i => has_update_same _ r (Record.fly · true) i _ fun _ => rfl,
    fun i held => ?_, fun i held => ?_, fun i held => ?_⟩
  · rw [has_update]
    split
    · exact has_mono held fun _ _ => rfl
    · exact held
  · by_cases same : i = r
    · exact .inr ⟨same, rfl⟩
    · rw [has_update, if_neg same] at held
      exact .inl held
  · exact (has_update_same _ r (Record.fly · true) i _ fun _ => rfl).symm.trans held

/-- Finishing a stop frees the slot of a record that died meanwhile. -/
theorem finishStop_slot (k : KeepWorkState β τ) (r : Nat) :
    (k.finishStop r).records.length = k.records.length ∧
      (∀ i, (k.finishStop r).record = some i → k.record = some i ∧ (i = r → k.has r (·.dead) = false)) ∧
      (∀ i, (k.finishStop r).has i (·.dead) = k.has i (·.dead)) ∧
      (∀ i, i ≠ r → (k.finishStop r).has i (·.stopInFlight) = k.has i (·.stopInFlight)) ∧
      (k.finishStop r).has r (·.stopInFlight) = false ∧
      ∀ i, (k.finishStop r).has i (·.active) = true → k.has i (·.active) = true := by
  have dead (i : Nat) : (k.update r (Record.fly · false)).has i (·.dead) = k.has i (·.dead) :=
    has_update_same k r (Record.fly · false) i _ fun _ => rfl
  have others (i : Nat) (other : i ≠ r) :
      (k.update r (Record.fly · false)).has i (·.stopInFlight) = k.has i (·.stopInFlight) := by
    rw [has_update, if_neg other]
  have own : (k.update r (Record.fly · false)).has r (·.stopInFlight) = false := by
    rw [has_update, if_pos rfl]
    unfold has
    cases k.records[r]? <;> rfl
  have actives (i : Nat) (held : (k.update r (Record.fly · false)).has i (·.active) = true) :
      k.has i (·.active) = true :=
    (has_update_same k r (Record.fly · false) i _ fun _ => rfl).symm.trans held
  unfold finishStop
  dsimp only
  split
  · exact ⟨update_length _ _ _, by simp, dead, others, own, actives⟩
  rename_i kept
  refine ⟨update_length _ _ _, fun i slot => ⟨slot, fun same => ?_⟩, dead, others, own, actives⟩
  have slot' : k.record = some r := same ▸ slot
  rw [dead r, update_record] at kept
  simpa [slot'] using kept

end KeepWorkState
/-! ## The slot is never stranded -/

/-- A stop command between the begin and the end of its stop. -/
def StopPhase.flying : StopPhase → Bool
  | .checking | .authorizing | .stopping | .finishing => true
  | .cancelling | .beginning | .done => false

namespace KeepWork
variable {β τ : Type} {w t : KeepWork β τ}

/-- The record is not in the slot, or only as a tombstone. -/
def Left (w : KeepWork β τ) (r : Nat) : Prop :=
  w.state.record = some r → w.state.has r (·.dead) = true

/-- What a keep call knows of its record's link at each point. -/
def Knows (w : KeepWork β τ) (call : Keeping) : Prop :=
  match call.phase with
  | .linking | .finishing false => call.record ∉ w.removed
  | .linked | .posting | .checking | .committing | .finishing true => Linked w call.record
  | .cancelling _ true | .returned _ => Left w call.record ∨ Linked w call.record
  | .cancelling _ false | .unlinking _ => Left w call.record

/-- What every event keeps. -/
structure Sound (w : KeepWork β τ) : Prop where
  slot : ∀ r, w.state.record = some r → r < w.state.records.length
  owners : ∀ r < w.state.records.length, ∃ call ∈ w.calls, call.record = r
  calls : ∀ call ∈ w.calls, call.record < w.state.records.length
  apart : (w.calls.map Keeping.record).Nodup
  dead : ∀ r, w.state.record = some r → w.state.has r (·.dead) = true →
    w.state.has r (·.stopInFlight) = true
  flying : ∀ r, w.state.has r (·.stopInFlight) = true →
    ∃ command ∈ w.commands, command.record = r ∧ command.phase.flying = true
  active : ∀ r, w.state.has r (·.active) = true → r ∈ w.made
  removals : ∀ r ∈ w.removed, r < w.state.records.length
  knows : ∀ call ∈ w.calls, Knows w call

/-- The step at which the slot could be stranded: a keep whose link was not
established finishes while its record is in the slot, retired and not dead. -/
def Strands (w : KeepWork β τ) : Event β τ → Prop
  | .call n _ => ∃ call, w.calls[n]? = some call ∧ call.phase = .finishing false ∧
    call.record ∉ w.made ∧ w.state.record = some call.record ∧
    w.state.has call.record (·.retiring) = true ∧ w.state.has call.record (·.dead) = false
  | _ => False

instance (w : KeepWork β τ) (event : Event β τ) : Decidable (Strands w event) :=
  match event with
  | .call n _ => decidable_of_iff
      ((w.calls[n]?).any (fun call => decide (call.phase = .finishing false ∧
        call.record ∉ w.made ∧ w.state.record = some call.record ∧
        w.state.has call.record (·.retiring) = true ∧ w.state.has call.record (·.dead) = false)) = true)
      (by simp only [Option.any_eq_true, decide_eq_true_eq, Strands])
  | .keep .. => .isFalse id
  | .stop .. => .isFalse id
  | .notificationRevoked _ => .isFalse id
  | .command .. => .isFalse id
  | .lifecycle _ => .isFalse id
  | .platformChanged => .isFalse id
  | .snapshot => .isFalse id
  | .processDied _ => .isFalse id
  | .callback _ => .isFalse id

/-- What the knowledge of the calls survives: the slot is kept or freed, the dead
stay dead, and no link is removed but that of the acting call's record. -/
structure Keeps (w t : KeepWork β τ) (acting : Option Nat) : Prop where
  slot : ∀ r < w.state.records.length, t.state.record = some r → w.state.record = some r
  dead : ∀ r, w.state.has r (·.dead) = true → t.state.has r (·.dead) = true
  made : ∀ r ∈ w.made, r ∈ t.made
  removed : ∀ r ∈ t.removed, r ∈ w.removed ∨ acting = some r

variable {acting : Option Nat}

theorem Keeps.left (keeps : Keeps w t acting)
    (inside : r < w.state.records.length) (left : Left w r) : Left t r :=
  fun slot => keeps.dead r (left (keeps.slot r inside slot))

theorem Keeps.kept (keeps : Keeps w t acting) (other : acting ≠ some r)
    (kept : r ∉ w.removed) : r ∉ t.removed :=
  fun gone => (keeps.removed r gone).elim kept other

theorem Keeps.linked (keeps : Keeps w t acting)
    (other : acting ≠ some r) (linked : Linked w r) : Linked t r :=
  ⟨keeps.made r linked.1, keeps.kept other linked.2⟩

theorem Keeps.knows (keeps : Keeps w t acting) {call : Keeping}
    (other : acting ≠ some call.record) (inside : call.record < w.state.records.length)
    (knows : Knows w call) : Knows t call := by
  unfold Knows at *
  split at knows
  · exact keeps.kept other knows
  · exact keeps.kept other knows
  all_goals first
    | exact keeps.linked other knows
    | exact knows.imp (keeps.left inside) (keeps.linked other)
    | exact keeps.left inside knows

/-- What the slot alone keeps, whoever changes it. -/
structure Slotted (w t : KeepWork β τ) : Prop where
  length : t.state.records.length = w.state.records.length
  slot : ∀ r, t.state.record = some r → w.state.record = some r
  mono : ∀ r, w.state.has r (·.dead) = true → t.state.has r (·.dead) = true
  dead : ∀ r, t.state.record = some r → t.state.has r (·.dead) = true →
    t.state.has r (·.stopInFlight) = true
  active : ∀ r, t.state.has r (·.active) = true → r ∈ t.made
  made : ∀ r ∈ w.made, r ∈ t.made

theorem Slotted.keeps (slotted : Slotted w t)
    (removed : ∀ r ∈ t.removed, r ∈ w.removed ∨ acting = some r) : Keeps w t acting :=
  ⟨fun r _ => slotted.slot r, slotted.mono, slotted.made, removed⟩

theorem Sound.slotted (sound : Sound w) (steady : KeepWorkState.Steady w.state t.state)
    (made : ∀ r ∈ w.made, r ∈ t.made) : Slotted w t where
  length := steady.length
  slot := steady.slot
  mono r held := (steady.dead r).trans held
  dead r held died := by
    rw [steady.stopping]
    exact sound.dead r (steady.slot r held) ((steady.dead r).symm.trans died)
  active r held := made r (sound.active r (steady.active r held))
  made := made

theorem Sound.slotted_died (sound : Sound w) (died : t.state = w.state.died r)
    (made : t.made = w.made) : Slotted w t := by
  obtain ⟨length, slot, dead, stopping, active⟩ := died_slot w.state r
  refine ⟨died ▸ length, fun i held => (slot i (died ▸ held)).1, fun i held => ?_, fun i held gone => ?_,
    fun i held => ?_, fun i => made ▸ id⟩
  · rw [died, dead]
    split
    · rename_i same
      exact decide_eq_true (same ▸ has_lt held)
    · exact held
  · rw [died] at held gone ⊢
    obtain ⟨kept, flies⟩ := slot i held
    rw [stopping]
    by_cases same : i = r
    · subst same
      have inside := sound.slot i kept
      have flying := flies rfl
      unfold has at flying ⊢
      rw [List.getElem?_eq_getElem inside] at flying ⊢
      simpa using flying
    · rw [dead, if_neg same] at gone
      exact sound.dead i kept gone
  · rw [made]
    rw [died] at held
    exact sound.active i (active i held)

variable {n : Nat}

/-- The acting call goes on to another phase. -/
theorem Sound.call (sound : Sound w) {call : Keeping} (found : w.calls[n]? = some call)
    (phase : KeepPhase) (slotted : Slotted w t)
    (calls : t.calls = w.calls.modify n fun call => { call with phase })
    (commands : t.commands = w.commands)
    (flying : ∀ r, t.state.has r (·.stopInFlight) = w.state.has r (·.stopInFlight))
    (removed : ∀ r ∈ t.removed, r ∈ w.removed ∨ some call.record = some r)
    (knows : Knows t ⟨call.record, phase⟩) : Sound t := by
  obtain ⟨before, after, split, changed⟩ := Lib.modify_split found fun call => { call with phase }
  rw [changed] at calls
  have inside {r : Nat} (below : r < w.state.records.length) : r < t.state.records.length :=
    slotted.length ▸ below
  have old {other : Keeping} (among : other ∈ t.calls) :
      other = { call with phase } ∨ other ∈ w.calls ∧ some call.record ≠ some other.record := by
    have apart := sound.apart
    rw [split, map_append, map_cons, nodup_append, nodup_cons] at apart
    rw [calls] at among
    rcases mem_append.mp among with earlier | rest
    · refine .inr ⟨split ▸ mem_append_left _ earlier, fun same => ?_⟩
      exact apart.2.2 _ (mem_map_of_mem earlier) _ (by simp) (some_inj.mp same).symm
    rcases mem_cons.mp rest with own | later
    · exact .inl own
    · refine .inr ⟨split ▸ mem_append_right _ (mem_cons_of_mem _ later), fun same => ?_⟩
      exact apart.2.1.1 (some_inj.mp same ▸ mem_map_of_mem later)
  have mine : call ∈ w.calls := mem_of_getElem? found
  have records : t.calls.map Keeping.record = w.calls.map Keeping.record := by
    rw [calls, split]
    simp
  refine ⟨fun r held => inside (sound.slot r (slotted.slot r held)), fun r below => ?_, fun other among => ?_,
    records ▸ sound.apart, slotted.dead, fun r flies => ?_, slotted.active, fun r gone => ?_,
    fun other among => ?_⟩
  · obtain ⟨other, among, same⟩ := sound.owners r (slotted.length ▸ below)
    have present : r ∈ t.calls.map Keeping.record := by
      rw [records, ← same]
      exact mem_map_of_mem among
    exact mem_map.mp present
  · rcases old among with rfl | ⟨among, -⟩
    · exact inside (sound.calls call mine)
    · exact inside (sound.calls other among)
  · rw [commands]
    exact sound.flying r (flying r ▸ flies)
  · rcases removed r gone with gone | same
    · exact inside (sound.removals r gone)
    · exact inside (some_inj.mp same ▸ sound.calls call mine)
  · rcases old among with rfl | ⟨among, other_⟩
    · exact knows
    · exact (slotted.keeps removed).knows other_ (sound.calls other among) (sound.knows other among)

theorem Sound.other (sound : Sound w) (slotted : Slotted w t) (calls : t.calls = w.calls)
    (removed : t.removed = w.removed)
    (flying : ∀ r, t.state.has r (·.stopInFlight) = true →
      ∃ command ∈ t.commands, command.record = r ∧ command.phase.flying = true) : Sound t := by
  have keeps : Keeps w t none := slotted.keeps fun r => removed ▸ Or.inl
  refine ⟨fun r held => ?_, fun r below => ?_, fun call among => ?_, calls ▸ sound.apart, slotted.dead, flying,
    slotted.active, fun r gone => ?_, fun call among => ?_⟩
  · rw [slotted.length]
    exact sound.slot r (slotted.slot r held)
  · rw [calls]
    exact sound.owners r (slotted.length ▸ below)
  · rw [slotted.length]
    exact sound.calls call (calls ▸ among)
  · rw [slotted.length]
    exact sound.removals r (removed ▸ gone)
  · rw [calls] at among
    exact keeps.knows (by simp) (sound.calls call among) (sound.knows call among)

/-- A steady change by anyone but a keep call or a stop command. -/
theorem Sound.steady (sound : Sound w) {state : KeepWorkState β τ}
    (steady : KeepWorkState.Steady w.state state) {commands : List Stopping}
    (more : ∀ command ∈ w.commands, command ∈ commands) : Sound { w with state, commands } := by
  refine sound.other (sound.slotted steady fun _ => id) rfl rfl fun r flies => ?_
  obtain ⟨command, among, same⟩ := sound.flying r ((steady.stopping r).symm.trans flies)
  exact ⟨command, more command among, same⟩

theorem keep_sound (sound : Sound w) (identity : Option β) (lifetime : Option τ)
    (workId inst generation : Int) (nonce : String) :
    Sound (w.keep identity lifetime workId inst generation nonce) := by
  unfold keep
  split
  · exact sound
  split
  · rename_i state refused
    exact sound.steady (begin_none refused) fun _ => id
  rename_i r state begun
  obtain ⟨rfl, free, slot, length, dead, stopping, active⟩ := begin_some begun
  have keeps : Keeps w { w with state, calls := w.calls ++ [⟨w.state.records.length, .linking⟩] }
      none := by
    refine ⟨fun r below held => ?_, fun r held => (dead r).trans held, fun _ => id, fun _ => .inl⟩
    have same : w.state.records.length = r := some_inj.mp (slot.symm.trans held)
    omega
  refine ⟨fun r held => ?_, fun r below => ?_, Lib.forall_mem_snoc (fun call among => ?_) ?_, ?_,
    fun r held gone => ?_, fun r flies => sound.flying r ((stopping r).symm.trans flies),
    fun r held => sound.active r (active r held), fun r gone => ?_,
    Lib.forall_mem_snoc (fun call among => ?_) fun gone => ?_⟩
  · have same : w.state.records.length = r := some_inj.mp (slot.symm.trans held)
    dsimp only
    omega
  · dsimp only at below
    by_cases last : r = w.state.records.length
    · exact ⟨_, mem_append_right _ mem_cons_self, last.symm⟩
    · obtain ⟨call, among, same⟩ := sound.owners r (by omega)
      exact ⟨call, mem_append_left _ among, same⟩
  · have below := sound.calls call among
    dsimp only
    omega
  · rw [length]
    exact Nat.lt_succ_self _
  · rw [map_append, nodup_append]
    refine ⟨sound.apart, by simp, fun r among other new => ?_⟩
    obtain ⟨call, inside, rfl⟩ := mem_map.mp among
    have below := sound.calls call inside
    rw [map_singleton, mem_singleton] at new
    rw [new]
    exact Nat.ne_of_lt below
  · have same : w.state.records.length = r := some_inj.mp (slot.symm.trans held)
    have below := has_lt ((dead r).symm.trans gone)
    omega
  · have below := sound.removals r gone
    dsimp only
    omega
  · exact keeps.knows (by simp) (sound.calls call among) (sound.knows call among)
  · exact absurd (sound.removals _ gone) (Nat.lt_irrefl _)

theorem left_of_unbound (inside : ∀ r, w.state.record = some r → r < w.state.records.length)
    (unbound : w.state.isBound r = false) : Left w r := by
  intro slot
  have below := inside r slot
  unfold isBound has at unbound
  unfold has
  rw [List.getElem?_eq_getElem below] at unbound ⊢
  simpa [slot] using unbound

/-- Without a link, a record that is bound after the abort was retired before. -/
theorem strands_of_bound (sound : Sound w) (unlinked : r ∉ w.made)
    (bound : (w.state.abort r).isBound r = true) :
    w.state.record = some r ∧ w.state.has r (·.retiring) = true ∧ w.state.has r (·.dead) = false := by
  have steady := abort_steady w.state r
  simp only [isBound, Bool.and_eq_true, decide_eq_true_eq] at bound
  have slot := steady.slot r bound.1
  have below := sound.slot r slot
  have dead := steady.dead r
  have kept : ¬ (w.state.record = some r ∧
      w.state.has r (fun record => !record.active && !record.retiring) = true) := by
    intro freed
    unfold abort at bound
    rw [if_pos freed] at bound
    cases bound.1
  have idle : w.state.has r (·.active) = false := by
    cases active : w.state.has r (·.active) with
    | false => rfl
    | true => exact absurd (sound.active r active) unlinked
  have alive : (w.state.abort r).has r (·.dead) = false := by
    have lives := bound.2
    have below' : r < (w.state.abort r).records.length := steady.length ▸ below
    unfold has at lives ⊢
    rw [List.getElem?_eq_getElem below'] at lives ⊢
    simpa using lives
  refine ⟨slot, ?_, dead ▸ alive⟩
  have held := fun free => kept ⟨slot, free⟩
  unfold has at idle held ⊢
  rw [List.getElem?_eq_getElem below] at idle held ⊢
  simpa [show (w.state.records[r]).active = false by simpa using idle] using held

/-- The lock section of the `finally` block. -/
theorem finishing_sound (sound : Sound w) {call : Keeping} (found : w.calls[n]? = some call)
    {committed : Bool} (phase : call.phase = .finishing committed) (outcome : Outcome)
    (safe : ¬ Strands w (.call n outcome)) :
    Sound { w.enter n (.cancelling committed
        ((if committed then w.state else w.state.abort call.record).isBound call.record)) with
      state := if committed then w.state else w.state.abort call.record } := by
  have mine : call ∈ w.calls := mem_of_getElem? found
  have knows := sound.knows call mine
  have steady : KeepWorkState.Steady w.state
      (if committed then w.state else w.state.abort call.record) := by
    split
    · exact .refl
    · exact abort_steady w.state call.record
  refine sound.call found _ (sound.slotted steady fun _ => id) rfl rfl steady.stopping (fun _ => .inl) ?_
  cases bound : (if committed then w.state else w.state.abort call.record).isBound call.record with
  | false =>
    refine left_of_unbound (fun r held => ?_) bound
    exact steady.length ▸ sound.slot r (steady.slot r held)
  | true =>
    right
    cases committed with
    | true =>
      simp only [Knows, phase] at knows
      exact knows
    | false =>
      simp only [Knows, phase] at knows
      refine ⟨?_, knows⟩
      by_contra unlinked
      have stranded := strands_of_bound sound unlinked bound
      exact safe ⟨call, found, phase, unlinked, stranded⟩

variable [DecidableEq τ]

theorem keepStep_sound (sound : Sound w) {call : Keeping} (found : w.calls[n]? = some call)
    (outcome : Outcome) (safe : ¬ Strands w (.call n outcome)) : Sound (w.keepStep n call outcome) := by
  have mine : call ∈ w.calls := mem_of_getElem? found
  have knows := sound.knows call mine
  have inside := sound.calls call mine
  -- The call goes on, and the state stays as it is.
  have on {phase : KeepPhase} (next : Knows (w.enter n phase) ⟨call.record, phase⟩) :
      Sound (w.enter n phase) :=
    sound.call found phase (sound.slotted .refl fun _ => id) rfl rfl (fun _ => rfl) (fun _ => .inl) next
  unfold keepStep
  dsimp only
  split
  · rename_i phase
    simp only [Knows, phase] at knows
    split
    · split
      · exact sound
      · refine sound.call found .linked (sound.slotted .refl fun r => mem_cons_of_mem _) rfl rfl
          (fun _ => rfl) (fun _ => .inl) ?_
        exact ⟨mem_cons_self, knows⟩
    · exact on knows
    · exact on knows
    · refine sound.call found (.finishing false) (sound.slotted_died rfl rfl) rfl rfl
        (died_slot w.state call.record).2.2.2.1 (fun _ => .inl) knows
  · rename_i phase
    simp only [Knows, phase] at knows
    have steady := linked_steady w.state call.record w.lifecycle.snapshot
    refine sound.call found _ (sound.slotted steady fun _ => id) rfl rfl steady.stopping
      (fun _ => .inl) ?_
    split
    · exact knows
    · exact knows.2
  · rename_i phase
    simp only [Knows, phase] at knows
    refine on ?_
    split
    · exact knows
    · exact knows.2
  · rename_i phase
    simp only [Knows, phase] at knows
    refine on ?_
    split
    · exact knows
    · exact knows.2
  · rename_i phase
    simp only [Knows, phase] at knows
    obtain ⟨length, slot, dead, stopping, active⟩ :=
      commit_active w.state call.record w.lifecycle.snapshot
    refine sound.call found _ ⟨length, slot, fun r held => (dead r).trans held, fun r held gone => ?_,
      fun r held => ?_, fun _ => id⟩ rfl rfl stopping (fun _ => .inl) ?_
    · dsimp only at held gone ⊢
      rw [stopping]
      exact sound.dead r (slot r held) ((dead r).symm.trans gone)
    · rcases active r held with old | rfl
      · exact sound.active r old
      · exact knows.1
    · cases committed : (w.state.commit call.record w.lifecycle.snapshot).1 with
      | true => exact knows
      | false => exact knows.2
  · rename_i committed phase
    exact finishing_sound sound found phase outcome safe
  · rename_i committed bound phase
    simp only [Knows, phase] at knows
    refine on ?_
    cases bound with
    | true | false => exact knows
  · rename_i committed phase
    simp only [Knows, phase] at knows
    refine sound.call found (.returned committed) (sound.slotted .refl fun _ => id) rfl rfl
      (fun _ => rfl) ?_ (.inl knows)
    intro r gone
    dsimp only at gone
    split at gone
    · rcases mem_cons.mp gone with rfl | old
      · exact .inr rfl
      · exact .inl old
    · exact .inl gone
  · exact sound

omit [DecidableEq τ] in
/-- A stop under way keeps its command, while that command goes on. -/
theorem Sound.flying_proceed (sound : Sound w) {command : Stopping}
    (found : w.commands[n]? = some command) (phase : StopPhase)
    (flies : w.state.has r (·.stopInFlight) = true)
    (still : command.record = r → command.phase.flying = true → phase.flying = true) :
    ∃ other ∈ (w.proceed n phase).commands, other.record = r ∧ other.phase.flying = true := by
  obtain ⟨other, among, own, flying⟩ := sound.flying r flies
  obtain ⟨before, after, split, changed⟩ := Lib.modify_split found fun command => { command with phase }
  simp only [proceed, changed]
  rw [split] at among
  rcases mem_append.mp among with earlier | rest
  · exact ⟨other, mem_append_left _ earlier, own, flying⟩
  · rcases mem_cons.mp rest with rfl | later
    · exact ⟨{ other with phase }, by simp, own, still own flying⟩
    · exact ⟨other, mem_append_right _ (mem_cons_of_mem _ later), own, flying⟩

omit [DecidableEq τ] in
theorem stopStep_sound (sound : Sound w) {command : Stopping}
    (found : w.commands[n]? = some command) (outcome : Outcome) : Sound (w.stopStep n command outcome) := by
  -- The command goes on, and the state stays as it is.
  have on (phase : StopPhase) (still : command.phase.flying = true → phase.flying = true) :
      Sound (w.proceed n phase) :=
    sound.other (sound.slotted .refl fun _ => id) rfl rfl fun r flies =>
      sound.flying_proceed found phase flies fun _ => still
  unfold stopStep
  dsimp only
  split
  · rename_i phase
    exact on .beginning (by simp [phase, StopPhase.flying])
  · rename_i phase
    obtain ⟨length, slot, dead, more, stopping, active⟩ :=
      beginStop_stopping w.state command.record
    refine sound.other ⟨length, fun r => by rw [slot]; exact id, fun r held => (dead r).trans held,
      fun r held gone => more r ?_, fun r held => sound.active r (active r held), fun _ => id⟩ rfl rfl
      fun r flies => ?_
    · exact sound.dead r (slot ▸ held) ((dead r).symm.trans gone)
    rcases stopping r flies with old | ⟨own, begun⟩
    · exact sound.flying_proceed found _ old (by simp [phase, StopPhase.flying])
    refine ⟨{ command with phase := .checking }, ?_, own.symm, rfl⟩
    have listed : ({ command with phase := .checking } : Stopping) ∈ w.commands.modify n fun other =>
        { other with phase := if (w.state.beginStop command.record).1 then .checking else .done } := by
      obtain ⟨before, after, -, changed⟩ := Lib.modify_split found fun other =>
        { other with phase := if (w.state.beginStop command.record).1 then .checking else .done }
      rw [changed, begun]
      simp
    exact listed
  · rename_i phase
    split
    · exact on .authorizing fun _ => rfl
    · refine sound.other (sound.slotted_died rfl rfl) rfl rfl fun r flies => ?_
      rw [(died_slot w.state command.record).2.2.2.1] at flies
      exact sound.flying_proceed found .finishing flies fun _ _ => rfl
    · exact on .finishing fun _ => rfl
    · exact on .finishing fun _ => rfl
  · refine on _ fun _ => ?_
    split <;> rfl
  · exact on .finishing fun _ => rfl
  · rename_i phase
    obtain ⟨length, slot, dead, others, own, active⟩ :=
      finishStop_slot w.state command.record
    refine sound.other ⟨length, fun r held => (slot r held).1, fun r held => (dead r).trans held,
      fun r held gone => ?_, fun r held => sound.active r (active r held), fun _ => id⟩ rfl rfl
      fun r flies => ?_
    · obtain ⟨kept, lives⟩ := slot r held
      have gone' : w.state.has r (·.dead) = true := (dead r).symm.trans gone
      by_cases same : r = command.record
      · rw [same, lives same] at gone'
        cases gone'
      · exact (others r same).trans (sound.dead r kept gone')
    · by_cases same : r = command.record
      · rw [same] at flies
        rw [own] at flies
        cases flies
      · rw [others r same] at flies
        exact sound.flying_proceed found .done flies fun own => absurd own.symm same
  · exact sound

/-- Every event keeps it, except one that strands the slot. -/
theorem step_sound (sound : Sound w) (event : Event β τ) (safe : ¬ Strands w event) :
    Sound (w.step event) := by
  cases event with
  | keep identity lifetime workId inst generation nonce =>
    exact keep_sound sound identity lifetime workId inst generation nonce
  | call n outcome =>
    simp only [step]
    split
    · exact sound
    · rename_i call found
      exact keepStep_sound sound found outcome safe
  | stop token accepted =>
    have steady := stop_steady w.state token
    simp only [step, execute]
    split
    · rename_i state same
      rw [same] at steady
      exact sound.steady steady fun _ => id
    rename_i r state same
    rw [same] at steady
    refine sound.steady steady fun command among => ?_
    split
    · exact mem_append_left _ among
    · exact among
  | notificationRevoked accepted =>
    have steady := revokeNotification_steady w.state
    simp only [step, execute]
    split
    · rename_i state same
      rw [same] at steady
      exact sound.steady steady fun _ => id
    rename_i r state same
    rw [same] at steady
    refine sound.steady steady fun command among => ?_
    split
    · exact mem_append_left _ among
    · exact among
  | command n outcome =>
    simp only [step]
    split
    · exact sound
    · rename_i command found
      exact stopStep_sound sound found outcome
  | lifecycle next | processDied lifetime =>
    exact sound.other (sound.slotted .refl fun _ => id) rfl rfl sound.flying
  | platformChanged => exact sound.steady (observe_steady _ _) fun _ => id
  | snapshot => exact sound.steady (active_steady _ _) fun _ => id
  | callback r =>
    simp only [step]
    split
    · refine sound.other (sound.slotted_died rfl rfl) rfl rfl fun i flies => ?_
      rw [(died_slot w.state r).2.2.2.1] at flies
      exact sound.flying i flies
    · exact sound

/-- No event of the run strands the slot. -/
def Safe (w : KeepWork β τ) : List (Event β τ) → Prop
  | [] => True
  | event :: events => ¬ Strands w event ∧ Safe (w.step event) events

instance decidableSafe (w : KeepWork β τ) : (events : List (Event β τ)) → Decidable (Safe w events)
  | [] => .isTrue trivial
  | event :: events =>
    have := decidableSafe (w.step event) events
    inferInstanceAs (Decidable (¬ Strands w event ∧ Safe (w.step event) events))

theorem run_sound {events : List (Event β τ)} (sound : Sound w) (safe : Safe w events) :
    Sound (w.run events) := by
  induction events generalizing w with
  | nil => exact sound
  | cons event events ih => exact ih (step_sound sound event safe.1) safe.2

omit [DecidableEq τ] in
theorem Sound.settled (sound : Sound w) (quiet : Quiet w) (r : Nat) :
    w.state.has r (·.stopInFlight) = false := by
  cases flies : w.state.has r (·.stopInFlight) with
  | false => rfl
  | true =>
    obtain ⟨command, among, -, flying⟩ := sound.flying r flies
    rw [quiet.2 command among] at flying
    cases flying

/-- The system before its first event. -/
def start (enabled : Bool) (state : KeepWorkState β τ) : KeepWork β τ := { enabled, state }

omit [DecidableEq τ] in
theorem start_sound {enabled : Bool} {inst : Int} {state : KeepWorkState β τ}
    (made : create β τ inst = some state) : Sound (start enabled state) := by
  unfold create at made
  split at made
  · cases made
  cases made
  refine ⟨by simp [start], by simp [start], by simp [start], by simp [start], by simp [start], ?_, ?_,
    by simp [start], by simp [start]⟩
  · simp [start, has]
  · simp [start, has]

/-- A record in the slot of a quiet system has a death link that was established
and not removed, and the report of its process's death frees the slot. -/
theorem keep_slot_is_not_stranded {enabled : Bool} {inst : Int} {state : KeepWorkState β τ}
    (made : create β τ inst = some state) {events : List (Event β τ)}
    (safe : Safe (start enabled state) events) (quiet : Quiet ((start enabled state).run events)) {r : Nat}
    (slot : ((start enabled state).run events).state.record = some r) :
    Linked ((start enabled state).run events) r ∧
      ∀ lifetime, (((start enabled state).run events).step (.processDied lifetime)).hasDied r = true →
        ((((start enabled state).run events).step (.processDied lifetime)).step
          (.callback r)).state.record = none := by
  have sound := run_sound (start_sound made) safe
  generalize (start enabled state).run events = w at *
  have still := sound.settled quiet r
  have linked : Linked w r := by
    obtain ⟨call, among, rfl⟩ := sound.owners r (sound.slot r slot)
    have knows := sound.knows call among
    have ended := quiet.1 call among
    unfold Knows at knows
    split at knows
    -- Only a call that has returned is left.
    all_goals
      rename_i phase
      rw [phase] at ended
      cases ended
    rcases knows with left | linked
    · rw [sound.dead _ slot (left slot)] at still
      cases still
    · exact linked
  refine ⟨linked, fun lifetime died => ?_⟩
  have reported : r ∈ (w.step (.processDied lifetime)).made ∧
      (w.step (.processDied lifetime)).hasDied r = true := ⟨linked.1, died⟩
  have freed := (died_slot w.state r).2.1
  change (if _ then _ else _ : KeepWork β τ).state.record = none
  rw [if_pos reported]
  change (w.state.died r).record = none
  cases kept : (w.state.died r).record with
  | none => rfl
  | some i =>
    obtain ⟨held, flies⟩ := freed i kept
    have same : i = r := some_inj.mp (held.symm.trans slot)
    have below := sound.slot r slot
    have flying := flies same
    unfold has at flying still
    rw [List.getElem?_eq_getElem below] at flying still
    simp only [any_some, Bool.not_eq_false'] at flying still
    rw [flying] at still
    cases still

/-- A platform on which work may run, and one whose storage was revoked. -/
def readyLifecycle : OwnerLifecycleState := { userReady := true, ceReady := true }

def revokedLifecycle : OwnerLifecycleState := { generation := 2, userReady := true }

def sampleKeep : Event Nat Nat := .keep (some 0) (some 0) 7 1 1 "nonce"

/-- A keep whose link is established and whose grant is committed. -/
def committedEvents : List (Event Nat Nat) :=
  [.lifecycle readyLifecycle, sampleKeep, .call 0 .ok, .call 0 .ok, .call 0 .ok, .call 0 .ok, .call 0 .ok,
    .call 0 .ok, .call 0 .ok]

theorem committed_slot_is_linked :
    Linked ((start true { instanceId := 1 }).run committedEvents) 0 := by
  have made : create Nat Nat 1 = some { instanceId := 1 } := by decide
  have safe : Safe (start true { instanceId := 1 }) committedEvents := by decide +kernel
  have quiet : Quiet ((start true { instanceId := 1 }).run committedEvents) := by
    unfold Quiet
    decide +kernel
  have slot : ((start true { instanceId := 1 }).run committedEvents).state.record = some 0 := by
    decide +kernel
  exact (keep_slot_is_not_stranded made safe quiet slot).1

/-- A keep whose link throws while the platform is revoked. -/
def strandingEvents : List (Event Nat Nat) :=
  [.lifecycle readyLifecycle, sampleKeep, .lifecycle revokedLifecycle, .platformChanged, .call 0 .threw,
    .call 0 .ok, .call 0 .ok]

theorem keep_slot_stranded :
    Quiet ((start true { instanceId := 1 }).run strandingEvents) ∧
      ((start true { instanceId := 1 }).run strandingEvents).state.record = some 0 ∧
      ((start true { instanceId := 1 }).run strandingEvents).made = [] := by
  unfold Quiet
  decide +kernel

end KeepWork
end Andrix.Platform
