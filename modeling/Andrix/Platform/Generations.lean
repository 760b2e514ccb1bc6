import Andrix.Platform.Told
import Andrix.Platform.WorkCalls

/-! The owner's lifecycle behind the storage tracker. The tracker is called by
anyone; the snapshots it publishes for the owner's user since the owner
registered wait outside its lock and arrive in any order, each at most once,
between user callbacks, at most one bootstrap and calls on the keep slot. -/
namespace Andrix.Platform
open List KeepWorkState
open Tracker (Told Over Final mine)
open Lib (Moment past after past_induction past_ordered Ordered)

structure Owner (α β τ : Type) where
  userId : Int
  listener : Nat
  tracker : Tracker α
  /-- What the tracker published for the user: the snapshot that the registration
  returned and all later ones. Empty before the registration. -/
  told : List Snapshot := []
  /-- Those not delivered yet. -/
  waiting : List Snapshot := []
  lifecycle : OwnerLifecycleState := {}
  bootstrapped : Bool := false
  work : KeepWorkState β τ

inductive OwnerEvent (α β τ : Type) where
  | tracker (call : Tracker.Call α)
  | register
  | deliver (k : Nat)
  | user (ready : Bool)
  | bootstrap (expected : Nat) (ready : Bool)
  | work (call : WorkCall β τ)

namespace Owner
variable {α β τ : Type} [DecidableEq α]

def callTracker (o : Owner α β τ) (call : Tracker.Call α) : Owner α β τ :=
  let (answer, tracker) := o.tracker.call call
  -- Before the registration nothing is meant for the owner.
  if o.told = [] then { o with tracker }
  else
    { o with
      tracker, told := o.told ++ mine o.userId answer.events
      waiting := o.waiting ++ mine o.userId answer.events }

def register (o : Owner α β τ) : Owner α β τ :=
  if o.told ≠ [] then o
  else
    let (answer, tracker) := o.tracker.register o.userId o.listener
    match answer.outcome with
    | .snapshot state => { o with tracker, told := [state], waiting := [state] }
    | _ => { o with tracker }

def deliver (o : Owner α β τ) (k : Nat) : Owner α β τ :=
  match o.waiting[k]? with
  | none => o
  | some v =>
    { o with
      waiting := o.waiting.eraseIdx k
      lifecycle := o.lifecycle.ce v.sequence v.revocation v.available }

/-- One event; the answer is that of a call on the keep slot. -/
def step (o : Owner α β τ) : OwnerEvent α β τ → Bool × Owner α β τ
  | .tracker call => (true, o.callTracker call)
  | .register => (true, o.register)
  | .deliver k => (true, o.deliver k)
  | .user ready => (true, { o with lifecycle := o.lifecycle.user ready })
  | .bootstrap expected ready =>
    if o.bootstrapped then (false, o)
    else
      (true,
        { o with bootstrapped := true, lifecycle := o.lifecycle.bootstrapUser expected ready })
  | .work call =>
    ((o.work.work o.lifecycle.snapshot call).1,
      { o with work := (o.work.work o.lifecycle.snapshot call).2 })

end Owner

/-! ## The lifecycle alone -/

namespace OwnerLifecycleState
variable {l l' l'' : OwnerLifecycleState}

/-- A counter of the lifecycle is used up. -/
def Spent (l : OwnerLifecycleState) : Prop :=
  l.failed = false ∧ (longMax - 1 ≤ l.generation ∨ longMax ≤ l.userRevision)

/-- From one state to a later one: the generation never falls, and while it
stays the revocation number of an accepted snapshot stays. -/
structure Moved (l l' : OwnerLifecycleState) : Prop where
  generation : l.generation ≤ l'.generation
  failed : l'.failed = false → l.failed = false
  sequence : l'.failed = false → l.ceSequence ≤ l'.ceSequence
  revocation : l'.failed = false → l.generation = l'.generation →
    l.ceRevocation = -1 ∨ l.ceRevocation = l'.ceRevocation

theorem Moved.refl (l : OwnerLifecycleState) : Moved l l :=
  ⟨le_rfl, id, fun _ => le_rfl, fun _ _ => .inr rfl⟩

theorem Moved.trans (first : Moved l l') (second : Moved l' l'') : Moved l l'' := by
  refine ⟨first.generation.trans second.generation, fun alive => first.failed (second.failed alive),
    fun alive => (first.sequence (second.failed alive)).trans (second.sequence alive), fun alive same => ?_⟩
  have up := first.generation
  have up' := second.generation
  rcases first.revocation (second.failed alive) (by omega) with none | early
  · exact .inl none
  · rcases second.revocation alive (by omega) with none | late
    · exact .inl (early.trans none)
    · exact .inr (early.trans late)

theorem Moved.fails (limit : l.generation ≤ longMax) : Moved l l.fail :=
  ⟨limit, Bool.noConfusion, Bool.noConfusion, Bool.noConfusion⟩

/-- Only the user's readiness or the count of its callbacks changes. -/
theorem Moved.same (generation : l'.generation = l.generation) (failed : l'.failed = l.failed)
    (sequence : l'.ceSequence = l.ceSequence) (revocation : l'.ceRevocation = l.ceRevocation) :
    Moved l l' :=
  ⟨generation.ge, fun alive => failed ▸ alive, fun _ => sequence.ge, fun _ _ => .inr revocation.symm⟩

theorem revoke_cases (l : OwnerLifecycleState) :
    longMax - 1 ≤ l.generation ∧ l.revoke = l.fail ∨
      l.generation < longMax - 1 ∧ l.revoke = { l with generation := l.generation + 1 } := by
  unfold revoke
  split
  · exact .inl ⟨‹_›, rfl⟩
  · exact .inr ⟨Nat.lt_of_not_le ‹_›, rfl⟩

theorem user_moved (limit : l.generation ≤ longMax) (ready : Bool) : Moved l (l.user ready) := by
  unfold user
  split
  · exact .refl l
  split
  · exact .fails limit
  cases ready with
  | true => exact .same rfl rfl rfl rfl
  | false =>
    simp only [Bool.not_false, if_true]
    rcases revoke_cases { l with userRevision := l.userRevision + 1 } with ⟨-, made⟩ | ⟨-, made⟩
    · rw [made]
      exact ⟨limit, Bool.noConfusion, Bool.noConfusion, Bool.noConfusion⟩
    · rw [made]
      exact ⟨Nat.le_succ _, id, fun _ => le_rfl, fun _ _ => .inr rfl⟩

theorem ce_moved (limit : l.generation ≤ longMax) (sequence revocation : Int) (available : Bool) :
    Moved l (l.ce sequence revocation available) := by
  unfold ce
  split
  · exact .refl l
  split
  · exact .fails limit
  split
  · exact .refl l
  rename_i alive _ newer
  have newer : l.ceSequence ≤ sequence := by omega
  split
  · exact .fails limit
  dsimp only
  split
  · rcases revoke_cases l with ⟨-, made⟩ | ⟨-, made⟩
    · rw [made]
      exact ⟨limit, Bool.noConfusion, Bool.noConfusion, Bool.noConfusion⟩
    · rw [made]
      refine ⟨Nat.le_succ _, id, fun _ => newer, fun _ same => ?_⟩
      exact absurd same (Nat.lt_succ_self _).ne
  · rename_i kept
    refine ⟨le_rfl, id, fun _ => newer, fun _ _ => ?_⟩
    by_cases none : l.ceRevocation = -1
    · exact .inl none
    · refine .inr (not_not.mp fun other => kept (.inl ⟨none, fun same => other same.symm⟩))

/-- The user's callbacks leave the storage's part alone. -/
theorem user_ce {ready : Bool} (alive : (l.user ready).failed = false) :
    (l.user ready).ceSequence = l.ceSequence ∧ (l.user ready).ceRevocation = l.ceRevocation ∧
      (l.user ready).ceReady = l.ceReady := by
  revert alive
  unfold user
  split
  · exact fun _ => ⟨rfl, rfl, rfl⟩
  split
  · intro alive
    cases alive
  cases ready with
  | true => exact fun _ => ⟨rfl, rfl, rfl⟩
  | false =>
    simp only [Bool.not_false, if_true]
    rcases revoke_cases { l with userRevision := l.userRevision + 1 } with ⟨-, made⟩ | ⟨-, made⟩
    · rw [made]
      intro alive
      cases alive
    · rw [made]
      exact fun _ => ⟨rfl, rfl, rfl⟩

theorem bootstrapUser_ce (l : OwnerLifecycleState) (expected : Nat) (ready : Bool) :
    (l.bootstrapUser expected ready).ceSequence = l.ceSequence ∧
      (l.bootstrapUser expected ready).ceRevocation = l.ceRevocation ∧
      (l.bootstrapUser expected ready).ceReady = l.ceReady ∧
      (l.bootstrapUser expected ready).generation = l.generation ∧
      (l.bootstrapUser expected ready).failed = l.failed := by
  unfold bootstrapUser
  split <;> exact ⟨rfl, rfl, rfl, rfl, rfl⟩

theorem revoke_limit (l : OwnerLifecycleState) (limit : l.generation ≤ longMax) :
    l.revoke.generation ≤ longMax := by
  unfold revoke
  split
  · exact le_rfl
  · dsimp only
    omega

theorem user_limit (limit : l.generation ≤ longMax) (ready : Bool) :
    (l.user ready).generation ≤ longMax := by
  unfold user
  split
  · exact limit
  split
  · exact le_rfl
  dsimp only
  split
  · exact revoke_limit _ limit
  · exact limit

theorem ce_limit (limit : l.generation ≤ longMax) (sequence revocation : Int) (available : Bool) :
    (l.ce sequence revocation available).generation ≤ longMax := by
  unfold ce
  split
  · exact limit
  split
  · exact le_rfl
  split
  · exact limit
  split
  · exact le_rfl
  dsimp only
  split
  · exact revoke_limit _ limit
  · exact limit

/-! ## Snapshots in any order -/

/-- What the lifecycle knows of the snapshots told so far: it shows one of them,
and none that was delivered is later. -/
structure Follows (told waiting : List Snapshot) (l : OwnerLifecycleState) : Prop where
  shows : l.ceSequence = -1 ∧ l.ceRevocation = -1 ∧ l.ceReady = false ∨
    ∃ v ∈ told, l.ceSequence = v.sequence ∧ l.ceRevocation = v.revocation ∧ l.ceReady = v.available
  delivered : ∀ v ∈ told, v ∈ waiting ∨ (v.sequence : Int) ≤ l.ceSequence

theorem Follows.later {told waiting more : List Snapshot} (follows : Follows told waiting l) :
    Follows (told ++ more) (waiting ++ more) l := by
  refine ⟨follows.shows.imp_right ?_, fun v inside => ?_⟩
  · rintro ⟨v, inside, shown⟩
    exact ⟨v, mem_append_left _ inside, shown⟩
  · rcases mem_append.mp inside with inside | new
    · exact (follows.delivered v inside).imp_left (mem_append_left _)
    · exact .inl (mem_append_right _ new)

theorem Follows.same {told waiting : List Snapshot} (follows : Follows told waiting l)
    (sequence : l'.ceSequence = l.ceSequence) (revocation : l'.ceRevocation = l.ceRevocation)
    (ready : l'.ceReady = l.ceReady) : Follows told waiting l' := by
  refine ⟨?_, ?_⟩
  · rw [sequence, revocation, ready]
    exact follows.shows
  · rw [sequence]
    exact follows.delivered

end OwnerLifecycleState

namespace Tracker
variable {α : Type} {s : Tracker α} {id : Int} {told : List Snapshot} {v w : Snapshot}

/-- Two snapshots told are the same, or one came before the other. -/
theorem Told.compare (told_ : Told id told s) (first : v ∈ told) (second : w ∈ told) :
    v = w ∨ Over v w ∨ Over w v := by
  have order := pairwise_iff_getElem.mp told_.ordered
  obtain ⟨i, inside, rfl⟩ := mem_iff_getElem.mp first
  obtain ⟨j, within, rfl⟩ := mem_iff_getElem.mp second
  rcases Nat.lt_trichotomy i j with earlier | rfl | later
  · exact .inr (.inl (order i j inside within earlier))
  · exact .inl rfl
  · exact .inr (.inr (order j i within inside later))

/-- Of two snapshots told, the one with the smaller sequence came first. -/
theorem Told.before (told_ : Told id told s) (first : v ∈ told) (second : w ∈ told)
    (smaller : v.sequence < w.sequence) : Over v w := by
  rcases told_.compare first second with rfl | above | under
  · exact absurd smaller (lt_irrefl _)
  · exact above
  rcases under.2 with final | ⟨larger, -⟩
  · have limit := (told_.past _ second).sequence.trans told_.numbers.limit
    exact absurd (final.1 ▸ smaller) limit.not_gt
  · exact absurd smaller larger.not_gt

/-- Until exhaustion sequences are not used twice. -/
theorem Told.unique (told_ : Told id told s) (first : v ∈ told) (second : w ∈ told)
    (same : v.sequence = w.sequence) (usable : w.sequence < longMax) : v = w := by
  rcases told_.compare first second with equal | above | under
  · exact equal
  · rcases above.2 with final | ⟨smaller, -⟩
    · exact absurd final.1 usable.ne
    · exact absurd same smaller.ne
  · rcases under.2 with final | ⟨smaller, -⟩
    · exact absurd (same.symm.trans final.1) usable.ne
    · exact absurd same smaller.ne'

end Tracker

namespace OwnerLifecycleState
variable {l : OwnerLifecycleState} {told waiting : List Snapshot} {α : Type} {s : Tracker α} {id : Int}

theorem mem_eraseIdx_or {waiting : List Snapshot} {k : Nat} {v x : Snapshot} (taken : waiting[k]? = some v)
    (inside : x ∈ waiting) : x ∈ waiting.eraseIdx k ∨ x = v := by
  obtain ⟨i, here⟩ := mem_iff_getElem?.mp inside
  by_cases same : i = k
  · subst same
    exact .inr (Option.some_inj.mp (here.symm.trans taken))
  · exact .inl (mem_eraseIdx_iff_getElem?.mpr ⟨i, same, here⟩)

/-- A snapshot that arrives at any time is accepted or overtaken; the lifecycle
fails only when it must end a generation and has no next one. -/
theorem Follows.delivers (follows : Follows told waiting l) (told_ : Told id told s) (alive : l.failed = false)
    {k : Nat} {v : Snapshot} (taken : waiting[k]? = some v) (among : v ∈ told) :
    longMax - 1 ≤ l.generation ∧ (l.ce v.sequence v.revocation v.available).failed = true ∨
      (l.ce v.sequence v.revocation v.available).failed = false ∧
        Follows told (waiting.eraseIdx k) (l.ce v.sequence v.revocation v.available) := by
  have past := told_.past v among
  have positive := past.positive
  unfold ce
  rw [if_neg (by simp [alive]), if_neg (by omega)]
  split
  · rename_i overtaken
    refine .inr ⟨alive, follows.shows, fun x inside => ?_⟩
    rcases follows.delivered x inside with still | done
    · rcases mem_eraseIdx_or taken still with still | rfl
      · exact .inl still
      · exact .inr overtaken
    · exact .inr done
  · rename_i newer
    have unrefused : ¬ ((0 < l.ceRevocation ∧ (v.revocation : Int) < l.ceRevocation) ∨
        (v.available = true ∧ ((v.sequence : Int) = longMax ∨ (v.revocation : Int) = longMax))) := by
      rintro (⟨shown, smaller⟩ | ⟨available, full⟩)
      · rcases follows.shows with none | ⟨x, inside, sequence, revocation, -⟩
        · omega
        · have above := told_.before inside among (by omega)
          have := above.1
          omega
      · have usable := past.usable available
        omega
    rw [if_neg unrefused]
    -- The accepted snapshot is shown, whatever the generation is.
    have accepts (m : OwnerLifecycleState) : Follows told (waiting.eraseIdx k)
        { m with ceSequence := v.sequence, ceRevocation := v.revocation, ceReady := v.available } := by
      refine ⟨.inr ⟨v, among, rfl, rfl, rfl⟩, fun x inside => ?_⟩
      rcases follows.delivered x inside with still | done
      · rcases mem_eraseIdx_or taken still with still | rfl
        · exact .inl still
        · exact .inr le_rfl
      · refine .inr (done.trans ?_)
        dsimp only
        omega
    dsimp only
    split
    · rcases revoke_cases l with ⟨full, made⟩ | ⟨-, made⟩
      · rw [made]
        exact .inl ⟨full, rfl⟩
      · rw [made]
        exact .inr ⟨alive, accepts _⟩
    · exact .inr ⟨alive, accepts l⟩

end OwnerLifecycleState

/-! ## Every run -/

namespace Owner
variable {α β τ : Type} [DecidableEq α] {o : Owner α β τ}

structure Sound (o : Owner α β τ) : Prop where
  told : Told o.userId o.told o.tracker
  waiting : ∀ v ∈ o.waiting, v ∈ o.told
  limit : o.lifecycle.generation ≤ longMax
  follows : o.lifecycle.failed = false → o.lifecycle.Follows o.told o.waiting

/-- From one moment to a later one. -/
structure Later (o o' : Owner α β τ) : Prop where
  moved : o.lifecycle.Moved o'.lifecycle
  told : ∀ v ∈ o.told, v ∈ o'.told

omit [DecidableEq α] in
/-- Only the user's part of the lifecycle changes. -/
theorem Sound.userMoved (sound : Sound o) {l : OwnerLifecycleState} {bootstrapped : Bool}
    (moved : o.lifecycle.Moved l) (limit : l.generation ≤ longMax)
    (same : l.failed = false → l.ceSequence = o.lifecycle.ceSequence ∧
      l.ceRevocation = o.lifecycle.ceRevocation ∧ l.ceReady = o.lifecycle.ceReady) :
    Sound { o with lifecycle := l, bootstrapped } :=
  ⟨sound.told, sound.waiting, limit, fun alive =>
    (sound.follows (moved.failed alive)).same (same alive).1 (same alive).2.1 (same alive).2.2⟩

theorem callTracker_sound (sound : Sound o) (call : Tracker.Call α) :
    Sound (o.callTracker call) ∧ Later o (o.callTracker call) := by
  have called := sound.told.call call
  unfold callTracker
  dsimp only
  split
  · rename_i unregistered
    refine ⟨⟨?_, sound.waiting, sound.limit, sound.follows⟩, .refl _, fun _ => id⟩
    rw [unregistered]
    exact called.forget
  · refine ⟨⟨called, fun v inside => ?_, sound.limit, fun alive => (sound.follows alive).later⟩, .refl _,
      fun v => mem_append_left _⟩
    rcases mem_append.mp inside with old | new
    · exact mem_append_left _ (sound.waiting v old)
    · exact mem_append_right _ new

theorem register_sound (sound : Sound o) : Sound o.register ∧ Later o o.register := by
  unfold register
  split
  · exact ⟨sound, .refl _, fun _ => id⟩
  rename_i unregistered
  have none : o.told = [] := not_not.mp unregistered
  have told_ := sound.told
  rw [none] at told_
  have called := told_.call (.register o.userId o.listener)
  change Told o.userId ([] ++ mine o.userId (o.tracker.register o.userId o.listener).1.events)
    (o.tracker.register o.userId o.listener).2 at called
  have unfollowed (alive : o.lifecycle.failed = false) := (sound.follows alive).shows
  dsimp only
  split
  · rename_i state returned
    refine ⟨⟨told_.registered returned, fun v => id, sound.limit, fun alive => ?_⟩, .refl _, ?_⟩
    · refine ⟨(unfollowed alive).imp_right ?_, fun v inside => .inl inside⟩
      rw [none]
      rintro ⟨v, inside, -⟩
      cases inside
    · rw [none]
      intro v inside
      cases inside
  · refine ⟨⟨?_, sound.waiting, sound.limit, sound.follows⟩, .refl _, fun _ => id⟩
    rw [none]
    exact called.forget

omit [DecidableEq α] in
theorem deliver_sound (sound : Sound o) (k : Nat) : Sound (o.deliver k) ∧ Later o (o.deliver k) := by
  unfold deliver
  split
  · exact ⟨sound, .refl _, fun _ => id⟩
  rename_i v taken
  have among := sound.waiting v (mem_of_getElem? taken)
  have moved := OwnerLifecycleState.ce_moved sound.limit v.sequence v.revocation v.available
  refine ⟨⟨sound.told, fun x inside => sound.waiting x (mem_of_mem_eraseIdx inside),
    OwnerLifecycleState.ce_limit sound.limit _ _ _, fun alive => ?_⟩, moved, fun _ => id⟩
  rcases (sound.follows (moved.failed alive)).delivers sound.told (moved.failed alive) taken among with
    ⟨-, failed⟩ | ⟨-, follows⟩
  · exact absurd (failed.symm.trans alive) Bool.noConfusion
  · exact follows

theorem step_sound (sound : Sound o) (event : OwnerEvent α β τ) :
    Later o (o.step event).2 ∧ Sound (o.step event).2 := by
  cases event with
  | tracker call => exact (callTracker_sound sound call).symm
  | register => exact (register_sound sound).symm
  | deliver k => exact (deliver_sound sound k).symm
  | user ready =>
    have moved := OwnerLifecycleState.user_moved sound.limit ready
    refine ⟨⟨moved, fun _ => id⟩, sound.userMoved moved (OwnerLifecycleState.user_limit sound.limit ready) ?_⟩
    exact OwnerLifecycleState.user_ce
  | bootstrap expected ready =>
    change Later o (if o.bootstrapped then _ else _ : Bool × Owner α β τ).2 ∧
      Sound (if o.bootstrapped then _ else _ : Bool × Owner α β τ).2
    split
    · exact ⟨⟨.refl _, fun _ => id⟩, sound⟩
    obtain ⟨sequence, revocation, ready', generation, failed⟩ :=
      o.lifecycle.bootstrapUser_ce expected ready
    have moved := OwnerLifecycleState.Moved.same generation failed sequence revocation
    refine ⟨⟨moved, fun _ => id⟩, sound.userMoved moved ?_ fun _ => ⟨sequence, revocation, ready'⟩⟩
    exact generation.le.trans sound.limit
  | work call => exact ⟨⟨.refl _, fun _ => id⟩, sound.told, sound.waiting, sound.limit, sound.follows⟩

/-- Only a counter that is used up makes the lifecycle fail. -/
theorem step_alive (sound : Sound o) (alive : o.lifecycle.failed = false) (unspent : ¬ o.lifecycle.Spent)
    (event : OwnerEvent α β τ) : (o.step event).2.lifecycle.failed = false := by
  have room : o.lifecycle.generation < longMax - 1 ∧ o.lifecycle.userRevision < longMax := by
    simp only [OwnerLifecycleState.Spent, alive, true_and, not_or, Nat.not_le] at unspent
    exact unspent
  cases event with
  | tracker call =>
    change (o.callTracker call).lifecycle.failed = false
    unfold callTracker
    dsimp only
    split <;> exact alive
  | register =>
    change o.register.lifecycle.failed = false
    unfold register
    split
    · exact alive
    · dsimp only
      split <;> exact alive
  | deliver k =>
    change (o.deliver k).lifecycle.failed = false
    unfold deliver
    split
    · exact alive
    rename_i v taken
    rcases (sound.follows alive).delivers sound.told alive taken
      (sound.waiting v (mem_of_getElem? taken)) with ⟨full, -⟩ | ⟨going, -⟩
    · exact absurd full room.1.not_ge
    · exact going
  | user ready =>
    change (o.lifecycle.user ready).failed = false
    unfold OwnerLifecycleState.user
    rw [if_neg (by simp [alive]), if_neg room.2.ne]
    cases ready with
    | true => exact alive
    | false =>
      simp only [Bool.not_false, if_true]
      rcases OwnerLifecycleState.revoke_cases
          { o.lifecycle with userRevision := o.lifecycle.userRevision + 1 } with ⟨full, -⟩ | ⟨-, made⟩
      · exact absurd full room.1.not_ge
      · rw [made]
        exact alive
  | bootstrap expected ready =>
    change (if o.bootstrapped then _ else _ : Bool × Owner α β τ).2.lifecycle.failed = false
    split
    · exact alive
    · exact (o.lifecycle.bootstrapUser_ce expected ready).2.2.2.2.trans alive
  | work call => exact alive

/-! ## Grants -/

variable {moments : List (Moment (Owner α β τ) (OwnerEvent α β τ))}

/-- The record was linked and then committed, and both calls said so. -/
def Committed (moments : List (Moment (Owner α β τ) (OwnerEvent α β τ))) (r : Nat) : Prop :=
  ∃ earlier, ∃ link : Moment _ _, ∃ between, ∃ commit : Moment _ _, ∃ later,
    moments = earlier ++ link :: (between ++ commit :: later) ∧
    link.call = .work (.linked r) ∧ link.reply step = true ∧
    commit.call = .work (.commit r) ∧ commit.reply step = true

def Ended (k : KeepWorkState β τ) (r : Nat) : Prop :=
  k.has r (fun a => a.retiring || a.dead || a.stopRequested) = true

/-- What the past says of the records. -/
structure Granting (moments : List (Moment (Owner α β τ) (OwnerEvent α β τ))) (o : Owner α β τ) : Prop where
  flags : ∀ (r : Nat) (a : Record β τ), o.work.records[r]? = some a → a.Flags
  never : ∀ r, o.work.has r (·.retiring) = false → ∀ moment ∈ moments, ¬ Ended moment.state.work r
  linked : ∀ (r : Nat) (a : Record β τ), o.work.records[r]? = some a → a.linked = true → a.retiring = false →
    ∃ moment ∈ moments, moment.call = .work (.linked r) ∧ moment.reply step = true
  active : ∀ (r : Nat) (a : Record β τ), o.work.records[r]? = some a → a.active = true → Committed moments r

theorem Committed.snoc {r : Nat} (committed : Committed moments r)
    (moment : Moment (Owner α β τ) (OwnerEvent α β τ)) : Committed (moments ++ [moment]) r := by
  obtain ⟨earlier, link, between, commit, later, rfl, rest⟩ := committed
  exact ⟨earlier, link, between, commit, later ++ [moment], by simp, rest⟩

omit [DecidableEq α] in
theorem not_ended {k : KeepWorkState β τ} {r : Nat} (flags : ∀ a, k.records[r]? = some a → Record.Flags a)
    (staying : k.has r (·.retiring) = false) : ¬ Ended k r := by
  unfold Ended has at *
  cases found : k.records[r]? with
  | none => simp
  | some a =>
    rw [found] at staying
    have here := flags a found
    simp only [Option.any_some] at staying ⊢
    rw [staying]
    cases dead : a.dead with
    | true => exact absurd (staying.symm.trans (here.dead dead)) Bool.noConfusion
    | false =>
      cases stopped : a.stopRequested with
      | true => exact absurd (staying.symm.trans (here.stopped stopped)) Bool.noConfusion
      | false => simp

/-- One more event, with what it did to the records. -/
theorem Granting.snoc (granting : Granting moments o) {event : OwnerEvent α β τ} (c : WorkCall β τ)
    (reply : Bool) (works : KeepWorkState.Works o.work c reply (o.step event).2.work)
    (answers : ∀ r, c = .linked r ∨ c = .commit r → event = .work c ∧ (o.step event).1 = reply) :
    Granting (moments ++ [⟨o, event⟩]) (o.step event).2 where
  flags r b found := by
    rcases works.step r b found with ⟨a, here, flags, -⟩ | ⟨-, flags, -⟩
    · exact flags (granting.flags r a here)
    · exact flags
  never r staying := by
    have before : o.work.has r (·.retiring) = false := by
      unfold has at *
      cases found : (o.step event).2.work.records[r]? with
      | none =>
        have beyond := works.grows.trans (List.getElem?_eq_none_iff.mp found)
        rw [List.getElem?_eq_none_iff.mpr beyond]
        rfl
      | some b =>
        rw [found, Option.any_some] at staying
        rcases works.step r b found with ⟨a, here, -, retiring, -⟩ | ⟨rfl, -⟩
        · rw [here, Option.any_some]
          cases retired : a.retiring with
          | false => rfl
          | true => exact absurd ((retiring retired).symm.trans staying) Bool.noConfusion
        · simp
    exact Lib.forall_mem_snoc (granting.never r before) (not_ended (granting.flags r) before)
  linked r b found linked staying := by
    rcases works.step r b found with ⟨a, here, -, retiring, links, -⟩ | ⟨-, -, unlinked, -⟩
    · rcases links linked with was | ⟨rfl, replied⟩
      · have fresh : a.retiring = false := by
          cases retired : a.retiring with
          | false => rfl
          | true => exact (retiring retired).symm.trans staying
        obtain ⟨moment, inside, rest⟩ := granting.linked r a here was fresh
        exact ⟨moment, mem_append_left _ inside, rest⟩
      · obtain ⟨own, same⟩ := answers r (.inl rfl)
        exact ⟨⟨o, event⟩, by simp, own, same.trans (replied staying)⟩
    · exact absurd (unlinked.symm.trans linked) Bool.noConfusion
  active r b found active := by
    rcases works.step r b found with ⟨a, here, -, -, -, activates⟩ | ⟨-, -, -, inactive⟩
    · rcases activates active with was | ⟨rfl, replied, linked, staying⟩
      · exact (granting.active r a here was).snoc _
      · obtain ⟨own, same⟩ := answers r (.inr rfl)
        obtain ⟨link, inside, named, said⟩ := granting.linked r a here linked staying
        obtain ⟨earlier, between, rfl⟩ := append_of_mem inside
        exact ⟨earlier, link, between, ⟨o, event⟩, [], by simp, named, said, own, same.trans replied⟩
    · exact absurd (inactive.symm.trans active) Bool.noConfusion

theorem step_granting (granting : Granting moments o) (event : OwnerEvent α β τ) :
    Granting (moments ++ [⟨o, event⟩]) (o.step event).2 := by
  have idle (same : (o.step event).2.work = o.work) :
      Granting (moments ++ [⟨o, event⟩]) (o.step event).2 := by
    refine granting.snoc .observe true ?_ (by simp)
    rw [same]
    exact (KeepWorkState.Quiet.refl _).works
  cases event with
  | tracker call =>
    refine idle ?_
    change (o.callTracker call).work = o.work
    unfold callTracker
    dsimp only
    split <;> rfl
  | register =>
    refine idle ?_
    change o.register.work = o.work
    unfold register
    split
    · rfl
    · dsimp only
      split <;> rfl
  | deliver k =>
    refine idle ?_
    change (o.deliver k).work = o.work
    unfold deliver
    split <;> rfl
  | user ready => exact idle rfl
  | bootstrap expected ready =>
    refine idle ?_
    change (if o.bootstrapped then _ else _ : Bool × Owner α β τ).2.work = o.work
    split <;> rfl
  | work call => exact granting.snoc call _ (work_works _ _ _) fun _ _ => ⟨rfl, rfl⟩

structure Granted (moments : List (Moment (Owner α β τ) (OwnerEvent α β τ))) (o : Owner α β τ) (r : Nat) :
    Prop where
  record : ∃ a, o.work.records[r]? = some a ∧ a.linked = true ∧ a.active = true ∧
    a.generation = o.lifecycle.generation
  ready : o.lifecycle.snapshot.available = true
  committed : Committed moments r
  never : (∀ moment ∈ moments, ¬ Ended moment.state.work r) ∧ ¬ Ended o.work r

omit [DecidableEq α] in
/-- The report of an active grant observes the platform first. -/
theorem active_reported {k : KeepWorkState β τ} {platform : PlatformState} {r : Nat}
    (reported : (k.active platform).1 = some r) :
    platform.available = true ∧ ∃ a, k.records[r]? = some a ∧ a.generation = platform.generation ∧
      a.active = true ∧ a.retiring = false := by
  unfold active at reported
  dsimp only at reported
  split at reported
  · cases reported
  rename_i i slot
  split at reported
  case isFalse => cases reported
  rename_i flags
  cases reported
  have held : k.record = some r := (observe_steady k platform).slot r slot
  unfold observe at flags
  rw [held] at flags
  dsimp only at flags
  split at flags
  · -- A record retired just now is not reported.
    rw [retire, has_update, if_pos rfl, has] at flags
    cases found : k.records[r]? <;> simp [found, Record.retire] at flags
  rename_i current
  unfold has at flags current
  cases found : k.records[r]? with
  | none => simp [found] at flags
  | some a =>
    rw [found] at flags current
    simp only [Option.any_some, Bool.and_eq_true, Bool.not_eq_true', Bool.or_eq_true, not_or,
      Bool.not_eq_false, decide_not, decide_eq_false_iff_not, not_not] at flags current
    exact ⟨current.1, a, rfl, of_decide_eq_true (by simpa using current.2), flags.1.1, flags.1.2⟩

omit [DecidableEq α] in
theorem Granting.reported [DecidableEq α] (granting : Granting moments o) {r : Nat}
    (reported : (o.work.active o.lifecycle.snapshot).1 = some r) : Granted moments o r := by
  obtain ⟨ready, a, found, generation, active, staying⟩ := active_reported reported
  have still : o.work.has r (·.retiring) = false := by
    unfold has
    rw [found]
    exact staying
  exact ⟨⟨a, found, (granting.flags r a found).linked active, active, generation⟩, ready,
    granting.active r a found active, granting.never r still, not_ended (granting.flags r) still⟩

/-! ## The run -/

/-- The owner before its first event. -/
def start (userId : Int) (listener : Nat) (tracker : Tracker α) (work : KeepWorkState β τ) : Owner α β τ :=
  { userId, listener, tracker, work }

omit [DecidableEq α] in
theorem start_sound {userId : Int} {listener : Nat} {tracker : Tracker α} {work : KeepWorkState β τ}
    {seed : Nat} (made : Tracker.create α seed = some tracker) :
    Sound (start userId listener tracker work) :=
  ⟨Tracker.create_told made, by simp [start], Nat.succ_le_succ (Nat.zero_le _), fun _ => ⟨.inl ⟨rfl, rfl, rfl⟩, by simp [start]⟩⟩

theorem start_granting {userId : Int} {listener : Nat} {tracker : Tracker α} {work : KeepWorkState β τ}
    {inst : Int} (made : create β τ inst = some work) :
    Granting [] (start userId listener tracker work) := by
  unfold create at made
  split at made
  · cases made
  · cases made
    refine ⟨?_, by simp, ?_, ?_⟩
    all_goals simp [start]

def Unspent (moments : List (Moment (Owner α β τ) (OwnerEvent α β τ))) : Prop :=
  ∀ moment ∈ moments, ¬ moment.state.lifecycle.Spent

/-- What a run of unspent counters keeps. -/
def Alive (moments : List (Moment (Owner α β τ) (OwnerEvent α β τ))) (o : Owner α β τ) : Prop :=
  Sound o ∧ (Unspent moments → o.lifecycle.failed = false)

omit [DecidableEq α] in
/-- Once everything told was delivered the readiness is the tracker's. -/
theorem Sound.caught_up (sound : Sound o) (alive : o.lifecycle.failed = false) (registered : o.told ≠ [])
    (delivered : o.waiting = []) : o.lifecycle.ceReady = o.tracker.available o.userId := by
  have follows := sound.follows alive
  have latest := sound.told.latest registered
  obtain ⟨front, last, split⟩ := eq_nil_or_concat' o.told |>.resolve_left registered
  have inside : last ∈ o.told := by simp [split]
  have shown : o.tracker.available o.userId = last.available := by
    rw [split, List.getLast?_concat] at latest
    obtain ⟨w, found, rfl⟩ := Option.map_eq_some_iff.mp latest
    rw [Tracker.available, found]
    rfl
  have reached : (last.sequence : Int) ≤ o.lifecycle.ceSequence := by
    rcases follows.delivered last inside with waits | reached
    · rw [delivered] at waits
      cases waits
    · exact reached
  have positive := (sound.told.past last inside).positive.1
  rcases follows.shows with ⟨none, -⟩ | ⟨v, among, sequence, -, ready⟩
  · omega
  rw [ready, shown]
  rw [split] at among
  rcases mem_append.mp among with earlier | same
  · have order := sound.told.ordered
    rw [split] at order
    rcases ((pairwise_append.mp order).2.2 v earlier last (by simp)).2 with final | ⟨smaller, -⟩
    · -- Both snapshots are of the exhausted tracker.
      rw [final.2.2]
      cases usable : v.available with
      | false => rfl
      | true =>
        have := ((sound.told.past v (split ▸ among)).usable usable).1
        have := final.1
        omega
    · omega
  · rw [mem_singleton.mp same]

omit [DecidableEq α] in
/-- Two ready states with one generation have no revocation between them. -/
theorem Later.unrevoked {o o' : Owner α β τ} (later : Later o o') (sound : Sound o) (sound' : Sound o')
    (ready : o.lifecycle.snapshot.available = true) (ready' : o'.lifecycle.snapshot.available = true)
    (same : o.lifecycle.snapshot.generation = o'.lifecycle.snapshot.generation) {v : Snapshot}
    (told : v ∈ o'.told) (revoked : v.available = false) :
    ¬ (o.lifecycle.ceSequence < v.sequence ∧ v.sequence ≤ o'.lifecycle.ceSequence) := by
  rintro ⟨before, after⟩
  simp only [OwnerLifecycleState.snapshot, Bool.and_eq_true, Bool.not_eq_true'] at ready ready' same
  obtain ⟨⟨alive, -⟩, storage⟩ := ready
  obtain ⟨⟨alive', -⟩, storage'⟩ := ready'
  -- Both states show an available snapshot.
  rcases (sound.follows alive).shows with ⟨-, -, dark⟩ | ⟨x, early, sequence, revocation, available⟩
  · exact Bool.noConfusion (dark.symm.trans storage)
  rcases (sound'.follows alive').shows with ⟨-, -, dark⟩ | ⟨w, late, sequence', revocation', available'⟩
  · exact Bool.noConfusion (dark.symm.trans storage')
  have usable := (sound'.told.past w late).usable (available'.symm.trans storage')
  have ended : ¬ Final v := fun final => by
    have := final.1
    omega
  -- The revocation is over the first of them, and the second is over it.
  have first : x.revocation < v.revocation := by
    have above := sound'.told.before (later.told x early) told (by omega)
    rcases above.2 with final | ⟨-, larger⟩
    · exact absurd final ended
    · exact larger revoked
  have second : v.revocation ≤ w.revocation := by
    have apart : v.sequence ≠ w.sequence := fun equal => by
      have one := sound'.told.unique told late equal usable.1
      rw [one] at revoked
      exact Bool.noConfusion (revoked.symm.trans (available'.symm.trans storage'))
    exact (sound'.told.before told late (by omega)).1
  rcases later.moved.revocation alive' same with none | kept
  · omega
  · omega


/-- Whatever the order in which the snapshots arrive, the lifecycle fails only on
a counter that is used up and in the end shows what the tracker shows, no
generation is ready on both sides of a revocation, and a grant that is reported
active was linked, committed and never ended. -/
theorem no_generation_spans_a_revocation {seed : Nat} {tracker : Tracker α}
    (made : Tracker.create α seed = some tracker) {inst : Int} {work : KeepWorkState β τ}
    (created : create β τ inst = some work) (userId : Int) (listener : Nat)
    (events : List (OwnerEvent α β τ)) :
    let moments := past step (start userId listener tracker work) events
    let o := after step (start userId listener tracker work) events
    (Unspent moments → o.lifecycle.failed = false ∧
      (o.told ≠ [] → o.waiting = [] → o.lifecycle.ceReady = o.tracker.available o.userId)) ∧
    (∀ moment ∈ moments, moment.state.lifecycle.generation ≤ o.lifecycle.generation ∧
      (moment.state.lifecycle.snapshot.available = true → o.lifecycle.snapshot.available = true →
        moment.state.lifecycle.snapshot.generation = o.lifecycle.snapshot.generation →
        ∀ v ∈ o.told, v.available = false →
          ¬ (moment.state.lifecycle.ceSequence < v.sequence ∧ v.sequence ≤ o.lifecycle.ceSequence))) ∧
    ∀ r, (o.work.active o.lifecycle.snapshot).1 = some r → Granted moments o r := by
  have begins : Sound (start userId listener tracker work) := start_sound made
  have ordered : Ordered step Sound Later (past step (start userId listener tracker work) events)
      (after step (start userId listener tracker work) events) :=
    @past_ordered _ _ _ step Sound Later _ (fun _ _ => ⟨.refl _, fun _ => id⟩)
      (fun _ _ _ first second => ⟨first.moved.trans second.moved, fun v inside =>
        second.told v (first.told v inside)⟩)
      (fun o event sound => step_sound sound event) begins events
  have alive : Alive (past step (start userId listener tracker work) events)
      (after step (start userId listener tracker work) events) := by
    apply past_induction
    · exact ⟨begins, fun _ => rfl⟩
    rintro moments o event ⟨sound, alive⟩
    refine ⟨(step_sound sound event).2, fun unspent => ?_⟩
    exact step_alive sound (alive fun moment inside => unspent moment (mem_append_left _ inside))
      (unspent ⟨o, event⟩ (by simp)) event
  have granting : Granting (past step (start userId listener tracker work) events)
      (after step (start userId listener tracker work) events) := by
    apply past_induction
    · exact start_granting created
    · exact fun moments o event granting => step_granting granting event
  refine ⟨fun unspent => ?_, fun moment inside => ?_, fun r reported => granting.reported reported⟩
  · have going := alive.2 unspent
    exact ⟨going, fun registered delivered => alive.1.caught_up going registered delivered⟩
  · have later := ordered.state moment inside
    exact ⟨later.moved.generation, fun ready ready' same v told revoked =>
      later.unrevoked (ordered.held moment inside) ordered.present ready ready' same told revoked⟩

/-- The owner registers, storage is unlocked, revoked and unlocked again, the
second unlock arrives before the rest, and work is kept in the new generation. -/
def keepingEvents : List (OwnerEvent Nat Nat Nat) :=
  [.register, .tracker (.connected 7), .tracker (.beginAvailable 3 (some 7)),
    .tracker (.complete (.own 0) true), .tracker (.beginRevocation 3 (some 7)),
    .tracker (.complete (.own 1) true), .tracker (.beginAvailable 3 (some 7)),
    .tracker (.complete (.own 2) true), .deliver 4, .deliver 2, .deliver 0, .deliver 1, .deliver 0,
    .bootstrap 0 true, .work (.begin (some 1) (some 1) 5 9 1 (some "n")), .work (.linked 0),
    .work (.commit 0)]

theorem kept_work_is_granted :
    ∃ tracker work, Tracker.create Nat 1 = some tracker ∧ create Nat Nat 9 = some work ∧
      Granted (past step (start 3 0 tracker work) keepingEvents)
        (after step (start 3 0 tracker work) keepingEvents) 0 := by
  have made : Tracker.create Nat 1 = some { backend := 1, revision := 1, sequence := 1 } := rfl
  have created : create Nat Nat 9 = some { instanceId := 9 } := rfl
  refine ⟨_, _, made, created, ?_⟩
  refine (no_generation_spans_a_revocation made created 3 0 keepingEvents).2.2 0 ?_
  decide +kernel

end Owner
end Andrix.Platform
