import Andrix.Lib.Calls
import Andrix.Platform.CeStorageLaws

/-! Storage availability over whole runs. The evidence of an available user is
the past itself: the moment its operation began, the moment its success was
published, and no breaking call in between or since. An exhausted tracker shows
every user as unavailable, unless a list of unlocked users throws the
publication off at the moment of exhaustion. -/
namespace Andrix.Platform
open List
namespace Tracker
open Lib (Moment past after past_induction call_mem_of_mem_past)

variable {α : Type} [DecidableEq α] {s t u : Tracker α} {id : Int}

/-! ## Exhaustion is final -/

structure Stays (s t : Tracker α) : Prop where
  distinct : t.Distinct
  dead : s.exhausted = true → t.exhausted = true

def Dark (s : Tracker α) : Prop := s.exhausted = true → ∀ id, s.available id = false

section
omit [DecidableEq α]

theorem Stays.refl (distinct : s.Distinct) : Stays s s := ⟨distinct, fun dead => dead⟩

theorem Stays.trans (first : Stays s t) (second : Stays t u) : Stays s u :=
  ⟨second.distinct, fun dead => second.dead (first.dead dead)⟩

/-- Everything but users, tokens and the binding is as before. -/
theorem Stays.same (distinct : s.Distinct) (users : t.users = s.users)
    (exhausted : t.exhausted = s.exhausted) : Stays s t :=
  ⟨distinct.of_users users, fun dead => exhausted.trans dead⟩

theorem user_stays (distinct : s.Distinct) (id : Int) : Stays s (s.user id).2 :=
  ⟨user_distinct distinct id, (user_core s id).exhausted.trans⟩

theorem relisten_stays (distinct : s.Distinct) (v : User) (listeners : List Nat) :
    Stays s (s.relisten v listeners) :=
  ⟨replace_distinct distinct _, fun dead => dead⟩

theorem advance_stays (distinct : s.Distinct) : Stays s s.advance.2 := by
  refine ⟨distinct.of_users (advance_users s), fun dead => ?_⟩
  rw [advance_dead dead]
  exact dead

theorem revise_stays (distinct : s.Distinct) : Stays s s.revise := by
  refine ⟨distinct.of_users (revise_users s), fun dead => ?_⟩
  rw [revise, advance_dead dead]
  exact dead

theorem publish_stays (distinct : s.Distinct) (id : Int) (available revoke : Bool) :
    Stays s (s.publish id available revoke).2 :=
  ⟨publish_distinct distinct id available revoke, (publish_core s id available revoke).exhausted.trans⟩

theorem invalidateAll_stays (distinct : s.Distinct) : Stays s s.invalidateAll.2 := by
  have numbered := revise_stays distinct
  exact ⟨invalidateAll_distinct distinct, fun dead =>
    (allUnavailable_core numbered.distinct).exhausted.trans (numbered.dead dead)⟩

theorem count_stays (distinct : s.Distinct) (counted : Bool) : Stays s (s.count counted).2 := by
  refine ⟨distinct.of_users (count_users s counted), fun dead => ?_⟩
  unfold count
  split
  · exact dead
  · split
    · rfl
    · exact dead

theorem issue_stays (distinct : s.Distinct) (op : Operation α) : Stays s (s.issue op).2 :=
  .same distinct rfl rfl

theorem finishEvents_stays (distinct : s.Distinct) (events : List Delivery) :
    Stays s (finishEvents events s).2 := by
  refine ⟨?_, (finishEvents_core distinct events).exhausted.trans⟩
  unfold finishEvents
  split
  · exact allUnavailable_distinct distinct
  · exact distinct

/-- A lock section that ends with `finishEvents`. -/
theorem finishes {m : Tracker α} (stays : Stays s m) (events : List Delivery) :
    Stays s (finishEvents events m).2 ∧ Dark (finishEvents events m).2 :=
  ⟨stays.trans (finishEvents_stays stays.distinct events), finishEvents_dark stays.distinct⟩

/-- Nobody becomes available, and exhaustion is as before. -/
theorem Dark.same (dark : Dark s) (exhausted : t.exhausted = s.exhausted)
    (available : ∀ id, t.available id = s.available id) : Dark t := by
  intro dead id
  rw [available]
  exact dark (exhausted ▸ dead) id

/-- A list of unlocked users in which no negative id comes where the sequence
would be exhausted. -/
def Roomy (s : Tracker α) (ids : List Int) : Prop :=
  ∀ before id after, ids = before ++ id :: after → id < 0 → s.sequence + before.length < longMax - 1

theorem Roomy.tail {ids : List Int} (roomy : Roomy s (id :: ids)) (sequence : t.sequence ≤ s.sequence + 1) :
    Roomy t ids := by
  intro before negative after split below
  have room := roomy (id :: before) negative after (by rw [split, cons_append]) below
  rw [length_cons] at room
  omega

theorem publishAll_threw (op : Operation α) (ids : List Int) (threw : (publishAll op ids s).1 = true) :
    ∃ id ∈ ids, id < 0 := by
  induction ids generalizing s with
  | nil => cases threw
  | cons id ids ih =>
    unfold publishAll at threw
    split at threw
    · obtain ⟨negative, among, below⟩ := ih threw
      exact ⟨negative, mem_cons_of_mem _ among, below⟩
    dsimp only at threw
    split at threw
    · exact ⟨id, mem_cons_self, by assumption⟩
    · obtain ⟨negative, among, below⟩ := ih threw
      exact ⟨negative, mem_cons_of_mem _ among, below⟩

theorem Roomy.room {ids : List Int} (roomy : Roomy s ids) (negative : ∃ id ∈ ids, id < 0) :
    s.sequence < longMax - 1 := by
  obtain ⟨id, among, below⟩ := negative
  obtain ⟨before, after, split⟩ := append_of_mem among
  have room := roomy before id after split below
  omega

/-- With room for it a loop that throws does not exhaust the tracker. -/
theorem publishAll_roomy (op : Operation α) (ids : List Int) (alive : s.exhausted = false)
    (bounded : s.Bounded) (roomy : Roomy s ids) (threw : (publishAll op ids s).1 = true) :
    (publishAll op ids s).2.2.exhausted = false := by
  induction ids generalizing s with
  | nil => cases threw
  | cons id ids ih =>
    have room := roomy.room (publishAll_threw op _ threw)
    have before := bounded.revision
    have below := bounded.backend
    have advanced : s.advance = (true, { s with sequence := s.sequence + 1 }) := by
      unfold advance
      rw [if_neg (by simp [alive]), if_neg (by omega)]
    revert threw
    unfold publishAll
    split
    · exact ih alive bounded (roomy.tail (Nat.le_succ _))
    dsimp only
    split
    · rw [advanced]
      exact fun _ => alive
    have core : SameCore s.advance.2 (s.advance.2.publish id true false).2 :=
      publish_core s.advance.2 id true false
    refine ih ?_ ⟨?_, ?_, ?_⟩ (roomy.tail ?_)
    · rw [core, advanced]
      exact alive
    · rw [core, advanced]
      exact before.trans (Nat.le_succ _)
    · rw [core, advanced]
      exact below.trans (Nat.le_succ _)
    · rw [core, advanced]
      dsimp only
      omega
    · rw [core, advanced]

theorem publishAll_stays (op : Operation α) (ids : List Int) (distinct : s.Distinct) :
    Stays s (publishAll op ids s).2.2 :=
  ⟨publishAll_distinct op ids distinct, publishAll_dead op ids⟩

end

/-! ## Every call -/

/-- The calls whose list of unlocked users has room. -/
def RoomyCall (s : Tracker α) : Call α → Prop
  | .completeBulk _ _ ids => Roomy s ids
  | _ => True

theorem settle_stays (distinct : s.Distinct) (bounded : s.exhausted = false → s.Bounded) (dark : Dark s)
    (n : Nat) (op : Operation α) (success : Bool) (ids : List Int) (roomy : Roomy s ids) :
    Stays s (s.settle n op success ids).2 ∧ Dark (s.settle n op success ids).2 := by
  have used : Stays s (s.consume n op) := .same distinct rfl rfl
  have unchanged : Stays s (s.consume n op) ∧ Dark (s.consume n op) :=
    ⟨used, dark.same rfl fun _ => rfl⟩
  unfold settle
  dsimp only
  split
  · exact unchanged
  split
  · exact unchanged
  rename_i current
  simp only [Bool.or_eq_true, Bool.not_eq_true', not_or, Bool.not_eq_true] at current
  split
  · split
    · have revised := used.trans (revise_stays used.distinct)
      exact finishes (revised.trans (publish_stays revised.distinct _ _ _)) _
    · exact finishes (used.trans (invalidateAll_stays used.distinct)) _
  split
  · split
    · have advanced := used.trans (advance_stays used.distinct)
      exact finishes (advanced.trans (publish_stays advanced.distinct _ _ _)) _
    · have looped := used.trans (publishAll_stays op ids used.distinct)
      have alive : s.exhausted = false := current.2
      have room := publishAll_roomy op ids (s := s.consume n op) alive
        ⟨(bounded alive).revision, (bounded alive).backend, (bounded alive).sequence⟩ roomy
      split
      · rename_i events t threw
        rw [threw] at looped room
        exact ⟨looped, fun dead => by rw [room rfl] at dead; cases dead⟩
      · rename_i events t done
        rw [done] at looped
        exact finishes looped _
  · exact finishes used _

theorem completeInternal_stays (distinct : s.Distinct) (bounded : s.exhausted = false → s.Bounded)
    (dark : Dark s) (n : Nat) (success : Bool) (ids : List Int) (roomy : Roomy s ids) :
    Stays s (s.completeInternal n success ids).2 ∧ Dark (s.completeInternal n success ids).2 := by
  unfold completeInternal
  split
  · exact ⟨.refl distinct, dark⟩
  · split
    · exact ⟨.refl distinct, dark⟩
    · exact settle_stays distinct bounded dark n _ success ids roomy

/-- Exhaustion is final, and dark when the lists of unlocked users have room. -/
theorem call_stays (distinct : s.Distinct) (bounded : s.exhausted = false → s.Bounded) (dark : Dark s)
    (c : Call α) (roomy : RoomyCall s c) : Stays s (s.call c).2 ∧ Dark (s.call c).2 := by
  have unchanged : Stays s s ∧ Dark s := ⟨.refl distinct, dark⟩
  cases c with
  | register id listener =>
    have core : SameCore s (s.user id).2 := user_core s id
    have entered := user_stays distinct id
    have dark' : Dark (s.user id).2 := dark.same (by rw [core]) (user_available s id)
    simp only [call, register]
    split
    · exact unchanged
    split
    · exact ⟨entered, dark'⟩
    · exact ⟨entered.trans (relisten_stays entered.distinct _ _),
        dark'.same rfl (relisten_available (user_find s id) _)⟩
  | unregister id listener =>
    simp only [call, unregister]
    split
    · exact unchanged
    · rename_i found
      exact ⟨relisten_stays distinct _ _, dark.same rfl (relisten_available found _)⟩
  | connected identity =>
    simp only [call, connected]
    split
    · exact unchanged
    have cleared := invalidateAll_stays distinct
    refine finishes ?_ _
    split
    · exact cleared.trans (.same cleared.distinct rfl rfl)
    · exact cleared
  | died identity =>
    simp only [call, died]
    split
    · exact unchanged
    have cleared := invalidateAll_stays distinct
    refine finishes ?_ _
    split
    · exact cleared.trans (.same cleared.distinct rfl rfl)
    · exact cleared.trans (.same cleared.distinct rfl rfl)
  | beginRevocation id identity =>
    simp only [call, beginRevocation]
    split
    · exact unchanged
    have entered := user_stays distinct id
    have revised := entered.trans (revise_stays entered.distinct)
    have shown := revised.trans (publish_stays revised.distinct id false true)
    have counted (counts : Bool) := shown.trans (count_stays shown.distinct counts)
    exact finishes ((counted _).trans (issue_stays (counted _).distinct _)) _
  | beginAvailable id identity =>
    have core : SameCore s (s.user id).2 := user_core s id
    have entered := user_stays distinct id
    have dark' : Dark (s.user id).2 := dark.same (by rw [core]) (user_available s id)
    simp only [call, beginAvailable]
    split
    · exact unchanged
    · exact ⟨entered.trans (.same entered.distinct rfl rfl), dark'.same rfl fun _ => rfl⟩
  | beginRestore identity => exact ⟨.same distinct rfl rfl, dark.same rfl fun _ => rfl⟩
  | beginReset identity =>
    simp only [call, beginReset]
    have cleared := invalidateAll_stays distinct
    have counted (counts : Bool) := cleared.trans (count_stays cleared.distinct counts)
    exact finishes ((counted _).trans (issue_stays (counted _).distinct _)) _
  | complete token success =>
    simp only [call, complete]
    split
    · exact unchanged
    split
    · refine completeInternal_stays distinct bounded dark _ success [] ?_
      intro before id after split
      simp at split
    · exact unchanged
  | completeBulk token success ids =>
    simp only [call, completeBulk]
    split
    · exact unchanged
    · split
      · exact completeInternal_stays distinct bounded dark _ success ids roomy
      · exact unchanged

/-! ## What holds of every run -/

def Operation.pending (op : Operation α) : Bool := op.counted && !op.completed

/-- The tracker until exhaustion: its counters, and what it counts in flight. -/
structure Live (s : Tracker α) : Prop where
  numbers : ∀ v ∈ s.users, v.state.revocation ≤ s.revision
  bounded : s.Bounded
  pending : s.pendingRevocations = s.operations.countP Operation.pending
  revokes : ∀ op ∈ s.operations, op.kind = .revoke → op.counted = true
  stamped : ∀ op ∈ s.operations, op.revision ≤ s.revision

structure Sound (s : Tracker α) : Prop where
  distinct : s.Distinct
  dark : Dark s
  live : s.exhausted = false → Live s

variable {op : Operation α} {n : Nat}

omit [DecidableEq α] in
theorem countP_completed {operations : List (Operation α)}
    (token : operations[n]? = some op) (open_ : op.completed = false) :
    operations.countP Operation.pending =
      (operations.set n { op with completed := true }).countP Operation.pending +
        if op.counted then 1 else 0 := by
  induction operations generalizing n with
  | nil => simp at token
  | cons first rest ih =>
    cases n with
    | zero =>
      simp only [List.getElem?_cons_zero, Option.some_inj] at token
      subst token
      simp [countP_cons, Operation.pending, open_]
    | succ n =>
      simp only [List.getElem?_cons_succ] at token
      have rest := ih token
      simp only [set_cons_succ, countP_cons]
      omega

omit [DecidableEq α] in
theorem mem_set_completed {operations : List (Operation α)} {op other : Operation α}
    (token : operations[n]? = some op)
    (inside : other ∈ operations.set n { op with completed := true }) :
    other ∈ operations ∨ other = { op with completed := true } ∧ op ∈ operations :=
  (mem_or_eq_of_mem_set inside).imp_right fun same => ⟨same, mem_of_getElem? token⟩

variable {c : Call α}

theorem Steps.keepsLive {answer : Answer} (steps : Steps s c answer t) (live : Live s) :
    Live t := by
  have revision := steps.revision_le
  have stamped : ∀ op ∈ s.operations, op.revision ≤ t.revision := fun op among =>
    (live.stamped op among).trans revision
  cases steps.tokens with
  | same operations pending =>
    refine ⟨steps.publishes.bounded, steps.bounded, ?_, ?_, ?_⟩
    · rw [operations, pending]
      exact live.pending
    · rw [operations]
      exact live.revokes
    · rw [operations]
      exact stamped
  | begins op operations pending _ open_ revision' _ _ _ _ revokes _ _ =>
    refine ⟨steps.publishes.bounded, steps.bounded, ?_, ?_, ?_⟩
    · rw [operations, pending, live.pending, countP_append]
      simp [countP_singleton, Operation.pending, open_]
    · rw [operations]
      exact Lib.forall_mem_snoc live.revokes revokes
    · rw [operations]
      exact Lib.forall_mem_snoc stamped revision'.le
  | ends n op token open_ operations pending =>
    refine ⟨steps.publishes.bounded, steps.bounded, ?_, ?_, ?_⟩
    · have counted := countP_completed token open_
      rw [operations, pending, live.pending]
      by_cases own : op.counted = true
      · simp only [own, if_true, true_and] at counted ⊢
        rw [if_pos (by omega)]
        omega
      · simp only [own, Bool.false_eq_true, if_false, false_and] at counted ⊢
        omega
    · rw [operations]
      intro other among kind
      rcases mem_set_completed token among with among | ⟨same, present⟩
      · exact live.revokes other among kind
      · rw [same] at kind ⊢
        exact live.revokes op present kind
    · rw [operations]
      intro other among
      rcases mem_set_completed token among with among | ⟨same, present⟩
      · exact stamped other among
      · rw [same]
        exact stamped op present

theorem call_keeps (sound : Sound s) (c : Call α) (roomy : RoomyCall s c) :
    Sound (s.call c).2 ∧
      ((s.call c).2.exhausted = false → Live s ∧ Steps s c (s.call c).1 (s.call c).2) := by
  obtain ⟨stays, dark⟩ := call_stays sound.distinct (fun alive => (sound.live alive).bounded) sound.dark c
    roomy
  have steps (alive : (s.call c).2.exhausted = false) : Live s ∧ Steps s c (s.call c).1 (s.call c).2 := by
    have was : s.exhausted = false := by
      cases dead : s.exhausted with
      | false => rfl
      | true => exact (stays.dead dead).symm.trans alive
    have live := sound.live was
    exact ⟨live, call_steps sound.distinct live.numbers live.bounded c was alive⟩
  exact ⟨⟨stays.distinct, dark, fun alive => (steps alive).2.keepsLive (steps alive).1⟩, steps⟩

/-! ## Evidence -/

variable {moments : List (Moment (Tracker α) (Call α))}

/-- The `n`th operation began at `begin`, on the binding that is current in `s`,
with no revocation in flight and no reset but those begun for another daemon
than the bound one. -/
structure Started (earlier : List (Moment (Tracker α) (Call α))) (begin : Moment (Tracker α) (Call α))
    (n : Nat) (op : Operation α) (s : Tracker α) : Prop where
  token : (begin.reply call).outcome = .token n
  begins : Begins begin.state begin.call op
  daemon : begin.state.daemon = s.daemon
  backend : begin.state.backend = s.backend
  flight : ∀ other ∈ begin.state.operations, other.kind = .revoke ∨ other.kind = .reset →
    other.completed = true ∨ other.kind = .reset ∧ ∃ moment ∈ earlier, ∃ identity,
      moment.call = .beginReset identity ∧ moment.state.isBound identity = false

/-- None of these calls breaks evidence. -/
def Unbroken (moments : List (Moment (Tracker α) (Call α))) : Prop :=
  ∀ moment ∈ moments, ¬ Disturbs moment.state moment.call

/-- An operation that may still be published: nothing broke its evidence since
it began. -/
def Begun (moments : List (Moment (Tracker α) (Call α))) (s : Tracker α) (n : Nat)
    (op : Operation α) : Prop :=
  ∃ earlier begin between, moments = earlier ++ begin :: between ∧ Started earlier begin n op s ∧
    Unbroken between

/-- The evidence of an available user. -/
def Evidence (moments : List (Moment (Tracker α) (Call α))) (s : Tracker α) (id : Int) : Prop :=
  ∃ earlier, ∃ begin : Moment _ _, ∃ between, ∃ publish : Moment _ _, ∃ later n op,
    moments = earlier ++ begin :: (between ++ publish :: later) ∧
      Started earlier begin n op s ∧ Unbroken between ∧
      Publication publish.state publish.call n op id ∧
      (op.kind = .reset → begin.state.available id = true) ∧
      ∀ moment ∈ later, ¬ DisturbsUser moment.state id moment.call

/-- The snapshots published in these moments, in order. -/
def publications (moments : List (Moment (Tracker α) (Call α))) : List Snapshot :=
  moments.flatMap fun moment => (moment.reply call).events.map Delivery.state

/-- Later snapshots of a user have larger sequences and revocation numbers that
are not smaller. -/
def Rising (snapshots : List Snapshot) : Prop :=
  snapshots.Pairwise fun earlier later => earlier.userId = later.userId →
    earlier.sequence < later.sequence ∧ earlier.revocation ≤ later.revocation

structure Traced (moments : List (Moment (Tracker α) (Call α))) (s : Tracker α) : Prop where
  resets : ∀ op ∈ s.operations, op.kind = .reset → op.counted = false → ∃ moment ∈ moments, ∃ identity,
    moment.call = .beginReset identity ∧ moment.state.isBound identity = false
  tokens : ∀ n op, s.operations[n]? = some op → op.completed = false → op.eligible = true →
    op.revision = s.revision → s.sameBackend op = true → Begun moments s n op
  users : ∀ id, s.available id = true → Evidence moments s id
  rising : Rising (publications moments)
  latest : ∀ snapshot ∈ publications moments, snapshot.sequence ≤ s.sequence ∧
    snapshot.revocation ≤ s.revocation snapshot.userId

theorem Started.rebound {earlier : List (Moment (Tracker α) (Call α))}
    {begin : Moment (Tracker α) (Call α)}
    (started : Started earlier begin n op s) (daemon : t.daemon = s.daemon)
    (backend : t.backend = s.backend) : Started earlier begin n op t :=
  { started with
    daemon := started.daemon.trans daemon.symm
    backend := started.backend.trans backend.symm }

theorem Unbroken.snoc (unbroken : Unbroken moments) {moment : Moment (Tracker α) (Call α)}
    (harmless : ¬ Disturbs moment.state moment.call) : Unbroken (moments ++ [moment]) :=
  Lib.forall_mem_snoc unbroken harmless

/-- A token of a tracker was there before the call, or the call made it. -/
theorem Steps.token_cases {answer : Answer} (steps : Steps s c answer t)
    (found : t.operations[n]? = some op) (open_ : op.completed = false) :
    s.operations[n]? = some op ∨ n = s.operations.length ∧ answer.outcome = .token n ∧
      (op.eligible = true → Begins s c op) ∧ t.daemon = s.daemon ∧ t.backend = s.backend := by
  cases steps.tokens with
  | same operations _ => exact .inl (operations ▸ found)
  | begins made operations _ outcome _ _ _ _ backend daemon _ _ begins =>
    rw [operations] at found
    rcases Nat.lt_trichotomy n s.operations.length with below | last | above
    · rw [List.getElem?_append_left below] at found
      exact .inl found
    · rw [List.getElem?_append_right last.ge, last] at found
      simp only [Nat.sub_self, List.getElem?_cons_zero, Option.some_inj] at found
      subst found
      exact .inr ⟨last, last ▸ outcome, begins, daemon, backend⟩
    · rw [List.getElem?_eq_none (by simp; omega)] at found
      cases found
  | ends m used token _ operations _ =>
    rw [operations] at found
    by_cases own : m = n
    · subst own
      rw [List.getElem?_set_self (List.getElem?_eq_some_iff.mp token).1, Option.some_inj] at found
      rw [← found] at open_
      cases open_
    · rw [List.getElem?_set_ne own] at found
      exact .inl found

theorem Begun.snoc (begun : Begun moments s n op)
    (harmless : ¬ Disturbs s c) (daemon : t.daemon = s.daemon) (backend : t.backend = s.backend) :
    Begun (moments ++ [⟨s, c⟩]) t n op := by
  obtain ⟨earlier, begin, between, split, started, unbroken⟩ := begun
  refine ⟨earlier, begin, between ++ [⟨s, c⟩], ?_, started.rebound daemon backend,
    unbroken.snoc harmless⟩
  rw [split, append_assoc, cons_append]

omit [DecidableEq α] in
/-- Nothing in flight is counted when the tracker counts nothing. -/
theorem Live.flight (live : Live s) (idle : s.pendingRevocations = 0)
    (among : op ∈ s.operations) : op.completed = true ∨ op.counted = false := by
  have counted := live.pending
  rw [idle, eq_comm, countP_eq_zero] at counted
  have quiet := counted op among
  simp only [Operation.pending, Bool.and_eq_true, Bool.not_eq_true', not_and, Bool.not_eq_false] at quiet
  cases own : op.counted with
  | false => exact .inr rfl
  | true => exact .inl (quiet own)

theorem Traced.tokens_snoc (traced : Traced moments s) (live : Live s)
    (steps : Steps s c (s.call c).1 t)
    (found : t.operations[n]? = some op) (open_ : op.completed = false) (eligible : op.eligible = true)
    (revision : op.revision = t.revision) (current : t.sameBackend op = true) :
    Begun (moments ++ [⟨s, c⟩]) t n op := by
  rcases steps.token_cases found open_ with old | ⟨-, outcome, begins, daemon, backend⟩
  · have stamped := live.stamped op (mem_of_getElem? old)
    have harmless : ¬ Disturbs s c := fun breaks => by
      have later := steps.disturbed breaks
      omega
    obtain ⟨same, daemon, backend⟩ := steps.quiet harmless
    have current' : s.sameBackend op = true := by
      rw [sameBackend, daemon, backend] at current
      exact current
    exact (traced.tokens n op old open_ eligible (revision.trans same) current').snoc harmless daemon
      backend
  · have began := begins eligible
    refine ⟨moments, ⟨s, c⟩, [], rfl, ⟨outcome, began, daemon.symm, backend.symm, ?_⟩, by
      simp [Unbroken]⟩
    intro other among kind
    rcases live.flight began.idle among with done | uncounted
    · exact .inl done
    rcases kind with revoke | reset
    · rw [live.revokes other among revoke] at uncounted
      cases uncounted
    · exact .inr ⟨reset, traced.resets other among reset uncounted⟩

theorem Publication.harmless
    (publication : Publication s c n op id) : ¬ Disturbs s c := by
  rcases publication.named with ⟨rfl, -⟩ | ⟨ids, rfl, -⟩
  · rintro ⟨_, -, failed, -⟩
    cases failed
  · rintro ⟨_, -, failed, -⟩
    cases failed

theorem Traced.users_snoc (traced : Traced moments s)
    (steps : Steps s c (s.call c).1 t) (now : t.available id = true) :
    Evidence (moments ++ [⟨s, c⟩]) t id := by
  rcases steps.users id now with ⟨before, kept⟩ | ⟨n, op, publication⟩
  · obtain ⟨earlier, begin, between, publish, later, n, op, split, started, unbroken, publication,
      candidate, quiet⟩ := traced.users id before
    obtain ⟨daemon, backend⟩ := steps.binding id kept
    refine ⟨earlier, begin, between, publish, later ++ [⟨s, c⟩], n, op, ?_,
      started.rebound daemon backend, unbroken, publication, candidate, ?_⟩
    · rw [split, append_assoc, cons_append, append_assoc, cons_append]
    exact Lib.forall_mem_snoc quiet kept
  · obtain ⟨-, daemon, backend⟩ := steps.quiet publication.harmless
    obtain ⟨earlier, begin, between, split, started, unbroken⟩ := traced.tokens n op publication.token
      publication.open_ publication.eligible publication.revision publication.current
    refine ⟨earlier, begin, between, ⟨s, c⟩, [], n, op, ?_, started.rebound daemon backend, unbroken,
      publication, fun reset => ?_, by simp⟩
    · rw [split, append_assoc, cons_append]
    rcases publication.named with ⟨-, single, -⟩ | ⟨ids, -, -, restore | ⟨-, among⟩⟩
    · rw [reset] at single
      cases single
    · rw [reset] at restore
      cases restore
    · exact started.begins.candidates id among

theorem publications_snoc (moments : List (Moment (Tracker α) (Call α))) (s : Tracker α) (c : Call α) :
    publications (moments ++ [⟨s, c⟩]) =
      publications moments ++ (s.call c).1.events.map Delivery.state := by
  simp [publications, Moment.reply]

theorem Traced.snoc (traced : Traced moments s) (live : Live s)
    (steps : Steps s c (s.call c).1 (s.call c).2) :
    Traced (moments ++ [⟨s, c⟩]) (s.call c).2 where
  resets op among reset uncounted := by
    have old (among : op ∈ s.operations) : ∃ moment ∈ moments ++ [(⟨s, c⟩ : Moment _ _)], ∃ identity,
        moment.call = .beginReset identity ∧ moment.state.isBound identity = false := by
      obtain ⟨moment, inside, begun⟩ := traced.resets op among reset uncounted
      exact ⟨moment, mem_append_left _ inside, begun⟩
    cases steps.tokens with
    | same operations _ => exact old (operations ▸ among)
    | begins made operations _ _ _ _ _ _ _ _ _ resets _ =>
      rw [operations] at among
      rcases mem_append.mp among with among | new
      · exact old among
      · rw [mem_singleton.mp new] at reset uncounted
        obtain ⟨identity, same, bound⟩ := resets reset
        exact ⟨⟨s, c⟩, by simp, identity, same, bound.symm.trans uncounted⟩
    | ends n used token _ operations _ =>
      rw [operations] at among
      rcases mem_set_completed token among with among | ⟨same, present⟩
      · exact old among
      · rw [same] at reset uncounted
        obtain ⟨moment, inside, begun⟩ := traced.resets used present reset uncounted
        exact ⟨moment, mem_append_left _ inside, begun⟩
  tokens n op found open_ eligible revision current :=
    traced.tokens_snoc live steps found open_ eligible revision current
  users id now := traced.users_snoc steps now
  rising := by
    rw [Rising, publications_snoc]
    refine pairwise_append.mpr ⟨traced.rising, ?_, ?_⟩
    · rw [pairwise_map]
      exact steps.publishes.ordered
    intro earlier before later among same
    obtain ⟨e, inside, rfl⟩ := mem_map.mp among
    obtain ⟨sequence, revocation⟩ := traced.latest earlier before
    refine ⟨sequence.trans_lt (steps.publishes.fresh e inside).1, ?_⟩
    rw [same] at revocation
    exact revocation.trans (steps.publishes.numbered e inside).1
  latest := by
    rw [publications_snoc]
    intro snapshot among
    rcases mem_append.mp among with before | new
    · obtain ⟨sequence, revocation⟩ := traced.latest snapshot before
      exact ⟨sequence.trans steps.publishes.sequence, revocation.trans (steps.publishes.kept _)⟩
    · obtain ⟨e, inside, rfl⟩ := mem_map.mp new
      exact ⟨(steps.publishes.fresh e inside).2, (steps.publishes.numbered e inside).2⟩

theorem create_sound {seed : Nat} (made : create α seed = some s) : Sound s ∧ Traced [] s := by
  unfold create at made
  split at made
  · cases made
  rename_i valid
  rw [Option.some_inj] at made
  subst made
  have nobody (id : Int) :
      ({ backend := seed, revision := seed, sequence := seed } : Tracker α).available id = false := rfl
  refine ⟨⟨nodup_nil, fun _ => nobody, fun _ => ⟨by simp, ⟨le_rfl, le_rfl, ?_⟩, rfl, by simp, by
    simp⟩⟩, ⟨by simp, by simp, fun id now => ?_, .nil, by simp [publications]⟩⟩
  · dsimp only
    omega
  · rw [nobody] at now
    cases now

/-- Every call of a run leaves room for the negative ids in its list. -/
def RoomyRun (moments : List (Moment (Tracker α) (Call α))) : Prop :=
  ∀ moment ∈ moments, RoomyCall moment.state moment.call

/-- The unlocked users of a call have no negative ids. -/
def Call.nonnegative : Call α → Bool
  | .completeBulk _ _ ids => ids.all (0 ≤ ·)
  | _ => true

theorem roomyRun_of_nonnegative {calls : List (Call α)} (valid : ∀ c ∈ calls, Call.nonnegative c = true) :
    RoomyRun (past call s calls) := by
  intro moment inside
  have own := valid _ (call_mem_of_mem_past inside)
  unfold RoomyCall
  split
  · rename_i token success ids same
    rw [same] at own
    intro before id after split negative
    simp only [Call.nonnegative, all_eq_true, decide_eq_true_eq] at own
    have positive := own id (by simp [split])
    omega
  · trivial

/-- What such a run keeps. -/
def Runs (moments : List (Moment (Tracker α) (Call α))) (s : Tracker α) : Prop :=
  RoomyRun moments → Sound s ∧ (s.exhausted = false → Traced moments s)

theorem run_traced {seed : Nat} (made : create α seed = some s) (calls : List (Call α)) :
    Runs (past call s calls) (after call s calls) := by
  obtain ⟨sound, traced⟩ := create_sound made
  apply past_induction
  · exact fun _ => ⟨sound, fun _ => traced⟩
  intro moments s c earlier roomy
  obtain ⟨sound, traced⟩ := earlier fun moment inside => roomy moment (mem_append_left _ inside)
  have room : RoomyCall s c := roomy ⟨s, c⟩ (by simp)
  obtain ⟨sound', steps⟩ := call_keeps sound c room
  refine ⟨sound', fun alive => ?_⟩
  obtain ⟨live, steps⟩ := steps alive
  exact (traced steps.live).snoc live steps

/-- A daemon connects, a reset and an unlock overlap, and a second unlock is
published. -/
def unlockingCalls : List (Call Nat) :=
  [.connected 7, .beginReset (some 7), .beginAvailable 3 (some 7), .completeBulk (.own 0) true [3],
    .complete (.own 1) true, .beginAvailable 3 (some 7), .complete (.own 2) true]

/-- Until exhaustion the tracker counts exactly the revocations in flight, and no
snapshot is numbered ahead of it. -/
theorem revocations_in_flight_are_counted {seed : Nat} (made : create α seed = some s)
    (calls : List (Call α)) (roomy : RoomyRun (past call s calls))
    (alive : (after call s calls).exhausted = false) :
    (after call s calls).pendingRevocations =
      (after call s calls).operations.countP Operation.pending ∧
    (∀ op ∈ (after call s calls).operations, op.kind = .revoke → op.counted = true) ∧
    ∀ v ∈ (after call s calls).users, v.state.revocation ≤ (after call s calls).revision := by
  have live := (run_traced made calls roomy).1.live alive
  exact ⟨live.pending, live.revokes, live.numbers⟩

theorem unlocking_counts_its_reset : ∃ s, create Nat 1 = some s ∧
    (after call s (unlockingCalls.take 2)).pendingRevocations = 1 ∧
    (after call s (unlockingCalls.take 2)).operations.countP Operation.pending = 1 := by
  have made : create Nat 1 = some { backend := 1, revision := 1, sequence := 1 } := by decide
  have counted := (revocations_in_flight_are_counted made (unlockingCalls.take 2)
    (roomyRun_of_nonnegative (by decide)) (by decide +kernel)).1
  exact ⟨_, made, by decide +kernel, counted.symm.trans (by decide +kernel)⟩

/-- A restore near the end of the sequence, with a negative id in its list. -/
def exhaustingCalls : List (Call Nat) :=
  [.connected 7, .beginRestore (some 7), .completeBulk (.own 0) true [5, -1]]

end Tracker
end Andrix.Platform
