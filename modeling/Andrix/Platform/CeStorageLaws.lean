import Mathlib.Algebra.Order.Ring.Nat
import Andrix.Platform.CeStorage
import Andrix.Lib.Steps

/-! What each call on the tracker can do: which calls break the evidence of
earlier ones, which users it may make available, how the tokens change and what
it publishes. -/
namespace Andrix.Platform
open List
namespace Tracker
variable {α : Type} {s t u : Tracker α} {id : Int}

/-- The revocation number of the user's snapshot. -/
def revocation (s : Tracker α) (id : Int) : Nat := ((s.find id).map (·.state.revocation)).getD 0

/-- Only the users' entries differ. -/
def SameCore (s t : Tracker α) : Prop := t = { s with users := t.users }

def Distinct (s : Tracker α) : Prop := (s.users.map User.id).Nodup

/-! ## A single entry -/

variable {v : User}

theorem mem_of_find (found : s.find id = some v) : v ∈ s.users ∧ v.id = id :=
  ⟨mem_of_find?_eq_some found, by simpa using List.find?_some found⟩

theorem find_of_mem (distinct : s.Distinct) (inside : v ∈ s.users) :
    s.find v.id = some v :=
  Lib.find_key distinct inside

theorem user_core (s : Tracker α) (id : Int) : SameCore s (s.user id).2 := by
  unfold user
  split <;> rfl

theorem user_find (s : Tracker α) (id : Int) : (s.user id).2.find id = some (s.user id).1 := by
  unfold user
  split
  · assumption
  · rename_i missing
    simp only [find, List.find?_eq_none, User.id] at missing
    simp [find, List.find?_append, List.find?_eq_none.mpr missing, User.id]

theorem user_find_other {j : Int} (other : j ≠ id) : (s.user id).2.find j = s.find j := by
  unfold user
  split
  · rfl
  · simp [find, User.id, List.find?_append, other.symm]

theorem user_distinct (distinct : s.Distinct) (id : Int) : (s.user id).2.Distinct := by
  unfold user
  split
  · exact distinct
  rename_i missing
  refine Lib.nodup_map_append distinct fun v inside same => ?_
  have found := find_of_mem distinct inside
  rw [same] at found
  exact absurd (missing.symm.trans found) (by simp)

theorem user_available (s : Tracker α) (id j : Int) : (s.user id).2.available j = s.available j := by
  by_cases same : j = id
  · subst same
    rw [available, available, user_find]
    unfold user
    split <;> simp [*]
  · rw [available, available, user_find_other same]

theorem user_revocation_le (s : Tracker α) (id j : Int) :
    s.revocation j ≤ (s.user id).2.revocation j := by
  by_cases same : j = id
  · subst same
    rw [revocation, revocation, user_find]
    unfold user
    split <;> simp [*]
  · rw [revocation, revocation, user_find_other same]

/-- A fresh entry has the tracker's own numbers. -/
theorem user_revocation_bound (bounded : ∀ v ∈ s.users, v.state.revocation ≤ s.revision) (id : Int) :
    ∀ v ∈ (s.user id).2.users, v.state.revocation ≤ s.revision := by
  unfold user
  split
  · exact bounded
  exact Lib.forall_mem_snoc bounded le_rfl

theorem replace_find {v w : User} (found : s.find id = some v) (same : w.id = id) (j : Int) :
    ({ s with users := Lib.replace User.id w s.users } : Tracker α).find j =
      if j = id then some w else s.find j := by
  obtain ⟨inside, named⟩ := mem_of_find found
  split
  · rename_i own
    subst own
    have kept := Lib.find_replace_self inside (named.trans same.symm)
    rw [same] at kept
    exact kept
  · rename_i other
    exact Lib.find_replace_other (by rw [same]; exact fun back => other back.symm)

theorem replace_distinct (distinct : s.Distinct) (w : User) :
    Distinct { s with users := Lib.replace User.id w s.users } := by
  unfold Distinct at *
  rwa [Lib.map_key_replace]

/-! ## Publishing -/

/-- The entry that publishing puts in the place of `v`. -/
def published (s : Tracker α) (available revoke : Bool) (v : User) : User :=
  { v with
    state :=
      ⟨v.id, s.sequence, if revoke || s.exhausted then s.revision else v.state.revocation,
        available && !s.exhausted⟩ }

theorem publish_eq (s : Tracker α) (id : Int) (available revoke : Bool) :
    let v := s.published available revoke (s.user id).1
    s.publish id available revoke =
      (⟨v.state, v.listeners⟩,
        { (s.user id).2 with users := Lib.replace User.id v (s.user id).2.users }) := by
  have named := (mem_of_find (user_find s id)).2
  have core : SameCore s (s.user id).2 := user_core s id
  simp only [publish, published, named]
  rw [core]

theorem publish_core (s : Tracker α) (id : Int) (available revoke : Bool) :
    SameCore s (s.publish id available revoke).2 := by
  rw [publish_eq]
  have core : SameCore s (s.user id).2 := user_core s id
  unfold SameCore
  rw [core]

theorem publish_distinct (distinct : s.Distinct) (id : Int) (available revoke : Bool) :
    (s.publish id available revoke).2.Distinct := by
  rw [publish_eq]
  exact replace_distinct (user_distinct distinct id) _

theorem publish_find (s : Tracker α) (id : Int) (available revoke : Bool) (j : Int) :
    (s.publish id available revoke).2.find j =
      if j = id then some (s.published available revoke (s.user id).1) else s.find j := by
  rw [publish_eq]
  have found := user_find s id
  have named : (s.published available revoke (s.user id).1).id = id := (mem_of_find found).2
  refine (replace_find found named j).trans ?_
  split
  · rfl
  · rename_i other
    exact user_find_other other

theorem publish_available (s : Tracker α) (id : Int) (available revoke : Bool) (j : Int) :
    (s.publish id available revoke).2.available j =
      if j = id then available && !s.exhausted else s.available j := by
  unfold Tracker.available
  rw [publish_find]
  split <;> rfl

/-- All entries, made unavailable at the tracker's own numbers. -/
theorem allUnavailable_eq (distinct : s.Distinct) :
    s.allUnavailable =
      (s.users.map fun v => ⟨(s.published false true v).state, v.listeners⟩,
        { s with users := s.users.map (s.published false true) }) := by
  have loop (rest : List User) : ∀ (done : List User) (events : List Delivery),
      Distinct { s with users := done ++ rest } →
      (rest.map User.id).foldl (fun part id =>
        (part.1 ++ [(part.2.publish id false true).1], (part.2.publish id false true).2))
        (events, { s with users := done ++ rest }) =
      (events ++ rest.map (fun v => ⟨(s.published false true v).state, v.listeners⟩),
        { s with users := done ++ rest.map (s.published false true) }) := by
    induction rest with
    | nil => simp
    | cons v rest ih =>
      intro done events distinct
      have inside : v ∈ done ++ v :: rest := by simp
      have found := find_of_mem distinct inside
      have known : ({ s with users := done ++ v :: rest } : Tracker α).user v.id =
          (v, { s with users := done ++ v :: rest }) := by
        unfold user
        rw [found]
      have named : (s.published false true v).id = v.id := rfl
      have replaced : Lib.replace User.id (s.published false true v) (done ++ v :: rest) =
          done ++ [s.published false true v] ++ rest := by
        have apart := distinct
        simp only [Distinct, map_append, map_cons, nodup_append, nodup_cons] at apart
        have keeps {part : List User} (others : ∀ w ∈ part, w.id ≠ v.id) :
            part.map (fun w => if w.id = v.id then s.published false true v else w) = part := by
          conv_rhs => rw [← map_id part]
          exact map_congr_left fun w among => by simp [others w among]
        have before : ∀ w ∈ done, w.id ≠ v.id := fun w among =>
          apart.2.2 w.id (mem_map_of_mem among) v.id (by simp)
        have after : ∀ w ∈ rest, w.id ≠ v.id := fun w among same =>
          apart.2.1.1 (same ▸ mem_map_of_mem among)
        simp [Lib.replace, named, keeps before, keeps after]
      have step : ({ s with users := done ++ v :: rest } : Tracker α).publish v.id false true =
          (⟨(s.published false true v).state, v.listeners⟩,
            { s with users := done ++ [s.published false true v] ++ rest }) := by
        rw [publish_eq, known]
        simp only [published] at replaced ⊢
        rw [replaced]
      have next : Distinct { s with users := done ++ [s.published false true v] ++ rest } := by
        have kept := publish_distinct distinct v.id false true
        rwa [step] at kept
      rw [map_cons, foldl_cons]
      dsimp only
      rw [step]
      dsimp only
      rw [ih _ _ next]
      simp
  exact loop s.users [] [] distinct

/-! ## The counters -/

theorem SameCore.exhausted (core : SameCore s t) : t.exhausted = s.exhausted := by rw [core]

theorem Distinct.of_users (distinct : s.Distinct) (users : t.users = s.users) : t.Distinct := by
  unfold Distinct
  rw [users]
  exact distinct

theorem advance_live (live : s.advance.2.exhausted = false) :
    s.exhausted = false ∧ s.sequence < longMax - 1 ∧
      s.advance = (true, { s with sequence := s.sequence + 1 }) := by
  unfold advance at *
  split at live
  · rename_i dead
    simp [dead] at live
  rename_i alive
  split at live
  · cases live
  · rename_i room
    rw [if_neg alive, if_neg room]
    exact ⟨by simpa using alive, by omega, rfl⟩

theorem advance_dead (dead : s.exhausted = true) : s.advance = (false, s) := by
  simp [advance, dead]

theorem revise_live (live : s.revise.exhausted = false) :
    s.exhausted = false ∧ s.sequence < longMax - 1 ∧
      s.revise = { s with sequence := s.sequence + 1, revision := s.revision + 1 } := by
  have alive : s.advance.2.exhausted = false := by
    unfold revise at live
    split at live <;> exact live
  obtain ⟨was, room, advanced⟩ := advance_live alive
  refine ⟨was, room, ?_⟩
  rw [revise, advanced]
  rfl

theorem advance_users (s : Tracker α) : s.advance.2.users = s.users := by
  unfold advance
  split
  · rfl
  · split <;> rfl

theorem revise_users (s : Tracker α) : s.revise.users = s.users := by
  unfold revise
  split <;> exact advance_users s

theorem allUnavailable_core (distinct : s.Distinct) : SameCore s s.allUnavailable.2 := by
  rw [allUnavailable_eq distinct]
  rfl

theorem allUnavailable_distinct (distinct : s.Distinct) : s.allUnavailable.2.Distinct := by
  rw [allUnavailable_eq distinct]
  unfold Distinct at *
  rwa [map_map]

theorem allUnavailable_find (distinct : s.Distinct) (id : Int) :
    s.allUnavailable.2.find id = (s.find id).map (s.published false true) := by
  rw [allUnavailable_eq distinct]
  unfold find
  rw [List.find?_map]
  rfl

theorem allUnavailable_dark (distinct : s.Distinct) (id : Int) :
    s.allUnavailable.2.available id = false := by
  unfold available
  rw [allUnavailable_find distinct]
  cases s.find id <;> rfl

theorem invalidateAll_distinct (distinct : s.Distinct) : s.invalidateAll.2.Distinct :=
  allUnavailable_distinct (distinct.of_users (revise_users s))

theorem finishEvents_core (distinct : s.Distinct) (events : List Delivery) :
    SameCore s (finishEvents events s).2 := by
  unfold finishEvents
  split
  · exact allUnavailable_core distinct
  · rfl

variable {events : List Delivery}

theorem finishEvents_live (distinct : s.Distinct)
    (live : (finishEvents events s).2.exhausted = false) :
    s.exhausted = false ∧ finishEvents events s = (events, s) := by
  have alive : s.exhausted = false := (finishEvents_core distinct events).exhausted.symm.trans live
  exact ⟨alive, by simp [finishEvents, alive]⟩

theorem finishEvents_dark (distinct : s.Distinct)
    (dead : (finishEvents events s).2.exhausted = true) (id : Int) :
    (finishEvents events s).2.available id = false := by
  revert dead
  unfold finishEvents
  split
  · exact fun _ => allUnavailable_dark distinct id
  · rename_i alive
    exact fun dead => absurd dead alive

/-! ## What a call publishes -/

/-- No entry has a revocation number that the tracker did not give out. -/
def Numbered (s : Tracker α) : Prop := ∀ v ∈ s.users, v.state.revocation ≤ s.revision

/-- The events that lead from `s` to `t`: later than everything before, in
order for each user, with revocation numbers that never fall. -/
structure Publishes (s : Tracker α) (events : List Delivery) (t : Tracker α) : Prop where
  sequence : s.sequence ≤ t.sequence
  bounded : ∀ v ∈ t.users, v.state.revocation ≤ t.revision
  fresh : ∀ e ∈ events, s.sequence < e.state.sequence ∧ e.state.sequence ≤ t.sequence
  numbered : ∀ e ∈ events, s.revocation e.state.userId ≤ e.state.revocation ∧
    e.state.revocation ≤ t.revocation e.state.userId
  ordered : events.Pairwise fun earlier later => earlier.state.userId = later.state.userId →
    earlier.state.sequence < later.state.sequence ∧ earlier.state.revocation ≤ later.state.revocation
  kept : ∀ id, s.revocation id ≤ t.revocation id

theorem Publishes.refl (numbers : s.Numbered) : Publishes s [] s :=
  ⟨le_rfl, numbers, by simp, by simp, .nil, fun _ => le_rfl⟩

theorem Publishes.trans {first second : List Delivery} (left : Publishes s first t)
    (right : Publishes t second u) : Publishes s (first ++ second) u where
  sequence := left.sequence.trans right.sequence
  bounded := right.bounded
  fresh e inside := by
    rcases mem_append.mp inside with inside | inside
    · exact ⟨(left.fresh e inside).1, (left.fresh e inside).2.trans right.sequence⟩
    · exact ⟨left.sequence.trans_lt (right.fresh e inside).1, (right.fresh e inside).2⟩
  numbered e inside := by
    rcases mem_append.mp inside with inside | inside
    · exact ⟨(left.numbered e inside).1, (left.numbered e inside).2.trans (right.kept _)⟩
    · exact ⟨(left.kept _).trans (right.numbered e inside).1, (right.numbered e inside).2⟩
  ordered := by
    refine pairwise_append.mpr ⟨left.ordered, right.ordered, ?_⟩
    intro earlier before later after same
    refine ⟨(left.fresh _ before).2.trans_lt (right.fresh _ after).1, ?_⟩
    exact (left.numbered _ before).2.trans (same ▸ (right.numbered _ after).1)
  kept id := (left.kept id).trans (right.kept id)

theorem find_congr (users : t.users = s.users) : t.find id = s.find id := by
  unfold find
  rw [users]

theorem available_congr (users : t.users = s.users) : t.available id = s.available id := by
  unfold available
  rw [find_congr users]

theorem revocation_congr (users : t.users = s.users) : t.revocation id = s.revocation id := by
  unfold revocation
  rw [find_congr users]

/-- Nothing is published when the users and their numbers stay. -/
theorem Publishes.none (numbers : s.Numbered) (users : t.users = s.users)
    (sequence : s.sequence ≤ t.sequence) (revision : s.revision ≤ t.revision) : Publishes s [] t :=
  ⟨sequence, fun v inside => (numbers v (users ▸ inside)).trans revision, by simp, by simp, .nil,
    fun _ => (revocation_congr users).ge⟩

/-- Only the users and two counters matter. -/
theorem Publishes.core (publishes : Publishes s events t)
    (users : u.users = t.users) (sequence : u.sequence = t.sequence)
    (revision : u.revision = t.revision) : Publishes s events u := by
  have rest := Publishes.none publishes.bounded users sequence.ge revision.ge
  simpa using publishes.trans rest

/-- Only the tokens and their count differ. -/
def SameBesidesTokens (s b : Tracker α) : Prop :=
  b = { s with operations := b.operations, pendingRevocations := b.pendingRevocations }

theorem Publishes.source (publishes : Publishes s events t)
    (users : s.users = u.users) (sequence : s.sequence = u.sequence) : Publishes u events t where
  sequence := sequence ▸ publishes.sequence
  bounded := publishes.bounded
  fresh e inside := sequence ▸ publishes.fresh e inside
  numbered e inside := by
    rw [← revocation_congr users]
    exact publishes.numbered e inside
  ordered := publishes.ordered
  kept id := by
    rw [← revocation_congr users]
    exact publishes.kept id

theorem revocation_le (numbers : s.Numbered) (id : Int) : s.revocation id ≤ s.revision := by
  unfold revocation
  cases found : s.find id with
  | none => exact Nat.zero_le _
  | some v => exact numbers v (mem_of_find found).1

/-- One snapshot, after the sequence was advanced. -/
theorem publish_publishes (numbers : s.Numbered)
    (users : t.users = s.users) (sequence : s.sequence < t.sequence) (revision : s.revision ≤ t.revision)
    (id : Int) (available revoke : Bool) :
    Publishes s [(t.publish id available revoke).1] (t.publish id available revoke).2 := by
  have numbers' : t.Numbered := fun v inside => (numbers v (users ▸ inside)).trans revision
  have fresh := user_revocation_bound numbers' id
  have found := user_find t id
  have core : SameCore t (t.publish id available revoke).2 := publish_core t id available revoke
  have named := (mem_of_find found).2
  have number : s.revocation id ≤ (t.published available revoke (t.user id).1).state.revocation ∧
      (t.published available revoke (t.user id).1).state.revocation ≤ t.revision := by
    have old : s.revocation id ≤ (t.user id).1.state.revocation := by
      have grown := user_revocation_le t id id
      rw [revocation_congr users] at grown
      refine grown.trans (le_of_eq ?_)
      rw [revocation, found]
      rfl
    have limit := fresh _ (mem_of_find found).1
    unfold published
    dsimp only
    split
    · exact ⟨old.trans limit, le_rfl⟩
    · exact ⟨old, limit⟩
  have event : (t.publish id available revoke).1.state =
      (t.published available revoke (t.user id).1).state := by
    rw [publish_eq]
  have owner : (t.published available revoke (t.user id).1).state.userId = id := named
  have stands (j : Int) : (t.publish id available revoke).2.revocation j =
      if j = id then (t.published available revoke (t.user id).1).state.revocation
      else t.revocation j := by
    unfold revocation
    rw [publish_find]
    split <;> rfl
  refine ⟨?_, fun v inside => ?_, fun e inside => ?_, fun e inside => ?_, pairwise_singleton _ _,
    fun j => ?_⟩
  · rw [core]
    exact sequence.le
  · rw [core]
    rw [publish_eq] at inside
    have same : (t.user id).1.id = (t.published available revoke (t.user id).1).id := rfl
    rcases (Lib.mem_replace (mem_of_find found).1 same).mp inside with rfl | ⟨present, -⟩
    · exact number.2
    · exact fresh v present
  · rw [mem_singleton.mp inside, event, core]
    exact ⟨sequence, le_rfl⟩
  · rw [mem_singleton.mp inside, event, owner, stands, if_pos rfl]
    exact ⟨number.1, le_rfl⟩
  · rw [stands]
    split
    · rename_i same
      exact same ▸ number.1
    · exact (revocation_congr users).ge

/-- All snapshots at once, after a revocation was numbered. -/
theorem allUnavailable_publishes (distinct : t.Distinct) (numbers : s.Numbered)
    (users : t.users = s.users) (sequence : s.sequence < t.sequence) (revision : s.revision ≤ t.revision) :
    Publishes s t.allUnavailable.1 t.allUnavailable.2 := by
  have limit (id : Int) : s.revocation id ≤ t.revision := (revocation_le numbers id).trans revision
  have core : SameCore t t.allUnavailable.2 := allUnavailable_core distinct
  have stands (id : Int) :
      t.allUnavailable.2.revocation id = if (t.find id).isSome then t.revision else 0 := by
    unfold revocation
    rw [allUnavailable_find distinct]
    cases t.find id <;> rfl
  have events : t.allUnavailable.1 =
      t.users.map fun v => ⟨(t.published false true v).state, v.listeners⟩ := by
    rw [allUnavailable_eq distinct]
  rw [events]
  refine ⟨?_, ?_, fun e inside => ?_, fun e inside => ?_, ?_, fun id => ?_⟩
  · rw [core]
    exact sequence.le
  · rw [allUnavailable_eq distinct]
    intro v inside
    obtain ⟨w, _, rfl⟩ := mem_map.mp inside
    exact le_rfl
  · obtain ⟨w, _, rfl⟩ := mem_map.mp inside
    rw [core]
    exact ⟨sequence, le_rfl⟩
  · obtain ⟨w, among, rfl⟩ := mem_map.mp inside
    have found : t.find w.id = some w := find_of_mem distinct among
    refine ⟨limit _, le_of_eq ?_⟩
    rw [stands]
    simp [published, found]
  · rw [pairwise_map]
    unfold Distinct at distinct
    rw [List.Nodup, pairwise_map] at distinct
    exact distinct.imp fun apart same => absurd same apart
  · rw [stands]
    split
    · exact limit id
    rename_i missing
    rw [← revocation_congr users]
    simp only [Option.not_isSome_iff_eq_none] at missing
    simp [revocation, missing]

/-! ## Lock sections -/

/-- The counters, as they are until exhaustion. -/
structure Bounded (s : Tracker α) : Prop where
  revision : s.revision ≤ s.sequence
  backend : s.backend ≤ s.sequence
  sequence : s.sequence < longMax

/-- Only the users' entries and the numbers of snapshots differ. -/
def Keeps (s t : Tracker α) : Prop :=
  t = { s with sequence := t.sequence, revision := t.revision, users := t.users }

/-- A lock section that takes one number and publishes `events` under it, and so does
not exhaust the tracker. -/
structure Advances (s : Tracker α) (events : List Delivery) (t : Tracker α) : Prop where
  live : s.exhausted = false
  room : s.sequence < longMax - 1
  publishes : Publishes s events t
  keeps : Keeps s t
  sequence : t.sequence = s.sequence + 1
  revision : t.revision ≤ s.revision + 1

theorem Bounded.advances (bounded : s.Bounded) (room : s.sequence < longMax - 1)
    (sequence : t.sequence = s.sequence + 1) (revision : t.revision ≤ s.revision + 1)
    (backend : t.backend ≤ s.backend + 1) : t.Bounded := by
  have before := bounded.revision
  have below := bounded.backend
  exact ⟨by omega, by omega, by omega⟩

theorem Keeps.binding (keeps : Keeps s t) : t.daemon = s.daemon ∧ t.backend = s.backend := by
  rw [keeps]
  exact ⟨rfl, rfl⟩

theorem Advances.bounded (advances : Advances s events t) (bounded : s.Bounded) : t.Bounded :=
  bounded.advances advances.room advances.sequence advances.revision
    (advances.keeps.binding.2.le.trans (Nat.le_succ _))

/-- A snapshot of one user under the next number. -/
theorem publish_advances {m : Tracker α} {grows : Nat} (numbers : s.Numbered)
    (live : s.exhausted = false) (room : s.sequence < longMax - 1)
    (made : m = { s with sequence := s.sequence + 1, revision := s.revision + grows })
    (grows_le : grows ≤ 1) (id : Int) (available revoke : Bool) :
    Advances s [(m.publish id available revoke).1] (m.publish id available revoke).2 ∧
      (m.publish id available revoke).2.revision = s.revision + grows ∧
      ∀ j, (m.publish id available revoke).2.available j = true →
        if j = id then available = true else s.available j = true := by
  have core : SameCore m (m.publish id available revoke).2 := publish_core m id available revoke
  have users : m.users = s.users := by rw [made]
  have published := publish_publishes numbers users (by rw [made]; exact Nat.lt_succ_self _)
    (by rw [made]; exact Nat.le_add_right _ _) id available revoke
  have revision : (m.publish id available revoke).2.revision = s.revision + grows := by rw [core, made]
  refine ⟨⟨live, room, published, ?_, by rw [core, made], by omega⟩, revision, fun j now => ?_⟩
  · rw [Keeps, core, made]
  rw [publish_available] at now
  split at now
  · rw [if_pos ‹_›]
    simp only [Bool.and_eq_true] at now
    exact now.1
  · rw [if_neg ‹_›, ← available_congr users]
    exact now

/-- One user made unavailable under a new revocation number. -/
theorem revise_advances (numbers : s.Numbered)
    (live : (s.revise.publish id false true).2.exhausted = false) :
    Advances s [(s.revise.publish id false true).1] (s.revise.publish id false true).2 ∧
      s.revision < (s.revise.publish id false true).2.revision ∧
      ∀ j, (s.revise.publish id false true).2.available j = true → j ≠ id ∧ s.available j = true := by
  have alive := (publish_core s.revise id false true).exhausted.symm.trans live
  obtain ⟨was, room, made⟩ := revise_live alive
  obtain ⟨advances, revision, users⟩ := publish_advances numbers was room made le_rfl id false true
  refine ⟨advances, by omega, fun j now => ?_⟩
  have seen := users j now
  split at seen
  · cases seen
  · exact ⟨‹_›, seen⟩

theorem advance_advances (numbers : s.Numbered)
    (live : (s.advance.2.publish id true false).2.exhausted = false) :
    Advances s [(s.advance.2.publish id true false).1] (s.advance.2.publish id true false).2 ∧
      (s.advance.2.publish id true false).2.revision = s.revision ∧
      ∀ j, (s.advance.2.publish id true false).2.available j = true → j = id ∨ s.available j = true := by
  have alive := (publish_core s.advance.2 id true false).exhausted.symm.trans live
  obtain ⟨was, room, made⟩ := advance_live alive
  have made' : s.advance.2 = { s with sequence := s.sequence + 1, revision := s.revision + 0 } := by
    rw [made]
    rfl
  obtain ⟨advances, revision, users⟩ := publish_advances numbers was room made' (Nat.zero_le _) id true
    false
  refine ⟨advances, revision, fun j now => ?_⟩
  have seen := users j now
  split at seen
  · exact .inl ‹_›
  · exact .inr seen

/-- Every user made unavailable under a new revocation number. -/
theorem invalidateAll_advances (distinct : s.Distinct) (numbers : s.Numbered)
    (live : s.invalidateAll.2.exhausted = false) :
    Advances s s.invalidateAll.1 s.invalidateAll.2 ∧ s.revision < s.invalidateAll.2.revision ∧
      ∀ id, s.invalidateAll.2.available id = false := by
  have numbered := distinct.of_users (revise_users s)
  have core : SameCore s.revise s.invalidateAll.2 := allUnavailable_core numbered
  obtain ⟨was, room, revised⟩ := revise_live (core.exhausted.symm.trans live)
  have revision : s.invalidateAll.2.revision = s.revision + 1 := by rw [core, revised]
  refine ⟨⟨was, room, ?_, ?_, by rw [core, revised], revision.le⟩, by omega, allUnavailable_dark numbered⟩
  · refine allUnavailable_publishes numbered numbers (revise_users s) ?_ ?_
    · rw [revised]
      exact Nat.lt_succ_self _
    · rw [revised]
      exact Nat.le_succ _
  · rw [Keeps, core, revised]

/-- A new entry is not available and has the tracker's own revocation number. -/
theorem user_publishes (numbers : s.Numbered) (id : Int) : Publishes s [] (s.user id).2 := by
  have core : SameCore s (s.user id).2 := user_core s id
  refine ⟨?_, ?_, by simp, by simp, .nil, user_revocation_le s id⟩
  · rw [core]
  · rw [core]
    exact user_revocation_bound numbers id

theorem relisten_find (found : s.find id = some v) (listeners : List Nat) (j : Int) :
    ((s.relisten v listeners).find j).map User.state = (s.find j).map User.state := by
  have named : ({ v with listeners } : User).id = id := (mem_of_find found).2
  have replaced := replace_find found named j
  rw [show (s.relisten v listeners).find j = _ from replaced]
  split
  · rename_i own
    rw [own, found]
    rfl
  · rfl

theorem relisten_available (found : s.find id = some v) (listeners : List Nat) (j : Int) :
    (s.relisten v listeners).available j = s.available j := by
  have states := relisten_find found listeners j
  have any (o : Option User) : o.any (·.state.available) = (o.map User.state).any (·.available) := by
    cases o <;> rfl
  unfold available
  rw [any, any, states]

theorem relisten_publishes (numbers : s.Numbered)
    (found : s.find id = some v) (listeners : List Nat) :
    Publishes s [] (s.relisten v listeners) := by
  refine ⟨le_rfl, ?_, by simp, by simp, .nil, fun j => le_of_eq ?_⟩
  · intro x inside
    have same : v.id = ({ v with listeners } : User).id := rfl
    rcases (Lib.mem_replace (mem_of_find found).1 same).mp inside with rfl | ⟨present, -⟩
    · exact numbers v (mem_of_find found).1
    · exact numbers x present
  · have states := congrArg (Option.map Snapshot.revocation) (relisten_find found listeners j)
    simp only [Option.map_map] at states
    unfold revocation
    exact congrArg (·.getD 0) states.symm

theorem count_live {counted : Bool} (live : (s.count counted).2.exhausted = false) :
    s.exhausted = false ∧ (s.count counted).1 = counted ∧
      (s.count counted).2 =
        { s with pendingRevocations := s.pendingRevocations + (if counted then 1 else 0) } := by
  unfold count at *
  cases counted with
  | false => exact ⟨live, rfl, rfl⟩
  | true =>
    simp only [Bool.not_true, Bool.false_eq_true, if_false] at live ⊢
    split at live
    · cases live
    · rename_i room
      rw [if_neg room]
      exact ⟨live, rfl, rfl⟩

theorem count_users (s : Tracker α) (counted : Bool) : (s.count counted).2.users = s.users := by
  unfold count
  split
  · rfl
  · split <;> rfl

/-! ## Which calls break evidence -/

variable [DecidableEq α]

/-- A completion that reports, for the first time, the failure of an operation
of the current binding. Revocations were published when they began. -/
structure Fails (s : Tracker α) (token : Token) (success bulk : Bool) (op : Operation α) : Prop where
  token : ∃ n, token = .own n ∧ s.operations[n]? = some op
  failed : success = false
  bulk : Kind.bulk op.kind = bulk
  kind : op.kind ≠ .revoke
  open_ : op.completed = false
  current : s.sameBackend op = true

/-- The calls after which earlier evidence no longer counts: a new binding, the
death of the bound daemon, a revocation, a reset and a failed operation. -/
def Disturbs (s : Tracker α) : Call α → Prop
  | .connected identity => s.daemon ≠ some identity
  | .died identity => s.daemon.isSome = true ∧ s.daemon = identity
  | .beginRevocation id _ => 0 ≤ id
  | .beginReset _ => True
  | .complete token success => ∃ op, Fails s token success false op
  | .completeBulk token success _ => ∃ op, Fails s token success true op
  | _ => False

/-- Those after which the availability of one user no longer counts. -/
def DisturbsUser (s : Tracker α) (id : Int) : Call α → Prop
  | .beginRevocation revoked _ => 0 ≤ revoked ∧ revoked = id
  | .complete token success => ∃ op, Fails s token success false op ∧ op.userId = id
  | c => Disturbs s c

/-- The call publishes the user as available: a reported success of an unused
token that is eligible and still matches the tracker. -/
structure Publication (s : Tracker α) (c : Call α) (n : Nat) (op : Operation α) (id : Int) : Prop where
  token : s.operations[n]? = some op
  open_ : op.completed = false
  eligible : op.eligible = true
  revision : op.revision = s.revision
  current : s.sameBackend op = true
  named : (c = .complete (.own n) true ∧ op.kind = .available ∧ op.userId = id) ∨
    ∃ ids, c = .completeBulk (.own n) true ids ∧ id ∈ ids ∧
      (op.kind = .restore ∨ op.kind = .reset ∧ id ∈ op.resetCandidates)

/-- What the first part of an eligible operation's evidence is at its begin. -/
structure Begins (s : Tracker α) (c : Call α) (op : Operation α) : Prop where
  bound : s.daemon.isSome = true
  idle : s.pendingRevocations = 0
  named : (∃ identity, c = .beginAvailable op.userId identity ∧ op.kind = .available ∧
      identity = s.daemon) ∨
    (∃ identity, c = .beginRestore identity ∧ op.kind = .restore ∧ identity = s.daemon) ∨
    ∃ identity, c = .beginReset identity ∧ op.kind = .reset ∧ identity = s.daemon
  candidates : ∀ id ∈ op.resetCandidates, s.available id = true

/-- How a call changes the tokens and their count. -/
inductive Tokens (s : Tracker α) (c : Call α) (answer : Answer) (t : Tracker α) : Prop
  | same : t.operations = s.operations → t.pendingRevocations = s.pendingRevocations →
    Tokens s c answer t
  | begins (op : Operation α) : t.operations = s.operations ++ [op] →
    t.pendingRevocations = s.pendingRevocations + (if op.counted then 1 else 0) →
    answer.outcome = .token s.operations.length → op.completed = false → op.revision = t.revision →
    op.backend = t.backend → op.daemon = t.daemon → t.backend = s.backend → t.daemon = s.daemon →
    (op.kind = .revoke → op.counted = true) →
    (op.kind = .reset → ∃ identity, c = .beginReset identity ∧ op.counted = s.isBound identity) →
    (op.eligible = true → Begins s c op) → Tokens s c answer t
  | ends (n : Nat) (op : Operation α) : s.operations[n]? = some op → op.completed = false →
    t.operations = s.operations.set n { op with completed := true } →
    t.pendingRevocations =
      (if op.counted ∧ 0 < s.pendingRevocations then s.pendingRevocations - 1
        else s.pendingRevocations) →
    Tokens s c answer t

/-- What a call did when the tracker is not exhausted after it. -/
structure Steps (s : Tracker α) (c : Call α) (answer : Answer) (t : Tracker α) : Prop where
  live : s.exhausted = false
  publishes : Publishes s answer.events t
  bounded : t.Bounded
  disturbed : Disturbs s c → s.revision < t.revision
  quiet : ¬ Disturbs s c → t.revision = s.revision ∧ t.daemon = s.daemon ∧ t.backend = s.backend
  users : ∀ id, t.available id = true →
    (s.available id = true ∧ ¬ DisturbsUser s id c) ∨ ∃ n op, Publication s c n op id
  binding : ∀ id, ¬ DisturbsUser s id c → t.daemon = s.daemon ∧ t.backend = s.backend
  tokens : Tokens s c answer t

variable {c : Call α} {answer : Answer}

theorem Steps.revision_le (steps : Steps s c answer t) :
    s.revision ≤ t.revision := by
  by_cases disturbed : Disturbs s c
  · exact (steps.disturbed disturbed).le
  · exact (steps.quiet disturbed).1.ge

theorem DisturbsUser.disturbs (disturbs : DisturbsUser s id c) : Disturbs s c := by
  cases c with
  | beginRevocation revoked identity => exact disturbs.1
  | complete token success =>
    obtain ⟨op, fails, -⟩ := disturbs
    exact ⟨op, fails⟩
  | _ => exact disturbs

theorem Tokens.issued {m : Tracker α} {userId : Int} {kind : Kind}
    {eligible counted : Bool} {candidates : List Int}
    (same : m = { s with
      sequence := m.sequence, revision := m.revision, users := m.users
      pendingRevocations := s.pendingRevocations + (if counted then 1 else 0) })
    (revokes : kind = .revoke → counted = true)
    (resets : kind = .reset → ∃ identity, c = .beginReset identity ∧ counted = s.isBound identity)
    (begins : eligible = true → Begins s c (m.operation userId kind eligible counted candidates)) :
    Tokens s c ⟨.token (m.issue (m.operation userId kind eligible counted candidates)).1, events⟩
      (m.issue (m.operation userId kind eligible counted candidates)).2 := by
  have operations : m.operations = s.operations := by rw [same]
  refine .begins (m.operation userId kind eligible counted candidates) ?_ ?_ ?_ rfl rfl rfl rfl
    (by rw [issue, same]) (by rw [issue, same]) revokes resets begins
  · rw [issue, operations]
  · rw [issue, same]
    rfl
  · rw [issue, operations]

theorem Keeps.tokens (keeps : Keeps s t) : Tokens s c answer t :=
  .same (by rw [keeps]) (by rw [keeps])

/-- Only the users' entries and the tokens differ. -/
def SameCounters (s t : Tracker α) : Prop :=
  t = { s with
    users := t.users, operations := t.operations, pendingRevocations := t.pendingRevocations }

omit [DecidableEq α] in
theorem SameCore.counters (core : SameCore s t) (same : SameCounters t u) : SameCounters s u := by
  rw [SameCounters, same, core]

omit [DecidableEq α] in
theorem SameCore.keeps (core : SameCore s t) : Keeps s t := by rw [Keeps, core]

/-- A call that changes nothing but users' listeners, new entries and tokens. -/
theorem Steps.idle (live : s.exhausted = false) (bounded : s.Bounded)
    (publishes : Publishes s answer.events t) (harmless : ¬ Disturbs s c) (same : SameCounters s t)
    (users : ∀ id, t.available id = s.available id)
    (tokens : Tokens s c answer t) : Steps s c answer t where
  live := live
  publishes := publishes
  bounded := by
    rw [same]
    exact ⟨bounded.revision, bounded.backend, bounded.sequence⟩
  disturbed disturbs := absurd disturbs harmless
  quiet _ := by
    rw [same]
    exact ⟨rfl, rfl, rfl⟩
  users id now := .inl ⟨users id ▸ now, fun disturbs => harmless disturbs.disturbs⟩
  binding _ _ := by
    rw [same]
    exact ⟨rfl, rfl⟩
  tokens := tokens

theorem Steps.nothing (live : s.exhausted = false) (numbers : s.Numbered) (bounded : s.Bounded)
    (harmless : ¬ Disturbs s c) (silent : answer.events = []) (same : t = s) : Steps s c answer t := by
  subst same
  exact .idle live bounded (silent ▸ .refl numbers) harmless rfl (fun _ => rfl) (.same rfl rfl)

/-- A call whose lock section ends in `m` with `events` and then finishes. -/
theorem Steps.finish {m : Tracker α} {outcome : Outcome}
    (kept : m.Distinct) (live : (finishEvents events m).2.exhausted = false)
    (steps : m.exhausted = false → Steps s c ⟨outcome, events⟩ m) :
    Steps s c ⟨outcome, (finishEvents events m).1⟩ (finishEvents events m).2 := by
  obtain ⟨alive, finished⟩ := finishEvents_live kept live
  rw [finished]
  exact steps alive

/-! ## The calls, one by one -/

section Steps
variable (distinct : s.Distinct) (numbers : s.Numbered) (bounded : s.Bounded)
include numbers bounded

theorem register_steps (live : s.exhausted = false) (id : Int) (listener : Nat) :
    Steps s (.register id listener) (s.register id listener).1 (s.register id listener).2 := by
  have core : SameCore s (s.user id).2 := user_core s id
  have entered := user_publishes numbers id
  unfold register
  split
  · exact .nothing live numbers bounded (fun h => h) rfl rfl
  dsimp only
  split
  · exact .idle live bounded entered (fun h => h) (core.counters rfl) (user_available s id)
      core.keeps.tokens
  have added := relisten_publishes entered.bounded (user_find s id)
    ((s.user id).1.listeners ++ [listener])
  refine .idle live bounded (entered.trans added) (fun h => h) (core.counters rfl) (fun j => ?_) ?_
  · exact (relisten_available (user_find s id) _ j).trans (user_available s id j)
  · refine .same ?_ ?_
    · rw [relisten, core]
    · rw [relisten, core]

theorem unregister_steps (live : s.exhausted = false) (id : Int) (listener : Nat) :
    Steps s (.unregister id listener) (s.unregister id listener).1 (s.unregister id listener).2 := by
  unfold unregister
  split
  · exact .nothing live numbers bounded (fun h => h) rfl rfl
  · rename_i found
    exact .idle live bounded (relisten_publishes numbers found _) (fun h => h) rfl
      (relisten_available found _) (.same rfl rfl)

theorem beginAvailable_steps (live : s.exhausted = false) (id : Int) (identity : Option α) :
    Steps s (.beginAvailable id identity) (s.beginAvailable id identity).1
      (s.beginAvailable id identity).2 := by
  have core : SameCore s (s.user id).2 := user_core s id
  unfold beginAvailable
  split
  · exact .nothing live numbers bounded (fun h => h) rfl rfl
  refine .idle live bounded ((user_publishes numbers id).core rfl rfl rfl) (fun h => h)
    (core.counters rfl) (fun j => (available_congr rfl).trans (user_available s id j))
    (Tokens.issued ?_ (by simp) (by simp) fun eligible => ?_)
  · rw [core]
    rfl
  rw [core] at eligible
  simp only [isBound, Bool.and_eq_true, decide_eq_true_eq] at eligible
  exact ⟨eligible.1.1.2, eligible.2, .inl ⟨identity, rfl, rfl, eligible.1.2.symm⟩, by
    simp [operation]⟩

theorem beginRestore_steps (live : s.exhausted = false) (identity : Option α) :
    Steps s (.beginRestore identity) (s.beginRestore identity).1 (s.beginRestore identity).2 := by
  unfold beginRestore
  refine .idle live bounded ((Publishes.refl numbers).core rfl rfl rfl) (fun h => h) rfl
    (fun _ => rfl) (Tokens.issued rfl (by simp) (by simp) fun eligible => ?_)
  simp only [isBound, Bool.and_eq_true, decide_eq_true_eq] at eligible
  exact ⟨eligible.1.1.2, eligible.2, .inr (.inl ⟨identity, rfl, rfl, eligible.1.2.symm⟩), by
    simp [operation]⟩

include distinct

/-- The calls that number a revocation, make every user unavailable, change the
tracker to `m` and finish. They start from `b`, the tracker with its tokens
changed. -/
theorem Steps.invalidates {b m : Tracker α} {outcome : Outcome}
    (tokened : SameBesidesTokens s b) (disturbs : ∀ id, DisturbsUser s id c)
    (users : m.users = b.invalidateAll.2.users)
    (made : m.exhausted = false → b.invalidateAll.2.exhausted = false ∧
      m.sequence = b.invalidateAll.2.sequence ∧ m.revision = b.invalidateAll.2.revision ∧
      m.backend ≤ b.invalidateAll.2.backend + 1)
    (tokens : m.exhausted = false → Keeps b b.invalidateAll.2 → Tokens s c ⟨outcome, b.invalidateAll.1⟩ m)
    (live : (finishEvents b.invalidateAll.1 m).2.exhausted = false) :
    Steps s c ⟨outcome, (finishEvents b.invalidateAll.1 m).1⟩ (finishEvents b.invalidateAll.1 m).2 := by
  have own : b.users = s.users := by rw [tokened]
  have distinct' := distinct.of_users own
  have numbers' : b.Numbered := by
    rw [Numbered, tokened]
    exact numbers
  refine Steps.finish ((invalidateAll_distinct distinct').of_users users) live fun alive => ?_
  obtain ⟨dead, sequence, revision, backend⟩ := made alive
  obtain ⟨advances, later, dark⟩ := invalidateAll_advances distinct' numbers' dead
  have starts : b.sequence = s.sequence ∧ b.revision = s.revision ∧ b.backend = s.backend ∧
      b.exhausted = s.exhausted := by
    rw [tokened]
    exact ⟨rfl, rfl, rfl, rfl⟩
  have bounded' : b.Bounded := by
    rw [tokened]
    exact ⟨bounded.revision, bounded.backend, bounded.sequence⟩
  refine ⟨starts.2.2.2 ▸ advances.live,
    (advances.publishes.source own starts.1).core users sequence revision,
    bounded'.advances advances.room (sequence.trans advances.sequence) (revision ▸ advances.revision)
      (advances.keeps.binding.2 ▸ backend), fun _ => by omega,
    fun harmless => absurd (disturbs 0).disturbs harmless, fun id now => ?_,
    fun id harmless => absurd (disturbs id) harmless, tokens alive advances.keeps⟩
  rw [available_congr users, dark] at now
  cases now

theorem connected_steps (identity : α) (live : (s.connected identity).2.exhausted = false) :
    Steps s (.connected identity) (s.connected identity).1 (s.connected identity).2 := by
  revert live
  unfold connected
  split
  · rename_i bound
    exact fun live => .nothing live numbers bounded (fun disturbs => disturbs bound) rfl rfl
  rename_i other
  refine Steps.invalidates distinct numbers bounded rfl (fun _ => other) ?_ ?_ ?_
  · split <;> rfl
  · cases dead : s.invalidateAll.2.exhausted <;> simp [dead]
  · intro _ keeps
    refine .same ?_ ?_
    all_goals split <;> rw [keeps]

theorem died_steps (identity : Option α) (live : (s.died identity).2.exhausted = false) :
    Steps s (.died identity) (s.died identity).1 (s.died identity).2 := by
  revert live
  unfold died
  split
  · rename_i other
    refine fun live => .nothing live numbers bounded (fun ⟨bound, same⟩ => ?_) rfl rfl
    rcases other with unbound | other
    · simp [unbound] at bound
    · exact other same
  rename_i own
  simp only [not_or, ne_eq, not_not] at own
  refine Steps.invalidates distinct numbers bounded rfl (fun _ => ⟨?_, own.2⟩) ?_ ?_ ?_
  · exact Option.isSome_iff_ne_none.mpr own.1
  · split <;> rfl
  · cases dead : s.invalidateAll.2.exhausted <;> simp [dead]
  intro _ keeps
  refine .same ?_ ?_
  all_goals
    dsimp only
    split <;> rw [keeps]

theorem beginReset_steps (identity : Option α) (live : (s.beginReset identity).2.exhausted = false) :
    Steps s (.beginReset identity) (s.beginReset identity).1 (s.beginReset identity).2 := by
  unfold beginReset at *
  refine Steps.invalidates distinct numbers bounded rfl (fun _ => trivial) (count_users _ _) (fun alive => ?_)
    (fun alive keeps => ?_) live
  · obtain ⟨dead, -, same⟩ := count_live alive
    dsimp only [issue]
    rw [same]
    exact ⟨dead, rfl, rfl, Nat.le_succ _⟩
  obtain ⟨-, counts, counted⟩ := count_live alive
  refine Tokens.issued ?_ (by simp) (fun _ => ⟨identity, rfl, ?_⟩) fun eligible => ?_
  · rw [counts, counted, keeps]
  · rw [counts, keeps]
    rfl
  simp only [Bool.and_eq_true, decide_eq_true_eq] at eligible
  rw [keeps] at eligible
  simp only [isBound, Bool.and_eq_true, decide_eq_true_eq] at eligible
  refine ⟨eligible.1.1.2, eligible.2, .inr (.inr ⟨identity, rfl, rfl, eligible.1.2.symm⟩), ?_⟩
  intro id among
  obtain ⟨v, inside, rfl⟩ := mem_map.mp among
  obtain ⟨present, shown⟩ := mem_filter.mp inside
  rw [available, find_of_mem distinct present]
  exact shown

theorem beginRevocation_steps (id : Int) (identity : Option α)
    (live : (s.beginRevocation id identity).2.exhausted = false) :
    Steps s (.beginRevocation id identity) (s.beginRevocation id identity).1
      (s.beginRevocation id identity).2 := by
  revert live
  unfold beginRevocation
  split
  · rename_i negative
    refine fun live => .nothing live numbers bounded (fun valid => ?_) rfl rfl
    exact absurd negative (not_lt.mpr valid)
  rename_i valid
  have core : SameCore s (s.user id).2 := user_core s id
  have entered := user_publishes numbers id
  have revised := (user_distinct distinct id).of_users (revise_users (s.user id).2)
  refine fun live => Steps.finish
    ((publish_distinct revised id false true).of_users (count_users _ _)) live fun alive => ?_
  obtain ⟨alive', counts, counted⟩ := count_live alive
  obtain ⟨advances, later, users⟩ := revise_advances entered.bounded alive'
  have bounded' : (s.user id).2.Bounded := by
    rw [core]
    exact ⟨bounded.revision, bounded.backend, bounded.sequence⟩
  have numbered := advances.bounded bounded'
  have later' : s.revision < ((s.user id).2.revise.publish id false true).2.revision :=
    (congrArg Tracker.revision core).symm.trans_lt later
  dsimp only [issue]
  refine ⟨core.exhausted ▸ advances.live, (entered.trans advances.publishes).core (count_users _ _) ?_ ?_,
    ?_, fun _ => ?_, fun harmless => absurd (not_lt.mp valid) harmless, fun j now => ?_, fun _ _ => ?_,
    Tokens.issued ?_ (fun _ => ?_) (by simp) (by simp)⟩
  · rw [counted]
  · rw [counted]
  · rw [counted]
    exact ⟨numbered.revision, numbered.backend, numbered.sequence⟩
  · rw [counted]
    exact later'
  · obtain ⟨other, seen⟩ := users j ((available_congr (count_users _ _)).symm.trans now)
    rw [user_available] at seen
    exact .inl ⟨seen, fun disturbs => other disturbs.2.symm⟩
  · rw [counted, advances.keeps, core]
    exact ⟨rfl, rfl⟩
  · rw [counts, counted, advances.keeps, core]
  · rw [counts, alive']
    rfl

end Steps

/-! ## Completions -/

section Loop
omit [DecidableEq α]
variable (op : Operation α)

theorem publishAll_dead (ids : List Int) (dead : s.exhausted = true) :
    (publishAll op ids s).2.2.exhausted = true := by
  induction ids generalizing s with
  | nil => exact dead
  | cons id ids ih =>
    unfold publishAll
    split
    · exact ih dead
    rw [advance_dead dead]
    dsimp only
    split
    · exact dead
    · exact ih ((publish_core s id true false).exhausted.trans dead)

theorem publishAll_distinct (ids : List Int) (distinct : s.Distinct) :
    (publishAll op ids s).2.2.Distinct := by
  induction ids generalizing s with
  | nil => exact distinct
  | cons id ids ih =>
    have kept := distinct.of_users (advance_users s)
    unfold publishAll
    split
    · exact ih distinct
    dsimp only
    split
    · exact kept
    · exact ih (publish_distinct kept id true false)

/-- What the loop over the unlocked users leaves when it does not exhaust the
tracker, thrown or not. -/
structure Looped (ids : List Int) (s : Tracker α) (events : List Delivery) (t : Tracker α) : Prop where
  live : s.exhausted = false
  publishes : Publishes s events t
  bounded : t.Bounded
  core : t = { s with sequence := t.sequence, users := t.users }
  users : ∀ id, t.available id = true → s.available id = true ∨
    id ∈ ids ∧ (op.kind = .reset → id ∈ op.resetCandidates)

theorem publishAll_looped (ids : List Int) (numbers : s.Numbered)
    (bounded : s.Bounded) (live : (publishAll op ids s).2.2.exhausted = false) :
    Looped op ids s (publishAll op ids s).2.1 (publishAll op ids s).2.2 := by
  induction ids generalizing s with
  | nil => exact ⟨live, .refl numbers, bounded, rfl, fun _ now => .inl now⟩
  | cons id ids ih =>
    revert live
    unfold publishAll
    split
    · intro live
      have rest := ih numbers bounded live
      exact ⟨rest.live, rest.publishes, rest.bounded, rest.core, fun j now =>
        (rest.users j now).imp_right fun new => ⟨mem_cons_of_mem _ new.1, new.2⟩⟩
    rename_i taken
    dsimp only
    split
    · intro live
      obtain ⟨was, room, same⟩ := advance_live live
      have users := advance_users s
      refine ⟨was, .none numbers users ?_ ?_, bounded.advances room ?_ ?_ ?_, ?_,
        fun j now => .inl ((available_congr users).symm.trans now)⟩
      all_goals rw [same]
      · exact Nat.le_succ _
      · exact Nat.le_succ _
      · exact Nat.le_succ _
    · intro live
      have alive : (s.advance.2.publish id true false).2.exhausted = false := by
        cases dead : (s.advance.2.publish id true false).2.exhausted with
        | false => rfl
        | true => exact (publishAll_dead op ids dead).symm.trans live
      obtain ⟨advances, revision, users⟩ := advance_advances numbers alive
      have rest := ih advances.publishes.bounded (advances.bounded bounded) live
      refine ⟨advances.live, advances.publishes.trans rest.publishes, rest.bounded, ?_, fun j now => ?_⟩
      · refine rest.core.trans ?_
        rw [advances.keeps, revision]
      rcases rest.users j now with seen | new
      · rcases users j seen with rfl | seen
        · exact .inr ⟨mem_cons_self, fun reset => by simpa [reset] using taken⟩
        · exact .inl seen
      · exact .inr ⟨mem_cons_of_mem _ new.1, new.2⟩

end Loop

/-- The call that completes the `n`th operation. -/
def Names (c : Call α) (n : Nat) (op : Operation α) (success : Bool) (ids : List Int) : Prop :=
  (c = .complete (.own n) success ∧ Kind.bulk op.kind = false) ∨
    (c = .completeBulk (.own n) success ids ∧ Kind.bulk op.kind = true)

section Settle
variable {c : Call α} {n : Nat} {op : Operation α} {success : Bool} {ids : List Int}

theorem Names.disturbs_iff (names : Names c n op success ids) (token : s.operations[n]? = some op)
    (open_ : op.completed = false) :
    Disturbs s c ↔ success = false ∧ op.kind ≠ .revoke ∧ s.sameBackend op = true := by
  rcases names with ⟨rfl, bulk⟩ | ⟨rfl, bulk⟩
  all_goals
    constructor
    · rintro ⟨other, ⟨m, same, found⟩, failed, -, kind, -, current⟩
      cases same
      rw [token, Option.some_inj] at found
      exact ⟨failed, found ▸ kind, found ▸ current⟩
    · rintro ⟨failed, kind, current⟩
      exact ⟨op, ⟨n, rfl, token⟩, failed, bulk, kind, open_, current⟩

/-- A failed operation of a single user says nothing about others. -/
theorem Names.disturbsUser (names : Names c n op success ids) (token : s.operations[n]? = some op)
    (single : op.kind = .available) (disturbs : DisturbsUser s id c) : op.userId = id := by
  rcases names with ⟨rfl, bulk⟩ | ⟨rfl, bulk⟩
  · obtain ⟨other, ⟨⟨m, same, found⟩, -⟩, owner⟩ := disturbs
    cases same
    rw [token, Option.some_inj] at found
    exact found ▸ owner
  · simp [single, Kind.bulk] at bulk

omit [DecidableEq α] in
theorem Names.bulk (names : Names c n op success ids) (kind : op.kind ≠ .revoke)
    (bulk : op.kind ≠ .available) :
    c = .completeBulk (.own n) success ids ∧ (op.kind = .restore ∨ op.kind = .reset) := by
  rcases names with ⟨-, single⟩ | ⟨call, -⟩
  · cases shape : op.kind <;> simp_all [Kind.bulk]
  · refine ⟨call, ?_⟩
    cases shape : op.kind <;> simp_all

/-- An unused token is used up, with whatever its report makes of the users. -/
theorem settle_steps (distinct : s.Distinct) (numbers : s.Numbered)
    (bounded : s.Bounded) (names : Names c n op success ids) (token : s.operations[n]? = some op)
    (open_ : op.completed = false) (live : (s.settle n op success ids).2.exhausted = false) :
    Steps s c (s.settle n op success ids).1 (s.settle n op success ids).2 := by
  have used {m : Tracker α} {answer : Answer} (keeps : Keeps (s.consume n op) m) : Tokens s c answer m :=
    .ends n op token open_ (by rw [keeps]; rfl) (by rw [keeps]; rfl)
  have disturbs := names.disturbs_iff token open_
  have unchanged {outcome : Outcome} (alive : s.exhausted = false) (harmless : ¬ Disturbs s c) :
      Steps s c ⟨outcome, []⟩ (s.consume n op) :=
    .idle alive bounded ((Publishes.refl numbers).core rfl rfl rfl) harmless rfl (fun _ => rfl) (used rfl)
  have numbers' : (s.consume n op).Numbered := numbers
  have bounded' : (s.consume n op).Bounded := ⟨bounded.revision, bounded.backend, bounded.sequence⟩
  have distinct' : (s.consume n op).Distinct := distinct
  revert live
  unfold settle
  dsimp only
  split
  · rename_i revokes
    exact fun live => unchanged live fun breaks => (disturbs.mp breaks).2.1 revokes
  rename_i kind
  split
  · rename_i stale
    refine fun live => unchanged live fun breaks => ?_
    rw [(disturbs.mp breaks).2.2, show (s.consume n op).exhausted = false from live] at stale
    simp at stale
  rename_i current
  simp only [Bool.or_eq_true, Bool.not_eq_true', not_or, Bool.not_eq_false, Bool.not_eq_true] at current
  obtain ⟨same, alive⟩ := current
  split
  · rename_i failed
    have breaks : Disturbs s c := disturbs.mpr ⟨by simpa using failed, kind, same⟩
    split
    · rename_i single
      have revised := distinct'.of_users (revise_users (s.consume n op))
      refine fun live => Steps.finish (publish_distinct revised _ false true) live fun alive' => ?_
      obtain ⟨advances, later, users⟩ := revise_advances numbers' alive'
      refine ⟨alive, advances.publishes.source rfl rfl, advances.bounded bounded', fun _ => later,
        fun harmless => absurd breaks harmless, fun j now => ?_, fun _ _ => advances.keeps.binding,
        used advances.keeps⟩
      obtain ⟨other, seen⟩ := users j now
      exact .inl ⟨seen, fun breaks => other (names.disturbsUser token single breaks).symm⟩
    · rename_i bulk
      obtain ⟨rfl, -⟩ := names.bulk kind bulk
      exact Steps.invalidates distinct numbers bounded rfl (fun _ => breaks) rfl
        (fun alive' => ⟨alive', rfl, rfl, Nat.le_succ _⟩) (fun _ keeps => used keeps)
  rename_i succeeded
  simp only [Bool.not_eq_true', Bool.not_eq_false] at succeeded
  have harmless : ¬ Disturbs s c := fun breaks => by
    rw [(disturbs.mp breaks).1] at succeeded
    cases succeeded
  have quiet (j : Int) : ¬ DisturbsUser s j c := fun breaks => harmless breaks.disturbs
  split
  · rename_i fits
    obtain ⟨eligible, revision, -⟩ := fits
    split
    · rename_i single
      have advanced := distinct'.of_users (advance_users (s.consume n op))
      refine fun live => Steps.finish (publish_distinct advanced _ true false) live fun alive' => ?_
      obtain ⟨advances, unrevised, users⟩ := advance_advances numbers' alive'
      refine ⟨alive, advances.publishes.source rfl rfl, advances.bounded bounded',
        fun breaks => absurd breaks harmless, fun _ => ⟨unrevised, advances.keeps.binding⟩,
        fun j now => ?_, fun _ _ => advances.keeps.binding, used advances.keeps⟩
      rcases users j now with own | seen
      · refine .inr ⟨n, op, token, open_, eligible, revision, same, ?_⟩
        rcases names with ⟨call, -⟩ | ⟨-, bulk⟩
        · exact .inl ⟨succeeded ▸ call, single, own.symm⟩
        · simp [single, Kind.bulk] at bulk
      · exact .inl ⟨seen, quiet j⟩
    · rename_i bulk
      obtain ⟨rfl, shape⟩ := names.bulk kind bulk
      have kept := publishAll_distinct op ids distinct'
      have looped (alive' : (publishAll op ids (s.consume n op)).2.2.exhausted = false)
          (outcome : Outcome) : Steps s (.completeBulk (.own n) success ids)
            ⟨outcome, (publishAll op ids (s.consume n op)).2.1⟩
            (publishAll op ids (s.consume n op)).2.2 := by
        obtain ⟨-, publishes, bounded, core, users⟩ := publishAll_looped op ids numbers' bounded' alive'
        have keeps : Keeps (s.consume n op) (publishAll op ids (s.consume n op)).2.2 := by
          rw [Keeps, core]
        refine ⟨alive, publishes.source rfl rfl, bounded, fun breaks => absurd breaks harmless,
          fun _ => ⟨by rw [core]; rfl, keeps.binding⟩, fun j now => ?_, fun _ _ => keeps.binding,
          used keeps⟩
        rcases users j now with seen | ⟨among, candidate⟩
        · exact .inl ⟨seen, quiet j⟩
        · refine .inr ⟨n, op, token, open_, eligible, revision, same, .inr ⟨ids, by rw [succeeded], among, ?_⟩⟩
          exact shape.imp_right fun reset => ⟨reset, candidate reset⟩
      split
      · rename_i events t looped'
        rw [looped'] at looped
        exact fun live => looped live .thrown
      · rename_i events t looped'
        rw [looped'] at looped kept
        exact fun live => Steps.finish kept live fun alive' => looped alive' .returned
  · exact fun live => Steps.finish distinct' live fun _ => unchanged alive harmless

end Settle

/-- Both completions: a token that is used up, foreign or of the other shape changes
nothing, and any other settles. -/
theorem completes_steps {token : Token} {bulk success : Bool} {a : Answer × Tracker α} (ids : List Int)
    (distinct : s.Distinct) (numbers : s.Numbered) (bounded : s.Bounded) (alive : s.exhausted = false)
    (disturbs : Disturbs s c → ∃ op, Fails s token success bulk op)
    (names : ∀ n op, token = .own n → Kind.bulk op.kind = bulk → Names c n op success ids)
    (settles : ∀ n, token = .own n → (∀ op, s.operations[n]? = some op → Kind.bulk op.kind = bulk) →
      a = s.completeInternal n success ids)
    (idles : (∀ n op, token = .own n → s.operations[n]? = some op → Kind.bulk op.kind ≠ bulk) →
      a.1.events = [] ∧ a.2 = s) (live : a.2.exhausted = false) : Steps s c a.1 a.2 := by
  have harmless (settled : ∀ n op, token = .own n → s.operations[n]? = some op →
      op.completed = true ∨ Kind.bulk op.kind ≠ bulk) : ¬ Disturbs s c := fun breaks => by
    obtain ⟨op, ⟨n, own, found⟩, -, shape, -, open_, -⟩ := disturbs breaks
    rcases settled n op own found with used | other
    · rw [open_] at used
      cases used
    · exact other shape
  by_cases fits : ∃ n op, token = .own n ∧ s.operations[n]? = some op ∧ Kind.bulk op.kind = bulk
  · obtain ⟨n, op, rfl, found, shape⟩ := fits
    have single {other : Operation α} (there : s.operations[n]? = some other) : other = op := by
      rw [found, Option.some_inj] at there
      exact there.symm
    rw [settles n rfl fun other there => single there ▸ shape] at live ⊢
    simp only [completeInternal, found] at live ⊢
    split
    · rename_i used
      refine .nothing alive numbers bounded (harmless fun m other own there => .inl ?_) rfl rfl
      cases own
      exact single there ▸ used
    · rename_i unused
      rw [if_neg unused] at live
      exact settle_steps distinct numbers bounded (names n op rfl shape) found (by simpa using unused) live
  · have other (n : Nat) (op : Operation α) (own : token = .own n) (found : s.operations[n]? = some op) :
        Kind.bulk op.kind ≠ bulk := fun shape => fits ⟨n, op, own, found, shape⟩
    obtain ⟨silent, same⟩ := idles other
    exact .nothing alive numbers bounded (harmless fun n op own found => .inr (other n op own found))
      silent same

/-- What a call did, for any tracker that is not exhausted after it. -/
theorem call_steps (distinct : s.Distinct) (numbers : s.Numbered) (bounded : s.Bounded)
    (c : Call α) (alive : s.exhausted = false) (live : (s.call c).2.exhausted = false) :
    Steps s c (s.call c).1 (s.call c).2 := by
  cases c with
  | register id listener => exact register_steps numbers bounded alive id listener
  | unregister id listener => exact unregister_steps numbers bounded alive id listener
  | connected identity => exact connected_steps distinct numbers bounded identity live
  | died identity => exact died_steps distinct numbers bounded identity live
  | beginRevocation id identity => exact beginRevocation_steps distinct numbers bounded id identity live
  | beginAvailable id identity => exact beginAvailable_steps numbers bounded alive id identity
  | beginRestore identity => exact beginRestore_steps numbers bounded alive identity
  | beginReset identity => exact beginReset_steps distinct numbers bounded identity live
  | complete token success =>
    refine completes_steps [] distinct numbers bounded alive id (fun n op own shape => .inl ⟨?_, shape⟩) ?_
      ?_ live
    · rw [own]
    · rintro n rfl single
      simp only [call, complete]
      rw [if_neg (by cases found : s.operations[n]? <;> simp_all [Token.kind])]
    intro bulk
    simp only [call, complete]
    split
    · exact ⟨rfl, rfl⟩
    · cases token with
      | null | foreign => exact ⟨rfl, rfl⟩
      | own n => cases found : s.operations[n]? <;> simp_all [Token.kind, completeInternal]
  | completeBulk token success ids =>
    refine completes_steps ids distinct numbers bounded alive id (fun n op own shape => .inr ⟨?_, shape⟩) ?_
      ?_ live
    · rw [own]
    · rintro n rfl bulk
      simp only [call, completeBulk]
      rw [if_neg (by cases found : s.operations[n]? <;> simp_all [Token.kind])]
    intro single
    simp only [call, completeBulk]
    split
    · exact ⟨rfl, rfl⟩
    · cases token with
      | null | foreign => exact ⟨rfl, rfl⟩
      | own n => cases found : s.operations[n]? <;> simp_all [Token.kind, completeInternal]

end Tracker
end Andrix.Platform
