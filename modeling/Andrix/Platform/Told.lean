import Andrix.Platform.CeStorageLaws

/-! What a listener of one user is told. The snapshots published since it was
registered are ordered by their sequences, a revocation among them has a larger
revocation number than all before it, and the last one is what the tracker
shows. This holds of every call, exhausting ones included: the snapshots of an
exhausted tracker are final. -/
namespace Andrix.Platform
open List
namespace Tracker
variable {α : Type} {s t m : Tracker α} {id : Int} {told : List Snapshot} {events : List Delivery}

/-- The snapshot of an exhausted tracker. -/
def Final (v : Snapshot) : Prop :=
  v.sequence = longMax ∧ v.revocation = longMax ∧ v.available = false

def Over (earlier later : Snapshot) : Prop :=
  earlier.revocation ≤ later.revocation ∧
    (Final later ∨ earlier.sequence < later.sequence ∧
      (later.available = false → earlier.revocation < later.revocation))

/-- A snapshot that the tracker can have published so far. -/
structure Past (s : Tracker α) (v : Snapshot) : Prop where
  positive : 0 < v.sequence ∧ 0 < v.revocation
  sequence : v.sequence ≤ s.sequence
  revocation : v.revocation ≤ s.revision
  usable : v.available = true → v.sequence < longMax ∧ v.revocation < longMax

/-- The counters, exhausted or not. -/
structure Numbers (s : Tracker α) : Prop where
  positive : 0 < s.sequence ∧ 0 < s.revision
  live : s.exhausted = false → s.sequence < longMax ∧ s.revision < longMax
  dead : s.exhausted = true → s.sequence = longMax ∧ s.revision = longMax

theorem Numbers.limit (numbers : s.Numbers) : s.sequence ≤ longMax := by
  cases dead : s.exhausted with
  | true => exact (numbers.dead dead).1.le
  | false => exact (numbers.live dead).1.le

def mine (id : Int) (events : List Delivery) : List Snapshot :=
  (events.map Delivery.state).filter (·.userId = id)

@[simp] theorem mine_nil : mine id [] = [] := rfl

theorem mine_append (first second : List Delivery) :
    mine id (first ++ second) = mine id first ++ mine id second := by
  simp [mine]

/-- The tracker after it published these snapshots of a user. -/
structure Told (id : Int) (told : List Snapshot) (s : Tracker α) : Prop where
  distinct : s.Distinct
  numbers : s.Numbers
  entries : ∀ v ∈ s.users, s.Past v.state
  ordered : told.Pairwise Over
  past : ∀ v ∈ told, s.Past v
  latest : told ≠ [] → (s.find id).map User.state = told.getLast?

theorem Past.later {v : Snapshot} (past : s.Past v) (sequence : s.sequence ≤ t.sequence)
    (revision : s.revision ≤ t.revision) : t.Past v :=
  ⟨past.positive, past.sequence.trans sequence, past.revocation.trans revision, past.usable⟩

/-- Only counters, tokens and the binding change. -/
theorem Told.counted (told_ : Told id told s) (users : t.users = s.users) (numbers : t.Numbers)
    (sequence : s.sequence ≤ t.sequence) (revision : s.revision ≤ t.revision) : Told id told t where
  distinct := by
    unfold Distinct
    rw [users]
    exact told_.distinct
  numbers := numbers
  entries v inside := (told_.entries v (users ▸ inside)).later sequence revision
  ordered := told_.ordered
  past v inside := (told_.past v inside).later sequence revision
  latest some := by
    rw [find_congr users]
    exact told_.latest some

theorem Told.besides (told_ : Told id told s) (users : t.users = s.users)
    (exhausted : t.exhausted = s.exhausted) (sequence : t.sequence = s.sequence)
    (revision : t.revision = s.revision) : Told id told t := by
  refine told_.counted users ⟨?_, ?_, ?_⟩ sequence.ge revision.ge
  · rw [sequence, revision]
    exact told_.numbers.positive
  · rw [exhausted, sequence, revision]
    exact told_.numbers.live
  · rw [exhausted, sequence, revision]
    exact told_.numbers.dead

theorem Told.forget (told_ : Told id told s) : Told id [] s :=
  ⟨told_.distinct, told_.numbers, told_.entries, .nil, by simp, fun some => absurd rfl some⟩

theorem Told.users_below (told_ : Told id told s) (v : Snapshot) (inside : v ∈ told) (w : User)
    (found : s.find id = some w) : v.revocation ≤ w.state.revocation := by
  have last := told_.latest (ne_nil_of_mem inside)
  rw [found, Option.map_some] at last
  obtain ⟨front, rfl⟩ := List.getLast?_eq_some_iff.mp last.symm
  rcases mem_append.mp inside with earlier | same
  · exact ((pairwise_append.mp told_.ordered).2.2 v earlier w.state (by simp)).1
  · rw [mem_singleton.mp same]

/-! ## The parts of a call -/

/-- A new entry has the tracker's own numbers. -/
theorem Told.user (told_ : Told id told s) (j : Int) : Told id told (s.user j).2 := by
  unfold Tracker.user
  split
  · exact told_
  rename_i missing
  have kept := user_distinct told_.distinct j
  unfold Tracker.user at kept
  rw [missing] at kept
  refine ⟨kept, ⟨told_.numbers.positive, told_.numbers.live, told_.numbers.dead⟩, ?_,
    told_.ordered, fun v inside => (told_.past v inside).later le_rfl le_rfl, fun some => ?_⟩
  · refine Lib.forall_mem_snoc (fun v inside => (told_.entries v inside).later le_rfl le_rfl) ?_
    exact ⟨told_.numbers.positive, le_rfl, le_rfl, fun now => Bool.noConfusion now⟩
  have latest := told_.latest some
  by_cases own : id = j
  · rw [own, missing] at latest
    have last : told.getLast? = none := latest.symm
    exact absurd (List.getLast?_eq_none_iff.mp last) some
  have other := user_find_other (s := s) own
  unfold Tracker.user at other
  rw [missing] at other
  exact (congrArg (Option.map User.state) other).trans latest

theorem Told.relisten (told_ : Told id told s) {j : Int} {v : User} (found : s.find j = some v)
    (listeners : List Nat) : Told id told (s.relisten v listeners) := by
  refine ⟨replace_distinct told_.distinct _, ⟨told_.numbers.positive, told_.numbers.live, told_.numbers.dead⟩,
    fun w inside => ?_, told_.ordered, fun w inside => (told_.past w inside).later le_rfl le_rfl,
    fun some => (relisten_find found listeners id).trans (told_.latest some)⟩
  have same : v.id = ({ v with listeners } : User).id := rfl
  rcases (Lib.mem_replace (mem_of_find found).1 same).mp inside with rfl | ⟨inside, -⟩
  · exact (told_.entries v (mem_of_find found).1).later le_rfl le_rfl
  · exact (told_.entries w inside).later le_rfl le_rfl

/-- A tracker whose next snapshot is later than all before it, and, when it
revokes, has a larger revocation number. -/
structure Fresh (told : List Snapshot) (revoke : Bool) (s : Tracker α) : Prop where
  sequence : s.exhausted = false → ∀ v ∈ told, v.sequence < s.sequence
  revision : s.exhausted = false → revoke = true → ∀ v ∈ told, v.revocation < s.revision

theorem Told.advance (told_ : Told id told s) : Told id told s.advance.2 ∧ Fresh told false s.advance.2 := by
  have numbers := told_.numbers
  unfold Tracker.advance
  split
  · rename_i dead
    exact ⟨told_, fun alive => absurd (dead.symm.trans alive) Bool.noConfusion, fun _ => Bool.noConfusion⟩
  rename_i alive
  have live := numbers.live (by simpa using alive)
  split
  · refine ⟨told_.counted rfl ⟨?_, Bool.noConfusion, fun _ => ⟨rfl, rfl⟩⟩ live.1.le live.2.le,
      Bool.noConfusion, fun _ => Bool.noConfusion⟩
    exact ⟨Nat.zero_lt_succ _, Nat.zero_lt_succ _⟩
  rename_i room
  refine ⟨told_.counted rfl ⟨⟨Nat.zero_lt_succ _, numbers.positive.2⟩, fun _ => ⟨?_, live.2⟩, ?_⟩
    (Nat.le_succ _) le_rfl, fun _ v inside => Nat.lt_succ_of_le (told_.past v inside).sequence,
    fun _ => Bool.noConfusion⟩
  · dsimp only
    omega
  · exact fun dead => absurd dead alive

theorem Told.revise (told_ : Told id told s) : Told id told s.revise ∧ Fresh told true s.revise := by
  obtain ⟨advanced, fresh⟩ := told_.advance
  unfold Tracker.revise
  split
  · rename_i moved
    have live : s.advance.2.exhausted = false ∧ s.revision < longMax - 1 ∧
        s.advance.2.revision = s.revision := by
      unfold Tracker.advance at moved ⊢
      split at moved
      · cases moved
      rename_i alive
      split at moved
      · cases moved
      rename_i room
      rw [if_neg alive, if_neg room]
      refine ⟨by simpa using alive, ?_, rfl⟩
      omega
    obtain ⟨alive, room, same⟩ := live
    have numbers := advanced.numbers
    refine ⟨advanced.counted rfl ⟨⟨numbers.positive.1, Nat.zero_lt_succ _⟩, fun _ => ?_, ?_⟩ le_rfl
      (Nat.le_succ _), fresh.sequence, fun _ _ v inside => ?_⟩
    · refine ⟨(numbers.live alive).1, ?_⟩
      dsimp only
      omega
    · exact fun dead => absurd (alive.symm.trans dead) Bool.noConfusion
    · exact Nat.lt_succ_of_le (advanced.past v inside).revocation
  · rename_i stuck
    have dead : s.advance.2.exhausted = true := by
      unfold Tracker.advance at stuck ⊢
      split at stuck
      · rename_i dead
        rw [if_pos dead]
        exact dead
      rename_i alive
      split at stuck
      · rename_i full
        rw [if_neg alive, if_pos full]
        rfl
      · exact absurd rfl stuck
    exact ⟨advanced, fresh.sequence, fun alive => absurd (dead.symm.trans alive) Bool.noConfusion⟩

/-- The snapshot that publishing makes of an entry is over all told before. -/
theorem Told.published_over (told_ : Told id told s) (available : Bool) {revoke : Bool}
    (fresh : Fresh told revoke s) (negative : available = false → revoke = true) {w : User}
    (entry : s.Past w.state) (below : ∀ v ∈ told, v.revocation ≤ w.state.revocation) :
    s.Past (s.published available revoke w).state ∧
      ∀ v ∈ told, Over v (s.published available revoke w).state := by
  have numbers := told_.numbers
  unfold published
  cases dead : s.exhausted with
  | true =>
    obtain ⟨sequence, revision⟩ := numbers.dead dead
    simp only [Bool.or_true, if_true, Bool.not_true, Bool.and_false]
    exact ⟨⟨numbers.positive, le_rfl, le_rfl, Bool.noConfusion⟩,
      fun v inside => ⟨(told_.past v inside).revocation, .inl ⟨sequence, revision, rfl⟩⟩⟩
  | false =>
    obtain ⟨sequence, revision⟩ := numbers.live dead
    simp only [Bool.or_false, Bool.not_false, Bool.and_true]
    cases revoke with
    | true =>
      exact ⟨⟨numbers.positive, le_rfl, le_rfl, fun _ => ⟨sequence, revision⟩⟩,
        fun v inside => ⟨(told_.past v inside).revocation, .inr ⟨fresh.sequence dead v inside,
          fun _ => fresh.revision dead rfl v inside⟩⟩⟩
    | false =>
      have positive : available = true := by
        cases available with
        | true => rfl
        | false => exact negative rfl
      subst positive
      refine ⟨⟨⟨numbers.positive.1, entry.positive.2⟩, le_rfl, entry.revocation, fun _ => ⟨sequence, ?_⟩⟩,
        fun v inside => ⟨below v inside, .inr ⟨fresh.sequence dead v inside, Bool.noConfusion⟩⟩⟩
      exact lt_of_le_of_lt entry.revocation revision

theorem Told.snoc_ordered (told_ : Told id told s) {v : Snapshot} (above : ∀ w ∈ told, Over w v) :
    (told ++ [v]).Pairwise Over :=
  pairwise_append.mpr ⟨told_.ordered, pairwise_singleton _ _,
    fun w inside _ last => mem_singleton.mp last ▸ above w inside⟩

theorem Told.publish (told_ : Told id told s) (j : Int) (available : Bool) {revoke : Bool}
    (fresh : Fresh told revoke s) (negative : available = false → revoke = true) :
    Told id (told ++ mine id [(s.publish j available revoke).1]) (s.publish j available revoke).2 := by
  have grown := told_.user j
  have found := user_find s j
  have core : SameCore s (s.publish j available revoke).2 := publish_core s j available revoke
  have userCore : SameCore s (s.user j).2 := user_core s j
  have present := mem_of_find found
  have entry : s.Past (s.user j).1.state :=
    (grown.entries _ present.1).later (by rw [userCore]) (by rw [userCore])
  have numbers : (s.publish j available revoke).2.Numbers := by
    rw [core]
    exact ⟨told_.numbers.positive, told_.numbers.live, told_.numbers.dead⟩
  have later {v : Snapshot} (past : s.Past v) : (s.publish j available revoke).2.Past v :=
    past.later (by rw [core]) (by rw [core])
  have shown : s.Past (s.published available revoke (s.user j).1).state :=
    (told_.forget.published_over available ⟨fun _ => by simp, fun _ _ => by simp⟩ negative entry (by simp)).1
  have entries : ∀ v ∈ (s.publish j available revoke).2.users, (s.publish j available revoke).2.Past v.state := by
    intro v inside
    rw [publish_eq] at inside
    have same : (s.user j).1.id = (s.published available revoke (s.user j).1).id := rfl
    rcases (Lib.mem_replace present.1 same).mp inside with rfl | ⟨inside, -⟩
    · exact later shown
    · exact later ((grown.entries v inside).later (by rw [userCore]) (by rw [userCore]))
  have event : (s.publish j available revoke).1.state =
      (s.published available revoke (s.user j).1).state := by
    rw [publish_eq]
  have owner : (s.published available revoke (s.user j).1).state.userId = j := present.2
  by_cases own : j = id
  · subst own
    have told' : mine j [(s.publish j available revoke).1] =
        [(s.published available revoke (s.user j).1).state] := by
      simp [mine, event, owner]
    have above := (told_.published_over available fresh negative entry fun v inside =>
      grown.users_below v inside _ found).2
    rw [told']
    refine ⟨publish_distinct told_.distinct _ _ _, numbers, entries, told_.snoc_ordered above, ?_, fun _ => ?_⟩
    · exact Lib.forall_mem_snoc (fun v inside => later (told_.past v inside)) (later shown)
    · rw [publish_find, if_pos rfl, List.getLast?_concat]
      rfl
  · have told' : mine id [(s.publish j available revoke).1] = [] := by
      simp [mine, event, owner, own]
    rw [told', append_nil]
    refine ⟨publish_distinct told_.distinct _ _ _, numbers, entries, told_.ordered,
      fun v inside => later (told_.past v inside), fun some => ?_⟩
    rw [publish_find, if_neg fun same => own same.symm]
    exact told_.latest some

theorem mine_entries (distinct : s.Distinct) (shown : User → User) (named : ∀ v, (shown v).id = v.id) :
    mine id (s.users.map fun v => ⟨(shown v).state, v.listeners⟩) =
      ((s.find id).map fun v => (shown v).state).toList := by
  have own (v : User) : (shown v).state.userId = v.id := named v
  cases found : s.find id with
  | none =>
    simp only [find, List.find?_eq_none] at found
    simp only [mine, map_map, Option.map_none, Option.toList_none, filter_eq_nil_iff, mem_map]
    rintro _ ⟨v, inside, rfl⟩
    simpa [own] using found v inside
  | some v =>
    obtain ⟨inside, rfl⟩ := mem_of_find found
    obtain ⟨before, after, split, -⟩ := Lib.replace_split distinct inside rfl
    have apart := distinct
    unfold Distinct at apart
    rw [split, map_append, map_cons, nodup_append, nodup_cons] at apart
    obtain ⟨-, ⟨notAfter, -⟩, others⟩ := apart
    have none (part : List User) (other : ∀ w ∈ part, w.id ≠ v.id) :
        ((part.map fun w => (shown w).state).filter (·.userId = v.id)) = [] := by
      rw [filter_eq_nil_iff]
      intro x among
      obtain ⟨w, inside, rfl⟩ := mem_map.mp among
      simpa [own] using other w inside
    have first := none before fun w among same =>
      others w.id (mem_map_of_mem among) v.id (by simp) same
    have last := none after fun w among same =>
      notAfter (same ▸ mem_map_of_mem among)
    simp only [mine, map_map, split, map_append, map_cons, filter_append,
      Function.comp_def, Option.map_some, Option.toList_some]
    rw [first, filter_cons_of_pos (by simp [own]), last]
    rfl

theorem mine_allUnavailable (distinct : s.Distinct) (id : Int) :
    mine id s.allUnavailable.1 =
      ((s.find id).map fun v => (s.published false true v).state).toList := by
  rw [allUnavailable_eq distinct]
  exact mine_entries distinct (s.published false true) fun _ => rfl

theorem Told.unknown (told_ : Told id told s) (missing : s.find id = none) : told = [] := by
  by_contra some
  have latest := told_.latest some
  rw [missing] at latest
  exact some (List.getLast?_eq_none_iff.mp latest.symm)

/-- All entries at once: a user that was told something is told once more. -/
theorem Told.allUnavailable (told_ : Told id told s) (fresh : Fresh told true s) :
    Told id (told ++ mine id s.allUnavailable.1) s.allUnavailable.2 := by
  have core : SameCore s s.allUnavailable.2 := allUnavailable_core told_.distinct
  have numbers : s.allUnavailable.2.Numbers := by
    rw [core]
    exact ⟨told_.numbers.positive, told_.numbers.live, told_.numbers.dead⟩
  have later {v : Snapshot} (past : s.Past v) : s.allUnavailable.2.Past v :=
    past.later (by rw [core]) (by rw [core])
  have shown (v : User) (inside : v ∈ s.users) : s.Past (s.published false true v).state :=
    (told_.forget.published_over false ⟨fun _ => by simp, fun _ _ => by simp⟩ (fun _ => rfl)
      (told_.entries v inside) (by simp)).1
  have entries : ∀ v ∈ s.allUnavailable.2.users, s.allUnavailable.2.Past v.state := by
    intro v inside
    rw [allUnavailable_eq told_.distinct] at inside
    obtain ⟨w, among, rfl⟩ := mem_map.mp inside
    exact later (shown w among)
  have own := mine_allUnavailable told_.distinct id
  have shows := allUnavailable_find told_.distinct id
  cases found : s.find id with
  | none =>
    rw [found] at own
    rw [own, told_.unknown found]
    exact ⟨allUnavailable_distinct told_.distinct, numbers, entries, .nil, by simp, by simp⟩
  | some v =>
    rw [found] at own shows
    obtain ⟨inside, -⟩ := mem_of_find found
    have above := (told_.published_over false fresh (fun _ => rfl) (told_.entries v inside)
      fun x among => told_.users_below x among v found).2
    rw [own]
    refine ⟨allUnavailable_distinct told_.distinct, numbers, entries, told_.snoc_ordered above, ?_, fun _ => ?_⟩
    · exact Lib.forall_mem_snoc (fun x among => later (told_.past x among)) (later (shown v inside))
    · rw [shows]
      exact List.getLast?_concat.symm

theorem Told.invalidateAll (told_ : Told id told s) :
    Told id (told ++ mine id s.invalidateAll.1) s.invalidateAll.2 :=
  told_.revise.1.allUnavailable told_.revise.2

/-- On exhaustion the last lock section tells everyone the end, in the place of
what it would have told. -/
theorem Told.finish (told_ : Told id (told ++ mine id events) m) :
    Told id (told ++ mine id (finishEvents events m).1) (finishEvents events m).2 := by
  unfold finishEvents
  split
  · rename_i dead
    have fresh : Fresh (told ++ mine id events) true m :=
      ⟨fun alive => absurd (dead.symm.trans alive) Bool.noConfusion,
        fun alive => absurd (dead.symm.trans alive) Bool.noConfusion⟩
    have ended := told_.allUnavailable fresh
    rw [append_assoc] at ended
    have front : (told ++ mine id m.allUnavailable.1).Sublist
        (told ++ (mine id events ++ mine id m.allUnavailable.1)) :=
      (List.Sublist.refl _).append (sublist_append_right _ _)
    refine ⟨ended.distinct, ended.numbers, ended.entries, ended.ordered.sublist front,
      fun v inside => ended.past v (front.subset inside), fun some => ?_⟩
    have own := mine_allUnavailable told_.distinct id
    cases found : m.find id with
    | none =>
      rw [found] at own
      exact absurd (by rw [own, (append_eq_nil_iff.mp (told_.unknown found)).1]; rfl) some
    | some v =>
      rw [found] at own
      have latest := ended.latest (by rw [own]; simp)
      rw [own] at latest ⊢
      rw [latest, ← append_assoc]
      exact List.getLast?_concat.trans List.getLast?_concat.symm
  · exact told_

/-- The loop over the unlocked users, thrown or not. -/
theorem Told.publishAll (told_ : Told id told s) (op : Operation α) (ids : List Int) :
    Told id (told ++ mine id (publishAll op ids s).2.1) (publishAll op ids s).2.2 := by
  induction ids generalizing s told with
  | nil =>
    rw [Tracker.publishAll, mine_nil, append_nil]
    exact told_
  | cons j ids ih =>
    unfold Tracker.publishAll
    split
    · exact ih told_
    obtain ⟨advanced, fresh⟩ := told_.advance
    dsimp only
    split
    · rw [mine_nil, append_nil]
      exact advanced
    have shown := advanced.publish j true fresh (fun no => Bool.noConfusion no)
    have rest := ih shown
    rw [append_assoc, ← mine_append] at rest
    exact rest

/-! ## Every call -/

theorem Told.count (told_ : Told id told s) (counted : Bool) : Told id told (s.count counted).2 := by
  unfold Tracker.count
  split
  · exact told_
  split
  · cases dead : s.exhausted with
    | true =>
      have ended := told_.numbers.dead dead
      exact told_.besides rfl dead.symm ended.1.symm ended.2.symm
    | false =>
      have live := told_.numbers.live dead
      exact told_.counted rfl ⟨⟨Nat.zero_lt_succ _, Nat.zero_lt_succ _⟩, Bool.noConfusion,
        fun _ => ⟨rfl, rfl⟩⟩ live.1.le live.2.le
  · exact told_.besides rfl rfl rfl rfl

theorem Told.issue (told_ : Told id told s) (op : Operation α) : Told id told (s.issue op).2 :=
  told_.besides rfl rfl rfl rfl

theorem Told.silent (told_ : Told id told s) : Told id (told ++ mine id []) s := by
  rw [mine_nil, append_nil]
  exact told_

variable [DecidableEq α]

theorem Told.settle (told_ : Told id told s) (n : Nat) (op : Operation α) (success : Bool)
    (unlockedUsers : List Int) :
    Told id (told ++ mine id (s.settle n op success unlockedUsers).1.events)
      (s.settle n op success unlockedUsers).2 := by
  have used : Told id told (s.consume n op) := told_.besides rfl rfl rfl rfl
  unfold Tracker.settle
  dsimp only
  split
  · exact used.silent
  split
  · exact used.silent
  split
  · obtain ⟨revised, fresh⟩ := used.revise
    split
    · exact (revised.publish op.userId false fresh fun _ => rfl).finish
    · exact used.invalidateAll.finish
  split
  · split
    · obtain ⟨advanced, fresh⟩ := used.advance
      exact (advanced.publish op.userId true fresh fun no => Bool.noConfusion no).finish
    · have looped := used.publishAll op unlockedUsers
      split
      · rename_i made
        rw [made] at looped
        exact looped
      · rename_i made
        rw [made] at looped
        exact looped.finish
  · exact used.silent.finish

theorem Told.completeInternal (told_ : Told id told s) (n : Nat) (success : Bool)
    (unlockedUsers : List Int) :
    Told id (told ++ mine id (s.completeInternal n success unlockedUsers).1.events)
      (s.completeInternal n success unlockedUsers).2 := by
  unfold Tracker.completeInternal
  split
  · exact told_.silent
  · split
    · exact told_.silent
    · exact told_.settle n _ success unlockedUsers

/-- What a listener was told, with what the call publishes. -/
theorem Told.call (told_ : Told id told s) (c : Call α) :
    Told id (told ++ mine id (s.call c).1.events) (s.call c).2 := by
  cases c with
  | register j listener =>
    change Told id (told ++ mine id (s.register j listener).1.events) (s.register j listener).2
    unfold register
    split
    · exact told_.silent
    have grown := told_.user j
    dsimp only
    split
    · exact grown.silent
    · exact (grown.relisten (user_find s j) _).silent
  | unregister j listener =>
    change Told id (told ++ mine id (s.unregister j listener).1.events) (s.unregister j listener).2
    unfold unregister
    split
    · exact told_.silent
    · rename_i v found
      exact (told_.relisten found _).silent
  | connected identity =>
    change Told id (told ++ mine id (s.connected identity).1.events) (s.connected identity).2
    unfold connected
    split
    · exact told_.silent
    · refine Told.finish (told_.invalidateAll.besides ?_ ?_ ?_ ?_)
      all_goals
        split <;> rfl
  | died identity =>
    change Told id (told ++ mine id (s.died identity).1.events) (s.died identity).2
    unfold died
    split
    · exact told_.silent
    refine Told.finish (told_.invalidateAll.besides ?_ ?_ ?_ ?_)
    all_goals
      dsimp only
      split <;> rfl
  | beginRevocation j identity =>
    change Told id (told ++ mine id (s.beginRevocation j identity).1.events) (s.beginRevocation j identity).2
    unfold beginRevocation
    split
    · exact told_.silent
    · obtain ⟨revised, fresh⟩ := (told_.user j).revise
      have shown := revised.publish j false fresh fun _ => rfl
      exact Told.finish ((shown.count _).issue _)
  | beginAvailable j identity =>
    change Told id (told ++ mine id (s.beginAvailable j identity).1.events) (s.beginAvailable j identity).2
    unfold beginAvailable
    split
    · exact told_.silent
    · exact ((told_.user j).issue _).silent
  | beginRestore identity => exact (told_.issue _).silent
  | beginReset identity =>
    change Told id (told ++ mine id (s.beginReset identity).1.events) (s.beginReset identity).2
    exact Told.finish ((told_.invalidateAll.count _).issue _)
  | complete token success =>
    change Told id (told ++ mine id (s.complete token success).1.events) (s.complete token success).2
    unfold complete
    split
    · exact told_.silent
    · split
      · exact told_.completeInternal _ success []
      · exact told_.silent
  | completeBulk token success unlockedUsers =>
    change Told id (told ++ mine id (s.completeBulk token success unlockedUsers).1.events)
      (s.completeBulk token success unlockedUsers).2
    unfold completeBulk
    split
    · exact told_.silent
    · split
      · exact told_.completeInternal _ success unlockedUsers
      · exact told_.silent

/-- The snapshot that a registration returns is the first thing told. -/
theorem Told.registered (told_ : Told id [] s) {listener : Nat} {state : Snapshot}
    (returned : (s.register id listener).1.outcome = .snapshot state) :
    Told id [state] (s.register id listener).2 := by
  have after := told_.call (.register id listener)
  change Told id ([] ++ mine id (s.register id listener).1.events) (s.register id listener).2 at after
  have found : ((s.register id listener).2.find id).map User.state = some state := by
    unfold register at returned ⊢
    split at returned
    · cases returned
    rename_i valid
    rw [if_neg valid]
    dsimp only at returned ⊢
    split at returned
    · cases returned
    rename_i new
    rw [if_neg new, relisten_find (user_find s id), user_find]
    cases returned
    rfl
  refine ⟨after.distinct, after.numbers, after.entries, pairwise_singleton _ _, fun v inside => ?_,
    fun _ => found⟩
  obtain ⟨w, entry, rfl⟩ := Option.map_eq_some_iff.mp found
  rw [mem_singleton.mp inside]
  exact after.entries w (mem_of_find entry).1

omit [DecidableEq α] in
theorem create_told {seed : Nat} (made : create α seed = some s) : Told id [] s := by
  unfold create at made
  split at made
  · cases made
  rename_i valid
  cases made
  refine ⟨nodup_nil, ⟨?_, fun _ => ?_, Bool.noConfusion⟩, by simp, .nil, by simp,
    fun some => absurd rfl some⟩
  · dsimp only
    omega
  · dsimp only
    omega

end Tracker
end Andrix.Platform
