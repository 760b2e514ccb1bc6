import Andrix.Deployment.TicketRules
import Andrix.Deployment.Reconciler

/-! Health outcomes over a step. Observing users, judging them and finishing
them keeps one outcome for each user and serial, drops none, and changes no
outcome that is final. -/
namespace Andrix.Deployment
open Andrix.Lib

theorem seenOutcome_cases {o : Observation} {seen : Outcome} (found : seenOutcome o = some seen) :
    seen = .removed ∨ seen = .unhealthy ∨ seen = .observing := by
  unfold seenOutcome at found
  split at found
  · exact .inl (Option.some.inj found).symm
  split at found
  · exact .inr (.inl (Option.some.inj found).symm)
  · split at found
    · exact .inr (.inr (Option.some.inj found).symm)
    · cases found

def Health.key (h : Health) : Int32 × Int64 := (h.user, h.serial)

theorem Health.key_eq {x y : Health} : x.key = y.key ↔ x.user = y.user ∧ x.serial = y.serial :=
  Prod.mk_inj

/-- What a list of outcomes may become: still one for each user, with every
user kept and every final outcome unchanged. -/
structure Progress (before after : List Health) : Prop where
  unique : (after.map Health.key).Nodup
  kept : ∀ old ∈ before, ∃ now ∈ after, now.key = old.key ∧
    (old.outcome ≠ .observing → now.outcome = old.outcome)

variable {l : List Health}

theorem Progress.refl (unique : (l.map Health.key).Nodup) : Progress l l :=
  ⟨unique, fun old among => ⟨old, among, rfl, fun _ => rfl⟩⟩

variable {x y z : List Health}

theorem Progress.trans (first : Progress x y) (second : Progress y z) :
    Progress x z := by
  refine ⟨second.unique, fun old among => ?_⟩
  obtain ⟨mid, midAmong, midKey, midFinal⟩ := first.kept old among
  obtain ⟨now, nowAmong, nowKey, nowFinal⟩ := second.kept mid midAmong
  refine ⟨now, nowAmong, nowKey.trans midKey, fun final => ?_⟩
  rw [nowFinal (by rwa [midFinal final]), midFinal final]

theorem Progress.perm (progress : Progress x y) (same : y.Perm z) :
    Progress x z := by
  refine ⟨(same.map _).nodup_iff.mp progress.unique, fun old among => ?_⟩
  obtain ⟨now, nowAmong, kept⟩ := progress.kept old among
  exact ⟨now, same.mem_iff.mp nowAmong, kept⟩

/-! ## The ticket machine's rule -/

theorem outcomeOf_eq_some {user : Int32} {serial : Int64} {h : Health}
    (unique : (l.map Health.key).Nodup) (member : h ∈ l) (user_ : h.user = user)
    (serial_ : h.serial = serial) : TicketMachine.outcomeOf user serial l = some h.outcome := by
  have all : ∀ x ∈ l.filter (fun h => h.user = user ∧ h.serial = serial), x = h := by
    intro x found
    simp only [List.mem_filter, decide_eq_true_eq] at found
    exact List.inj_on_of_nodup_map unique found.1 member
      (Health.key_eq.mpr ⟨found.2.1.trans user_.symm, found.2.2.trans serial_.symm⟩)
  have nonempty : l.filter (fun h => h.user = user ∧ h.serial = serial) ≠ [] :=
    List.ne_nil_of_mem (List.mem_filter.mpr ⟨member, by simp [user_, serial_]⟩)
  rw [TicketMachine.outcomeOf, List.getLast?_eq_getLast_of_ne_nil nonempty, Option.map_some,
    all _ (List.getLast_mem nonempty)]

theorem outcomeOf_eq_none {user : Int32} {serial : Int64} :
    TicketMachine.outcomeOf user serial l = none ↔ (user, serial) ∉ l.map Health.key := by
  simp [TicketMachine.outcomeOf, Health.key]

theorem Progress.allowed {before after : List Health} (progress : Progress before after) :
    TicketMachine.healthRule after before = .ok () := by
  obtain ⟨unique, kept⟩ := progress
  induction before with
  | nil => rfl
  | cons old rest ih =>
    obtain ⟨now, among, key, final⟩ := kept old (by simp)
    obtain ⟨user, serial⟩ := Health.key_eq.mp key
    unfold TicketMachine.healthRule
    rw [outcomeOf_eq_some unique among user serial]
    simp only [bind_unit_eq_ok, refuse_eq_ok, not_and, not_not]
    exact ⟨final, ih fun old' among' => kept old' (List.mem_cons_of_mem _ among')⟩

/-! ## Observing users -/

theorem setLast_keys {p : Health → Bool} {x : Health}
    (same : ∀ h ∈ l, p h = true → h.key = x.key) : (setLast p x l).map Health.key = l.map Health.key := by
  induction l with
  | nil => rfl
  | cons h rest ih =>
    have later := ih fun h among => same h (List.mem_cons_of_mem _ among)
    unfold setLast
    split
    · simp [later]
    · split
      · simp [same h (by simp) ‹_›]
      · rfl

/-- Replacing the last match keeps every other element. -/
theorem mem_setLast {p : Health → Bool} {x y : Health} (member : y ∈ l) :
    y ∈ setLast p x l ∨ (p y = true ∧ x ∈ setLast p x l) := by
  induction l with
  | nil => cases member
  | cons h rest ih =>
    unfold setLast
    split
    · rcases List.mem_cons.mp member with rfl | later
      · simp
      · rcases ih later with kept | ⟨matched, replaced⟩
        · exact .inl (List.mem_cons_of_mem _ kept)
        · exact .inr ⟨matched, List.mem_cons_of_mem _ replaced⟩
    · split
      · rcases List.mem_cons.mp member with rfl | later
        · exact .inr ⟨‹_›, by simp⟩
        · exact .inl (List.mem_cons_of_mem _ later)
      · exact .inl member

/-- One fact changes no final outcome and drops no user. -/
theorem observeUser_progress (boot : Text) (since : Int64) (o : Observation) {result : List Health}
    (unique : (result.map Health.key).Nodup) : Progress result (observeUser boot since result o) := by
  have refl := Progress.refl unique
  unfold observeUser
  split
  · exact refl
  rename_i named
  split
  · exact refl
  split
  · exact refl
  rename_i seen _
  dsimp only
  split
  · rename_i unknown
    split
    · exact refl
    have fresh := outcomeOf_eq_none.mp unknown
    refine ⟨?_, fun old among => ⟨old, by simp [among], rfl, fun _ => rfl⟩⟩
    rw [List.map_append, List.map_singleton]
    exact List.nodup_append.mpr ⟨unique, by simp, by
      rintro key among _ (_ | ⟨_, ⟨⟩⟩) rfl
      exact fresh among⟩
  · rename_i known found
    split
    · rename_i open_
      have keys : ∀ h ∈ result, (h.user = o.user && h.serial = o.serial) = true →
          h.key = (o.user, o.serial) := by
        intro h _ matched
        simpa [Health.key] using matched
      refine ⟨by rwa [setLast_keys keys], fun old among => ?_⟩
      rcases mem_setLast (x := ⟨⟨o.user, o.serial, seen⟩, o.health_valid named⟩)
          (p := fun h => h.user = o.user && h.serial = o.serial) among
        with kept | ⟨matched, replaced⟩
      · exact ⟨old, kept, rfl, fun _ => rfl⟩
      refine ⟨_, replaced, (keys old among matched).symm, fun final => absurd ?_ final⟩
      simp only [Bool.and_eq_true, decide_eq_true_eq] at matched
      rw [outcomeOf_eq_some unique among matched.1 matched.2] at found
      exact (Option.some.inj found).trans open_.1
    · exact refl

theorem observe_progress (boot : Text) (since : Int64) (facts : List Observation)
    {current : List Health} (unique : (current.map Health.key).Nodup) :
    Progress current (facts.foldl (observeUser boot since) current) := by
  induction facts generalizing current with
  | nil => exact .refl unique
  | cons o rest ih =>
    have first := observeUser_progress boot since o unique
    exact first.trans (ih first.unique)

instance : IsTrans Health healthOrder where
  trans x y z first second := by
    simp only [healthOrder, Int32.lt_iff_toInt_lt, Int64.le_iff_toInt_le, ← Int32.toInt_inj] at *
    omega

instance : Std.Total healthOrder where
  total x y := by
    simp only [healthOrder, Int32.lt_iff_toInt_lt, Int64.le_iff_toInt_le, ← Int32.toInt_inj]
    omega

theorem Health.before_of_order {x y : Health} (order : healthOrder x y) (other : x.key ≠ y.key) :
    x.before y := by
  simp only [ne_eq, Health.key_eq, not_and] at other
  simp only [healthOrder, Health.before, Int32.lt_iff_toInt_lt, Int64.le_iff_toInt_le,
    Int64.lt_iff_toInt_lt, ← Int32.toInt_inj, ← Int64.toInt_inj] at *
  omega

theorem Health.key_ne_of_before {x y : Health} (before : x.before y) : x.key ≠ y.key := by
  simp only [ne_eq, Health.key_eq, Health.before, Int32.lt_iff_toInt_lt, Int64.lt_iff_toInt_lt,
    ← Int32.toInt_inj, ← Int64.toInt_inj] at *
  omega

theorem unique_of_ordered (ordered : l.Pairwise Health.before) :
    (l.map Health.key).Nodup :=
  List.pairwise_map.mpr (ordered.imp Health.key_ne_of_before)

/-- What the outcomes of a step are: progress in strict order, within the bound. -/
structure Advances (before after : List Health) : Prop where
  progress : Progress before after
  ordered : after.Pairwise Health.before
  bounded : after.length ≤ maxUsers

theorem Advances.refl (ordered : l.Pairwise Health.before)
    (bounded : l.length ≤ maxUsers) : Advances l l :=
  ⟨.refl (unique_of_ordered ordered), ordered, bounded⟩

theorem Advances.trans (first : Advances x y) (second : Advances y z) :
    Advances x z :=
  ⟨first.progress.trans second.progress, second.ordered, second.bounded⟩

theorem observeUsers_advances (c : Context) {current : List Health} (since : Int64)
    (ordered : current.Pairwise Health.before) (bounded : current.length ≤ maxUsers) :
    Advances current (observeUsers c current since) := by
  dsimp only [observeUsers]
  split
  · exact .refl ordered bounded
  rename_i room
  have observed := (observe_progress c.view.boot since c.view.facts
    (unique_of_ordered ordered)).perm (List.perm_insertionSort healthOrder _).symm
  refine ⟨observed, ?_, Nat.not_lt.mp room⟩
  exact ((List.pairwise_insertionSort healthOrder _).and
    (List.pairwise_map.mp observed.unique)).imp fun ⟨order, other⟩ =>
      Health.before_of_order order other

/-! ## Closing outcomes -/

private theorem closing_advances (f : Health → Outcome)
    (ordered : l.Pairwise Health.before) (bounded : l.length ≤ maxUsers) :
    Advances l (l.map (fun h => if h.outcome = .observing then h.withOutcome (f h) else h)) := by
  have key (h : Health) :
      (if h.outcome = .observing then h.withOutcome (f h) else h).key = h.key := by
    split <;> rfl
  refine ⟨⟨?_, fun old among => ⟨_, List.mem_map_of_mem among, key old, fun final => ?_⟩⟩,
    List.pairwise_map.mpr (ordered.imp fun {x y} before => ?_), by simpa using bounded⟩
  · simpa [Function.comp_def, key] using unique_of_ordered ordered
  · simp [final]
  · obtain ⟨user, serial⟩ := Health.key_eq.mp (key x)
    obtain ⟨user', serial'⟩ := Health.key_eq.mp (key y)
    simpa [Health.before, user, serial, user', serial'] using before

theorem judge_advances (c : Context) (ordered : l.Pairwise Health.before)
    (bounded : l.length ≤ maxUsers) : Advances l (judge c l) :=
  closing_advances (judgeUser c) ordered bounded

theorem finish_advances (closing : Outcome) (ordered : l.Pairwise Health.before)
    (bounded : l.length ≤ maxUsers) : Advances l (finish l closing) :=
  closing_advances (fun _ => closing) ordered bounded

private theorem closing_final {f : Health → Outcome} (final : ∀ h, f h ≠ .observing) (l : List Health) :
    ∀ h ∈ l.map (fun h => if h.outcome = .observing then h.withOutcome (f h) else h),
      h.outcome ≠ .observing := by
  simp only [List.forall_mem_map]
  intro h _
  split
  · exact final h
  · assumption

theorem judgeUser_ne (c : Context) (h : Health) : judgeUser c h ≠ .observing := by
  dsimp only [judgeUser]
  repeat' split
  all_goals decide

theorem judge_final (c : Context) (l : List Health) : ∀ h ∈ judge c l, h.outcome ≠ .observing :=
  closing_final (judgeUser_ne c) l

theorem finish_final {closing : Outcome} (final : closing ≠ .observing) (l : List Health) :
    ∀ h ∈ finish l closing, h.outcome ≠ .observing :=
  closing_final (fun _ => final) l

end Andrix.Deployment
