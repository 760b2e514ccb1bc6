import Andrix.Platform.KeepWork

/-! Any calls on the keep slot, under the monitor of the lifecycle. A record's
retirement is final, a stop and a death retire it, and it becomes active only by
a commit that found it linked. -/
namespace Andrix.Platform

/-- The calls that change the slot. -/
inductive WorkCall (β τ : Type) where
  | begin (binderIdentity : Option β) (lifetime : Option τ) (workId instanceId generation : Int)
      (nonce : Option String)
  | observe
  | linked (r : Nat)
  | commit (r : Nat)
  | abort (r : Nat)
  | active
  | stop (token : String)
  | revokeNotification
  | died (r : Nat)
  | beginStop (r : Nat)
  | finishStop (r : Nat)

namespace Record
variable {β τ : Type} {a b c : Record β τ}

/-- A record that was stopped or died is retired, and an active one is linked
and not retired. -/
structure Flags (a : Record β τ) : Prop where
  stopped : a.stopRequested = true → a.retiring = true
  dead : a.dead = true → a.retiring = true
  active : a.active = true → a.retiring = false
  linked : a.active = true → a.linked = true

/-- A change that neither links nor activates the record. -/
structure Quiet (a b : Record β τ) : Prop where
  generation : b.generation = a.generation
  retiring : a.retiring = true → b.retiring = true
  linked : b.linked = true → a.linked = true
  active : b.active = true → a.active = true
  flags : a.Flags → b.Flags

theorem Quiet.refl (a : Record β τ) : Quiet a a := ⟨rfl, id, id, id, id⟩

theorem Quiet.trans (first : Quiet a b) (second : Quiet b c) : Quiet a c :=
  ⟨second.generation.trans first.generation, fun h => second.retiring (first.retiring h),
    fun h => first.linked (second.linked h), fun h => first.active (second.active h),
    fun h => second.flags (first.flags h)⟩

theorem retire_quiet (a : Record β τ) : Quiet a a.retire :=
  ⟨rfl, fun _ => rfl, id, Bool.noConfusion, fun _ => ⟨fun _ => rfl, fun _ => rfl, Bool.noConfusion, Bool.noConfusion⟩⟩

theorem requestStop_quiet (a : Record β τ) : Quiet a a.requestStop.retire :=
  ⟨rfl, fun _ => rfl, id, Bool.noConfusion, fun _ => ⟨fun _ => rfl, fun _ => rfl, Bool.noConfusion, Bool.noConfusion⟩⟩

theorem die_quiet (a : Record β τ) : Quiet a a.die.retire :=
  ⟨rfl, fun _ => rfl, id, Bool.noConfusion, fun _ => ⟨fun _ => rfl, fun _ => rfl, Bool.noConfusion, Bool.noConfusion⟩⟩

theorem fly_quiet (a : Record β τ) (inFlight : Bool) : Quiet a (a.fly inFlight) :=
  ⟨rfl, id, id, id, fun flags => ⟨flags.stopped, flags.dead, flags.active, flags.linked⟩⟩

end Record

namespace KeepWorkState
variable {β τ : Type} {k k' k'' : KeepWorkState β τ}

/-- One call, with what it answered. -/
def work (k : KeepWorkState β τ) (platform : PlatformState) : WorkCall β τ → Bool × KeepWorkState β τ
  | .begin binderIdentity lifetime workId instanceId generation nonce =>
    let (r, k) := k.begin binderIdentity lifetime workId instanceId generation platform nonce
    (r.isSome, k)
  | .observe => (true, k.observe platform)
  | .linked r => k.linked r platform
  | .commit r => k.commit r platform
  | .abort r => (true, k.abort r)
  | .active => ((k.active platform).1.isSome, (k.active platform).2)
  | .stop token => ((k.stop token).1.isSome, (k.stop token).2)
  | .revokeNotification => (k.revokeNotification.1.isSome, k.revokeNotification.2)
  | .died r => (true, k.died r)
  | .beginStop r => k.beginStop r
  | .finishStop r => (true, k.finishStop r)

/-- Every record changed quietly, and none was made. -/
structure Quiet (k k' : KeepWorkState β τ) : Prop where
  length : k'.records.length = k.records.length
  step : ∀ (r : Nat) (b : Record β τ), k'.records[r]? = some b → ∃ a, k.records[r]? = some a ∧ Record.Quiet a b

theorem Quiet.same (records : k'.records = k.records) : Quiet k k' :=
  ⟨congrArg _ records, fun _ b found => ⟨b, records ▸ found, .refl b⟩⟩

theorem Quiet.refl (k : KeepWorkState β τ) : Quiet k k := .same rfl

theorem Quiet.trans (first : Quiet k k') (second : Quiet k' k'') : Quiet k k'' := by
  refine ⟨second.length.trans first.length, fun r c found => ?_⟩
  obtain ⟨b, found, later⟩ := second.step r c found
  obtain ⟨a, found, earlier⟩ := first.step r b found
  exact ⟨a, found, earlier.trans later⟩

theorem update_found {r i : Nat} {change : Record β τ → Record β τ} {b : Record β τ}
    (found : (k.update r change).records[i]? = some b) :
    ∃ a, k.records[i]? = some a ∧ b = if i = r then change a else a := by
  unfold update at found
  rw [List.getElem?_modify] at found
  obtain ⟨a, here, rfl⟩ := Option.map_eq_some_iff.mp found
  refine ⟨a, here, ?_⟩
  by_cases same : i = r
  · rw [if_pos same, if_pos same.symm]
  · rw [if_neg same, if_neg fun eq => same eq.symm]

theorem update_quiet (k : KeepWorkState β τ) (r : Nat) {change : Record β τ → Record β τ}
    (quiet : ∀ a, Record.Quiet a (change a)) : Quiet k (k.update r change) := by
  refine ⟨update_length k r change, fun i b found => ?_⟩
  obtain ⟨a, here, rfl⟩ := update_found found
  refine ⟨a, here, ?_⟩
  split
  · exact quiet a
  · exact .refl a

theorem update_update_quiet (k : KeepWorkState β τ) (r : Nat) {change then_ : Record β τ → Record β τ}
    (quiet : ∀ a, Record.Quiet a (then_ (change a))) : Quiet k ((k.update r change).update r then_) := by
  refine ⟨(update_length _ r then_).trans (update_length k r change), fun i c found => ?_⟩
  obtain ⟨b, between, rfl⟩ := update_found found
  obtain ⟨a, here, rfl⟩ := update_found between
  refine ⟨a, here, ?_⟩
  split
  · exact quiet a
  · exact .refl a

theorem observe_quiet (k : KeepWorkState β τ) (platform : PlatformState) :
    Quiet k (k.observe platform) := by
  unfold observe
  split
  · exact .refl k
  · split
    · exact update_quiet k _ Record.retire_quiet
    · exact .refl k

theorem stop_quiet (k : KeepWorkState β τ) (token : String) : Quiet k (k.stop token).2 := by
  unfold stop
  split
  · exact .refl k
  · split
    · exact .refl k
    · exact update_update_quiet k _ Record.requestStop_quiet

structure Works (k : KeepWorkState β τ) (c : WorkCall β τ) (reply : Bool) (k' : KeepWorkState β τ) :
    Prop where
  grows : k.records.length ≤ k'.records.length
  step : ∀ (r : Nat) (b : Record β τ), k'.records[r]? = some b →
    (∃ a, k.records[r]? = some a ∧ (a.Flags → b.Flags) ∧ (a.retiring = true → b.retiring = true) ∧
      (b.linked = true → a.linked = true ∨ c = .linked r ∧ (b.retiring = false → reply = true)) ∧
      (b.active = true → a.active = true ∨
        c = .commit r ∧ reply = true ∧ a.linked = true ∧ a.retiring = false)) ∨
    k.records.length = r ∧ b.Flags ∧ b.linked = false ∧ b.active = false

theorem Quiet.works {c : WorkCall β τ} {reply : Bool} (quiet : Quiet k k') : Works k c reply k' := by
  refine ⟨Nat.le_of_eq quiet.length.symm, fun r b found => .inl ?_⟩
  obtain ⟨a, here, same⟩ := quiet.step r b found
  exact ⟨a, here, same.flags, same.retiring, fun h => .inl (same.linked h), fun h => .inl (same.active h)⟩

theorem begin_works (k : KeepWorkState β τ) (platform : PlatformState) (binderIdentity : Option β)
    (lifetime : Option τ) (workId inst generation : Int) (nonce : Option String) {c : WorkCall β τ}
    {reply : Bool} :
    Works k c reply (k.begin binderIdentity lifetime workId inst generation platform nonce).2 := by
  have quiet := observe_quiet k platform
  have length := quiet.length
  unfold begin
  dsimp only
  split
  · split
    · exact quiet.works
    · refine ⟨?_, fun r b found => ?_⟩
      · rw [← length, List.length_append]
        exact Nat.le_add_right _ _
      dsimp only at found
      rw [List.getElem?_append] at found
      split at found
      · exact quiet.works.step r b found
      rename_i last
      rw [List.getElem?_singleton] at found
      split at found
      case isFalse => cases found
      rename_i only
      cases found
      refine .inr ⟨?_, ⟨Bool.noConfusion, Bool.noConfusion, Bool.noConfusion, Bool.noConfusion⟩, rfl, rfl⟩
      omega
  · exact quiet.works

theorem linked_works (k : KeepWorkState β τ) (platform : PlatformState) (r : Nat) :
    Works k (.linked r) (k.linked r platform).1 (k.linked r platform).2 := by
  have quiet := observe_quiet k platform
  unfold linked
  dsimp only
  split
  · exact quiet.works
  refine ⟨Nat.le_of_eq ((update_length _ r Record.link).trans quiet.length).symm, fun i b found => .inl ?_⟩
  dsimp only at found
  obtain ⟨m, here, made⟩ := update_found found
  obtain ⟨a, here, same⟩ := quiet.step i m here
  refine ⟨a, here, ?_⟩
  by_cases own : i = r
  · rw [if_pos own] at made
    subst made own
    refine ⟨fun flags => ?_, same.retiring, fun _ => .inr ⟨rfl, fun alive => ?_⟩,
      fun h => .inl (same.active h)⟩
    · exact ⟨(same.flags flags).stopped, (same.flags flags).dead, (same.flags flags).active, fun _ => rfl⟩
    · rw [has, found]
      simpa using alive
  · rw [if_neg own] at made
    subst made
    exact ⟨same.flags, same.retiring, fun h => .inl (same.linked h), fun h => .inl (same.active h)⟩

theorem commit_works (k : KeepWorkState β τ) (platform : PlatformState) (r : Nat) :
    Works k (.commit r) (k.commit r platform).1 (k.commit r platform).2 := by
  have quiet := observe_quiet k platform
  unfold commit
  dsimp only
  split
  · exact quiet.works
  rename_i open_
  refine ⟨Nat.le_of_eq ((update_length _ r Record.activate).trans quiet.length).symm, fun i b found => .inl ?_⟩
  obtain ⟨m, here, made⟩ := update_found found
  obtain ⟨a, earlier, same⟩ := quiet.step i m here
  refine ⟨a, earlier, ?_⟩
  by_cases own : i = r
  · rw [if_pos own] at made
    subst made own
    simp only [has, here, Option.any_some, Bool.or_eq_true, not_or, Bool.not_eq_true, Bool.not_eq_true',
      Bool.not_eq_false] at open_
    obtain ⟨⟨⟨bound, staying⟩, idle⟩, linked⟩ := open_
    have fresh : a.retiring = false := by
      cases retired : a.retiring with
      | false => rfl
      | true => exact (same.retiring retired).symm.trans staying
    exact ⟨fun flags => ⟨(same.flags flags).stopped, (same.flags flags).dead, fun _ => staying,
      fun _ => linked⟩,
      same.retiring, fun h => .inl (same.linked h), fun _ => .inr ⟨rfl, rfl, same.linked linked, fresh⟩⟩
  · rw [if_neg own] at made
    subst made
    exact ⟨same.flags, same.retiring, fun h => .inl (same.linked h), fun h => .inl (same.active h)⟩

theorem work_works (k : KeepWorkState β τ) (platform : PlatformState) (c : WorkCall β τ) :
    Works k c (k.work platform c).1 (k.work platform c).2 := by
  cases c with
  | begin binderIdentity lifetime workId inst generation nonce =>
    exact begin_works k platform binderIdentity lifetime workId inst generation nonce
  | observe => exact (observe_quiet k platform).works
  | linked r => exact linked_works k platform r
  | commit r => exact commit_works k platform r
  | abort r =>
    refine (Quiet.same ?_).works
    change (k.abort r).records = k.records
    unfold abort
    split <;> rfl
  | active =>
    refine ((observe_quiet k platform).trans (Quiet.same ?_)).works
    change (k.active platform).2.records = _
    unfold active
    dsimp only
    split
    · rfl
    · split <;> rfl
  | stop token => exact (stop_quiet k token).works
  | revokeNotification =>
    refine Quiet.works ?_
    change Quiet k k.revokeNotification.2
    unfold revokeNotification
    split
    · exact .refl k
    · exact stop_quiet k _
  | died r =>
    refine ((update_update_quiet k r Record.die_quiet).trans (Quiet.same ?_)).works
    change (k.died r).records = _
    unfold died
    dsimp only
    split <;> rfl
  | beginStop r =>
    refine Quiet.works ?_
    change Quiet k (k.beginStop r).2
    unfold beginStop
    split
    · exact .refl k
    · exact update_quiet k r fun a => a.fly_quiet true
  | finishStop r =>
    refine ((update_quiet k r fun a => a.fly_quiet false).trans (Quiet.same ?_)).works
    change (k.finishStop r).records = _
    unfold finishStop
    dsimp only
    split <;> rfl

end KeepWorkState
end Andrix.Platform
