import Andrix.Deployment.Coordinator

/-! What `repeats` and `record` do, as facts about membership: which recorded fact
a repeat stands beside, and that every fact seen is recorded or repeats one that
is. None of it depends on the order of the recorded facts. -/
namespace Andrix.Deployment
open Andrix.Lib List

theorem sameSubject_iff {a b : Observation} : sameSubject a b = true ↔
    a.kind = b.kind ∧ a.boot = b.boot ∧ a.instanceId = b.instanceId ∧ a.route = b.route ∧
    a.component = b.component ∧ a.user = b.user ∧ a.serial = b.serial ∧ a.subject = b.subject ∧
    a.sequence = b.sequence ∧ a.crossing = b.crossing ∧
    (a.kind = .session → a.reference.sessionId = b.reference.sessionId) := by
  simp [sameSubject, and_assoc, imp_iff_not_or]

theorem identical_iff {a b : Observation} : identical a b = true ↔
    a.classification = b.classification ∧ a.text = b.text ∧ a.digest = b.digest ∧
    a.version = b.version ∧ a.number = b.number ∧ a.reference = b.reference ∧ a.plan = b.plan ∧
    a.bundleApk = b.bundleApk ∧ a.restorationApk = b.restorationApk := by
  simp [identical, and_assoc]

theorem Observation.elapsed_nonneg (o : Observation) : ¬ o.elapsed < 0 := o.rules.elapsed

/-- The loop of `repeats` over a list: nothing about the subject yet, or the
largest time of a fact about it and whether all facts of that time are identical. -/
structure Compared (o : Observation) (l : List Observation) (seen : Int64 × Bool) : Prop where
  most : ∀ x ∈ l, sameSubject x o = true → x.elapsed ≤ seen.1
  reached : seen = (-1, false) ∧ (∀ x ∈ l, sameSubject x o = false) ∨
    (∃ x ∈ l, sameSubject x o = true ∧ x.elapsed = seen.1) ∧
      (seen.2 = true ↔ ∀ x ∈ l, sameSubject x o = true → x.elapsed = seen.1 → identical x o = true)

variable {l : List Observation}

theorem Compared.append {o old : Observation} {seen : Int64 × Bool}
    (compared : Compared o l seen) : Compared o (l ++ [old]) (compareLatest o seen old) := by
  obtain ⟨latest, all⟩ := seen
  obtain ⟨most, reached⟩ := compared
  have among {x : Observation} : x ∈ l ++ [old] ↔ x ∈ l ∨ x = old := by simp
  simp only at most reached
  unfold compareLatest
  by_cases other : sameSubject old o = false
  · -- A fact about another thing changes nothing.
    simp only [other, Bool.not_false, ↓reduceIte]
    constructor
    · intro x inside same
      rcases among.mp inside with inside | rfl
      · exact most x inside same
      · simp [other] at same
    rcases reached with ⟨start, none_⟩ | ⟨⟨x, inside, same, at_⟩, agree⟩
    · refine .inl ⟨start, fun x inside => ?_⟩
      rcases among.mp inside with inside | rfl
      · exact none_ x inside
      · exact other
    refine .inr ⟨⟨x, among.mpr (.inl inside), same, at_⟩, agree.trans ?_⟩
    constructor
    · intro each y inside' same' at'
      rcases among.mp inside' with inside' | rfl
      · exact each y inside' same' at'
      · simp [other] at same'
    · intro each y inside'
      exact each y (among.mpr (.inl inside'))
  · have same : sameSubject old o = true := by simpa using other
    simp only [same, Bool.not_true, Bool.false_eq_true, ↓reduceIte]
    by_cases later : latest < old.elapsed
    · simp only [later, ↓reduceIte]
      have above : ∀ x ∈ l, sameSubject x o = true → x.elapsed < old.elapsed := by
        intro x inside same'
        exact Int64.lt_of_le_of_lt (most x inside same') later
      constructor
      · intro x inside same'
        rcases among.mp inside with inside | rfl
        · exact Int64.le_of_lt (above x inside same')
        · exact Int64.le_refl _
      refine .inr ⟨⟨old, among.mpr (.inr rfl), same, rfl⟩, ?_⟩
      constructor
      · intro agrees x inside same' at_
        rcases among.mp inside with inside | rfl
        · have less := above x inside same'
          rw [at_] at less
          exact (Int64.lt_irrefl less).elim
        · exact agrees
      · intro each
        exact each old (among.mpr (.inr rfl)) same rfl
    · simp only [later, ↓reduceIte]
      -- Times are not negative, so a fact about the subject was compared before.
      have before : (∃ x ∈ l, sameSubject x o = true ∧ x.elapsed = latest) ∧ (all = true ↔
          ∀ x ∈ l, sameSubject x o = true → x.elapsed = latest → identical x o = true) := by
        rcases reached with ⟨start, _⟩ | before
        · have negative : latest = -1 := congrArg Prod.fst start
          have positive := old.elapsed_nonneg
          rw [negative] at later
          rw [Int64.lt_iff_toInt_lt] at later positive
          have values : (-1 : Int64).toInt = -1 ∧ (0 : Int64).toInt = 0 := by decide
          omega
        · exact before
      obtain ⟨⟨x, inside, same', at_⟩, agree⟩ := before
      have low : old.elapsed ≤ latest := Int64.not_lt.mp later
      have most' : ∀ y ∈ l ++ [old], sameSubject y o = true → y.elapsed ≤ latest := by
        intro y inside' same''
        rcases among.mp inside' with inside' | rfl
        · exact most y inside' same''
        · exact low
      by_cases tie : old.elapsed = latest
      · simp only [tie, ↓reduceIte]
        refine ⟨most', .inr ⟨⟨x, among.mpr (.inl inside), same', at_⟩, ?_⟩⟩
        simp only [Bool.and_eq_true, agree]
        constructor
        · rintro ⟨each, last⟩ y inside' same'' at'
          rcases among.mp inside' with inside' | rfl
          · exact each y inside' same'' at'
          · exact last
        · intro each
          exact ⟨fun y inside' => each y (among.mpr (.inl inside')),
            each old (among.mpr (.inr rfl)) same tie⟩
      · simp only [tie, ↓reduceIte]
        refine ⟨most', .inr ⟨⟨x, among.mpr (.inl inside), same', at_⟩, agree.trans ?_⟩⟩
        constructor
        · intro each y inside' same'' at'
          rcases among.mp inside' with inside' | rfl
          · exact each y inside' same'' at'
          · exact absurd at' tie
        · intro each y inside'
          exact each y (among.mpr (.inl inside'))

theorem compared_foldl (o : Observation) (l : List Observation) :
    Compared o l (l.foldl (compareLatest o) (-1, false)) := by
  induction l using List.reverseRecOn with
  | nil => exact ⟨by simp, .inl ⟨rfl, by simp⟩⟩
  | append_singleton l old ih =>
    rw [foldl_append]
    exact ih.append

variable {o : Observation}

/-- A fact whose kind is decided by time repeats the latest facts about its
subject. -/
theorem repeats_latest (repeated : repeats l o = true)
    (timed : o.kind ≠ .signer ∧ o.kind ≠ .bundle) :
    (∃ old ∈ l, sameSubject old o = true ∧ identical old o = true ∧
      ∀ x ∈ l, sameSubject x o = true → x.elapsed ≤ old.elapsed) ∧
    ∀ old ∈ l, sameSubject old o = true →
      (∀ x ∈ l, sameSubject x o = true → x.elapsed ≤ old.elapsed) → identical old o = true := by
  unfold repeats at repeated
  simp only [timed.1, timed.2, or_self, ↓reduceIte] at repeated
  split at repeated
  · cases repeated
  obtain ⟨most, start | ⟨⟨x, inside, same, at_⟩, agree⟩⟩ := compared_foldl o l
  · simp [start.1] at repeated
  have each := agree.mp repeated
  refine ⟨⟨x, inside, same, each x inside same at_, fun y inside' same' => ?_⟩, ?_⟩
  · rw [at_]
    exact most y inside' same'
  intro old inside' same' latest
  apply each old inside' same'
  apply Int64.le_antisymm (most old inside' same')
  rw [← at_]
  exact latest x inside same

/-- A repeat stands beside an identical recorded fact about the same thing. -/
theorem repeats_some (repeated : repeats l o = true) :
    ∃ old ∈ l, sameSubject old o = true ∧ identical old o = true := by
  by_cases timed : o.kind ≠ .signer ∧ o.kind ≠ .bundle
  · obtain ⟨⟨old, inside, same, agrees, _⟩, _⟩ := repeats_latest repeated timed
    exact ⟨old, inside, same, agrees⟩
  have precedence : o.kind = .signer ∨ o.kind = .bundle := by
    by_cases signer : o.kind = .signer
    · exact .inl signer
    · exact .inr (by simpa [signer] using timed)
  unfold repeats at repeated
  split at repeated
  · cases repeated
  · simpa [precedence] using repeated

theorem repeats_kind (repeated : repeats l o = true) :
    o.kind ≠ .user ∧ o.kind ≠ .health := by
  unfold repeats at repeated
  split at repeated
  · cases repeated
  · rename_i others
    exact not_or.mp others

theorem record_subset {l seen : List Observation} (among : o ∈ record l seen) :
    o ∈ seen := by
  induction seen generalizing l with
  | nil => simp [record] at among
  | cons first rest ih =>
    unfold record at among
    split at among
    · exact mem_cons_of_mem _ (ih among)
    · rcases mem_cons.mp among with rfl | among
      · exact mem_cons_self
      · exact mem_cons_of_mem _ (ih among)

/-- Every fact seen is recorded, or repeats a recorded one. -/
theorem record_covers {l seen : List Observation} (among : o ∈ seen) :
    o ∈ record l seen ∨
      ∃ old ∈ l ++ record l seen, sameSubject old o = true ∧ identical old o = true := by
  induction seen generalizing l with
  | nil => cases among
  | cons first rest ih =>
    unfold record
    split
    · rename_i repeated
      rcases mem_cons.mp among with rfl | among
      · obtain ⟨old, inside, same, agrees⟩ := repeats_some repeated
        exact .inr ⟨old, mem_append_left _ inside, same, agrees⟩
      · exact ih among
    · rcases mem_cons.mp among with rfl | among
      · exact .inl mem_cons_self
      · rcases ih (l := l ++ [first]) among with inside | ⟨old, inside, same, agrees⟩
        · exact .inl (mem_cons_of_mem _ inside)
        · exact .inr ⟨old, by simpa using inside, same, agrees⟩

end Andrix.Deployment
