import Mathlib.Data.List.Dedup
import Andrix.Deployment.HealthWindow

/-! What the window records of a crash. The loop over the facts marks a user
who crashed, but its result is taken only when it names at most `maxUsers`
users. With one more user in the window the step keeps the old outcomes, and
the crash is not among them. -/
namespace Andrix.Deployment
open Andrix.Lib List

/-! ## Which users the loop ends with -/

/-- The user whom a fact adds to the window: one seen running or probed there. -/
def seenUser (boot : Text) (since : Int64) (o : Observation) : Option (Int32 × Int64) :=
  if o.user = noUser ∨ o.boot ≠ boot ∨ o.elapsed < since then none
  else if seenOutcome o = some .observing ∨ seenOutcome o = some .unhealthy then
    some (o.user, o.serial)
  else none

variable {key : Int32 × Int64} {l : List Health}

theorem mem_map_setLast {p : Health → Bool} {x : Health}
    (same : ∀ h ∈ l, p h = true → h.key = x.key) :
    key ∈ (setLast p x l).map Health.key ↔ key ∈ l.map Health.key := by
  rw [setLast_keys same]

variable {o : Observation}

variable {since : Int64} {result : List Health} {boot : Text}

theorem observeUser_keys :
    key ∈ (observeUser boot since result o).map Health.key ↔
      key ∈ result.map Health.key ∨ seenUser boot since o = some key := by
  by_cases named : o.user = noUser
  · simp [observeUser, seenUser, named]
  by_cases outside : o.boot ≠ boot ∨ o.elapsed < since
  · simp [observeUser, seenUser, named, outside]
  cases found : seenOutcome o with
  | none => simp [observeUser, seenUser, named, outside, found]
  | some seen =>
    have matched : ∀ h ∈ result, (h.user = o.user && h.serial = o.serial) = true →
        h.key = (⟨⟨o.user, o.serial, seen⟩, o.health_valid named⟩ : Health).key := by
      intro h _ same
      simpa [Health.key] using same
    have adds : seenUser boot since o = some key ↔ seen ≠ .removed ∧ (o.user, o.serial) = key := by
      rcases seenOutcome_cases found with rfl | rfl | rfl <;>
        simp [seenUser, named, outside, found]
    rw [adds]
    simp only [observeUser, named, outside, found, dite_false, if_false]
    cases known : TicketMachine.outcomeOf o.user o.serial result with
    | none =>
      by_cases removed : seen = .removed
      · simp [removed]
      · simp [removed, Health.key, eq_comm]
    | some outcome =>
      have among : (o.user, o.serial) ∈ result.map Health.key := by
        by_contra absent
        rw [outcomeOf_eq_none.mpr absent] at known
        cases known
      have unchanged : key ∈ result.map Health.key ↔
          key ∈ result.map Health.key ∨ (seen ≠ .removed ∧ (o.user, o.serial) = key) := by
        refine ⟨.inl, ?_⟩
        rintro (present | ⟨-, rfl⟩)
        · exact present
        · exact among
      dsimp only
      split
      · rw [mem_map_setLast matched]
        exact unchanged
      · exact unchanged

theorem observed_keys {facts : List Observation}
    {current : List Health} :
    key ∈ (facts.foldl (observeUser boot since) current).map Health.key ↔
      key ∈ current.map Health.key ++ facts.filterMap (seenUser boot since) := by
  induction facts generalizing current with
  | nil => simp
  | cons o rest ih =>
    rw [foldl_cons, ih, mem_append, observeUser_keys, mem_append,
      filterMap_cons]
    cases seenUser boot since o with
    | none => simp
    | some user =>
      simp only [mem_cons, Option.some.injEq]
      tauto

/-- The users of the window: those in the ticket and those its boot's facts
show since it began. -/
def windowUserKeys (c : Context) : List (Int32 × Int64) :=
  (c.ticket.health.map Health.key ++
    c.view.facts.filterMap (seenUser c.view.boot c.ticket.windowStart)).dedup

theorem observed_length (c : Context) : (c.view.facts.foldl
      (observeUser c.view.boot c.ticket.windowStart) c.ticket.health).length =
    (windowUserKeys c).length := by
  have unique := (observe_progress c.view.boot c.ticket.windowStart c.view.facts
    (unique_of_ordered c.ticket.rules.health.2)).unique
  rw [← length_map (f := Health.key)]
  apply List.Perm.length_eq
  apply (perm_ext_iff_of_nodup unique (nodup_dedup _)).mpr
  intro key
  rw [observed_keys]
  exact mem_dedup.symm

/-! ## What the loop says of a crash -/

/-- The fact shows, in the boot and since the window began, that the user was
removed or crashed. -/
def fails (boot : Text) (since : Int64) (h : Health) (o : Observation) : Bool :=
  o.user = h.user && o.serial = h.serial && o.boot = boot && since ≤ o.elapsed &&
    ((o.kind = .user && o.classification = .userRemoved) || o.classification = .healthCrash)

/-- The user's first removal or crash in the window is a crash. -/
def crashed (c : Context) (h : Health) : Bool :=
  (c.view.facts.find? (fails c.view.boot c.ticket.windowStart h)).any
    (fun o => o.classification = .healthCrash)

theorem outcomeOf_mem {user : Int32} {serial : Int64} {k : Outcome}
    (unique : (l.map Health.key).Nodup) : TicketMachine.outcomeOf user serial l = some k ↔
      ∃ h ∈ l, h.key = (user, serial) ∧ h.outcome = k := by
  constructor
  · intro known
    obtain ⟨h, among, user_, serial_, outcome⟩ := mem_of_outcomeOf known
    exact ⟨h, among, by rw [Health.key, user_, serial_], outcome⟩
  · rintro ⟨h, among, key, rfl⟩
    obtain ⟨user_, serial_⟩ := Prod.mk.inj key
    exact outcomeOf_eq_some unique among user_ serial_

theorem seenOutcome_eq_observing
    (calm : ¬ (o.kind = .user ∧ o.classification = .userRemoved))
    (crash : ¬ o.classification = .healthCrash) {seen : Outcome} (found : seenOutcome o = some seen) :
    seen = .observing := by
  simp only [seenOutcome, calm, crash, if_false] at found
  split at found
  · exact (Option.some.inj found).symm
  · cases found

theorem Health.user_ne_noUser (h : Health) : h.user ≠ noUser := by
  have valid := h.valid
  simp only [Health.Fields.validate, invalid_eq_ok, not_or] at valid
  intro none_
  exact valid.1 (by rw [none_]; decide)

/-- Replacing the last match leaves the replacement where there is a match. -/
theorem setLast_mem {p : Health → Bool} {x : Health} (matched : l.any p = true) :
    x ∈ setLast p x l := by
  induction l with
  | nil => cases matched
  | cons h rest ih =>
    unfold setLast
    split
    · exact mem_cons_of_mem _ (ih ‹_›)
    · rename_i none_
      have head : p h = true := by simpa [none_] using matched
      simp [head]

variable {h : Health}

/-- A fact that shows no failure of the user leaves the user observed. -/
theorem observeUser_calm
    (among : h ∈ result) (calm : fails boot since h o = false) :
    h ∈ observeUser boot since result o := by
  unfold observeUser
  split
  · exact among
  split
  · exact among
  rename_i inside
  split
  · exact among
  rename_i seen found
  dsimp only
  split
  · split
    · exact among
    · exact mem_append_left _ among
  rename_i known outcome
  split
  · rename_i changes
    refine (mem_setLast among).resolve_right ?_
    rintro ⟨same, -⟩
    simp only [Bool.and_eq_true, decide_eq_true_eq] at same
    simp only [not_or, not_not, Int64.not_lt] at inside
    simp only [fails, same, inside, decide_true, Bool.true_and, Bool.or_eq_false_iff,
      Bool.and_eq_false_iff, decide_eq_false_iff_not] at calm
    exact changes.2 (seenOutcome_eq_observing (not_and_or.mpr calm.1) calm.2 found)
  · exact among

theorem observeUser_crash
    (unique : (result.map Health.key).Nodup) (among : h ∈ result)
    (open_ : h.outcome = .observing) (failing : fails boot since h o = true)
    (crash : o.classification = .healthCrash) :
    h.withOutcome .unhealthy ∈ observeUser boot since result o := by
  simp only [fails, Bool.and_eq_true, decide_eq_true_eq] at failing
  obtain ⟨⟨⟨⟨user, serial⟩, boot_⟩, since_⟩, -⟩ := failing
  have named : o.user ≠ noUser := by
    rw [user]
    exact h.user_ne_noUser
  have inside : ¬ (o.boot ≠ boot ∨ o.elapsed < since) := by
    rintro (other | early)
    · exact other boot_
    · exact absurd since_ (Int64.not_le.mpr early)
  have found : seenOutcome o = some .unhealthy := by
    simp [seenOutcome, crash]
  have known : TicketMachine.outcomeOf o.user o.serial result = some .observing := by
    rw [outcomeOf_eq_some unique among user.symm serial.symm, open_]
  simp only [observeUser, named, inside, found, known, dite_false, if_false]
  have marked : (⟨⟨o.user, o.serial, .unhealthy⟩, o.health_valid named⟩ : Health) =
      h.withOutcome .unhealthy := by
    simp only [Health.withOutcome, user, serial]
  rw [if_pos ⟨trivial, by decide⟩, ← marked]
  exact setLast_mem (any_eq_true.mpr ⟨h, among, by simp [user, serial]⟩)

/-- A user whose first failure is a crash ends the loop UNHEALTHY: observed until
the crash, and final from there on. -/
theorem observe_crash {facts : List Observation}
    {current : List Health} (unique : (current.map Health.key).Nodup)
    (among : h ∈ current) (open_ : h.outcome = .observing)
    (crash : (facts.find? (fails boot since h)).any (fun o => o.classification = .healthCrash)) :
    ∃ now ∈ facts.foldl (observeUser boot since) current,
      now.key = h.key ∧ now.outcome = .unhealthy := by
  induction facts generalizing current with
  | nil => cases crash
  | cons o rest ih =>
    have progress := observeUser_progress boot since o unique
    rw [foldl_cons]
    by_cases failing : fails boot since h o = true
    · rw [List.find?_cons_of_pos failing, Option.any_some, decide_eq_true_eq] at crash
      have marked := observeUser_crash unique among open_ failing crash
      obtain ⟨now, among', key, final⟩ :=
        (observe_progress boot since rest progress.unique).kept _ marked
      exact ⟨now, among', key, final (by simp [Health.withOutcome])⟩
    · rw [List.find?_cons_of_neg failing] at crash
      exact ih progress.unique (observeUser_calm among (Bool.eq_false_iff.mpr failing)) crash

/-! ## The step -/

/-- A context of the window's own boot in which no closing rule fires before the
users are observed: the image is the plan's, no other bytes are active and no
repair plan takes over. -/
structure ObservesUsers (c : Context) : Prop where
  state : c.ticket.state = .healthWindow
  clock : ∃ now, c.now = some now ∧ now.boot = c.ticket.windowBoot
  image : cohortChanged c = false
  bytes : ∀ active ∈ c.view.latest .active, some active.digest = bundleApk c
  repair : takesOver c = none

/-- The step reaches the window's rule: the boot is observed, and the plan's
publication is read and binds the APK. -/
def reachesRule (c : Context) : Bool := !unobserved c && (bundleApk c).isSome

/-- The outcomes that the rule of an open window leaves: those observed, or
those with the users still observed judged or finished. -/
inductive Leaves (c : Context) (outcomes : List Health) : List Health → Prop
  | observed : Leaves c outcomes outcomes
  | judged : Leaves c outcomes (judge c outcomes)
  | finished : Leaves c outcomes (finish outcomes .inconclusive)

variable {c : Context}

theorem closeTo_health {b : Ticket.Builder} {state : State} {why : String} {d : Draft}
    (ran : closeTo c b state why = .ok d) : d.builder.health = b.health := by
  unfold closeTo at ran
  split at ran <;> cases ran <;> rfl

theorem windowUsers_leaves {now : Clock} {b : Ticket.Builder} {d : Draft}
    (ran : windowUsers c now b = .ok d) :
    Leaves c (observeUsers c b.health c.ticket.windowStart) d.builder.health := by
  dsimp only [windowUsers] at ran
  split at ran
  · rw [closeTo_health ran]
    exact .finished
  split at ran
  · rw [closeTo_health ran]
    exact .judged
  · cases ran
    exact .observed

theorem ObservesUsers.rule_eq (observes : ObservesUsers c) (b : Ticket.Builder)
    (newBoot : Bool) : ∃ now, rule c b newBoot = windowUsers c now b := by
  obtain ⟨now, clock, boot⟩ := observes.clock
  have agree : (c.view.latest .active).any (fun active => ¬ some active.digest = bundleApk c) = false := by
    cases latest : c.view.latest .active with
    | none => rfl
    | some active => simpa using observes.bytes active latest
  refine ⟨now, ?_⟩
  simp only [rule, observes.state, window, clock, observes.image, Bool.false_eq_true, if_false, boot, ne_eq,
    not_true_eq_false, agree, observes.repair]

theorem ObservesUsers.holding_eq (observes : ObservesUsers c) :
    holding c = (bundleApk c).isNone := by
  have judges : judgesBytes State.healthWindow = true := rfl
  simp only [holding, unbound, observes.state, judges, Bool.or_true, Bool.and_true]
  cases bundleApk c <;> simp only [reduceCtorEq, decide_false, decide_true] <;> rfl

/-- What a step leaves of the outcomes in such a context. -/
theorem ObservesUsers.health {s : Step} (observes : ObservesUsers c)
    (ran : step c = .ok s) :
    (reachesRule c = false ∧ s.ticket.health = c.ticket.health) ∨ (reachesRule c = true ∧
      Leaves c (observeUsers c c.ticket.health c.ticket.windowStart) s.ticket.health) := by
  have state := observes.state
  cases step_inv ran with
  | same unchanged same =>
    refine .inl ⟨?_, by rw [same]⟩
    rcases unchanged with terminal | unseen
    · rw [state] at terminal
      cases terminal
    · simp [reachesRule, unseen]
  | held _ _ held built =>
    rw [observes.holding_eq, Option.isNone_iff_eq_none] at held
    exact .inl ⟨by simp [reachesRule, held], by rw [built]; rfl⟩
  | turned _ seen acts ruled _ _ taken =>
    rw [observes.holding_eq] at acts
    refine .inr ⟨by cases apk : bundleApk c <;> simp_all [reachesRule], ?_⟩
    obtain ⟨now, rule_⟩ := observes.rule_eq (starting c) (isNewBoot c)
    rw [rule_] at ruled
    have same : (starting c).health = c.ticket.health := rfl
    have left := windowUsers_leaves ruled
    rw [same] at left
    rw [taken.built]
    exact left

theorem judgeUser_ne_unhealthy (c : Context) (h : Health) : judgeUser c h ≠ .unhealthy := by
  dsimp only [judgeUser]
  repeat' split
  all_goals decide

/-- The unhealthy stay so, and whoever ends UNHEALTHY was so observed. -/
theorem Leaves.unhealthy {outcomes after : List Health} (left : Leaves c outcomes after)
    : (∃ now ∈ after, now.key = key ∧ now.outcome = .unhealthy) ↔
      ∃ now ∈ outcomes, now.key = key ∧ now.outcome = .unhealthy := by
  have closing {f : Health → Outcome} (calm : ∀ h, f h ≠ .unhealthy) :
      (∃ now ∈ outcomes.map (fun h => if h.outcome = .observing then h.withOutcome (f h) else h),
        now.key = key ∧ now.outcome = .unhealthy) ↔
      ∃ now ∈ outcomes, now.key = key ∧ now.outcome = .unhealthy := by
    constructor
    · rintro ⟨_, among, key_, outcome⟩
      obtain ⟨h, known, rfl⟩ := mem_map.mp among
      split at outcome
      · exact absurd outcome (calm h)
      · rw [if_neg ‹_›] at key_
        exact ⟨h, known, key_, outcome⟩
    · rintro ⟨h, among, key_, outcome⟩
      have final : h.outcome ≠ .observing := by simp [outcome]
      exact ⟨h, mem_map.mpr ⟨h, among, if_neg final⟩, key_, outcome⟩
  cases left with
  | observed => rfl
  | judged => exact closing (judgeUser_ne_unhealthy c)
  | finished => exact closing (fun _ => by decide)

theorem Leaves.advances {outcomes after : List Health} (left : Leaves c outcomes after)
    (ordered : outcomes.Pairwise Health.before) (bounded : outcomes.length ≤ maxUsers) :
    Advances outcomes after := by
  cases left with
  | observed => exact .refl ordered bounded
  | judged => exact judge_advances c ordered bounded
  | finished => exact finish_advances _ ordered bounded

/-- The loop's result is taken exactly when the window's users fit a ticket. -/
theorem observeUsers_eq (c : Context) :
    ∃ seen, seen.Perm (c.view.facts.foldl (observeUser c.view.boot c.ticket.windowStart)
        c.ticket.health) ∧
      observeUsers c c.ticket.health c.ticket.windowStart =
        if (windowUserKeys c).length ≤ maxUsers then seen else c.ticket.health := by
  refine ⟨_, perm_insertionSort healthOrder _, ?_⟩
  simp only [observeUsers, (perm_insertionSort healthOrder _).length_eq, observed_length]
  split <;> rename_i bound
  · rw [if_neg (Nat.not_le.mpr bound)]
  · rw [if_pos (Nat.not_lt.mp bound)]

def recordsCrash (t : Ticket) (h : Health) : Bool :=
  TicketMachine.outcomeOf h.user h.serial t.health = some .unhealthy

/-- The outcomes that a step leaves, and the users whose crash they record. -/
theorem ObservesUsers.records {s : Step} (observes : ObservesUsers c)
    (ran : step c = .ok s) :
    Advances c.ticket.health s.ticket.health ∧
      ∀ h ∈ c.ticket.health, h.outcome = .observing → crashed c h = true →
        (recordsCrash s.ticket h = true ↔
          reachesRule c = true ∧ (windowUserKeys c).length ≤ maxUsers) := by
  have ordered := c.ticket.rules.health.2
  have bounded := c.ticket.rules.healthCount
  have unique := unique_of_ordered ordered
  have seen := observeUsers_advances c c.ticket.windowStart ordered bounded
  simp only [recordsCrash, decide_eq_true_eq]
  -- Without the rule, and beyond the bound, the user keeps the outcome OBSERVING.
  have still {h : Health} (among : h ∈ c.ticket.health) (open_ : h.outcome = .observing) :
      ¬ ∃ now ∈ c.ticket.health, now.key = h.key ∧ now.outcome = .unhealthy := by
    rintro ⟨now, among', key, outcome⟩
    rw [inj_on_of_nodup_map unique among' among key, open_] at outcome
    cases outcome
  rcases observes.health ran with ⟨stays, same⟩ | ⟨reaches, left⟩
  · rw [same]
    refine ⟨.refl ordered bounded, fun h among open_ _ => ?_⟩
    rw [outcomeOf_mem unique, stays]
    exact ⟨fun marked => absurd marked (still among open_), fun never => by cases never.1⟩
  have advances := seen.trans (left.advances seen.ordered seen.bounded)
  refine ⟨advances, fun h among open_ crash => ?_⟩
  rw [outcomeOf_mem advances.progress.unique]
  refine left.unhealthy.trans ?_
  obtain ⟨loop, same, taken⟩ := observeUsers_eq c
  rw [taken, reaches]
  split
  · rename_i fits
    obtain ⟨now, among', marked⟩ := observe_crash unique among open_ crash
    exact ⟨fun _ => ⟨rfl, fits⟩, fun _ => ⟨now, same.mem_iff.mpr among', marked⟩⟩
  · rename_i many
    exact ⟨fun marked => absurd marked (still among open_), fun both => absurd both.2 many⟩

/-- **A crash in the window is recorded exactly when the step reaches the
window's rule and the window has at most `maxUsers` users. In any case no user
disappears, final outcomes stay and the list keeps its order and bound. A
reachable ticket's step returns unless a superseding closing has to wait for
the checkpoint or an owed move cannot be made.** -/
theorem crash_recorded_iff {c : Context} (observes : ObservesUsers c) :
    (∀ s, step c = .ok s → Advances c.ticket.health s.ticket.health ∧
      ∀ h ∈ c.ticket.health, h.outcome = .observing → crashed c h = true →
        (recordsCrash s.ticket h = true ↔
          reachesRule c = true ∧ (windowUserKeys c).length ≤ maxUsers)) ∧
    ∀ stored, Reachable stored c.ticket → c.Sound stored →
      ((∃ s, step c = .ok s) ↔ ¬ SupersedingWaits c ∧ ¬ MoveBlocked c) :=
  ⟨fun _ ran => observes.records ran, fun _ reachable sound =>
    reachable_step_returns reachable sound⟩

/-! ## A crowded window

The first user is observed, and then crashes. Other users are seen running
in the same window. -/

private def seenFact (classification : Classification) (user : Int32) (elapsed : Int64) :
    Observation.Builder :=
  inBoot 'e' { sampleFact classification elapsed with user := user, serial := 0 }

/-- So many further users running in the window. -/
def crowd (others : Nat) : List Observation :=
  (List.range others).filterMap (fun n =>
    (seenFact .runningUnlocked (Int32.ofNat (n + 1)) 42).build.toOption)

private def crashFact : Observation :=
  ⟨{ seenFact .healthCrash 0 45 with component := sampleComponent, number := 1 }, by decide +kernel⟩

private def runningFact : Observation := ⟨seenFact .runningUnlocked 0 35, by decide +kernel⟩

def observedTicket : Ticket :=
  ({ sampleSetting with facts := sampleFacts ++ [runningFact] }.after
    windowTicket (.step (sampleClock 'e' 40) (sampleId 'c'))).get (by decide +kernel)

private theorem observedTicket_plan : observedTicket.planId = samplePlan.planId := by
  decide +kernel

/-- That user's crash, with so many other users in the window. -/
def crashContext (others : Nat) : Context :=
  { sampleSetting with facts := sampleFacts ++ crowd others ++ [crashFact] }.context
    observedTicket observedTicket_plan (sampleClock 'e' 60) (sampleId 'c')

private def firstUser : Health := ⟨⟨0, 0, .observing⟩, by decide +kernel⟩

/-- The step observes the users, and the first of them crashed while observed. -/
def showsCrash (c : Context) : Bool :=
  c.ticket.state = .healthWindow && c.now.any (fun now => now.boot = c.ticket.windowBoot) &&
    !cohortChanged c && (c.view.latest .active).all (fun active => some active.digest = bundleApk c) &&
    (takesOver c).isNone && firstUser ∈ c.ticket.health && crashed c firstUser

private theorem showsCrash_observes (shows_ : showsCrash c = true) :
    ObservesUsers c ∧ firstUser ∈ c.ticket.health ∧ crashed c firstUser = true := by
  simp only [showsCrash, Bool.and_eq_true, decide_eq_true_eq, Bool.not_eq_true',
    Option.isNone_iff_eq_none] at shows_
  obtain ⟨⟨⟨⟨⟨⟨state, clock⟩, image⟩, bytes⟩, repair⟩, among⟩, crash⟩ := shows_
  refine ⟨⟨state, ?_, image, fun active latest => ?_, repair⟩, among, crash⟩
  · simpa only [Option.any_eq_true, decide_eq_true_eq] using clock
  · rw [Option.mem_def.mp latest] at bytes
    exact of_decide_eq_true bytes

private theorem returned_of_any {p : Step → Bool}
    (returned : (step c).toOption.any p = true) : ∃ s, step c = .ok s ∧ p s = true := by
  simpa only [Option.any_eq_true, toOption_eq_some] using returned

/-- With two other users the crash is recorded. -/
theorem crash_recorded_in_company : ∃ s, step (crashContext 2) = .ok s ∧
    recordsCrash s.ticket firstUser = true := by
  have evaluated : showsCrash (crashContext 2) = true ∧ reachesRule (crashContext 2) = true ∧
      (windowUserKeys (crashContext 2)).length ≤ maxUsers ∧
      (step (crashContext 2)).toOption.any (fun _ => true) = true := by
    decide +kernel
  obtain ⟨shows_, reaches, fits, returned⟩ := evaluated
  obtain ⟨observes, among, crash⟩ := showsCrash_observes shows_
  obtain ⟨s, ran, -⟩ := returned_of_any returned
  exact ⟨s, ran, (((crash_recorded_iff observes).1 s ran).2 _ among rfl crash).mpr ⟨reaches, fits⟩⟩

/-- With 64 other users it is lost: the first user stays OBSERVING, and none of
the others gets an outcome. -/
theorem crash_lost_in_a_crowd : ObservesUsers (crashContext 64) ∧
    firstUser ∈ (crashContext 64).ticket.health ∧ firstUser.outcome = .observing ∧
    crashed (crashContext 64) firstUser = true ∧
    ∃ s, step (crashContext 64) = .ok s ∧ s.ticket.state = .healthWindow ∧
      s.ticket.health = [firstUser] := by
  have evaluated : showsCrash (crashContext 64) = true ∧ (step (crashContext 64)).toOption.any
      (fun s => s.ticket.state = .healthWindow ∧ s.ticket.health = [firstUser]) = true := by
    decide +kernel
  obtain ⟨shows_, returned⟩ := evaluated
  obtain ⟨observes, among, crash⟩ := showsCrash_observes shows_
  obtain ⟨s, ran, left⟩ := returned_of_any returned
  exact ⟨observes, among, rfl, crash, s, ran, of_decide_eq_true left⟩

end Andrix.Deployment
