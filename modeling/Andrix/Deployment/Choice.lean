import Andrix.Deployment.Runs

/-! The owner's choice. A selection is written by the cohort check, which keeps
its choice, and by the step of an applied plan, which moves the choice to that
plan at the revision it expects. The store applies rules of its own to both. They
accept every selection that either returns, but for one that a plan moves to
itself: a first selection may name a plan that expects revision 0, and the move
that this plan owes then changes nothing but the revision. -/
namespace Andrix.Deployment
open Andrix.Lib Andrix.Deployment.Action

/-! ## Selections that keep the choice -/

/-- A selection of the same choice, revision and component. -/
structure Keeps (x y : Selection) : Prop where
  installation : y.installation = x.installation
  component : y.component = x.component
  revision : y.revision = x.revision
  choice : Store.sameChoice x y = true
  changedAt : y.changedAt = x.changedAt

theorem Keeps.refl (x : Selection) : Keeps x x :=
  ⟨rfl, rfl, rfl, by simp [Store.sameChoice], rfl⟩

variable {x y : Selection}

theorem sameChoice_iff : Store.sameChoice x y = true ↔ x.choice = y.choice ∧
    x.planId = y.planId ∧ x.responsibility = y.responsibility ∧
    x.rebuildWindowMillis = y.rebuildWindowMillis := by
  simp [Store.sameChoice, and_assoc]

theorem realized_keeps {s next : Selection} {status : Realization} {boot repair standIn : Text}
    (realized : s.realized status boot repair standIn = .ok next) :
    Keeps s next ∧ next.temporary = standIn := by
  rw [Selection.realized, Selection.make_eq_ok] at realized
  refine ⟨⟨?_, ?_, ?_, sameChoice_iff.mpr ⟨?_, ?_, ?_, ?_⟩, ?_⟩, ?_⟩ <;> rw [realized]

variable {view : View}

theorem planRealization_standIn {s : Selection} {chosen temporary : Option Plan}
    {boot active factory : Observation} {status : Realization} {standIn : Text}
    (found : planRealization s chosen temporary view boot active factory = some (status, standIn)) :
    standIn = noId ∨ standIn = s.temporary := by
  simp only [planRealization, Option.bind_eq_bind, Option.bind_eq_some_iff] at found
  obtain ⟨plan, _, found⟩ := found
  by_cases other : plan.planId ≠ s.planId
  · simp [other] at found
  rw [if_neg other, Option.bind_eq_some_iff] at found
  obtain ⟨chosenApk, _, found⟩ := found
  split at found <;>
    obtain ⟨temporaryApk, _, found⟩ := Option.bind_eq_some_iff.mp found <;>
    repeat' split at found
  all_goals
    simp only [Option.some.injEq, Prod.mk.injEq] at found
    obtain ⟨_, rfl⟩ := found
    simp

/-- The cohort check keeps the choice and names no new stand in. -/
theorem cohortCheck_keeps {s next : Selection} {chosen temporary : Option Plan}
    {opened : Option (Ticket × Plan)}
    (checked : cohortCheck s chosen temporary view opened = .ok next) :
    Keeps s next ∧ (next.temporary = noId ∨ next.temporary = s.temporary) := by
  have same {next : Selection} (unchanged : (.ok s : Checked Selection) = .ok next) :
      Keeps s next ∧ (next.temporary = noId ∨ next.temporary = s.temporary) := by
    cases unchanged
    exact ⟨.refl s, .inr rfl⟩
  unfold cohortCheck at checked
  split at checked
  · rename_i boot active factory _ _ _
    split at checked
    · exact same checked
    dsimp only at checked
    split at checked
    · exact same checked
    rename_i status standIn found
    obtain ⟨keeps, temporary⟩ := realized_keeps checked
    rw [temporary]
    refine ⟨keeps, ?_⟩
    split at found
    · simp only [Option.some.injEq, Prod.mk.injEq] at found
      exact .inl found.2.symm
    · exact planRealization_standIn found
  · exact same checked

variable {store : Store}

theorem checkedSelection_keeps {current next : Selection}
    (checked : checkedSelection store current view = some next) :
    Keeps current next ∧ (next.temporary = noId ∨ next.temporary = current.temporary) := by
  have ok {x : Checked Selection} (found : x.toOption = some next) : x = .ok next := by
    cases x with
    | error => cases found
    | ok value => exact congrArg _ (Option.some.inj found)
  unfold checkedSelection at checked
  dsimp only at checked
  split at checked
  · exact cohortCheck_keeps (ok checked)
  · cases checked
    exact ⟨.refl _, .inr rfl⟩
  · exact cohortCheck_keeps (ok checked)

/-! ## The move -/

/-- The move of an applied plan: at the revision it expects, a TEMPORARY_FACTORY
plan becomes the stand in of the plan it repairs, and any other plan becomes the
choice at the next revision. -/
inductive MovesTo (c : Context) (next : Selection) : Prop
  | standsIn : c.plan.target = .temporaryFactory → c.selection.choice = .plan →
    c.selection.planId = c.plan.repairs → Keeps c.selection next →
    next.temporary = c.plan.planId → MovesTo c next
  | chooses : c.plan.target ≠ .temporaryFactory → next.installation = c.selection.installation →
    next.component = c.selection.component → next.revision = c.selection.revision + 1 →
    next.choice = .plan → next.planId = c.plan.planId →
    next.responsibility = c.selection.responsibility →
    next.rebuildWindowMillis = c.selection.rebuildWindowMillis → next.temporary = noId →
    MovesTo c next

variable {c : Context}

theorem move_inv {cause : Cause} {next : Selection}
    (moved : move c cause = .ok (some next)) :
    cause = .none ∧ c.selection.revision = c.plan.selectionRevision ∧ MovesTo c next := by
  dsimp only [move] at moved
  split at moved
  · cases moved
  split at moved
  · cases moved
  rename_i free
  simp only [ne_eq, not_or, not_not] at free
  refine ⟨free.1, free.2, ?_⟩
  split at moved
  · rename_i temporary
    split at moved
    · cases moved
    rename_i chosen
    simp only [ne_eq, not_or, not_not] at chosen
    split at moved
    · cases moved
    simp only [bind_eq_ok, pure_eq_ok] at moved
    obtain ⟨stood, realized, same⟩ := moved
    split at same
    · cases same
    · cases same
      obtain ⟨keeps, standIn⟩ := realized_keeps realized
      exact .standsIn temporary chosen.1 chosen.2 keeps standIn
  · rename_i owned
    simp only [bind_eq_ok, Selection.chosen, Selection.make_eq_ok] at moved
    obtain ⟨chosen, made, checked⟩ := moved
    cases result : cohortCheck chosen (some c.plan) none c.view none with
    | error => simp [result] at checked
    | ok checkedNext =>
      simp only [result, Except.map_ok, Except.ok.injEq, Option.some.injEq] at checked
      subst checked
      obtain ⟨keeps, temporary⟩ := cohortCheck_keeps result
      obtain ⟨choice, plan, responsibility, window⟩ := sameChoice_iff.mp keeps.choice
      rw [made] at choice plan responsibility window temporary
      refine .chooses owned ?_ ?_ ?_ choice.symm plan.symm responsibility.symm window.symm ?_
      · rw [keeps.installation, made]
      · rw [keeps.component, made]
      · rw [keeps.revision, made]
      · exact temporary.elim id id

/-- The states in which an applied plan moves the choice. -/
def Owes (c : Context) : Prop :=
  (c.ticket.state = .appliedProvisional ∧ appliedFacts c = true) ∨ c.ticket.state = .applied ∨
    c.ticket.state = .healthWindow

/-- The selection that a step returns is its plan's move, owed without a recorded
cause. -/
theorem step_moves {s : Step} {next : Selection} (ran : step c = .ok s)
    (selected : s.selection = some next) : c.ticket.cause = .none ∧ Owes c ∧
      c.selection.revision = c.plan.selectionRevision ∧ MovesTo c next := by
  cases step_inv ran with
  | same _ _ _ none_ | held _ _ _ _ _ _ none_ => simp [none_] at selected
  | @turned d owed _ _ _ _ turn owing taken =>
    rw [taken.selection] at selected
    cases owed with
    | some move_ =>
      obtain rfl : move_ = next := by simpa using selected
      unfold owedMove at owing
      split at owing
      · rename_i window
        obtain ⟨cause, revision, moves⟩ := move_inv owing
        exact ⟨cause, .inr (.inr window), revision, moves⟩
      · cases owing
    | none =>
      have drawn : d.selection = some next := by simpa using selected
      cases turn with
      | applies state _ _ facts moved _ _ selection =>
        rw [selection] at drawn
        subst drawn
        obtain ⟨cause, revision, moves⟩ := move_inv moved
        rw [starting_cause, maxCause_eq_none] at cause
        exact ⟨cause.1, .inl ⟨state, facts⟩, revision, moves⟩
      | opensWindow state _ moved _ _ selection =>
        rw [selection] at drawn
        subst drawn
        obtain ⟨cause, revision, moves⟩ := move_inv moved
        exact ⟨cause, .inr (.inl state), revision, moves⟩
      | stays _ _ _ _ _ none_ | moves _ _ _ _ none_ | binds _ _ _ _ _ _ none_
      | crosses _ _ _ none_ | closes _ _ _ _ none_ | idles _ _ _ none_
      | restarts _ _ _ _ _ _ _ none_ | observes _ _ _ _ _ _ none_
      | windowWaits _ _ _ _ _ _ _ none_ | windowCloses _ _ _ _ _ _ none_ =>
        simp [none_] at drawn

/-! ## What the store accepts -/

/-- A selection that already names a plan at the revision the plan expects. -/
def Named (x : Selection) (p : Plan) : Prop :=
  x.choice = .plan ∧ x.planId = p.planId ∧ x.revision = p.selectionRevision

theorem follows_iff {s : Store} : s.follows x y = true ↔
    y.installation = s.installation ∧ x.component = y.component ∧
    x.installation = y.installation ∧ (y.temporary = noId ∨ s.standsIn y = true) ∧
    ((y.revision = x.revision ∧ Store.sameChoice x y = true ∧ x.changedAt = y.changedAt) ∨
      (y.revision ≠ x.revision ∧ y.revision = x.revision + 1 ∧ Store.sameChoice x y = false ∧
        (y.choice ≠ .plan ∨ ∃ p, s.plan y.planId = some p ∧ p.component = y.component))) := by
  simp only [Store.follows, Bool.and_eq_true, Bool.or_eq_true, decide_eq_true_eq, and_assoc]
  by_cases same : y.revision = x.revision
  · simp [same]
  · simp [same, Option.any_eq_true, and_assoc]

theorem standsIn_congr {s : Store} (temporary : y.temporary = x.temporary)
    (component : y.component = x.component) (plan : y.planId = x.planId) :
    s.standsIn y = s.standsIn x := by
  simp only [Store.standsIn, temporary, component, plan]

theorem Keeps.follows {s : Store} (keeps : Keeps x y)
    (installation : x.installation = s.installation)
    (standIn : y.temporary = noId ∨ s.standsIn y = true) : s.follows x y = true :=
  follows_iff.mpr ⟨keeps.installation.trans installation, keeps.component.symm,
    keeps.installation.symm, standIn, .inl ⟨keeps.revision, keeps.choice, keeps.changedAt.symm⟩⟩

/-- The store accepts what the cohort check makes of a stored selection. -/
theorem checked_follows {s : Store} (sound : s.Sound)
    (stored : x ∈ s.selections) (checked : checkedSelection s x view = some y) :
    s.follows x y = true := by
  obtain ⟨keeps, temporary⟩ := checkedSelection_keeps checked
  obtain ⟨installation, standing⟩ := sound.selected x stored
  refine keeps.follows installation ?_
  rcases temporary with none_ | same
  · exact .inl none_
  · rw [same, standsIn_congr same keeps.component (sameChoice_iff.mp keeps.choice).2.1.symm]
    exact standing

theorem revision_ne_next (r : Int64) : r + 1 ≠ r := by
  intro same
  have bits : r.toBitVec + 1 = r.toBitVec := congrArg Int64.toBitVec same
  bv_omega

/-- The store accepts a plan's move exactly when the selection does not name the
plan at the revision it expects. -/
theorem MovesTo.follows_iff_not_named {s : Store} {next : Selection}
    (moves : MovesTo c next) (expected : c.selection.revision = c.plan.selectionRevision)
    (installation : c.selection.installation = s.installation)
    (component : c.selection.component = c.plan.component)
    (plan : s.plan c.plan.planId = some c.plan) :
    s.follows c.selection next = true ↔ ¬ Named c.selection c.plan := by
  cases moves with
  | standsIn target choice repairs keeps standIn =>
    have other : ¬ Named c.selection c.plan := by
      rintro ⟨_, same, _⟩
      exact c.plan.rules.repairsOther (repairs.symm.trans same)
    refine iff_of_true (keeps.follows installation (.inr ?_)) other
    have chosen := (sameChoice_iff.mp keeps.choice).2.1
    simp [Store.standsIn, standIn, plan, keeps.component, component, target, ← chosen, repairs]
  | chooses target installation' component' revision choice planId responsibility window temporary =>
    have moved : next.revision ≠ c.selection.revision := by
      rw [revision]
      exact revision_ne_next _
    have same : Store.sameChoice c.selection next = true ↔ Named c.selection c.plan := by
      rw [sameChoice_iff, choice, planId, responsibility, window]
      simp [Named, expected]
    rw [← same, Bool.not_eq_true, follows_iff]
    constructor
    · rintro ⟨_, _, _, _, ⟨kept, _⟩ | ⟨_, _, other, _⟩⟩
      · exact absurd kept moved
      · exact other
    intro other
    refine ⟨installation'.trans installation, component'.symm, installation'.symm, .inl temporary,
      .inr ⟨moved, revision, other, .inr ⟨c.plan, ?_, ?_⟩⟩⟩
    · rw [planId, plan]
    · rw [component', component]

/-! ## Writes of selections -/

variable {s s' : Store}

/-- The store's rules for a selection read its plans and installation alone. -/
theorem follows_congr (plans : s'.plans = s.plans)
    (installation : s'.installation = s.installation) (x y : Selection) :
    s'.follows x y = s.follows x y := by
  simp only [Store.follows, Store.standsIn, Store.plan, plans, installation]

theorem putSelection_isSome {s : Store} (follows : s.follows x y = true)
    (stored : s.selection y.component = some x) : (s.putSelection (some x) y).isSome = true := by
  simp [Store.putSelection, follows, stored]

theorem selection_replaced {s : Store} (stored : s.selection y.component = some x)
    (component : Text) :
    ({ s with selections := replace (·.component) y s.selections } : Store).selection component =
      if y.component = component then some y else s.selection component := by
  obtain ⟨present, named⟩ := Store.selection_some stored
  split
  · rename_i same
    subst same
    exact find_replace_self present named
  · rename_i other
    exact find_replace_other other

variable {a : Action}

/-- An action that is no selection write leaves the selections, and none changes
the plans or the installation. -/
theorem Action.apply_inv (applied : a.apply s = some s') :
    (s'.plans = s.plans ∧ s'.installation = s.installation) ∧
      (s'.selections = s.selections ∨ ∃ x y, a = .select x y ∧ s.follows x y = true ∧
        s.selection y.component = some x ∧
        s' = { s with selections := replace (·.component) y s.selections }) := by
  cases a with
  | observe o => rcases Store.once_inv applied with ⟨rfl, _⟩ | ⟨rfl, _⟩ <;> exact ⟨⟨rfl, rfl⟩, .inl rfl⟩
  | select x y =>
    obtain ⟨follows, stored, rfl⟩ := Store.putSelection_inv applied
    exact ⟨⟨rfl, rfl⟩, .inr ⟨x, y, rfl, follows, stored, rfl⟩⟩
  | update t next =>
    obtain ⟨_, rfl⟩ := Store.updateTicket_inv applied
    exact ⟨⟨rfl, rfl⟩, .inl rfl⟩
  | cross t e =>
    cases applied
    exact ⟨⟨rfl, rfl⟩, .inl rfl⟩

variable {actions : List Action}

theorem perform_frame (performed : perform s actions = some s') :
    s'.plans = s.plans ∧ s'.installation = s.installation := by
  refine foldlM_keeps (fun x => x.plans = s.plans ∧ x.installation = s.installation) ?_ ⟨rfl, rfl⟩
    performed
  intro mid a _ after before applied
  obtain ⟨⟨plans, installation⟩, _⟩ := apply_inv applied
  exact ⟨plans.trans before.1, installation.trans before.2⟩

variable {component : Text}

/-- What an action leaves of a component's selection: the same, or what it
writes in its place. -/
theorem Action.apply_selection (applied : a.apply s = some s')
    {x : Selection} (found : s.selection component = some x) :
    s'.selection component = some x ∨ ∃ y, a = .select x y ∧ y.component = component ∧
      s.follows x y = true ∧ s'.selection component = some y := by
  rcases (apply_inv applied).2 with same | ⟨u, y, rfl, follows, stored, rfl⟩
  · rw [Store.selection, same]
    exact .inl found
  rw [selection_replaced stored]
  by_cases own : y.component = component
  · rw [own, found] at stored
    cases stored
    rw [if_pos own]
    exact .inr ⟨y, rfl, own, follows, rfl⟩
  · rw [if_neg own]
    exact .inl found

theorem perform_selection
    (performed : perform s actions = some s') {x : Selection}
    (found : s.selection component = some x) : ∃ y, s'.selection component = some y ∧
      (y = x ∨ ∃ u, .select u y ∈ actions ∧ y.component = component ∧ s.follows u y = true) := by
  refine (foldlM_keeps (fun mid : Store => (mid.plans = s.plans ∧ mid.installation = s.installation) ∧
    ∃ y, mid.selection component = some y ∧
      (y = x ∨ ∃ u, .select u y ∈ actions ∧ y.component = component ∧ s.follows u y = true))
    ?_ ⟨⟨rfl, rfl⟩, x, found, .inl rfl⟩ performed).2
  rintro mid a among after ⟨frame, y, current, left⟩ applied
  obtain ⟨⟨plans, installation⟩, _⟩ := apply_inv applied
  refine ⟨⟨plans.trans frame.1, installation.trans frame.2⟩, ?_⟩
  rcases apply_selection applied current with same | ⟨next, rfl, own, follows, written⟩
  · exact ⟨y, same, left⟩
  · rw [follows_congr frame.1 frame.2] at follows
    exact ⟨next, written, .inr ⟨y, among, own, follows⟩⟩

/-- The next revision is larger: a revision is never negative. -/
theorem revision_next (next : y.revision = x.revision + 1) :
    y.revision.toInt = x.revision.toInt + 1 := by
  have before : ¬ x.revision < 0 := x.rules.revision
  have after : ¬ y.revision < 0 := y.rules.revision
  rw [next, Int64.lt_iff_toInt_lt, Int64.toInt_add] at after
  rw [Int64.lt_iff_toInt_lt] at before
  rw [next, Int64.toInt_add]
  have values : (1 : Int64).toInt = 1 ∧ (0 : Int64).toInt = 0 := by decide
  have bound := x.revision.toInt_lt
  rw [values.1, Int.bmod] at after ⊢
  omega

theorem revision_le_of_follows {s : Store} (follows : s.follows x y = true) :
    x.revision ≤ y.revision := by
  obtain ⟨_, _, _, _, ⟨same, _⟩ | ⟨_, next, _⟩⟩ := follows_iff.mp follows
  · rw [same]
    exact Int64.le_refl _
  · have larger := revision_next next
    rw [Int64.le_iff_toInt_le]
    omega

theorem perform_revision
    (performed : perform s actions = some s') {x : Selection}
    (found : s.selection component = some x) :
    ∃ y, s'.selection component = some y ∧ x.revision ≤ y.revision := by
  refine foldlM_keeps (fun mid : Store => ∃ y, mid.selection component = some y ∧ x.revision ≤ y.revision)
    ?_ ⟨x, found, Int64.le_refl _⟩ performed
  rintro mid a _ after ⟨y, current, larger⟩ applied
  rcases apply_selection applied current with same | ⟨next, _, _, follows, written⟩
  · exact ⟨y, same, larger⟩
  · exact ⟨next, written, Int64.le_trans larger (revision_le_of_follows follows)⟩

/-! ## Events -/

theorem mem_selects {current next u y : Selection} (among : .select u y ∈ selects current next) :
    u = current ∧ y = next := by
  unfold selects at among
  split at among
  · cases among
  · simpa using among

theorem not_mem_observes {facts : List Observation} {u y : Selection} :
    .select u y ∉ facts.map observe := by
  simp

theorem not_mem_after_moves {s : Step} {r : Round} :
    .select x y ∉ (if s.ticket = c.ticket then [] else [update c.ticket s.ticket]) ++
      s.crosses r := by
  rw [List.mem_append]
  rintro (update | cross)
  · split at update <;> simp at update
  unfold Step.crosses at cross
  cases issue : s.issue with
  | none => simp [issue] at cross
  | some e =>
    simp only [issue, Option.elim_some, List.mem_cons, reduceCtorEq, false_or] at cross
    split at cross <;> simp at cross

variable {ticketId : Text} {r : Round}

theorem cohort_select_inv {current selection u y : Selection}
    (chosen : store.selection component = some current)
    (checked : checkedSelection store current view = some selection)
    (among : .select u y ∈ selects current selection) :
    store.selection u.component = some u ∧ ∃ view, checkedSelection store u view = some y := by
  obtain ⟨rfl, rfl⟩ := mem_selects among
  rw [(Store.selection_some chosen).2]
  exact ⟨chosen, view, checked⟩

/-- Where a selection write comes from: the cohort check of the stored selection,
or the step of the round. -/
theorem Coordinator.Acts.select_inv {c : Coordinator}
    (acts : c.Acts store r ticketId actions) {u y : Selection}
    (among : .select u y ∈ actions) :
    (store.selection u.component = some u ∧ ∃ view, checkedSelection store u view = some y) ∨
    ∃ context stored s, c.reads store r ticketId = some context ∧
      c.Reads store r ticketId context stored ∧ step context = .ok s ∧ s.selection = some y ∧
      u = context.selection := by
  cases acts with
  | observed facts => exact absurd among not_mem_observes
  | checked facts chosen checked =>
    have last := (List.mem_append.mp among).resolve_left not_mem_observes
    exact .inl (cohort_select_inv chosen checked last)
  | @stepped facts context stored s read reads ran =>
    have rest := (List.mem_append.mp among).resolve_left not_mem_observes
    rcases List.mem_append.mp rest with first | last
    · exact .inl (cohort_select_inv reads.current reads.selection first)
    right
    rw [stepActions_eq] at last
    have moved := (List.mem_append.mp last).resolve_right not_mem_after_moves
    unfold Step.moves at moved
    cases selected : s.selection with
    | none => simp [selected] at moved
    | some next =>
      rw [selected] at moved
      obtain ⟨rfl, rfl⟩ := mem_selects moved
      exact ⟨context, stored, s, read, reads, ran, selected, rfl⟩

theorem adds_selection {e : WorldEvent} {store added : Store} (adds : e.adds store = some added)
    {x : Selection} (found : store.selection component = some x) :
    added.selection component = some x := by
  cases e with
  | plan p => rcases Store.once_inv adds with ⟨rfl, _⟩ | ⟨rfl, _⟩ <;> exact found
  | authorization a => rcases Store.addAuthorization_inv adds with ⟨rfl, _⟩ | ⟨rfl, _⟩ <;> exact found
  | ticket t =>
    obtain ⟨_, rfl⟩ := Store.createTicket_inv adds
    exact found
  | selection y =>
    obtain ⟨_, rfl⟩ := Store.putSelection_first adds
    simp only [Store.selection] at found ⊢
    simp [List.find?_append, found]
  | cancel _ | round _ _ _ _ | check _ _ _ _ =>
    cases adds
    exact found

/-- The round that moves a choice: its ticket's plan becomes the choice, at the
revision that the plan expects, owed without a recorded cause. -/
def MovedBy (w : World) (e : WorldEvent) (x y : Selection) : Prop :=
  ∃ c r ticketId stop context, e = .round c r ticketId stop ∧
    Coordinator.reads c w.store r ticketId = some context ∧
    y.choice = .plan ∧ y.planId = context.plan.planId ∧ x.component = context.plan.component ∧
    x.revision = context.plan.selectionRevision ∧ context.plan.target ≠ .temporaryFactory ∧
    context.ticket.cause = .none ∧ Owes context

/-- What may become of a selection: the same choice at its revision, or the choice
of a round's plan at the next. -/
inductive Succeeds (w : World) (e : WorldEvent) (x y : Selection) : Prop
  | kept : y.revision = x.revision → Store.sameChoice x y = true → Succeeds w e x y
  | moved : y.revision = x.revision + 1 → Store.sameChoice x y = false → MovedBy w e x y →
    Succeeds w e x y

theorem Keeps.sameChoice_eq {x u : Selection} (keeps : Keeps x u) (y : Selection) :
    Store.sameChoice u y = Store.sameChoice x y := by
  obtain ⟨choice, plan, responsibility, window⟩ := sameChoice_iff.mp keeps.choice
  simp only [Store.sameChoice, choice, plan, responsibility, window]

section Events
variable {w w' : World} {e : WorldEvent}

/-- Where a selection write of an event comes from. -/
theorem WorldEvent.select_inv {u y : Selection} (among : .select u y ∈ e.actions w.store) :
    (w.store.selection u.component = some u ∧ ∃ view, checkedSelection w.store u view = some y) ∨
    ∃ c r ticketId stop context stored s, e = .round c r ticketId stop ∧
      Coordinator.reads c w.store r ticketId = some context ∧
      Coordinator.Reads c w.store r ticketId context stored ∧ step context = .ok s ∧
      s.selection = some y ∧ u = context.selection := by
  cases e with
  | plan _ | authorization _ | ticket _ | selection _ => cases among
  | cancel ticketId =>
    simp only [WorldEvent.actions, Store.cancels] at among
    split at among
    · cases among
    · split at among <;> simp at among
  | round c r ticketId stop =>
    rcases (c.round_acts w.store r ticketId).select_inv (List.mem_of_mem_take among) with
      checked | ⟨context, stored, s, stepped⟩
    · exact .inl checked
    · exact .inr ⟨c, r, ticketId, stop, context, stored, s, rfl, stepped⟩
  | check c r component stop =>
    have inside : .select u y ∈ c.check w.store r component := List.mem_of_mem_take among
    rcases c.check_eq w.store r component with ⟨facts, only⟩ | ⟨facts, _, _, _, stored, checked, both⟩
    · rw [only] at inside
      exact absurd inside not_mem_observes
    · rw [both] at inside
      have last := (List.mem_append.mp inside).resolve_left not_mem_observes
      exact .inl (cohort_select_inv stored checked last)

/-- Every stored selection is succeeded by one of the same choice at its revision
or by a plan's move. -/
theorem next_succeeds (happened : w.next e = some w') {x : Selection}
    (found : w.store.selection component = some x) :
    ∃ y, w'.store.selection component = some y ∧ Succeeds w e x y := by
  obtain ⟨_, ⟨added, adds, performed⟩, _⟩ := World.next_inv happened
  obtain ⟨y, current, rfl | ⟨u, among, own, follows⟩⟩ :=
    perform_selection performed (adds_selection adds found)
  · exact ⟨y, current, .kept rfl (Keeps.refl y).choice⟩
  refine ⟨y, current, ?_⟩
  rcases WorldEvent.select_inv among with ⟨stored, view, checked⟩ |
    ⟨c, r, ticketId, stop, context, stored, s, rfl, read, reads, ran, selected, rfl⟩
  · obtain ⟨keeps, _⟩ := checkedSelection_keeps checked
    rw [← keeps.component, own, found] at stored
    cases stored
    exact .kept keeps.revision keeps.choice
  cases adds
  obtain ⟨_, sameComponent, _, _, revisions⟩ := follows_iff.mp follows
  obtain ⟨keeps, _⟩ := checkedSelection_keeps reads.selection
  have named := (Store.selection_some reads.current).2
  have same : x = stored := by
    have chosen := reads.current
    rw [← named, ← keeps.component, sameComponent, own, found] at chosen
    exact Option.some.inj chosen
  subst same
  obtain ⟨cause, owes, expected, moves⟩ := step_moves ran selected
  rw [keeps.sameChoice_eq, keeps.revision] at revisions
  rcases revisions with ⟨revision, choice, _⟩ | ⟨moved, revision, choice, _⟩
  · exact .kept revision choice
  refine .moved revision choice ⟨c, r, ticketId, stop, context, rfl, read, ?_⟩
  cases moves with
  | standsIn _ _ _ standing =>
    exact absurd (standing.revision.trans keeps.revision) moved
  | chooses target _ _ _ chosen plan =>
    exact ⟨chosen, plan, named, keeps.revision.symm.trans expected, target, cause, owes⟩

/-- A write that changes the choice is the move of a round's plan. -/
theorem choosing_inv {u y : Selection} (among : .select u y ∈ e.actions w.store)
    (changed : Store.sameChoice u y = false) : ∃ c r ticketId stop context stored s,
      e = .round c r ticketId stop ∧ Coordinator.reads c w.store r ticketId = some context ∧
      Coordinator.Reads c w.store r ticketId context stored ∧ step context = .ok s ∧
      s.selection = some y ∧ u = context.selection := by
  refine (WorldEvent.select_inv among).resolve_left ?_
  rintro ⟨_, view, checked⟩
  rw [(checkedSelection_keeps checked).1.choice] at changed
  cases changed

def Action.chooses (planId : Text) : Action → Bool
  | .select x y => !Store.sameChoice x y && y.choice = .plan && y.planId = planId
  | _ => false

theorem chooses_iff {planId : Text} : a.chooses planId = true ↔
    ∃ u y, a = .select u y ∧ Store.sameChoice u y = false ∧ y.choice = .plan ∧ y.planId = planId := by
  cases a with
  | select u y => simp [chooses, and_assoc]
  | observe | update | cross => simp [chooses]

private theorem count_none {planId : Text} {l : List Action}
    (none_ : ∀ u y, .select u y ∈ l → Store.sameChoice u y = true) :
    l.countP (chooses planId) = 0 := by
  refine List.countP_eq_zero.mpr fun a among chosen => ?_
  obtain ⟨u, y, rfl, changed, _⟩ := chooses_iff.mp chosen
  rw [none_ u y among] at changed
  cases changed

theorem count_round (c : Coordinator) (store : Store) (r : Round) (ticketId planId : Text) :
    (c.round store r ticketId).countP (chooses planId) ≤ 1 := by
  have cohort {current selection : Selection} (keeps : Keeps current selection) :
      (selects current selection).countP (chooses planId) = 0 := by
    refine count_none fun u y among => ?_
    obtain ⟨rfl, rfl⟩ := mem_selects among
    exact keeps.choice
  have observes (facts : List Observation) :
      (facts.map observe).countP (chooses planId) = 0 :=
    count_none fun u y among => absurd among not_mem_observes
  have acts := c.round_acts store r ticketId
  generalize c.round store r ticketId = actions at acts
  cases acts with
  | observed facts => simp [observes]
  | checked facts _ checked =>
    rw [List.countP_append, observes, cohort (checkedSelection_keeps checked).1]
    exact Nat.zero_le 1
  | @stepped facts context stored s _ reads ran =>
    have after : ((if s.ticket = context.ticket then [] else
        [update context.ticket s.ticket]) ++ s.crosses r).countP (chooses planId) = 0 :=
      count_none fun u y among => absurd among not_mem_after_moves
    rw [stepActions_eq, List.countP_append, List.countP_append, List.countP_append, after, observes,
      cohort (checkedSelection_keeps reads.selection).1]
    have moves : (s.moves context).countP (chooses planId) ≤ 1 := by
      refine List.countP_le_length.trans ?_
      unfold Step.moves selects
      cases s.selection with
      | none => simp
      | some next =>
        simp only [Option.elim_some]
        split <;> simp
    omega

/-- What every run keeps of the choice: each move that was made left a revision
above the one its plan expects, so no plan makes a second. -/
structure Chosen (w : World) : Prop where
  sound : w.store.Sound
  past : ∀ u y, .select u y ∈ w.trace → Store.sameChoice u y = false →
    ∃ p z, w.store.plan y.planId = some p ∧ w.store.selection p.component = some z ∧
      p.selectionRevision < z.revision
  once : ∀ planId, w.trace.countP (chooses planId) ≤ 1

theorem Chosen.start (installation : Text) : Chosen (World.start installation) where
  sound := Store.sound_empty installation
  past := by simp [World.start]
  once := by simp [World.start]

/-- A choice that an event moves was at the revision its plan expects, and is
above it afterwards. -/
theorem moved_above (happened : w.next e = some w') {u y : Selection}
    (among : .select u y ∈ e.actions w.store) (changed : Store.sameChoice u y = false) :
    ∃ p z x, w.store.plan y.planId = some p ∧ w'.store.plan y.planId = some p ∧
      w.store.selection p.component = some x ∧ x.revision = p.selectionRevision ∧
      w'.store.selection p.component = some z ∧ p.selectionRevision < z.revision := by
  obtain ⟨c, r, ticketId, stop, context, stored, s, rfl, _, reads, ran, selected, rfl⟩ :=
    choosing_inv among changed
  obtain ⟨_, _, expected, moves⟩ := step_moves ran selected
  obtain ⟨keeps, _⟩ := checkedSelection_keeps reads.selection
  have named := (Store.selection_some reads.current).2
  obtain ⟨_, ⟨added, adds, performed⟩, _⟩ := World.next_inv happened
  cases adds
  cases moves with
  | standsIn _ _ _ standing =>
    rw [standing.choice] at changed
    cases changed
  | chooses _ _ component revision _ planId =>
    have plan : w.store.plan y.planId = some context.plan := by
      rw [planId, ← context.ofPlan]
      exact reads.plan
    -- The write is performed, and no later action lowers the revision it leaves.
    obtain ⟨before, after, split⟩ := List.append_of_mem among
    rw [split] at performed
    obtain ⟨mid, _, rest⟩ := foldlM_append_some.mp performed
    obtain ⟨written, put, last⟩ := foldlM_cons_some.mp rest
    obtain ⟨_, current, rfl⟩ := Store.putSelection_inv put
    have here : y.component = context.plan.component :=
      component.trans (keeps.component.trans named)
    obtain ⟨z, final, larger⟩ := perform_revision last
      ((selection_replaced current context.plan.component).trans (if_pos here))
    refine ⟨context.plan, z, stored, plan, ?_, reads.current, keeps.revision.symm.trans expected,
      final, ?_⟩
    · rw [Store.plan, (perform_frame performed).1]
      exact plan
    have above := revision_next revision
    rw [Int64.le_iff_toInt_le] at larger
    rw [Int64.lt_iff_toInt_lt, ← expected]
    omega

theorem next_revision (happened : w.next e = some w') {x : Selection}
    (found : w.store.selection component = some x) :
    ∃ y, w'.store.selection component = some y ∧ x.revision ≤ y.revision := by
  obtain ⟨_, ⟨added, adds, performed⟩, _⟩ := World.next_inv happened
  exact perform_revision performed (adds_selection adds found)

theorem count_actions (w : World) (e : WorldEvent) (planId : Text) :
    (e.actions w.store).countP (chooses planId) ≤ 1 := by
  by_cases round : ∃ c r ticketId stop, e = .round c r ticketId stop
  · obtain ⟨c, r, ticketId, stop, rfl⟩ := round
    exact ((List.take_sublist stop _).countP_le).trans (count_round c w.store r ticketId planId)
  -- Only a round changes a choice.
  have none_ : (e.actions w.store).countP (chooses planId) = 0 := by
    refine count_none fun u y among => ?_
    by_contra changed
    obtain ⟨c, r, ticketId, stop, _, _, _, same, _⟩ := choosing_inv among (by simpa using changed)
    exact round ⟨c, r, ticketId, stop, same⟩
  exact none_.le.trans (Nat.zero_le 1)

theorem Chosen.next (before : Chosen w) (happened : w.next e = some w') : Chosen w' := by
  obtain ⟨_, _, trace⟩ := World.next_inv happened
  refine ⟨World.next_sound happened before.sound, ?_, ?_⟩
  · intro u y among changed
    rw [trace, List.mem_append] at among
    rcases among with earlier | now
    · obtain ⟨p, z, plan, found, above⟩ := before.past u y earlier changed
      obtain ⟨z', found', larger⟩ := next_revision happened found
      exact ⟨p, z', World.plan_kept happened plan, found', Int64.lt_of_lt_of_le above larger⟩
    · obtain ⟨p, z, _, _, plan, _, _, found, above⟩ := moved_above happened now changed
      exact ⟨p, z, plan, found, above⟩
  · intro planId
    rw [trace, List.countP_append]
    have earlier := before.once planId
    have now := count_actions w e planId
    by_cases moved : (e.actions w.store).countP (chooses planId) = 0
    · omega
    -- The plan has not moved the choice before: the revision is the one it expects.
    obtain ⟨a, among, chosen⟩ := List.countP_pos_iff.mp (Nat.pos_of_ne_zero moved)
    obtain ⟨u, y, rfl, changed, _, rfl⟩ := chooses_iff.mp chosen
    obtain ⟨p, _, x, plan, _, stored, expected, _⟩ := moved_above happened among changed
    have none_ : w.trace.countP (chooses y.planId) = 0 := by
      refine List.countP_eq_zero.mpr fun b inside again => ?_
      obtain ⟨u', y', rfl, changed', _, same⟩ := chooses_iff.mp again
      obtain ⟨q, z, plan', found, above⟩ := before.past u' y' inside changed'
      rw [same, plan] at plan'
      cases plan'
      rw [stored] at found
      cases found
      rw [expected] at above
      exact Int64.lt_irrefl above
    omega

theorem Chosen.run {installation : Text} {events : List WorldEvent}
    (ran : (World.start installation).run events = some w) : Chosen w :=
  foldlM_keeps Chosen (fun _ _ _ _ before happened => before.next happened)
    (Chosen.start installation) ran

end Events

/-! ## Whole rounds -/

/-- The store accepts every selection write of the actions that is reached. -/
def Accepts (store : Store) (actions : List Action) : Prop :=
  ∀ before x y after mid, actions = before ++ .select x y :: after →
    perform store before = some mid → (mid.putSelection (some x) y).isSome = true

/-- The stored selection names the ticket's plan at the revision it expects. -/
def Clashes (store : Store) (ticketId : Text) : Prop :=
  ∃ t p x, store.ticket ticketId = some t ∧ store.plan t.planId = some p ∧
    store.selection p.component = some x ∧ Named x p

theorem Accepts.append {a b : List Action} (first : Accepts store a)
    (second : ∀ mid, perform store a = some mid → Accepts mid b) : Accepts store (a ++ b) := by
  intro before x y after mid split performed
  rcases append_eq_append_cons split with ⟨rest, early⟩ | ⟨middle, rfl, late⟩
  · exact first before x y rest mid early performed
  · obtain ⟨between, done_, rest⟩ := foldlM_append_some.mp performed
    exact second between done_ middle x y after mid late rest

theorem accepts_silent
    (silent : ∀ x y, .select x y ∉ actions) : Accepts store actions := by
  intro before x y after mid split
  exact absurd (by simp [split]) (silent x y)

theorem accepts_selects {current next : Selection}
    (stored : store.selection next.component = some current)
    (follows : next ≠ current → store.follows current next = true) :
    Accepts store (selects current next) := by
  intro before x y after mid split performed
  unfold selects at split
  split at split
  · simp at split
  rename_i changed
  cases before with
  | cons a before => simp at split
  | nil =>
    cases performed
    simp only [List.nil_append, List.cons.injEq, select.injEq] at split
    obtain ⟨⟨rfl, rfl⟩, _⟩ := split
    exact putSelection_isSome (follows changed) stored

/-- Observing leaves the selections and what the store reads to accept them. -/
theorem perform_observes {store mid : Store} {facts : List Observation}
    (performed : perform store (facts.map .observe) = some mid) :
    ∃ observations, mid = { store with observations } := by
  refine foldlM_keeps (fun s : Store => ∃ observations, s = { store with observations }) ?_
    ⟨store.observations, rfl⟩ performed
  rintro _ a among after ⟨observations, rfl⟩ applied
  obtain ⟨o, _, rfl⟩ := List.mem_map.mp among
  rcases Store.once_inv applied with ⟨rfl, _⟩ | ⟨rfl, _⟩
  · exact ⟨_, rfl⟩
  · exact ⟨observations, rfl⟩

theorem accepts_checked {current next : Selection}
    (sound : store.Sound) (stored : store.selection component = some current)
    (checked : checkedSelection store current view = some next) (facts : List Observation) :
    Accepts store (facts.map .observe ++ selects current next) := by
  refine (accepts_silent fun _ _ => not_mem_observes).append fun mid performed => ?_
  obtain ⟨observations, rfl⟩ := perform_observes performed
  obtain ⟨present, named⟩ := Store.selection_some stored
  refine accepts_selects ?_ fun _ => ?_
  · rw [(checkedSelection_keeps checked).1.component, named]
    exact stored
  · have accepted := checked_follows sound present checked
    exact accepted

theorem perform_selects {store mid : Store} {current next : Selection}
    (stored : store.selection next.component = some current)
    (performed : perform store (selects current next) = some mid) :
    mid.selection next.component = some next := by
  unfold selects at performed
  split at performed
  · rename_i same
    cases performed
    rw [stored, same]
  obtain ⟨written, put, last⟩ := foldlM_cons_some.mp performed
  cases last
  obtain ⟨_, _, rfl⟩ := Store.putSelection_inv put
  rw [selection_replaced stored, if_pos rfl]

theorem Coordinator.Reads.clashes_iff {c : Coordinator}
    {context : Context} {stored : Selection} (reads : c.Reads store r ticketId context stored) :
    Clashes store ticketId ↔ Named context.selection context.plan := by
  obtain ⟨keeps, _⟩ := checkedSelection_keeps reads.selection
  obtain ⟨choice, plan, _⟩ := sameChoice_iff.mp keeps.choice
  have same : Named stored context.plan ↔ Named context.selection context.plan := by
    simp only [Named, choice, plan, keeps.revision]
  rw [← same]
  constructor
  · rintro ⟨t, p, x, ticket, ofTicket, current, named⟩
    cases reads.ticket.symm.trans ticket
    cases reads.plan.symm.trans ofTicket
    cases reads.current.symm.trans current
    exact named
  · intro named
    exact ⟨context.ticket, context.plan, stored, reads.ticket, reads.plan, reads.current, named⟩

/-- The store accepts the move of a round exactly where the stored selection does
not name its plan. -/
theorem Coordinator.Reads.follows_iff {c : Coordinator} {context : Context}
    {stored next : Selection} (reads : c.Reads store r ticketId context stored)
    (sound : store.Sound) (expected : context.selection.revision = context.plan.selectionRevision)
    (moves : MovesTo context next) :
    store.follows context.selection next = true ↔ ¬ Clashes store ticketId := by
  obtain ⟨keeps, _⟩ := checkedSelection_keeps reads.selection
  obtain ⟨present, named⟩ := Store.selection_some reads.current
  rw [reads.clashes_iff]
  refine moves.follows_iff_not_named expected ?_ (keeps.component.trans named) ?_
  · rw [keeps.installation]
    exact (sound.selected stored present).1
  · rw [← context.ofPlan]
    exact reads.plan

/-- No selection write of a round is refused, unless the stored selection names
the ticket's plan at the revision it expects. -/
theorem round_accepts (sound : store.Sound) (c : Coordinator) (r : Round)
    (apart : ¬ Clashes store ticketId) :
    Accepts store (c.round store r ticketId) := by
  have acts := c.round_acts store r ticketId
  generalize c.round store r ticketId = actions at acts
  cases acts with
  | observed facts => exact accepts_silent fun _ _ => not_mem_observes
  | checked facts stored checked => exact accepts_checked sound stored checked facts
  | @stepped facts context stored s read reads ran =>
    rw [stepActions_eq, ← List.append_assoc]
    refine (accepts_checked sound reads.current reads.selection facts).append fun mid performed => ?_
    refine Accepts.append ?_ fun _ _ => accepts_silent fun _ _ => not_mem_after_moves
    unfold Step.moves
    cases selected : s.selection with
    | none => exact accepts_silent (by simp)
    | some next =>
      obtain ⟨_, _, expected, moves⟩ := step_moves ran selected
      have component : context.selection.component = context.plan.component :=
        (checkedSelection_keeps reads.selection).1.component.trans
          (Store.selection_some reads.current).2
      have same : next.component = context.plan.component := by
        cases moves with
        | standsIn _ _ _ standing => exact standing.component.trans component
        | chooses _ _ own => exact own.trans component
      obtain ⟨plans, installation⟩ := perform_frame performed
      obtain ⟨between, observed, chosen⟩ := foldlM_append_some.mp performed
      obtain ⟨observations, rfl⟩ := perform_observes observed
      refine accepts_selects ?_ fun _ => ?_
      · rw [same, ← component]
        refine perform_selects ?_ chosen
        rw [component]
        exact reads.current
      · rw [follows_congr plans installation]
        exact (reads.follows_iff sound expected moves).mpr apart

theorem check_accepts (sound : store.Sound) (c : Coordinator) (r : Round)
    (component : Text) : Accepts store (c.check store r component) := by
  rcases c.check_eq store r component with ⟨facts, only⟩ | ⟨facts, _, _, _, stored, checked, both⟩
  · rw [only]
    exact accepts_silent fun _ _ => not_mem_observes
  · rw [both]
    exact accepts_checked sound stored checked facts

/-- The choice moves once for each applied plan, and the store accepts every
selection of the cohort check and every move, but for the move of a plan that the
selection already names at the revision the plan expects. -/
theorem choice_moves_once {installation : Text} {events : List WorldEvent} {w : World}
    (ran : (World.start installation).run events = some w) :
    (∀ e w', w.next e = some w' → ∀ component x, w.store.selection component = some x →
      ∃ y, w'.store.selection component = some y ∧ x.revision ≤ y.revision ∧ Succeeds w e x y) ∧
    (∀ planId, w.trace.countP (chooses planId) ≤ 1) ∧
    (∀ component current view next, w.store.selection component = some current →
      checkedSelection w.store current view = some next → w.store.follows current next = true) ∧
    (∀ (c : Coordinator) (r : Round) (ticketId : Text) (context : Context) (s : Step)
      (next : Selection), c.reads w.store r ticketId = some context → step context = .ok s →
      s.selection = some next →
      (w.store.follows context.selection next = true ↔ ¬ Clashes w.store ticketId)) ∧
    (∀ (c : Coordinator) (r : Round) (ticketId : Text), ¬ Clashes w.store ticketId →
      Accepts w.store (c.round w.store r ticketId)) ∧
    ∀ (c : Coordinator) (r : Round) (component : Text),
      Accepts w.store (c.check w.store r component) := by
  have kept := Chosen.run ran
  refine ⟨?_, kept.once, ?_, ?_, ?_, ?_⟩
  · intro e w' happened component x found
    obtain ⟨y, current, succeeds⟩ := next_succeeds happened found
    obtain ⟨z, final, larger⟩ := next_revision happened found
    cases current.symm.trans final
    exact ⟨y, current, larger, succeeds⟩
  · intro component current view next stored checked
    exact checked_follows kept.sound (Store.selection_some stored).1 checked
  · intro c r ticketId context s next read stepped selected
    obtain ⟨stored, reads⟩ := Coordinator.reads_some read
    obtain ⟨_, _, expected, moves⟩ := step_moves stepped selected
    exact reads.follows_iff kept.sound expected moves
  · exact fun c r ticketId apart => round_accepts kept.sound c r apart
  · exact fun c r component => check_accepts kept.sound c r component

/-! The sample plan applied in whole rounds, each by a new coordinator that reads
what the store holds, from a first selection. -/

/-- The sample facts under IDs of their own. -/
def numberedFacts : List Observation :=
  (sampleFacts.zip "123456789abcdef".toList).filterMap (fun (o, digit) =>
    ({ o.toBuilder with observationId := sampleId digit } : Observation.Builder).build.toOption)

def appliedRound (clock : Option Clock) (freshId : Char) (device host : List Observation) : Round :=
  ⟨clock, device, host, sampleId freshId, none⟩

def newCoordinator : Coordinator := ⟨sampleDigest '5', false, false, none⟩

def wholeRound (r : Round) : WorldEvent := .round newCoordinator r (sampleId '6') 99

def appliedRounds : List Round :=
  List.replicate 3 (appliedRound none 'c' [] []) ++
  [appliedRound none 'a' [] [], appliedRound none 'c' [] (numberedFacts.take 1),
    appliedRound (sampleClock '9' 30) 'b' ((numberedFacts.take 7).drop 1) []] ++
  List.replicate 6 (appliedRound (sampleClock '9' 31) 'c' [] []) ++
  List.replicate 2 (appliedRound (sampleClock 'd' 30) 'c' ((numberedFacts.take 12).drop 7) [])

def appliedEvents (first : Selection) : List WorldEvent :=
  [WorldEvent.plan samplePlan, .authorization sampleStage, .authorization sampleActivate, .selection first,
    .ticket sampleTicket] ++ appliedRounds.map wholeRound

def movingRound : Round := appliedRound (sampleClock 'd' 30) 'c' [] []

/-- From the factory choice the sample plan moves the choice, once. -/
theorem sample_choice_moves : ∃ w, (World.start (sampleId '1')).run
      (appliedEvents sampleSelection ++ [wholeRound movingRound]) = some w ∧
    (w.store.selection sampleComponent).map (fun x => (x.planId, x.revision)) =
      some (sampleId '2', 1) ∧
    ∀ planId, w.trace.countP (chooses planId) ≤ 1 := by
  have moved : ((World.start (sampleId '1')).run
      (appliedEvents sampleSelection ++ [wholeRound movingRound])).map
        (fun w => (w.store.selection sampleComponent).map (fun x => (x.planId, x.revision))) =
      some (some (sampleId '2', 1)) := by decide +kernel
  obtain ⟨w, ran, chosen⟩ := Option.map_eq_some_iff.mp moved
  exact ⟨w, ran, chosen, (choice_moves_once ran).2.1⟩

/-- A first selection that names the sample plan, which expects revision 0. -/
def namedSelection : Selection where
  toFields := { sampleSelection.toFields with choice := .plan, planId := sampleId '2' }
  valid := by decide +kernel

/-- Whether the round that moves the choice begins with a refused selection. -/
def refusedAtOnce (w : World) : Bool :=
  match newCoordinator.round w.store movingRound (sampleId '6') with
  | .select x y :: _ => (w.store.putSelection (some x) y).isNone
  | _ => false

/-- The store refuses the move of a plan that the first selection already names,
and the round stops there. -/
theorem first_selection_stops_the_round : ∃ w,
    (World.start (sampleId '1')).run (appliedEvents namedSelection) = some w ∧
    ¬ Accepts w.store (newCoordinator.round w.store movingRound (sampleId '6')) := by
  have refused : ((World.start (sampleId '1')).run (appliedEvents namedSelection)).map refusedAtOnce =
      some true := by decide +kernel
  obtain ⟨w, ran, stopped⟩ := Option.map_eq_some_iff.mp refused
  refine ⟨w, ran, fun accepts => ?_⟩
  unfold refusedAtOnce at stopped
  split at stopped
  · rename_i x y rest acts
    have accepted := accepts [] x y rest w.store acts rfl
    rw [Option.isNone_iff_eq_none] at stopped
    simp [stopped] at accepted
  · cases stopped

end Andrix.Deployment
