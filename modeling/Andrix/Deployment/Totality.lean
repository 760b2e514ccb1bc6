import Andrix.Deployment.LedgerFitting

/-! A step returns. Every rule returns its draft for a reachable ticket under a
sound context, and the draft fits, with two exceptions: a superseding closing
that has to wait for the checkpoint, and a choice that cannot be moved. -/
namespace Andrix.Deployment
open Andrix.Lib

variable {c : Context} {b : Ticket.Builder} {stored : Text → Option Authorization}

/-! ## Entries and references -/

theorem entry_returns (sound : c.Sound stored) {crossing : Crossing} {grant reference : Text}
    (device : crossing.device = true → c.now.isSome)
    (framework : crossing.framework = true → (frameworkNow c).isSome)
    (grantHex : IsHex 32 grant) (granted : ¬ crossing.granted ↔ grant = noId)
    (referenceHex : IsHex 32 reference) (referenced : ¬ crossing.referenced ↔ reference = noId) :
    Returns (entry c crossing grant reference) := by
  have made (fields : Entry.Fields) (valid : fields.Valid) : ∃ e : Entry, e.toFields = fields :=
    ⟨⟨fields, Entry.Fields.validate_eq_ok.mpr valid⟩, rfl⟩
  simp only [Returns, entry, refuse_bind_eq_ok, Entry.make_eq_ok, exists_and_left]
  cases clock : c.now with
  | none =>
    have host : crossing.device = false := by simpa [clock] using device
    have noFramework : crossing.framework = false := by
      rw [Crossing.device, Bool.or_eq_false_iff, Bool.or_eq_false_iff] at host
      exact host.1.1
    refine ⟨by simp [noFramework], made _ ?_⟩
    simp only [Option.map_none, Option.getD_none, if_true]
    exact ⟨isHex_noId, grantHex, referenceHex, by simp, by simp, by simp [host],
      by simp [noFramework], granted, referenced⟩
  | some now =>
    have instance_ : crossing.framework = true → ¬ now.instanceId < 0 := by
      intro framework_
      obtain ⟨now', found⟩ := Option.isSome_iff_exists.mp (framework framework_)
      obtain ⟨crossing_, instance_⟩ := frameworkNow_some found
      obtain rfl : now' = now := Option.some.inj ((crossingNow_some crossing_).1.symm.trans clock)
      exact Int64.not_lt.mpr instance_
    refine ⟨by simpa using instance_, made _ ?_⟩
    simp only [Option.map_some, Option.getD_some, now.boot_ne, if_false]
    obtain ⟨low, elapsed⟩ := sound.clock now clock
    exact ⟨now.boot_hex, grantHex, referenceHex, Int64.not_lt.mpr low, Int64.not_lt.mpr elapsed,
      fun none_ => absurd none_ now.boot_ne, instance_, granted, referenced⟩

/-- An entry under a grant of the plan, without a reference. -/
theorem granted_returns (sound : c.Sound stored) {crossing : Crossing} {a : Authorization}
    {reference : Text} (granted : crossing.granted) (referenceHex : IsHex 32 reference)
    (referenced : ¬ crossing.referenced ↔ reference = noId)
    (device : crossing.device = true → c.now.isSome)
    (framework : crossing.framework = true → (frameworkNow c).isSome) :
    Returns (entry c crossing a.authorizationId reference) :=
  entry_returns sound device framework a.rules.authorizationId.1
    (by simp [granted, a.rules.authorizationId.2]) referenceHex referenced

theorem withNonce_returns (r : Reference) {nonce : Text} (hex : IsHex 32 nonce) (some_ : nonce ≠ noId) :
    Returns (r.withNonce nonce) := by
  have rules := r.rules
  have kept {field : BitVec 32} (apart : Reference.nonceField &&& field = 0) :
      ({ r.toFields with presence := r.presence ||| Reference.nonceField, nonce } :
        Reference.Fields).has field ↔ r.has field := by
    simp only [Reference.Fields.has, or_and_of_apart apart]
  refine ⟨⟨_, Reference.Fields.validate_eq_ok.mpr ⟨or_within rules.known (by decide), hex, ?_, ?_, ?_, ?_, ?_⟩⟩,
    Reference.make_eq_ok.mpr rfl⟩
  · rw [kept (by decide)]
    exact rules.session
  · rw [kept (by decide)]
    exact rules.created
  · rw [kept (by decide)]
    exact rules.stageDir
  · rw [kept (by decide)]
    exact rules.installer
  · simp only [Reference.Fields.has, or_and_self_right, some_, iff_false, not_not]
    decide

theorem merge_returns {ticket : Reference} (known : ticket.has Reference.nonceField) (seen : Reference) :
    Returns (merge ticket seen) :=
  withNonce_returns seen ticket.rules.nonceHex fun none_ => ticket.rules.nonce.mpr none_ known

/-! ## The move of the choice -/

/-- The selections from which an applied plan's move cannot be made: the
revision has no next one, or the selection already links the temporary factory
plan as its repair. -/
structure MoveRefused (c : Context) (cause : Cause) : Prop where
  clock : c.now.isSome
  uncaused : cause = .none
  revision : c.selection.revision = c.plan.selectionRevision
  refused : (c.plan.target ≠ .temporaryFactory ∧ c.selection.revision = Int64.maxValue) ∨
    (c.plan.target = .temporaryFactory ∧ c.selection.choice = .plan ∧
      c.selection.planId = c.plan.repairs ∧ c.selection.repair = c.plan.planId ∧
      ∀ active ∈ c.view.latest .active, some active.digest = bundleApk c)

theorem chosen_returns (s : Selection) {plan boot : Text} (at_ : Int64)
    (planHex : IsHex 32 plan ∧ plan ≠ noId) (bootHex : IsHex 32 boot ∧ boot ≠ noId) :
    Returns (s.chosen .plan plan .current boot at_) ↔ s.revision ≠ Int64.maxValue := by
  have rules := s.rules
  simp only [Returns, Selection.chosen, Selection.make_eq_ok]
  constructor
  · rintro ⟨moved, made⟩
    have low := moved.rules.revision
    rw [made] at low
    exact (succ_nonneg_iff rules.revision).mp low
  intro room
  exact Selection.exists_of_valid
    { rules with
      revision := (succ_nonneg_iff rules.revision).mpr room
      planHex := planHex.1
      bootHex := bootHex.1
      repairHex := isHex_noId
      temporaryHex := isHex_noId
      chosen := by simp [planHex.2]
      checked := by simp [bootHex.2]
      factory := by simp
      standIn := by simp
      other := by simp
      repair := by simp
      repairOther := by simp }

/-- The temporary factory plan stands in for the chosen one unless it is its
linked repair. -/
theorem realized_returns (s : Selection) {plan boot : Text} (choice : s.choice = .plan)
    (planHex : IsHex 32 plan ∧ plan ≠ noId) (bootHex : IsHex 32 boot ∧ boot ≠ noId)
    (other : plan ≠ s.planId) :
    Returns (s.realized .temporaryFactory boot s.repair plan) ↔ s.repair ≠ plan := by
  have rules := s.rules
  simp only [Returns, Selection.realized, Selection.make_eq_ok]
  constructor
  · rintro ⟨stood, made⟩
    have apart := stood.rules.other
    rw [made] at apart
    exact (apart planHex.2).2 ∘ Eq.symm
  intro apart
  exact Selection.exists_of_valid
    { rules with
      bootHex := bootHex.1
      temporaryHex := planHex.1
      checked := by simp [bootHex.2]
      factory := by simp [choice]
      standIn := by simp [planHex.2]
      other := fun _ => ⟨other, apart.symm⟩
      repair := by simp [Realization.repairable] }

/-- Without a stand in, a plan choice is realized by bytes of its own. -/
theorem planRealization_none {s : Selection} {chosen : Option Plan} {view : View}
    {boot active factory : Observation} {status : Realization} {standIn : Text}
    (found : planRealization s chosen none view boot active factory = some (status, standIn)) :
    standIn = noId ∧ status ≠ .temporaryFactory ∧ status ≠ .unchecked := by
  simp only [planRealization, Option.bind_eq_bind, Option.bind_eq_some_iff, Option.filter_none]
    at found
  obtain ⟨plan, _, found⟩ := found
  split at found
  · cases found
  simp only [Option.bind_eq_some_iff, Option.some.injEq, exists_eq_left', reduceCtorEq, if_false]
    at found
  obtain ⟨_, _, found⟩ := found
  repeat' split at found
  all_goals
    simp only [Option.some.injEq, Prod.mk.injEq] at found
    obtain ⟨rfl, rfl⟩ := found
    simp

theorem cohortCheck_chosen_returns {s : Selection} {chosen : Option Plan} {view : View}
    (boot : IsHex 32 view.boot ∧ view.boot ≠ noId) (choice : s.choice = .plan)
    (repair : s.repair = noId) : Returns (cohortCheck s chosen none view none) := by
  unfold cohortCheck
  split
  · simp only [Option.any_none, Bool.false_eq_true, if_false, choice, reduceCtorEq,
      Option.filter_none]
    split
    · exact returns_ok
    rename_i status standIn found
    obtain ⟨rfl, notTemporary, checked⟩ := planRealization_none found
    have none_ : (if status.repairable then s.repair else noId) = noId := by
      rw [repair]
      split <;> rfl
    simp only [none_, Returns, Selection.realized, Selection.make_eq_ok]
    exact Selection.exists_of_valid { s.rules with
      bootHex := boot.1
      repairHex := isHex_noId
      temporaryHex := isHex_noId
      checked := by simp [checked, boot.2]
      factory := by simp [choice]
      standIn := by simp [notTemporary]
      other := by simp
      repair := by simp
      repairOther := by simp }
  · exact returns_ok

theorem move_returns {cause : Cause} : Returns (move c cause) ↔ ¬ MoveRefused c cause := by
  dsimp only [move]
  split
  · rename_i clock
    exact ⟨fun _ refused => absurd refused.clock (by simp [clock]), fun _ => returns_ok⟩
  rename_i now clock
  have boot : IsHex 32 c.view.boot ∧ c.view.boot ≠ noId :=
    c.sameBoot now clock ▸ ⟨now.boot_hex, now.boot_ne⟩
  split
  · rename_i stays
    refine ⟨fun _ refused => ?_, fun _ => returns_ok⟩
    rcases stays with caused | moved
    · exact caused refused.uncaused
    · exact moved refused.revision
  rename_i owed
  simp only [not_or, not_not] at owed
  split
  · rename_i temporary
    have refused_iff : MoveRefused c cause ↔ c.selection.choice = .plan ∧
        c.selection.planId = c.plan.repairs ∧ c.selection.repair = c.plan.planId ∧
        ∀ active ∈ c.view.latest .active, some active.digest = bundleApk c := by
      constructor
      · rintro ⟨_, _, _, ⟨other, _⟩ | ⟨_, refused⟩⟩
        · exact absurd temporary other
        · exact refused
      · exact fun refused => ⟨by simp [clock], owed.1, owed.2, .inr ⟨temporary, refused⟩⟩
    rw [refused_iff]
    split
    · rename_i other
      exact ⟨fun _ refused => other.elim (· refused.1) (· refused.2.1), fun _ => returns_ok⟩
    rename_i standsIn
    simp only [not_or, not_not] at standsIn
    split
    · rename_i others
      refine ⟨fun _ refused => ?_, fun _ => returns_ok⟩
      obtain ⟨active, found, other⟩ := (Option.any_eq_true _ _).mp others
      exact absurd (refused.2.2.2 active found) (by simpa using other)
    rename_i bytes
    have agree : ∀ active ∈ c.view.latest .active, some active.digest = bundleApk c := by
      intro active found
      have none_ := bytes
      rw [Option.mem_def.mp found] at none_
      simpa using none_
    have stands := realized_returns c.selection standsIn.1 c.plan.rules.planId boot
      (by rw [standsIn.2]; exact Ne.symm c.plan.rules.repairsOther)
    have simple {x : Checked Selection} {f : Selection → Option Selection} :
        Returns (x >>= fun a => pure (f a)) ↔ Returns x := by
      rw [bind_pure_comp, returns_map]
    rw [simple, stands]
    exact ⟨fun apart refused => apart refused.2.2.1,
      fun free linked => free ⟨standsIn.1, standsIn.2, linked, agree⟩⟩
  · rename_i other
    have refused_iff : MoveRefused c cause ↔ c.selection.revision = Int64.maxValue := by
      constructor
      · rintro ⟨_, _, _, ⟨_, refused⟩ | ⟨temporary, _⟩⟩
        · exact refused
        · exact absurd temporary other
      · exact fun refused => ⟨by simp [clock], owed.1, owed.2, .inl ⟨other, refused⟩⟩
    rw [refused_iff, ← ne_eq, ← chosen_returns c.selection now.wall c.plan.rules.planId boot,
      returns_bind_iff]
    constructor
    · exact fun ⟨moved, ran, _⟩ => ⟨moved, ran⟩
    rintro ⟨moved, ran⟩
    have made := Selection.make_eq_ok.mp ran
    exact ⟨moved, ran, returns_map.mpr (cohortCheck_chosen_returns boot (by rw [made])
      (by rw [made]))⟩

/-! ## The rules -/

theorem closeTo_returns {s : State} {why : String} : Returns (closeTo c b s why) := by
  unfold closeTo
  split <;> exact returns_ok

theorem sessionIntent_returns (known : c.ticket.reference.has Reference.nonceField) :
    Returns (sessionIntent c b) := by
  dsimp only [sessionIntent]
  split
  · exact returns_ok
  split
  · exact returns_bind (merge_returns known _) fun _ => returns_ok
  · exact returns_bind (merge_returns known _) fun _ => returns_ok
  · split <;> exact returns_ok

section Rules
variable (sound : c.Sound stored)
include sound

theorem abandon_returns {why : String} : Returns (abandon c b why) := by
  unfold abandon
  split
  · exact returns_ok
  rename_i now found
  split
  · exact returns_ok
  · have clock := (crossingNow_some (frameworkNow_some found).1).1
    exact returns_bind (entry_returns sound (by simp [clock]) (by simp [found]) isHex_noId (by decide)
      isHex_noId (by decide)) fun _ => returns_ok

theorem signNext_returns {into : State} : Returns (signNext c b into) := by
  dsimp only [signNext]
  split
  · exact returns_ok
  rename_i needed
  split
  · exact returns_ok
  · rename_i none_
    exact absurd none_ (signGrants_ne_nil needed)
  · exact returns_bind (granted_returns sound (by decide) sound.fresh.1 (by simp [sound.fresh.2]; decide)
      (fun device => absurd device (by decide)) (fun framework => absurd framework (by decide)))
      fun _ => returns_ok

theorem signing_returns : Returns (signing c b) := by
  dsimp only [signing]
  split
  · exact returns_ok
  split
  · exact returns_ok
  · split
    · exact returns_ok
    · exact signNext_returns sound

theorem publish_returns : Returns (publish c b) := by
  have made : Returns (entry c .publish noId c.freshId) :=
    entry_returns sound (fun device => absurd device (by decide))
      (fun framework => absurd framework (by decide)) isHex_noId (by decide) sound.fresh.1
      (by simp [sound.fresh.2]; decide)
  unfold publish
  repeat' split
  all_goals first | exact returns_ok | exact returns_bind made fun _ => returns_ok

theorem notice_returns {now : Clock} (clock : c.now = some now) {activate : Authorization}
    {why : Option String} : Returns (notice c now b activate why) := by
  have made : Returns (entry c .notice activate.authorizationId noId) :=
    granted_returns sound (by decide) isHex_noId (by decide) (by simp [clock])
      (fun framework => absurd framework (by decide))
  dsimp only [notice]
  repeat' split
  all_goals
    first
    | exact returns_ok
    | exact abandon_returns sound
    | exact returns_bind made fun _ => returns_ok

theorem createSession_returns {now : Clock} (found : frameworkNow c = some now)
    {stage : Authorization} : Returns (createSession c b stage) := by
  have clock := (crossingNow_some (frameworkNow_some found).1).1
  exact returns_bind (withNonce_returns _ sound.fresh.1 sound.fresh.2) fun _ =>
    returns_bind (granted_returns sound (by decide) sound.fresh.1 (by simp [sound.fresh.2]; decide)
      (by simp [clock]) (by simp [found])) fun _ => returns_ok

theorem stage_returns : Returns (stage c b) := by
  unfold stage
  split
  · exact closeTo_returns
  split
  · exact returns_ok
  split
  · exact returns_ok
  split
  · split
    · rename_i found
      split
      · exact createSession_returns sound found
      · exact notice_returns sound (crossingNow_some (frameworkNow_some found).1).1
    · exact returns_ok
  · split
    · exact returns_ok
    · exact createSession_returns sound ‹_›

theorem bound_returns : Returns (bound c b) := by
  dsimp only [bound]
  split
  · exact abandon_returns sound
  split
  · exact returns_ok
  split
  · split
    · split
      · exact returns_ok
      · rename_i found
        have clock := (crossingNow_some (frameworkNow_some found).1).1
        exact returns_bind (entry_returns sound (by simp [clock]) (by simp [found]) isHex_noId
          (by decide) isHex_noId (by decide)) fun _ => returns_ok
    · split
      · exact returns_ok
      · exact abandon_returns sound
  · split
    · exact abandon_returns sound
    · split
      · exact returns_ok
      · rename_i found
        have clock := (crossingNow_some (frameworkNow_some found).1).1
        exact returns_bind (granted_returns sound (by decide) isHex_noId (by decide)
          (by simp [clock]) (by simp [found])) fun _ => returns_ok

theorem commitIntent_returns {newBoot : Bool} : Returns (commitIntent c b newBoot) := by
  have observed (s : Observation) : Returns (commitObserved c b s) := by
    dsimp only [commitObserved]
    repeat' split
    all_goals first | exact returns_ok | exact abandon_returns sound
  dsimp only [commitIntent]
  repeat' split
  all_goals first | exact returns_ok | exact abandon_returns sound | exact observed _

theorem activate_returns : Returns (activate c b) := by
  dsimp only [activate]
  split
  · exact returns_ok
  rename_i now found
  have clock := (crossingNow_some found).1
  split
  · exact abandon_returns sound
  split
  · exact abandon_returns sound
  split
  · exact abandon_returns sound
  split
  · exact notice_returns sound clock
  · exact returns_bind (granted_returns sound (by decide) isHex_noId (by decide)
      (by simp [clock]) (fun framework => absurd framework (by decide))) fun _ => returns_ok

theorem ready_returns {newBoot : Bool} : Returns (ready c b newBoot) := by
  unfold ready
  repeat' split
  all_goals
    first | exact returns_ok | exact abandon_returns sound | exact activate_returns sound

theorem rebootIntent_returns {newBoot : Bool} (requested : (c.ticket.last .reboot).isSome) :
    Returns (rebootIntent c b newBoot) := by
  dsimp only [rebootIntent]
  split
  · exact returns_ok
  split
  · exact returns_ok
  split
  · rename_i none_
    simp [none_] at requested
  split
  · split
    · exact abandon_returns sound
    · exact returns_ok
  · exact returns_ok

theorem abandonIntent_returns {newBoot : Bool} : Returns (abandonIntent c b newBoot) := by
  have again (s : Observation) : Returns (abandonAgain c b s) := by
    dsimp only [abandonAgain]
    repeat' split
    all_goals
      first
      | exact returns_ok
      | skip
    rename_i found
    have clock := (crossingNow_some (frameworkNow_some found).1).1
    exact returns_bind (entry_returns sound (by simp [clock]) (by simp [found]) isHex_noId (by decide)
      isHex_noId (by decide)) fun _ => returns_ok
  dsimp only [abandonIntent]
  repeat' split
  all_goals first | exact returns_ok | exact again _

theorem bootObserved_returns : Returns (bootObserved c b) := by
  have session (active s : Observation) : Returns (bootSession c b active s) := by
    dsimp only [bootSession]
    repeat' split
    all_goals
      first | exact returns_ok | exact closeTo_returns | exact abandon_returns sound
  unfold bootObserved
  repeat' split
  all_goals first | exact returns_ok | exact closeTo_returns | exact session _ _

omit sound

theorem recordLost_returns : Returns (recordLost c b) := by
  unfold recordLost
  repeat' split
  all_goals first | exact returns_ok | exact closeTo_returns

theorem window_returns : Returns (window c b) := by
  have boot {now : Clock} : Returns (windowBoot c now b) := by
    dsimp only [windowBoot]
    repeat' split
    all_goals first | exact returns_ok | exact closeTo_returns
  have users {now : Clock} : Returns (windowUsers c now b) := by
    dsimp only [windowUsers]
    repeat' split
    all_goals first | exact returns_ok | exact closeTo_returns
  unfold window
  repeat' split
  all_goals first | exact returns_ok | exact closeTo_returns | exact boot | exact users

end Rules

/-- The step owes a move of the choice that cannot be made. -/
structure MoveBlocked (c : Context) : Prop where
  bound : unbound c = false
  refused : (c.ticket.state = .appliedProvisional ∧ isNewBoot c = false ∧ crossingAllowed c = true ∧
      appliedFacts c = true ∧ MoveRefused c (starting c).cause) ∨
    ((c.ticket.state = .applied ∨ c.ticket.state = .healthWindow) ∧ MoveRefused c c.ticket.cause)

/-- Every rule of a reachable ticket returns, but for a move that is refused. -/
theorem rule_returns (sound : c.Sound stored) (sequenced : Sequenced stored c.ticket.toBuilder)
    (live : c.ticket.state.terminal = false) (bound_ : unbound c = false ∨ judgesBytes c.ticket.state = false)
    (free : ¬ MoveBlocked c) : Returns (rule c (starting c) (isNewBoot c)) := by
  have shaped := sequenced.shaped
  have judged (judges : judgesBytes c.ticket.state = true) : unbound c = false := by
    simpa [judges] using bound_
  unfold rule
  cases state : c.ticket.state with
  | planned =>
    dsimp only
    repeat' split
    all_goals first | exact returns_ok | exact closeTo_returns
  | authorized =>
    dsimp only
    split
    · exact closeTo_returns
    · exact signNext_returns sound
  | signing => exact signing_returns sound
  | signed =>
    dsimp only
    repeat' split
    all_goals first | exact returns_ok | exact closeTo_returns | exact publish_returns sound
  | published => exact stage_returns sound
  | sessionIntent =>
    refine sessionIntent_returns (c.ticket.rules.ledger.nonce.mp ?_)
    exact created_of_session (by rw [state]) (by simp [state]) live
  | sessionBound | written => exact bound_returns sound
  | commitIntent => exact commitIntent_returns sound
  | ready | readyAgain => exact ready_returns sound
  | rebootIntent =>
    refine rebootIntent_returns sound (last_isSome.mpr ?_)
    exact shaped.requires .reboot (by rw [state]; decide)
  | abandonIntent => exact abandonIntent_returns sound
  | bootObserved => exact bootObserved_returns sound
  | appliedProvisional =>
    dsimp only
    split
    · exact returns_ok
    split
    · rename_i same applied_
      simp only [Bool.and_eq_true, Bool.not_eq_true] at same applied_
      have moved : Returns (move c (starting c).cause) := by
        refine move_returns.mpr fun refused => free ⟨judged (by rw [state]; decide), .inl ?_⟩
        exact ⟨state, same, applied_.1, applied_.2, refused⟩
      exact returns_bind moved fun _ => returns_ok
    · exact returns_ok
  | applied =>
    dsimp only [startWindow]
    split
    · exact returns_ok
    have moved : Returns (move c c.ticket.cause) :=
      move_returns.mpr fun refused =>
        free ⟨judged (by rw [state]; decide), .inr ⟨.inl state, refused⟩⟩
    exact returns_bind moved fun _ => returns_ok
  | healthWindow => exact window_returns
  | nativeRecordLost => exact recordLost_returns
  | failedNative | signFailed | noSession | abandoned => exact closeTo_returns
  | closedApplied | closedFailed | cancelled | void | diverged | superseded =>
    exact absurd live (by rw [state]; decide)

/-! ## The step -/

/-- A superseding closing that waits leaves the successor in the open window. -/
theorem window_superseding {now : Clock} {h : List Health} {k : Cause} {u : Text}
    (closes : WindowCloses c b now h k u .superseded) (clock : c.now = some now)
    (created_ : created c.ticket = true) (waits : crossingAllowed c = false) :
    ∃ d, window c b = .ok d ∧ d.builder.successor = u ∧ d.builder.state = b.state := by
  have wait {b : Ticket.Builder} {s : State} {why : String} :
      closeTo c b s why = holds b (why ++ "; waiting for the checkpoint") := by
    simp [closeTo, created_, waits]
  have agree (bytes : ∀ active ∈ c.view.latest .active, some active.digest = bundleApk c) :
      (c.view.latest .active).any (fun active => some active.digest ≠ bundleApk c) = false := by
    cases found : c.view.latest .active with
    | none => rfl
    | some active => simp [bytes active found]
  unfold window
  simp only [clock]
  cases closes with
  | bootLimitRestores same other limit automatic =>
    simp only [same, other, windowBoot, limit, automatic, wait, if_true, if_false, ne_eq,
      not_false_eq_true, Bool.false_eq_true]
    exact ⟨_, rfl, rfl, rfl⟩
  | takenOver same boot bytes found =>
    simp only [same, boot, agree bytes, found, wait, if_false, ne_eq, not_true_eq_false,
      Bool.false_eq_true]
    exact ⟨_, rfl, rfl, rfl⟩
  | restores same boot bytes none_ automatic failed_ =>
    simp only [same, boot, agree bytes, none_, windowUsers, automatic, failed_, wait, if_true, if_false,
      ne_eq, not_true_eq_false, Bool.false_eq_true, and_self]
    exact ⟨_, rfl, rfl, rfl⟩

/-- A superseding closing that waits is never accepted. -/
theorem SupersedingWaits.unfit (waiting : SupersedingWaits c) {d : Draft}
    (ran : rule c (starting c) (isNewBoot c) = .ok d) : ¬ Fits c.ticket d.builder := by
  obtain ⟨now, h, k, u, clock, closes⟩ := waiting.closes
  have created_ : created c.ticket = true := created_iff.mpr <|
    created_of_session (by rw [waiting.window]; decide) (by simp [waiting.window])
      (by rw [waiting.window]; decide)
  obtain ⟨d', ran', successor, state⟩ := window_superseding closes clock created_ waiting.waits
  have same : d = d' := by
    simp only [rule, waiting.window, ran', Except.ok.injEq] at ran
    exact ran.symm
  subst same
  rintro ⟨next, built, _⟩
  have rule_ := next.rules.successor
  rw [built, successor, state] at rule_
  rcases closes.successor with ⟨other, _⟩ | ⟨_, _, some_, _⟩
  · exact other rfl
  · refine some_ (rule_.mp ?_)
    rw [show (starting c).state = c.ticket.state from rfl, waiting.window]
    simp

theorem unobserved_eq_false (sound : c.Sound stored) : unobserved c = false := by
  unfold unobserved
  cases clock : c.now with
  | none => simp
  | some now => simp [sound.observed clock]

theorem MoveBlocked.stops (blocked : MoveBlocked c) {d : Draft} {owed : Option Selection}
    (ran : rule c (starting c) (isNewBoot c) = .ok d) (moved : owedMove c = .ok owed) : False := by
  rcases blocked.refused with ⟨state, same, allowed, facts, refused⟩ | ⟨state | state, refused⟩
  · simp only [rule, state, same, allowed, facts, applied, Bool.and_self, if_true, if_false,
      Bool.false_eq_true, bind_eq_ok] at ran
    obtain ⟨next, moved, _⟩ := ran
    exact move_returns.mp ⟨next, moved⟩ refused
  · obtain ⟨now, clock⟩ := Option.isSome_iff_exists.mp refused.clock
    simp only [rule, state, startWindow, clock, bind_eq_ok] at ran
    obtain ⟨next, moved, _⟩ := ran
    exact move_returns.mp ⟨next, moved⟩ refused
  · simp only [owedMove, state, if_true] at moved
    exact move_returns.mp ⟨owed, moved⟩ refused

theorem reachable_step_returns (reachable : Reachable stored c.ticket) (sound : c.Sound stored) :
    Returns (step c) ↔ ¬ SupersedingWaits c ∧ ¬ MoveBlocked c := by
  have sequenced := reachable.sequenced
  rw [Returns, step_total]
  by_cases terminal : c.ticket.state.terminal = true
  · simp only [terminal, true_or, true_iff]
    constructor
    · intro waiting
      exact absurd terminal (by rw [waiting.window]; decide)
    · rintro ⟨_, ⟨state, _⟩ | ⟨state | state, _⟩⟩ <;> exact absurd terminal (by rw [state]; decide)
  have live : c.ticket.state.terminal = false := by simpa using terminal
  simp only [live, unobserved_eq_false sound, Bool.false_eq_true, false_or]
  by_cases held : holding c = true
  · have missing : unbound c = true := by
      simp only [holding, Bool.and_eq_true] at held
      exact held.1
    simp only [held, if_true, starting_fits sound sequenced live, true_iff]
    exact ⟨fun waiting => by simp [waiting.bound] at missing,
      fun blocked => by simp [blocked.bound] at missing⟩
  have moving : holding c = false := by simpa using held
  simp only [moving, Bool.false_eq_true, if_false]
  constructor
  · rintro ⟨d, owed, ran, moved, fits⟩
    exact ⟨fun waiting => waiting.unfit ran fits, fun blocked => blocked.stops ran moved⟩
  rintro ⟨free, unblocked⟩
  have bound_ : unbound c = false ∨ judgesBytes c.ticket.state = false := by
    unfold holding at moving
    cases missing : unbound c with
    | false => exact .inl rfl
    | true => simp_all
  obtain ⟨d, ran⟩ := rule_returns sound sequenced live bound_ unblocked
  have moved : ∃ owed, owedMove c = .ok owed := by
    unfold owedMove
    split
    · rename_i state
      refine move_returns.mpr fun refused => unblocked ⟨?_, .inr ⟨.inr state, refused⟩⟩
      simpa [state, judgesBytes] using bound_
    · exact returns_ok
  obtain ⟨owed, moved⟩ := moved
  exact ⟨d, owed, ran, moved, (rule_turns d ran).fits sound sequenced live moving free⟩

/-- A step returns for every reachable ticket under every sound context, unless
a superseding closing has to wait for the checkpoint or an owed move of the
choice cannot be made. -/
theorem step_returns_iff (reachable : Reachable stored c.ticket) (sound : c.Sound stored) :
    (∃ s, step c = .ok s) ↔ ¬ SupersedingWaits c ∧ ¬ MoveBlocked c :=
  reachable_step_returns reachable sound

def plannedContext : Context := sampleSetting.context sampleTicket rfl none (sampleId 'c')

/-- The first step of the sample ticket returns. -/
theorem planned_step_returns : ∃ s, step plannedContext = .ok s := by
  have reachable : Reachable sampleSetting.stored plannedContext.ticket := .planned rfl rfl
  have sound : plannedContext.Sound sampleSetting.stored := by decide +kernel
  refine (step_returns_iff reachable sound).mpr ⟨fun waiting => ?_, ?_⟩
  · exact absurd waiting.window (by decide +kernel)
  · rintro ⟨_, ⟨state, _⟩ | ⟨state | state, _⟩⟩ <;> exact absurd state (by decide +kernel)

/-! A repair plan takes over in a boot whose checkpoint is not committed yet: the
closing waits with the successor already set, and the constructor refuses it. -/

def repairPlan : Plan where
  toBuilder := { samplePlanFields 0 with
    planId := sampleId 'f', repairs := sampleId '2', bundleInput := sampleDigest 'a'
    restorationInput := noDigest, restorationVersion := 0 }
  valid := by decide +kernel

def windowTicket : Ticket := (sampleSetting.replay sampleTicket sampleRun).get (by decide +kernel)

def takeoverContext : Context :=
  { sampleSetting with repairs := [repairPlan] }.context windowTicket (by decide +kernel)
    (sampleClock 'e' 40) (sampleId 'c')

theorem takeover_before_checkpoint_throws :
    Reachable sampleSetting.stored takeoverContext.ticket ∧
      takeoverContext.Sound sampleSetting.stored ∧ takeoverContext.ticket.state = .healthWindow ∧
      step takeoverContext = .error (.illegalArgument "a successor exactly in SUPERSEDED") := by
  have ran : sampleSetting.replay sampleTicket sampleRun = some windowTicket := by
    rw [windowTicket, Option.some_get]
  have reached : Reachable sampleSetting.stored windowTicket :=
    Setting.replay_reachable (.planned rfl rfl) ran
  refine ⟨?_, by decide +kernel, by decide +kernel, thrown_eq_some.mp (by decide +kernel)⟩
  rwa [takeoverContext, Setting.context_ticket]

end Andrix.Deployment
