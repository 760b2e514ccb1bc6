import Andrix.Deployment.Outcomes
import Andrix.Deployment.Reachable

/-! Every draft that a rule leaves for a reachable ticket is accepted by the
ticket's constructor and by the ticket machine, except where a superseding
closing has to wait for the checkpoint. Each part of the two checks is settled on
its own over all drafts: identity, flags, cause, window, successor, health,
ledger, reference and the state's exit. -/
namespace Andrix.Deployment
open Andrix.Lib Ticket.Builder

variable {c : Context} {d : Draft} {stored : Text → Option Authorization}

/-! ## What no rule changes -/

structure Carries (b after : Ticket.Builder) : Prop where
  identity : b.installation = after.installation ∧ b.ticketId = after.ticketId ∧
    b.component = after.component ∧ b.planId = after.planId ∧ b.attempt = after.attempt
  coordinator : b.coordinatorClass = after.coordinatorClass ∧ b.coordinator = after.coordinator
  boots : b.boot = after.boot ∧ b.bootCount = after.bootCount

variable {b : Ticket.Builder} {newBoot : Bool}

theorem Turn.carries (turn : Turn c b newBoot d) :
    Carries b d.builder := by
  cases turn with
  | stays _ _ _ built | idles _ built | restarts _ _ _ _ _ built | observes _ _ _ _ built
  | windowWaits _ _ _ _ _ built | moves _ _ built | closes _ _ built | windowCloses _ _ _ _ built
  | binds _ _ _ _ built | applies _ _ _ _ _ built | opensWindow _ _ _ built | crosses _ built =>
    rw [built]
    exact ⟨⟨rfl, rfl, rfl, rfl, rfl⟩, ⟨rfl, rfl⟩, ⟨rfl, rfl⟩⟩

/-! ## Flags -/

variable {state : State}

theorem Flagged.trans {x y z : BitVec 32} (first : Flagged state x y)
    (second : Flagged state y z) : Flagged state x z where
  alerts := by
    have kept := first.alerts
    have kept' := second.alerts
    simp only [eq_zero_iff_bits, BitVec.getElem_and, BitVec.getElem_not, BitVec.getElem_or]
      at kept kept' ⊢
    grind
  known known := second.known (first.known known)
  unresolved held := by
    rcases second.unresolved held with held | intent
    · exact first.unresolved held
    · exact .inr intent

theorem Flagged.bootLimit {before : BitVec 32} :
    Flagged state before (before ||| flagBootLimit) where
  alerts := and_not_or_eq_zero
  known known := or_within known (by decide)
  unresolved held := .inl (by rwa [or_and_of_apart (by decide)] at held)

theorem Settled.flagged {before after : BitVec 32}
    (settled : Settled state before after) : Flagged state before after := by
  rcases settled with rfl | ⟨rfl, _⟩
  · exact .clear
  · exact .refl

theorem starting_flagged (c : Context) :
    Flagged c.ticket.state c.ticket.flags (starting c).flags := by
  have opened : Flagged c.ticket.state c.ticket.flags (opening c).flags := by
    dsimp only [opening]
    split
    · exact .bootLimit
    · exact .refl
  dsimp only [starting]
  split
  · exact opened.alert
  · exact opened

/-- The flags of a draft: alerts are kept, and UNRESOLVED stands in an intent
state only. -/
structure FlagsFit (t : Ticket) (b : Ticket.Builder) : Prop where
  flagged : Flagged t.state t.flags b.flags
  unresolved : ¬ b.flags &&& flagUnresolved = 0 → b.state.intent = true

private theorem starting_resolved (quiet : c.ticket.state.intent = false) :
    (starting c).flags &&& flagUnresolved = 0 := by
  by_contra held
  rcases (starting_flagged c).unresolved held with before | intent
  · exact absurd (c.ticket.rules.unresolved before) (by simp [quiet])
  · simp [quiet] at intent

theorem Turn.flagsFit (turn : Turn c (starting c) newBoot d) :
    FlagsFit c.ticket d.builder := by
  have flagged := starting_flagged c
  have intent {f : BitVec 32} (kept : Flagged c.ticket.state (starting c).flags f)
      (held : ¬ f &&& flagUnresolved = 0) : c.ticket.state.intent = true := by
    rcases (flagged.trans kept).unresolved held with before | intent
    · exact c.ticket.rules.unresolved before
    · exact intent
  cases turn with
  | stays _ kept _ built =>
    rw [built]
    exact ⟨flagged.trans kept, intent kept⟩
  | idles _ built | restarts _ _ _ _ _ built | observes _ _ _ _ built
  | windowWaits _ _ _ _ _ built =>
    rw [built]
    exact ⟨flagged, intent .refl⟩
  | moves _ settled built =>
    rw [built]
    refine ⟨flagged.trans settled.flagged, fun held => absurd ?_ held⟩
    rcases settled with rfl | ⟨rfl, quiet⟩
    · exact clear_and_self
    · exact starting_resolved quiet
  | closes _ _ built | windowCloses _ _ _ _ built | binds _ _ _ _ built | crosses _ built =>
    rw [built]
    exact ⟨flagged.trans .clear, fun held => absurd clear_and_self held⟩
  | applies state _ _ _ _ built | opensWindow state _ _ built =>
    rw [built]
    exact ⟨flagged, fun held => absurd (starting_resolved (by rw [state]; rfl)) held⟩

/-! ## Causes -/

theorem le_maxCause (a b : Cause) : code a ≤ code (maxCause a b) := by
  cases a <;> cases b <;> decide

theorem Raised.le {before after : Cause} (raised : Raised before after) :
    code before ≤ code after := by
  rcases raised with rfl | ⟨seen, rfl⟩
  · exact Nat.le_refl _
  · exact le_maxCause before seen

variable {s : State}

theorem Moves.live (moves : Moves c b newBoot s) :
    s.terminal = false :=
  (by decide : ∀ edge ∈ moveEdges, edge.2.terminal = false) _ moves.edge

variable {k : Cause}

theorem Crosses.live {e : Entry} {r : Reference}
    (crosses : Crosses c b s e r k) : s.terminal = false :=
  (by decide : ∀ edge ∈ crossEdges, edge.2.2.terminal = false) _ crosses.edge

/-- A cause that fits: it only rises, and a closing state has its own. -/
structure CauseFits (t : Ticket) (b : Ticket.Builder) : Prop where
  rises : code t.cause ≤ code b.cause
  closing : b.validateCause = .ok ()

theorem validateCause_live (live : b.state.terminal = false) :
    b.validateCause = .ok () := by
  rw [validateCause_eq_ok]
  refine ⟨fun state => ?_, fun state => ?_, fun state => ?_, fun state => ?_⟩ <;>
    exact absurd live (by rw [state]; decide)

theorem validateCause_closing {t : Ticket} (state : b.state = closingState t b.cause) :
    b.validateCause = .ok () := by
  have rest (k : Cause) : k ≠ .cancelled → k.voids = false → k ≠ .otherBytes → k = .none := by
    cases k <;> decide
  rw [validateCause_eq_ok, state]
  unfold closingState
  split
  · simpa
  split
  · simp [*]
  · split
    · split <;> simp [*]
    · simpa using rest b.cause ‹_› (by simpa using ‹¬ b.cause.voids = true›) ‹_›

private theorem maxCause_otherBytes (k : Cause) : maxCause k .otherBytes = .otherBytes := by
  cases k <;> decide

private theorem maxCause_voidBase (k : Cause) :
    (maxCause k .voidBase).voids = true ∨ maxCause k .voidBase = .otherBytes := by
  cases k <;> decide

theorem Closes.causeFits (closes : Closes c b k s) :
    code b.cause ≤ code k ∧
      ∀ b' : Ticket.Builder, b'.state = s → b'.cause = k → b'.validateCause = .ok () := by
  cases closes with
  | caused =>
    exact ⟨Nat.le_refl _, fun b' state cause => validateCause_closing (cause ▸ state)⟩
  | ended _ raised =>
    exact ⟨raised.le, fun b' state cause => validateCause_closing (cause ▸ state)⟩
  | diverged =>
    refine ⟨le_maxCause _ _, fun b' state cause => ?_⟩
    rw [validateCause_eq_ok]
    simp [state, cause, maxCause_otherBytes]
  | void _ kind =>
    refine ⟨le_maxCause _ _, fun b' state cause => ?_⟩
    rw [validateCause_eq_ok]
    rcases kind with rfl | rfl
    · simpa [state, cause] using maxCause_voidBase b.cause
    · simp [state, cause, maxCause_otherBytes]

variable {now : Clock} {h : List Health} {u : Text}

theorem WindowCloses.causeFits
    (closes : WindowCloses c b now h k u s) :
    code b.cause ≤ code k ∧
      ∀ b' : Ticket.Builder, b'.state = s → b'.cause = k → b'.validateCause = .ok () := by
  cases closes with
  | otherBytes =>
    refine ⟨le_maxCause _ _, fun b' state cause => ?_⟩
    rw [validateCause_eq_ok]
    simp [state, cause, maxCause_otherBytes]
  | imageChange | bootLimit | bootLimitRestores | takenOver | restores | completed =>
    refine ⟨Nat.le_refl _, fun b' state cause => ?_⟩
    rw [validateCause_eq_ok]
    simp [state]

theorem Turn.causeFits (turn : Turn c (starting c) newBoot d)
    (live : c.ticket.state.terminal = false) : CauseFits c.ticket d.builder := by
  have opened : code c.ticket.cause ≤ code (starting c).cause := le_maxCause _ _
  cases turn with
  | stays _ _ raised built =>
    rw [built]
    exact ⟨Nat.le_trans opened raised.le, validateCause_live live⟩
  | idles _ built | restarts _ _ _ _ _ built | observes _ _ _ _ built =>
    rw [built]
    exact ⟨opened, validateCause_live live⟩
  | windowWaits _ _ closes _ _ built =>
    rw [built]
    exact ⟨Nat.le_trans opened closes.causeFits.1, validateCause_live live⟩
  | moves moves _ built =>
    rw [built]
    exact ⟨opened, validateCause_live moves.live⟩
  | closes closes _ built | windowCloses _ _ closes _ built =>
    rw [built]
    exact ⟨Nat.le_trans opened closes.causeFits.1, closes.causeFits.2 _ rfl rfl⟩
  | binds _ _ _ _ built | applies _ _ _ _ _ built | opensWindow _ _ _ built =>
    rw [built]
    exact ⟨opened, validateCause_live rfl⟩
  | crosses crosses built =>
    rw [built]
    refine ⟨?_, validateCause_live crosses.live⟩
    cases crosses with
    | abandon _ _ _ _ raised => exact Nat.le_trans opened raised.le
    | sign | publish | create | write | commit | notice | reboot => exact opened

/-! ## The window -/

theorem Clock.boot_hex (now : Clock) : IsHex 32 now.boot := (checkId_eq_ok.mp now.valid).1

theorem Context.Sound.observed (sound : c.Sound stored) (clock : c.now = some now) :
    c.view.bootObserved = true := by
  obtain ⟨o, fact, kind, boot⟩ := sound.boot now clock
  have member : o ∈ c.view.ofKind .boot :=
    View.mem_ofKind.mpr ⟨fact, kind, boot.trans (c.sameBoot now clock)⟩
  rw [View.bootObserved, View.latest_eq_getLast, List.getLast?_isSome]
  exact List.ne_nil_of_mem member

theorem Context.Sound.seenBoot (sound : c.Sound stored) (clock : c.now = some now) :
    seenBoot c = now.boot := by
  simp [Deployment.seenBoot, clock, sound.observed clock]

/-- The rules outside the health window start and end outside of it, before any
health outcome. -/
theorem Moves.outside (moves : Moves c b newBoot s) :
    c.ticket.state ≠ .healthWindow ∧ s ≠ .healthWindow ∧
      healthState c.ticket.state = false :=
  (by decide : ∀ edge ∈ moveEdges, edge.1 ≠ .healthWindow ∧ edge.2 ≠ .healthWindow ∧
    healthState edge.1 = false) _ moves.edge

theorem Crosses.outside {e : Entry} {r : Reference}
    (crosses : Crosses c b s e r k) : c.ticket.state ≠ .healthWindow ∧ s ≠ .healthWindow ∧
      healthState c.ticket.state = false :=
  (by decide : ∀ edge ∈ crossEdges, edge.1 ≠ .healthWindow ∧ edge.2.2 ≠ .healthWindow ∧
    healthState edge.1 = false) _ crosses.edge

/-- What the constructor asks of a window. -/
structure WindowFits (b : Ticket.Builder) : Prop where
  hex : IsHex 32 b.windowBoot
  boot : ¬ b.state = .healthWindow ↔ b.windowBoot = noId
  start : (b.state = .healthWindow → ¬ b.windowStart < 0) ∧
    (¬ b.state = .healthWindow → b.windowStart = 0)

theorem WindowFits.outside (outside : b.state ≠ .healthWindow)
    (boot : b.windowBoot = noId) (start : b.windowStart = 0) : WindowFits b :=
  ⟨boot ▸ isHex_noId, by simp [outside, boot], by simp [outside, start]⟩

theorem WindowFits.inside (inside : b.state = .healthWindow)
    (boot : b.windowBoot = now.boot) (start : b.windowStart = now.elapsed)
    (elapsed : 0 ≤ now.elapsed) : WindowFits b :=
  ⟨boot ▸ now.boot_hex, by simp [inside, boot, now.boot_ne],
    by simpa [inside, start] using Int64.not_lt.mpr elapsed⟩

theorem Turn.windowFits (turn : Turn c (starting c) newBoot d)
    (sound : c.Sound stored) : WindowFits d.builder := by
  have opened : WindowFits (starting c) :=
    ⟨c.ticket.rules.windowHex, c.ticket.rules.window, c.ticket.rules.windowStart⟩
  have noBoot (outside : c.ticket.state ≠ .healthWindow) : (starting c).windowBoot = noId :=
    opened.boot.mp outside
  have noStart (outside : c.ticket.state ≠ .healthWindow) : (starting c).windowStart = 0 :=
    opened.start.2 outside
  cases turn with
  | stays _ _ _ built | idles _ built | observes _ _ _ _ built | windowWaits _ _ _ _ _ built =>
    rw [built]
    exact ⟨opened.hex, opened.boot, opened.start⟩
  | restarts state clock _ _ _ built =>
    rw [built]
    exact .inside state rfl rfl (sound.clock _ clock).2
  | opensWindow _ clock _ built =>
    rw [built]
    exact .inside rfl rfl rfl (sound.clock _ clock).2
  | moves moves _ built =>
    rw [built]
    exact .outside moves.outside.2.1 (noBoot moves.outside.1) (noStart moves.outside.1)
  | crosses crosses built =>
    rw [built]
    exact .outside crosses.outside.2.1 (noBoot crosses.outside.1) (noStart crosses.outside.1)
  | binds state _ _ _ built | applies state _ _ _ _ built =>
    rw [built]
    exact .outside (by simp) (noBoot (by simp [state])) (noStart (by simp [state]))
  | closes closes _ built | windowCloses _ _ closes _ built =>
    rw [built]
    refine .outside (fun window => ?_) rfl rfl
    dsimp only at window
    subst window
    exact absurd closes.terminal (by decide)

/-! ## The successor -/

/-- A closing of the health window that names a successor has to wait for the
checkpoint commit. -/
structure SupersedingWaits (c : Context) : Prop where
  window : c.ticket.state = .healthWindow
  bound : unbound c = false
  closes : ∃ now h k u, c.now = some now ∧ WindowCloses c (starting c) now h k u .superseded
  waits : crossingAllowed c = false

/-- What the two checks ask of a successor: it stands exactly in SUPERSEDED and
names another plan. -/
structure SuccessorFits (b : Ticket.Builder) : Prop where
  hex : IsHex 32 b.successor
  exact_ : ¬ b.state = .superseded ↔ b.successor = noId
  other : ¬ b.successor = b.planId

theorem SuccessorFits.none (state : b.state ≠ .superseded)
    (successor : b.successor = noId) (planId : b.planId ≠ noId) : SuccessorFits b :=
  ⟨successor ▸ isHex_noId, by simp [state, successor], by rw [successor]; exact planId.symm⟩

theorem takesOver_some {repair : Plan} (found : takesOver c = some repair) :
    repair.repairs = c.plan.planId := by
  have sat := List.find?_some found
  simp only [Bool.and_eq_true, decide_eq_true_eq] at sat
  exact sat.1

theorem WindowCloses.successor
    (closes : WindowCloses c b now h k u s) :
    (s ≠ .superseded ∧ u = b.successor) ∨
      (s = .superseded ∧ IsHex 32 u ∧ u ≠ noId ∧ u ≠ c.plan.planId) := by
  have restores (automatic : c.plan.healthResponse = .restoreAutomatically) :
      IsHex 32 c.plan.restorationPlan ∧ c.plan.restorationPlan ≠ noId ∧
        c.plan.restorationPlan ≠ c.plan.planId :=
    ⟨c.plan.rules.restorationHex, fun none_ => c.plan.rules.restoration.mpr none_ automatic,
      c.plan.rules.restorationOther.1⟩
  cases closes with
  | imageChange | bootLimit | otherBytes | completed => exact .inl ⟨by decide, rfl⟩
  | bootLimitRestores _ _ _ automatic | restores _ _ _ _ automatic =>
    exact .inr ⟨rfl, restores automatic⟩
  | @takenOver repair _ _ _ found =>
    refine .inr ⟨rfl, repair.rules.planId.1, repair.rules.planId.2, fun same => ?_⟩
    exact repair.rules.repairsOther ((takesOver_some found).trans same.symm)

theorem Turn.successorFits (turn : Turn c (starting c) newBoot d)
    (live : c.ticket.state.terminal = false) (moving : holding c = false)
    (free : ¬ SupersedingWaits c) : SuccessorFits d.builder := by
  have current : c.ticket.state ≠ .superseded := fun state => absurd live (by rw [state]; decide)
  have none_ : (starting c).successor = noId := c.ticket.rules.successor.mp current
  have planId : (starting c).planId ≠ noId := c.ticket.rules.planId.2
  have quiet {s : State} (live : s.terminal = false) : s ≠ .superseded :=
    fun state => absurd live (by rw [state]; decide)
  cases turn with
  | stays _ _ _ built | idles _ built | restarts _ _ _ _ _ built | observes _ _ _ _ built =>
    rw [built]
    exact .none current none_ planId
  | moves moves _ built =>
    rw [built]
    exact .none (quiet moves.live) none_ planId
  | crosses crosses built =>
    rw [built]
    exact .none (quiet crosses.live) none_ planId
  | binds _ _ _ _ built | applies _ _ _ _ _ built | opensWindow _ _ _ built =>
    rw [built]
    exact .none (by simp) none_ planId
  | closes closes _ built =>
    rw [built]
    refine .none ?_ none_ planId
    cases closes with
    | caused | ended =>
      dsimp only [closingState]
      repeat' split
      all_goals simp
    | diverged | void => simp
  | windowWaits window clock closes _ waits built =>
    rw [built]
    rcases closes.successor with ⟨_, same⟩ | ⟨rfl, _⟩
    · exact .none current (same.trans none_) planId
    · have bound : unbound c = false := by simpa [holding, judgesBytes, window] using moving
      exact absurd ⟨window, bound, ⟨_, _, _, _, clock, closes⟩, waits⟩ free
  | windowCloses _ _ closes _ built =>
    rw [built]
    rcases closes.successor with ⟨other, same⟩ | ⟨superseded, hex, some_, other⟩
    · exact .none other (same.trans none_) planId
    · exact ⟨hex, by simp [superseded, some_], fun same => other (same.trans c.ofPlan)⟩

/-! ## Health -/

/-- What the two checks ask of the health outcomes. -/
structure HealthFits (t : Ticket) (b : Ticket.Builder) : Prop where
  advances : Advances t.health b.health
  state : ¬ b.health = [] → healthState b.state = true
  observing : ∀ x ∈ b.health, x.outcome = .observing →
    (b.state = .applied || b.state = .healthWindow) = true

theorem HealthFits.none {t : Ticket} (before : t.health = [])
    (after : b.health = []) : HealthFits t b :=
  ⟨by rw [before, after]; exact .refl (by simp) (by simp), by simp [after], by simp [after]⟩

theorem WindowCloses.advances
    (closes : WindowCloses c b now h k u s)
    (ordered : b.health.Pairwise Health.before) (bounded : b.health.length ≤ maxUsers) :
    Advances b.health h ∧ (∀ x ∈ h, x.outcome ≠ .observing) ∧
      healthState s = true := by
  have observed := observeUsers_advances c c.ticket.windowStart ordered bounded
  cases closes with
  | imageChange | otherBytes | takenOver | bootLimit | bootLimitRestores =>
    exact ⟨finish_advances _ ordered bounded, finish_final (by decide) _, by decide⟩
  | restores =>
    exact ⟨observed.trans (finish_advances _ observed.ordered observed.bounded),
      finish_final (by decide) _, by decide⟩
  | completed =>
    exact ⟨observed.trans (judge_advances c observed.ordered observed.bounded), judge_final c _,
      by decide⟩

theorem Turn.healthFits (turn : Turn c (starting c) newBoot d) :
    HealthFits c.ticket d.builder := by
  have rules := c.ticket.rules
  have ordered : (starting c).health.Pairwise Health.before := rules.health.2
  have bounded : (starting c).health.length ≤ maxUsers := rules.healthCount
  have empty (early : healthState c.ticket.state = false) : c.ticket.health = [] := by
    by_contra some_
    simp [rules.healthState some_] at early
  have inWindow (state : c.ticket.state = .healthWindow) {h : List Health}
      (advances : Advances c.ticket.health h) {b : Ticket.Builder} (health : b.health = h)
      (same : b.state = c.ticket.state) : HealthFits c.ticket b :=
    ⟨health ▸ advances, fun _ => by rw [same, state]; decide, fun _ _ _ => by rw [same, state]; decide⟩
  cases turn with
  | stays _ _ _ built =>
    rw [built]
    exact ⟨.refl ordered bounded, rules.healthState, rules.health.1⟩
  | idles state built | restarts state _ _ _ _ built =>
    rw [built]
    exact inWindow state (.refl ordered bounded) rfl rfl
  | observes state _ _ _ built =>
    rw [built]
    exact inWindow state (observeUsers_advances c _ ordered bounded) rfl rfl
  | windowWaits state _ closes _ _ built =>
    rw [built]
    exact inWindow state (closes.advances ordered bounded).1 rfl rfl
  | windowCloses _ _ closes _ built =>
    rw [built]
    obtain ⟨advances, final, state⟩ := closes.advances ordered bounded
    exact ⟨advances, fun _ => state, fun x among observing => absurd observing (final x among)⟩
  | opensWindow _ _ _ built =>
    rw [built]
    exact ⟨observeUsers_advances c _ ordered bounded, fun _ => rfl, fun _ _ _ => rfl⟩
  | moves moves _ built =>
    rw [built]
    exact .none (empty moves.outside.2.2) (empty moves.outside.2.2)
  | crosses crosses built =>
    rw [built]
    exact .none (empty crosses.outside.2.2) (empty crosses.outside.2.2)
  | binds state _ _ _ built | applies state _ _ _ _ built =>
    rw [built]
    exact .none (empty (by rw [state]; decide)) (empty (by rw [state]; decide))
  | closes closes _ built =>
    rw [built]
    have early : healthState c.ticket.state = false := by
      cases closes with
      | caused state => rcases state with state | state | state | state <;> rw [state] <;> decide
      | ended state =>
        rcases state with state | state | state | state | state <;> rw [state] <;> decide
      | diverged state => rcases state with state | ⟨state, _⟩ <;> rw [state] <;> decide
      | void state => rw [state]; decide
    exact .none (empty early) (empty early)

end Andrix.Deployment
