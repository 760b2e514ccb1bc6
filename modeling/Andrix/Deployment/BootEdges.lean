import Andrix.Deployment.Replay

/-! The boot of a ticket that waits for a BOOT edge. A step records the boot it
sees before any rule runs, and each rule then takes the edge out of its state.
A step that only holds, because the plan's publication read is missing or
disagrees, runs no rule: it records a new boot and leaves the ticket where it
was, so that no later step sees that boot as new. -/
namespace Andrix.Deployment
open Andrix.Lib Option

/-- The states in which a ticket waits in the boot it entered them in. -/
def State.awaitsBoot : State → Bool
  | .commitIntent | .ready | .readyAgain | .rebootIntent | .appliedProvisional => true
  | _ => false

/-- The ticket's boot is the one in which it entered its state, and that of its
last reboot request in REBOOT_INTENT. -/
structure KeepsBoot (t : Ticket) (entered : Text) : Prop where
  boot : t.state.awaitsBoot = true → t.boot = entered
  request : t.state = .rebootIntent → ∃ e, t.last .reboot = some e ∧ t.boot = e.boot

/-- The step holds a waiting ticket and records another boot than the ticket's. -/
def absorbsBoot (c : Context) : Bool := c.ticket.state.awaitsBoot && holding c && isNewBoot c

/-! ## Runs

A run keeps, with each step, the boot in which its ticket had entered its
state. -/

structure Watched where
  context : Context
  entered : Text

/-- The tickets that steps and cancellations reach, with the steps so far, the
last one first, and the boot in which the ticket entered its state. Each step
has a clock and has observed its boot. -/
inductive Watching : List Watched → Ticket → Text → Prop
  | planned {t} : t.state = .planned → t.ledger = [] → Watching [] t t.boot
  | step {past c s now entered} : Watching past c.ticket entered → c.now = some now →
    c.view.bootObserved = true → step c = .ok s →
    Watching (⟨c, entered⟩ :: past) s.ticket
      (if s.ticket.state = c.ticket.state then entered else now.boot)
  | cancel {past t next entered} : Watching past t entered → cancel t = .ok (some next) →
    Watching past next entered

/-! ## One step -/

section Step
variable {c : Context} {s : Step} {now : Clock} {entered : Text}

/-- A rule that sees a new boot in a waiting state leaves it for BOOT_OBSERVED. -/
theorem rule_newBoot {b : Ticket.Builder} {d : Draft} (awaits : c.ticket.state.awaitsBoot = true)
    (ran : rule c b true = .ok d) : d.builder.state = .bootObserved := by
  unfold rule at ran
  unfold State.awaitsBoot at awaits
  split at ran <;> rename_i state <;> simp only [state, Bool.false_eq_true] at awaits
  · simp only [commitIntent, if_true, goTo, holds, hands] at ran
    cases ran
    rfl
  · simp only [ready, if_true, goTo, holds, hands] at ran
    cases ran
    rfl
  · simp only [ready, if_true, goTo, holds, hands] at ran
    cases ran
    rfl
  · simp only [rebootIntent, if_true, goTo, holds, hands] at ran
    cases ran
    rfl
  · simp only [if_true, goTo, holds, hands] at ran
    cases ran
    rfl

theorem seenBoot_eq (clock : c.now = some now) (observed : c.view.bootObserved = true) :
    seenBoot c = now.boot := by
  simp [seenBoot, clock, observed]

theorem isNewBoot_eq (clock : c.now = some now) (observed : c.view.bootObserved = true)
    (known : c.ticket.boot ≠ noId) : isNewBoot c = decide (now.boot ≠ c.ticket.boot) := by
  simp [isNewBoot, clock, observed, known]

theorem unobserved_of_observed (observed : c.view.bootObserved = true) : unobserved c = false := by
  simp [unobserved, observed]

/-- In REBOOT_INTENT the last reboot request is either the one there was or the
one the step makes. -/
theorem Turn.request {b : Ticket.Builder} {newBoot : Bool} {d : Draft} (turn : Turn c b newBoot d)
    (ledger : b.ledger = c.ticket.ledger) (same : b.state = c.ticket.state) (clock : c.now = some now)
    (state : d.builder.state = .rebootIntent) :
    (c.ticket.state = .rebootIntent ∧ d.builder.ledger = c.ticket.ledger) ∨
      ∃ e, d.builder.last .reboot = some e ∧ e.boot = now.boot := by
  cases turn with
  | stays _ _ _ built =>
    rw [built] at state ⊢
    exact .inl ⟨same.symm.trans state, ledger⟩
  | moves moves_ _ built =>
    rw [built] at state
    have closed : ∀ edge ∈ moveEdges, edge.2 ≠ .rebootIntent := by decide
    exact absurd state (closed _ moves_.edge)
  | crosses crosses_ built =>
    rw [built] at state ⊢
    have closed : ∀ edge ∈ crossEdges, edge.2.2 = .rebootIntent → edge.2.1 = .reboot := by decide
    have crossing : _ = Crossing.reboot := closed _ crosses_.edge state
    dsimp only at crossing
    refine .inr ⟨_, ?_, (crosses_.recorded.1 now clock).1⟩
    rw [Ticket.Builder.last, List.filter_append, List.filter_singleton, crossing]
    exact List.getLast?_concat
  | closes closes_ _ built =>
    rw [built] at state
    dsimp only at state
    have closed := closes_.terminal
    rw [state] at closed
    cases closed
  | binds _ _ _ _ built | applies _ _ _ _ _ built | opensWindow _ _ _ built =>
    rw [built] at state
    cases state
  | idles window built | restarts window _ _ _ _ built | observes window _ _ _ built
  | windowWaits window _ _ _ _ built =>
    rw [built] at state
    rw [← same] at window
    exact absurd (window.symm.trans state) (by decide)
  | windowCloses _ _ closes_ _ built =>
    rw [built] at state
    dsimp only at state
    subst state
    cases closes_

/-- **One step keeps the boot of a waiting ticket exactly when it does not absorb
a new one.** -/
theorem step_keepsBoot_iff (kept : KeepsBoot c.ticket entered)
    (named : c.ticket.state ≠ .planned → entered ≠ noId) (clock : c.now = some now)
    (observed : c.view.bootObserved = true) (ran : step c = .ok s) :
    KeepsBoot s.ticket (if s.ticket.state = c.ticket.state then entered else now.boot) ↔
      absorbsBoot c = false := by
  -- Of a waiting ticket the step sees a new boot exactly when the clock shows another one.
  have new (awaits : c.ticket.state.awaitsBoot = true) :
      isNewBoot c = decide (now.boot ≠ c.ticket.boot) := by
    apply isNewBoot_eq clock observed
    rw [kept.boot awaits]
    apply named
    intro planned
    rw [planned] at awaits
    cases awaits
  cases step_inv ran with
  | same unchanged same =>
    have terminal : c.ticket.state.terminal = true :=
      unchanged.resolve_right (by rw [unobserved_of_observed observed]; decide)
    have quiet : c.ticket.state.awaitsBoot = false := by
      revert terminal
      cases c.ticket.state <;> decide
    rw [same, if_pos rfl, absorbsBoot, quiet]
    exact ⟨fun _ => rfl, fun _ => kept⟩
  | held _ _ held built =>
    have state : s.ticket.state = c.ticket.state := by
      rw [built]
      rfl
    have boot : s.ticket.boot = now.boot :=
      (congrArg Ticket.Builder.boot built).trans (seenBoot_eq clock observed)
    have ledger : s.ticket.ledger = c.ticket.ledger := by
      rw [built]
      rfl
    rw [if_pos state, absorbsBoot, held, Bool.and_true]
    cases awaits : c.ticket.state.awaitsBoot with
    | false =>
      refine ⟨fun _ => rfl, fun _ => ⟨fun waits => ?_, fun request => ?_⟩⟩
      · rw [state, awaits] at waits
        cases waits
      · rw [state] at request
        rw [request] at awaits
        cases awaits
    | true =>
      rw [Bool.true_and, new awaits, decide_eq_false_iff_not, ne_eq, not_not]
      constructor
      · intro kept'
        rw [← boot, kept'.boot (state ▸ awaits), kept.boot awaits]
      intro same
      refine ⟨fun _ => ?_, fun request => ?_⟩
      · rw [boot, same, kept.boot awaits]
      obtain ⟨e, last, own⟩ := kept.request (state.symm.trans request)
      refine ⟨e, ?_, by rw [boot, same, own]⟩
      rw [Ticket.Builder.last, ledger]
      exact last
  | turned _ _ acts ruled turn _ taken =>
    have boot : s.ticket.boot = now.boot := by
      rw [taken.built, ← turn.carries.boots.1]
      exact seenBoot_eq clock observed
    have free : absorbsBoot c = false := by
      rw [absorbsBoot, acts, Bool.and_false, Bool.false_and]
    refine ⟨fun _ => free, fun _ => ?_⟩
    -- A waiting ticket that stays has seen no new boot: a new one is taken by its edge.
    have stays (same : s.ticket.state = c.ticket.state) (awaits : c.ticket.state.awaitsBoot = true) :
        now.boot = c.ticket.boot := by
      by_contra other
      rw [new awaits, decide_eq_true other] at ruled
      have left := rule_newBoot awaits ruled
      rw [← taken.built] at left
      rw [← same, left] at awaits
      cases awaits
    constructor
    · intro awaits
      rw [boot]
      split
      · rename_i same
        rw [stays same (same ▸ awaits), kept.boot (same ▸ awaits)]
      · rfl
    intro request
    rw [taken.built] at request ⊢
    rcases turn.request rfl rfl clock request with ⟨was, ledger⟩ | ⟨e, last, own⟩
    · obtain ⟨e, last, own⟩ := kept.request was
      have same : s.ticket.state = c.ticket.state := by
        rw [was, taken.built]
        exact request
      refine ⟨e, ?_, ?_⟩
      · rw [Ticket.Builder.last, ledger]
        exact last
      · rw [← taken.built, boot, stays same (by rw [was]; rfl), own]
    · exact ⟨e, last, by rw [← taken.built, boot, own]⟩

end Step

/-! ## Whole runs -/

theorem Watching.named {past : List Watched} {t : Ticket} {entered : Text}
    (watching : Watching past t entered) : t.state ≠ .planned → entered ≠ noId := by
  induction watching with
  | planned state => exact fun other => absurd state other
  | step _ _ _ _ ih =>
    intro other
    split
    · rename_i same
      exact ih (same ▸ other)
    · exact Clock.boot_ne _
  | cancel _ cancelled ih =>
    have same := (cancel_eq_some.mp cancelled).2.2
    rw [same]
    exact ih

theorem keepsBoot_cancel {t next : Ticket} {entered : Text} (cancelled : cancel t = .ok (some next)) :
    KeepsBoot next entered ↔ KeepsBoot t entered := by
  have same := (cancel_eq_some.mp cancelled).2.2
  have state : next.state = t.state := by rw [same]
  have boot : next.boot = t.boot := by rw [same]
  have last : next.last .reboot = t.last .reboot := by rw [same]; rfl
  constructor
  · rintro ⟨own, request⟩
    rw [state, boot] at own
    rw [state, boot, last] at request
    exact ⟨own, request⟩
  · rintro ⟨own, request⟩
    refine ⟨?_, ?_⟩
    · rw [state, boot]
      exact own
    · rw [state, boot, last]
      exact request

/-- **Along a run every waiting ticket keeps the boot in which it entered its
state exactly when no step of the run absorbs a new boot.** -/
theorem boot_edges_kept_iff {past : List Watched} {t : Ticket} {entered : Text}
    (watching : Watching past t entered) :
    ((∀ w ∈ past, KeepsBoot w.context.ticket w.entered) ∧ KeepsBoot t entered) ↔
      ∀ w ∈ past, absorbsBoot w.context = false := by
  induction watching with
  | planned state =>
    have none_ : ∀ w ∈ ([] : List Watched), absorbsBoot w.context = false := by simp
    refine ⟨fun _ => none_, fun _ => ⟨by simp, fun _ => rfl, fun request => ?_⟩⟩
    rw [state] at request
    cases request
  | step before clock observed ran ih =>
    simp only [List.forall_mem_cons]
    constructor
    · rintro ⟨⟨kept, past⟩, next⟩
      exact ⟨(step_keepsBoot_iff kept before.named clock observed ran).mp next,
        ih.mp ⟨past, kept⟩⟩
    · rintro ⟨free, past⟩
      obtain ⟨past, kept⟩ := ih.mpr past
      exact ⟨⟨kept, past⟩, (step_keepsBoot_iff kept before.named clock observed ran).mpr free⟩
  | cancel _ cancelled ih => rw [keepsBoot_cancel cancelled, ih]

/-! ## A sample run

The sample ticket up to its reboot request, and then a step in the next boot. -/

/-- A run so far: its steps, its ticket and the boot in which that entered its
state. -/
abbrev WatchedRun := List Watched × Ticket × Text

/-- One more step of a run, at a clock whose boot is observed. -/
def Setting.watch (s : Setting) (run : WatchedRun) : Event → Option WatchedRun
  | .cancel => ((cancel run.2.1).toOption.bind id).map (fun next => (run.1, next, run.2.2))
  | .step none _ => none
  | .step (some now) freshId =>
    if ofPlan : run.2.1.planId = s.plan.planId then
      let c := s.context run.2.1 ofPlan (some now) freshId
      if c.view.bootObserved then
        (step c).toOption.map (fun next => (⟨c, run.2.2⟩ :: run.1, next.ticket,
          if next.ticket.state = c.ticket.state then run.2.2 else now.boot))
      else none
    else none

theorem Setting.watch_watching {s : Setting} {run next : WatchedRun} {event : Event}
    (watching : Watching run.1 run.2.1 run.2.2) (ran : s.watch run event = some next) :
    Watching next.1 next.2.1 next.2.2 := by
  unfold watch at ran
  split at ran
  · obtain ⟨after, cancelled, same⟩ := map_eq_some_iff.mp ran
    obtain ⟨found, cancelled, rfl⟩ := bind_eq_some_iff.mp cancelled
    rw [← same]
    exact .cancel watching (toOption_eq_some.mp cancelled)
  · cases ran
  split at ran
  · dsimp only at ran
    split at ran
    · rename_i observed
      obtain ⟨after, stepped, same⟩ := map_eq_some_iff.mp ran
      rw [← same]
      exact .step watching rfl observed (toOption_eq_some.mp stepped)
    · cases ran
  · cases ran

theorem Setting.watches {s : Setting} {run next : WatchedRun} {events : List Event}
    (watching : Watching run.1 run.2.1 run.2.2) (ran : events.foldlM s.watch run = some next) :
    Watching next.1 next.2.1 next.2.2 := by
  induction events generalizing run with
  | nil =>
    cases ran
    exact watching
  | cons event rest ih =>
    simp only [List.foldlM_cons, bind_eq_bind, bind_eq_some_iff] at ran
    obtain ⟨mid, first, rest_⟩ := ran
    exact ih (watch_watching watching first) rest_

/-- The steps from PLANNED to REBOOT_INTENT, all in the first boot. -/
def requestingRun : List Event :=
  List.replicate 3 (Event.step (sampleClock '9' 30) (sampleId 'c')) ++
  [Event.step (sampleClock '9' 30) (sampleId 'a'), .step (sampleClock '9' 30) (sampleId 'c'),
    .step (sampleClock '9' 30) (sampleId 'b')] ++
  List.replicate 6 (Event.step (sampleClock '9' 31) (sampleId 'c'))

private def mismatchFact : Observation :=
  ⟨{ samplePublication with
      observationId := sampleId '7', classification := .bundleMismatch, digest := noDigest
      bundleApk := noDigest, restorationApk := noDigest }, by decide +kernel⟩

/-- The sample with a read of the publication that found other bytes. -/
def mismatchSetting : Setting := { sampleSetting with facts := mismatchFact :: sampleFacts }

private def plannedRun : WatchedRun := ([], sampleTicket, sampleTicket.boot)

private theorem plannedRun_watching : Watching plannedRun.1 plannedRun.2.1 plannedRun.2.2 :=
  .planned rfl rfl

def requestedRun : WatchedRun :=
  (requestingRun.foldlM sampleSetting.watch plannedRun).get (by decide +kernel)

private theorem requestedRun_watching :
    Watching requestedRun.1 requestedRun.2.1 requestedRun.2.2 :=
  Setting.watches plannedRun_watching (some_get _).symm

/-- Up to the request no step absorbs a boot, and the ticket keeps its own. -/
theorem request_keeps_boot : requestedRun.2.1.state = .rebootIntent ∧
    KeepsBoot requestedRun.2.1 requestedRun.2.2 := by
  have evaluated : requestedRun.2.1.state = .rebootIntent ∧
      requestedRun.1.all (fun w => !absorbsBoot w.context) = true := by
    decide +kernel
  obtain ⟨state, free⟩ := evaluated
  refine ⟨state, ((boot_edges_kept_iff requestedRun_watching).mpr fun w among => ?_).2⟩
  simpa using List.all_eq_true.mp free w among

/-- The next boot, read while another read of the publication disagrees. -/
def absorbedRun : WatchedRun :=
  (mismatchSetting.watch requestedRun (.step (sampleClock 'd' 30) (sampleId 'c'))).get
    (by decide +kernel)

/-- The hold records the new boot in REBOOT_INTENT. The ticket was requested to
reboot in the boot before, and stays there in the new one, also once the
publication is read back. -/
theorem reboot_absorbed : Watching absorbedRun.1 absorbedRun.2.1 absorbedRun.2.2 ∧
    absorbedRun.2.1.state = .rebootIntent ∧ absorbedRun.2.1.boot = sampleId 'd' ∧
    absorbedRun.2.2 = sampleId '9' ∧
    (absorbedRun.2.1.last .reboot).map (·.boot) = some (sampleId '9') ∧
    (sampleSetting.watch absorbedRun (.step (sampleClock 'd' 31) (sampleId 'c'))).map (·.2.1.state) =
      some .rebootIntent := by
  refine ⟨?_, ?_⟩
  · exact Setting.watch_watching requestedRun_watching (some_get _).symm
  · decide +kernel

end Andrix.Deployment
