import Andrix.Deployment.Turn

/-! What one step does. A step that changes a ticket takes one draft, builds it
and checks it against the ticket, so a step returns exactly when its draft
exists and fits, and what it returns is what the draft holds. -/
namespace Andrix.Deployment
open Andrix.Lib

/-- A builder that the step may return as the ticket's next value. -/
def Fits (t : Ticket) (b : Ticket.Builder) : Prop :=
  ∃ next : Ticket, next.toBuilder = b ∧ TicketMachine.check t next = .ok ()

variable {c : Context} {b : Ticket.Builder} {s : Step} {h : Handed}

theorem done_eq_ok :
    done c b h = .ok s ↔ s.ticket.toBuilder = b ∧ TicketMachine.check c.ticket s.ticket = .ok () ∧
      s.issue = h.issue ∧ s.selection = h.selection ∧ s.reason = h.why := by
  unfold done
  simp only [bind_eq_ok, Ticket.Builder.build_eq_ok]
  constructor
  · rintro ⟨next, built, ran⟩
    split at ran
    · cases ran
    · rename_i checked
      cases ran
      exact ⟨built, checked, rfl, rfl, rfl⟩
  · rintro ⟨built, checked, issue, selection, reason⟩
    refine ⟨s.ticket, built, ?_⟩
    rw [checked, ← issue, ← selection, ← reason]

theorem done_total :
    (∃ s, done c b h = .ok s) ↔ Fits c.ticket b := by
  simp only [done_eq_ok]
  constructor
  · rintro ⟨s, built, checked, _⟩
    exact ⟨s.ticket, built, checked⟩
  · rintro ⟨next, built, checked⟩
    exact ⟨⟨next, h.issue, h.selection, h.why⟩, built, checked, rfl, rfl, rfl⟩

/-! ## From a rule to its step -/

def ruled (c : Context) (b : Ticket.Builder) (newBoot : Bool) (why : String) : Checked Step := do
  orWaiting c why (← transition c b newBoot)

/-- The move that goes with a rule's step: only the health window's. -/
def owedMove (c : Context) : Checked (Option Selection) :=
  if c.ticket.state = .healthWindow then move c c.ticket.cause else .ok none

variable {d : Draft}

private theorem finish_inv {found : Option Step}
    (finished : d.finish c = .ok found) :
    (d.result = none ∧ found = none) ∨ ∃ h s, d.result = some h ∧ found = some s ∧
      done c d.builder h = .ok s := by
  unfold Draft.finish at finished
  split at finished
  · cases finished
    exact .inl ⟨‹_›, rfl⟩
  rename_i h result
  cases ran : done c d.builder h with
  | error e => simp [ran] at finished
  | ok s =>
    simp only [ran, Except.map_ok, Except.ok.injEq] at finished
    exact .inr ⟨h, s, result, finished.symm, ran⟩

/-- What a rule's step takes from its draft: the built ticket, the crossing, and
the draft's selection unless a move is owed. -/
structure Taken (c : Context) (d : Draft) (owed : Option Selection) (s : Step) : Prop where
  built : s.ticket.toBuilder = d.builder
  checked : TicketMachine.check c.ticket s.ticket = .ok ()
  issue : s.issue = d.issue
  selection : s.selection = owed.or d.selection

private theorem Taken.of_done
    (ran : done c d.builder h = .ok s) (issue : h.issue = d.issue)
    (selection : h.selection = d.selection) : Taken c d none s := by
  obtain ⟨built, checked, issued, selected, _⟩ := done_eq_ok.mp ran
  exact ⟨built, checked, issued.trans issue, selected.trans selection⟩

private theorem Taken.withOwed (taken : Taken c d none s)
    (owed : Selection) : Taken c d (some owed) (s.withOwed owed) :=
  ⟨taken.built, taken.checked, taken.issue, rfl⟩

theorem ruled_inv {newBoot : Bool} {why : String}
    (ran : ruled c b newBoot why = .ok s) :
    ∃ d owed, rule c b newBoot = .ok d ∧ owedMove c = .ok owed ∧ Taken c d owed s := by
  simp only [ruled, transition, bind_eq_ok] at ran
  obtain ⟨⟨taken, left⟩, ⟨d, rule, found, finished, owed, owing_, same⟩, last⟩ := ran
  cases same
  -- Without a move owed, the step is the draft's own, or one that waits.
  have plain {found : Option Step} (finished : d.finish c = .ok found)
      (last : orWaiting c why (found, d.builder) = .ok s) : Taken c d none s := by
    rcases finish_inv finished with ⟨result, rfl⟩ | ⟨h, s', result, rfl, done_⟩
    · exact .of_done last (by simp [Draft.issue, result]) (by simp [Draft.selection, result])
    · cases last
      exact .of_done done_ (by simp [Draft.issue, result]) (by simp [Draft.selection, result])
  unfold ruleOwing at owing_
  unfold owedMove
  split at owing_
  · rename_i window
    simp only [window, if_true]
    simp only [owing, bind_eq_ok] at owing_
    obtain ⟨move, moved, owing_⟩ := owing_
    refine ⟨d, move, rule, moved, ?_⟩
    rcases finish_inv finished with ⟨result, rfl⟩ | ⟨h, s', result, rfl, done_⟩
    · cases move with
      | none =>
        cases owing_
        exact plain finished last
      | some owed =>
        cases ran : done c d.builder ⟨none, none, "observing health"⟩ with
        | error e => simp [ran] at owing_
        | ok s' =>
          simp only [ran, Except.map_ok, Except.ok.injEq] at owing_
          subst owing_
          cases last
          exact (Taken.of_done ran (by simp [Draft.issue, result])
            (by simp [Draft.selection, result])).withOwed owed
    · cases move with
      | none =>
        cases owing_
        exact plain finished last
      | some owed =>
        cases owing_
        cases last
        exact (Taken.of_done done_ (by simp [Draft.issue, result])
          (by simp [Draft.selection, result])).withOwed owed
  · rename_i outside
    cases owing_
    exact ⟨d, none, rule, by simp [outside], plain finished last⟩

/-- A rule's step returns when its draft fits and any owed move can be made. -/
theorem ruled_total {newBoot : Bool} {why : String}
    {owed : Option Selection} (rule_ : rule c b newBoot = .ok d) (fits : Fits c.ticket d.builder)
    (moved : owedMove c = .ok owed) : ∃ s, ruled c b newBoot why = .ok s := by
  have waiting (w : String) := (done_total (h := ⟨none, none, w⟩)).mpr fits
  have finished : ∃ found, d.finish c = .ok found := by
    unfold Draft.finish
    split
    · exact ⟨_, rfl⟩
    · rename_i h _
      obtain ⟨s, ran⟩ := (done_total (h := h)).mpr fits
      exact ⟨some s, by simp [ran]⟩
  obtain ⟨found, finished⟩ := finished
  have owing_ : ∃ found', ruleOwing c found d.builder = .ok found' := by
    unfold ruleOwing
    unfold owedMove at moved
    split at moved
    · rename_i window
      simp only [window, if_true, owing, moved, ok_bind]
      cases owed with
      | none => exact ⟨_, rfl⟩
      | some owed =>
        cases found with
        | some s => exact ⟨_, rfl⟩
        | none =>
          obtain ⟨s, ran⟩ := waiting "observing health"
          exact ⟨some (s.withOwed owed), by simp [ran]⟩
    · rename_i outside
      exact ⟨found, by simp [outside]⟩
  obtain ⟨found', owing_⟩ := owing_
  cases found' with
  | some s => exact ⟨s, by simp [ruled, transition, rule_, finished, owing_, ok_bind, orWaiting]⟩
  | none =>
    obtain ⟨s, ran⟩ := waiting why
    exact ⟨s, by simp [ruled, transition, rule_, finished, owing_, ok_bind, orWaiting, ran]⟩

/-! ## The step -/

def starting (c : Context) : Ticket.Builder :=
  { opening c with
    flags := if unbound c then (opening c).flags ||| flagRequestLimit else (opening c).flags }

theorem starting_cause (c : Context) :
    (starting c).cause = maxCause c.ticket.cause (observedCause c) := rfl

/-- The publication read is missing and no recorded cause takes effect: the step
only holds and alerts. -/
def holding (c : Context) : Bool :=
  unbound c && ((starting c).cause = .none || judgesBytes c.ticket.state)

private def holdingReason : String :=
  "the plan's publication read is missing or disagrees: holding and alerting"

private theorem step_eq (c : Context) : step c =
    if c.ticket.state.terminal then .ok ⟨c.ticket, none, none, "terminal"⟩
    else if unobserved c then .ok ⟨c.ticket, none, none, "a new boot not yet observed"⟩
    else if holding c then done c (starting c) ⟨none, none, holdingReason⟩
    else ruled c (starting c) (isNewBoot c) (if unbound c then holdingReason else "waiting") := by
  by_cases terminal : c.ticket.state.terminal = true
  · simp [step, terminal]
  by_cases unseen : unobserved c = true
  · simp only [step, terminal, unseen, if_true, if_false, Bool.false_eq_true]
  by_cases missing : unbound c = true
  · have alerted : (opening c).set flagRequestLimit = starting c := by
      simp [starting, missing, Ticket.Builder.set]
    by_cases cause : (starting c).cause = .none
    · simp [step, terminal, unseen, missing, alerted, holding, cause, holdingReason]
    · by_cases judges : judgesBytes c.ticket.state = true <;>
        simp [step, terminal, unseen, missing, alerted, holding, cause, holdingReason, judges,
          ruled]
  · have plain : opening c = starting c := by simp [starting, missing]
    simp [step, terminal, unseen, missing, holding, ruled, plain]

/-- What a step returns. -/
inductive Stepped (c : Context) (s : Step) : Prop
  | same : c.ticket.state.terminal = true ∨ unobserved c = true → s.ticket = c.ticket →
    s.issue = none → s.selection = none → Stepped c s
  | held : c.ticket.state.terminal = false → unobserved c = false → holding c = true →
    s.ticket.toBuilder = starting c → TicketMachine.check c.ticket s.ticket = .ok () →
    s.issue = none → s.selection = none → Stepped c s
  | turned {d owed} : c.ticket.state.terminal = false → unobserved c = false →
    holding c = false → rule c (starting c) (isNewBoot c) = .ok d →
    Turn c (starting c) (isNewBoot c) d → owedMove c = .ok owed → Taken c d owed s → Stepped c s

theorem step_inv (ran : step c = .ok s) : Stepped c s := by
  rw [step_eq] at ran
  split at ran
  · rename_i terminal
    cases ran
    exact .same (.inl terminal) rfl rfl rfl
  rename_i live
  simp only [Bool.not_eq_true] at live
  split at ran
  · rename_i unseen
    cases ran
    exact .same (.inr unseen) rfl rfl rfl
  rename_i seen
  simp only [Bool.not_eq_true] at seen
  split at ran
  · rename_i holding_
    obtain ⟨built, checked, issue, selection, _⟩ := done_eq_ok.mp ran
    exact .held live seen holding_ built checked issue selection
  · rename_i moving
    obtain ⟨d, owed, rule_, moved, taken⟩ := ruled_inv ran
    exact .turned live seen (by simpa using moving) rule_ (rule_turns d rule_) moved taken

/-- A step that issues a crossing stores its entry as the last one, under the
guards of the crossing. -/
theorem step_crosses {e : Entry} (ran : step c = .ok s)
    (issued : s.issue = some e) : ∃ state r k, Crosses c (starting c) state e r k ∧
      s.ticket.toBuilder = { starting c with
        state := state, flags := (starting c).flags &&& ~~~ flagUnresolved, cause := k,
        reference := r, ledger := c.ticket.ledger ++ [e] } := by
  cases step_inv ran with
  | same _ _ none_ | held _ _ _ _ _ none_ => simp [none_] at issued
  | @turned d _ _ _ _ _ turn _ taken =>
    have drawn : d.issue = some e := taken.issue.symm.trans issued
    cases turn with
    | @crosses state e' r k _ crosses built issue =>
      obtain rfl : e' = e := Option.some.inj (issue.symm.trans drawn)
      exact ⟨state, r, k, crosses, taken.built.trans built⟩
    | stays _ _ _ _ none_ | moves _ _ _ none_ | binds _ _ _ _ _ none_ | closes _ _ _ none_
    | applies _ _ _ _ _ _ none_ | opensWindow _ _ _ _ none_ | idles _ _ none_
    | restarts _ _ _ _ _ _ none_ | observes _ _ _ _ _ none_ | windowWaits _ _ _ _ _ _ none_
    | windowCloses _ _ _ _ _ none_ => simp [none_] at drawn

/-- The crossing a step issues, if it returns one. -/
def issued (c : Context) : Option Entry := (step c).toOption.bind (·.issue)

theorem issued_eq_some {e : Entry} :
    issued c = some e ↔ ∃ s, step c = .ok s ∧ s.issue = some e := by
  simp only [issued, Option.bind_eq_some_iff, toOption_eq_some]

def thrown (c : Context) : Option Failure :=
  match step c with
  | .ok _ => none
  | .error e => some e

theorem thrown_eq_some {e : Failure} : thrown c = some e ↔ step c = .error e := by
  unfold thrown
  cases step c <;> simp

/-- A step returns exactly when it has nothing to build, or its draft exists
and fits and any owed move can be made. -/
theorem step_total : (∃ s, step c = .ok s) ↔
    c.ticket.state.terminal = true ∨ unobserved c = true ∨
      (if holding c then Fits c.ticket (starting c)
        else ∃ d owed, rule c (starting c) (isNewBoot c) = .ok d ∧ owedMove c = .ok owed ∧
          Fits c.ticket d.builder) := by
  rw [step_eq]
  split
  · simp [*]
  split
  · simp [*]
  rename_i live seen
  simp only [live, seen, Bool.false_eq_true, false_or]
  split
  · exact done_total
  constructor
  · rintro ⟨s, ran⟩
    obtain ⟨d, owed, rule_, moved, taken⟩ := ruled_inv ran
    exact ⟨d, owed, rule_, moved, s.ticket, taken.built, taken.checked⟩
  · rintro ⟨d, owed, rule_, moved, fits⟩
    exact ruled_total rule_ fits moved

end Andrix.Deployment
