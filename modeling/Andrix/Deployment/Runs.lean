import Andrix.Lib.Steps
import Andrix.Deployment.StoreLaws

/-! Runs of coordinators on one store. The owner adds plans, grants, tickets and
first selections and cancels, and coordinators take rounds and cohort checks. A
round or check may be cut off after any of its actions, by the loss of the
coordinator or by a refused write, and nothing is assumed of the facts that the
coordinator of the next one holds. -/
namespace Andrix.Deployment
open Andrix.Lib List Option

/-! ## Time -/

/-- The boots a device has been read in, the current one first, and the latest
time read in the current one. -/
structure Timeline where
  boots : List Text
  elapsed : Int64

/-- Reading the clock. Elapsed time never decreases within a boot, and a boot ID
never recurs after another boot. -/
def Timeline.read (time : Timeline) : Option Clock → Option Timeline
  | none => some time
  | some clock =>
    if time.boots.head? = some clock.boot then
      if time.elapsed ≤ clock.elapsed then some { time with elapsed := clock.elapsed } else none
    else if clock.boot ∈ time.boots then none
    else some ⟨clock.boot :: time.boots, clock.elapsed⟩

/-! ## Worlds -/

/-- A store, the time, and every action that was performed. -/
structure World where
  store : Store
  time : Timeline
  trace : List Action

/-- What happens to a world. -/
inductive WorldEvent where
  | plan (p : Plan)
  | authorization (a : Authorization)
  | ticket (t : Ticket)
  | selection (s : Selection)
  | cancel (ticketId : Text)
  | round (c : Coordinator) (r : Round) (ticketId : Text) (stop : Nat)
  | check (c : Coordinator) (r : Round) (component : Text) (stop : Nat)

def WorldEvent.clock : WorldEvent → Option Clock
  | .round _ r _ _ => r.clock
  | .check _ r _ _ => r.clock
  | _ => none

/-- The store with the record that the owner adds. -/
def WorldEvent.adds (store : Store) : WorldEvent → Option Store
  | .plan p => store.addPlan p
  | .authorization a => store.addAuthorization a
  | .ticket t => store.createTicket t
  | .selection s => store.putSelection none s
  | _ => some store

def Store.cancels (store : Store) (ticketId : Text) : List Action :=
  match store.ticket ticketId with
  | none => []
  | some t =>
    match cancel t with
    | .ok (some next) => [.update t next]
    | _ => []

/-- The actions of an event, up to where it is cut off. -/
def WorldEvent.actions (store : Store) : WorldEvent → List Action
  | .cancel ticketId => store.cancels ticketId
  | .round c r ticketId stop => (c.round store r ticketId).take stop
  | .check c r component stop => (c.check store r component).take stop
  | _ => []

/-- The world after an event, or none where its clock runs back or a write that
it makes is refused. -/
def World.next (w : World) (e : WorldEvent) : Option World := do
  let time ← w.time.read e.clock
  let added ← e.adds w.store
  let store ← perform added (e.actions w.store)
  some ⟨store, time, w.trace ++ e.actions w.store⟩

def World.start (installation : Text) : World := ⟨⟨installation, [], [], [], [], []⟩, ⟨[], 0⟩, []⟩

def World.run (w : World) (events : List WorldEvent) : Option World := events.foldlM World.next w

/-! ## What a round reads -/

/-- What the step of a round reads, for an open ticket of a readable plan. -/
def Coordinator.reads (c : Coordinator) (store : Store) (r : Round) (ticketId : Text) :
    Option Context := do
  let ticket ← store.ticket ticketId
  let plan ← store.plan ticket.planId
  let current ← store.selection plan.component
  let facts := c.known store ++ c.recorded store r ticket
  let selection ← checkedSelection store current (View.ofFacts r.boot plan.component facts)
  if ticket.state.terminal then none
  else if ofPlan : ticket.planId = plan.planId then
    some (c.context store r ticket plan ofPlan selection facts)
  else none

/-- What the step of a round has read: the stored ticket, open, with its plan, the
plan's grants, and the stored selection after its cohort check. -/
structure Coordinator.Reads (c : Coordinator) (store : Store) (r : Round) (ticketId : Text)
    (context : Context) (stored : Selection) : Prop where
  ticket : store.ticket ticketId = some context.ticket
  live : context.ticket.state.terminal = false
  plan : store.plan context.ticket.planId = some context.plan
  authorizations : context.authorizations = store.authorizationsOf context.plan.planId
  planTickets : context.planTickets = store.ticketsOf context.plan.planId
  now : context.now = r.clock
  current : store.selection context.plan.component = some stored
  view : context.view = View.ofFacts r.boot context.plan.component
    (c.known store ++ c.recorded store r context.ticket)
  selection : checkedSelection store stored context.view = some context.selection

variable {c : Coordinator} {r : Round}

theorem Coordinator.reads_some {store : Store} {ticketId : Text}
    {context : Context} (read : c.reads store r ticketId = some context) :
    ∃ stored, c.Reads store r ticketId context stored := by
  simp only [reads, bind_eq_bind, bind_eq_some_iff] at read
  obtain ⟨ticket, found, plan, ofPlan, current, chosen, selection, checked, rest⟩ := read
  split at rest
  · cases rest
  rename_i live
  split at rest
  · cases rest
    exact ⟨current, found, Bool.eq_false_iff.mpr live, ofPlan, rfl, rfl, rfl, chosen, rfl, checked⟩
  · cases rest

/-- The actions of a whole round or check: the new facts, the cohort check's
selection, and the actions of the step. -/
inductive Coordinator.Acts (c : Coordinator) (store : Store) (r : Round) (ticketId : Text) :
    List Action → Prop
  | observed (facts : List Observation) : Acts c store r ticketId (facts.map .observe)
  | checked (facts : List Observation) {component : Text} {current selection : Selection}
    {view : View} : store.selection component = some current →
    checkedSelection store current view = some selection →
    Acts c store r ticketId (facts.map .observe ++ selects current selection)
  | stepped (facts : List Observation) {context : Context} {stored : Selection} {s : Step} :
    c.reads store r ticketId = some context →
    c.Reads store r ticketId context stored → step context = .ok s →
    Acts c store r ticketId
      (facts.map .observe ++ (selects stored context.selection ++ stepActions r context s))

theorem Coordinator.round_acts (c : Coordinator) (store : Store) (r : Round) (ticketId : Text) :
    c.Acts store r ticketId (c.round store r ticketId) := by
  unfold round
  split
  · exact .observed []
  rename_i ticket found
  split
  · exact .observed []
  rename_i plan ofPlan
  dsimp only
  split
  · rw [append_nil]
    exact .observed _
  rename_i current chosen
  split
  · rw [append_nil]
    exact .observed _
  rename_i selection checked
  split
  · rw [append_nil]
    exact .checked _ chosen checked
  rename_i live
  split
  · rename_i same
    have read : c.reads store r ticketId = some (c.context store r ticket plan same
        selection (c.known store ++ c.recorded store r ticket)) := by
      simp only [reads, found, ofPlan, chosen, checked, bind_eq_bind,
        bind_some, if_neg live, dif_pos same]
    have reads : c.Reads store r ticketId (c.context store r ticket plan same selection
        (c.known store ++ c.recorded store r ticket)) current :=
      ⟨found, Bool.eq_false_iff.mpr live, ofPlan, rfl, rfl, rfl, chosen, rfl, checked⟩
    split
    · rw [append_nil]
      exact .checked _ chosen checked
    · rename_i s ran
      exact .stepped _ read reads ran
  · rw [append_nil]
    exact .checked _ chosen checked

/-- A check observes, and writes what the cohort check makes of the selection. -/
theorem Coordinator.check_eq (c : Coordinator) (store : Store) (r : Round) (component : Text) :
    (∃ facts : List Observation, c.check store r component = facts.map .observe) ∨
    ∃ (facts : List Observation) (current selection : Selection) (view : View), store.selection component = some current ∧
      checkedSelection store current view = some selection ∧
      c.check store r component = facts.map .observe ++ selects current selection := by
  unfold check
  split
  · exact .inl ⟨[], rfl⟩
  dsimp only
  split
  · rw [append_nil]
    exact .inl ⟨_, rfl⟩
  rename_i current chosen
  split
  · rw [append_nil]
    exact .inl ⟨_, rfl⟩
  · rename_i selection checked
    exact .inr ⟨_, current, selection, _, chosen, checked, rfl⟩

theorem Coordinator.check_acts (c : Coordinator) (store : Store) (r : Round)
    (component ticketId : Text) : c.Acts store r ticketId (c.check store r component) := by
  rcases c.check_eq store r component with ⟨facts, only⟩ | ⟨facts, _, _, _, chosen, checked, both⟩
  · rw [only]
    exact .observed facts
  · rw [both]
    exact .checked facts chosen checked

/-! ## What an event does to the tickets -/

/-- An action that changes no ticket and issues nothing. -/
def Action.Quiet : Action → Prop
  | .observe _ => True
  | .select _ _ => True
  | .update _ _ => False
  | .cross _ _ => False

theorem quiet_observes (facts : List Observation) : ∀ a ∈ facts.map Action.observe, a.Quiet := by
  intro a among
  obtain ⟨o, _, rfl⟩ := mem_map.mp among
  trivial

theorem quiet_selects (current next : Selection) : ∀ a ∈ selects current next, a.Quiet := by
  intro a among
  unfold selects at among
  split at among
  · cases among
  · rw [mem_singleton.mp among]
    trivial

variable {s s' : Store}

theorem Action.Quiet.tickets {a : Action} (quiet : a.Quiet)
    (applied : a.apply s = some s') : s'.tickets = s.tickets := by
  cases a with
  | observe o => rcases Store.once_inv applied with ⟨rfl, _⟩ | ⟨rfl, _⟩ <;> rfl
  | select x next =>
    obtain ⟨_, _, rfl⟩ := Store.putSelection_inv applied
    rfl
  | update t next | cross t e => exact quiet.elim

variable {actions : List Action}

theorem quiet_tickets (quiet : ∀ a ∈ actions, a.Quiet)
    (performed : perform s actions = some s') : s'.tickets = s.tickets := by
  refine foldlM_keeps (fun x => x.tickets = s.tickets) ?_ rfl performed
  intro x a among y same applied
  rw [(quiet a among).tickets applied, same]

/-- What follows the write of a step's ticket: nothing, or its crossing. -/
inductive Crossed (s : Step) : List Action → Prop
  | nothing : Crossed s []
  | crossing {e : Entry} {rest : List Action} : s.issue = some e → (∀ a ∈ rest, a.Quiet) →
    Crossed s (.cross s.ticket e :: rest)

/-- What a cut round or check does to the tickets. -/
inductive Coordinator.Cut (c : Coordinator) (store : Store) (r : Round) (actions : List Action) :
    Prop
  | quiet : (∀ a ∈ actions, a.Quiet) → Cut c store r actions
  | stepped {ticketId : Text} {context : Context} {stored : Selection} {s : Step}
    {before after : List Action} : c.Reads store r ticketId context stored →
    step context = .ok s → actions = before ++ .update context.ticket s.ticket :: after →
    (∀ a ∈ before, a.Quiet) → Crossed s after → Cut c store r actions

theorem step_issue_changes {c : Context} {s : Step} {e : Entry} (ran : step c = .ok s)
    (issued : s.issue = some e) : s.ticket ≠ c.ticket := by
  intro same
  obtain ⟨_, _, _, _, built⟩ := step_crosses ran issued
  have ledger : s.ticket.ledger = c.ticket.ledger ++ [e] := by rw [built]
  rw [same] at ledger
  simpa using congrArg List.length ledger

def Step.moves (s : Step) (c : Context) : List Action :=
  s.selection.elim [] (selects c.selection)

def Step.crosses (s : Step) (r : Round) : List Action :=
  s.issue.elim [] (fun entry => .cross s.ticket entry :: (if entry.crossing = .handover then [] else
    (r.reply.map Action.observe).toList))

theorem stepActions_eq (r : Round) (c : Context) (s : Step) :
    stepActions r c s = s.moves c ++
      ((if s.ticket = c.ticket then [] else [.update c.ticket s.ticket]) ++ s.crosses r) := by
  unfold stepActions Step.moves Step.crosses
  cases s.selection <;> cases s.issue <;> simp

theorem Step.quiet_moves (s : Step) (c : Context) : ∀ a ∈ s.moves c, a.Quiet := by
  unfold moves
  cases s.selection with
  | none => simp
  | some next => exact quiet_selects c.selection next

theorem Step.crossed_take (s : Step) (r : Round) (n : Nat) : Crossed s ((s.crosses r).take n) := by
  unfold crosses
  cases n with
  | zero => exact .nothing
  | succ n =>
    cases issue : s.issue with
    | none => exact .nothing
    | some e =>
      refine .crossing issue fun a among => ?_
      have inside := mem_of_mem_take among
      split at inside
      · cases inside
      · obtain ⟨o, _, rfl⟩ : ∃ o, r.reply = some o ∧ Action.observe o = a := by
          simpa using inside
        trivial

theorem Coordinator.Acts.cut {store : Store} {ticketId : Text}
    (acts : c.Acts store r ticketId actions) (n : Nat) : c.Cut store r (actions.take n) := by
  have quietly {l : List Action} (quiet : ∀ a ∈ l, a.Quiet) : c.Cut store r (l.take n) :=
    .quiet fun a among => quiet a (mem_of_mem_take among)
  cases acts with
  | observed facts => exact quietly (quiet_observes facts)
  | checked facts =>
    refine quietly fun a among => ?_
    rcases mem_append.mp among with observed | selected
    · exact quiet_observes facts a observed
    · exact quiet_selects _ _ a selected
  | @stepped facts context stored s read reads ran =>
    rw [stepActions_eq, ← append_assoc, ← append_assoc]
    have quiet : ∀ a ∈ facts.map .observe ++ selects stored context.selection ++ s.moves context,
        a.Quiet := by
      intro a among
      simp only [mem_append] at among
      rcases among with (observed | selected) | moved
      · exact quiet_observes facts a observed
      · exact quiet_selects _ _ a selected
      · exact s.quiet_moves context a moved
    generalize facts.map Action.observe ++ selects stored context.selection ++ s.moves context = head
      at quiet ⊢
    by_cases same : s.ticket = context.ticket
    · -- Nothing is issued either.
      have silent : s.crosses r = [] := by
        unfold Step.crosses
        cases issue : s.issue with
        | none => rfl
        | some e => exact absurd same (step_issue_changes ran issue)
      rw [if_pos same, silent]
      simpa using quietly quiet
    · rw [if_neg same, take_append]
      have before : ∀ a ∈ head.take n, a.Quiet := fun a among => quiet a (mem_of_mem_take among)
      cases n - head.length with
      | zero => exact .quiet (by simpa using before)
      | succ m => exact .stepped reads ran rfl before (s.crossed_take r m)

theorem update_tickets {t next : Ticket} {before after : List Action}
    (performed : perform s (before ++ .update t next :: after) = some s')
    (quietBefore : ∀ a ∈ before, a.Quiet)
    (quietAfter : ∀ x y, perform x after = some y → y.tickets = x.tickets) :
    s'.tickets = replace (·.ticketId) next s.tickets := by
  obtain ⟨mid, first, rest⟩ := foldlM_append_some.mp performed
  obtain ⟨written, update, last⟩ := foldlM_cons_some.mp rest
  obtain ⟨_, rfl⟩ := Store.updateTicket_inv update
  rw [quietAfter _ _ last, ← quiet_tickets quietBefore first]

theorem Crossed.tickets {step : Step} (crossed : Crossed step actions)
    (performed : perform s actions = some s') : s'.tickets = s.tickets := by
  cases crossed with
  | nothing =>
    cases performed
    rfl
  | crossing _ quiet =>
    obtain ⟨mid, first, rest⟩ := foldlM_cons_some.mp performed
    cases first
    exact quiet_tickets quiet rest

/-! ## Events -/

namespace World
variable {w w' : World} {e : WorldEvent}

theorem next_inv (happened : w.next e = some w') : w.time.read e.clock = some w'.time ∧
    (∃ added, e.adds w.store = some added ∧ perform added (e.actions w.store) = some w'.store) ∧
    w'.trace = w.trace ++ e.actions w.store := by
  simp only [next, bind_eq_bind, bind_eq_some_iff] at happened
  obtain ⟨time, read, added, adds, store, performed, same⟩ := happened
  cases same
  exact ⟨read, ⟨added, adds, performed⟩, rfl⟩

theorem adds_written {store added : Store} (adds : e.adds store = some added) :
    store.Written added := by
  cases e with
  | plan p =>
    rcases Store.once_inv adds with ⟨rfl, new⟩ | ⟨rfl, _⟩
    · exact .plan new
    · exact .same
  | authorization a =>
    rcases Store.addAuthorization_inv adds with ⟨rfl, new⟩ | ⟨rfl, _⟩
    · exact .authorization new
    · exact .same
  | ticket t =>
    obtain ⟨creates, rfl⟩ := Store.createTicket_inv adds
    exact .created creates
  | selection s =>
    obtain ⟨⟨installation, revision, realization, none_⟩, rfl⟩ := Store.putSelection_first adds
    refine .first installation revision realization fun y among => ?_
    simpa using List.find?_eq_none.mp none_ y among
  | cancel _ | round _ _ _ _ | check _ _ _ _ =>
    cases adds
    exact .same

theorem perform_sound (sound : s.Sound)
    (performed : perform s actions = some s') : s'.Sound :=
  foldlM_keeps Store.Sound (fun _ _ _ _ before applied => (Action.apply_written applied).sound before)
    sound performed

theorem next_sound (happened : w.next e = some w') (sound : w.store.Sound) : w'.store.Sound := by
  obtain ⟨_, ⟨added, adds, performed⟩, _⟩ := next_inv happened
  exact perform_sound ((adds_written adds).sound sound) performed

theorem plan_kept (happened : w.next e = some w') {id : Text} {p : Plan}
    (found : w.store.plan id = some p) : w'.store.plan id = some p := by
  obtain ⟨_, ⟨added, adds, performed⟩, _⟩ := next_inv happened
  refine foldlM_keeps (fun s => s.plan id = some p) ?_ ((adds_written adds).plan_kept found)
    performed
  exact fun _ _ _ _ before applied => (Action.apply_written applied).plan_kept before

/-- What an event does to the tickets and issues. -/
inductive Changed (w : World) (e : WorldEvent) (w' : World) : Prop
  | quiet : (∀ a ∈ e.actions w.store, a.Quiet) → w'.store.tickets = w.store.tickets → Changed w e w'
  | created {t : Ticket} : e.actions w.store = [] → t.state = .planned → t.ledger = [] →
    w'.store.tickets = w.store.tickets ++ [t] → Changed w e w'
  | cancelled {t next : Ticket} : e.actions w.store = [.update t next] → t ∈ w.store.tickets →
    cancel t = .ok (some next) →
    w'.store.tickets = replace (·.ticketId) next w.store.tickets → Changed w e w'
  | stepped {c : Coordinator} {r : Round} {ticketId : Text} {context : Context}
    {stored : Selection} {s : Step} {before after : List Action} : e.clock = r.clock →
    c.Reads w.store r ticketId context stored → step context = .ok s →
    e.actions w.store = before ++ .update context.ticket s.ticket :: after →
    (∀ a ∈ before, a.Quiet) → Crossed s after →
    w'.store.tickets = replace (·.ticketId) s.ticket w.store.tickets → Changed w e w'

private theorem cut_changed (clock : e.clock = r.clock)
    (cut : c.Cut w.store r (e.actions w.store))
    (performed : perform w.store (e.actions w.store) = some w'.store) : Changed w e w' := by
  cases cut with
  | quiet quiet => exact .quiet quiet (quiet_tickets quiet performed)
  | stepped reads ran split quiet crossed =>
    refine .stepped clock reads ran split quiet crossed ?_
    rw [split] at performed
    exact update_tickets performed quiet fun _ _ => crossed.tickets

theorem next_changed (happened : w.next e = some w') : Changed w e w' := by
  obtain ⟨_, ⟨added, adds, performed⟩, _⟩ := next_inv happened
  cases e with
  | plan p =>
    cases performed
    refine .quiet (by simp [WorldEvent.actions]) ?_
    rcases Store.once_inv adds with ⟨same, _⟩ | ⟨same, _⟩ <;> rw [same]
  | authorization a =>
    cases performed
    refine .quiet (by simp [WorldEvent.actions]) ?_
    rcases Store.addAuthorization_inv adds with ⟨same, _⟩ | ⟨same, _⟩ <;> rw [same]
  | selection x =>
    cases performed
    refine .quiet (by simp [WorldEvent.actions]) ?_
    rw [(Store.putSelection_first adds).2]
  | ticket t =>
    cases performed
    obtain ⟨creates, created⟩ := Store.createTicket_inv adds
    exact .created rfl creates.state creates.ledger (congrArg Store.tickets created)
  | cancel ticketId =>
    cases adds
    cases cancelled : (WorldEvent.cancel ticketId).actions w.store with
    | nil =>
      rw [cancelled] at performed
      have same : w'.store = w.store := (Option.some.inj performed).symm
      exact .quiet (by simp [cancelled]) (congrArg Store.tickets same)
    | cons a rest =>
      simp only [WorldEvent.actions, Store.cancels] at cancelled
      split at cancelled
      · cases cancelled
      rename_i t found
      split at cancelled
      · rename_i next ran
        have acts : (WorldEvent.cancel ticketId).actions w.store = [.update t next] := by
          simp [WorldEvent.actions, Store.cancels, found, ran]
        rw [acts] at performed
        refine .cancelled acts (Store.ticket_some found).1 ran ?_
        refine update_tickets (t := t) performed (forall_mem_nil _) ?_
        intro x y none_
        cases none_
        rfl
      · cases cancelled
  | round c r ticketId stop =>
    cases adds
    exact cut_changed rfl ((c.round_acts w.store r ticketId).cut stop) performed
  | check c r component stop =>
    cases adds
    exact cut_changed rfl ((c.check_acts w.store r component noId).cut stop) performed

end World

end Andrix.Deployment
