import Andrix.Deployment.Fitting

/-! The ledger, the reference and the exit of every draft that a rule leaves for
a reachable ticket, and with them the two checks as a whole. -/
namespace Andrix.Deployment
open Andrix.Lib Ticket.Builder

variable {c : Context} {d : Draft} {stored : Text → Option Authorization}

/-! ## Entries -/

variable {t : Ticket}

theorem created_of_session (session : code State.sessionIntent ≤ code t.state)
    (other : t.state ≠ .signFailed) (live : t.state.terminal = false) :
    0 < countOf .create t.ledger := by
  by_contra none_
  have closed := t.rules.ledger.late ⟨session, other, by
    rw [count_eq]
    omega⟩
  rcases closed with state | state | state <;> exact absurd live (by rw [state]; decide)

/-- What an entry of a crossing needs, read off the ledger's counts. -/
theorem Admits.of_crossing {nonce : Text} {ledger : List Entry} {e : Entry} {x : Crossing}
    (crossing : e.crossing = x) (bound : countOf x ledger + 1 ≤ x.bound)
    (order : x.native → ∀ y : Crossing, y.native → code x < code y → countOf y ledger = 0)
    (write : x = .write → 0 < countOf .create ledger)
    (commit : x = .commit → 0 < countOf .write ledger)
    (abandon : x = .abandon → 0 < countOf .create ledger)
    (reboot : x = .reboot → 0 < countOf .commit ledger)
    (create : x = .create → e.reference = nonce) : Admits nonce ledger e := by
  subst crossing
  refine ⟨bound, fun native d member native' => ?_, write, commit, abandon, reboot, create⟩
  by_contra above
  exact countOf_eq_zero.mp (order native _ native' (by omega)) d member rfl

private theorem native_after {x y : Crossing} (native : y.native) (above : code x < code y) :
    y = .publish ∨ y = .create ∨ y = .write ∨ y = .commit := by
  revert native above
  cases y <;> cases x <;> decide

variable {b : Ticket.Builder} {s : State} {k : Cause} {r : Reference}

theorem Crosses.admits {e : Entry}
    (crosses : Crosses c b s e r k) (sound : c.Sound stored)
    (sequenced : Sequenced stored c.ticket.toBuilder) (live : c.ticket.state.terminal = false) :
    Admits r.nonce c.ticket.ledger e := by
  have rules := c.ticket.rules.ledger
  obtain ⟨requires, excludes⟩ := sequenced.shaped
  have uncreated (early : code c.ticket.state < code State.sessionIntent) {x : Crossing}
      (after : x = .create ∨ x = .write ∨ x = .commit) : countOf x c.ticket.ledger = 0 := by
    have none_ : countOf .create c.ticket.ledger = 0 := rules.uncreated early
    rcases after with rfl | rfl | rfl
    · exact none_
    · exact rules.admitted.uncreated none_ (.inl rfl)
    · exact rules.admitted.uncreated none_ (.inr (.inl rfl))
  have signs := crosses.signs sound.granted sequenced.signs
  cases crosses with
  | sign state _ _ made =>
    have crossing := (entry_inv made).crossing
    have early : code c.ticket.state < code State.sessionIntent := by
      rcases state with ⟨state, _⟩ | ⟨state, _⟩ <;> rw [state] <;> decide
    have unpublished : countOf .publish c.ticket.ledger = 0 := by
      rcases state with ⟨state, _⟩ | ⟨state, _⟩ <;> exact excludes _ (by rw [state]; decide)
    refine .of_crossing crossing ?_ ?_ (by simp) (by simp) (by simp) (by simp) (by simp)
    · have few := signs.count_le
      rwa [countOf_append_singleton, if_pos crossing] at few
    rintro _ y native above
    rcases native_after native above with rfl | after
    · exact unpublished
    · exact uncreated early after
  | publish state _ _ attempts made =>
    have crossing := (entry_inv made).crossing
    refine .of_crossing crossing ?_ ?_ (by simp) (by simp) (by simp) (by simp) (by simp)
    · rcases attempts with first | ⟨_, _, _, _, room⟩
      · rw [last_eq_none, count_eq] at first
        rw [first]
        decide
      · exact room
    · rintro _ y native above
      rcases native_after native above with rfl | after
      · exact absurd above (by decide)
      · exact uncreated (by rw [state]; decide) after
  | create state _ _ _ drawn made =>
    have recorded := entry_inv made
    have early : code c.ticket.state < code State.sessionIntent := by rw [state]; decide
    refine .of_crossing recorded.crossing ?_ ?_ (by simp) (by simp) (by simp) (by simp) ?_
    · rw [uncreated early (.inl rfl)]
      decide
    · rintro _ y native above
      rcases native_after native above with rfl | after
      · exact absurd above (by decide)
      · exact uncreated early after
    · rintro _
      rw [recorded.reference, Reference.make_eq_ok.mp drawn]
  | write state _ _ first made =>
    rw [last_eq_none, count_eq] at first
    refine .of_crossing (entry_inv made).crossing (by rw [first]; decide) ?_ ?_ (by simp) (by simp)
      (by simp) (by simp)
    · rintro _ y native above
      rcases native_after native above with rfl | rfl | rfl | rfl
      all_goals first | exact absurd above (by decide) | exact excludes _ (by rw [state]; decide)
    · rintro _
      exact created_of_session (by rw [state]; decide) (by simp [state]) live
  | commit state _ _ _ made =>
    refine .of_crossing (entry_inv made).crossing ?_ ?_ (by simp) ?_ (by simp) (by simp) (by simp)
    · rw [excludes .commit (by rw [state]; decide)]
      decide
    · rintro _ y native above
      rcases native_after native above with rfl | rfl | rfl | rfl <;> exact absurd above (by decide)
    · rintro _
      exact requires .write (by rw [state]; decide)
  | notice _ _ _ _ room made =>
    exact .of_crossing (entry_inv made).crossing room (fun native => absurd native (by decide)) (by simp)
      (by simp) (by simp) (by simp) (by simp)
  | reboot state _ _ _ _ room _ made =>
    refine .of_crossing (entry_inv made).crossing room (fun native => absurd native (by decide))
      (by simp) (by simp) (by simp) ?_ (by simp)
    rintro _
    rcases state with state | state <;> exact requires .commit (by rw [state]; decide)
  | abandon why _ room made =>
    have crossing := (entry_inv made).crossing
    refine .of_crossing crossing ?_ (fun native => absurd native (by decide)) (by simp) (by simp) ?_
      (by simp) (by simp)
    · have limit : ¬ maxRequestLimit < c.plan.requestLimit := c.plan.rules.requestLimit.2
      have bound : maxRequestLimit = Crossing.abandon.bound := rfl
      rw [count_eq] at room
      omega
    · rintro _
      have session : ∀ edge ∈ crossEdges, edge.2.1 = .abandon →
          code State.sessionIntent ≤ code edge.1 ∧ edge.1 ≠ .signFailed := by decide
      have from_ := session _ (Crosses.edge (.abandon why ‹_› ‹_› made ‹_›)) crossing
      exact created_of_session from_.1 from_.2 live

/-! ## The ledger -/

/-- A ledger that keeps its rules when its ticket changes state alone. -/
theorem LedgerRules.kept (state : b.state = s)
    (ledger : b.ledger = t.ledger)
    (nonce : b.reference.nonce = t.reference.nonce)
    (known : t.reference.has Reference.nonceField ↔ b.reference.has Reference.nonceField)
    (unknown : countOf .create t.ledger = 0 → b.reference.presence = 0)
    (coordinator : b.coordinator = t.coordinator)
    (early : code State.sessionIntent ≤ code t.state → code State.sessionIntent ≤ code s)
    (late : code State.sessionIntent ≤ code s → s ≠ .signFailed →
      0 < countOf .create t.ledger ∨ s = .cancelled ∨ s = .void ∨ s = .closedFailed) :
    b.LedgerRules := by
  subst state
  have rules := t.rules.ledger
  have counts (x : Crossing) : b.count x = t.count x := by
    rw [count_eq, ledger]
    rfl
  refine ⟨ledger ▸ rules.length, by rw [nonce, ledger]; exact rules.admitted, ?_, ?_, ?_, ?_, ?_⟩
  · rw [counts, rules.nonce, known]
  · rw [counts]
    exact unknown
  · rw [ledger, coordinator]
    exact rules.handed
  · rw [counts]
    exact fun created => early (rules.early created)
  rintro ⟨session, other, none_⟩
  rw [counts, count_eq] at none_
  rcases late session other with created | closed
  · omega
  · exact closed

/-- What the two checks ask of the ledger beside its rules: it keeps its
entries and gains at most one, which leads into the state. -/
inductive Grows (t : Ticket) (b : Ticket.Builder) : Prop
  | stays : b.ledger = t.ledger →
    (t.state ≠ b.state → b.state ≠ .signing → TicketMachine.crossingInto b.state = none) → Grows t b
  | adds {e} : b.ledger = t.ledger ++ [e] → (t.state, e.crossing, b.state) ∈ crossEdges → Grows t b

structure LedgerFits (t : Ticket) (b : Ticket.Builder) : Prop where
  rules : b.LedgerRules
  grows : Grows t b

variable {newBoot : Bool}

theorem Moves.ledger (moves : Moves c b newBoot s) :
    (code State.sessionIntent ≤ code c.ticket.state → code State.sessionIntent ≤ code s) ∧
    (code State.sessionIntent ≤ code s → s ≠ .signFailed →
      code State.sessionIntent ≤ code c.ticket.state ∧ c.ticket.state ≠ .signFailed) ∧
    (s ≠ .signing → TicketMachine.crossingInto s = none) :=
  (by decide : ∀ edge ∈ moveEdges,
    (code State.sessionIntent ≤ code edge.1 → code State.sessionIntent ≤ code edge.2) ∧
    (code State.sessionIntent ≤ code edge.2 → edge.2 ≠ .signFailed →
      code State.sessionIntent ≤ code edge.1 ∧ edge.1 ≠ .signFailed) ∧
    (edge.2 ≠ .signing → TicketMachine.crossingInto edge.2 = none)) _ moves.edge

/-- Only a create changes the reference: it leaves the nonce alone. -/
theorem Crosses.reference {e : Entry}
    (crosses : Crosses c b s e r k) :
    (e.crossing = .create ∧ r.presence = Reference.nonceField) ∨
      (e.crossing ≠ .create ∧ r = b.reference) := by
  cases crosses with
  | create _ _ _ _ drawn made =>
    refine .inl ⟨(entry_inv made).crossing, ?_⟩
    rw [Reference.make_eq_ok.mp drawn]
    rfl
  | sign _ _ _ made | publish _ _ _ _ made | write _ _ _ _ made | commit _ _ _ _ made
  | notice _ _ _ _ _ made | reboot _ _ _ _ _ _ _ made | abandon _ _ _ made =>
    exact .inr ⟨by simp [(entry_inv made).crossing], rfl⟩

theorem Crosses.ledger {e : Entry}
    (crosses : Crosses c b s e r k) : e.crossing ≠ .handover ∧
      (e.crossing = .create ∨ code State.sessionIntent ≤ code c.ticket.state →
        code State.sessionIntent ≤ code s) ∧
      (code State.sessionIntent ≤ code s → e.crossing = .create ∨
        (code State.sessionIntent ≤ code c.ticket.state ∧ c.ticket.state ≠ .signFailed)) :=
  (by decide : ∀ edge ∈ crossEdges, edge.2.1 ≠ .handover ∧
    (edge.2.1 = .create ∨ code State.sessionIntent ≤ code edge.1 →
      code State.sessionIntent ≤ code edge.2.2) ∧
    (code State.sessionIntent ≤ code edge.2.2 → edge.2.1 = .create ∨
      (code State.sessionIntent ≤ code edge.1 ∧ edge.1 ≠ .signFailed))) _ crosses.edge

theorem handedTo_append {ledger : List Entry} {e : Entry} (other : e.crossing ≠ .handover) :
    handedTo (ledger ++ [e]) = handedTo ledger := by
  simp [handedTo, List.filter_append, other]

theorem Crosses.rules {e : Entry}
    (crosses : Crosses c (starting c) s e r k) (sound : c.Sound stored)
    (sequenced : Sequenced stored c.ticket.toBuilder) (live : c.ticket.state.terminal = false)
    (state : b.state = s) (reference : b.reference = r)
    (coordinator : b.coordinator = c.ticket.coordinator)
    (ledger : b.ledger = c.ticket.ledger ++ [e]) : b.LedgerRules := by
  have rules := c.ticket.rules.ledger
  have admits := crosses.admits sound sequenced live
  obtain ⟨notHandover, early, late⟩ := crosses.ledger
  have created : e.crossing ≠ .create → (0 < b.count .create ↔ 0 < c.ticket.count .create) := by
    intro other
    rw [count_eq, ledger, countOf_append_singleton]
    simp [other, count_eq]
  have creates : e.crossing = .create → 0 < b.count .create := by
    intro create
    rw [count_eq, ledger, countOf_append_singleton]
    simp [create]
  have admitted : Admitted r.nonce (c.ticket.ledger ++ [e]) := by
    refine .append ?_ admits
    rcases crosses.reference with ⟨create, _⟩ | ⟨_, same⟩
    · have bound := admits.bound
      rw [create] at bound
      exact rules.admitted.renonce (by simpa [Crossing.bound] using bound)
    · rw [same]
      exact rules.admitted
  refine ⟨ledger ▸ admitted.length_le, by rw [reference, ledger]; exact admitted, ?_, ?_, ?_, ?_, ?_⟩
  · rw [reference]
    rcases crosses.reference with ⟨create, known⟩ | ⟨other, same⟩
    · simp [creates create, Reference.Fields.has, known, Reference.nonceField]
    · rw [created other, same]
      exact rules.nonce
  · rw [reference]
    rcases crosses.reference with ⟨create, known⟩ | ⟨other, same⟩
    · intro none_
      exact absurd (creates create) (by omega)
    · have kept := created other
      rw [same]
      exact fun none_ => rules.unreferenced (by omega)
  · rw [ledger, handedTo_append notHandover, coordinator]
    exact rules.handed
  · rw [state]
    intro some_
    by_cases create : e.crossing = .create
    · exact early (.inl create)
    · exact early (.inr (rules.early ((created create).mp some_)))
  · rw [state]
    rintro ⟨session, _, none_⟩
    rcases late session with create | ⟨before, other⟩
    · exact absurd (creates create) (by omega)
    have some_ := created_of_session before other live
    by_cases create : e.crossing = .create
    · exact absurd (creates create) (by omega)
    · exact absurd ((created create).mpr some_) (by omega)

/-! ## Closings -/

theorem closingState_cases (t : Ticket) (k : Cause) : closingState t k = .cancelled ∨
    closingState t k = .void ∨ (closingState t k = .closedFailed ∧ k = .none) ∨
      (closingState t k = .diverged ∧ committed t = true) := by
  unfold closingState
  cases k <;> cases committed t <;> decide

/-- A closing takes a forward edge, to DIVERGED only after a commit. -/
theorem Closes.exit (closes : Closes c b k s)
    (shaped : Shaped c.ticket.state c.ticket.ledger) :
    TicketMachine.edge c.ticket.state s = some .forward ∧
      (s = .cancelled ∨ s = .void ∨ s = .closedFailed ∨
        (s = .diverged ∧ 0 < countOf .commit c.ticket.ledger)) := by
  have rules := c.ticket.rules.ledger
  have uncommitted (none_ : countOf .create c.ticket.ledger = 0) : committed c.ticket ≠ true := by
    rw [ne_eq, committed_iff, rules.admitted.uncreated none_ (.inr (.inl rfl))]
    omega
  cases closes with
  | caused state some_ =>
    have none_ : countOf .create c.ticket.ledger = 0 := by
      refine rules.uncreated ?_
      rcases state with state | state | state | state <;> rw [state] <;> decide
    rcases closingState_cases c.ticket b.cause with closed | closed | ⟨_, cause⟩ | ⟨_, committed_⟩
    · refine ⟨?_, .inl closed⟩
      rw [closed]
      rcases state with state | state | state | state <;> rw [state] <;> decide
    · refine ⟨?_, .inr (.inl closed)⟩
      rw [closed]
      rcases state with state | state | state | state <;> rw [state] <;> decide
    · exact absurd cause some_
    · exact absurd committed_ (uncommitted none_)
  | @ended k state =>
    rcases closingState_cases c.ticket k with closed | closed | ⟨closed, _⟩ | ⟨closed, committed_⟩
    · refine ⟨?_, .inl closed⟩
      rw [closed]
      rcases state with state | state | state | state | state <;> rw [state] <;> decide
    · refine ⟨?_, .inr (.inl closed)⟩
      rw [closed]
      rcases state with state | state | state | state | state <;> rw [state] <;> decide
    · refine ⟨?_, .inr (.inr (.inl closed))⟩
      rw [closed]
      rcases state with state | state | state | state | state <;> rw [state] <;> decide
    rw [closed]
    refine ⟨?_, .inr (.inr (.inr ⟨rfl, committed_iff.mp committed_⟩))⟩
    rcases state with state | state | state | state | state
    · exact absurd committed_ (uncommitted (shaped.excludes .create (by rw [state]; decide)))
    · have none_ := shaped.excludes .commit (by rw [state]; decide)
      exact absurd (committed_iff.mp committed_) (by omega)
    all_goals rw [state]; decide
  | diverged state =>
    rcases state with state | ⟨state, committed_⟩
    · exact ⟨by rw [state]; decide, .inr (.inr (.inr ⟨rfl, shaped.requires _ (by rw [state]; decide)⟩))⟩
    · exact ⟨by rw [state]; decide, .inr (.inr (.inr ⟨rfl, committed_iff.mp committed_⟩))⟩
  | void state => exact ⟨by rw [state]; decide, .inr (.inl rfl)⟩

theorem WindowCloses.exit {now : Clock} {h : List Health}
    {u : Text} (closes : WindowCloses c b now h k u s) :
    TicketMachine.edge .healthWindow s = some .forward := by
  cases closes <;> decide

theorem merge_nonce {ticket seen r : Reference} (merged : merge ticket seen = .ok r) :
    r.nonce = ticket.nonce ∧ r.has Reference.nonceField := by
  rw [Reference.make_eq_ok.mp merged]
  refine ⟨rfl, ?_⟩
  simp only [Reference.Fields.has, or_and_self_right]
  decide

theorem Turn.ledgerFits (turn : Turn c (starting c) newBoot d)
    (sound : c.Sound stored) (sequenced : Sequenced stored c.ticket.toBuilder)
    (live : c.ticket.state.terminal = false) : LedgerFits c.ticket d.builder := by
  have rules := c.ticket.rules.ledger
  have same : (starting c).ledger = c.ticket.ledger := rfl
  have reference : (starting c).reference = c.ticket.reference := rfl
  have coordinator : (starting c).coordinator = c.ticket.coordinator := rfl
  have created := created_of_session (t := c.ticket)
  have inSession {b : Ticket.Builder} {s : State} (state : b.state = s)
      (ledger : b.ledger = c.ticket.ledger)
      (reference : b.reference = c.ticket.reference)
      (coordinator : b.coordinator = c.ticket.coordinator)
      (session : code State.sessionIntent ≤ code s)
      (some_ : 0 < countOf .create c.ticket.ledger) : b.LedgerRules :=
    LedgerRules.kept state ledger (by rw [reference]) (by rw [reference])
      (fun none_ => by omega) coordinator (fun _ => session) (fun _ _ => .inl some_)
  cases turn with
  | stays _ _ _ built | idles _ built | restarts _ _ _ _ _ built | observes _ _ _ _ built
  | windowWaits _ _ _ _ _ built =>
    rw [built]
    refine ⟨LedgerRules.kept rfl same rfl Iff.rfl rules.unreferenced coordinator id ?_, .stays same ?_⟩
    · exact fun session other => .inl (created session other live)
    · exact fun other => absurd rfl other
  | moves moves _ built =>
    rw [built]
    obtain ⟨early, late, into⟩ := moves.ledger
    refine ⟨LedgerRules.kept rfl same rfl Iff.rfl rules.unreferenced coordinator early ?_,
      .stays same fun _ => into⟩
    intro session other
    exact .inl (created (late session other).1 (late session other).2 live)
  | binds state _ _ merged built =>
    rw [built]
    obtain ⟨nonce, known⟩ := merge_nonce merged
    have some_ := created (by rw [state]) (by simp [state]) live
    refine ⟨LedgerRules.kept (s := .sessionBound) rfl same nonce ?_ (fun none_ => by omega)
      coordinator (fun _ => by decide) (fun _ _ => .inl some_), .stays same fun _ _ => rfl⟩
    exact ⟨fun _ => known, fun _ => rules.nonce.mp some_⟩
  | crosses crosses built =>
    rw [built]
    exact ⟨crosses.rules sound sequenced live rfl rfl coordinator rfl, .adds rfl crosses.edge⟩
  | @closes _ s _ closes _ built =>
    rw [built]
    obtain ⟨_, closed⟩ := closes.exit sequenced.shaped
    refine ⟨LedgerRules.kept (s := s) rfl same rfl Iff.rfl rules.unreferenced coordinator (fun _ => ?_) ?_,
      .stays same fun _ _ => ?_⟩
    · rcases closed with rfl | rfl | rfl | ⟨rfl, _⟩ <;> decide
    · intro _ _
      rcases closed with rfl | rfl | rfl | ⟨rfl, committed_⟩
      · exact .inr (.inl rfl)
      · exact .inr (.inr (.inl rfl))
      · exact .inr (.inr (.inr rfl))
      · refine .inl (Nat.pos_of_ne_zero fun none_ => ?_)
        have uncommitted := rules.admitted.uncreated none_ (x := .commit) (.inr (.inl rfl))
        omega
    · rcases closed with rfl | rfl | rfl | ⟨rfl, _⟩ <;> rfl
  | @windowCloses _ _ _ _ s _ state _ closes _ built =>
    rw [built]
    refine ⟨inSession (s := s) rfl same reference coordinator ?_ (created (by rw [state]; decide)
      (by simp [state]) live), .stays same fun _ _ => ?_⟩
    · cases closes <;> decide
    · cases closes <;> rfl
  | applies state _ _ _ _ built | opensWindow state _ _ built =>
    rw [built]
    exact ⟨inSession rfl same reference coordinator (by dsimp only; decide) (created (by rw [state]; decide)
      (by simp [state]) live), .stays same fun _ _ => rfl⟩

/-! ## The reference -/

theorem referenceRule_refl (r : Reference) : TicketMachine.referenceRule r r = .ok () := by
  simp [TicketMachine.referenceRule]

/-- Nothing known of a reference beside its nonce, which stays. -/
theorem referenceRule_nonce {before after : Reference}
    (known : before.presence = 0 ∨
      (before.presence = Reference.nonceField ∧ after.nonce = before.nonce ∧
        after.presence &&& Reference.nonceField = Reference.nonceField)) :
    TicketMachine.referenceRule before after = .ok () := by
  have lacks : ¬ before.has Reference.session ∧ ¬ before.has Reference.created ∧
      ¬ before.has Reference.stageDirectory ∧ ¬ before.has Reference.installer := by
    rcases known with none_ | ⟨nonce, _⟩
    · simp [Reference.Fields.has, none_]
    · simp only [Reference.Fields.has, nonce]
      decide
  simp only [TicketMachine.referenceRule, bind_unit_eq_ok, refuse_eq_ok, lacks, false_and, not_and,
    not_not, ne_eq, not_false_eq_true, true_and]
  rcases known with none_ | ⟨nonce, same, kept⟩
  · simp [none_, Reference.Fields.has]
  · rw [nonce]
    exact ⟨kept, fun _ => same.symm⟩

theorem Turn.referenceFits (turn : Turn c (starting c) newBoot d)
    (sequenced : Sequenced stored c.ticket.toBuilder) :
    TicketMachine.referenceRule c.ticket.reference d.builder.reference = .ok () := by
  cases turn with
  | binds state _ _ merged built =>
    rw [built]
    have made := Reference.make_eq_ok.mp merged
    refine referenceRule_nonce (.inr ⟨sequenced.intent state, (merge_nonce merged).1, ?_⟩)
    rw [made]
    exact or_and_self_right
  | crosses crosses built =>
    rw [built]
    rcases crosses.reference with ⟨create, _⟩ | ⟨_, same⟩
    · refine referenceRule_nonce (.inl (c.ticket.rules.ledger.unreferenced ?_))
      refine c.ticket.rules.ledger.uncreated ?_
      have early : ∀ edge ∈ crossEdges, edge.2.1 = .create →
          code edge.1 < code State.sessionIntent := by decide
      exact early _ crosses.edge create
    · rw [same]
      exact referenceRule_refl _
  | stays _ _ _ built | idles _ built | restarts _ _ _ _ _ built | observes _ _ _ _ built
  | windowWaits _ _ _ _ _ built | moves _ _ built | closes _ _ built | windowCloses _ _ _ _ built
  | applies _ _ _ _ _ built | opensWindow _ _ _ built =>
    rw [built]
    exact referenceRule_refl _

/-! ## The exit -/

/-- What the ticket machine asks of the state: an edge of its table, a commit
for DIVERGED and for a boot during an abandon, and a new boot for a boot edge or
a window that restarts. -/
structure ExitFits (c : Context) (b : Ticket.Builder) : Prop where
  exit : c.ticket.state ≠ b.state → TicketMachine.edge c.ticket.state b.state ≠ none
  commit : c.ticket.state ≠ b.state → countOf .commit c.ticket.ledger = 0 →
    b.state ≠ .diverged ∧ ¬ (c.ticket.state = .abandonIntent ∧ b.state = .bootObserved)
  boot : c.ticket.state ≠ b.state → TicketMachine.edge c.ticket.state b.state = some .boot →
    isNewBoot c = true
  restart : c.ticket.state = b.state → b.state = .healthWindow →
    c.ticket.windowBoot ≠ b.windowBoot ∨ c.ticket.windowStart ≠ b.windowStart →
    c.ticket.windowBoot ≠ b.boot ∧ b.windowBoot = b.boot

theorem ExitFits.same (state : b.state = c.ticket.state)
    (window : b.windowBoot = c.ticket.windowBoot ∧ b.windowStart = c.ticket.windowStart) :
    ExitFits c b :=
  ⟨fun other => absurd state.symm other, fun other => absurd state.symm other,
    fun other => absurd state.symm other, by simp [window]⟩

theorem ExitFits.edge (state : b.state = s)
    (edge : TicketMachine.edge c.ticket.state s = some .forward ∨
      TicketMachine.edge c.ticket.state s = some .request ∨
      (TicketMachine.edge c.ticket.state s = some .boot ∧ isNewBoot c = true))
    (outside : s ≠ .healthWindow ∨ c.ticket.state ≠ s)
    (commit : countOf .commit c.ticket.ledger = 0 →
      s ≠ .diverged ∧ ¬ (c.ticket.state = .abandonIntent ∧ s = .bootObserved)) : ExitFits c b := by
  subst state
  refine ⟨fun _ => ?_, fun _ => commit, fun _ boot => ?_, fun same window => ?_⟩
  · rcases edge with edge | edge | ⟨edge, _⟩ <;> simp [edge]
  · rcases edge with edge | edge | ⟨_, newBoot⟩
    · simp [edge] at boot
    · simp [edge] at boot
    · exact newBoot
  · rcases outside with outside | other
    · exact absurd window outside
    · exact absurd same other

theorem Moves.exit (moves : Moves c b newBoot s) :
    TicketMachine.edge c.ticket.state s = some .forward ∨
      TicketMachine.edge c.ticket.state s = some .request ∨
      (TicketMachine.edge c.ticket.state s = some .boot ∧ newBoot = true) := by
  by_cases boot : s = .bootObserved
  · cases moves with
    | bootObserved newBoot_ state =>
      refine .inr (.inr ⟨?_, newBoot_⟩)
      rcases state with state | state | state | state | state | ⟨state, _⟩ <;> rw [state] <;> decide
    | _ => simp at boot
  · have others : ∀ edge ∈ moveEdges, edge.2 ≠ .bootObserved →
        TicketMachine.edge edge.1 edge.2 = some .forward ∨
          TicketMachine.edge edge.1 edge.2 = some .request := by decide
    rcases others _ moves.edge boot with forward | request
    · exact .inl forward
    · exact .inr (.inl request)

theorem Turn.exitFits (turn : Turn c (starting c) (isNewBoot c) d) (sound : c.Sound stored)
    (sequenced : Sequenced stored c.ticket.toBuilder) : ExitFits c d.builder := by
  have shaped := sequenced.shaped
  have window : (starting c).windowBoot = c.ticket.windowBoot ∧
      (starting c).windowStart = c.ticket.windowStart := ⟨rfl, rfl⟩
  have kept : (starting c).state = c.ticket.state := rfl
  cases turn with
  | stays _ _ _ built | idles _ built | observes _ _ _ _ built | windowWaits _ _ _ _ _ built =>
    rw [built]
    exact .same kept window
  | @restarts now _ state clock _ other _ built =>
    have seen : (starting c).boot = now.boot := sound.seenBoot clock
    rw [built]
    exact ⟨fun other => absurd rfl other, fun other => absurd rfl other, fun other => absurd rfl other,
      fun _ _ _ => ⟨by rw [seen]; exact other, seen.symm⟩⟩
  | moves moves _ built =>
    rw [built]
    refine .edge rfl moves.exit (.inl moves.outside.2.1) fun none_ => ⟨?_, ?_⟩
    · exact (by decide : ∀ edge ∈ moveEdges, edge.2 ≠ .diverged) _ moves.edge
    rintro ⟨abandoning, rfl⟩
    cases moves with
    | bootObserved _ state =>
      simp only [abandoning, reduceCtorEq, true_and, false_or] at state
      exact absurd (committed_iff.mp state) (by omega)
  | binds state _ _ _ built | applies state _ _ _ _ built =>
    rw [built]
    exact .edge rfl (.inl (by rw [state]; rfl)) (.inl (by simp)) (fun _ => by simp)
  | opensWindow state _ _ built =>
    rw [built]
    exact .edge rfl (.inl (by rw [state]; rfl)) (.inr (by simp [state])) (fun _ => by simp)
  | @crosses s e _ _ _ crosses built =>
    rw [built]
    have edges : ∀ edge ∈ crossEdges, edge.1 = edge.2.2 ∨
        TicketMachine.edge edge.1 edge.2.2 = some .forward := by decide
    have plain : ∀ edge ∈ crossEdges, edge.2.2 ≠ .diverged ∧ edge.2.2 ≠ .bootObserved := by decide
    rcases edges _ crosses.edge with same | forward
    · exact .same same.symm window
    · exact .edge rfl (.inl forward) (.inl crosses.outside.2.1) fun _ =>
        ⟨(plain _ crosses.edge).1, fun both => (plain _ crosses.edge).2 both.2⟩
  | closes closes _ built =>
    rw [built]
    obtain ⟨forward, closed⟩ := closes.exit shaped
    refine .edge rfl (.inl forward) ?_ fun none_ => ?_
    · rcases closed with rfl | rfl | rfl | ⟨rfl, _⟩ <;> exact .inl (by simp)
    rcases closed with rfl | rfl | rfl | ⟨rfl, committed_⟩
    · simp
    · simp
    · simp
    · omega
  | windowCloses state _ closes _ built =>
    rw [built]
    have committed_ := shaped.requires .commit (by rw [state]; decide)
    exact .edge rfl (.inl (by rw [state]; exact closes.exit))
      (.inl fun window => absurd closes.terminal (by dsimp only at window; rw [window]; decide))
      (fun none_ => by omega)

/-! ## The two checks -/

theorem starting_bootCount (sound : c.Sound stored) : (starting c).bootCount ≤ 0xffff := by
  have room := sound.boots
  change (if countsBoot c then c.ticket.bootCount + 1 else c.ticket.bootCount) ≤ 0xffff
  split <;> omega

theorem starting_boot (c : Context) : IsHex 32 (starting c).boot ∧
    (0 < (starting c).bootCount → ¬ (starting c).boot = noId) := by
  have rules := c.ticket.rules
  change IsHex 32 (seenBoot c) ∧
    (0 < (if countsBoot c then c.ticket.bootCount + 1 else c.ticket.bootCount) → ¬ seenBoot c = noId)
  unfold seenBoot countsBoot isNewBoot
  cases clock : c.now with
  | none => simpa using ⟨rules.boot, rules.counted⟩
  | some now =>
    cases c.view.bootObserved with
    | true => simp [now.boot_hex, now.boot_ne]
    | false => simpa using ⟨rules.boot, rules.counted⟩

/-- The boots that a step sees are counted as the ticket machine asks. -/
theorem ExitFits.bootRule (exit : ExitFits c b)
    (carries : Carries (starting c) b) (built : t.toBuilder = b) :
    TicketMachine.bootRule c.ticket t = .ok () := by
  subst built
  have boot : t.boot = seenBoot c := carries.boots.1.symm
  have count : t.bootCount =
      if countsBoot c then c.ticket.bootCount + 1 else c.ticket.bootCount := carries.boots.2.symm
  have changed : isNewBoot c = true → c.ticket.boot ≠ noId ∧ c.ticket.boot ≠ t.boot := by
    rw [boot]
    unfold isNewBoot seenBoot
    cases c.now with
    | none => simp
    | some now =>
      simp only [Option.any_some, Bool.and_eq_true, decide_eq_true_eq]
      rintro ⟨⟨observed, known⟩, other⟩
      simpa [observed, known] using Ne.symm other
  have counted : t.bootCount ≠ c.ticket.bootCount → isNewBoot c = true := by
    rw [count]
    unfold countsBoot
    cases isNewBoot c <;> simp
  simp only [TicketMachine.bootRule, bind_unit_eq_ok, refuse_eq_ok, not_and, not_or, not_not, ne_eq]
  refine ⟨fun _ first => ?_, ?_, fun other => ?_, fun other boot_ => ?_, ?_⟩
  · by_contra other
    exact (changed (counted other)).1 first
  · rw [count]
    split <;> omega
  · exact (changed (counted other)).2
  · have newBoot := changed (exit.boot other boot_)
    exact ⟨newBoot.2, newBoot.1⟩
  · intro same window restarted
    exact exit.restart same window (by tauto)

theorem Grows.legal {t next : Ticket} (grows : Grows t b)
    (built : next.toBuilder = b) :
    (¬ next.ledger.length < t.ledger.length ∧ next.ledger.take t.ledger.length = t.ledger) ∧
      next.ledger.length ≤ t.ledger.length + 1 ∧ TicketMachine.addedRule t next = .ok () ∧
      (next.ledger.length = t.ledger.length → next.ledger = t.ledger) := by
  subst built
  cases grows with
  | stays same into =>
    refine ⟨by simp [same], by simp [same], ?_, fun _ => same⟩
    simp only [TicketMachine.addedRule, same, Nat.left_eq_add, Nat.succ_ne_self, if_false,
      refuse_eq_ok, not_and]
    intro other notSigning
    simp [into other notSigning]
  | @adds e added edge =>
    refine ⟨by simp [added], by simp [added], ?_, fun length => by simp [added] at length⟩
    have leads : ∀ edge ∈ crossEdges,
        (edge.1 ≠ edge.2.2 ∧ TicketMachine.crossingInto edge.2.2 = some edge.2.1) ∨
        (edge.1 = edge.2.2 ∧ edge.2.2 = .abandonIntent ∧ edge.2.1 = .abandon) ∨
        (edge.1 = edge.2.2 ∧ TicketMachine.appendsInPlace edge.2.1 edge.2.2 = true) := by decide
    simp only [TicketMachine.addedRule, added, List.length_append, List.length_singleton, if_true,
      List.getLast?_concat, refuse_eq_ok]
    rcases leads _ edge with into | loop | place
    · exact fun broken => broken.1 into
    · exact fun broken => broken.2.1 loop
    · exact fun broken => broken.2.2.2 place

/-- A draft whose parts all fit is accepted by both checks. -/
theorem fits_of (sound : c.Sound stored) (live : c.ticket.state.terminal = false)
    (carries : Carries (starting c) b) (flags : FlagsFit c.ticket b) (cause : CauseFits c.ticket b)
    (window : WindowFits b) (successor : SuccessorFits b) (health : HealthFits c.ticket b)
    (ledger : LedgerFits c.ticket b)
    (reference : TicketMachine.referenceRule c.ticket.reference b.reference = .ok ())
    (exit : ExitFits c b) : Fits c.ticket b := by
  have rules := c.ticket.rules
  obtain ⟨installation, ticketId, component, planId, attempt⟩ :
      c.ticket.installation = b.installation ∧ c.ticket.ticketId = b.ticketId ∧
        c.ticket.component = b.component ∧ c.ticket.planId = b.planId ∧
        c.ticket.attempt = b.attempt := carries.identity
  obtain ⟨coordinatorClass, coordinator⟩ :
      c.ticket.coordinatorClass = b.coordinatorClass ∧ c.ticket.coordinator = b.coordinator :=
    carries.coordinator
  obtain ⟨boot, bootCount⟩ := carries.boots
  have valid : b.Valid :=
    { installation := installation ▸ rules.installation
      ticketId := ticketId ▸ rules.ticketId
      component := component ▸ rules.component
      planId := planId ▸ rules.planId
      attempt := attempt ▸ rules.attempt
      coordinator := coordinator ▸ rules.coordinator
      flags := flags.flagged.known rules.flags
      unresolved := flags.unresolved
      bootCount := bootCount ▸ starting_bootCount sound
      boot := boot ▸ (starting_boot c).1
      counted := by rw [← boot, ← bootCount]; exact (starting_boot c).2
      windowHex := window.hex
      successorHex := successor.hex
      window := window.boot
      windowStart := window.start
      successor := successor.exact_
      successorOther := successor.other
      cause := cause.closing
      healthState := health.state
      healthCount := health.advances.bounded
      health := ⟨health.observing, health.advances.ordered⟩
      ledger := ledger.rules }
  obtain ⟨next, built⟩ : ∃ next : Ticket, next.toBuilder = b :=
    ⟨⟨b, validate_eq_ok.mpr valid⟩, rfl⟩
  obtain ⟨grows, added, entry_, unchanged⟩ := ledger.grows.legal built
  have bootRule := exit.bootRule carries built
  refine ⟨next, built, TicketMachine.check_eq_ok.mpr (.inr ?_)⟩
  subst built
  have commits : next.count .commit = 0 → countOf .commit c.ticket.ledger = 0 := by
    rw [← grows.2, count_eq, countOf_eq_zero, countOf_eq_zero]
    exact fun none_ e member => none_ e (List.mem_of_mem_take member)
  exact
    { identity := ⟨installation, ticketId, component, planId, attempt⟩
      nonterminal := by simp [live]
      exit := exit.exit
      grows
      added
      commit := fun other none_ => exit.commit other (commits none_)
      entry := entry_
      abandons := fun _ _ length => by simp [count_eq, unchanged length]
      coordinator := fun _ => ⟨coordinatorClass, coordinator⟩
      boots := bootRule
      alerts := flags.flagged.alerts
      cause := cause.rises
      higher := fun _ other => Nat.lt_of_le_of_ne cause.rises fun same =>
        other (Coded.code_injective same).symm
      reference
      health := health.advances.progress.allowed
      successor := fun changed => by
        by_contra other
        have before : c.ticket.successor = noId :=
          rules.successor.mp fun state => absurd live (by rw [state]; decide)
        exact changed (before.trans (successor.exact_.mp other).symm) }

/-- Every draft of a rule fits, unless a superseding closing has to wait. -/
theorem Turn.fits (turn : Turn c (starting c) (isNewBoot c) d) (sound : c.Sound stored)
    (sequenced : Sequenced stored c.ticket.toBuilder) (live : c.ticket.state.terminal = false)
    (moving : holding c = false) (free : ¬ SupersedingWaits c) : Fits c.ticket d.builder :=
  fits_of sound live turn.carries turn.flagsFit (turn.causeFits live) (turn.windowFits sound)
    (turn.successorFits live moving free) turn.healthFits (turn.ledgerFits sound sequenced live)
    (turn.referenceFits sequenced) (turn.exitFits sound sequenced)

theorem starting_fits (sound : c.Sound stored) (sequenced : Sequenced stored c.ticket.toBuilder)
    (live : c.ticket.state.terminal = false) : Fits c.ticket (starting c) := by
  let d : Draft := ⟨starting c, none⟩
  have turn : Turn c (starting c) (isNewBoot c) d := by
    by_cases window : c.ticket.state = .healthWindow
    · exact .idles window rfl rfl rfl
    · exact .stays window .refl (.inl rfl) rfl rfl rfl
  have current : c.ticket.state ≠ .superseded := fun state => absurd live (by rw [state]; decide)
  exact fits_of (b := d.builder) sound live turn.carries turn.flagsFit (turn.causeFits live)
    (turn.windowFits sound) (.none current (c.ticket.rules.successor.mp current) c.ticket.rules.planId.2)
    turn.healthFits (turn.ledgerFits sound sequenced live) (turn.referenceFits sequenced)
    (turn.exitFits sound sequenced)

end Andrix.Deployment
