import Andrix.Lib.Keyed
import Andrix.Deployment.Reachable

/-! Grants are single use. A run over one plan stores authorizations, creates a
ticket where none is open, and steps and cancels tickets, each step reading every
ticket and every authorization of the plan. Over all its tickets a SIGN or STAGE
grant is named once, and an ACTIVATE serves the reboot requests of one boot. -/
namespace Andrix.Deployment
open Andrix.Lib

def stored (grants : List Authorization) (id : Text) : Option Authorization :=
  grants.find? (fun a => a.authorizationId = id)

/-- The authorizations and tickets of one plan that runs reach. -/
inductive Attempted (plan : Plan) : List Authorization → List Ticket → Prop
  | start : Attempted plan [] []
  | grant {grants tickets} {a : Authorization} : Attempted plan grants tickets → a.planId = plan.planId →
    (∀ b ∈ grants, b.authorizationId ≠ a.authorizationId) → Attempted plan (grants ++ [a]) tickets
  | create {grants tickets} {t : Ticket} : Attempted plan grants tickets → t.planId = plan.planId →
    t.state = .planned → t.ledger = [] → (∀ u ∈ tickets, u.state.terminal = true) →
    (∀ u ∈ tickets, u.ticketId ≠ t.ticketId) → Attempted plan grants (tickets ++ [t])
  | step {grants tickets} {c : Context} {s : Step} : Attempted plan grants tickets → c.plan = plan →
    c.ticket ∈ tickets → (∀ a, a ∈ c.authorizations ↔ a ∈ grants) →
    (∀ t, t ∈ c.planTickets ↔ t ∈ tickets) → step c = .ok s →
    Attempted plan grants (replace (·.ticketId) s.ticket tickets)
  | cancel {grants tickets} {t next : Ticket} : Attempted plan grants tickets → t ∈ tickets →
    cancel t = .ok (some next) → Attempted plan grants (replace (·.ticketId) next tickets)

/-- A reboot request under a grant after which its ticket observed another boot. -/
def TookEffect (a : Authorization) (t : Ticket) (e : Entry) : Prop :=
  e.crossing = .reboot ∧ e.grant = a.authorizationId ∧ e.boot ≠ t.boot

/-- The entries that name a grant, over all tickets. -/
def namings (tickets : List Ticket) (id : Text) : Nat :=
  (tickets.flatMap (·.ledger)).countP (fun e => e.grant = id)

structure SingleUse (grants : List Authorization) (tickets : List Ticket) : Prop where
  once : ∀ a ∈ grants, a.effect = .sign ∨ a.effect = .stage → namings tickets a.authorizationId ≤ 1
  signs : ∀ t ∈ tickets, SignsApart (stored grants) t.ledger
  boots : ∀ t ∈ tickets, ∀ d ∈ t.ledger, ∀ e ∈ t.ledger, d.crossing = .reboot →
    e.crossing = .reboot → d.grant = e.grant → d.boot = e.boot
  reboots : ∀ a ∈ grants, ∀ t ∈ tickets, ∀ u ∈ tickets, ∀ d ∈ t.ledger, ∀ e ∈ u.ledger,
    TookEffect a t d → TookEffect a u e → t = u ∧ d.boot = e.boot

/-! ## One step -/

variable {c : Context} {s : Step}

theorem step_ledger (ran : step c = .ok s) :
    s.ticket.ledger = c.ticket.ledger ++ s.issue.toList := by
  cases step_inv ran with
  | same _ same none_ => simp [same, none_]
  | held _ _ _ built _ none_ => simp [built, none_, starting, opening]
  | @turned d _ _ _ _ _ turn _ taken =>
    rw [taken.built, taken.issue]
    cases turn with
    | crosses _ built issue => simp [built, issue, starting, opening]
    | stays _ _ _ built none_ | moves _ _ built none_ | binds _ _ _ _ built none_
    | closes _ _ built none_ | applies _ _ _ _ _ built none_ | opensWindow _ _ _ built none_
    | idles _ built none_ | restarts _ _ _ _ _ built none_ | observes _ _ _ _ built none_
    | windowWaits _ _ _ _ _ built none_ | windowCloses _ _ _ _ built none_ =>
      simp [built, none_, starting, opening]

theorem step_identity (ran : step c = .ok s) :
    s.ticket.ticketId = c.ticket.ticketId ∧ s.ticket.planId = c.ticket.planId := by
  have checked : TicketMachine.check c.ticket s.ticket = .ok () := by
    cases step_inv ran with
    | same _ same => rw [TicketMachine.check_eq_ok, same]; exact .inl rfl
    | held _ _ _ _ checked => exact checked
    | turned _ _ _ _ _ _ taken => exact taken.checked
  rcases TicketMachine.check_eq_ok.mp checked with same | legal
  · rw [same]; exact ⟨rfl, rfl⟩
  · exact ⟨legal.identity.2.1.symm, legal.identity.2.2.2.1.symm⟩

theorem step_terminal (ran : step c = .ok s)
    (terminal : c.ticket.state.terminal = true) : s.ticket = c.ticket := by
  cases step_inv ran with
  | same _ same => exact same
  | held live | turned live => simp [terminal] at live

/-- The grant that an issued crossing names, and that it was unused. -/
inductive Names (c : Context) (e : Entry) : Prop
  | nothing : e.grant = noId → e.crossing ≠ .reboot → Names c e
  | once {a} : a ∈ c.authorizations → e.grant = a.authorizationId → a.effect ≠ .activate →
    used c a = false → e.crossing ≠ .reboot → Names c e
  | activate {a} : a ∈ c.authorizations → e.grant = a.authorizationId → a.effect = .activate →
    used c a = false → Names c e

variable {e : Entry}

theorem Crosses.names {b : Ticket.Builder} {s : State} {r : Reference}
    {k : Cause} (crosses : Crosses c b s e r k) : Names c e := by
  cases crosses with
  | @sign g _ _ _ _ grants made =>
    obtain ⟨among, effect, unused, _⟩ := signGrants_some grants (a := g) (by simp)
    have recorded := entry_inv made
    exact .once among recorded.grant (by simp [effect]) unused (by simp [recorded.crossing])
  | create _ _ _ found _ made =>
    obtain ⟨among, effect, unused⟩ := unusedStage_some found
    have recorded := entry_inv made
    exact .once among recorded.grant (by simp [effect]) unused (by simp [recorded.crossing])
  | commit _ _ _ found made | notice _ _ _ found _ made | reboot _ _ _ found _ _ _ made =>
    obtain ⟨among, effect, _, unused⟩ := validActivate_some found
    exact .activate among (entry_inv made).grant effect unused
  | publish _ _ _ _ made | write _ _ _ _ made | abandon _ _ _ made =>
    have recorded := entry_inv made
    exact .nothing recorded.grant (by simp [recorded.crossing])

/-- A reboot is requested in the boot that the ticket last observed. -/
theorem reboot_boot (ran : step c = .ok s)
    (issued : s.issue = some e) (reboot : e.crossing = .reboot) :
    c.ticket.boot = noId ∨ c.ticket.boot = e.boot := by
  obtain ⟨state, r, k, crosses, built⟩ := step_crosses ran issued
  cases step_inv ran with
  | same _ _ none_ | held _ _ _ _ _ none_ => simp [none_] at issued
  | @turned d _ _ seen _ rule_ turn _ taken =>
    cases crosses with
    | @reboot now _ _ state _ clock _ _ _ _ made =>
      obtain ⟨now_, _⟩ := crossingNow_some clock
      by_cases unbooted : c.ticket.boot = noId
      · exact .inl unbooted
      right
      by_contra other
      have boot : e.boot = now.boot := ((entry_inv made).clock now now_).1
      rw [boot] at other
      have changed : isNewBoot c = true := by
        simp only [unobserved, now_, Option.any_some, Bool.and_eq_false_iff, decide_eq_false_iff_not,
          not_not, Bool.not_eq_false'] at seen
        rcases seen with (same | none_) | observed
        · exact absurd same.symm other
        · exact absurd none_ unbooted
        · simp [isNewBoot, observed, unbooted, now_, Ne.symm other]
      -- In another boot the rule goes to BOOT_OBSERVED and issues nothing.
      have quiet : d.issue = none := by
        rw [changed] at rule_
        rcases state with state | state <;>
          · simp only [rule, state, ready, if_true] at rule_
            cases rule_
            rfl
      rw [taken.issue, quiet] at issued
      cases issued
    | sign _ _ _ made | publish _ _ _ _ made | create _ _ _ _ _ made | write _ _ _ _ made
    | commit _ _ _ _ made | notice _ _ _ _ _ made | abandon _ _ _ made =>
      simp [(entry_inv made).crossing] at reboot

/-! ## The tickets of a plan -/

/-- What holds of a plan's authorizations and tickets in every run. -/
structure Kept (grants : List Authorization) (tickets : List Ticket) : Prop where
  grantIds : (grants.map (·.authorizationId)).Nodup
  ids : (tickets.map (·.ticketId)).Nodup
  /-- One ticket is open at a time. -/
  closed : ∀ t ∈ tickets, ∀ u ∈ tickets, t ≠ u → t.state.terminal = true ∨ u.state.terminal = true
  named : ∀ t ∈ tickets, ∀ e ∈ t.ledger, e.grant ≠ noId → ∃ a ∈ grants, a.authorizationId = e.grant
  once : ∀ a ∈ grants, a.effect = .sign ∨ a.effect = .stage → namings tickets a.authorizationId ≤ 1
  signs : ∀ t ∈ tickets, SignsApart (stored grants) t.ledger
  boots : ∀ t ∈ tickets, ∀ d ∈ t.ledger, ∀ e ∈ t.ledger, d.crossing = .reboot →
    e.crossing = .reboot → d.grant = e.grant → d.boot = e.boot
  /-- Of two tickets that asked for a reboot under one grant, one closed in the
  boot it asked in. -/
  reboots : ∀ t ∈ tickets, ∀ u ∈ tickets, t ≠ u → ∀ d ∈ t.ledger, ∀ e ∈ u.ledger,
    d.crossing = .reboot → e.crossing = .reboot → d.grant = e.grant →
    (t.state.terminal = true ∧ d.boot = t.boot) ∨ (u.state.terminal = true ∧ e.boot = u.boot)

/-- What a new entry of a ticket must satisfy. -/
structure Fresh (grants : List Authorization) (tickets : List Ticket) (t : Ticket) (e : Entry) :
    Prop where
  named : e.grant ≠ noId → ∃ a ∈ grants, a.authorizationId = e.grant
  once : ∀ a ∈ grants, a.effect = .sign ∨ a.effect = .stage → e.grant = a.authorizationId →
    namings tickets a.authorizationId = 0
  signs : SignsApart (stored grants) (t.ledger ++ [e])
  boots : e.crossing = .reboot → ∀ d ∈ t.ledger, d.crossing = .reboot → d.grant = e.grant →
    d.boot = e.boot
  reboots : e.crossing = .reboot → ∀ u ∈ tickets, u ≠ t → ∀ d ∈ u.ledger, d.crossing = .reboot →
    d.grant = e.grant → d.boot = u.boot

variable {tickets : List Ticket} {t next : Ticket}

theorem namings_replace {added : List Entry}
    (ids : (tickets.map (·.ticketId)).Nodup) (member : t ∈ tickets)
    (same : t.ticketId = next.ticketId) (grown : next.ledger = t.ledger ++ added) (id : Text) :
    namings (replace (·.ticketId) next tickets) id =
      namings tickets id + added.countP (fun e => e.grant = id) := by
  obtain ⟨before, after, split, replaced⟩ := replace_split ids member same
  rw [replaced]
  simp only [namings, split, grown, List.flatMap_append, List.flatMap_cons, List.countP_append]
  omega

variable {grants : List Authorization}

/-- An open ticket's next value keeps the plan's tickets, when what it adds to
the ledger is fresh. -/
theorem Kept.update
    {added : Option Entry} (kept : Kept grants tickets) (member : t ∈ tickets)
    (open_ : t.state.terminal = false) (same : t.ticketId = next.ticketId)
    (grown : next.ledger = t.ledger ++ added.toList)
    (fresh : ∀ e ∈ added, Fresh grants tickets t e) :
    Kept grants (replace (·.ticketId) next tickets) := by
  have among {u : Ticket} : u ∈ replace (·.ticketId) next tickets ↔
      u = next ∨ (u ∈ tickets ∧ u.ticketId ≠ next.ticketId) := mem_replace member same
  have others {u : Ticket} (other : u.ticketId ≠ next.ticketId) : u ≠ t := by
    rintro rfl
    exact other same
  -- Every other ticket of the plan is closed.
  have closed {u : Ticket} (inside : u ∈ tickets) (other : u.ticketId ≠ next.ticketId) :
      u.state.terminal = true := by
    rcases kept.closed u inside t member (others other) with done_ | done_
    · exact done_
    · simp [open_] at done_
  have entries {e : Entry} : e ∈ next.ledger ↔ e ∈ t.ledger ∨ added = some e := by
    simp [grown, Option.mem_toList]
  constructor
  · exact kept.grantIds
  · rw [map_key_replace]
    exact kept.ids
  · intro u first v second apart
    rcases among.mp first with rfl | ⟨inside, other⟩
    · rcases among.mp second with rfl | ⟨inside, other⟩
      · exact absurd rfl apart
      · exact .inr (closed inside other)
    · exact .inl (closed inside other)
  · intro u inside e entry names
    rcases among.mp inside with rfl | ⟨inside, _⟩
    · rcases entries.mp entry with entry | new
      · exact kept.named t member e entry names
      · exact (fresh e new).named names
    · exact kept.named u inside e entry names
  · intro a granted effect
    rw [namings_replace kept.ids member same grown]
    have before := kept.once a granted effect
    cases added with
    | none => simpa using before
    | some e =>
      by_cases names : e.grant = a.authorizationId
      · simp [(fresh e rfl).once a granted effect names, names]
      · simpa [names] using before
  · intro u inside
    rcases among.mp inside with rfl | ⟨inside, _⟩
    · rw [grown]
      cases added with
      | none => simpa using kept.signs t member
      | some e => exact (fresh e rfl).signs
    · exact kept.signs u inside
  · intro u inside d first e second rebootD rebootE grant
    rcases among.mp inside with rfl | ⟨inside, _⟩
    · rcases entries.mp first with first | newD <;> rcases entries.mp second with second | newE
      · exact kept.boots t member d first e second rebootD rebootE grant
      · exact (fresh e newE).boots rebootE d first rebootD grant
      · exact ((fresh d newD).boots rebootD e second rebootE grant.symm).symm
      · rw [Option.some.inj (newD.symm.trans newE)]
    · exact kept.boots u inside d first e second rebootD rebootE grant
  · -- The request of the open ticket was made when the other ticket was closed.
    have pair {u : Ticket} (inside : u ∈ tickets) (other : u.ticketId ≠ next.ticketId) {d e : Entry}
        (first : d ∈ u.ledger) (second : e ∈ next.ledger) (rebootD : d.crossing = .reboot)
        (rebootE : e.crossing = .reboot) (grant : d.grant = e.grant) :
        u.state.terminal = true ∧ d.boot = u.boot := by
      rcases entries.mp second with second | new
      · rcases kept.reboots u inside t member (others other) d first e second rebootD rebootE grant
          with done_ | done_
        · exact done_
        · simp [open_] at done_
      · exact ⟨closed inside other,
          (fresh e new).reboots rebootE u inside (others other) d first rebootD grant⟩
    intro u first v second apart d entryD e entryE rebootD rebootE grant
    rcases among.mp first with rfl | ⟨insideU, otherU⟩
    · rcases among.mp second with rfl | ⟨insideV, otherV⟩
      · exact absurd rfl apart
      · exact .inr (pair insideV otherV entryE entryD rebootE rebootD grant.symm)
    · rcases among.mp second with rfl | ⟨insideV, otherV⟩
      · exact .inl (pair insideU otherU entryD entryE rebootD rebootE grant)
      · exact kept.reboots u insideU v insideV apart d entryD e entryE rebootD rebootE grant

/-! ## Runs -/

theorem stored_eq {a : Authorization}
    (ids : (grants.map (·.authorizationId)).Nodup) (member : a ∈ grants) :
    stored grants a.authorizationId = some a := by
  cases found : stored grants a.authorizationId with
  | none => simpa using List.find?_eq_none.mp found a member
  | some b =>
    have same : b.authorizationId = a.authorizationId := by simpa using List.find?_some found
    rw [List.inj_on_of_nodup_map ids (List.mem_of_find?_eq_some found) member same]

/-- What a step issues is fresh when its context lists the plan's tickets and
authorizations. -/
theorem step_fresh
    (kept : Kept grants tickets) (own : c.ticket ∈ tickets)
    (listed : ∀ a, a ∈ c.authorizations ↔ a ∈ grants) (among : ∀ t, t ∈ c.planTickets ↔ t ∈ tickets)
    (ran : step c = .ok s) (issued : s.issue = some e) : Fresh grants tickets c.ticket e := by
  obtain ⟨_, _, _, crosses, _⟩ := step_crosses ran issued
  have read {t : Ticket} (member : t ∈ tickets) : t ∈ c.tickets := by
    refine List.mem_map.mpr ⟨t, (among t).mpr member, ?_⟩
    split
    · exact (List.inj_on_of_nodup_map kept.ids member own ‹_›).symm
    · rfl
  have unique {a b : Authorization} (first : a ∈ grants) (second : b ∈ grants)
      (same : a.authorizationId = b.authorizationId) : a = b :=
    List.inj_on_of_nodup_map kept.grantIds first second same
  have names := crosses.names
  constructor
  · intro some_
    cases names with
    | nothing none_ => exact absurd none_ some_
    | once member grant | activate member grant => exact ⟨_, (listed _).mp member, grant.symm⟩
  · intro a granted effect grant
    cases names with
    | nothing none_ =>
      rw [none_] at grant
      exact absurd grant.symm a.rules.authorizationId.2
    | @once b member named other unused =>
      obtain rfl := unique granted ((listed b).mp member) (grant.symm.trans named)
      simp only [namings, List.countP_eq_zero, List.mem_flatMap, decide_eq_true_eq]
      rintro d ⟨t, member, entry⟩
      exact not_used_other other unused t (read member) d entry
    | @activate b member named activate =>
      obtain rfl := unique granted ((listed b).mp member) (grant.symm.trans named)
      simp [activate] at effect
  · refine crosses.signs ⟨fun a member => stored_eq kept.grantIds ((listed a).mp member), ?_⟩
      (kept.signs _ own)
    intro d entry some_
    obtain ⟨a, granted, same⟩ := kept.named _ own d entry some_
    exact ⟨a, (listed a).mpr granted, same⟩
  · intro reboot d entry rebootD grant
    cases names with
    | nothing _ other | once _ _ _ _ other => exact absurd reboot other
    | activate member named activate unused =>
      have boot := not_used_activate activate unused _ (read own) d entry rebootD (grant.trans named)
      rcases reboot_boot ran issued reboot with none_ | same
      · have device := (d.rules.bootless (boot.trans none_)).1
        simp [Crossing.device, rebootD] at device
      · exact boot.trans same
  · intro reboot u member _ d entry rebootD grant
    cases names with
    | nothing _ other | once _ _ _ _ other => exact absurd reboot other
    | activate _ named activate unused =>
      exact not_used_activate activate unused u (read member) d entry rebootD (grant.trans named)

/-- A new authorization changes nothing of the requests made before. -/
theorem SignsApart.grant {ledger : List Entry}
    (signs : SignsApart (stored grants) ledger) (a : Authorization) :
    SignsApart (stored (grants ++ [a])) ledger := by
  have kept {e : Entry} (member : e ∈ ledger) (sign : e.crossing = .sign) :
      stored (grants ++ [a]) e.grant = stored grants e.grant := by
    obtain ⟨b, known, _⟩ := signs.granted e member sign
    have found : grants.find? (fun a => a.authorizationId = e.grant) = some b := known
    rw [known, stored, List.find?_append, found, Option.some_or]
  have inputs {e : Entry} (member : e ∈ ledger) :
      grantedInputs (stored (grants ++ [a])) e = grantedInputs (stored grants) e := by
    unfold grantedInputs
    split
    · rw [kept member ‹_›]
    · rfl
  constructor
  · intro e member sign
    rw [kept member sign]
    exact signs.granted e member sign
  · refine signs.apart.imp_of_mem fun first second apart => ?_
    rwa [inputs first, inputs second]

theorem Kept.grant {a : Authorization}
    (kept : Kept grants tickets) (fresh : ∀ b ∈ grants, b.authorizationId ≠ a.authorizationId) :
    Kept (grants ++ [a]) tickets where
  grantIds := by
    rw [List.map_append, List.nodup_append]
    refine ⟨kept.grantIds, by simp, ?_⟩
    simpa using fresh
  ids := kept.ids
  closed := kept.closed
  named t member e entry some_ := by
    obtain ⟨b, granted, same⟩ := kept.named t member e entry some_
    exact ⟨b, List.mem_append_left _ granted, same⟩
  once b granted effect := by
    rcases List.mem_append.mp granted with granted | last
    · exact kept.once b granted effect
    obtain rfl := List.mem_singleton.mp last
    have unnamed : namings tickets b.authorizationId = 0 := by
      simp only [namings, List.countP_eq_zero, List.mem_flatMap, decide_eq_true_eq]
      rintro e ⟨t, member, entry⟩ names
      have some_ : e.grant ≠ noId := names ▸ b.rules.authorizationId.2
      obtain ⟨d, granted, same⟩ := kept.named t member e entry some_
      exact fresh d granted (same.trans names)
    omega
  signs t member := (kept.signs t member).grant a
  boots := kept.boots
  reboots := kept.reboots

theorem Kept.create {t : Ticket}
    (kept : Kept grants tickets) (empty : t.ledger = [])
    (closed : ∀ u ∈ tickets, u.state.terminal = true) (fresh : ∀ u ∈ tickets, u.ticketId ≠ t.ticketId) :
    Kept grants (tickets ++ [t]) := by
  have among {u : Ticket} : u ∈ tickets ++ [t] ↔ u ∈ tickets ∨ u = t := by simp
  have old {u : Ticket} (member : u ∈ tickets ++ [t]) {e : Entry} (entry : e ∈ u.ledger) :
      u ∈ tickets := by
    rcases among.mp member with old | rfl
    · exact old
    · simp [empty] at entry
  constructor
  · exact kept.grantIds
  · rw [List.map_append, List.nodup_append]
    refine ⟨kept.ids, by simp, ?_⟩
    simpa using fresh
  · intro u first v second apart
    rcases among.mp first with inside | rfl
    · exact .inl (closed u inside)
    · rcases among.mp second with inside | rfl
      · exact .inr (closed v inside)
      · exact absurd rfl apart
  · intro u member e entry
    exact kept.named u (old member entry) e entry
  · intro a granted effect
    simpa [namings, empty] using kept.once a granted effect
  · intro u member
    rcases among.mp member with inside | rfl
    · exact kept.signs u inside
    · rw [empty]
      exact ⟨by simp, by simp⟩
  · intro u member d first
    exact kept.boots u (old member first) d first
  · intro u first v second apart d entryD e entryE
    exact kept.reboots u (old first entryD) v (old second entryE) apart d entryD e entryE

theorem Attempted.kept {plan : Plan}
    (run : Attempted plan grants tickets) : Kept grants tickets := by
  induction run with
  | start => constructor <;> simp
  | grant _ _ fresh ih => exact ih.grant fresh
  | create _ _ _ empty closed fresh ih => exact ih.create empty closed fresh
  | @step _ tickets c s _ _ own listed among ran ih =>
    have identity := (step_identity ran).1
    by_cases terminal : c.ticket.state.terminal = true
    · rw [step_terminal ran terminal, replace_self ih.ids own]
      exact ih
    · exact ih.update own (by simpa using terminal) identity.symm (step_ledger ran)
        fun e issued => step_fresh ih own listed among ran issued
  | @cancel _ _ t next _ own cancelled ih =>
    obtain ⟨live, _, built⟩ := cancel_eq_some.mp cancelled
    have unchanged : next.ledger = t.ledger ++ (none : Option Entry).toList := by
      rw [built]
      exact (List.append_nil _).symm
    exact ih.update own live (by rw [built]) unchanged (by simp)

/-- In every run over a plan's tickets, a SIGN or STAGE grant is named by at most
one entry, the signing requests of a ticket cover disjoint inputs, the reboot
requests of a ticket under one ACTIVATE share their boot, and of all reboots that
took effect an ACTIVATE served those of one ticket and boot. -/
theorem grants_single_use {plan : Plan} {grants : List Authorization} {tickets : List Ticket}
    (run : Attempted plan grants tickets) : SingleUse grants tickets := by
  have kept := run.kept
  refine ⟨kept.once, kept.signs, kept.boots, ?_⟩
  rintro a _ t first u second d entryD e entryE ⟨rebootD, grantD, leftD⟩ ⟨rebootE, grantE, leftE⟩
  have grant : d.grant = e.grant := grantD.trans grantE.symm
  by_cases same : t = u
  · subst same
    exact ⟨rfl, kept.boots t first d entryD e entryE rebootD rebootE grant⟩
  rcases kept.reboots t first u second same d entryD e entryE rebootD rebootE grant with
    ⟨_, here⟩ | ⟨_, here⟩
  · exact absurd here leftD
  · exact absurd here leftE

/-! A replay is a run over its one ticket. -/

theorem Setting.after_attempted {s : Setting} {event : Event}
    (run : Attempted s.plan s.authorizations [t]) (ran : s.after t event = some next) :
    Attempted s.plan s.authorizations [next] := by
  have single (same : t.ticketId = next.ticketId) : replace (·.ticketId) next [t] = [next] := by
    simp [replace, same]
  unfold after at ran
  split at ran
  · obtain ⟨_, returned, rfl⟩ := Option.bind_eq_some_iff.mp ran
    have cancelled := toOption_eq_some.mp returned
    have same : t.ticketId = next.ticketId := by rw [(cancel_eq_some.mp cancelled).2.2]
    rw [← single same]
    exact run.cancel (by simp) cancelled
  rename_i now freshId
  split at ran
  · rename_i ofPlan
    split at ran
    · obtain ⟨value, returned, rfl⟩ := Option.map_eq_some_iff.mp ran
      have result := toOption_eq_some.mp returned
      have same := (step_identity result).1
      rw [Setting.context_ticket] at same
      rw [← single same.symm]
      exact run.step rfl (by simp) (fun _ => Iff.rfl) (fun _ => Iff.rfl) result
    · cases ran
  · cases ran

theorem Setting.replay_attempted {s : Setting} {events : List Event}
    (run : Attempted s.plan s.authorizations [t]) (ran : s.replay t events = some next) :
    Attempted s.plan s.authorizations [next] := by
  induction events generalizing t with
  | nil =>
    cases ran
    exact run
  | cons event rest ih =>
    simp only [replay, List.foldlM_cons, Option.bind_eq_bind, Option.bind_eq_some_iff] at ran
    obtain ⟨mid, first, rest_⟩ := ran
    exact ih (after_attempted run first) rest_

/-- The sample run names its STAGE and its ACTIVATE, each once. -/
theorem sample_run_single_use : ∃ t, sampleSetting.replay sampleTicket sampleRun = some t ∧
    t.ledger.map (·.crossing) = [.publish, .create, .write, .commit, .reboot] ∧
    SingleUse sampleSetting.authorizations [t] := by
  have crossings : (sampleSetting.replay sampleTicket sampleRun).map
      (fun t => t.ledger.map (·.crossing)) = some [.publish, .create, .write, .commit, .reboot] := by
    decide +kernel
  obtain ⟨t, ran, ledger⟩ := Option.map_eq_some_iff.mp crossings
  have granted : Attempted samplePlan [sampleStage, sampleActivate] [] :=
    (Attempted.start.grant (a := sampleStage) rfl (by simp)).grant (a := sampleActivate) rfl
      (by decide +kernel)
  have created : Attempted samplePlan [sampleStage, sampleActivate] [sampleTicket] :=
    granted.create rfl rfl rfl (by simp) (by simp)
  exact ⟨t, ran, ledger, grants_single_use (Setting.replay_attempted created ran)⟩

end Andrix.Deployment
