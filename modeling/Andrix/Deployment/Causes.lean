import Andrix.Deployment.Reachable

/-! A recorded cause and the crossings of a step. Every rule but one asks for no
recorded cause before it issues a crossing other than an abandon. The signing
rule does not ask, so a cancelled ticket still signs its remaining inputs. -/
namespace Andrix.Deployment
open Andrix.Lib

/-- The ticket goes on signing: its requests so far completed, inputs are left,
and unused grants cover them. -/
structure SignsOn (c : Context) : Prop where
  observed : unobserved c = false
  state : c.ticket.state = .signing
  settled : SignSettled c
  needed : signingNeeded c ≠ 0
  granted : (signGrants c (signingNeeded c)).isSome

/-- A crossing other than an abandon leaves no cause recorded, unless it is a
further signing request. -/
theorem Crosses.uncaused {c : Context} {s : State} {e : Entry} {r : Reference} {k : Cause}
    (crosses : Crosses c (starting c) s e r k) (other : e.crossing ≠ .abandon) :
    (c.ticket.cause = .none ∧ k = .none) ∨ (c.ticket.state = .signing ∧ SignSettled c ∧
      signingNeeded c ≠ 0 ∧ (signGrants c (signingNeeded c)).isSome) := by
  have open_ (uncaused : (starting c).cause = .none) :
      c.ticket.cause = .none ∧ (starting c).cause = .none :=
    ⟨(maxCause_eq_none.mp uncaused).1, uncaused⟩
  cases crosses with
  | sign state needed grants =>
    rcases state with ⟨_, uncaused⟩ | ⟨state, settled⟩
    · exact .inl (open_ uncaused)
    · exact .inr ⟨state, settled, needed, by simp [grants]⟩
  | publish _ uncaused | create _ uncaused | write _ uncaused | commit _ uncaused
  | notice _ uncaused | reboot _ uncaused => exact .inl (open_ uncaused)
  | abandon _ _ _ made => exact absurd (entry_inv made).crossing other

theorem signing_eq {c : Context} {b : Ticket.Builder} (settled : SignSettled c)
    (needed : signingNeeded c ≠ 0) :
    signing c b = signNext c (b.clear flagUnresolved) .signing := by
  have accepted : c.ticket.ledger.any (fun e => e.crossing = .sign &&
      (c.view.signer e.reference = some .signRefused ||
        c.view.signer e.reference = some .signCannotComplete)) = false := by
    simp only [List.any_eq_false, Bool.and_eq_true, decide_eq_true_eq, Bool.or_eq_true, not_and, not_or]
    exact settled.accepted
  have completed : (c.ticket.last .sign).any
      (fun e => c.view.signer e.reference ≠ some .signCompleted) = false := by
    cases found : c.ticket.last .sign with
    | none => rfl
    | some e => simp [settled.completed e found]
  simp only [signing, accepted, completed, needed, Bool.false_eq_true, if_false]

theorem SignsOn.issues {c : Context} {s : Step} (signs : SignsOn c) (ran : step c = .ok s) :
    ∃ e, s.issue = some e ∧ e.crossing = .sign := by
  cases step_inv ran with
  | same stops =>
    rcases stops with terminal | unseen
    · exact absurd terminal (by rw [signs.state]; decide)
    · simp [signs.observed] at unseen
  | held _ _ held =>
    simp only [holding, unbound, signs.state, Bool.and_eq_true, decide_eq_true_eq] at held
    exact absurd held.1.1.1 (by decide)
  | turned _ _ _ rule_ _ _ taken =>
    simp only [rule, signs.state, signing_eq signs.settled signs.needed, signNext, signs.needed,
      if_false] at rule_
    split at rule_
    · rename_i none_
      exact absurd signs.granted (by simp [none_])
    · cases rule_
    rename_i made
    obtain ⟨e, entry_, issued_⟩ := bind_eq_ok.mp rule_
    cases issued_
    exact ⟨e, taken.issue, (entry_inv entry_).crossing⟩

/-- With a cause recorded before the step or by it, the crossing that a step
issues is an abandon, unless the ticket goes on signing. -/
theorem caused_issues_abandon_iff {c : Context} {s : Step} (ran : step c = .ok s)
    (caused : c.ticket.cause ≠ .none ∨ s.ticket.cause ≠ .none) :
    (∀ e, s.issue = some e → e.crossing = .abandon) ↔ ¬ SignsOn c := by
  constructor
  · intro abandons signs
    obtain ⟨e, issued_, sign⟩ := signs.issues ran
    simp [abandons e issued_] at sign
  intro stops e issued_
  by_contra other
  obtain ⟨state, r, k, crosses, built⟩ := step_crosses ran issued_
  have cause : s.ticket.cause = k := by rw [built]
  rcases crosses.uncaused other with ⟨before, after⟩ | ⟨signing_, settled, needed, granted⟩
  · rcases caused with caused | caused
    · exact caused before
    · exact caused (cause.trans after)
  refine stops ⟨?_, signing_, settled, needed, granted⟩
  cases step_inv ran with
  | same _ _ none_ => simp [none_] at issued_
  | held _ observed | turned _ observed => exact observed

/-! The sample plan signed in two transactions, and its ticket cancelled before
the first step or after the first request. -/

def signingSetting : Setting where
  plan := ⟨samplePlanFields 2, by decide +kernel⟩
  authorizations := [⟨sampleGrantFields 'd' .sign inputVariant, by decide +kernel⟩,
    ⟨sampleGrantFields 'e' .sign inputRestoration, by decide +kernel⟩]
  selection := sampleSelection
  repairs := []
  facts := [⟨{ sampleComponentFact .signCompleted 1 with route := .host, subject := sampleId 'a' },
    by decide +kernel⟩]

def cancelledContext : Context :=
  signingSetting.context ((signingSetting.replay sampleTicket [.cancel]).get (by decide +kernel))
    (by decide +kernel) none (sampleId 'b')

/-- A ticket cancelled before any request closes. -/
theorem cancelled_step_abandons : ∃ s, step cancelledContext = .ok s ∧
    ∀ e, s.issue = some e → e.crossing = .abandon := by
  have returned : (step cancelledContext).toOption.isSome := by decide +kernel
  obtain ⟨s, found⟩ := Option.isSome_iff_exists.mp returned
  have ran := toOption_eq_some.mp found
  have caused : cancelledContext.ticket.cause ≠ .none := by decide +kernel
  exact ⟨s, ran, (caused_issues_abandon_iff ran (.inl caused)).mpr fun signs =>
    absurd signs.state (by decide +kernel)⟩

/-- The sample ticket after its first request, with the cancellation recorded. -/
def cancelledSigning : Ticket :=
  (signingSetting.replay sampleTicket
    [.step none (sampleId 'c'), .step none (sampleId 'a'), .cancel]).get (by decide +kernel)

def signsOnContext : Context :=
  signingSetting.context cancelledSigning (by decide +kernel) none (sampleId 'b')

theorem cancelled_ticket_signs : Reachable signingSetting.stored signsOnContext.ticket ∧
    signsOnContext.Sound signingSetting.stored ∧ signsOnContext.ticket.cause = .cancelled ∧
    ∃ s e, step signsOnContext = .ok s ∧ s.issue = some e ∧ e.crossing = .sign := by
  have ran : signingSetting.replay sampleTicket
      [.step none (sampleId 'c'), .step none (sampleId 'a'), .cancel] = some cancelledSigning := by
    rw [cancelledSigning, Option.some_get]
  have reached : Reachable signingSetting.stored cancelledSigning :=
    Setting.replay_reachable (.planned rfl rfl) ran
  refine ⟨by rwa [signsOnContext, Setting.context_ticket], by decide +kernel, by decide +kernel, ?_⟩
  have crossing : (issued signsOnContext).map (·.crossing) = some .sign := by decide +kernel
  obtain ⟨e, found, sign⟩ := Option.map_eq_some_iff.mp crossing
  obtain ⟨s, ran, issued_⟩ := issued_eq_some.mp found
  exact ⟨s, e, ran, issued_, sign⟩

end Andrix.Deployment
