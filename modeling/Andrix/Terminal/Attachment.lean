import Andrix.Lib.Calls

/-! The lease of a terminal client on its attachment: one value, pending under a
request and then active. Completions of old requests arrive in any order, so the
calls below carry arbitrary requests and values. -/
namespace Andrix.Terminal
open Andrix.Lib

/-- A request is the number of the object `begin` made; one that was never made
stands for the object of another lease. No value is Java's null. -/
structure AttachmentLifecycle (T : Type) where
  issued : Nat := 0
  cancelled : List Nat := []
  preparing : Option Nat := none
  pending : Option T := none
  active : Option T := none
  inputAllowed : Bool := false

namespace AttachmentLifecycle

inductive Call (T : Type) where
  | begin
  | retain (request : Option Nat) (value : Option T)
  | promote (request : Option Nat) (value : Option T) (parserAllowsInput : Bool)
  | finish (request : Option Nat)
  | blockInput (value : Option T)
  | retire (value : Option T)
  | cancel

inductive Reply (T : Type) where
  | request (request : Option Nat)
  | answer (accepted : Bool)
  | lease (value : Option T)
  | done
  /-- The null pointer of a `retire` that finds no request. -/
  | missing

variable {T : Type} [DecidableEq T] (s : AttachmentLifecycle T)

def current (request : Option Nat) : Bool :=
  request ≠ none && s.preparing = request && request.all (· ∉ s.cancelled)

def allowsInput (value : Option T) : Prop :=
  value ≠ none ∧ s.active = value ∧ s.inputAllowed

def call : Call T → Reply T × AttachmentLifecycle T
  | .begin =>
    if s.preparing ≠ none ∨ s.active ≠ none ∨ s.pending ≠ none then (.request none, s)
    else (.request (some s.issued), { s with issued := s.issued + 1, preparing := some s.issued })
  | .retain request value =>
    if value = none ∨ !s.current request ∨ s.pending ≠ none ∨ s.active ≠ none then
      (.answer false, s)
    else (.answer true, { s with pending := value })
  | .promote request value parserAllowsInput =>
    if value ≠ none ∧ s.current request ∧ s.pending = value then
      (.answer true, { s with
        pending := none, preparing := none, active := value, inputAllowed := parserAllowsInput })
    else (.answer false, s)
  | .finish request =>
    if s.preparing ≠ request ∨ request = none ∨ s.pending ≠ none then (.answer false, s)
    else (.answer true, { s with preparing := none })
  | .blockInput value =>
    (.done, if s.active = value then { s with inputAllowed := false } else s)
  | .retire value =>
    if value = none then (.answer false, s)
    else if s.pending = value then
      match s.preparing with
      | some r => (.answer true, { s with pending := none, cancelled := r :: s.cancelled })
      | none => (.missing, { s with pending := none })
    else if s.active = value then (.answer true, { s with active := none, inputAllowed := false })
    else (.answer false, s)
  | .cancel =>
    (.lease (if s.pending ≠ none then s.pending else s.active), { s with
      cancelled := s.preparing.toList ++ s.cancelled
      pending := none, active := none, inputAllowed := false })

section Past
variable (m : Moment (AttachmentLifecycle T) (Call T)) (r : Nat) (v : T)

def Begins : Prop := m.reply call = .request (some r)

/-- The request gave up its place. -/
def Ends : Prop :=
  m.reply call = .answer true ∧ match m.call with
    | .finish request | .promote request _ _ => request = some r
    | _ => False

/-- The request is over: cancelled, retired, finished or promoted. -/
def Closes : Prop :=
  Ends m r ∨ m.state.preparing = some r ∧ match m.call with
    | .cancel => True
    | .retire value => m.reply call = .answer true ∧ m.state.pending = value
    | _ => False

def Retains : Prop :=
  m.reply call = .answer true ∧ match m.call with
    | .retain _ value => value = some v
    | _ => False

/-- The caller got the value back, to close it. -/
def Releases : Prop :=
  m.reply call = .lease (some v) ∨ m.reply call = .answer true ∧ m.call = .retire (some v)

def Permits : Prop :=
  m.reply call = .answer true ∧ match m.call with
    | .promote _ value allows => value = some v ∧ allows
    | _ => False

def Blocks : Prop := m.call = .blockInput (some v) ∨ Releases m v

end Past

/-- What the states keep: one value at most, and a pending one under a request
that is current. -/
structure Linear : Prop where
  single : s.pending = none ∨ s.active = none
  held : s.pending ≠ none → s.current s.preparing
  numbered : ∀ r, s.preparing = some r → r < s.issued

variable {s} {moments : List (Moment (AttachmentLifecycle T) (Call T))}

section Step
variable (h : Linear s) (c : Call T) {r : Nat} {v : T}
include h

theorem Linear.call : Linear (s.call c).2 := by
  obtain ⟨single, held, numbered⟩ := h
  simp only [current] at held
  constructor
  all_goals cases c <;> simp only [AttachmentLifecycle.call, current] <;> grind

theorem Linear.retire_finds (value : Option T) : (s.call (.retire value)).1 ≠ .missing := by
  have held := h.held
  simp only [AttachmentLifecycle.call, current] at held ⊢
  grind

/-- A request that is over is not current, and no call makes it so again. -/
theorem Linear.closes (spent : Closes ⟨s, c⟩ r ∨ r < s.issued ∧ ¬ s.current (some r)) :
    r < (s.call c).2.issued ∧ ¬ (s.call c).2.current (some r) := by
  have numbered := h.numbered r
  simp only [Closes, Ends, Moment.reply, current] at spent
  cases c <;> simp only [AttachmentLifecycle.call, current] at spent ⊢ <;> grind

omit h in
theorem preparing_of_begins
    (begun : Begins ⟨s, c⟩ r ∨ s.preparing = some r ∧ ¬ Ends ⟨s, c⟩ r) :
    (s.call c).2.preparing = some r := by
  simp only [Begins, Ends, Moment.reply] at begun
  cases c <;> simp only [AttachmentLifecycle.call, current] at begun ⊢ <;> grind

theorem Linear.retains
    (kept : Retains ⟨s, c⟩ v ∨ (s.pending = some v ∨ s.active = some v) ∧ ¬ Releases ⟨s, c⟩ v) :
    (s.call c).2.pending = some v ∨ (s.call c).2.active = some v := by
  obtain ⟨single, held, -⟩ := h
  simp only [Retains, Releases, Moment.reply, current] at kept held
  cases c <;> simp only [AttachmentLifecycle.call, current] at kept ⊢ <;> grind

theorem Linear.permits (allowed : (s.call c).2.allowsInput (some v)) :
    Permits ⟨s, c⟩ v ∨ s.allowsInput (some v) ∧ ¬ Blocks ⟨s, c⟩ v := by
  obtain ⟨single, held, -⟩ := h
  simp only [Permits, Blocks, Releases, allowsInput, Moment.reply] at allowed ⊢
  cases c <;> simp only [AttachmentLifecycle.call, current] at allowed held ⊢ <;> grind

end Step

/-- What the past of a state tells of it. -/
structure Traced (moments : List (Moment (AttachmentLifecycle T) (Call T)))
    (s : AttachmentLifecycle T) : Prop where
  linear : Linear s
  spent : ∀ m ∈ moments, ∀ r, Closes m r → r < s.issued ∧ ¬ s.current (some r)
  ended : ∀ r, Since (Begins · r) (Ends · r) moments → s.preparing = some r
  released : ∀ v, Since (Retains · v) (Releases · v) moments → s.pending = some v ∨ s.active = some v
  permitted : ∀ v, s.allowsInput (some v) → Since (Permits · v) (Blocks · v) moments

theorem Traced.call (h : Traced moments s) (c : Call T) :
    Traced (moments ++ [⟨s, c⟩]) (s.call c).2 := by
  refine ⟨h.linear.call c, fun m among r closes => ?_, fun r since => ?_, fun v since => ?_,
    fun v allowed => ?_⟩
  · apply h.linear.closes c
    rcases List.mem_append.mp among with earlier | last
    · exact .inr (h.spent m earlier r closes)
    · exact .inl (List.mem_singleton.mp last ▸ closes)
  · exact preparing_of_begins c ((since_snoc.mp since).imp_right (.imp_left (h.ended r)))
  · exact h.linear.retains c ((since_snoc.mp since).imp_right (.imp_left (h.released v)))
  · exact since_snoc.mpr ((h.linear.permits c allowed).imp_right (.imp_left (h.permitted v)))

/-- The lease is linear. After any calls at most one of the pending and the active
value is held, a pending value has a current request, and `retire` always finds
it; a request that is over retains and promotes nothing any more; a new request
begins only when every earlier one has given up its place and every value that
was retained is released; and input is allowed only for the active value, whose
promotion permitted it with no block since. -/
theorem attachment_lease_is_linear (calls : List (Call T)) :
    let s := after call ({} : AttachmentLifecycle T) calls
    let moments := past call ({} : AttachmentLifecycle T) calls
    (s.pending = none ∨ s.active = none) ∧
    (s.pending ≠ none → s.current s.preparing) ∧
    (∀ value, (s.call (.retire value)).1 ≠ .missing) ∧
    (∀ m ∈ moments, ∀ r, Closes m r → ∀ value allows,
      (s.call (.retain (some r) value)).1 = .answer false ∧
      (s.call (.promote (some r) value allows)).1 = .answer false) ∧
    ((s.call .begin).1 ≠ .request none →
      (∀ r, ¬ Since (Begins · r) (Ends · r) moments) ∧
      ∀ v, ¬ Since (Retains · v) (Releases · v) moments) ∧
    ∀ value, s.allowsInput value →
      ∃ v, value = some v ∧ s.active = some v ∧ Since (Permits · v) (Blocks · v) moments := by
  intro s moments
  have traced : Traced moments s := by
    refine past_induction ⟨⟨.inl rfl, by simp, by simp⟩, by simp, ?_, ?_, ?_⟩
      (fun _ _ c h => h.call c) calls
    all_goals simp [Since, allowsInput]
  refine ⟨traced.linear.single, traced.linear.held, traced.linear.retire_finds, ?_, ?_, ?_⟩
  · intro m among r closes value allows
    simp [AttachmentLifecycle.call, (traced.spent m among r closes).2]
  · intro begun
    have free : ¬ (s.preparing ≠ none ∨ s.active ≠ none ∨ s.pending ≠ none) := by
      intro taken
      simp [AttachmentLifecycle.call, taken] at begun
    simp only [not_or, not_not] at free
    constructor
    · intro r since
      simpa [free] using traced.ended r since
    · intro v since
      simpa [free] using traced.released v since
  · rintro (_ | v) ⟨present, same, permitted⟩
    · exact absurd rfl present
    · exact ⟨v, rfl, same, traced.permitted v ⟨present, same, permitted⟩⟩

end AttachmentLifecycle
end Andrix.Terminal
