import Mathlib.Tactic.Common

/-! Computations that return a value or refuse with an error. A check refuses
when its condition is broken, and a sequence of checks returns exactly when
none of them refuses: the simp set here turns a run of checks into the
conjunction of what they allow, so no later proof unfolds the monad. -/
namespace Andrix.Lib

variable {ε α β : Type}

/-- Refuses with the error when the condition holds. -/
def refuse (broken : Prop) [Decidable broken] (error : ε) : Except ε Unit :=
  if broken then .error error else .ok ()

@[simp] theorem refuse_eq_ok {broken : Prop} [Decidable broken] {error : ε} {u : Unit} :
    refuse broken error = .ok u ↔ ¬ broken := by
  unfold refuse
  split <;> simp_all

variable {x : Except ε α} {f : α → Except ε β} {b : β}

/-- A sequence returns exactly when its first part returns and the rest
returns on that value. -/
@[simp] theorem bind_eq_ok :
    (x >>= f) = .ok b ↔ ∃ a, x = .ok a ∧ f a = .ok b := by
  cases x <;> simp [bind, Except.bind]

@[simp] theorem refuse_bind_eq_ok {broken : Prop} [Decidable broken] {error : ε}
    {f : Unit → Except ε β} :
    (refuse broken error >>= f) = .ok b ↔ ¬ broken ∧ f () = .ok b := by
  unfold refuse
  split <;> simp_all [bind, Except.bind]

theorem ok_bind (a : α) (f : α → Except ε β) : ((.ok a : Except ε α) >>= f) = f a := rfl

@[simp] theorem pure_eq_ok {a b : α} : (pure a : Except ε α) = .ok b ↔ a = b := by
  simp [pure, Except.pure]

/-- One of two checks, by a condition. -/
def either (p : Prop) [Decidable p] (yes no : Except ε Unit) : Except ε Unit := if p then yes else no

@[simp] theorem either_eq_ok {p : Prop} [Decidable p] {yes no : Except ε Unit} {u : Unit} :
    either p yes no = .ok u ↔ (p → yes = .ok ()) ∧ (¬ p → no = .ok ()) := by
  unfold either
  split <;> simp_all

theorem not_ite_iff {p a b : Prop} [Decidable p] :
    (¬ if p then a else b) ↔ (p → ¬ a) ∧ (¬ p → ¬ b) := by
  split <;> simp_all

@[simp] theorem bind_unit_eq_ok {x : Except ε Unit} {f : Unit → Except ε β} :
    (x >>= f) = .ok b ↔ x = .ok () ∧ f () = .ok b :=
  bind_eq_ok.trans ⟨fun ⟨(), checked, rest⟩ => ⟨checked, rest⟩, fun ok => ⟨(), ok⟩⟩

/-- Builds a value that carries the proof of its own check, or refuses as the
check does. -/
def construct (check : α → Except ε Unit) (make : (a : α) → check a = .ok () → β) (a : α) :
    Except ε β :=
  match checked : check a with
  | .ok () => .ok (make a checked)
  | .error e => .error e

variable {a : α}

/-- A construction returns exactly the value made from its input, for a value
that gives its parts and its own check back. -/
theorem construct_eq_ok {check : α → Except ε Unit} {make : (a : α) → check a = .ok () → β}
    {parts : β → α} (parts_make : ∀ a checked, parts (make a checked) = a)
    (checked : ∀ b, check (parts b) = .ok ()) (make_parts : ∀ b checked, make (parts b) checked = b)
    : construct check make a = .ok b ↔ parts b = a := by
  unfold construct
  split
  · rename_i passed
    constructor
    · rintro ⟨rfl⟩
      exact parts_make a passed
    · rintro rfl
      rw [make_parts]
  · rename_i e refused
    simp only [reduceCtorEq, false_iff]
    rintro rfl
    rw [checked b] at refused
    cases refused

/-! ### Postconditions -/

/-- Every value the computation returns meets the postcondition. -/
def Ensures (x : Except ε α) (post : α → Prop) : Prop := ∀ a, x = .ok a → post a

theorem ensures_ok {post : α → Prop} (met : post a) : Ensures (.ok a : Except ε α) post := by
  rintro _ ⟨rfl⟩
  exact met

theorem ensures_error {e : ε} {post : α → Prop} : Ensures (.error e : Except ε α) post := by
  rintro _ ⟨⟩

theorem ensures_bind {post : β → Prop}
    (rest : ∀ a, x = .ok a → Ensures (f a) post) : Ensures (x >>= f) post := by
  intro b ran
  obtain ⟨a, first, second⟩ := bind_eq_ok.mp ran
  exact rest a first b second

/-! ### Computations that return -/

/-- The computation returns a value. -/
def Returns (x : Except ε α) : Prop := ∃ a, x = .ok a

theorem toOption_eq_some : x.toOption = some a ↔ x = .ok a := by
  cases x <;> simp [Except.toOption]

theorem returns_ok : Returns (.ok a : Except ε α) := ⟨a, rfl⟩

theorem returns_bind_iff :
    Returns (x >>= f) ↔ ∃ a, x = .ok a ∧ Returns (f a) := by
  simp only [Returns, bind_eq_ok]
  exact ⟨fun ⟨b, a, first, rest⟩ => ⟨a, first, b, rest⟩, fun ⟨a, first, b, rest⟩ => ⟨b, a, first, rest⟩⟩

theorem returns_bind (first : Returns x)
    (rest : ∀ a, Returns (f a)) : Returns (x >>= f) := by
  obtain ⟨a, ran⟩ := first
  exact returns_bind_iff.mpr ⟨a, ran, rest a⟩

theorem returns_map {g : α → β} : Returns (g <$> x) ↔ Returns x := by
  cases x <;> simp [Returns]

end Andrix.Lib
