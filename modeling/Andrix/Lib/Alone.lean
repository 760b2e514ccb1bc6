import Andrix.Lib.Threads

/-! Programs that run alone. A call whose actions nobody interrupts takes the
state it meets to one state; `Ends` is its total correctness, with a rule for
every way to build a program. A pool can give a thread all the turns it needs, so
a call that ends alone is one of the runs of the pool. -/
namespace Andrix.Lib

namespace Program

variable {σ τ α β : Type}

/-- What the program returns and leaves, unless it waits for somebody else. -/
def exec : Program σ α → σ → Option (α × σ)
  | .done a, s => some (a, s)
  | .act action rest, s => (action s).bind fun r => (rest r.1).exec r.2

/-- The program returns, and what it returns and leaves meets the condition. -/
def Ends (p : Program σ α) (s : σ) (post : α → σ → Prop) : Prop :=
  ∃ a t, p.exec s = some (a, t) ∧ post a t

theorem ends_done {a : α} {s : σ} {post : α → σ → Prop} : Ends (.done a) s post ↔ post a s := by
  simp [Ends, exec]

@[simp] theorem ends_pure {a : α} {s : σ} {post : α → σ → Prop} :
    Ends (pure a) s post ↔ post a s := ends_done

theorem ends_act {action : σ → Option (β × σ)} {rest : β → Program σ α} {s : σ}
    {post : α → σ → Prop} :
    Ends (.act action rest) s post ↔ ∃ b t, action s = some (b, t) ∧ Ends (rest b) t post := by
  simp only [Ends, exec, Option.bind_eq_some_iff, Prod.exists]
  constructor
  · rintro ⟨a, u, ⟨b, t, acted, ran⟩, holds⟩
    exact ⟨b, t, acted, a, u, ran, holds⟩
  · rintro ⟨b, t, acted, a, u, ran, holds⟩
    exact ⟨a, u, ⟨b, t, acted, ran⟩, holds⟩

variable {p : Program σ α}

@[simp] theorem ends_bind {f : α → Program σ β} {s : σ} {post : β → σ → Prop} :
    Ends (p >>= f) s post ↔ Ends p s fun a t => Ends (f a) t post := by
  induction p generalizing s with
  | done a => exact (@ends_done _ _ a s fun a t => Ends (f a) t post).symm
  | act action rest ih =>
    refine ends_act.trans (Iff.trans ?_ ends_act.symm)
    apply exists_congr
    intro b
    apply exists_congr
    intro t
    apply and_congr_right
    intro _
    exact ih b

@[simp] theorem ends_atomic {action : σ → β × σ} {s : σ} {post : β → σ → Prop} :
    Ends (atomic action) s post ↔ post (action s).1 (action s).2 := by
  simp only [atomic, ends_act, ends_done, Option.some.injEq]
  constructor
  · rintro ⟨b, t, same, holds⟩
    rw [same]
    exact holds
  · exact fun holds => ⟨_, _, rfl, holds⟩

@[simp] theorem ends_load {read : σ → β} {s : σ} {post : β → σ → Prop} :
    Ends (load read) s post ↔ post (read s) s := ends_atomic

variable {write : σ → σ}

@[simp] theorem ends_store {s : σ} {post : Unit → σ → Prop} :
    Ends (store write) s post ↔ post () (write s) := ends_atomic

@[simp] theorem ends_await {ready : σ → Bool} {s : σ} {post : Unit → σ → Prop} :
    Ends (await ready write) s post ↔ ready s = true ∧ post () (write s) := by
  simp only [await, ends_act, ends_done]
  by_cases go : ready s = true
  · simp only [go, if_true, Option.some.injEq, Prod.mk.injEq, true_and]
    constructor
    · rintro ⟨_, _, rfl, holds⟩
      exact holds
    · exact fun holds => ⟨(), _, rfl, holds⟩
  · simp [go]

theorem ends_ite {c : Prop} [Decidable c] {p q : Program σ α} {s : σ} {post : α → σ → Prop} :
    Ends (if c then p else q) s post ↔ if c then Ends p s post else Ends q s post := by
  split <;> rfl

theorem Ends.imp {s : σ} {post weaker : α → σ → Prop} (ends : Ends p s post)
    (imp : ∀ a t, post a t → weaker a t) : Ends p s weaker := by
  obtain ⟨a, t, ran, holds⟩ := ends
  exact ⟨a, t, ran, imp a t holds⟩

theorem Ends.and {s : σ} {post other : α → σ → Prop} (ends : Ends p s post)
    (ends' : Ends p s other) : Ends p s fun a t => post a t ∧ other a t := by
  obtain ⟨a, t, ran, holds⟩ := ends
  obtain ⟨a', t', ran', holds'⟩ := ends'
  obtain ⟨rfl, rfl⟩ := Prod.mk.inj (Option.some.inj (ran.symm.trans ran'))
  exact ⟨a, t, ran, holds, holds'⟩

/-- A program on a part does there what it does alone. -/
theorem ends_zoom {part : τ → σ} {put : σ → τ → τ} (get_put : ∀ s t, part (put s t) = s)
    (put_get : ∀ t, put (part t) t = t) (put_put : ∀ s s' t, put s (put s' t) = put s t)
    {t : τ} {post : α → τ → Prop} :
    Ends (p.zoom part put) t post ↔ Ends p (part t) fun a s => post a (put s t) := by
  induction p generalizing t with
  | done a =>
    refine ends_done.trans (Iff.trans ?_ ends_done.symm)
    rw [put_get]
  | act action rest ih =>
    refine ends_act.trans (Iff.trans ?_ ends_act.symm)
    apply exists_congr
    intro b
    constructor
    · rintro ⟨u, acted, ends⟩
      obtain ⟨⟨b', s⟩, acted', same⟩ := Option.map_eq_some_iff.mp acted
      obtain ⟨rfl, rfl⟩ := Prod.mk.inj same
      rw [ih, get_put] at ends
      simp only [put_put] at ends
      exact ⟨s, acted', ends⟩
    · rintro ⟨s, acted, ends⟩
      refine ⟨put s t, by rw [acted]; rfl, ?_⟩
      rw [ih, get_put]
      simpa only [put_put] using ends

/-! ### Programs within a relation -/

/-- From every state the program ends in a related one. -/
def Within (relates : σ → σ → Prop) (p : Program σ α) : Prop :=
  ∀ s, Ends p s fun _ t => relates s t

section Within
variable {relates : σ → σ → Prop}

theorem Within.ends (within : Within relates p) (s : σ) :
    Ends p s fun _ t => relates s t := within s

theorem Within.mono {weaker : σ → σ → Prop} (within : Within relates p)
    (imp : ∀ s t, relates s t → weaker s t) : Within weaker p :=
  fun s => (within s).imp fun _ _ => imp s _

theorem within_pure [Std.Refl relates] (a : α) : Within relates (pure a) :=
  fun s => ends_pure.mpr (Std.Refl.refl s)

theorem within_bind [IsTrans σ relates] {f : α → Program σ β}
    (first : Within relates p) (rest : ∀ a, Within relates (f a)) : Within relates (p >>= f) := by
  intro s
  apply ends_bind.mpr
  apply (first s).imp
  intro a t related
  exact (rest a t).imp fun _ _ later => IsTrans.trans _ _ _ related later

theorem within_atomic {action : σ → β × σ} (related : ∀ s, relates s (action s).2) :
    Within relates (atomic action) :=
  fun s => ends_atomic.mpr (related s)

theorem within_store (related : ∀ s, relates s (write s)) :
    Within relates (store write) :=
  fun s => ends_store.mpr (related s)

theorem within_load [Std.Refl relates] {read : σ → β} : Within relates (load read) :=
  fun s => ends_load.mpr (Std.Refl.refl s)

theorem within_ite {c : Prop} [Decidable c] {p q : Program σ α} (yes : Within relates p)
    (no : Within relates q) : Within relates (if c then p else q) := by
  split
  · exact yes
  · exact no

end Within

end Program

end Andrix.Lib
