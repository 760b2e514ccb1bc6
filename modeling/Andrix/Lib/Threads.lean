import Andrix.Lib.Steps
import Mathlib.Data.List.Induction

/-! Threads over shared memory. A program is a tree of atomic actions; a pool runs
any number of calls, each in a thread of its own, and interleaves their actions in
any order. The history of a run says which thread changed the memory and how.

A program is verified alone, against what the other threads may do between two of
its actions: `Program.Meets` is its weakest precondition under that interference.
`Pool.run_meets` then holds for every interleaving. -/
namespace Andrix.Lib
open List

/-- A program over a shared state: it returns, or it takes one atomic action and
goes on with what the action read. An action that yields nothing has to wait. -/
inductive Program (σ : Type) (α : Type) : Type 1
  | done (a : α)
  | act {β : Type} (action : σ → Option (β × σ)) (rest : β → Program σ α)

namespace Program

variable {σ α β : Type}

def bind : Program σ α → (α → Program σ β) → Program σ β
  | .done a, f => f a
  | .act action rest, f => .act action fun b => (rest b).bind f

instance : Monad (Program σ) where
  pure := .done
  bind := .bind

/-- One action that never waits. -/
def atomic (action : σ → β × σ) : Program σ β :=
  .act (fun s => some (action s)) .done

def load (read : σ → β) : Program σ β :=
  atomic fun s => (read s, s)

def store (write : σ → σ) : Program σ Unit :=
  atomic fun s => ((), write s)

def zoom {τ : Type} (part : τ → σ) (put : σ → τ → τ) : Program σ α → Program τ α
  | .done a => .done a
  | .act action rest =>
    .act (fun t => (action (part t)).map fun (b, s) => (b, put s t)) fun b => (rest b).zoom part put

/-- Waits until the state is ready for the action. -/
def await (ready : σ → Bool) (write : σ → σ) : Program σ Unit :=
  .act (fun s => if ready s then some ((), write s) else none) .done

end Program

structure Access (κ σ : Type) where
  thread : Nat
  call : κ
  before : σ
  after : σ

/-- The memory and the actions that led to it, the newest first. -/
structure History (κ σ : Type) where
  state : σ
  steps : List (Access κ σ)

def History.step {κ σ : Type} (h : History κ σ) (thread : Nat) (call : κ) (s : σ) : History κ σ :=
  ⟨s, ⟨thread, call, h.state, s⟩ :: h.steps⟩

@[simp] theorem History.step_state {κ σ : Type} (h : History κ σ) (i : Nat) (c : κ) (s : σ) :
    (h.step i c s).state = s := rfl

/-- A call in progress: since when, and what is left of it. -/
structure Thread (κ σ ρ : Type) where
  call : κ
  begun : History κ σ
  program : Program σ ρ

structure Pool (κ σ ρ : Type) where
  history : History κ σ
  threads : List (Thread κ σ ρ)

inductive Turn (κ : Type)
  | start (call : κ)
  | run (thread : Nat)

section Run

variable {κ σ ρ : Type} (body : Nat → κ → Program σ ρ)

def Thread.next (thread : Thread κ σ ρ) (i : Nat) (h : History κ σ) :
    Option (History κ σ × Thread κ σ ρ) :=
  match thread.program with
  | .done _ => none
  | .act action rest =>
    (action h.state).map fun (b, s) => (h.step i thread.call s, { thread with program := rest b })

def Pool.next (p : Pool κ σ ρ) : Turn κ → Option (Pool κ σ ρ)
  | .start call =>
    some { p with threads := p.threads ++ [⟨call, p.history, body p.threads.length call⟩] }
  | .run i => do
    let thread ← p.threads[i]?
    let (history, thread) ← thread.next i p.history
    pure { history, threads := p.threads.set i thread }

/-- The pool after these turns; none where a turn names no thread that can act. -/
def Pool.run (start : σ) (turns : List (Turn κ)) : Option (Pool κ σ ρ) :=
  turns.foldlM (Pool.next body) ⟨⟨start, []⟩, []⟩

end Run

def Pool.Returned {κ σ ρ : Type} (p : Pool κ σ ρ) (i : Nat) (call : κ) (a : ρ) : Prop :=
  ∃ begun, p.threads[i]? = some ⟨call, begun, .done a⟩

/-! ## Interference -/

section Interference

variable {κ σ ρ α β : Type} {allowed : Nat → κ → History κ σ → σ → Prop}
  {kept : History κ σ → Prop} {i : Nat} {call : κ}

/-- The histories that the threads other than `i` can make of a history, each
keeping to what is allowed to it. -/
inductive Others (allowed : Nat → κ → History κ σ → σ → Prop) (i : Nat) (h : History κ σ) :
    History κ σ → Prop
  | refl : Others allowed i h h
  | step {k : History κ σ} {j : Nat} {call : κ} {s : σ} :
    Others allowed i h k → j ≠ i → allowed j call k s → Others allowed i h (k.step j call s)

/-- What every allowed step of another thread keeps, the others keep. -/
theorem Others.keeps {h k : History κ σ} (others : Others allowed i h k)
    (stable : History κ σ → Prop)
    (keeps : ∀ l j call s, j ≠ i → allowed j call l s → stable l → stable (l.step j call s))
    (start : stable h) : stable k := by
  induction others with
  | refl => exact start
  | step _ other allows ih => exact keeps _ _ _ _ other allows ih

/-- The same where the history is kept too. -/
theorem Others.keeps_kept {h k : History κ σ} (others : Others allowed i h k)
    (kept : History κ σ → Prop)
    (keep : ∀ l j call s, kept l → allowed j call l s → kept (l.step j call s))
    (start : kept h) (stable : History κ σ → Prop)
    (keeps : ∀ l j call s, j ≠ i → kept l → allowed j call l s → stable l →
      stable (l.step j call s)) (held : stable h) : kept k ∧ stable k := by
  refine others.keeps (fun l => kept l ∧ stable l) ?_ ⟨start, held⟩
  rintro l j call s other allows ⟨kept, stable⟩
  exact ⟨keep l j call s kept allows, keeps l j call s other kept allows stable⟩

/-- The histories that all threads together can make of a history. -/
inductive Reaches (allowed : Nat → κ → History κ σ → σ → Prop) (h : History κ σ) :
    History κ σ → Prop
  | refl : Reaches allowed h h
  | step {k : History κ σ} {j : Nat} {call : κ} {s : σ} :
    Reaches allowed h k → allowed j call k s → Reaches allowed h (k.step j call s)

theorem Reaches.others {h k l : History κ σ} (reaches : Reaches allowed h k)
    (others : Others allowed i k l) : Reaches allowed h l := by
  induction others with
  | refl => exact reaches
  | step _ _ allows ih => exact ih.step allows

/-- What every allowed step keeps, every later history keeps. -/
theorem Reaches.keeps {h k : History κ σ} (reaches : Reaches allowed h k)
    (stable : History κ σ → Prop)
    (keeps : ∀ l j call s, allowed j call l s → stable l → stable (l.step j call s))
    (start : stable h) : stable k := by
  induction reaches with
  | refl => exact start
  | step _ allows ih => exact keeps _ _ _ _ allows ih

/-- The program, run by thread `i` from this history on, only takes allowed steps
and returns with `post`, whatever the other threads do in between. -/
def Program.Meets (allowed : Nat → κ → History κ σ → σ → Prop) (kept : History κ σ → Prop)
    (i : Nat) (call : κ) (post : α → History κ σ → Prop) : Program σ α → History κ σ → Prop
  | .done a, h => post a h
  | .act action rest, h => ∀ k, Others allowed i h k → kept k → ∀ b s,
      action k.state = some (b, s) →
        allowed i call k s ∧ (rest b).Meets allowed kept i call post (k.step i call s)

theorem Program.Meets.mono {post post' : α → History κ σ → Prop} {p : Program σ α}
    {h : History κ σ} (meets : p.Meets allowed kept i call post h)
    (weaker : ∀ a k, post a k → post' a k) : p.Meets allowed kept i call post' h := by
  induction p generalizing h with
  | done a => exact weaker a h meets
  | act action rest ih =>
    intro k others keeps b s acts
    obtain ⟨allows, rest⟩ := meets k others keeps b s acts
    exact ⟨allows, ih b rest⟩

/-- What a program leaves is reached by allowed steps. -/
theorem Program.Meets.reached {post : α → History κ σ → Prop} {p : Program σ α}
    {begun h : History κ σ} (meets : p.Meets allowed kept i call post h)
    (reaches : Reaches allowed begun h) :
    p.Meets allowed kept i call (fun a k => post a k ∧ Reaches allowed begun k) h := by
  induction p generalizing h with
  | done a => exact ⟨meets, reaches⟩
  | act action rest ih =>
    intro k others keeps b s acts
    obtain ⟨allows, rest⟩ := meets k others keeps b s acts
    exact ⟨allows, ih b rest ((reaches.others others).step allows)⟩

theorem Program.meets_bind {post : β → History κ σ → Prop} {p : Program σ α}
    {f : α → Program σ β} {h : History κ σ} :
    (p >>= f).Meets allowed kept i call post h ↔
      p.Meets allowed kept i call (fun a k => (f a).Meets allowed kept i call post k) h := by
  induction p generalizing h with
  | done a => exact Iff.rfl
  | act action rest ih =>
    constructor
    · intro meets k others keeps b s acts
      obtain ⟨allows, rest⟩ := meets k others keeps b s acts
      exact ⟨allows, (ih b).mp rest⟩
    · intro meets k others keeps b s acts
      obtain ⟨allows, rest⟩ := meets k others keeps b s acts
      exact ⟨allows, (ih b).mpr rest⟩

/-- What the first part promises, the rest may use. -/
theorem Program.Meets.bind {mid : α → History κ σ → Prop} {post : β → History κ σ → Prop}
    {p : Program σ α} {f : α → Program σ β} {h : History κ σ}
    (first : p.Meets allowed kept i call mid h)
    (rest : ∀ a k, mid a k → (f a).Meets allowed kept i call post k) :
    (p >>= f).Meets allowed kept i call post h :=
  Program.meets_bind.mpr (first.mono rest)

theorem Program.meets_pure {post : α → History κ σ → Prop} {a : α} {h : History κ σ} :
    (pure a : Program σ α).Meets allowed kept i call post h ↔ post a h := Iff.rfl

theorem Program.meets_ite {condition : Prop} [Decidable condition] {p q : Program σ α}
    {post : α → History κ σ → Prop} {h : History κ σ}
    (holds : condition → p.Meets allowed kept i call post h)
    (fails : ¬ condition → q.Meets allowed kept i call post h) :
    (if condition then p else q).Meets allowed kept i call post h := by
  by_cases decided : condition
  · rw [if_pos decided]
    exact holds decided
  · rw [if_neg decided]
    exact fails decided

theorem Program.meets_atomic {action : σ → β × σ} {post : β → History κ σ → Prop}
    {h : History κ σ} :
    (Program.atomic action).Meets allowed kept i call post h ↔
      ∀ k, Others allowed i h k → kept k →
        allowed i call k (action k.state).2 ∧
          post (action k.state).1 (k.step i call (action k.state).2) := by
  constructor
  · intro meets k others keeps
    exact meets k others keeps _ _ rfl
  intro meets k others keeps b s acts
  have same : action k.state = (b, s) := Option.some.inj acts
  have met := meets k others keeps
  rw [same] at met
  exact met

theorem Program.meets_load {read : σ → β} {post : β → History κ σ → Prop} {h : History κ σ} :
    (Program.load read).Meets allowed kept i call post h ↔
      ∀ k, Others allowed i h k → kept k →
        allowed i call k k.state ∧ post (read k.state) (k.step i call k.state) :=
  Program.meets_atomic

theorem Program.meets_store {write : σ → σ} {post : Unit → History κ σ → Prop}
    {h : History κ σ} :
    (Program.store write).Meets allowed kept i call post h ↔
      ∀ k, Others allowed i h k → kept k →
        allowed i call k (write k.state) ∧ post () (k.step i call (write k.state)) :=
  Program.meets_atomic

theorem Program.meets_await {ready : σ → Bool} {write : σ → σ} {post : Unit → History κ σ → Prop}
    {h : History κ σ} :
    (Program.await ready write).Meets allowed kept i call post h ↔
      ∀ k, Others allowed i h k → kept k → ready k.state = true →
        allowed i call k (write k.state) ∧ post () (k.step i call (write k.state)) := by
  constructor
  · intro meets k others keeps free
    exact meets k others keeps _ _ (if_pos free)
  intro meets k others keeps b s acts
  beta_reduce at acts
  by_cases free : ready k.state = true
  · rw [if_pos free] at acts
    cases acts
    exact meets k others keeps free
  · rw [if_neg free] at acts
    cases acts

end Interference

/-! ## Programs on a part of the state -/

variable {i : Nat}

section Zoom

variable {κ σ τ α β : Type} {part : τ → σ} {put : σ → τ → τ}

theorem Program.zoom_bind (p : Program σ α) (f : α → Program σ β) :
    (p >>= f).zoom part put = p.zoom part put >>= fun a => (f a).zoom part put := by
  induction p with
  | done a => rfl
  | act action rest ih => exact congrArg (Program.act _) (funext ih)

theorem Program.zoom_atomic (action : σ → β × σ) :
    (Program.atomic action).zoom part put =
      Program.atomic fun t => ((action (part t)).1, put (action (part t)).2 t) := rfl

/-- The program, whatever valid state it finds before each of its actions, only makes
changes of this kind and returns with `post` of the state it left. -/
def Program.Does (valid : σ → Prop) (change : σ → σ → Prop) (post : α → σ → Prop) :
    Program σ α → σ → Prop
  | .done a, s => post a s
  | .act action rest, _ => ∀ s, valid s → ∀ b s', action s = some (b, s') →
      change s s' ∧ (rest b).Does valid change post s'

variable {change : σ → σ → Prop} {valid : σ → Prop}

theorem Program.Does.mono {post post' : α → σ → Prop}
    {p : Program σ α} {s : σ} (does : p.Does valid change post s)
    (weaker : ∀ a t, post a t → post' a t) : p.Does valid change post' s := by
  induction p generalizing s with
  | done a => exact weaker a s does
  | act action rest ih =>
    intro t found b t' acts
    obtain ⟨changes, left⟩ := does t found b t' acts
    exact ⟨changes, ih b left⟩

theorem Program.does_bind {post : β → σ → Prop}
    {p : Program σ α} {f : α → Program σ β} {s : σ} :
    (p >>= f).Does valid change post s ↔
      p.Does valid change (fun a t => (f a).Does valid change post t) s := by
  induction p generalizing s with
  | done a => exact Iff.rfl
  | act action rest ih =>
    constructor
    · intro does t found b t' acts
      obtain ⟨changes, left⟩ := does t found b t' acts
      exact ⟨changes, (ih b).mp left⟩
    · intro does t found b t' acts
      obtain ⟨changes, left⟩ := does t found b t' acts
      exact ⟨changes, (ih b).mpr left⟩

theorem Program.does_atomic {post : β → σ → Prop}
    {action : σ → β × σ} {s : σ}
    (does : ∀ t, valid t → change t (action t).2 ∧ post (action t).1 (action t).2) :
    (Program.atomic action).Does valid change post s := by
  intro t found b t' acts
  have same : action t = (b, t') := Option.some.inj acts
  have done_ := does t found
  rw [same] at done_
  exact done_

theorem Program.does_ite {post : α → σ → Prop}
    {condition : Prop} [Decidable condition] {p q : Program σ α} {s : σ}
    (holds : condition → p.Does valid change post s)
    (fails : ¬ condition → q.Does valid change post s) :
    (if condition then p else q).Does valid change post s := by
  by_cases decided : condition
  · rw [if_pos decided]
    exact holds decided
  · rw [if_neg decided]
    exact fails decided

/-- A program on a part of the state meets what its changes keep: `inside` is kept by
the other threads and by every change that the program makes. -/
theorem Program.Does.meets (part : τ → σ) (put : σ → τ → τ) {allowed : Nat → κ → History κ τ → τ → Prop}
    {kept : History κ τ → Prop} {call : κ}
    {post : α → σ → Prop} (inside : History κ τ → Prop)
    (part_put : ∀ s t, part (put s t) = s) (validity : ∀ k, kept k → valid (part k.state))
    (stable : ∀ {h k}, Others allowed i h k → inside h → kept k → inside k)
    (changes : ∀ k s, kept k → inside k → change (part k.state) s →
      allowed i call k (put s k.state) ∧ inside (k.step i call (put s k.state)))
    {p : Program σ α} {h : History κ τ} {s : σ} (start : inside h) (found : part h.state = s)
    (does : p.Does valid change post s) :
    (p.zoom part put).Meets allowed kept i call (fun a k => post a (part k.state) ∧ inside k) h := by
  induction p generalizing h s with
  | done a => exact ⟨found ▸ does, start⟩
  | act action rest ih =>
    intro k others keeps b t acts
    obtain ⟨⟨b', s⟩, read, same⟩ := Option.map_eq_some_iff.mp acts
    cases same
    obtain ⟨change_, left⟩ := does _ (validity k keeps) _ _ read
    obtain ⟨allows, inside_⟩ := changes k s keeps (stable others start keeps) change_
    exact ⟨allows, ih b inside_ (part_put _ _) left⟩

end Zoom

/-! ## The history of a part of the state -/

section View

variable {κ κ' σ τ α : Type}

/-- What a history shows of a part of the state; every action gets a label there. -/
def History.view (part : τ → σ) (label : κ' → κ) (h : History κ' τ) : History κ σ :=
  ⟨part h.state, h.steps.map fun a => ⟨a.thread, label a.call, part a.before, part a.after⟩⟩

theorem History.view_step (part : τ → σ) (label : κ' → κ) (h : History κ' τ) (i : Nat) (call : κ')
    (t : τ) : (h.step i call t).view part label = (h.view part label).step i (label call) (part t) :=
  rfl

variable {part : τ → σ} {label : κ' → κ} {allowed : Nat → κ → History κ σ → σ → Prop}
  {allowed' : Nat → κ' → History κ' τ → τ → Prop} {i : Nat}

theorem Others.view
    (shows : ∀ k j call t, allowed' j call k t →
      allowed j (label call) (k.view part label) (part t))
    {h k : History κ' τ} (others : Others allowed' i h k) :
    Others allowed i (h.view part label) (k.view part label) := by
  induction others with
  | refl => exact .refl
  | step _ other allows ih => exact ih.step other (shows _ _ _ _ allows)

/-- A program that was verified on a part of the state meets the same within the
whole, where every allowed step shows as an allowed step of the part. -/
theorem Program.Meets.zoom {put : σ → τ → τ} {kept : History κ σ → Prop}
    {kept' : History κ' τ → Prop} {call : κ'} {post : α → History κ σ → Prop}
    (inside : History κ' τ → Prop) (part_put : ∀ s t, part (put s t) = s)
    (shows : ∀ k j call t, allowed' j call k t →
      allowed j (label call) (k.view part label) (part t))
    (keeps : ∀ k, kept' k → kept (k.view part label))
    (stable : ∀ {h k}, Others allowed' i h k → inside h → kept' k → inside k)
    (acts : ∀ k s, kept' k → inside k → allowed i (label call) (k.view part label) s →
      allowed' i call k (put s k.state) ∧ inside (k.step i call (put s k.state)))
    {p : Program σ α} {h : History κ' τ} (start : inside h)
    (meets : p.Meets allowed kept i (label call) post (h.view part label)) :
    (p.zoom part put).Meets allowed' kept' i call
      (fun a k => post a (k.view part label) ∧ inside k) h := by
  induction p generalizing h with
  | done a => exact ⟨meets, start⟩
  | act action rest ih =>
    intro k others kept_ b t found
    obtain ⟨⟨b', s⟩, read, same⟩ := Option.map_eq_some_iff.mp found
    cases same
    obtain ⟨allows, left⟩ := meets _ (others.view shows) (keeps k kept_) _ _ read
    obtain ⟨allows', inside_⟩ := acts k s kept_ (stable others start kept_) allows
    refine ⟨allows', ih b inside_ ?_⟩
    rw [History.view_step, part_put]
    exact left

end View

/-! ## Histories that only rise -/

section Rising

variable {κ σ : Type} (rank : σ → Nat)

/-- Every step keeps or raises the rank. -/
structure History.Rising (h : History κ σ) : Prop where
  steps : h.steps.Pairwise fun later earlier => rank earlier.after ≤ rank later.before
  state : ∀ a ∈ h.steps, rank a.after ≤ rank h.state

variable {rank}

theorem History.rising_nil (s : σ) : History.Rising rank (⟨s, []⟩ : History κ σ) :=
  ⟨List.Pairwise.nil, by simp⟩

theorem History.Rising.step {h : History κ σ} (rising : h.Rising rank) {call : κ} {s : σ}
    (raises : rank h.state ≤ rank s) : (h.step i call s).Rising rank := by
  refine ⟨pairwise_cons.mpr ⟨rising.state, rising.steps⟩, fun a among => ?_⟩
  rcases mem_cons.mp among with rfl | old
  · exact Nat.le_refl _
  · exact Nat.le_trans (rising.state a old) raises

theorem History.Rising.once {h : History κ σ} (rising : h.Rising rank) {a b : Access κ σ}
    (first : a ∈ h.steps) (second : b ∈ h.steps) (left : rank a.before < rank a.after)
    (leaves : rank b.before < rank b.after) (same : rank a.before = rank b.before) : a = b := by
  by_contra apart
  have order := rising.steps
  generalize h.steps = steps at first second order
  induction steps with
  | nil => cases first
  | cons c steps ih =>
    obtain ⟨newest, order⟩ := pairwise_cons.mp order
    rcases mem_cons.mp first with rfl | old
    · rcases mem_cons.mp second with rfl | older
      · exact apart rfl
      · have raised := newest b older
        omega
    · rcases mem_cons.mp second with rfl | older
      · have raised := newest a old
        omega
      · exact ih old older order

end Rising

/-! ## Every interleaving -/

section Pools

variable {κ σ ρ : Type} {body : Nat → κ → Program σ ρ}

theorem Pool.next_start {p q : Pool κ σ ρ} {call : κ} :
    p.next body (.start call) = some q ↔
      q = { p with threads := p.threads ++ [⟨call, p.history, body p.threads.length call⟩] } := by
  simp only [Pool.next, Option.some.injEq]
  exact eq_comm

theorem Pool.next_run {p q : Pool κ σ ρ} (ran : p.next body (.run i) = some q) :
    ∃ call begun, ∃ β : Type, ∃ action : σ → Option (β × σ), ∃ rest b s,
      p.threads[i]? = some ⟨call, begun, .act action rest⟩ ∧ action p.history.state = some (b, s) ∧
        q = ⟨p.history.step i call s, p.threads.set i ⟨call, begun, rest b⟩⟩ := by
  simp only [Pool.next, Option.bind_eq_bind, Option.bind_eq_some_iff, Option.pure_def,
    Option.some.injEq] at ran
  obtain ⟨⟨call, begun, program⟩, found, ⟨history, thread⟩, acts, rfl⟩ := ran
  cases program with
  | done a => cases acts
  | act action rest =>
    obtain ⟨⟨b, s⟩, read, same⟩ := Option.map_eq_some_iff.mp acts
    cases same
    exact ⟨call, begun, _, action, rest, b, s, found, read, rfl⟩

variable {begun : History κ σ}

/-- A thread keeps its call and the history it began with. -/
theorem Pool.next_thread {p q : Pool κ σ ρ} {turn : Turn κ} {call : κ}
    {program : Program σ ρ}
    (found : p.threads[i]? = some ⟨call, begun, program⟩) (ran : p.next body turn = some q) :
    ∃ left, q.threads[i]? = some ⟨call, begun, left⟩ := by
  have bound : i < p.threads.length := (List.getElem?_eq_some_iff.mp found).1
  cases turn with
  | start other =>
    rw [Pool.next_start.mp ran]
    exact ⟨program, by rw [List.getElem?_append_left bound, found]⟩
  | run j =>
    obtain ⟨call', begun', _, action, rest, b, s, at_, _, rfl⟩ := Pool.next_run ran
    by_cases same : j = i
    · subst same
      cases found.symm.trans at_
      exact ⟨rest b, by simp [List.getElem?_set_self bound]⟩
    · exact ⟨program, by simp [List.getElem?_set_ne same, found]⟩

variable {turns : List (Turn κ)}

theorem Pool.runs_thread {p q : Pool κ σ ρ} {call : κ}
    {program : Program σ ρ}
    (found : p.threads[i]? = some ⟨call, begun, program⟩)
    (ran : turns.foldlM (Pool.next body) p = some q) :
    ∃ left, q.threads[i]? = some ⟨call, begun, left⟩ := by
  refine foldlM_keeps (fun p : Pool κ σ ρ => ∃ left, p.threads[i]? = some ⟨call, begun, left⟩) ?_
    ⟨_, found⟩ ran
  rintro p turn - q ⟨left, found⟩ ran
  exact Pool.next_thread found ran

/-- A call that a run starts gets the next thread and the history of that moment. -/
theorem Pool.run_start {start : σ} {earlier later : List (Turn κ)} {call : κ} {p : Pool κ σ ρ}
    (ran : Pool.run body start (earlier ++ .start call :: later) = some p) :
    ∃ q : Pool κ σ ρ, Pool.run body start earlier = some q ∧
      ∃ left, p.threads[q.threads.length]? = some ⟨call, q.history, left⟩ := by
  obtain ⟨q, first, rest⟩ := foldlM_append_some.mp ran
  obtain ⟨r, started, rest⟩ := foldlM_cons_some.mp rest
  have begins : r.threads[q.threads.length]? =
      some ⟨call, q.history, body q.threads.length call⟩ := by
    rw [Pool.next_start.mp started]
    simp
  exact ⟨q, first, Pool.runs_thread begins rest⟩

variable {allowed : Nat → κ → History κ σ → σ → Prop} {kept : History κ σ → Prop}
  {post : Nat → κ → History κ σ → ρ → History κ σ → Prop}

/-- The history is kept and every thread meets what is left of its call. -/
structure Pool.Meeting (allowed : Nat → κ → History κ σ → σ → Prop) (kept : History κ σ → Prop)
    (post : Nat → κ → History κ σ → ρ → History κ σ → Prop) (p : Pool κ σ ρ) : Prop where
  history : kept p.history
  threads : ∀ (i : Nat) (thread : Thread κ σ ρ), p.threads[i]? = some thread → ∃ h,
    thread.program.Meets allowed kept i thread.call (post i thread.call thread.begun) h ∧
      kept h ∧ Reaches allowed thread.begun h ∧ Others allowed i h p.history

theorem Pool.Meeting.start {p : Pool κ σ ρ} (meeting : p.Meeting allowed kept post) {call : κ}
    (meets : (body p.threads.length call).Meets allowed kept p.threads.length call
      (post p.threads.length call p.history) p.history) :
    Pool.Meeting allowed kept post
      { p with threads := p.threads ++ [⟨call, p.history, body p.threads.length call⟩] } := by
  refine ⟨meeting.history, fun i thread found => ?_⟩
  by_cases old : i < p.threads.length
  · rw [List.getElem?_append_left old] at found
    exact meeting.threads i thread found
  rw [List.getElem?_append_right (Nat.not_lt.mp old), List.getElem?_singleton] at found
  split at found
  · next last =>
    cases found
    have index : i = p.threads.length := by omega
    exact ⟨p.history, index ▸ meets, meeting.history, .refl, .refl⟩
  · cases found

theorem Pool.Meeting.run {p : Pool κ σ ρ} (meeting : p.Meeting allowed kept post)
    (keeps : ∀ h i call s, kept h → allowed i call h s → kept (h.step i call s))
    {call : κ} {β : Type} {action : σ → Option (β × σ)}
    {rest : β → Program σ ρ} {b : β} {s : σ}
    (found : p.threads[i]? = some ⟨call, begun, .act action rest⟩)
    (acts : action p.history.state = some (b, s)) :
    Pool.Meeting allowed kept post
      ⟨p.history.step i call s, p.threads.set i ⟨call, begun, rest b⟩⟩ := by
  obtain ⟨h, meets, _, reaches, others⟩ := meeting.threads i _ found
  obtain ⟨allows, left⟩ := meets _ others meeting.history b s acts
  have kept_ := keeps _ i call s meeting.history allows
  refine ⟨kept_, fun j thread at_ => ?_⟩
  by_cases same : i = j
  · subst same
    rw [List.getElem?_set_self (List.getElem?_eq_some_iff.mp found).1] at at_
    cases at_
    exact ⟨_, left, kept_, (reaches.others others).step allows, .refl⟩
  · rw [List.getElem?_set_ne same] at at_
    obtain ⟨k, meets, held, reaches, others⟩ := meeting.threads j thread at_
    exact ⟨k, meets, held, reaches, others.step same allows⟩

/-- One turn: the pool still meets, and the history stays or takes an allowed step. -/
theorem Pool.Meeting.next {p q : Pool κ σ ρ} (meeting : p.Meeting allowed kept post)
    (keeps : ∀ h i call s, kept h → allowed i call h s → kept (h.step i call s))
    (meets : ∀ i call h, kept h → (body i call).Meets allowed kept i call (post i call h) h)
    {turn : Turn κ} (ran : p.next body turn = some q) :
    q.Meeting allowed kept post ∧ (q.history = p.history ∨
      ∃ i call s, allowed i call p.history s ∧ q.history = p.history.step i call s) := by
  cases turn with
  | start call =>
    rw [Pool.next_start.mp ran]
    exact ⟨meeting.start (meets _ call _ meeting.history), .inl rfl⟩
  | run i =>
    obtain ⟨call, begun, _, action, rest, b, s, found, acts, rfl⟩ := Pool.next_run ran
    obtain ⟨h, met, _, _, others⟩ := meeting.threads i _ found
    have allows := (met _ others meeting.history b s acts).1
    exact ⟨meeting.run keeps found acts, .inr ⟨i, call, s, allows, rfl⟩⟩

/-- What every allowed step keeps, the later turns of a run keep. -/
theorem Pool.Meeting.later {p q : Pool κ σ ρ} (meeting : p.Meeting allowed kept post)
    (keeps : ∀ h i call s, kept h → allowed i call h s → kept (h.step i call s))
    (meets : ∀ i call h, kept h → (body i call).Meets allowed kept i call (post i call h) h)
    (stable : History κ σ → Prop)
    (steps : ∀ h i call s, kept h → allowed i call h s → stable h → stable (h.step i call s))
    (held : stable p.history)
    (ran : turns.foldlM (Pool.next body) p = some q) :
    q.Meeting allowed kept post ∧ stable q.history := by
  refine foldlM_keeps (fun p => p.Meeting allowed kept post ∧ stable p.history) ?_ ⟨meeting, held⟩ ran
  rintro p turn - q ⟨meeting, held⟩ next
  obtain ⟨meets', same | ⟨i, call, s, allows, step⟩⟩ := meeting.next keeps meets next
  · exact ⟨meets', same ▸ held⟩
  · exact ⟨meets', step ▸ steps _ i call s meeting.history allows held⟩

/-- Every call of the turns starts in a pool that is ready for it. -/
def Pool.Ready (body : Nat → κ → Program σ ρ) (start : σ) (ready : κ → Pool κ σ ρ → Prop)
    (turns : List (Turn κ)) : Prop :=
  ∀ earlier call later q, turns = earlier ++ .start call :: later →
    Pool.run body start earlier = some q → ready call q

/-- The same for programs that rely on what their call finds when it starts. -/
theorem Pool.ready_run_meets {start : σ} {p : Pool κ σ ρ}
    {ready : κ → Pool κ σ ρ → Prop} (starts : kept ⟨start, []⟩)
    (keeps : ∀ h i call s, kept h → allowed i call h s → kept (h.step i call s))
    (meets : ∀ (q : Pool κ σ ρ) call, q.Meeting allowed kept post → ready call q →
      (body q.threads.length call).Meets allowed kept q.threads.length call
        (post q.threads.length call q.history) q.history)
    (readies : Pool.Ready body start ready turns) (ran : Pool.run body start turns = some p) :
    p.Meeting allowed kept post := by
  induction turns using List.reverseRecOn generalizing p with
  | nil =>
    cases ran
    exact ⟨starts, by simp⟩
  | append_singleton turns turn ih =>
    obtain ⟨q, before, last⟩ := foldlM_append_some.mp ran
    obtain ⟨p', next, done_⟩ := foldlM_cons_some.mp last
    cases done_
    have meeting : q.Meeting allowed kept post := by
      refine ih (fun earlier call later r split ran => ?_) before
      exact readies earlier call (later ++ [turn]) r (by rw [split]; simp) ran
    cases turn with
    | start call =>
      rw [Pool.next_start.mp next]
      exact meeting.start (meets q call meeting (readies turns call [] q rfl before))
    | run i =>
      obtain ⟨call, begun, _, action, rest, b, s, found, acts, rfl⟩ := Pool.next_run next
      exact meeting.run keeps found acts

/-- Programs that meet their conditions alone meet them in every interleaving. -/
theorem Pool.run_meets {start : σ} {p : Pool κ σ ρ}
    (starts : kept ⟨start, []⟩)
    (keeps : ∀ h i call s, kept h → allowed i call h s → kept (h.step i call s))
    (meets : ∀ i call h, kept h → (body i call).Meets allowed kept i call (post i call h) h)
    (ran : Pool.run body start turns = some p) : p.Meeting allowed kept post := by
  have empty : Pool.Meeting allowed kept post ⟨⟨start, []⟩, []⟩ := ⟨starts, by simp⟩
  exact (empty.later keeps meets (fun _ => True) (fun _ _ _ _ _ _ _ => trivial) trivial ran).1

/-- A returned call met its condition, and only others acted since. -/
theorem Pool.Meeting.returned {p : Pool κ σ ρ} (meeting : p.Meeting allowed kept post)
    {call : κ} {a : ρ}
    (found : p.threads[i]? = some ⟨call, begun, .done a⟩) :
    ∃ h, post i call begun a h ∧ kept h ∧ Reaches allowed begun h ∧ Others allowed i h p.history :=
  meeting.threads i _ found

end Pools

end Andrix.Lib
