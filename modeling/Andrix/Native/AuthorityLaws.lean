import Andrix.Native.Authority
import Andrix.Native.GateMoves

/-! The loss of an authority stops everything it admitted. A call holds the mutex
while it changes the table, so the invariant that ties every gate the authority ever
bound to the table and to the failure flag is stated of the moments at which nobody
holds it, and carried through a call by the thread that does. -/
namespace Andrix.Native
open Andrix.Lib Andrix.Lib.Program List AdmissionAuthority AdmissionDomain

abbrev DomainHistory := History AuthorityCall AdmissionDomain

@[simp] theorem AdmissionDomain.setGate_same (d : AdmissionDomain) (m : Nat) (g : Shared) :
    (d.setGate m g).gates m = g := if_pos rfl

theorem AdmissionDomain.setGate_other (d : AdmissionDomain) {m n : Nat} (g : Shared)
    (other : n ≠ m) : (d.setGate m g).gates n = d.gates n := if_neg other

def AdmissionDomain.Stopped (d : AdmissionDomain) (m : Nat) : Prop :=
  has (d.gates m).flags kStopped = true

/-- The authority bound the gate: one of its calls completed the binding. -/
def BoundBy (m : Nat) (h : DomainHistory) : Prop :=
  ∃ a ∈ h.steps, (a.before.gates m).flags = kBinding ∧ (a.after.gates m).flags = kBound

section Model

variable (memory : Nat → Nat)

/-- The gate stands in the table. -/
def Registered (m : Nat) (d : AdmissionDomain) : Prop :=
  ∃ work, some work ∈ d.authority.admissions ∧ memory work = m

/-- Every gate that was ever bound is stopped or stands in the table. -/
def Settled (h : DomainHistory) : Prop :=
  ∀ m, BoundBy m h → h.state.Stopped m ∨ Registered memory m h.state

/-- After a failure everything in the table is stopped. -/
def Closed (d : AdmissionDomain) : Prop :=
  d.authority.failed = true → ∀ work, some work ∈ d.authority.admissions → d.Stopped (memory work)

/-- No two entries of the table have one work identity. -/
def Distinct (d : AdmissionDomain) : Prop :=
  ∀ (s t x y : Nat), d.authority.admissions[s]? = some (some x) →
    d.authority.admissions[t]? = some (some y) →
    (d.gates (memory x)).work = (d.gates (memory y)).work → s = t

/-- A deadline that an observation may have set: within the lease of its time. -/
def Leased (call : AuthorityCall) (deadline : UInt64) : Prop :=
  ∃ epoch now, call = .observe epoch deadline now ∧ now < deadline ∧
    deadline.toNat ≤ now.toNat + kLifecycleLeaseMillis.toNat

/-- How a call may change the authority under the mutex. -/
structure Follows (call : AuthorityCall) (a b : AdmissionAuthority) : Prop where
  mutex : b.mutex = a.mutex
  epoch : ∀ epoch, a.epoch = some epoch → b.epoch = some epoch
  failed : a.failed = true → b.failed = true
  deadline : b.deadline = a.deadline ∨ b.deadline = 0 ∨ Leased call b.deadline

/-- What one action of a call may do. -/
inductive AuthorityStep (i : Nat) (call : AuthorityCall) (h : DomainHistory) : AdmissionDomain → Prop
  | gate (m : Nat) {g : Shared} : OpenMove (h.state.gates m) g →
    AuthorityStep i call h (h.state.setGate m g)
  | held (m : Nat) {g : Shared} : h.state.authority.mutex = some i →
    WordStep (h.state.gates m).flags g.flags → g.work = (h.state.gates m).work →
    ((h.state.gates m).flags = 14 → g.flags = 22 → g.deadline ≤ h.state.authority.deadline) →
    AuthorityStep i call h (h.state.setGate m g)
  | lock : h.state.authority.mutex = none →
    AuthorityStep i call h
      { h.state with authority := { h.state.authority with mutex := some i } }
  | change {a : AdmissionAuthority} : h.state.authority.mutex = some i →
    Follows call h.state.authority a → Distinct memory { h.state with authority := a } →
    AuthorityStep i call h { h.state with authority := a }
  | unlock : h.state.authority.mutex = some i → Settled memory h → Closed memory h.state →
    AuthorityStep i call h
      { h.state with authority := { h.state.authority with mutex := none } }

/-- What every run keeps. -/
structure AuthorityKept (h : DomainHistory) : Prop where
  words : ∀ m, (h.state.gates m).Valid
  quiet : h.state.authority.mutex = none → Settled memory h ∧ Closed memory h.state
  deadline : h.state.authority.deadline = 0 ∨
    ∃ a ∈ h.steps, Leased a.call h.state.authority.deadline
  distinct : Distinct memory h.state
  released : ∀ a ∈ h.steps, ∀ m, (a.before.gates m).flags = 14 → (a.after.gates m).flags = 22 →
    (a.after.gates m).deadline ≤ a.before.authority.deadline ∧
      (a.before.authority.deadline = 0 ∨ ∃ b ∈ h.steps, Leased b.call a.before.authority.deadline)

end Model

variable {memory : Nat → Nat} {i j : Nat} {call : AuthorityCall} {h k : DomainHistory}
  {d : AdmissionDomain}

/-! ## One action -/

/-- What happens to the gates in one action: at most one word changes, by one step. -/
theorem AuthorityStep.gates (step : AuthorityStep memory i call h d) (m : Nat) :
    WordStep (h.state.gates m).flags (d.gates m).flags ∧
      (d.gates m).work = (h.state.gates m).work := by
  have set {n : Nat} {g : Shared} (word : WordStep (h.state.gates n).flags g.flags)
      (work : g.work = (h.state.gates n).work) :
      WordStep (h.state.gates m).flags ((h.state.setGate n g).gates m).flags ∧
        ((h.state.setGate n g).gates m).work = (h.state.gates m).work := by
    by_cases same : m = n
    · subst same
      rw [setGate_same]
      exact ⟨word, work⟩
    · rw [setGate_other _ _ same]
      exact ⟨.inl rfl, rfl⟩
  cases step with
  | gate n moves => exact set moves.wordStep moves.fields.1
  | held n _ word work _ => exact set word work
  | lock | change | unlock => exact ⟨.inl rfl, rfl⟩

variable {m : Nat}

theorem AuthorityStep.stopped (step : AuthorityStep memory i call h d)
    (valid : ∀ m, (h.state.gates m).Valid) (stopped : h.state.Stopped m) : d.Stopped m :=
  ((step.gates m).1.raises (valid m)).stopped stopped

/-- While another thread holds the mutex an action is an open move on one gate. -/
theorem AuthorityStep.outside (step : AuthorityStep memory j call h d)
    (mutex : h.state.authority.mutex = some i) (other : j ≠ i) :
    ∃ m g, OpenMove (h.state.gates m) g ∧ d = h.state.setGate m g := by
  have apart (mine : h.state.authority.mutex = some j) : False := by
    rw [mutex] at mine
    exact other (Option.some.inj mine).symm
  cases step with
  | gate m moves => exact ⟨m, _, moves, rfl⟩
  | held _ mine _ _ _ | change mine _ _ | unlock mine _ _ => exact (apart mine).elim
  | lock free =>
    rw [mutex] at free
    cases free

/-- The authority's own facts only move one way. -/
theorem AuthorityStep.authority (step : AuthorityStep memory i call h d) :
    (∀ epoch, h.state.authority.epoch = some epoch → d.authority.epoch = some epoch) ∧
      (h.state.authority.failed = true → d.authority.failed = true) ∧
      (d.authority.deadline = h.state.authority.deadline ∨ d.authority.deadline = 0 ∨
        Leased call d.authority.deadline) := by
  cases step with
  | gate | held | lock | unlock => exact ⟨fun _ => id, id, .inl rfl⟩
  | change _ follows _ => exact ⟨follows.epoch, follows.failed, follows.deadline⟩

theorem OpenMove.unbinds {g g' : Shared} (moves : OpenMove g g') (word : g.flags = kBinding) :
    g'.flags ≠ kBound := by
  cases moves with
  | same =>
    rw [word]
    decide
  | stop =>
    dsimp only
    rw [word]
    decide
  | enter entering =>
    rw [word] at entering
    exact absurd entering (by decide)

variable {g : Shared}

theorem OpenMove.unbinds_set {m n : Nat} (moves : OpenMove (d.gates m) g)
    (word : (d.gates n).flags = kBinding) : ((d.setGate m g).gates n).flags ≠ kBound := by
  by_cases same : n = m
  · subst same
    rw [setGate_same]
    exact moves.unbinds word
  · rw [setGate_other _ _ same, word]
    decide

/-- An action that completes no binding and takes nothing from the table keeps every
bound gate stopped or registered. -/
theorem Settled.step (settled : Settled memory h) (step : AuthorityStep memory i call h d)
    (valid : ∀ m, (h.state.gates m).Valid)
    (unbound : ∀ m, (h.state.gates m).flags = kBinding → (d.gates m).flags ≠ kBound)
    (kept : ∀ m, Registered memory m h.state → d.Stopped m ∨ Registered memory m d) :
    Settled memory (h.step i call d) := by
  rintro m ⟨a, among, source, target⟩
  rcases mem_cons.mp among with rfl | old
  · exact absurd target (unbound m source)
  · rcases settled m ⟨a, old, source, target⟩ with stopped | registered
    · exact .inl (step.stopped valid stopped)
    · exact kept m registered

theorem Settled.opens (settled : Settled memory h) (valid : ∀ m, (h.state.gates m).Valid)
    (moves : OpenMove (h.state.gates m) g) :
    Settled memory (h.step i call (h.state.setGate m g)) := by
  exact settled.step (.gate m moves) valid (fun n word => moves.unbinds_set word) fun _ => .inr

theorem Distinct.step (distinct : Distinct memory h.state) (step : AuthorityStep memory i call h d) :
    Distinct memory d := by
  have same (admissions : d.authority.admissions = h.state.authority.admissions) :
      Distinct memory d := by
    intro s t x y first second work
    rw [admissions] at first second
    rw [(step.gates _).2, (step.gates _).2] at work
    exact distinct s t x y first second work
  cases step with
  | gate | held | lock | unlock => exact same rfl
  | change _ _ distinct => exact distinct

theorem AuthorityKept.step (kept : AuthorityKept memory h) (step : AuthorityStep memory i call h d) :
    AuthorityKept memory (h.step i call d) := by
  refine ⟨fun m => ((step.gates m).1.raises (kept.words m)).valid, ?_, ?_, kept.distinct.step step, ?_⟩
  · intro free
    have still (mutex : d.authority.mutex = h.state.authority.mutex) :
        h.state.authority.mutex = none := mutex ▸ free
    cases step with
    | gate m moves =>
      obtain ⟨settled, closed⟩ := kept.quiet (still rfl)
      have step : AuthorityStep memory i call h _ := .gate m moves
      refine ⟨settled.opens kept.words moves, fun failed work among => ?_⟩
      exact step.stopped kept.words (closed failed work among)
    | held _ mine _ _ _ =>
      cases (still rfl).symm.trans mine
    | lock => cases free
    | change mine follows _ =>
      cases (still follows.mutex).symm.trans mine
    | unlock mine settled closed =>
      have step : AuthorityStep memory i call h _ := .unlock mine settled closed
      refine ⟨settled.step step kept.words (fun n word => ?_) fun _ => .inr, closed⟩
      rw [word]
      decide
  · rcases step.authority.2.2 with same | zero | leased
    · rw [History.step_state, same]
      rcases kept.deadline with zero | ⟨a, among, leased⟩
      · exact .inl zero
      · exact .inr ⟨a, mem_cons_of_mem _ among, leased⟩
    · exact .inl zero
    · exact .inr ⟨_, mem_cons_self, leased⟩
  · intro a among m source target
    have earlier {deadline : UInt64} (leased : deadline = 0 ∨ ∃ b ∈ h.steps, Leased b.call deadline) :
        deadline = 0 ∨ ∃ b ∈ (h.step i call d).steps, Leased b.call deadline := by
      rcases leased with zero | ⟨b, among, leased⟩
      · exact .inl zero
      · exact .inr ⟨b, mem_cons_of_mem _ among, leased⟩
    rcases mem_cons.mp among with rfl | old
    · refine ⟨?_, earlier kept.deadline⟩
      have set {n : Nat} {g : Shared}
          (released : (h.state.gates n).flags = 14 → g.flags = 22 →
            g.deadline ≤ h.state.authority.deadline)
          (target : ((h.state.setGate n g).gates m).flags = 22) :
          ((h.state.setGate n g).gates m).deadline ≤ h.state.authority.deadline := by
        by_cases same : m = n
        · subst same
          rw [setGate_same] at target ⊢
          exact released source target
        · rw [setGate_other _ _ same, source] at target
          exact absurd target (by decide)
      cases step with
      | gate n moves =>
        refine set (fun word target => ?_) target
        cases moves with
        | same =>
          rw [word] at target
          exact absurd target (by decide)
        | stop =>
          dsimp only at target
          rw [word] at target
          exact absurd target (by decide)
        | enter entering =>
          rw [word] at entering
          exact absurd entering (by decide)
      | held n _ _ _ released => exact set released target
      | lock | change | unlock =>
        rw [source] at target
        exact absurd target (by decide)
    · obtain ⟨within, leased⟩ := kept.released a old m source target
      exact ⟨within, earlier leased⟩

/-! ## The thread that holds the mutex -/

/-- The thread holds the mutex, and every bound gate is stopped or registered. -/
structure Owning (memory : Nat → Nat) (i : Nat) (h : DomainHistory) : Prop where
  kept : AuthorityKept memory h
  mutex : h.state.authority.mutex = some i
  settled : Settled memory h

/-- Between the two histories the authority is left alone, no stop is taken back and
no binding completed. -/
structure Within (h k : DomainHistory) : Prop where
  authority : k.state.authority = h.state.authority
  stopped : ∀ m, h.state.Stopped m → k.state.Stopped m
  works : ∀ m, (k.state.gates m).work = (h.state.gates m).work
  bound : ∀ m, BoundBy m k → BoundBy m h

/-- Only open moves on gates lie between the two histories. -/
structure Outside (h k : DomainHistory) : Prop extends Within h k where
  deadlines : ∀ m, (k.state.gates m).deadline = (h.state.gates m).deadline

theorem Within.trans {l : DomainHistory} (first : Within h k) (second : Within k l) : Within h l where
  authority := second.authority.trans first.authority
  stopped := fun m stopped => second.stopped m (first.stopped m stopped)
  works := fun m => (second.works m).trans (first.works m)
  bound := fun m bound => first.bound m (second.bound m bound)

theorem Outside.refl (h : DomainHistory) : Outside h h :=
  ⟨⟨rfl, fun _ => id, fun _ => rfl, fun _ => id⟩, fun _ => rfl⟩

theorem Outside.trans {l : DomainHistory} (first : Outside h k) (second : Outside k l) :
    Outside h l :=
  ⟨first.toWithin.trans second.toWithin, fun m => (second.deadlines m).trans (first.deadlines m)⟩

theorem AuthorityKept.opens (kept : AuthorityKept memory h) (j : Nat) (call : AuthorityCall)
    (moves : OpenMove (h.state.gates m) g) :
    Outside h (h.step j call (h.state.setGate m g)) := by
  have step : AuthorityStep memory j call h (h.state.setGate m g) := .gate m moves
  refine ⟨⟨rfl, fun n stopped => step.stopped kept.words stopped, fun n => (step.gates n).2, ?_⟩,
    fun n => ?_⟩
  · rintro n ⟨a, among, source, target⟩
    rcases mem_cons.mp among with rfl | old
    · exact absurd target (moves.unbinds_set source)
    · exact ⟨a, old, source, target⟩
  · by_cases same : n = m
    · subst same
      rw [History.step_state, setGate_same]
      exact moves.fields.2.2.2
    · rw [History.step_state, setGate_other _ _ same]

/-- While a thread holds the mutex, the others only make open moves. -/
theorem AuthorityKept.others (kept : AuthorityKept memory h)
    (mutex : h.state.authority.mutex = some i) (others : Others (AuthorityStep memory) i h k) :
    AuthorityKept memory k ∧ Outside h k := by
  refine others.keeps (fun l => AuthorityKept memory l ∧ Outside h l) ?_ ⟨kept, .refl h⟩
  rintro l j call s other step ⟨kept, outside⟩
  obtain ⟨m, g, moves, rfl⟩ := step.outside (outside.authority ▸ mutex) other
  exact ⟨kept.step step, outside.trans (kept.opens j call moves)⟩

theorem Settled.within (settled : Settled memory h) (within : Within h k) : Settled memory k := by
  intro m bound
  rcases settled m (within.bound m bound) with stopped | registered
  · exact .inl (within.stopped m stopped)
  · refine .inr ?_
    rw [Registered, within.authority]
    exact registered

theorem Owning.within (owning : Owning memory i h) (kept : AuthorityKept memory k)
    (within : Within h k) : Owning memory i k :=
  ⟨kept, within.authority ▸ owning.mutex, owning.settled.within within⟩

theorem Owning.opens (owning : Owning memory i h) (j : Nat) (call : AuthorityCall)
    (moves : OpenMove (h.state.gates m) g) :
    Owning memory i (h.step j call (h.state.setGate m g)) ∧
      Outside h (h.step j call (h.state.setGate m g)) :=
  have outside := owning.kept.opens j call moves
  ⟨owning.within (owning.kept.step (.gate m moves)) outside.toWithin, outside⟩

theorem Owning.others (owning : Owning memory i h) (others : Others (AuthorityStep memory) i h k) :
    Owning memory i k ∧ Outside h k := by
  obtain ⟨kept, outside⟩ := owning.kept.others owning.mutex others
  exact ⟨owning.within kept outside.toWithin, outside⟩

theorem AdmissionDomain.setGate_self (d : AdmissionDomain) (m : Nat) : d.setGate m (d.gates m) = d := by
  have same : (fun n => if n = m then d.gates m else d.gates n) = d.gates := by
    funext n
    by_cases same : n = m
    · rw [if_pos same, same]
    · rw [if_neg same]
  simp only [setGate, same]

/-- A read by the thread that holds the mutex. -/
theorem Owning.reads (owning : Owning memory i h) {call : AuthorityCall} :
    AuthorityStep memory i call h h.state ∧ Owning memory i (h.step i call h.state) ∧
      Outside h (h.step i call h.state) := by
  have step : AuthorityStep memory i call h (h.state.setGate 0 (h.state.gates 0)) := .gate 0 .same
  have opened := owning.opens i call (OpenMove.same (g := h.state.gates 0))
  rw [setGate_self] at step opened
  exact ⟨step, opened⟩

/-! ## The parts of a call -/

section Parts

variable {α : Type} {post : α → DomainHistory → Prop}

/-- The part of a call ends as stated, and each of its actions is one the authority's calls make. -/
abbrev Runs (memory : Nat → Nat) (i : Nat) (call : AuthorityCall) (p : Program AdmissionDomain α)
    (post : α → DomainHistory → Prop) (h : DomainHistory) : Prop :=
  p.Meets (AuthorityStep memory) (AuthorityKept memory) i call post h

theorem load_meets (owning : Owning memory i h) {read : AdmissionDomain → α} :
    Runs memory i call (Program.load read) (fun a k => a = read k.state ∧ Owning memory i k ∧ Outside h k) h := by
  refine meets_load.mpr fun k others _ => ?_
  obtain ⟨still, outside⟩ := owning.others others
  obtain ⟨step, owning', read⟩ := still.reads
  exact ⟨step, rfl, owning', outside.trans read⟩

theorem open_meets (owning : Owning memory i h) {p : Program Shared α}
    {post : α → Shared → Prop} (does : p.Does Shared.Valid OpenMove post (h.state.gates m)) :
    Runs memory i call (onGate m p) (fun a k => post a (k.state.gates m) ∧ Owning memory i k ∧ Outside h k) h := by
  refine Program.Does.meets (fun d => d.gates m) (fun g d => d.setGate m g)
    (fun k => Owning memory i k ∧ Outside h k) (fun _ _ => setGate_same _ _ _)
    (fun _ kept => AuthorityKept.words kept m) ?_ ?_ ⟨owning, .refl h⟩ rfl does
  · rintro l k others ⟨owning, outside⟩ _
    obtain ⟨still, moved⟩ := owning.others others
    exact ⟨still, outside.trans moved⟩
  · rintro k g _ ⟨owning, outside⟩ moves
    obtain ⟨still, moved⟩ := owning.opens i call moves
    exact ⟨.gate m moves, still, outside.trans moved⟩

/-- A change of the authority that takes nothing from the table. -/
theorem modify_meets (owning : Owning memory i h)
    {change : AdmissionAuthority → AdmissionAuthority} {post : Unit → DomainHistory → Prop}
    (follows : Follows call h.state.authority (change h.state.authority))
    (distinct : ∀ k, Owning memory i k → Outside h k →
      Distinct memory { k.state with authority := change h.state.authority })
    (keeps : ∀ k, Outside h k → ∀ work, some work ∈ h.state.authority.admissions →
      k.state.Stopped (memory work) ∨ some work ∈ (change h.state.authority).admissions)
    (then_ : ∀ k, Owning memory i k → k.state.authority = change h.state.authority →
      (∀ m, h.state.Stopped m → k.state.Stopped m) → post () k) :
    Runs memory i call (modify change) post h := by
  refine meets_store.mpr fun k others _ => ?_
  obtain ⟨still, outside⟩ := owning.others others
  have step : AuthorityStep memory i call k { k.state with authority := change k.state.authority } := by
    rw [outside.authority]
    refine .change still.mutex ?_ (distinct k still outside)
    rw [outside.authority]
    exact follows
  refine ⟨step, then_ _ ⟨still.kept.step step, ?_, ?_⟩ ?_ fun m stopped => ?_⟩
  · rw [History.step_state, outside.authority, follows.mutex]
    exact owning.mutex
  · refine still.settled.step step still.kept.words (fun m word => ?_) ?_
    · rw [word]
      decide
    · rintro _ ⟨work, among, rfl⟩
      rw [outside.authority] at among ⊢
      rcases keeps k outside work among with stopped | kept
      · exact .inl stopped
      · exact .inr ⟨work, kept, rfl⟩
  · rw [History.step_state, outside.authority]
  · exact outside.stopped m stopped

theorem stopAll_meets (table : List (Option Nat)) (owning : Owning memory i h) :
    Runs memory i call (stopAll memory table) (fun _ k => Owning memory i k ∧ Outside h k ∧
        ∀ work, some work ∈ table → k.state.Stopped (memory work)) h := by
  induction table generalizing h with
  | nil => exact ⟨owning, .refl h, by simp⟩
  | cons entry rest ih =>
    cases entry with
    | none =>
      refine (ih owning).mono ?_
      rintro _ k ⟨still, outside, stopped⟩
      exact ⟨still, outside, fun work among => stopped work (by simpa using among)⟩
    | some entry =>
      refine (open_meets owning stop_does).bind ?_
      rintro _ k ⟨first, still, outside⟩
      refine (ih still).mono ?_
      rintro _ l ⟨last, moved, stopped⟩
      refine ⟨last, outside.trans moved, fun work among => ?_⟩
      rcases mem_cons.mp among with same | later
      · cases same
        exact moved.stopped _ first
      · exact stopped work later

theorem Distinct.of_admissions {a : AdmissionAuthority} (distinct : Distinct memory d)
    (same : a.admissions = d.authority.admissions) : Distinct memory { d with authority := a } := by
  intro s t x y first second work
  exact distinct s t x y (same ▸ first) (same ▸ second) work

/-- A revocation fails the authority and stops everything in the table. -/
theorem revokeLocked_meets (owning : Owning memory i h) :
    Runs memory i call (revokeLocked memory) (fun _ k => Owning memory i k ∧ Closed memory k.state) h := by
  refine meets_bind.mpr (modify_meets owning ⟨rfl, fun _ => id, fun _ => rfl, .inr (.inl rfl)⟩
    ?_ (fun _ _ work among => .inr among) ?_)
  · intro k still outside
    refine still.kept.distinct.of_admissions ?_
    rw [outside.authority]
  intro k still _ _
  refine (load_meets still).bind ?_
  rintro _ l ⟨rfl, held, _⟩
  refine (stopAll_meets _ held).mono ?_
  rintro _ n ⟨last, moved, stopped⟩
  exact ⟨last, fun _ work among => stopped work (moved.authority ▸ among)⟩

theorem Closed.within (closed : Closed memory h.state) (within : Within h k) :
    Closed memory k.state := by
  intro failed work among
  rw [within.authority] at failed among
  exact within.stopped _ (closed failed work among)

theorem revokeIf_meets (owning : Owning memory i h) (closed : Closed memory h.state)
    (condition : Bool) :
    Runs memory i call (revokeIf memory condition) (fun _ k => Owning memory i k ∧ Closed memory k.state) h :=
  meets_ite (fun _ => revokeLocked_meets owning) fun _ => ⟨owning, closed⟩

theorem fresh_meets (now : UInt64) (owning : Owning memory i h) (closed : Closed memory h.state) :
    Runs memory i call (fresh memory now) (fun current k => Owning memory i k ∧ Closed memory k.state ∧
        (current = true → k.state.authority.failed = false)) h := by
  refine (load_meets owning).bind ?_
  rintro _ k₁ ⟨rfl, owning₁, outside₁⟩
  refine (revokeIf_meets owning₁ (closed.within outside₁.toWithin) _).bind ?_
  rintro _ k₂ ⟨owning₂, closed₂⟩
  refine meets_bind.mpr (modify_meets owning₂ ⟨rfl, fun _ => id, id, .inl rfl⟩ ?_
    (fun _ _ work among => .inr among) ?_)
  · intro k still outside
    refine still.kept.distinct.of_admissions ?_
    rw [outside.authority]
  intro k₃ owning₃ authority₃ stopped₃
  have closed₃ : Closed memory k₃.state := by
    intro failed work among
    rw [authority₃] at failed among
    exact stopped₃ _ (closed₂ failed work among)
  refine (load_meets owning₃).bind ?_
  rintro _ k₄ ⟨rfl, owning₄, outside₄⟩
  refine (revokeIf_meets owning₄ (closed₃.within outside₄.toWithin) _).bind ?_
  rintro _ k₅ ⟨owning₅, closed₅⟩
  refine (load_meets owning₅).bind ?_
  rintro _ k₆ ⟨rfl, owning₆, outside₆⟩
  refine ⟨owning₆, closed₅.within outside₆.toWithin, fun current => ?_⟩
  simp only [Bool.and_eq_true, Bool.not_eq_true'] at current
  exact current.1

/-- A call behind the mutex: what it meets between taking and giving it back. -/
theorem locked_meets {p : Program AdmissionDomain α}
    (meets : ∀ k, Owning memory i k → Closed memory k.state →
      Runs memory i call p (fun a l => Owning memory i l ∧ Closed memory l.state ∧ post a l) k)
    (stays : ∀ a k l, Outside k l → post a k →
      post a (l.step i call
        { l.state with authority := { l.state.authority with mutex := none } })) :
    Runs memory i call (locked i p) post
      h := by
  refine meets_bind.mpr (meets_await.mpr fun k _ kept free => ?_)
  have unlocked : k.state.authority.mutex = none := by simpa using free
  obtain ⟨settled, closed⟩ := kept.quiet unlocked
  have step : AuthorityStep memory i call k
      { k.state with authority := { k.state.authority with mutex := some i } } := .lock unlocked
  have owning : Owning memory i (k.step i call
      { k.state with authority := { k.state.authority with mutex := some i } }) := by
    refine ⟨kept.step step, rfl, settled.step step kept.words (fun m word => ?_) fun _ => .inr⟩
    rw [word]
    decide
  refine ⟨step, (meets _ owning closed).bind ?_⟩
  rintro a l ⟨owning', closed', done_⟩
  refine meets_bind.mpr (meets_store.mpr fun n others _ => ?_)
  obtain ⟨still, outside⟩ := owning'.others others
  exact ⟨.unlock still.mutex still.settled (closed'.within outside.toWithin), stays a l n outside done_⟩

/-- A change of a gate that only the holder of the mutex makes and that completes
neither a binding nor, beyond the authority's deadline, a release. -/
structure HeldMove (deadline : UInt64) (g g' : Shared) : Prop where
  word : WordStep g.flags g'.flags
  work : g'.work = g.work
  released : g.flags = 14 → g'.flags = 22 → g'.deadline ≤ deadline
  unbinds : g.flags = kBinding → g'.flags ≠ kBound

theorem Owning.moves (owning : Owning memory i h) (call : AuthorityCall)
    (moves : HeldMove h.state.authority.deadline (h.state.gates m) g) :
    AuthorityStep memory i call h (h.state.setGate m g) ∧
      Owning memory i (h.step i call (h.state.setGate m g)) ∧
      Within h (h.step i call (h.state.setGate m g)) := by
  have step : AuthorityStep memory i call h (h.state.setGate m g) :=
    .held m owning.mutex moves.word moves.work moves.released
  have within : Within h (h.step i call (h.state.setGate m g)) := by
    refine ⟨rfl, fun n stopped => step.stopped owning.kept.words stopped,
      fun n => (step.gates n).2, ?_⟩
    rintro n ⟨a, among, source, target⟩
    rcases mem_cons.mp among with rfl | old
    · by_cases same : n = m
      · subst same
        rw [setGate_same] at target
        exact absurd target (moves.unbinds source)
      · rw [setGate_other _ _ same, source] at target
        exact absurd target (by decide)
    · exact ⟨a, old, source, target⟩
  exact ⟨step, owning.within (owning.kept.step step) within, within⟩

/-- One action of the holder on a gate: what it found and what it left. -/
theorem held_meets (owning : Owning memory i h) {action : Shared → α × Shared}
    (moves : ∀ k, Outside h k →
      HeldMove h.state.authority.deadline (k.state.gates m) (action (k.state.gates m)).2) :
    Runs memory i call (onGate m (Program.atomic action)) (fun a l => ∃ k, Outside h k ∧ a = (action (k.state.gates m)).1 ∧
        l.state.gates m = (action (k.state.gates m)).2 ∧ Owning memory i l ∧ Within h l) h := by
  rw [onGate, Program.zoom_atomic]
  refine meets_atomic.mpr fun k others _ => ?_
  obtain ⟨still, outside⟩ := owning.others others
  have move := moves k outside
  rw [← outside.authority] at move
  obtain ⟨step, owning', within⟩ := still.moves call move
  exact ⟨step, k, outside, rfl, setGate_same _ _ _, owning',
    outside.toWithin.trans within⟩

variable {deadline : UInt64}

/-- An exchange of the word that completes neither a binding nor a release. -/
theorem heldMove_exchange {expected desired : UInt32} (g : Shared)
    (edge : (expected, desired) ∈ gateEdges) (unbinds : expected ≠ kBinding)
    (released : g.flags = expected → expected = 14 → g.deadline ≤ deadline) :
    HeldMove deadline g (if g.flags = expected then ((true, expected), { g with flags := desired })
      else ((false, g.flags), g)).2 := by
  by_cases hit : g.flags = expected
  · rw [if_pos hit]
    refine ⟨.inr (.inr (by rw [hit]; exact edge)), rfl, fun word _ => ?_, fun word => ?_⟩
    · exact released hit (hit.symm.trans word)
    · exact absurd (hit.symm.trans word) unbinds
  · rw [if_neg hit]
    refine ⟨.inl rfl, rfl, fun word target => ?_, fun word => ?_⟩
    · exact absurd (word.symm.trans target) (by decide)
    · rw [word]
      decide

theorem heldMove_write {g g' : Shared} (flags : g'.flags = g.flags)
    (work : g'.work = g.work) : HeldMove deadline g g' := by
  refine ⟨.inl flags, work, fun word target => ?_, fun word => ?_⟩
  · exact absurd (word.symm.trans (flags.symm.trans target)) (by decide)
  · rw [flags, word]
    decide

theorem held_prepared_meets (owning : Owning memory i h) (m : Nat) :
    Runs memory i call (onGate m WorkAdmission.prepared) (fun _ k => Owning memory i k ∧ Within h k) h := by
  rw [onGate, WorkAdmission.prepared, Program.zoom_bind]
  refine (held_meets owning fun k _ => ?_).bind ?_
  · exact heldMove_exchange _ (by decide) (by decide) fun _ word => absurd word (by decide)
  · rintro _ l ⟨_, _, _, _, still, within⟩
    exact ⟨still, within⟩

/-- A release publishes no later deadline than the authority's. -/
theorem held_publish_meets (owning : Owning memory i h) (m : Nat) (now : UInt64)
    (fits : deadline ≤ h.state.authority.deadline) :
    Runs memory i call (onGate m (WorkAdmission.publish now deadline)) (fun _ k => Owning memory i k ∧ Within h k) h := by
  rw [onGate, WorkAdmission.publish, Program.zoom_bind]
  refine (held_meets owning fun k _ => ?_).bind ?_
  · exact heldMove_exchange _ (by decide) (by decide) fun _ word => absurd word (by decide)
  rintro ⟨claimed, _⟩ k₁ ⟨_, _, _, _, owning₁, within₁⟩
  cases claimed with
  | false => exact ⟨owning₁, within₁⟩
  | true =>
    simp only [Bool.not_true, Bool.false_eq_true, if_false, Program.zoom_bind]
    refine (held_meets owning₁ fun k _ => heldMove_write rfl rfl).bind ?_
    rintro _ k₂ ⟨_, _, _, _, owning₂, within₂⟩
    refine (held_meets owning₂ fun k _ => heldMove_write rfl rfl).bind ?_
    rintro _ k₃ ⟨_, _, _, written, owning₃, within₃⟩
    have within : Within h k₃ := (within₁.trans within₂).trans within₃
    refine (held_meets owning₃ fun k outside => ?_).bind ?_
    · refine heldMove_exchange _ (by decide) (by decide) fun _ _ => ?_
      rw [outside.deadlines, written, within.authority]
      exact fits
    · rintro _ l ⟨_, _, _, _, owning₄, within₄⟩
      exact ⟨owning₄, within.trans within₄⟩

/-- The holder completed the binding of one gate and has still to register it. -/
structure Binding (memory : Nat → Nat) (i m : Nat) (h k : DomainHistory) : Prop where
  kept : AuthorityKept memory k
  mutex : k.state.authority.mutex = some i
  authority : k.state.authority = h.state.authority
  works : ∀ n, (k.state.gates n).work = (h.state.gates n).work
  settled : ∀ n, BoundBy n k → k.state.Stopped n ∨ Registered memory n k.state ∨ n = m

theorem held_bind_meets (owning : Owning memory i h) (m : Nat) (epoch : AuthorityEpoch) :
    Runs memory i call (onGate m (WorkAdmission.bind epoch)) (fun bound k =>
        (bound = false → Owning memory i k ∧ Within h k) ∧
          (bound = true → Binding memory i m h k)) h := by
  rw [onGate, WorkAdmission.bind, Program.zoom_bind]
  refine (held_meets owning fun k _ => ?_).bind ?_
  · exact heldMove_exchange _ (by decide) (by decide) fun _ word => absurd word (by decide)
  rintro ⟨claimed, _⟩ k₁ ⟨_, _, _, _, owning₁, within₁⟩
  cases claimed with
  | false => exact ⟨fun _ => ⟨owning₁, within₁⟩, by simp⟩
  | true =>
    simp only [Bool.not_true, Bool.false_eq_true, if_false, Program.zoom_bind]
    refine (held_meets owning₁ fun k _ => heldMove_write rfl rfl).bind ?_
    rintro _ k₂ ⟨_, _, _, _, owning₂, within₂⟩
    refine (held_meets owning₂ fun k _ => heldMove_write rfl rfl).bind ?_
    rintro _ k₃ ⟨_, _, _, _, owning₃, within₃⟩
    refine (held_meets owning₃ fun k _ => heldMove_write rfl rfl).bind ?_
    rintro _ k₄ ⟨_, _, _, _, owning₄, within₄⟩
    have within : Within h k₄ := ((within₁.trans within₂).trans within₃).trans within₄
    rw [WorkAdmission.compareExchange, Program.zoom_atomic]
    refine meets_bind.mpr (meets_atomic.mpr fun k others _ => ?_)
    obtain ⟨still, outside⟩ := owning₄.others others
    by_cases hit : (k.state.gates m).flags = kBinding
    · simp only [if_pos hit]
      have step : AuthorityStep memory i call k
          (k.state.setGate m { k.state.gates m with flags := kBound }) := by
        refine .held m still.mutex (.inr (.inr ?_)) rfl fun word => ?_
        · rw [hit]
          dsimp only
          decide
        · exact absurd (hit.symm.trans word) (by decide)
      refine ⟨step, by simp, fun _ => ⟨still.kept.step step, still.mutex,
        outside.authority.trans within.authority,
        fun n => ((step.gates n).2.trans (outside.works n)).trans (within.works n), ?_⟩⟩
      rintro n ⟨a, among, source, target⟩
      rcases mem_cons.mp among with rfl | old
      · refine .inr (.inr (by_contra fun other => ?_))
        rw [setGate_other _ _ other, source] at target
        exact absurd target (by decide)
      · rcases still.settled n ⟨a, old, source, target⟩ with stopped | registered
        · exact .inl (step.stopped still.kept.words stopped)
        · exact .inr (.inl registered)
    · simp only [if_neg hit]
      obtain ⟨owning₅, outside₅⟩ := still.opens i call (OpenMove.same (g := k.state.gates m))
      exact ⟨.gate m .same, fun _ => ⟨owning₅, within.trans (outside.trans outside₅).toWithin⟩, by simp⟩

/-! ## The calls -/

/-- An accepted call leaves an authority that has not failed. -/
def Accepting (result : AdmissionResult) (h : DomainHistory) : Prop :=
  result = .accepted → h.state.authority.failed = false

theorem Accepting.of_ne {result : AdmissionResult} (other : result ≠ .accepted) :
    Accepting result h := fun same => absurd same other

/-- What the part of a call that decides its result leaves. -/
abbrev Answers (memory : Nat → Nat) (i : Nat) (result : AdmissionResult) (h : DomainHistory) : Prop :=
  Owning memory i h ∧ Closed memory h.state ∧ Accepting result h

theorem call_meets {p : Program AdmissionDomain AdmissionResult}
    (meets : ∀ k, Owning memory i k → Closed memory k.state →
      Runs memory i call p (Answers memory i) k) :
    Runs memory i call (locked i p) Accepting h := by
  refine locked_meets meets fun result k l outside accepting same => ?_
  rw [History.step_state, outside.authority]
  exact accepting same

theorem observe_meets (epoch : AuthorityEpoch) (deadline now : UInt64) :
    Runs memory i (.observe epoch deadline now) (observe memory i epoch deadline now) Accepting h := by
  refine call_meets fun k owning closed => ?_
  refine (fresh_meets now owning closed).bind ?_
  rintro _ k₁ ⟨owning₁, closed₁, _⟩
  refine (load_meets owning₁).bind ?_
  rintro _ k₂ ⟨rfl, owning₂, outside₂⟩
  have closed₂ := closed₁.within outside₂.toWithin
  refine meets_ite (fun _ => ⟨owning₂, closed₂, .of_ne (by decide)⟩) fun sound => ?_
  refine meets_ite (fun _ => ?_) fun fits => ?_
  · refine (revokeLocked_meets owning₂).bind ?_
    rintro _ k₃ ⟨owning₃, closed₃⟩
    exact ⟨owning₃, closed₃, .of_ne (by decide)⟩
  simp only [not_or, UInt64.not_le, UInt64.not_lt, gt_iff_lt] at fits
  have leased : Leased (.observe epoch deadline now) deadline := by
    refine ⟨epoch, now, rfl, fits.2.1, ?_⟩
    have within := UInt64.le_iff_toNat_le.mp fits.2.2.1
    have after := UInt64.lt_iff_toNat_lt.mp fits.2.1
    rw [UInt64.toNat_sub_of_le _ _ (UInt64.le_of_lt fits.2.1)] at within
    omega
  refine meets_bind.mpr (modify_meets owning₂ ⟨rfl, ?_, id, ?_⟩ ?_
    (fun _ _ work among => .inr among) ?_)
  · intro observed same
    simp [same]
  · dsimp only
    split
    · exact .inr (.inr leased)
    · exact .inl rfl
  · intro k still outside
    refine still.kept.distinct.of_admissions ?_
    rw [outside.authority]
  · intro k₃ owning₃ authority₃ stopped₃
    have failed : k₃.state.authority.failed = false := by
      rw [authority₃]
      simpa using sound
    refine ⟨owning₃, fun failing => ?_, fun _ => failed⟩
    rw [failed] at failing
    cases failing

theorem refused_meets (owning : Owning memory i h) (closed : Closed memory h.state) (m : Nat) :
    Runs memory i call (refused m) (Answers memory i) h := by
  refine (open_meets owning phase_does).bind ?_
  rintro phase k ⟨_, still, outside⟩
  refine ⟨still, closed.within outside.toWithin, .of_ne ?_⟩
  by_cases stopped : phase = .stopped
  · rw [if_pos stopped]
    decide
  · rw [if_neg stopped]
    decide

theorem unfit_meets (owning : Owning memory i h) (closed : Closed memory h.state) :
    Runs memory i call unfit (Answers memory i) h := by
  refine (load_meets owning).bind ?_
  rintro a k ⟨_, still, outside⟩
  refine ⟨still, closed.within outside.toWithin, .of_ne ?_⟩
  cases a.failed <;> decide

variable {table : List (Option Nat)}

theorem mem_set_free {slot work : Nat} {entry : Nat}
    (free : table[slot]? = some none) (among : some entry ∈ table) :
    some entry ∈ table.set slot (some work) := by
  obtain ⟨index, found⟩ := mem_iff_getElem?.mp among
  refine mem_iff_getElem?.mpr ⟨index, ?_⟩
  rw [List.getElem?_set_ne ?_, found]
  rintro rfl
  rw [free] at found
  cases found

theorem mem_set_new {slot work : Nat}
    (free : table[slot]? = some none) : some work ∈ table.set slot (some work) := by
  have bound := (List.getElem?_eq_some_iff.mp free).1
  exact mem_iff_getElem?.mpr ⟨slot, List.getElem?_set_self bound⟩

/-- A work without a clash is not in the table under any handle. -/
theorem clash_none {work : Nat} (none_ : clash memory work d = none) {entry : Nat}
    (among : some entry ∈ d.authority.admissions) :
    (d.gates (memory entry)).work ≠ (d.gates (memory work)).work := by
  have every := List.findSome?_eq_none_iff.mp none_ _ among
  simp only at every
  split at every
  · cases every
  · split at every
    · cases every
    · next other => exact other

theorem clash_ne_accepted {work : Nat} {result : AdmissionResult}
    (found : clash memory work d = some result) : result ≠ .accepted := by
  obtain ⟨entry, _, clashes⟩ := exists_of_findSome?_eq_some found
  cases entry with
  | none => cases clashes
  | some entry =>
    simp only at clashes
    split at clashes
    · cases clashes
      decide
    split at clashes
    · cases clashes
      decide
    · cases clashes

theorem idxOf?_found {entry : Option Nat} {slot : Nat}
    (found : table.idxOf? entry = some slot) : table[slot]? = some entry := by
  obtain ⟨bound, same, _⟩ := List.findIdx?_eq_some_iff_getElem.mp found
  rw [List.getElem?_eq_getElem bound, eq_of_beq same]

theorem set_found {slot index entry : Nat} {value : Option Nat}
    (found : (table.set slot value)[index]? = some (some entry)) :
    (index = slot ∧ value = some entry) ∨ table[index]? = some (some entry) := by
  by_cases here : slot = index
  · subst here
    rw [List.getElem?_set] at found
    split at found
    · split at found
      · exact .inl ⟨rfl, Option.some.inj found⟩
      · cases found
    · next apart => exact absurd rfl apart
  · rw [List.getElem?_set_ne here] at found
    exact .inr found

theorem Distinct.register {work slot : Nat} (distinct : Distinct memory d)
    (clashless : ∀ entry, some entry ∈ d.authority.admissions →
      (d.gates (memory entry)).work ≠ (d.gates (memory work)).work) :
    Distinct memory { d with authority :=
      { d.authority with admissions := d.authority.admissions.set slot (some work) } } := by
  intro s t x y first second same
  rcases set_found first with ⟨here, new⟩ | old
  · cases new
    rcases set_found second with ⟨there, _⟩ | older
    · exact here.trans there.symm
    · exact absurd same.symm (clashless y (mem_of_getElem? older))
  · rcases set_found second with ⟨_, new⟩ | older
    · cases new
      exact absurd same (clashless x (mem_of_getElem? old))
    · exact distinct s t x y old older same

/-- A bound gate is registered before the mutex is given back. -/
theorem register_meets {work slot : Nat} (binding : Binding memory i (memory work) h k)
    (sound : h.state.authority.failed = false)
    (free : h.state.authority.admissions[slot]? = some none)
    (clashless : ∀ entry, some entry ∈ h.state.authority.admissions →
      (h.state.gates (memory entry)).work ≠ (h.state.gates (memory work)).work) :
    Runs memory i call (modify fun a =>
      { a with admissions := a.admissions.set slot (some work) }) (fun _ l => Owning memory i l ∧ Closed memory l.state ∧
        l.state.authority.failed = false) k := by
  refine meets_store.mpr fun l others _ => ?_
  obtain ⟨kept, outside⟩ := binding.kept.others binding.mutex others
  have authority : l.state.authority = h.state.authority := outside.authority.trans binding.authority
  have works (n : Nat) : (l.state.gates n).work = (h.state.gates n).work :=
    (outside.works n).trans (binding.works n)
  have step : AuthorityStep memory i call l { l.state with authority :=
      { l.state.authority with
        admissions := l.state.authority.admissions.set slot (some work) } } := by
    refine .change (outside.authority ▸ binding.mutex) ⟨rfl, fun _ => id, id, .inl rfl⟩ ?_
    refine kept.distinct.register fun entry among => ?_
    rw [authority] at among
    rw [works, works]
    exact clashless entry among
  have free' : l.state.authority.admissions[slot]? = some none := by rw [authority]; exact free
  have failed : l.state.authority.failed = false := by rw [authority]; exact sound
  refine ⟨step, ⟨kept.step step, outside.authority ▸ binding.mutex, ?_⟩, fun failing => ?_, failed⟩
  · rintro n ⟨a, among, source, target⟩
    rcases mem_cons.mp among with rfl | old
    · rw [source] at target
      exact absurd target (by decide)
    rcases binding.settled n (outside.bound n ⟨a, old, source, target⟩) with
      stopped | ⟨entry, stands, same⟩ | rfl
    · exact .inl (outside.stopped n stopped)
    · rw [← outside.authority] at stands
      exact .inr ⟨entry, mem_set_free free' stands, same⟩
    · exact .inr ⟨work, mem_set_new free', rfl⟩
  · rw [History.step_state, failed] at failing
    cases failing

theorem admit_meets (work : Option Nat) (now : UInt64) :
    Runs memory i call (admitWork memory i work now) Accepting h := by
  refine call_meets fun k owning closed => ?_
  refine (fresh_meets now owning closed).bind ?_
  rintro current k₁ ⟨owning₁, closed₁, sound₁⟩
  refine meets_ite (fun _ => unfit_meets owning₁ closed₁) fun fresh => ?_
  have sound := sound₁ (by simpa using fresh)
  cases work with
  | none => exact ⟨owning₁, closed₁, .of_ne (by decide)⟩
  | some work =>
    refine (load_meets owning₁).bind ?_
    rintro clashes k₂ ⟨found, owning₂, outside₂⟩
    have closed₂ := closed₁.within outside₂.toWithin
    cases clashes with
    | some result =>
      refine ⟨owning₂, closed₂, .of_ne ?_⟩
      exact clash_ne_accepted found.symm
    | none =>
      refine (load_meets owning₂).bind ?_
      rintro a k₃ ⟨rfl, owning₃, outside₃⟩
      have closed₃ := closed₂.within outside₃.toWithin
      cases slots : k₃.state.authority.freeSlot with
      | none => exact ⟨owning₃, closed₃, .of_ne (by decide)⟩
      | some slot =>
        have free : k₃.state.authority.admissions[slot]? = some none := by
          simpa using List.find?_some slots
        have sound₃ : k₃.state.authority.failed = false := by
          rw [outside₃.authority, outside₂.authority]
          exact sound
        refine (held_bind_meets owning₃ (memory work) _).bind ?_
        rintro bound k₄ ⟨unbound, binding⟩
        cases bound with
        | false =>
          obtain ⟨owning₄, within₄⟩ := unbound rfl
          exact refused_meets owning₄ (closed₃.within within₄) _
        | true =>
          refine (register_meets (binding rfl) sound₃ free ?_).bind ?_
          · intro entry among
            rw [outside₃.authority] at among
            rw [outside₃.works, outside₃.works]
            exact clash_none found.symm among
          · rintro _ k₅ ⟨owning₅, closed₅, sound₅⟩
            exact ⟨owning₅, closed₅, fun _ => sound₅⟩

/-- A handle that a call may act on is one of the table. -/
theorem owns_meets (owning : Owning memory i h) (work : Option Nat) :
    Runs memory i call (owns memory work) (fun _ k => Owning memory i k ∧ Outside h k) h := by
  refine (load_meets owning).bind ?_
  rintro a k₁ ⟨_, owning₁, outside₁⟩
  cases work with
  | none => exact ⟨owning₁, outside₁⟩
  | some work =>
    refine meets_ite (fun _ => ⟨owning₁, outside₁⟩) fun _ => ?_
    refine (open_meets owning₁ epoch_does).bind ?_
    rintro _ k₂ ⟨_, owning₂, outside₂⟩
    exact ⟨owning₂, outside₁.trans outside₂⟩

/-- The part that `prepared` and `release` share. -/
theorem owned_meets {now : UInt64} {work : Option Nat}
    {p : Nat → Program AdmissionDomain AdmissionResult}
    (meets : ∀ work k, Owning memory i k → Closed memory k.state →
      k.state.authority.failed = false →
      Runs memory i call (p work) (Answers memory i) k) :
    Runs memory i call (locked i do
      let current ← fresh memory now
      if !current then unfit
      else do
        let owned ← owns memory work
        match owned with
        | none => pure .foreign
        | some work => p work) Accepting
      h := by
  refine call_meets fun k owning closed => ?_
  refine (fresh_meets now owning closed).bind ?_
  rintro current k₁ ⟨owning₁, closed₁, sound₁⟩
  refine meets_ite (fun _ => unfit_meets owning₁ closed₁) fun fresh => ?_
  have sound := sound₁ (by simpa using fresh)
  refine (owns_meets owning₁ work).bind ?_
  rintro owned k₂ ⟨owning₂, outside₂⟩
  have closed₂ := closed₁.within outside₂.toWithin
  cases owned with
  | none => exact ⟨owning₂, closed₂, .of_ne (by decide)⟩
  | some work => exact meets work k₂ owning₂ closed₂ (outside₂.authority ▸ sound)

theorem prepared_call_meets (work : Option Nat) (now : UInt64) :
    Runs memory i call (prepared memory i work now) Accepting h := by
  refine owned_meets fun work k owning closed sound => ?_
  refine (held_prepared_meets owning (memory work)).bind ?_
  rintro done_ k₁ ⟨owning₁, within₁⟩
  have closed₁ := closed.within within₁
  refine meets_ite (fun _ => ⟨owning₁, closed₁, fun _ => ?_⟩)
    fun _ => refused_meets owning₁ closed₁ _
  rw [within₁.authority]
  exact sound

theorem release_meets (work : Option Nat) (now deadlineCeiling : UInt64) :
    Runs memory i call (release memory i work now deadlineCeiling) Accepting h := by
  refine owned_meets fun work k owning closed sound => ?_
  refine (load_meets owning).bind ?_
  rintro a k₁ ⟨rfl, owning₁, outside₁⟩
  have closed₁ := closed.within outside₁.toWithin
  refine meets_ite (fun _ => ?_) fun _ => ?_
  · refine (open_meets owning₁ stop_does).bind ?_
    rintro _ k₂ ⟨_, owning₂, outside₂⟩
    exact ⟨owning₂, closed₁.within outside₂.toWithin, .of_ne (by decide)⟩
  have fits : (if deadlineCeiling < k₁.state.authority.deadline then deadlineCeiling
      else k₁.state.authority.deadline) ≤ k₁.state.authority.deadline := by
    by_cases lower : deadlineCeiling < k₁.state.authority.deadline
    · rw [if_pos lower]
      exact UInt64.le_of_lt lower
    · rw [if_neg lower]
      exact UInt64.le_refl _
  refine (held_publish_meets owning₁ (memory work) now fits).bind ?_
  rintro released k₂ ⟨owning₂, within₂⟩
  have closed₂ := closed₁.within within₂
  refine meets_ite (fun _ => ⟨owning₂, closed₂, fun _ => ?_⟩)
    fun _ => refused_meets owning₂ closed₂ _
  rw [within₂.authority, outside₁.authority]
  exact sound

theorem retire_meets (work : Option Nat) :
    Runs memory i call (retire memory i work) (fun _ _ => True) h := by
  refine locked_meets (fun k owning closed => ?_) fun _ _ _ _ _ => trivial
  cases work with
  | none => exact ⟨owning, closed, trivial⟩
  | some work =>
    refine (load_meets owning).bind ?_
    rintro a k₁ ⟨rfl, owning₁, outside₁⟩
    have closed₁ := closed.within outside₁.toWithin
    cases index : k₁.state.authority.admissions.idxOf? (some work) with
    | none => exact ⟨owning₁, closed₁, trivial⟩
    | some slot =>
      refine (open_meets owning₁ phase_does).bind ?_
      rintro phase k₂ ⟨found, owning₂, outside₂⟩
      have closed₂ := closed₁.within outside₂.toWithin
      refine meets_ite (fun _ => ⟨owning₂, closed₂, trivial⟩) fun stopped => ?_
      have isStopped : k₂.state.Stopped (memory work) := by
        apply phaseOf_stopped.mp
        rw [← found]
        simpa using stopped
      have there : k₂.state.authority.admissions[slot]? = some (some work) := by
        rw [outside₂.authority]
        exact idxOf?_found index
      refine meets_bind.mpr (modify_meets owning₂ ⟨rfl, fun _ => id, id, .inl rfl⟩ ?_ ?_ ?_)
      · intro k still outside s t x y first second same
        rcases set_found first with ⟨_, gone⟩ | first
        · cases gone
        rcases set_found second with ⟨_, gone⟩ | second
        · cases gone
        rw [← outside.authority] at first second
        exact still.kept.distinct s t x y first second same
      · intro k outside entry among
        by_cases same : entry = work
        · subst same
          exact .inl (outside.stopped _ isStopped)
        refine .inr ?_
        obtain ⟨position, at_⟩ := mem_iff_getElem?.mp among
        refine mem_iff_getElem?.mpr ⟨position, ?_⟩
        rw [List.getElem?_set_ne ?_, at_]
        rintro rfl
        rw [there] at at_
        cases at_
        exact same rfl
      · intro k₃ owning₃ authority₃ stopped₃
        refine ⟨owning₃, fun failed entry among => ?_, trivial⟩
        rw [authority₃] at failed among
        obtain ⟨position, at_⟩ := mem_iff_getElem?.mp among
        rcases set_found at_ with ⟨_, gone⟩ | stood
        · cases gone
        · exact stopped₃ _ (closed₂ failed entry (mem_of_getElem? stood))

theorem revoke_meets :
    Runs memory i call (revoke memory i) (fun _ _ => True) h := by
  refine locked_meets (fun k owning _ => (revokeLocked_meets owning).mono ?_) fun _ _ _ _ _ => trivial
  rintro _ l ⟨still, closed⟩
  exact ⟨still, closed, trivial⟩

theorem free_meets {p : Program Shared α} {post : α → Shared → Prop}
    (does : p.Does Shared.Valid OpenMove post (h.state.gates m)) :
    Runs memory i call (onGate m p) (fun a k => post a (k.state.gates m)) h := by
  have met : Runs memory i call (onGate m p) (fun a k => post a (k.state.gates m) ∧ True) h := by
    refine Program.Does.meets (fun d : AdmissionDomain => d.gates m) (fun g d => d.setGate m g)
      (fun _ => True) (fun _ _ => setGate_same _ _ _)
      (fun _ kept => AuthorityKept.words kept m) ?_ ?_ trivial rfl does
    · exact fun _ _ _ => trivial
    · exact fun _ _ _ _ moves => ⟨.gate m moves, trivial⟩
  exact met.mono fun _ _ done_ => done_.1

end Parts

/-! ## Every interleaving -/

/-- The calls that an authority accepts only while it has not failed. -/
def AuthorityCall.admits : AuthorityCall → Bool
  | .observe _ _ _ | .admitWork _ _ | .prepared _ _ | .release _ _ _ => true
  | .revoke | .retire _ | .stop _ | .claimEntry _ _ _ _ => false

structure AuthorityPost (memory : Nat → Nat) (i : Nat) (call : AuthorityCall) (begun : DomainHistory)
    (reply : AuthorityReply) (h : DomainHistory) : Prop where
  accepted : call.admits = true → reply = .result .accepted → h.state.authority.failed = false
  entered : ∀ work identity epoch now, call = .claimEntry work identity epoch now →
    reply = .entry .entered → (h.state.gates (memory work)).flags = 54

theorem authority_body_meets (memory : Nat → Nat) (i : Nat) (call : AuthorityCall)
    (h : DomainHistory) :
    (call.body memory i).Meets (AuthorityStep memory) (AuthorityKept memory) i call
      (AuthorityPost memory i call h) h := by
  have accepts {result : AdmissionResult} {k : DomainHistory} (accepting : Accepting result k)
      {call : AuthorityCall}
      (other : ∀ work identity epoch now, call ≠ .claimEntry work identity epoch now) :
      AuthorityPost memory i call h (.result result) k := by
    refine ⟨fun _ same => accepting ?_, fun work identity epoch now claims => ?_⟩
    · cases same
      rfl
    · exact absurd claims (other work identity epoch now)
  cases call with
  | observe epoch deadline now =>
    exact meets_bind.mpr ((observe_meets epoch deadline now).mono
      fun _ _ accepting => accepts accepting (by simp))
  | admitWork work now =>
    exact meets_bind.mpr ((admit_meets work now).mono
      fun _ _ accepting => accepts accepting (by simp))
  | prepared work now =>
    exact meets_bind.mpr ((prepared_call_meets work now).mono
      fun _ _ accepting => accepts accepting (by simp))
  | release work now ceiling =>
    exact meets_bind.mpr ((release_meets work now ceiling).mono
      fun _ _ accepting => accepts accepting (by simp))
  | revoke => exact meets_bind.mpr (revoke_meets.mono fun _ _ _ => ⟨by simp, by simp⟩)
  | retire work => exact (retire_meets work).bind fun _ _ _ => ⟨by simp [AuthorityCall.admits], by simp⟩
  | stop work => exact (free_meets stop_does).bind fun _ _ _ => ⟨by simp, by simp⟩
  | claimEntry work identity epoch now =>
    refine (free_meets (claimEntry_does identity epoch now)).bind ?_
    intro result k entered
    refine ⟨by simp, fun _ _ _ _ claims same => ?_⟩
    cases claims
    cases same
    exact entered rfl

/-- The pool after these turns, from a new authority over these gates. -/
def authorityRun (memory : Nat → Nat) (capacity : Nat) (gates : Nat → Shared)
    (turns : List (Turn AuthorityCall)) : Option (Pool AuthorityCall AdmissionDomain AuthorityReply) :=
  Pool.run (AuthorityCall.body memory) ⟨{ capacity }, gates⟩ turns

section Runs

variable {capacity : Nat} {gates : Nat → Shared} {turns earlier later : List (Turn AuthorityCall)}
  {p q : Pool AuthorityCall AdmissionDomain AuthorityReply}

theorem authorityKept_start (memory : Nat → Nat) (capacity : Nat)
    (valid : ∀ m, validWord (gates m).flags = true) :
    AuthorityKept memory ⟨⟨{ capacity }, gates⟩, []⟩ where
  words := fun m => mem_gateWords (valid m)
  quiet := by
    refine fun _ => ⟨?_, by simp [Closed]⟩
    rintro m ⟨a, among, _⟩
    cases among
  deadline := .inl rfl
  distinct := fun s _ x _ first => by
    have empty : (List.replicate kMaximumAdmissions none)[s]? = some (some x) := first
    rw [List.getElem?_replicate] at empty
    split at empty <;> cases empty
  released := by simp

theorem authorityRun_meets (valid : ∀ m, validWord (gates m).flags = true)
    (ran : authorityRun memory capacity gates turns = some p) :
    p.Meeting (AuthorityStep memory) (AuthorityKept memory) (AuthorityPost memory) :=
  Pool.run_meets (authorityKept_start memory capacity valid) (fun _ _ _ _ kept step => kept.step step)
    (fun i call h _ => authority_body_meets memory i call h) ran

/-- What every action keeps, the later turns of a run keep. -/
theorem authorityRun_later (valid : ∀ m, validWord (gates m).flags = true)
    (before : authorityRun memory capacity gates earlier = some q)
    (ran : authorityRun memory capacity gates (earlier ++ later) = some p)
    (stable : DomainHistory → Prop)
    (steps : ∀ h i call s, AuthorityKept memory h → AuthorityStep memory i call h s → stable h →
      stable (h.step i call s)) (held : stable q.history) : stable p.history := by
  obtain ⟨mid, first, rest⟩ := foldlM_append_some.mp ran
  cases first.symm.trans before
  exact ((authorityRun_meets valid before).later (fun _ _ _ _ kept step => kept.step step)
    (fun i call h _ => authority_body_meets memory i call h) stable steps held rest).2

end Runs

/-- The loss of an authority stops everything it admitted, for every interleaving of the
actions of any number of calls with any arguments and times. -/
theorem authority_loss_stops_all (memory : Nat → Nat) (capacity : Nat) (gates : Nat → Shared)
    (valid : ∀ m, validWord (gates m).flags = true) (turns : List (Turn AuthorityCall))
    {p : Pool AuthorityCall AdmissionDomain AuthorityReply}
    (ran : authorityRun memory capacity gates turns = some p) :
    (∀ earlier later q epoch, turns = earlier ++ later →
      authorityRun memory capacity gates earlier = some q →
      q.history.state.authority.epoch = some epoch → p.history.state.authority.epoch = some epoch) ∧
    (∀ earlier later q, turns = earlier ++ later →
      authorityRun memory capacity gates earlier = some q →
      q.history.state.authority.failed = true → p.history.state.authority.failed = true) ∧
    (∀ earlier later call q, turns = earlier ++ .start call :: later →
      authorityRun memory capacity gates earlier = some q →
      q.history.state.authority.failed = true → call.admits = true →
      ¬ p.Returned q.threads.length call (.result .accepted)) ∧
    (p.history.state.authority.mutex = none → p.history.state.authority.failed = true →
      ∀ m, BoundBy m p.history → p.history.state.Stopped m) ∧
    (∀ earlier later work identity epoch now q,
      turns = earlier ++ .start (.claimEntry work identity epoch now) :: later →
      authorityRun memory capacity gates earlier = some q →
      q.history.state.authority.mutex = none → q.history.state.authority.failed = true →
      BoundBy (memory work) q.history →
      ¬ p.Returned q.threads.length (.claimEntry work identity epoch now) (.entry .entered)) ∧
    (∀ a ∈ p.history.steps, ∀ m, (a.before.gates m).flags = 14 → (a.after.gates m).flags = 22 →
      (a.after.gates m).deadline ≤ a.before.authority.deadline ∧
        (a.before.authority.deadline = 0 ∨
          ∃ b ∈ p.history.steps, Leased b.call a.before.authority.deadline)) ∧
    Distinct memory p.history.state := by
  have meeting := authorityRun_meets valid ran
  have closed {q : Pool AuthorityCall AdmissionDomain AuthorityReply}
      (meeting : q.Meeting (AuthorityStep memory) (AuthorityKept memory) (AuthorityPost memory))
      (free : q.history.state.authority.mutex = none)
      (failed : q.history.state.authority.failed = true) (m : Nat) (bound : BoundBy m q.history) :
      q.history.state.Stopped m := by
    obtain ⟨settled, closed⟩ := meeting.history.quiet free
    rcases settled m bound with stopped | ⟨work, among, rfl⟩
    · exact stopped
    · exact closed failed work among
  refine ⟨?_, ?_, ?_, closed meeting, ?_, meeting.history.released, meeting.history.distinct⟩
  · rintro earlier later q epoch rfl before observed
    exact authorityRun_later valid before ran (fun h => h.state.authority.epoch = some epoch)
      (fun _ _ _ _ _ step same => step.authority.1 epoch same) observed
  · rintro earlier later q rfl before failed
    exact authorityRun_later valid before ran (fun h => h.state.authority.failed = true)
      (fun _ _ _ _ _ step same => step.authority.2.1 same) failed
  · rintro earlier later call q rfl before failed admits ⟨begun, found⟩
    obtain ⟨q', before', left, started⟩ := Pool.run_start ran
    cases before'.symm.trans before
    cases started.symm.trans found
    obtain ⟨h, post, _, reaches, _⟩ := meeting.returned found
    have still : h.state.authority.failed = true :=
      reaches.keeps (fun l => l.state.authority.failed = true)
        (fun _ _ _ _ step same => step.authority.2.1 same) failed
    rw [post.accepted admits rfl] at still
    cases still
  · rintro earlier later work identity epoch now q rfl before free failed bound ⟨begun, found⟩
    obtain ⟨q', before', left, started⟩ := Pool.run_start ran
    cases before'.symm.trans before
    cases started.symm.trans found
    have stopped := closed (authorityRun_meets valid before) free failed _ bound
    obtain ⟨h, post, _, reaches, _⟩ := meeting.returned found
    have still : AuthorityKept memory h ∧ h.state.Stopped (memory work) :=
      reaches.keeps (fun l => AuthorityKept memory l ∧ l.state.Stopped (memory work))
        (fun _ _ _ _ step held => ⟨held.1.step step, step.stopped held.1.words held.2⟩)
        ⟨(authorityRun_meets valid before).history, stopped⟩
    have unstopped := post.entered work identity epoch now rfl rfl
    rw [AdmissionDomain.Stopped, unstopped] at still
    exact absurd still.2 (by decide)

def reservedGates (m : Nat) : Shared := { work := ⟨7, UInt64.ofNat m⟩ }

/-- One call after the other: observed, one gate admitted, and revoked. -/
def revokedTurns : List (Turn AuthorityCall) :=
  Turn.start (AuthorityCall.observe sampleEpoch 2000 5) :: List.replicate 8 (Turn.run 0) ++
    Turn.start (AuthorityCall.admitWork (some 1) 6) :: List.replicate 14 (Turn.run 1) ++
    Turn.start AuthorityCall.revoke :: List.replicate 5 (Turn.run 2)

theorem revoked_turns_stop :
    (∀ m, validWord (reservedGates m).flags = true) ∧
      ∃ p, authorityRun id 64 reservedGates revokedTurns = some p ∧
        p.Returned 1 (.admitWork (some 1) 6) (.result .accepted) ∧
        p.history.state.authority.failed = true ∧ BoundBy 1 p.history ∧ p.history.state.Stopped 1 := by
  have valid : ∀ m, validWord (reservedGates m).flags = true := fun _ => by
    simp only [reservedGates]
    decide
  have revoked : ∃ p, authorityRun id 64 reservedGates revokedTurns = some p ∧
      p.Returned 1 (.admitWork (some 1) 6) (.result .accepted) ∧
      p.history.state.authority.mutex = none ∧ p.history.state.authority.failed = true ∧
      ∃ a, p.history.steps[7]? = some a ∧ (a.before.gates 1).flags = kBinding ∧
        (a.after.gates 1).flags = kBound :=
    ⟨_, rfl, ⟨_, rfl⟩, rfl, rfl, _, rfl, rfl, rfl⟩
  obtain ⟨p, ran, returned, free, failed, a, at_, source, target⟩ := revoked
  have bound : BoundBy 1 p.history := ⟨a, mem_of_getElem? at_, source, target⟩
  exact ⟨valid, p, ran, returned, failed, bound,
    (authority_loss_stops_all id 64 reservedGates valid revokedTurns ran).2.2.2.1 free failed 1 bound⟩

end Andrix.Native
