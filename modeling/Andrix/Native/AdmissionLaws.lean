import Andrix.Native.Admission
import Mathlib.Data.Bool.AllAny

/-! One gate under every interleaving. The word only rises, so each of its changes
happens once; the thread that claimed a binding or a publication is the only one
that may write the fields behind it, and whoever reads a published field reads the
value of the one call that published it. -/
namespace Andrix.Native
open Andrix.Lib Andrix.Lib.Program List

def gateWords : List UInt32 :=
  [0, 1, 2, 6, 14, 22, 54, 64, 65, 66, 70, 78, 86, 118]

theorem validWord_of_mem {word : UInt32} (among : word ∈ gateWords) : validWord word = true := by
  have all : ∀ word ∈ gateWords, validWord word = true := all_iff_forall_prop.mp (by decide)
  exact all word among

abbrev GateHistory := History GateCall Shared

/-- The thread changed the word from one value to another. -/
def Claimed (source target : UInt32) (i : Nat) (h : GateHistory) : Prop :=
  ∃ a ∈ h.steps, a.thread = i ∧ a.before.flags = source ∧ a.after.flags = target

/-- What one action of a call may do to a gate. -/
inductive GateStep (i : Nat) (call : GateCall) (h : GateHistory) : Shared → Prop
  | read : GateStep i call h h.state
  | stop : GateStep i call h { h.state with flags := h.state.flags ||| kStopped }
  | claimBinding : h.state.flags = 0 → GateStep i call h { h.state with flags := kBinding }
  | writeEpoch (epoch : AuthorityEpoch) :
    Claimed 0 kBinding i h → h.state.flags = 1 ∨ h.state.flags = 65 →
    GateStep i call h { h.state with epoch := epoch }
  | bound : Claimed 0 kBinding i h → h.state.flags = kBinding → call = .bind h.state.epoch →
    GateStep i call h { h.state with flags := kBound }
  | prepared : h.state.flags = kBound → call = .prepared →
    GateStep i call h { h.state with flags := kBound ||| kPrepared }
  | claimPublishing : h.state.flags = kBound ||| kPrepared →
    GateStep i call h { h.state with flags := kBound ||| kPrepared ||| kPublishing }
  | writeRelease (releasedAt deadline : UInt64) :
    Claimed 6 14 i h → h.state.flags = 14 ∨ h.state.flags = 78 →
    GateStep i call h { h.state with releasedAt := releasedAt, deadline := deadline }
  | released : Claimed 6 14 i h → h.state.flags = kBound ||| kPrepared ||| kPublishing →
    call = .publish h.state.releasedAt h.state.deadline →
    GateStep i call h { h.state with flags := kBound ||| kPrepared ||| kReleased }
  | entered {now : UInt64} : h.state.flags = kBound ||| kPrepared ||| kReleased →
    call = .claimEntry h.state.work h.state.epoch now → h.state.releasedAt ≤ now →
    now < h.state.deadline →
    GateStep i call h { h.state with flags := kBound ||| kPrepared ||| kReleased ||| kEntered }

def Shared.rank (s : Shared) : Nat := s.flags.toNat

/-- What every run keeps. -/
structure GateKept (work : WorkIdentity) (h : GateHistory) : Prop where
  word : h.state.flags ∈ gateWords
  rising : h.Rising Shared.rank
  work : h.state.work = work
  bound : has h.state.flags kBound = true → ∃ a ∈ h.steps, a.before.flags = kBinding ∧
    a.after.flags = kBound ∧ a.call = .bind h.state.epoch
  released : has h.state.flags kReleased = true → ∃ a ∈ h.steps, a.before.flags = 14 ∧
    a.after.flags = 22 ∧ a.call = .publish h.state.releasedAt h.state.deadline
  stopped : ∀ a ∈ h.steps, has a.after.flags kStopped = true → has h.state.flags kStopped = true

variable {i : Nat} {call : GateCall} {h k : GateHistory} {s : Shared} {owned : WorkIdentity}

/-! ## The word -/

/-- The changes of the word that a call makes with a compare and exchange. -/
def gateEdges : List (UInt32 × UInt32) :=
  [(0, 1), (1, 2), (2, 6), (6, 14), (14, 22), (22, 54)]

def WordStep (word next : UInt32) : Prop :=
  next = word ∨ next = word ||| kStopped ∨ (word, next) ∈ gateEdges

/-- What no change of the word takes back. -/
structure Raises (word next : UInt32) : Prop where
  valid : next ∈ gateWords
  rank : word.toNat ≤ next.toNat
  stopped : has word kStopped = true → has next kStopped = true
  bound : has word kBound = true → has next kBound = true
  released : has word kReleased = true → has next kReleased = true

theorem WordStep.raises {word next : UInt32} (step : WordStep word next)
    (among : word ∈ gateWords) : Raises word next := by
  have stops : ∀ word ∈ gateWords, word ||| kStopped ∈ gateWords ∧
      word.toNat ≤ (word ||| kStopped).toNat ∧
      (has word kStopped = true → has (word ||| kStopped) kStopped = true) ∧
      (has word kBound = true → has (word ||| kStopped) kBound = true) ∧
      (has word kReleased = true → has (word ||| kStopped) kReleased = true) :=
    all_iff_forall_prop.mp (by decide)
  have moves : ∀ edge ∈ gateEdges, edge.2 ∈ gateWords ∧ edge.1.toNat ≤ edge.2.toNat ∧
      (has edge.1 kStopped = true → has edge.2 kStopped = true) ∧
      (has edge.1 kBound = true → has edge.2 kBound = true) ∧
      (has edge.1 kReleased = true → has edge.2 kReleased = true) :=
    all_iff_forall_prop.mp (by decide)
  rcases step with rfl | rfl | edge
  · exact ⟨among, Nat.le_refl _, id, id, id⟩
  · obtain ⟨word, rank, stopped, bound, released⟩ := stops _ among
    exact ⟨word, rank, stopped, bound, released⟩
  · obtain ⟨word, rank, stopped, bound, released⟩ := moves _ edge
    exact ⟨word, rank, stopped, bound, released⟩

theorem GateStep.wordStep (step : GateStep i call h s) : WordStep h.state.flags s.flags := by
  cases step with
  | read | writeEpoch | writeRelease => exact .inl rfl
  | stop => exact .inr (.inl rfl)
  | claimBinding same | bound _ same _ | prepared same _ | claimPublishing same | released _ same _
  | entered same _ _ _ =>
    refine .inr (.inr ?_)
    rw [same]
    dsimp only
    decide

theorem GateStep.work (step : GateStep i call h s) : s.work = h.state.work := by
  cases step <;> rfl

/-- Only an unpublished epoch is written, and only by the thread that claimed it. -/
theorem GateStep.epoch (step : GateStep i call h s) : s.epoch = h.state.epoch ∨
    Claimed 0 kBinding i h ∧ (h.state.flags = 1 ∨ h.state.flags = 65) := by
  cases step with
  | writeEpoch epoch claimed word => exact .inr ⟨claimed, word⟩
  | read | stop | claimBinding | bound | prepared | claimPublishing | writeRelease | released
  | entered => exact .inl rfl

/-- Only unpublished times are written, and only by the thread that claimed them. -/
theorem GateStep.times (step : GateStep i call h s) :
    s.releasedAt = h.state.releasedAt ∧ s.deadline = h.state.deadline ∨
      Claimed 6 14 i h ∧ (h.state.flags = 14 ∨ h.state.flags = 78) := by
  cases step with
  | writeRelease releasedAt deadline claimed word => exact .inr ⟨claimed, word⟩
  | read | stop | claimBinding | bound | prepared | claimPublishing | writeEpoch | released
  | entered => exact .inl ⟨rfl, rfl⟩

/-- The epoch is published once: a bound gate stays bound to it. -/
theorem GateStep.keeps_bound (step : GateStep i call h s) (bound : has h.state.flags kBound = true) :
    s.epoch = h.state.epoch := by
  rcases step.epoch with same | ⟨_, word | word⟩
  · exact same
  · rw [word] at bound
    exact absurd bound (by decide)
  · rw [word] at bound
    exact absurd bound (by decide)

/-- The times of a release are published once. -/
theorem GateStep.keeps_released (step : GateStep i call h s)
    (released : has h.state.flags kReleased = true) :
    s.releasedAt = h.state.releasedAt ∧ s.deadline = h.state.deadline := by
  rcases step.times with same | ⟨_, word | word⟩
  · exact same
  · rw [word] at released
    exact absurd released (by decide)
  · rw [word] at released
    exact absurd released (by decide)

/-! ## The invariant -/

/-- A step that newly sets the bound bit is the binding of its own epoch. -/
theorem GateStep.binds (step : GateStep i call h s) (unbound : has h.state.flags kBound = false)
    (bound : has s.flags kBound = true) (among : h.state.flags ∈ gateWords) :
    h.state.flags = kBinding ∧ s.flags = kBound ∧ call = .bind s.epoch := by
  have stops : ∀ word ∈ gateWords, has word kBound = false → has (word ||| kStopped) kBound = false :=
    all_iff_forall_prop.mp (by decide)
  cases step with
  | bound _ word asked => exact ⟨word, rfl, asked⟩
  | stop =>
    rw [stops _ among unbound] at bound
    cases bound
  | read | writeEpoch | writeRelease =>
    rw [unbound] at bound
    cases bound
  | claimBinding =>
    dsimp only at bound
    exact absurd bound (by decide)
  | prepared word _ | claimPublishing word | released _ word _ | entered word _ _ _ =>
    rw [word] at unbound
    exact absurd unbound (by decide)

/-- A step that newly sets the released bit is the publication of its own times. -/
theorem GateStep.releases (step : GateStep i call h s)
    (unreleased : has h.state.flags kReleased = false) (released : has s.flags kReleased = true)
    (among : h.state.flags ∈ gateWords) :
    h.state.flags = 14 ∧ s.flags = 22 ∧ call = .publish s.releasedAt s.deadline := by
  have stops : ∀ word ∈ gateWords, has word kReleased = false →
      has (word ||| kStopped) kReleased = false := all_iff_forall_prop.mp (by decide)
  cases step with
  | released _ word asked => exact ⟨word, rfl, asked⟩
  | stop =>
    rw [stops _ among unreleased] at released
    cases released
  | read | writeEpoch | writeRelease =>
    rw [unreleased] at released
    cases released
  | claimBinding | bound | prepared | claimPublishing =>
    dsimp only at released
    exact absurd released (by decide)
  | entered word _ _ _ =>
    rw [word] at unreleased
    exact absurd unreleased (by decide)

theorem GateKept.step (kept : GateKept owned h) (step : GateStep i call h s) :
    GateKept owned (h.step i call s) := by
  have raises := step.wordStep.raises kept.word
  refine ⟨raises.valid, kept.rising.step raises.rank, step.work.trans kept.work, ?_, ?_, ?_⟩
  · intro bound
    by_cases before : has h.state.flags kBound = true
    · obtain ⟨a, among, source, target, asked⟩ := kept.bound before
      refine ⟨a, mem_cons_of_mem _ among, source, target, ?_⟩
      rw [asked, History.step_state, step.keeps_bound before]
    · obtain ⟨source, target, asked⟩ := step.binds (by simpa using before) bound kept.word
      exact ⟨_, mem_cons_self, source, target, asked⟩
  · intro released
    by_cases before : has h.state.flags kReleased = true
    · obtain ⟨a, among, source, target, asked⟩ := kept.released before
      obtain ⟨releasedAt, deadline⟩ := step.keeps_released before
      refine ⟨a, mem_cons_of_mem _ among, source, target, ?_⟩
      rw [asked, History.step_state, releasedAt, deadline]
    · obtain ⟨source, target, asked⟩ := step.releases (by simpa using before) released kept.word
      exact ⟨_, mem_cons_self, source, target, asked⟩
  · intro a among stopped
    rcases mem_cons.mp among with rfl | old
    · exact stopped
    · exact raises.stopped (kept.stopped a old stopped)

theorem GateKept.others (kept : GateKept owned h) (others : Others GateStep i h k) :
    GateKept owned k :=
  others.keeps (GateKept owned) (fun _ _ _ _ _ step kept => kept.step step) kept

/-! ## What a thread can rely on -/

theorem Claimed.step {source target : UInt32} {j : Nat} (claimed : Claimed source target i h) :
    Claimed source target i (h.step j call s) := by
  obtain ⟨a, among, facts⟩ := claimed
  exact ⟨a, mem_cons_of_mem _ among, facts⟩

/-- A change of the word is made by one thread. -/
theorem GateKept.claimed_once (kept : GateKept owned h) {source target : UInt32} {j : Nat}
    (raises : source.toNat < target.toNat) (mine : Claimed source target i h)
    (theirs : Claimed source target j h) : i = j := by
  obtain ⟨a, first, rfl, left, made⟩ := mine
  obtain ⟨b, second, rfl, left', made'⟩ := theirs
  have same : a = b := by
    apply kept.rising.once first second
    · rw [Shared.rank, Shared.rank, left, made]
      exact raises
    · rw [Shared.rank, Shared.rank, left', made']
      exact raises
    · rw [Shared.rank, Shared.rank, left, left']
  rw [same]

/-- While a binding is claimed only its thread goes on with it; a stop may come in. -/
theorem GateStep.binding (step : GateStep i call h s)
    (word : h.state.flags = 1 ∨ h.state.flags = 65) :
    (s.flags = 1 ∨ s.flags = 65) ∧ s.epoch = h.state.epoch ∨ Claimed 0 kBinding i h := by
  have other {expected : UInt32} (same : h.state.flags = expected) (apart : 1 ≠ expected)
      (apart' : 65 ≠ expected) : False := by
    rcases word with word | word
    · exact apart (word.symm.trans same)
    · exact apart' (word.symm.trans same)
  cases step with
  | read | writeRelease releasedAt deadline _ _ => exact .inl ⟨word, rfl⟩
  | stop =>
    refine .inl ⟨.inr ?_, rfl⟩
    rcases word with word | word <;> rw [word] <;> rfl
  | writeEpoch epoch claimed _ | bound claimed _ _ => exact .inr claimed
  | claimBinding same | prepared same _ | claimPublishing same | released _ same _
  | entered same _ _ _ => exact (other same (by decide) (by decide)).elim

/-- While a publication is claimed only its thread goes on with it. -/
theorem GateStep.publishing (step : GateStep i call h s)
    (word : h.state.flags = 14 ∨ h.state.flags = 78) :
    (s.flags = 14 ∨ s.flags = 78) ∧ s.releasedAt = h.state.releasedAt ∧
      s.deadline = h.state.deadline ∨ Claimed 6 14 i h := by
  have other {expected : UInt32} (same : h.state.flags = expected) (apart : 14 ≠ expected)
      (apart' : 78 ≠ expected) : False := by
    rcases word with word | word
    · exact apart (word.symm.trans same)
    · exact apart' (word.symm.trans same)
  cases step with
  | read | writeEpoch epoch _ _ => exact .inl ⟨word, rfl, rfl⟩
  | stop =>
    refine .inl ⟨.inr ?_, rfl, rfl⟩
    rcases word with word | word <;> rw [word] <;> rfl
  | writeRelease releasedAt deadline claimed _ | released claimed _ _ => exact .inr claimed
  | claimBinding same | bound _ same _ | prepared same _ | claimPublishing same
  | entered same _ _ _ => exact (other same (by decide) (by decide)).elim

/-- The thread that claimed a binding finds its own writes. -/
theorem GateKept.binding_stable (kept : GateKept owned h) (others : Others GateStep i h k)
    (claimed : Claimed 0 kBinding i h) (word : h.state.flags = 1 ∨ h.state.flags = 65) :
    Claimed 0 kBinding i k ∧ (k.state.flags = 1 ∨ k.state.flags = 65) ∧
      k.state.epoch = h.state.epoch := by
  refine (others.keeps_kept (GateKept owned) (fun _ _ _ _ kept step => kept.step step) kept
    (fun l => Claimed 0 kBinding i l ∧ (l.state.flags = 1 ∨ l.state.flags = 65) ∧
      l.state.epoch = h.state.epoch) ?_ ⟨claimed, word, rfl⟩).2
  rintro l j call s other kept step ⟨claimed, word, epoch⟩
  rcases step.binding word with ⟨next, same⟩ | theirs
  · exact ⟨claimed.step, next, same.trans epoch⟩
  · exact absurd (kept.claimed_once (by decide) theirs claimed) other

theorem GateKept.publishing_stable (kept : GateKept owned h) (others : Others GateStep i h k)
    (claimed : Claimed 6 14 i h) (word : h.state.flags = 14 ∨ h.state.flags = 78) :
    Claimed 6 14 i k ∧ (k.state.flags = 14 ∨ k.state.flags = 78) ∧
      k.state.releasedAt = h.state.releasedAt ∧ k.state.deadline = h.state.deadline := by
  refine (others.keeps_kept (GateKept owned) (fun _ _ _ _ kept step => kept.step step) kept
    (fun l => Claimed 6 14 i l ∧ (l.state.flags = 14 ∨ l.state.flags = 78) ∧
      l.state.releasedAt = h.state.releasedAt ∧ l.state.deadline = h.state.deadline) ?_
    ⟨claimed, word, rfl, rfl⟩).2
  rintro l j call s other kept step ⟨claimed, word, releasedAt, deadline⟩
  rcases step.publishing word with ⟨next, same, same'⟩ | theirs
  · exact ⟨claimed.step, next, same.trans releasedAt, same'.trans deadline⟩
  · exact absurd (kept.claimed_once (by decide) theirs claimed) other

/-- What is published stays as it was published. -/
structure Published (h k : GateHistory) : Prop where
  stopped : has h.state.flags kStopped = true → has k.state.flags kStopped = true
  bound : has h.state.flags kBound = true →
    has k.state.flags kBound = true ∧ k.state.epoch = h.state.epoch
  released : has h.state.flags kReleased = true → has k.state.flags kReleased = true ∧
    k.state.releasedAt = h.state.releasedAt ∧ k.state.deadline = h.state.deadline

theorem Published.refl (h : GateHistory) : Published h h :=
  ⟨id, fun bound => ⟨bound, rfl⟩, fun released => ⟨released, rfl, rfl⟩⟩

theorem Published.step (published : Published h k) (kept : GateKept owned k)
    (step : GateStep i call k s) : Published h (k.step i call s) := by
  have raises := step.wordStep.raises kept.word
  refine ⟨fun stopped => raises.stopped (published.stopped stopped), fun bound => ?_,
    fun released => ?_⟩
  · obtain ⟨still, epoch⟩ := published.bound bound
    exact ⟨raises.bound still, (step.keeps_bound still).trans epoch⟩
  · obtain ⟨still, releasedAt, deadline⟩ := published.released released
    obtain ⟨same, same'⟩ := step.keeps_released still
    exact ⟨raises.released still, same.trans releasedAt, same'.trans deadline⟩

theorem Published.others {h l : GateHistory} (published : Published h l)
    (kept : GateKept owned l) (others : Others GateStep i l k) : Published h k :=
  (others.keeps_kept (GateKept owned) (fun _ _ _ _ kept step => kept.step step) kept
    (Published h) (fun _ _ _ _ _ kept step published => published.step kept step) published).2

/-! ## The calls -/

section Calls

variable {α β : Type} {post : α → GateHistory → Prop}

theorem gate_load {read : Shared → α}
    (reads : ∀ k, GateKept owned k → Others GateStep i h k →
      post (read k.state) (k.step i call k.state)) :
    (Program.load read).Meets GateStep (GateKept owned) i call post h :=
  meets_load.mpr fun k others kept => ⟨.read, reads k kept others⟩

theorem gate_compareExchange {expected desired : UInt32} {post : Bool × UInt32 → GateHistory → Prop}
    (hits : ∀ k, GateKept owned k → Others GateStep i h k → k.state.flags = expected →
      GateStep i call k { k.state with flags := desired } ∧
        post (true, expected) (k.step i call { k.state with flags := desired }))
    (misses : ∀ k, GateKept owned k → Others GateStep i h k → k.state.flags ≠ expected →
      post (false, k.state.flags) (k.step i call k.state)) :
    (WorkAdmission.compareExchange expected desired).Meets GateStep (GateKept owned) i call post h := by
  refine meets_atomic.mpr fun k others kept => ?_
  by_cases hit : k.state.flags = expected
  · simp only [if_pos hit]
    exact hits k kept others hit
  · simp only [if_neg hit]
    exact ⟨.read, misses k kept others hit⟩

theorem stop_meets (h : GateHistory) :
    WorkAdmission.stop.Meets GateStep (GateKept owned) i call
      (fun _ k => has k.state.flags kStopped = true) h := by
  refine meets_atomic.mpr fun k _ kept => ⟨.stop, ?_⟩
  have all : ∀ word ∈ gateWords, has (word ||| kStopped) kStopped = true :=
    all_iff_forall_prop.mp (by decide)
  exact all _ kept.word

theorem bind_meets (epoch : AuthorityEpoch) (h : GateHistory) :
    (WorkAdmission.bind epoch).Meets GateStep (GateKept owned) i (.bind epoch) (fun _ _ => True) h := by
  refine meets_bind.mpr (gate_compareExchange (fun k kept _ zero => ?_) fun _ _ _ _ => trivial)
  have step : GateStep i (.bind epoch) k { k.state with flags := kBinding } := .claimBinding zero
  have claimed : Claimed 0 kBinding i (k.step i (.bind epoch) { k.state with flags := kBinding }) :=
    ⟨_, mem_cons_self, rfl, zero, rfl⟩
  refine ⟨step, ?_⟩
  -- The three words of the epoch, each found again by the next action.
  refine meets_bind.mpr (meets_store.mpr fun k₁ others₁ kept₁ => ?_)
  obtain ⟨claimed₁, word₁, _⟩ := (kept.step step).binding_stable others₁ claimed (.inl rfl)
  refine ⟨.writeEpoch _ claimed₁ word₁, ?_⟩
  refine meets_bind.mpr (meets_store.mpr fun k₂ others₂ kept₂ => ?_)
  obtain ⟨claimed₂, word₂, epoch₂⟩ :=
    (kept₁.step (.writeEpoch _ claimed₁ word₁)).binding_stable others₂ claimed₁.step word₁
  refine ⟨.writeEpoch _ claimed₂ word₂, ?_⟩
  refine meets_bind.mpr (meets_store.mpr fun k₃ others₃ kept₃ => ?_)
  obtain ⟨claimed₃, word₃, epoch₃⟩ :=
    (kept₂.step (.writeEpoch _ claimed₂ word₂)).binding_stable others₃ claimed₂.step word₂
  refine ⟨.writeEpoch _ claimed₃ word₃, ?_⟩
  refine meets_bind.mpr (gate_compareExchange (fun k₄ kept₄ others₄ word => ?_)
    fun _ _ _ _ => trivial)
  obtain ⟨claimed₄, _, epoch₄⟩ :=
    (kept₃.step (.writeEpoch _ claimed₃ word₃)).binding_stable others₄ claimed₃.step word₃
  refine ⟨.bound claimed₄ word ?_, trivial⟩
  rw [epoch₄]
  simp [epoch₃, epoch₂]

theorem prepared_meets (h : GateHistory) :
    WorkAdmission.prepared.Meets GateStep (GateKept owned) i .prepared (fun _ _ => True) h :=
  meets_bind.mpr (gate_compareExchange (fun _ _ _ word => ⟨.prepared word rfl, trivial⟩)
    fun _ _ _ _ => trivial)

theorem publish_meets (now deadline : UInt64) (h : GateHistory) :
    (WorkAdmission.publish now deadline).Meets GateStep (GateKept owned) i (.publish now deadline)
      (fun released k => released = true → Claimed 14 22 i k) h := by
  refine meets_bind.mpr (gate_compareExchange (fun k kept _ word => ?_)
    fun _ _ _ _ => meets_pure.mpr (by simp))
  have step : GateStep i (.publish now deadline) k
      { k.state with flags := kBound ||| kPrepared ||| kPublishing } := .claimPublishing word
  have claimed : Claimed 6 14 i (k.step i (.publish now deadline)
      { k.state with flags := kBound ||| kPrepared ||| kPublishing }) :=
    ⟨_, mem_cons_self, rfl, word, rfl⟩
  refine ⟨step, ?_⟩
  refine meets_bind.mpr (meets_store.mpr fun k₁ others₁ kept₁ => ?_)
  obtain ⟨claimed₁, word₁, _⟩ := (kept.step step).publishing_stable others₁ claimed (.inl rfl)
  refine ⟨.writeRelease now k₁.state.deadline claimed₁ word₁, ?_⟩
  refine meets_bind.mpr (meets_store.mpr fun k₂ others₂ kept₂ => ?_)
  obtain ⟨claimed₂, word₂, releasedAt₂, _⟩ :=
    (kept₁.step (.writeRelease now k₁.state.deadline claimed₁ word₁)).publishing_stable others₂
      claimed₁.step word₁
  refine ⟨.writeRelease k₂.state.releasedAt deadline claimed₂ word₂, ?_⟩
  refine meets_bind.mpr (gate_compareExchange (fun k₃ kept₃ others₃ word => ?_)
    fun _ _ _ _ => meets_pure.mpr (by simp))
  obtain ⟨claimed₃, _, releasedAt₃, deadline₃⟩ :=
    (kept₂.step (.writeRelease k₂.state.releasedAt deadline claimed₂ word₂)).publishing_stable
      others₃ claimed₂.step word₂
  refine ⟨.released claimed₃ word ?_, fun _ => ⟨_, mem_cons_self, rfl, word, rfl⟩⟩
  rw [releasedAt₃, deadline₃]
  simp [releasedAt₂]

theorem readEpoch_meets (kept : GateKept owned h) (bound : has h.state.flags kBound = true) :
    WorkAdmission.readEpoch.Meets GateStep (GateKept owned) i call
      (fun epoch k => epoch = h.state.epoch ∧ GateKept owned k ∧ Published h k) h := by
  have reads {l k : GateHistory} (kept : GateKept owned l) (published : Published h l)
      (others : Others GateStep i l k) : Published h (k.step i call k.state) :=
    (published.others kept others).step (kept.others others) .read
  refine meets_bind.mpr (gate_load fun k₁ kept₁ others₁ => ?_)
  have first := reads kept (.refl h) others₁
  refine meets_bind.mpr (gate_load fun k₂ kept₂ others₂ => ?_)
  have second := reads (kept₁.step .read) first others₂
  refine meets_bind.mpr (gate_load fun k₃ kept₃ others₃ => ?_)
  have third := reads (kept₂.step .read) second others₃
  refine ⟨?_, kept₃.step .read, third⟩
  have same₁ := (first.bound bound).2
  have same₂ := (second.bound bound).2
  have same₃ := (third.bound bound).2
  simp only [History.step_state] at same₁ same₂ same₃
  rw [same₁, same₂, same₃]

/-- The thread took the entry, and the gate shows this work, this epoch and a release
that this time is within. -/
structure Enters (i : Nat) (work : WorkIdentity) (epoch : AuthorityEpoch) (now : UInt64)
    (h : GateHistory) : Prop where
  claimed : Claimed 22 54 i h
  published : has h.state.flags kBound = true ∧ has h.state.flags kReleased = true
  work : h.state.work = work
  epoch : h.state.epoch = epoch
  after : h.state.releasedAt ≤ now
  before : now < h.state.deadline

theorem claimable_word {word : UInt32} (among : word ∈ gateWords)
    (unstopped : has word kStopped = false) (unentered : has word kEntered = false)
    (released : has word kReleased = true) : word = 22 := by
  have all : ∀ word ∈ gateWords, has word kStopped = false → has word kEntered = false →
      has word kReleased = true → word = 22 := all_iff_forall_prop.mp (by decide)
  exact all word among unstopped unentered released

theorem claimEntry_meets (work : WorkIdentity) (epoch : AuthorityEpoch) (now : UInt64)
    (begun : GateKept owned h) :
    (WorkAdmission.claimEntry work epoch now).Meets GateStep (GateKept owned) i
      (.claimEntry work epoch now)
      (fun result k => result = .entered →
        Enters i work epoch now k ∧ has h.state.flags kStopped = false) h := by
  have never {result : EntryResult} {k : GateHistory} (other : result ≠ .entered) :
      result = .entered → Enters i work epoch now k ∧ has h.state.flags kStopped = false :=
    fun same => absurd same other
  refine meets_bind.mpr (gate_load fun k₀ kept₀ others₀ => ?_)
  refine meets_ite (fun _ => never (by decide)) fun own => ?_
  have start : Published h (k₀.step i (.claimEntry work epoch now) k₀.state) :=
    ((Published.refl h).others begun others₀).step kept₀ .read
  refine meets_bind.mpr (gate_load fun k₁ kept₁ others₁ => ?_)
  have published := start.others (kept₀.step .read) others₁
  refine meets_ite (fun _ => ?_) fun bound => ?_
  · by_cases stopped : has k₁.state.flags kStopped = true
    · rw [if_pos stopped]
      exact never (by decide)
    · rw [if_neg stopped]
      exact never (by decide)
  have isBound : has k₁.state.flags kBound = true := by simpa using bound
  refine meets_bind.mpr (Program.Meets.mono (readEpoch_meets (kept₁.step .read) isBound) ?_)
  rintro read k₂ ⟨rfl, kept₂, published₂⟩
  refine meets_ite (fun _ => never (by decide)) fun sameEpoch => ?_
  refine meets_ite (fun _ => never (by decide)) fun unstopped => ?_
  refine meets_ite (fun _ => never (by decide)) fun unentered => ?_
  refine meets_ite (fun _ => never (by decide)) fun released => ?_
  have word : k₁.state.flags = 22 :=
    claimable_word kept₁.word (by simpa using unstopped) (by simpa using unentered)
      (by simpa using released)
  have isReleased : has k₁.state.flags kReleased = true := by simpa using released
  refine meets_bind.mpr (gate_load fun k₃ kept₃ others₃ => ?_)
  have published₃ : Published (k₁.step i (.claimEntry work epoch now) k₁.state)
      (k₃.step i (.claimEntry work epoch now) k₃.state) :=
    (published₂.others kept₂ others₃).step kept₃ .read
  refine meets_bind.mpr (gate_load fun k₄ kept₄ others₄ => ?_)
  have published₄ : Published (k₁.step i (.claimEntry work epoch now) k₁.state)
      (k₄.step i (.claimEntry work epoch now) k₄.state) :=
    (published₃.others (kept₃.step .read) others₄).step kept₄ .read
  refine meets_ite (fun _ => ?_) fun inTime => ?_
  · refine meets_bind.mpr (Program.Meets.mono (stop_meets _) fun _ _ _ => ?_)
    exact never (by decide)
  rw [not_or, UInt64.not_lt, ge_iff_le, UInt64.not_le] at inTime
  refine meets_bind.mpr (gate_compareExchange (fun k₅ kept₅ others₅ same => ?_) ?_)
  · -- The word is the one that was read, so what it published is what was compared.
    have published₅ := published₄.others (kept₄.step .read) others₅
    have sameEpoch₅ := (published₅.bound isBound).2
    have times₃ := (published₃.released isReleased).2
    have times₄ := (published₄.released isReleased).2
    have times₅ := (published₅.released isReleased).2
    simp only [History.step_state] at sameEpoch₅ times₃ times₄ times₅ sameEpoch inTime
    have ownWork : k₅.state.work = work := by
      rw [kept₅.work, ← kept₀.work]
      simpa using own
    have ownEpoch : k₅.state.epoch = epoch := sameEpoch₅.trans (by simpa using sameEpoch)
    have after : k₅.state.releasedAt ≤ now := by
      rw [times₅.1, ← times₃.1]
      exact inTime.1
    have before : now < k₅.state.deadline := by
      rw [times₅.2, ← times₄.2]
      exact inTime.2
    have unstopped₀ : has h.state.flags kStopped = false := by
      by_contra stopped
      exact unstopped (published.stopped (by simpa using stopped))
    rw [word] at same ⊢
    refine ⟨.entered same (by rw [ownWork, ownEpoch]) after before, fun _ => ⟨?_, unstopped₀⟩⟩
    have shown : has (22 ||| kEntered) kBound = true ∧ has (22 ||| kEntered) kReleased = true := by
      decide
    exact ⟨⟨_, mem_cons_self, rfl, same, rfl⟩, shown, ownWork, ownEpoch, after, before⟩
  · intro k₅ _ _ _
    by_cases stopped : has k₅.state.flags kStopped = true
    · simp only [Bool.false_eq_true, if_false, if_pos stopped]
      exact never (by decide)
    · simp only [Bool.false_eq_true, if_false, if_neg stopped]
      exact never (by decide)

end Calls

/-- What a call that returned has done. -/
structure GatePost (i : Nat) (call : GateCall) (begun : GateHistory) (reply : GateReply)
    (h : GateHistory) : Prop where
  stops : call = .stop → has h.state.flags kStopped = true
  publishes : ∀ now deadline, call = .publish now deadline → reply = .flag true → Claimed 14 22 i h
  enters : ∀ work epoch now, call = .claimEntry work epoch now → reply = .entry .entered →
    Enters i work epoch now h ∧ has begun.state.flags kStopped = false
  returns : reply = .entry .entered → ∃ work epoch now, call = .claimEntry work epoch now

theorem body_meets (i : Nat) (call : GateCall) (h : GateHistory) (kept : GateKept owned h) :
    (call.body i).Meets GateStep (GateKept owned) i call (GatePost i call h) h := by
  cases call with
  | bind epoch =>
    refine (bind_meets epoch h).bind fun _ _ _ => ?_
    exact ⟨by simp, by simp, by simp, by simp⟩
  | prepared =>
    refine (prepared_meets h).bind fun _ _ _ => ?_
    exact ⟨by simp, by simp, by simp, by simp⟩
  | publish now deadline =>
    refine (publish_meets now deadline h).bind fun released k claimed => ?_
    refine ⟨by simp, fun _ _ _ same => claimed ?_, by simp, by simp⟩
    cases same
    rfl
  | stop =>
    refine (stop_meets h).bind fun _ _ stopped => ?_
    exact ⟨fun _ => stopped, by simp, by simp, by simp⟩
  | claimEntry work epoch now =>
    refine (claimEntry_meets work epoch now kept).bind ?_
    intro result k enters
    refine ⟨by simp, by simp, fun _ _ _ asked same => ?_, fun _ => ⟨work, epoch, now, rfl⟩⟩
    cases asked
    cases same
    exact enters rfl

/-! ## Every interleaving of the calls on a gate -/

/-- The pool after these turns on a gate reserved for the work. -/
def gateRun (work : WorkIdentity) (turns : List (Turn GateCall)) :
    Option (Pool GateCall Shared GateReply) :=
  Pool.run GateCall.body { work } turns

theorem gateKept_start (work : WorkIdentity) : GateKept work ⟨{ work }, []⟩ where
  word := mem_cons_self
  rising := History.rising_nil _
  work := rfl
  bound := fun bound => absurd (show has 0 kBound = true from bound) (by decide)
  released := fun released => absurd (show has 0 kReleased = true from released) (by decide)
  stopped := by simp

theorem gateRun_meets {work : WorkIdentity} {turns : List (Turn GateCall)}
    {p : Pool GateCall Shared GateReply} (ran : gateRun work turns = some p) :
    p.Meeting GateStep (GateKept work) GatePost :=
  Pool.run_meets (gateKept_start work) (fun _ _ _ _ kept step => kept.step step)
    (fun i call h kept => body_meets i call h kept) ran

/-- The later turns of a run take nothing back. -/
theorem gateRun_published {work : WorkIdentity} {earlier later : List (Turn GateCall)}
    {q p : Pool GateCall Shared GateReply} (first : gateRun work earlier = some q)
    (ran : gateRun work (earlier ++ later) = some p) : Published q.history p.history := by
  obtain ⟨mid, before, rest⟩ := foldlM_append_some.mp ran
  cases before.symm.trans first
  exact ((gateRun_meets first).later (fun _ _ _ _ kept step => kept.step step)
    (fun i call h kept => body_meets i call h kept) (Published q.history)
    (fun _ _ _ _ kept step published => published.step kept step) (.refl _) rest).2

/-- What the entry of a claim rests on: the gate's work, the epoch that one binding
published and the times that one release published. -/
structure Admitted (h : GateHistory) (work : WorkIdentity) (epoch : AuthorityEpoch) (now : UInt64) :
    Prop where
  work : h.state.work = work
  bound : ∃ a ∈ h.steps, a.before.flags = kBinding ∧ a.after.flags = kBound ∧ a.call = .bind epoch ∧
    ∀ i, Claimed kBinding kBound i h → i = a.thread
  released : ∃ a ∈ h.steps, ∃ releasedAt deadline, a.before.flags = 14 ∧ a.after.flags = 22 ∧
    a.call = .publish releasedAt deadline ∧ releasedAt ≤ now ∧ now < deadline ∧
    ∀ i, Claimed 14 22 i h → i = a.thread

theorem GateKept.admitted (kept : GateKept owned h) {work : WorkIdentity} {epoch : AuthorityEpoch}
    {now : UInt64} (published : has h.state.flags kBound = true ∧ has h.state.flags kReleased = true)
    (sameWork : h.state.work = work) (sameEpoch : h.state.epoch = epoch)
    (after : h.state.releasedAt ≤ now) (before : now < h.state.deadline) :
    Admitted h work epoch now := by
  refine ⟨sameWork, ?_, ?_⟩
  · obtain ⟨a, among, source, target, asked⟩ := kept.bound published.1
    refine ⟨a, among, source, target, sameEpoch ▸ asked, fun i claimed => ?_⟩
    exact kept.claimed_once (by decide) claimed ⟨a, among, rfl, source, target⟩
  · obtain ⟨a, among, source, target, asked⟩ := kept.released published.2
    refine ⟨a, among, _, _, source, target, asked, after, before, fun i claimed => ?_⟩
    exact kept.claimed_once (by decide) claimed ⟨a, among, rfl, source, target⟩

theorem gateRun_enters {work : WorkIdentity} {turns : List (Turn GateCall)}
    {p : Pool GateCall Shared GateReply} (ran : gateRun work turns = some p) {i : Nat}
    {call : GateCall} {begun : GateHistory}
    (found : p.threads[i]? = some ⟨call, begun, .done (.entry .entered)⟩) :
    ∃ claimedWork epoch now, call = .claimEntry claimedWork epoch now ∧
      Enters i claimedWork epoch now p.history ∧ has begun.state.flags kStopped = false := by
  obtain ⟨h, post, kept, _, others⟩ := (gateRun_meets ran).returned found
  obtain ⟨claimedWork, epoch, now, asked⟩ := post.returns rfl
  obtain ⟨enters, unstopped⟩ := post.enters _ _ _ asked rfl
  have published := (Published.refl h).others kept others
  have final := kept.others others
  obtain ⟨bound, sameEpoch⟩ := published.bound enters.published.1
  obtain ⟨released, releasedAt, deadline⟩ := published.released enters.published.2
  refine ⟨claimedWork, epoch, now, asked, ⟨?_, ⟨bound, released⟩, ?_, sameEpoch.trans enters.epoch,
    releasedAt ▸ enters.after, deadline ▸ enters.before⟩, unstopped⟩
  · exact others.keeps (Claimed 22 54 i) (fun _ _ _ _ _ _ claimed => claimed.step) enters.claimed
  · rw [final.work, ← kept.work]
    exact enters.work

/-- At most one entry through a gate and none after a stop, for every interleaving of
the shared accesses of any number of calls. -/
theorem one_entry_through_a_gate {work : WorkIdentity} {turns : List (Turn GateCall)}
    {p : Pool GateCall Shared GateReply} (ran : gateRun work turns = some p) :
    validWord p.history.state.flags = true ∧
    (∀ i j call call', p.Returned i call (.entry .entered) →
      p.Returned j call' (.entry .entered) → i = j) ∧
    (∀ earlier later call q j first, turns = earlier ++ .start call :: later →
      gateRun work earlier = some q → q.Returned j .stop first →
        ¬ p.Returned q.threads.length call (.entry .entered)) ∧
    (∀ i claimedWork epoch now, p.Returned i (.claimEntry claimedWork epoch now) (.entry .entered) →
      Admitted p.history claimedWork epoch now) ∧
    (∀ i now deadline, p.Returned i (.publish now deadline) (.flag true) →
      Claimed 14 22 i p.history) ∧
    ∀ earlier later q, turns = earlier ++ later → gateRun work earlier = some q →
      has q.history.state.flags kStopped = true → has p.history.state.flags kStopped = true := by
  have meeting := gateRun_meets ran
  refine ⟨validWord_of_mem meeting.history.word, ?_, ?_, ?_, ?_, ?_⟩
  · rintro i j call call' ⟨_, mine⟩ ⟨_, theirs⟩
    obtain ⟨_, _, _, _, enters, _⟩ := gateRun_enters ran mine
    obtain ⟨_, _, _, _, enters', _⟩ := gateRun_enters ran theirs
    exact meeting.history.claimed_once (by decide) enters.claimed enters'.claimed
  · rintro earlier later call q j first rfl before ⟨_, stopped⟩ ⟨begun, found⟩
    obtain ⟨q', before', left, started⟩ := Pool.run_start ran
    cases before'.symm.trans before
    obtain ⟨h, post, kept, _, others⟩ := (gateRun_meets before).returned stopped
    have still := ((Published.refl h).others kept others).stopped (post.stops rfl)
    obtain ⟨_, _, _, _, _, unstopped⟩ := gateRun_enters ran found
    cases started.symm.trans found
    rw [still] at unstopped
    cases unstopped
  · rintro i claimedWork epoch now ⟨_, found⟩
    obtain ⟨_, _, _, asked, enters, _⟩ := gateRun_enters ran found
    cases asked
    exact meeting.history.admitted enters.published enters.work enters.epoch enters.after enters.before
  · rintro i now deadline ⟨_, found⟩
    obtain ⟨h, post, _, _, others⟩ := meeting.returned found
    exact others.keeps (Claimed 14 22 i) (fun _ _ _ _ _ _ claimed => claimed.step)
      (post.publishes now deadline rfl rfl)
  · rintro earlier later q rfl before stopped
    exact (gateRun_published before ran).stopped stopped

def sampleWork : WorkIdentity := ⟨7, 1⟩

def sampleEpoch : AuthorityEpoch := ⟨3, 1, 0⟩

/-- One call after the other: bound, prepared, released and entered. -/
def enteringTurns : List (Turn GateCall) :=
  [.start (.bind sampleEpoch), .run 0, .run 0, .run 0, .run 0, .run 0, .start .prepared, .run 1,
    .start (.publish 5 10), .run 2, .run 2, .run 2, .run 2,
    .start (.claimEntry sampleWork sampleEpoch 6), .run 3, .run 3, .run 3, .run 3, .run 3, .run 3,
    .run 3, .run 3]

theorem entering_turns_enter :
    ∃ p, gateRun sampleWork enteringTurns = some p ∧
      p.Returned 3 (.claimEntry sampleWork sampleEpoch 6) (.entry .entered) ∧
      Admitted p.history sampleWork sampleEpoch 6 := by
  have entered : ∃ p, gateRun sampleWork enteringTurns = some p ∧
      p.Returned 3 (.claimEntry sampleWork sampleEpoch 6) (.entry .entered) :=
    ⟨_, rfl, _, rfl⟩
  obtain ⟨p, ran, returned⟩ := entered
  exact ⟨p, ran, returned, (one_entry_through_a_gate ran).2.2.2.1 _ _ _ _ returned⟩

end Andrix.Native
