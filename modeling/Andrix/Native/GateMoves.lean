import Andrix.Native.AdmissionLaws

/-! What each call on a gate changes, whatever it finds before each of its actions.
The components that hold gates rely on these and not on the calls' text. -/
namespace Andrix.Native
open Andrix.Lib Andrix.Lib.Program

def Shared.Valid (g : Shared) : Prop := g.flags ∈ gateWords

theorem word_split (word mask : UInt32) : word = (word &&& ~~~mask) ||| (word &&& mask) := by
  rw [← UInt32.toBitVec_inj]
  simp only [UInt32.toBitVec_or, UInt32.toBitVec_and, UInt32.toBitVec_not]
  ext i bound
  simp only [BitVec.getElem_or, BitVec.getElem_and, BitVec.getElem_not]
  cases word.toBitVec[i] <;> cases mask.toBitVec[i] <;> rfl

theorem stop_bit (word : UInt32) : word &&& kStopped = 0 ∨ word &&& kStopped = kStopped := by
  have power : kStopped.toBitVec = BitVec.twoPow 32 6 := by decide
  have masked := BitVec.and_twoPow word.toBitVec 6
  rw [← power, ← UInt32.toBitVec_and] at masked
  split at masked
  · exact .inr (UInt32.toBitVec_inj.mp masked)
  · exact .inl (UInt32.toBitVec_inj.mp masked)

theorem mem_gateWords {word : UInt32} (valid : validWord word = true) : word ∈ gateWords := by
  have split := word_split word kStopped
  simp only [validWord, Bool.or_eq_true, decide_eq_true_eq] at valid
  rcases stop_bit word with bit | bit <;> rw [bit] at split <;>
    rcases valid with (((((rest | rest) | rest) | rest) | rest) | rest) | rest <;>
    rw [rest] at split <;> rw [split] <;> decide

theorem phaseOf_stopped {word : UInt32} : phaseOf word = .stopped ↔ has word kStopped = true := by
  by_cases stopped : has word kStopped = true
  · simp [phaseOf, stopped]
  · simp only [phaseOf, stopped, Bool.false_eq_true, if_false, iff_false]
    repeat' split
    all_goals decide

/-- What anybody may do to a gate: nothing, a stop or an entry. -/
inductive OpenMove (g : Shared) : Shared → Prop
  | same : OpenMove g g
  | stop : OpenMove g { g with flags := g.flags ||| kStopped }
  | enter : g.flags = 22 → OpenMove g { g with flags := 54 }

theorem has_stop {word : UInt32} (among : word ∈ gateWords) : has (word ||| kStopped) kStopped = true := by
  have all : ∀ word ∈ gateWords, has (word ||| kStopped) kStopped = true :=
    List.all_iff_forall_prop.mp (by decide)
  exact all word among

theorem OpenMove.wordStep {g g' : Shared} (moves : OpenMove g g') : WordStep g.flags g'.flags := by
  cases moves with
  | same => exact .inl rfl
  | stop => exact .inr (.inl rfl)
  | enter word =>
    refine .inr (.inr ?_)
    rw [word]
    dsimp only
    decide

theorem OpenMove.fields {g g' : Shared} (moves : OpenMove g g') :
    g'.work = g.work ∧ g'.epoch = g.epoch ∧ g'.releasedAt = g.releasedAt ∧ g'.deadline = g.deadline := by
  cases moves <;> exact ⟨rfl, rfl, rfl, rfl⟩

section Does

variable {α : Type} {s : Shared} {change : Shared → Shared → Prop} {post : α → Shared → Prop}

theorem load_does {read : Shared → α} (same : ∀ g, change g g)
    (reads : ∀ g, g.Valid → post (read g) g) :
    (Program.load read).Does Shared.Valid change post s :=
  does_atomic fun g valid => ⟨same g, reads g valid⟩

theorem stop_does :
    WorkAdmission.stop.Does Shared.Valid OpenMove (fun _ g => has g.flags kStopped = true) s :=
  does_atomic fun _ valid => ⟨.stop, has_stop valid⟩

theorem phase_does :
    WorkAdmission.phase.Does Shared.Valid OpenMove (fun phase g => phase = phaseOf g.flags) s :=
  does_bind.mpr (load_does (fun _ => .same) fun _ _ => rfl)

theorem readEpoch_does (same : ∀ g, change g g) :
    WorkAdmission.readEpoch.Does Shared.Valid change (fun _ _ => True) s := by
  refine does_bind.mpr (load_does same fun _ _ => ?_)
  refine does_bind.mpr (load_does same fun _ _ => ?_)
  exact does_bind.mpr (load_does same fun _ _ => trivial)

theorem epoch_does :
    WorkAdmission.epoch.Does Shared.Valid OpenMove (fun _ _ => True) s := by
  refine does_bind.mpr (load_does (fun _ => .same) fun _ _ => ?_)
  refine does_ite (fun _ => trivial) fun _ => ?_
  exact does_bind.mpr (readEpoch_does fun _ => .same)

theorem compareExchange_does {expected desired : UInt32} {post : Bool × UInt32 → Shared → Prop}
    (same : ∀ g, change g g)
    (hits : ∀ g, g.Valid → g.flags = expected → change g { g with flags := desired } ∧
      post (true, expected) { g with flags := desired })
    (misses : ∀ g, g.Valid → g.flags ≠ expected → post (false, g.flags) g) :
    (WorkAdmission.compareExchange expected desired).Does Shared.Valid change post s := by
  refine does_atomic fun g valid => ?_
  by_cases hit : g.flags = expected
  · simp only [if_pos hit]
    exact hits g valid hit
  · simp only [if_neg hit]
    exact ⟨same g, misses g valid hit⟩

/-- An entry leaves the word of an entered gate that is not stopped. -/
theorem claimEntry_does (work : WorkIdentity) (epoch : AuthorityEpoch) (now : UInt64) :
    (WorkAdmission.claimEntry work epoch now).Does Shared.Valid OpenMove
      (fun result g => result = .entered → g.flags = 54) s := by
  have never {result : EntryResult} {g : Shared} (other : result ≠ .entered) :
      result = .entered → g.flags = 54 := fun same => absurd same other
  refine does_bind.mpr (load_does (fun _ => .same) fun _ _ => ?_)
  refine does_ite (fun _ => never (by decide)) fun _ => ?_
  refine does_bind.mpr (load_does (fun _ => .same) fun loaded valid => ?_)
  refine does_ite (fun _ => ?_) fun _ => ?_
  · by_cases stopped : has loaded.flags kStopped = true
    · rw [if_pos stopped]
      exact never (by decide)
    · rw [if_neg stopped]
      exact never (by decide)
  refine does_bind.mpr (Program.Does.mono (readEpoch_does fun _ => .same) fun _ _ _ => ?_)
  refine does_ite (fun _ => never (by decide)) fun _ => ?_
  refine does_ite (fun _ => never (by decide)) fun unstopped => ?_
  refine does_ite (fun _ => never (by decide)) fun unentered => ?_
  refine does_ite (fun _ => never (by decide)) fun released => ?_
  have word : loaded.flags = 22 :=
    claimable_word valid (by simpa using unstopped) (by simpa using unentered) (by simpa using released)
  rw [word]
  refine does_bind.mpr (load_does (fun _ => .same) fun _ _ => ?_)
  refine does_bind.mpr (load_does (fun _ => .same) fun _ _ => ?_)
  refine does_ite (fun _ => ?_) fun _ => ?_
  · exact does_bind.mpr (stop_does.mono fun _ _ _ => never (by decide))
  refine does_bind.mpr (compareExchange_does (fun _ => .same) ?_ ?_)
  · intro g _ same
    exact ⟨.enter same, fun _ => rfl⟩
  intro g _ _
  by_cases stopped : has g.flags kStopped = true
  · simp only [Bool.false_eq_true, if_false, if_pos stopped]
    exact never (by decide)
  · simp only [Bool.false_eq_true, if_false, if_neg stopped]
    exact never (by decide)

end Does

end Andrix.Native
