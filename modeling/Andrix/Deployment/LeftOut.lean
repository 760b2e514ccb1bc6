import Andrix.Lib.Kept
import Andrix.Deployment.Recording
import Andrix.Deployment.Resume

/-! Leaving out repeated facts. A coordinator records a fact only when it does not
repeat the latest recorded fact about the same subject, while the reconciler
compares facts across subjects and by time. The two agree over any number of rounds
whose left out facts are still what the recorded ones show. -/
namespace Andrix.Deployment
open Andrix.Lib List Int64 View

/-! ## What is left out -/

/-- The facts seen that `record` leaves out, each with the facts recorded before it. -/
def leftOut (observations : List Observation) :
    List Observation → List (List Observation × Observation)
  | [] => []
  | o :: rest =>
    if repeats observations o then (observations, o) :: leftOut observations rest
    else leftOut (observations ++ [o]) rest

/-- The facts seen, each with whether `record` keeps it. -/
def marked (observations : List Observation) : List Observation → List (Observation × Bool)
  | [] => []
  | o :: rest =>
    if repeats observations o then (o, false) :: marked observations rest
    else (o, true) :: marked (observations ++ [o]) rest

theorem kept_marked (l seen : List Observation) : kept (marked l seen) = record l seen := by
  induction seen generalizing l with
  | nil => rfl
  | cons o rest ih =>
    unfold marked record
    split
    · exact ih l
    · exact congrArg (o :: ·) (ih (l ++ [o]))

theorem allOf_marked (l seen : List Observation) : allOf (marked l seen) = seen := by
  induction seen generalizing l with
  | nil => rfl
  | cons o rest ih =>
    unfold marked
    split
    · exact congrArg (o :: ·) (ih l)
    · exact congrArg (o :: ·) (ih (l ++ [o]))

variable {o : Observation}

/-- A fact marked as left out repeats the facts recorded up to it. -/
theorem marked_split {l seen : List Observation} {front back : List (Observation × Bool)}
    (split : marked l seen = front ++ (o, false) :: back) :
    (l ++ kept front, o) ∈ leftOut l seen ∧ repeats (l ++ kept front) o = true := by
  induction seen generalizing l front with
  | nil => simp [marked] at split
  | cons first rest ih =>
    unfold marked at split
    unfold leftOut
    split at split
    · rename_i repeated
      rw [if_pos repeated]
      cases front with
      | nil =>
        obtain ⟨rfl, _⟩ := Prod.mk.inj (List.cons.inj split).1
        simp [repeated]
      | cons head front =>
        obtain ⟨rfl, tail⟩ := List.cons.inj split
        obtain ⟨inside, again⟩ := ih tail
        exact ⟨mem_cons_of_mem _ (by simpa [kept] using inside), by simpa [kept] using again⟩
    · rename_i new
      rw [if_neg new]
      cases front with
      | nil => simp at split
      | cons head front =>
        obtain ⟨rfl, tail⟩ := List.cons.inj split
        obtain ⟨inside, again⟩ := ih tail
        have grown : l ++ [first] ++ kept front = l ++ kept ((first, true) :: front) := by
          simp [kept]
        rw [grown] at inside again
        exact ⟨inside, again⟩

/-! ## Rounds -/

def recordedBy (stored : List Observation) (rounds : List (List Observation)) : List Observation :=
  rounds.foldl (fun known seen => known ++ record known seen) stored

def readBy (stored : List Observation) (rounds : List (List Observation)) : List Observation :=
  stored ++ rounds.flatten

/-- All facts after the rounds, each with whether it was recorded. -/
def history (stored : List Observation) (rounds : List (List Observation)) :
    List (Observation × Bool) :=
  rounds.foldl (fun h seen => h ++ marked (kept h) seen) (stored.map (·, true))

theorem history_snoc (stored : List Observation) (rounds : List (List Observation))
    (seen : List Observation) : history stored (rounds ++ [seen]) =
      history stored rounds ++ marked (kept (history stored rounds)) seen := by
  simp [history]

theorem kept_history (stored : List Observation) (rounds : List (List Observation)) :
    kept (history stored rounds) = recordedBy stored rounds := by
  induction rounds using List.reverseRecOn with
  | nil => simp [history, recordedBy]
  | append_singleton rounds seen ih =>
    rw [history_snoc, kept_append, kept_marked, ih]
    simp [recordedBy]

theorem allOf_history (stored : List Observation) (rounds : List (List Observation)) :
    allOf (history stored rounds) = readBy stored rounds := by
  induction rounds using List.reverseRecOn with
  | nil => simp [history, readBy]
  | append_singleton rounds seen ih =>
    rw [history_snoc, allOf_append, allOf_marked, ih]
    simp [readBy]

variable {stored : List Observation}

/-- A fact left out of the whole history was left out of one round, and repeats the
facts recorded up to it. -/
theorem history_split {rounds : List (List Observation)}
    {front back : List (Observation × Bool)}
    (split : history stored rounds = front ++ (o, false) :: back) :
    ∃ before seen after, rounds = before ++ seen :: after ∧ o ∈ seen ∧
      (kept front, o) ∈ leftOut (recordedBy stored before) seen ∧
      repeats (kept front) o = true := by
  induction rounds using List.reverseRecOn generalizing back with
  | nil =>
    have inside : (o, false) ∈ history stored [] := by simp [split]
    simp [history] at inside
  | append_singleton rounds last ih =>
    rw [history_snoc] at split
    have either : (∃ part, front = history stored rounds ++ part ∧
        marked (kept (history stored rounds)) last = part ++ (o, false) :: back) ∨
        ∃ rest, history stored rounds = front ++ (o, false) :: rest := by
      rcases append_eq_append_iff.mp split with ⟨part, ends, tail⟩ | ⟨part, ends, tail⟩
      · exact .inl ⟨part, ends, tail⟩
      cases part with
      | nil => exact .inl ⟨[], by simpa using ends.symm, tail.symm⟩
      | cons head part =>
        obtain ⟨rfl, _⟩ := List.cons.inj tail
        exact .inr ⟨part, ends⟩
    rcases either with ⟨part, rfl, tail⟩ | ⟨rest, ends⟩
    · -- It was left out of the last round.
      obtain ⟨inside, repeated⟩ := marked_split tail
      have member : o ∈ allOf (marked (kept (history stored rounds)) last) := by
        rw [tail]
        simp [allOf]
      rw [allOf_marked] at member
      rw [kept_append]
      exact ⟨rounds, last, [], rfl, member, by rwa [← kept_history], repeated⟩
    · obtain ⟨before, seen, after, rfl, member, inside, repeated⟩ := ih ends
      exact ⟨before, seen, after ++ [last], by simp, member, inside, repeated⟩

/-! ## Views over a list of facts -/

variable {q : Observation → Bool}

namespace View

private theorem moves_strictly (x y : Observation) (order : ¬ x.elapsed ≤ y.elapsed) :
    decide (y.elapsed ≤ x.elapsed) = !decide (x.elapsed ≤ y.elapsed) ∧
      decide (x.elapsed < y.elapsed) = !decide (y.elapsed < x.elapsed) := by
  simp only [le_iff_toInt_le, lt_iff_toInt_lt] at order ⊢
  constructor
  · rw [decide_eq_true (by omega), decide_eq_false order]
    rfl
  · rw [decide_eq_false (by omega), decide_eq_true (by omega)]
    rfl

theorem pick_latest_ofFacts (boot component : Text) (p : Observation → Bool)
    (l : List Observation) :
    pick p (fun o best => best.elapsed ≤ o.elapsed) (ofFacts boot component l).facts =
      pick (fun o => inScope boot component o && p o) (fun o best => best.elapsed ≤ o.elapsed) l := by
  rw [ofFacts, pick_insertionSort ranked_latest (fun a b order => (moves_strictly a b order).1),
    pick_filter]

theorem pick_first_ofFacts (boot component : Text) (p : Observation → Bool)
    (l : List Observation) :
    pick p (fun o best => o.elapsed < best.elapsed) (ofFacts boot component l).facts =
      pick (fun o => inScope boot component o && p o) (fun o best => o.elapsed < best.elapsed) l := by
  rw [ofFacts, pick_insertionSort ranked_first (fun a b order => (moves_strictly a b order).2),
    pick_filter]

theorem mem_ofFacts {boot component : Text} {l : List Observation} :
    o ∈ (ofFacts boot component l).facts ↔ o ∈ l ∧ inScope boot component o = true := by
  rw [ofFacts, mem_insertionSort, mem_filter]

/-- Lists that agree on some facts give views that agree on them. -/
theorem filter_ofFacts {boot component : Text} {l m : List Observation}
    (same : l.filter q = m.filter q) :
    (ofFacts boot component l).facts.filter q = (ofFacts boot component m).facts.filter q := by
  rw [ofFacts, ofFacts, filter_insertionSort, filter_insertionSort, filter_filter,
    filter_filter]
  simp only [Bool.and_comm (q _)]
  rw [← filter_filter, ← filter_filter, same]

end View

theorem inScope_congr {a b : Observation} (same : sameSubject a b = true) (boot component : Text) :
    inScope boot component a = inScope boot component b := by
  obtain ⟨kinds, boots, _, routes, components, _⟩ := sameSubject_iff.mp same
  rw [inScope, inScope, kinds, boots, routes, components]

/-! ## Rounds that leave out nothing of their own -/

/-- Whether a fact is read by its time. Signer and bundle facts are decided by
precedence. -/
def timed (o : Observation) : Bool := o.kind ≠ .signer && o.kind ≠ .bundle

/-- The kinds of which the latest fact in a boot counts. -/
def current (kind : ObservationKind) : Bool :=
  kind = .boot || kind = .checkpoint || kind = .factory || kind = .active

/-- A round whose left out facts are still what the recorded ones show. -/
structure Undisturbed (boot component : Text) (known seen : List Observation) : Prop where
  /-- No SESSION fact is left out: a listing counts them. -/
  session : ∀ x ∈ leftOut known seen, x.2.kind ≠ .session
  /-- A LISTING left out repeats one that no SESSION fact came after. -/
  listing : ∀ x ∈ leftOut known seen, x.2.kind = .listing → ∃ l ∈ x.1,
    sameSubject l x.2 = true ∧ identical l x.2 = true ∧ ∀ s ∈ known ++ record known seen,
      s.kind = .session → s.boot = x.2.boot → s.elapsed ≤ x.2.elapsed → s.elapsed ≤ l.elapsed
  /-- A BOOT, CHECKPOINT, FACTORY or ACTIVE fact left out has the content of the
  latest recorded one of its kind. -/
  latest : ∀ x ∈ leftOut known seen, inScope boot component x.2 = true → x.2.boot = boot →
    current x.2.kind = true → ∃ l ∈ (ofFacts boot component
      (known ++ record known seen)).latest x.2.kind, SameContent l x.2
  /-- A REPLY left out has the content of the latest recorded one to its entry. -/
  reply : ∀ x ∈ leftOut known seen, inScope boot component x.2 = true → x.2.kind = .reply →
    ∃ l ∈ (ofFacts boot component (known ++ record known seen)).reply x.2.subject
      (some x.2.sequence), SameContent l x.2
  /-- A BOOT or RECEIPT left out is no older than the recorded ones about its
  subject. -/
  ordered : ∀ x ∈ leftOut known seen, x.2.kind = .boot ∨ x.2.kind = .receipt → ∀ old ∈ x.1,
    sameSubject old x.2 = true → old.elapsed ≤ x.2.elapsed

/-- Rounds whose facts come later than those of every earlier round. -/
def Increasing (rounds : List (List Observation)) : Prop :=
  rounds.Pairwise (fun r r' => ∀ o ∈ r, ∀ o' ∈ r', timed o = true → timed o' = true →
    o.elapsed < o'.elapsed)

theorem recordedBy_snoc (stored : List Observation) (rounds : List (List Observation))
    (seen : List Observation) : recordedBy stored (rounds ++ [seen]) =
      recordedBy stored rounds ++ record (recordedBy stored rounds) seen := by
  simp [recordedBy]

/-- The latest recorded match keeps the content of the latest match read. -/
theorem content_kept {rounds : List (List Observation)}
    (increasing : Increasing rounds) {p : Observation → Bool}
    (times : ∀ o, p o = true → timed o = true)
    (settled : ∀ before seen after, rounds = before ++ seen :: after →
      ∀ x ∈ leftOut (recordedBy stored before) seen, p x.2 = true →
        ∃ l, pick p (fun o best => best.elapsed ≤ o.elapsed)
          (recordedBy stored (before ++ [seen])) = some l ∧ SameContent l x.2) :
    Option.Rel SameContent
      (pick p (fun o best => best.elapsed ≤ o.elapsed) (recordedBy stored rounds))
      (pick p (fun o best => best.elapsed ≤ o.elapsed) (readBy stored rounds)) := by
  induction rounds using List.reverseRecOn with
  | nil =>
    rw [recordedBy, readBy, flatten_nil, append_nil, foldl_nil]
    cases pick p (fun o best => decide (best.elapsed ≤ o.elapsed)) stored with
    | none => exact .none
    | some o => exact .some ⟨rfl, rfl, rfl, rfl, rfl, rfl⟩
  | append_singleton rounds seen ih =>
    obtain ⟨earlier, _, later⟩ := pairwise_append.mp increasing
    have before := ih earlier (fun b s a split => settled b s (a ++ [seen]) (by simp [split]))
    rw [← kept_history, ← allOf_history, history_snoc]
    rw [← kept_history, ← allOf_history] at before
    refine pick_kept_last (fun o : Observation => o.elapsed.toInt) ?_ ?_ before ?_ ?_
    · intro x y
      simp only [decide_eq_true_eq, le_iff_toInt_le]
    · intro x
      exact ⟨rfl, rfl, rfl, rfl, rfl, rfl⟩
    · intro x inside matched
      rcases mem_allOf.mp inside with kept_ | out
      · exact .inl (mem_kept.mpr kept_)
      refine .inr (fun t among found => ?_)
      obtain ⟨front, back, split⟩ := append_of_mem out
      obtain ⟨b, s, a, rfl, member, _⟩ := history_split split
      rw [allOf_marked] at among
      exact lt_iff_toInt_lt.mp (later s (by simp) seen mem_cons_self x member t among
        (times x matched) (times t found))
    · intro t out matched
      obtain ⟨front, back, split⟩ := append_of_mem out
      obtain ⟨inside, _⟩ := marked_split split
      rw [kept_history] at inside
      obtain ⟨l, found, same⟩ := settled rounds seen [] rfl _ inside matched
      rw [← history_snoc, kept_history]
      exact ⟨l, found, same⟩

theorem mem_recordedBy_append {front back : List (List Observation)}
    (inside : o ∈ recordedBy stored (front ++ back)) :
    o ∈ recordedBy stored front ∨ ∃ seen ∈ back, o ∈ seen := by
  induction back using List.reverseRecOn with
  | nil => exact .inl (by simpa using inside)
  | append_singleton back seen ih =>
    rw [← append_assoc, recordedBy_snoc] at inside
    rcases mem_append.mp inside with before | last
    · rcases ih before with first | ⟨r, among, member⟩
      · exact .inl first
      · exact .inr ⟨r, mem_append_left _ among, member⟩
    · exact .inr ⟨seen, by simp, record_subset last⟩

/-- Only facts about users and health change the outcomes. -/
theorem observed_filter (boot : Text) (since : Int64) (facts : List Observation)
    (outcomes : List Health) : facts.foldl (observeUser boot since) outcomes =
      (facts.filter (fun o => o.kind = .user || o.kind = .health)).foldl (observeUser boot since)
        outcomes := by
  have other : ∀ o : Observation, (o.kind = .user || o.kind = .health) = false →
      ∀ outcomes, observeUser boot since outcomes o = outcomes := by
    intro o kinds outcomes
    simp only [Bool.or_eq_false_iff, decide_eq_false_iff_not] at kinds
    have crash : o.classification ≠ .healthCrash := by
      intro found
      exact kinds.2 (congrArg Classification.kind found)
    have unseen : seenOutcome o = none := by
      simp [seenOutcome, kinds.1, kinds.2, crash]
    unfold observeUser
    split
    · rfl
    · split
      · rfl
      · rw [unseen]
  induction facts generalizing outcomes with
  | nil => rfl
  | cons o rest ih =>
    rw [foldl_cons, ih, filter_cons]
    split
    · rfl
    · rename_i skipped
      rw [other o (by simpa using skipped)]

/-! ## The views over what was recorded and over all that was read -/

section
variable {stored : List Observation} {rounds : List (List Observation)} {boot component : Text}

theorem recorded_read (inside : o ∈ recordedBy stored rounds) :
    o ∈ readBy stored rounds := by
  rw [← kept_history] at inside
  rw [← allOf_history]
  exact kept_subset inside

/-- A fact read was recorded, or one round left it out for facts it repeats. -/
theorem read_cases (inside : o ∈ readBy stored rounds) :
    o ∈ recordedBy stored rounds ∨ ∃ before seen after known, rounds = before ++ seen :: after ∧
      o ∈ seen ∧ (known, o) ∈ leftOut (recordedBy stored before) seen ∧ repeats known o = true ∧
      ∀ old ∈ known, old ∈ recordedBy stored rounds := by
  rw [← allOf_history] at inside
  rcases mem_allOf.mp inside with kept_ | out
  · rw [← kept_history]
    exact .inl (mem_kept.mpr kept_)
  obtain ⟨front, back, split⟩ := append_of_mem out
  obtain ⟨before, seen, after, rounds_, member, inside, repeated⟩ := history_split split
  refine .inr ⟨before, seen, after, kept front, rounds_, member, inside, repeated, ?_⟩
  intro old among
  rw [← kept_history, split, kept_append]
  exact mem_append_left _ among

/-- Facts of which none was left out are the same among the recorded ones and
among all. -/
theorem filter_recorded
    (none_ : ∀ known o, repeats known o = true → ∀ before seen after,
      rounds = before ++ seen :: after → (known, o) ∈ leftOut (recordedBy stored before) seen →
      q o = false) :
    (recordedBy stored rounds).filter q = (readBy stored rounds).filter q := by
  rw [← kept_history, ← allOf_history]
  refine filter_kept (fun o out => ?_)
  obtain ⟨front, back, split⟩ := append_of_mem out
  obtain ⟨before, seen, after, rounds_, _, inside, repeated⟩ := history_split split
  exact none_ (kept front) o repeated before seen after rounds_ inside

theorem users_recorded
    (kinds : ∀ o, q o = true → o.kind = .user ∨ o.kind = .health) :
    (ofFacts boot component (recordedBy stored rounds)).facts.filter q =
      (ofFacts boot component (readBy stored rounds)).facts.filter q := by
  refine filter_ofFacts (filter_recorded ?_)
  intro known o repeated _ _ _ _ _
  obtain ⟨user, health⟩ := repeats_kind repeated
  rw [Bool.eq_false_iff]
  intro matched
  rcases kinds o matched with kind | kind
  · exact user kind
  · exact health kind

theorem ofKind_recorded (kind : ObservationKind) (always : kind = .user ∨ kind = .health) :
    (ofFacts boot component (recordedBy stored rounds)).ofKind kind =
      (ofFacts boot component (readBy stored rounds)).ofKind kind := by
  refine users_recorded ?_
  intro o matched
  simp only [Bool.and_eq_true, decide_eq_true_eq] at matched
  exact matched.1 ▸ always

variable (increasing : Increasing rounds)
  (undisturbed : ∀ before seen after, rounds = before ++ seen :: after →
    Undisturbed boot component (recordedBy stored before) seen)
include undisturbed

/-- The first match among the recorded facts is the first among all. -/
theorem first_recorded {p : Observation → Bool}
    (kinds : ∀ o, p o = true → o.kind = .boot ∨ o.kind = .receipt)
    (alike : ∀ a b, sameSubject a b = true → identical a b = true → p b = true → p a = true) :
    pick p (fun o best => o.elapsed < best.elapsed) (recordedBy stored rounds) =
      pick p (fun o best => o.elapsed < best.elapsed) (readBy stored rounds) := by
  rw [← kept_history, ← allOf_history]
  refine pick_kept_first (fun o : Observation => o.elapsed.toInt) ?_ _ ?_
  · intro x y
    simp only [decide_eq_true_eq, lt_iff_toInt_lt]
  intro front x back split matched
  obtain ⟨before, seen, after, rounds_, _, inside, repeated⟩ := history_split split
  have kind := kinds x matched
  have decided : x.kind ≠ .signer ∧ x.kind ≠ .bundle := by
    rcases kind with kind | kind <;> simp [kind]
  obtain ⟨⟨old, among, same, agrees, _⟩, _⟩ := repeats_latest repeated decided
  refine ⟨old, kept_subset among, alike old x same agrees matched, ?_⟩
  exact le_iff_toInt_le.mp
    ((undisturbed before seen after rounds_).ordered _ inside kind old among same)

theorem sessions_recorded :
    (ofFacts boot component (recordedBy stored rounds)).ofKind .session =
      (ofFacts boot component (readBy stored rounds)).ofKind .session := by
  refine filter_ofFacts (filter_recorded ?_)
  intro known o _ before seen after rounds_ inside
  simp [(undisturbed before seen after rounds_).session _ inside]

omit undisturbed in
theorem mirrors_read : Mirrors (ofFacts boot component (recordedBy stored rounds))
    (ofFacts boot component (readBy stored rounds)) := by
  intro o inside _
  obtain ⟨recorded, scope⟩ := mem_ofFacts.mp inside
  exact ⟨o, mem_ofFacts.mpr ⟨recorded_read recorded, scope⟩, rfl, rfl, rfl, rfl, rfl, rfl⟩

omit undisturbed in
theorem mirrors_recorded : Mirrors (ofFacts boot component (readBy stored rounds))
    (ofFacts boot component (recordedBy stored rounds)) := by
  intro o inside _
  obtain ⟨read, scope⟩ := mem_ofFacts.mp inside
  rcases read_cases read with recorded | ⟨_, _, _, known, _, _, _, repeated, recorded⟩
  · exact ⟨o, mem_ofFacts.mpr ⟨recorded, scope⟩, rfl, rfl, rfl, rfl, rfl, rfl⟩
  obtain ⟨old, among, same, agrees⟩ := repeats_some repeated
  have scopes := (inScope_congr same boot component).trans scope
  obtain ⟨_, _, _, _, _, _, _, subjects, _⟩ := sameSubject_iff.mp same
  obtain ⟨classes, _, digests, _, _, _, plans, bundles, restorations⟩ := identical_iff.mp agrees
  exact ⟨old, mem_ofFacts.mpr ⟨recorded old among, scopes⟩, classes.symm, subjects.symm,
    plans.symm, digests.symm, bundles.symm, restorations.symm⟩

include undisturbed increasing

theorem lists_recorded : Lists (ofFacts boot component (readBy stored rounds))
    (ofFacts boot component (recordedBy stored rounds)) := by
  intro listing inside
  obtain ⟨fact, kind, here⟩ := mem_ofKind.mp inside
  obtain ⟨read, scope⟩ := mem_ofFacts.mp fact
  rcases read_cases read with recorded | ⟨before, seen, after, known, rounds_, member, out, _, kept_⟩
  · exact ⟨listing, mem_ofKind.mpr ⟨mem_ofFacts.mpr ⟨recorded, scope⟩, kind, here⟩,
      ⟨rfl, rfl, rfl, rfl, rfl⟩, fun _ _ order => order⟩
  obtain ⟨l, among, same, agrees, between⟩ :=
    (undisturbed before seen after rounds_).listing _ out kind
  obtain ⟨kinds, boots, instances, routes, _⟩ := sameSubject_iff.mp same
  obtain ⟨classes, _, _, _, numbers, _⟩ := identical_iff.mp agrees
  have scopes := (inScope_congr same boot component).trans scope
  refine ⟨l, mem_ofKind.mpr ⟨mem_ofFacts.mpr ⟨kept_ l among, scopes⟩,
    kinds.trans kind, boots.trans here⟩,
    ⟨classes.symm, boots.symm, instances.symm, routes.symm, numbers.symm⟩, ?_⟩
  intro s session order
  rw [← sessions_recorded undisturbed] at session
  obtain ⟨factS, kindS, bootS⟩ := mem_ofKind.mp session
  obtain ⟨recordedS, _⟩ := mem_ofFacts.mp factS
  rw [rounds_, append_cons] at recordedS
  rcases mem_recordedBy_append recordedS with early | ⟨r, among', memberS⟩
  · rw [recordedBy_snoc] at early
    exact between s early kindS (bootS.trans here.symm) order
  -- A session of a later round is later than the listing.
  rw [Increasing, rounds_, append_cons] at increasing
  have later := (pairwise_append.mp increasing).2.2 seen (by simp) r among' listing member
    s memberS (by simp [timed, kind]) (by simp [timed, kindS])
  exact absurd order (Int64.not_le.mpr later)

/-- The latest recorded fact of these kinds has the content of the latest one read. -/
theorem latest_recorded (kind : ObservationKind) (among : current kind = true) :
    Option.Rel SameContent
      ((ofFacts boot component (recordedBy stored rounds)).latest kind)
      ((ofFacts boot component (readBy stored rounds)).latest kind) := by
  unfold latest
  rw [pick_latest_ofFacts, pick_latest_ofFacts]
  refine content_kept increasing ?_ ?_
  · intro o matched
    simp only [Bool.and_eq_true, decide_eq_true_eq] at matched
    rw [← matched.2.1] at among
    simp only [current, Bool.or_eq_true, decide_eq_true_eq] at among
    rcases among with ((kind_ | kind_) | kind_) | kind_ <;> simp [timed, kind_]
  intro before seen after rounds_ x out matched
  simp only [Bool.and_eq_true, decide_eq_true_eq] at matched
  obtain ⟨scope, kind_, here⟩ := matched
  have settled := (undisturbed before seen after rounds_).latest x out scope here
    (by rw [kind_]; exact among)
  obtain ⟨l, found, same⟩ := settled
  rw [recordedBy_snoc]
  rw [latest, pick_latest_ofFacts, kind_] at found
  exact ⟨l, found, same⟩

theorem reply_recorded (id : Text) (index : Option Nat) : Option.Rel SameContent
    ((ofFacts boot component (recordedBy stored rounds)).reply id index)
    ((ofFacts boot component (readBy stored rounds)).reply id index) := by
  rw [reply_eq_latest, reply_eq_latest, pick_latest_ofFacts,
    pick_latest_ofFacts]
  refine content_kept increasing ?_ ?_
  · intro o matched
    simp only [Bool.and_eq_true, decide_eq_true_eq] at matched
    simp [timed, matched.2.1.1]
  intro before seen after rounds_ x out matched
  simp only [Bool.and_eq_true, decide_eq_true_eq] at matched
  obtain ⟨scope, ⟨kind_, rfl⟩, rfl⟩ := matched
  obtain ⟨l, found, same⟩ := (undisturbed before seen after rounds_).reply x out scope kind_
  rw [reply_eq_latest, pick_latest_ofFacts] at found
  rw [recordedBy_snoc]
  exact ⟨l, found, same⟩

omit increasing in
theorem completedAt_recorded :
    (ofFacts boot component (recordedBy stored rounds)).completedAt =
      (ofFacts boot component (readBy stored rounds)).completedAt := by
  unfold completedAt
  rw [pick_first_ofFacts, pick_first_ofFacts, first_recorded undisturbed]
  · rfl
  · intro o matched
    simp only [Bool.and_eq_true, decide_eq_true_eq] at matched
    exact .inl (congrArg Classification.kind matched.2.1)
  intro a b same agrees matched
  simp only [Bool.and_eq_true, decide_eq_true_eq] at matched ⊢
  obtain ⟨scope, class_, here⟩ := matched
  exact ⟨(inScope_congr same boot component).trans scope,
    (identical_iff.mp agrees).1.trans class_, (sameSubject_iff.mp same).2.1.trans here⟩

end

section
variable {stored : List Observation} {rounds : List (List Observation)} {boot component : Text}
  (increasing : Increasing rounds)
  (undisturbed : ∀ before seen after, rounds = before ++ seen :: after →
    Undisturbed boot component (recordedBy stored before) seen)
  {c : Context} (read : c.view = ofFacts boot component (readBy stored rounds))
  (sameBoot : (ofFacts boot component (recordedBy stored rounds)).boot = c.view.boot)
include undisturbed read

theorem notice_recorded :
    SameNotice c (ofFacts boot component (recordedBy stored rounds)) sameBoot where
  users := by
    rw [read, ofKind_recorded .user (.inl rfl)]
  latest user serial := by
    unfold latestUserFact
    rw [withView_view, read, ofKind_recorded .user (.inl rfl)]
    cases List.getLast? _ with
    | none => exact .none
    | some o => exact .some rfl
  receipts key := by
    have given : ∀ r, givenNow (c.withView _ sameBoot) r = givenNow c r := by
      intro r
      unfold givenNow
      rw [withView_view, sameBoot]
      rfl
    unfold receiptOf firstReceipt ofKind
    simp only [given, withView_view, sameBoot]
    rw [read, pick_filter, pick_filter, pick_first_ofFacts, pick_first_ofFacts,
      first_recorded undisturbed]
    · intro o matched
      simp only [Bool.and_eq_true, decide_eq_true_eq] at matched
      exact .inr matched.2.1.1
    intro a b same agrees matched
    obtain ⟨kinds, boots, _, _, _, users, serials, subjects, sequences, _⟩ := sameSubject_iff.mp same
    simp only [Bool.and_eq_true, decide_eq_true_eq, givenNow] at matched ⊢
    rw [inScope_congr same, kinds, boots, users, serials, subjects, sequences]
    exact matched
  recorded id index := by
    rw [read, Bool.eq_iff_iff, any_eq_true, any_eq_true]
    constructor
    · rintro ⟨r, inside, about⟩
      obtain ⟨fact, kind, here⟩ := mem_ofKind.mp inside
      obtain ⟨recorded, scope⟩ := mem_ofFacts.mp fact
      exact ⟨r, mem_ofKind.mpr ⟨mem_ofFacts.mpr ⟨recorded_read recorded, scope⟩, kind, here⟩,
        about⟩
    rintro ⟨r, inside, about⟩
    obtain ⟨fact, kind, here⟩ := mem_ofKind.mp inside
    obtain ⟨member, scope⟩ := mem_ofFacts.mp fact
    rcases read_cases member with recorded | ⟨_, _, _, known, _, _, _, repeated, recorded⟩
    · exact ⟨r, mem_ofKind.mpr ⟨mem_ofFacts.mpr ⟨recorded, scope⟩, kind, here⟩, about⟩
    obtain ⟨old, among, same, _⟩ := repeats_some repeated
    obtain ⟨kinds, boots, _, _, _, _, _, subjects, sequences, _⟩ := sameSubject_iff.mp same
    refine ⟨old, mem_ofKind.mpr ⟨mem_ofFacts.mpr ⟨recorded old among,
      (inScope_congr same boot component).trans scope⟩, kinds.trans kind, boots.trans here⟩, ?_⟩
    rw [subjects, sequences]
    exact about

include increasing

/-- A view of the recorded facts tells a step the same as one of all facts read. -/
theorem alike_recorded :
    Alike c (ofFacts boot component (recordedBy stored rounds)) sameBoot where
  there := by
    rw [read]
    exact mirrors_read
  back := by
    rw [read]
    exact mirrors_recorded
  latest kind among := by
    rw [read]
    exact latest_recorded increasing undisturbed kind (by simpa [current, or_assoc] using among)
  completedAt := by
    rw [read]
    exact completedAt_recorded undisturbed
  reply id index := by
    rw [read]
    exact reply_recorded increasing undisturbed id index
  found := by
    unfold foundBy
    rw [read, sessions_recorded undisturbed]
    cases List.find? _ _ with
    | none => exact .none
    | some o => exact .some rfl
  sessions := by
    have same : (c.withView _ sameBoot).view.ofKind .session = c.view.ofKind .session := by
      rw [withView_view, read, sessions_recorded undisturbed]
    constructor
    · rw [read, sessions_recorded undisturbed]
    unfold latestExact
    rw [same, withView_ticket]
    cases pick _ _ _ with
    | none => exact .none
    | some o => exact .some ⟨⟨rfl, rfl, rfl⟩, rfl⟩
  lists := by
    rw [read]
    intro listing inside
    obtain ⟨fact, kind, here⟩ := mem_ofKind.mp inside
    obtain ⟨recorded, scope⟩ := mem_ofFacts.mp fact
    exact ⟨listing, mem_ofKind.mpr ⟨mem_ofFacts.mpr ⟨recorded_read recorded, scope⟩, kind,
      here⟩, ⟨rfl, rfl, rfl, rfl, rfl⟩, fun _ _ order => order⟩
  lists' := by
    rw [read]
    exact lists_recorded increasing undisturbed
  notice := notice_recorded undisturbed read sameBoot
  health := by
    rw [read, ofKind_recorded .health (.inr rfl)]
  users since key outcomes := by
    have same : ((ofFacts boot component (recordedBy stored rounds)).facts.filter
          (fun o => userKey o = key)).filter (fun o => o.kind = .user || o.kind = .health) =
        ((ofFacts boot component (readBy stored rounds)).facts.filter
          (fun o => userKey o = key)).filter (fun o => o.kind = .user || o.kind = .health) := by
      rw [filter_filter, filter_filter, users_recorded]
      intro o matched
      simp only [Bool.and_eq_true, decide_eq_true_eq, Bool.or_eq_true] at matched
      exact matched.1
    rw [read]
    exact (observed_filter _ _ _ _).trans
      ((congrArg _ same).trans (observed_filter _ _ _ _).symm)

end

instance (a b : Observation) : Decidable (SameContent a b) :=
  decidable_of_iff (a.classification = b.classification ∧ a.text = b.text ∧ a.digest = b.digest ∧
      a.version = b.version ∧ a.number = b.number ∧ a.reference = b.reference)
    ⟨fun ⟨c, t, d, v, n, r⟩ => ⟨c, t, d, v, n, r⟩,
      fun same => ⟨same.classification, same.text, same.digest, same.version, same.number,
        same.reference⟩⟩

/-- The active copy as one round read it, in a framework instance. -/
def activeCopy (classification : Classification) (digest : Char) (version instanceId : Int64)
    (elapsed : Int64) : Observation.Builder :=
  { sampleComponentFact classification elapsed with
    instanceId, digest := sampleDigest digest, version, text := "platform_app".toList }

/-- A first round before the framework came up, with the factory's bytes active. -/
def firstRound : List Observation := [
  ⟨sampleBoot 6, by decide +kernel⟩,
  ⟨{ sampleComponentFact .factoryPresent 7 with digest := sampleDigest '4', version := 1 },
    by decide +kernel⟩,
  ⟨activeCopy .factoryCopy '4' 1 (-1) 10, by decide +kernel⟩]

/-- Two rounds, the second with the same active copy and the committed checkpoint. -/
def quietRounds : List (List Observation) := [firstRound, [
  ⟨activeCopy .factoryCopy '4' 1 (-1) 20, by decide +kernel⟩,
  ⟨sampleFact .checkpointCommitted 21, by decide +kernel⟩]]

theorem sampleTicket_plan : sampleTicket.planId = samplePlan.planId := rfl

def quietContext : Context :=
  { sampleSetting with facts := readBy [] quietRounds }.context sampleTicket sampleTicket_plan
    (sampleClock '9' 30) (sampleId 'c')

/-- The framework comes up with other bytes active, and goes down with the factory's
active again. -/
def returningRounds : List (List Observation) := [firstRound,
  [⟨activeCopy .dataCopy '8' 3 0 20, by decide +kernel⟩],
  [⟨activeCopy .factoryCopy '4' 1 (-1) 30, by decide +kernel⟩]]

end Andrix.Deployment
