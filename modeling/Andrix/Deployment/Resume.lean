import Andrix.Deployment.Alike
import Andrix.Deployment.Coordinator

/-! A coordinator that resumes from the store reads the same facts in another
order. Facts are sorted by elapsed time with ties in the order they came, so the
order matters only between facts that tie, and only where a reading compares the
two by time and they tell it different things. -/
namespace Andrix.Deployment
open Andrix.Lib List

/-! ## Facts that contend -/

/-- Two facts that a reading compares by time and that tell it different things.
When they also share their elapsed time, their order in the list decides. -/
inductive Contends (a b : Observation) : Prop
  /-- The latest fact of these kinds in a boot counts, whatever its route and
  framework instance. -/
  | latest (kind : a.kind = .boot ∨ a.kind = .checkpoint ∨ a.kind = .factory ∨ a.kind = .active)
      (kinds : a.kind = b.kind) (boots : a.boot = b.boot) (differ : ¬ SameContent a b)
  /-- The latest reply to a ledger entry counts, in whatever boot it was read. -/
  | reply (kind : a.kind = .reply) (kinds : a.kind = b.kind) (subjects : a.subject = b.subject)
      (sequences : a.sequence = b.sequence) (differ : ¬ SameContent a b)
  /-- The latest state of a session ID counts. -/
  | state (kind : a.kind = .session) (kinds : a.kind = b.kind) (boots : a.boot = b.boot)
      (sessions : a.reference.sessionId = b.reference.sessionId) (differ : ¬ SameState a b)
  /-- The first session with a nonce counts. -/
  | nonce (kind : a.kind = .session) (kinds : a.kind = b.kind) (boots : a.boot = b.boot)
      (nonces : a.reference.nonce = b.reference.nonce) (differ : a.reference ≠ b.reference)
  /-- Whether a user runs is read from the user's latest fact. -/
  | user (kind : a.kind = .user) (kinds : a.kind = b.kind) (boots : a.boot = b.boot)
      (users : userKey a = userKey b) (differ : running a ≠ running b)
  /-- A removal counts only after the user was observed and before a failure. -/
  | removal (boots : a.boot = b.boot) (users : userKey a = userKey b)
      (removed : seenOutcome a = some .removed) (differ : ∃ seen, seenOutcome b = some seen ∧ seen ≠ .removed)
  /-- A user's first receipt counts, and how it came. -/
  | receipt (kind : a.kind = .receipt) (kinds : a.kind = b.kind) (boots : a.boot = b.boot)
      (users : userKey a = userKey b) (differ : a.classification ≠ b.classification)

/-- No two facts that contend share their elapsed time. -/
def Untied (facts : List Observation) : Prop :=
  ∀ a ∈ facts, ∀ b ∈ facts, a.elapsed = b.elapsed → ¬ Contends a b

/-! ## The users -/

/-- What a fact does to the outcomes, as the outcome it shows. -/
def mark (seen : Health) (result : List Health) : List Health :=
  match TicketMachine.outcomeOf seen.user seen.serial result with
  | none => if seen.outcome = .removed then result else result ++ [seen]
  | some known =>
    if known = .observing ∧ seen.outcome ≠ .observing then
      setLast (fun h => h.user = seen.user && h.serial = seen.serial) seen result
    else result

theorem observeUser_eq_mark {boot : Text} {since : Int64} {o : Observation} {seen : Outcome}
    (found : seenOutcome o = some seen) (named : o.user ≠ noUser)
    (inside : ¬ (o.boot ≠ boot ∨ o.elapsed < since)) (result : List Health) :
    observeUser boot since result o = mark ⟨⟨o.user, o.serial, seen⟩, o.health_valid named⟩ result := by
  rw [observeUser, dif_neg named, if_neg inside, found]
  rfl

theorem setLast_append {p : Health → Bool} {x y : Health} {l : List Health}
    (none_ : ∀ h ∈ l, p h = false) (matched : p y = true) : setLast p x (l ++ [y]) = l ++ [x] := by
  induction l with
  | nil => simp [setLast, matched]
  | cons h rest ih =>
    rw [cons_append, setLast, if_pos (by simp [matched]), ih (fun a among => none_ a (by simp [among]))]
    rfl

theorem getLast_setLast {p : Health → Bool} {x : Health} {l : List Health}
    (all : ∀ h ∈ l, p h = true) (some_ : l ≠ []) : (setLast p x l).getLast? = some x := by
  induction l with
  | nil => exact absurd rfl some_
  | cons h rest ih =>
    unfold setLast
    split
    · rename_i later
      obtain ⟨a, among, _⟩ := any_eq_true.mp later
      have rest' := ih (fun b inside => all b (mem_cons_of_mem _ inside))
        (ne_nil_of_mem among)
      rw [List.getLast?_cons, rest']
      rfl
    · rename_i last
      rw [if_pos (all h mem_cons_self)]
      cases rest with
      | nil => rfl
      | cons b rest =>
        exact absurd (any_eq_true.mpr ⟨b, mem_cons_self,
          all b (by simp)⟩) last

theorem outcomeOf_setLast {x : Health} {l : List Health} {before : Outcome}
    (known : TicketMachine.outcomeOf x.user x.serial l = some before) :
    TicketMachine.outcomeOf x.user x.serial
      (setLast (fun h => h.user = x.user && h.serial = x.serial) x l) = some x.outcome := by
  have own : (fun h : Health => decide (h.user = x.user ∧ h.serial = x.serial)) =
      fun h => decide (h.user = x.user) && decide (h.serial = x.serial) := by
    funext h
    exact Bool.decide_and _ _
  unfold TicketMachine.outcomeOf at known ⊢
  rw [own] at known ⊢
  rw [filter_setLast_same (by simp), getLast_setLast (fun h inside => (mem_filter.mp inside).2)]
  · rfl
  · intro empty
    simp [empty] at known

/-- A user seen failing ends the same before and after being seen running. -/
theorem mark_comm {running failing : Health} (users : running.user = failing.user)
    (serials : running.serial = failing.serial) (runs : running.outcome = .observing)
    (fails : failing.outcome = .unhealthy) (result : List Health) :
    mark failing (mark running result) = mark running (mark failing result) := by
  have about : ∀ l, TicketMachine.outcomeOf running.user running.serial l =
      TicketMachine.outcomeOf failing.user failing.serial l := by
    intro l
    rw [users, serials]
  cases known : TicketMachine.outcomeOf failing.user failing.serial result with
  | none =>
    have fresh : ∀ h ∈ result,
        (decide (h.user = failing.user) && decide (h.serial = failing.serial)) = false := by
      intro h inside
      rw [outcomeOf_eq_none] at known
      rw [Bool.eq_false_iff]
      intro same
      simp only [Bool.and_eq_true, decide_eq_true_eq] at same
      exact known (mem_map.mpr ⟨h, inside, Prod.ext same.1 same.2⟩)
    have ends : ∀ h : Health, h.user = failing.user → h.serial = failing.serial →
        TicketMachine.outcomeOf failing.user failing.serial (result ++ [h]) = some h.outcome := by
      intro h user serial
      simp [TicketMachine.outcomeOf, filter_append, user, serial]
    have first : mark running result = result ++ [running] := by simp [mark, about, known, runs]
    have second : mark failing result = result ++ [failing] := by simp [mark, known, fails]
    rw [first, second, mark, ends running users serials, mark, about, ends failing rfl rfl]
    simp only [runs, fails, ne_eq, reduceCtorEq, not_false_eq_true, and_self, false_and, if_true,
      if_false]
    exact setLast_append fresh (by simp [users, serials])
  | some before =>
    have settled : ∀ l x, TicketMachine.outcomeOf failing.user failing.serial l = some x →
        mark running l = l := by
      intro l x found
      simp [mark, about, found, runs]
    rw [settled result before known]
    by_cases open_ : before = .observing
    · have replaced : mark failing result = setLast (fun h => h.user = failing.user &&
          h.serial = failing.serial) failing result := by simp [mark, known, open_, fails]
      rw [replaced]
      refine (settled _ failing.outcome ?_).symm
      exact outcomeOf_setLast known
    · have final : mark failing result = result := by simp [mark, known, open_]
      rw [final, settled result before known]

/-- Two facts of one user that tie and do not contend may be read in either
order. -/
theorem observeUser_comm {boot : Text} {since : Int64} {a b : Observation}
    (users : userKey a = userKey b) (there : ¬ Contends a b)
    (back : ¬ Contends b a) (result : List Health) :
    observeUser boot since (observeUser boot since result a) b =
      observeUser boot since (observeUser boot since result b) a := by
  obtain ⟨user, serial⟩ := Prod.ext_iff.mp users
  simp only [userKey] at user serial
  have skips : ∀ o : Observation, o.user = noUser ∨ (o.boot ≠ boot ∨ o.elapsed < since) ∨
      seenOutcome o = none → ∀ l, observeUser boot since l o = l := by
    intro o skipped l
    unfold observeUser
    split
    · rfl
    rename_i named
    split
    · rfl
    rename_i inside
    rcases skipped with unnamed | outside | unseen
    · exact absurd unnamed named
    · exact absurd outside inside
    · rw [unseen]
  by_cases skipA : a.user = noUser ∨ (a.boot ≠ boot ∨ a.elapsed < since) ∨ seenOutcome a = none
  · rw [skips a skipA, skips a skipA]
  by_cases skipB : b.user = noUser ∨ (b.boot ≠ boot ∨ b.elapsed < since) ∨ seenOutcome b = none
  · rw [skips b skipB, skips b skipB]
  simp only [not_or] at skipA skipB
  obtain ⟨namedA, insideA, seenA⟩ := skipA
  obtain ⟨namedB, insideB, seenB⟩ := skipB
  obtain ⟨x, foundA⟩ := Option.ne_none_iff_exists'.mp seenA
  obtain ⟨y, foundB⟩ := Option.ne_none_iff_exists'.mp seenB
  have boots : a.boot = b.boot := by
    have inA := not_not.mp insideA.1
    have inB := not_not.mp insideB.1
    exact inA.trans inB.symm
  simp only [observeUser_eq_mark foundA namedA (not_or.mpr insideA),
    observeUser_eq_mark foundB namedB (not_or.mpr insideB)]
  by_cases same : x = y
  · -- Both facts show the same of one user.
    have marks : (⟨⟨a.user, a.serial, x⟩, a.health_valid namedA⟩ : Health) =
        ⟨⟨b.user, b.serial, y⟩, b.health_valid namedB⟩ := by
      simp only [user, serial, same]
    rw [marks]
  have keptA : x ≠ .removed := by
    rintro rfl
    exact there (.removal boots users foundA ⟨y, foundB, fun removed => same removed.symm⟩)
  have keptB : y ≠ .removed := by
    rintro rfl
    exact back (.removal boots.symm users.symm foundB ⟨x, foundA, same⟩)
  rcases seenOutcome_cases foundA with rfl | rfl | rfl
  · exact absurd rfl keptA
  · rcases seenOutcome_cases foundB with rfl | rfl | rfl
    · exact absurd rfl keptB
    · exact absurd rfl same
    · exact (mark_comm user.symm serial.symm rfl rfl result).symm
  · rcases seenOutcome_cases foundB with rfl | rfl | rfl
    · exact absurd rfl keptB
    · exact mark_comm user serial rfl rfl result
    · exact absurd rfl same

/-! ## Reading the facts in another order -/

/-- The latest match over either order is the same as far as it counts. -/
theorem latest_perm {p : Observation → Bool} {l m : List Observation} (orders : l.Perm m)
    {R : Observation → Observation → Prop}
    (alike : ∀ a ∈ m, ∀ b ∈ m, p a = true → p b = true → a.elapsed = b.elapsed → R a b) :
    Option.Rel R (pick p (fun o best => best.elapsed ≤ o.elapsed) l)
      (pick p (fun o best => best.elapsed ≤ o.elapsed) m) := by
  refine rel_mono (pick_perm follows_latest orders) ?_
  rintro a b ⟨⟨inA, matchA⟩, ⟨inB, matchB⟩, times⟩
  exact alike a (orders.mem_iff.mp inA) b inB matchA matchB (congrArg Time.millis times)

theorem first_perm {p : Observation → Bool} {l m : List Observation} (orders : l.Perm m)
    {R : Observation → Observation → Prop}
    (alike : ∀ a ∈ m, ∀ b ∈ m, p a = true → p b = true → a.elapsed = b.elapsed → R a b) :
    Option.Rel R (pick p (fun o best => o.elapsed < best.elapsed) l)
      (pick p (fun o best => o.elapsed < best.elapsed) m) := by
  refine rel_mono (pick_perm follows_first orders) ?_
  rintro a b ⟨⟨inA, matchA⟩, ⟨inB, matchB⟩, times⟩
  exact alike a (orders.mem_iff.mp inA) b inB matchA matchB
    (congrArg Time.millis (OrderDual.toDual_inj.mp times))

theorem content_perm {v w : View} (sameBoot : v.boot = w.boot) (perm : v.facts.Perm w.facts)
    (untied : Untied w.facts) (kind : ObservationKind)
    (among : kind = .boot ∨ kind = .checkpoint ∨ kind = .factory ∨ kind = .active) :
    Option.Rel SameContent (v.latest kind) (w.latest kind) := by
  unfold View.latest
  rw [sameBoot]
  refine latest_perm perm ?_
  intro a inA b inB matchA matchB times
  simp only [Bool.and_eq_true, decide_eq_true_eq] at matchA matchB
  by_contra differ
  exact untied a inA b inB times (.latest (matchA.1 ▸ among) (matchA.1.trans matchB.1.symm)
    (matchA.2.trans matchB.2.symm) differ)

theorem mirrors_perm {v w : View} (perm : v.facts.Perm w.facts) : Mirrors v w := by
  intro o inside _
  exact ⟨o, perm.mem_iff.mp inside, rfl, rfl, rfl, rfl, rfl, rfl⟩

theorem cohort_perm {v w : View} (sameBoot : v.boot = w.boot) (perm : v.facts.Perm w.facts)
    (untied : Untied w.facts) : SameCohort v w where
  sameBoot := sameBoot
  boot := content_perm sameBoot perm untied .boot (.inl rfl)
  factory := content_perm sameBoot perm untied .factory (.inr (.inr (.inl rfl)))
  active := content_perm sameBoot perm untied .active (.inr (.inr (.inr rfl)))
  bound := bound_apks_congr (mirrors_perm perm) (mirrors_perm perm.symm)

section
variable {c : Context} {v : View} (sameBoot : v.boot = c.view.boot)
  (perm : v.facts.Perm c.view.facts) (untied : Untied c.view.facts)
include sameBoot perm

theorem ofKind_perm (kind : ObservationKind) : (v.ofKind kind).Perm (c.view.ofKind kind) := by
  unfold View.ofKind
  rw [sameBoot]
  exact perm.filter _

include untied

theorem sessions_perm :
    SameSessions v c.view (latestExact (c.withView v sameBoot)) (latestExact c) where
  perm := ofKind_perm sameBoot perm .session
  state := by
    refine latest_perm (ofKind_perm sameBoot perm .session) ?_
    intro a inA b inB exactA exactB times
    obtain ⟨factA, kindA, bootA⟩ := View.mem_ofKind.mp inA
    obtain ⟨factB, kindB, bootB⟩ := View.mem_ofKind.mp inB
    refine ⟨?_, times⟩
    by_contra differ
    refine untied a factA b factB times (.state kindA (kindA.trans kindB.symm)
      (bootA.trans bootB.symm) ?_ differ)
    simp only [isExact, Bool.and_eq_true, decide_eq_true_eq] at exactA exactB
    exact exactA.1.1.1.1.1.2.symm.trans exactB.1.1.1.1.1.2

theorem notice_perm : SameNotice c v sameBoot where
  users := ofKind_perm sameBoot perm .user
  latest user serial := by
    rw [latestUserFact_eq_latest, latestUserFact_eq_latest]
    refine latest_perm (ofKind_perm sameBoot perm .user) ?_
    intro a inA b inB keyA keyB times
    obtain ⟨factA, kindA, bootA⟩ := View.mem_ofKind.mp inA
    obtain ⟨factB, kindB, bootB⟩ := View.mem_ofKind.mp inB
    simp only [Bool.and_eq_true, decide_eq_true_eq] at keyA keyB
    by_contra differ
    exact untied a factA b factB times (.user kindA (kindA.trans kindB.symm)
      (bootA.trans bootB.symm) (Prod.ext (keyA.1.trans keyB.1.symm) (keyA.2.trans keyB.2.symm)) differ)
  receipts key := by
    have given : ∀ r, givenNow (c.withView v sameBoot) r = givenNow c r := by
      intro r
      unfold givenNow
      rw [withView_view, sameBoot]
      rfl
    have firsts : Option.Rel (fun a b : Observation =>
        a.elapsed = b.elapsed ∧ a.classification = b.classification)
        (firstReceipt (c.withView v sameBoot) key.1 key.2) (firstReceipt c key.1 key.2) := by
      unfold firstReceipt
      simp only [given]
      refine first_perm (ofKind_perm sameBoot perm .receipt) ?_
      intro a inA b inB keyA keyB times
      obtain ⟨factA, kindA, bootA⟩ := View.mem_ofKind.mp inA
      obtain ⟨factB, kindB, bootB⟩ := View.mem_ofKind.mp inB
      simp only [Bool.and_eq_true, decide_eq_true_eq] at keyA keyB
      refine ⟨times, ?_⟩
      by_contra differ
      exact untied a factA b factB times (.receipt kindA (kindA.trans kindB.symm)
        (bootA.trans bootB.symm)
        (Prod.ext (keyA.1.1.trans keyB.1.1.symm) (keyA.1.2.trans keyB.1.2.symm)) differ)
    unfold receiptOf
    rcases rel_cases firsts with ⟨none_, none'⟩ | ⟨a, b, some_, some', times, classes⟩
    · rw [none_, none']
    · rw [some_, some', Option.map_some, Option.map_some, times, classes]
  recorded id index := (ofKind_perm sameBoot perm .receipt).any_eq

/-- A view of the same facts in another order tells a step the same. -/
theorem alike_of_perm : Alike c v sameBoot where
  there := mirrors_perm perm
  back := mirrors_perm perm.symm
  latest := content_perm sameBoot perm untied
  completedAt := by
    unfold View.completedAt
    rw [sameBoot]
    have firsts := first_perm perm (R := fun a b => a.elapsed = b.elapsed)
      (p := fun o => o.classification = .bootCompleted && o.boot = c.view.boot)
      (fun _ _ _ _ _ _ times => times)
    rcases rel_cases firsts with ⟨none_, none'⟩ | ⟨a, b, some_, some', times⟩
    · rw [none_, none']
    · rw [some_, some', Option.map_some, Option.map_some, times]
  reply id index := by
    rw [View.reply_eq_latest, View.reply_eq_latest]
    refine latest_perm perm ?_
    intro a inA b inB matchA matchB times
    simp only [Bool.and_eq_true, decide_eq_true_eq] at matchA matchB
    by_contra differ
    exact untied a inA b inB times (.reply matchA.1.1 (matchA.1.1.trans matchB.1.1.symm)
      (matchA.1.2.trans matchB.1.2.symm) (Option.some.inj (matchA.2.trans matchB.2.symm)) differ)
  found := by
    rw [foundBy_eq_first, foundBy_eq_first]
    refine first_perm (ofKind_perm sameBoot perm .session) ?_
    intro a inA b inB matchA matchB times
    obtain ⟨factA, kindA, bootA⟩ := View.mem_ofKind.mp inA
    obtain ⟨factB, kindB, bootB⟩ := View.mem_ofKind.mp inB
    simp only [Bool.and_eq_true, decide_eq_true_eq] at matchA matchB
    by_contra differ
    exact untied a factA b factB times (.nonce kindA (kindA.trans kindB.symm)
      (bootA.trans bootB.symm) (matchA.1.2.trans matchB.1.2.symm) differ)
  sessions := sessions_perm sameBoot perm untied
  lists listing inside := ⟨listing, (ofKind_perm sameBoot perm .listing).mem_iff.mp inside,
    ⟨rfl, rfl, rfl, rfl, rfl⟩, fun _ _ order => order⟩
  lists' listing inside := ⟨listing, (ofKind_perm sameBoot perm .listing).mem_iff.mpr inside,
    ⟨rfl, rfl, rfl, rfl, rfl⟩, fun _ _ order => order⟩
  notice := notice_perm sameBoot perm untied
  health := ofKind_perm sameBoot perm .health
  users since key current := by
    refine foldl_eq_of_sorted_perm (r := fun x y : Observation => x.elapsed ≤ y.elapsed)
      (perm.filter _) (v.sorted.filter _) (c.view.sorted.filter _) ?_ current
    intro a inA b inB before after s
    obtain ⟨factA, keyA⟩ := mem_filter.mp inA
    obtain ⟨factB, keyB⟩ := mem_filter.mp inB
    have users := (of_decide_eq_true keyA).trans (of_decide_eq_true keyB).symm
    have times := Int64.le_antisymm before after
    have memberA := perm.mem_iff.mp factA
    have memberB := perm.mem_iff.mp factB
    exact observeUser_comm users (untied a memberA b memberB times)
      (untied b memberB a memberA times.symm) s

end

/-! ## The resumed coordinator -/

theorem View.ofFacts_perm (boot component : Text) {xs ys : List Observation} (perm : ys.Perm xs) :
    (View.ofFacts boot component ys).facts.Perm (View.ofFacts boot component xs).facts :=
  (perm_insertionSort _ _).trans
    ((perm.filter _).trans (perm_insertionSort _ _).symm)

theorem untied_ofFacts {xs : List Observation} (untied : Untied xs) (boot component : Text) :
    Untied (View.ofFacts boot component xs).facts := by
  have inside : ∀ o ∈ (View.ofFacts boot component xs).facts, o ∈ xs := by
    intro o member
    exact (mem_filter.mp ((mem_insertionSort _).mp member)).1
  intro a inA b inB
  exact untied a (inside a inA) b (inside b inB)

theorem untied_of_nodup {xs : List Observation} (times : (xs.map (·.elapsed)).Nodup) :
    Untied xs := by
  intro a inA b inB same contends
  obtain rfl := inj_on_of_nodup_map times inA inB same
  cases contends with
  | latest _ _ _ differ | reply _ _ _ _ differ => exact differ ⟨rfl, rfl, rfl, rfl, rfl, rfl⟩
  | state _ _ _ _ differ => exact differ ⟨rfl, rfl, rfl⟩
  | nonce _ _ _ _ differ | user _ _ _ _ differ | receipt _ _ _ _ differ => exact differ rfl
  | removal _ _ removed differ =>
    obtain ⟨seen, found, other⟩ := differ
    exact other (Option.some.inj (found.symm.trans removed))

theorem readyTicket_plan : readyTicket.planId = samplePlan.planId := by decide +kernel

def readyAgain : Context :=
  { sampleSetting with facts := readyFacts }.context readyTicket readyTicket_plan
    (sampleClock '9' 110) (sampleId 'c')

/-- Two reads of the active copy at one time, before and after the framework came
up, with the factory's bytes first. -/
def tiedFacts : List Observation := [
  ⟨sampleBoot 4, by decide +kernel⟩,
  ⟨{ sampleComponentFact .factoryPresent 5 with digest := sampleDigest '4', version := 1 },
    by decide +kernel⟩,
  ⟨{ sampleComponentFact .factoryCopy 10 with
    digest := sampleDigest '4', version := 1, text := "platform_app".toList }, by decide +kernel⟩,
  ⟨{ sampleComponentFact .dataCopy 10 with
    instanceId := 0, digest := sampleDigest '8', version := 3, text := "platform_app".toList },
    by decide +kernel⟩]

/-- The realization that the cohort check finds for the factory choice. -/
def realizationBy (facts : List Observation) : Option Realization :=
  (cohortCheck sampleSelection none none (View.ofFacts (sampleId '9') sampleComponent facts)
    none).toOption.map (·.realization)

end Andrix.Deployment
