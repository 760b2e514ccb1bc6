import Andrix.Deployment.Readings

/-! When two views of one boot give a step the same readings. Each reading
depends on some facts of the view alone, and on their order only where it says
so: precedence reads need no order, the latest and the first reads need it on
ties, and an absence proof needs the times of the listings among the sessions. -/
namespace Andrix.Deployment
open Andrix.Lib List

/-! ## Signing and publication

These facts are decided by precedence, so any two views that hold the same ones
agree. -/

/-- Two facts that a reading by precedence cannot tell apart. -/
structure SameBundle (a b : Observation) : Prop where
  classification : a.classification = b.classification
  subject : a.subject = b.subject
  plan : a.plan = b.plan
  digest : a.digest = b.digest
  bundleApk : a.bundleApk = b.bundleApk
  restorationApk : a.restorationApk = b.restorationApk

variable {a b : Observation}

theorem SameBundle.kind (same : SameBundle a b) : a.kind = b.kind :=
  congrArg Classification.kind same.classification

/-- Every signer and bundle fact of one view has its like in the other. -/
def Mirrors (v w : View) : Prop :=
  ∀ o ∈ v.facts, o.kind = .signer ∨ o.kind = .bundle → ∃ o' ∈ w.facts, SameBundle o o'

/-- Comparing by precedence follows the position in the order. -/
theorem follows_order (order : List Classification) :
    Follows (fun o best : Observation =>
      decide (order.idxOf best.classification < order.idxOf o.classification))
      (fun o => order.idxOf o.classification) := by
  constructor
  · intro x y wins
    simp only [decide_eq_true_eq] at wins
    exact le_of_lt wins
  · intro x y loses
    simp only [decide_eq_false_iff_not, not_lt] at loses
    exact loses

variable {v w : View}

/-- A reading by precedence gives the same classification over both views. -/
theorem precedence_congr (there : Mirrors v w) (back : Mirrors w v)
    {order : List Classification} {p : Observation → Bool}
    (kinds : ∀ o, p o = true → o.kind = .signer ∨ o.kind = .bundle)
    (listed : ∀ o, p o = true → o.classification ∈ order)
    (alike : ∀ a b, SameBundle a b → p a = p b) :
    (pick p (fun o best => order.idxOf best.classification < order.idxOf o.classification)
        v.facts).map (·.classification) =
      (pick p (fun o best => order.idxOf best.classification < order.idxOf o.classification)
        w.facts).map (·.classification) := by
  have reaches : ∀ {x y : View}, Mirrors x y → ∀ o ∈ x.facts, p o = true →
      ∃ o' ∈ y.facts, p o' = true ∧
        order.idxOf o.classification ≤ order.idxOf o'.classification := by
    intro x y mirrors o inside matched
    obtain ⟨o', inside', same⟩ := mirrors o inside (kinds o matched)
    exact ⟨o', inside', (alike o o' same).symm.trans matched,
      le_of_eq (congrArg order.idxOf same.classification)⟩
  rcases rel_cases (pick_rel (follows_order order) (reaches there) (reaches back)) with
    ⟨none_, none'⟩ | ⟨a, b, some_, some', ⟨_, matchA⟩, _, ranks⟩
  · rw [none_, none']
  · rw [some_, some', Option.map_some, Option.map_some,
      (idxOf_inj (listed a matchA)).mp ranks]

theorem signer_congr (there : Mirrors v w) (back : Mirrors w v) (request : Text) :
    v.signer request = w.signer request := by
  refine precedence_congr there back ?_ ?_ ?_
  · intro o matched
    simp only [Bool.and_eq_true, decide_eq_true_eq] at matched
    exact .inl matched.1
  · intro o matched
    simp only [Bool.and_eq_true, decide_eq_true_eq] at matched
    have kind : o.classification.kind = .signer := matched.1
    cases found : o.classification <;> rw [found] at kind <;> simp_all [Classification.kind]
  · intro a b same
    rw [same.kind, same.subject]

theorem publication_congr (there : Mirrors v w) (back : Mirrors w v)
    (attempt plan : Text) : v.publication attempt plan = w.publication attempt plan := by
  refine precedence_congr there back ?_ ?_ ?_
  · intro o matched
    simp only [Bool.and_eq_true, decide_eq_true_eq] at matched
    exact .inr matched.1.1
  · intro o matched
    simp only [Bool.and_eq_true, decide_eq_true_eq] at matched
    have kind : o.classification.kind = .bundle := matched.1.1
    cases found : o.classification <;> rw [found] at kind <;> simp_all [Classification.kind]
  · intro a b same
    rw [same.kind, same.subject, same.plan]

def reads (plan : Text) (o : Observation) : Bool := o.kind = .bundle && o.plan = plan

def readFound (plan : Text) (o : Observation) : Bool :=
  reads plan o && o.classification ≠ .bundleAbsent

/-- What the reads of a plan's publication agree on. -/
structure Agreed (facts : List Observation) (plan : Text) (apks : Text × Text) : Prop where
  matching : ∀ o ∈ facts, reads plan o = true → o.classification ≠ .bundleMismatch
  agree : ∀ a ∈ facts, readFound plan a = true → ∀ b ∈ facts, readFound plan b = true →
    View.disagree a b = false
  apart : ∀ a ∈ facts, reads plan a = true → a.classification = .bundleAbsent → ∀ b ∈ facts,
    readFound plan b = true → a.subject ≠ b.subject
  found : ∃ o ∈ facts, readFound plan o = true ∧ (o.bundleApk, o.restorationApk) = apks

theorem disagree_eq_false : View.disagree a b = false ↔
    a.digest = b.digest ∧ a.bundleApk = b.bundleApk ∧ a.restorationApk = b.restorationApk := by
  simp [View.disagree, and_assoc]

/-- Reads that agree with a first one agree with each other. -/
theorem agree_cons {held : Option Observation} {o : Observation} {rest : List Observation}
    (agrees : ∀ f ∈ held, View.disagree f o = false) :
    (∀ a ∈ held.toList ++ o :: rest, ∀ b ∈ o :: rest, View.disagree a b = false) ↔
      ∀ a ∈ o :: rest, ∀ b ∈ rest, View.disagree a b = false := by
  simp only [disagree_eq_false] at agrees ⊢
  constructor
  · intro all a inA b inB
    exact all a (mem_append_right _ inA) b (mem_cons_of_mem _ inB)
  intro all
  have like : ∀ a ∈ held.toList ++ o :: rest,
      a.digest = o.digest ∧ a.bundleApk = o.bundleApk ∧ a.restorationApk = o.restorationApk := by
    intro a inside
    rcases mem_append.mp inside with before | inside
    · exact agrees a (Option.mem_toList.mp before)
    rcases mem_cons.mp inside with rfl | later
    · exact ⟨rfl, rfl, rfl⟩
    · obtain ⟨x, y, z⟩ := all o mem_cons_self a later
      exact ⟨x.symm, y.symm, z.symm⟩
  intro a inA b inB
  obtain ⟨x, y, z⟩ := like a inA
  obtain ⟨x', y', z'⟩ := like b (mem_append_right _ inB)
  exact ⟨x.trans x'.symm, y.trans y'.symm, z.trans z'.symm⟩

variable {plan : Text}

/-- The loop of `bound`, from what it holds: it ends only on a mismatch or a
disagreement, and collects the subjects of the reads. -/
theorem readBundles_eq_some {l : List Observation} {r r' : View.Reads} :
    View.readBundles plan l r = some r' ↔
      (∀ o ∈ l, reads plan o = true → o.classification ≠ .bundleMismatch) ∧
      (∀ a ∈ r.found.toList ++ l.filter (readFound plan), ∀ b ∈ l.filter (readFound plan),
        View.disagree a b = false) ∧
      r' = ⟨(l.filter (readFound plan)).getLast?.or r.found,
        r.absent ++ (l.filter (fun o => reads plan o && o.classification = .bundleAbsent)).map
          (·.subject),
        r.read ++ (l.filter (readFound plan)).map (·.subject)⟩ := by
  induction l generalizing r with
  | nil =>
    rw [View.readBundles, Option.some.injEq]
    simp only [filter_nil, map_nil, append_nil, List.getLast?_nil, Option.none_or,
      not_mem_nil, false_imp_iff, implies_true, true_and]
    exact eq_comm
  | cons o rest ih =>
    rw [View.readBundles]
    by_cases other : o.kind ≠ .bundle ∨ o.plan ≠ plan
    · have skipped : reads plan o = false := by
        simpa [reads, imp_iff_not_or] using other
      rw [if_pos other, ih]
      simp [readFound, skipped]
    have read : reads plan o = true := by
      simpa [reads, imp_iff_not_or, not_or] using other
    rw [if_neg other]
    by_cases mismatch : o.classification = .bundleMismatch
    · simp [mismatch, read]
    rw [if_neg mismatch]
    by_cases absent : o.classification = .bundleAbsent
    · rw [if_pos absent, ih]
      simp [readFound, read, absent]
    rw [if_neg absent]
    have kept : readFound plan o = true := by simp [readFound, read, absent]
    by_cases clash : r.found.any (fun f => View.disagree f o) = true
    · rw [if_pos clash]
      obtain ⟨f, held, differs⟩ := (Option.any_eq_true _ _).mp clash
      refine iff_of_false (by simp) (fun whole => ?_)
      have same := whole.2.1 f (by simp [held]) o (by simp [kept])
      simp [same] at differs
    rw [if_neg clash, ih]
    have agrees : ∀ f ∈ r.found, View.disagree f o = false := by
      intro f held
      simpa using fun differs => clash ((Option.any_eq_true _ _).mpr ⟨f, held, differs⟩)
    have filtered : (o :: rest).filter (readFound plan) = o :: rest.filter (readFound plan) :=
      filter_cons_of_pos kept
    have missing : (o :: rest).filter
        (fun o => reads plan o && o.classification = .bundleAbsent) =
        rest.filter (fun o => reads plan o && o.classification = .bundleAbsent) :=
      filter_cons_of_neg (by simp [absent])
    have last : (o :: rest.filter (readFound plan)).getLast?.or r.found =
        (rest.filter (readFound plan)).getLast?.or (some o) := by
      cases found : (rest.filter (readFound plan)).getLast? with
      | none => simp [List.getLast?_eq_none_iff.mp found]
      | some x => simp [List.getLast?_cons, found]
    rw [filtered, missing, agree_cons agrees, last, forall_mem_cons (l := rest)]
    simp [mismatch]

/-- The publication is bound to what all its reads agree on. -/
theorem bound_eq_some {v : View} {apks : Text × Text} :
    (v.bound plan).map (fun o => (o.bundleApk, o.restorationApk)) = some apks ↔
      Agreed v.facts plan apks := by
  have apart {facts : List Observation} : ((facts.filter (fun o => reads plan o &&
      o.classification = .bundleAbsent)).map (·.subject)).any (fun attempt =>
        ((facts.filter (readFound plan)).map (·.subject)).contains attempt) = false ↔
      ∀ a ∈ facts, reads plan a = true → a.classification = .bundleAbsent → ∀ b ∈ facts,
        readFound plan b = true → a.subject ≠ b.subject := by
    constructor
    · intro distinct a inA readA absent b inB keptB same
      refine any_eq_false.mp distinct a.subject ?_ ?_
      · exact mem_map.mpr ⟨a, mem_filter.mpr ⟨inA, by simp [readA, absent]⟩, rfl⟩
      · rw [contains_iff_mem, same]
        exact mem_map.mpr ⟨b, mem_filter.mpr ⟨inB, keptB⟩, rfl⟩
    intro distinct
    refine any_eq_false.mpr (fun subject inside contains => ?_)
    rw [contains_iff_mem] at contains
    obtain ⟨a, inA, rfl⟩ := mem_map.mp inside
    obtain ⟨b, inB, same⟩ := mem_map.mp contains
    obtain ⟨inA, absent⟩ := mem_filter.mp inA
    obtain ⟨inB, keptB⟩ := mem_filter.mp inB
    simp only [Bool.and_eq_true, decide_eq_true_eq] at absent
    exact distinct a inA absent.1 absent.2 b inB keptB same.symm
  constructor
  · intro found
    obtain ⟨o, bound, rfl⟩ := Option.map_eq_some_iff.mp found
    simp only [View.bound, Option.bind_eq_bind, Option.bind_eq_some_iff] at bound
    obtain ⟨r, loop, result⟩ := bound
    obtain ⟨matching, agree, rfl⟩ := readBundles_eq_some.mp loop
    simp only [nil_append, Option.or_none, Option.toList_none] at result agree
    split at result
    · cases result
    rename_i distinct
    obtain ⟨inside, kept⟩ := mem_filter.mp (mem_of_getLast? result)
    refine ⟨matching, ?_, apart.mp (by simpa using distinct), o, inside, kept, rfl⟩
    intro a inA keptA b inB keptB
    exact agree a (mem_filter.mpr ⟨inA, keptA⟩) b (mem_filter.mpr ⟨inB, keptB⟩)
  · rintro ⟨matching, agree, distinct, o, inside, kept, rfl⟩
    have loop := readBundles_eq_some (l := v.facts) (r := {}) |>.mpr ⟨matching, by
      intro a inA b inB
      simp only [Option.toList_none, nil_append] at inA
      obtain ⟨inA, keptA⟩ := mem_filter.mp inA
      obtain ⟨inB, keptB⟩ := mem_filter.mp inB
      exact agree a inA keptA b inB keptB, rfl⟩
    have member : o ∈ v.facts.filter (readFound plan) := mem_filter.mpr ⟨inside, kept⟩
    obtain ⟨last, ends⟩ := Option.isSome_iff_exists.mp
      (List.getLast?_isSome.mpr (ne_nil_of_mem member))
    obtain ⟨inLast, keptLast⟩ := mem_filter.mp (mem_of_getLast? ends)
    obtain ⟨_, bundle, restoration⟩ := disagree_eq_false.mp (agree last inLast keptLast o inside kept)
    simp only [View.bound, loop, Option.bind_eq_bind, Option.bind_some, nil_append,
      apart.mpr distinct, Bool.false_eq_true, if_false, ends, Option.some_or, Option.map_some,
      bundle, restoration]

theorem Agreed.mirrored (there : Mirrors v w) (back : Mirrors w v)
    {apks : Text × Text} (agreed : Agreed v.facts plan apks) : Agreed w.facts plan apks := by
  have like : ∀ o ∈ w.facts, reads plan o = true → ∃ o' ∈ v.facts, SameBundle o o' := by
    intro o inside read
    simp only [reads, Bool.and_eq_true, decide_eq_true_eq] at read
    exact back o inside (.inr read.1)
  have same_reads : ∀ a b, SameBundle a b → reads plan a = reads plan b := by
    intro a b same
    rw [reads, reads, same.kind, same.plan]
  have same_found : ∀ a b, SameBundle a b → readFound plan a = readFound plan b := by
    intro a b same
    rw [readFound, readFound, same_reads a b same, same.classification]
  have found_reads : ∀ o, readFound plan o = true → reads plan o = true := by
    intro o found
    exact (Bool.and_eq_true_iff.mp found).1
  constructor
  · intro o inside read
    obtain ⟨o', inside', same⟩ := like o inside read
    rw [same.classification]
    exact agreed.matching o' inside' ((same_reads o o' same).symm.trans read)
  · intro a inA keptA b inB keptB
    obtain ⟨a', inA', sameA⟩ := like a inA (found_reads a keptA)
    obtain ⟨b', inB', sameB⟩ := like b inB (found_reads b keptB)
    have agree := agreed.agree a' inA' ((same_found a a' sameA).symm.trans keptA) b' inB'
      ((same_found b b' sameB).symm.trans keptB)
    rw [disagree_eq_false] at agree ⊢
    rw [sameA.digest, sameB.digest, sameA.bundleApk, sameB.bundleApk, sameA.restorationApk,
      sameB.restorationApk]
    exact agree
  · intro a inA readA absent b inB keptB
    obtain ⟨a', inA', sameA⟩ := like a inA readA
    obtain ⟨b', inB', sameB⟩ := like b inB (found_reads b keptB)
    rw [sameA.subject, sameB.subject]
    exact agreed.apart a' inA' ((same_reads a a' sameA).symm.trans readA)
      (sameA.classification.symm.trans absent) b' inB' ((same_found b b' sameB).symm.trans keptB)
  · obtain ⟨o, inside, kept, apks⟩ := agreed.found
    have read := found_reads o kept
    simp only [reads, Bool.and_eq_true, decide_eq_true_eq] at read
    obtain ⟨o', inside', same⟩ := there o inside (.inr read.1)
    refine ⟨o', inside', (same_found o o' same).symm.trans kept, ?_⟩
    rw [← same.bundleApk, ← same.restorationApk]
    exact apks

theorem bound_apks_congr (there : Mirrors v w) (back : Mirrors w v) (plan : Text) :
    (v.bound plan).map (fun o => (o.bundleApk, o.restorationApk)) =
      (w.bound plan).map (fun o => (o.bundleApk, o.restorationApk)) := by
  apply Option.ext
  intro apks
  rw [bound_eq_some, bound_eq_some]
  exact ⟨Agreed.mirrored there back, Agreed.mirrored back there⟩

/-! ## The native session

An absence proof counts the session facts and compares their times with the
listing's, so it needs the same sessions and, for each listing, one of the same
content that no session came between. -/

structure SameListing (a b : Observation) : Prop where
  classification : a.classification = b.classification
  boot : a.boot = b.boot
  instanceId : a.instanceId = b.instanceId
  route : a.route = b.route
  number : a.number = b.number

/-- Every listing of one view has its like in the other, no older than any session
it was no older than. -/
def Lists (v w : View) : Prop :=
  ∀ listing ∈ v.ofKind .listing, ∃ listing' ∈ w.ofKind .listing, SameListing listing listing' ∧
    ∀ s ∈ v.ofKind .session, s.elapsed ≤ listing.elapsed → s.elapsed ≤ listing'.elapsed

/-- The same session facts, with the same state of the exact session by its latest
fact. -/
structure SameSessions (v w : View) (latest latest' : Option Observation) : Prop where
  perm : (v.ofKind .session).Perm (w.ofKind .session)
  state : Option.Rel (fun s s' => SameState s s' ∧ s.elapsed = s'.elapsed) latest latest'

theorem listed_congr (same : SameListing a b) : listed a = listed b := by
  funext s
  rw [listed, listed, same.instanceId]

variable {c d : Context}

theorem listedWithout_congr (tickets : d.ticket = c.ticket)
    (perm : (c.view.ofKind .session).Perm (d.view.ofKind .session))
    (same : SameListing a b) : listedWithout c a = listedWithout d b := by
  have sessions := perm.filter (listed b)
  simp only [listedWithout, tickets, listed_congr same, same.number, sessions.length_eq,
    sessions.any_eq]

theorem later_congr (same : SameListing a b) (e : Option Entry) :
    later a e = later b e := by
  simp only [later, same.boot, same.instanceId]

/-- An absence proof over one view is one over the other. -/
theorem absentSince_mono (tickets : d.ticket = c.ticket)
    (perm : (c.view.ofKind .session).Perm (d.view.ofKind .session)) (lists : Lists c.view d.view)
    {exact_ exact' : Option Observation} (inside : ∀ s ∈ exact_, s ∈ c.view.ofKind .session)
    (times : exact_.map (·.elapsed) = exact'.map (·.elapsed)) {e : Option Entry}
    (absent : absentSince c exact_ e = true) : absentSince d exact' e = true := by
  simp only [absentSince, any_eq_true, Bool.and_eq_true, decide_eq_true_eq] at absent ⊢
  obtain ⟨listing, member, ⟨⟨known, after⟩, order⟩, without⟩ := absent
  obtain ⟨listing', member', same, between⟩ := lists listing member
  refine ⟨listing', member', ⟨⟨?_, ?_⟩, ?_⟩, ?_⟩
  · exact same.classification ▸ known
  · exact (later_congr same e).symm.trans after
  · cases exact_ with
    | none => cases exact' with
      | none => rfl
      | some s' => simp at times
    | some s => cases exact' with
      | none => simp at times
      | some s' =>
        simp only [Option.map_some, Option.some.injEq, Option.all_some, decide_eq_true_eq]
          at times order ⊢
        rw [← times]
        exact between s (inside s rfl) order
  · exact (listedWithout_congr tickets perm same).symm.trans without

theorem absentAfter_mono (tickets : d.ticket = c.ticket)
    (perm : (c.view.ofKind .session).Perm (d.view.ofKind .session)) (lists : Lists c.view d.view)
    {e : Option Entry} (absent : absentAfter c e = true) : absentAfter d e = true := by
  simp only [absentAfter, any_eq_true] at absent ⊢
  obtain ⟨listing, member, shows⟩ := absent
  obtain ⟨listing', member', same, _⟩ := lists listing member
  have sessions := perm.filter (listed listing')
  refine ⟨listing', member', ?_⟩
  simpa only [later_congr same, same.classification, same.route, same.number, listed_congr same,
    sessions.all_eq, sessions.length_eq, tickets] using shows

theorem latestExact_mem {c : Context} : ∀ s ∈ latestExact c, s ∈ c.view.ofKind .session := by
  intro s found
  exact (pick_some found).1

section
variable {c : Context} {v : View} (same : v.boot = c.view.boot)
  (sessions : SameSessions v c.view (latestExact (c.withView v same)) (latestExact c))
  (lists : Lists v c.view) (lists' : Lists c.view v)
include sessions lists lists'

theorem absentSince_congr (exact_ exact' : Option Observation)
    (inside : ∀ s ∈ exact_, s ∈ v.ofKind .session)
    (inside' : ∀ s ∈ exact', s ∈ c.view.ofKind .session)
    (times : exact_.map (·.elapsed) = exact'.map (·.elapsed)) (e : Option Entry) :
    absentSince (c.withView v same) exact_ e = absentSince c exact' e := by
  rw [Bool.eq_iff_iff]
  constructor
  · intro absent
    exact absentSince_mono (c := c.withView v same) (d := c) rfl sessions.perm lists inside times absent
  · intro absent
    exact absentSince_mono (c := c) (d := c.withView v same) rfl sessions.perm.symm lists' inside'
      times.symm absent

omit lists lists' in
theorem latestExact_times :
    (latestExact (c.withView v same)).map (·.elapsed) = (latestExact c).map (·.elapsed) := by
  rcases rel_cases sessions.state with ⟨none_, none'⟩ | ⟨s, s', some_, some', _, times⟩
  · rw [none_, none']
  · rw [some_, some', Option.map_some, Option.map_some, times]

theorem goneAfter_congr (e : Option Entry) :
    goneAfter (c.withView v same) e = goneAfter c e :=
  absentSince_congr same sessions lists lists' _ _ latestExact_mem latestExact_mem
    (latestExact_times same sessions) e

theorem absentSince_none_congr (e : Option Entry) :
    absentSince (c.withView v same) none e = absentSince c none e :=
  absentSince_congr same sessions lists lists' none none (by simp) (by simp) rfl e

theorem absentAfter_congr (e : Option Entry) :
    absentAfter (c.withView v same) e = absentAfter c e := by
  rw [Bool.eq_iff_iff]
  constructor
  · exact absentAfter_mono (c := c.withView v same) (d := c) rfl sessions.perm lists
  · exact absentAfter_mono (c := c) (d := c.withView v same) rfl sessions.perm.symm lists'

theorem exactSession_congr :
    Option.Rel SameState (exactSession (c.withView v same)) (exactSession c) := by
  have members := latestExact_mem (c := c.withView v same)
  have members' := latestExact_mem (c := c)
  unfold exactSession
  rcases rel_cases sessions.state with ⟨none_, none'⟩ | ⟨s, s', some_, some', states, times⟩
  · rw [none_, none']
    exact .none
  have shown := absentSince_congr same sessions lists lists' (some s) (some s')
    (by simpa using members s some_) (by simpa using members' s' some')
    (by simp [times]) none
  rw [some_, some', Option.filter_some, Option.filter_some, shown]
  cases absentSince c (some s') none with
  | true => exact .none
  | false => exact .some states

end

end Andrix.Deployment
