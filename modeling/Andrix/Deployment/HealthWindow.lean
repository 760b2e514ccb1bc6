import Andrix.Deployment.Totality

/-! What HEALTHY says about a user when the window completes. The judgement takes
the span's start from the listings before the user's first unlock and compares
it with the first probe only, and neither is bounded by the window's declared
end. So probes that all lie after the end can make a user HEALTHY. -/
namespace Andrix.Deployment
open Andrix.Lib List Int64

/-! ## What the judgement reads -/

/-- The user's probes in the boot since the window began. -/
def probesOf (c : Context) (h : Health) : List Observation :=
  (c.view.ofKind .health).filter (fun o =>
    o.user = h.user && o.serial = h.serial && c.ticket.windowStart ≤ o.elapsed)

/-- When those that held every declared criterion were read, in time order. -/
def heldTimes (c : Context) (h : Health) : List Int64 :=
  ((probesOf c h).filter (holdsCriteria c.plan)).map (·.elapsed)

def spanStart (c : Context) (h : Health) : Int64 :=
  if c.ticket.windowStart < firstUnlock c h.user h.serial then
    ((c.view.ofKind .user).filter (fun o => o.elapsed < firstUnlock c h.user h.serial)).foldl
      (fun start o => if start < o.elapsed then o.elapsed else start) c.ticket.windowStart
  else c.ticket.windowStart

def windowEnd (c : Context) : Int := c.ticket.windowStart.toInt + c.plan.healthWindowMillis.toInt

/-- Two moments at most a quarter of the window apart. -/
def Close (c : Context) (first second : Int) : Prop :=
  4 * (second - first) ≤ c.plan.healthWindowMillis.toInt

variable {c : Context} {h : Health}

theorem mem_probesOf {o : Observation} : o ∈ probesOf c h ↔
    o ∈ c.view.ofKind .health ∧ o.user = h.user ∧ o.serial = h.serial ∧
      c.ticket.windowStart ≤ o.elapsed := by
  simp [probesOf, and_assoc]

theorem judgeUser_healthy : judgeUser c h = .healthy ↔
    (∀ o ∈ probesOf c h, holdsCriteria c.plan o = true) ∧
      covers (heldTimes c h) (spanStart c h)
        (c.ticket.windowStart + c.plan.healthWindowMillis)
        (c.plan.healthWindowMillis / windowParts) = true ∧
      cohortChanged c = false := by
  have judged : judgeUser c h =
      if (probesOf c h).any (fun o => o.classification = .healthDegraded) then .degraded
      else if covers (heldTimes c h) (spanStart c h)
          (c.ticket.windowStart + c.plan.healthWindowMillis)
          (c.plan.healthWindowMillis / windowParts) &&
        !(probesOf c h).any (fun o =>
          o.classification ≠ .healthDegraded && !holdsCriteria c.plan o) &&
        !cohortChanged c then .healthy
      else .inconclusive := rfl
  rw [judged]
  constructor
  · intro healthy
    split at healthy
    · cases healthy
    rename_i undegraded
    split at healthy
    · rename_i passes
      simp only [Bool.and_eq_true, Bool.not_eq_true', any_eq_false] at passes undegraded
      obtain ⟨⟨covered, undoubted⟩, same⟩ := passes
      refine ⟨fun o among => ?_, covered, same⟩
      have other := undegraded
      simp only [any_eq_true, decide_eq_true_eq, not_exists, not_and] at other
      simpa [other o among] using undoubted o among
    · cases healthy
  · rintro ⟨held, covered, same⟩
    have undegraded : (probesOf c h).any (fun o => o.classification = .healthDegraded) = false := by
      simp only [any_eq_false, decide_eq_true_eq]
      intro o among degraded
      simpa [holdsCriteria, degraded] using held o among
    have undoubted : (probesOf c h).any (fun o =>
        o.classification ≠ .healthDegraded && !holdsCriteria c.plan o) = false := by
      simp only [any_eq_false]
      intro o among
      simp [held o among]
    simp only [undegraded, covered, undoubted, same]
    rfl

/-! ## Times

Every time that is compared lies at or after the window's start, so the
differences are exact even where the window's end is no 64 bit number. -/

private theorem quarter_toInt {window : Int64} (positive : 0 < window.toInt) :
    (window / windowParts).toInt = window.toInt / 4 := by
  have upper := window.toInt_lt
  have parts : windowParts.toInt = 4 := rfl
  rw [toInt_div, parts, Int.tdiv_eq_ediv_of_nonneg positive.le]
  simp only [Int.bmod_def]
  omega

private theorem sub_toInt {first second : Int64} (lower : 0 ≤ first.toInt) (upper : 0 ≤ second.toInt) :
    (second - first).toInt = second.toInt - first.toInt := by
  have bounds := first.toInt_lt
  have bounds' := second.toInt_lt
  rw [toInt_sub]
  simp only [Int.bmod_def]
  omega

private theorem stop_sub_toInt {since window last : Int64} (start : 0 ≤ since.toInt)
    (positive : 0 < window.toInt) (later : since.toInt ≤ last.toInt) :
    (since + window - last).toInt = since.toInt + window.toInt - last.toInt := by
  have bounds := since.toInt_lt
  have bounds' := window.toInt_lt
  have bounds'' := last.toInt_lt
  rw [toInt_sub, toInt_add]
  simp only [Int.bmod_def]
  omega

section Completed
variable {c : Context} (state : c.ticket.state = .healthWindow)
include state

theorem windowStart_nonneg : 0 ≤ c.ticket.windowStart.toInt := by
  have valid := c.ticket.rules.windowStart.1 state
  simpa [lt_iff_toInt_lt] using valid

omit state in
theorem healthWindow_pos (c : Context) : 0 < c.plan.healthWindowMillis.toInt := by
  have valid := c.plan.rules.healthWindow
  simpa [le_iff_toInt_le] using valid

theorem le_quarter_iff {first second : Int64} (lower : c.ticket.windowStart ≤ first)
    (upper : c.ticket.windowStart ≤ second) :
    second - first ≤ c.plan.healthWindowMillis / windowParts ↔ Close c first.toInt second.toInt := by
  have start := windowStart_nonneg state
  rw [le_iff_toInt_le] at lower upper
  rw [le_iff_toInt_le, quarter_toInt (healthWindow_pos c), sub_toInt (by omega) (by omega),
    Close]
  omega

theorem stop_le_quarter_iff {last : Int64} (later : c.ticket.windowStart ≤ last) :
    c.ticket.windowStart + c.plan.healthWindowMillis - last ≤
        c.plan.healthWindowMillis / windowParts ↔ Close c last.toInt (windowEnd c) := by
  rw [le_iff_toInt_le] at later
  rw [le_iff_toInt_le, quarter_toInt (healthWindow_pos c),
    stop_sub_toInt (windowStart_nonneg state) (healthWindow_pos c) later, Close, windowEnd]
  omega

theorem coversFrom_iff {last : Int64} {times : List Int64} (lower : c.ticket.windowStart ≤ last)
    (later : ∀ time ∈ times, c.ticket.windowStart ≤ time) :
    coversFrom (c.ticket.windowStart + c.plan.healthWindowMillis)
        (c.plan.healthWindowMillis / windowParts) last times = true ↔
      (last.toInt :: (times.map Int64.toInt ++ [windowEnd c])).IsChain (Close c) := by
  induction times generalizing last with
  | nil => simp [coversFrom, stop_le_quarter_iff state lower]
  | cons time rest ih =>
    have among := later time (by simp)
    simp only [coversFrom, Bool.and_eq_true, decide_eq_true_eq, le_quarter_iff state lower among,
      ih among fun t member => later t (by simp [member]), map_cons, cons_append,
      isChain_cons_cons]

end Completed

theorem windowStart_le_held :
    ∀ time ∈ heldTimes c h, c.ticket.windowStart ≤ time := by
  simp only [heldTimes, forall_mem_map, mem_filter, mem_probesOf]
  intro o among
  exact among.1.2.2.2

/-- A start of the user's span: the window's start, or a later listing of the
users before the user's first unlock. -/
def Starts (c : Context) (h : Health) (start : Int) : Prop :=
  start = c.ticket.windowStart.toInt ∨
    ∃ o ∈ c.view.ofKind .user, o.elapsed.toInt = start ∧ c.ticket.windowStart < o.elapsed ∧
      o.elapsed < firstUnlock c h.user h.serial

private theorem latest_listing (since : Int64) (listings : List Observation) :
    listings.foldl (fun start o => if start < o.elapsed then o.elapsed else start) since = since ∨
      ∃ o ∈ listings, since < o.elapsed ∧
        listings.foldl (fun start o => if start < o.elapsed then o.elapsed else start) since =
          o.elapsed := by
  induction listings generalizing since with
  | nil => exact .inl rfl
  | cons first rest ih =>
    rw [foldl_cons]
    split
    · rename_i later
      rcases ih first.elapsed with same | ⟨o, among, after, found⟩
      · exact .inr ⟨first, by simp, later, same⟩
      · exact .inr ⟨o, by simp [among], Int64.lt_trans later after, found⟩
    · rcases ih since with same | ⟨o, among, after, found⟩
      · exact .inl same
      · exact .inr ⟨o, by simp [among], after, found⟩

theorem starts_spanStart (c : Context) (h : Health) : Starts c h (spanStart c h).toInt := by
  unfold spanStart
  split
  · rcases latest_listing c.ticket.windowStart ((c.view.ofKind .user).filter
      (fun o => o.elapsed < firstUnlock c h.user h.serial)) with same | ⟨o, among, after, found⟩
    · exact .inl (by rw [same])
    · simp only [mem_filter, decide_eq_true_eq] at among
      exact .inr ⟨o, among.1, by rw [found], after, among.2⟩
  · exact .inl rfl

theorem Starts.le {start : Int} (starts : Starts c h start) :
    c.ticket.windowStart.toInt ≤ start := by
  rcases starts with same | ⟨o, _, same, after, _⟩
  · exact same.ge
  · rw [lt_iff_toInt_lt] at after
    omega

theorem covers_iff (state : c.ticket.state = .healthWindow) :
    covers (heldTimes c h) (spanStart c h) (c.ticket.windowStart + c.plan.healthWindowMillis)
        (c.plan.healthWindowMillis / windowParts) = true ↔
      heldTimes c h ≠ [] ∧ ((spanStart c h).toInt ::
        ((heldTimes c h).map Int64.toInt ++ [windowEnd c])).IsChain (Close c) := by
  have later := windowStart_le_held (c := c) (h := h)
  have start : c.ticket.windowStart ≤ spanStart c h :=
    le_iff_toInt_le.mpr (starts_spanStart c h).le
  cases times : heldTimes c h with
  | nil => simp [covers]
  | cons first rest =>
    rw [times] at later
    have among := later first (by simp)
    have others : ∀ time ∈ rest, c.ticket.windowStart ≤ time := fun time member =>
      later time (mem_cons_of_mem _ member)
    simp only [covers, Bool.and_eq_true, decide_eq_true_eq, le_quarter_iff state start among,
      coversFrom_iff state among others, ne_eq, reduceCtorEq,
      not_false_eq_true, true_and, map_cons, cons_append, isChain_cons_cons]

theorem heldTimes_sorted (c : Context) (h : Health) :
    ((heldTimes c h).map Int64.toInt).Pairwise (· ≤ ·) := by
  have sorted : (probesOf c h).Pairwise (fun x y => x.elapsed ≤ y.elapsed) :=
    (c.view.sorted.filter _).filter _
  rw [heldTimes, pairwise_map, pairwise_map]
  exact (sorted.filter _).imp fun order => le_iff_toInt_le.mp order

/-! ## The span inside the window -/

/-- The moments of the user's span that the claim of HEALTHY rests on: its
start, the held probes from there to the window's end, and that end. -/
def spanMoments (c : Context) (h : Health) (start : Int) : List Int :=
  start :: (((heldTimes c h).map Int64.toInt).filter (fun time => start ≤ time ∧ time ≤ windowEnd c) ++
    [windowEnd c])

theorem Close.later {a b x y : Int} (close : Close c a y) (after : a ≤ b) (before : x ≤ y) :
    Close c b x := by
  unfold Close at *
  omega

/-- Leaving out what lies before the start or after the end opens no gap. The
induction carries the last moment kept and the last probe before it. -/
private theorem within_chain {start : Int} {times : List Int} {last reached : Int}
    (sorted : times.Pairwise (· ≤ ·)) (from_ : start ≤ reached) (order : last ≤ reached)
    (chain : (last :: (times ++ [windowEnd c])).IsChain (Close c)) :
    (reached :: (times.filter (fun time => start ≤ time ∧ time ≤ windowEnd c) ++
      [windowEnd c])).IsChain (Close c) := by
  induction times generalizing last reached with
  | nil =>
    simp only [nil_append, isChain_cons_cons] at chain
    simp [chain.1.later order le_rfl]
  | cons time rest ih =>
    obtain ⟨first, sorted⟩ := pairwise_cons.mp sorted
    rw [cons_append, isChain_cons_cons] at chain
    obtain ⟨close, chain⟩ := chain
    by_cases after : windowEnd c < time
    · have none_ : (time :: rest).filter (fun time => start ≤ time ∧ time ≤ windowEnd c) = [] := by
        simp only [filter_eq_nil_iff, mem_cons, decide_eq_true_eq]
        rintro t (rfl | among)
        · omega
        · have := first t among
          omega
      rw [none_]
      simp [close.later order after.le]
    · by_cases before : time < start
      · rw [filter_cons_of_neg (by simp; omega)]
        exact ih sorted from_ (by omega) chain
      · rw [filter_cons_of_pos (by simp; omega), cons_append, isChain_cons_cons]
        exact ⟨close.later order le_rfl, ih sorted (by omega) le_rfl chain⟩

/-- What HEALTHY is to mean: a probe inside the window held every declared
criterion, every probe of the user since the window began did, and from a start
inside the window to its declared end no quarter of it is unobserved. -/
structure ObservedHealthy (c : Context) (h : Health) : Prop where
  inside : ∃ o ∈ c.view.facts, o.kind = .health ∧ o.boot = c.view.boot ∧ o.user = h.user ∧
    o.serial = h.serial ∧ holdsCriteria c.plan o = true ∧ c.ticket.windowStart.toInt ≤ o.elapsed.toInt ∧
    o.elapsed.toInt ≤ windowEnd c
  held : ∀ o ∈ c.view.facts, o.kind = .health → o.boot = c.view.boot → o.user = h.user →
    o.serial = h.serial → c.ticket.windowStart ≤ o.elapsed → holdsCriteria c.plan o = true
  spanned : ∃ start, Starts c h start ∧ c.ticket.windowStart.toInt ≤ start ∧ start ≤ windowEnd c ∧
    (spanMoments c h start).IsChain (Close c)

theorem observedHealthy_withOutcome {k : Outcome} :
    ObservedHealthy c (h.withOutcome k) ↔ ObservedHealthy c h :=
  ⟨fun seen => ⟨seen.inside, seen.held, seen.spanned⟩,
    fun seen => ⟨seen.inside, seen.held, seen.spanned⟩⟩

/-- What the judgement checks of a user's facts. -/
def Probed (c : Context) (h : Health) : Prop :=
  (∀ o ∈ probesOf c h, holdsCriteria c.plan o = true) ∧
    covers (heldTimes c h) (spanStart c h) (c.ticket.windowStart + c.plan.healthWindowMillis)
      (c.plan.healthWindowMillis / windowParts) = true

/-- The user's first held probe lies in the window, at most a quarter of it after
a start of the user's span inside the window. -/
def BeginsInside (c : Context) (h : Health) : Prop :=
  ∃ first, (heldTimes c h).head? = some first ∧ first.toInt ≤ windowEnd c ∧
    ∃ start, Starts c h start ∧ start ≤ windowEnd c ∧ Close c start first.toInt

theorem head_le {first : Int64} (head : (heldTimes c h).head? = some first) :
    ∀ time ∈ heldTimes c h, first.toInt ≤ time.toInt := by
  have sorted := heldTimes_sorted c h
  cases times : heldTimes c h with
  | nil => simp [times] at head
  | cons x rest =>
    obtain rfl : x = first := by simpa [times] using head
    rw [times, map_cons, pairwise_cons] at sorted
    intro time among
    rcases mem_cons.mp among with rfl | later
    · exact le_rfl
    · exact sorted.1 _ (mem_map_of_mem later)

/-- A user whom the judgement finds healthy was observed so exactly when the
probes begin inside the window. -/
theorem observedHealthy_iff (state : c.ticket.state = .healthWindow)
    (probed : Probed c h) : ObservedHealthy c h ↔ BeginsInside c h := by
  obtain ⟨held, covered⟩ := probed
  obtain ⟨nonempty, chain⟩ := (covers_iff state).mp covered
  obtain ⟨first, rest, times⟩ := exists_cons_of_ne_nil nonempty
  have head : (heldTimes c h).head? = some first := by rw [times, List.head?_cons]
  constructor
  · rintro ⟨⟨o, known, kind, boot, user, serial, holds, after, before⟩, -, start, starts, -, inside,
      spanned⟩
    have among : o.elapsed ∈ heldTimes c h := by
      refine mem_map_of_mem (mem_filter.mpr ⟨mem_probesOf.mpr ?_, holds⟩)
      exact ⟨View.mem_ofKind.mpr ⟨known, kind, boot⟩, user, serial, le_iff_toInt_le.mpr after⟩
    have early : first.toInt ≤ windowEnd c := (head_le head _ among).trans before
    refine ⟨first, head, early, start, starts, inside, ?_⟩
    -- A first probe before the start leaves no gap; a later one is the span's first moment.
    by_cases order : first.toInt ≤ start
    · have positive := healthWindow_pos c
      unfold Close
      omega
    · rw [spanMoments, times, map_cons, filter_cons_of_pos (by simp; omega),
        cons_append, isChain_cons_cons] at spanned
      exact spanned.1
  · rintro ⟨first', head', early, start, starts, inside, close⟩
    obtain rfl : first = first' := Option.some.inj (head.symm.trans head')
    have probe : first ∈ heldTimes c h := by simp [times]
    obtain ⟨o, among, rfl⟩ := mem_map.mp probe
    obtain ⟨probe, holds⟩ := mem_filter.mp among
    obtain ⟨known, user, serial, after⟩ := mem_probesOf.mp probe
    obtain ⟨known, kind, boot⟩ := View.mem_ofKind.mp known
    refine ⟨⟨o, known, kind, boot, user, serial, holds, le_iff_toInt_le.mp after, early⟩,
      fun o known kind boot user serial after => held o ?_, start, starts, starts.le, inside, ?_⟩
    · exact mem_probesOf.mpr ⟨View.mem_ofKind.mpr ⟨known, kind, boot⟩, user, serial, after⟩
    · refine within_chain (heldTimes_sorted c h) le_rfl le_rfl ?_
      rw [times, map_cons, cons_append, isChain_cons_cons] at chain ⊢
      exact ⟨close, chain.2⟩

/-! ## The closing step -/

/-- The step closes the window because it completed. The other closings to
CLOSED_APPLIED are an image change and the boot limit in another boot. -/
structure WindowCompletes (c : Context) (s : Step) : Prop where
  ran : step c = .ok s
  window : c.ticket.state = .healthWindow
  closed : s.ticket.state = .closedApplied
  sameBoot : ∀ now ∈ c.now, now.boot = c.ticket.windowBoot
  sameImage : cohortChanged c = false

theorem WindowCompletes.health {s : Step} (completes : WindowCompletes c s) :
    s.ticket.health = judge c (observeUsers c c.ticket.health c.ticket.windowStart) := by
  obtain ⟨ran, window, closed, sameBoot, sameImage⟩ := completes
  have left {b : Ticket.Builder} (built : s.ticket.toBuilder = b) (stays : b.state = .healthWindow) :
      False := by
    rw [← built] at stays
    exact absurd (closed.symm.trans stays) (by decide)
  cases step_inv ran with
  | same _ same =>
    rw [same, window] at closed
    cases closed
  | held _ _ _ built => exact (left built window).elim
  | turned _ _ _ _ turn _ taken =>
    have built := taken.built
    cases turn with
    | stays outside => exact absurd window outside
    | moves moves_ => exact absurd window moves_.outside.1
    | binds state | applies state | opensWindow state => simp [state] at window
    | crosses crosses_ => exact absurd window crosses_.outside.1
    | closes closes_ =>
      cases closes_ with
      | caused state | ended state | diverged state | void state => simp_all
    | idles _ builder | restarts _ _ _ _ _ builder | observes _ _ _ _ builder
    | windowWaits _ _ _ _ _ builder => exact (left (built.trans builder) window).elim
    | windowCloses _ now closes _ builder =>
      have built := built.trans builder
      cases closes with
      | imageChange changed => simp [sameImage] at changed
      | bootLimit _ other => exact absurd (sameBoot _ now).symm other
      | completed => exact congrArg Ticket.Builder.health built
      | bootLimitRestores | otherBytes | takenOver | restores =>
        exact absurd (closed.symm.trans (congrArg Ticket.Builder.state built)) (by simp)

theorem mem_of_setLast {p : Health → Bool} {x y : Health} {l : List Health}
    (among : y ∈ setLast p x l) : y ∈ l ∨ y = x := by
  induction l with
  | nil => cases among
  | cons h rest ih =>
    unfold setLast at among
    split at among
    · rcases mem_cons.mp among with rfl | later
      · simp
      · rcases ih later with known | same <;> simp [*]
    · split at among
      · rcases mem_cons.mp among with same | later <;> simp [*]
      · exact .inl among

theorem mem_of_observeUser {boot : Text} {since : Int64} {result : List Health} {o : Observation}
    (among : h ∈ observeUser boot since result o) (healthy : h.outcome = .healthy) :
    h ∈ result := by
  unfold observeUser at among
  split at among
  · exact among
  split at among
  · exact among
  split at among
  · exact among
  rename_i seen found
  have other : seen ≠ .healthy := by
    unfold seenOutcome at found
    repeat' split at found
    all_goals simp at found
    all_goals simp [← found]
  dsimp only at among
  split at among
  · split at among
    · exact among
    · rcases mem_append.mp among with known | new
      · exact known
      · obtain rfl := mem_singleton.mp new
        exact absurd healthy other
  · split at among
    · rcases mem_of_setLast among with known | rfl
      · exact known
      · exact absurd healthy other
    · exact among

theorem mem_of_observeUsers {current : List Health} {since : Int64}
    (among : h ∈ observeUsers c current since) (healthy : h.outcome = .healthy) : h ∈ current := by
  unfold observeUsers at among
  dsimp only at among
  split at among
  · exact among
  rename_i room
  rw [mem_insertionSort] at among
  clear room
  generalize c.view.facts = facts at among
  induction facts generalizing current with
  | nil => exact among
  | cons o rest ih => exact mem_of_observeUser (ih among) healthy

theorem mem_of_outcomeOf {user : Int32} {serial : Int64} {l : List Health} {k : Outcome}
    (known : TicketMachine.outcomeOf user serial l = some k) :
    ∃ h ∈ l, h.user = user ∧ h.serial = serial ∧ h.outcome = k := by
  obtain ⟨h, last, outcome⟩ := Option.map_eq_some_iff.mp known
  have among := mem_of_getLast? last
  simp only [mem_filter, decide_eq_true_eq] at among
  exact ⟨h, among.1, among.2.1, among.2.2, outcome⟩

/-- A user whose outcome becomes HEALTHY with the step. -/
def BecomesHealthy (c : Context) (s : Step) (h : Health) : Prop :=
  h ∈ s.ticket.health ∧ h.outcome = .healthy ∧
    TicketMachine.outcomeOf h.user h.serial c.ticket.health ≠ some .healthy

theorem becomesHealthy_iff {s : Step} (completes : WindowCompletes c s) :
    BecomesHealthy c s h ↔ ∃ seen ∈ observeUsers c c.ticket.health c.ticket.windowStart,
      seen.outcome = .observing ∧ Probed c seen ∧ h = seen.withOutcome .healthy := by
  have rules := c.ticket.rules
  have unique := unique_of_ordered rules.health.2
  have advances := observeUsers_advances c c.ticket.windowStart rules.health.2 rules.healthCount
  have judged (seen : Health) : judgeUser c seen = .healthy ↔ Probed c seen := by
    rw [judgeUser_healthy, Probed, completes.sameImage]
    simp only [and_true]
  rw [BecomesHealthy, completes.health, judge, mem_map]
  constructor
  · rintro ⟨⟨seen, among, same⟩, healthy, new⟩
    split at same
    · rename_i observing
      subst same
      exact ⟨seen, among, observing, (judged seen).mp healthy,
        congrArg seen.withOutcome healthy⟩
    · subst same
      exact absurd (outcomeOf_eq_some unique (mem_of_observeUsers among healthy) rfl rfl)
        (by rwa [healthy])
  · rintro ⟨seen, among, observing, probed, rfl⟩
    refine ⟨⟨seen, among, by rw [if_pos observing, (judged seen).mpr probed]⟩, rfl, fun known => ?_⟩
    -- A final outcome of the ticket is still there, and the user has one outcome only.
    obtain ⟨old, before, user, serial, final⟩ := mem_of_outcomeOf known
    obtain ⟨now, after, key, kept⟩ := advances.progress.kept old before
    have same : now = seen := inj_on_of_nodup_map advances.progress.unique after among
      (key.trans (Health.key_eq.mpr ⟨user, serial⟩))
    have outcome := kept (by simp [final])
    rw [same, observing, final] at outcome
    cases outcome

/-- **The users who become HEALTHY when the window completes were observed so
inside the window exactly when every user the judgement finds probed has probes
that begin inside it.** -/
theorem healthy_observed_iff {c : Context} {s : Step} (completes : WindowCompletes c s) :
    (∀ h, BecomesHealthy c s h → ObservedHealthy c h) ↔
      ∀ h ∈ observeUsers c c.ticket.health c.ticket.windowStart, h.outcome = .observing →
        Probed c h → BeginsInside c h := by
  constructor
  · intro observed h among observing probed
    have healthy := (becomesHealthy_iff completes).mpr ⟨h, among, observing, probed, rfl⟩
    exact (observedHealthy_iff completes.window probed).mp (observedHealthy_withOutcome.mp
      (observed _ healthy))
  · intro inside h becomes
    obtain ⟨seen, among, observing, probed, rfl⟩ := (becomesHealthy_iff completes).mp becomes
    exact observedHealthy_withOutcome.mpr ((observedHealthy_iff completes.window probed).mpr
      (inside seen among observing probed))

/-! ## A sample window

It began at 30 in its boot and ends at 430. The closing step runs at 700. -/

private def userFact (classification : Classification) (elapsed : Int64) : Observation.Builder :=
  inBoot 'e' { sampleFact classification elapsed with user := 0, serial := 0 }

private def heldFact (elapsed : Int64) : Observation.Builder :=
  { userFact .healthHeld elapsed with component := sampleComponent, number := 0x7f }

private def committedFact : Observation :=
  ⟨inBoot 'e' (sampleFact .checkpointCommitted 3), by decide +kernel⟩

private theorem windowTicket_plan : windowTicket.planId = samplePlan.planId := by
  decide +kernel

/-- The sample's window with more facts of its boot, whose checkpoint has
committed. -/
def windowContext (facts : List Observation) : Context :=
  { sampleSetting with
      facts := sampleFacts ++ committedFact :: facts }.context
    windowTicket windowTicket_plan (sampleClock 'e' 700) (sampleId 'c')

/-- The step closes the window with one user's outcome, which is new. -/
def closesWith (c : Context) (h : Health) : Bool :=
  (step c).toOption.any (fun s => s.ticket.state = .closedApplied ∧ s.ticket.health = [h]) &&
    c.ticket.state = .healthWindow && c.now.all (fun now => now.boot = c.ticket.windowBoot) &&
    !cohortChanged c && TicketMachine.outcomeOf h.user h.serial c.ticket.health ≠ some h.outcome

theorem closesWith_completes (closes : closesWith c h = true)
    (healthy : h.outcome = .healthy) : ∃ s, WindowCompletes c s ∧ BecomesHealthy c s h := by
  simp only [closesWith, Bool.and_eq_true, decide_eq_true_eq, Bool.not_eq_true', Option.any_eq_true] at closes
  obtain ⟨⟨⟨⟨⟨s, stepped, closed, health⟩, window⟩, sameBoot⟩, sameImage⟩, new⟩ := closes
  refine ⟨s, ⟨toOption_eq_some.mp stepped, window, closed, ?_, sameImage⟩, by simp [health], healthy,
    by rwa [← healthy]⟩
  intro now known
  simpa [Option.mem_def.mp known] using sameBoot

/-- The user is unlocked early and probed through the whole window. -/
def probedContext : Context := windowContext [
  ⟨userFact .runningUnlocked 20, by decide +kernel⟩,
  ⟨heldFact 40, by decide +kernel⟩, ⟨heldFact 140, by decide +kernel⟩,
  ⟨heldFact 240, by decide +kernel⟩, ⟨heldFact 340, by decide +kernel⟩]

/-- The users are listed after the window's end, and only then is the user
unlocked and probed. -/
def lateContext : Context := windowContext [
  ⟨userFact .runningLocked 600, by decide +kernel⟩,
  ⟨userFact .runningUnlocked 650, by decide +kernel⟩,
  ⟨heldFact 660, by decide +kernel⟩]

private def healthyUser : Health := ⟨⟨0, 0, .healthy⟩, by decide +kernel⟩

theorem probed_window_observed : ∃ s, WindowCompletes probedContext s ∧
    BecomesHealthy probedContext s healthyUser ∧
    ∀ h, BecomesHealthy probedContext s h → ObservedHealthy probedContext h := by
  have evaluated : closesWith probedContext healthyUser = true ∧
      (observeUsers probedContext probedContext.ticket.health probedContext.ticket.windowStart).all
        (fun h => (heldTimes probedContext h).head? = some 40) = true ∧
      probedContext.ticket.windowStart = 30 := by
    decide +kernel
  obtain ⟨closes, begins, since⟩ := evaluated
  obtain ⟨s, completes, becomes⟩ := closesWith_completes closes rfl
  refine ⟨s, completes, becomes, (healthy_observed_iff completes).mpr fun h among _ _ => ?_⟩
  have window : probedContext.plan.healthWindowMillis = 400 := rfl
  have stop : windowEnd probedContext = 430 := by
    rw [windowEnd, since, window]
    rfl
  refine ⟨40, of_decide_eq_true (all_eq_true.mp begins h among), by rw [stop]; decide, _,
    .inl rfl, by rw [stop, since]; decide, ?_⟩
  rw [Close, since, window]
  decide

/-- Every probe of the user, and the listing that starts the span, lie after the
window's end. -/
theorem healthy_without_observation : ∃ s, WindowCompletes lateContext s ∧
    BecomesHealthy lateContext s healthyUser ∧
    (∀ o ∈ lateContext.view.facts, o.kind = .health → windowEnd lateContext < o.elapsed.toInt) ∧
    ¬ ObservedHealthy lateContext healthyUser := by
  have evaluated : closesWith lateContext healthyUser = true ∧
      ∀ o ∈ lateContext.view.facts, o.kind = .health → windowEnd lateContext < o.elapsed.toInt := by
    decide +kernel
  obtain ⟨closes, after⟩ := evaluated
  obtain ⟨s, completes, becomes⟩ := closesWith_completes closes rfl
  refine ⟨s, completes, becomes, after, ?_⟩
  rintro ⟨⟨o, known, kind, -, -, -, -, -, before⟩, -, -⟩
  exact absurd (after o known kind) (by omega)

end Andrix.Deployment
