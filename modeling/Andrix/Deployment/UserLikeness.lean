import Andrix.Deployment.Activation
import Andrix.Deployment.Outcomes
import Andrix.Deployment.Readings

/-! When two views of one boot tell a step the same about the users: who must get
the notice, who got it and when, and how each user's health is judged. -/
namespace Andrix.Deployment
open Andrix.Lib List

/-! ## Notice

The notice is owed to users, not to facts: what counts of a user's facts is
whether the latest shows the user running, and of the receipts each user's first. -/

def userKey (o : Observation) : Int32 × Int64 := (o.user, o.serial)

theorem latestUsers_nodup (users : List Observation) : ((latestUsers users).map userKey).Nodup := by
  induction users using List.reverseRecOn with
  | nil => simp [latestUsers]
  | append_singleton users u ih =>
    have step : latestUsers (users ++ [u]) = (latestUsers users).filter
        (fun o => !(o.user = u.user && o.serial = u.serial)) ++ [u] := by
      simp [latestUsers]
    rw [step, map_append, nodup_append]
    refine ⟨ih.sublist (filter_sublist.map userKey), by simp, ?_⟩
    intro key inside key' last same
    obtain ⟨o, member, rfl⟩ := mem_map.mp inside
    obtain ⟨_, apart⟩ := mem_filter.mp member
    simp only [map_cons, map_nil, mem_singleton] at last
    subst last
    simp only [userKey, Prod.mk.injEq] at same
    simp [same.1, same.2] at apart

/-- The users that the notice must reach, by user and serial. -/
def noticeKeys (c : Context) (activate : Authorization) : Option (List (Int32 × Int64)) :=
  (noticeUsers c activate).map (·.map userKey)

/-- When a user's first receipt came, and how. -/
def receiptOf (c : Context) (key : Int32 × Int64) : Option (Int64 × Classification) :=
  (firstReceipt c key.1 key.2).map (fun r => (r.elapsed, r.classification))

/-- The notice as the users' keys and first receipts decide it. -/
def satisfiedBy (delay : Bool → Int64) (now : Clock) (receipt : Int32 × Int64 → Option (Int64 × Classification))
    (keys : List (Int32 × Int64)) : Bool :=
  keys.isEmpty || (keys.all (fun key => (receipt key).isSome) &&
    delay ((keys.filterMap receipt).any (fun r => r.2 = .receiptSystemui)) ≤
      now.elapsed - (keys.filterMap receipt).foldl
        (fun last r => if last < r.1 then r.1 else last) (-1))

theorem mapM_eq_filterMap {α β : Type} (f : α → Option β) (l : List α) :
    l.mapM f = if l.all (fun x => (f x).isSome) then some (l.filterMap f) else none := by
  induction l with
  | nil => rfl
  | cons x l ih =>
    rw [mapM_cons, ih]
    cases found : f x with
    | none => simp [found]
    | some y => cases all : l.all (fun x => (f x).isSome) <;> simp [found, all]

theorem noticeSatisfied_eq (c : Context) (now : Clock) (activate : Authorization) :
    noticeSatisfied c now activate =
      (noticeKeys c activate).any (satisfiedBy (noticeDelay c) now (receiptOf c)) := by
  unfold noticeSatisfied noticeKeys
  cases users : noticeUsers c activate with
  | none => rfl
  | some required =>
    cases required with
    | nil => rfl
    | cons u rest =>
      have receipts : ((u :: rest).map userKey).filterMap (receiptOf c) =
          ((u :: rest).filterMap (fun u => firstReceipt c u.user u.serial)).map
            (fun r => (r.elapsed, r.classification)) := by
        rw [filterMap_map, map_filterMap]
        rfl
      have each : ((u :: rest).map userKey).all (fun key => (receiptOf c key).isSome) =
          (u :: rest).all (fun u => (firstReceipt c u.user u.serial).isSome) := by
        rw [all_map]
        simp only [Function.comp_def, receiptOf, userKey, Option.isSome_map]
      simp only [Option.map_some, Option.any_some, satisfiedBy, receipts, each,
        mapM_eq_filterMap, any_map, foldl_map]
      cases (u :: rest).all (fun u => (firstReceipt c u.user u.serial).isSome) with
      | false => simp
      | true => simp [Function.comp_def]

theorem later_time_comm (z x y : Int64) :
    (if (if z < x then x else z) < y then y else if z < x then x else z) =
      if (if z < y then y else z) < x then x else if z < y then y else z := by
  simp only [Int64.lt_iff_toInt_lt]
  split_ifs <;> first | rfl | (apply Int64.toInt_inj.mp; omega)

theorem satisfiedBy_perm (delay : Bool → Int64) (now : Clock)
    (receipt : Int32 × Int64 → Option (Int64 × Classification)) {keys keys' : List (Int32 × Int64)}
    (perm : keys.Perm keys') :
    satisfiedBy delay now receipt keys = satisfiedBy delay now receipt keys' := by
  have receipts := perm.filterMap receipt
  have lasts (start : Int64) :
      (keys.filterMap receipt).foldl (fun last r => if last < r.1 then r.1 else last) start =
      (keys'.filterMap receipt).foldl (fun last r => if last < r.1 then r.1 else last) start := by
    refine receipts.foldl_eq' ?_ start
    intro x _ y _ z
    exact later_time_comm z x.1 y.1
  simp only [satisfiedBy, perm.all_eq, receipts.any_eq, lasts, perm.isEmpty_eq]

theorem holder_key {activate : Authorization} {a b : Observation} (same : userKey a = userKey b) :
    holder activate a = holder activate b := by
  simp only [userKey, Prod.mk.injEq] at same
  simp only [holder, same.1, same.2]

theorem mem_noticeKeys {c : Context} {activate : Authorization} {required : List Observation}
    (found : noticeUsers c activate = some required) {key : Int32 × Int64} :
    key ∈ required.map userKey ↔ ∃ u, latestUserFact c key.1 key.2 = some u ∧
      running u = true ∧ holder activate u = false := by
  have owed := (noticeUsers_some found).2
  constructor
  · intro inside
    obtain ⟨u, member, rfl⟩ := mem_map.mp inside
    obtain ⟨latest, runs, other⟩ := (owed u).mp member
    exact ⟨u, latest, runs, other⟩
  · rintro ⟨u, latest, runs, other⟩
    obtain ⟨_, about⟩ := mem_filter.mp (mem_of_getLast? latest)
    simp only [Bool.and_eq_true, decide_eq_true_eq] at about
    refine mem_map.mpr ⟨u, (owed u).mpr ⟨?_, runs, other⟩, Prod.ext about.1 about.2⟩
    rw [about.1, about.2]
    exact latest

/-- Whether a user without a receipt was not seen running when an entry's notice
was given, or has waited the delay. -/
def owedAgain (c : Context) (now : Clock) (entry : Entry) (key : Int32 × Int64) : Bool :=
  (receiptOf c key).isNone && (c.plan.noticeDelayMillis ≤ now.elapsed - entry.elapsed ||
    !(c.view.ofKind .user).any (fun o => o.user = key.1 && o.serial = key.2 &&
      o.elapsed ≤ entry.elapsed && running o))

/-- The notice owed again, as the users' keys and first receipts decide it. -/
def againBy (accepted recorded : Bool) (keys : Option (List (Int32 × Int64)))
    (entry : Option Entry) (owed : Entry → Int32 × Int64 → Bool) : Bool :=
  if !accepted && !recorded then true
  else match keys, entry with
    | some required, some entry => required.any (owed entry)
    | _, _ => false

theorem noticeAgain_eq (c : Context) (now : Clock) (activate : Authorization) (latest : Nat) :
    noticeAgain c now activate latest = againBy
      ((c.view.reply c.ticket.ticketId (some latest)).any
        (fun r => r.classification = .replySuccess))
      ((c.view.ofKind .receipt).any
        (fun r => r.subject = c.ticket.ticketId && r.sequence = latest))
      (noticeKeys c activate) c.ticket.ledger[latest]? (owedAgain c now) := by
  have receipts : ∀ u : Observation, (firstReceipt c u.user u.serial).isNone =
      (receiptOf c (userKey u)).isNone := by
    intro u
    simp only [receiptOf, userKey, Option.isNone_map]
  dsimp only [noticeAgain, noticeKeys, againBy]
  simp only [receipts]
  cases noticeUsers c activate with
  | none => rfl
  | some required =>
    cases c.ticket.ledger[latest]? with
    | none => rfl
    | some entry =>
      simp only [Option.map_some, any_map]
      rfl

/-- What decides whether the notice was given. -/
structure SameNotice (c : Context) (v : View) (same : v.boot = c.view.boot) : Prop where
  users : (v.ofKind .user).Perm (c.view.ofKind .user)
  latest : ∀ user serial, Option.Rel (fun a b => running a = running b)
    (latestUserFact (c.withView v same) user serial) (latestUserFact c user serial)
  receipts : ∀ key, receiptOf (c.withView v same) key = receiptOf c key
  recorded : ∀ id index, (v.ofKind .receipt).any (fun r => r.subject = id && r.sequence = index) =
    (c.view.ofKind .receipt).any (fun r => r.subject = id && r.sequence = index)

section
variable {c : Context} {v : View} {same : v.boot = c.view.boot} (alike : SameNotice c v same)
include alike

theorem noticeKeys_congr (activate : Authorization) :
    Option.Rel List.Perm (noticeKeys (c.withView v same) activate) (noticeKeys c activate) := by
  have facts := alike.users
  have empty : v.ofKind .user = [] ↔ c.view.ofKind .user = [] := by
    rw [← length_eq_zero_iff, ← length_eq_zero_iff, facts.length_eq]
  by_cases unseen : c.view.ofKind .user = []
  · have left : noticeUsers (c.withView v same) activate = none := if_pos (empty.mpr unseen)
    have right : noticeUsers c activate = none := if_pos unseen
    rw [noticeKeys, noticeKeys, left, right]
    exact .none
  have left : noticeUsers (c.withView v same) activate = some _ := if_neg (mt empty.mp unseen)
  have right : noticeUsers c activate = some _ := if_neg unseen
  rw [noticeKeys, noticeKeys, left, right]
  refine .some ((perm_ext_iff_of_nodup ?_ ?_).mpr ?_)
  · exact (latestUsers_nodup _).sublist (filter_sublist.map userKey)
  · exact (latestUsers_nodup _).sublist (filter_sublist.map userKey)
  intro key
  rw [mem_noticeKeys left, mem_noticeKeys right]
  rcases rel_cases (alike.latest key.1 key.2) with ⟨none_, none'⟩ | ⟨u, u', some_, some', runs⟩
  · simp [none_, none']
  have keys : userKey u = userKey u' := by
    obtain ⟨_, about⟩ := mem_filter.mp (mem_of_getLast? some_)
    obtain ⟨_, about'⟩ := mem_filter.mp (mem_of_getLast? some')
    simp only [Bool.and_eq_true, decide_eq_true_eq] at about about'
    exact Prod.ext (about.1.trans about'.1.symm) (about.2.trans about'.2.symm)
  simp [some_, some', runs, holder_key keys]

theorem noticeSatisfied_congr (delays : noticeDelay (c.withView v same) = noticeDelay c)
    (now : Clock) (activate : Authorization) :
    noticeSatisfied (c.withView v same) now activate = noticeSatisfied c now activate := by
  have receipts : receiptOf (c.withView v same) = receiptOf c := funext alike.receipts
  rw [noticeSatisfied_eq, noticeSatisfied_eq, delays, receipts]
  rcases rel_cases (noticeKeys_congr alike activate) with ⟨none_, none'⟩ | ⟨k, k', some_, some', perm⟩
  · rw [none_, none']
  · rw [some_, some', Option.any_some, Option.any_some, satisfiedBy_perm _ _ _ perm]

theorem owedAgain_congr (now : Clock) : owedAgain (c.withView v same) now = owedAgain c now := by
  funext entry key
  unfold owedAgain
  rw [alike.receipts key, withView_view, alike.users.any_eq]
  rfl

theorem noticeAgain_congr
    (replies : ∀ id index, Option.Rel SameContent (v.reply id index) (c.view.reply id index))
    (now : Clock) (activate : Authorization) (latest : Nat) :
    noticeAgain (c.withView v same) now activate latest = noticeAgain c now activate latest := by
  have accepted : ((c.withView v same).view.reply (c.withView v same).ticket.ticketId
        (some latest)).any (fun r => r.classification = .replySuccess) =
      (c.view.reply c.ticket.ticketId (some latest)).any
        (fun r => r.classification = .replySuccess) := by
    rw [withView_view, withView_ticket]
    rcases rel_cases (replies c.ticket.ticketId (some latest)) with
      ⟨none_, none'⟩ | ⟨r, r', some_, some', contents⟩
    · rw [none_, none']
    · rw [some_, some', Option.any_some, Option.any_some, contents.classification]
  have ledger : (c.withView v same).ticket.ledger[latest]? = c.ticket.ledger[latest]? := rfl
  have recorded : ((c.withView v same).view.ofKind .receipt).any (fun r =>
        r.subject = (c.withView v same).ticket.ticketId && r.sequence = latest) =
      (c.view.ofKind .receipt).any (fun r =>
        r.subject = c.ticket.ticketId && r.sequence = latest) :=
    alike.recorded c.ticket.ticketId latest
  rw [noticeAgain_eq, noticeAgain_eq, accepted, recorded, owedAgain_congr alike, ledger]
  rcases rel_cases (noticeKeys_congr alike activate) with ⟨none_, none'⟩ | ⟨k, k', some_, some', perm⟩
  · rw [none_, none']
  rw [some_, some']
  cases c.ticket.ledger[latest]? with
  | none => rfl
  | some entry => simp only [againBy, perm.any_eq]

end

/-! ## Health

The loop over the facts works on each user and serial alone, and its result is
sorted by them, so only the order of one user's facts can matter. -/

theorem filter_setLast_same {p : Health → Bool} {x : Health} (matched : p x = true)
    (l : List Health) : (setLast p x l).filter p = setLast p x (l.filter p) := by
  induction l with
  | nil => rfl
  | cons h rest ih =>
    have inside : (rest.filter p).any p = rest.any p := by
      rw [any_filter]
      simp only [Bool.and_self]
    cases later : rest.any p with
    | true =>
      cases here : p h <;> simp [setLast, later, here, ih, inside]
    | false =>
      have none_ : rest.filter p = [] := by
        rw [filter_eq_nil_iff]
        intro a among
        simpa using any_eq_false.mp later a among
      cases here : p h <;> simp [setLast, later, here, none_, matched]

theorem filter_setLast_other {p q : Health → Bool} {x : Health} (other : q x = false)
    (apart : ∀ h, p h = true → q h = false) (l : List Health) :
    (setLast p x l).filter q = l.filter q := by
  induction l with
  | nil => rfl
  | cons h rest ih =>
    unfold setLast
    split
    · simp only [filter_cons, ih]
    split
    · rename_i here
      simp [other, apart h here]
    · rfl

def ofUser (key : Int32 × Int64) (h : Health) : Bool := h.user = key.1 && h.serial = key.2

theorem outcomeOf_filter (o : Observation) (l : List Health) :
    TicketMachine.outcomeOf o.user o.serial (l.filter (ofUser (userKey o))) =
      TicketMachine.outcomeOf o.user o.serial l := by
  unfold TicketMachine.outcomeOf
  rw [filter_filter]
  congr 3
  funext h
  rw [Bool.eq_iff_iff]
  simp only [ofUser, userKey, Bool.and_eq_true, decide_eq_true_eq]
  exact ⟨And.left, fun own => ⟨own, decide_eq_true own.1, decide_eq_true own.2⟩⟩

/-- A fact changes the outcomes of its own user alone, by those outcomes alone. -/
theorem filter_observeUser (boot : Text) (since : Int64) (result : List Health) (o : Observation)
    (key : Int32 × Int64) : (observeUser boot since result o).filter (ofUser key) =
      if userKey o = key then observeUser boot since (result.filter (ofUser key)) o
      else result.filter (ofUser key) := by
  by_cases same : userKey o = key
  · subst same
    rw [if_pos rfl]
    unfold observeUser
    split
    · rfl
    rename_i named
    split
    · rfl
    split
    · rfl
    rename_i seen found
    rw [outcomeOf_filter]
    split
    · split
      · rfl
      · simp [filter_append, ofUser, userKey]
    · split
      · exact filter_setLast_same (by simp [ofUser, userKey]) result
      · rfl
  · rw [if_neg same]
    have other : ∀ h : Health, (h.user = o.user && h.serial = o.serial) = true →
        ofUser key h = false := by
      intro h about
      simp only [Bool.and_eq_true, decide_eq_true_eq] at about
      rw [Bool.eq_false_iff]
      intro found
      simp only [ofUser, Bool.and_eq_true, decide_eq_true_eq] at found
      exact same (Prod.ext (about.1.symm.trans found.1) (about.2.symm.trans found.2))
    unfold observeUser
    split
    · rfl
    rename_i named
    split
    · rfl
    split
    · rfl
    rename_i seen found
    split
    · split
      · rfl
      · rw [filter_append, filter_cons_of_neg, filter_nil, append_nil]
        simpa using other ⟨⟨o.user, o.serial, seen⟩, o.health_valid named⟩ (by simp)
    · split
      · exact filter_setLast_other (other _ (by simp)) other result
      · rfl

theorem filter_observed (boot : Text) (since : Int64) (facts : List Observation)
    (current : List Health) (key : Int32 × Int64) :
    (facts.foldl (observeUser boot since) current).filter (ofUser key) =
      (facts.filter (fun o => userKey o = key)).foldl (observeUser boot since)
        (current.filter (ofUser key)) := by
  induction facts generalizing current with
  | nil => rfl
  | cons o rest ih =>
    rw [foldl_cons, ih, filter_observeUser]
    by_cases same : userKey o = key
    · rw [if_pos same, filter_cons_of_pos (by simpa using same), foldl_cons]
    · rw [if_neg same, filter_cons_of_neg (by simpa using same)]

instance : Std.Refl healthOrder where
  refl _ := .inr ⟨rfl, Int64.le_refl _⟩

theorem healthOrder_antisymm (x y : Health) (first : healthOrder x y) (second : healthOrder y x) :
    x.key = y.key := by
  unfold healthOrder at first second
  simp only [Int32.lt_iff_toInt_lt, Int64.le_iff_toInt_le, ← Int32.toInt_inj] at first second
  refine Health.key_eq.mpr ⟨Int32.toInt_inj.mp ?_, Int64.toInt_inj.mp ?_⟩ <;> omega

/-- Views whose facts say the same of each user give the same outcomes. -/
theorem observeUsers_congr {c d : Context} (boots : c.view.boot = d.view.boot)
    (each : ∀ since key current, (c.view.facts.filter (fun o => userKey o = key)).foldl
      (observeUser d.view.boot since) current = (d.view.facts.filter (fun o => userKey o = key)).foldl
      (observeUser d.view.boot since) current) (current : List Health) (since : Int64) :
    observeUsers c current since = observeUsers d current since := by
  have filters : ∀ key, (c.view.facts.foldl (observeUser d.view.boot since) current).filter
        (fun h => h.key = key) =
      (d.view.facts.foldl (observeUser d.view.boot since) current).filter
        (fun h => h.key = key) := by
    intro key
    have about : (fun h : Health => decide (h.key = key)) = ofUser key := by
      funext h
      simp [Health.key, ofUser, Prod.ext_iff, Bool.decide_and]
    rw [about, filter_observed, filter_observed, each]
  have sorted : (c.view.facts.foldl (observeUser d.view.boot since) current).insertionSort
        healthOrder =
      (d.view.facts.foldl (observeUser d.view.boot since) current).insertionSort healthOrder := by
    refine eq_of_sorted_of_filters (r := healthOrder) Health.key healthOrder_antisymm
      (pairwise_insertionSort _ _) (pairwise_insertionSort _ _) ?_
    intro key
    rw [filter_insertionSort, filter_insertionSort, filters]
  simp only [observeUsers, boots, sorted]

/-- When a user was first observed unlocked does not depend on the order of the
facts. -/
theorem firstUnlock_congr {c d : Context}
    (users : (c.view.ofKind .user).Perm (d.view.ofKind .user)) (user : Int32) (serial : Int64) :
    firstUnlock c user serial = firstUnlock d user serial := by
  have first : ∀ v : View, (v.ofKind .user).Pairwise
      (fun x y => decide (y.elapsed < x.elapsed) = false) := by
    intro v
    refine (v.ofKind_sorted .user).imp ?_
    intro x y order
    simpa using Int64.not_lt.mpr order
  unfold firstUnlock
  rw [← pick_first_of_sorted _ _ _ (first c.view), ← pick_first_of_sorted _ _ _ (first d.view)]
  rcases rel_cases (pick_perm follows_first users) with
    ⟨none_, none'⟩ | ⟨o, o', some_, some', _, _, times⟩
  · rw [none_, none']
  · have same : o.elapsed = o'.elapsed := congrArg Time.millis (OrderDual.toDual_inj.mp times)
    rw [some_, some', Option.map_some, Option.map_some, same]

/-- How a user is judged does not depend on the order of the facts. -/
theorem judgeUser_congr {c d : Context} (plans : c.plan = d.plan) (tickets : c.ticket = d.ticket)
    (users : (c.view.ofKind .user).Perm (d.view.ofKind .user))
    (health : (c.view.ofKind .health).Perm (d.view.ofKind .health))
    (cohorts : cohortChanged c = cohortChanged d) (h : Health) : judgeUser c h = judgeUser d h := by
  have probes := health.filter (fun o => o.user = h.user && o.serial = h.serial &&
    d.ticket.windowStart ≤ o.elapsed)
  have held : (((c.view.ofKind .health).filter (fun o => o.user = h.user && o.serial = h.serial &&
        d.ticket.windowStart ≤ o.elapsed)).filter (holdsCriteria d.plan)).map (·.elapsed) =
      (((d.view.ofKind .health).filter (fun o => o.user = h.user && o.serial = h.serial &&
        d.ticket.windowStart ≤ o.elapsed)).filter (holdsCriteria d.plan)).map (·.elapsed) := by
    -- The times of the probes are sorted, and sorted times in one order only.
    refine ((probes.filter _).map (·.elapsed)).eq_of_pairwise (fun x y _ _ => Int64.le_antisymm) ?_ ?_
    · exact pairwise_map.mpr (((c.view.ofKind_sorted .health).filter _).filter _)
    · exact pairwise_map.mpr (((d.view.ofKind_sorted .health).filter _).filter _)
  have starts (start unlocked : Int64) :
      ((c.view.ofKind .user).filter (fun o => o.elapsed < unlocked)).foldl
        (fun start o => if start < o.elapsed then o.elapsed else start) start =
      ((d.view.ofKind .user).filter (fun o => o.elapsed < unlocked)).foldl
        (fun start o => if start < o.elapsed then o.elapsed else start) start := by
    refine (users.filter _).foldl_eq' ?_ start
    intro x _ y _ z
    exact later_time_comm z x.elapsed y.elapsed
  simp only [judgeUser, plans, tickets, firstUnlock_congr users, starts, held, cohorts,
    probes.any_eq]

end Andrix.Deployment
