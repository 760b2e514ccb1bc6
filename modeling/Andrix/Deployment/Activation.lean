import Andrix.Deployment.Grants
import Andrix.Deployment.Stepped

/-! No activating reboot without consent, notice and a committed checkpoint. A
step that issues a REBOOT reads an unexpired ACTIVATE that no effective reboot
used, a committed checkpoint, and for every other running user a receipt of this
ticket's notice in this boot that is as old as the declared delay. -/
namespace Andrix.Deployment
open Andrix.Lib List Int64

/-! ## The notice -/

def latestUserFact (c : Context) (user : Int32) (serial : Int64) : Option Observation :=
  ((c.view.ofKind .user).filter (fun o => o.user = user && o.serial = serial)).getLast?

/-- A user whom the notice must reach: running by the user's latest fact of this
boot, and not the holder of the activation. -/
structure Owed (c : Context) (activate : Authorization) (u : Observation) : Prop where
  latest : latestUserFact c u.user u.serial = some u
  running : running u = true
  other : holder activate u = false

/-- A receipt in this boot, for a user, of a NOTICE that this ticket issued in
this boot. -/
structure Receipt (c : Context) (user : Int32) (serial : Int64) (r : Observation) : Prop where
  fact : r ∈ c.view.ofKind .receipt
  user : r.user = user ∧ r.serial = serial
  notice : r.subject = c.ticket.ticketId ∧ ∃ e, c.ticket.ledger[r.sequence]? = some e ∧
    e.crossing = .notice ∧ e.boot = c.view.boot

structure FirstReceipt (c : Context) (user : Int32) (serial : Int64) (r : Observation) : Prop where
  receipt : Receipt c user serial r
  first : ∀ r', Receipt c user serial r' → r.elapsed ≤ r'.elapsed

private theorem latestUsers_append (users : List Observation) (u : Observation) :
    latestUsers (users ++ [u]) =
      (latestUsers users).filter (fun o => !(o.user = u.user && o.serial = u.serial)) ++ [u] := by
  simp [latestUsers]

/-- The latest facts are those that no later fact of the same user replaced. -/
theorem mem_latestUsers {users : List Observation} {u : Observation} : u ∈ latestUsers users ↔
    (users.filter (fun o => o.user = u.user && o.serial = u.serial)).getLast? = some u := by
  induction users using List.reverseRecOn with
  | nil => simp [latestUsers]
  | append_singleton users v ih =>
    rw [latestUsers_append, filter_append, mem_append, mem_filter, ih]
    by_cases same : v.user = u.user ∧ v.serial = u.serial
    · simp [same, eq_comm]
    have apart : ¬ (u.user = v.user ∧ u.serial = v.serial) :=
      fun h => same ⟨h.1.symm, h.2.symm⟩
    have other : ¬ u = v := fun h => same (by simp [h])
    simp only [not_and_or] at apart
    simp [same, apart, other]

theorem noticeUsers_some {c : Context} {activate : Authorization} {required : List Observation}
    (found : noticeUsers c activate = some required) :
    c.view.ofKind .user ≠ [] ∧ ∀ u, u ∈ required ↔ Owed c activate u := by
  dsimp only [noticeUsers] at found
  split at found
  · cases found
  rename_i users
  cases found
  refine ⟨users, fun u => ?_⟩
  simp only [mem_filter, mem_latestUsers, Bool.and_eq_true, Bool.not_eq_true']
  exact ⟨fun ⟨latest, running, other⟩ => ⟨latest, running, other⟩,
    fun ⟨latest, running, other⟩ => ⟨latest, running, other⟩⟩

private theorem receipt_iff {c : Context} {user : Int32} {serial : Int64} {r : Observation} :
    Receipt c user serial r ↔ r ∈ c.view.ofKind .receipt ∧
      (r.user = user && r.serial = serial && givenNow c r) = true := by
  simp only [givenNow, Bool.and_eq_true, decide_eq_true_eq, Option.any_eq_true]
  constructor
  · rintro ⟨fact, user, subject, e, entry, notice, boot⟩
    exact ⟨fact, user, subject, e, entry, notice, boot⟩
  · rintro ⟨fact, user, subject, e, entry, notice, boot⟩
    exact ⟨fact, user, subject, e, entry, notice, boot⟩

theorem firstReceipt_some {c : Context} {user : Int32} {serial : Int64} {r : Observation}
    (found : firstReceipt c user serial = some r) : FirstReceipt c user serial r := by
  obtain ⟨fact, matched⟩ := pick_some found
  refine ⟨receipt_iff.mpr ⟨fact, matched⟩, fun r' receipt => ?_⟩
  obtain ⟨fact', matched'⟩ := receipt_iff.mp receipt
  exact pick_greatest follows_first found r' fact' matched'

/-- The delay that a notice's receipts must have waited: the declared one, or
the shorter emergency delay for an approved restoration under an EMERGENCY_NOTICE
grant when no required receipt came through SystemUI. -/
def Delay (c : Context) (delivered : Bool) (delay : Int64) : Prop :=
  delay = c.plan.noticeDelayMillis ∨
    (delay = c.plan.emergencyNoticeMillis ∧ approvedRestoration c = true ∧
      (∃ a ∈ c.authorizations, a.effect = .emergencyNotice) ∧ delivered = false)

theorem noticeDelay_allowed (c : Context) (delivered : Bool) :
    Delay c delivered (noticeDelay c delivered) := by
  dsimp only [noticeDelay]
  split
  · exact .inl rfl
  split
  · rename_i emergency
    simp only [Bool.and_eq_true, Bool.not_eq_true', any_eq_true, decide_eq_true_eq]
      at emergency
    exact .inr ⟨rfl, emergency.1.2, emergency.1.1, emergency.2⟩
  · exact .inl rfl

/-- Every other running user got the notice in time. -/
structure NoticeGiven (c : Context) (now : Clock) (activate : Authorization) : Prop where
  users : ∃ o, o ∈ c.view.ofKind .user
  given : ∃ delivered delay, Delay c delivered delay ∧ ∀ u, Owed c activate u →
    ∃ r, FirstReceipt c u.user u.serial r ∧
      delay.toInt ≤ now.elapsed.toInt - r.elapsed.toInt ∧
      (delivered = false → r.classification ≠ .receiptSystemui)

private theorem last_receipt (receipts : List Observation) (start : Int64) :
    let last := receipts.foldl (fun last r => if last < r.elapsed then r.elapsed else last) start
    start ≤ last ∧ ∀ r ∈ receipts, r.elapsed ≤ last := by
  induction receipts generalizing start with
  | nil => simp
  | cons r rest ih =>
    obtain ⟨low, high⟩ := ih (if start < r.elapsed then r.elapsed else start)
    simp only [foldl_cons, forall_mem_cons]
    split at low <;> rename_i order
    · exact ⟨Int64.le_trans (Int64.le_of_lt order) (by simpa [order] using low),
        by simpa [order] using low, by simpa [order] using high⟩
    · exact ⟨by simpa [order] using low,
        Int64.le_trans (Int64.not_lt.mp order) (by simpa [order] using low),
        by simpa [order] using high⟩

private theorem mem_of_mapM {f : α → Option β} {l : List α} {rs : List β} (collected : l.mapM f = some rs)
    {x : α} (member : x ∈ l) : ∃ r ∈ rs, f x = some r := by
  induction l generalizing rs with
  | nil => cases member
  | cons y rest ih =>
    simp only [mapM_cons, Option.bind_eq_bind, Option.bind_eq_some_iff, Option.pure_def,
      Option.some.injEq] at collected
    obtain ⟨r, first, rest', others, rfl⟩ := collected
    rcases mem_cons.mp member with rfl | later
    · exact ⟨r, by simp, first⟩
    · obtain ⟨r', among, found⟩ := ih others later
      exact ⟨r', mem_cons_of_mem _ among, found⟩

theorem noticeSatisfied_given {c : Context} {now : Clock} {activate : Authorization}
    (elapsed : ¬ now.elapsed < 0) (satisfied : noticeSatisfied c now activate = true) :
    NoticeGiven c now activate := by
  unfold noticeSatisfied at satisfied
  split at satisfied
  · cases satisfied
  · rename_i found
    obtain ⟨users, owed⟩ := noticeUsers_some found
    refine ⟨exists_mem_of_ne_nil _ users, false, _, .inl rfl, fun u required => ?_⟩
    exact absurd ((owed u).mpr required) (by simp)
  rename_i required _ found
  obtain ⟨users, owed⟩ := noticeUsers_some found
  split at satisfied
  · cases satisfied
  rename_i receipts collected
  dsimp only at satisfied
  refine ⟨exists_mem_of_ne_nil _ users,
    receipts.any (fun r => r.classification = .receiptSystemui), _, noticeDelay_allowed c _,
    fun u needed => ?_⟩
  obtain ⟨r, among, first⟩ := mem_of_mapM collected ((owed u).mpr needed)
  have receipt := firstReceipt_some first
  refine ⟨r, receipt, ?_, fun undelivered => ?_⟩
  · obtain ⟨_, high⟩ := last_receipt receipts (-1)
    generalize receipts.foldl (fun last r => if last < r.elapsed then r.elapsed else last) (-1)
      = last at satisfied high
    have notBefore := high r among
    have fact := r.rules.elapsed
    have order := of_decide_eq_true satisfied
    rw [le_iff_toInt_le] at order notBefore
    have bound : ¬ last < 0 := by
      simp only [lt_iff_toInt_lt] at fact ⊢
      omega
    rw [toInt_sub_of_nonneg elapsed bound] at order
    omega
  · have none_ := any_eq_false.mp undelivered r among
    simpa using none_

/-! ## The reboot -/

/-- What an activating reboot rests on, under the clock and the ACTIVATE it
reads. -/
structure Consented (c : Context) (now : Clock) (activate : Authorization) (e : Entry) : Prop where
  clock : c.now = some now
  committed : ∃ d ∈ c.ticket.ledger, d.crossing = .commit
  uncaused : c.ticket.cause = .none
  checkpoint : ∃ o, (c.view.ofKind .checkpoint).getLast? = some o ∧
    o.classification = .checkpointCommitted
  /-- The entry's grant is an ACTIVATE of the plan. -/
  grant : activate ∈ c.authorizations ∧ activate.authorizationId = e.grant ∧
    activate.effect = .activate ∧ activate.planId = c.plan.planId
  unexpired : activate.grantedAt ≤ now.wall ∧
    now.wall.toInt < activate.grantedAt.toInt + c.plan.activateWindowMillis.toInt
  /-- No reboot under it took effect: each lies in its ticket's last boot. -/
  unused : c.ticket ∈ c.tickets ∧ ∀ t ∈ c.tickets, ∀ d ∈ t.ledger, d.crossing = .reboot →
    d.grant = activate.authorizationId → d.boot = t.boot
  requests : lostRequests c.ticket now.boot < c.plan.requestLimit
  notice : NoticeGiven c now activate

theorem expired_eq_false {c : Context} {now : Clock} {a : Authorization} (clock : c.now = some now)
    (valid : expired c a = false) : a.grantedAt ≤ now.wall ∧
      now.wall.toInt < a.grantedAt.toInt + c.plan.activateWindowMillis.toInt := by
  simp only [expired, clock, Bool.or_eq_false_iff, decide_eq_false_iff_not, Int64.not_lt,
    Int64.not_le] at valid
  obtain ⟨granted, window⟩ := valid
  refine ⟨granted, ?_⟩
  have positive : ¬ a.grantedAt ≤ 0 := a.rules.grantedAt
  have issued : ¬ a.grantedAt < 0 := by
    simp only [lt_iff_toInt_lt, le_iff_toInt_le] at positive ⊢
    omega
  have wall : ¬ now.wall < 0 := by
    simp only [lt_iff_toInt_lt, le_iff_toInt_le] at issued granted ⊢
    omega
  rw [lt_iff_toInt_lt, toInt_sub_of_nonneg wall issued] at window
  omega

/-- The last entry of an issued step was admitted by the ticket's ledger. -/
theorem step_admits {c : Context} {s : Step} {e : Entry} (ran : step c = .ok s)
    (issued : s.issue = some e) : ∃ nonce, Admits nonce c.ticket.ledger e := by
  obtain ⟨state, r, k, _, built⟩ := step_crosses ran issued
  have admitted := s.ticket.rules.ledger.admitted
  rw [built] at admitted
  exact ⟨_, admitted.last.2⟩

/-- No activating reboot without consent, notice and a committed checkpoint. -/
theorem reboot_consented {c : Context} {s : Step} {e : Entry} (listed : c.Listed)
    (ran : step c = .ok s) (issued : s.issue = some e) (reboot : e.crossing = .reboot) :
    ∃ now activate, Consented c now activate e := by
  obtain ⟨nonce, admits⟩ := step_admits ran issued
  obtain ⟨state, r, k, crosses, _⟩ := step_crosses ran issued
  cases crosses with
  | @reboot now activate _ ready uncaused crossing valid requests room notice made =>
    have recorded := entry_inv made
    obtain ⟨clock, checkpoint⟩ := crossingNow_some crossing
    obtain ⟨member, effect, unexpired, unused⟩ := validActivate_some valid
    refine ⟨now, activate, clock, countOf_pos.mp (admits.reboot reboot), ?_, checkpoint,
      ⟨member, recorded.grant.symm, effect, listed.authorizations _ member⟩,
      expired_eq_false clock unexpired, ⟨listed.own, not_used_activate effect unused⟩, requests,
      noticeSatisfied_given ?_ notice⟩
    · exact (maxCause_eq_none.mp uncaused).1
    · rw [← (recorded.clock now clock).2.2.1]
      exact e.rules.elapsed
  | sign _ _ _ made | publish _ _ _ _ made | create _ _ _ _ _ made | write _ _ _ _ made
  | commit _ _ _ _ made | notice _ _ _ _ _ made | abandon _ _ _ made =>
    simp [(entry_inv made).crossing] at reboot

/-- A committed session of the sample plan, with the notice given to user 10. -/
def readyTicket : Ticket where
  toBuilder := { sampleTicketFields with
    state := .ready
    boot := sampleId '9'
    reference := sampleReference
    ledger := [
      ⟨⟨.publish, noId, -1, 0, noId, sampleId 'a', 2000⟩, by decide +kernel⟩,
      ⟨⟨.create, sampleId '9', 0, 10, sampleId '4', sampleId 'b', 2010⟩, by decide +kernel⟩,
      ⟨⟨.write, sampleId '9', 0, 20, noId, noId, 2020⟩, by decide +kernel⟩,
      ⟨⟨.commit, sampleId '9', 0, 30, sampleId '5', noId, 2030⟩, by decide +kernel⟩,
      ⟨⟨.notice, sampleId '9', 0, 40, sampleId '5', noId, 2040⟩, by decide +kernel⟩] }
  valid := by decide +kernel

/-- User 10 runs, and confirmed the notice of the ledger's fourth entry. -/
def readyFacts : List Observation := sampleOpening ++ [
  ⟨{ sampleFact .runningUnlocked 5 with user := 10, serial := 1 }, by decide +kernel⟩,
  ⟨{ sampleFact .receiptSystemui 50 with
    component := sampleComponent, user := 10, serial := 1, subject := sampleId '6', sequence := 4 },
    by decide +kernel⟩]

/-- The ready ticket 60 ms after user 10 confirmed the notice. -/
def readyContext : Context where
  plan := samplePlan
  ticket := readyTicket
  authorizations := [sampleStage, sampleActivate]
  planTickets := [readyTicket]
  selection := sampleSelection
  trustPolicy := sampleDigest '5'
  targetHeld := false
  repairs := []
  repaired := none
  view := {
    boot := sampleId '9'
    facts := readyFacts
    sorted := by decide +kernel }
  now := sampleClock '9' 110
  rebootRequested := false
  freshId := sampleId 'c'
  ofPlan := by decide +kernel
  sameBoot := by decide +kernel
  repairedPlan := by simp

/-- The sample device reboots with user 10 told in time. -/
theorem ready_reboots_consented : ∃ e, issued readyContext = some e ∧
    ∃ now activate, Consented readyContext now activate e := by
  have crossing : (issued readyContext).map (·.crossing) = some .reboot := by decide +kernel
  obtain ⟨e, found, reboot⟩ := Option.map_eq_some_iff.mp crossing
  obtain ⟨s, ran, issued_⟩ := issued_eq_some.mp found
  have listed : readyContext.Listed := by
    constructor
    · simp only [readyContext, mem_cons, not_mem_nil, or_false, forall_eq_or_imp, forall_eq]
      decide +kernel
    · exact ⟨readyTicket, by simp [readyContext], rfl⟩
  exact ⟨e, found, reboot_consented listed ran issued_ reboot⟩

end Andrix.Deployment
