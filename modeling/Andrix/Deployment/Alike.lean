import Andrix.Deployment.Likeness
import Andrix.Deployment.UserLikeness

/-! Two views of one boot that agree fact by fact where a reading looks. Such views
give a step the same readings. -/
namespace Andrix.Deployment
open Andrix.Lib

/-- Two views of one boot that tell a step the same. -/
structure Alike (c : Context) (v : View) (sameBoot : v.boot = c.view.boot) : Prop where
  there : Mirrors v c.view
  back : Mirrors c.view v
  latest : ∀ kind, kind = .boot ∨ kind = .checkpoint ∨ kind = .factory ∨ kind = .active →
    Option.Rel SameContent (v.latest kind) (c.view.latest kind)
  completedAt : v.completedAt = c.view.completedAt
  reply : ∀ id index, Option.Rel SameContent (v.reply id index) (c.view.reply id index)
  found : Option.Rel (fun s s' => s.reference = s'.reference)
    (foundBy v c.ticket.reference.nonce) (foundBy c.view c.ticket.reference.nonce)
  sessions : SameSessions v c.view (latestExact (c.withView v sameBoot)) (latestExact c)
  lists : Lists v c.view
  lists' : Lists c.view v
  notice : SameNotice c v sameBoot
  health : (v.ofKind .health).Perm (c.view.ofKind .health)
  users : ∀ since key current, (v.facts.filter (fun o => userKey o = key)).foldl
    (observeUser c.view.boot since) current =
      (c.view.facts.filter (fun o => userKey o = key)).foldl (observeUser c.view.boot since) current

section
variable {c : Context} {v : View} {sameBoot : v.boot = c.view.boot} (alike : Alike c v sameBoot)
include alike

theorem Alike.cohort : SameCohort v c.view where
  sameBoot := sameBoot
  boot := alike.latest .boot (.inl rfl)
  factory := alike.latest .factory (.inr (.inr (.inl rfl)))
  active := alike.latest .active (.inr (.inr (.inr rfl)))
  bound := bound_apks_congr alike.there alike.back

theorem Alike.readings : SameReadings c v where
  toSameCohort := alike.cohort
  checkpoint := by
    unfold View.checkpoint
    rcases rel_cases (alike.latest .checkpoint (.inr (.inl rfl))) with
      ⟨none_, none'⟩ | ⟨o, o', some_, some', contents⟩
    · rw [none_, none']
    · rw [some_, some', Option.map_some, Option.map_some, contents.classification]
  completedAt := alike.completedAt
  reply := alike.reply
  signer := signer_congr alike.there alike.back
  publication := publication_congr alike.there alike.back
  found := alike.found
  exact := exactSession_congr sameBoot alike.sessions alike.lists alike.lists'
  gone := goneAfter_congr sameBoot alike.sessions alike.lists alike.lists'
  absent := absentSince_none_congr sameBoot alike.sessions alike.lists alike.lists'
  uncreated := absentAfter_congr sameBoot alike.sessions alike.lists alike.lists'
  notified := noticeSatisfied_congr alike.notice alike.cohort.noticeDelay
  owed := noticeAgain_congr alike.notice alike.reply
  users := observeUsers_congr sameBoot alike.users
  judged := judgeUser_congr rfl rfl alike.notice.users alike.health alike.cohort.cohortChanged

end

/-! ## Readings by time

In a view's time order the last match is the latest and the first match is the
first. -/

theorem View.reply_eq_latest (v : View) (id : Text) (index : Option Nat) : v.reply id index =
    pick (fun o => o.kind = .reply && o.subject = id && some o.sequence = index)
      (fun o best => best.elapsed ≤ o.elapsed) v.facts := by
  rw [View.reply, pick_last_of_sorted _ _ _ (List.pairwise_of_forall (fun _ _ => rfl)),
    pick_last_of_sorted]
  exact v.sorted.imp (fun order => by simpa using order)

theorem foundBy_eq_first (v : View) (nonce : Text) : foundBy v nonce =
    pick (fun s => s.reference.has Reference.nonceField && s.reference.nonce = nonce &&
      complete s.reference) (fun o best => o.elapsed < best.elapsed) (v.ofKind .session) := by
  rw [foundBy, pick_first_of_sorted]
  refine (v.ofKind_sorted .session).imp ?_
  intro x y order
  simpa using Int64.not_lt.mpr order

theorem latestUserFact_eq_latest (c : Context) (user : Int32) (serial : Int64) :
    latestUserFact c user serial = pick (fun o => o.user = user && o.serial = serial)
      (fun o best => best.elapsed ≤ o.elapsed) (c.view.ofKind .user) := by
  rw [latestUserFact, pick_last_of_sorted]
  exact (c.view.ofKind_sorted .user).imp (fun order => by simpa using order)

end Andrix.Deployment
