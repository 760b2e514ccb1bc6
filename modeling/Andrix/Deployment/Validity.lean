import Andrix.Deployment.Records

/-! What the constructors' checks mean: one statement a record, so that no later
proof runs a check again. Each field states what one check of the constructor
allows, in the constructor's order. -/
namespace Andrix.Deployment
open Andrix.Lib

/-! ## References, entries and selections -/

namespace Reference.Fields

/-- The rules of a reference. -/
@[mk_iff] structure Valid (r : Fields) : Prop where
  known : r.presence &&& ~~~ all = 0
  nonceHex : IsHex 32 r.nonce
  session : (r.has session → ¬ r.sessionId ≤ 0) ∧ (¬ r.has session → r.sessionId = 0)
  created : (r.has created → ¬ r.createdMillis < 0) ∧ (¬ r.has created → r.createdMillis = 0)
  stageDir : (r.has stageDirectory → IsText 1 r.stageDir) ∧
    (¬ r.has stageDirectory → r.stageDir = [])
  installer : (r.has installer → ¬ r.installerUid < 0) ∧ (¬ r.has installer → r.installerUid = 0)
  nonce : ¬ r.has nonceField ↔ r.nonce = noId

theorem validate_eq_ok {r : Fields} : r.validate = .ok () ↔ r.Valid := by
  rw [valid_iff]
  simp only [validate, bind_unit_eq_ok, invalid_eq_ok, checkId_eq_ok, either_eq_ok,
    checkText_eq_ok, not_ite_iff, not_not, not_iff, ne_eq, Bool.true_eq_false, false_imp_iff,
    and_true]

end Reference.Fields

theorem Reference.rules (r : Reference) : r.toFields.Valid := Fields.validate_eq_ok.mp r.valid

namespace Entry.Fields

/-- The rules of a ledger entry. -/
@[mk_iff] structure Valid (e : Fields) : Prop where
  boot : IsHex 32 e.boot
  grantHex : IsHex 32 e.grant
  referenceHex : IsHex 32 e.reference
  instanceId : ¬ e.instanceId < -1
  elapsed : ¬ e.elapsed < 0
  bootless : e.boot = noId → ¬ e.crossing.device ∧ e.instanceId = -1 ∧ e.elapsed = 0
  framework : e.crossing.framework → ¬ e.instanceId < 0
  grant : ¬ e.crossing.granted ↔ e.grant = noId
  reference : ¬ e.crossing.referenced ↔ e.reference = noId

theorem validate_eq_ok {e : Fields} : e.validate = .ok () ↔ e.Valid := by
  rw [valid_iff]
  simp only [validate, bind_unit_eq_ok, invalid_eq_ok, checkId_eq_ok, not_and, not_or, not_not,
    not_iff, ne_eq, Bool.true_eq_false, false_imp_iff, and_true]

end Entry.Fields

theorem Entry.rules (e : Entry) : e.toFields.Valid := Fields.validate_eq_ok.mp e.valid

namespace Selection.Fields

/-- The rules of a selection. -/
@[mk_iff] structure Valid (s : Fields) : Prop where
  installation : IsHex 32 s.installation ∧ s.installation ≠ noId
  component : IsPackage s.component
  revision : ¬ s.revision < 0
  planHex : IsHex 32 s.planId
  bootHex : IsHex 32 s.checkedBoot
  repairHex : IsHex 32 s.repair
  temporaryHex : IsHex 32 s.temporary
  rebuildWindow : (s.responsibility = .rebuildWindow → ¬ s.rebuildWindowMillis ≤ 0) ∧
    (¬ s.responsibility = .rebuildWindow → s.rebuildWindowMillis = 0)
  chosen : s.choice = .factory ↔ s.planId = noId
  checked : s.realization = .unchecked ↔ s.checkedBoot = noId
  factory : s.choice = .factory → ¬ s.realization = .staleBase ∧ ¬ s.realization = .displaced ∧
    ¬ s.realization = .temporaryFactory
  standIn : ¬ s.realization = .temporaryFactory ↔ s.temporary = noId
  other : ¬ s.temporary = noId → ¬ s.temporary = s.planId ∧ ¬ s.temporary = s.repair
  repair : ¬ s.realization.repairable = true → s.repair = noId
  repairOther : s.repair = s.planId → s.repair = noId

theorem validate_eq_ok {s : Fields} : s.validate = .ok () ↔ s.Valid := by
  rw [valid_iff]
  simp only [validate, bind_unit_eq_ok, invalid_eq_ok, checkId_eq_ok, checkPackage_eq_ok,
    not_ite_iff, not_and, not_or, not_not, not_iff, ne_eq, Bool.true_eq_false, false_imp_iff,
    and_true, true_imp_iff]

end Selection.Fields

theorem Selection.exists_of_valid {f : Selection.Fields} (valid : f.Valid) :
    ∃ s : Selection, s.toFields = f :=
  ⟨⟨f, Fields.validate_eq_ok.mpr valid⟩, rfl⟩

theorem Selection.rules (s : Selection) : s.toFields.Valid := Fields.validate_eq_ok.mp s.valid

/-! ## Plans and authorizations -/

namespace Plan.Builder

@[mk_iff] structure Valid (p : Builder) : Prop where
  installation : IsHex 32 p.installation ∧ p.installation ≠ noId
  planId : IsHex 32 p.planId ∧ p.planId ≠ noId
  component : IsPackage p.component
  repairsHex : IsHex 32 p.repairs
  repairsOther : ¬ p.repairs = p.planId
  bundleInput : IsHex 64 p.bundleInput
  signer : IsHex 64 p.signer
  restorationInput : IsHex 64 p.restorationInput
  fingerprint : IsText 1 p.fingerprint
  factoryApk : IsHex 64 p.factoryApk ∧ p.factoryApk ≠ noDigest
  baseApk : IsHex 64 p.baseApk ∧ p.baseApk ≠ noDigest
  baseContext : IsText 1 p.baseContext
  trustPolicy : IsHex 64 p.trustPolicy ∧ p.trustPolicy ≠ noDigest
  factoryVersion : ¬ p.factoryVersion < 0
  baseVersion : ¬ p.baseVersion < p.factoryVersion
  factoryBytes : p.baseApk = p.factoryApk → p.baseVersion = p.factoryVersion
  baseUid : ¬ p.baseUid < 0
  selectionRevision : ¬ p.selectionRevision < 0
  bundle : (p.target = .factory → p.validateFactory = .ok ()) ∧
    (¬ p.target = .factory → p.validateBundle = .ok ())
  criteria : ¬ p.criteria = 0 ∧ p.criteria &&& ~~~ Criterion.all = 0
  healthWindow : ¬ p.healthWindowMillis ≤ 0
  healthResponse : p.healthResponse = .restoreAutomatically → p.hasRestoration
  notice : ¬ p.noticeDelayMillis < 0 ∧ ¬ p.emergencyNoticeMillis < 0 ∧
    ¬ p.noticeDelayMillis < p.emergencyNoticeMillis
  emergency : p.emergencyNoticeMillis < p.noticeDelayMillis → ¬ p.repairs = noId
  emergencyTarget : p.emergencyNoticeMillis < p.noticeDelayMillis → ¬ p.target = .temporaryFactory
  restorationHex : IsHex 32 p.restorationPlan
  restoration : ¬ p.healthResponse = .restoreAutomatically ↔ p.restorationPlan = noId
  restorationOther : ¬ p.restorationPlan = p.planId ∧
    (¬ p.restorationPlan = noId → ¬ p.restorationPlan = p.repairs)
  bootLimit : ¬ p.bootLimit < 1 ∧ ¬ maxBootLimit < p.bootLimit
  requestLimit : ¬ p.requestLimit < 1 ∧ ¬ maxRequestLimit < p.requestLimit
  timeLimits : ¬ p.rebootTimeLimitMillis ≤ 0 ∧ ¬ p.activateWindowMillis ≤ 0 ∧
    ¬ p.verificationWaitMillis ≤ 0

theorem validate_eq_ok {p : Builder} : p.validate = .ok () ↔ p.Valid := by
  rw [valid_iff]
  simp only [validate, bind_unit_eq_ok, invalid_eq_ok, checkId_eq_ok, checkDigest_eq_ok,
    checkText_eq_ok, checkPackage_eq_ok, either_eq_ok, not_and, not_or, not_not, not_iff, ne_eq,
    Bool.true_eq_false, false_imp_iff, and_true, true_imp_iff]

end Plan.Builder

theorem Plan.rules (p : Plan) : p.toBuilder.Valid := Builder.validate_eq_ok.mp p.valid

namespace Authorization.Fields

@[mk_iff] structure Valid (a : Fields) : Prop where
  installation : IsHex 32 a.installation ∧ a.installation ≠ noId
  authorizationId : IsHex 32 a.authorizationId ∧ a.authorizationId ≠ noId
  component : IsPackage a.component
  planId : IsHex 32 a.planId ∧ a.planId ≠ noId
  grantHex : IsHex 32 a.grant
  interaction : IsHex 32 a.interaction ∧ a.interaction ≠ noId
  inputs : (a.effect = .sign → ¬ a.inputs.toNat < 1 ∧ ¬ 3 < a.inputs.toNat) ∧
    (¬ a.effect = .sign → a.inputs = 0)
  actor : checkActor a.actorUser a.actorSerial (a.actorClass = .labOperator) = .ok ()
  grant : ¬ a.actorClass = .grantHolder ↔ a.grant = noId
  scope : a.grantScope = .none ↔ a.grant = noId
  grantedAt : ¬ a.grantedAt ≤ 0

theorem validate_eq_ok {a : Fields} : a.validate = .ok () ↔ a.Valid := by
  rw [valid_iff]
  simp only [validate, bind_unit_eq_ok, invalid_eq_ok, checkId_eq_ok, checkPackage_eq_ok,
    not_ite_iff, not_or, not_not, not_iff, ne_eq, Bool.true_eq_false, false_imp_iff, and_true,
    true_imp_iff]

end Authorization.Fields

theorem Authorization.rules (a : Authorization) : a.toFields.Valid :=
  Fields.validate_eq_ok.mp a.valid

/-! ## Observations -/

namespace Observation.Builder

@[mk_iff] structure Valid (o : Builder) : Prop where
  installation : IsHex 32 o.installation ∧ o.installation ≠ noId
  observationId : IsHex 32 o.observationId ∧ o.observationId ≠ noId
  component : ¬ o.component = [] → IsPackage o.component
  boot : IsHex 32 o.boot
  user : checkActor o.user o.serial (o.user = noUser) = .ok ()
  raw : IsHex 64 o.raw ∧ o.raw ≠ noDigest
  instanceId : ¬ o.instanceId < -1
  elapsed : ¬ o.elapsed < 0
  host : o.route = .host → o.kind = .signer ∨ o.kind = .bundle
  bootless : o.boot = noId → ¬ (¬ o.route = .host ∨ ¬ o.instanceId = -1 ∨ ¬ o.elapsed = 0)
  device : (o.kind = .boot ∨ o.kind = .checkpoint ∨ o.kind = .user) ↔ o.component = []
  perUser : ¬ ((o.kind = .user ∨ o.kind = .health ∨ o.kind = .receipt) ↔ o.user = noUser)
  framework : (o.kind = .listing ∨ o.kind = .session) → ¬ o.instanceId < 0
  text : ((o.kind = .boot ∨ o.kind = .active) → IsText 1 o.text) ∧
    (¬ (o.kind = .boot ∨ o.kind = .active) → o.text = [])
  digestHex : IsHex 64 o.digest ∧
    (o.kind = .factory ∨ o.kind = .active ∨ o.classification = .bundlePublished →
      ¬ o.digest = noDigest)
  digest : ¬ (o.kind = .factory ∨ o.kind = .active ∨ o.classification = .bundlePublished) →
    o.digest = noDigest
  version : ((o.kind = .factory ∨ o.kind = .active) → ¬ o.version < 0) ∧
    (¬ (o.kind = .factory ∨ o.kind = .active) → o.version = 0)
  number : o.validateNumber = .ok ()
  subjectHex : IsHex 32 o.subject ∧
    (o.kind = .reply ∨ o.kind = .signer ∨ o.kind = .bundle ∨ o.kind = .receipt → ¬ o.subject = noId)
  subject : ¬ (o.kind = .reply ∨ o.kind = .signer ∨ o.kind = .bundle ∨ o.kind = .receipt) →
    o.subject = noId
  planHex : IsHex 32 o.plan ∧ (o.kind = .bundle → ¬ o.plan = noId)
  plan : ¬ o.kind = .bundle → o.plan = noId
  bundleHex : IsHex 64 o.bundleApk ∧ (o.classification = .bundlePublished → ¬ o.bundleApk = noDigest)
  restorationHex : IsHex 64 o.restorationApk
  unpublished : ¬ o.classification = .bundlePublished →
    ¬ (¬ o.bundleApk = noDigest ∨ ¬ o.restorationApk = noDigest)
  roles : o.bundleApk = o.restorationApk → o.bundleApk = noDigest
  reply : o.validateReply = .ok ()

theorem validate_eq_ok {o : Builder} : o.validate = .ok () ↔ o.Valid := by
  rw [valid_iff]
  simp only [validate, bind_unit_eq_ok, invalid_eq_ok, checkId_eq_ok, checkDigest_eq_ok,
    checkText_eq_ok, checkPackage_eq_ok, either_eq_ok, pure_eq_ok, not_ite_iff, not_and, not_not,
    ne_eq, Bool.true_eq_false, decide_eq_true_eq, decide_eq_false_iff_not, decide_not,
    Bool.not_eq_eq_eq_not, Bool.not_false, false_imp_iff, and_true, true_imp_iff, implies_true,
    true_and]

end Observation.Builder

theorem Observation.rules (o : Observation) : o.toBuilder.Valid := Builder.validate_eq_ok.mp o.valid

/-- A fact that names a user names one that a health outcome may name. -/
theorem Observation.health_valid (o : Observation) (named : o.user ≠ noUser) {outcome : Outcome} :
    Health.Fields.validate ⟨o.user, o.serial, outcome⟩ = .ok () := by
  have actor := o.rules.user
  simp only [checkActor_eq_ok, named, decide_false, Bool.false_eq_true, if_false] at actor
  simp [Health.Fields.validate, actor]

end Andrix.Deployment
