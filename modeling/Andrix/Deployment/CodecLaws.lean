import Andrix.Lib.Words
import Andrix.Deployment.Codec
import Andrix.Deployment.TicketRules

/-! The codec is a bijection. Each field reader accepts exactly what its writer
makes of an admissible value, so does each record's reader, and every valid value
is admissible. With the frame this makes decoding the inverse of encoding. -/
namespace Andrix.Deployment
open Andrix.Lib List Plan.Builder

/-! ## Fields -/

theorem isHexDigit_iff {c : Char} : isHexDigit c = true ↔ c ∈ hexDigits := by
  have table : ∀ n < 128, isHexDigit (Char.ofNat n) = true ↔ Char.ofNat n ∈ hexDigits := by
    decide +kernel
  have low (small : c.toNat < 128) : isHexDigit c = true ↔ c ∈ hexDigits := by
    have same := table c.toNat small
    rwa [Char.ofNat_toNat] at same
  constructor
  · intro digit_
    refine (low ?_).mp digit_
    simp only [isHexDigit, Bool.or_eq_true, Bool.and_eq_true, decide_eq_true_eq] at digit_
    rcases digit_ with ⟨_, high⟩ | ⟨_, high⟩
    · exact Nat.lt_of_le_of_lt high (by decide)
    · exact Nat.lt_of_le_of_lt high (by decide)
  · intro member
    have table : hexDigits.all isHexDigit = true := by decide +kernel
    exact all_eq_true.mp table c member

theorem reads_u8 : Reads Input.u8 Output.u8 (fun n => n < 256) := reads_number

theorem reads_u16 : Reads Input.u16 Output.u16 (fun n => n < 65536) := reads_number

theorem reads_i32 : Reads Input.i32 Output.i32 (fun _ => True) := reads_int32

theorem reads_i64 : Reads Input.i64 Output.i64 (fun _ => True) := reads_int64

theorem reads_id : Reads Input.id Output.id (IsHex 32) :=
  reads_hex.of_iff (by simp [IsHex, isHexDigit_iff, idBytes])

theorem reads_digest : Reads Input.digest Output.digest (IsHex 64) :=
  reads_hex.of_iff (by simp [IsHex, isHexDigit_iff, digestBytes])

theorem reads_code {α : Type} [Coded α] {field : String} :
    Reads (Input.code field : Input α) Output.code (fun _ => True) := by
  refine reads_u8.decode (g := Coded.code) fun n x => ?_
  rw [codeOf_eq_ok]
  constructor
  · rintro ⟨_, rfl⟩
    exact ⟨trivial, rfl⟩
  · rintro ⟨_, rfl⟩
    exact ⟨Coded.small x, rfl⟩

theorem reads_count {max : Nat} (small : max < 65536) :
    Reads (Input.count max) Output.u16 (fun n => n ≤ max) := by
  intro input v rest
  simp only [Input.count, run_bind_eq_ok, reads_u16 _ _ _, run_lift_eq_ok, invalid_eq_ok,
    StateT.run_pure, pure_eq_ok, Prod.mk.injEq]
  constructor
  · rintro ⟨n, mid, ⟨_, rfl⟩, _, _, ⟨within, rfl⟩, rfl, rfl⟩
    exact ⟨Nat.le_of_not_lt within, rfl⟩
  · rintro ⟨within, rfl⟩
    exact ⟨v, rest, ⟨by omega, rfl⟩, (), rest, ⟨by omega, rfl⟩, rfl, rfl⟩

/-! A printable character is its byte. -/

theorem ascii_byte {b : UInt8} (printable : ¬ (b.toNat < 0x20 ∨ 0x7e < b.toNat)) :
    isPrintable (Char.ofNat b.toNat) = true ∧ Output.ascii (Char.ofNat b.toNat) = b := by
  have table : ∀ n < 256, ¬ (n < 0x20 ∨ 0x7e < n) → isPrintable (Char.ofNat n) = true ∧
      Output.ascii (Char.ofNat n) = UInt8.ofNat n := by decide +kernel
  have same := table b.toNat b.toNat_lt printable
  rwa [UInt8.ofNat_toNat] at same

theorem byte_ascii {c : Char} (printable : isPrintable c = true) :
    ¬ ((Output.ascii c).toNat < 0x20 ∨ 0x7e < (Output.ascii c).toNat) ∧
      Char.ofNat (Output.ascii c).toNat = c := by
  simp only [isPrintable, Bool.and_eq_true, decide_eq_true_eq] at printable
  have small : c.toNat < 128 := by omega
  have byte : (Output.ascii c).toNat = c.toNat := by
    rw [Output.ascii, if_pos small, UInt8.toNat_ofNat']
    omega
  rw [byte, Char.ofNat_toNat]
  exact ⟨by omega, rfl⟩

theorem reads_optionalText : Reads Input.optionalText Output.text (IsText 0) := by
  intro input v rest
  simp only [Input.optionalText, run_bind_eq_ok, reads_u16 _ _ _, reads_take _ _ _, run_lift_eq_ok,
    invalid_eq_ok, StateT.run_pure, pure_eq_ok, Prod.mk.injEq, not_exists, not_and, id]
  constructor
  · rintro ⟨n, _, ⟨_, rfl⟩, _, _, ⟨within, rfl⟩, bs, _, ⟨rfl, rfl⟩, _, _, ⟨printable, rfl⟩, rfl, rfl⟩
    have back : (bs.map (fun b => Char.ofNat b.toNat)).map Output.ascii = bs := by
      rw [map_map]
      conv_rhs => rw [← map_id bs]
      exact map_congr_left fun b member => (ascii_byte (printable b member)).2
    refine ⟨⟨Nat.zero_le _, by simpa using within, ?_⟩, by simp [Output.text, back]⟩
    simp only [all_map, all_eq_true, Function.comp_apply]
    exact fun b member => (ascii_byte (printable b member)).1
  · rintro ⟨⟨_, within, printable⟩, rfl⟩
    simp only [all_eq_true] at printable
    have small : v.length < 65536 := Nat.lt_of_le_of_lt within (by decide)
    have back : (v.map Output.ascii).map (fun b => Char.ofNat b.toNat) = v := by
      rw [map_map]
      conv_rhs => rw [← map_id v]
      exact map_congr_left fun c member => (byte_ascii (printable c member)).2
    refine ⟨v.length, _, ⟨small, by simp [Output.text]⟩, (), _, ⟨by omega, rfl⟩, v.map Output.ascii,
      rest, ⟨by simp, rfl⟩, (), rest, ⟨?_, rfl⟩, back, rfl⟩
    intro b member
    obtain ⟨c, among, rfl⟩ := mem_map.mp member
    exact (byte_ascii (printable c among)).1

theorem reads_text : Reads Input.text Output.text (IsText 1) := by
  intro input v rest
  simp only [Input.text, run_bind_eq_ok, reads_optionalText _ _ _, run_lift_eq_ok, invalid_eq_ok,
    StateT.run_pure, pure_eq_ok, Prod.mk.injEq]
  have nonempty {t : Text} : t ≠ [] ↔ 1 ≤ t.length := by
    rw [← length_pos_iff]
    omega
  constructor
  · rintro ⟨t, _, ⟨fine, rfl⟩, _, _, ⟨some_, rfl⟩, rfl, rfl⟩
    exact ⟨⟨nonempty.mp some_, fine.2⟩, rfl⟩
  · rintro ⟨fine, rfl⟩
    exact ⟨v, rest, ⟨⟨Nat.zero_le _, fine.2⟩, rfl⟩, (), rest, ⟨nonempty.mpr fine.1, rfl⟩, rfl, rfl⟩

/-! ## Records -/

variable {n : Nat}

theorem toNat_eq_iff {x : BitVec 32} (small : n < 65536) :
    x.toNat = n ↔ x = BitVec.ofNat 32 n := by
  constructor
  · rintro rfl
    simp
  · rintro rfl
    simp only [BitVec.toNat_ofNat]
    omega

theorem byte_small (byte : n < 256) : n < 65536 := by omega

theorem isPrintable_of_range {c low high : Char} (above : low ≤ c) (below : c ≤ high)
    (range : 0x20 ≤ low.toNat ∧ high.toNat ≤ 0x7e) : isPrintable c = true := by
  have first : low.toNat ≤ c.toNat := above
  have last : c.toNat ≤ high.toNat := below
  simp only [isPrintable, Bool.and_eq_true, decide_eq_true_eq]
  omega

theorem IsPackage.text {name : Text} (package : IsPackage name) : IsText 1 name := by
  have scanned (rest : Text) (segments : Nat) (start : Bool) :
      (packageScan rest segments start).1 = true → rest.all isPrintable = true := by
    induction rest generalizing segments start with
    | nil => simp
    | cons c rest ih =>
      intro passed
      have letter (h : (('a' ≤ c && c ≤ 'z') || ('A' ≤ c && c ≤ 'Z')) = true) :
          isPrintable c = true := by
        simp only [Bool.or_eq_true, Bool.and_eq_true, decide_eq_true_eq] at h
        rcases h with ⟨above, below⟩ | ⟨above, below⟩
        · exact isPrintable_of_range above below (by decide)
        · exact isPrintable_of_range above below (by decide)
      have trailing (h : (('0' ≤ c && c ≤ '9') || c == '_') = true) : isPrintable c = true := by
        simp only [Bool.or_eq_true, Bool.and_eq_true, decide_eq_true_eq, beq_iff_eq] at h
        rcases h with ⟨above, below⟩ | rfl
        · exact isPrintable_of_range above below (by decide)
        · decide
      rw [all_cons, Bool.and_eq_true]
      unfold packageScan at passed
      dsimp only at passed
      split at passed
      · rename_i named
        refine ⟨?_, ih _ _ passed⟩
        rcases Bool.or_eq_true_iff.mp named with named | named
        · exact letter named
        · exact trailing (Bool.and_eq_true_iff.mp named).1
      · split at passed
        · rename_i dot
          refine ⟨?_, ih _ _ passed⟩
          obtain rfl : c = '.' := by simpa using (Bool.and_eq_true_iff.mp dot).1
          decide
        · cases passed
  exact ⟨package.1, package.2.1, scanned name 1 true package.2.2.1⟩

theorem reads_reference :
    Reads Input.reference (fun r => Output.reference r.toFields) (fun _ => True) := by
  apply ReadsValid.all
  apply ReadsRest.whole
  · exact .field reads_u8 (fun r : Reference => r.presence.toNat) fun _ small =>
      .field reads_i32 (fun r : Reference => r.sessionId) fun _ _ =>
      .field reads_i64 (fun r : Reference => r.createdMillis) fun _ _ =>
      .field reads_optionalText (fun r : Reference => r.stageDir) fun _ _ =>
      .field reads_i32 (fun r : Reference => r.installerUid) fun _ _ =>
      .field reads_id (fun r : Reference => r.nonce) fun _ _ =>
      .made (fun _ => True) fun r => by
        rw [Reference.make_eq_ok, Reference.Fields.mk.injEq, ← toNat_eq_iff (byte_small small)]
        simp [and_assoc]
  · intro r
    rfl
  · intro r _
    have rules := r.rules
    have presence : r.presence.toNat < 256 :=
      Nat.lt_of_le_of_lt (toNat_le_of_within rules.known) (by decide)
    have stageDir : IsText 0 r.stageDir := by
      by_cases present : r.has Reference.stageDirectory
      · have text := rules.stageDir.1 present
        exact ⟨Nat.zero_le _, text.2⟩
      · rw [rules.stageDir.2 present]
        decide
    exact ⟨presence, trivial, trivial, stageDir, trivial, rules.nonceHex, trivial⟩

theorem reads_health : Reads Input.health (fun h => Output.health h.toFields) (fun _ => True) := by
  apply ReadsValid.all
  apply ReadsRest.whole
  · exact .field reads_i32 (fun h : Health => h.user) fun _ _ =>
      .field reads_i64 (fun h : Health => h.serial) fun _ _ =>
      .field reads_code (fun h : Health => h.outcome) fun _ _ =>
      .made (fun _ => True) fun h => by
        rw [Health.make_eq_ok, Health.Fields.mk.injEq]
        simp [and_assoc]
  · intro h
    rfl
  · intro h _
    exact ⟨trivial, trivial, trivial, trivial⟩

theorem reads_entry : Reads Input.entry (fun e => Output.entry e.toFields) (fun _ => True) := by
  apply ReadsValid.all
  apply ReadsRest.whole
  · exact .field reads_code (fun e : Entry => e.crossing) fun _ _ =>
      .field reads_id (fun e : Entry => e.boot) fun _ _ =>
      .field reads_i64 (fun e : Entry => e.instanceId) fun _ _ =>
      .field reads_i64 (fun e : Entry => e.elapsed) fun _ _ =>
      .field reads_id (fun e : Entry => e.grant) fun _ _ =>
      .field reads_id (fun e : Entry => e.reference) fun _ _ =>
      .field reads_i64 (fun e : Entry => e.issuedAt) fun _ _ =>
      .made (fun _ => True) fun e => by
        rw [Entry.make_eq_ok, Entry.Fields.mk.injEq]
        simp [and_assoc]
  · intro e
    rfl
  · intro e _
    have rules := e.rules
    exact ⟨trivial, rules.boot, trivial, trivial, rules.grantHex, rules.referenceHex, trivial,
      trivial⟩

theorem reads_selection :
    ReadsValid Input.selection Output.selection Selection.Fields.Valid := by
  apply ReadsRest.whole
  · exact .field reads_id Selection.Fields.installation fun _ _ =>
      .field reads_text Selection.Fields.component fun _ _ =>
      .field reads_i64 Selection.Fields.revision fun _ _ =>
      .field reads_code Selection.Fields.choice fun _ _ =>
      .field reads_id Selection.Fields.planId fun _ _ =>
      .field reads_code Selection.Fields.responsibility fun _ _ =>
      .field reads_i64 Selection.Fields.rebuildWindowMillis fun _ _ =>
      .field reads_code Selection.Fields.realization fun _ _ =>
      .field reads_id Selection.Fields.checkedBoot fun _ _ =>
      .field reads_id Selection.Fields.repair fun _ _ =>
      .field reads_id Selection.Fields.temporary fun _ _ =>
      .field reads_i64 Selection.Fields.changedAt fun _ _ =>
      .done (fun _ => True) fun s => by
        cases s
        simp [and_assoc]
  · intro s
    rfl
  · intro s rules
    exact ⟨rules.installation.1, rules.component.text, trivial, trivial, rules.planHex, trivial,
      trivial, trivial, rules.bootHex, rules.repairHex, rules.temporaryHex, trivial, trivial⟩

theorem reads_authorization :
    ReadsValid Input.authorization Output.authorization Authorization.Fields.Valid := by
  apply ReadsRest.whole
  · exact .field reads_id Authorization.Fields.installation fun _ _ =>
      .field reads_id Authorization.Fields.authorizationId fun _ _ =>
      .field reads_text Authorization.Fields.component fun _ _ =>
      .field reads_id Authorization.Fields.planId fun _ _ =>
      .field reads_code Authorization.Fields.effect fun _ _ =>
      .field reads_u8 (fun a => a.inputs.toNat) fun _ small =>
      .field reads_code Authorization.Fields.actorClass fun _ _ =>
      .field reads_i32 Authorization.Fields.actorUser fun _ _ =>
      .field reads_i64 Authorization.Fields.actorSerial fun _ _ =>
      .field reads_id Authorization.Fields.grant fun _ _ =>
      .field reads_code Authorization.Fields.grantScope fun _ _ =>
      .field reads_id Authorization.Fields.interaction fun _ _ =>
      .field reads_i64 Authorization.Fields.grantedAt fun _ _ =>
      .done (fun _ => True) fun a => by
        cases a
        simp [and_assoc, toNat_eq_iff (byte_small small)]
  · intro a
    rfl
  · intro a rules
    have inputs : a.inputs.toNat < 256 := by
      by_cases sign : a.effect = .sign
      · have within := rules.inputs.1 sign
        omega
      · simp [rules.inputs.2 sign]
    exact ⟨rules.installation.1, rules.authorizationId.1, rules.component.text, rules.planId.1,
      trivial, inputs, trivial, trivial, trivial, rules.grantHex, trivial, rules.interaction.1,
      trivial, trivial⟩

theorem reads_plan : ReadsValid Input.plan Output.plan Plan.Builder.Valid := by
  apply ReadsRest.whole
  · exact .field reads_id installation fun _ _ =>
      .field reads_id planId fun _ _ =>
      .field reads_text component fun _ _ =>
      .field reads_code componentClass fun _ _ =>
      .field reads_code target fun _ _ =>
      .field reads_id repairs fun _ _ =>
      .field reads_digest bundleInput fun _ _ =>
      .field reads_i64 bundleVersion fun _ _ =>
      .field reads_digest signer fun _ _ =>
      .field reads_digest restorationInput fun _ _ =>
      .field reads_i64 restorationVersion fun _ _ =>
      .field reads_u8 Plan.Builder.signing fun _ _ =>
      .field reads_text fingerprint fun _ _ =>
      .field reads_digest factoryApk fun _ _ =>
      .field reads_i64 factoryVersion fun _ _ =>
      .field reads_digest baseApk fun _ _ =>
      .field reads_i64 baseVersion fun _ _ =>
      .field reads_i32 baseUid fun _ _ =>
      .field reads_text baseContext fun _ _ =>
      .field reads_code users fun _ _ =>
      .field reads_code data fun _ _ =>
      .field reads_i64 selectionRevision fun _ _ =>
      .field reads_digest trustPolicy fun _ _ =>
      .field reads_code commitMode fun _ _ =>
      .field reads_u16 (fun p => p.criteria.toNat) fun _ small =>
      .field reads_i64 healthWindowMillis fun _ _ =>
      .field reads_code healthResponse fun _ _ =>
      .field reads_id restorationPlan fun _ _ =>
      .field reads_code recoveryRoute fun _ _ =>
      .field reads_i64 noticeDelayMillis fun _ _ =>
      .field reads_i64 emergencyNoticeMillis fun _ _ =>
      .field reads_u16 bootLimit fun _ _ =>
      .field reads_i64 rebootTimeLimitMillis fun _ _ =>
      .field reads_u16 requestLimit fun _ _ =>
      .field reads_i64 activateWindowMillis fun _ _ =>
      .field reads_i64 verificationWaitMillis fun _ _ =>
      .field reads_i64 createdAt fun _ _ =>
      .done (fun _ => True) fun p => by
        cases p
        simp [and_assoc, toNat_eq_iff small]
  · intro p
    rfl
  · intro p rules
    have signing : p.signing < 256 := by
      by_cases factory : p.target = .factory
      · have none_ := rules.bundle.1 factory
        simp only [validateFactory, bind_unit_eq_ok, invalid_eq_ok, not_or] at none_
        omega
      · have some_ := rules.bundle.2 factory
        simp only [validateBundle, bind_unit_eq_ok, invalid_eq_ok, not_or] at some_
        omega
    have criteria : p.criteria.toNat < 65536 :=
      Nat.lt_of_le_of_lt (toNat_le_of_within rules.criteria.2) (by decide)
    have boots : p.bootLimit < 65536 := by
      have limit := rules.bootLimit.2
      simp only [maxBootLimit] at limit
      omega
    have requests : p.requestLimit < 65536 := by
      have limit := rules.requestLimit.2
      simp only [maxRequestLimit] at limit
      omega
    exact ⟨rules.installation.1, rules.planId.1, rules.component.text, trivial, trivial,
      rules.repairsHex, rules.bundleInput, trivial, rules.signer, rules.restorationInput, trivial,
      signing, rules.fingerprint, rules.factoryApk.1, trivial, rules.baseApk.1, trivial, trivial,
      rules.baseContext, trivial, trivial, trivial, rules.trustPolicy.1, trivial, criteria, trivial,
      trivial, rules.restorationHex, trivial, trivial, trivial, boots, trivial, requests, trivial,
      trivial, trivial, trivial⟩

theorem reads_ticket : ReadsValid Input.ticket Output.ticket Ticket.Builder.Valid := by
  apply ReadsRest.whole
  · exact .field reads_id Ticket.Builder.installation fun _ _ =>
      .field reads_id Ticket.Builder.ticketId fun _ _ =>
      .field reads_text Ticket.Builder.component fun _ _ =>
      .field reads_id Ticket.Builder.planId fun _ _ =>
      .field reads_i32 Ticket.Builder.attempt fun _ _ =>
      .field reads_code Ticket.Builder.coordinatorClass fun _ _ =>
      .field reads_id Ticket.Builder.coordinator fun _ _ =>
      .field reads_code Ticket.Builder.state fun _ _ =>
      .field reads_u8 (fun t => t.flags.toNat) fun _ small =>
      .field reads_code Ticket.Builder.cause fun _ _ =>
      .field reads_u16 Ticket.Builder.bootCount fun _ _ =>
      .field reads_id Ticket.Builder.boot fun _ _ =>
      .field reads_reference Ticket.Builder.reference fun _ _ =>
      .field reads_id Ticket.Builder.windowBoot fun _ _ =>
      .field reads_i64 Ticket.Builder.windowStart fun _ _ =>
      .field reads_id Ticket.Builder.successor fun _ _ =>
      .list (reads_count (by decide)) reads_health Ticket.Builder.health fun _ =>
      .list (reads_count (by decide)) reads_entry Ticket.Builder.ledger fun _ =>
      .done (fun _ => True) fun t => by
        cases t
        simp [and_assoc, toNat_eq_iff (byte_small small)]
  · intro t
    rfl
  · intro t rules
    have flags : t.flags.toNat < 256 :=
      Nat.lt_of_le_of_lt (toNat_le_of_within rules.flags) (by decide)
    have boots : t.bootCount < 65536 := Nat.lt_succ_of_le rules.bootCount
    exact ⟨rules.installation.1, rules.ticketId.1, rules.component.text, rules.planId.1, trivial,
      trivial, rules.coordinator.1, trivial, flags, trivial, boots, rules.boot, trivial,
      rules.windowHex, trivial, rules.successorHex, ⟨rules.healthCount, fun _ _ => trivial⟩,
      ⟨rules.ledger.length, fun _ _ => trivial⟩, trivial⟩

/-! ## Observations -/

namespace Observation.Builder

/-- The fields that observations of every kind have. -/
def common (o : Builder) : Builder where
  installation := o.installation
  observationId := o.observationId
  component := o.component
  boot := o.boot
  user := o.user
  serial := o.serial
  route := o.route
  instanceId := o.instanceId
  elapsed := o.elapsed
  wall := o.wall
  raw := o.raw
  classification := o.classification

/-- An observation with the facts of a kind and no others. -/
def ofKind (o : Builder) : ObservationKind → Builder
  | .boot => { o.common with text := o.text }
  | .factory => { o.common with digest := o.digest, version := o.version }
  | .active => { o.common with
    digest := o.digest, version := o.version, number := o.number, text := o.text }
  | .listing | .health => { o.common with number := o.number }
  | .session => { o.common with reference := o.reference }
  | .reply => { o.common with
    subject := o.subject, sequence := o.sequence, crossing := some (o.crossing.getD .sign)
    reference := o.reference }
  | .signer => { o.common with subject := o.subject }
  | .bundle => { o.common with
    subject := o.subject, plan := o.plan, digest := o.digest, bundleApk := o.bundleApk
    restorationApk := o.restorationApk }
  | .receipt => { o.common with subject := o.subject, sequence := o.sequence }
  | .checkpoint | .user => o.common

/-- The facts of a kind are ones that its body can hold. -/
def Bodied (o : Builder) : ObservationKind → Prop
  | .boot => IsText 1 o.text
  | .factory => IsHex 64 o.digest
  | .active => IsHex 64 o.digest ∧ IsText 1 o.text
  | .listing | .health => o.number.toUInt32.toNat < 65536
  | .reply => IsHex 32 o.subject ∧ o.sequence < 65536
  | .signer => IsHex 32 o.subject
  | .bundle => IsHex 32 o.subject ∧ IsHex 32 o.plan ∧ IsHex 64 o.digest ∧ IsHex 64 o.bundleApk ∧
    IsHex 64 o.restorationApk
  | .receipt => IsHex 32 o.subject ∧ o.sequence < 65536
  | .session | .checkpoint | .user => True

end Observation.Builder

theorem number_eq_iff {x : Int32} (small : n < 65536) :
    x.toUInt32.toNat = n ↔ x = Int32.ofNat n := by
  constructor
  · rintro rfl
    apply Int32.toBitVec_inj.mp
    simp
  · rintro rfl
    simp
    omega

theorem number_small {x : Int32} (positive : ¬x < 0) (small : ¬65535 < x) :
    x.toUInt32.toNat < 65536 := by
  rw [Int32.lt_iff_toInt_lt] at positive small
  have toInt : x.toInt = x.toUInt32.toBitVec.toInt := rfl
  have zero : (0 : Int32).toInt = 0 := by decide
  have most : (65535 : Int32).toInt = 65535 := by decide
  have toNat : x.toUInt32.toBitVec.toNat = x.toUInt32.toNat := rfl
  rw [toInt, BitVec.toInt_eq_toNat_cond] at positive small
  have bound := x.toUInt32.toBitVec.isLt
  split at positive <;> omega

variable {kind : ObservationKind}

theorem reads_classification :
    Reads (Input.classification kind) (fun c => Output.u8 c.code) (fun c => c.kind = kind) := by
  have found (c : Classification) : Classification.values.filter
      (fun d => d.kind = c.kind && d.code == c.code) = [c] := by
    cases c <;> decide
  have small (c : Classification) : c.code < 256 := by
    cases c <;> decide
  refine reads_u8.decode (g := Classification.code) fun n c => ?_
  constructor
  · rintro ⟨_, made⟩
    split at made
    · rename_i last
      cases made
      have member := mem_of_getLast? last
      simp only [mem_filter, Bool.and_eq_true, decide_eq_true_eq, beq_iff_eq] at member
      exact ⟨member.2.1, member.2.2.symm⟩
    · cases made
  · rintro ⟨rfl, rfl⟩
    refine ⟨small c, ?_⟩
    rw [found c]
    rfl

variable {b : Observation.Builder}

section Facts
open Observation.Builder

theorem readsRest_facts
    {r : Input Observation.Builder} {write : Observation.Builder → ByteString}
    {ok : Observation.Builder → Prop}
    (rest : ReadsRest (fun v => v.common = b.common ∧ v.kind = kind) r write ok)
    (bodied : ∀ v, ok v ↔ v.Bodied kind ∧ v = v.ofKind kind)
    (same : ∀ v, v.kind = kind → v = v.ofKind kind → write v = Output.facts v) :
    ReadsRest (fun v => v.common = b.common ∧ v.kind = kind) r Output.facts
      (fun v => v.Bodied v.kind ∧ v = v.ofKind v.kind) := by
  refine rest.congr (fun v known => ?_) fun v known fine => same v known.2 ((bodied v).mp fine).2
  rw [known.2, bodied]

theorem readsRest_ofKind (kind : ObservationKind) {known : Observation.Builder → Prop}
    {made : Observation.Builder} (fits : known made ∧ made = made.ofKind kind)
    (determined : ∀ v, known v → v.ofKind kind = made) :
    ReadsRest known (pure made : Input Observation.Builder) (fun _ => []) (fun v => v = v.ofKind kind) := by
  refine .done _ fun v => ⟨fun both => ?_, ?_⟩
  · exact both.2.trans (determined v both.1)
  · rintro rfl
    exact fits

theorem reads_facts_common
    (kinded : b.kind = kind) :
    ReadsRest (fun v => v.common = b.common ∧ v.kind = kind) (Input.facts b.common kind) Output.facts
      (fun v => v.Bodied v.kind ∧ v = v.ofKind v.kind) := by
  cases kind with
  | boot =>
    refine readsRest_facts (.field reads_text (·.text) fun _ _ =>
      readsRest_ofKind .boot ⟨⟨⟨rfl, kinded⟩, rfl⟩, rfl⟩ fun v known => ?_) ?_ fun v kind _ => ?_
    · simp only [ofKind, known]
    · simp [Bodied]
    · simp [Output.facts, kind]
  | checkpoint =>
    refine readsRest_facts (readsRest_ofKind .checkpoint ⟨⟨rfl, kinded⟩, rfl⟩ fun v known => ?_) ?_ fun v kind _ => ?_
    · simp only [ofKind, known]
    · simp [Bodied]
    · simp [Output.facts, kind]
  | factory =>
    refine readsRest_facts (.field reads_digest (·.digest) fun _ _ =>
      .field reads_i64 (·.version) fun _ _ =>
      readsRest_ofKind .factory ⟨⟨⟨⟨rfl, kinded⟩, rfl⟩, rfl⟩, rfl⟩ fun v known => ?_) ?_ fun v kind _ => ?_
    · simp only [ofKind, known]
    · simp [Bodied, and_assoc]
    · simp [Output.facts, kind]
  | active =>
    refine readsRest_facts (.field reads_digest (·.digest) fun _ _ =>
      .field reads_i64 (·.version) fun _ _ =>
      .field reads_i32 (·.number) fun _ _ =>
      .field reads_text (·.text) fun _ _ =>
      readsRest_ofKind .active ⟨⟨⟨⟨⟨⟨rfl, kinded⟩, rfl⟩, rfl⟩, rfl⟩, rfl⟩, rfl⟩ fun v known => ?_) ?_ fun v kind _ => ?_
    · simp only [ofKind, known]
    · simp [Bodied, and_assoc]
    · simp [Output.facts, kind]
  | session =>
    refine readsRest_facts (.field reads_reference (·.reference) fun _ _ =>
      readsRest_ofKind .session ⟨⟨⟨rfl, kinded⟩, rfl⟩, rfl⟩ fun v known => ?_) ?_ fun v kind _ => ?_
    · simp only [ofKind, known]
    · simp [Bodied]
    · simp [Output.facts, kind]
  | user =>
    refine readsRest_facts (readsRest_ofKind .user ⟨⟨rfl, kinded⟩, rfl⟩ fun v known => ?_) ?_ fun v kind _ => ?_
    · simp only [ofKind, known]
    · simp [Bodied]
    · simp [Output.facts, kind]
  | signer =>
    refine readsRest_facts (.field reads_id (·.subject) fun _ _ =>
      readsRest_ofKind .signer ⟨⟨⟨rfl, kinded⟩, rfl⟩, rfl⟩ fun v known => ?_) ?_ fun v kind _ => ?_
    · simp only [ofKind, known]
    · simp [Bodied]
    · simp [Output.facts, kind]
  | bundle =>
    refine readsRest_facts (.field reads_id (·.subject) fun _ _ =>
      .field reads_id (·.plan) fun _ _ =>
      .field reads_digest (·.digest) fun _ _ =>
      .field reads_digest (·.bundleApk) fun _ _ =>
      .field reads_digest (·.restorationApk) fun _ _ =>
      readsRest_ofKind .bundle ⟨⟨⟨⟨⟨⟨⟨rfl, kinded⟩, rfl⟩, rfl⟩, rfl⟩, rfl⟩, rfl⟩, rfl⟩ fun v known => ?_) ?_ fun v kind _ => ?_
    · simp only [ofKind, known]
    · simp [Bodied, and_assoc]
    · simp [Output.facts, kind]
  | receipt =>
    refine readsRest_facts (.field reads_id (·.subject) fun _ _ =>
      .field reads_u16 (·.sequence) fun _ _ =>
      readsRest_ofKind .receipt ⟨⟨⟨⟨rfl, kinded⟩, rfl⟩, rfl⟩, rfl⟩ fun v known => ?_) ?_ fun v kind _ => ?_
    · simp only [ofKind, known]
    · simp [Bodied, and_assoc]
    · simp [Output.facts, kind]
  | reply =>
    refine readsRest_facts (.field reads_id (·.subject) fun _ _ =>
      .field reads_u16 (·.sequence) fun _ _ =>
      .field reads_code (fun v => v.crossing.getD .sign) fun _ _ =>
      .field reads_reference (·.reference) fun _ _ =>
      readsRest_ofKind .reply ⟨⟨⟨⟨⟨⟨rfl, kinded⟩, rfl⟩, rfl⟩, rfl⟩, rfl⟩, rfl⟩ fun v known => ?_) ?_ fun v kind same => ?_
    · simp only [ofKind, known]
    · simp [Bodied, and_assoc]
    have crossing : v.crossing = some (v.crossing.getD .sign) :=
      congrArg Observation.Builder.crossing same
    simp only [Output.facts, kind]
    rw [crossing]
    rfl
  | listing =>
    refine readsRest_facts (.field reads_u16 (fun v => v.number.toUInt32.toNat) fun _ small =>
      readsRest_ofKind .listing ⟨⟨⟨rfl, kinded⟩, (number_eq_iff small).mpr rfl⟩, rfl⟩ fun v known => ?_) ?_ fun v kind _ => ?_
    · simp only [ofKind, known.1.1, (number_eq_iff small).mp known.2]
    · simp [Bodied]
    · simp [Output.facts, kind]
  | health =>
    refine readsRest_facts (.field reads_u16 (fun v => v.number.toUInt32.toNat) fun _ small =>
      readsRest_ofKind .health ⟨⟨⟨rfl, kinded⟩, (number_eq_iff small).mpr rfl⟩, rfl⟩ fun v known => ?_) ?_ fun v kind _ => ?_
    · simp only [ofKind, known.1.1, (number_eq_iff small).mp known.2]
    · simp [Bodied]
    · simp [Output.facts, kind]

end Facts

/-- The facts of each kind are read back into the builder of the common fields. -/
theorem reads_facts (plain : b.common = b)
    (kinded : b.kind = kind) :
    ReadsRest (fun v => v.common = b ∧ v.kind = kind) (Input.facts b kind) Output.facts
      (fun v => v.Bodied v.kind ∧ v = v.ofKind v.kind) := by
  have reads := reads_facts_common kinded
  rwa [plain] at reads

theorem Reference.eq_none {r : Reference} (absent : r.presence = 0) : r = Reference.none := by
  have rules := r.rules
  have lacks (field : BitVec 32) : ¬ r.has field := by simp [Reference.Fields.has, absent]
  have session := rules.session.2 (lacks _)
  have created := rules.created.2 (lacks _)
  have stageDir := rules.stageDir.2 (lacks _)
  have installer := rules.installer.2 (lacks _)
  have nonce := rules.nonce.mp (lacks _)
  obtain ⟨⟨presence, sessionId, createdMillis, stageDirectory, installerUid, nonce_⟩, valid⟩ := r
  simp only at absent session created stageDir installer nonce
  subst absent session created stageDir installer nonce
  rfl

namespace Observation.Builder
variable {o : Builder}

/-- Only UIDs, counts and criteria are numbers. -/
theorem Valid.number_eq (rules : o.Valid)
    (others : o.kind ≠ .active ∧ o.kind ≠ .listing ∧ o.kind ≠ .health) : o.number = 0 := by
  have number := rules.number
  unfold validateNumber at number
  split at number
  · exact absurd ‹_› others.1
  · exact absurd ‹_› others.2.1
  · exact absurd ‹_› others.2.2
  · simpa using number

theorem Valid.reply_eq (rules : o.Valid) :
    (o.kind ≠ .reply ∧ o.kind ≠ .receipt → o.sequence = 0) ∧
    (o.kind ≠ .reply → o.crossing = none) ∧
    (o.kind = .reply → some (o.crossing.getD .sign) = o.crossing) ∧
    (o.kind ≠ .reply ∧ o.kind ≠ .session → o.reference = Reference.none) ∧
    (o.kind = .reply ∨ o.kind = .receipt → o.sequence < maxLedger) := by
  have reply := rules.reply
  unfold validateReply at reply
  split at reply
  · rename_i kind
    split at reply
    · cases reply
    · rename_i crossing
      simp only [bind_unit_eq_ok, invalid_eq_ok, Nat.not_le] at reply
      simp [kind, crossing, reply.1]
  · rename_i kind
    simp only [bind_unit_eq_ok, invalid_eq_ok, Nat.not_le, not_or, not_not, ne_eq] at reply
    simp [kind, reply.1, reply.2.1, Reference.eq_none reply.2.2]
  rename_i notReply notReceipt
  simp only [bind_unit_eq_ok, invalid_eq_ok, either_eq_ok, not_or, not_not, ne_eq] at reply
  obtain ⟨⟨sequence, crossing⟩, _, reference⟩ := reply
  refine ⟨fun _ => sequence, fun _ => crossing, fun is => absurd is notReply,
    fun others => Reference.eq_none (reference others.2), ?_⟩
  rintro (is | is)
  · exact absurd is notReply
  · exact absurd is notReceipt

/-- An observation holds the facts of its kind and no others. -/
theorem Valid.eq_ofKind (rules : o.Valid) : o = o.ofKind o.kind := by
  have published : o.classification = .bundlePublished → o.kind = .bundle := by
    intro published
    rw [kind, published]
    rfl
  have apks (other : o.kind ≠ .bundle) : o.bundleApk = noDigest ∧ o.restorationApk = noDigest := by
    simpa using rules.unpublished fun is => other (published is)
  have digest (others : o.kind ≠ .factory ∧ o.kind ≠ .active ∧ o.kind ≠ .bundle) :
      o.digest = noDigest := by
    refine rules.digest ?_
    rintro (factory | active | is)
    · exact others.1 factory
    · exact others.2.1 active
    · exact others.2.2 (published is)
  have text := rules.text.2
  have version := rules.version.2
  have subject := rules.subject
  have plan := rules.plan
  have number := rules.number_eq
  obtain ⟨sequence, crossing, replied, reference, _⟩ := rules.reply_eq
  clear rules published
  cases kind : o.kind <;>
    simp only [kind, ne_eq, reduceCtorEq, not_false_eq_true, not_true_eq_false, and_true, and_false,
      or_false, or_true, forall_const, false_imp_iff, and_self]
      at apks digest text version subject plan number sequence crossing replied reference <;>
    · obtain ⟨⟩ := o
      simp only [ofKind, common, mk.injEq] at *
      simp [*]

theorem Valid.bodied (rules : o.Valid) : o.Bodied o.kind := by
  have text := rules.text.1
  have digest := rules.digestHex.1
  have subject := rules.subjectHex.1
  have sequence := rules.reply_eq.2.2.2.2
  have small : maxLedger < 65536 := by decide
  have number := rules.number
  unfold validateNumber at number
  cases kind : o.kind with
  | boot => exact text (.inl kind)
  | factory => exact digest
  | active => exact ⟨digest, text (.inr kind)⟩
  | listing =>
    simp only [kind, bind_unit_eq_ok, invalid_eq_ok, not_or] at number
    exact number_small number.1.1 number.1.2
  | health =>
    simp only [kind, invalid_eq_ok, not_or, not_not, ne_eq] at number
    exact Nat.lt_of_le_of_lt (toNat_le_of_within number.2) (by decide)
  | reply => exact ⟨subject, Nat.lt_trans (sequence (.inl kind)) small⟩
  | receipt => exact ⟨subject, Nat.lt_trans (sequence (.inr kind)) small⟩
  | signer => exact subject
  | bundle => exact ⟨subject, rules.planHex.1, digest, rules.bundleHex.1, rules.restorationHex⟩
  | session | checkpoint | user => trivial

end Observation.Builder

theorem reads_observation :
    ReadsValid Input.observation Output.observation Observation.Builder.Valid := by
  apply ReadsRest.whole
  · exact .field reads_id Observation.Builder.installation fun _ _ =>
      .field reads_id Observation.Builder.observationId fun _ _ =>
      .field reads_optionalText Observation.Builder.component fun _ _ =>
      .field reads_id Observation.Builder.boot fun _ _ =>
      .field reads_i32 Observation.Builder.user fun _ _ =>
      .field reads_i64 Observation.Builder.serial fun _ _ =>
      .field reads_code Observation.Builder.kind fun _ _ =>
      .field reads_code Observation.Builder.route fun _ _ =>
      .field reads_i64 Observation.Builder.instanceId fun _ _ =>
      .field reads_i64 Observation.Builder.elapsed fun _ _ =>
      .field reads_i64 Observation.Builder.wall fun _ _ =>
      .field reads_digest Observation.Builder.raw fun _ _ =>
      .congr (.field reads_classification Observation.Builder.classification fun _ kinded =>
        .of_known (reads_facts rfl kinded) fun v => by
          simp only [Observation.Builder.common, Observation.Builder.mk.injEq, true_and, and_true]
          tauto)
        (fun _ known => and_iff_right known.1.1.1.1.1.2)
        (fun _ _ _ => rfl)
  · intro o
    simp [Output.observation]
  · intro o rules
    have component : IsText 0 o.component := by
      by_cases empty : o.component = []
      · rw [empty]
        decide
      · have text := (rules.component empty).text
        exact ⟨Nat.zero_le _, text.2⟩
    exact ⟨rules.installation.1, rules.observationId.1, component, rules.boot, trivial, trivial,
      trivial, trivial, trivial, trivial, trivial, rules.raw.1, rules.bodied, rules.eq_ofKind⟩

end Andrix.Deployment
