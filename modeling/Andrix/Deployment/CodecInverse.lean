import Andrix.Deployment.CodecLaws

/-! Decoding is the inverse of encoding. A frame opens to exactly the body it was
made of, every valid value fits a record, and so each kind of record has one
encoding a value and one value an encoding. -/
namespace Andrix.Deployment
open Andrix.Lib

/-! ## Frames -/

section
variable {bytes : ByteString} {position : Nat}

theorem u16At_eq_iff {value : Nat} (inside : position + 2 ≤ bytes.length) (small : value < 65536) :
    u16At bytes position = value ↔ (bytes.drop position).take 2 = Output.u16 value := by
  have length : ((bytes.drop position).take 2).length = 2 := by
    rw [List.length_take, List.length_drop]
    omega
  constructor
  · rintro rfl
    have whole := fixed_word ((bytes.drop position).take 2)
    rw [length] at whole
    exact whole.symm
  · intro same
    rw [u16At, same]
    exact word_fixed small

theorem i32At_eq_iff {value : Int32} (inside : position + 4 ≤ bytes.length) :
    i32At bytes position = value ↔ (bytes.drop position).take 4 = Output.i32 value := by
  apply toInt32_eq
  rw [List.length_take, List.length_drop]
  omega

end

theorem kind_small (kind : Kind) : kind.code < 65536 := by
  cases kind <;> decide

variable {kind : Kind}

def Output.frameOf (kind : Kind) (declared length : Nat) : ByteString :=
  Output.i32 magic ++ Output.u16 kind.code ++ Output.u16 declared ++ Output.i32 (Int32.ofNat length)

/-- The four fields of a frame are its twelve bytes. -/
theorem frameOf_eq_iff {record : ByteString} {declared length : Nat}
    (long : frameBytes ≤ record.length) (small : declared < 65536) :
    record.take frameBytes = Output.frameOf kind declared length ↔
      i32At record 0 = magic ∧ u16At record 4 = kind.code ∧ u16At record 6 = declared ∧
        i32At record lengthOffset = Int32.ofNat length := by
  simp only [frameBytes, lengthOffset] at long ⊢
  have fields : record.take 12 = (record.drop 0).take 4 ++ (record.drop 4).take 2 ++
      (record.drop 6).take 2 ++ (record.drop 8).take 4 := by
    rw [show 12 = 8 + 4 from rfl, List.take_add, show 8 = 6 + 2 from rfl, List.take_add,
      show 6 = 4 + 2 from rfl, List.take_add]
    rfl
  have short (position size : Nat) (inside : position + size ≤ record.length) :
      ((record.drop position).take size).length = size := by
    rw [List.length_take, List.length_drop]
    omega
  rw [fields, Output.frameOf, i32At_eq_iff (by omega), u16At_eq_iff (by omega) (kind_small kind),
    u16At_eq_iff (by omega) small, i32At_eq_iff (by omega)]
  have i32 (value : Int32) : (Output.i32 value).length = 4 := length_fixed ..
  have u16 (value : Nat) : (Output.u16 value).length = 2 := length_fixed ..
  constructor
  · intro same
    obtain ⟨same, last⟩ := List.append_inj' same (by rw [short _ _ (by omega), i32])
    obtain ⟨same, third⟩ := List.append_inj' same (by rw [short _ _ (by omega), u16])
    obtain ⟨first, second⟩ := List.append_inj' same (by rw [short _ _ (by omega), u16])
    exact ⟨first, second, third, last⟩
  · rintro ⟨first, second, third, last⟩
    rw [first, second, third, last]

theorem frame_eq_iff {record : ByteString} {length : Nat} (long : frameBytes ≤ record.length) :
    record.take frameBytes = Output.frame kind length ↔
      i32At record 0 = magic ∧ u16At record 4 = kind.code ∧ u16At record 6 = version ∧
        i32At record lengthOffset = Int32.ofNat length :=
  frameOf_eq_iff long (by decide)

variable {sha256 : ByteString → Vector UInt8 32}

variable {record body : ByteString}

theorem openRecord_eq_ok :
    openRecord sha256 record kind = .ok body ↔
      frameBytes + checksumBytes ≤ record.length ∧ record.length ≤ maxBytes ∧
      record.take frameBytes = Output.frame kind record.length ∧
      (sha256 (record.take (record.length - checksumBytes))).toList =
        record.drop (record.length - checksumBytes) ∧
      body = (record.take (record.length - checksumBytes)).drop frameBytes := by
  simp only [openRecord, bounded, bind_unit_eq_ok, invalid_eq_ok, Nat.not_lt, ne_eq, not_not]
  rw [bind_eq_ok]
  simp only [frame, bind_unit_eq_ok, invalid_eq_ok, pure_eq_ok, ne_eq, not_not]
  constructor
  · rintro ⟨⟨most, least⟩, _, declared, ⟨magic, kinded, length, sum, same⟩, versioned, rfl⟩
    subst declared
    refine ⟨least, most, ?_, sum, rfl⟩
    exact (frame_eq_iff (by omega)).mpr ⟨magic, kinded, versioned, length⟩
  · rintro ⟨least, most, framed, sum, rfl⟩
    obtain ⟨magic, kinded, versioned, length⟩ := (frame_eq_iff (by omega)).mp framed
    exact ⟨⟨most, least⟩, kinded, _, ⟨magic, kinded, length, sum, rfl⟩, versioned, rfl⟩

theorem sealRecord_eq_ok :
    Output.sealRecord sha256 kind body = .ok record ↔
      frameBytes + body.length + checksumBytes ≤ maxBytes ∧
      Output.frame kind (frameBytes + body.length + checksumBytes) ++ body ++
        (sha256 (Output.frame kind (frameBytes + body.length + checksumBytes) ++ body)).toList =
          record := by
  dsimp only [Output.sealRecord]
  split
  · rename_i long
    simp only [reduceCtorEq, false_iff, not_and]
    omega
  · rename_i short
    simp only [Except.ok.injEq, Nat.not_lt.mp short, true_and]

theorem length_frameOf (kind : Kind) (declared length : Nat) :
    (Output.frameOf kind declared length).length = frameBytes := by
  simp [Output.frameOf, Output.i32, Output.u16, int32, frameBytes]

theorem length_frame (kind : Kind) (length : Nat) :
    (Output.frame kind length).length = frameBytes := length_frameOf kind version length

theorem record_parts {head : ByteString} (start : head.length = frameBytes) (body : ByteString)
    (sum : Vector UInt8 32) :
    let record := head ++ body ++ sum.toList
    record.length = frameBytes + body.length + checksumBytes ∧ record.take frameBytes = head ∧
      record.take (record.length - checksumBytes) = head ++ body ∧
      record.drop (record.length - checksumBytes) = sum.toList ∧
      (record.take (record.length - checksumBytes)).drop frameBytes = body := by
  have length : (head ++ body ++ sum.toList).length = frameBytes + body.length + checksumBytes := by
    simp [start, checksumBytes, Nat.add_assoc]
  have taken : (head ++ body ++ sum.toList).take (frameBytes + body.length) = head ++ body :=
    List.take_left' (by simp [start])
  dsimp only
  rw [length, Nat.add_sub_cancel, taken, List.append_assoc]
  refine ⟨rfl, List.take_left' start, rfl, ?_, List.drop_left' start⟩
  rw [← List.append_assoc]
  exact List.drop_left' (by simp [start])

/-- A frame opens to the body it was made of, and to no other. -/
theorem openRecord_iff_sealRecord :
    openRecord sha256 record kind = .ok body ↔ Output.sealRecord sha256 kind body = .ok record := by
  rw [openRecord_eq_ok, sealRecord_eq_ok]
  constructor
  · rintro ⟨least, most, framed, sum, rfl⟩
    have size : frameBytes + ((record.take (record.length - checksumBytes)).drop frameBytes).length +
        checksumBytes = record.length := by
      rw [List.length_drop, List.length_take]
      omega
    have start : Output.frame kind record.length ++
        (record.take (record.length - checksumBytes)).drop frameBytes =
          record.take (record.length - checksumBytes) := by
      rw [← framed]
      have inner : record.take frameBytes =
          (record.take (record.length - checksumBytes)).take frameBytes := by
        rw [List.take_take, Nat.min_eq_left (by omega)]
      rw [inner, List.take_append_drop]
    rw [size, start, sum]
    exact ⟨most, List.take_append_drop ..⟩
  · rintro ⟨most, rfl⟩
    obtain ⟨length, head, start, sum, inner⟩ := record_parts
      (length_frame kind (frameBytes + body.length + checksumBytes)) body
      (sha256 (Output.frame kind (frameBytes + body.length + checksumBytes) ++ body))
    rw [start] at inner
    rw [start, sum, length]
    exact ⟨by omega, most, head, rfl, inner.symm⟩

/-! ## Sizes -/

@[simp] theorem length_u8 (value : Nat) : (Output.u8 value).length = 1 := length_fixed ..
@[simp] theorem length_u16 (value : Nat) : (Output.u16 value).length = 2 := length_fixed ..
@[simp] theorem length_i32 (value : Int32) : (Output.i32 value).length = 4 := length_fixed ..
@[simp] theorem length_i64 (value : Int64) : (Output.i64 value).length = 8 := length_fixed ..

@[simp] theorem length_code {α : Type} [Coded α] (value : α) : (Output.code value).length = 1 :=
  length_fixed ..

theorem length_id {value : Text} (hex : IsHex 32 value) : (Output.id value).length = 16 := by
  rw [Output.id, length_unhex, hex.1]

theorem length_digest {value : Text} (hex : IsHex 64 value) : (Output.digest value).length = 32 := by
  rw [Output.digest, length_unhex, hex.1]

@[simp] theorem length_text (value : Text) : (Output.text value).length = 2 + value.length := by
  simp only [Output.text, List.length_append, length_u16, List.length_map]

theorem length_flatMap_of_forall {α : Type} {write : α → ByteString} {size : Nat}
    (each : ∀ x, (write x).length = size) (l : List α) :
    (l.flatMap write).length = l.length * size := by
  induction l with
  | nil => simp
  | cons x l ih =>
    rw [List.flatMap_cons, List.length_append, ih, each, List.length_cons, Nat.succ_mul,
      Nat.add_comm]

theorem length_reference (r : Reference) : (Output.reference r.toFields).length ≤ 290 := by
  have rules := r.rules
  have short : r.stageDir.length ≤ maxText := by
    by_cases present : r.has Reference.stageDirectory
    · exact (rules.stageDir.1 present).2.1
    · simp [rules.stageDir.2 present]
  simp only [maxText] at short
  simp [Output.reference, length_id rules.nonceHex]
  omega

theorem length_entry (e : Entry) : (Output.entry e.toFields).length = 73 := by
  have rules := e.rules
  simp [Output.entry, length_id rules.boot, length_id rules.grantHex, length_id rules.referenceHex]

theorem length_health (h : Health) : (Output.health h.toFields).length = 13 := by
  simp [Output.health]

theorem length_plan {p : Plan.Builder} (rules : p.Valid) : (Output.plan p).length ≤ 2000 := by
  have component : _ ≤ 255 := rules.component.text.2.1
  have fingerprint : _ ≤ 255 := rules.fingerprint.2.1
  have context : _ ≤ 255 := rules.baseContext.2.1
  simp [Output.plan, length_id rules.installation.1, length_id rules.planId.1,
    length_id rules.repairsHex, length_digest rules.bundleInput, length_digest rules.signer,
    length_digest rules.restorationInput, length_digest rules.factoryApk.1,
    length_digest rules.baseApk.1, length_digest rules.trustPolicy.1, length_id rules.restorationHex]
  grind

theorem length_authorization {a : Authorization.Fields} (rules : a.Valid) :
    (Output.authorization a).length ≤ 2000 := by
  have component : _ ≤ 255 := rules.component.text.2.1
  simp [Output.authorization, length_id rules.installation.1, length_id rules.authorizationId.1,
    length_id rules.planId.1, length_id rules.grantHex, length_id rules.interaction.1]
  omega

theorem length_selection {s : Selection.Fields} (rules : s.Valid) :
    (Output.selection s).length ≤ 2000 := by
  have component : _ ≤ 255 := rules.component.text.2.1
  simp [Output.selection, length_id rules.installation.1, length_id rules.planHex,
    length_id rules.bootHex, length_id rules.repairHex, length_id rules.temporaryHex]
  omega

theorem length_ticket {t : Ticket.Builder} (rules : t.Valid) : (Output.ticket t).length ≤ 60000 := by
  have component : _ ≤ 255 := rules.component.text.2.1
  have reference := length_reference t.reference
  have users : _ ≤ 64 := rules.healthCount
  have entries := rules.ledger.length
  have limit : maxLedger ≤ 700 := by decide
  simp [Output.ticket, length_id rules.installation.1, length_id rules.ticketId.1,
    length_id rules.planId.1, length_id rules.coordinator.1, length_id rules.boot,
    length_id rules.windowHex, length_id rules.successorHex, length_flatMap_of_forall length_health,
    length_flatMap_of_forall length_entry]
  grind

theorem length_facts {o : Observation.Builder} (rules : o.Valid) : (Output.facts o).length ≤ 500 := by
  have fits := rules.bodied
  have reference := length_reference o.reference
  unfold Output.facts
  cases kind : o.kind <;> rw [kind] at fits <;> dsimp only
  case boot =>
    have text : _ ≤ 255 := fits.2.1
    simp only [length_text]
    omega
  case active =>
    have text : _ ≤ 255 := fits.2.2.1
    simp [length_digest fits.1]
    omega
  case factory => simp [length_digest fits]
  case reply =>
    simp [length_id fits.1]
    omega
  case signer => simp [length_id fits]
  case receipt => simp [length_id fits.1]
  case bundle =>
    obtain ⟨subject, plan, digest, bundle, restoration⟩ := fits
    simp [length_id subject, length_id plan, length_digest digest, length_digest bundle,
      length_digest restoration]
  case session => omega
  all_goals simp

theorem length_observation {o : Observation.Builder} (rules : o.Valid) :
    (Output.observation o).length ≤ 2000 := by
  have short : o.component.length ≤ maxText := by
    by_cases empty : o.component = []
    · simp [empty]
    · exact (rules.component empty).text.2.1
  simp only [maxText] at short
  have facts := length_facts rules
  simp [Output.observation, length_id rules.installation.1, length_id rules.observationId.1,
    length_id rules.boot, length_digest rules.raw.1]
  omega

/-! ## Records -/

structure Inverse {α : Type} (encode : α → Checked ByteString) (decode : ByteString → Checked α) :
    Prop where
  /-- Every value has an encoding within the bound, which decodes to that value. -/
  encodes : ∀ value, ∃ record, encode value = .ok record ∧ record.length ≤ maxBytes ∧
    decode record = .ok value
  /-- A record that decodes is the encoding of its value. -/
  canonical : ∀ record value, decode record = .ok value → encode value = .ok record

/-- A record type whose body reader accepts what its body writer makes, and whose
bodies fit a record, decodes exactly its encodings. -/
theorem inverse_of_body {α β : Type} {input : Input β} {output : β → ByteString}
    {valid : β → Prop} {build : β → Checked α} {parts : α → β}
    (reads : ReadsValid input output valid) (builds : ∀ b a, build b = .ok a ↔ parts a = b)
    (rules : ∀ a, valid (parts a)) (fits : ∀ b, valid b → (output b).length ≤ 60000) :
    Inverse (fun a => Output.sealRecord sha256 kind (output (parts a)))
      (decodeRecord sha256 kind input build) := by
  obtain ⟨ok, reads, covers⟩ := reads
  have decodes (record : ByteString) (value : α) :
      decodeRecord sha256 kind input build record = .ok value ↔
      Output.sealRecord sha256 kind (output (parts value)) = .ok record := by
    rw [decodeRecord, bind_eq_ok]
    constructor
    · rintro ⟨body, opened, read⟩
      rw [bind_eq_ok] at read
      obtain ⟨⟨fields, rest⟩, run, read⟩ := read
      simp only [bind_unit_eq_ok, invalid_eq_ok, ne_eq, not_not, builds] at read
      obtain ⟨rfl, rfl⟩ := read
      obtain ⟨_, rfl⟩ := (reads _ _ _).mp run
      rw [List.append_nil] at opened
      exact openRecord_iff_sealRecord.mp opened
    · intro sealed
      refine ⟨_, openRecord_iff_sealRecord.mpr sealed, bind_eq_ok.mpr ⟨(parts value, []), ?_, ?_⟩⟩
      · exact (reads _ _ _).mpr ⟨covers _ (rules value), (List.append_nil _).symm⟩
      · simp only [bind_unit_eq_ok, invalid_eq_ok, ne_eq, not_true_eq_false, not_false_eq_true,
          builds, and_self]
  constructor
  · intro value
    have size := fits _ (rules value)
    have room : frameBytes + (output (parts value)).length + checksumBytes ≤ maxBytes := by
      simp only [frameBytes, checksumBytes, maxBytes]
      omega
    refine ⟨_, sealRecord_eq_ok.mpr ⟨room, rfl⟩, ?_, ?_⟩
    · rw [(record_parts (length_frame kind _) _ _).1]
      exact room
    · exact (decodes _ _).mpr (sealRecord_eq_ok.mpr ⟨room, rfl⟩)
  · intro record value decoded
    exact (decodes record value).mp decoded

theorem plan_inverse : Inverse (encodePlan sha256) (decodePlan sha256) :=
  inverse_of_body reads_plan (fun _ _ => Plan.Builder.build_eq_ok) Plan.rules
    fun _ rules => Nat.le_trans (length_plan rules) (by decide)

theorem authorization_inverse : Inverse (encodeAuthorization sha256) (decodeAuthorization sha256) :=
  inverse_of_body reads_authorization (fun _ _ => Authorization.make_eq_ok) Authorization.rules
    fun _ rules => Nat.le_trans (length_authorization rules) (by decide)

theorem ticket_inverse : Inverse (encodeTicket sha256) (decodeTicket sha256) :=
  inverse_of_body reads_ticket (fun _ _ => Ticket.Builder.build_eq_ok) Ticket.rules
    fun _ rules => length_ticket rules

theorem observation_inverse : Inverse (encodeObservation sha256) (decodeObservation sha256) :=
  inverse_of_body reads_observation (fun _ _ => Observation.Builder.build_eq_ok) Observation.rules
    fun _ rules => Nat.le_trans (length_observation rules) (by decide)

theorem selection_inverse : Inverse (encodeSelection sha256) (decodeSelection sha256) :=
  inverse_of_body reads_selection (fun _ _ => Selection.make_eq_ok) Selection.rules
    fun _ rules => Nat.le_trans (length_selection rules) (by decide)

/-- For each of the five kinds of record and any checksum, decoding is the inverse of
encoding: every value encodes within the bound and decodes to itself, and every
record that decodes is the encoding of the value it decodes to. -/
theorem codec_bijective (sha256 : ByteString → Vector UInt8 32) :
    Inverse (encodePlan sha256) (decodePlan sha256) ∧
    Inverse (encodeAuthorization sha256) (decodeAuthorization sha256) ∧
    Inverse (encodeTicket sha256) (decodeTicket sha256) ∧
    Inverse (encodeObservation sha256) (decodeObservation sha256) ∧
    Inverse (encodeSelection sha256) (decodeSelection sha256) :=
  ⟨plan_inverse, authorization_inverse, ticket_inverse, observation_inverse, selection_inverse⟩

end Andrix.Deployment
