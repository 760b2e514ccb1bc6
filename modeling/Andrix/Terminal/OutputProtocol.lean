import Andrix.Terminal.Journal

/-! The console's side of the terminal's output: a stream is cut into frames
again, however the transport hands it over, and a cursor that lives with the
parser takes each byte of a session once. -/
namespace Andrix.Terminal
open Andrix.Lib List

def headerSize : Nat := 24

def maxPayload : Nat := 4096

def MAGIC : Int32 := 0x41545831

inductive Failure where
  | io (message : String)
  | eof (message : String)
  deriving DecidableEq

/-- A frame is made only from a header that passed its checks. -/
structure Frame where
  session : Int64
  offset : Int64
  payload : ByteString
  positive : 0 < session.toInt
  nonempty : 0 < payload.length
  bounded : payload.length ≤ maxPayload
  start : 0 ≤ offset.toInt
  fits : offset.toInt + payload.length ≤ Int64.maxValue.toInt

/-- A Java `long` sum. -/
def Frame.stop (f : Frame) : Int64 := f.offset + Int64.ofNat f.payload.length

/-! ## Reading the stream -/

/-- An input stream: the bytes to come, and how many of them each of the next
bulk reads hands over at most. Later ones hand over all that is asked for. -/
structure Input where
  bytes : ByteString
  counts : List Nat

/-- `read()`: none is the end of the stream. -/
def Input.readByte (input : Input) : Option (UInt8 × Input) :=
  match input.bytes with
  | [] => none
  | first :: rest => some (first, { input with bytes := rest })

/-- `read(bytes, start, length)`: none is the end of the stream, and a stream may
hand over nothing without progress. -/
def Input.readInto (input : Input) (length : Nat) : Option (ByteString × Input) :=
  if input.bytes = [] then none
  else
    let count := min (input.counts.headD length) length
    some (input.bytes.take count, ⟨input.bytes.drop count, input.counts.tail⟩)

def truncated : Failure := .eof "Truncated terminal output frame"

/-- The loop until so many bytes are read. Each turn reads one at least, so that
many turns are enough. -/
def readFully : (turns length : Nat) → Input → Except Failure (ByteString × Input)
  | _, 0, input => .ok ([], input)
  | 0, _ + 1, _ => .error truncated
  | turns + 1, length + 1, input =>
    match input.readInto (length + 1) with
    | none => .error truncated
    | some ([], input) =>
      -- A defensive fallback for streams returning zero without progress.
      match input.readByte with
      | none => .error truncated
      | some (first, input) => do
        let (rest, input) ← readFully turns length input
        .ok (first :: rest, input)
    | some (first :: more, input) => do
      let (rest, input) ← readFully turns (length - more.length) input
      .ok (first :: more ++ rest, input)

/-- Big endian. -/
def getInt (bytes : ByteString) : Int32 := toInt32 bytes.reverse

def getLong (bytes : ByteString) : Int64 := toInt64 bytes.reverse

/-- The second half of `read`: the header's checks, then the payload. -/
def readPayload (length : Int32) (session offset : Int64) (input : Input) :
    Except Failure (Option (Frame × Input)) :=
  if bounds : length.toInt ≤ 0 ∨ maxPayload < length.toInt ∨ session.toInt ≤ 0 ∨
      offset.toInt < 0 ∨ Int64.maxValue.toInt - length.toInt < offset.toInt then
    .error (.io "Invalid terminal output frame bounds")
  else do
    -- Never allocate based on an unvalidated peer length.
    let (payload, input) ← readFully length.toInt.toNat length.toInt.toNat input
    if sized : payload.length = length.toInt.toNat then
      .ok (some (⟨session, offset, payload, by omega, by omega, by omega, by omega, by omega⟩,
        input))
    else .error truncated

/-- None means a clean end between frames. -/
def readFrame (input : Input) : Except Failure (Option (Frame × Input)) :=
  match input.readByte with
  | none => .ok none
  | some (first, input) => do
    let (rest, input) ← readFully (headerSize - 1) (headerSize - 1) input
    let header := first :: rest
    if getInt (header.take 4) ≠ MAGIC then .error (.io "Unknown terminal frame version")
    else
      readPayload (getInt ((header.drop 4).take 4)) (getLong ((header.drop 8).take 8))
        (getLong ((header.drop 16).take 8)) input

/-- The frames of one connection, up to its end or a failure. -/
def readFrames : Nat → Input → List Frame
  | 0, _ => []
  | turns + 1, input =>
    match readFrame input with
    | .ok (some (frame, input)) => frame :: readFrames turns input
    | .ok none | .error _ => []

/-! ## The cursor -/

inductive AttachmentState where
  | newSession | continuing | gap
  deriving DecidableEq

structure Cursor where
  session : Int64 := 0
  next : Int64 := 0
  gap : Bool := false
  failed : Bool := false

namespace Cursor

/-- Reattaching the same session cannot clear an observed gap or parser failure. -/
def attach (c : Cursor) (newSession firstOffset : Int64) : Except Failure (AttachmentState × Cursor) :=
  if newSession ≤ 0 ∨ firstOffset < 0 then .error (.io "Invalid terminal attachment offsets")
  else
    let changed := newSession ≠ c.session
    let c := if changed then { session := newSession } else c
    let c := if c.next < firstOffset then { c with gap := true } else c
    if c.gap || c.failed then .ok (.gap, c)
    else .ok (if changed then .newSession else .continuing, c)

/-- What one `accept` did: the bytes it gave the parser, if any, and its answer. -/
structure Accepted where
  cursor : Cursor
  handed : Option ByteString
  answer : Except Failure Int64

/-- The parser throws or not. Its exception passes through. -/
def accept (c : Cursor) (frame : Frame) (throws : Option Failure) : Accepted :=
  if c.session = 0 ∨ frame.session ≠ c.session then
    ⟨c, none, .error (.io "Output belongs to a different native session")⟩
  else if c.gap || c.failed then ⟨c, none, .ok (-1)⟩
  else if c.next < frame.offset then ⟨{ c with gap := true }, none, .ok (-1)⟩
  else if frame.stop ≤ c.next then ⟨c, none, .ok c.next⟩
  else
    let skip := (c.next - frame.offset).toInt.toNat
    let bytes := (frame.payload.drop skip).take (frame.payload.length - skip)
    match throws with
    -- The parser may have partially changed state, so nothing may be replayed.
    | some error => ⟨{ c with failed := true }, some bytes, .error error⟩
    | none => ⟨{ c with next := frame.stop }, some bytes, .ok frame.stop⟩

end Cursor

/-- What an `accept` can do. -/
inductive Cursor.Accepts (c : Cursor) (f : Frame) : Cursor.Accepted → Prop
  | foreign {failure} : c.session = 0 ∨ f.session ≠ c.session →
    Accepts c f ⟨c, none, .error failure⟩
  | stuck : f.session = c.session → c.gap = true ∨ c.failed = true →
    Accepts c f ⟨c, none, .ok (-1)⟩
  | opens : f.session = c.session → c.failed = false → c.next < f.offset →
    Accepts c f ⟨{ c with gap := true }, none, .ok (-1)⟩
  | repeated : f.session = c.session → c.gap = false → c.failed = false →
    Accepts c f ⟨c, none, .ok c.next⟩
  | fails {failure} : f.session = c.session → c.gap = false → c.failed = false →
    f.offset ≤ c.next → c.next < f.stop →
    Accepts c f ⟨{ c with failed := true }, some ((f.payload.drop (c.next - f.offset).toInt.toNat).take
      (f.payload.length - (c.next - f.offset).toInt.toNat)), .error failure⟩
  | parses : f.session = c.session → c.gap = false → c.failed = false →
    f.offset ≤ c.next → c.next < f.stop →
    Accepts c f ⟨{ c with next := f.stop }, some ((f.payload.drop (c.next - f.offset).toInt.toNat).take
      (f.payload.length - (c.next - f.offset).toInt.toNat)), .ok f.stop⟩

theorem Cursor.accept_accepts (c : Cursor) (f : Frame) (throws : Option Failure) :
    c.Accepts f (c.accept f throws) := by
  unfold Cursor.accept
  split
  · rename_i other
    exact .foreign other
  rename_i own
  simp only [not_or, ne_eq, not_not] at own
  split
  · rename_i stuck
    exact .stuck own.2 (by simpa using stuck)
  rename_i free
  simp only [Bool.or_eq_true, not_or, Bool.not_eq_true] at free
  split
  · rename_i lost
    exact .opens own.2 free.2 lost
  rename_i joined
  split
  · exact .repeated own.2 free.1 free.2
  rename_i new
  rw [Int64.not_lt] at joined
  rw [Int64.not_le] at new
  cases throws with
  | none => exact .parses own.2 free.1 free.2 joined new
  | some failure => exact .fails own.2 free.1 free.2 joined new

/-- The cursor after an attachment: the same session, perhaps with a gap, or
another one from its start. -/
theorem Cursor.attach_cases {c c' : Cursor} {session firstOffset : Int64} {state : AttachmentState}
    (attached : c.attach session firstOffset = .ok (state, c')) :
    c'.session = session ∧
      (session = c.session → c'.next = c.next ∧ c'.failed = c.failed ∧
        (c.gap = true → c'.gap = true) ∧ (c.gap = true ∨ c.failed = true → state = .gap)) ∧
      (session ≠ c.session → c'.next = 0 ∧ c'.failed = false) := by
  unfold Cursor.attach at attached
  split at attached
  · cases attached
  by_cases same : session = c.session
  · subst same
    simp only [ne_eq, not_true_eq_false, if_false] at attached
    repeat' split at attached
    all_goals
      simp only [Except.ok.injEq, Prod.mk.injEq] at attached
      obtain ⟨rfl, rfl⟩ := attached
      simp_all
  · simp only [ne_eq, same, not_false_eq_true, if_true] at attached
    repeat' split at attached
    all_goals
      simp only [Except.ok.injEq, Prod.mk.injEq] at attached
      obtain ⟨rfl, rfl⟩ := attached
      simp_all

/-! ## A frame survives its stream -/

/-- The frame as the native side writes it. -/
def Frame.encoded (f : Frame) : ByteString :=
  encodeFrame f.session.toUInt64 f.offset.toUInt64 f.payload

theorem put_eq (value length : Nat) : put value length = (fixed length value).reverse := by
  induction length with
  | zero => rfl
  | succ n ih =>
    have first : put value (n + 1) = UInt8.ofNat (value >>> (n * 8)) :: put value n := by
      unfold put
      rw [range_succ_eq_map, map_cons, map_map]
      simp only [Nat.sub_zero, Nat.add_sub_cancel, List.cons.injEq, true_and]
      refine map_congr_left fun i _ => ?_
      simp only [Function.comp_apply, Nat.succ_eq_add_one]
      congr 3
      omega
    rw [first, ih, fixed_succ, reverse_append, reverse_singleton, singleton_append,
      Nat.shiftRight_eq_div_pow, Nat.mul_comm n 8, Nat.pow_mul]

theorem length_put (value length : Nat) : (put value length).length = length := by
  simp [put]

theorem getLong_put (v : Int64) : getLong (put v.toUInt64.toNat 8) = v := by
  rw [getLong, put_eq, reverse_reverse]
  exact (toInt64_eq (length_fixed 8 _)).mpr rfl

theorem getInt_put (v : Int32) : getInt (put v.toUInt32.toNat 4) = v := by
  rw [getInt, put_eq, reverse_reverse]
  exact (toInt32_eq (length_fixed 4 _)).mpr rfl

/-- A nonnegative Java `long` is the number of its unsigned word. -/
theorem toNat_toUInt64 {v : Int64} (nonneg : 0 ≤ v.toInt) : (v.toUInt64.toNat : Int) = v.toInt := by
  have signed := BitVec.toInt_eq_toNat_cond v.toBitVec
  have upper := v.toBitVec.isLt
  rw [Int64.toInt_toBitVec, Int64.toNat_toBitVec] at signed
  rw [Int64.toNat_toBitVec] at upper
  split at signed <;> omega

theorem toInt_toInt64 {v : UInt64} (small : v.toNat ≤ kMaximumOffset.toNat) :
    v.toInt64.toInt = v.toNat := by
  have signed := BitVec.toInt_eq_toNat_cond v.toInt64.toBitVec
  rw [Int64.toInt_toBitVec, Int64.toNat_toBitVec, UInt64.toUInt64_toInt64] at signed
  have bound := OutputJournal.kMaximumOffset_toNat
  rw [signed]
  split <;> omega

theorem maxValue_toInt : Int64.maxValue.toInt = kMaximumOffset.toNat := rfl

theorem Frame.length_toNat (f : Frame) : (UInt32.ofNat f.payload.length).toNat = f.payload.length := by
  have bounded := f.bounded
  unfold maxPayload at bounded
  rw [UInt32.toNat_ofNat_of_lt' (by simp [UInt32.size]; omega)]

theorem Frame.header_valid (f : Frame) :
    Header.valid ⟨UInt32.ofNat f.payload.length, f.session.toUInt64, f.offset.toUInt64⟩ = true := by
  have bounded := f.bounded
  have nonempty := f.nonempty
  have positive := f.positive
  have fits := f.fits
  have upper := f.session.toInt_lt
  have session := toNat_toUInt64 (v := f.session) (by omega)
  have offset := toNat_toUInt64 f.start
  have max := OutputJournal.kMaximumOffset_toNat
  have length := f.length_toNat
  rw [maxValue_toInt] at fits
  unfold maxPayload at bounded
  have room : (kMaximumOffset - (UInt32.ofNat f.payload.length).toUInt64).toNat =
      kMaximumOffset.toNat - f.payload.length := by
    rw [UInt64.toNat_sub_of_le _ _ (by
      rw [UInt64.le_iff_toNat_le, UInt32.toNat_toUInt64, length]
      omega), UInt32.toNat_toUInt64, length]
  simp only [Header.valid, Bool.and_eq_true, decide_eq_true_eq, UInt32.lt_iff_toNat_lt,
    UInt64.lt_iff_toNat_lt, UInt64.le_iff_toNat_le, length, room, kFramePayloadLimit,
    UInt32.toNat_zero, UInt64.toNat_zero]
  omega

theorem Frame.encoded_eq (f : Frame) : f.encoded =
    magic ++ (put f.payload.length 4 ++ (put f.session.toUInt64.toNat 8 ++
      (put f.offset.toUInt64.toNat 8 ++ f.payload))) := by
  have bounded := f.bounded
  unfold maxPayload at bounded
  have made : encodeHeader ⟨UInt32.ofNat f.payload.length, f.session.toUInt64, f.offset.toUInt64⟩ =
      some (magic ++ put f.payload.length 4 ++ put f.session.toUInt64.toNat 8 ++
        put f.offset.toUInt64.toNat 8) := by
    rw [encodeHeader, if_pos f.header_valid, f.length_toNat]
  unfold Frame.encoded encodeFrame
  rw [if_neg (by unfold kFramePayloadLimit; omega), made]
  simp only [append_assoc]

/-- Enough bytes are read, whatever the stream hands over at a time. -/
theorem readFully_ok (turns length : Nat) (input : Input) (enough : length ≤ input.bytes.length)
    (turned : length ≤ turns) : ∃ counts, readFully turns length input =
      .ok (input.bytes.take length, ⟨input.bytes.drop length, counts⟩) := by
  induction turns generalizing length input with
  | zero =>
    obtain rfl : length = 0 := by omega
    exact ⟨input.counts, by simp [readFully]⟩
  | succ turns ih =>
    cases length with
    | zero => exact ⟨input.counts, by simp [readFully]⟩
    | succ length =>
      obtain ⟨bytes, counts⟩ := input
      have nonempty : bytes ≠ [] := ne_nil_of_length_pos (by dsimp only at enough; omega)
      obtain ⟨first, rest, rfl⟩ := exists_cons_of_ne_nil nonempty
      simp only [length_cons] at enough
      unfold readFully Input.readInto
      simp only [reduceCtorEq, if_false]
      cases count : min (counts.headD (length + 1)) (length + 1) with
      | zero =>
        obtain ⟨left, read⟩ := ih length ⟨rest, counts.tail⟩
          (by dsimp only; omega) (by omega)
        exact ⟨left, by simp [Input.readByte, read, ok_bind]⟩
      | succ more =>
        have within : more ≤ length := by omega
        obtain ⟨left, read⟩ := ih (length - more) ⟨rest.drop more, counts.tail⟩
          (by simp only [length_drop]; omega) (by omega)
        refine ⟨left, ?_⟩
        have taken : (rest.take more).length = more := by
          rw [length_take]
          omega
        simp only [take_succ_cons, drop_succ_cons, taken, read, ok_bind, drop_drop]
        simp only [cons_append, Except.ok.injEq, Prod.mk.injEq, List.cons.injEq, true_and,
          Input.mk.injEq, and_true]
        refine ⟨?_, by rw [Nat.add_sub_cancel' within]⟩
        rw [← take_add, Nat.add_sub_cancel' within]

/-- A stream that ends too early is a truncated frame. -/
theorem readFully_short (turns length : Nat) (input : Input) (short : input.bytes.length < length) :
    readFully turns length input = .error truncated := by
  induction turns generalizing length input with
  | zero =>
    cases length with
    | zero => omega
    | succ length => rfl
  | succ turns ih =>
    cases length with
    | zero => omega
    | succ length =>
      obtain ⟨bytes, counts⟩ := input
      unfold readFully Input.readInto
      cases bytes with
      | nil => simp
      | cons first rest =>
        simp only [length_cons] at short
        simp only [reduceCtorEq, if_false]
        cases count : min (counts.headD (length + 1)) (length + 1) with
        | zero =>
          have read := ih length ⟨rest, counts.tail⟩ (by dsimp only; omega)
          simp [Input.readByte, read]
          rfl
        | succ more =>
          have read := ih (length - (rest.take more).length) ⟨rest.drop more, counts.tail⟩
            (by simp only [length_drop, length_take]; omega)
          simp only [take_succ_cons, drop_succ_cons, read]
          rfl

/-- The header's bytes without the first one, which is read alone. -/
def Frame.headerRest (f : Frame) : ByteString :=
  magic.tail ++ (put f.payload.length 4 ++ (put f.session.toUInt64.toNat 8 ++
    put f.offset.toUInt64.toNat 8))

theorem Frame.encoded_cons (f : Frame) : f.encoded = 0x41 :: (f.headerRest ++ f.payload) := by
  rw [f.encoded_eq, Frame.headerRest]
  simp only [append_assoc]
  rfl

theorem Frame.length_headerRest (f : Frame) : f.headerRest.length = headerSize - 1 := by
  simp [Frame.headerRest, length_put, headerSize]
  rfl

theorem Frame.length_toInt (f : Frame) :
    (UInt32.ofNat f.payload.length).toInt32.toInt = f.payload.length := by
  have bounded := f.bounded
  unfold maxPayload at bounded
  have signed := BitVec.toInt_eq_toNat_cond (UInt32.ofNat f.payload.length).toInt32.toBitVec
  rw [Int32.toInt_toBitVec, Int32.toNat_toBitVec, UInt32.toUInt32_toInt32, f.length_toNat] at signed
  rw [signed]
  split <;> omega

theorem readFrame_header (f : Frame) (payload : ByteString) (counts : List Nat) :
    ∃ counts', readFrame ⟨0x41 :: (f.headerRest ++ payload), counts⟩ =
      readPayload (UInt32.ofNat f.payload.length).toInt32 f.session f.offset ⟨payload, counts'⟩ := by
  obtain ⟨counts', read⟩ := readFully_ok (headerSize - 1) (headerSize - 1) ⟨f.headerRest ++ payload, counts⟩
    (by rw [length_append, f.length_headerRest]; omega) le_rfl
  rw [take_left' f.length_headerRest, drop_left' f.length_headerRest] at read
  refine ⟨counts', ?_⟩
  have header : (0x41 : UInt8) :: f.headerRest = magic ++ (put f.payload.length 4 ++
    (put f.session.toUInt64.toNat 8 ++ put f.offset.toUInt64.toNat 8)) := rfl
  have length : getInt (put f.payload.length 4) = (UInt32.ofNat f.payload.length).toInt32 := by
    have same := getInt_put (UInt32.ofNat f.payload.length).toInt32
    rwa [UInt32.toUInt32_toInt32, f.length_toNat] at same
  have magic_ : magic.length = 4 := rfl
  have drop4 (rest : ByteString) : (magic ++ rest).drop 4 = rest := drop_left' magic_
  have drop8 (rest : ByteString) :
      (magic ++ (put f.payload.length 4 ++ rest)).drop 8 = rest := by
    rw [← append_assoc, drop_left' (by simp [length_put, magic_])]
  have drop16 (rest : ByteString) : (magic ++ (put f.payload.length 4 ++
      (put f.session.toUInt64.toNat 8 ++ rest))).drop 16 = rest := by
    rw [← append_assoc, ← append_assoc, drop_left' (by simp [length_put, magic_])]
  unfold readFrame Input.readByte
  simp only [read, ok_bind, header, drop4, drop8, drop16, take_left' (length_put _ 4),
    take_left' (length_put _ 8), take_left' magic_, length, getLong_put]
  rw [take_of_length_le (length_put _ 8).le, getLong_put, if_neg (by decide)]

theorem readPayload_ok (f : Frame) (rest : ByteString) (counts : List Nat) :
    ∃ counts', readPayload (UInt32.ofNat f.payload.length).toInt32 f.session f.offset
      ⟨f.payload ++ rest, counts⟩ = .ok (some (f, ⟨rest, counts'⟩)) := by
  obtain ⟨counts', read⟩ := readFully_ok f.payload.length f.payload.length
    ⟨f.payload ++ rest, counts⟩ (by simp) le_rfl
  rw [take_left' rfl, drop_left' rfl] at read
  refine ⟨counts', ?_⟩
  have nonempty := f.nonempty
  have positive := f.positive
  have start := f.start
  have fits := f.fits
  have bounded := f.bounded
  have length := f.length_toInt
  unfold readPayload
  rw [dif_neg (by omega)]
  simp only [length, Int.toNat_natCast, read, ok_bind, dif_pos]

theorem readPayload_short (f : Frame) (input : Input) (short : input.bytes.length < f.payload.length) :
    ∃ failure, readPayload (UInt32.ofNat f.payload.length).toInt32 f.session f.offset input =
      .error failure := by
  have length := f.length_toInt
  unfold readPayload
  split
  · exact ⟨_, rfl⟩
  · refine ⟨truncated, ?_⟩
    simp only [length, Int.toNat_natCast, readFully_short _ _ _ short]
    rfl

/-- A whole frame is read, and the rest of the stream is left. -/
theorem readFrame_encoded (f : Frame) (rest : ByteString) (counts : List Nat) :
    ∃ counts', readFrame ⟨f.encoded ++ rest, counts⟩ = .ok (some (f, ⟨rest, counts'⟩)) := by
  obtain ⟨counts', header⟩ := readFrame_header f (f.payload ++ rest) counts
  obtain ⟨counts'', payload⟩ := readPayload_ok f rest counts'
  refine ⟨counts'', ?_⟩
  rw [f.encoded_cons, cons_append, append_assoc, header, payload]

theorem readFrame_cut (f : Frame) {cut : Nat} (counts : List Nat) (inside : cut < f.encoded.length) :
    readFrame ⟨f.encoded.take cut, counts⟩ = .ok none ∨
      ∃ failure, readFrame ⟨f.encoded.take cut, counts⟩ = .error failure := by
  rw [f.encoded_cons] at inside ⊢
  have size := f.length_headerRest
  cases cut with
  | zero => exact .inl rfl
  | succ cut =>
    right
    rw [take_succ_cons]
    rw [length_cons, length_append] at inside
    by_cases header : cut < headerSize - 1
    · have short : readFully (headerSize - 1) (headerSize - 1)
          ⟨(f.headerRest ++ f.payload).take cut, counts⟩ = .error truncated :=
        readFully_short _ _ _ (by dsimp only; rw [length_take]; omega)
      refine ⟨truncated, ?_⟩
      unfold readFrame Input.readByte
      simp only [short]
      rfl
    · obtain ⟨more, rfl⟩ : ∃ more, cut = headerSize - 1 + more := ⟨cut - (headerSize - 1), by omega⟩
      rw [← size, take_length_add_append]
      obtain ⟨counts', read⟩ := readFrame_header f (f.payload.take more) counts
      obtain ⟨failure, failed⟩ := readPayload_short f ⟨f.payload.take more, counts'⟩
        (by dsimp only; rw [length_take]; omega)
      exact ⟨failure, by rw [read, failed]⟩

/-- A connection that carries frames and ends anywhere gives the first of them. -/
theorem readFrames_eq (frames : List Frame) (cut turns : Nat) (counts : List Nat) :
    ∃ n, readFrames turns ⟨(frames.flatMap Frame.encoded).take cut, counts⟩ = frames.take n := by
  induction turns generalizing frames cut counts with
  | zero => exact ⟨0, rfl⟩
  | succ turns ih =>
    cases frames with
    | nil => exact ⟨0, by simp [readFrames, readFrame, Input.readByte]⟩
    | cons f rest =>
      rw [flatMap_cons]
      by_cases inside : cut < f.encoded.length
      · rw [take_append_of_le_length inside.le]
        refine ⟨0, ?_⟩
        unfold readFrames
        rcases readFrame_cut f counts inside with none_ | ⟨failure, failed⟩
        · simp [none_]
        · simp [failed]
      · obtain ⟨more, rfl⟩ : ∃ more, cut = f.encoded.length + more :=
          ⟨cut - f.encoded.length, by omega⟩
        obtain ⟨counts', read⟩ := readFrame_encoded f ((rest.flatMap Frame.encoded).take more) counts
        obtain ⟨n, later⟩ := ih rest more counts'
        refine ⟨n + 1, ?_⟩
        rw [take_length_add_append, readFrames, read]
        simp [later]

end Andrix.Terminal
