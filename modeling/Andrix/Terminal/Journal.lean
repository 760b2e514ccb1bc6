import Mathlib.Algebra.Order.Ring.Nat
import Andrix.Lib.Wire

/-! The native side of the terminal's output: the bounded journal that keeps the
last bytes of a session until the console has parsed them, and the frames that
carry them. The offsets of a session are never rebased, so what the journal holds
is always one slice of the session's whole output. -/
namespace Andrix.Terminal
open Andrix.Lib List UInt64

def kFramePayloadLimit : Nat := 4096

def kMaximumOffset : UInt64 := 0x7fffffffffffffff

def kJournalLimit : Nat := 128 * 1024

def maxOf (a b : UInt64) : UInt64 := if a < b then b else a

def minOf (a b : UInt64) : UInt64 := if b < a then b else a

theorem maxOf_toNat (a b : UInt64) : (maxOf a b).toNat = max a.toNat b.toNat := by
  unfold maxOf
  split <;> rename_i order <;> rw [lt_iff_toNat_lt] at order <;> omega

theorem minOf_toNat (a b : UInt64) : (minOf a b).toNat = min a.toNat b.toNat := by
  unfold minOf
  split <;> rename_i order <;> rw [lt_iff_toNat_lt] at order <;> omega

/-! ## Frames -/

structure Header where
  length : UInt32
  session : UInt64
  offset : UInt64

/-- No zero length, no wrapped offset and no session that is no positive Java
long. -/
def Header.valid (h : Header) : Bool :=
  0 < h.length && h.length.toNat ≤ kFramePayloadLimit && 0 < h.session &&
    h.session ≤ kMaximumOffset && h.offset ≤ kMaximumOffset - h.length.toUInt64

/-- Big endian. -/
def put (value length : Nat) : ByteString :=
  (List.range length).map (fun i => UInt8.ofNat (value >>> ((length - i - 1) * 8)))

def magic : ByteString := ['A', 'T', 'X', '1'].map (fun c => UInt8.ofNat c.toNat)

def encodeHeader (h : Header) : Option ByteString :=
  if h.valid then
    some (magic ++ put h.length.toNat 4 ++ put h.session.toNat 8 ++ put h.offset.toNat 8)
  else none

/-- The bytes of a frame, or none of them. -/
def encodeFrame (session offset : UInt64) (payload : ByteString) : ByteString :=
  if kFramePayloadLimit < payload.length then []
  else match encodeHeader ⟨UInt32.ofNat payload.length, session, offset⟩ with
    | none => []
    | some header => header ++ payload

/-! ## The journal -/

structure Read where
  valid : Bool := false
  gap : Bool := false
  offset : UInt64 := 0
  bytes : ByteString := []
  deriving DecidableEq

structure OutputJournal where
  capacity_ : Nat
  sequence_limit_ : UInt64
  bytes_ : ByteString := []
  begin_ : UInt64 := 0
  end_ : UInt64 := 0
  acknowledged_ : UInt64 := 0
  delivered_ : UInt64 := 0
  dropped_ : UInt64 := 0

namespace OutputJournal

def create (capacity : Nat) (sequenceLimit : UInt64) : OutputJournal where
  capacity_ := min capacity kJournalLimit
  sequence_limit_ := minOf sequenceLimit kMaximumOffset

/-- The oldest byte gives way. -/
def drop (j : OutputJournal) : OutputJournal :=
  { j with bytes_ := j.bytes_.tail, begin_ := j.begin_ + 1, dropped_ := j.dropped_ + 1 }

/-- One turn of the loop over the appended bytes. -/
def push (j : OutputJournal) (byte : UInt8) : OutputJournal :=
  let j := { j with end_ := j.end_ + 1 }
  if j.capacity_ = 0 then { j with begin_ := j.begin_ + 1, dropped_ := j.dropped_ + 1 }
  else
    let j := if j.bytes_.length = j.capacity_ then j.drop else j
    { j with bytes_ := j.bytes_ ++ [byte] }

/-- Offset exhaustion fails without mutation. -/
def append (j : OutputJournal) (bytes : ByteString) : Bool × OutputJournal :=
  if (j.sequence_limit_ - j.end_).toNat < bytes.length then (false, j)
  else (true, bytes.foldl push j)

def read (j : OutputJournal) (offset : UInt64) (maximum : Nat) : Read :=
  if j.end_ < offset ∨ maximum = 0 ∨ kFramePayloadLimit < maximum then {}
  else
    let start := maxOf offset j.begin_
    let count := min maximum (j.end_ - start).toNat
    let index := (start - j.begin_).toNat
    { valid := true, gap := offset < j.begin_, offset := start
      bytes := (j.bytes_.drop index).take count }

/-- Called only after a complete frame is written. -/
def delivered (j : OutputJournal) (nextOffset : UInt64) : Bool × OutputJournal :=
  if j.end_ < nextOffset then (false, j)
  else (true, { j with delivered_ := maxOf j.delivered_ nextOffset })

/-- The loop that lets go of what is acknowledged, in so many turns. -/
def release (nextOffset : UInt64) : Nat → OutputJournal → OutputJournal
  | 0, j => j
  | turns + 1, j =>
    if j.begin_ < nextOffset then
      release nextOffset turns { j with bytes_ := j.bytes_.tail, begin_ := j.begin_ + 1 }
    else j

/-- An acknowledgement beyond delivered data cannot free queued output. -/
def acknowledge (j : OutputJournal) (nextOffset : UInt64) : Bool × OutputJournal :=
  if j.delivered_ < nextOffset then (false, j)
  else if nextOffset ≤ j.acknowledged_ then (true, j)
  else (true, release nextOffset (nextOffset - j.begin_).toNat { j with acknowledged_ := nextOffset })

def clearForNewPresentation (j : OutputJournal) : OutputJournal :=
  { capacity_ := j.capacity_, sequence_limit_ := j.sequence_limit_ }

/-! ## What the journal holds -/

/-- The journal holds the bytes from `begin_` to the end of this output. -/
structure Holds (j : OutputJournal) (output : ByteString) : Prop where
  bytes : j.bytes_ = output.drop j.begin_.toNat
  length : j.end_.toNat = output.length
  begins : j.begin_.toNat ≤ j.end_.toNat
  acknowledged : j.acknowledged_.toNat ≤ j.delivered_.toNat
  delivered : j.delivered_.toNat ≤ j.end_.toNat
  bounded : j.end_.toNat ≤ j.sequence_limit_.toNat
  limit : j.sequence_limit_.toNat ≤ kMaximumOffset.toNat
  capacity : j.bytes_.length ≤ j.capacity_
  journalLimit : j.capacity_ ≤ kJournalLimit

theorem kMaximumOffset_toNat : kMaximumOffset.toNat = 2 ^ 63 - 1 := rfl

theorem create_holds (capacity : Nat) (sequenceLimit : UInt64) :
    (create capacity sequenceLimit).Holds [] where
  bytes := rfl
  length := rfl
  begins := le_rfl
  acknowledged := le_rfl
  delivered := le_rfl
  bounded := Nat.zero_le _
  limit := by
    rw [create, minOf_toNat]
    exact min_le_right _ _
  capacity := Nat.zero_le _
  journalLimit := min_le_right _ _

variable {j : OutputJournal} {output : ByteString}

theorem Holds.size (holds : j.Holds output) :
    j.bytes_.length = j.end_.toNat - j.begin_.toNat := by
  rw [holds.bytes, length_drop, holds.length]

theorem clear_holds (holds : j.Holds output) : j.clearForNewPresentation.Holds [] where
  bytes := rfl
  length := rfl
  begins := le_rfl
  acknowledged := le_rfl
  delivered := le_rfl
  bounded := Nat.zero_le _
  limit := holds.limit
  capacity := Nat.zero_le _
  journalLimit := holds.journalLimit

/-! ## What each call keeps -/

theorem push_holds (byte : UInt8) (holds : j.Holds output)
    (room : j.end_.toNat < j.sequence_limit_.toNat) :
    (j.push byte).Holds (output ++ [byte]) ∧ (j.push byte).end_ = j.end_ + 1 ∧
      (j.push byte).sequence_limit_ = j.sequence_limit_ := by
  have size := holds.size
  obtain ⟨bytes, length, begins, acknowledged, delivered, bounded, limit, capacity, journalLimit⟩ :=
    holds
  have max := kMaximumOffset_toNat
  have stop : (j.end_ + 1).toNat = j.end_.toNat + 1 := by
    rw [UInt64.toNat_add]
    simp only [toNat_one]
    omega
  have start : (j.begin_ + 1).toNat = j.begin_.toNat + 1 := by
    rw [UInt64.toNat_add]
    simp only [toNat_one]
    omega
  unfold push
  dsimp only
  split
  · rename_i none_
    refine ⟨⟨?_, ?_, ?_, acknowledged, ?_, ?_, limit, capacity, journalLimit⟩, rfl, rfl⟩
    · -- Nothing is kept: the journal's slice is the empty one at the end.
      have empty : j.bytes_ = [] := eq_nil_of_length_eq_zero (by omega)
      simp only [empty, start]
      rw [drop_of_length_le (by simp; omega)]
    · simp [stop, length]
    · simp only [start, stop]
      omega
    · simp only [stop]
      omega
    · simp only [stop]
      omega
  · split
    · rename_i some_ full
      refine ⟨⟨?_, ?_, ?_, acknowledged, ?_, ?_, limit, ?_, journalLimit⟩, rfl, rfl⟩
      · simp only [drop, start]
        rw [drop_append_of_le_length (by omega), bytes, tail_drop]
      · simp [drop, stop, length]
      · simp only [drop, start, stop]
        omega
      · simp only [drop, stop]
        omega
      · simp only [drop, stop]
        omega
      · simp only [drop, length_append, length_tail, length_singleton]
        omega
    · rename_i some_ room_
      refine ⟨⟨?_, ?_, ?_, acknowledged, ?_, ?_, limit, ?_, journalLimit⟩, rfl, rfl⟩
      · dsimp only
        rw [drop_append_of_le_length (by omega), bytes]
      · simp [stop, length]
      · simp only [stop]
        omega
      · simp only [stop]
        omega
      · simp only [stop]
        omega
      · simp only [length_append, length_singleton]
        omega

theorem pushes_hold {bytes : ByteString} (holds : j.Holds output)
    (room : j.end_.toNat + bytes.length ≤ j.sequence_limit_.toNat) :
    (bytes.foldl push j).Holds (output ++ bytes) := by
  induction bytes generalizing j output with
  | nil => simpa using holds
  | cons byte rest ih =>
    rw [length_cons] at room
    obtain ⟨pushed, stop, limit⟩ := push_holds byte holds (by omega)
    have next : (j.push byte).end_.toNat = j.end_.toNat + 1 := by
      rw [pushed.length, length_append, ← holds.length, length_singleton]
    have whole := ih pushed (by rw [next, limit]; omega)
    rwa [append_assoc] at whole

/-- An append adds all of its bytes to the output or none of them. -/
theorem append_holds (bytes : ByteString) (holds : j.Holds output) :
    (j.append bytes).2.Holds (if (j.append bytes).1 then output ++ bytes else output) := by
  unfold append
  split
  · exact holds
  rename_i room
  have left : (j.sequence_limit_ - j.end_).toNat = j.sequence_limit_.toNat - j.end_.toNat :=
    UInt64.toNat_sub_of_le _ _ (le_iff_toNat_le.mpr holds.bounded)
  have bounded := holds.bounded
  exact pushes_hold holds (by omega)

theorem delivered_holds {next : UInt64} (holds : j.Holds output) :
    (j.delivered next).2.Holds output := by
  have order := holds.acknowledged
  have before := holds.delivered
  unfold OutputJournal.delivered
  split
  · exact holds
  rename_i within
  rw [lt_iff_toNat_lt] at within
  refine { holds with acknowledged := ?_, delivered := ?_ }
  · rw [maxOf_toNat]
    dsimp only
    omega
  · rw [maxOf_toNat]
    dsimp only
    omega

/-- Letting go of acknowledged bytes. A turn of the loop finds a byte to take. -/
theorem release_holds {next : UInt64} {turns : Nat} (holds : j.Holds output)
    (within : next.toNat ≤ j.end_.toNat) : (release next turns j).Holds output := by
  induction turns generalizing j with
  | zero => exact holds
  | succ turns ih =>
    unfold release
    split
    · rename_i before
      rw [lt_iff_toNat_lt] at before
      have max := kMaximumOffset_toNat
      have limit := holds.limit
      have bounded := holds.bounded
      have start : (j.begin_ + 1).toNat = j.begin_.toNat + 1 := by
        rw [UInt64.toNat_add]
        simp only [toNat_one]
        omega
      refine ih { holds with bytes := ?_, begins := ?_, capacity := ?_ } within
      · simp only [start, holds.bytes, tail_drop]
      · simp only [start]
        omega
      · have fits := holds.capacity
        simp only [length_tail]
        omega
    · exact holds

theorem acknowledge_holds {next : UInt64} (holds : j.Holds output) :
    (j.acknowledge next).2.Holds output := by
  unfold acknowledge
  split
  · exact holds
  rename_i delivered_
  rw [lt_iff_toNat_lt] at delivered_
  split
  · exact holds
  have within := holds.delivered
  refine release_holds { holds with acknowledged := ?_ } ?_
  · dsimp only
    omega
  · dsimp only
    omega

/-- A valid read gives the bytes of the output from the offset it names, which is
the one asked for unless that one is lost. -/
theorem read_eq {offset : UInt64} {maximum : Nat} (holds : j.Holds output) :
    j.read offset maximum =
      if j.end_ < offset ∨ maximum = 0 ∨ kFramePayloadLimit < maximum then {}
      else
        { valid := true, gap := offset < j.begin_, offset := maxOf offset j.begin_
          bytes := (output.drop (maxOf offset j.begin_).toNat).take maximum } := by
  unfold read
  split
  · rfl
  rename_i accepted
  have inside : offset.toNat ≤ j.end_.toNat := by
    simp only [not_or, UInt64.not_lt, le_iff_toNat_le] at accepted
    exact accepted.1
  have begins := holds.begins
  have start := maxOf_toNat offset j.begin_
  have after : (maxOf offset j.begin_ - j.begin_).toNat =
      (maxOf offset j.begin_).toNat - j.begin_.toNat :=
    UInt64.toNat_sub_of_le _ _ (le_iff_toNat_le.mpr (by omega))
  have left : (j.end_ - maxOf offset j.begin_).toNat =
      j.end_.toNat - (maxOf offset j.begin_).toNat :=
    UInt64.toNat_sub_of_le _ _ (le_iff_toNat_le.mpr (by omega))
  dsimp only
  rw [after, left, holds.bytes, drop_drop, holds.length, ← length_drop,
    Nat.add_sub_cancel' (by omega)]
  simp only [Read.mk.injEq, true_and]
  rw [← take_take, take_length]

theorem read_slice {offset : UInt64} {maximum : Nat} (holds : j.Holds output)
    (valid : (j.read offset maximum).valid = true) :
    (j.read offset maximum).offset.toNat + (j.read offset maximum).bytes.length ≤ output.length ∧
      (j.read offset maximum).bytes = (output.drop (j.read offset maximum).offset.toNat).take
        (j.read offset maximum).bytes.length := by
  rw [read_eq holds] at valid ⊢
  split at valid
  · cases valid
  rename_i accepted
  simp only [not_or, UInt64.not_lt, le_iff_toNat_le] at accepted
  have start := maxOf_toNat offset j.begin_
  have begins := holds.begins
  have length := holds.length
  rw [if_neg (by simpa only [not_or, UInt64.not_lt, le_iff_toNat_le] using accepted)]
  dsimp only
  constructor
  · rw [length_take, length_drop]
    omega
  · rw [length_take, ← take_take, take_length]

end OutputJournal

end Andrix.Terminal
