import Andrix.Terminal.OutputProtocol
import Andrix.Lib.Steps

/-! From the native session to the parser. The producer reads the journal and
writes frames; connections carry any of them in any order, more than once, and
end anywhere; the console attaches again and again. What the parser is given of a
session is still the beginning of that session's output, each byte once, and a
session with a gap or a failed parser gets nothing more. -/
namespace Andrix.Terminal
open Andrix.Lib List UInt64 Int64

inductive Reply where
  | attached (session : Int64) (state : AttachmentState)
  | accepted (session : Int64) (answer : Except Failure Int64)

/-- The native coordinator and the console. Beside what the two sides hold, the
whole output of each session, every frame ever made, what the parser was given
and what the console was told are kept. -/
structure Delivery where
  session : UInt64
  journal : OutputJournal
  outputs : UInt64 → ByteString := fun _ => []
  wires : List ByteString := []
  cursor : Cursor := {}
  /-- The sessions the console has left for another one. -/
  left : List Int64 := []
  handed : List (Int64 × ByteString) := []
  replies : List Reply := []

inductive Event where
  | append (bytes : ByteString)
  | delivered (nextOffset : UInt64)
  | acknowledge (nextOffset : UInt64)
  /-- The producer reads the journal and makes a frame of what it got. -/
  | send (offset : UInt64) (maximum : Nat)
  /-- A fresh presentation under the next session ID. -/
  | present
  | attach (session firstOffset : Int64)
  /-- A connection with some of the frames made so far, ending after so many
  bytes, its bulk reads and the parser's exceptions. -/
  | receive (sent : List Nat) (cut : Nat) (counts : List Nat) (throws : List (Option Failure))

namespace Delivery

/-- A coordinator starts under a positive Java `long` drawn at random. -/
def start (capacity : Nat) (sequenceLimit seed : UInt64) : Delivery where
  session := (seed &&& 0x3fffffffffffffff) + 1
  journal := .create capacity sequenceLimit

def acceptFrame (w : Delivery) (frame : Frame) (throws : Option Failure) : Delivery :=
  let accepted := w.cursor.accept frame throws
  { w with
    cursor := accepted.cursor
    handed := w.handed ++ (accepted.handed.map (frame.session, ·)).toList
    replies := w.replies ++ [.accepted frame.session accepted.answer] }

def acceptFrames (w : Delivery) : List Frame → List (Option Failure) → Delivery
  | [], _ => w
  | frame :: rest, throws => acceptFrames (w.acceptFrame frame throws.head?.join) rest throws.tail

/-- The outer adapter rejects attachments of stale generations: it never goes
back to a session it has left. -/
def attach (w : Delivery) (session firstOffset : Int64) : Delivery :=
  if session ∈ w.left then w
  else match w.cursor.attach session firstOffset with
    | .error _ => w
    | .ok (state, cursor) =>
      { w with
        cursor
        left := if session = w.cursor.session then w.left else w.cursor.session :: w.left
        replies := w.replies ++ [.attached session state] }

/-- The bytes a connection carries. -/
def stream (w : Delivery) (sent : List Nat) (cut : Nat) : ByteString :=
  ((sent.filterMap (w.wires[·]?)).flatMap id).take cut

def step (w : Delivery) : Event → Delivery
  | .append bytes =>
    let (added, journal) := w.journal.append bytes
    { w with
      journal
      outputs := if added then Function.update w.outputs w.session (w.outputs w.session ++ bytes)
        else w.outputs }
  | .delivered nextOffset => { w with journal := (w.journal.delivered nextOffset).2 }
  | .acknowledge nextOffset => { w with journal := (w.journal.acknowledge nextOffset).2 }
  | .send offset maximum =>
    let read := w.journal.read offset maximum
    let wire := encodeFrame w.session read.offset read.bytes
    if read.valid ∧ wire ≠ [] then { w with wires := w.wires ++ [wire] } else w
  | .present =>
    if w.session = kMaximumOffset then w
    else { w with session := w.session + 1, journal := w.journal.clearForNewPresentation }
  | .attach session firstOffset => w.attach session firstOffset
  | .receive sent cut counts throws =>
    let stream := w.stream sent cut
    w.acceptFrames (readFrames (stream.length + 1) ⟨stream, counts⟩) throws

def run (w : Delivery) (events : List Event) : Delivery := events.foldl step w

/-- What the parser was given of a session. -/
def handedOf (w : Delivery) (session : Int64) : ByteString :=
  (w.handed.filter (·.1 = session)).flatMap (·.2)

/-! ## The invariant -/

def Carries (outputs : UInt64 → ByteString) (f : Frame) : Prop :=
  f.offset.toInt.toNat + f.payload.length ≤ (outputs f.session.toUInt64).length ∧
    f.payload = ((outputs f.session.toUInt64).drop f.offset.toInt.toNat).take f.payload.length

structure Kept (w : Delivery) : Prop where
  holds : w.journal.Holds (w.outputs w.session)
  bounded : w.session.toNat ≤ kMaximumOffset.toNat
  later : ∀ session, w.session < session → w.outputs session = []
  wires : ∀ wire ∈ w.wires, ∃ f : Frame, wire = f.encoded ∧ Carries w.outputs f
  parsed : ∀ session, w.handedOf session <+: w.outputs session.toUInt64
  next : 0 ≤ w.cursor.next.toInt
  /-- While the parser works, it has been given exactly the bytes up to `next`. -/
  reached : w.cursor.failed = false →
    w.cursor.next.toInt.toNat ≤ (w.outputs w.cursor.session.toUInt64).length ∧
      w.handedOf w.cursor.session =
        (w.outputs w.cursor.session.toUInt64).take w.cursor.next.toInt.toNat
  unseen : ∀ session, session ≠ w.cursor.session → session ∉ w.left → w.handedOf session = []

theorem start_kept (capacity : Nat) (sequenceLimit seed : UInt64) :
    (start capacity sequenceLimit seed).Kept where
  holds := OutputJournal.create_holds capacity sequenceLimit
  bounded := by
    have small : (seed &&& 0x3fffffffffffffff).toNat ≤ 0x3fffffffffffffff := by
      rw [UInt64.toNat_and]
      exact Nat.and_le_right
    rw [start, UInt64.toNat_add]
    have max := OutputJournal.kMaximumOffset_toNat
    simp only [toNat_one]
    omega
  later _ _ := rfl
  wires := by simp [start]
  parsed _ := prefix_refl _
  next := le_rfl
  reached _ := ⟨Nat.zero_le _, rfl⟩
  unseen _ _ _ := rfl

theorem handedOf_append (w : Delivery) (more : List (Int64 × ByteString)) (session : Int64) :
    handedOf { w with handed := w.handed ++ more } session =
      w.handedOf session ++ (more.filter (·.1 = session)).flatMap (·.2) := by
  simp [handedOf]

variable {f : Frame}

theorem Carries.mono {outputs longer : UInt64 → ByteString}
    (grown : ∀ session, outputs session <+: longer session) (carries : Carries outputs f) :
    Carries longer f := by
  obtain ⟨more, same⟩ := grown f.session.toUInt64
  obtain ⟨within, payload⟩ := carries
  refine ⟨?_, ?_⟩
  · rw [← same, length_append]
    omega
  rw [← same, drop_append_of_le_length (by omega), take_append_of_le_length]
  · exact payload
  · rw [length_drop]
    omega

/-! ## The native side -/

variable {w : Delivery}

/-- A step of the native side that changes the journal and lets outputs grow. -/
theorem Kept.native (kept : w.Kept) {journal : OutputJournal} {outputs : UInt64 → ByteString}
    {session : UInt64} {wires : List ByteString} (grown : ∀ session, w.outputs session <+: outputs session)
    (holds : journal.Holds (outputs session)) (bounded : session.toNat ≤ kMaximumOffset.toNat)
    (later : ∀ other, session < other → outputs other = [])
    (carried : ∀ wire ∈ wires, ∃ f : Frame, wire = f.encoded ∧ Carries outputs f) :
    Kept { w with session, journal, outputs, wires } where
  holds := holds
  bounded := bounded
  later := later
  wires := carried
  parsed session := (kept.parsed session).trans (grown _)
  next := kept.next
  reached working := by
    obtain ⟨within, exactly⟩ := kept.reached working
    obtain ⟨more, same⟩ := grown w.cursor.session.toUInt64
    refine ⟨?_, ?_⟩
    · dsimp only
      rw [← same, length_append]
      omega
    · dsimp only
      rw [← same, take_append_of_le_length within]
      exact exactly
  unseen := kept.unseen

theorem Kept.journal (kept : w.Kept) {journal : OutputJournal}
    (holds : journal.Holds (w.outputs w.session)) : Kept { w with journal } :=
  kept.native (fun _ => prefix_refl _) holds kept.bounded kept.later kept.wires

theorem append_kept (kept : w.Kept) (bytes : ByteString) :
    (w.step (.append bytes)).Kept := by
  have added := OutputJournal.append_holds bytes kept.holds
  have grown : ∀ session, w.outputs session <+:
      Function.update w.outputs w.session (w.outputs w.session ++ bytes) session := by
    intro session
    by_cases same : session = w.session
    · subst same
      rw [Function.update_self]
      exact prefix_append _ _
    · exact ⟨[], by rw [append_nil, Function.update_of_ne same]⟩
  cases result : (w.journal.append bytes).1 with
  | false =>
    rw [result] at added
    simp only [step, result, Bool.false_eq_true, if_false]
    exact kept.journal added
  | true =>
    rw [result] at added
    simp only [step, result, if_true]
    refine kept.native grown ?_ kept.bounded ?_ ?_
    · rw [Function.update_self]
      exact added
    · intro other after
      rw [Function.update_of_ne]
      · exact kept.later other after
      · rintro rfl
        exact absurd after (UInt64.lt_irrefl _)
    · intro wire among
      obtain ⟨f, same, carries⟩ := kept.wires wire among
      exact ⟨f, same, carries.mono grown⟩

/-- What the producer makes of a read is a frame of the session. -/
theorem encodeFrame_carries {session offset : UInt64} {payload : ByteString} {outputs : UInt64 → ByteString}
    (within : offset.toNat + payload.length ≤ (outputs session).length)
    (slice : payload = ((outputs session).drop offset.toNat).take payload.length)
    (made : encodeFrame session offset payload ≠ []) :
    ∃ f : Frame, encodeFrame session offset payload = f.encoded ∧ Carries outputs f := by
  have max := OutputJournal.kMaximumOffset_toNat
  unfold encodeFrame at made
  split at made
  · exact absurd rfl made
  rename_i limit
  have length : (UInt32.ofNat payload.length).toNat = payload.length := by
    rw [UInt32.toNat_ofNat_of_lt']
    simp only [kFramePayloadLimit, UInt32.size] at limit ⊢
    omega
  have valid : Header.valid ⟨UInt32.ofNat payload.length, session, offset⟩ = true := by
    by_contra invalid
    simp [encodeHeader, invalid] at made
  have small : (UInt32.ofNat payload.length).toUInt64.toNat ≤ kMaximumOffset.toNat := by
    rw [UInt32.toNat_toUInt64, length, max]
    simp only [kFramePayloadLimit] at limit
    omega
  simp only [Header.valid, Bool.and_eq_true, decide_eq_true_eq, UInt32.lt_iff_toNat_lt,
    lt_iff_toNat_lt, le_iff_toNat_le, length, UInt32.toNat_zero, UInt64.toNat_zero,
    UInt64.toNat_sub_of_le _ _ (le_iff_toNat_le.mpr small), UInt32.toNat_toUInt64] at valid
  obtain ⟨⟨⟨⟨nonempty, bounded⟩, positive⟩, sessionFits⟩, fits⟩ := valid
  have cap : kFramePayloadLimit = 4096 := rfl
  have session_ := toInt_toInt64 sessionFits
  have offset_ := toInt_toInt64 (v := offset) (by omega)
  refine ⟨⟨session.toInt64, offset.toInt64, payload, by omega, nonempty, bounded, by omega, ?_⟩,
    rfl, ?_, ?_⟩
  · rw [maxValue_toInt, offset_]
    omega
  · dsimp only
    rw [offset_, toUInt64_toInt64]
    exact within
  · dsimp only
    rw [offset_, toUInt64_toInt64]
    exact slice

theorem send_kept (kept : w.Kept) (offset : UInt64) (maximum : Nat) :
    (w.step (.send offset maximum)).Kept := by
  simp only [step]
  split
  · rename_i sent
    obtain ⟨valid, made⟩ := sent
    refine kept.native (fun _ => prefix_refl _) kept.holds kept.bounded kept.later
      (forall_mem_snoc kept.wires ?_)
    obtain ⟨within, slice⟩ := OutputJournal.read_slice kept.holds valid
    exact encodeFrame_carries within slice made
  · exact kept

theorem present_kept (kept : w.Kept) : (w.step .present).Kept := by
  simp only [step]
  split
  · exact kept
  rename_i room
  have max := OutputJournal.kMaximumOffset_toNat
  have bounded := kept.bounded
  have below : w.session.toNat ≠ kMaximumOffset.toNat := fun same => room (UInt64.toNat_inj.mp same)
  have next : (w.session + 1).toNat = w.session.toNat + 1 := by
    rw [UInt64.toNat_add]
    simp only [toNat_one]
    omega
  have empty : w.outputs (w.session + 1) = [] :=
    kept.later _ (by rw [lt_iff_toNat_lt]; omega)
  refine kept.native (fun _ => prefix_refl _) ?_ (by omega) ?_ kept.wires
  · rw [empty]
    exact OutputJournal.clear_holds kept.holds
  intro other after
  refine kept.later other ?_
  rw [lt_iff_toNat_lt] at after ⊢
  omega

/-! ## The console -/

/-- What an accepted frame hands over is what the parser has not had yet. -/
theorem accept_bytes {output : ByteString} {next : Int64} (nonneg : 0 ≤ next.toInt)
    (within : f.offset.toInt.toNat + f.payload.length ≤ output.length)
    (payload : f.payload = (output.drop f.offset.toInt.toNat).take f.payload.length)
    (after : f.offset.toInt ≤ next.toInt) (before : next.toInt < f.stop.toInt) :
    f.stop.toInt = f.offset.toInt + f.payload.length ∧
      output.take next.toInt.toNat ++
        (f.payload.drop (next - f.offset).toInt.toNat).take
          (f.payload.length - (next - f.offset).toInt.toNat) = output.take f.stop.toInt.toNat := by
  have start := f.start
  have fits := f.fits
  have bounded := f.bounded
  have upper := next.toInt_lt
  have max := OutputJournal.kMaximumOffset_toNat
  rw [maxValue_toInt] at fits
  unfold maxPayload at bounded
  have stop : f.stop.toInt = f.offset.toInt + f.payload.length := by
    have length : (Int64.ofNat f.payload.length).toInt = f.payload.length :=
      toInt_ofNat_of_lt (by omega)
    rw [Frame.stop, toInt_add, length]
    simp only [Int.bmod_def]
    omega
  have skip : (next - f.offset).toInt = next.toInt - f.offset.toInt := by
    rw [toInt_sub]
    simp only [Int.bmod_def]
    omega
  refine ⟨stop, ?_⟩
  obtain ⟨n, next_⟩ : ∃ n : Nat, next.toInt = n := ⟨next.toInt.toNat, by omega⟩
  obtain ⟨o, offset_⟩ : ∃ o : Nat, f.offset.toInt = o := ⟨f.offset.toInt.toNat, by omega⟩
  rw [offset_, Int.toNat_natCast] at payload within
  rw [offset_] at stop skip after
  rw [next_] at skip after before ⊢
  have skipped : (next - f.offset).toInt.toNat = n - o := by omega
  have reached : f.stop.toInt.toNat = n + (f.payload.length - (n - o)) := by omega
  rw [Int.toNat_natCast, skipped, reached, take_add]
  congr 1
  rw [payload]
  simp only [length_take, length_drop, drop_take, drop_drop, take_take]
  congr 1
  · omega
  · congr 1
    omega

/-- A step of the console that hands nothing over. -/
theorem Kept.console (kept : w.Kept) {cursor : Cursor} {replies : List Reply}
    (session : cursor.session = w.cursor.session) (next : cursor.next = w.cursor.next)
    (failed : cursor.failed = false → w.cursor.failed = false) : Kept { w with cursor, replies } where
  holds := kept.holds
  bounded := kept.bounded
  later := kept.later
  wires := kept.wires
  parsed := kept.parsed
  next := by
    dsimp only
    rw [next]
    exact kept.next
  reached working := by
    dsimp only
    rw [session, next]
    exact kept.reached (failed working)
  unseen other ne := kept.unseen other (by rwa [← session])

theorem Kept.hands (kept : w.Kept) {cursor : Cursor} {replies : List Reply}
    {bytes : ByteString} {reached : Nat} (session : cursor.session = w.cursor.session)
    (working : w.cursor.failed = false) (next : 0 ≤ cursor.next.toInt)
    (within : reached ≤ (w.outputs w.cursor.session.toUInt64).length)
    (grown : (w.outputs w.cursor.session.toUInt64).take w.cursor.next.toInt.toNat ++ bytes =
      (w.outputs w.cursor.session.toUInt64).take reached)
    (after : cursor.failed = false → cursor.next.toInt.toNat = reached) :
    Kept { w with cursor, replies, handed := w.handed ++ [(w.cursor.session, bytes)] } := by
  have own : handedOf { w with handed := w.handed ++ [(w.cursor.session, bytes)] } w.cursor.session =
      (w.outputs w.cursor.session.toUInt64).take reached := by
    rw [handedOf_append, (kept.reached working).2]
    simpa using grown
  have others (session : Int64) (other : session ≠ w.cursor.session) :
      handedOf { w with handed := w.handed ++ [(w.cursor.session, bytes)] } session =
        w.handedOf session := by
    rw [handedOf_append]
    simp [Ne.symm other]
  exact {
    holds := kept.holds
    bounded := kept.bounded
    later := kept.later
    wires := kept.wires
    parsed := by
      intro session_
      by_cases same : session_ = w.cursor.session
      · subst same
        exact (congrArg (· <+: _) own).mpr ( take_prefix _ _)
      · exact (congrArg (· <+: _) (others session_ same)).mpr (kept.parsed session_)
    next := next
    reached := by
      intro working_
      dsimp only
      rw [session, after working_]
      exact ⟨within, own⟩
    unseen := by
      intro session_ other unseen_
      dsimp only at other
      rw [session] at other
      exact (others session_ other).trans (kept.unseen session_ other unseen_) }

theorem acceptFrame_kept (kept : w.Kept) (carries : Carries w.outputs f)
    (throws : Option Failure) : (w.acceptFrame f throws).Kept := by
  unfold acceptFrame
  dsimp only
  generalize result : w.cursor.accept f throws = accepted
  have accepts := Cursor.accept_accepts w.cursor f throws
  rw [result] at accepts
  cases accepts with
  | foreign | stuck | opens | repeated =>
    simp only [Option.map_none, Option.toList_none, append_nil]
    exact kept.console rfl rfl id
  | fails same free working joined new =>
    rw [le_iff_toInt_le] at joined
    rw [lt_iff_toInt_lt] at new
    obtain ⟨within, payload⟩ := carries
    rw [same] at within payload
    obtain ⟨stop, bytes⟩ := accept_bytes kept.next within payload joined new
    rw [same]
    have start := f.start
    exact kept.hands rfl working kept.next (by omega) bytes (by simp)
  | parses same free working joined new =>
    rw [le_iff_toInt_le] at joined
    rw [lt_iff_toInt_lt] at new
    obtain ⟨within, payload⟩ := carries
    rw [same] at within payload
    obtain ⟨stop, bytes⟩ := accept_bytes kept.next within payload joined new
    rw [same]
    have start := f.start
    have nonneg : 0 ≤ f.stop.toInt := by omega
    exact kept.hands rfl working nonneg (by omega) bytes fun _ => rfl

theorem acceptFrames_kept (kept : w.Kept) {frames : List Frame}
    (carries : ∀ f ∈ frames, Carries w.outputs f) (throws : List (Option Failure)) :
    (w.acceptFrames frames throws).Kept := by
  induction frames generalizing w throws with
  | nil => exact kept
  | cons f rest ih =>
    exact ih (acceptFrame_kept kept (carries f (by simp)) _) (fun g among =>
      carries g (mem_cons_of_mem _ among)) _

/-- Whatever a connection carries, the frames read from it are frames that were
made. -/
theorem received_carry (kept : w.Kept) (sent : List Nat) (cut turns : Nat)
    (counts : List Nat) :
    ∀ f ∈ readFrames turns ⟨w.stream sent cut, counts⟩, Carries w.outputs f := by
  have made : ∀ wire ∈ sent.filterMap (w.wires[·]?), ∃ f : Frame, f.encoded = wire ∧
      Carries w.outputs f := by
    intro wire among
    obtain ⟨i, _, found⟩ := mem_filterMap.mp among
    obtain ⟨f, same, carries⟩ := kept.wires wire (mem_of_getElem? found)
    exact ⟨f, same.symm, carries⟩
  obtain ⟨frames, same, carry⟩ : ∃ frames : List Frame,
      frames.map Frame.encoded = sent.filterMap (w.wires[·]?) ∧
        ∀ f ∈ frames, Carries w.outputs f := by
    generalize sent.filterMap (w.wires[·]?) = wires at made
    induction wires with
    | nil => exact ⟨[], rfl, by simp⟩
    | cons wire rest ih =>
      obtain ⟨f, same, carries⟩ := made wire (by simp)
      obtain ⟨frames, rest_, carry⟩ := ih fun wire among => made wire (mem_cons_of_mem _ among)
      exact ⟨f :: frames, by simp [same, rest_], by simpa using ⟨carries, carry⟩⟩
  have stream_ : w.stream sent cut = (frames.flatMap Frame.encoded).take cut := by
    rw [stream, ← same, flatMap_map]
    rfl
  obtain ⟨n, read⟩ := readFrames_eq frames cut turns counts
  intro f among
  rw [stream_, read] at among
  exact carry f (mem_of_mem_take among)

theorem attach_kept (kept : w.Kept) (session firstOffset : Int64) :
    (w.attach session firstOffset).Kept := by
  unfold attach
  split
  · exact kept
  rename_i current
  split
  · exact kept
  rename_i state cursor attached
  obtain ⟨session_, same, other⟩ := Cursor.attach_cases attached
  by_cases stays : session = w.cursor.session
  · obtain ⟨next, failed, -, -⟩ := same stays
    rw [if_pos stays]
    exact kept.console (session_.trans stays) next fun working => failed ▸ working
  obtain ⟨next, failed⟩ := other stays
  rw [if_neg stays]
  have empty := kept.unseen session stays current
  exact {
    holds := kept.holds
    bounded := kept.bounded
    later := kept.later
    wires := kept.wires
    parsed := kept.parsed
    next := by simp [next]
    reached := by
      intro _
      dsimp only
      rw [next, session_]
      exact ⟨Nat.zero_le _, empty⟩
    unseen := by
      intro session' ne unseen_
      simp only [mem_cons, not_or] at unseen_
      exact kept.unseen session' unseen_.1 unseen_.2 }

theorem step_kept (kept : w.Kept) (event : Event) : (w.step event).Kept := by
  cases event with
  | append bytes => exact append_kept kept bytes
  | delivered next => exact kept.journal (OutputJournal.delivered_holds kept.holds)
  | acknowledge next => exact kept.journal (OutputJournal.acknowledge_holds kept.holds)
  | send offset maximum => exact send_kept kept offset maximum
  | present => exact present_kept kept
  | attach session firstOffset => exact attach_kept kept session firstOffset
  | receive sent cut counts throws =>
    exact acceptFrames_kept kept (received_carry kept sent cut _ counts) throws

theorem run_kept (kept : w.Kept) (events : List Event) : (w.run events).Kept := by
  induction events generalizing w with
  | nil => exact kept
  | cons event rest ih => exact ih (step_kept kept event)

/-! ## After a gap or a parser failure -/

/-- The session has a gap or a failed parser, or the console has left it. -/
def Stuck (w : Delivery) (session : Int64) : Prop :=
  (w.cursor.session = session ∧ (w.cursor.gap = true ∨ w.cursor.failed = true)) ∨
    (w.cursor.session ≠ session ∧ session ∈ w.left)

/-- A reply that lets the session go on: an attachment that reports no gap, or an
accepted frame with an offset to acknowledge. -/
def Continues (session : Int64) : Reply → Prop
  | .attached session' state => session' = session ∧ state ≠ .gap
  | .accepted session' answer => session' = session ∧ ∃ next, answer = .ok next ∧ next ≠ -1

/-- Nothing more of the session is handed over, and nothing lets it go on. -/
structure Silent (session : Int64) (w after : Delivery) : Prop where
  handed : after.handedOf session = w.handedOf session
  replies : ∃ more, after.replies = w.replies ++ more ∧ ∀ reply ∈ more, ¬ Continues session reply

variable {session : Int64}

theorem Silent.refl : Silent session w w :=
  ⟨rfl, [], by simp, by simp⟩

theorem Silent.trans {x y z : Delivery} (first : Silent session x y)
    (second : Silent session y z) : Silent session x z := by
  obtain ⟨more, replies, quiet⟩ := first.replies
  obtain ⟨more', replies', quiet'⟩ := second.replies
  refine ⟨second.handed.trans first.handed, more ++ more', by rw [replies', replies,
    append_assoc], fun reply among => ?_⟩
  rcases mem_append.mp among with early | late
  · exact quiet reply early
  · exact quiet' reply late

theorem acceptFrame_silent (stuck : w.Stuck session) (f : Frame)
    (throws : Option Failure) :
    Silent session w (w.acceptFrame f throws) ∧ (w.acceptFrame f throws).Stuck session := by
  unfold acceptFrame
  dsimp only
  generalize result : w.cursor.accept f throws = accepted
  have accepts := Cursor.accept_accepts w.cursor f throws
  rw [result] at accepts
  -- Only the cursor's own session without a gap or failure is handed anything.
  have other (same : f.session = w.cursor.session) (free : w.cursor.gap = false)
      (working : w.cursor.failed = false) : f.session ≠ session := by
    rcases stuck with ⟨own, blocked⟩ | ⟨left_, _⟩
    · simp [free, working] at blocked
    · rwa [same]
  cases accepts with
  | foreign | stuck =>
    refine ⟨⟨by simp [handedOf], [_], rfl, by simp [Continues]⟩, ?_⟩
    simpa [Stuck] using stuck
  | opens =>
    refine ⟨⟨by simp [handedOf], [_], rfl, by simp [Continues]⟩, ?_⟩
    rcases stuck with ⟨own, _⟩ | left_
    · exact .inl ⟨own, .inl rfl⟩
    · exact .inr left_
  | repeated same free working =>
    have ne := other same free working
    refine ⟨⟨by simp [handedOf], [_], rfl, by simp [Continues, ne]⟩, ?_⟩
    simpa [Stuck] using stuck
  | fails same free working =>
    have ne := other same free working
    refine ⟨⟨by simp [handedOf, ne], [_], rfl, by simp [Continues]⟩, ?_⟩
    rcases stuck with ⟨own, _⟩ | left_
    · exact .inl ⟨own, .inr rfl⟩
    · exact .inr left_
  | parses same free working =>
    have ne := other same free working
    refine ⟨⟨by simp [handedOf, ne], [_], rfl, by simp [Continues, ne]⟩, ?_⟩
    rcases stuck with ⟨own, blocked⟩ | left_
    · exact .inl ⟨own, blocked⟩
    · exact .inr left_

theorem acceptFrames_silent (stuck : w.Stuck session)
    (frames : List Frame) (throws : List (Option Failure)) :
    Silent session w (w.acceptFrames frames throws) ∧
      (w.acceptFrames frames throws).Stuck session := by
  induction frames generalizing w throws with
  | nil => exact ⟨.refl, stuck⟩
  | cons f rest ih =>
    obtain ⟨first, stuck'⟩ := acceptFrame_silent stuck f throws.head?.join
    obtain ⟨later, stuck''⟩ := ih stuck' throws.tail
    exact ⟨first.trans later, stuck''⟩

theorem attach_silent (stuck : w.Stuck session)
    (newSession firstOffset : Int64) : Silent session w (w.attach newSession firstOffset) ∧
      (w.attach newSession firstOffset).Stuck session := by
  unfold attach
  split
  · exact ⟨.refl, stuck⟩
  rename_i current
  split
  · exact ⟨.refl, stuck⟩
  rename_i state cursor attached
  obtain ⟨session_, same, -⟩ := Cursor.attach_cases attached
  rcases stuck with ⟨own, blocked⟩ | ⟨left_, gone⟩
  · by_cases stays : newSession = w.cursor.session
    · obtain ⟨-, failed, gap, reported⟩ := same stays
      have told := reported blocked
      refine ⟨⟨rfl, [_], rfl, by simp [Continues, told]⟩, .inl ⟨?_, ?_⟩⟩
      · exact session_.trans (stays.trans own)
      · rcases blocked with gap_ | failed_
        · exact .inl (gap gap_)
        · exact .inr (failed.trans failed_)
    · have ne : newSession ≠ session := by rwa [← own]
      refine ⟨⟨rfl, [_], rfl, by simp [Continues, ne]⟩, .inr ⟨?_, ?_⟩⟩
      · dsimp only
        rwa [session_]
      · simp [own, ne]
  · have ne : newSession ≠ session := by
      rintro rfl
      exact current gone
    refine ⟨⟨rfl, [_], rfl, by simp [Continues, ne]⟩, .inr ⟨?_, ?_⟩⟩
    · dsimp only
      rwa [session_]
    dsimp only
    split
    · exact gone
    · exact mem_cons_of_mem _ gone

theorem step_silent (stuck : w.Stuck session) (event : Event) :
    Silent session w (w.step event) ∧ (w.step event).Stuck session := by
  have native {v : Delivery} (cursor : v.cursor = w.cursor) (left_ : v.left = w.left)
      (handed : v.handed = w.handed) (replies : v.replies = w.replies) :
      Silent session w v ∧ v.Stuck session :=
    ⟨⟨by rw [handedOf, handed]; rfl, [], by simp [replies], by simp⟩,
      by rwa [Stuck, cursor, left_]⟩
  cases event with
  | append bytes | delivered next | acknowledge next => exact native rfl rfl rfl rfl
  | send offset maximum | present =>
    simp only [step]
    split <;> exact native rfl rfl rfl rfl
  | attach session' firstOffset => exact attach_silent stuck session' firstOffset
  | receive sent cut counts throws => exact acceptFrames_silent stuck _ throws

theorem run_silent (stuck : w.Stuck session) (events : List Event) :
    Silent session w (w.run events) := by
  induction events generalizing w with
  | nil => exact .refl
  | cons event rest ih =>
    obtain ⟨first, stuck'⟩ := step_silent stuck event
    exact first.trans (ih stuck')

/-! ## Exactly once, in order, or not at all -/

/-- What the journal and the parser hold of the outputs. -/
structure Exact (w : Delivery) : Prop where
  slice : w.journal.bytes_ = ((w.outputs w.session).drop w.journal.begin_.toNat).take
    (w.journal.end_.toNat - w.journal.begin_.toNat)
  whole : w.journal.end_.toNat = (w.outputs w.session).length
  begins : w.journal.begin_ ≤ w.journal.end_
  acknowledged : w.journal.acknowledged_ ≤ w.journal.delivered_
  delivered : w.journal.delivered_ ≤ w.journal.end_
  /-- A read is refused exactly for an offset past the end or a wrong maximum. -/
  refused : ∀ offset maximum, (w.journal.read offset maximum).valid = false ↔
    w.journal.end_ < offset ∨ maximum = 0 ∨ kFramePayloadLimit < maximum
  /-- Any other gives the bytes from the offset on, or from the first one held,
  and says so. -/
  read : ∀ offset maximum, (w.journal.read offset maximum).valid = true →
    ((w.journal.read offset maximum).gap = true ↔ offset < w.journal.begin_) ∧
      (w.journal.read offset maximum).offset = maxOf offset w.journal.begin_ ∧
      (w.journal.read offset maximum).bytes =
        ((w.outputs w.session).drop (maxOf offset w.journal.begin_).toNat).take maximum
  parsed : ∀ session, w.handedOf session <+: w.outputs session.toUInt64

theorem Kept.exact (kept : w.Kept) : w.Exact where
  slice := by
    rw [kept.holds.length, ← length_drop, take_length, kept.holds.bytes]
  whole := kept.holds.length
  begins := le_iff_toNat_le.mpr kept.holds.begins
  acknowledged := le_iff_toNat_le.mpr kept.holds.acknowledged
  delivered := le_iff_toNat_le.mpr kept.holds.delivered
  refused offset maximum := by
    unfold OutputJournal.read
    split <;> simp_all
  read offset maximum valid := by
    rw [OutputJournal.read_eq kept.holds] at valid ⊢
    split at valid
    · cases valid
    · rename_i accepted
      simp [accepted]
  parsed := kept.parsed

/-- **Terminal output reaches the parser exactly once, in order, or not at all.**
The journal holds its slice of the output and reads it back at the offsets asked
for; what the parser was given of a session is the beginning of its output; and
from the moment the session has a gap or a parser failure, nothing more of it is
handed over and no reply lets it go on. -/
theorem output_reaches_the_parser_once (capacity : Nat) (sequenceLimit seed : UInt64)
    (before after : List Event) :
    ((start capacity sequenceLimit seed).run (before ++ after)).Exact ∧
      (((start capacity sequenceLimit seed).run before).cursor.gap = true ∨
          ((start capacity sequenceLimit seed).run before).cursor.failed = true →
        Silent ((start capacity sequenceLimit seed).run before).cursor.session
          ((start capacity sequenceLimit seed).run before)
          ((start capacity sequenceLimit seed).run (before ++ after))) := by
  refine ⟨(run_kept (start_kept capacity sequenceLimit seed) _).exact, fun blocked => ?_⟩
  have split : (start capacity sequenceLimit seed).run (before ++ after) =
      ((start capacity sequenceLimit seed).run before).run after := foldl_append
  rw [split]
  exact run_silent (.inl ⟨rfl, blocked⟩) after

/-- Two overlapping frames, one of them sent twice, then an overflow whose frame
leaves a gap. -/
def overflowRun : List Event := [
  .append [97, 98, 99], .attach 7 0, .send 0 2, .send 1 4096, .receive [0, 1, 0] 100 [3, 0, 1] [],
  .delivered 3, .acknowledge 2, .append [100, 101, 102, 103, 104, 105], .send 3 4096,
  .receive [2] 100 [] []]

/-- The gap's frame again, and the session attached again. -/
def returningRun : List Event := [.receive [2] 100 [] [], .attach 7 5]

theorem overflow_reaches_the_parser_once :
    ((start 4 10 6).run (overflowRun ++ returningRun)).Exact ∧
      ((start 4 10 6).run overflowRun).handedOf 7 = [97, 98, 99] ∧
      Silent 7 ((start 4 10 6).run overflowRun)
        ((start 4 10 6).run (overflowRun ++ returningRun)) := by
  have ran : ((start 4 10 6).run overflowRun).handedOf 7 = [97, 98, 99] ∧
      ((start 4 10 6).run overflowRun).cursor.gap = true ∧
      ((start 4 10 6).run overflowRun).cursor.session = 7 := by
    decide +kernel
  obtain ⟨handed, gap, session⟩ := ran
  obtain ⟨kept, silent⟩ := output_reaches_the_parser_once 4 10 6 overflowRun returningRun
  have quiet := silent (.inl gap)
  rw [session] at quiet
  exact ⟨kept, handed, quiet⟩

end Delivery

end Andrix.Terminal
