import Mathlib.Algebra.Ring.Nat
import Andrix.Lib.Checked

/-! Byte strings that values are written to and read back from. A reader
consumes bytes from the front of its input. `Reads` says that it accepts exactly
the bytes a writer makes of an admissible value and leaves the rest, in one
equivalence: read from right to left it is the round trip, from left to right
that no other bytes denote the value. The rules below build it up from single
fields to whole records. -/
namespace Andrix.Lib
open List

abbrev ByteString := List UInt8

/-- A reader returns a value and the bytes it left. -/
abbrev Reader (ε α : Type) := StateT ByteString (Except ε) α

variable {ε α β γ : Type}

/-- The reader accepts exactly the bytes written for an admissible value. -/
def Reads (r : Reader ε α) (write : α → ByteString) (ok : α → Prop) : Prop :=
  ∀ input v rest, r.run input = .ok (v, rest) ↔ ok v ∧ input = write v ++ rest

/-- The same for the rest of a record, when the fields read so far are known. -/
def ReadsRest (known : α → Prop) (r : Reader ε α) (write : α → ByteString) (ok : α → Prop) : Prop :=
  ∀ input v rest, r.run input = .ok (v, rest) ↔ known v ∧ ok v ∧ input = write v ++ rest

variable {r : Reader ε α}

theorem run_bind_eq_ok {f : α → Reader ε β} {input : ByteString}
    {v : β × ByteString} :
    (r >>= f).run input = .ok v ↔ ∃ a mid, r.run input = .ok (a, mid) ∧ (f a).run mid = .ok v := by
  rw [StateT.run_bind, bind_eq_ok]
  exact Prod.exists

theorem run_lift_eq_ok {x : Except ε α} {input rest : ByteString} {a : α} :
    (StateT.lift x : Reader ε α).run input = .ok (a, rest) ↔ x = .ok a ∧ input = rest := by
  cases x <;> simp [StateT.run_lift]

/-! ## Rules -/

variable {write : α → ByteString} {ok : α → Prop}

/-- A read value is turned into another by a function that may refuse. -/
theorem Reads.decode {f : α → Except ε β}
    {g : β → α} {ok' : β → Prop} (reads : Reads r write ok)
    (law : ∀ a b, ok a ∧ f a = .ok b ↔ ok' b ∧ a = g b) :
    Reads (do let a ← r; StateT.lift (f a)) (fun b => write (g b)) ok' := by
  intro input v rest
  simp only [run_bind_eq_ok, run_lift_eq_ok, reads _ _ _]
  constructor
  · rintro ⟨a, mid, ⟨fine, rfl⟩, made, rfl⟩
    obtain ⟨fine', rfl⟩ := (law a v).mp ⟨fine, made⟩
    exact ⟨fine', rfl⟩
  · rintro ⟨fine', rfl⟩
    obtain ⟨fine, made⟩ := (law (g v) v).mpr ⟨fine', rfl⟩
    exact ⟨g v, rest, ⟨fine, rfl⟩, made, rfl⟩

theorem Reads.map {f : α → β} {g : β → α}
    {ok' : β → Prop} (reads : Reads r write ok) (law : ∀ a b, ok a ∧ f a = b ↔ ok' b ∧ a = g b) :
    Reads (do let a ← r; pure (f a)) (fun b => write (g b)) ok' :=
  reads.decode (f := fun a => .ok (f a)) (by simpa using law)

theorem Reads.of_iff {ok ok' : α → Prop}
    (reads : Reads r write ok) (iff : ∀ v, ok v ↔ ok' v) : Reads r write ok' := by
  intro input v rest
  rw [reads input v rest, iff]

/-- One more field of a record, named by its projection. -/
theorem ReadsRest.field
    {next : α → Reader ε β} {known : β → Prop} {writeRest : β → ByteString} {okRest : β → Prop}
    (reads : Reads r write ok) (proj : β → α)
    (rest : ∀ a, ok a → ReadsRest (fun v => known v ∧ proj v = a) (next a) writeRest okRest) :
    ReadsRest known (r >>= next) (fun v => write (proj v) ++ writeRest v)
      (fun v => ok (proj v) ∧ okRest v) := by
  intro input v left
  simp only [run_bind_eq_ok, reads _ _ _, append_assoc]
  constructor
  · rintro ⟨a, mid, ⟨fine, rfl⟩, ran⟩
    obtain ⟨⟨known_, rfl⟩, fineRest, rfl⟩ := (rest a fine _ _ _).mp ran
    exact ⟨known_, ⟨fine, fineRest⟩, rfl⟩
  · rintro ⟨known_, ⟨fine, fineRest⟩, rfl⟩
    exact ⟨proj v, writeRest v ++ left, ⟨fine, rfl⟩,
      (rest _ fine _ _ _).mpr ⟨⟨known_, rfl⟩, fineRest, rfl⟩⟩

/-- The end of a record: what was read determines it. -/
theorem ReadsRest.made {known : α → Prop} {x : Except ε α} (ok : α → Prop)
    (determined : ∀ v, known v ∧ ok v ↔ x = .ok v) :
    ReadsRest known (StateT.lift x : Reader ε α) (fun _ => []) ok := by
  intro input v rest
  rw [run_lift_eq_ok, ← determined v]
  simp [and_assoc]

theorem ReadsRest.done {known : α → Prop} {a : α} (ok : α → Prop)
    (determined : ∀ v, known v ∧ ok v ↔ v = a) :
    ReadsRest known (pure a : Reader ε α) (fun _ => []) ok :=
  .made (x := .ok a) ok (by simpa [eq_comm] using determined)

theorem ReadsRest.of_known {known known' ok : α → Prop}
    (rest : ReadsRest known r write ok) (iff : ∀ v, known' v ↔ known v) :
    ReadsRest known' r write ok := by
  intro input v left
  rw [rest input v left, iff]

/-- What is known may be used to say what is written and what is admissible. -/
theorem ReadsRest.congr {known ok ok' : α → Prop} {write write' : α → ByteString}
    (rest : ReadsRest known r write ok) (iff : ∀ v, known v → (ok v ↔ ok' v))
    (same : ∀ v, known v → ok v → write v = write' v) : ReadsRest known r write' ok' := by
  intro input v left
  rw [rest input v left]
  constructor
  · rintro ⟨known_, fine, rfl⟩
    exact ⟨known_, (iff v known_).mp fine, by rw [same v known_ fine]⟩
  · rintro ⟨known_, fine, rfl⟩
    have fine' := (iff v known_).mpr fine
    exact ⟨known_, fine', by rw [same v known_ fine']⟩

/-- A reader of whole records whose admissible values include the valid ones. -/
def ReadsValid (r : Reader ε α) (write : α → ByteString) (valid : α → Prop) : Prop :=
  ∃ ok, Reads r write ok ∧ ∀ v, valid v → ok v

theorem ReadsRest.whole {write write' : α → ByteString} {ok valid : α → Prop}
    (rest : ReadsRest (fun _ => True) r write ok) (same : ∀ v, write v = write' v)
    (covers : ∀ v, valid v → ok v) : ReadsValid r write' valid := by
  refine ⟨ok, ?_, covers⟩
  intro input v left
  rw [rest input v left, true_and, same]

/-- When every value is valid, every value is admissible. -/
theorem ReadsValid.all
    (reads : ReadsValid r write (fun _ => True)) : Reads r write (fun _ => True) := by
  obtain ⟨ok, reads, covers⟩ := reads
  exact reads.of_iff fun v => iff_of_true (covers v trivial) trivial

/-! ## Numbers -/

/-- The low `n` bytes of a number, the lowest first. -/
def fixed : Nat → Nat → ByteString
  | 0, _ => []
  | n + 1, k => UInt8.ofNat k :: fixed n (k / 256)

/-- The number that bytes hold, the lowest first. -/
def word : ByteString → Nat
  | [] => 0
  | b :: rest => b.toNat + 256 * word rest

@[simp] theorem length_fixed (n k : Nat) : (fixed n k).length = n := by
  induction n generalizing k with
  | zero => rfl
  | succ n ih => simp [fixed, ih]

theorem fixed_succ (n k : Nat) : fixed (n + 1) k = fixed n k ++ [UInt8.ofNat (k / 256 ^ n)] := by
  induction n generalizing k with
  | zero => simp [fixed]
  | succ n ih =>
    rw [fixed, ih, fixed, cons_append, Nat.div_div_eq_div_mul, Nat.pow_succ']

theorem word_lt (bs : ByteString) : word bs < 256 ^ bs.length := by
  induction bs with
  | nil => simp [word]
  | cons b rest ih =>
    have byte := b.toNat_lt
    simp only [word, length_cons, Nat.pow_succ]
    omega

theorem fixed_word (bs : ByteString) : fixed bs.length (word bs) = bs := by
  induction bs with
  | nil => rfl
  | cons b rest ih =>
    have byte := b.toNat_lt
    have low : UInt8.ofNat (b.toNat + 256 * word rest) = b := by
      apply UInt8.toNat_inj.mp
      rw [UInt8.toNat_ofNat']
      omega
    have high : (b.toNat + 256 * word rest) / 256 = word rest := by omega
    rw [length_cons, word, fixed, low, high, ih]

theorem word_fixed {n k : Nat} (small : k < 256 ^ n) : word (fixed n k) = k := by
  induction n generalizing k with
  | zero =>
    simp only [Nat.pow_zero] at small
    simp only [fixed, word]
    omega
  | succ n ih =>
    have rest : word (fixed n (k / 256)) = k / 256 := by
      refine ih ?_
      rw [Nat.pow_succ] at small
      omega
    rw [fixed, word, rest, UInt8.toNat_ofNat']
    omega

def take (short : ε) (n : Nat) : Reader ε ByteString := fun input =>
  if input.length < n then .error short else .ok (input.take n, input.drop n)

variable {short : ε} {n : Nat}

theorem reads_take : Reads (take short n) id (fun bs => bs.length = n) := by
  intro input v rest
  simp only [StateT.run, take, id]
  constructor
  · intro ran
    split at ran
    · cases ran
    · cases ran
      rename_i enough
      exact ⟨by simp only [length_take]; omega, (take_append_drop n input).symm⟩
  · rintro ⟨rfl, rfl⟩
    simp

def number (short : ε) (n : Nat) : Reader ε Nat := do
  let bs ← take short n
  pure (word bs)

theorem reads_number :
    Reads (number short n) (fixed n) (fun k => k < 256 ^ n) := by
  refine reads_take.map (g := fixed n) fun bs k => ?_
  constructor
  · rintro ⟨rfl, rfl⟩
    exact ⟨word_lt bs, (fixed_word bs).symm⟩
  · rintro ⟨small, rfl⟩
    exact ⟨length_fixed n k, word_fixed small⟩

/-! Two's complement integers. -/

def int32 (v : Int32) : ByteString := fixed 4 v.toUInt32.toNat

def int64 (v : Int64) : ByteString := fixed 8 v.toUInt64.toNat

/-- The signed number in four bytes. -/
def toInt32 (bs : ByteString) : Int32 := (UInt32.ofNat (word bs)).toInt32

def toInt64 (bs : ByteString) : Int64 := (UInt64.ofNat (word bs)).toInt64

theorem toInt32_eq {bs : ByteString} {v : Int32} (length : bs.length = 4) :
    toInt32 bs = v ↔ bs = int32 v := by
  have small : word bs < 2 ^ 32 := by simpa [length] using word_lt bs
  constructor
  · rintro rfl
    have back : (toInt32 bs).toUInt32 = UInt32.ofNat (word bs) := rfl
    rw [int32, back, UInt32.toNat_ofNat_of_lt' small, ← length, fixed_word]
  · rintro rfl
    rw [int32, toInt32, word_fixed (by simpa using v.toUInt32.toNat_lt), UInt32.ofNat_toNat]
    rfl

theorem toInt64_eq {bs : ByteString} {v : Int64} (length : bs.length = 8) :
    toInt64 bs = v ↔ bs = int64 v := by
  have small : word bs < 2 ^ 64 := by simpa [length] using word_lt bs
  constructor
  · rintro rfl
    have back : (toInt64 bs).toUInt64 = UInt64.ofNat (word bs) := rfl
    rw [int64, back, UInt64.toNat_ofNat_of_lt' small, ← length, fixed_word]
  · rintro rfl
    rw [int64, toInt64, word_fixed (by simpa using v.toUInt64.toNat_lt), UInt64.ofNat_toNat]
    rfl

def readInt32 (short : ε) : Reader ε Int32 := do
  let bs ← take short 4
  pure (toInt32 bs)

def readInt64 (short : ε) : Reader ε Int64 := do
  let bs ← take short 8
  pure (toInt64 bs)

theorem reads_int32 : Reads (readInt32 short) int32 (fun _ => True) := by
  refine reads_take.map (g := int32) fun bs v => ?_
  constructor
  · rintro ⟨length, same⟩
    exact ⟨trivial, (toInt32_eq length).mp same⟩
  · rintro ⟨_, rfl⟩
    have length : (int32 v).length = 4 := length_fixed 4 _
    exact ⟨length, (toInt32_eq length).mpr rfl⟩

theorem reads_int64 : Reads (readInt64 short) int64 (fun _ => True) := by
  refine reads_take.map (g := int64) fun bs v => ?_
  constructor
  · rintro ⟨length, same⟩
    exact ⟨trivial, (toInt64_eq length).mp same⟩
  · rintro ⟨_, rfl⟩
    have length : (int64 v).length = 8 := length_fixed 8 _
    exact ⟨length, (toInt64_eq length).mpr rfl⟩

/-! ## Hex digits -/

def hexDigits : List Char := "0123456789abcdef".toList

/-- The value of a hex digit in either case, and all ones for any other
character. -/
def digit (c : Char) : Nat :=
  if '0' ≤ c ∧ c ≤ '9' then c.toNat - '0'.toNat
  else if 'a' ≤ c ∧ c ≤ 'f' then c.toNat - 'a'.toNat + 10
  else if 'A' ≤ c ∧ c ≤ 'F' then c.toNat - 'A'.toNat + 10
  else 0xffffffff

def hexPair (b : UInt8) : List Char :=
  [hexDigits.getD (b.toNat >>> 4) '0', hexDigits.getD (b.toNat &&& 0xf) '0']

/-- The bytes of a text of digit pairs. -/
def unhex : List Char → ByteString
  | a :: b :: rest => UInt8.ofNat ((digit a <<< 4) ||| digit b) :: unhex rest
  | _ => []

def readHex (short : ε) (n : Nat) : Reader ε (List Char) := do
  let bs ← take short n
  pure (bs.flatMap hexPair)

theorem length_unhex (t : List Char) : (unhex t).length = t.length / 2 := by
  fun_induction unhex t with
  | case1 a b rest ih =>
    simp only [length_cons, ih]
    omega
  | case2 t short =>
    match t, short with
    | [], _ => rfl
    | [_], _ => simp
    | a :: b :: rest, short => exact absurd rfl (short a b rest)

theorem unhex_hexPair (bs : ByteString) : unhex (bs.flatMap hexPair) = bs := by
  have byte : ∀ n < 256, UInt8.ofNat ((digit (hexDigits.getD (n >>> 4) '0') <<< 4) |||
      digit (hexDigits.getD (n &&& 0xf) '0')) = UInt8.ofNat n := by decide +kernel
  induction bs with
  | nil => rfl
  | cons b rest ih =>
    simp only [flatMap_cons, hexPair, cons_append, nil_append, unhex, ih,
      byte b.toNat b.toNat_lt, UInt8.ofNat_toNat]

theorem hexPair_unhex {t : List Char} (length : t.length = 2 * n)
    (digits : ∀ c ∈ t, c ∈ hexDigits) : (unhex t).flatMap hexPair = t ∧ (unhex t).length = n := by
  have nibbles : ∀ i < 16, ∀ j < 16, (UInt8.ofNat ((i <<< 4) ||| j)).toNat >>> 4 = i ∧
      (UInt8.ofNat ((i <<< 4) ||| j)).toNat &&& 0xf = j := by decide +kernel
  have table : hexDigits.all (fun a => digit a < 16 && hexDigits.getD (digit a) '0' == a) = true := by
    decide +kernel
  have digit_ (a : Char) (inside : a ∈ hexDigits) :
      digit a < 16 ∧ hexDigits.getD (digit a) '0' = a := by
    simpa only [Bool.and_eq_true, decide_eq_true_eq, beq_iff_eq] using
      all_eq_true.mp table a inside
  have pair : ∀ a ∈ hexDigits, ∀ b ∈ hexDigits,
      hexPair (UInt8.ofNat ((digit a <<< 4) ||| digit b)) = [a, b] := by
    intro a inA b inB
    obtain ⟨smallA, backA⟩ := digit_ a inA
    obtain ⟨smallB, backB⟩ := digit_ b inB
    obtain ⟨high, low⟩ := nibbles _ smallA _ smallB
    rw [hexPair, high, low, backA, backB]
  induction n generalizing t with
  | zero =>
    obtain rfl := length_eq_zero_iff.mp length
    simp [unhex]
  | succ n ih =>
    match t with
    | [] => simp at length
    | [_] => simp only [length_singleton] at length; omega
    | a :: b :: rest =>
      simp only [mem_cons, forall_eq_or_imp] at digits
      simp only [length_cons] at length
      obtain ⟨same, size⟩ := ih (t := rest) (by omega) digits.2.2
      rw [unhex, flatMap_cons, pair a digits.1 b digits.2.1, same, length_cons, size]
      exact ⟨rfl, rfl⟩

theorem hexPair_digits (bs : ByteString) : ∀ c ∈ bs.flatMap hexPair, c ∈ hexDigits := by
  have byte : ∀ n < 256, hexDigits.getD (n >>> 4) '0' ∈ hexDigits ∧
      hexDigits.getD (n &&& 0xf) '0' ∈ hexDigits := by decide +kernel
  intro c member
  obtain ⟨b, _, digit_⟩ := mem_flatMap.mp member
  have both := byte b.toNat b.toNat_lt
  rcases mem_cons.mp digit_ with rfl | last
  · exact both.1
  · rw [mem_singleton.mp last]
    exact both.2

theorem reads_hex :
    Reads (readHex short n) unhex (fun t => t.length = 2 * n ∧ ∀ c ∈ t, c ∈ hexDigits) := by
  refine reads_take.map (g := unhex) fun bs t => ?_
  constructor
  · rintro ⟨rfl, rfl⟩
    refine ⟨⟨?_, hexPair_digits bs⟩, (unhex_hexPair bs).symm⟩
    simp [hexPair, length_flatMap, map_const', Nat.mul_comm]
  · rintro ⟨⟨length, digits⟩, rfl⟩
    obtain ⟨same, size⟩ := hexPair_unhex length digits
    exact ⟨size, same⟩

/-! ## Lists -/

/-- So many values, one after another. -/
def many (r : Reader ε α) : Nat → Reader ε (List α)
  | 0 => pure []
  | n + 1 => do
    let x ← r
    let xs ← many r n
    pure (x :: xs)

theorem reads_many
    (reads : Reads r write ok)
    (n : Nat) : Reads (many r n) (fun l => l.flatMap write)
      (fun l => l.length = n ∧ ∀ x ∈ l, ok x) := by
  induction n with
  | zero =>
    intro input v rest
    simp only [many, StateT.run_pure, pure_eq_ok, Prod.mk.injEq, length_eq_zero_iff]
    constructor
    · rintro ⟨rfl, rfl⟩
      simp
    · rintro ⟨⟨rfl, _⟩, rfl⟩
      simp
  | succ n ih =>
    intro input v rest
    simp only [many, run_bind_eq_ok, reads _ _ _, ih _ _ _, StateT.run_pure, pure_eq_ok,
      Prod.mk.injEq]
    constructor
    · rintro ⟨x, mid, ⟨fine, rfl⟩, xs, mid', ⟨⟨rfl, fines⟩, rfl⟩, rfl, rfl⟩
      exact ⟨⟨rfl, by simpa using ⟨fine, fines⟩⟩, by simp⟩
    rintro ⟨⟨length, fines⟩, rfl⟩
    cases v with
    | nil => simp at length
    | cons x xs =>
      simp only [mem_cons, forall_eq_or_imp] at fines
      exact ⟨x, _, ⟨fines.1, by simp⟩, xs, rest, ⟨⟨by simpa using length, fines.2⟩, rfl⟩, rfl, rfl⟩

/-- A counted list as one more field of a record. -/
theorem ReadsRest.list {count : Reader ε Nat} {writeCount : Nat → ByteString} {okCount : Nat → Prop}
    {next : List α → Reader ε β}
    {known : β → Prop} {writeRest : β → ByteString} {okRest : β → Prop}
    (counts : Reads count writeCount okCount) (reads : Reads r write ok) (proj : β → List α)
    (rest : ∀ l, ReadsRest (fun v => known v ∧ proj v = l) (next l) writeRest okRest) :
    ReadsRest known (do let n ← count; let l ← many r n; next l)
      (fun v => (writeCount (proj v).length ++ (proj v).flatMap write) ++ writeRest v)
      (fun v => (okCount (proj v).length ∧ ∀ x ∈ proj v, ok x) ∧ okRest v) := by
  intro input v left
  simp only [run_bind_eq_ok, counts _ _ _, reads_many reads _ _ _ _, rest _ _ _ _, append_assoc]
  constructor
  · rintro ⟨n, _, ⟨fine, rfl⟩, l, _, ⟨⟨rfl, fines⟩, rfl⟩, ⟨known_, rfl⟩, fineRest, rfl⟩
    exact ⟨known_, ⟨⟨fine, fines⟩, fineRest⟩, rfl⟩
  · rintro ⟨known_, ⟨⟨fine, fines⟩, fineRest⟩, rfl⟩
    exact ⟨_, _, ⟨fine, rfl⟩, proj v, _, ⟨⟨rfl, fines⟩, rfl⟩, ⟨known_, rfl⟩, fineRest, rfl⟩

end Andrix.Lib
