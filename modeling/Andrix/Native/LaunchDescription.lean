import Andrix.Lib.Wire

/-! The byte form of an owner's launch. The writer spends the limit on every text
before it writes any, and sets the total size last; the reader takes the header
apart and then reads as many texts as it counts. Both accept the same launches
and agree on one byte string for each. -/
namespace Andrix.Native
open Andrix.Lib List

structure LaunchDescription where
  executable : ByteString
  arguments : List ByteString
  environment : List ByteString
  directory : ByteString
  deriving DecidableEq

structure LaunchLimits where
  bytes : Nat := 256 * 1024
  arguments : Nat := 1024
  environment : Nat := 1024
  deriving DecidableEq, Repr

inductive LaunchError where
  | invalid | limit | framing
  deriving DecidableEq

namespace LaunchDescription

def kMagic : Nat := 0x41584c44
def kVersion : Nat := 1
def kHeaderBytes : Nat := 24

def validLimits (limits : LaunchLimits) : Bool :=
  kHeaderBytes ≤ limits.bytes && limits.bytes ≤ 1024 * 1024 && 0 < limits.arguments &&
    limits.arguments ≤ 4096 && limits.environment ≤ 4096

/-- No NUL stands in the text. -/
def clean (text : ByteString) : Bool := !text.contains 0

/-! ## Writing -/

def integer (value : Nat) : ByteString := fixed 4 value

/-- The bytes with a text and its size appended, where the bound has room. -/
def string (bound : Nat) (out value : ByteString) : Except LaunchError ByteString :=
  if bound < out.length ∨ bound - out.length < 4 ∨ bound - out.length - 4 < value.length then
    .error .limit
  else .ok (out ++ integer value.length ++ value)

/-- What a text leaves of the remaining bytes. -/
def validate (remaining : Nat) (value : ByteString) : Except LaunchError Nat :=
  if remaining < 4 ∨ remaining - 4 < value.length then .error .limit
  else if clean value then .ok (remaining - (value.length + 4))
  else .error .invalid

/-- The texts in the order in which they are checked and written. -/
def texts (d : LaunchDescription) : List ByteString :=
  d.executable :: d.directory :: (d.arguments ++ d.environment)

/-- The header, with the total size that it states. -/
def header (d : LaunchDescription) (size : Nat) : ByteString :=
  integer kMagic ++ integer kVersion ++ integer size ++ integer d.arguments.length ++
    integer d.environment.length ++ integer 0

/-- The four bytes at offset 8 set to the size of the bytes. -/
def setSize (encoded : ByteString) : ByteString :=
  (List.range 4).foldl
    (fun out n => out.set (8 + n) (UInt8.ofNat (encoded.length >>> (8 * n)))) encoded

def encodeLaunch (d : LaunchDescription) (limits : LaunchLimits) : Except LaunchError ByteString := do
  refuse (validLimits limits = false ∨ d.executable = [] ∨ d.directory = [] ∨ d.arguments = [])
    .invalid
  refuse (limits.arguments < d.arguments.length ∨ limits.environment < d.environment.length) .limit
  let _ ← d.texts.foldlM validate (limits.bytes - kHeaderBytes)
  let encoded ← d.texts.foldlM (string limits.bytes) (d.header 0)
  pure (setSize encoded)

/-! ## Reading -/

def readString : Reader LaunchError ByteString := do
  let size ← number .framing 4
  let value ← take .framing size
  StateT.lift (if clean value then .ok value else .error .framing)

/-- The fields of a launch of so many bytes. -/
def readLaunch (limits : LaunchLimits) (length : Nat) : Reader LaunchError LaunchDescription := do
  let magic ← number .framing 4
  let version ← number .framing 4
  let size ← number .framing 4
  let arguments ← number .framing 4
  let environment ← number .framing 4
  let reserved ← number .framing 4
  StateT.lift (refuse (magic ≠ kMagic ∨ version ≠ kVersion ∨ size ≠ length ∨
    reserved ≠ 0 ∨ arguments = 0) .framing)
  StateT.lift (refuse (limits.arguments < arguments ∨ limits.environment < environment) .limit)
  let executable ← readString
  let directory ← readString
  StateT.lift (refuse (executable = [] ∨ directory = []) .framing)
  let arguments ← many readString arguments
  let environment ← many readString environment
  pure ⟨executable, arguments, environment, directory⟩

def decodeLaunch (bytes : ByteString) (limits : LaunchLimits) :
    Except LaunchError LaunchDescription := do
  refuse (validLimits limits = false) .invalid
  refuse (limits.bytes < bytes.length) .limit
  let (decoded, rest) ← (readLaunch limits bytes.length).run bytes
  refuse (rest ≠ []) .framing
  pure decoded

/-! ## What both accept -/

def textBytes (texts : List ByteString) : ByteString :=
  texts.flatMap fun value => integer value.length ++ value

def size (d : LaunchDescription) : Nat :=
  kHeaderBytes + (textBytes d.texts).length

structure Fits (d : LaunchDescription) (limits : LaunchLimits) : Prop where
  argued : d.arguments ≠ []
  executable : d.executable ≠ []
  directory : d.directory ≠ []
  clean : ∀ text ∈ d.texts, 0 ∉ text
  arguments : d.arguments.length ≤ limits.arguments
  environment : d.environment.length ≤ limits.environment
  bytes : d.size ≤ limits.bytes

variable {d : LaunchDescription} {limits : LaunchLimits} {texts : List ByteString}
  {value out bytes : ByteString} {n size : Nat}

theorem clean_iff (value : ByteString) : clean value = true ↔ 0 ∉ value := by simp [clean]

theorem textBytes_cons : textBytes (value :: texts) = integer value.length ++ value ++ textBytes texts :=
  rfl

theorem length_textBytes_cons :
    (textBytes (value :: texts)).length = value.length + 4 + (textBytes texts).length := by
  simp only [textBytes_cons, integer, length_append, length_fixed]
  omega

@[simp] theorem length_header : (d.header size).length = kHeaderBytes := by
  simp [header, integer, kHeaderBytes]

/-- The texts pass when all are clean and their bytes fit in what remains. -/
theorem foldlM_validate : Returns (texts.foldlM validate n) ↔
    (∀ text ∈ texts, 0 ∉ text) ∧ (textBytes texts).length ≤ n := by
  induction texts generalizing n with
  | nil => simp [textBytes, Returns, pure_eq_ok]
  | cons value rest ih =>
    simp only [foldlM_cons, returns_bind_iff, ih, length_textBytes_cons, forall_mem_cons,
      ← clean_iff value, validate]
    split
    · simp only [reduceCtorEq, false_and, exists_false, false_iff]
      omega
    split
    · simp only [Except.ok.injEq, exists_eq_left', *, true_and]
      refine and_congr_right fun _ => ?_
      omega
    · simp [*]

/-- Where the bound has room for the texts they are appended. -/
theorem foldlM_string (room : out.length + (textBytes texts).length ≤ n) :
    texts.foldlM (string n) out = .ok (out ++ textBytes texts) := by
  induction texts generalizing out with
  | nil => simp [textBytes, pure, Except.pure]
  | cons value rest ih =>
    rw [length_textBytes_cons] at room
    have fits : string n out value = .ok (out ++ integer value.length ++ value) := by
      rw [string, if_neg (by omega)]
    rw [foldlM_cons, fits, ok_bind, ih, textBytes_cons]
    · simp only [append_assoc]
    · simp only [length_append, integer, length_fixed]
      omega

/-- The size is set in the header, which had left room for it. -/
theorem setSize_header (body : ByteString) :
    setSize (d.header 0 ++ body) = d.header (kHeaderBytes + body.length) ++ body := by
  have length : (d.header 0 ++ body).length = kHeaderBytes + body.length := by simp
  rw [setSize, length]
  simp only [header, integer, fixed, List.range, List.range.loop, List.foldl,
    cons_append, nil_append, set_cons_succ, set_cons_zero, Nat.shiftRight_eq_div_pow,
    Nat.div_div_eq_div_mul]
  simp

theorem validLimits_iff : validLimits limits = true ↔ kHeaderBytes ≤ limits.bytes ∧
    limits.bytes ≤ 1024 * 1024 ∧ 0 < limits.arguments ∧ limits.arguments ≤ 4096 ∧
    limits.environment ≤ 4096 := by
  simp [validLimits, and_assoc]

theorem encodeLaunch_eq_ok : encodeLaunch d limits = .ok bytes ↔
    validLimits limits = true ∧ d.Fits limits ∧ bytes = d.header d.size ++ textBytes d.texts := by
  simp only [encodeLaunch, bind_unit_eq_ok, refuse_eq_ok]
  simp only [bind_eq_ok, pure_eq_ok, not_or, Bool.not_eq_false, Nat.not_lt]
  have written (room : d.size ≤ limits.bytes) : d.texts.foldlM (string limits.bytes) (d.header 0) =
      .ok (d.header 0 ++ textBytes d.texts) := foldlM_string (by rwa [length_header])
  constructor
  · rintro ⟨⟨valid, executable, directory, argued⟩, ⟨arguments, environment⟩, left, spent, encoded,
      wrote, rfl⟩
    obtain ⟨clean, room⟩ := foldlM_validate.mp ⟨left, spent⟩
    have header := (validLimits_iff.mp valid).1
    have bytes : d.size ≤ limits.bytes := by
      unfold LaunchDescription.size
      omega
    rw [written bytes] at wrote
    cases wrote
    exact ⟨valid, ⟨argued, executable, directory, clean, arguments, environment, bytes⟩,
      setSize_header _⟩
  · rintro ⟨valid, fits, rfl⟩
    have room : (textBytes d.texts).length ≤ limits.bytes - kHeaderBytes := by
      have bytes := fits.bytes
      unfold LaunchDescription.size at bytes
      omega
    obtain ⟨left, spent⟩ := foldlM_validate.mpr ⟨fits.clean, room⟩
    exact ⟨⟨valid, fits.executable, fits.directory, fits.argued⟩, ⟨fits.arguments, fits.environment⟩,
      left, spent, _, written fits.bytes, setSize_header _⟩

theorem reads_string : Reads readString (fun value => integer value.length ++ value)
    (fun value => value.length < 256 ^ 4 ∧ 0 ∉ value) := by
  intro input v rest
  simp only [readString, run_bind_eq_ok, run_lift_eq_ok, reads_number _ _ _, reads_take _ _ _, id,
    append_assoc]
  constructor
  · rintro ⟨_, _, ⟨small, rfl⟩, value, _, ⟨rfl, rfl⟩, checked, rfl⟩
    split at checked
    · rename_i cleaned
      cases checked
      exact ⟨⟨small, (clean_iff _).mp cleaned⟩, rfl⟩
    · cases checked
  · rintro ⟨⟨small, cleaned⟩, rfl⟩
    exact ⟨v.length, _, ⟨small, rfl⟩, v, rest, ⟨rfl, rfl⟩, if_pos ((clean_iff _).mpr cleaned), rfl⟩

/-- What the reader takes apart, the sizes within four bytes each. -/
theorem reads_launch : Reads (readLaunch limits size) (fun d => d.header size ++ textBytes d.texts)
    (fun d => (d.arguments ≠ [] ∧ d.executable ≠ [] ∧ d.directory ≠ [] ∧
      d.arguments.length ≤ limits.arguments ∧ d.environment.length ≤ limits.environment) ∧
      size < 256 ^ 4 ∧ d.arguments.length < 256 ^ 4 ∧ d.environment.length < 256 ^ 4 ∧
      ∀ text ∈ d.texts, text.length < 256 ^ 4 ∧ 0 ∉ text) := by
  intro input d rest
  simp only [readLaunch, run_bind_eq_ok, run_lift_eq_ok, reads_number _ _ _, reads_string _ _ _,
    reads_many reads_string _ _ _ _, refuse_eq_ok, not_or, not_not, ne_eq, StateT.run_pure, pure_eq_ok,
    Prod.mk.injEq, Nat.not_lt]
  constructor
  · rintro ⟨_, _, ⟨_, rfl⟩, _, _, ⟨_, rfl⟩, _, _, ⟨small, rfl⟩, _, _, ⟨args, rfl⟩, _, _, ⟨envs, rfl⟩, _, _,
      ⟨_, rfl⟩, _, _, ⟨⟨rfl, rfl, rfl, rfl, argued⟩, rfl⟩, _, _, ⟨⟨arguments, environment⟩, rfl⟩,
      executable, _, ⟨first, rfl⟩, directory, _, ⟨second, rfl⟩, _, _, ⟨⟨named, placed⟩, rfl⟩,
      l, _, ⟨⟨rfl, firsts⟩, rfl⟩, m, _, ⟨⟨rfl, lasts⟩, rfl⟩, rfl, rfl⟩
    refine ⟨⟨⟨by simpa using argued, named, placed, arguments, environment⟩, small, args, envs, ?_⟩, ?_⟩
    · simp only [LaunchDescription.texts, forall_mem_cons, forall_mem_append]
      exact ⟨first, second, firsts, lasts⟩
    · simp [header, LaunchDescription.texts, textBytes, integer]
  · rintro ⟨⟨⟨argued, named, placed, arguments, environment⟩, small, args, envs, texts⟩, rfl⟩
    simp only [LaunchDescription.texts, forall_mem_cons, forall_mem_append] at texts
    obtain ⟨first, second, firsts, lasts⟩ := texts
    refine ⟨kMagic, _, ⟨by decide, ?_⟩, kVersion, _, ⟨by decide, rfl⟩, size, _, ⟨small, rfl⟩,
      _, _, ⟨args, rfl⟩, _, _, ⟨envs, rfl⟩, 0, _, ⟨by decide, rfl⟩, (), _,
      ⟨⟨rfl, rfl, rfl, rfl, by simpa using argued⟩, rfl⟩, (), _, ⟨⟨arguments, environment⟩, rfl⟩,
      _, _, ⟨first, rfl⟩, _, _, ⟨second, rfl⟩, (), _, ⟨⟨named, placed⟩, rfl⟩, _, _, ⟨⟨rfl, firsts⟩, rfl⟩,
      _, rest, ⟨⟨rfl, lasts⟩, rfl⟩, rfl, rfl⟩
    simp [header, LaunchDescription.texts, textBytes, integer]

theorem length_le_textBytes (among : value ∈ texts) : value.length ≤ (textBytes texts).length := by
  induction texts with
  | nil => cases among
  | cons first rest ih =>
    rw [length_textBytes_cons]
    rcases mem_cons.mp among with rfl | later
    · omega
    · have inside := ih later
      omega

theorem decodeLaunch_eq_ok : decodeLaunch bytes limits = .ok d ↔
    validLimits limits = true ∧ d.Fits limits ∧ bytes = d.header d.size ++ textBytes d.texts := by
  simp only [decodeLaunch, bind_unit_eq_ok, refuse_eq_ok]
  simp only [bind_eq_ok, refuse_eq_ok, pure_eq_ok, Bool.not_eq_false, Nat.not_lt, Prod.exists,
    reads_launch _ _ _, not_not, ne_eq]
  have length : (d.header bytes.length ++ textBytes d.texts).length = d.size := by
    simp [LaunchDescription.size]
  constructor
  · rintro ⟨valid, fits, decoded, rest, ⟨⟨formed, _, _, _, texts⟩, whole⟩, _, rfl, rfl⟩
    rw [append_nil] at whole
    rw [← whole] at length
    obtain ⟨argued, executable, directory, arguments, environment⟩ := formed
    refine ⟨valid, ⟨argued, executable, directory, fun text among => (texts text among).2, arguments,
      environment, length ▸ fits⟩, ?_⟩
    rw [← length]
    exact whole
  · rintro ⟨valid, fits, rfl⟩
    have size : (d.header d.size ++ textBytes d.texts).length = d.size := by
      simp [LaunchDescription.size]
    obtain ⟨_, most, _, arguments, environment⟩ := validLimits_iff.mp valid
    have bytes := fits.bytes
    have args := fits.arguments
    have envs := fits.environment
    rw [size]
    refine ⟨valid, bytes, d, [], ⟨⟨⟨fits.argued, fits.executable, fits.directory, args, envs⟩, by omega,
      by omega, by omega, fun text among => ⟨?_, fits.clean text among⟩⟩, by simp⟩, (), rfl, rfl⟩
    have inside := length_le_textBytes among
    unfold LaunchDescription.size at bytes
    omega

/-- Under any limits the writer accepts exactly the launches that valid limits
allow, the reader returns each from its bytes, and no other bytes denote it. -/
theorem launch_codec_is_canonical (limits : LaunchLimits) :
    (∀ d, Returns (encodeLaunch d limits) ↔ validLimits limits = true ∧ d.Fits limits) ∧
      (∀ d bytes, encodeLaunch d limits = .ok bytes → decodeLaunch bytes limits = .ok d) ∧
      ∀ bytes d, decodeLaunch bytes limits = .ok d → encodeLaunch d limits = .ok bytes := by
  refine ⟨fun d => ?_, fun d bytes wrote => ?_, fun bytes d read => ?_⟩
  · simp only [Returns, encodeLaunch_eq_ok, exists_and_left, exists_eq, and_true]
  · exact decodeLaunch_eq_ok.mpr (encodeLaunch_eq_ok.mp wrote)
  · exact encodeLaunch_eq_ok.mpr (decodeLaunch_eq_ok.mp read)

/-- Limits of more than a mebibyte are refused, whatever they are asked for. -/
theorem wide_limits_refuse : ∃ (limits : LaunchLimits) (d : LaunchDescription),
    d.Fits limits ∧ ¬ Returns (encodeLaunch d limits) := by
  refine ⟨{ bytes := 1024 * 1024 + 1 }, ⟨[47], [[97]], [], [47]⟩, ?_, ?_⟩
  · constructor <;> decide
  · rintro ⟨bytes, wrote⟩
    cases wrote

end LaunchDescription
end Andrix.Native
