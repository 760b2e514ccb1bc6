import Andrix.Lib.Checked

/-! Unified patches of policy files. A patch text is read line by line into files
with hunks, and hunks are applied in order, each at the place its header names.
A hunk's header states two positions; the one in the new file is checked against
what was written before it. -/
namespace Andrix.Policy
open Andrix.Lib List

abbrev Line := List Char

/-- Why a patch is refused, with the patch's line that the refusal names. -/
inductive Refusal where
  | notOneFile (line : Nat)
  | neitherHeaderNorHunk (line : Nat) (text : Line)
  | linesNotHeld (line : Nat)
  | missingFinalNewline (line : Nat)
  | notAtItsPlace (line : Nat)
  | wrongNewPosition (line : Nat)
  deriving DecidableEq

/-- A hunk: the line of its header, what the header states, and the lines of its body
that stand on each side. -/
structure Hunk where
  line : Nat
  old : Nat
  oldCount : Nat
  new : Nat
  newCount : Nat
  oldLines : List Line
  newLines : List Line
  deriving DecidableEq

structure PatchFile where
  path : Line
  hunks : List Hunk
  deriving DecidableEq

/-! ## Reading -/

/-- The rest of a line after a text that it starts with. -/
def after (text : String) (line : Line) : Option Line :=
  if text.toList.isPrefixOf line then some (line.drop text.length) else none

/-- A decimal number and the rest of the line. -/
def number (line : Line) : Option (Nat × Line) :=
  let digits := line.takeWhile Char.isDigit
  if digits = [] then none
  else some (digits.foldl (fun n c => 10 * n + (c.toNat - '0'.toNat)) 0, line.drop digits.length)

/-- A count behind a comma, which is 1 where it is left out. -/
def count (line : Line) : Option (Nat × Line) :=
  match line with
  | ',' :: rest => number rest
  | _ => some (1, line)

/-- What a line of the form `@@ -old,oldCount +new,newCount @@` states. -/
def hunkHeader (line : Line) : Option (Nat × Nat × Nat × Nat) := do
  let rest ← after "@@ -" line
  let (old, rest) ← number rest
  let (oldCount, rest) ← count rest
  let rest ← after " +" rest
  let (new, rest) ← number rest
  let (newCount, rest) ← count rest
  let rest ← after " @@" rest
  if rest = [] ∨ (rest.head? = some ' ' ∧ '\n' ∉ rest) then some (old, oldCount, new, newCount)
  else none

/-- The lines of a hunk's body on each side, and how many were read. -/
def readBody (header oldCount newCount : Nat) :
    List Line → List Line → List Line → Nat → Except Refusal (List Line × List Line × Nat)
  | [], old, new, n =>
    if old.length < oldCount ∨ new.length < newCount then .error (.linesNotHeld header)
    else .ok (old, new, n)
  | body :: rest, old, new, n =>
    if old.length < oldCount ∨ new.length < newCount then
      match body with
      | '-' :: text =>
        if oldCount ≤ old.length then .error (.linesNotHeld header)
        else readBody header oldCount newCount rest (old ++ [text]) new (n + 1)
      | '+' :: text =>
        if newCount ≤ new.length then .error (.linesNotHeld header)
        else readBody header oldCount newCount rest old (new ++ [text]) (n + 1)
      | ' ' :: text =>
        readBody header oldCount newCount rest (old ++ [text]) (new ++ [text]) (n + 1)
      | _ => .error (.linesNotHeld header)
    else .ok (old, new, n)

def addHunk (hunk : Hunk) : List PatchFile → List PatchFile
  | [] => []
  | [file] => [{ file with hunks := file.hunks ++ [hunk] }]
  | file :: files => file :: addHunk hunk files

/-- The files of the lines from an index on, where so many of them belong to what was
read before. -/
def readFiles : List Line → (skip index : Nat) → List PatchFile → Except Refusal (List PatchFile)
  | [], _, _, files => .ok files
  | _ :: rest, skip + 1, index, files => readFiles rest skip (index + 1) files
  | line :: rest, 0, index, files =>
    if line = [] ∧ rest = [] then .ok files
    else if (after "--- " line).isSome then
      let following := rest.headD []
      let old := line.drop 4
      let new := following.drop 4
      if after "+++ " following = none ∨ after "a/" old = none ∨ after "b/" new = none ∨
          old.drop 2 ≠ new.drop 2 then .error (.notOneFile (index + 1))
      else readFiles rest 1 (index + 1) (files ++ [⟨new.drop 2, []⟩])
    else
      match hunkHeader line with
      | none => .error (.neitherHeaderNorHunk (index + 1) (line.take 80))
      | some (old, oldCount, new, newCount) =>
        if files = [] then .error (.neitherHeaderNorHunk (index + 1) (line.take 80))
        else
          match readBody (index + 1) oldCount newCount rest [] [] 0 with
          | .error refusal => .error refusal
          | .ok (oldLines, newLines, n) =>
            if ((rest.drop n).headD []).head? = some '\\' then
              .error (.missingFinalNewline (index + 1 + n + 1))
            else
              readFiles rest n (index + 1)
                (addHunk ⟨index + 1, old, oldCount, new, newCount, oldLines, newLines⟩ files)

def patchFiles (lines : List Line) : Except Refusal (List PatchFile) := readFiles lines 0 0 []

/-! ## Applying -/

/-- Where the lines of a side begin: before the stated line, or behind it where the
side counts none. -/
def place (position count : Nat) : Int := if count = 0 then position else position - 1

/-- What is written so far and the position in the old lines, after one more hunk. -/
def applyHunk (lines : List Line) : List Line × Nat → Hunk → Except Refusal (List Line × Nat)
  | (out, position), hunk => do
    let start := (place hunk.old hunk.oldCount).toNat
    refuse (place hunk.old hunk.oldCount < position ∨
      (lines.drop start).take hunk.oldLines.length ≠ hunk.oldLines) (.notAtItsPlace hunk.line)
    let out := out ++ (lines.take start).drop position
    refuse (out.length + (if hunk.newCount = 0 then 0 else 1) ≠ hunk.new) (.wrongNewPosition hunk.line)
    pure (out ++ hunk.newLines, start + hunk.oldLines.length)

def applyHunks (lines : List Line) (hunks : List Hunk) : Except Refusal (List Line) := do
  let (out, position) ← hunks.foldlM (applyHunk lines) ([], 0)
  pure (out ++ lines.drop position)

def Hunk.reversed (hunk : Hunk) : Hunk :=
  { hunk with
    old := hunk.new
    oldCount := hunk.newCount
    new := hunk.old
    newCount := hunk.oldCount
    oldLines := hunk.newLines
    newLines := hunk.oldLines }

def reversedHunks (hunks : List Hunk) : List Hunk := hunks.map Hunk.reversed

theorem reversedHunks_reversedHunks (hunks : List Hunk) : reversedHunks (reversedHunks hunks) = hunks := by
  simp [reversedHunks, Function.comp_def, Hunk.reversed]

/-! ## The counts of a body -/

/-- A context line comes where one side of the body already holds all its lines. -/
def overfull (oldCount newCount : Nat) : List Line → (old new : Nat) → Bool
  | [], _, _ => false
  | body :: rest, old, new =>
    if old < oldCount ∨ new < newCount then
      match body with
      | '-' :: _ => overfull oldCount newCount rest (old + 1) new
      | '+' :: _ => overfull oldCount newCount rest old (new + 1)
      | ' ' :: _ =>
        if oldCount ≤ old ∨ newCount ≤ new then true
        else overfull oldCount newCount rest (old + 1) (new + 1)
      | _ => false
    else false

variable {header oldCount newCount n k skip index : Nat} {text lines old new oldLines newLines : List Line}

/-- A body that is read holds what its header counts on both sides exactly when it
starts within the counts and no context line comes on a full side. -/
theorem readBody_exact_iff
    (ran : readBody header oldCount newCount lines old new n = .ok (oldLines, newLines, k)) :
    (oldLines.length = oldCount ∧ newLines.length = newCount) ↔
      (old.length ≤ oldCount ∧ new.length ≤ newCount ∧
        overfull oldCount newCount lines old.length new.length = false) := by
  fun_induction readBody header oldCount newCount lines old new n with
  | case1 | case3 | case5 | case8 => cases ran
  | case2 old new n full =>
    cases ran
    simp only [overfull, and_true]
    omega
  | case4 rest old new n room text below ih =>
    rw [ih ran]
    simp [overfull, room]
    omega
  | case6 rest old new n room text below ih =>
    rw [ih ran]
    simp [overfull, room]
    omega
  | case7 rest old new n room text ih =>
    rw [ih ran]
    simp only [length_append, length_singleton, overfull, if_pos room]
    split
    · simp only [Bool.true_eq_false, and_false, iff_false]
      omega
    · exact and_congr (by omega) (and_congr (by omega) Iff.rfl)
  | case9 body rest old new n full =>
    cases ran
    simp only [overfull, if_neg full, and_true]
    omega

/-- The hunk's lines are the body that the text has behind the hunk's header. -/
def Hunk.ReadFrom (text : List Line) (hunk : Hunk) : Prop :=
  ∃ n, readBody hunk.line hunk.oldCount hunk.newCount (text.drop hunk.line) [] [] 0 =
    .ok (hunk.oldLines, hunk.newLines, n)

theorem mem_addHunk {hunk : Hunk} {file : PatchFile} {files : List PatchFile}
    (member : file ∈ addHunk hunk files) {other : Hunk} (held : other ∈ file.hunks) :
    other = hunk ∨ ∃ before ∈ files, other ∈ before.hunks := by
  fun_induction addHunk hunk files with
  | case1 => cases member
  | case2 before =>
    cases mem_singleton.mp member
    rcases mem_append.mp held with held | held
    · exact .inr ⟨before, mem_singleton.mpr rfl, held⟩
    · exact .inl (mem_singleton.mp held)
  | case3 first files _ ih =>
    rcases mem_cons.mp member with rfl | member
    · exact .inr ⟨file, mem_cons_self, held⟩
    · obtain same | ⟨before, listed, held⟩ := ih member
      · exact .inl same
      · exact .inr ⟨before, mem_cons_of_mem _ listed, held⟩

theorem readFiles_readFrom {files read : List PatchFile}
    (here : lines = text.drop index) (before : ∀ file ∈ files, ∀ hunk ∈ file.hunks, hunk.ReadFrom text)
    (ran : readFiles lines skip index files = .ok read) :
    ∀ file ∈ read, ∀ hunk ∈ file.hunks, hunk.ReadFrom text := by
  have behind {line : Line} {rest : List Line} {index : Nat} (here : line :: rest = text.drop index) :
      rest = text.drop (index + 1) := by
    rw [← drop_drop, ← here, drop_one, tail_cons]
  fun_induction readFiles lines skip index files with
  | case1 | case3 =>
    cases ran
    exact before
  | case2 line rest skip index files ih => exact ih (behind here) before ran
  | case4 | case6 | case7 | case8 | case9 => cases ran
  | case5 line rest index files _ _ following old new _ ih =>
    apply ih (behind here) _ ran
    intro file member hunk held
    rcases mem_append.mp member with member | member
    · exact before file member hunk held
    · cases mem_singleton.mp member
      cases held
  | case10 line rest index files _ _ old oldCount new newCount _ _ oldLines newLines n body _ ih =>
    apply ih (behind here) _ ran
    intro file member hunk held
    obtain rfl | ⟨file, listed, held⟩ := mem_addHunk member held
    · exact ⟨n, behind here ▸ body⟩
    · exact before file listed hunk held

theorem patchFiles_readFrom {read : List PatchFile} (ran : patchFiles text = .ok read) :
    ∀ file ∈ read, ∀ hunk ∈ file.hunks, hunk.ReadFrom text :=
  readFiles_readFrom drop_zero.symm (by simp) ran

/-! ## Inversion -/

/-- Every hunk's old lines lie inside the file. -/
def Inside (lines : List Line) (hunks : List Hunk) : Prop :=
  ∀ hunk ∈ hunks, place hunk.old hunk.oldCount + hunk.oldLines.length ≤ lines.length

/-- No hunk that removes nothing and has no context stands behind the end. -/
def Placed (lines : List Line) (hunks : List Hunk) : Prop :=
  ∀ hunk ∈ hunks, hunk.oldLines = [] → place hunk.old hunk.oldCount ≤ lines.length

/-- The old and the new lines from two offsets on: what the hunks keep is the same on
both sides, and each hunk names the offsets where its lines stand. -/
inductive Splits : List Hunk → (old new : List Line) → (a b : Nat) → Prop
  | done {rest a b} : Splits [] rest rest a b
  | hunk {hunk : Hunk} {hunks copy old new a b} :
    place hunk.old hunk.oldCount = (a + copy.length : Nat) →
    place hunk.new hunk.newCount = (b + copy.length : Nat) →
    Splits hunks old new (a + copy.length + hunk.oldLines.length) (b + copy.length + hunk.newLines.length) →
    Splits (hunk :: hunks) (copy ++ hunk.oldLines ++ old) (copy ++ hunk.newLines ++ new) a b

theorem Splits.reversed {hunks : List Hunk} {a b : Nat} (splits : Splits hunks old new a b) :
    Splits (reversedHunks hunks) new old b a := by
  induction splits with
  | done => exact .done
  | @hunk hunk hunks copy old new a b there here _ ih =>
    change Splits (hunk.reversed :: _) (copy ++ hunk.reversed.oldLines ++ new)
      (copy ++ hunk.reversed.newLines ++ old) b a
    exact .hunk here there ih

theorem place_eq_iff {position count start : Nat} :
    place position count = start ↔ start + (if count = 0 then 0 else 1) = position := by
  unfold place
  split <;> omega

variable {out out' : List Line} {position position' : Nat} {hunk : Hunk} {hunks : List Hunk}

/-- A hunk applies exactly when its old lines stand at its place, not before the
position, and what is then written ends where the hunk names its new lines. -/
theorem applyHunk_eq_ok : applyHunk lines (out, position) hunk = .ok (out', position') ↔
    ∃ start, place hunk.old hunk.oldCount = (start : Nat) ∧ position ≤ start ∧
      hunk.oldLines <+: lines.drop start ∧
      place hunk.new hunk.newCount = (out ++ (lines.take start).drop position).length ∧
      out' = out ++ (lines.take start).drop position ++ hunk.newLines ∧
      position' = start + hunk.oldLines.length := by
  simp only [applyHunk, bind_unit_eq_ok, refuse_eq_ok, pure_eq_ok, Prod.mk.injEq, not_or, not_not,
    ← place_eq_iff, prefix_iff_eq_take, eq_comm (b := hunk.oldLines)]
  constructor
  · rintro ⟨⟨notBefore, stands⟩, here, rfl, rfl⟩
    have named : ((place hunk.old hunk.oldCount).toNat : Int) = place hunk.old hunk.oldCount := by omega
    exact ⟨_, named.symm, by omega, stands, here, rfl, rfl⟩
  · rintro ⟨start, there, notBefore, stands, here, rfl, rfl⟩
    rw [there, Int.toNat_natCast]
    exact ⟨⟨by omega, stands⟩, here, rfl, rfl⟩

/-- The result of a run ends with what it wrote, and holds each hunk's new lines where
the hunk names them. -/
theorem foldlM_applyHunk_written (ran : hunks.foldlM (applyHunk lines) (out, position) = .ok (out', position')) :
    out.length ≤ out'.length ∧ Inside out' (reversedHunks hunks) := by
  induction hunks generalizing out position with
  | nil =>
    cases ran
    exact ⟨Nat.le_refl _, fun _ held => nomatch held⟩
  | cons hunk hunks ih =>
    rw [foldlM_cons, bind_eq_ok] at ran
    obtain ⟨⟨written, reached⟩, applied, ran⟩ := ran
    obtain ⟨start, -, -, -, here, rfl, rfl⟩ := applyHunk_eq_ok.mp applied
    obtain ⟨longer, inside⟩ := ih ran
    simp only [length_append] at longer here
    refine ⟨by omega, forall_mem_cons.mpr ⟨?_, inside⟩⟩
    change place hunk.new hunk.newCount + hunk.newLines.length ≤ _
    omega

theorem applyHunks_eq_ok : applyHunks lines hunks = .ok new ↔
    ∃ out position, hunks.foldlM (applyHunk lines) ([], 0) = .ok (out, position) ∧
      out ++ lines.drop position = new := by
  simp only [applyHunks, bind_eq_ok, pure_eq_ok, Prod.exists]

theorem applyHunks_written (ran : applyHunks lines hunks = .ok new) : Inside new (reversedHunks hunks) := by
  rw [applyHunks_eq_ok] at ran
  obtain ⟨out, position, ran, rfl⟩ := ran
  intro hunk held
  have within := (foldlM_applyHunk_written ran).2 hunk held
  rw [length_append]
  omega

private theorem length_three (x y z : List Line) : (x ++ y ++ z).length = x.length + y.length + z.length := by
  rw [length_append, length_append]

theorem splits_of_foldlM (front : List Line) {back : List Line}
    (ran : hunks.foldlM (applyHunk (front ++ back)) (out, front.length) = .ok (out', position'))
    (placed : Placed (front ++ back) hunks) :
    ∃ rest, out' ++ (front ++ back).drop position' = out ++ rest ∧
      Splits hunks back rest front.length out.length := by
  induction hunks generalizing front back out with
  | nil =>
    cases ran
    exact ⟨back, by simp, .done⟩
  | cons hunk hunks ih =>
    rw [foldlM_cons, bind_eq_ok] at ran
    obtain ⟨⟨written, reached⟩, applied, ran⟩ := ran
    obtain ⟨start, there, notBefore, stands, here, rfl, rfl⟩ := applyHunk_eq_ok.mp applied
    obtain ⟨k, rfl⟩ := Nat.exists_eq_add_of_le notBefore
    rw [drop_length_add_append] at stands
    have inside : k ≤ back.length := by
      by_cases none : hunk.oldLines = []
      · have := placed hunk mem_cons_self none
        rw [there, length_append] at this
        omega
      · have := stands.length_le
        have := length_pos_iff.mpr none
        rw [length_drop] at *
        omega
    obtain ⟨copy, tail, rfl, rfl⟩ : ∃ copy tail, copy.length = k ∧ back = copy ++ tail :=
      ⟨back.take k, back.drop k, length_take_of_le inside, (take_append_drop k back).symm⟩
    rw [drop_left] at stands
    obtain ⟨behind, rfl⟩ := stands
    have kept : ((front ++ (copy ++ (hunk.oldLines ++ behind))).take (front.length + copy.length)).drop
        front.length = copy := by simp [take_append]
    have whole : front ++ (copy ++ (hunk.oldLines ++ behind)) = (front ++ copy ++ hunk.oldLines) ++ behind := by
      simp
    rw [kept] at ran here
    rw [whole] at ran placed ⊢
    obtain ⟨rest, ends, splits⟩ := ih (front ++ copy ++ hunk.oldLines) (length_three .. ▸ ran)
      fun later held => placed later (mem_cons_of_mem _ held)
    refine ⟨copy ++ hunk.newLines ++ rest, by simpa using ends, ?_⟩
    rw [← append_assoc]
    rw [length_three, length_three] at splits
    exact .hunk there (length_append ▸ here) splits

theorem foldlM_of_splits {back rest : List Line} {a b : Nat} (splits : Splits hunks back rest a b)
    (front out : List Line) (atOld : front.length = a) (atNew : out.length = b) :
    ∃ out' position', hunks.foldlM (applyHunk (front ++ back)) (out, a) = .ok (out', position') ∧
      out' ++ (front ++ back).drop position' = out ++ rest := by
  induction splits generalizing front out with
  | done => exact ⟨out, _, rfl, by simp [← atOld]⟩
  | @hunk hunk hunks copy old new a b there here _ ih =>
    subst atOld atNew
    obtain ⟨out', position', ran, ends⟩ := ih (front ++ copy ++ hunk.oldLines)
      (out ++ copy ++ hunk.newLines) (length_three ..) (length_three ..)
    have whole : front ++ (copy ++ hunk.oldLines ++ old) = (front ++ copy ++ hunk.oldLines) ++ old := by simp
    have kept : ((front ++ copy ++ hunk.oldLines ++ old).take (front.length + copy.length)).drop
        front.length = copy := by simp [take_append]
    refine ⟨out', position', ?_, by simpa using ends⟩
    rw [foldlM_cons, bind_eq_ok, whole]
    refine ⟨_, applyHunk_eq_ok.mpr ⟨_, there, Nat.le_add_right .., ?_, ?_, rfl, rfl⟩, ?_⟩
    · rw [append_assoc, ← length_append, drop_left]
      exact prefix_append ..
    · rw [kept, here, length_append]
    · rw [kept]
      exact ran

/-- Applied hunks come back by their reverse exactly when they were placed in the file. -/
theorem applyHunks_reversed_iff (ran : applyHunks lines hunks = .ok new) :
    applyHunks new (reversedHunks hunks) = .ok lines ↔ Placed lines hunks := by
  constructor
  · intro back hunk held none
    have within := applyHunks_written back hunk ((reversedHunks_reversedHunks hunks).symm ▸ held)
    omega
  · intro placed
    obtain ⟨out, position, folded, rfl⟩ := applyHunks_eq_ok.mp ran
    obtain ⟨rest, ends, splits⟩ := splits_of_foldlM [] folded placed
    rw [nil_append, nil_append] at ends
    rw [ends]
    exact applyHunks_eq_ok.mpr (foldlM_of_splits splits.reversed [] [] rfl rfl)

/-- What patches keep. An accepted text's hunks hold what their headers count exactly
where no context line comes on a full side; applied hunks lie inside the file and come
back by their reverse exactly where no hunk without old lines stands behind the end,
and so do hunks whose reverse was applied. -/
theorem patches_exact_and_invert (text lines new : List Line) (hunks : List Hunk) :
    (∀ files, patchFiles text = .ok files → ∀ file ∈ files, ∀ hunk ∈ file.hunks,
      ((hunk.oldLines.length = hunk.oldCount ∧ hunk.newLines.length = hunk.newCount) ↔
        overfull hunk.oldCount hunk.newCount (text.drop hunk.line) 0 0 = false)) ∧
    (applyHunks lines hunks = .ok new →
      ((Inside lines hunks ∧ applyHunks new (reversedHunks hunks) = .ok lines) ↔ Placed lines hunks)) ∧
    (applyHunks new (reversedHunks hunks) = .ok lines →
      (applyHunks lines hunks = .ok new ↔ Placed new (reversedHunks hunks))) := by
  refine ⟨?_, ?_, ?_⟩
  · intro files read file member hunk held
    obtain ⟨n, body⟩ := patchFiles_readFrom read file member hunk held
    simpa using readBody_exact_iff body
  · intro ran
    rw [applyHunks_reversed_iff ran]
    refine and_iff_right_of_imp fun placed => ?_
    rw [← reversedHunks_reversedHunks hunks]
    exact applyHunks_written ((applyHunks_reversed_iff ran).mpr placed)
  · intro ran
    rw [← applyHunks_reversed_iff ran, reversedHunks_reversedHunks]

/-- Two accepted patches: one hunk holds two old lines where its header counts one, and
one stands behind the end of a file of one line, where its reverse is refused. -/
theorem loose_patches_pass :
    let texts (hunk : List String) : List Line := ("--- a/f" :: "+++ b/f" :: hunk).map String.toList
    let loose : Hunk := ⟨3, 1, 1, 1, 2, [['x'], ['y']], [['x'], ['y']]⟩
    let astray : Hunk := ⟨3, 5, 0, 2, 1, [], [['x']]⟩
    patchFiles (texts ["@@ -1 +1,2 @@", " x", " y"]) = .ok [⟨['f'], [loose]⟩] ∧
    patchFiles (texts ["@@ -5,0 +2 @@", "+x"]) = .ok [⟨['f'], [astray]⟩] ∧
    applyHunks [['a']] [astray] = .ok [['a'], ['x']] ∧ ¬ Inside [['a']] [astray] ∧
    applyHunks [['a'], ['x']] (reversedHunks [astray]) = .error (.wrongNewPosition 3) := by
  refine ⟨by decide, by decide, by decide, ?_, by decide⟩
  simp [Inside, place]
end Andrix.Policy
