import Daybook.Proofs.Disk.DirectoryFiles
import Daybook.Proofs.Entry.Rendering
import Daybook.Proofs.Page.Contents
import Daybook.Proofs.Page.FurtherLines

/-!
# The root file

The root file of a directory is a list of inclusions, one for every file that has ever been
written, in the order in which they came. A name is found in it exactly if it is on the list, and
a further name is added at the end.
-/
namespace Daybook

open Disk Lexeme Statement

/-! ## Lines -/

namespace Text

/-- A character that ends no line belongs to the line behind it, if there is one. -/
theorem lines_cons_of_quiet {c : Char} (quiet : isLineBreak c = false) (rest : Text) :
    lines (c :: rest) = match lines rest with
      | [] => [[c]]
      | line :: others => (c :: line) :: others := by
  have alone : ∀ more, c = '\r' → rest = '\n' :: more → False := by
    rintro more rfl
    cases quiet
  rw [lines, quiet]
  · rfl
  · exact alone

/-- A row without line breaks is a line if a line feed follows it. -/
theorem lines_row {row : Text} (quiet : ∀ c ∈ row, isLineBreak c = false) (rest : Text) :
    lines (row ++ '\n' :: rest) = row :: lines rest := by
  induction row with
  | nil => rfl
  | cons c row ih =>
    obtain ⟨visible, others⟩ := List.forall_mem_cons.mp quiet
    rw [List.cons_append, lines_cons_of_quiet visible, ih others]

/-- Rows without line breaks are the lines of the text that they make up. -/
theorem lines_rows {rows : List Text} (quiet : ∀ row ∈ rows, ∀ c ∈ row, isLineBreak c = false) :
    lines (rows.flatMap fun row => row ++ ['\n']) = rows := by
  induction rows with
  | nil => rfl
  | cons row rows ih =>
    obtain ⟨first, others⟩ := List.forall_mem_cons.mp quiet
    rw [List.flatMap_cons, List.append_assoc, List.singleton_append, lines_row first, ih others]

namespace Quoted

/-- Quoting escapes the line breaks that are control characters, and makes no others. -/
theorem isLineBreak_encodeChar {c mark : Char} (plain : isLineBreak c = true → c.toNat < 32)
    (member : mark ∈ encodeChar c) : isLineBreak mark = false :=
  forall_mem_encodeChar (P := fun mark => isLineBreak mark = false)
    (fun code => forall_mem_of_all (by revert code; decide)) rfl rfl
    (fun high => Bool.eq_false_iff.mpr fun breaks => high (plain breaks)) mark member

end Quoted

end Text

/-! ## Lists of inclusions -/

/-- The text of the root file that includes the given names. -/
def rootText (order : List Text) : Text :=
  order.flatMap fun name => inclusionLine name ++ ['\n']

/-- A name that no line break is in. -/
def IsOneLine (name : Text) : Prop :=
  ∀ c ∈ name, Text.isLineBreak c = false

/-- The names after one more that is to be included. -/
def enlist (order : List Text) (name : Text) : List Text :=
  if name ∈ order then order else order ++ [name]

/-- Enlisting a name adds that name and no other to the order of inclusion. -/
theorem mem_enlist {order : List Text} {name other : Text} :
    other ∈ enlist order name ↔ other ∈ order ∨ other = name := by
  unfold enlist
  split
  · next known =>
    refine ⟨Or.inl, fun either => either.elim id ?_⟩
    rintro rfl
    exact known
  · rw [List.mem_append, List.mem_singleton]

/-- A name that is already listed is not listed again, so the order of inclusion stays free of
repetitions. -/
theorem nodup_enlist {order : List Text} (once : order.Nodup) (name : Text) :
    (enlist order name).Nodup := by
  unfold enlist
  split
  · exact once
  · next unknown =>
    exact List.nodup_append.mpr ⟨once, List.nodup_singleton _, fun other member same other' =>
      by rintro rfl; exact unknown (List.mem_singleton.mp other' ▸ member)⟩

section RootText

variable {order : List Text} {name : Text}

/-- The line that includes a file, with its keyword spelled out in characters: the form in which
lexing and bytes can be computed. -/
theorem inclusionLine_eq (name : Text) : inclusionLine name =
    ['i', 'n', 'c', 'l', 'u', 'd', 'e', ' '] ++ Text.Quoted.encode name := by
  have word : "include ".toList = ['i', 'n', 'c', 'l', 'u', 'd', 'e', ' '] := by decide
  exact congrArg (· ++ Text.Quoted.encode name) word

/-- Including one more file appends one line to the text of the root file, and touches none of the
lines before it. -/
theorem rootText_append (order : List Text) (name : Text) :
    rootText (order ++ [name]) = rootText order ++ (inclusionLine name ++ ['\n']) := by
  simp [rootText]

/-- The root file is empty exactly while nothing is included. -/
theorem rootText_eq_nil_iff : rootText order = [] ↔ order = [] := by
  cases order with
  | nil => simp [rootText]
  | cons name order => simp [rootText]

/-- Different names are included by different lines. -/
theorem inclusionLine_inj {other : Text} : inclusionLine name = inclusionLine other ↔
    name = other := by
  refine ⟨fun same => ?_, congrArg _⟩
  rw [inclusionLine_eq, inclusionLine_eq] at same
  have quoted : Text.Quoted.encode name = Text.Quoted.encode other := List.append_cancel_left same
  rw [← Phrase.ofText_inj, ← Text.Quoted.decode_encode name, quoted, Text.Quoted.decode_encode]

/-- The line that includes a name begins and ends with no blank. -/
theorem trim_inclusionLine (name : Text) : Text.trim (inclusionLine name) = inclusionLine name := by
  have letter : Text.isBlank 'i' = false := rfl
  have mark : Text.isBlank '"' = false := rfl
  have first : Text.trimLeft (inclusionLine name) = inclusionLine name := by
    rw [inclusionLine_eq, Text.trimLeft, List.cons_append,
      List.dropWhile_cons_of_neg (by simp [letter])]
  rw [Text.trim, first, Text.trimRight, inclusionLine_eq, Text.Quoted.encode, ← List.append_assoc,
    List.reverse_concat, List.dropWhile_cons_of_neg (by simp [mark]), List.reverse_cons,
    List.reverse_reverse]

/-- The line that includes a name is one line if the line breaks in the name are escaped. -/
theorem isLineBreak_inclusionLine
    (plain : ∀ c ∈ name, Text.isLineBreak c = true → c.toNat < 32) :
    ∀ c ∈ inclusionLine name, Text.isLineBreak c = false := by
  have keyword : ∀ c ∈ ['i', 'n', 'c', 'l', 'u', 'd', 'e', ' '], Text.isLineBreak c = false :=
    forall_mem_of_all (by decide)
  intro c inside
  rw [inclusionLine_eq] at inside
  rcases List.mem_append.mp inside with word | quoted
  · exact keyword c word
  rw [Text.Quoted.encode, List.mem_append, List.mem_cons, List.mem_flatMap,
    List.mem_singleton] at quoted
  rcases quoted with (rfl | ⟨d, member, encoded⟩) | rfl
  · rfl
  · exact Text.Quoted.isLineBreak_encodeChar (plain d member) encoded
  · rfl

/-- The root file lists exactly the names that it was made of. -/
theorem lists_rootText (plain : ∀ name ∈ order, IsOneLine name) (name : Text) :
    Lists (rootText order) name = true ↔ name ∈ order := by
  have lines : Text.lines (rootText order) = order.map inclusionLine := by
    rw [rootText, ← List.flatMap_map inclusionLine fun row => row ++ ['\n']]
    refine Text.lines_rows fun row member => ?_
    obtain ⟨name, listed, rfl⟩ := List.mem_map.mp member
    refine isLineBreak_inclusionLine fun c inside breaks => ?_
    rw [plain name listed c inside] at breaks
    cases breaks
  rw [Lists, lines, List.any_map, List.any_eq_true]
  simp only [Function.comp_apply, trim_inclusionLine, decide_eq_true_eq, inclusionLine_inj,
    exists_eq_right]

/-- A further name is included at the end of the root file. -/
theorem rootText_inclusionAfter (order : List Text) (name : Text) :
    rootText order ++ inclusionAfter (rootText order) name = rootText (order ++ [name]) := by
  have ended : lineBreakAfter (rootText order) = [] := by
    cases order using List.reverseRecOn with
    | nil => rfl
    | append_singleton order last =>
      rw [rootText_append, lineBreakAfter, ← List.append_assoc, List.getLast?_concat]
      rfl
  rw [rootText_append, inclusionAfter, ended, List.nil_append]

end RootText

/-! ## What the root file says -/

namespace Lexeme

/-- The word of an inclusion is found where a line begins. -/
theorem begins_include (position : Nat) (rest : Text) :
    Begins .lineStart position (['i', 'n', 'c', 'l', 'u', 'd', 'e'] ++ ' ' :: rest)
      ⟨.includeWord, position, ['i', 'n', 'c', 'l', 'u', 'd', 'e']⟩ (' ' :: rest) :=
  ⟨rfl, rfl, ⟨'i', _, rfl, rfl⟩, .metadataKey, rfl, rfl⟩

end Lexeme

/-- The lines of inclusions that stand one after the other from a position on. -/
def inclusionLines (position : Nat) : List Text → List Line
  | [] => []
  | name :: order =>
    { statement := .inclusion ⟨.quotedText, position + 8, Text.Quoted.encode name⟩ } ::
      inclusionLines (position + (inclusionLine name).length + 1) order

/-- The root file is read as its inclusions. The induction is on the names, and each line is an
inclusion at its own position. -/
theorem Statement.reading_rootText (position : Nat) (order : List Text) :
    Reading .lineStart position (rootText order) (inclusionLines position order) := by
  induction order generalizing position with
  | nil => exact reading_nil_iff.mpr rfl
  | cons name order ih =>
    have size : position + (inclusionLine name).length = position + 8 +
        (Text.Quoted.encode name).length := by
      rw [inclusionLine_eq, List.length_append, Nat.add_assoc]
      rfl
    have shape : rootText (name :: order) = ['i', 'n', 'c', 'l', 'u', 'd', 'e'] ++ ' ' ::
        (Text.Quoted.encode name ++ '\n' :: rootText order) := by
      simp [rootText, inclusionLine_eq]
    have included : Place.lineStart.step ⟨.includeWord, position, ['i', 'n', 'c', 'l', 'u', 'd', 'e']⟩ =
        some (.text .inclusion) := rfl
    have begins : Begins Place.lineStart.expected position _ _ _ := begins_include position
      (Text.Quoted.encode name ++ '\n' :: rootText order)
    have asked : Terminal.quotedText ∈ Expected.textOnly.terminals := by decide
    have quoted : Begins (Place.text .inclusion).expected (position + 8) _ _ _ :=
      begins_quoted asked name (position + 8) ('\n' :: rootText order)
    have named : (Place.text .inclusion).step
        ⟨.quotedText, position + 8, Text.Quoted.encode name⟩ =
          some (.ended (.inclusion ⟨.quotedText, position + 8, Text.Quoted.encode name⟩)) := rfl
    rw [shape, reading_leads_iff begins rfl included, reading_space_iff rfl]
    refine (reading_leads_iff quoted rfl named).mpr (Reading.feed rfl ?_)
    have further := ih (position + (inclusionLine name).length + 1)
    rw [size] at further
    rw [size]
    exact further

/-- Inclusions of different names say exactly these names, and give no cause for a warning. The
induction is on the names, with those that are included already apart from them. -/
theorem collect_inclusionLines {order : List Text} {included : List Phrase} (once : order.Nodup)
    (apart : ∀ name ∈ order, Phrase.ofText name ∉ included) (source : Source) (position : Nat) :
    ∃ directives, collectFrom source .nothing included (inclusionLines position order) =
        .ok ⟨directives, []⟩ ∧
      directives.filterMap Directive.inclusion? = order.map Phrase.ofText := by
  induction order generalizing included position with
  | nil => exact ⟨[], rfl, rfl⟩
  | cons name order ih =>
    obtain ⟨other, once⟩ := List.nodup_cons.mp once
    obtain ⟨fresh, apart⟩ := List.forall_mem_cons.mp apart
    obtain ⟨directives, collected, names⟩ := @ih (.ofText name :: included) once
      (fun later member => by
        rw [List.mem_cons, not_or, Phrase.ofText_inj]
        exact ⟨fun same => other (same ▸ member), apart later member⟩)
      (position + (inclusionLine name).length + 1)
    refine ⟨.inclusion (.ofText name) (source.tokenSpan
      ⟨.quotedText, position + 8, Text.Quoted.encode name⟩) :: directives, ?_, ?_⟩
    · rw [inclusionLines, collectFrom]
      simp only [Pending.finish, bind, Except.bind, Text.Quoted.decode_encode, collected, fresh,
        if_false]
      rfl
    · rw [List.filterMap_cons, names]
      rfl

/-- The root file is a page without errors and warnings, and includes its names. -/
theorem Page.ofText_rootText {order : List Text} (once : order.Nodup) (path : Text) :
    ∃ page, Page.ofText path (rootText order) = .ok page ∧ page.errors = [] ∧
      page.warnings = [] ∧ page.inclusions = order.map Phrase.ofText := by
  obtain ⟨directives, collected, names⟩ := collect_inclusionLines once
    (fun name _ => List.not_mem_nil) (Source.ofText path (rootText order)) 0
  exact ⟨_, Page.ofText_of_reading (reading_rootText 0 order).fromStart collected, rfl, rfl, names⟩

/-! ## Including -/

namespace Disk.Houses

variable {disk : Disk} {directory : FilePath} {home : Location} {files : Text → Option Text}

/-- Including a name leaves a root file with the name on its list. A name on the list changes
nothing; another one is appended as the last line. -/
theorem ensureIncluded (houses : disk.Houses directory home files) {root : Text}
    (fits : directory.Fits root) {order : List Text} (known : (files root).getD [] = rootText order)
    (plain : ∀ name ∈ order, IsOneLine name) (name : Text) :
    ∃ added after, (Daybook.ensureIncluded (directory.below root) name).outcome disk =
        (.ok added, after) ∧
      after.Houses directory home
        (Function.update files root (some (rootText (enlist order name)))) := by
  have read := houses.readIfPresent fits
  rw [known] at read
  by_cases member : name ∈ order
  · have listed := (lists_rootText plain name).mpr member
    have held : files root = some (rootText order) := by
      cases held : files root with
      | none =>
        rw [held] at known
        rw [rootText_eq_nil_iff.mp known.symm] at member
        cases member
      | some text =>
        rw [held] at known
        exact congrArg some known
    refine ⟨false, disk, ensureIncluded_of_listed read listed, ?_⟩
    rwa [enlist, if_pos member, ← held, Function.update_eq_self]
  · have unlisted : Lists (rootText order) name = false :=
      Bool.eq_false_iff.mpr (mt (lists_rootText plain name).mp member)
    obtain ⟨after, appended, housed⟩ := houses.append fits (inclusionAfter (rootText order) name)
    rw [known, rootText_inclusionAfter] at housed
    refine ⟨true, after, ensureIncluded_of_unlisted read unlisted appended, ?_⟩
    rwa [enlist, if_neg member]

end Disk.Houses

end Daybook
