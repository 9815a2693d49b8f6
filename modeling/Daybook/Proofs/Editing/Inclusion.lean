import Daybook.Proofs.Editing.AccountDeletion
import Daybook.Proofs.Editing.EntryAddition

/-!
# Files included once

A root file is looked through for the line that includes a file, and the line is added where it is
not found. Which files are included is decided by what the root file says, and this is not quite
the same: a line that includes a file can have a comment, and the line that is looked for can stand
within a quoted text. Where the two agree about a file, the file is included once afterwards. In
every case the root file says what it said and at most one inclusion more.
-/
namespace Daybook

open Disk Statement

/-! ## One line more -/

namespace Text

/-- A character that ends a line does so by itself unless it is the first half of a line end. -/
theorem lines_cons_of_break {c : Char} (breaks : isLineBreak c = true) {rest : Text}
    (alone : ∀ more, c = '\r' → rest = '\n' :: more → False) :
    lines (c :: rest) = [] :: lines rest := by
  rw [lines, breaks]
  · rfl
  · exact alone

/-- A text that is not empty has a line. -/
theorem lines_ne_nil {text : Text} (some : text ≠ []) : lines text ≠ [] := by
  cases text using lines.fun_cases with
  | case1 => exact absurd rfl some
  | case2 rest => exact List.cons_ne_nil _ _
  | case3 c rest alone breaks =>
    rw [lines_cons_of_break breaks alone]
    exact List.cons_ne_nil _ _
  | case4 c rest alone quiet none =>
    rw [lines_cons_of_quiet (Bool.eq_false_iff.mpr quiet), none]
    exact List.cons_ne_nil _ _
  | case5 c rest alone quiet line others known =>
    rw [lines_cons_of_quiet (Bool.eq_false_iff.mpr quiet), known]
    exact List.cons_ne_nil _ _

/-- A line feed ends a line, whatever stands before it and behind it. The induction follows the
lines of what stands before it, which may end with the first half of the line end. -/
theorem lines_append_feed (front rest : Text) :
    lines (front ++ '\n' :: rest) = lines (front ++ ['\n']) ++ lines rest := by
  have within {c : Char} {front : Text} (quiet : isLineBreak c = false)
      (ih : lines (front ++ '\n' :: rest) = lines (front ++ ['\n']) ++ lines rest) :
      lines (c :: (front ++ '\n' :: rest)) = lines (c :: (front ++ ['\n'])) ++ lines rest := by
    have some : lines (front ++ ['\n']) ≠ [] :=
      lines_ne_nil (List.append_ne_nil_of_right_ne_nil _ (List.cons_ne_nil _ _))
    rw [lines_cons_of_quiet quiet, lines_cons_of_quiet quiet, ih]
    cases known : lines (front ++ ['\n']) with
    | nil => exact absurd known some
    | cons line others => rfl
  induction front using lines.induct with
  | case1 => rfl
  | case2 front ih => exact congrArg ([] :: ·) ih
  | case3 c front alone breaks ih =>
    by_cases half : c = '\r' ∧ front = []
    · obtain ⟨rfl, rfl⟩ := half
      rfl
    · have apart (tail more : Text) (first : c = '\r')
          (same : front ++ '\n' :: tail = '\n' :: more) : False := by
        cases front with
        | nil => exact half ⟨first, rfl⟩
        | cons next front => exact alone front first (by rw [(List.cons.inj same).1])
      rw [List.cons_append, List.cons_append, lines_cons_of_break breaks (apart _),
        lines_cons_of_break breaks (apart _), ih, List.cons_append]
  | case4 c front _ quiet _ ih => exact within (Bool.eq_false_iff.mpr quiet) ih
  | case5 c front _ quiet line others _ ih => exact within (Bool.eq_false_iff.mpr quiet) ih

end Text

/-- A root file to which the line of a file has been added lists that file. -/
theorem lists_inclusionAfter {name : Text}
    (plain : ∀ c ∈ name, Text.isLineBreak c = true → c.toNat < 32) (text : Text) :
    Lists (text ++ inclusionAfter text name) name = true := by
  have row : Text.lines (inclusionLine name ++ ['\n']) = [inclusionLine name] :=
    Text.lines_row (isLineBreak_inclusionLine plain) []
  have member : inclusionLine name ∈ Text.lines (text ++ inclusionAfter text name) := by
    rcases lineBreakAfter_cases text with ⟨none, last | rfl⟩ | feed
    · obtain ⟨front, rfl⟩ := List.getLast?_eq_some_iff.mp last
      rw [inclusionAfter, none, List.nil_append, List.append_assoc, List.singleton_append,
        Text.lines_append_feed, row]
      exact List.mem_append_right _ List.mem_cons_self
    · rw [inclusionAfter, none, List.nil_append, List.nil_append, row]
      exact List.mem_cons_self
    · rw [inclusionAfter, feed, List.append_assoc, List.singleton_append,
        Text.lines_append_feed, row]
      exact List.mem_append_right _ List.mem_cons_self
  exact List.any_eq_true.mpr ⟨_, member, decide_eq_true (trim_inclusionLine name)⟩

/-! ## One inclusion more -/

/-- What comes of including a file in a root file with a text and a page: the answer is whether the
line had to be added. -/
structure Enlisted (root : FilePath) (text name : Text) (page now : Page)
    (before after : Disk) : Prop where
  outcome : (ensureIncluded root name).outcome before = (.ok (!Lists text name), after)
  unchanged : Lists text name = true → after = before
  read : readPage root after = .ok now
  sound : now.errors = []
  directives : ∃ span, now.directives =
    page.directives ++ if Lists text name then [] else [.inclusion (.ofText name) span]
  again : (∀ c ∈ name, Text.isLineBreak c = true → c.toNat < 32) →
    (ensureIncluded root name).outcome after = (.ok false, after)

namespace Enlisted

variable {root : FilePath} {text name : Text} {page now : Page} {before after : Disk}

/-- The inclusions are those there were, and then that of the file if its line was added. -/
theorem inclusions (enlisted : Enlisted root text name page now before after) :
    now.inclusions = page.inclusions ++ if Lists text name then [] else [Phrase.ofText name] := by
  obtain ⟨span, directives⟩ := enlisted.directives
  rw [Page.inclusions, directives, List.filterMap_append, Page.inclusions]
  cases Lists text name <;> rfl

/-- A file that was included at most once is included exactly once afterwards if and only if its
line was found just where it was included. -/
theorem count_eq_one_iff (enlisted : Enlisted root text name page now before after)
    (once : page.inclusions.count (Phrase.ofText name) ≤ 1) :
    now.inclusions.count (Phrase.ofText name) = 1 ↔
      (Lists text name = true ↔ Phrase.ofText name ∈ page.inclusions) := by
  rw [enlisted.inclusions, List.count_append, ← List.count_pos_iff]
  cases Lists text name with
  | true =>
    rw [if_pos rfl, List.count_nil, iff_true_left rfl]
    omega
  | false =>
    rw [if_neg Bool.false_ne_true, List.count_singleton_self, iff_false_left Bool.false_ne_true]
    omega

end Enlisted

section Including

variable {disk : Disk} {root : FilePath} {place beside : Location} {text name : Text} {page : Page}

/-- A text that is not empty is read from a file that is there. -/
theorem readPage_of_readIfPresent (some : text ≠ [])
    (read : readIfPresent root disk = .ok (Text.Utf8.encode text))
    (paged : Page.ofText root.toText text = .ok page) (sound : page.errors = []) :
    readPage root disk = .ok page := by
  rcases readIfPresent_eq_ok_iff.mp read with there | ⟨_, empty⟩
  · exact bind_eq_ok_iff.mpr ⟨_, readBytes_eq_ok_iff.mpr there,
      Page.read_eq_ok_iff.mpr ⟨(Page.ofBytes_encode _ _).trans paged, sound⟩⟩
  · have decoded := congrArg Text.Utf8.decode empty
    rw [Text.Utf8.decode_encode] at decoded
    exact absurd (Except.ok.inj decoded) some

/-- A root file that lists a file stays as it is. -/
theorem Enlisted.of_listed (read : readIfPresent root disk = .ok (Text.Utf8.encode text))
    (paged : Page.ofText root.toText text = .ok page) (sound : page.errors = [])
    (listed : Lists text name = true) : Enlisted root text name page page disk disk := by
  have outcome := ensureIncluded_of_listed read listed
  have some : text ≠ [] := by
    rintro rfl
    cases listed
  refine ⟨?_, fun _ => rfl, readPage_of_readIfPresent some read paged sound, sound,
    ⟨⟨0, 0⟩, ?_⟩, fun _ => outcome⟩
  · rw [listed]
    exact outcome
  · rw [listed, if_pos rfl, List.append_nil]

/-- A root file that does not list a file says one inclusion more. The line is appended, and the
text with it is read to the old directives and one inclusion. -/
theorem Enlisted.of_unlisted (writable : disk.Writable root place beside)
    (read : readIfPresent root disk = .ok (Text.Utf8.encode text))
    (paged : Page.ofText root.toText text = .ok page) (sound : page.errors = [])
    (accepted : text.all Text.isBlank = true → ∃ lines, Statement.read text = .ok lines)
    (unlisted : Lists text name = false) :
    ∃ after now, Enlisted root text name page now disk after := by
  obtain ⟨lines, collected, reading, whole, rfl⟩ := Page.reading_of_accepted paged sound accepted
  obtain ⟨now, span, found, clean, directives⟩ := Page.ofText_inclusionAfter reading whole name
  obtain ⟨after, written, _⟩ := writeWhole_of_writable writable
    (Text.Utf8.encode text ++ Text.Utf8.encode (inclusionAfter text name))
  have appended : (appendBytes root (Text.Utf8.encode (inclusionAfter text name))).outcome disk =
      (.ok (), after) :=
    Storing.look_bind_eq_ok_iff.mpr ⟨_, read, written⟩
  have reread : readIfPresent root after =
      .ok (Text.Utf8.encode (text ++ inclusionAfter text name)) := by
    rw [Text.Utf8.encode_append]
    exact readIfPresent_of_writeWhole written
  have some : text ++ inclusionAfter text name ≠ [] := by
    simp [inclusionAfter]
  refine ⟨after, now, ?_, fun listed => ?_, readPage_of_readIfPresent some reread found clean,
    clean, ⟨span, ?_⟩, fun plain => ensureIncluded_of_listed reread (lists_inclusionAfter plain text)⟩
  · rw [unlisted]
    exact ensureIncluded_of_unlisted read unlisted appended
  · rw [unlisted] at listed
    cases listed
  · rw [unlisted, if_neg Bool.false_ne_true]
    exact directives

/-- A file is included in a root file by at most one line more. Wherever the root file is missing or
is read without errors, and can be written, it is read without errors afterwards and says what it
said, and then the file if its line was not found. A file that was included at most once is included
exactly once if and only if its line was found just where it was included. Doing so again changes
nothing if quoting escapes all line breaks of the name. The line is looked for as a line of the
text, stripped of blanks, and not as an inclusion that was read. Whether the file is included once
afterwards depends on how the two agree, which is what the last part says. -/
theorem ensureIncluded_once (writable : disk.Writable root place beside)
    (read : readIfPresent root disk = .ok (Text.Utf8.encode text))
    (paged : Page.ofBytes root (Text.Utf8.encode text) = .ok page) (sound : page.errors = [])
    (accepted : text.all Text.isBlank = true → ∃ lines, Statement.read text = .ok lines)
    (name : Text) :
    ∃ after now, Enlisted root text name page now disk after ∧
      now.inclusions = page.inclusions ++ (if Lists text name then [] else [Phrase.ofText name]) ∧
      (page.inclusions.count (Phrase.ofText name) ≤ 1 →
        (now.inclusions.count (Phrase.ofText name) = 1 ↔
          (Lists text name = true ↔ Phrase.ofText name ∈ page.inclusions))) := by
  rw [Page.ofBytes_encode] at paged
  obtain ⟨after, now, enlisted⟩ : ∃ after now, Enlisted root text name page now disk after := by
    cases listed : Lists text name with
    | true => exact ⟨disk, page, Enlisted.of_listed read paged sound listed⟩
    | false => exact Enlisted.of_unlisted writable read paged sound accepted listed
  exact ⟨after, now, enlisted, enlisted.inclusions, enlisted.count_eq_one_iff⟩

end Including

/-- The text of a root file that includes a file, with a comment on the line. -/
def Text.commentedInclusion : Text := "include \"a.bean\" ; cash"

/-- A disk with such a root file. -/
def Disk.withCommentedInclusion : Disk where
  current := []
  entries := [(["data"], .folder),
    (["data", "main.bean"], .file (Text.Utf8.encode Text.commentedInclusion))]

/-- The root file can be written. -/
theorem Disk.withCommentedInclusion_writable : Disk.withCommentedInclusion.Writable
    (FilePath.ofText "data/main.bean") ["data", "main.bean"] ["data", ".main.bean.<uuid>.tmp"] :=
  ⟨by decide, by decide, rfl, rfl, by decide, by decide⟩

/-- The root file is read without errors, and includes the file once. -/
theorem Disk.withCommentedInclusion_paged : ∃ page,
    readIfPresent (FilePath.ofText "data/main.bean") Disk.withCommentedInclusion =
      .ok (Text.Utf8.encode Text.commentedInclusion) ∧
    Page.ofBytes (FilePath.ofText "data/main.bean") (Text.Utf8.encode Text.commentedInclusion) =
      .ok page ∧
    page.errors = [] ∧ page.inclusions = [Phrase.ofText "a.bean"] := by
  have shape : (Page.ofBytes (FilePath.ofText "data/main.bean")
      (Text.Utf8.encode Text.commentedInclusion)).toOption.any
        (fun page => page.errors.isEmpty && page.inclusions == [Phrase.ofText "a.bean"]) = true := by
    decide +kernel
  have leads : Disk.withCommentedInclusion.place (FilePath.ofText "data/main.bean") =
      .ok ["data", "main.bean"] := by rfl
  obtain ⟨page, paged, shape⟩ := exists_of_any shape
  obtain ⟨sound, names⟩ := Bool.and_eq_true_iff.mp shape
  exact ⟨page, readIfPresent_eq_ok_iff.mpr (Or.inl ⟨_, leads, rfl⟩), paged,
    List.isEmpty_iff.mp sound, beq_iff_eq.mp names⟩

/-- Another file is included in it once. -/
theorem another_included : ∃ page after now,
    readPage (FilePath.ofText "data/main.bean") Disk.withCommentedInclusion = .ok page ∧
    (ensureIncluded (FilePath.ofText "data/main.bean") "b.bean").outcome
      Disk.withCommentedInclusion = (.ok true, after) ∧
    readPage (FilePath.ofText "data/main.bean") after = .ok now ∧
    now.inclusions = page.inclusions ++ [Phrase.ofText "b.bean"] ∧
    now.inclusions.count (Phrase.ofText "b.bean") = 1 ∧
    (ensureIncluded (FilePath.ofText "data/main.bean") "b.bean").outcome after =
      (.ok false, after) := by
  obtain ⟨page, read, paged, sound, names⟩ := Disk.withCommentedInclusion_paged
  have visible : Text.commentedInclusion.all Text.isBlank ≠ true := by decide
  obtain ⟨after, now, enlisted, inclusions, once⟩ := ensureIncluded_once
    Disk.withCommentedInclusion_writable read paged sound (fun blank => absurd blank visible) "b.bean"
  have unlisted : Lists Text.commentedInclusion "b.bean" = false := by decide
  have some : Text.commentedInclusion ≠ [] := by decide
  have outcome := enlisted.outcome
  rw [unlisted] at outcome inclusions once
  rw [names] at once
  exact ⟨page, after, now, readPage_of_readIfPresent some read
    ((Page.ofBytes_encode _ _).symm.trans paged) sound, outcome, enlisted.read, inclusions,
    (once (by decide)).mpr (by decide), enlisted.again (forall_mem_of_all (by decide))⟩

/-- The file that is included in it with a comment is included a second time. -/
theorem commented_included_again : ∃ page after now,
    readPage (FilePath.ofText "data/main.bean") Disk.withCommentedInclusion = .ok page ∧
    page.inclusions = [Phrase.ofText "a.bean"] ∧
    (ensureIncluded (FilePath.ofText "data/main.bean") "a.bean").outcome
      Disk.withCommentedInclusion = (.ok true, after) ∧
    readPage (FilePath.ofText "data/main.bean") after = .ok now ∧
    now.inclusions = [Phrase.ofText "a.bean", Phrase.ofText "a.bean"] := by
  obtain ⟨page, read, paged, sound, names⟩ := Disk.withCommentedInclusion_paged
  rw [Page.ofBytes_encode] at paged
  have visible : Text.commentedInclusion.all Text.isBlank ≠ true := by decide
  have unlisted : Lists Text.commentedInclusion "a.bean" = false := by decide
  have some : Text.commentedInclusion ≠ [] := by decide
  obtain ⟨after, now, enlisted⟩ := Enlisted.of_unlisted Disk.withCommentedInclusion_writable read
    paged sound (fun blank => absurd blank visible) unlisted
  have outcome := enlisted.outcome
  have inclusions := enlisted.inclusions
  rw [unlisted] at outcome inclusions
  rw [names] at inclusions
  exact ⟨page, after, now, readPage_of_readIfPresent some read paged sound, names, outcome,
    enlisted.read, inclusions⟩

end Daybook
