import Daybook.Page
import Daybook.Proofs.Result
import Daybook.Proofs.Statement.LineOrder
import Daybook.Proofs.Text.Characters
import Daybook.Proofs.Text.Utf8

/-!
# What a page says

A page without errors is what is collected from the lines of its text. The one exception is
none: a text of blanks is not read at all, but if it can be read then it has no lines.
-/
namespace Daybook

open Lexeme Statement

/-- No token begins in a text of blanks, except at the end of a line. Every other token begins with
a character that is no blank, so only the end of the line or of the text is left. -/
theorem Statement.endsLine_of_blank {position : Nat} {text rest : Text} {token : Token}
    (blank : ∀ c ∈ text, Text.isBlank c = true)
    (begins : Begins Place.lineStart.expected position text token rest) :
    endsLine token = true := by
  obtain ⟨c, others, rfl, _⟩ := begins.cons
  obtain ⟨terminal, found, sort⟩ := begins.sort
  obtain ⟨member, held⟩ := length?_of_first? found
  refine (endsLine_iff sort).mpr ?_
  have outside := Text.isBlank_outside (blank c List.mem_cons_self)
  have other (mark : Char) (low : 32 < mark.toNat) (high : mark.toNat ≤ 126) : c ≠ mark :=
    Text.ne_of_isBlank (blank c List.mem_cons_self) low high
  have noDigit : isDigit c = false := by
    rw [Bool.eq_false_iff, ne_eq, isDigit_iff]
    omega
  have noSmall : isSmall c = false := by
    rw [Bool.eq_false_iff, ne_eq, isSmall_iff]
    omega
  have noColon (length : Nat) : (others.take length).contains ':' = false := by
    rw [List.contains_eq_mem, decide_eq_false_iff_not]
    intro colon
    exact Text.ne_of_isBlank (blank ':' (List.mem_cons_of_mem _ (List.mem_of_mem_take colon)))
      (by decide) (by decide) rfl
  have noFlag : isFlag c = false := by
    simp only [isFlag, List.contains_eq_mem, decide_eq_false_iff_not, List.mem_cons,
      List.not_mem_nil, or_false, not_or]
    exact ⟨other '*' (by decide) (by decide), other '!' (by decide) (by decide),
      other '&' (by decide) (by decide), other '#' (by decide) (by decide),
      other '?' (by decide) (by decide), other '%' (by decide) (by decide),
      other 'P' (by decide) (by decide), other 'S' (by decide) (by decide),
      other 'T' (by decide) (by decide), other 'C' (by decide) (by decide),
      other 'U' (by decide) (by decide), other 'R' (by decide) (by decide),
      other 'M' (by decide) (by decide)⟩
  have listed : terminal ∈ [Terminal.date, .account, .metadataKey, .newline, .sectionHeader,
      .comment, .flag] := member
  simp only [List.mem_cons, List.not_mem_nil, or_false] at listed
  rcases listed with rfl | rfl | rfl | rfl | rfl | rfl | rfl
  · simp [Terminal.length?, dateLength, atLeast, Text.stretch, noDigit] at held
  · simp only [Terminal.length?, accountLength, noColon, Bool.and_false, Bool.false_eq_true,
      if_false] at held
    cases held
  · simp [Terminal.length?, keyLength, noSmall] at held
  · exact Or.inl rfl
  · simp [Terminal.length?, toLineEnd, other '*' (by decide) (by decide)] at held
  · simp [Terminal.length?, toLineEnd, other ';' (by decide) (by decide)] at held
  · simp [Terminal.length?, oneOf, noFlag] at held

/-- A text of blanks has no lines. -/
theorem Statement.Reading.nil_of_blank {text : Text} {lines : List Line}
    (reading : Reading .fileStart 0 text lines) (blank : text.all Text.isBlank = true) :
    lines = [] := by
  cases lines with
  | nil => rfl
  | cons line rest =>
    obtain ⟨front, tail, rfl, _, _, ⟨token, _, begins, within⟩, _⟩ :=
      reading.divide (show line :: rest = [] ++ line :: rest from rfl) (Or.inl rfl)
    rw [endsLine_of_blank ?_ begins] at within
    · cases within
    · intro c member
      exact List.all_eq_true.mp blank c (List.mem_append_right _ member)

namespace Page

/-- The page of collected directives and warnings. -/
def ofCollected (path : Text) (collected : Collected) : Page :=
  { path, directives := collected.directives, errors := [], warnings := collected.warnings }

/-- The page of a text whose lines are collected. -/
theorem ofText_of_reading {path text : Text} {lines : List Line} {collected : Collected}
    (reading : Reading .fileStart 0 text lines)
    (whole : collect (Source.ofText path text) lines = .ok collected) :
    ofText path text = .ok (ofCollected path collected) := by
  by_cases blank : text.all Text.isBlank = true
  · obtain rfl := reading.nil_of_blank blank
    cases whole
    simp only [ofText, blank, if_true]
    rfl
  · have read : Statement.read text = .ok lines := (reading_iff 0).mp reading
    simp only [ofText, blank, Bool.false_eq_true, if_false, read, whole]
    rfl

/-- The page of a text that is read is what is collected from its lines. -/
theorem collected_of_reading {path text : Text} {lines : List Line} {page : Page}
    (reading : Reading .fileStart 0 text lines) (paged : ofText path text = .ok page) :
    ∃ collected, collect (Source.ofText path text) lines = .ok collected ∧
      page = ofCollected path collected := by
  by_cases blank : text.all Text.isBlank = true
  · obtain rfl := reading.nil_of_blank blank
    simp only [ofText, blank, if_true] at paged
    cases paged
    exact ⟨⟨[], []⟩, rfl, rfl⟩
  · have read : Statement.read text = .ok lines := (reading_iff 0).mp reading
    simp only [ofText, blank, Bool.false_eq_true, if_false, read] at paged
    obtain ⟨collected, whole, same⟩ := bind_eq_ok_iff.mp paged
    cases same
    exact ⟨collected, whole, rfl⟩

/-- The page of a text that is not blank comes, without errors, from lines that are collected. -/
theorem reading_of_visible {path text : Text} {page : Page} (paged : ofText path text = .ok page)
    (sound : page.errors = []) (visible : text.all Text.isBlank = false) : ∃ lines collected,
      Reading .fileStart 0 text lines ∧
        collect (Source.ofText path text) lines = .ok collected ∧
        page = ofCollected path collected := by
  unfold ofText at paged
  dsimp only at paged
  rw [if_neg (by simp [visible])] at paged
  split at paged
  · cases paged
    cases sound
  · next lines read =>
    obtain ⟨collected, whole, same⟩ := bind_eq_ok_iff.mp paged
    cases same
    exact ⟨lines, collected, (reading_iff 0).mpr read, whole, rfl⟩

/-- A page with directives and without errors comes from lines that are collected. -/
theorem reading_of_ofText {path text : Text} {page : Page} (paged : ofText path text = .ok page)
    (sound : page.errors = []) (something : page.directives ≠ []) : ∃ lines collected,
      Reading .fileStart 0 text lines ∧
        collect (Source.ofText path text) lines = .ok collected ∧
        page = ofCollected path collected := by
  by_cases blank : text.all Text.isBlank = true
  · simp only [ofText, blank, if_true] at paged
    cases paged
    exact absurd rfl something
  · exact reading_of_visible paged sound (by simpa using blank)

/-- The page of the bytes of a text is the page of the text. -/
theorem ofBytes_encode (path : FilePath) (text : Text) :
    ofBytes path (Text.Utf8.encode text) = ofText path.toText text := by
  simp only [ofBytes, Text.Utf8.decode_eq_ok_iff.mpr rfl]

/-- Bytes whose page has no error are the bytes of a text. -/
theorem encode_of_ofBytes {path : FilePath} {content : Bytes} {page : Page}
    (paged : ofBytes path content = .ok page) (sound : page.errors = []) :
    ∃ text, content = Text.Utf8.encode text ∧ ofText path.toText text = .ok page := by
  unfold ofBytes at paged
  split at paged
  · cases paged
    cases sound
  · next text decoded =>
    exact ⟨text, Text.Utf8.decode_eq_ok_iff.mp decoded, paged⟩

/-- A page is read exactly if it has no errors. A page that is read is first parsed and then refused
if it has an error. -/
theorem read_eq_ok_iff {path : FilePath} {content : Bytes} {page : Page} :
    read path content = .ok page ↔ ofBytes path content = .ok page ∧ page.errors = [] := by
  have soundIff (other : Page) : other.sound = .ok page ↔ other = page ∧ page.errors = [] := by
    unfold sound
    split
    · next none =>
      rw [Except.ok.injEq]
      constructor
      · rintro rfl
        exact ⟨rfl, none⟩
      · exact And.left
    · next error others some =>
      constructor
      · intro impossible
        cases impossible
      · rintro ⟨rfl, none⟩
        rw [none] at some
        cases some
  constructor
  · intro whole
    obtain ⟨other, paged, sound⟩ := bind_eq_ok_iff.mp whole
    obtain ⟨rfl, none⟩ := (soundIff other).mp sound
    exact ⟨paged, none⟩
  · rintro ⟨paged, none⟩
    exact bind_eq_ok_iff.mpr ⟨page, paged, (soundIff page).mpr ⟨rfl, none⟩⟩

/-- Every transaction of a page is one of its directives. -/
theorem directive_of_mem {page : Page} {entry : TransactionEntry}
    (member : entry ∈ page.transactions) : .transaction entry ∈ page.directives := by
  obtain ⟨directive, listed, same⟩ := List.mem_filterMap.mp member
  cases directive <;> cases same
  exact listed

/-- The transaction that starts at an offset is found if all transactions before it start
elsewhere. -/
theorem find_of_directives {page : Page} {before after : List Directive}
    {entry : TransactionEntry} (parts : page.directives = before ++ .transaction entry :: after)
    (others : ∀ other, .transaction other ∈ before →
      other.dateSpan.start ≠ entry.dateSpan.start) :
    page.find entry.dateSpan.start = .ok entry := by
  have found : page.transactions.find? (fun other =>
      decide (other.dateSpan.start = entry.dateSpan.start)) = some entry := by
    rw [Page.transactions, parts, List.filterMap_append, List.find?_append]
    have none : (before.filterMap Directive.transaction?).find? (fun other =>
        decide (other.dateSpan.start = entry.dateSpan.start)) = none := by
      rw [List.find?_eq_none]
      intro other member
      obtain ⟨directive, listed, same⟩ := List.mem_filterMap.mp member
      cases directive <;> cases same
      simpa using others other listed
    rw [none]
    simp [Directive.transaction?]
  simp only [Page.find, found]

end Page

end Daybook
