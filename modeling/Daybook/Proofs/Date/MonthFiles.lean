import Daybook.Entry
import Daybook.Proofs.Disk.Names
import Daybook.Proofs.Lexeme.Words
import Daybook.Proofs.Result

/-!
# Month files

With the usual layout every date belongs to the file of its month, whose name is the first part
of the date in the ISO form with the extension of ledger files. The template of the usual layout
is read and evaluated here once and for all, for every date.
-/
namespace Daybook

open Template

/-- The name of the file of the month of a date. -/
def Date.monthFile (date : Date) : Text :=
  Text.padLeft '0' 4 (Text.decimal date.year) ++ '-' ::
    (Text.padLeft '0' 2 (Text.decimal date.month) ++ ".bean")

namespace Template

/-! ## The template -/

/-- The output of a number of the date, with at least as many digits as a pattern asks for. -/
def numberOutput (pattern name : Text) : Piece :=
  .output [.filter "format" (.text pattern) [.member (.variable "date") name] []]

/-- The parts of the usual template. -/
def monthPieces : List Piece :=
  [.literal [], numberOutput "%04d" "year", .literal "-", numberOutput "%02d" "month",
    .literal ".bean"]

/-- The parts are those of the usual template. -/
def areMonthPieces : List Piece → Bool
  | [.literal [],
      .output [.filter format (.text wide) [.member (.variable date) year] []],
      .literal hyphen,
      .output [.filter again (.text narrow) [.member (.variable same) month] []],
      .literal ending] =>
    format = "format" ∧ wide = "%04d" ∧ date = "date" ∧ year = "year" ∧ hyphen = "-" ∧
      again = "format" ∧ narrow = "%02d" ∧ same = "date" ∧ month = "month" ∧ ending = ".bean"
  | _ => false

/-- The test for the default template recognizes no other list of pieces. It is what lets a
rendering be replaced by the closed form of the month file name. -/
theorem eq_monthPieces {pieces : List Piece} (are : areMonthPieces pieces = true) :
    pieces = monthPieces := by
  unfold areMonthPieces at are
  split at are
  · simp only [decide_eq_true_eq] at are
    obtain ⟨rfl, rfl, rfl, rfl, rfl, rfl, rfl, rfl, rfl, rfl⟩ := are
    rfl
  · cases are

/-- The usual template is read as its parts. -/
theorem ofText_periodFile : Piece.ofText ({} : Layout).periodFile = .ok monthPieces := by
  have are : (Piece.ofText ({} : Layout).periodFile).toOption.any areMonthPieces = true := by
    decide +kernel
  obtain ⟨pieces, parsed, are⟩ := exists_of_any are
  exact parsed.trans (congrArg Except.ok (eq_monthPieces are))

/-! ## Rendering -/

/-- A natural number in a field that zeros fill. -/
theorem Style.whole_apart (width n : Nat) :
    Style.whole { fill := '0', place := .apart, width } 'd' n =
    Text.padLeft '0' width (Text.decimal n) := by
  have positive : ¬ (n : Int) < 0 := by omega
  simp [Style.whole, Style.digits, Style.base, Style.field, Style.signFor, Text.padLeft,
    Text.decimal, positive]

/-- A pattern of one place for a natural number of at least so many digits. -/
theorem Pattern.fill_digits (n : Nat) {digit : Char} (known : digit = '2' ∨ digit = '4') :
    Pattern.fill ['%', '0', digit, 'd'] (.series .tuple [.whole n]) =
      .ok (Text.padLeft '0' (digit.toNat - 48) (Text.decimal n)) := by
  have number : Pattern.decimal 'd' (.whole n) = .ok (n : Int) := rfl
  have two : Nat.ofDigitChars 10 ['2'] 0 = 2 := rfl
  have four : Nat.ofDigitChars 10 ['4'] 0 = 4 := rfl
  rw [← Style.whole_apart]
  rcases known with rfl | rfl
  · simp [Pattern.fill, Pattern.fillFrom, Pattern.keyed, Pattern.marks, Pattern.count,
      Pattern.ofWidth, Pattern.write, bind, Except.bind, pure, Except.pure, Except.map, number, two]
  · simp [Pattern.fill, Pattern.fillFrom, Pattern.keyed, Pattern.marks, Pattern.count,
      Pattern.ofWidth, Pattern.write, bind, Except.bind, pure, Except.pure, Except.map, number, four]

/-- The output of a number of the date is that number with its zeros. The output is a filter that
formats one member of the date, and it is evaluated from the inside: the variable, its member, the
filter, and what is written of the value. -/
theorem render_numberOutput (date : Date) {digit : Char} (known : digit = '2' ∨ digit = '4')
    {name : Text} {n : Nat} (part : (Datum.date date).member name = .ok (.whole n)) :
    (numberOutput ['%', '0', digit, 'd'] name).render (Scope.initial date) =
      .ok (Text.padLeft '0' (digit.toNat - 48) (Text.decimal n), Scope.initial date) := by
  have listed : Filter.names.contains ("format" : Text) = true := by decide +kernel
  have value : (Scope.initial date).value "date" = .date date := rfl
  have made : Filter.apply "format" (.text ['%', '0', digit, 'd']) ⟨[.whole n], [], []⟩ =
      .ok (.text (Text.padLeft '0' (digit.toNat - 48) (Text.decimal n))) :=
    congrArg (Except.map Datum.text) (Pattern.fill_digits n known)
  have evaluated : (Term.filter "format" (.text ['%', '0', digit, 'd'])
      [.member (.variable "date") name] []).evaluate (Scope.initial date) =
        .ok (.text (Text.padLeft '0' (digit.toNat - 48) (Text.decimal n))) := by
    rw [Term.evaluate]
    simp only [Term.evaluateAll, Term.evaluate, value, part, bind, Except.bind, pure, Except.pure,
      listed, if_true]
    exact made
  rw [numberOutput, Piece.render, Term.evaluateAll, evaluated]
  simp only [bind, Except.bind, Term.evaluateAll, pure, Except.pure]
  rw [List.mapM_cons, List.mapM_nil]
  simp only [bind, Except.bind, pure, Except.pure, Datum.written, Datum.print, List.flatten_cons,
    List.flatten_nil, List.append_nil]

/-- Pieces are rendered one after the other. -/
theorem renderAll_cons {scope next last : Scope} {piece : Piece} {rest : List Piece}
    {text more : Text} (first : piece.render scope = .ok (text, next))
    (others : Piece.renderAll next rest = .ok (more, last)) :
    Piece.renderAll scope (piece :: rest) = .ok (text ++ more, last) := by
  rw [Piece.renderAll, first]
  simp only [bind, Except.bind, others]
  rfl

/-- Literal text renders to itself and leaves the scope as it was. -/
theorem render_literal (scope : Scope) (text : Text) :
    (Piece.literal text).render scope = .ok (text, scope) := by
  rw [Piece.render]

/-- The usual template gives the name of the file of the month. -/
theorem render_periodFile (date : Date) :
    render ({} : Layout).periodFile date = .ok (Date.monthFile date) := by
  have known : Piece.areKnown true monthPieces = true := by decide +kernel
  have year := render_numberOutput date (Or.inr rfl)
    (show (Datum.date date).member "year" = .ok (.whole date.year) from rfl)
  have month := render_numberOutput date (Or.inl rfl)
    (show (Datum.date date).member "month" = .ok (.whole date.month) from rfl)
  have ended : Piece.renderAll (Scope.initial date) [] = .ok ([], Scope.initial date) := by
    rw [Piece.renderAll]
  have parts := renderAll_cons (render_literal _ []) (renderAll_cons year (renderAll_cons
    (render_literal _ "-") (renderAll_cons month (renderAll_cons (render_literal _ ".bean") ended))))
  have whole : Piece.renderAll (Scope.initial date) monthPieces =
      .ok (Date.monthFile date, Scope.initial date) := parts
  rw [render, ofText_periodFile]
  simp only [bind, Except.bind, known, if_true, whole]
  rfl

end Template

/-! ## The names -/

namespace Date

variable (date : Date)

/-- The name of a month file is twelve characters long. -/
theorem length_monthFile : (monthFile date).length = 12 := by
  obtain ⟨⟨_, year⟩, ⟨_, month⟩, _⟩ := date.valid
  simp only [monthFile, List.length_append, List.length_cons,
    Lexeme.length_padLeft (Nat.lt_of_le_of_lt year (by decide : 9999 < 10 ^ 4)) (by decide),
    Lexeme.length_padLeft (Nat.lt_of_le_of_lt month (by decide : 12 < 10 ^ 2)) (by decide)]
  rfl

/-- The characters of the name of a month file: digits, and those between and behind them. -/
theorem mem_monthFile {c : Char} (member : c ∈ monthFile date) :
    Lexeme.isDigit c = true ∨ c = '-' ∨ c ∈ (".bean" : Text) := by
  simp only [monthFile, List.mem_append, List.mem_cons] at member
  rcases member with year | rfl | month | ending
  · exact Or.inl (Lexeme.isDigit_padLeft 4 date.year c year)
  · exact Or.inr (Or.inl rfl)
  · exact Or.inl (Lexeme.isDigit_padLeft 2 date.month c month)
  · exact Or.inr (Or.inr ending)

/-- The name of a month file begins with a digit. -/
theorem monthFile_cons : ∃ c inner, monthFile date = c :: inner ∧ Lexeme.isDigit c = true := by
  obtain ⟨c, inner, spelled⟩ : ∃ c inner, Text.padLeft '0' 4 (Text.decimal date.year) = c :: inner :=
    List.exists_cons_of_length_pos (Nat.lt_of_lt_of_le (by decide)
      (Lexeme.le_length_padLeft 4 date.year))
  have digit := Lexeme.isDigit_padLeft 4 date.year c (by rw [spelled]; exact List.mem_cons_self)
  exact ⟨c, _, by rw [monthFile, spelled, List.cons_append], digit⟩

/-- The name of a month file ends with the extension of ledger files. -/
theorem monthFile_eq : ∃ front, monthFile date = front ++ ".bean" ∧ front ≠ [] := by
  obtain ⟨c, inner, spelled, _⟩ := monthFile_cons date
  refine ⟨Text.padLeft '0' 4 (Text.decimal date.year) ++ '-' ::
    Text.padLeft '0' 2 (Text.decimal date.month), ?_, by simp⟩
  rw [monthFile, List.append_assoc, List.cons_append]

/-- A character that is neither a digit nor one of those that are always there is not in the name
of a month file. -/
theorem not_mem_monthFile {c : Char} (digit : Lexeme.isDigit c = false)
    (other : c ∉ ('-' :: ".bean" : Text)) : c ∉ monthFile date := by
  intro member
  rcases mem_monthFile date member with isDigit | rest
  · rw [digit] at isDigit
    cases isDigit
  · exact other (List.mem_cons.mpr rest)

/-- A name that begins with no digit is not that of a month file. -/
theorem monthFile_ne {c : Char} (inner : Text) (digit : Lexeme.isDigit c = false) :
    monthFile date ≠ c :: inner := by
  obtain ⟨first, rest, spelled, isDigit⟩ := monthFile_cons date
  rw [spelled]
  rintro same
  rw [(List.cons.inj same).1, digit] at isDigit
  cases isDigit

/-- The name of a month file has no blanks. -/
theorem trim_monthFile : Text.trim (monthFile date) = monthFile date := by
  refine Text.trim_of_solid fun c member => ?_
  rcases mem_monthFile date member with digit | rfl | ending
  · rw [Lexeme.isDigit_iff] at digit
    rw [Bool.eq_false_iff]
    intro blank
    have outside := Text.isBlank_outside blank
    omega
  · rfl
  · have solid : ∀ c ∈ (".bean" : Text), Text.isBlank c = false :=
      forall_mem_of_all (by decide)
    exact solid c ending

end Date

namespace Date

variable (date : Date)

/-- The name of a month file is a plain name. -/
theorem isPlain_monthFile : FilePath.IsPlain (monthFile date) := by
  obtain ⟨front, spelled, _⟩ := monthFile_eq date
  refine FilePath.IsName.isPlain ⟨?_, monthFile_ne date _ rfl,
    not_mem_monthFile date rfl (by decide)⟩ (monthFile_ne date _ rfl) ?_
  · rw [← List.length_pos_iff, length_monthFile]
    decide
  · rw [spelled, Bool.eq_false_iff, ne_eq, List.isSuffixOf_iff_suffix]
    rintro ⟨more, same⟩
    have last := congrArg List.getLast? same
    have ending : (Disk.temporaryEnding).getLast? = some 'p' := by decide
    have bean : (".bean" : Text).getLast? = some 'n' := by decide
    rw [List.getLast?_append, List.getLast?_append, ending, bean] at last
    cases last

/-- Month files are ledger files. -/
theorem extensionOf_monthFile :
    FilePath.extensionOf (monthFile date) = ({} : Layout).extension := by
  obtain ⟨front, spelled, before⟩ := monthFile_eq date
  rw [spelled]
  exact FilePath.extensionOf_append before (by decide) (by decide)

/-- Every date belongs to the file of its month. -/
theorem fileName_eq : ({} : Layout).fileName date = .ok (monthFile date) := by
  obtain ⟨front, spelled, before⟩ := monthFile_eq date
  have ending : ({} : Layout).extension.isSuffixOf (monthFile date) = true := by
    rw [List.isSuffixOf_iff_suffix, spelled]
    exact List.suffix_append _ _
  have extension : monthFile date ≠ ({} : Layout).extension := monthFile_ne date _ rfl
  have slash : '/' ∉ monthFile date := not_mem_monthFile date rfl (by decide)
  have solidus : '\\' ∉ monthFile date := not_mem_monthFile date rfl (by decide)
  have root : monthFile date ≠ ({} : Layout).rootFile := monthFile_ne date _ rfl
  have accounts : monthFile date ≠ ({} : Layout).accountsFile := monthFile_ne date _ rfl
  rw [Layout.fileName, Template.render_periodFile]
  simp only [Except.mapError, bind, Except.bind, trim_monthFile, ending, Bool.not_true,
    Bool.false_eq_true, extension, slash, solidus, root, accounts, or_self, if_false]

end Date

end Daybook
