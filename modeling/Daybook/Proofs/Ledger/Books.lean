import Daybook.Proofs.Date.MonthFiles
import Daybook.Proofs.Editing.RootFile
import Daybook.Proofs.Ledger.Chart

/-!
# The books of a directory

Where only this library has written, a directory with the usual layout holds its books and nothing
else: a chart of accounts, a sheet for every month, and a root file that includes each of these
files once. The root file appears together with the first of them. What the files of the directory
are is known from the books alone.
-/
namespace Daybook

open Disk

/-- What the files of a directory hold: the names in the order in which the root file includes
them, the sheets of the months, and the chart of accounts. -/
structure Books where
  order : List Text
  sheets : Text → Sheet
  chart : Chart

namespace Date

variable (date : Date)

/-- The name of a month file takes a byte for each of its characters. -/
theorem width_monthFile : width (monthFile date) = 12 := by
  have basic : ∀ c ∈ monthFile date, c.toNat < 0x80 := by
    intro c member
    rcases mem_monthFile date member with digit | rfl | ending
    · rw [Lexeme.isDigit_iff] at digit
      omega
    · decide
    · have extension : ∀ c ∈ (".bean" : Text), c.toNat < 0x80 := forall_mem_of_all (by decide)
      exact extension c ending
  rw [width_eq_length_encode, Text.Utf8.length_encode_eq_iff.mpr basic, length_monthFile]

/-- The name of a month file is one line. -/
theorem isOneLine_monthFile : IsOneLine (monthFile date) := by
  intro c member
  rcases mem_monthFile date member with digit | rfl | ending
  · rw [Lexeme.isDigit_iff] at digit
    simp only [Text.isLineBreak, Bool.or_eq_false_iff, Bool.and_eq_false_iff, decide_eq_false_iff_not,
      beq_eq_false_iff_ne]
    omega
  · rfl
  · have quiet : ∀ c ∈ (".bean" : Text), Text.isLineBreak c = false :=
      forall_mem_of_all (by decide)
    exact quiet c ending

/-- A month file is neither the root file nor the accounts file. -/
theorem monthFile_apart : monthFile date ≠ ({} : Layout).rootFile ∧
    monthFile date ≠ ({} : Layout).accountsFile :=
  ⟨monthFile_ne date _ rfl, monthFile_ne date _ rfl⟩

end Date

namespace Layout

/-- The usual layout has an accounts file besides its root file. -/
theorem isPlain_usual : ({} : Layout).IsPlain := by decide +kernel

/-- The names of the usual layout are names of ledger files. -/
theorem extensionOf_usual :
    FilePath.extensionOf ({} : Layout).accountsFile = ({} : Layout).extension ∧
    IsOneLine ({} : Layout).accountsFile :=
  ⟨by decide +kernel, forall_mem_of_all (by decide)⟩

end Layout

/-! ## Files -/

namespace Books

/-- The text of a file that is included. -/
def text (books : Books) (name : Text) : Text :=
  if name = ({} : Layout).accountsFile then books.chart.text else (books.sheets name).text

/-- The files of a directory with the books. -/
def files (books : Books) (name : Text) : Option Text :=
  if name = ({} : Layout).rootFile then
    if books.order = [] then none else some (rootText books.order)
  else if name ∈ books.order then some (books.text name) else none

/-- Books without entries. -/
def blank : Books :=
  ⟨[], fun _ => [], []⟩

/-- A file is a period file if it is that of a month. -/
def IsMonth (name : Text) : Prop :=
  ∃ date, name = Date.monthFile date

/-- The books are in order: every file is that of a month or the accounts file, and is included
once; what is written in the sheets are plain transactions of the month, and the chart describes
accounts. -/
structure Sound (books : Books) : Prop where
  once : books.order.Nodup
  named : ∀ name ∈ books.order, name = ({} : Layout).accountsFile ∨ IsMonth name
  sheets : ∀ name, (name ∈ books.order ∧ IsMonth name) ∨ books.sheets name = []
  chart : ({} : Layout).accountsFile ∈ books.order ∨ books.chart = []
  plain : ∀ name, (books.sheets name).Plain
  dated : ∀ name slip, some slip ∈ books.sheets name → slip.date.monthFile = name
  lexical : books.chart.Lexical
  described : ∃ accounts, books.chart.Describes accounts

/-- Blank books are in order: they include no file, every sheet is blank, and the chart declares
nothing. -/
theorem sound_blank : blank.Sound where
  once := List.nodup_nil
  named := by simp [blank]
  sheets := fun _ => Or.inr rfl
  chart := Or.inr rfl
  plain := by simp [blank, Sheet.Plain]
  dated := by simp [blank]
  lexical := by simp [blank, Chart.Lexical]
  described := ⟨[], List.nodup_nil, rfl, by simp, by simp [blank]⟩

/-- Blank books are an empty directory. -/
theorem files_blank : blank.files = fun _ => none := by
  funext name
  have order : blank.order = [] := rfl
  rw [files, order, if_pos rfl, if_neg List.not_mem_nil, ite_self]

variable {books next : Books} {name : Text}

/-- The root file has the text that includes the files. -/
theorem files_root (books : Books) :
    (books.files ({} : Layout).rootFile).getD [] = rootText books.order := by
  by_cases none : books.order = []
  · simp [files, none, rootText]
  · simp [files, none]

/-- A file that is included has its text. -/
theorem files_of_mem (sound : books.Sound) (member : name ∈ books.order) :
    books.files name = some (books.text name) := by
  have other : name ≠ ({} : Layout).rootFile := by
    rcases sound.named name member with rfl | ⟨date, rfl⟩
    · exact Layout.isPlain_usual.apart
    · exact date.monthFile_apart.1
  rw [files, if_neg other, if_pos member]

/-- What is not included is no file. -/
theorem files_eq_some_iff (sound : books.Sound) (other : name ≠ ({} : Layout).rootFile)
    {text : Text} : books.files name = some text ↔ name ∈ books.order ∧ books.text name = text := by
  constructor
  · intro known
    rw [files, if_neg other] at known
    split at known
    · next member => exact ⟨member, Option.some.inj known⟩
    · cases known
  · rintro ⟨member, rfl⟩
    exact files_of_mem sound member

/-- A file that is not included has no text. -/
theorem text_eq_getD (sound : books.Sound) (other : name ≠ ({} : Layout).rootFile) :
    (books.files name).getD [] = books.text name := by
  rw [files, if_neg other]
  split
  · rfl
  · next absent =>
    rw [text]
    split
    · next accounts =>
      subst accounts
      rw [sound.chart.resolve_left absent]
      rfl
    · rw [(sound.sheets name).resolve_left fun both => absurd both.1 absent]
      rfl

/-- Where the same files are included no file appears. -/
theorem files_eq_none (order : next.order = books.order) (nothing : books.files name = none) :
    next.files name = none := by
  unfold files at nothing ⊢
  rw [order]
  by_cases root : name = ({} : Layout).rootFile
  · rw [if_pos root] at nothing ⊢
    by_cases none : books.order = []
    · rw [if_pos none]
    · rw [if_neg none] at nothing
      cases nothing
  · rw [if_neg root] at nothing ⊢
    by_cases member : name ∈ books.order
    · rw [if_pos member] at nothing
      cases nothing
    · rw [if_neg member]

/-- Where the text of one file has changed, and the file is included, that file and perhaps the root
file are other ones. -/
theorem files_filed (other : name ≠ ({} : Layout).rootFile)
    (order : next.order = enlist books.order name)
    (elsewhere : ∀ held, held ≠ name → next.text held = books.text held) :
    next.files = Function.update (Function.update books.files name (some (next.text name)))
      ({} : Layout).rootFile (some (rootText next.order)) := by
  have member : name ∈ next.order := by
    rw [order, mem_enlist]
    exact Or.inr rfl
  funext held
  by_cases root : held = ({} : Layout).rootFile
  · subst root
    rw [Function.update_self, files, if_pos rfl, if_neg (List.ne_nil_of_mem member)]
  · rw [Function.update_of_ne root]
    by_cases own : held = name
    · subst own
      rw [Function.update_self, files, if_neg root, if_pos member]
    · have same : held ∈ next.order ↔ held ∈ books.order := by
        rw [order, mem_enlist]
        simp [own]
      rw [Function.update_of_ne own, files, files, if_neg root, if_neg root, elsewhere held own]
      simp only [same]

/-- Where only the text of a file that is included has changed, that file is another one. -/
theorem files_rewritten (sound : books.Sound) (member : name ∈ books.order)
    (order : next.order = books.order)
    (elsewhere : ∀ held, held ≠ name → next.text held = books.text held) :
    next.files = Function.update books.files name (some (next.text name)) := by
  have other : name ≠ ({} : Layout).rootFile := by
    rcases sound.named name member with rfl | ⟨date, rfl⟩
    · exact Layout.isPlain_usual.apart
    · exact date.monthFile_apart.1
  have listed : next.order = enlist books.order name := by
    rw [order, enlist, if_pos member]
  have root : some (rootText next.order) = Function.update books.files name
      (some (next.text name)) ({} : Layout).rootFile := by
    rw [Function.update_of_ne other.symm, files, if_pos rfl, if_neg (List.ne_nil_of_mem member),
      order]
  rw [files_filed other listed elsewhere, root, Function.update_eq_self]

/-! ## Changes -/

/-- The books with another sheet of a month. -/
def file (books : Books) (name : Text) (sheet : Sheet) : Books :=
  { books with order := enlist books.order name, sheets := Function.update books.sheets name sheet }

/-- The books with another chart. -/
def register (books : Books) (chart : Chart) : Books :=
  { books with order := enlist books.order ({} : Layout).accountsFile, chart }

/-- Filing a sheet replaces the sheet of its name and no other. -/
theorem sheets_file (books : Books) (name : Text) (sheet : Sheet) :
    (books.file name sheet).sheets = Function.update books.sheets name sheet := rfl

/-- A sheet that is filed again changes nothing. -/
theorem file_self (member : name ∈ books.order) : books.file name (books.sheets name) = books := by
  rw [file, enlist, if_pos member, Function.update_eq_self]

/-- The text of a sheet that has been filed is that of the sheet. -/
theorem text_file (month : IsMonth name) (sheet : Sheet) :
    (books.file name sheet).text name = sheet.text := by
  obtain ⟨date, rfl⟩ := month
  rw [text, if_neg date.monthFile_apart.2, sheets_file, Function.update_self]

/-- The text of every other file stays as it was when a sheet is filed. -/
theorem text_file_of_ne {held : Text} (other : held ≠ name) (sheet : Sheet) :
    (books.file name sheet).text held = books.text held := by
  rw [text, text, sheets_file, Function.update_of_ne other]
  rfl

/-- After a chart has been registered, the text of the accounts file is the text of that chart. -/
theorem text_register (chart : Chart) :
    (books.register chart).text ({} : Layout).accountsFile = chart.text := by
  rw [text, if_pos rfl, register]

/-- Registering a chart leaves the text of the sheets and of the root file as it was. -/
theorem text_register_of_ne {held : Text} (other : held ≠ ({} : Layout).accountsFile)
    (chart : Chart) : (books.register chart).text held = books.text held := by
  rw [text, text, if_neg other, if_neg other, register]

/-- Where an account is described there is an accounts file. -/
theorem Sound.accountsFile_mem (sound : books.Sound) {listed : List Account}
    (describes : books.chart.Describes listed) (known : name ∈ listed.map Account.name) :
    ({} : Layout).accountsFile ∈ books.order := by
  refine sound.chart.resolve_right fun none => ?_
  have named := describes.mem_names_iff.mpr known
  rw [none] at named
  cases named

/-- Books stay sound when a sheet of plain transactions of its month is filed. Of the other sheets
nothing changes, and the name is on the list now if it was not. -/
theorem Sound.file (sound : books.Sound) (month : IsMonth name) {sheet : Sheet}
    (plain : sheet.Plain) (dated : ∀ slip, some slip ∈ sheet → slip.date.monthFile = name) :
    (books.file name sheet).Sound where
  once := nodup_enlist sound.once name
  named := by
    intro held member
    rcases mem_enlist.mp member with before | rfl
    · exact sound.named held before
    · exact Or.inr month
  sheets := by
    intro held
    by_cases own : held = name
    · exact Or.inl ⟨mem_enlist.mpr (Or.inr own), own ▸ month⟩
    · rw [sheets_file, Function.update_of_ne own]
      exact (sound.sheets held).imp_left fun both => ⟨mem_enlist.mpr (Or.inl both.1), both.2⟩
  chart := sound.chart.imp_left fun member => mem_enlist.mpr (Or.inl member)
  plain := by
    intro held
    by_cases own : held = name
    · subst own
      rwa [sheets_file, Function.update_self]
    · rw [sheets_file, Function.update_of_ne own]
      exact sound.plain held
  dated := by
    intro held
    by_cases own : held = name
    · subst own
      rwa [sheets_file, Function.update_self]
    · rw [sheets_file, Function.update_of_ne own]
      exact sound.dated held
  lexical := sound.lexical
  described := sound.described

/-- Books stay sound when a chart of words is registered that describes accounts. -/
theorem Sound.register (sound : books.Sound) {chart : Chart} (lexical : chart.Lexical)
    {accounts : List Account} (describes : chart.Describes accounts) :
    (books.register chart).Sound where
  once := nodup_enlist sound.once _
  named := by
    intro held member
    rcases mem_enlist.mp member with before | rfl
    · exact sound.named held before
    · exact Or.inl rfl
  sheets := fun held =>
    (sound.sheets held).imp_left fun both => ⟨mem_enlist.mpr (Or.inl both.1), both.2⟩
  chart := Or.inl (mem_enlist.mpr (Or.inr rfl))
  plain := sound.plain
  dated := sound.dated
  lexical := lexical
  described := ⟨accounts, describes⟩

/-- A further slip in the sheet of its month. -/
def enter (books : Books) (slip : Slip) : Books :=
  books.file slip.date.monthFile (books.sheets slip.date.monthFile ++ [some slip])

/-- Entering a plain slip keeps the books sound. The name of its file is enlisted only if it is new,
and the sheet grows by a slip whose entry can be read back. -/
theorem Sound.enter (sound : books.Sound) {slip : Slip} (plain : slip.transaction.Plain) :
    (books.enter slip).Sound := by
  refine sound.file ⟨slip.date, rfl⟩ (fun other member => ?_) fun other member => ?_
  · rcases List.mem_append.mp member with before | own
    · exact sound.plain _ other before
    · rwa [Option.some.inj (List.mem_singleton.mp own)]
  · rcases List.mem_append.mp member with before | own
    · exact sound.dated _ other before
    · rw [Option.some.inj (List.mem_singleton.mp own)]

/-- The slots of a sheet with another one in place of a slip. The slots around it are those of a
sound sheet, and of the new one it is asked. -/
theorem Sound.replace (sound : books.Sound) (month : IsMonth name) {before after : Sheet}
    {slip : Slip} (split : books.sheets name = before ++ some slip :: after) {slot : Option Slip}
    (plain : ∀ other ∈ slot, other.transaction.Plain)
    (dated : ∀ other ∈ slot, other.date.monthFile = name) :
    (books.file name (before ++ slot :: after)).Sound := by
  have old {other : Slip} (member : some other ∈ before ∨ some other ∈ after) :
      some other ∈ books.sheets name := by
    rw [split]
    rcases member with front | back
    · exact List.mem_append_left _ front
    · exact List.mem_append_right _ (List.mem_cons_of_mem _ back)
  refine sound.file month (fun other member => ?_) fun other member => ?_
  · rcases List.mem_append.mp member with front | rest
    · exact sound.plain name other (old (Or.inl front))
    · rcases List.mem_cons.mp rest with own | back
      · exact plain other own.symm
      · exact sound.plain name other (old (Or.inr back))
  · rcases List.mem_append.mp member with front | rest
    · exact sound.dated name other (old (Or.inl front))
    · rcases List.mem_cons.mp rest with own | back
      · exact dated other own.symm
      · exact sound.dated name other (old (Or.inr back))

end Books

/-! ## Keeping books -/

/-- The directory of a ledger with the usual layout holds exactly the given books, and the files that
are included fit into it. -/
structure Ledger.Keeps (ledger : Ledger) (disk : Disk) (home : Location) (books : Books) : Prop where
  usual : ledger.layout = {}
  houses : disk.Houses ledger.directory home books.files
  sound : books.Sound
  fits : ∀ name ∈ books.order, ledger.directory.Fits name

namespace FilePath

variable {directory : FilePath} {name : Text}

/-- If the accounts file fits into a directory, then the month files do. -/
theorem Fits.month (fits : directory.Fits ({} : Layout).accountsFile) (date : Date) :
    directory.Fits date.monthFile := by
  refine fits.mono date.isPlain_monthFile (Date.not_mem_monthFile date rfl (by decide)) ?_
  rw [date.width_monthFile]
  decide

/-- If a month file fits into a directory, then the root file does. -/
theorem Fits.root {date : Date} (fits : directory.Fits date.monthFile) :
    directory.Fits ({} : Layout).rootFile := by
  refine fits.mono Layout.isPlain_usual.root (by decide) ?_
  rw [date.width_monthFile]
  decide

end FilePath

namespace Ledger.Keeps

variable {ledger : Ledger} {disk after : Disk} {home : Location} {books : Books} {name : Text}

/-- Where nothing has changed the same books are kept. -/
theorem same (keeps : ledger.Keeps disk home books) (same : Same disk after)
    (proper : after.Proper) : ledger.Keeps after home books :=
  ⟨keeps.usual, keeps.houses.same same proper, keeps.sound, keeps.fits⟩

/-- Text is appended to a file that is then included: the books with that text are kept. The file is
appended to first, and the root file lists it then if it did not before. -/
theorem append (keeps : ledger.Keeps disk home books) {next : Books} {more : Text}
    (fits : ledger.directory.Fits name) (fitsRoot : ledger.directory.Fits ({} : Layout).rootFile)
    (other : name ≠ ({} : Layout).rootFile) (order : next.order = enlist books.order name)
    (grown : next.text name = books.text name ++ more)
    (elsewhere : ∀ held, held ≠ name → next.text held = books.text held) (sound : next.Sound) :
    ∃ middle added after,
      (appendBytes (ledger.directory.below name) (Text.Utf8.encode more)).outcome disk =
        (.ok (), middle) ∧
      (ensureIncluded (ledger.directory.below ({} : Layout).rootFile) name).outcome middle =
        (.ok added, after) ∧
      ledger.Keeps after home next := by
  obtain ⟨middle, appended, housed⟩ := keeps.houses.append fits more
  rw [Books.text_eq_getD keeps.sound other, ← grown] at housed
  have known : (Function.update books.files name (some (next.text name))
      ({} : Layout).rootFile).getD [] = rootText books.order := by
    rw [Function.update_of_ne other.symm, Books.files_root]
  have plain : ∀ held ∈ books.order, IsOneLine held := by
    intro held member
    rcases keeps.sound.named held member with rfl | ⟨date, rfl⟩
    · exact Layout.extensionOf_usual.2
    · exact date.isOneLine_monthFile
  obtain ⟨added, after, included, last⟩ := housed.ensureIncluded fitsRoot known plain name
  rw [← order, ← Books.files_filed other order elsewhere] at last
  refine ⟨middle, added, after, appended, included, keeps.usual, last, sound, fun held member => ?_⟩
  rw [order, mem_enlist] at member
  rcases member with before | rfl
  · exact keeps.fits held before
  · exact fits

end Ledger.Keeps

end Daybook
