import Daybook.Ledger
import Daybook.Proofs.Disk.LedgerFiles
import Daybook.Proofs.Disk.Names

/-!
# What counts as a ledger file

Three parts of a ledger tell ledger files from others: the name that a transaction is stored
under, the listing of a directory, and the check of an id. The first one looks at how the name
ends, the others at the extension of the name. They agree for the names that are chosen exactly
if the extension of the layout is one that names can have; and ids are read back as long as
names have no colon.
-/
namespace Daybook

/-! ## Trees -/

/-- The places of a disk make up a tree: their names are names, none of them leads up, and what is
listed stands in a folder. -/
structure Disk.IsTree (disk : Disk) : Prop where
  named : ∀ place ∈ disk.entries.map Prod.fst, ∀ name ∈ place,
    FilePath.IsName name ∧ name ≠ ['.', '.']
  current : ∀ name ∈ disk.current, FilePath.IsName name ∧ name ≠ ['.', '.']
  within : ∀ place ∈ disk.entries.map Prod.fst, disk.entry? place.dropLast = some .folder

instance (disk : Disk) : Decidable disk.IsTree :=
  decidable_of_iff ((∀ place ∈ disk.entries.map Prod.fst, ∀ name ∈ place,
      FilePath.IsName name ∧ name ≠ ['.', '.']) ∧
    (∀ name ∈ disk.current, FilePath.IsName name ∧ name ≠ ['.', '.']) ∧
    ∀ place ∈ disk.entries.map Prod.fst, disk.entry? place.dropLast = some .folder)
    ⟨fun ⟨named, current, within⟩ => ⟨named, current, within⟩,
      fun tree => ⟨tree.named, tree.current, tree.within⟩⟩

namespace Disk.IsTree

variable {disk : Disk} (tree : disk.IsTree) (proper : disk.Proper) {place : Location}
include tree proper

/-- What stands somewhere has a name. -/
theorem names (something : disk.entry? place ≠ none) :
    ∀ name ∈ place, FilePath.IsName name ∧ name ≠ ['.', '.'] := by
  by_cases front : place.isPrefixOf disk.current = true
  · intro name member
    exact tree.current name ((List.isPrefixOf_iff_prefix.mp front).subset member)
  · exact tree.named place (proper.listed_iff.mpr ⟨front, something⟩)

/-- What stands somewhere stands in a folder. -/
theorem folder (something : disk.entry? place ≠ none) :
    disk.entry? place.dropLast = some .folder := by
  by_cases front : place.isPrefixOf disk.current = true
  · have above := (List.dropLast_prefix place).trans (List.isPrefixOf_iff_prefix.mp front)
    rw [ entry?, if_pos (List.isPrefixOf_iff_prefix.mpr above)]
  · exact tree.within place (proper.listed_iff.mpr ⟨front, something⟩)

/-- No ledger file of a directory leads up. -/
theorem descends (layout : Layout) (directory : FilePath) : layout.Descends disk directory := by
  rintro home leads name _ (file | something) rfl
  · obtain ⟨place, content, led, held⟩ := holdsFile_eq_true_iff.mp file
    have walked := walk_of_place led
    rw [FilePath.below_names, FilePath.below_anchor, walk_append, walk_of_place leads] at walked
    simp only [Except.bind, walk, if_true] at walked
    split at walked
    · next folder =>
      split at walked
      · cases walked
      · cases walked
        rw [tree.folder proper (by rw [folder]; simp)] at held
        cases held
    · cases walked
    · cases walked
  · exact (tree.names proper something _ (by simp)).2 rfl

end Disk.IsTree

/-! ## Ids of a directory -/

namespace FilePath

variable {path directory : FilePath} {name : Text}

/-- What a path is written with, besides dots and slashes, are the characters of its names. -/
theorem mem_toText_iff {c : Char} (slash : c ≠ '/') (dot : c ≠ '.') :
    c ∈ path.toText ↔ ∃ name ∈ path.names, c ∈ name := by
  have joined := Text.mem_intercalate_iff slash
  unfold toText
  split
  · split
    · next none => simp [none, dot]
    · exact joined _
  · simp [joined, slash]
  · simp [joined, slash]

/-- A written path is not empty. -/
theorem toText_ne_nil (normal : path.IsNormal) : path.toText ≠ [] := by
  unfold toText
  split
  · split
    · decide
    · next some =>
      cases names : path.names with
      | nil => exact absurd names some
      | cons first others =>
        rw [intercalate_cons]
        exact List.append_ne_nil_of_left_ne_nil (normal first (by simp [names])).something _
  · exact List.cons_ne_nil _ _
  · exact List.cons_ne_nil _ _

/-- Names are followed one after the other. -/
theorem follow_append (start : Location) (names more : List Text) :
    Location.follow start (names ++ more) = Location.follow (Location.follow start names) more := by
  induction names generalizing start with
  | nil => rfl
  | cons first names ih =>
    simp only [List.cons_append, Location.follow]
    split <;> exact ih _

/-- A name in a directory resolves to the name below what the directory resolves to. -/
theorem resolve_below (down : name ≠ ['.', '.']) (current : Location) :
    (directory.below name).resolve current = directory.resolve current ++ [name] := by
  have last (place : Location) : Location.follow place [name] = place ++ [name] := by
    simp only [Location.follow, if_neg down]
  obtain ⟨anchor, names⟩ := directory
  cases anchor <;> simp only [resolve, below, follow_append, last]

end FilePath

/-- The id of an offset in a file of a directory is accepted, exactly if the file counts as a ledger
file and the id can be read back. -/
theorem Ledger.checkId_eq_ok_iff {ledger : Ledger} (normal : ledger.directory.IsNormal)
    {name : Text} (named : FilePath.IsName name) (down : name ≠ ['.', '.'])
    (usable : (ledger.directory.below name).isUsable = true) (offset : Nat) (disk : Disk) :
    ledger.checkId (Identifier.encode ⟨(ledger.directory.below name).toText, offset⟩) disk =
        .ok (ledger.directory.below name) ↔
      FilePath.extensionOf name = ledger.layout.extension ∧ name ≠ ledger.layout.rootFile ∧
        ':' ∉ (ledger.directory.below name).toText ∧
        (Text.decimal offset).length ≤ Text.mostDigits := by
  have below := normal.below named
  have directory : ledger.directory.isUsable = true := by
    rw [FilePath.isUsable_below, Bool.and_eq_true] at usable
    exact usable.1
  have led : placeOf (ledger.directory.below name) disk =
      .ok (ledger.directory.resolve disk.current ++ [name]) := by
    rw [placeOf, if_pos usable, FilePath.resolve_below down]
  have leads : placeOf ledger.directory disk = .ok (ledger.directory.resolve disk.current) := by
    rw [placeOf, if_pos directory]
  unfold Ledger.checkId
  simp only [bind_eq_ok_iff, Identifier.decode_encode_iff (FilePath.toText_ne_nil below)]
  constructor
  · rintro ⟨_, ⟨colon, short, rfl⟩, _, led, _, leads, checked⟩
    rw [FilePath.ofText_toText below] at checked
    split at checked
    · cases checked
    · next passed =>
      simp only [not_or, not_not, FilePath.below_extension, FilePath.below_name] at passed
      exact ⟨passed.2.1, passed.2.2, colon, short⟩
  · rintro ⟨extension, other, colon, short⟩
    refine ⟨_, ⟨colon, short, rfl⟩, ?_⟩
    rw [FilePath.ofText_toText below]
    refine ⟨_, led, _, leads, ?_⟩
    rw [List.dropLast_concat, if_neg]
    simp [extension, other]

/-! ## Chosen names -/

/-- An extension that names can have: a dot, and something after it that has no dot. -/
def IsExtension (extension : Text) : Prop :=
  ∃ rest, extension = '.' :: rest ∧ rest ≠ [] ∧ '.' ∉ rest

/-- The end of a name is its extension, exactly if names can have it or there is none. -/
theorem FilePath.extensionOf_eq_iff {name extension : Text} (ends : extension <:+ name)
    (apart : name ≠ extension) : extensionOf name = extension ↔
      IsExtension extension ∨ extension = [] ∧ extensionOf name = [] := by
  constructor
  · intro same
    rcases extensionOf_eq_nil_or name with none | ⟨rest, spelled, something, plain⟩
    · exact Or.inr ⟨same ▸ none, none⟩
    · exact Or.inl ⟨rest, same ▸ spelled, something, plain⟩
  · rintro (⟨rest, rfl, something, plain⟩ | ⟨rfl, none⟩)
    · obtain ⟨front, rfl⟩ := ends
      have before : front ≠ [] := by
        rintro rfl
        exact apart rfl
      exact extensionOf_append before something plain
    · exact none

/-- What a chosen name is like. -/
theorem Layout.of_fileName {layout : Layout} {date : Date} {name : Text}
    (chosen : layout.fileName date = .ok name) : layout.extension <:+ name ∧
      name ≠ layout.extension ∧ '/' ∉ name ∧ name ≠ layout.rootFile := by
  unfold Layout.fileName at chosen
  obtain ⟨rendered, _, checked⟩ := bind_eq_ok_iff.mp chosen
  dsimp only at checked
  split at checked
  · cases checked
  · next passed =>
    cases checked
    simp only [not_or, Bool.not_eq_true', Bool.not_eq_false, List.isSuffixOf_iff_suffix] at passed
    exact ⟨passed.1, passed.2.1, passed.2.2.1, passed.2.2.2.2.1⟩

/-- A file that is stored under a chosen name is listed exactly if the extension of the layout is
one that names can have, or if neither the layout nor the name has one. Then the id of an offset in
it is accepted and read back exactly if the name has no colon and the offset is not endless. The
name was checked to end with the extension of the layout, while a listing asks for the part from the
last dot on. The two agree if the extension is such a part. -/
theorem Ledger.fileName_recognized_iff {ledger : Ledger} {written : Text}
    (opened : ledger.directory = FilePath.ofText written)
    (usable : ledger.directory.isUsable = true) (colonless : ':' ∉ ledger.directory.toText)
    {date : Date} {name : Text} (chosen : ledger.layout.fileName date = .ok name)
    (here : name ≠ ['.']) (down : name ≠ ['.', '.']) (whole : '\x00' ∉ name) :
    (∀ disk : Disk, disk.Proper → disk.IsTree → ledger.layout.Listable disk ledger.directory →
      disk.holdsFile (ledger.directory.child name) = .ok true →
      ((∃ paths, ledgerFiles ledger.directory ledger.layout disk = .ok paths ∧
          ledger.directory.child name ∈ paths) ↔
        IsExtension ledger.layout.extension ∨
          ledger.layout.extension = [] ∧ FilePath.extensionOf name = [])) ∧
    ∀ (disk : Disk) (offset : Nat),
      (ledger.checkId (Identifier.encode ⟨(ledger.directory.child name).toText, offset⟩) disk =
          .ok (ledger.directory.child name) ∧
        Identifier.decode (Identifier.encode ⟨(ledger.directory.child name).toText, offset⟩) =
          .ok ⟨(ledger.directory.child name).toText, offset⟩) ↔
        (IsExtension ledger.layout.extension ∨
          ledger.layout.extension = [] ∧ FilePath.extensionOf name = []) ∧
        ':' ∉ name ∧ (Text.decimal offset).length ≤ Text.mostDigits := by
  obtain ⟨ends, apart, quiet, other⟩ := Layout.of_fileName chosen
  have something : name ≠ [] := by
    rintro rfl
    exact apart (List.suffix_nil.mp ends).symm
  have named : FilePath.IsName name := ⟨something, here, quiet⟩
  have normal : ledger.directory.IsNormal := opened ▸ FilePath.isNormal_ofText written
  rw [named.child, ← FilePath.extensionOf_eq_iff ends apart]
  constructor
  · intro disk proper tree listable file
    obtain ⟨names, _, members, found⟩ :=
      Disk.exists_ledgerFiles proper (tree.descends proper _ _) listable
    constructor
    · rintro ⟨paths, alsoFound, inside⟩
      rw [found] at alsoFound
      cases alsoFound
      obtain ⟨one, member, same⟩ := List.mem_map.mp inside
      have same := congrArg FilePath.name same
      rw [FilePath.below_name, FilePath.below_name] at same
      exact same ▸ ((members one).mp member).extension
    · intro extension
      exact ⟨_, found, List.mem_map_of_mem ((members name).mpr ⟨extension, other, file⟩)⟩
  · intro disk offset
    have readable : (ledger.directory.below name).isUsable = true := by
      rw [FilePath.isUsable_below, usable]
      simpa using whole
    have colon : ':' ∉ (ledger.directory.below name).toText ↔ ':' ∉ name := by
      rw [FilePath.mem_toText_iff (by decide) (by decide)] at colonless ⊢
      simp only [FilePath.below_names, List.mem_append, List.mem_singleton, not_exists, not_and]
        at colonless ⊢
      constructor
      · exact fun free => free name (Or.inr rfl)
      · rintro free one (inside | rfl)
        · exact colonless one inside
        · exact free
    rw [Ledger.checkId_eq_ok_iff normal named down readable,
      Identifier.decode_encode_iff (FilePath.toText_ne_nil (normal.below named)), colon]
    tauto

/-- A ledger with a file for every year, whose files have an extension of their own. -/
def Ledger.yearly : Ledger where
  directory := FilePath.ofText "data"
  layout := { extension := ".ledger", periodFile := "\x7b\x7b date.year \x7d\x7d.ledger" }

/-- A disk with a file of that ledger. -/
def Disk.withYear : Disk where
  current := []
  entries := [(["data"], .folder), (["data", "2024.ledger"], .file [])]

/-- The file of a date is listed, and the id of an offset in it is accepted. -/
theorem Ledger.yearly_recognized :
    Ledger.yearly.layout.fileName ⟨2024, 2, 29, by decide⟩ = .ok "2024.ledger" ∧
    (∃ paths, ledgerFiles Ledger.yearly.directory Ledger.yearly.layout Disk.withYear = .ok paths ∧
      Ledger.yearly.directory.child "2024.ledger" ∈ paths) ∧
    Ledger.yearly.checkId (Identifier.encode
      ⟨(Ledger.yearly.directory.child "2024.ledger").toText, 1⟩) Disk.withYear =
        .ok (Ledger.yearly.directory.child "2024.ledger") := by
  have chosen : Ledger.yearly.layout.fileName ⟨2024, 2, 29, by decide⟩ =
      .ok "2024.ledger".toList := by
    have same : (Ledger.yearly.layout.fileName ⟨2024, 2, 29, by decide⟩).toOption =
        some "2024.ledger".toList := by decide +kernel
    cases named : Ledger.yearly.layout.fileName ⟨2024, 2, 29, by decide⟩ with
    | error failure =>
      rw [named] at same
      cases same
    | ok name =>
      rw [named] at same
      rw [Option.some.inj same]
  have proper : Disk.withYear.Proper := by decide +kernel
  have tree : Disk.withYear.IsTree := by decide +kernel
  have file : Disk.withYear.holdsFile (Ledger.yearly.directory.child "2024.ledger") = .ok true := by
    rfl
  have listable : Ledger.yearly.layout.Listable Disk.withYear Ledger.yearly.directory := by
    have found : (ledgerFiles Ledger.yearly.directory Ledger.yearly.layout Disk.withYear).isOk =
        true := by decide +kernel
    cases listed : ledgerFiles Ledger.yearly.directory Ledger.yearly.layout Disk.withYear with
    | error failure =>
      rw [listed] at found
      cases found
    | ok paths =>
      exact ((Disk.ledgerFiles_eq_ok_iff proper (tree.descends proper _ _)).mp listed).1
  have extension : IsExtension Ledger.yearly.layout.extension :=
    ⟨"ledger", rfl, by decide, by decide⟩
  obtain ⟨listed, accepted⟩ := Ledger.fileName_recognized_iff rfl
    (by decide) (by decide) chosen (by decide) (by decide) (by decide)
  exact ⟨chosen, (listed _ proper tree listable file).mpr (Or.inl extension),
    ((accepted Disk.withYear 1).mpr ⟨Or.inl extension, by decide, by decide⟩).1⟩

/-- A ledger whose layout has an extension without a dot. -/
def Ledger.dotless : Ledger where
  directory := FilePath.ofText "data"
  layout := { extension := "bean", periodFile := "\x7b\x7b date.year \x7d\x7dbean" }

/-- A disk with a file of that ledger. -/
def Disk.withDotless : Disk where
  current := []
  entries := [(["data"], .folder), (["data", "2024bean"], .file [])]

/-- The file of a date is not listed, and the id of an offset in it is refused. -/
theorem Ledger.dotless_overlooked :
    (Ledger.dotless.layout.fileName ⟨2024, 2, 29, by decide⟩).toOption = some "2024bean".toList ∧
    Disk.withDotless.holdsFile (Ledger.dotless.directory.child "2024bean") = .ok true ∧
    (ledgerFiles Ledger.dotless.directory Ledger.dotless.layout Disk.withDotless).toOption =
      some [] ∧
    (Ledger.dotless.checkId (Identifier.encode
      ⟨(Ledger.dotless.directory.child "2024bean").toText, 1⟩) Disk.withDotless).toOption =
        none := by
  refine ⟨?_, ?_, ?_, ?_⟩
  · decide +kernel
  · rfl
  · decide +kernel
  · decide +kernel

end Daybook
