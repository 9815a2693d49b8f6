import Daybook.Identifier
import Daybook.Proofs.Disk.Places
import Daybook.Proofs.Entry.Rows

/-!
# Names, paths and ids

A path has one written form, and what it writes is the path itself. An id is the written form of
a path and an offset with a colon between them; it is read back unless the path has a colon as
well. The extension of a name is what follows its last dot, dot included.
-/
namespace Daybook

namespace Text

/-- A cut is made before the first mark. -/
theorem cutAt_append {mark : Char} {before : Text} (quiet : mark ∉ before) (after : Text) :
    cutAt mark (before ++ mark :: after) = some (before, after) := by
  induction before with
  | nil => simp [cutAt]
  | cons c before ih =>
    obtain ⟨other, quiet⟩ := not_or.mp (mt List.mem_cons.mpr quiet)
    simp [cutAt, Ne.symm other, ih quiet]

/-- No part between marks has a mark. By induction on the text: a mark begins a new part and any
other character is put in front of the first one. -/
theorem not_mem_of_mem_splitOn {mark : Char} {text part : Text}
    (member : part ∈ text.splitOn mark) : mark ∉ part := by
  induction text generalizing part with
  | nil =>
    rw [List.splitOn_nil, List.mem_singleton] at member
    rw [member]
    exact List.not_mem_nil
  | cons c text ih =>
    rw [List.splitOn_cons_eq_if_modifyHead] at member
    cases parts : text.splitOn mark with
    | nil => exact absurd parts (List.splitOn_ne_nil _ _)
    | cons first others =>
      rw [parts] at ih member
      split at member
      · rcases List.mem_cons.mp member with rfl | later
        · exact List.not_mem_nil
        · exact ih later
      · next different =>
        rcases List.mem_cons.mp member with rfl | later
        · rintro (_ | ⟨_, inside⟩)
          · simp at different
          · exact ih List.mem_cons_self inside
        · exact ih (List.mem_cons_of_mem _ later)

/-- Joined parts have their own characters, besides the marks between them. -/
theorem mem_intercalate_iff {mark c : Char} (other : c ≠ mark) (parts : List Text) :
    c ∈ List.intercalate [mark] parts ↔ ∃ part ∈ parts, c ∈ part := by
  cases parts with
  | nil => simp [List.intercalate]
  | cons first others => simp [intercalate_cons, other]

end Text

namespace FilePath

/-! ## Written paths -/

/-- A name that a written path keeps. -/
structure IsName (name : Text) : Prop where
  something : name ≠ []
  other : name ≠ ['.']
  quiet : '/' ∉ name

instance (name : Text) : Decidable (IsName name) :=
  decidable_of_iff (name ≠ [] ∧ name ≠ ['.'] ∧ '/' ∉ name)
    ⟨fun ⟨something, other, quiet⟩ => ⟨something, other, quiet⟩,
      fun named => ⟨named.something, named.other, named.quiet⟩⟩

/-- Every name of the path is kept when the path is written. -/
def IsNormal (path : FilePath) : Prop :=
  ∀ name ∈ path.names, IsName name

/-- What is written names a path that is kept when it is written. -/
theorem isNormal_ofText (written : Text) : (ofText written).IsNormal := by
  intro name member
  obtain ⟨part, kept⟩ := List.mem_filter.mp member
  have kept : name ≠ [] ∧ name ≠ ['.'] := by simpa using kept
  exact ⟨kept.1, kept.2, Text.not_mem_of_mem_splitOn part⟩

/-- A name in a directory belongs to a path that is kept. -/
theorem IsNormal.below {directory : FilePath} (normal : directory.IsNormal) {name : Text}
    (named : IsName name) : (directory.below name).IsNormal := by
  intro one member
  rcases List.mem_append.mp member with inside | last
  · exact normal one inside
  · rwa [List.mem_singleton.mp last]

/-- The written form of a path writes the path. A normal path has no empty names and none that is a
dot, so reading drops nothing; and the first name is not empty, so a path that begins at a folder is
not taken for one that begins at the root. -/
theorem ofText_toText {path : FilePath} (normal : path.IsNormal) : ofText path.toText = path := by
  obtain ⟨anchor, names⟩ := path
  cases names with
  | nil => cases anchor <;> rfl
  | cons first others =>
    have kept : (first :: others).filter (fun name => name ≠ [] && name ≠ ['.']) =
        first :: others := by
      rw [List.filter_eq_self]
      intro name member
      simpa using And.intro (normal name member).something (normal name member).other
    have parts : (List.intercalate ['/'] (first :: others)).splitOn '/' = first :: others :=
      List.splitOn_intercalate '/' (fun name member => (normal name member).quiet) (by simp)
    -- The first character is no slash, so that the anchor is what stands before it.
    obtain ⟨c, inner, spelled, slash⟩ : ∃ c inner,
        List.intercalate ['/'] (first :: others) = c :: inner ∧ c ≠ '/' := by
      have named := normal first List.mem_cons_self
      cases first with
      | nil => exact absurd rfl named.something
      | cons c inner =>
        refine ⟨c, _, intercalate_cons _ _ _, ?_⟩
        rintro rfl
        exact named.quiet List.mem_cons_self
    have one (text : Text) : ('/' :: text).splitOn '/' = [] :: text.splitOn '/' :=
      List.splitOn_append_cons_self_of_not_mem List.not_mem_nil text
    have bare : anchorOf (c :: inner) = .here := by simp [anchorOf, slash]
    have rooted : anchorOf ('/' :: c :: inner) = .root := by simp [anchorOf, slash]
    have doubled : anchorOf ('/' :: '/' :: c :: inner) = .doubleRoot := by simp [anchorOf, slash]
    cases anchor with
    | here =>
      simp only [toText, List.cons_ne_nil, if_false, ofText, parts, kept]
      rw [spelled, bare]
    | root =>
      simp only [toText, ofText, one, parts]
      rw [List.filter_cons_of_neg (by simp), kept, spelled, rooted]
    | doubleRoot =>
      simp only [toText, ofText, one, parts]
      rw [List.filter_cons_of_neg (by simp), List.filter_cons_of_neg (by simp), kept, spelled,
        doubled]

/-- A name is the path of itself. -/
theorem IsName.ofText {name : Text} (named : IsName name) :
    FilePath.ofText name = ⟨.here, [name]⟩ := by
  have normal : (⟨.here, [name]⟩ : FilePath).IsNormal := by
    intro one member
    rwa [List.mem_singleton.mp member]
  have same := ofText_toText normal
  rwa [toText, if_neg (List.cons_ne_nil _ _), intercalate_cons, List.flatMap_nil,
    List.append_nil] at same

/-- A file of a directory is the child of its name. -/
theorem IsName.child {name : Text} (named : IsName name) (directory : FilePath) :
    directory.child name = directory.below name := by
  rw [FilePath.child, named.ofText]
  rfl

/-- Files of one directory with the same written path have the same name. -/
theorem eq_of_below_toText {directory : FilePath} (normal : directory.IsNormal) {name other : Text}
    (named : IsName name) (otherNamed : IsName other)
    (same : (directory.below name).toText = (directory.below other).toText) : name = other := by
  have paths := congrArg FilePath.ofText same
  rw [ofText_toText (normal.below named), ofText_toText (normal.below otherNamed)] at paths
  have names := congrArg FilePath.name paths
  rwa [below_name, below_name] at names

/-- A name is a plain name, unless it leads up or is that of a temporary file. -/
theorem IsName.isPlain {name : Text} (named : IsName name) (down : name ≠ ['.', '.'])
    (lasting : Disk.temporaryEnding.isSuffixOf name = false) : IsPlain name :=
  ⟨named.ofText, down, lasting⟩

/-- A plain name is a name that a written path keeps. -/
theorem IsPlain.isName {name : Text} (plain : IsPlain name) : IsName name := by
  have normal := isNormal_ofText name
  rw [plain.written] at normal
  exact normal name (List.mem_singleton.mpr rfl)

/-! ## Extensions -/

/-- The extension of a name with something before its last dot. -/
theorem extensionOf_append {front rest : Text} (before : front ≠ []) (after : rest ≠ [])
    (plain : '.' ∉ rest) : extensionOf (front ++ '.' :: rest) = '.' :: rest := by
  have whole := Text.cutAt_append (show '.' ∉ rest.reverse by simpa using plain) front.reverse
  simp [extensionOf, whole, before, after]

/-- An extension is a dot and something after it that has no dot. -/
theorem extensionOf_eq_nil_or (name : Text) : extensionOf name = [] ∨
    ∃ rest, extensionOf name = '.' :: rest ∧ rest ≠ [] ∧ '.' ∉ rest := by
  unfold extensionOf
  split
  · next after before cut =>
    split
    · exact Or.inl rfl
    · next both =>
      refine Or.inr ⟨after.reverse, rfl, ?_, ?_⟩
      · simpa using (not_or.mp both).1
      · simpa using Text.not_mem_of_cutAt cut
  · exact Or.inl rfl

end FilePath

/-! ## Ids -/

namespace Identifier

variable {path : Text} {offset : Nat}

/-- A number is written with digits. -/
theorem isDigit_decimal {c : Char} (member : c ∈ Text.decimal offset) : c.isDigit = true :=
  Nat.isDigit_of_mem_toDigits (by decide) (by decide) member

/-- Different paths or different offsets have different ids. An id is cut at its last colon, since
there is none in a number. Reading, which cuts at the first colon, would not do: it takes the ids of
paths with colons apart differently. -/
theorem encode_inj {first second : Identifier}
    (same : first.encode = second.encode) : first = second := by
  have quiet (offset : Nat) : ':' ∉ (Text.decimal offset).reverse := by
    intro colon
    have digit := isDigit_decimal (List.mem_reverse.mp colon)
    revert digit
    decide
  have cut (id : Identifier) : Text.cutAt ':' id.encode.reverse =
      some ((Text.decimal id.offset).reverse, id.path.reverse) := by
    rw [encode, List.reverse_append, List.reverse_cons, List.append_assoc, List.singleton_append]
    exact Text.cutAt_append (quiet id.offset) _
  have parts := (cut first).symm.trans ((congrArg (Text.cutAt ':' ·.reverse) same).trans (cut second))
  simp only [Option.some.injEq, Prod.mk.injEq, List.reverse_inj] at parts
  obtain ⟨offsets, paths⟩ := parts
  have offsets := congrArg (Nat.ofDigitChars 10 · 0) offsets
  simp only [Text.decimal, Nat.ofDigitChars_ten_toDigits] at offsets
  cases first
  cases second
  rw [Identifier.mk.injEq]
  exact ⟨paths, offsets⟩

/-- The id of a path and an offset is read back, exactly if the path has no colon and the offset
is not endless. -/
theorem decode_encode_iff {decoded : Identifier} (something : path ≠ []) :
    decode (encode ⟨path, offset⟩) = .ok decoded ↔ ':' ∉ path ∧
      (Text.decimal offset).length ≤ Text.mostDigits ∧ decoded = ⟨path, offset⟩ := by
  have digits : (Text.decimal offset).all Char.isDigit = true := by
    rw [List.all_eq_true]
    exact fun c member => isDigit_decimal member
  have value : Nat.ofDigitChars 10 (Text.decimal offset) 0 = offset := Nat.ofDigitChars_ten_toDigits
  have written : Text.decimal offset ≠ [] := Nat.toDigits_ne_nil
  by_cases colon : ':' ∈ path
  · -- The cut is made within the path, so that the colon before the offset is taken for a digit.
    obtain ⟨front, back, rfl, first⟩ := List.eq_append_cons_of_mem colon
    refine iff_of_false (fun read => ?_) (fun told => told.1 colon)
    have whole : encode ⟨front ++ ':' :: back, offset⟩ =
        front ++ ':' :: (back ++ ':' :: Text.decimal offset) := by
      rw [encode, List.append_assoc, List.cons_append]
    have wrong : ¬ (back ++ ':' :: Text.decimal offset).all Char.isDigit = true := by
      intro all
      have digit := List.all_eq_true.mp all ':' (by simp)
      revert digit
      decide
    rw [whole, decode, Text.cutAt_append first] at read
    dsimp only at read
    split at read
    · cases read
    · rw [if_neg (fun both => wrong both.2)] at read
      cases read
  · rw [encode, decode, Text.cutAt_append colon]
    dsimp only
    rw [if_neg something, if_pos ⟨written, digits⟩, value]
    by_cases long : Text.mostDigits < (Text.decimal offset).length
    · rw [if_pos long]
      exact iff_of_false (fun read => by cases read) fun told => by omega
    · rw [if_neg long, Except.ok.injEq, eq_comm]
      exact ⟨fun same => ⟨colon, by omega, same⟩, fun told => told.2.2⟩

end Identifier

end Daybook
