import Daybook.Proofs.Directive.Moving
import Daybook.Proofs.Statement.LineOrder
import Daybook.Proofs.Text.Offsets

/-!
# Where a transaction ends

The bytes of a transaction end with the furthest of its parts. All parts are on its lines, so
they end no later than the last of these lines; and the last thing that this line keeps is one
of the parts. What is left of the line behind the transaction is therefore without a line feed,
and a cut that takes the rest of the line takes exactly that line.
-/
namespace Daybook

open Statement

/-! ## The ends of a posting -/

/-- A text that ends in a blank is longer than without its blanks. -/
theorem Text.length_trimRight_lt {text : Text} {c : Char} (last : text.getLast? = some c)
    (blank : isBlank c = true) : (trimRight text).length < text.length := by
  obtain ⟨front, rfl⟩ := List.getLast?_eq_some_iff.mp last
  have shorter := (List.dropWhile_sublist isBlank (l := front.reverse)).length_le
  simp only [trimRight, List.reverse_append, List.reverse_singleton, List.singleton_append,
    List.dropWhile_cons, blank, if_true, List.length_reverse, List.length_append,
    List.length_singleton] at shorter ⊢
  omega

/-- Where a line ends, at most a carriage return comes before the line feed. -/
theorem Statement.LineEndsAt.stretch {text : Text} {stop : Nat} (ends : LineEndsAt text stop) :
    Text.stretch (· ≠ '\n') (text.drop stop) = 0 ∨
      (Text.stretch (· ≠ '\n') (text.drop stop) = 1 ∧ ∃ rest, text.drop stop = '\r' :: rest) := by
  rcases ends with whole | ⟨ending, rest, form, next⟩
  · rw [whole, List.drop_length]
    exact Or.inl rfl
  · rw [next]
    rcases form with rfl | rfl
    · exact Or.inl rfl
    · exact Or.inr ⟨rfl, _, rfl⟩

/-- A line is searched for its end from wherever no line feed comes in between. -/
theorem Text.stretch_of_quiet {text : Text} {first second : Nat}
    (quiet : '\n' ∉ slice text first second) (order : first ≤ second)
    (inside : second ≤ text.length) :
    first + stretch (· ≠ '\n') (text.drop first) =
      second + stretch (· ≠ '\n') (text.drop second) := by
  have all : ∀ c ∈ slice text first second, decide (c ≠ '\n') = true :=
    fun c member => decide_eq_true fun same => quiet (same ▸ member)
  rw [drop_eq_slice_append order, stretch, List.takeWhile_append_of_pos all, List.length_append,
    length_slice inside, stretch]
  omega

namespace PostingEntry

variable {path text : Text} {line : PostingLine} {comment : Option Token} {start stop : Nat}

/-- The tail of a posting ends with its line, except that a carriage return may belong to it. A tail
without a comment is taken up to the line feed, while the line ends at the carriage return in front
of it; this is the only way in which the two differ. -/
theorem tailStop_le (path : Text)
    (standing : Line.Standing text start stop ⟨.posting line, comment⟩)
    (ends : LineEndsAt text stop) :
    tailStop (Source.ofText path text) line comment ≤ stop ∨
      (tailStop (Source.ofText path text) line comment = stop + 1 ∧
        ∃ rest, text.drop stop = '\r' :: rest) := by
  cases comment with
  | some token =>
    obtain ⟨_, inside, _⟩ := standing.comment token rfl
    have order : token.start ≤ token.stop := Nat.le_add_right _ _
    exact Or.inl (Nat.le_trans order inside)
  | none =>
    have before := ((standing.extent _ rfl).tokens line.account (by simp)).2.2
    have inside := ends.inside
    simp only [tailStop, Source.ofText]
    by_cases feed : '\n' ∈ Text.slice text line.account.stop stop
    · have size := @Text.length_slice _ line.account.stop _ inside
      rw [Text.drop_eq_slice_append before]
      obtain ⟨_, shorter⟩ := Lexeme.stretch_append_of_mem (· ≠ '\n') feed (by simp)
        (text.drop stop)
      exact Or.inl (by omega)
    · rw [Text.stretch_of_quiet feed before inside]
      rcases ends.stretch with none | ⟨one, back⟩
      · exact Or.inl (by omega)
      · exact Or.inr ⟨by omega, back⟩

/-- A posting ends with its last token or with the last character of its tail. -/
theorem stop_ofParts (source : Source) (line : PostingLine)
    (numberStop amountStop tailStop : Nat) :
    (ofParts source line numberStop amountStop tailStop).span.stop =
      source.offsets.byte (max line.stop (tailStop -
        ((Text.slice source.text line.account.start tailStop).length -
          (Text.trimRight (Text.slice source.text line.account.start tailStop)).length))) := rfl

/-- All parts of a posting end within its line, and what its line keeps ends within it. The one
character that the tail may have beyond its line is a carriage return, and trimming takes it off
again before the end is computed. -/
theorem ends_ofLine (path : Text)
    (standing : Line.Standing text start stop ⟨.posting line, comment⟩)
    (ends : LineEndsAt text stop) :
    (∀ one ∈ (ofLine (Source.ofText path text) line comment).ends,
      one ≤ (Source.ofText path text).offsets.byte stop) ∧
    ((Source.ofText path text).offsets.byte line.stop : Int) ≤
      (ofLine (Source.ofText path text) line comment).span.stop := by
  have extent := standing.extent _ rfl
  obtain ⟨_, begun, before⟩ := extent.tokens line.account (by simp)
  have order : line.account.start ≤ line.account.stop := Nat.le_add_right _ _
  have stopInside : line.stop ≤ stop := extent.inside
  have inside := ends.inside
  have within {position : Nat} (known : position ≤ stop) :
      ((Source.ofText path text).offsets.byte position : Int) ≤
        (Source.ofText path text).offsets.byte stop :=
    Int.ofNat_le.mpr (Source.byte_mono path known inside)
  rw [ofLine_eq]
  -- The blanks at the end of the tail are no part of the posting, and so is a carriage return.
  have trimmed : tailStop (Source.ofText path text) line comment -
      ((Text.slice text line.account.start
          (tailStop (Source.ofText path text) line comment)).length -
        (Text.trimRight (Text.slice text line.account.start
          (tailStop (Source.ofText path text) line comment))).length) ≤ stop := by
    rcases tailStop_le path standing ends with short | ⟨same, rest, back⟩
    · omega
    · rw [same]
      have last : (Text.slice text line.account.start (stop + 1)).getLast? = some '\r' := by
        rw [Text.slice_append (show line.account.start ≤ stop by omega) (Nat.le_succ stop)]
        simp [Text.slice, back]
      have shorter := Text.length_trimRight_lt last (by decide)
      omega
  refine ⟨?_, ?_⟩
  · intro one member
    simp only [PostingEntry.ends, List.mem_append, List.mem_singleton] at member
    rcases member with (rfl | amount) | rfl
    · exact within before
    · simp only [ofParts] at amount
      cases currency : line.currency with
      | none => simp [currency] at amount
      | some token =>
        obtain ⟨_, _, known⟩ := extent.tokens token (by simp [currency])
        simp only [currency, Option.isSome_some, if_true, Option.map_some, Option.toList_some,
          List.mem_singleton] at amount
        subst amount
        exact within known
    · rw [stop_ofParts]
      exact within (Nat.max_le.mpr ⟨stopInside, trimmed⟩)
  · rw [stop_ofParts]
    exact Int.ofNat_le.mpr (Source.byte_mono path (Nat.le_max_left _ _)
      (Nat.le_trans (Nat.max_le.mpr ⟨stopInside, trimmed⟩) inside))

end PostingEntry

/-! ## The end of a transaction -/

/-- What is open ends no later than a line does. -/
structure Pending.Bounded (source : Source) (bound : Nat) (postings : List PostingEntry)
    (stop : Int) : Prop where
  stop : stop ≤ source.offsets.byte bound
  ends : ∀ posting ∈ postings, ∀ one ∈ posting.ends, one ≤ source.offsets.byte bound

/-- A line that begins after a line has begun ends no later than another one. -/
def Statement.UpTo (text : Text) (bound : Nat) (line : Line) : Prop :=
  ∃ start stop, line.Standing text start stop ∧ LineEndsAt text stop ∧ stop ≤ bound

/-- The end of a line is the end of its statement or of its comment. -/
theorem Line.Standing.stop_bounds {text : Text} {start stop : Nat} {line : Line}
    (standing : line.Standing text start stop) {extent : Extent}
    (known : extent ∈ line.statement.extent?) :
    extent.stop ≤ line.stop extent.stop ∧ line.stop extent.stop ≤ stop := by
  have inside := (standing.extent extent known).inside
  cases comment : line.comment with
  | none => simpa [Line.stop, comment] using inside
  | some token =>
    obtain ⟨_, within, after⟩ := standing.comment token comment
    have behind := after extent known
    have order : token.start ≤ token.stop := Nat.le_add_right _ _
    simp only [Line.stop, comment]
    exact ⟨by omega, within⟩

namespace Progress

variable {path text : Text} {bound : Nat}

/-- A line of a transaction moves its end to that of the line if it is further, and not beyond the
bound. -/
theorem bounds_of_advance {heading : Heading} {postings : List PostingEntry} {stop : Int}
    {included : List Phrase} {line : Line} {next : Progress} {yielded : Collected}
    (inside : bound ≤ text.length) (attached : ¬ Closes line) (upTo : UpTo text bound line)
    (bounded : Pending.Bounded (Source.ofText path text) bound postings stop)
    (stepped : advance (Source.ofText path text) ⟨.transaction heading postings stop, included⟩
      line = .ok (next, yielded)) :
    ∃ more further, next = ⟨.transaction heading more further, included⟩ ∧ yielded = .nothing ∧
      Pending.Bounded (Source.ofText path text) bound more further ∧ stop ≤ further ∧
      ∀ extent ∈ line.statement.extent?,
        ((Source.ofText path text).offsets.byte extent.stop : Int) ≤ further := by
  obtain ⟨start, last, standing, ends, upTo⟩ := upTo
  have within {position : Nat} (known : position ≤ last) :
      ((Source.ofText path text).offsets.byte position : Int) ≤
        (Source.ofText path text).offsets.byte bound :=
    Int.ofNat_le.mpr (Source.byte_mono path (Nat.le_trans known upTo) inside)
  cases statement : line.statement with
  | remark =>
    simp only [advance, statement] at stepped
    cases stepped
    exact ⟨_, _, rfl, rfl, bounded, Int.le_refl _, by simp [Statement.extent?]⟩
  | posting posting =>
    rw [advance_posting statement] at stepped
    cases stepped
    obtain ⟨whole, comment⟩ := line
    obtain rfl : whole = .posting posting := statement
    obtain ⟨parts, own⟩ := PostingEntry.ends_ofLine path standing ends
    have withinLine := within (Nat.le_refl last)
    refine ⟨_, _, rfl, rfl, ⟨?_, ?_⟩, Int.le_max_left _ _, ?_⟩
    · refine Int.max_le.mpr ⟨bounded.stop, Int.le_trans (parts _ ?_) withinLine⟩
      simp [PostingEntry.ends]
    · intro one member
      rcases List.mem_append.mp member with old | new
      · exact bounded.ends one old
      · obtain rfl := List.mem_singleton.mp new
        exact fun part known => Int.le_trans (parts part known) withinLine
    · rintro _ ⟨⟩
      exact Int.le_trans own (Int.le_max_right _ _)
  | metadata key keyStop =>
    rw [advance_metadata statement] at stepped
    cases stepped
    have known : (⟨some key, [key], keyStop⟩ : Extent) ∈ line.statement.extent? := by
      rw [statement]
      rfl
    obtain ⟨behind, before⟩ := standing.stop_bounds known
    refine ⟨_, _, rfl, rfl, ⟨Int.max_le.mpr ⟨bounded.stop, within before⟩, bounded.ends⟩,
      Int.le_max_left _ _, ?_⟩
    rintro _ ⟨⟩
    refine Int.le_trans (Int.ofNat_le.mpr (Source.byte_mono path behind ?_))
      (Int.le_max_right _ _)
    exact Nat.le_trans before ends.inside
  | _ => simp [Closes, statement] at attached

/-- The lines of a transaction move its end to the furthest of them, and not beyond the bound of
them all. -/
theorem bounds_of_advanceAll {heading : Heading} {postings allPostings : List PostingEntry}
    {stop furthest : Int} {included : List Phrase} {lines : List Line} (inside : bound ≤ text.length)
    (each : ∀ line ∈ lines, ¬ Closes line ∧ UpTo text bound line)
    (bounded : Pending.Bounded (Source.ofText path text) bound postings stop)
    (advanced : advanceAll (Source.ofText path text) ⟨.transaction heading postings stop, included⟩
      lines = .ok (⟨.transaction heading allPostings furthest, included⟩, .nothing)) :
    Pending.Bounded (Source.ofText path text) bound allPostings furthest ∧ stop ≤ furthest ∧
      ∀ line ∈ lines, ∀ extent ∈ line.statement.extent?,
        ((Source.ofText path text).offsets.byte extent.stop : Int) ≤ furthest := by
  induction lines generalizing postings stop with
  | nil =>
    cases advanced
    exact ⟨bounded, Int.le_refl _, by simp⟩
  | cons line rest ih =>
    obtain ⟨next, first, others, stepped, further, nothing⟩ := advanceAll_cons_iff.mp advanced
    obtain ⟨⟨attached, upTo⟩, later⟩ := List.forall_mem_cons.mp each
    obtain ⟨more, newStop, rfl, rfl, newBounded, grown, own⟩ :=
      bounds_of_advance inside attached upTo bounded stepped
    rw [Collected.nothing_append] at nothing
    subst nothing
    obtain ⟨allBounded, grows, lines⟩ := ih later newBounded further
    refine ⟨allBounded, Int.le_trans grown grows, ?_⟩
    intro one member extent known
    rcases List.mem_cons.mp member with rfl | member
    · exact Int.le_trans (own extent known) grows
    · exact lines one member extent known

end Progress

/-- The greatest of several numbers is at most a bound exactly if all of them are. -/
theorem foldl_max_le_iff {numbers : List Int} {first bound : Int} :
    numbers.foldl max first ≤ bound ↔ first ≤ bound ∧ ∀ one ∈ numbers, one ≤ bound := by
  induction numbers generalizing first with
  | nil => simp
  | cons number numbers ih =>
    rw [List.foldl_cons, ih, Int.max_le, List.forall_mem_cons, and_assoc]

/-- The bytes of a transaction that is closed end within the bound, and not before its lines. The
end of a transaction is the greatest of the ends of its parts, each of which was bounded when its
line was read. -/
theorem TransactionEntry.extent_bounds {path text : Text} {bound : Nat} {heading : Heading}
    {postings : List PostingEntry} {stop : Int} {entry : TransactionEntry}
    (bounded : Pending.Bounded (Source.ofText path text) bound postings stop)
    (inside : bound ≤ text.length)
    (tokens : ∀ extent ∈ (Statement.transaction heading).extent?, ∀ token ∈ extent.tokens,
      token.stop ≤ bound)
    (finished : Pending.finish (Source.ofText path text) (.transaction heading postings stop) =
      .ok [.transaction entry]) :
    entry.span = ⟨entry.dateSpan.start, stop⟩ ∧ entry.extent.start = entry.dateSpan.start ∧
      entry.dateSpan = (Source.ofText path text).tokenSpan heading.date ∧
      stop ≤ entry.extent.stop ∧
      entry.extent.stop ≤ (Source.ofText path text).offsets.byte bound := by
  have known := tokens _ rfl
  have within {token : Token} (before : token.stop ≤ bound) :
      ((Source.ofText path text).tokenSpan token).stop ≤
        (Source.ofText path text).offsets.byte bound :=
    Int.ofNat_le.mpr (Source.byte_mono path before inside)
  simp only [Pending.finish] at finished
  split at finished
  · cases finished
  · cases finished
    refine ⟨rfl, rfl, rfl, ?_, ?_⟩
    · exact (foldl_max_le_iff.mp (Int.le_refl _)).2 _ (by simp)
    · refine foldl_max_le_iff.mpr ⟨within (known _ (by simp)), ?_⟩
      intro one member
      simp only [List.mem_append, List.mem_singleton] at member
      rcases member with (rfl | narration) | posting
      · exact bounded.stop
      · cases text : heading.narration with
        | none => simp [text] at narration
        | some token =>
          simp only [text, Option.map_some, Option.toList_some, List.mem_singleton] at narration
          subst narration
          exact within (known token (by simp [text]))
      · obtain ⟨posting, listed, part⟩ := List.mem_flatMap.mp posting
        exact bounded.ends posting listed one part

end Daybook
