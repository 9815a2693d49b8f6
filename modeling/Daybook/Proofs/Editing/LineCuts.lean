import Daybook.Proofs.Editing.Commuting

/-!
# Cutting out whole lines

A cut takes the bytes of its span and the rest of the line where the span ends, with the line feed.
Nothing else is touched: neither what stands before the span nor the lines behind it. The line where
a span ends is the line of the offset after its last byte, so that a span which stops right behind a
line feed takes the next line with it.

A span on later lines lies behind all that the cut of an earlier one takes, line feed included. So
the later span can be cut out first, and the cut of the earlier one is still the same.
-/
namespace Daybook

section Parts

variable {content front body tail back : Bytes} {span : Span}

/-- A line that is searched for its end is cut behind its line feed, or where the bytes end. -/
theorem Span.afterLine_parts (rest : Bytes) : ∃ tail, rest = tail ++ afterLine rest ∧
    ((0x0A ∉ tail ∧ afterLine rest = []) ∨ ∃ line, tail = line ++ [0x0A] ∧ 0x0A ∉ line) := by
  by_cases feed : 0x0A ∈ rest
  · obtain ⟨line, back, rfl, quiet⟩ := List.eq_append_cons_of_mem feed
    have after : afterLine (line ++ 0x0A :: back) = back := by
      rw [Text.Utf8.afterLine_append quiet]
      rfl
    refine ⟨line ++ [0x0A], ?_, Or.inr ⟨line, rfl, quiet⟩⟩
    rw [after, List.append_assoc, List.singleton_append]
  · have after : afterLine rest = [] := by
      have all : afterLine (rest ++ []) = afterLine [] := Text.Utf8.afterLine_append feed
      rwa [List.append_nil] at all
    exact ⟨rest, by rw [after, List.append_nil], Or.inl ⟨feed, after⟩⟩

/-- Every span within a content parts it. -/
theorem Span.Within.cutAt (within : span.Within content.length) :
    ∃ front body tail back, CutAt content span front body tail back := by
  obtain ⟨low, order, high⟩ := within
  obtain ⟨tail, parts, line⟩ := Span.afterLine_parts (content.drop span.stop.toNat)
  refine ⟨content.take span.start.toNat, span.bytes content, tail, _, ?_, ?_, ?_, line⟩
  · have body : (content.drop span.start.toNat).take (span.stop.toNat - span.start.toNat) ++
        content.drop span.stop.toNat = content.drop span.start.toNat := by
      have further : content.drop span.stop.toNat =
          (content.drop span.start.toNat).drop (span.stop.toNat - span.start.toNat) := by
        rw [List.drop_drop, Nat.add_sub_cancel' (Int.toNat_le_toNat order)]
      rw [further, List.take_append_drop]
    rw [List.append_assoc, ← parts, List.append_assoc, Span.bytes, body, List.take_append_drop]
  · rw [List.length_take]
    omega
  · rw [Span.bytes, List.length_take, List.length_take, List.length_drop]
    omega

/-- A span that parts a content lies within it. -/
theorem CutAt.within (cut : CutAt content span front body tail back) :
    span.Within content.length := by
  have size := congrArg List.length cut.whole
  have start := cut.start
  have stop := cut.stop
  simp only [List.length_append] at size
  refine ⟨?_, ?_, ?_⟩ <;> omega

/-- Cutting leaves what stands before the span and behind its last line. -/
theorem CutAt.cutLines (cut : CutAt content span front body tail back) :
    span.cutLines content = .ok (front ++ back) := by
  rw [Span.cutLines, if_pos cut.within, cut.take_drop.1, cut.take_drop.2, cut.afterLine]

/-- A span on later lines is behind all that the cut takes. When it is cut out first, the cut still
takes the same bytes from the same place. -/
theorem CutAt.beforeLater {later : Span} {leading struck trail rest : Bytes}
    (cut : CutAt content span front body tail back)
    (other : CutAt content later leading struck trail rest)
    (lines : Span.lineOf content span.stop < Span.lineOf content later.start) :
    ∃ between, leading = front ++ body ++ tail ++ between ∧
      back = between ++ (struck ++ trail ++ rest) ∧
      CutAt (leading ++ rest) span front body tail (between ++ rest) := by
  have feed := Span.lineFeed_between lines
  rw [other.take_drop.1] at feed
  have whole : content = leading ++ (struck ++ trail ++ rest) := by
    rw [other.whole]
    simp only [List.append_assoc]
  have enough : (front ++ body ++ tail).length ≤ leading.length := by
    obtain ⟨same, inside⟩ := Span.wholeLines_append feed (struck ++ trail ++ rest)
    rw [← same, ← whole, cut.wholeLines] at inside
    simp only [List.length_append] at inside ⊢
    omega
  have both : front ++ body ++ tail ++ back = leading ++ (struck ++ trail ++ rest) :=
    cut.whole.symm.trans whole
  obtain ⟨between, rfl⟩ : front ++ body ++ tail <+: leading := by
    refine List.prefix_of_prefix_length_le (List.prefix_append _ back) ?_ enough
    rw [both]
    exact List.prefix_append _ _
  rw [List.append_assoc (front ++ body ++ tail), List.append_cancel_left_eq] at both
  refine ⟨between, rfl, both, by rw [List.append_assoc], cut.start, cut.stop, ?_⟩
  rcases cut.line with ⟨quiet, ended⟩ | ended
  · -- The line feed before the later span would have to stand in what is left of the last line.
    have none : between = [] := (List.append_eq_nil_iff.mp (both.symm.trans ended)).1
    have stop : span.stop.toNat = (front ++ body).length := by
      rw [cut.stop, List.length_append]
      omega
    rw [none, List.append_nil, stop, List.drop_left] at feed
    exact absurd feed quiet
  · exact Or.inr ended

end Parts

/-- Cutting is refused exactly if the span does not lie within the content. Otherwise the content is
parted into what stands before the span, the span, the rest of its last line, and the lines behind
it, and the first and the last part are left. When a span on later lines is cut out first, the same
bytes of the earlier one are cut out from the same place, and the bytes between them stay as well.
Nothing behind the last line of a span is looked at when the span is cut out, so it makes no
difference to the earlier span whether the later one is still there. -/
theorem Span.cutLines_exact (content : Bytes) (span : Span) :
    (∀ refused, span.cutLines content = .error refused ↔
      ¬ span.Within content.length ∧ refused = ⟨span, content.length⟩) ∧
    (∀ left, span.cutLines content = .ok left ↔
      ∃ front body tail back, CutAt content span front body tail back ∧ left = front ++ back) ∧
    ∀ later : Span, span.Within content.length → later.Within content.length →
      lineOf content span.stop < lineOf content later.start →
      ∃ front body tail between struck trail rest,
        CutAt content span front body tail (between ++ (struck ++ trail ++ rest)) ∧
        CutAt content later (front ++ body ++ tail ++ between) struck trail rest ∧
        later.cutLines content = .ok (front ++ body ++ tail ++ between ++ rest) ∧
        CutAt (front ++ body ++ tail ++ between ++ rest) span front body tail (between ++ rest) ∧
        span.cutLines (front ++ body ++ tail ++ between ++ rest) =
          .ok (front ++ (between ++ rest)) := by
  refine ⟨?_, ?_, ?_⟩
  · intro refused
    by_cases within : span.Within content.length
    · obtain ⟨front, body, tail, back, cut⟩ := within.cutAt
      rw [cut.cutLines]
      exact iff_of_false (fun same => by cases same) fun told => told.1 within
    · rw [cutLines, if_neg within, Except.error.injEq, eq_comm]
      exact ⟨fun same => ⟨within, same⟩, fun told => told.2⟩
  · intro left
    constructor
    · intro done
      by_cases within : span.Within content.length
      · obtain ⟨front, body, tail, back, cut⟩ := within.cutAt
        rw [cut.cutLines, Except.ok.injEq] at done
        exact ⟨front, body, tail, back, cut, done.symm⟩
      · rw [cutLines, if_neg within] at done
        cases done
    · rintro ⟨front, body, tail, back, cut, rfl⟩
      exact cut.cutLines
  · intro later within alsoWithin lines
    obtain ⟨front, body, tail, back, cut⟩ := within.cutAt
    obtain ⟨leading, struck, trail, rest, other⟩ := alsoWithin.cutAt
    obtain ⟨between, rfl, rfl, still⟩ := cut.beforeLater other lines
    exact ⟨front, body, tail, between, struck, trail, rest, cut, other, other.cutLines, still,
      still.cutLines⟩

/-- Three lines, each but the last with a carriage return before its line feed. -/
def threeLines : Bytes :=
  [0x61, 0x0D, 0x0A, 0x62, 0x0D, 0x0A, 0x63]

/-- Of three lines the second one and then the first one can be cut out. -/
theorem Span.threeLines_cut :
    (⟨0, 1⟩ : Span).Within threeLines.length ∧ (⟨3, 4⟩ : Span).Within threeLines.length ∧
      lineOf threeLines 1 < lineOf threeLines 3 ∧
      ∃ front body tail between struck trail rest,
        CutAt threeLines ⟨0, 1⟩ front body tail (between ++ (struck ++ trail ++ rest)) ∧
        CutAt threeLines ⟨3, 4⟩ (front ++ body ++ tail ++ between) struck trail rest ∧
        (⟨3, 4⟩ : Span).cutLines threeLines = .ok (front ++ body ++ tail ++ between ++ rest) ∧
        CutAt (front ++ body ++ tail ++ between ++ rest) ⟨0, 1⟩ front body tail
          (between ++ rest) ∧
        (⟨0, 1⟩ : Span).cutLines (front ++ body ++ tail ++ between ++ rest) =
          .ok (front ++ (between ++ rest)) :=
  have first : (⟨0, 1⟩ : Span).Within threeLines.length := by decide
  have second : (⟨3, 4⟩ : Span).Within threeLines.length := by decide
  have lines : lineOf threeLines 1 < lineOf threeLines 3 := by decide
  ⟨first, second, lines, (cutLines_exact threeLines ⟨0, 1⟩).2.2 ⟨3, 4⟩ first second lines⟩

end Daybook
