import Daybook.Text

/-!
# Likeness of texts

Two texts are alike as far as they share stretches in the same order. The longest shared
stretch is taken first, and then the longest ones before it and after it, on both sides
within what is left. The likeness is the part of all characters that lies in such stretches,
and of a list of names the likest ones are those a mistyped name may have been meant for.
-/
namespace Daybook.Text

/-- The length of the beginning that two texts have in common. -/
def sharedBeginning : Text → Text → Nat
  | a :: left, b :: right => if a = b then sharedBeginning left right + 1 else 0
  | _, _ => 0

/-- A stretch that two texts share: where it starts in each, and its length. -/
structure SharedStretch where
  left : Nat
  right : Nat
  size : Nat

/-- The longest stretch that two texts share. Of several the earliest in `left` is taken,
and of those the earliest in `right`. -/
def longestShared (left right : Text) : SharedStretch :=
  let starts := (List.range left.length).flatMap fun i =>
    (List.range right.length).map fun j => (i, j)
  starts.foldl (fun best (i, j) =>
    let size := sharedBeginning (left.drop i) (right.drop j)
    if best.size < size then ⟨i, j, size⟩ else best) ⟨0, 0, 0⟩

/-- How many characters of either text lie in stretches that both share. -/
def sharedCount (left right : Text) : Nat :=
  match longestShared left right with
  | ⟨i, j, size⟩ =>
    if size = 0 ∨ left.length ≤ i then 0
    else
      size + sharedCount (left.take i) (right.take j) +
        sharedCount (left.drop (i + size)) (right.drop (j + size))
  termination_by left.length
  decreasing_by
    · simp only [List.length_take]; omega
    · simp only [List.length_drop]; omega

/-- The names a mistyped name may have been meant for, in the order of their characters: of
those with at least three fifths of all characters shared, the likest three. -/
def suggestions (names : List Text) (mistyped : Text) : List Text :=
  let scored := names.map fun name =>
    (sharedCount name mistyped, name.length + mistyped.length, name)
  let alike := scored.filter fun (shared, total, _) => 3 * total ≤ 10 * shared
  let ranked := alike.mergeSort fun (shared, total, name) (shared', total', name') =>
    shared * total' > shared' * total ||
      (shared * total' == shared' * total && atMost name' name)
  ((ranked.take 3).map fun (_, _, name) => name).mergeSort atMost

end Daybook.Text
