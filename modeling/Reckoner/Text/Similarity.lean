set_option autoImplicit false

/-!
How alike two texts are, by their longest common runs: take the longest run of characters that both
share, then do the same to what stands left and right of it. The score of two texts is the share of
their characters that these runs cover.

In a long reference text a character that is very frequent does not start a run, though a run may
extend over it.
-/

namespace Reckoner.Text

/-- Two texts share `length` characters, after `left` characters of the one and `right` of the
other. -/
structure Overlap where
  left : Nat
  right : Nat
  length : Nat

/-- Whether `c` is too frequent in the reference text to start a run. The rule applies from two
hundred characters on, and to a character that makes up more than a hundredth of them. -/
def isFrequent (reference : List Char) (c : Char) : Bool :=
  200 ≤ reference.length && reference.length / 100 + 1 < reference.count c

/-- For each place of `text`, the length of the run that ends there and with `c`. `before` holds the
lengths that ended one place earlier with the character before `c`. -/
def overlapLengths (counts : Char → Bool) (c : Char) : List Char → List Nat → List Nat
  | d :: text, length :: before =>
    (if c = d && counts d then length + 1 else 0) :: overlapLengths counts c text before
  | _, _ => []

/-- The first of the longest runs in a row of `overlapLengths`, if it is longer than `best`. The row
is for the character after `left` others, and starts after `right` others of the reference. -/
def longerOverlap (left right : Nat) (best : Overlap) : List Nat → Overlap
  | [] => best
  | length :: row =>
    let here := ⟨left + 1 - length, right + 1 - length, length⟩
    longerOverlap left (right + 1) (if best.length < length then here else best) row

/-- Walks over the first text, with the row of the character before. -/
def scanOverlaps (counts : Char → Bool) (reference : List Char) :
    (left : Nat) → (best : Overlap) → (row : List Nat) → List Char → Overlap
  | _, best, _, [] => best
  | left, best, row, c :: text =>
    let next := overlapLengths counts c reference (0 :: row)
    scanOverlaps counts reference (left + 1) (longerOverlap left 0 best next) next text

def commonLength : List Char → List Char → Nat
  | c :: text, d :: other => if c = d then commonLength text other + 1 else 0
  | _, _ => 0

/-- The longest run of two texts, the one that starts first in the first text, then in the second.
It is found without the characters that do not count, and then extended both ways over any
character. -/
def longestOverlap (counts : Char → Bool) (text reference : List Char) : Overlap :=
  let found := scanOverlaps counts reference 0 ⟨0, 0, 0⟩ (reference.map fun _ => 0) text
  let back := commonLength (text.take found.left).reverse (reference.take found.right).reverse
  let forth := commonLength (text.drop (found.left + found.length))
    (reference.drop (found.right + found.length))
  ⟨found.left - back, found.right - back, back + found.length + forth⟩

/-- The number of characters in the common runs. `fuel` is the length of the first text, which gets
shorter with every run that is taken out. -/
def coveredBy (counts : Char → Bool) : (fuel : Nat) → (text reference : List Char) → Nat
  | 0, _, _ => 0
  | fuel + 1, text, reference =>
    let common := longestOverlap counts text reference
    if common.length = 0 then
      0
    else
      coveredBy counts fuel (text.take common.left) (reference.take common.right) + common.length +
        coveredBy counts fuel (text.drop (common.left + common.length))
          (reference.drop (common.right + common.length))

def covered (text reference : List Char) : Nat :=
  coveredBy (fun c => !isFrequent reference c) text.length text reference

/-- A name with its score, the fraction `2 * covered / total`. -/
structure Candidate where
  name : String
  covered : Nat
  total : Nat

namespace Candidate

def score (target name : String) : Candidate :=
  ⟨name, Text.covered name.toList target.toList, name.length + target.length⟩

/-- A name is close if its score is at least three fifths. -/
def isClose (c : Candidate) : Bool :=
  3 * c.total ≤ 10 * c.covered

/-- The better score comes first, and of two names with the same score the greater one. -/
def precedes (a b : Candidate) : Bool :=
  match compare (b.covered * a.total) (a.covered * b.total) with
  | .lt => true
  | .eq => b.name ≤ a.name
  | .gt => false

end Candidate

def closeNames (target : String) (names : List String) : List String :=
  let candidates := (names.map (Candidate.score target)).filter Candidate.isClose
  (candidates.mergeSort Candidate.precedes).map Candidate.name

end Reckoner.Text
