/-!
How alike two words are: the mean of three ratios, computed from the characters
they share at nearby places.
-/

namespace Unclosed

structure Ratio where
  top : Nat
  bottom : Nat

namespace Similarity

/-- Pair a character with the first free equal one that is near enough, and
answer the place of the partner. -/
def partner? (letter : Char) (low high : Nat) (other : List Char) (taken : List Nat) :
    Option Nat :=
  (List.range other.length).find? fun place =>
    low ≤ place && place ≤ high && other[place]? == some letter && !taken.contains place

/-- The characters of the first word that have a partner, and the places of the
partners, in the order of the first word. -/
def partners (reach : Nat) (other : List Char) : Nat → List Nat → List Char →
    List (Char × Nat)
  | _, _, [] => []
  | place, taken, letter :: letters =>
    match partner? letter (place - reach) (place + reach) other taken with
    | some found =>
      (letter, found) :: partners reach other (place + 1) (found :: taken) letters
    | none => partners reach other (place + 1) taken letters

/-- Shared characters whose order differs in the two words count half. -/
def misplaced (shared : List (Char × Nat)) (other : List Char) : Nat :=
  let places := (shared.map (·.2)).mergeSort
  let inOther := places.filterMap (other[·]?)
  ((shared.map (·.1)).zip inOther |>.filter fun (first, second) => first != second).length / 2

def ratio (first second : List Char) : Ratio :=
  let firstLength := first.length
  let secondLength := second.length
  let shared := partners (max firstLength secondLength / 2 - 1) second 0 [] first
  let count := shared.length
  if count = 0 then ⟨0, 1⟩
  else
    ⟨count * count * secondLength + count * count * firstLength
        + (count - misplaced shared second) * firstLength * secondLength,
      3 * count * firstLength * secondLength⟩

end Similarity

/-- The most similar of some words, if it is at least seven tenths alike. -/
def similarWord? (word : String) (words : List String) : Option String :=
  let rated := words.map fun other => (Similarity.ratio word.toList other.toList, other)
  let close := rated.filter fun (ratio, _) => 7 * ratio.bottom ≤ 10 * ratio.top
  (close.foldl (fun best next =>
    match best with
    | some (ratio, other) =>
      if next.1.top * ratio.bottom < ratio.top * next.1.bottom then some (ratio, other)
      else some next
    | none => some next) none).map (·.2)

end Unclosed
