/-!
# Similar words

Two words are alike when many of their characters agree at about the same place
and in the same order.  What is alike enough is offered for a word that is not
known.

The measure is the mean of three quotients: the characters that agree by the
length of each word, and those of them that are not out of order.
-/

namespace RamlCheck.Similarity

/-- How far apart characters of two words may stand to agree. -/
def reach (first second : List Char) : Nat :=
  max first.length second.length / 2 - 1

/-- The place of a character among others, within `reach` of its own place and not
taken yet. -/
def partner? (reach place : Nat) (char : Char) (taken : List Nat) (word : List Char) :
    Option Nat :=
  (List.range word.length).find? fun other =>
    decide (place ≤ other + reach) && decide (other ≤ place + reach)
      && decide (word[other]? = some char) && !taken.contains other

/-- The places at which the characters of a word agree with another one, each with
the place there. -/
def partners (reach : Nat) (word : List Char) :
    List Char → (place : Nat) → (taken : List Nat) → List (Nat × Nat)
  | [], _, _ => []
  | char :: rest, place, taken =>
      match partner? reach place char taken word with
      | none => partners reach word rest (place + 1) taken
      | some other => (place, other) :: partners reach word rest (place + 1) (other :: taken)

/-- How much two words are alike, from zero to one. -/
def measure (first second : List Char) : Float :=
  let pairs := partners (reach first second) second first 0 []
  let count := pairs.length
  if first.isEmpty && second.isEmpty then 1.0
  else if count = 0 then 0.0
  else
    let agreeing := pairs.map fun pair => first[pair.1]?
    let inOrder := (List.range second.length).filter (fun place => pairs.any (·.2 = place))
      |>.map fun place => second[place]?
    let misplaced := ((agreeing.zip inOrder).filter fun pair => pair.1 ≠ pair.2).length / 2
    (count.toFloat / first.length.toFloat + count.toFloat / second.length.toFloat
      + (count - misplaced).toFloat / count.toFloat) / 3.0

/-- The word that is most alike, if one is alike enough.  Of several, the last one
counts. -/
def best? (word : String) (candidates : List String) : Option String :=
  let measured := candidates.map fun candidate =>
    (candidate, measure word.toList candidate.toList)
  let alike := measured.filter fun candidate => candidate.2 > 0.7
  (alike.foldl (fun best candidate =>
    match best with
    | none => some candidate
    | some known => if known.2 ≤ candidate.2 then some candidate else some known)
    none).map (·.1)

end RamlCheck.Similarity
