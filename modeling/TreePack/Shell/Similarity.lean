/-!
# Likeness of words

The likeness of two words is a number between zero and one.  Two equal letters match if they stand
no further apart than half the longer word; the likeness is the mean of the share of matched
letters in either word and the share of matches that are in the same order in both.
-/

namespace TreePack.Similarity

/-- Takes the first free letter equal to `c` at a position from `low` up to `high`, and marks it as
taken. -/
def claim (c : Char) (low high : Nat) : Nat → List (Char × Bool) → Option (List (Char × Bool))
  | _, [] => none
  | j, (d, taken) :: rest =>
      if low ≤ j ∧ j ≤ high ∧ c = d ∧ !taken then some ((d, true) :: rest)
      else (claim c low high (j + 1) rest).map ((d, taken) :: ·)

/-- The letters of the first word that are matched, and the second word with the letters they
match.  Two letters match if they stand at most `reach` apart. -/
def matchLetters (reach : Nat) : Nat → List Char → List (Char × Bool) →
    List Char × List (Char × Bool)
  | _, [], word => ([], word)
  | i, c :: rest, word =>
      match claim c (i - reach) (i + reach) 0 word with
      | some word => let (matched, word) := matchLetters reach (i + 1) rest word
                     (c :: matched, word)
      | none => matchLetters reach (i + 1) rest word

def likeness (a b : List Char) : Float :=
  if a = [] ∧ b = [] then 1.0
  else
    let reach := max a.length b.length / 2 - 1
    let (left, word) := matchLetters reach 0 a (b.map (·, false))
    let right := (word.filter Prod.snd).map Prod.fst
    let matched := left.length
    if matched = 0 then 0.0
    else
      let swaps := ((left.zip right).filter fun (c, d) => c ≠ d).length / 2
      (matched.toFloat / a.length.toFloat + matched.toFloat / b.length.toFloat
        + (matched - swaps).toFloat / matched.toFloat) / 3.0

end TreePack.Similarity
