/-!
# Line ends

A text file may end its lines with CR LF, with a lone CR or with LF.  `Newline.normalize` writes
every one of them as LF, in two passes over the text: pairs first, then the returns that are left.
A text without CR is kept as it is.
-/

namespace TreePack.Newline

/-- Writes CR LF as LF behind the characters `out`, which are held last first. -/
def joinPairsOnto (out : List Char) : List Char → List Char
  | '\r' :: '\n' :: rest => joinPairsOnto ('\n' :: out) rest
  | c :: rest => joinPairsOnto (c :: out) rest
  | [] => out.reverse

def joinPairs (text : List Char) : List Char :=
  joinPairsOnto [] text

def replaceReturns (text : List Char) : List Char :=
  text.map fun c => if c = '\r' then '\n' else c

/-- Whether a text has no CR, so that normalising returns the text itself. -/
def isNormal (text : String) : Bool :=
  !text.toList.contains '\r'

def normalize (text : String) : String :=
  if isNormal text then text
  else String.ofList (replaceReturns (joinPairs text.toList))

theorem joinPairsOnto_append (out earlier text : List Char) :
    joinPairsOnto (out ++ earlier) text = earlier.reverse ++ joinPairsOnto out text := by
  fun_induction joinPairsOnto out text with
  | case1 out rest ih => simpa [joinPairsOnto] using ih
  | case2 out c rest hpair ih => rw [joinPairsOnto.eq_2 _ _ _ hpair]; exact ih
  | case3 out => simp [joinPairsOnto]

@[simp] theorem joinPairs_nil : joinPairs [] = [] := rfl

@[simp] theorem joinPairs_pair (rest : List Char) :
    joinPairs ('\r' :: '\n' :: rest) = '\n' :: joinPairs rest :=
  joinPairsOnto_append [] ['\n'] rest

theorem joinPairs_cons (c : Char) (rest : List Char)
    (hpair : ∀ tail, c = '\r' → rest = '\n' :: tail → False) :
    joinPairs (c :: rest) = c :: joinPairs rest := by
  rw [joinPairs, joinPairsOnto.eq_2 _ _ _ hpair]
  exact joinPairsOnto_append [] [c] rest

end TreePack.Newline
