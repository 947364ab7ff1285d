import Mathlib.Tactic
import TreePack.Proofs.LossyNames
import TreePack.Shell.Arguments

/-!
# Which arguments ask for what

Arguments are byte strings, and they are read as text before they are understood.  Still, what they
ask for can be said of the bytes.  The program packs if there are no arguments, or only the mark
that ends the options.  It shows a flag if the first argument is the name of the flag behind two
hyphens, or begins with its letter behind one.  Everything else is refused.
-/

namespace TreePack

namespace Utf8

theorem head_pieces_iff (c : Char) (bytes : Bytes) :
    (∃ rest, pieces bytes = .char c :: rest) ↔ String.utf8EncodeChar c <+: bytes := by
  constructor
  · rintro ⟨rest, hpieces⟩
    rw [← flatMap_bytes_pieces bytes, hpieces, List.flatMap_cons]
    exact List.prefix_append _ _
  · rintro ⟨rest, rfl⟩
    have hencoded : String.utf8EncodeChar c = Bytes.ofText (String.singleton c) := by
      simp [Bytes.ofText]
    rw [hencoded, pieces_ofText_append]
    exact ⟨pieces rest, by simp⟩

end Utf8

namespace Flag

theorem ofName?_eq_some_iff (name : String) (flag : Flag) :
    ofName? name = some flag ↔ name = flag.name := by
  constructor
  · intro hfound
    have hname := List.find?_some hfound
    exact (of_decide_eq_true hname).symm
  · rintro rfl
    cases flag <;> decide +kernel

theorem ofLetter?_eq_some_iff (c : Char) (flag : Flag) :
    ofLetter? c = some flag ↔ c = flag.letter := by
  constructor
  · intro hfound
    have hletter := List.find?_some hfound
    exact (of_decide_eq_true hletter).symm
  · rintro rfl
    cases flag <;> decide +kernel

/-- The bytes of a flag's letter. -/
theorem exists_encoded_letter (flag : Flag) :
    ∃ b, b ≠ Invocation.hyphen ∧ String.utf8EncodeChar flag.letter = [b] := by
  cases flag
  · exact ⟨0x68, by decide +kernel, by decide +kernel⟩
  · exact ⟨0x56, by decide +kernel, by decide +kernel⟩

end Flag

namespace Invocation

/-- The arguments ask for nothing but to pack. -/
def Accepts (arguments : List Bytes) : Prop :=
  arguments = [] ∨ arguments = [Bytes.ofText "--"]

instance (arguments : List Bytes) : Decidable (Accepts arguments) :=
  inferInstanceAs (Decidable (_ ∨ _))

/-- The first argument asks for this flag, by its name or by its letter.  What comes after the letter
counts for nothing. -/
def AsksFor (flag : Flag) (arguments : List Bytes) : Prop :=
  ∃ first rest, arguments = first :: rest ∧
    (first = Bytes.ofText ("--" ++ flag.name) ∨
      Bytes.ofText ("-" ++ String.singleton flag.letter) <+: first)

/-- The forms of a first argument. -/
inductive Form : Bytes → Prop
  | plain {first : Bytes} : (∀ body, body ≠ [] → first ≠ hyphen :: body) → Form first
  | mark : Form [hyphen, hyphen]
  | long {name : Bytes} : name ≠ [] → Form (hyphen :: hyphen :: name)
  | short {b : UInt8} {body : Bytes} : b ≠ hyphen → Form (hyphen :: b :: body)

theorem form (first : Bytes) : Form first := by
  match first with
  | [] => exact .plain (by simp)
  | [a] =>
      refine .plain fun body hbody heq => hbody ?_
      rw [← (List.cons.inj heq).2]
  | a :: b :: body =>
      by_cases ha : a = hyphen
      · subst ha
        by_cases hb : b = hyphen
        · subst hb
          by_cases hbody : body = []
          · subst hbody
            exact .mark
          · exact .long hbody
        · exact .short hb
      · exact .plain fun rest _ heq => ha (List.cons.inj heq).1

/-! ## What becomes of each form -/

section Forms

variable (rest : List Bytes)

theorem ofArguments_plain {first : Bytes} (hplain : ∀ body, body ≠ [] → first ≠ hyphen :: body) :
    ∃ refusal, ofArguments (first :: rest) = .refuse refusal := by
  match first with
  | [] => exact ⟨_, rfl⟩
  | a :: body =>
      have hnot : a ≠ hyphen ∨ body = [] := by
        by_contra hboth
        rw [not_or, not_not] at hboth
        exact hplain body hboth.2 (by rw [hboth.1])
      refine ⟨.unexpectedArgument (Utf8.lossy (a :: body)) none, ?_⟩
      simp only [ofArguments, if_pos hnot]

theorem ofArguments_mark_cons (next : Bytes) :
    ∃ refusal, ofArguments ([hyphen, hyphen] :: next :: rest) = .refuse refusal := by
  refine ⟨.unexpectedArgument (Utf8.lossy next) none, ?_⟩
  simp [ofArguments]

theorem ofArguments_long {name : Bytes} (hname : name ≠ []) :
    ofArguments ((hyphen :: hyphen :: name) :: rest) = ofLong name := by
  simp [ofArguments, hname]

theorem ofArguments_short {b : UInt8} (hb : b ≠ hyphen) (body : Bytes) :
    ofArguments ((hyphen :: b :: body) :: rest) = ofShort (b :: body) := by
  simp [ofArguments, hb]

end Forms

theorem ofLong_eq_show_iff (body : Bytes) (flag : Flag) :
    ofLong body = .show flag ↔ body = Bytes.ofText flag.name := by
  constructor
  · intro hshow
    have havoids : '\uFFFD' ∉ flag.name.toList := by
      cases flag <;> decide +kernel
    dsimp only [ofLong] at hshow
    split at hshow
    next found hname hrest =>
      cases hshow
      rw [Flag.ofName?_eq_some_iff, Utf8.lossy_eq_iff havoids] at hname
      have hwhole := List.takeWhile_append_dropWhile (p := fun b : UInt8 => b ≠ 0x3D) (l := body)
      rw [← hwhole, hrest, List.append_nil, hname]
    next => contradiction
    next => contradiction
  · rintro rfl
    cases flag <;> decide +kernel

theorem ofLong_ne_pack (body : Bytes) : ofLong body ≠ .pack := by
  dsimp only [ofLong]
  split <;> simp

theorem ofShort_eq_show_iff (body : Bytes) (flag : Flag) :
    ofShort body = .show flag ↔ String.utf8EncodeChar flag.letter <+: body := by
  rw [← Utf8.head_pieces_iff]
  unfold ofShort
  constructor
  · intro hshow
    split at hshow
    next c rest hpieces =>
      split at hshow
      next found hletter =>
        cases hshow
        rw [Flag.ofLetter?_eq_some_iff] at hletter
        exact ⟨rest, by rw [hpieces, hletter]⟩
      next => contradiction
    next => contradiction
  · rintro ⟨rest, hpieces⟩
    rw [hpieces]
    simp only [(Flag.ofLetter?_eq_some_iff flag.letter flag).2 rfl]

theorem ofShort_ne_pack (body : Bytes) : ofShort body ≠ .pack := by
  unfold ofShort
  split
  next => split <;> simp
  next => simp

/-! ## What the arguments ask for -/

theorem ofArguments_eq_pack_iff (arguments : List Bytes) :
    ofArguments arguments = .pack ↔ Accepts arguments := by
  have hmark : Bytes.ofText "--" = [hyphen, hyphen] := by decide +kernel
  unfold Accepts
  rw [hmark]
  cases arguments with
  | nil => simp [ofArguments]
  | cons first rest =>
      cases form first with
      | plain hplain =>
          obtain ⟨refusal, hrefuse⟩ := ofArguments_plain rest hplain
          rw [hrefuse]
          simp only [reduceCtorEq, List.cons.injEq, false_or, false_iff, not_and]
          intro heq
          exact absurd heq (hplain [hyphen] (by simp))
      | mark =>
          cases rest with
          | nil => simp [ofArguments]
          | cons next rest =>
              obtain ⟨refusal, hrefuse⟩ := ofArguments_mark_cons rest next
              rw [hrefuse]
              simp
      | long hname =>
          rw [ofArguments_long rest hname]
          simp [ofLong_ne_pack, hname]
      | short hb =>
          rw [ofArguments_short rest hb]
          simp [ofShort_ne_pack, hb]

theorem asksFor_cons_iff {flag : Flag} {letter : UInt8}
    (hencoded : String.utf8EncodeChar flag.letter = [letter]) (first : Bytes) (rest : List Bytes) :
    AsksFor flag (first :: rest) ↔
      first = hyphen :: hyphen :: Bytes.ofText flag.name ∨
        [letter] <+: first.tail ∧ first.head? = some hyphen := by
  have hname : Bytes.ofText ("--" ++ flag.name) = hyphen :: hyphen :: Bytes.ofText flag.name :=
    Bytes.ofText_append "--" flag.name
  have hletter : Bytes.ofText ("-" ++ String.singleton flag.letter) = [hyphen, letter] := by
    have hsingle : Bytes.ofText (String.singleton flag.letter) = [letter] := by
      simp [Bytes.ofText, hencoded]
    rw [Bytes.ofText_append, hsingle]
    rfl
  unfold AsksFor
  rw [hname, hletter]
  constructor
  · rintro ⟨first, rest, heq, hasks⟩
    cases heq
    refine hasks.imp_right ?_
    rintro ⟨body, rfl⟩
    exact ⟨List.prefix_append [letter] body, rfl⟩
  · intro hasks
    refine ⟨first, rest, rfl, hasks.imp_right ?_⟩
    rintro ⟨hletter, hhyphen⟩
    cases first with
    | nil => contradiction
    | cons a body =>
        cases hhyphen
        exact List.cons_prefix_cons.2 ⟨rfl, hletter⟩

theorem ofArguments_eq_show_iff (arguments : List Bytes) (flag : Flag) :
    ofArguments arguments = .show flag ↔ AsksFor flag arguments := by
  obtain ⟨letter, hletter, hencoded⟩ := flag.exists_encoded_letter
  cases arguments with
  | nil => simp [ofArguments, AsksFor]
  | cons first rest =>
      rw [asksFor_cons_iff hencoded]
      cases form first with
      | plain hplain =>
          obtain ⟨refusal, hrefuse⟩ := ofArguments_plain rest hplain
          have hbody : first.head? = some hyphen → first.tail = [] := by
            intro hhyphen
            by_contra hbody
            exact hplain first.tail hbody (List.cons_head?_tail hhyphen).symm
          rw [hrefuse]
          simp only [reduceCtorEq, false_iff, not_or, not_and]
          refine ⟨hplain _ (by simp), fun hletter hhyphen => ?_⟩
          rw [hbody hhyphen] at hletter
          simp at hletter
      | mark =>
          have hname : Bytes.ofText flag.name ≠ [] := by
            cases flag <;> decide +kernel
          have hnotShown : ofArguments ([hyphen, hyphen] :: rest) ≠ .show flag := by
            cases rest with
            | nil => simp [ofArguments]
            | cons next rest =>
                obtain ⟨refusal, hrefuse⟩ := ofArguments_mark_cons rest next
                rw [hrefuse]
                simp
          simp [hnotShown, hname, hletter]
      | long hname =>
          rw [ofArguments_long rest hname, ofLong_eq_show_iff]
          simp [hletter]
      | short hb =>
          rw [ofArguments_short rest hb, ofShort_eq_show_iff, hencoded]
          simp [hb]

end Invocation

end TreePack
