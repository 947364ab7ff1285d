import Mathlib.Tactic
import TreePack.Text.Utf8

/-!
# Encodings of characters

A number is encoded in as few bytes as its size allows, and only the numbers of characters are
encoded at all.  `Encodes` says so of one to four bytes and a number.  The encoder of the core
library writes exactly such bytes.  A reader that takes one byte after the other need not compute
the number first: the restrictions on the second byte keep out what is too long, the surrogates and
what lies above the last character.
-/

namespace TreePack.Utf8

/-- The bytes have the shape of an encoding, they hold the number `v`, fewer bytes would not do for
it, and it is the number of a character. -/
def Encodes : Bytes → ℕ → Prop
  | [a], v => a.toNat ≤ 0x7F ∧ v = a.toNat
  | [a, b], v =>
      0xC0 ≤ a.toNat ∧ a.toNat ≤ 0xDF ∧ isContinuation b = true ∧
        v = (a.toNat - 0xC0) * 64 + (b.toNat - 0x80) ∧ 0x80 ≤ v
  | [a, b, c], v =>
      0xE0 ≤ a.toNat ∧ a.toNat ≤ 0xEF ∧ isContinuation b = true ∧ isContinuation c = true ∧
        v = (a.toNat - 0xE0) * 4096 + (b.toNat - 0x80) * 64 + (c.toNat - 0x80) ∧
        0x800 ≤ v ∧ v.isValidChar
  | [a, b, c, d], v =>
      0xF0 ≤ a.toNat ∧ a.toNat ≤ 0xF7 ∧ isContinuation b = true ∧ isContinuation c = true ∧
        isContinuation d = true ∧
        v = (a.toNat - 0xF0) * 262144 + (b.toNat - 0x80) * 4096 + (c.toNat - 0x80) * 64 +
          (d.toNat - 0x80) ∧
        0x10000 ≤ v ∧ v.isValidChar
  | _, _ => False

theorem isContinuation_iff (b : UInt8) :
    isContinuation b = true ↔ 0x80 ≤ b.toNat ∧ b.toNat ≤ 0xBF := by
  simp [isContinuation, UInt8.le_iff_toNat_le]

theorem Encodes.isValidChar {bytes : Bytes} {v : ℕ} (hencodes : Encodes bytes v) :
    v.isValidChar := by
  match bytes, hencodes with
  | [a], ⟨ha, hv⟩ => omega
  | [a, b], ⟨_, ha, hb, hv, _⟩ =>
      rw [isContinuation_iff] at hb
      omega
  | [a, b, c], ⟨_, _, _, _, _, _, hvalid⟩ => exact hvalid
  | [a, b, c, d], ⟨_, _, _, _, _, _, _, hvalid⟩ => exact hvalid

theorem Encodes.exists_char {bytes : Bytes} {v : ℕ} (hencodes : Encodes bytes v) :
    ∃ c : Char, c.toNat = v :=
  ⟨Char.ofNatAux v hencodes.isValidChar, rfl⟩

/-- The bytes that are written for a character are those that encode its number. -/
theorem utf8EncodeChar_eq_iff (c : Char) (bytes : Bytes) :
    String.utf8EncodeChar c = bytes ↔ Encodes bytes c.toNat := by
  have hvalue : c.val.toNat = c.toNat := rfl
  have hvalid : c.toNat.isValidChar := c.valid
  have hbytes : ∀ n a rest other, UInt8.ofNat n :: rest = a :: other ↔
      n % 2 ^ 8 = a.toNat ∧ rest = other := by
    intro n a rest other
    rw [List.cons.injEq, UInt8.ofNat_eq_iff_mod_eq_toNat]
  unfold String.utf8EncodeChar
  simp only [hvalue]
  match bytes with
  | [] => split_ifs <;> simp [Encodes]
  | [a] =>
      simp only [Encodes]
      split_ifs <;> simp only [hbytes, reduceCtorEq, and_true, and_false, false_iff, not_and]
      all_goals omega
  | [a, b] =>
      simp only [Encodes, isContinuation_iff]
      split_ifs <;> simp only [hbytes, reduceCtorEq, and_true, and_false, false_iff, not_and]
      all_goals omega
  | [a, b, d] =>
      simp only [Encodes, isContinuation_iff, hvalid]
      split_ifs <;> simp only [hbytes, reduceCtorEq, and_true, and_false, false_iff, not_and]
      all_goals omega
  | [a, b, d, e] =>
      simp only [Encodes, isContinuation_iff, hvalid]
      split_ifs <;> simp only [hbytes, reduceCtorEq, and_true, and_false, false_iff, not_and]
      all_goals omega
  | _ :: _ :: _ :: _ :: _ :: _ => split_ifs <;> simp [Encodes]

theorem Encodes.utf8EncodeChar_eq {bytes : Bytes} {v : ℕ} (hencodes : Encodes bytes v) :
    String.utf8EncodeChar (Char.ofNat v) = bytes := by
  obtain ⟨c, rfl⟩ := hencodes.exists_char
  rwa [Char.ofNat_toNat, utf8EncodeChar_eq_iff]

/-! ## Encodings byte by byte -/

theorem lengthFrom_cases (a : UInt8) :
    lengthFrom a = 1 ∧ a.toNat ≤ 0x7F ∨
      lengthFrom a = 2 ∧ 0xC2 ≤ a.toNat ∧ a.toNat ≤ 0xDF ∨
      lengthFrom a = 3 ∧ 0xE0 ≤ a.toNat ∧ a.toNat ≤ 0xEF ∨
      lengthFrom a = 4 ∧ 0xF0 ≤ a.toNat ∧ a.toNat ≤ 0xF4 ∨
      lengthFrom a = 0 ∧ (0x80 ≤ a.toNat ∧ a.toNat ≤ 0xC1 ∨ 0xF5 ≤ a.toNat) := by
  simp only [lengthFrom, UInt8.le_iff_toNat_le, UInt8.reduceToNat, Bool.and_eq_true,
    decide_eq_true_eq]
  split_ifs <;> omega

theorem lengthFrom_of_two_le {a : UInt8} (ha : 2 ≤ lengthFrom a) :
    lengthFrom a = 2 ∨ lengthFrom a = 3 ∨ lengthFrom a = 4 := by
  have hcases := lengthFrom_cases a
  omega

theorem lengthFrom_of_three_le {a : UInt8} (ha : 3 ≤ lengthFrom a) :
    lengthFrom a = 3 ∨ lengthFrom a = 4 := by
  have hcases := lengthFrom_cases a
  omega

theorem isSecond_iff (a b : UInt8) :
    isSecond a b = true ↔ isContinuation b = true ∧ (a.toNat = 0xE0 → 0xA0 ≤ b.toNat) ∧
      (a.toNat = 0xED → b.toNat ≤ 0x9F) ∧ (a.toNat = 0xF0 → 0x90 ≤ b.toNat) ∧
      (a.toNat = 0xF4 → b.toNat ≤ 0x8F) := by
  simp only [isSecond, isContinuation, ← UInt8.toNat_inj, UInt8.le_iff_toNat_le,
    UInt8.reduceToNat]
  split_ifs <;> simp only [Bool.and_eq_true, decide_eq_true_eq] <;> omega

theorem encodes_one_iff (a : UInt8) (v : ℕ) :
    Encodes [a] v ↔ lengthFrom a = 1 ∧ v = a.toNat := by
  have hlead := lengthFrom_cases a
  simp only [Encodes]
  omega

theorem encodes_two_iff (a b : UInt8) (v : ℕ) :
    Encodes [a, b] v ↔
      lengthFrom a = 2 ∧ isContinuation b = true ∧
        v = (a.toNat - 0xC0) * 64 + (b.toNat - 0x80) := by
  have hlead := lengthFrom_cases a
  simp only [Encodes, isContinuation_iff]
  omega

theorem encodes_three_iff (a b c : UInt8) (v : ℕ) :
    Encodes [a, b, c] v ↔
      lengthFrom a = 3 ∧ isSecond a b = true ∧ isContinuation c = true ∧
        v = (a.toNat - 0xE0) * 4096 + (b.toNat - 0x80) * 64 + (c.toNat - 0x80) := by
  have hlead := lengthFrom_cases a
  simp only [Encodes, isSecond_iff, isContinuation_iff]
  omega

theorem encodes_four_iff (a b c d : UInt8) (v : ℕ) :
    Encodes [a, b, c, d] v ↔
      lengthFrom a = 4 ∧ isSecond a b = true ∧ isContinuation c = true ∧
        isContinuation d = true ∧
        v = (a.toNat - 0xF0) * 262144 + (b.toNat - 0x80) * 4096 + (c.toNat - 0x80) * 64 +
          (d.toNat - 0x80) := by
  have hlead := lengthFrom_cases a
  simp only [Encodes, isSecond_iff, isContinuation_iff]
  omega

/-- The bytes begin the encoding of some character and do not end it. -/
def Unfinished : Bytes → Prop
  | [] => True
  | [a] => 2 ≤ lengthFrom a
  | [a, b] => 3 ≤ lengthFrom a ∧ isSecond a b = true
  | [a, b, c] => lengthFrom a = 4 ∧ isSecond a b = true ∧ isContinuation c = true
  | _ => False

section Classify

variable {pending : Bytes} {b : UInt8}

theorem Unfinished.of_concat (hunfinished : Unfinished (pending ++ [b])) : Unfinished pending := by
  match pending, hunfinished with
  | [], _ => trivial
  | [a], ⟨ha, _⟩ => exact Nat.le_of_succ_le ha
  | [a, a'], ⟨ha, hsecond, _⟩ => exact ⟨by omega, hsecond⟩
  | _ :: _ :: _ :: _, hunfinished => simp [Unfinished] at hunfinished

theorem Encodes.unfinished {v : ℕ} (hencodes : Encodes (pending ++ [b]) v) :
    Unfinished pending := by
  match pending, hencodes with
  | [], _ => trivial
  | [a], hencodes =>
      have hlength := ((encodes_two_iff a b v).1 hencodes).1
      exact hlength.ge
  | [a, a'], hencodes =>
      obtain ⟨hlength, hsecond, -⟩ := (encodes_three_iff a a' b v).1 hencodes
      exact ⟨hlength.ge, hsecond⟩
  | [a, a', a''], hencodes =>
      obtain ⟨hlength, hsecond, hthird, -⟩ := (encodes_four_iff a a' a'' b v).1 hencodes
      exact ⟨hlength, hsecond, hthird⟩
  | _ :: _ :: _ :: _ :: _, hencodes => simp [Encodes] at hencodes

theorem Encodes.classify_eq {bytes : Bytes} {v : ℕ} (hencodes : Encodes bytes v) :
    classify bytes = .whole (Char.ofNat v) := by
  match bytes, hencodes with
  | [a], hencodes =>
      obtain ⟨hlength, hv⟩ := (encodes_one_iff a v).1 hencodes
      simp only [classify, hlength, hv]
  | [a, b], hencodes =>
      obtain ⟨hlength, hb, hv⟩ := (encodes_two_iff a b v).1 hencodes
      simp only [classify, hlength, hb, hv, if_true]
  | [a, b, c], hencodes =>
      obtain ⟨hlength, -, hc, hv⟩ := (encodes_three_iff a b c v).1 hencodes
      simp only [classify, hlength, hc, hv, if_true]
  | [a, b, c, d], hencodes =>
      obtain ⟨-, -, -, hd, hv⟩ := (encodes_four_iff a b c d v).1 hencodes
      simp only [classify, hd, hv, if_true]

/-- A byte that ends an encoding gives the character of this encoding, and one that goes on with it
leaves it unfinished. -/
theorem Unfinished.classify_concat (hpending : Unfinished pending) (b : UInt8) :
    match classify (pending ++ [b]) with
    | .whole c => ∃ v, Encodes (pending ++ [b]) v ∧ c = Char.ofNat v
    | .opening => Unfinished (pending ++ [b])
    | .broken => True := by
  match pending, hpending with
  | [], _ =>
      rcases lengthFrom_cases b with ⟨h, -⟩ | ⟨h, -⟩ | ⟨h, -⟩ | ⟨h, -⟩ | ⟨h, -⟩
      · simp only [List.nil_append, classify, h]
        exact ⟨_, (encodes_one_iff b _).2 ⟨h, rfl⟩, rfl⟩
      all_goals simp [classify, h, Unfinished]
  | [a], ha =>
      rcases lengthFrom_of_two_le ha with h | h | h
      · cases hb : isContinuation b with
        | true =>
            simp only [List.singleton_append, classify, h, hb, if_true]
            exact ⟨_, (encodes_two_iff a b _).2 ⟨h, hb, rfl⟩, rfl⟩
        | false => simp [classify, h, hb]
      all_goals cases hb : isSecond a b <;> simp [classify, h, hb, Unfinished]
  | [a, a'], ⟨ha, hsecond⟩ =>
      rcases lengthFrom_of_three_le ha with h | h
      · cases hb : isContinuation b with
        | true =>
            simp only [List.cons_append, List.nil_append, classify, h, hb, if_true]
            exact ⟨_, (encodes_three_iff a a' b _).2 ⟨h, hsecond, hb, rfl⟩, rfl⟩
        | false => simp [classify, h, hb]
      · cases hb : isContinuation b <;> simp [classify, h, hb, hsecond, Unfinished]
  | [a, a', a''], ⟨ha, hsecond, hthird⟩ =>
      cases hb : isContinuation b with
      | true =>
          simp only [List.cons_append, List.nil_append, classify, hb, if_true]
          exact ⟨_, (encodes_four_iff a a' a'' b _).2 ⟨ha, hsecond, hthird, hb, rfl⟩, rfl⟩
      | false => simp [classify, hb]
  | _ :: _ :: _ :: _ :: _, hpending => simp [Unfinished] at hpending

theorem Unfinished.classify_eq (hpending : Unfinished pending) (hne : pending ≠ []) :
    classify pending = .opening := by
  match pending, hpending with
  | [a], ha =>
      rcases lengthFrom_of_two_le ha with h | h | h <;> simp only [classify, h]
  | [a, a'], ⟨ha, hsecond⟩ =>
      rcases lengthFrom_of_three_le ha with h | h <;> simp only [classify, h, hsecond, if_true]
  | [a, a', a''], ⟨ha, _, hthird⟩ => simp only [classify, ha, hthird, if_true]
  | _ :: _ :: _ :: _ :: _, hpending => simp [Unfinished] at hpending

theorem classify_concat_eq_broken (hne : pending ≠ []) (hb : isContinuation b = false) :
    classify (pending ++ [b]) = .broken := by
  have hsecond : ∀ a, isSecond a b = false := by
    intro a
    rw [Bool.eq_false_iff, ne_eq, isSecond_iff, hb]
    simp
  match pending with
  | [a] =>
      simp only [List.singleton_append, classify, hsecond, hb]
      split <;> rfl
  | [a, a'] =>
      simp only [List.cons_append, List.nil_append, classify, hb]
      split <;> rfl
  | [a, a', a''] => simp [classify, hb]
  | _ :: _ :: _ :: _ :: _ => simp [classify]

/-- No character is encoded from a byte that goes on with an encoding. -/
theorem Encodes.isContinuation_head {rest : Bytes} {v : ℕ} (hencodes : Encodes (b :: rest) v) :
    isContinuation b = false := by
  rw [Bool.eq_false_iff, ne_eq, isContinuation_iff]
  match rest, hencodes with
  | [], ⟨hb, _⟩ => omega
  | [a], ⟨hb, _⟩ => omega
  | [a, a'], ⟨hb, _⟩ => omega
  | [a, a', a''], ⟨hb, _⟩ => omega
  | _ :: _ :: _ :: _ :: _, hencodes => simp [Encodes] at hencodes

end Classify

end TreePack.Utf8
