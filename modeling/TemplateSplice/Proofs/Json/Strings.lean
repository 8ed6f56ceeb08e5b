import Mathlib.Tactic.SplitIfs
import TemplateSplice.Json.Printer
import TemplateSplice.Json.Reader
import TemplateSplice.Proofs.Text.Digits

/-! Strings of JSON texts, read back. Every character is read back from its escape, also one beyond the
first plane, which is written as two units. -/
namespace TemplateSplice.Json

variable {n : Nat} {c : Char} {t : Text}

/-- Four digits are read as the unit that they were written for. -/
lemma unit?_hexDigits (h : n < 0x10000) (t : Text) : unit? (Text.hexDigits 4 n ++ t) = some (n, t) := by
  have hdigit : ∀ d < 16, hexValue? (Nat.digitChar d) = some d := hexValue?_digitChar
  rw [hexDigits_four h]
  simp only [List.cons_append, List.nil_append, unit?, hdigit _ (show n / 16 / 16 / 16 < 16 by omega),
    hdigit _ (Nat.mod_lt (n / 16 / 16) (show 0 < 16 by omega)),
    hdigit _ (Nat.mod_lt (n / 16) (show 0 < 16 by omega)),
    hdigit _ (Nat.mod_lt n (show 0 < 16 by omega)), Option.bind_eq_bind, Option.bind_some,
    Option.some.injEq, Prod.mk.injEq, and_true]
  omega

lemma unitEscape_append (n : Nat) (t : Text) :
    unitEscape n ++ t = '\\' :: 'u' :: (Text.hexDigits 4 n ++ t) := rfl

/-- A unit that is no surrogate stands for a character by itself. -/
lemma unitEscaped?_hexDigits (h : n < 0xD800 ∨ 0xE000 ≤ n ∧ n < 0x10000) (t : Text) :
    unitEscaped? (Text.hexDigits 4 n ++ t) = some (Char.ofNat n, t) := by
  have hhigh : isHighSurrogate n = false := by simp [isHighSurrogate]; omega
  have hlow : isLowSurrogate n = false := by simp [isLowSurrogate]; omega
  unfold unitEscaped?
  rw [unit?_hexDigits (by omega)]
  simp [hhigh, hlow, unitChar]

/-- A high surrogate and a low one stand for one character. -/
lemma unitEscaped?_pair (h : n < 0x100000) (t : Text) :
    unitEscaped? (Text.hexDigits 4 (0xD800 + n / 0x400) ++ (unitEscape (0xDC00 + n % 0x400) ++ t)) =
      some (Char.ofNat (0x10000 + n), t) := by
  have hhigh : isHighSurrogate (0xD800 + n / 0x400) = true := by simp [isHighSurrogate]; omega
  have hlow : isLowSurrogate (0xDC00 + n % 0x400) = true := by simp [isLowSurrogate]; omega
  have hsum : 0x10000 + (0xD800 + n / 0x400 - 0xD800) * 0x400 + (0xDC00 + n % 0x400 - 0xDC00) =
      0x10000 + n := by omega
  unfold unitEscaped?
  rw [unit?_hexDigits (by omega)]
  simp only [Option.bind_eq_bind, Option.bind_some, hhigh, if_true, unitEscape_append]
  rw [unit?_hexDigits (by omega)]
  simp only [hlow, if_true, hsum]

lemma readString_plain (hquote : c ≠ '"') (hslash : c ≠ '\\') (h : 0x20 ≤ c.toNat) (fuel : Nat)
    (t : Text) :
    readString (fuel + 1) (c :: t) = (readString fuel t).map fun p => (c :: p.1, p.2) := by
  rw [readString.eq_def]
  dsimp only
  rw [if_neg hquote, if_neg hslash, if_neg (by omega)]
  cases readString fuel t <;> rfl

lemma readString_short {e : Char} (hu : e ≠ 'u') (h : shortEscape? e = some c) (fuel : Nat)
    (t : Text) :
    readString (fuel + 1) ('\\' :: e :: t) = (readString fuel t).map fun p => (c :: p.1, p.2) := by
  rw [readString.eq_def]
  dsimp only
  rw [if_neg (by decide), if_pos rfl]
  split
  · next heq => exact absurd (List.cons.inj heq).1 hu
  · next heq =>
    obtain ⟨rfl, rfl⟩ := List.cons.inj heq
    rw [h]
    cases readString fuel t <;> rfl
  · next heq => cases heq

lemma readString_unit {r : Text} (h : unitEscaped? r = some (c, t)) (fuel : Nat) :
    readString (fuel + 1) ('\\' :: 'u' :: r) = (readString fuel t).map fun p => (c :: p.1, p.2) := by
  rw [readString.eq_def]
  dsimp only
  rw [if_neg (by decide), if_pos rfl]
  split
  · next heq =>
    obtain rfl := (List.cons.inj heq).2
    rw [h]
    dsimp only
    cases readString fuel t <;> rfl
  · next hne heq =>
    exact (hne (List.cons.inj heq).1.symm).elim
  · next heq => cases heq

/-- Every character is read back from its escape. -/
theorem readString_escapeChar (c : Char) (fuel : Nat) (t : Text) :
    readString (fuel + 1) (escapeChar c ++ t) =
      (readString fuel t).map fun p => (c :: p.1, p.2) := by
  have hvalid : c.toNat < 0xD800 ∨ 0xDFFF < c.toNat ∧ c.toNat < 0x110000 := c.valid
  unfold escapeChar
  split
  case h_8 hquote hslash _ _ _ _ _ =>
    dsimp only
    split_ifs with hascii hunit
    · exact readString_plain hquote hslash hascii.1 fuel t
    · have hunit := unitEscaped?_hexDigits (show c.toNat < 0xD800 ∨ _ by omega) t
      rw [Char.ofNat_toNat] at hunit
      rw [unitEscape_append]
      exact readString_unit hunit fuel
    · have hpair := unitEscaped?_pair (show c.toNat - 0x10000 < 0x100000 by omega) t
      rw [show 0x10000 + (c.toNat - 0x10000) = c.toNat by omega, Char.ofNat_toNat] at hpair
      rw [List.append_assoc, unitEscape_append]
      exact readString_unit hpair fuel
  all_goals
    exact readString_short (by decide) rfl fuel t

/-- An escape has at least one character. -/
lemma length_le_flatMap_escapeChar (s : Text) : s.length ≤ (s.flatMap escapeChar).length := by
  have hpositive : ∀ c, 0 < (escapeChar c).length := by
    intro c
    unfold escapeChar
    split
    case h_8 =>
      dsimp only
      split_ifs
      · exact Nat.one_pos
      · exact Nat.succ_pos _
      · rw [List.length_append]
        exact Nat.add_pos_left (Nat.succ_pos _) _
    all_goals exact Nat.succ_pos _
  induction s with
  | nil => simp
  | cons c s ih =>
    have := hpositive c
    rw [List.flatMap_cons, List.length_append, List.length_cons]
    omega

/-- A string is read back up to its closing quote. -/
theorem readString_flatMap (s : Text) {fuel : Nat} (h : s.length < fuel) (rest : Text) :
    readString fuel (s.flatMap escapeChar ++ '"' :: rest) = .ok (s, rest) := by
  induction s generalizing fuel with
  | nil =>
    obtain ⟨fuel, rfl⟩ := Nat.exists_eq_add_of_lt h
    rfl
  | cons c s ih =>
    obtain ⟨fuel, rfl⟩ : ∃ k, fuel = k + 1 := ⟨fuel - 1, by omega⟩
    rw [List.flatMap_cons, List.append_assoc, readString_escapeChar, ih (by simpa using h)]
    rfl

end TemplateSplice.Json
