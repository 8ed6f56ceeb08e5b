import Mathlib.Algebra.Group.Nat.Defs
import Mathlib.Data.List.Basic
import Mathlib.Tactic.Lemma
import Mathlib.Tactic.SplitIfs
import TemplateSplice.Text.Digit
import TemplateSplice.Text.Quoted

/-! Digits that were written, read back. A number has one decimal numeral, which has zeros in front only
if it is zero; and it has one numeral in base sixteen of each width that it fits in. -/
namespace TemplateSplice

variable {n : Nat} {c : Char} {t : Text}

section Decimal

lemma isDigit_of_mem_decimalDigits (h : c ∈ decimalDigits n) : c.isDigit = true :=
  Nat.isDigit_of_mem_toDigits (by omega) (by omega) h

lemma bounds_of_isDigit (h : c.isDigit = true) : 0x30 ≤ c.toNat ∧ c.toNat ≤ 0x39 := by
  simpa [Char.isDigit, UInt32.le_iff_toNat_le] using h

lemma ne_of_isDigit {d : Char} (hc : c.isDigit = true) (hd : d.isDigit = false) : c ≠ d := by
  rintro rfl
  rw [hc] at hd
  cases hd

lemma digitValue?_of_isDigit (h : c.isDigit = true) : digitValue? c = some (c.toNat - 0x30) := by
  unfold digitValue?
  rw [if_pos (bounds_of_isDigit h)]

lemma isDigit_of_mem (h : c ∈ decimalDigits n) : isDigit c = true := by
  unfold isDigit
  rw [digitValue?_of_isDigit (isDigit_of_mem_decimalDigits h)]
  rfl

/-- The digits of ASCII write the number that they are read as. -/
lemma decimalValue_eq (h : ∀ c ∈ t, c.isDigit = true) : t.decimalValue = Nat.ofDigitChars 10 t 0 := by
  have hvalues : t.digitValues = t.map (·.toNat - 0x30) := by
    unfold Text.digitValues
    rw [← List.filterMap_eq_map]
    exact List.filterMap_congr fun c hc => digitValue?_of_isDigit (h c hc)
  unfold Text.decimalValue ofDigits Nat.ofDigitChars
  rw [hvalues, List.foldl_map]
  rfl

/-- A decimal numeral is read back as its number. -/
theorem decimalValue_decimalDigits (n : Nat) : (decimalDigits n).decimalValue = n := by
  rw [decimalValue_eq fun _ => isDigit_of_mem_decimalDigits]
  exact Nat.ofDigitChars_ten_toDigits

lemma decimalDigits_ne_nil (n : Nat) : decimalDigits n ≠ [] := Nat.toDigits_ne_nil

/-- A numeral that starts with a zero is the zero. -/
lemma eq_nil_of_decimalDigits (h : decimalDigits n = '0' :: t) : t = [] := by
  induction n using Nat.strongRecOn generalizing t with
  | ind n ih =>
    unfold decimalDigits at h
    by_cases hn : n < 10
    · rw [Nat.toDigits_of_lt_base hn] at h
      exact (List.cons.inj h).2.symm
    · rw [Nat.toDigits_of_base_le (by omega) (by omega)] at h
      have hzero : decimalDigits (n / 10) = ['0'] := by
        obtain ⟨c, r, hr⟩ := List.exists_cons_of_ne_nil (decimalDigits_ne_nil (n / 10))
        have hc : c = '0' := by
          unfold decimalDigits at hr
          rw [hr] at h
          exact (List.cons.inj h).1
        rw [hc] at hr
        rw [hr, ih (n / 10) (by omega) hr]
      have hvalue := decimalValue_decimalDigits (n / 10)
      rw [hzero] at hvalue
      have h0 : Text.decimalValue ['0'] = 0 := rfl
      omega

/-- A number of so many digits is written with them. -/
lemma length_decimalDigits_pow10 (k : Nat) : (decimalDigits (10 ^ k)).length = k + 1 := by
  have hupper : (decimalDigits (10 ^ k)).length ≤ k + 1 :=
    (Nat.length_toDigits_le_iff (by omega) (by omega)).mpr (Nat.pow_lt_pow_right (by omega) (by omega))
  have hlower : k = 0 ∨ ¬ (decimalDigits (10 ^ k)).length ≤ k := by
    rcases Nat.eq_zero_or_pos k with hk | hk
    · exact .inl hk
    · exact .inr fun h => Nat.lt_irrefl _ ((Nat.length_toDigits_le_iff (by omega) hk).mp h)
  have hpositive : 0 < (decimalDigits (10 ^ k)).length := Nat.length_toDigits_pos
  omega

lemma mem_intText {i : Int} (h : c ∈ intText i) : c = '-' ∨ c.isDigit = true := by
  unfold intText at h
  rcases List.mem_append.mp h with h | h
  · split_ifs at h
    · exact .inl (List.mem_singleton.mp h)
    · cases h
  · exact .inr (isDigit_of_mem_decimalDigits h)

/-- A numeral starts with a minus or a digit. -/
lemma exists_intText (i : Int) : ∃ c r, intText i = c :: r ∧ (c = '-' ∨ c.isDigit = true) := by
  have hne : intText i ≠ [] := List.append_ne_nil_of_right_ne_nil _ (decimalDigits_ne_nil _)
  obtain ⟨c, r, hr⟩ := List.exists_cons_of_ne_nil hne
  exact ⟨c, r, hr, mem_intText (hr ▸ List.mem_cons_self)⟩

end Decimal

section Hexadecimal

/-- The last digit of a numeral in base sixteen. -/
lemma hexDigits_succ {width : Nat} (hwidth : 0 < width) (n : Nat) :
    Text.hexDigits (width + 1) n = Text.hexDigits width (n / 16) ++ [(n % 16).digitChar] := by
  unfold Text.hexDigits
  by_cases hn : n < 16
  · obtain ⟨k, rfl⟩ := Nat.exists_eq_add_of_lt hwidth
    rw [Nat.toDigits_of_lt_base hn, Nat.div_eq_of_lt hn, Nat.toDigits_of_lt_base (by omega),
      Nat.mod_eq_of_lt hn]
    simp [List.replicate_succ']
  · rw [Nat.toDigits_of_base_le (by omega) (by omega)]
    simp

lemma hexDigits_four {n : Nat} (h : n < 0x10000) : Text.hexDigits 4 n =
    [(n / 16 / 16 / 16).digitChar, (n / 16 / 16 % 16).digitChar, (n / 16 % 16).digitChar,
      (n % 16).digitChar] := by
  have hone : Text.hexDigits 1 (n / 16 / 16 / 16) = [(n / 16 / 16 / 16).digitChar] := by
    unfold Text.hexDigits
    rw [Nat.toDigits_of_lt_base (by omega)]
    rfl
  rw [hexDigits_succ (by omega), hexDigits_succ (by omega), hexDigits_succ (by omega), hone]
  rfl

lemma hexValue?_digitChar : ∀ d < 16, hexValue? (Nat.digitChar d) = some d := by decide

end Hexadecimal

end TemplateSplice
