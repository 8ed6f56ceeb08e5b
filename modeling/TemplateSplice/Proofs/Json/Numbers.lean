import Mathlib.Data.List.TakeDrop
import TemplateSplice.Json.Reader
import TemplateSplice.Proofs.Text.Digits

/-! Whole numbers of JSON texts, read back. A numeral is read up to its end, if what follows it is what may
follow a value in a text. -/
namespace TemplateSplice.Json

variable {rest : Text}

/-- A rest of a text that no number goes on into. -/
def Stops (rest : Text) : Prop := ∀ c ∈ rest.head?, c = ',' ∨ c = ']' ∨ c = '}' ∨ c = '\n'

lemma isAsciiDigit_of_mem {n : Nat} {c : Char} (h : c ∈ decimalDigits n) : isAsciiDigit c = true :=
  isDigit_of_mem_decimalDigits h

lemma digitRun_decimalDigits (n : Nat) (h : Stops rest) :
    digitRun (decimalDigits n ++ rest) = (decimalDigits n, rest) := by
  have hrest : rest.takeWhile isAsciiDigit = [] ∧ rest.dropWhile isAsciiDigit = rest := by
    cases rest with
    | nil => exact ⟨rfl, rfl⟩
    | cons c r =>
      have hc : isAsciiDigit c = false := by
        rcases h c rfl with rfl | rfl | rfl | rfl <;> rfl
      exact ⟨List.takeWhile_cons_of_neg (by simp [hc]), List.dropWhile_cons_of_neg (by simp [hc])⟩
  unfold digitRun
  rw [List.span_eq_takeWhile_dropWhile, List.takeWhile_append_of_pos fun _ => isAsciiDigit_of_mem,
    List.dropWhile_append_of_pos fun _ => isAsciiDigit_of_mem, hrest.1, hrest.2, List.append_nil]

lemma fraction?_of_stops (h : Stops rest) : fraction? rest = none := by
  cases rest with
  | nil => rfl
  | cons c r => rcases h c rfl with rfl | rfl | rfl | rfl <;> rfl

lemma exponent?_of_stops (h : Stops rest) : exponent? rest = none := by
  cases rest with
  | nil => rfl
  | cons c r => rcases h c rfl with rfl | rfl | rfl | rfl <;> rfl

/-- A numeral that is not too long is read back as its number. -/
lemma readNumber_decimalDigits {n : Nat} (hn : (decimalDigits n).length ≤ digitLimit)
    (h : Stops rest) (negative : Bool) :
    readNumber negative (decimalDigits n ++ rest) =
      .ok (.int (if negative then -n else n), rest) := by
  -- A zero in front is the whole numeral, so that cutting it off leaves the same rest.
  have hzero : ∀ r, decimalDigits n = '0' :: r →
      (['0'], (decimalDigits n ++ rest).drop 1) = (decimalDigits n, rest) := by
    intro r hr
    obtain rfl := eq_nil_of_decimalDigits hr
    rw [hr]
    rfl
  unfold readNumber
  rw [digitRun_decimalDigits n h]
  dsimp only
  split
  case' h_1 r hr => rw [hzero r hr]
  all_goals
    simp only [fraction?_of_stops h, exponent?_of_stops h, decimalDigits_ne_nil, Nat.not_lt.mpr hn,
      decimalValue_decimalDigits, if_false, Option.map_none, Option.getD_none]

lemma after?_eq_none {c d : Char} {word r : Text} (h : c ≠ d) : after? (c :: word) (d :: r) = none := by
  unfold after?
  rw [if_neg]
  simp [h]

lemma readScalar_minus {r : Text} (h : after? "Infinity".toList r = none) :
    readScalar ('-' :: r) = readNumber true r := by
  unfold readScalar
  split
  · next heq =>
    cases heq
    rw [h]
  · next hother => exact absurd rfl (hother r)

/-- A whole number is read back from its numeral. -/
lemma readScalar_intText {n : Int} (hn : (decimalDigits n.natAbs).length ≤ digitLimit)
    (h : Stops rest) : readScalar (intText n ++ rest) = .ok (.int n, rest) := by
  obtain ⟨c, r, hr⟩ := List.exists_cons_of_ne_nil (decimalDigits_ne_nil n.natAbs)
  have hc : c.isDigit = true := isDigit_of_mem_decimalDigits (hr ▸ List.mem_cons_self)
  have hother : ∀ d : Char, d.isDigit = false → d ≠ c := fun d hd => (ne_of_isDigit hc hd).symm
  by_cases hneg : n < 0
  · have hread := readNumber_decimalDigits hn h true
    have hinfinity : after? "Infinity".toList (decimalDigits n.natAbs ++ rest) = none := by
      rw [hr]
      exact after?_eq_none (hother 'I' rfl)
    have hn' : -(n.natAbs : Int) = n := by omega
    unfold intText
    rw [if_pos hneg]
    change readScalar ('-' :: (decimalDigits n.natAbs ++ rest)) = _
    rw [readScalar_minus hinfinity, hread, if_pos rfl, hn']
  · have hread := readNumber_decimalDigits hn h false
    have hn' : (n.natAbs : Int) = n := by omega
    have hword : ∀ d word, d.isDigit = false →
        after? (d :: word) (decimalDigits n.natAbs ++ rest) = none := by
      intro d word hd
      rw [hr]
      exact after?_eq_none (hother d hd)
    unfold intText
    rw [if_neg hneg, List.nil_append]
    unfold readScalar
    split
    · next heq =>
      rw [hr] at heq
      exact absurd (List.cons.inj heq).1.symm (hother '-' rfl)
    · rw [show after? "null".toList (decimalDigits n.natAbs ++ rest) = none from hword _ _ rfl,
        show after? "true".toList (decimalDigits n.natAbs ++ rest) = none from hword _ _ rfl,
        show after? "false".toList (decimalDigits n.natAbs ++ rest) = none from hword _ _ rfl,
        show after? "NaN".toList (decimalDigits n.natAbs ++ rest) = none from hword _ _ rfl,
        show after? "Infinity".toList (decimalDigits n.natAbs ++ rest) = none from hword _ _ rfl]
      dsimp only
      rw [hread, if_neg (by simp), hn']

end TemplateSplice.Json
