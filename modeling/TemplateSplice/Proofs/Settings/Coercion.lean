import TemplateSplice.Command.Output
import TemplateSplice.Proofs.Json.RoundTrip
import TemplateSplice.Proofs.Text.Case
import TemplateSplice.Proofs.Text.Strip
import TemplateSplice.Settings.Coercion

/-! Values of environment variables, read back. What is written as JSON, as a numeral or as a truth value
is read as what it was written for, no reading takes the texts of another one, and blanks around a text
do not count. -/
namespace TemplateSplice.Settings

variable {t u a b : Text} {c : Char} {v : Value}

section Readings

lemma coerce_of_truth {b : Bool} (h : truth? t.strip = some b) : coerce t = .ok (.bool b) := by
  unfold coerce
  dsimp only
  rw [h]

lemma coerce_of_whole {negative : Bool} {digits : Text} (htruth : truth? t.strip = none)
    (h : whole? t.strip = some (negative, digits)) : coerce t = wholeValue t negative digits := by
  unfold coerce
  dsimp only
  rw [htruth, h]

lemma coerce_of_bracketed (htruth : truth? t.strip = none) (hwhole : whole? t.strip = none)
    (hpointed : pointed? t.strip = none) (h : isBracketed t.strip = true) :
    coerce t = bracketedValue t.strip := by
  unfold coerce
  dsimp only
  rw [htruth, hwhole, hpointed]
  exact if_pos h

lemma coerce_of_plain (htruth : truth? t.strip = none) (hwhole : whole? t.strip = none)
    (hpointed : pointed? t.strip = none) (h : isBracketed t.strip = false) :
    coerce t = .ok (.str (String.ofList t.strip)) := by
  unfold coerce
  dsimp only
  rw [htruth, hwhole, hpointed]
  exact if_neg (by simp [h])

/-- A text is no truth value if it starts like none. -/
lemma truth?_eq_none (hsmall : IsSmall c) (ht : c ≠ 't') (hf : c ≠ 'f') (r : Text) :
    truth? (c :: r) = none := by
  have hlower : Text.lower (c :: r) = c :: Text.lowerAfter [c] r := by
    unfold Text.lower
    rw [Text.lowerAfter, if_neg hsmall.2.1, if_neg hsmall.2.2, hsmall.1]
    rfl
  have htrue : c :: Text.lowerAfter [c] r ≠ "true".toList := fun h => ht (List.cons.inj h).1
  have hfalse : c :: Text.lowerAfter [c] r ≠ "false".toList := fun h => hf (List.cons.inj h).1
  unfold truth?
  rw [hlower, if_neg htrue, if_neg hfalse]

end Readings

section Numerals

lemma isSmall_of_isDigit (h : c.isDigit = true) : IsSmall c := by
  obtain ⟨hlow, hhigh⟩ := bounds_of_isDigit h
  refine ⟨?_, ne_of_isDigit h rfl, ne_of_isDigit h rfl⟩
  have hcapital : ¬ ('A' ≤ c ∧ c ≤ 'Z') := by
    rintro ⟨hA, -⟩
    have : 0x41 ≤ c.toNat := hA
    omega
  unfold lowerChar
  rw [if_pos (by omega)]
  unfold Char.toLower
  exact dif_neg hcapital

lemma isBlank_of_isDigit (h : c.isDigit = true) : isBlank c = false := by
  obtain ⟨hlow, hhigh⟩ := bounds_of_isDigit h
  simp [isBlank]
  omega

lemma not_blank_of_mem_intText {n : Int} (h : c ∈ intText n) : isBlank c = false := by
  rcases mem_intText h with rfl | hc
  · rfl
  · exact isBlank_of_isDigit hc

lemma unsigned_of_ne (hminus : c ≠ '-') (hplus : c ≠ '+') (r : Text) :
    unsigned (c :: r) = (false, c :: r) := by
  unfold unsigned
  split
  · next heq => exact absurd (List.cons.inj heq).1 hminus
  · next heq => exact absurd (List.cons.inj heq).1 hplus
  · rfl

lemma unsigned_intText (n : Int) : unsigned (intText n) = (decide (n < 0), decimalDigits n.natAbs) := by
  unfold intText
  by_cases hneg : n < 0
  · rw [if_pos hneg, decide_eq_true hneg]
    rfl
  · obtain ⟨c, r, hr⟩ := List.exists_cons_of_ne_nil (decimalDigits_ne_nil n.natAbs)
    have hc : c.isDigit = true := isDigit_of_mem_decimalDigits (hr ▸ List.mem_cons_self)
    rw [if_neg hneg, decide_eq_false hneg, List.nil_append, hr,
      unsigned_of_ne (ne_of_isDigit hc rfl) (ne_of_isDigit hc rfl)]

/-- The numeral of a whole number is its sign and its digits. -/
lemma whole?_intText (n : Int) : whole? (intText n) = some (decide (n < 0), decimalDigits n.natAbs) := by
  unfold whole?
  rw [unsigned_intText]
  exact if_pos ⟨decimalDigits_ne_nil _, List.all_eq_true.mpr fun _ => isDigit_of_mem⟩

lemma truth?_intText (n : Int) : truth? (intText n) = none := by
  obtain ⟨c, r, hr, rfl | hc⟩ := exists_intText n
  · rw [hr]
    exact truth?_eq_none (by decide +kernel) (by decide) (by decide) r
  · rw [hr]
    exact truth?_eq_none (isSmall_of_isDigit hc) (ne_of_isDigit hc rfl) (ne_of_isDigit hc rfl) r

lemma any_takeWhile_of_not_blank (h : ∀ c ∈ t, isBlank c = false) :
    (t.takeWhile isBlank).any isSeparator = false := by
  cases t with
  | nil => rfl
  | cons c r =>
    rw [List.takeWhile_cons_of_neg (by simp [h c List.mem_cons_self])]
    rfl

/-- The numeral of a whole number is read back as the number, unless it has too many digits. -/
theorem coerce_intText (n : Int) : coerce (intText n) =
    if digitLimit < (decimalDigits n.natAbs).length then
      .error (.tooManyDigits (decimalDigits n.natAbs).length)
    else .ok (.int n) := by
  have hstrip : Text.strip (intText n) = intText n :=
    Text.strip_eq_self fun _ => not_blank_of_mem_intText
  have hfront := any_takeWhile_of_not_blank fun _ => not_blank_of_mem_intText (n := n)
  have hback : ((intText n).reverse.takeWhile isBlank).any isSeparator = false :=
    any_takeWhile_of_not_blank fun _ hc => not_blank_of_mem_intText (List.mem_reverse.mp hc)
  have hsign : (if decide (n < 0) = true then -(n.natAbs : Int) else n.natAbs) = n := by
    by_cases hneg : n < 0
    · rw [if_pos (decide_eq_true hneg)]
      omega
    · rw [if_neg (by simpa using hneg)]
      omega
  rw [coerce_of_whole (by rw [hstrip, truth?_intText]) (by rw [hstrip, whole?_intText])]
  unfold wholeValue
  simp only [hfront, hback, Bool.false_eq_true, if_false, decimalValue_decimalDigits, hsign]

end Numerals

section Json

lemma exists_bracketed {v : Value} (hv : ∀ s, v ≠ .scalar s) (indent : Option Nat) :
    ∃ first mid last, Json.text indent v = first :: mid ++ [last] ∧
      (first = '[' ∧ last = ']' ∨ first = '{' ∧ last = '}') := by
  unfold Json.text
  cases v with
  | scalar s => exact absurd rfl (hv s)
  | array items =>
    cases items with
    | nil => exact ⟨'[', [], ']', rfl, .inl ⟨rfl, rfl⟩⟩
    | cons v items => exact ⟨'[', _, ']', by rw [Json.textAt]; rfl, .inl ⟨rfl, rfl⟩⟩
  | object m =>
    cases m with
    | nil => exact ⟨'{', [], '}', rfl, .inr ⟨rfl, rfl⟩⟩
    | cons p m => exact ⟨'{', _, '}', by rw [Json.textAt]; rfl, .inr ⟨rfl, rfl⟩⟩

/-- A text in brackets is no truth value and no number. -/
lemma coerce_of_brackets {first last : Char} {mid : Text}
    (h : first = '[' ∧ last = ']' ∨ first = '{' ∧ last = '}')
    (ht : t.strip = first :: mid ++ [last]) : coerce t = bracketedValue t.strip := by
  have hlast : (first :: mid ++ [last]).getLast? = some last := List.getLast?_concat
  refine coerce_of_bracketed ?_ ?_ ?_ ?_
  · rw [ht]
    rcases h with ⟨rfl, -⟩ | ⟨rfl, -⟩
    · exact truth?_eq_none (by decide +kernel) (by decide) (by decide) _
    · exact truth?_eq_none (by decide +kernel) (by decide) (by decide) _
  · rw [ht]
    rcases h with ⟨rfl, -⟩ | ⟨rfl, -⟩ <;> rfl
  · rw [ht]
    rcases h with ⟨rfl, -⟩ | ⟨rfl, -⟩ <;> rfl
  · unfold isBracketed
    rw [ht, hlast]
    rcases h with ⟨rfl, rfl⟩ | ⟨rfl, rfl⟩ <;> rfl

/-- A JSON array or object is read back from what is printed of it. -/
theorem coerce_json (o : Command.Output) (h : Json.FloatFree v) (hv : ∀ s, v ≠ .scalar s) :
    coerce (o.json v) = .ok v := by
  obtain ⟨first, mid, last, htext, hends⟩ := exists_bracketed hv o.indent
  have hblank : isBlank first = false ∧ isBlank last = false := by
    rcases hends with ⟨rfl, rfl⟩ | ⟨rfl, rfl⟩ <;> decide
  have hcore : Text.strip (Json.text o.indent v) = Json.text o.indent v := by
    rw [htext]
    refine Text.trim_eq_self (fun c hc => ?_) fun c hc => ?_
    · obtain rfl : first = c := by simpa using hc
      exact hblank.1
    · rw [List.getLast?_concat] at hc
      obtain rfl : last = c := by simpa using hc
      exact hblank.2
  have hstrip : Text.strip (o.json v) = Json.text o.indent v :=
    (Text.trim_append (a := []) (Json.text o.indent v) (List.forall_mem_singleton.mpr rfl)).trans hcore
  rw [coerce_of_brackets hends (hstrip.trans htext), hstrip]
  unfold bracketedValue
  rw [Json.read_text h]

end Json

section Truth

@[simp] lemma isBlank_toLower (c : Char) : isBlank c.toLower = isBlank c :=
  forall_char_of_capitals (P := fun c => isBlank c.toLower = isBlank c) (by decide +kernel)
    (fun c hc => by rw [hc]) c

/-- The words of the truth values are read in any letter case. -/
theorem coerce_truth (b : Bool) (h : t.map Char.toLower = (if b then "true" else "false").toList) :
    coerce t = .ok (.bool b) := by
  have hword : ∀ d ∈ (if b then "true" else "false").toList, isBlank d = false := by
    cases b <;> simp [isBlank]
  have hblank : ∀ c ∈ t, isBlank c = false := by
    intro c hc
    rw [← isBlank_toLower]
    exact hword _ (h ▸ List.mem_map_of_mem hc)
  have hlower : Text.lower t = (if b then "true" else "false").toList := by
    rw [← Text.lower_map_toLower, h]
    cases b <;> decide +kernel
  refine coerce_of_truth ?_
  rw [Text.strip_eq_self hblank]
  unfold truth?
  dsimp only
  rw [hlower]
  cases b <;> rfl

end Truth

section Blanks

/-- What a text is read as is decided by what it is stripped to, unless that is a whole number. -/
lemma coerce_congr (h : t.strip = u.strip) (hwhole : whole? t.strip = none) : coerce t = coerce u := by
  have hwhole' : whole? u.strip = none := h ▸ hwhole
  unfold coerce
  dsimp only
  rw [hwhole, hwhole', h]
  cases truth? u.strip with
  | some b => rfl
  | none => cases pointed? u.strip <;> rfl

/-- Blanks in front of a text that is not blank bring in no separators but their own. -/
lemma any_takeWhile_append (hblank : ∀ c ∈ a, isBlank c = true) (hplain : ∀ c ∈ a, isSeparator c = false)
    (ht : ∃ c ∈ t, isBlank c = false) (b : Text) :
    ((a ++ t ++ b).takeWhile isBlank).any isSeparator = (t.takeWhile isBlank).any isSeparator := by
  obtain ⟨c, hc, hcblank⟩ := ht
  have hlength : ¬ (t.takeWhile isBlank).length = t.length := by
    intro hlength
    have hall : t.takeWhile isBlank = t := List.takeWhile_prefix _ |>.eq_of_length hlength
    rw [← hall] at hc
    simp [List.all_eq_true.mp List.all_takeWhile c hc] at hcblank
  have hnone : a.any isSeparator = false := by simpa using hplain
  rw [List.append_assoc, List.takeWhile_append_of_pos hblank, List.takeWhile_append, if_neg hlength,
    List.any_append, hnone, Bool.false_or]

/-- Blanks around a text do not change its value, unless they are separators around a whole number. -/
theorem coerce_append (t : Text) (hblank : ∀ c ∈ a ++ b, isBlank c = true)
    (h : whole? t.strip = none ∨ ∀ c ∈ a ++ b, isSeparator c = false) :
    (coerce (a ++ t ++ b)).toOption = (coerce t).toOption := by
  have hstrip : Text.strip (a ++ t ++ b) = t.strip := Text.trim_append t hblank
  cases htruth : truth? t.strip with
  | some b =>
    rw [coerce_of_truth htruth, coerce_of_truth (hstrip ▸ htruth)]
  | none =>
    cases hwhole : whole? t.strip with
    | none => rw [coerce_congr (hstrip.symm) hwhole]
    | some p =>
      obtain ⟨negative, digits⟩ := p
      rw [hwhole] at h
      obtain ⟨hplaina, hplainb⟩ := List.forall_mem_append.mp (h.resolve_left (by simp))
      obtain ⟨hblanka, hblankb⟩ := List.forall_mem_append.mp hblank
      have hne : t.strip ≠ [] := by
        intro hnil
        rw [hnil] at hwhole
        cases hwhole
      obtain ⟨c, hc, hcblank⟩ := Text.exists_of_strip_ne_nil hne
      have hfront := any_takeWhile_append hblanka hplaina ⟨c, hc, hcblank⟩ b
      have hback : ((a ++ t ++ b).reverse.takeWhile isBlank).any isSeparator =
          (t.reverse.takeWhile isBlank).any isSeparator := by
        rw [List.reverse_append, List.reverse_append, ← List.append_assoc]
        refine any_takeWhile_append (fun c hc => hblankb c (List.mem_reverse.mp hc))
          (fun c hc => hplainb c (List.mem_reverse.mp hc)) ⟨c, List.mem_reverse.mpr hc, hcblank⟩ _
      rw [coerce_of_whole htruth hwhole,
        coerce_of_whole (by rw [hstrip, htruth]) (by rw [hstrip, hwhole])]
      unfold wholeValue
      rw [hfront, hback]
      split_ifs <;> rfl

end Blanks

section Texts

variable {s : String}

/-- What starts with a bracket is read as no string. -/
lemma readValue_ne_str {fuel : Nat} {r rest : Text} (hc : c = '[' ∨ c = '{') :
    Json.readValue fuel (c :: r) ≠ .ok (.str s, rest) := by
  cases fuel with
  | zero => exact nofun
  | succ fuel =>
    rcases hc with rfl | rfl
    · rw [Json.readValue_bracket]
      split
      · exact nofun
      · intro h
        cases hr : Json.readItems fuel (Json.skipSpace r) <;> rw [hr] at h <;> cases h
    · rw [Json.readValue_brace]
      split
      · exact nofun
      · intro h
        cases hr : Json.readPairs fuel (Json.skipSpace r) <;> rw [hr] at h <;> cases h

/-- A text in brackets is no string of a JSON text. -/
lemma read_ne_str (h : isBracketed t = true) : Json.read t ≠ .ok (.str s) := by
  obtain ⟨c, r, rfl, hc⟩ : ∃ c r, t = c :: r ∧ (c = '[' ∨ c = '{') := by
    cases t with
    | nil => cases h
    | cons c r =>
      refine ⟨c, r, rfl, ?_⟩
      unfold isBracketed at h
      split at h
      · next hhead _ => exact .inr (Option.some.inj hhead)
      · next hhead _ => exact .inl (Option.some.inj hhead)
      · cases h
  have hskip : Json.skipSpace (c :: r) = c :: r := by
    rcases hc with rfl | rfl <;> rfl
  intro hread
  unfold Json.read at hread
  rw [hskip] at hread
  cases hvalue : Json.readValue (2 * (c :: r).length + 2) (c :: r) with
  | error fault =>
    rw [hvalue] at hread
    cases hread
  | ok p =>
    obtain ⟨v, rest⟩ := p
    rw [hvalue] at hread
    dsimp only [bind, Except.bind] at hread
    split_ifs at hread
    cases hread
    exact readValue_ne_str hc hvalue

lemma eq_of_bracketedValue (h : isBracketed t = true) (hs : bracketedValue t = .ok (.str s)) :
    s.toList = t := by
  unfold bracketedValue at hs
  split at hs
  · next v hread =>
    cases hs
    exact absurd hread (read_ne_str h)
  · cases hs
  · cases hs
    exact String.toList_ofList

lemma wholeValue_ne_str (t : Text) (negative : Bool) (digits : Text) :
    wholeValue t negative digits ≠ .ok (.str s) := by
  unfold wholeValue
  split_ifs <;> exact nofun

/-- A text that is read as a text is stripped, and no numeral of a whole number. -/
lemma eq_strip_of_coerce (h : coerce t = .ok (.str s)) : whole? t.strip = none ∧ s.toList = t.strip := by
  cases htruth : truth? t.strip with
  | some b =>
    rw [coerce_of_truth htruth] at h
    cases h
  | none =>
    cases hwhole : whole? t.strip with
    | some p =>
      rw [coerce_of_whole htruth hwhole] at h
      exact absurd h (wholeValue_ne_str t p.1 p.2)
    | none =>
      refine ⟨rfl, ?_⟩
      cases hpointed : pointed? t.strip with
      | some p =>
        unfold coerce at h
        dsimp only at h
        rw [htruth, hwhole, hpointed] at h
        cases h
      | none =>
        cases hbracketed : isBracketed t.strip with
        | true =>
          rw [coerce_of_bracketed htruth hwhole hpointed hbracketed] at h
          exact eq_of_bracketedValue hbracketed h
        | false =>
          rw [coerce_of_plain htruth hwhole hpointed hbracketed] at h
          cases h
          exact String.toList_ofList

/-- What a text is read as, if it is a text, is that text stripped, and it is read as itself. -/
theorem coerce_str (h : coerce t = .ok (.str s)) :
    s.toList = t.strip ∧ coerce s.toList = .ok (.str s) := by
  obtain ⟨hwhole, hs⟩ := eq_strip_of_coerce h
  have hstrip : Text.strip t.strip = t.strip := Text.trim_trim isBlank t
  refine ⟨hs, ?_⟩
  rw [hs, ← coerce_congr hstrip.symm hwhole, h]

end Texts

/-- Values of environment variables are read back. What is printed of a JSON array or object without other
numbers than whole ones is read as that value; so is the numeral of a whole number, if it has no more
digits than numbers may have, and the word of a truth value in any letter case. Blanks around a text do
not change its value, unless they are information separators around a whole number. A text that is read
as a text is read as itself, stripped. -/
theorem values_read_back :
    (∀ (o : Command.Output) (v : Value), Json.FloatFree v → (∀ s, v ≠ .scalar s) →
      coerce (o.json v) = .ok v) ∧
    (∀ n : Int, (decimalDigits n.natAbs).length ≤ digitLimit → coerce (intText n) = .ok (.int n)) ∧
    (∀ (b : Bool) (t : Text), t.map Char.toLower = (if b then "true" else "false").toList →
      coerce t = .ok (.bool b)) ∧
    (∀ a t b : Text, (∀ c ∈ a ++ b, isBlank c = true) →
      whole? t.strip = none ∨ (∀ c ∈ a ++ b, isSeparator c = false) →
        (coerce (a ++ t ++ b)).toOption = (coerce t).toOption) ∧
    ∀ (t : Text) (s : String), coerce t = .ok (.str s) →
      s.toList = t.strip ∧ coerce s.toList = .ok (.str s) := by
  refine ⟨fun o v => coerce_json o, fun n hn => ?_, fun b t => coerce_truth b,
    fun a t b => coerce_append t, fun t s => coerce_str⟩
  rw [coerce_intText, if_neg (by omega)]

/-- A value with characters that are escaped, one of them as two units. -/
def sampleValue : Value :=
  .object [(.str "\n", .array [.int (-7), .str "é😀", .null]), (.str "", .object [])]

lemma floatFree_sampleValue : Json.FloatFree sampleValue := by
  refine .object _ (by simp) (by decide) fun p hp => ?_
  rcases List.mem_pair.mp hp with rfl | rfl
  · refine .array _ fun v hv => ?_
    simp only [List.mem_cons, List.not_mem_nil, or_false] at hv
    rcases hv with rfl | rfl | rfl
    · exact .int _ (by decide +kernel)
    · exact .str _
    · exact .null
  · exact .object [] (by simp) (by simp) (by simp)

theorem values_read_back_sample :
    coerce (Command.Output.json ⟨true, some 0⟩ sampleValue) = .ok sampleValue ∧
      coerce (intText (-12)) = .ok (.int (-12)) ∧ coerce "TrUE".toList = .ok (.bool true) ∧
      (coerce ("\u2003".toList ++ "-12".toList ++ "\n".toList)).toOption =
        (coerce "-12".toList).toOption ∧
      coerce " [a b".toList = .ok (.str "[a b") ∧ coerce "[a b".toList = .ok (.str "[a b") := by
  obtain ⟨hjson, hint, htruth, hblanks, htext⟩ := values_read_back
  have hplain : coerce " [a b".toList = .ok (.str "[a b") :=
    coerce_of_plain (by decide +kernel) (by decide +kernel) (by decide +kernel) (by decide +kernel)
  have hblank : ∀ c ∈ "\u2003".toList ++ "\n".toList, isBlank c = true ∧ isSeparator c = false := by
    simp [isBlank, isSeparator]
  exact ⟨hjson _ _ floatFree_sampleValue (by simp [sampleValue]), hint _ (by decide +kernel),
    htruth true _ (by decide +kernel),
    hblanks "\u2003".toList "-12".toList "\n".toList (fun c hc => (hblank c hc).1)
      (.inr fun c hc => (hblank c hc).2),
    hplain, (htext _ _ hplain).2⟩

/-- A whole number with more digits than numbers may have is not read back, and an information separator
in front of a whole number makes a difference. -/
theorem not_values_read_back :
    coerce (intText (10 ^ digitLimit : Nat)) = .error (.tooManyDigits 4301) ∧
      coerce ('\x1C' :: intText 5) = .error (.separator "\x1C5".toList) ∧
      coerce (intText 5) = .ok (.int 5) := by
  refine ⟨?_, ?_, ?_⟩
  · rw [coerce_intText, Int.natAbs_natCast, length_decimalDigits_pow10]
    rfl
  · have hwhole : whole? (Text.strip ('\x1C' :: intText 5)) = some (false, ['5']) := by decide +kernel
    exact coerce_of_whole (by decide +kernel) hwhole
  · rw [coerce_intText]
    exact if_neg (by decide)
end TemplateSplice.Settings
