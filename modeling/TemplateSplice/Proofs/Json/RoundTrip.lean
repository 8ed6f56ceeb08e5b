import TemplateSplice.Proofs.Json.Numbers
import TemplateSplice.Proofs.Json.Strings
import TemplateSplice.Proofs.Settings.Layer

/-! Values of JSON texts, read back. A value without other numbers than whole ones is read back from its
text, on however many lines that stands, and whatever may follow a value follows it. -/
namespace TemplateSplice.Json

variable {indent : Option Nat} {depth : Nat} {t rest : Text}

section Gaps

/-- A text that starts with a value. -/
def Opens (t : Text) : Prop := ∃ c r, t = c :: r ∧ isSpace c = false ∧ c ≠ ']'

lemma Opens.append (h : Opens t) (r : Text) : Opens (t ++ r) := by
  obtain ⟨c, s, rfl, hc⟩ := h
  exact ⟨c, s ++ r, rfl, hc⟩

lemma skipSpace_of_opens (h : Opens t) : skipSpace t = t := by
  obtain ⟨c, r, rfl, hc, _⟩ := h
  exact List.dropWhile_cons_of_neg (by simp [hc])

/-- Line breaks and indents are passed over. -/
lemma skipSpace_lineBreak (indent : Option Nat) (depth : Nat) (t : Text) :
    skipSpace (lineBreak indent depth ++ t) = skipSpace t := by
  refine List.dropWhile_append_of_pos fun c hc => ?_
  cases indent with
  | none => cases hc
  | some width =>
    rcases List.mem_cons.mp hc with rfl | hc
    · rfl
    · rw [List.eq_of_mem_replicate hc]
      rfl

/-- What is passed over after the comma between two items. -/
lemma exists_itemBreak (indent : Option Nat) (depth : Nat) :
    ∃ gap, itemBreak indent depth = ',' :: gap ∧ ∀ t, skipSpace (gap ++ t) = skipSpace t := by
  cases indent with
  | none => exact ⟨[' '], rfl, fun t => rfl⟩
  | some width => exact ⟨lineBreak (some width) depth, rfl, skipSpace_lineBreak _ _⟩

lemma stops_comma (rest : Text) : Stops (',' :: rest) := by
  intro c hc
  obtain rfl : ',' = c := by simpa using hc
  exact .inl rfl

lemma stops_lineBreak {c : Char} (hc : c = ']' ∨ c = '}') (rest : Text) :
    Stops (lineBreak indent depth ++ c :: rest) := by
  intro d hd
  cases indent with
  | none =>
    obtain rfl : c = d := by simpa [lineBreak] using hd
    exact .inr (hc.imp_right .inl)
  | some width =>
    obtain rfl : '\n' = d := by simpa [lineBreak] using hd
    simp

end Gaps

/-- Values of JSON with no other numbers than whole ones, none of which has more digits than numbers may
have. -/
inductive FloatFree : Value → Prop
  | null : FloatFree .null
  | bool (b : Bool) : FloatFree (.bool b)
  | int (n : Int) (digits : (decimalDigits n.natAbs).length ≤ digitLimit) : FloatFree (.int n)
  | str (s : String) : FloatFree (.str s)
  | array (items : List Value) (parts : ∀ v ∈ items, FloatFree v) : FloatFree (.array items)
  | object (m : Members) (texts : ∀ p ∈ m, ∃ s, p.1 = .str s)
      (once : (m.map fun p => p.1.identity).Nodup) (parts : ∀ p ∈ m, FloatFree p.2) :
      FloatFree (.object m)

/-- The text of a value is read back as the value, whatever follows it. -/
def ReadsBack (indent : Option Nat) (v : Value) : Prop :=
  ∀ depth fuel rest, Stops rest → 2 * (textAt indent depth v).length ≤ fuel →
    readValue fuel (textAt indent depth v ++ rest) = .ok (v, rest)

variable {v : Value} {fuel : Nat}

section Scalars

lemma readValue_of_ne {c : Char} {r : Text} (hquote : c ≠ '"') (hbracket : c ≠ '[') (hbrace : c ≠ '{')
    (fuel : Nat) : readValue (fuel + 1) (c :: r) = readScalar (c :: r) := by
  rw [readValue.eq_def]
  dsimp only
  split
  · next heq => exact absurd (List.cons.inj heq).1 hquote
  · next heq => exact absurd (List.cons.inj heq).1 hbracket
  · next heq => exact absurd (List.cons.inj heq).1 hbrace
  · rfl

lemma readValue_bracket (fuel : Nat) (r : Text) : readValue (fuel + 1) ('[' :: r) =
    match skipSpace r with
    | ']' :: rest => .ok (.array [], rest)
    | r => (do
      let (items, rest) ← readItems fuel r
      .ok (.array items, rest)) := rfl

lemma readValue_brace (fuel : Nat) (r : Text) : readValue (fuel + 1) ('{' :: r) =
    match skipSpace r with
    | '}' :: rest => .ok (.object [], rest)
    | r => (do
      let (pairs, rest) ← readPairs fuel r
      .ok (.object (Members.ofPairs pairs), rest)) := rfl

/-- A numeral starts like a number and like nothing else. -/
lemma exists_numeral (n : Int) : ∃ c r, intText n = c :: r ∧ c ≠ '"' ∧ c ≠ '[' ∧ c ≠ '{' ∧
    c ≠ ']' ∧ isSpace c = false := by
  obtain ⟨c, r, hr, rfl | hc⟩ := exists_intText n
  · exact ⟨'-', r, hr, by decide⟩
  · have hother : ∀ d : Char, d.isDigit = false → c ≠ d := fun d => ne_of_isDigit hc
    refine ⟨c, r, hr, hother _ rfl, hother _ rfl, hother _ rfl, hother _ rfl, ?_⟩
    simp [isSpace, hother ' ' rfl, hother '\t' rfl, hother '\n' rfl, hother '\r' rfl]

lemma readValue_quote (fuel : Nat) (r : Text) : readValue (fuel + 1) ('"' :: r) =
    (readString (r.length + 1) r).map fun p => (.str (String.ofList p.1), p.2) := by
  have hread : readValue (fuel + 1) ('"' :: r) =
      readString (r.length + 1) r >>= fun p => .ok (.str (String.ofList p.1), p.2) := rfl
  rw [hread]
  cases readString (r.length + 1) r <;> rfl

/-- A string is read back up to its closing quote, with all of the text as fuel. -/
lemma readString_stringText (s rest : Text) :
    readString ((s.flatMap escapeChar ++ '"' :: rest).length + 1)
      (s.flatMap escapeChar ++ '"' :: rest) = .ok (s, rest) := by
  have hlength := length_le_flatMap_escapeChar s
  refine readString_flatMap s ?_ rest
  rw [List.length_append]
  omega

lemma stringText_append (s rest : Text) :
    stringText s ++ rest = '"' :: (s.flatMap escapeChar ++ '"' :: rest) := by simp [stringText]

/-- A string is read back as a value. -/
lemma readValue_stringText (s : Text) (fuel : Nat) (rest : Text) :
    readValue (fuel + 1) (stringText s ++ rest) = .ok (.str (String.ofList s), rest) := by
  rw [stringText_append, readValue_quote, readString_stringText]
  rfl

/-- A value without parts is read back. -/
lemma readsBack_scalar {s : Scalar} (h : FloatFree (.scalar s)) : ReadsBack indent (.scalar s) := by
  intro depth fuel rest hrest hfuel
  unfold textAt at hfuel ⊢
  have hpositive : 0 < (scalarText s).length := by
    cases h with
    | null => decide
    | bool b => cases b <;> decide
    | int n _ =>
      obtain ⟨c, r, hr, _⟩ := exists_numeral n
      simp [scalarText, hr]
    | str s => simp [scalarText, stringText]
  obtain ⟨fuel, rfl⟩ : ∃ k, fuel = k + 1 := ⟨fuel - 1, by omega⟩
  cases h with
  | null => rfl
  | bool b => cases b <;> rfl
  | int n digits =>
    obtain ⟨c, r, hr, hquote, hbracket, hbrace, _⟩ := exists_numeral n
    have hread := readScalar_intText digits hrest
    change readValue (fuel + 1) (intText n ++ rest) = _
    rw [hr] at hread ⊢
    exact (readValue_of_ne hquote hbracket hbrace fuel).trans hread
  | str s =>
    have hread := readValue_stringText s.toList fuel rest
    rw [String.ofList_toList] at hread
    exact hread

end Scalars

section Parts

/-- The text of a value starts with a value. -/
lemma opens_textAt (h : FloatFree v) (indent : Option Nat) (depth : Nat) :
    Opens (textAt indent depth v) := by
  cases h with
  | null => exact ⟨'n', "ull".toList, rfl, rfl, by decide⟩
  | bool b =>
    cases b with
    | true => exact ⟨'t', "rue".toList, rfl, rfl, by decide⟩
    | false => exact ⟨'f', "alse".toList, rfl, rfl, by decide⟩
  | int n _ =>
    obtain ⟨c, r, hr, _, _, _, hbracket, hspace⟩ := exists_numeral n
    exact ⟨c, r, by simp [textAt, scalarText, hr], hspace, hbracket⟩
  | str s => exact ⟨'"', _, rfl, rfl, by decide⟩
  | array items _ =>
    cases items with
    | nil => exact ⟨'[', _, rfl, rfl, by decide⟩
    | cons v items => exact ⟨'[', _, by rw [textAt]; rfl, rfl, by decide⟩
  | object m _ _ _ =>
    cases m with
    | nil => exact ⟨'{', _, rfl, rfl, by decide⟩
    | cons p m => exact ⟨'{', _, by rw [textAt]; rfl, rfl, by decide⟩

section Items

variable {items : List Value} {r t' : Text}

lemma readItems_last (h : readValue fuel t = .ok (v, r)) (hr : skipSpace r = ']' :: rest) :
    readItems (fuel + 1) t = .ok ([v], rest) := by
  rw [readItems.eq_def]
  dsimp only [bind, Except.bind]
  rw [h]
  dsimp only
  rw [hr]
  rfl

lemma readItems_more (h : readValue fuel t = .ok (v, r)) (hr : skipSpace r = ',' :: t')
    (hitems : readItems fuel (skipSpace t') = .ok (items, rest)) :
    readItems (fuel + 1) t = .ok (v :: items, rest) := by
  rw [readItems.eq_def]
  dsimp only [bind, Except.bind]
  rw [h]
  dsimp only
  rw [hr]
  change (readItems fuel (skipSpace t')).bind _ = _
  rw [hitems]
  rfl

/-- The items of an array are read back up to its closing bracket. -/
lemma readItems_text {outer : Nat} (hv : ReadsBack indent v)
    (hitems : ∀ w ∈ items, FloatFree w ∧ ReadsBack indent w)
    (hfuel : 2 * ((textAt indent depth v).length + (itemsText indent depth items).length) < fuel)
    (rest : Text) :
    readItems fuel (textAt indent depth v ++ (itemsText indent depth items ++
      (lineBreak indent outer ++ ']' :: rest))) = .ok (v :: items, rest) := by
  induction items generalizing v fuel with
  | nil =>
    obtain ⟨fuel, rfl⟩ : ∃ k, fuel = k + 1 := ⟨fuel - 1, by omega⟩
    have hread := hv depth fuel (lineBreak indent outer ++ ']' :: rest) (stops_lineBreak (.inl rfl) rest)
      (by omega)
    exact readItems_last hread (skipSpace_lineBreak _ _ _)
  | cons w items ih =>
    obtain ⟨fuel, rfl⟩ : ∃ k, fuel = k + 1 := ⟨fuel - 1, by omega⟩
    obtain ⟨gap, hgap, hskip⟩ := exists_itemBreak indent depth
    obtain ⟨hw, hitems⟩ := List.forall_mem_cons.mp hitems
    have htext : itemsText indent depth (w :: items) ++ (lineBreak indent outer ++ ']' :: rest) =
        ',' :: (gap ++ (textAt indent depth w ++ (itemsText indent depth items ++
          (lineBreak indent outer ++ ']' :: rest)))) := by
      rw [itemsText, hgap]
      simp
    have hlength : (itemsText indent depth (w :: items)).length =
        1 + gap.length + (textAt indent depth w).length + (itemsText indent depth items).length := by
      rw [itemsText, hgap]
      simp
      omega
    rw [htext]
    refine readItems_more (hv depth fuel _ (stops_comma _) (by omega)) rfl ?_
    rw [hskip, skipSpace_of_opens ((opens_textAt hw.1 _ _).append _)]
    exact ih hw.2 hitems (by omega)

lemma readValue_array {c : Char} {s : Text} (h : skipSpace r = c :: s) (hc : c ≠ ']')
    (hitems : readItems fuel (c :: s) = .ok (items, rest)) :
    readValue (fuel + 1) ('[' :: r) = .ok (.array items, rest) := by
  rw [readValue_bracket, h]
  split
  · next heq => exact absurd (List.cons.inj heq).1 hc
  · rw [hitems]
    rfl

/-- An array is read back if its items are. -/
lemma readsBack_array (hitems : ∀ w ∈ items, FloatFree w ∧ ReadsBack indent w) :
    ReadsBack indent (.array items) := by
  intro depth fuel rest _ hfuel
  cases items with
  | nil =>
    obtain ⟨fuel, rfl⟩ : ∃ k, fuel = k + 1 := ⟨fuel - 1, by simp [textAt] at hfuel; omega⟩
    rfl
  | cons v items =>
    obtain ⟨hv, hitems⟩ := List.forall_mem_cons.mp hitems
    have hlength : (textAt indent depth (.array (v :: items))).length =
        2 + (lineBreak indent (depth + 1)).length + (textAt indent (depth + 1) v).length +
          (itemsText indent (depth + 1) items).length + (lineBreak indent depth).length := by
      rw [textAt]
      simp
      omega
    have htext : textAt indent depth (.array (v :: items)) ++ rest =
        '[' :: (lineBreak indent (depth + 1) ++ (textAt indent (depth + 1) v ++
          (itemsText indent (depth + 1) items ++ (lineBreak indent depth ++ ']' :: rest)))) := by
      rw [textAt]
      simp
    obtain ⟨fuel, rfl⟩ : ∃ k, fuel = k + 1 := ⟨fuel - 1, by omega⟩
    have hread : readItems fuel (textAt indent (depth + 1) v ++ (itemsText indent (depth + 1) items ++
        (lineBreak indent depth ++ ']' :: rest))) = .ok (v :: items, rest) :=
      readItems_text hv.2 hitems (by omega) rest
    have hopens := (opens_textAt hv.1 indent (depth + 1)).append (itemsText indent (depth + 1) items ++
      (lineBreak indent depth ++ ']' :: rest))
    have hskip := (skipSpace_lineBreak indent (depth + 1) _).trans (skipSpace_of_opens hopens)
    obtain ⟨c, s, hs, _, hc⟩ := hopens
    rw [hs] at hread hskip
    rw [htext, hs]
    exact readValue_array hskip hc hread

end Items

section Members

variable {m : Members} {key : String} {r t' : Text}

/-- A key is read back, and what is read after its colon goes on at the value. -/
lemma readPairs_key (key : String) (ht : Opens t) (fuel : Nat) :
    readPairs (fuel + 1) (keyText (.str key) ++ ([':', ' '] ++ t)) = (do
      let (v, r) ← readValue fuel t
      match skipSpace r with
      | ',' :: r => do
        let (pairs, rest) ← readPairs fuel (skipSpace r)
        .ok ((.str key, v) :: pairs, rest)
      | '}' :: rest => .ok ([(.str key, v)], rest)
      | _ => .error .malformed) := by
  have hkey : keyText (.str key) ++ ([':', ' '] ++ t) = '"' :: (key.toList.flatMap escapeChar ++
      '"' :: ':' :: ' ' :: t) := stringText_append key.toList (':' :: ' ' :: t)
  have hskip : skipSpace (' ' :: t) = t := skipSpace_of_opens ht
  generalize hr : key.toList.flatMap escapeChar ++ '"' :: ':' :: ' ' :: t = r at hkey
  have hread : readPairs (fuel + 1) ('"' :: r) = (readString (r.length + 1) r).bind _ := rfl
  rw [hkey, hread, ← hr, readString_stringText]
  change (readValue fuel (skipSpace (' ' :: t))).bind _ = _
  rw [hskip, String.ofList_toList]
  rfl

lemma readPairs_last (ht : Opens t) (h : readValue fuel t = .ok (v, r))
    (hr : skipSpace r = '}' :: rest) :
    readPairs (fuel + 1) (keyText (.str key) ++ ([':', ' '] ++ t)) = .ok ([(.str key, v)], rest) := by
  rw [readPairs_key key ht, h]
  dsimp only [bind, Except.bind]
  rw [hr]
  rfl

lemma readPairs_more (ht : Opens t) (h : readValue fuel t = .ok (v, r)) (hr : skipSpace r = ',' :: t')
    (hm : readPairs fuel (skipSpace t') = .ok (m, rest)) :
    readPairs (fuel + 1) (keyText (.str key) ++ ([':', ' '] ++ t)) =
      .ok ((.str key, v) :: m, rest) := by
  rw [readPairs_key key ht, h]
  dsimp only [bind, Except.bind]
  rw [hr]
  change (readPairs fuel (skipSpace t')).bind _ = _
  rw [hm]
  rfl

/-- The members of an object are read back up to its closing brace. -/
lemma readPairs_text {outer : Nat} (hv : FloatFree v ∧ ReadsBack indent v)
    (hm : ∀ p ∈ m, (∃ s, p.1 = .str s) ∧ FloatFree p.2 ∧ ReadsBack indent p.2)
    (hfuel : 2 * ((textAt indent depth v).length + (membersText indent depth m).length) < fuel)
    (rest : Text) :
    readPairs fuel (keyText (.str key) ++ ([':', ' '] ++ (textAt indent depth v ++
      (membersText indent depth m ++ (lineBreak indent outer ++ '}' :: rest))))) =
        .ok ((.str key, v) :: m, rest) := by
  induction m generalizing v key fuel with
  | nil =>
    obtain ⟨fuel, rfl⟩ : ∃ k, fuel = k + 1 := ⟨fuel - 1, by omega⟩
    have hread := hv.2 depth fuel (lineBreak indent outer ++ '}' :: rest)
      (stops_lineBreak (.inr rfl) rest) (by omega)
    exact readPairs_last ((opens_textAt hv.1 _ _).append _) hread (skipSpace_lineBreak _ _ _)
  | cons p m ih =>
    obtain ⟨fuel, rfl⟩ : ∃ k, fuel = k + 1 := ⟨fuel - 1, by omega⟩
    obtain ⟨gap, hgap, hskip⟩ := exists_itemBreak indent depth
    obtain ⟨⟨⟨s, hs⟩, hp⟩, hrest⟩ := List.forall_mem_cons.mp hm
    obtain ⟨k, w⟩ := p
    obtain rfl : k = .str s := hs
    have htext : membersText indent depth ((.str s, w) :: m) ++ (lineBreak indent outer ++ '}' :: rest) =
        ',' :: (gap ++ (keyText (.str s) ++ ([':', ' '] ++ (textAt indent depth w ++
          (membersText indent depth m ++ (lineBreak indent outer ++ '}' :: rest)))))) := by
      rw [membersText, hgap]
      simp
    have hlength : (membersText indent depth ((.str s, w) :: m)).length =
        3 + gap.length + (keyText (.str s)).length + (textAt indent depth w).length +
          (membersText indent depth m).length := by
      rw [membersText, hgap]
      simp
      omega
    have hkey : Opens (keyText (.str s)) := ⟨'"', _, rfl, rfl, by decide⟩
    rw [htext]
    refine readPairs_more ((opens_textAt hv.1 _ _).append _)
      (hv.2 depth fuel _ (stops_comma _) (by omega)) rfl ?_
    rw [hskip, skipSpace_of_opens (hkey.append _)]
    exact ih hp hrest (by omega)

lemma readValue_object {c : Char} {s : Text} (h : skipSpace r = c :: s) (hc : c ≠ '}')
    (hm : readPairs fuel (c :: s) = .ok (m, rest)) :
    readValue (fuel + 1) ('{' :: r) = .ok (.object (Members.ofPairs m), rest) := by
  rw [readValue_brace, h]
  split
  · next heq => exact absurd (List.cons.inj heq).1 hc
  · rw [hm]
    rfl

/-- An object is read back if its members are. -/
lemma readsBack_object (once : (m.map fun p => p.1.identity).Nodup)
    (hm : ∀ p ∈ m, (∃ s, p.1 = .str s) ∧ FloatFree p.2 ∧ ReadsBack indent p.2) :
    ReadsBack indent (.object m) := by
  intro depth fuel rest _ hfuel
  cases m with
  | nil =>
    obtain ⟨fuel, rfl⟩ : ∃ k, fuel = k + 1 := ⟨fuel - 1, by simp [textAt] at hfuel; omega⟩
    rfl
  | cons p m =>
    obtain ⟨⟨⟨key, hkey⟩, hv⟩, hrest⟩ := List.forall_mem_cons.mp hm
    obtain ⟨k, v⟩ := p
    obtain rfl : k = .str key := hkey
    replace hv : FloatFree v ∧ ReadsBack indent v := hv
    have hlength : (textAt indent depth (.object ((.str key, v) :: m))).length =
        4 + (lineBreak indent (depth + 1)).length + (keyText (.str key)).length +
          (textAt indent (depth + 1) v).length + (membersText indent (depth + 1) m).length +
          (lineBreak indent depth).length := by
      rw [textAt]
      simp
      omega
    have htext : textAt indent depth (.object ((.str key, v) :: m)) ++ rest =
        '{' :: (lineBreak indent (depth + 1) ++ (keyText (.str key) ++ ([':', ' '] ++
          (textAt indent (depth + 1) v ++ (membersText indent (depth + 1) m ++
            (lineBreak indent depth ++ '}' :: rest)))))) := by
      rw [textAt]
      simp
    obtain ⟨fuel, rfl⟩ : ∃ k, fuel = k + 1 := ⟨fuel - 1, by omega⟩
    have hread : readPairs fuel (keyText (.str key) ++ ([':', ' '] ++ (textAt indent (depth + 1) v ++
        (membersText indent (depth + 1) m ++ (lineBreak indent depth ++ '}' :: rest))))) =
          .ok ((.str key, v) :: m, rest) := readPairs_text hv hrest (by omega) rest
    have hskip : skipSpace (lineBreak indent (depth + 1) ++ (keyText (.str key) ++ ([':', ' '] ++
        (textAt indent (depth + 1) v ++ (membersText indent (depth + 1) m ++
          (lineBreak indent depth ++ '}' :: rest)))))) = '"' :: _ := skipSpace_lineBreak _ _ _
    rw [htext, readValue_object hskip (by decide) hread, Members.ofPairs_of_nodup once]

end Members

end Parts

/-- A value without other numbers than whole ones is read back from its text. -/
theorem readsBack (h : FloatFree v) (indent : Option Nat) : ReadsBack indent v := by
  induction h with
  | null => exact readsBack_scalar .null
  | bool b => exact readsBack_scalar (.bool b)
  | int n digits => exact readsBack_scalar (.int n digits)
  | str s => exact readsBack_scalar (.str s)
  | array items parts ih => exact readsBack_array fun v hv => ⟨parts v hv, ih v hv⟩
  | object m texts once parts ih =>
    exact readsBack_object once fun p hp => ⟨texts p hp, parts p hp, ih p hp⟩

/-- A JSON text that was written is read as the value that it was written for. -/
theorem read_text (h : FloatFree v) (indent : Option Nat) : read (text indent v) = .ok v := by
  have hread := readsBack h indent 0 (2 * (text indent v).length + 2) [] (by simp [Stops])
    (Nat.le_add_right _ 2)
  have hskip : skipSpace (text indent v) = text indent v := skipSpace_of_opens (opens_textAt h indent 0)
  unfold read
  rw [hskip]
  change readValue _ (text indent v ++ []) = _ at hread
  rw [List.append_nil] at hread
  rw [hread]
  rfl

end TemplateSplice.Json
