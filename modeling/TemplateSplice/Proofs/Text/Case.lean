import TemplateSplice.Proofs.Text.Lower

/-! The case of ASCII letters. A text and the same text with some of its ASCII letters in the other case
are one text in small letters, and a separator without letters cuts them at the same places. -/
namespace TemplateSplice

/-- What holds of the ASCII capitals, and of the characters that have no ASCII case to lose, holds of all. -/
lemma forall_char_of_capitals {P : Char → Prop} (hcapital : ∀ k < 26, P (Char.ofNat (0x41 + k)))
    (hother : ∀ c : Char, c.toLower = c → P c) (c : Char) : P c := by
  by_cases h : 'A' ≤ c ∧ c ≤ 'Z'
  · have hlow : 0x41 ≤ c.toNat := h.1
    have hhigh : c.toNat ≤ 0x5A := h.2
    have := hcapital (c.toNat - 0x41) (by omega)
    rwa [Nat.add_sub_cancel' hlow, Char.ofNat_toNat] at this
  · refine hother c ?_
    unfold Char.toLower
    exact dif_neg h

@[simp] lemma lowerChar_toLower (c : Char) : lowerChar c.toLower = lowerChar c :=
  forall_char_of_capitals (P := fun c => lowerChar c.toLower = lowerChar c) (by decide +kernel)
    (fun c hc => by rw [hc]) c

lemma covers_caseIgnorableRanges_toLower (c : Char) :
    caseIgnorableRanges.covers c.toLower.toNat = caseIgnorableRanges.covers c.toNat :=
  forall_char_of_capitals
    (P := fun c => caseIgnorableRanges.covers c.toLower.toNat = caseIgnorableRanges.covers c.toNat)
    (by decide +kernel) (fun c hc => by rw [hc]) c

lemma covers_casedRanges_toLower (c : Char) :
    casedRanges.covers c.toLower.toNat = casedRanges.covers c.toNat :=
  forall_char_of_capitals
    (P := fun c => casedRanges.covers c.toLower.toNat = casedRanges.covers c.toNat)
    (by decide +kernel) (fun c hc => by rw [hc]) c

/-- A character that no ASCII capital is, and none becomes, is what becomes of itself alone. -/
lemma toLower_eq_iff {d : Char}
    (hd : ∀ k < 26, (Char.ofNat (0x41 + k)).toLower = d ↔ Char.ofNat (0x41 + k) = d) (c : Char) :
    c.toLower = d ↔ c = d :=
  forall_char_of_capitals (P := fun c => c.toLower = d ↔ c = d) hd (fun c hc => by rw [hc]) c

namespace Text

lemma meetsCased_map_toLower (t : Text) : meetsCased (t.map Char.toLower) = meetsCased t := by
  have hpass : (fun c : Char => caseIgnorableRanges.covers c.toNat) ∘ Char.toLower =
      fun c => caseIgnorableRanges.covers c.toNat := funext covers_caseIgnorableRanges_toLower
  unfold meetsCased
  rw [List.dropWhile_map, hpass]
  cases t.dropWhile fun c => caseIgnorableRanges.covers c.toNat with
  | nil => rfl
  | cons c r => exact covers_casedRanges_toLower c

lemma lowerAfter_map_toLower (before t : Text) :
    lowerAfter (before.map Char.toLower) (t.map Char.toLower) = lowerAfter before t := by
  induction t generalizing before with
  | nil => rfl
  | cons c r ih =>
    have hsigma := toLower_eq_iff (d := '\u03A3') (by decide +kernel) c
    have hdot := toLower_eq_iff (d := '\u0130') (by decide +kernel) c
    have hrest := ih (c :: before)
    rw [List.map_cons] at hrest
    simp only [List.map_cons, lowerAfter, hsigma, hdot, hrest, meetsCased_map_toLower, lowerChar_toLower]

/-- In small letters the case of ASCII letters is gone. -/
theorem lower_map_toLower (t : Text) : lower (t.map Char.toLower) = lower t := lowerAfter_map_toLower [] t

variable {f : Char → Char} {sep : Text}

lemma isPrefixOf_map (hf : ∀ d ∈ sep, ∀ c, f c = d ↔ c = d) (t : Text) :
    sep.isPrefixOf (t.map f) = sep.isPrefixOf t := by
  induction sep generalizing t with
  | nil => rfl
  | cons d sep ih =>
    obtain ⟨hd, hsep⟩ := List.forall_mem_cons.mp hf
    cases t with
    | nil => rfl
    | cons c r =>
      have hbeq : (d == f c) = (d == c) := by
        rw [Bool.eq_iff_iff, beq_iff_eq, beq_iff_eq, eq_comm, hd, eq_comm]
      rw [List.map_cons, List.isPrefixOf, List.isPrefixOf, hbeq, ih hsep]

/-- Characters that no other ones become are separators of what a text becomes at the same places. -/
lemma splitOn_map (hf : ∀ d ∈ sep, ∀ c, f c = d ↔ c = d) (t : Text) :
    splitOn sep (t.map f) = (splitOn sep t).map (List.map f) := by
  have h (k : Nat) : partsFrom sep k (t.map f) = (partsFrom sep k t).map (List.map f) := by
    fun_induction partsFrom sep k t with
    | case1 k => simp [partsFrom]
    | case2 k c r ih => simpa [partsFrom] using ih
    | case3 c r hp ih =>
      have hp' : sep.isPrefixOf (f c :: r.map f) = true := by rwa [← List.map_cons, isPrefixOf_map hf]
      rw [List.map_cons, partsFrom, if_pos hp', ih]
      rfl
    | case4 c r hp hn => exact absurd hn (partsFrom_ne_nil sep 0 r)
    | case5 c r hp part parts hparts ih =>
      have hp' : ¬ sep.isPrefixOf (f c :: r.map f) = true := by rwa [← List.map_cons, isPrefixOf_map hf]
      rw [List.map_cons, partsFrom, if_neg hp', ih, hparts]
      rfl
  exact h 0

end Text
end TemplateSplice
