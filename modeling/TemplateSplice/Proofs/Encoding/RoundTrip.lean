import TemplateSplice.Proofs.Encoding.Characters

/-! Decoding and encoding again. What is decoded is encoded as the same bytes, but for a signature; with
its line ends unified it is so if it holds no carriage return. -/
namespace TemplateSplice

lemma return_eq_ofNat {n : Nat} (h : n < 256) : (13 : UInt8) = .ofNat n ↔ n = 13 := by
  rw [← UInt8.toNat_inj, UInt8.toNat_ofNat_of_lt' h, eq_comm]
  rfl

lemma toNat_eq_return {c : Char} : c.toNat = 13 ↔ c = '\r' := by
  rw [← Char.toNat_inj]
  rfl

namespace Utf8

lemma ofNat_eq {n : Nat} {b : UInt8} (h : n = b.toNat) : UInt8.ofNat n = b := by
  rw [h, UInt8.ofNat_toNat]

lemma isContinuation_iff {b : UInt8} : isContinuation b = true ↔ 0x80 ≤ b.toNat ∧ b.toNat ≤ 0xBF := by
  simp [isContinuation, UInt8.le_iff_toNat_le]

lemma le_of_guard {b k c m : UInt8} (h : (b == k && decide (c < m)) = false)
    (hb : b.toNat = k.toNat) : m.toNat ≤ c.toNat := by
  obtain rfl := UInt8.toNat_inj.mp hb
  simpa [UInt8.le_iff_toNat_le] using h

lemma lt_of_guard {b k c m : UInt8} (h : (b == k && decide (m ≤ c)) = false)
    (hb : b.toNat = k.toNat) : c.toNat < m.toNat := by
  obtain rfl := UInt8.toNat_inj.mp hb
  simpa [UInt8.lt_iff_toNat_lt] using h

/-- What may follow the first byte of a longer sequence. -/
lemma second_of_isSecond {b c : UInt8} (h : isSecond b c = true) :
    (0x80 ≤ c.toNat ∧ c.toNat ≤ 0xBF) ∧ (b.toNat = 0xE0 → 0xA0 ≤ c.toNat) ∧
      (b.toNat = 0xED → c.toNat < 0xA0) ∧ (b.toNat = 0xF0 → 0x90 ≤ c.toNat) ∧
      (b.toNat = 0xF4 → c.toNat < 0x90) := by
  simp only [isSecond, Bool.and_eq_true, Bool.not_eq_true', isContinuation_iff] at h
  obtain ⟨⟨⟨⟨hc, h₁⟩, h₂⟩, h₃⟩, h₄⟩ := h
  exact ⟨hc, le_of_guard h₁, lt_of_guard h₂, le_of_guard h₃, lt_of_guard h₄⟩

lemma encodeChar_one {b : UInt8} (h : b.toNat < 0x80) : encodeChar (Char.ofNat b.toNat) = [b] := by
  unfold encodeChar
  rw [toNat_charOf]
  simp [h]

lemma encodeChar_two {b c : UInt8} (hb : 0xC2 ≤ b.toNat ∧ b.toNat < 0xE0)
    (hc : 0x80 ≤ c.toNat ∧ c.toNat ≤ 0xBF) :
    encodeChar (Char.ofNat (b.toNat % 0x20 * 0x40 + tailBits c)) = [b, c] := by
  unfold tailBits
  generalize hm : b.toNat % 0x20 * 0x40 + c.toNat % 0x40 = n
  have hn := toNat_ofNat (n := n) (.inl (by omega))
  unfold encodeChar
  rw [hn]
  dsimp only
  rw [if_neg (by omega), if_pos (by omega), ofNat_eq (b := b) (by omega), ofNat_eq (b := c) (by omega)]

lemma encodeChar_three {b c d : UInt8} (hb : 0xE0 ≤ b.toNat ∧ b.toNat < 0xF0)
    (hbc : isSecond b c = true) (hd : 0x80 ≤ d.toNat ∧ d.toNat ≤ 0xBF) :
    encodeChar (Char.ofNat ((b.toNat % 0x10 * 0x40 + tailBits c) * 0x40 + tailBits d)) =
      [b, c, d] := by
  obtain ⟨hc, hlow, hsurrogate, _, _⟩ := second_of_isSecond hbc
  unfold tailBits
  generalize hm : (b.toNat % 0x10 * 0x40 + c.toNat % 0x40) * 0x40 + d.toNat % 0x40 = n
  have hvalid : n.isValidChar := by
    unfold Nat.isValidChar
    omega
  unfold encodeChar
  rw [toNat_ofNat hvalid]
  dsimp only
  rw [if_neg (by omega), if_neg (by omega), if_pos (by omega), ofNat_eq (b := b) (by omega),
    ofNat_eq (b := c) (by omega), ofNat_eq (b := d) (by omega)]

lemma encodeChar_four {b c d e : UInt8} (hb : 0xF0 ≤ b.toNat ∧ b.toNat < 0xF5)
    (hbc : isSecond b c = true) (hd : 0x80 ≤ d.toNat ∧ d.toNat ≤ 0xBF)
    (he : 0x80 ≤ e.toNat ∧ e.toNat ≤ 0xBF) :
    encodeChar (Char.ofNat (((b.toNat % 8 * 0x40 + tailBits c) * 0x40 + tailBits d) * 0x40
      + tailBits e)) = [b, c, d, e] := by
  obtain ⟨hc, _, _, hlow, hhigh⟩ := second_of_isSecond hbc
  unfold tailBits
  generalize hm : ((b.toNat % 8 * 0x40 + c.toNat % 0x40) * 0x40 + d.toNat % 0x40) * 0x40
    + e.toNat % 0x40 = n
  have hvalid : n.isValidChar := by
    unfold Nat.isValidChar
    omega
  unfold encodeChar
  rw [toNat_ofNat hvalid]
  dsimp only
  rw [if_neg (by omega), if_neg (by omega), if_neg (by omega), ofNat_eq (b := b) (by omega),
    ofNat_eq (b := c) (by omega), ofNat_eq (b := d) (by omega), ofNat_eq (b := e) (by omega)]

/-- A character is encoded as the bytes that it was read from. -/
theorem encodeChar_of_step {b : UInt8} {r : Bytes} {c : Char} {size : Nat}
    (h : step b r = .char c size) : encodeChar c ++ r.drop (size - 1) = b :: r := by
  unfold step at h
  simp only [UInt8.lt_iff_toNat_lt] at h
  split_ifs at h with h80 hC2 hE0 hF0 hF5
  · cases h
    rw [encodeChar_one h80]
    rfl
  · cases r with
    | nil => cases h
    | cons c₁ r =>
      dsimp only at h
      split_ifs at h with h₁
      cases h
      rw [encodeChar_two ⟨Nat.not_lt.mp hC2, hE0⟩ (isContinuation_iff.mp h₁)]
      rfl
  · obtain _ | ⟨c₁, _ | ⟨c₂, r⟩⟩ := r <;> dsimp only at h
    · cases h
    · split_ifs at h
    · split_ifs at h with h₁ h₂
      cases h
      rw [encodeChar_three ⟨Nat.not_lt.mp hE0, hF0⟩ (by simpa using h₁) (isContinuation_iff.mp h₂)]
      rfl
  · obtain _ | ⟨c₁, _ | ⟨c₂, _ | ⟨c₃, r⟩⟩⟩ := r <;> dsimp only at h
    · cases h
    · split_ifs at h
    · split_ifs at h
    · split_ifs at h with h₁ h₂ h₃
      cases h
      rw [encodeChar_four ⟨Nat.not_lt.mp hF0, hF5⟩ (by simpa using h₁)
        (isContinuation_iff.mp (by simpa using h₂)) (isContinuation_iff.mp h₃)]
      rfl

/-- Decoding passes over nothing, with the bytes of the last character still to be skipped. -/
lemma encode_of_decodeFrom {done t : Text} {position pending : Nat} {bytes left : Bytes}
    (h : decodeFrom false done position pending bytes = .ok (t, left)) :
    encode t = encode done.reverse ++ bytes.drop pending := by
  fun_induction decodeFrom false done position pending bytes with
  | case1 done => cases h; simp
  | case2 done position pending b r ih => rw [ih h]; rfl
  | case3 done position b r c size hstep ih =>
    rw [ih h, List.drop_zero, ← encodeChar_of_step hstep]
    simp [encode]
  -- Since no more bytes come, a sequence that is no character is a fault.
  | case4 _ _ _ _ _ hmore => cases hmore
  | case5 => cases h
  | case6 => cases h
  | case7 _ _ _ _ _ _ hmore => cases hmore
  | case8 => cases h

/-- What is decoded is encoded as the same bytes. -/
theorem encode_of_decode {bytes : Bytes} {t : Text} (h : decode bytes = .ok t) : encode t = bytes := by
  unfold decode at h
  cases hd : decodeFrom false [] 0 0 bytes with
  | error fault =>
    rw [hd] at h
    cases h
  | ok read =>
    obtain ⟨t', left⟩ := read
    rw [hd] at h
    obtain rfl := Except.ok.inj h
    exact encode_of_decodeFrom hd

/-- The byte of a carriage return stands for nothing else. -/
lemma return_mem_encodeChar {c : Char} : 13 ∈ encodeChar c ↔ c = '\r' := by
  have hvalid : c.toNat.isValidChar := c.valid
  unfold Nat.isValidChar at hvalid
  rw [← toNat_eq_return]
  -- All bytes of a longer sequence are beyond those of single characters.
  unfold encodeChar
  dsimp only
  split_ifs <;> simp only [List.mem_cons, List.not_mem_nil, or_false] <;>
    repeat rw [return_eq_ofNat (by omega)]
  all_goals omega

lemma return_mem_encode {t : Text} : 13 ∈ encode t ↔ '\r' ∈ t := by
  simp [encode, List.mem_flatMap, return_mem_encodeChar]

end Utf8

namespace Text

variable {t : Text}

lemma return_notMem_unifyLineEnds (t : Text) : '\r' ∉ t.unifyLineEnds := by
  fun_induction Text.unifyLineEnds t with
  | case1 => exact List.not_mem_nil
  | case2 r ih => simpa using ih
  | case3 r _ ih => simpa using ih
  | case4 c r _ hc ih =>
    intro h
    rcases List.mem_cons.mp h with h | h
    · exact hc h.symm
    · exact ih h

lemma unifyLineEnds_of_notMem (h : '\r' ∉ t) : t.unifyLineEnds = t := by
  fun_induction Text.unifyLineEnds t with
  | case1 => rfl
  | case2 r ih => simp at h
  | case3 r _ ih => simp at h
  | case4 c r _ _ ih => rw [ih fun hr => h (List.mem_cons_of_mem c hr)]

end Text

namespace Encoding

variable {e : Encoding} {limit : Nat} {bytes bytes' : Bytes} {t : Text}

lemma encodeBelow_of_decodeBelow (h : e.decodeBelow limit bytes = .ok t) :
    e.encodeBelow limit t = .ok bytes := by
  rw [encodeBelow_of_only (only_of_decodeBelow h), (decodeBelow_eq_ok h).1, List.map_map]
  congr 1
  exact (List.map_congr_left fun b _ => by simp [toNat_charOf]).trans (List.map_id bytes)

/-- What is decoded is encoded as the same bytes, unless a signature comes in front that was not
there. -/
theorem encode_of_decode_iff (h : e.decode bytes = .ok t) :
    e.encode t = .ok bytes ↔ (e = .utf8Signed → Utf8.signature <+: bytes) := by
  cases e with
  | utf8 => simp [encode, Utf8.encode_of_decode h]
  | latin1 => exact iff_of_true (encodeBelow_of_decodeBelow h) nofun
  | ascii => exact iff_of_true (encodeBelow_of_decodeBelow h) nofun
  | utf8Signed =>
    refine ⟨fun he _ => ⟨Utf8.encode t, Except.ok.inj he⟩, fun hs => ?_⟩
    obtain ⟨rest, rfl⟩ := hs rfl
    have hd : Utf8.decode rest = .ok t := h
    rw [encode, Utf8.encode_of_decode hd]

lemma encodeBelow_eq_ok (h : e.encodeBelow limit t = .ok bytes) :
    bytes = t.map (fun c => UInt8.ofNat c.toNat) ∧ Text.Only (·.toNat < limit) t := by
  unfold encodeBelow at h
  cases hd : t.dropWhile (·.toNat < limit) with
  | cons c r =>
    rw [hd] at h
    cases h
  | nil =>
    rw [hd] at h
    refine ⟨(Except.ok.inj h).symm, fun c hc => ?_⟩
    simpa using List.dropWhile_eq_nil_iff.mp hd c hc

lemma return_mem_of_encodeBelow (hl : limit ≤ 256) (h : e.encodeBelow limit t = .ok bytes) :
    13 ∈ bytes ↔ '\r' ∈ t := by
  obtain ⟨rfl, hlt⟩ := encodeBelow_eq_ok h
  constructor
  · intro hb
    obtain ⟨c, hc, hbyte⟩ := List.mem_map.mp hb
    have hreturn := (return_eq_ofNat (Nat.lt_of_lt_of_le (hlt c hc) hl)).mp hbyte.symm
    rwa [← toNat_eq_return.mp hreturn]
  · exact fun hc => List.mem_map.mpr ⟨_, hc, rfl⟩

/-- A carriage return has a byte of its own in every encoding. -/
theorem return_mem_of_encode (h : e.encode t = .ok bytes) : 13 ∈ bytes ↔ '\r' ∈ t := by
  cases e with
  | utf8 => 
    obtain rfl := Except.ok.inj h
    exact Utf8.return_mem_encode
  | utf8Signed =>
    obtain rfl := Except.ok.inj h
    simp [Utf8.return_mem_encode, Utf8.signature]
  | latin1 => exact return_mem_of_encodeBelow (by omega) h
  | ascii => exact return_mem_of_encodeBelow (by omega) h

/-- A text with its line ends unified is encoded as the bytes it comes from if they hold no carriage
return, and the signature of an encoding that writes one. -/
theorem encode_unified_eq_iff (h : e.decode bytes = .ok t)
    (h' : e.encode t.unifyLineEnds = .ok bytes') :
    bytes' = bytes ↔ '\r' ∉ t ∧ (e = .utf8Signed → Utf8.signature <+: bytes) := by
  constructor
  · rintro rfl
    have hsigned : e = .utf8Signed → Utf8.signature <+: bytes' := by
      rintro rfl
      exact ⟨_, Except.ok.inj h'⟩
    have hsame := return_mem_of_encode ((encode_of_decode_iff h).mpr hsigned)
    have hnone := (return_mem_of_encode h').not.mpr t.return_notMem_unifyLineEnds
    exact ⟨fun hr => hnone (hsame.mpr hr), hsigned⟩
  · rintro ⟨hr, hsigned⟩
    rw [Text.unifyLineEnds_of_notMem hr, (encode_of_decode_iff h).mpr hsigned] at h'
    exact (Except.ok.inj h').symm

end Encoding
end TemplateSplice
