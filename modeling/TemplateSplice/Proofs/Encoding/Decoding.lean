import TemplateSplice.Proofs.Encoding.RoundTrip

/-! Decoding what was encoded. Every encoding reads the bytes that it writes back as the text that they
were written for; a signature that is written in front is taken off again, and it alone. -/
namespace TemplateSplice

namespace Utf8

variable {b c d e : UInt8}

lemma toNat_ofNat_byte {n : Nat} (h : n < 256) : (UInt8.ofNat n).toNat = n :=
  UInt8.toNat_ofNat_of_lt' h

/-- What may follow the first byte of a longer sequence does follow it. -/
lemma isSecond_of_bounds (hc : 0x80 ≤ c.toNat ∧ c.toNat ≤ 0xBF)
    (hE0 : b.toNat = 0xE0 → 0xA0 ≤ c.toNat) (hED : b.toNat = 0xED → c.toNat < 0xA0)
    (hF0 : b.toNat = 0xF0 → 0x90 ≤ c.toNat) (hF4 : b.toNat = 0xF4 → c.toNat < 0x90) :
    isSecond b c = true := by
  simp only [isSecond, Bool.and_eq_true, Bool.not_eq_true', isContinuation_iff, Bool.and_eq_false_iff,
    beq_eq_false_iff_ne, ne_eq, decide_eq_false_iff_not, UInt8.lt_iff_toNat_lt, UInt8.le_iff_toNat_le,
    ← UInt8.toNat_inj, UInt8.reduceToNat]
  omega

lemma step_one (hb : b.toNat < 0x80) (rest : Bytes) : step b rest = .char (Char.ofNat b.toNat) 1 := by
  unfold step
  rw [if_pos (UInt8.lt_iff_toNat_lt.mpr hb)]

lemma step_two (hb : 0xC2 ≤ b.toNat ∧ b.toNat < 0xE0) (hc : isContinuation c = true) (rest : Bytes) :
    step b (c :: rest) = .char (Char.ofNat (b.toNat % 0x20 * 0x40 + tailBits c)) 2 := by
  unfold step
  simp only [UInt8.lt_iff_toNat_lt, UInt8.reduceToNat]
  rw [if_neg (by omega), if_neg (by omega), if_pos (by omega), if_pos hc]

lemma step_three (hb : 0xE0 ≤ b.toNat ∧ b.toNat < 0xF0) (hc : isSecond b c = true)
    (hd : isContinuation d = true) (rest : Bytes) :
    step b (c :: d :: rest) =
      .char (Char.ofNat ((b.toNat % 0x10 * 0x40 + tailBits c) * 0x40 + tailBits d)) 3 := by
  unfold step
  simp only [UInt8.lt_iff_toNat_lt, UInt8.reduceToNat, hc, hd]
  rw [if_neg (by omega), if_neg (by omega), if_neg (by omega), if_pos (by omega)]
  rfl

lemma step_four (hb : 0xF0 ≤ b.toNat ∧ b.toNat < 0xF5) (hc : isSecond b c = true)
    (hd : isContinuation d = true) (he : isContinuation e = true) (rest : Bytes) :
    step b (c :: d :: e :: rest) = .char (Char.ofNat (((b.toNat % 8 * 0x40 + tailBits c) * 0x40
      + tailBits d) * 0x40 + tailBits e)) 4 := by
  unfold step
  simp only [UInt8.lt_iff_toNat_lt, UInt8.reduceToNat, hc, hd, he]
  rw [if_neg (by omega), if_neg (by omega), if_neg (by omega), if_neg (by omega), if_pos (by omega)]
  rfl

/-- A character is read back from its bytes, whatever follows them. -/
theorem exists_step_encodeChar (x : Char) : ∃ first tail, encodeChar x = first :: tail ∧
    ∀ rest, step first (tail ++ rest) = .char x (tail.length + 1) := by
  have hvalid : x.toNat.isValidChar := x.valid
  unfold Nat.isValidChar at hvalid
  have hx := Char.ofNat_toNat x
  unfold encodeChar
  dsimp only
  generalize x.toNat = n at hvalid hx ⊢
  have htail : ∀ k, (UInt8.ofNat (0x80 + k % 0x40)).toNat = 0x80 + k % 0x40 := by
    intro k
    exact toNat_ofNat_byte (by omega)
  have hcontinues : ∀ k, isContinuation (UInt8.ofNat (0x80 + k % 0x40)) = true := by
    intro k
    rw [isContinuation_iff, htail]
    omega
  have hbits : ∀ k, tailBits (UInt8.ofNat (0x80 + k % 0x40)) = k % 0x40 := by
    intro k
    rw [tailBits, htail]
    omega
  split_ifs with h1 h2 h3
  · refine ⟨_, [], rfl, fun rest => ?_⟩
    have hb := toNat_ofNat_byte (n := n) (by omega)
    rw [step_one (by omega), hb, hx]
    rfl
  · refine ⟨_, [_], rfl, fun rest => ?_⟩
    have hb := toNat_ofNat_byte (n := 0xC0 + n / 0x40) (by omega)
    refine (step_two (by omega) (hcontinues n) rest).trans ?_
    rw [hb, hbits, ← hx]
    congr 2
    omega
  · refine ⟨_, [_, _], rfl, fun rest => ?_⟩
    have hb := toNat_ofNat_byte (n := 0xE0 + n / 0x1000) (by omega)
    have hsecond := htail (n / 0x40)
    refine (step_three (by omega) (isSecond_of_bounds ?_ ?_ ?_ ?_ ?_) (hcontinues n) rest).trans ?_
    · omega
    · omega
    · omega
    · omega
    · omega
    · rw [hb, hbits, hbits, ← hx]
      congr 2
      omega
  · refine ⟨_, [_, _, _], rfl, fun rest => ?_⟩
    have hb := toNat_ofNat_byte (n := 0xF0 + n / 0x40000) (by omega)
    have hsecond := htail (n / 0x1000)
    refine (step_four (by omega) (isSecond_of_bounds ?_ ?_ ?_ ?_ ?_) (hcontinues (n / 0x40))
      (hcontinues n) rest).trans ?_
    · omega
    · omega
    · omega
    · omega
    · omega
    · rw [hb, hbits, hbits, hbits, ← hx]
      congr 2
      omega

/-- The bytes that are left of a character are passed over. -/
lemma decodeFrom_append (more : Bool) (done : Text) (position : Nat) (tail rest : Bytes) :
    decodeFrom more done position tail.length (tail ++ rest) =
      decodeFrom more done (position + tail.length) 0 rest := by
  induction tail generalizing position with
  | nil => rfl
  | cons b tail ih =>
    rw [List.length_cons, List.cons_append, decodeFrom, ih, Nat.add_right_comm, Nat.add_assoc]

lemma decodeFrom_encode (done : Text) (position : Nat) (t : Text) :
    decodeFrom false done position 0 (encode t) = .ok (done.reverse ++ t, []) := by
  induction t generalizing done position with
  | nil => simp [encode, decodeFrom]
  | cons x t ih =>
    obtain ⟨first, tail, hx, hstep⟩ := exists_step_encodeChar x
    have hencode : encode (x :: t) = first :: (tail ++ encode t) := by
      rw [encode, List.flatMap_cons, hx, List.cons_append]
      rfl
    rw [hencode, decodeFrom, hstep]
    dsimp only
    rw [Nat.add_sub_cancel, decodeFrom_append, ih]
    simp

/-- What is encoded is decoded as the same text. -/
theorem decode_encode (t : Text) : decode (encode t) = .ok t := by
  rw [decode, decodeFrom_encode]
  rfl

lemma decodeSigned_append (bytes : Bytes) : decodeSigned (signature ++ bytes) = decode bytes := by
  have hlong : ¬ (signature ++ bytes).length < 3 := by simp [signature]
  unfold decodeSigned
  rw [if_neg fun h => hlong h.1, if_pos (by simp)]
  rfl

end Utf8

namespace Encoding

variable {e : Encoding} {limit : Nat} {bytes : Bytes} {t : Text}

lemma decodeBelow_of_encodeBelow (hlimit : limit ≤ 256) (h : e.encodeBelow limit t = .ok bytes) :
    e.decodeBelow limit bytes = .ok t := by
  obtain ⟨rfl, hlt⟩ := encodeBelow_eq_ok h
  have hbyte : ∀ c ∈ t, (UInt8.ofNat c.toNat).toNat = c.toNat := by
    intro c hc
    exact Utf8.toNat_ofNat_byte (Nat.lt_of_lt_of_le (hlt c hc) hlimit)
  have hfind : (t.map fun c => UInt8.ofNat c.toNat).findIdx? (limit ≤ ·.toNat) = none := by
    rw [List.findIdx?_eq_none_iff]
    intro b hb
    obtain ⟨c, hc, rfl⟩ := List.mem_map.mp hb
    rw [hbyte c hc, decide_eq_false_iff_not]
    exact Nat.not_le.mpr (hlt c hc)
  unfold decodeBelow
  rw [hfind]
  dsimp only
  rw [List.map_map]
  congr 1
  refine (List.map_congr_left fun c hc => ?_).trans (List.map_id t)
  rw [Function.comp, hbyte c hc, Char.ofNat_toNat]
  rfl

/-- What is encoded is decoded as the same text, in every encoding. -/
theorem decode_of_encode (h : e.encode t = .ok bytes) : e.decode bytes = .ok t := by
  cases e with
  | utf8 =>
    obtain rfl := Except.ok.inj h
    exact Utf8.decode_encode t
  | utf8Signed =>
    obtain rfl := Except.ok.inj h
    exact (Utf8.decodeSigned_append _).trans (Utf8.decode_encode t)
  | latin1 => exact decodeBelow_of_encodeBelow (by omega) h
  | ascii => exact decodeBelow_of_encodeBelow (by omega) h

end Encoding
end TemplateSplice
