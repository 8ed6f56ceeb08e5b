import Mathlib.Data.List.TakeWhile
import Mathlib.Tactic.Lemma
import Mathlib.Tactic.SplitIfs
import TemplateSplice.Encoding.Codec

/-! The characters that an encoding can hold. A text can be encoded if it is made of them, and what is
decoded is. -/
namespace TemplateSplice

lemma toNat_ofNat {n : Nat} (h : n.isValidChar) : (Char.ofNat n).toNat = n := by
  unfold Char.ofNat
  rw [dif_pos h]
  rfl

lemma toNat_charOf (b : UInt8) : (Char.ofNat b.toNat).toNat = b.toNat := by
  have hb := b.toNat_lt
  exact toNat_ofNat (.inl (by omega))

/-- A text is made of some characters only. -/
def Text.Only (P : Char → Prop) (t : Text) : Prop := ∀ c ∈ t, P c

namespace Text

variable {P : Char → Prop} {t u : Text}

lemma only_nil : Only P [] := fun _ hc => absurd hc (List.not_mem_nil)

lemma only_append : Only P (t ++ u) ↔ Only P t ∧ Only P u := List.forall_mem_append

lemma only_cons {c : Char} : Only P (c :: t) ↔ P c ∧ Only P t := List.forall_mem_cons

lemma Only.of_subset (h : Only P t) (hu : u ⊆ t) : Only P u := fun c hc => h c (hu hc)

/-- Line feeds are all that is new where line ends are unified. -/
lemma Only.unifyLineEnds (h : Only P t) (hline : P '\n') : Only P t.unifyLineEnds := by
  fun_induction Text.unifyLineEnds t with
  | case1 => exact h
  | case2 r ih => exact only_cons.mpr ⟨hline, ih (only_cons.mp (only_cons.mp h).2).2⟩
  | case3 r _ ih => exact only_cons.mpr ⟨hline, ih (only_cons.mp h).2⟩
  | case4 c r _ _ ih => exact only_cons.mpr ⟨(only_cons.mp h).1, ih (only_cons.mp h).2⟩

end Text

namespace Encoding

variable {e : Encoding} {bytes : Bytes} {t : Text}

/-- An encoding has bytes for a character. -/
def Has : Encoding → Char → Prop
  | utf8, _ => True
  | utf8Signed, _ => True
  | latin1, c => c.toNat < 256
  | ascii, c => c.toNat < 128

lemma has_newline (e : Encoding) : e.Has '\n' := by cases e <;> simp [Has]

lemma encodeBelow_of_only {limit : Nat} (h : Text.Only (·.toNat < limit) t) :
    e.encodeBelow limit t = .ok (t.map fun c => .ofNat c.toNat) := by
  unfold encodeBelow
  rw [List.dropWhile_eq_nil_iff.mpr fun c hc => decide_eq_true (h c hc)]

/-- A text of characters that an encoding has can be encoded. -/
theorem exists_encode_of_only (h : Text.Only e.Has t) : ∃ bytes, e.encode t = .ok bytes := by
  cases e with
  | utf8 => exact ⟨_, rfl⟩
  | utf8Signed => exact ⟨_, rfl⟩
  | latin1 => exact ⟨_, encodeBelow_of_only h⟩
  | ascii => exact ⟨_, encodeBelow_of_only h⟩

lemma decodeBelow_eq_ok {limit : Nat} (h : e.decodeBelow limit bytes = .ok t) :
    t = bytes.map (fun b => Char.ofNat b.toNat) ∧ ∀ b ∈ bytes, b.toNat < limit := by
  unfold decodeBelow at h
  cases hi : bytes.findIdx? (limit ≤ ·.toNat) with
  | some i =>
    rw [hi] at h
    cases h
  | none =>
    rw [hi] at h
    refine ⟨(Except.ok.inj h).symm, fun b hb => ?_⟩
    simpa using List.findIdx?_eq_none_iff.mp hi b hb

lemma only_of_decodeBelow {limit : Nat} (h : e.decodeBelow limit bytes = .ok t) :
    Text.Only (·.toNat < limit) t := by
  obtain ⟨rfl, hlt⟩ := decodeBelow_eq_ok h
  intro c hc
  obtain ⟨b, hb, rfl⟩ := List.mem_map.mp hc
  rw [toNat_charOf]
  exact hlt b hb

/-- What is decoded is made of characters that the encoding has. -/
theorem only_of_decode (h : e.decode bytes = .ok t) : Text.Only e.Has t := by
  cases e with
  | utf8 => exact fun _ _ => trivial
  | utf8Signed => exact fun _ _ => trivial
  | latin1 => exact only_of_decodeBelow h
  | ascii => exact only_of_decodeBelow h

end Encoding
end TemplateSplice
