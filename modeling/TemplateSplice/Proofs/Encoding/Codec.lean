import TemplateSplice.Library.Basic
import TemplateSplice.Proofs.Encoding.RoundTrip

/-! The codecs of the program's own encodings. Texts that are written one after another become the bytes
of the whole text; only where nothing is written at all, there is no signature either. -/
namespace TemplateSplice.Encoding

variable {e : Encoding} {t u : Text} {bytes : Bytes}

lemma later_later (e : Encoding) : e.later.later = e.later := by cases e <;> rfl

lemma encode_later_nil (e : Encoding) : e.later.encode [] = .ok [] := by cases e <;> rfl

lemma encodeBelow_append {limit : Nat} :
    e.encodeBelow limit (t ++ u) = .ok bytes ↔ ∃ first rest, e.encodeBelow limit t = .ok first ∧
      e.encodeBelow limit u = .ok rest ∧ first ++ rest = bytes := by
  constructor
  · intro h
    obtain ⟨rfl, honly⟩ := encodeBelow_eq_ok h
    obtain ⟨ht, hu⟩ := Text.only_append.mp honly
    exact ⟨_, _, encodeBelow_of_only ht, encodeBelow_of_only hu, List.map_append.symm⟩
  · rintro ⟨first, rest, ht, hu, rfl⟩
    obtain ⟨rfl, htext⟩ := encodeBelow_eq_ok ht
    obtain ⟨rfl, hrest⟩ := encodeBelow_eq_ok hu
    rw [encodeBelow_of_only (Text.only_append.mpr ⟨htext, hrest⟩), List.map_append]

/-- A text is encoded part by part. -/
lemma encode_append : e.encode (t ++ u) = .ok bytes ↔ ∃ first rest, e.encode t = .ok first ∧
    e.later.encode u = .ok rest ∧ first ++ rest = bytes := by
  cases e with
  | utf8 => simp [encode, later, Utf8.encode]
  | utf8Signed => simp [encode, later, Utf8.encode]
  | latin1 => exact encodeBelow_append
  | ascii => exact encodeBelow_append

lemma encode_later_flatten {parts : List Text} :
    e.later.encode parts.flatten = .ok bytes ↔
      ∃ pieces, parts.mapM e.later.encode = .ok pieces ∧ pieces.flatten = bytes := by
  induction parts generalizing bytes with
  | nil => simp [encode_later_nil, pure, Except.pure]
  | cons t parts ih =>
    rw [List.flatten_cons, encode_append, later_later, List.mapM_cons]
    constructor
    · rintro ⟨first, rest, ht, hparts, rfl⟩
      obtain ⟨pieces, hpieces, rfl⟩ := ih.mp hparts
      rw [ht, hpieces]
      exact ⟨_, rfl, List.flatten_cons⟩
    · rintro ⟨pieces, hpieces, rfl⟩
      cases ht : e.later.encode t with
      | error fault =>
        rw [ht] at hpieces
        cases hpieces
      | ok first =>
        cases hrest : parts.mapM e.later.encode with
        | error fault =>
          rw [ht, hrest] at hpieces
          cases hpieces
        | ok rest =>
          rw [ht, hrest] at hpieces
          obtain rfl := Except.ok.inj hpieces
          exact ⟨first, rest.flatten, rfl, ih.mpr ⟨rest, hrest, rfl⟩, List.flatten_cons.symm⟩

/-- What is written to a stream is the encoding of the whole text. -/
theorem stream_eq_ok {parts : List Text} (h : parts ≠ []) :
    e.stream parts = .ok bytes ↔ e.encode parts.flatten = .ok bytes := by
  cases parts with
  | nil => exact absurd rfl h
  | cons t parts =>
    rw [List.flatten_cons, encode_append, stream]
    constructor
    · intro hstream
      cases ht : e.encode t with
      | error fault =>
        rw [ht] at hstream
        cases hstream
      | ok first =>
        cases hrest : parts.mapM e.later.encode with
        | error fault =>
          rw [ht, hrest] at hstream
          cases hstream
        | ok rest =>
          rw [ht, hrest] at hstream
          exact ⟨first, rest.flatten, rfl, encode_later_flatten.mpr ⟨rest, hrest, rfl⟩,
            Except.ok.inj hstream⟩
    · rintro ⟨first, rest, ht, hrest, rfl⟩
      obtain ⟨pieces, hpieces, rfl⟩ := encode_later_flatten.mp hrest
      rw [ht, hpieces]
      rfl

section Codec

lemma mapError_eq_ok {ε ε' α : Type} {f : ε → ε'} {r : Except ε α} {a : α} :
    r.mapError f = .ok a ↔ r = .ok a := by cases r <;> simp [Except.mapError]

lemma decode_codec : e.codec.decode bytes = .ok t ↔ e.decode bytes = .ok t := mapError_eq_ok

lemma stream_codec {parts : List Text} :
    e.codec.stream parts = .ok bytes ↔ e.stream parts = .ok bytes := mapError_eq_ok

end Codec

end TemplateSplice.Encoding
