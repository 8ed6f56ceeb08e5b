import Mathlib.Data.List.Basic
import TemplateSplice.Marker.Reference
import TemplateSplice.Proofs.Text.Parts

/-! What an inline resource refers to, for a delimiter of one character: it holds the delimiter once
and has something on either side of it, or it refers to nothing for one of three reasons. -/
namespace TemplateSplice

/-- A resource that holds its delimiter once, between a path and a name that are not blank. -/
def TwoParts (d : Char) (resource path name : Text) : Prop :=
  ∃ a b : Text, resource = a ++ d :: b ∧ d ∉ a ∧ d ∉ b ∧ a.strip = path ∧ b.strip = name ∧
    path ≠ [] ∧ name ≠ []

/-- Why an inline resource refers to nothing. -/
inductive Misread (d : Char) (resource : Text) : ReferenceFault → Prop
  | notTwoParts (count : resource.count d ≠ 1) : Misread d resource .notTwoParts
  | missingPath {a b : Text} (cut : resource = a ++ d :: b) (left : d ∉ a) (right : d ∉ b)
      (blank : a.strip = []) : Misread d resource .missingPath
  | missingSection {a b : Text} (cut : resource = a ++ d :: b) (left : d ∉ a) (right : d ∉ b)
      (named : a.strip ≠ []) (blank : b.strip = []) : Misread d resource .missingSection

lemma TwoParts.count {d : Char} {resource path name : Text} (h : TwoParts d resource path name) :
    resource.count d = 1 := by
  obtain ⟨a, b, rfl, ha, hb, _⟩ := h
  rw [List.count_append, List.count_cons_self, List.count_eq_zero_of_not_mem ha,
    List.count_eq_zero_of_not_mem hb]

namespace MarkerStyle

variable {style : MarkerStyle} {d : Char} {resource : Text}

/-- A resource with two parts is read as them. -/
lemma inlineParts_of_twoParts (hd : style.delimiter = [d]) {path name : Text}
    (h : TwoParts d resource path name) : style.inlineParts resource = .ok (path, name) := by
  obtain ⟨a, b, hcut, ha, hb, rfl, rfl, hpath, hname⟩ := h
  have hsplit : Text.splitOn [d] resource = [a, b] := Text.splitOn_eq_pair_iff.mpr ⟨hcut, ha, hb⟩
  unfold inlineParts
  rw [hd, if_neg (by simp), hsplit]
  dsimp only
  split
  · contradiction
  · contradiction
  · rfl

/-- A resource without two parts is read as the fault that it has. -/
lemma inlineParts_of_misread (hd : style.delimiter = [d]) {fault : ReferenceFault}
    (h : Misread d resource fault) : style.inlineParts resource = .error fault := by
  unfold inlineParts
  rw [hd, if_neg (by simp)]
  cases h with
  | notTwoParts count =>
    have hlength := Text.length_splitOn d resource
    split
    · next a b hab =>
      rw [hab] at hlength
      exact absurd (Nat.succ.inj hlength).symm count
    · rfl
  | missingPath cut left right blank =>
    rw [Text.splitOn_eq_pair_iff.mpr ⟨cut, left, right⟩]
    simp [blank]
  | missingSection cut left right named blank =>
    rw [Text.splitOn_eq_pair_iff.mpr ⟨cut, left, right⟩]
    dsimp only
    split
    · contradiction
    · rfl
    · contradiction

/-- Every resource has two parts or a fault. -/
lemma twoParts_or_misread (d : Char) (resource : Text) :
    (∃ path name, TwoParts d resource path name) ∨ ∃ fault, Misread d resource fault := by
  by_cases hcount : resource.count d = 1
  · have hlength : (Text.splitOn [d] resource).length = 2 := by rw [Text.length_splitOn, hcount]
    obtain ⟨a, b, hab⟩ := List.length_eq_two.mp hlength
    obtain ⟨hcut, ha, hb⟩ := Text.splitOn_eq_pair_iff.mp hab
    by_cases hpath : Text.strip a = []
    · exact .inr ⟨_, .missingPath hcut ha hb hpath⟩
    · by_cases hname : Text.strip b = []
      · exact .inr ⟨_, .missingSection hcut ha hb hpath hname⟩
      · exact .inl ⟨_, _, a, b, hcut, ha, hb, rfl, rfl, hpath, hname⟩
  · exact .inr ⟨_, .notTwoParts hcount⟩

/-- An inline resource is read as a path and a name exactly if they are its two parts. -/
theorem inlineParts_eq_ok_iff (hd : style.delimiter = [d]) {path name : Text} :
    style.inlineParts resource = .ok (path, name) ↔ TwoParts d resource path name := by
  refine ⟨fun h => ?_, inlineParts_of_twoParts hd⟩
  rcases twoParts_or_misread d resource with ⟨path', name', h'⟩ | ⟨fault, h'⟩
  · rw [inlineParts_of_twoParts hd h'] at h
    cases h
    exact h'
  · rw [inlineParts_of_misread hd h'] at h
    cases h

/-- It is refused for a fault exactly if it has that fault. -/
theorem inlineParts_eq_error_iff (hd : style.delimiter = [d]) {fault : ReferenceFault} :
    style.inlineParts resource = .error fault ↔ Misread d resource fault := by
  refine ⟨fun h => ?_, inlineParts_of_misread hd⟩
  rcases twoParts_or_misread d resource with ⟨path', name', h'⟩ | ⟨fault', h'⟩
  · rw [inlineParts_of_twoParts hd h'] at h
    cases h
  · rw [inlineParts_of_misread hd h'] at h
    cases h
    exact h'

end MarkerStyle

variable {d : Char} {resource path name path' name' : Text} {fault fault' : ReferenceFault}

/-- A resource has only one way to be read, whatever markers look like. -/
lemma TwoParts.unique (h : TwoParts d resource path name)
    (h' : TwoParts d resource path' name') : path = path' ∧ name = name' := by
  have hd : (⟨[], [d]⟩ : MarkerStyle).delimiter = [d] := rfl
  cases (MarkerStyle.inlineParts_of_twoParts hd h).symm.trans
    (MarkerStyle.inlineParts_of_twoParts hd h')
  exact ⟨rfl, rfl⟩

lemma TwoParts.not_misread (h : TwoParts d resource path name) : ¬ Misread d resource fault := by
  intro h'
  have hd : (⟨[], [d]⟩ : MarkerStyle).delimiter = [d] := rfl
  cases (MarkerStyle.inlineParts_of_twoParts hd h).symm.trans
    (MarkerStyle.inlineParts_of_misread hd h')

lemma Misread.unique (h : Misread d resource fault) (h' : Misread d resource fault') :
    fault = fault' := by
  have hd : (⟨[], [d]⟩ : MarkerStyle).delimiter = [d] := rfl
  cases (MarkerStyle.inlineParts_of_misread hd h).symm.trans
    (MarkerStyle.inlineParts_of_misread hd h')
  rfl

end TemplateSplice
