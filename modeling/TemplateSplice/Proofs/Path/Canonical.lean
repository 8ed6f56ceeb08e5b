import TemplateSplice.Merge.Access
import TemplateSplice.Proofs.Path.Normal

/-! Normal forms as texts. A text is canonical if it can be read as slashes in front and segments
between single slashes, none of them empty or a dot, with double dots in front only and none below a
root. The texts of paths in normal form are the canonical ones and the dot. -/
namespace TemplateSplice

namespace Path

/-- How many slashes there are in front of a text. -/
def leadingSlashes (t : Text) : Nat := (t.takeWhile (· == '/')).length

/-- What stands between the slashes of a text, from the first character that is no slash. -/
def writtenSegments (t : Text) : List Text :=
  let rest := t.dropWhile (· == '/')
  if rest = [] then [] else Text.splitOn ['/'] rest

/-- A text that names a path in one way only. -/
structure IsCanonical (t : Text) : Prop where
  nonempty : t ≠ []
  segment : ∀ s ∈ writtenSegments t, s ≠ [] ∧ s ≠ dot
  /-- A text that ends in a slash is that of a root. -/
  stop : t.getLast? = some '/' → writtenSegments t = []
  slashes : leadingSlashes t ≤ 2
  absolute : leadingSlashes t ≠ 0 → dotDot ∉ writtenSegments t
  relative : ∃ ups names, writtenSegments t = List.replicate ups dotDot ++ names ∧ dotDot ∉ names

variable {p : Path} {t : Text}

lemma not_mem_of_mem_writtenSegments {s : Text} (h : s ∈ writtenSegments t) : '/' ∉ s := by
  unfold writtenSegments at h
  dsimp only at h
  split_ifs at h
  · cases h
  · exact Text.not_mem_of_mem_splitOn h

section Slashes

/-- Two slashes stay, and more than two count as one. -/
lemma length_text_ofSlashes (n : Nat) :
    (Anchor.ofSlashes n).text.length = if n = 2 then 2 else min n 1 := by
  rcases n with _ | _ | _ | n
  · rfl
  · rfl
  · rfl
  · have hmin : min (n + 3) 1 = 1 := by omega
    rw [if_neg (by omega), hmin]
    rfl

lemma text_ofSlashes {n : Nat} (h : n ≤ 2) : (Anchor.ofSlashes n).text = List.replicate n '/' := by
  obtain rfl | rfl | rfl : n = 0 ∨ n = 1 ∨ n = 2 := by omega
  · rfl
  · rfl
  · rfl

lemma text_anchor (a : Anchor) : a.text = List.replicate a.text.length '/' := by
  cases a <;> rfl

end Slashes

section Plain

/-- The slashes in front of the text of a plain path are those of its anchor. -/
lemma Plain.leadingSlashes_text (h : p.Plain) :
    leadingSlashes p.text = p.anchor.text.length := by
  by_cases hne : p.segments = []
  · obtain ⟨a, segments⟩ := p
    obtain rfl : segments = [] := hne
    cases a <;> rfl
  · rw [leadingSlashes, text_eq_append hne, text_anchor, takeWhile_joinWith hne h]

/-- The segments of a plain path stand in its text, unless that is the dot. -/
lemma Plain.writtenSegments_text (h : p.Plain) (hdot : p.text ≠ dot) :
    writtenSegments p.text = p.segments := by
  by_cases hne : p.segments = []
  · obtain ⟨a, segments⟩ := p
    obtain rfl : segments = [] := hne
    cases a with
    | here => exact absurd rfl hdot
    | root => rfl
    | doubleRoot => rfl
  · have hsplit : Text.splitOn ['/'] (Text.joinWith ['/'] p.segments) = p.segments :=
      Text.splitOn_joinWith hne fun s hs => (h s hs).2.2
    have hjoin : Text.joinWith ['/'] p.segments ≠ [] := by
      intro hnil
      rw [hnil] at hsplit
      have hmem : ([] : Text) ∈ p.segments := hsplit ▸ List.mem_singleton.mpr rfl
      exact (h [] hmem).1 rfl
    have hrest : p.text.dropWhile (· == '/') = Text.joinWith ['/'] p.segments := by
      have hparts : List.replicate (leadingSlashes p.text) '/' ++ _ = p.text :=
        replicate_append_dropWhile p.text
      rw [h.leadingSlashes_text, ← text_anchor] at hparts
      exact List.append_cancel_left (hparts.trans (text_eq_append hne))
    rw [writtenSegments, hrest, if_neg hjoin, hsplit]

end Plain

/-- The text of a path in normal form is canonical, unless it is the dot. -/
theorem IsNormal.isCanonical_text (h : p.IsNormal) (hdot : p.text ≠ dot) : IsCanonical p.text := by
  have hplain := h.plain
  have hslashes := hplain.leadingSlashes_text
  have hsegments := hplain.writtenSegments_text hdot
  obtain ⟨ups, rest, hparts, hrest, hups⟩ := h
  have hdots : dotDot ∉ rest := fun hd => (hrest _ hd).2.2.1 rfl
  constructor
  case nonempty =>
    intro hnil
    have hread := hplain.ofText_text
    rw [hnil] at hread
    exact hdot (hread ▸ rfl)
  case segment =>
    rw [hsegments]
    exact fun s hs => ⟨(hplain s hs).1, (hplain s hs).2.1⟩
  case stop =>
    intro hlast
    rw [hsegments]
    exact Decidable.not_not.mp fun hne => hplain.getLast?_text hne hlast
  case slashes =>
    rw [hslashes]
    cases p.anchor <;> decide
  case absolute =>
    intro ha
    have hanchor : p.anchor ≠ .here := fun hn => ha (by rw [hslashes, hn]; rfl)
    rw [hsegments, hparts, hups hanchor]
    exact hdots
  case relative =>
    exact ⟨ups, rest, hsegments.trans hparts, hdots⟩

/-- A canonical text is that of a path in normal form. -/
theorem IsCanonical.exists_isNormal (h : IsCanonical t) : ∃ p : Path, p.IsNormal ∧ p.text = t := by
  refine ⟨⟨.ofSlashes (leadingSlashes t), writtenSegments t⟩, ?_, ?_⟩
  · obtain ⟨ups, names, hparts, hnames⟩ := h.relative
    refine ⟨ups, names, hparts, fun s hs => ?_, fun ha => ?_⟩
    · have hmem : s ∈ writtenSegments t := hparts ▸ List.mem_append_right _ hs
      obtain ⟨hne, hdot⟩ := h.segment s hmem
      exact ⟨hne, hdot, fun hd => hnames (hd ▸ hs), not_mem_of_mem_writtenSegments hmem⟩
    · have habsolute := h.absolute fun hn => ha (by rw [hn]; rfl)
      rw [hparts, List.mem_append, List.mem_replicate] at habsolute
      exact Decidable.not_not.mp fun hups => habsolute (.inl ⟨hups, rfl⟩)
  · have hanchor := text_ofSlashes h.slashes
    have ht : List.replicate (leadingSlashes t) '/' ++ _ = t := replicate_append_dropWhile t
    rw [← hanchor] at ht
    unfold writtenSegments
    dsimp only
    split_ifs with hrest
    · rw [hrest, List.append_nil] at ht
      have hne : Anchor.ofSlashes (leadingSlashes t) ≠ .here :=
        fun hn => h.nonempty (by rw [← ht, hn]; rfl)
      generalize Anchor.ofSlashes (leadingSlashes t) = a at ht hne
      rw [← ht]
      cases a with
      | here => exact absurd rfl hne
      | root => rfl
      | doubleRoot => rfl
    · rw [text_eq_append (Text.splitOn_ne_nil _ _), Text.joinWith_splitOn (by simp)]
      exact ht

/-- The texts that are canonical or the dot are those of paths in normal form. -/
theorem exists_isNormal_iff : (∃ p : Path, p.IsNormal ∧ p.text = t) ↔ t = dot ∨ IsCanonical t := by
  constructor
  · rintro ⟨p, hp, rfl⟩
    exact Decidable.or_iff_not_imp_left.mpr hp.isCanonical_text
  · rintro (rfl | h)
    · exact ⟨⟨.here, []⟩, ⟨0, [], rfl, by simp, fun _ => rfl⟩, rfl⟩
    · exact h.exists_isNormal

lemma leadingSlashes_text_ofText (t : Text) :
    leadingSlashes (ofText t).normalize.text =
      if leadingSlashes t = 2 then 2 else min (leadingSlashes t) 1 :=
  (plain_ofText t).normalize.leadingSlashes_text.trans (length_text_ofSlashes (leadingSlashes t))

end Path

/-- Normalizing the name of a template once is enough, whether its result is taken as a path or as a
text. The text of the result is the dot or canonical: it starts with two slashes if the name does so
with exactly two, and else with one if the name does with any. Only such texts stay as they are. -/
theorem TemplateName.normal_isCanonical (name : TemplateName) :
    let t := name.shown
    let u := name.normal.text
    ((TemplateName.path name.normal).normal = name.normal ∧ (TemplateName.text u).normal = name.normal) ∧
      (u = Path.dot ∨ Path.IsCanonical u) ∧
      (Path.leadingSlashes u =
        if Path.leadingSlashes t = 2 then 2 else min (Path.leadingSlashes t) 1) ∧
      (u = t ↔ t = Path.dot ∨ Path.IsCanonical t) := by
  intro t u
  have hplain := Path.plain_ofText t
  have hagain : (Path.ofText u).normalize = name.normal := hplain.normalize_ofText_text
  have hform : u = Path.dot ∨ Path.IsCanonical u :=
    Path.exists_isNormal_iff.mp ⟨_, hplain.isNormal_normalize, rfl⟩
  refine ⟨⟨hagain, hagain⟩, hform, Path.leadingSlashes_text_ofText t, fun hu => hu ▸ hform, fun ht => ?_⟩
  obtain ⟨p, hp, hpt⟩ := Path.exists_isNormal_iff.mpr ht
  have hread : name.normal = p :=
    calc name.normal = (Path.ofText p.text).normalize := by rw [hpt]; rfl
      _ = p := by rw [hp.plain.ofText_text, hp.normalize_eq]
  exact (congrArg Path.text hread).trans hpt

example : (TemplateName.text "//a/.././../b//c/".toList).normal.text = "//b/c".toList := by decide

example : (TemplateName.text "a/../../b/.".toList).normal.text = "../b".toList := by decide

end TemplateSplice
