import TemplateSplice.Proofs.Marker.Reference
import TemplateSplice.Proofs.Marker.Solid

/-! Inline markers that are written and found again. Blanks before a token cannot be taken for the start
of it, since it does not end in a blank; so a marker that is written on a line of its own is found where it
stands, whatever the other lines are, and its resource is read as the path and the name that went into
it. -/
namespace TemplateSplice

/-- A text that starts again further on in itself, with one character more, has that character in the part
before: going back by that part again and again leads into it. -/
lemma Text.mem_of_prefix_append {t u : Text} {c : Char} (ht : t ≠ []) (h : u ++ [c] <+: t ++ u) : c ∈ t := by
  induction u generalizing t with
  | nil =>
    obtain ⟨a, t, rfl⟩ := List.exists_cons_of_ne_nil ht
    obtain ⟨rfl, -⟩ := List.cons_prefix_cons.mp h
    exact List.mem_cons_self
  | cons b u ih =>
    obtain ⟨a, t, rfl⟩ := List.exists_cons_of_ne_nil ht
    obtain ⟨rfl, h⟩ := List.cons_prefix_cons.mp h
    -- The part is turned by one character: its first one, which comes after it, becomes its last one.
    have hturned : u ++ [c] <+: (t ++ [b]) ++ u := by simpa using h
    have hmem := ih (by simp) hturned
    simpa [or_comm] using hmem

namespace MarkerStyle

variable {style : MarkerStyle} {c d : Char}

/-- An opening does not start in a text without the last character of its token, so as to run into an opening
after it. -/
lemma not_opening_prefix (hlast : style.token.getLast? = some c) {t : Text} (ht : t ≠ []) (hc : c ∉ t)
    (rest : Text) : ¬ style.opening <+: t ++ (style.opening ++ rest) := by
  intro h
  obtain ⟨u, hu⟩ := List.getLast?_eq_some_iff.mp hlast
  have hlong : u ++ [c] <+: t ++ (style.opening ++ rest) := by
    refine List.IsPrefix.trans ?_ h
    rw [opening, hu]
    exact List.prefix_append _ _
  have hshort : t ++ u <+: t ++ (style.opening ++ rest) := by
    rw [opening, hu]
    simp
  have hlength : (u ++ [c]).length ≤ (t ++ u).length := by
    have := List.length_pos_iff.mpr ht
    simp only [List.length_append, List.length_singleton]
    omega
  exact hc (Text.mem_of_prefix_append ht (List.prefix_of_prefix_length_le hlong hshort hlength))

/-- In front of an opening no marker starts in a text without the last character of the token. -/
lemma markersFrom_append_opening (hlast : style.token.getLast? = some c) (p : Nat) {t : Text} (hc : c ∉ t)
    (rest : Text) :
    style.markersFrom p 0 (t ++ (style.opening ++ rest)) =
      style.markersFrom (p + t.length) 0 (style.opening ++ rest) := by
  induction t generalizing p with
  | nil => rfl
  | cons e t ih =>
    have hnone : style.resourceHere? (e :: (t ++ (style.opening ++ rest))) = none := by
      unfold resourceHere?
      rw [if_neg]
      rw [List.isPrefixOf_iff_prefix]
      exact not_opening_prefix hlast (List.cons_ne_nil e t) hc rest
    rw [List.cons_append, markersFrom_plain p hnone, ih (p + 1) fun hm => hc (List.mem_cons_of_mem e hm),
      List.length_cons, Nat.add_assoc p, Nat.add_comm 1]

/-- Where a line starts, the markers of what follows are found after those of the lines before. -/
lemma exists_markers_append (hone : '\n' ∉ style.opening) {before : Text}
    (hopens : Text.opensLine true before = true) (u : Text) :
    ∃ earlier, style.markers (before ++ u) = earlier ++ style.markersFrom before.length 0 u := by
  by_cases hnil : before = []
  · subst hnil
    exact ⟨[], rfl⟩
  · rw [Text.opensLine_of_ne_nil hnil true false] at hopens
    obtain ⟨front, rfl⟩ := List.getLast?_eq_some_iff.mp (Text.getLast?_of_opensLine hopens)
    refine ⟨style.markersFrom 0 0 front, ?_⟩
    rw [markers, List.append_assoc, List.singleton_append, markersFrom_append_newline hone,
      List.length_append, List.length_singleton, Nat.zero_add]

/-- A solid resource that is written after an opening is the resource there, up to the blanks at the end of
its line. -/
lemma resourceHere?_of_isSolid (hone : '\n' ∉ style.opening) {resource tail after : Text}
    (hsolid : isSolid resource = true) (hline : '\n' ∉ resource) (htail : ∀ e ∈ tail, isLineTail e = true)
    (hafter : ∀ e ∈ after.head?, e = '\n') :
    style.resourceHere? (style.opening ++ resource ++ (tail ++ after)) = some resource := by
  have hfree : '\n' ∉ resource ++ tail := by
    rw [List.mem_append, not_or]
    exact ⟨hline, fun hm => absurd (htail _ hm) (by decide)⟩
  have hhere : style.resourceHere? (style.opening ++ resource ++ tail) = some resource := by
    unfold resourceHere?
    rw [List.append_assoc, if_pos (List.isPrefixOf_iff_prefix.mpr (List.prefix_append _ _)), List.drop_left]
    exact resourceAt?_of_isSolid hsolid htail hfree
  cases after with
  | nil => rwa [List.append_nil]
  | cons e after =>
    obtain rfl := hafter e rfl
    rwa [← List.append_assoc, resourceHere?_append_newline hone]

/-- How an inline marker is written. -/
def inlineText (style : MarkerStyle) (path name : Text) : Text :=
  style.opening ++ (path ++ style.delimiter ++ name)

end MarkerStyle

/-- What can stand on either side of a delimiter in an inline marker, and be read as it stands. -/
structure IsPart (d : Char) (t : Text) : Prop where
  ne_nil : t ≠ []
  stripped : t.strip = t
  undivided : d ∉ t
  one_line : '\n' ∉ t

instance (d : Char) (t : Text) : Decidable (IsPart d t) :=
  decidable_of_iff (t ≠ [] ∧ t.strip = t ∧ d ∉ t ∧ '\n' ∉ t)
    ⟨fun ⟨h₁, h₂, h₃, h₄⟩ => ⟨h₁, h₂, h₃, h₄⟩, fun ⟨h₁, h₂, h₃, h₄⟩ => ⟨h₁, h₂, h₃, h₄⟩⟩

namespace IsPart

variable {c d : Char} {t path name : Text}

lemma isSolid (h : IsPart d t) : isSolid t = true := by
  obtain ⟨c, hc⟩ := Option.ne_none_iff_exists'.mp (mt List.getLast?_eq_none_iff.mp h.ne_nil)
  have hblank : isBlank c = false := by
    rw [← h.stripped] at hc
    exact Text.getLast?_trimRight hc
  refine isSolid_iff.mpr ⟨c, hc, ?_⟩
  by_contra hne
  rw [isBlank_of_isLineTail (by simpa using hne)] at hblank
  cases hblank

lemma twoParts (hpath : IsPart d path) (hname : IsPart d name) :
    TwoParts d (path ++ [d] ++ name) path name :=
  ⟨path, name, by simp, hpath.undivided, hname.undivided, hpath.stripped, hname.stripped, hpath.ne_nil,
    hname.ne_nil⟩

end IsPart

/-- An inline marker that is written on a line, with nothing but spaces and tabs before it and blanks after it,
is found where its token stands, and its resource is read as the path and the name that were written. -/
theorem written_marker_read_back (style : MarkerStyle) {c d : Char}
    (before indent path name tail after : Text) (hone : '\n' ∉ style.token)
    (hlast : style.token.getLast? = some c) (hc : isBlank c = false) (hd : style.delimiter = [d])
    (hbreak : d ≠ '\n') (hbefore : before = [] ∨ before.getLast? = some '\n')
    (hindent : ∀ e ∈ indent, isIndent e = true) (hpath : IsPart d path) (hname : IsPart d name)
    (htail : ∀ e ∈ tail, isLineTail e = true) (hafter : after = [] ∨ after.head? = some '\n') :
    ∃ m ∈ style.markers (before ++ indent ++ style.inlineText path name ++ tail ++ after),
      m.kind = .inline ∧ m.start = (before ++ indent).length ∧ m.text = style.inlineText path name ∧
        style.inlineParts m.resource = .ok (path, name) := by
  have hopening : '\n' ∉ style.opening := by simpa [MarkerStyle.opening] using hone
  have hopens : Text.opensLine true before = true := by
    rcases hbefore with rfl | hbefore
    · rfl
    · simp [Text.opensLine, hbefore]
  have hindented : c ∉ indent := by
    intro hm
    have htail : isLineTail c = true := by
      rcases Bool.or_eq_true_iff.mp (hindent c hm) with h | h <;> simp [isLineTail, h]
    rw [isBlank_of_isLineTail htail] at hc
    cases hc
  set resource := path ++ [d] ++ name with hresource
  have hsolid : isSolid resource = true := isSolid_append _ hname.isSolid
  have hline : '\n' ∉ resource := by simp [hresource, hpath.one_line, hname.one_line, Ne.symm hbreak]
  have hnext : ∀ e ∈ after.head?, e = '\n' := by
    rcases hafter with rfl | hafter
    · simp
    · simp [hafter]
  have hhere := MarkerStyle.resourceHere?_of_isSolid hopening hsolid hline htail hnext
  have hbody : before ++ indent ++ style.inlineText path name ++ tail ++ after =
      before ++ (indent ++ (style.opening ++ resource ++ (tail ++ after))) := by
    simp [MarkerStyle.inlineText, hd, hresource]
  obtain ⟨earlier, hmarkers⟩ := MarkerStyle.exists_markers_append hopening hopens
    (indent ++ (style.opening ++ (resource ++ (tail ++ after))))
  rw [MarkerStyle.markersFrom_append_opening hlast _ hindented, ← List.append_assoc style.opening,
    MarkerStyle.markersFrom_marker _ hhere] at hmarkers
  rw [hbody, hmarkers]
  refine ⟨_, List.mem_append_right earlier List.mem_cons_self, ?_, ?_, ?_, ?_⟩
  · exact (MarkerStyle.kindOf_eq_inline_iff hd).mpr (by simp [hresource])
  · exact (List.length_append ..).symm
  · simp [MarkerStyle.inlineText, hd, hresource]
  · exact MarkerStyle.inlineParts_of_twoParts hd (hpath.twoParts hname)

/-- A token of two equal parts, which stands in the path and in the lines around the marker as well. -/
theorem written_marker_read_back_repeated :
    ∃ m ∈ (⟨"##".toList, "|".toList⟩ : MarkerStyle).markers
        "## x\n\t ## a## b|Q##R \r\n## y|z|".toList,
      m.kind = .inline ∧ m.start = 7 ∧ m.text = "## a## b|Q##R".toList ∧
        (⟨"##".toList, "|".toList⟩ : MarkerStyle).inlineParts m.resource =
          .ok ("a## b".toList, "Q##R".toList) :=
  written_marker_read_back ⟨"##".toList, "|".toList⟩ (c := '#') (d := '|') "## x\n".toList "\t ".toList
    "a## b".toList "Q##R".toList " \r".toList "\n## y|z|".toList (by decide) (by decide) (by decide) rfl
    (by decide) (by decide) (List.all_eq_true.mp rfl) (by decide) (by decide) (List.all_eq_true.mp rfl)
    (by decide)

end TemplateSplice
