import Mathlib.Data.List.Forall2
import TemplateSplice.Proofs.Marker.Solid

/-! Markers by lines. Where markers are written on one line and their token does not end in a blank, a line
holds at most one of them: the first opening with something after it takes the rest of the line, and no
opening fits into the blanks that are left. So the markers of a body are found line by line. -/
namespace TemplateSplice

namespace Text

/-- Lines with the positions at which they start, the first one at the given position. -/
def placed : Nat → List Text → List (Nat × Text)
  | _, [] => []
  | p, line :: lines => (p, line) :: placed (p + line.length + 1) lines

/-- The lines of a text with the positions at which they start. -/
def placedLines (t : Text) : List (Nat × Text) := placed 0 t.lines

lemma le_of_mem_placed {p : Nat} {lines : List Text} {spot : Nat × Text} (h : spot ∈ placed p lines) :
    p ≤ spot.1 := by
  induction lines generalizing p with
  | nil => cases h
  | cons line lines ih =>
    rcases List.mem_cons.mp h with rfl | h
    · exact Nat.le_refl p
    · have := ih h
      omega

/-- Fewer line feeds stand before a position in a line than before one in a later line. -/
lemma pairwise_placed (before : Text) {lines : List Text} (hlines : ∀ line ∈ lines, '\n' ∉ line) :
    (placed before.length lines).Pairwise fun a b => ∀ i ≤ a.2.length, ∀ q, b.1 ≤ q →
      ((before ++ joinWith ['\n'] lines).take (a.1 + i)).count '\n' <
        ((before ++ joinWith ['\n'] lines).take q).count '\n' := by
  induction lines generalizing before with
  | nil => exact .nil
  | cons line lines ih =>
    obtain ⟨hline, hlines⟩ := List.forall_mem_cons.mp hlines
    by_cases hnil : lines = []
    · subst hnil
      exact List.pairwise_singleton _ _
    have hbody : before ++ joinWith ['\n'] (line :: lines) =
        before ++ line ++ ['\n'] ++ joinWith ['\n'] lines := by
      rw [joinWith_cons _ _ hnil]
      simp
    have hlength : (before ++ line ++ ['\n']).length = before.length + line.length + 1 := by
      simp [Nat.add_assoc]
    have htail := ih (before ++ line ++ ['\n']) hlines
    rw [hbody, placed, ← hlength]
    refine List.pairwise_cons.mpr ⟨fun b hb i hi q hq => ?_, htail⟩
    have hstart := le_of_mem_placed hb
    have hhere : ((before ++ line ++ ['\n'] ++ joinWith ['\n'] lines).take (before.length + i)).count '\n' =
        before.count '\n' := by
      have hfree : '\n' ∉ line.take i := fun hm => hline (List.mem_of_mem_take hm)
      rw [List.append_assoc before, List.append_assoc before, List.take_length_add_append,
        List.append_assoc line, List.take_append_of_le_length hi, List.count_append,
        List.count_eq_zero_of_not_mem hfree, Nat.add_zero]
    have hthere : (before ++ line ++ ['\n']).count '\n' ≤
        ((before ++ line ++ ['\n'] ++ joinWith ['\n'] lines).take q).count '\n' := by
      rw [List.take_append, List.take_of_length_le (hstart.trans hq)]
      exact (List.sublist_append_left _ _).count_le '\n'
    rw [List.count_append, List.count_append, List.count_eq_zero_of_not_mem hline] at hthere
    rw [hhere]
    exact hthere

end Text

/-- What the rest of a line after an opening is read as: the rest without the blanks at its end, or, if there
is nothing else, its first character. -/
inductive ReadAs : Text → Text → Prop
  | trimmed {resource tail : Text} (solid : isSolid resource = true)
      (blank : ∀ c ∈ tail, isLineTail c = true) : ReadAs (resource ++ tail) resource
  | blank {c : Char} {tail : Text} (blank : ∀ e ∈ c :: tail, isLineTail e = true) :
      ReadAs (c :: tail) [c]

lemma readAs_of_resourceAt? {t resource : Text} (h : resourceAt? t = some resource) (ht : '\n' ∉ t) :
    ReadAs t resource := by
  obtain ⟨tail, rfl, hblank⟩ := exists_of_resourceAt? h ht
  by_cases hsolid : isSolid resource = true
  · exact .trimmed hsolid hblank
  · -- A resource that ends in a blank is that blank.
    obtain ⟨_, -, hends⟩ := resourceEnds_of_resourceAt? h
    have hshort : ¬ 2 ≤ resource.length := fun hl => hsolid (hends.isSolid hl)
    obtain ⟨c, r, rfl⟩ := List.exists_cons_of_ne_nil hends.ne_nil
    obtain rfl : r = [] := by
      cases r with
      | nil => rfl
      | cons e r => simp at hshort
    have hc : isLineTail c = true := by simpa [isSolid] using hsolid
    exact .blank (List.forall_mem_cons.mpr ⟨hc, hblank⟩)

lemma exists_resourceAt?_cons {c : Char} (hc : c ≠ '\n') (r : Text) :
    ∃ resource, resourceAt? (c :: r) = some resource := by
  unfold resourceAt?
  simp only [ne_eq, hc, not_false_eq_true, decide_true, List.takeWhile_cons_of_pos]
  split <;> simp

namespace MarkerStyle

variable {style : MarkerStyle}

/-- A line holds an opening with one more character after it. -/
def HoldsMarker (style : MarkerStyle) (line : Text) : Prop :=
  ∃ before c rest, line = before ++ (style.opening ++ c :: rest)

lemma occursIn_dropLast_iff {line : Text} :
    style.opening.occursIn line.dropLast = true ↔ style.HoldsMarker line := by
  rw [Text.occursIn_iff]
  constructor
  · rintro ⟨before, rest, h⟩
    have hne : line ≠ [] := by
      rintro rfl
      simp [opening] at h
    obtain ⟨c, rest', hrest⟩ : ∃ c rest', rest ++ [line.getLast hne] = c :: rest' :=
      List.exists_cons_of_ne_nil (by simp)
    refine ⟨before, c, rest', ?_⟩
    calc line = line.dropLast ++ [line.getLast hne] := (List.dropLast_append_getLast hne).symm
      _ = before ++ (style.opening ++ c :: rest') := by rw [← h, ← hrest]; simp
  · rintro ⟨before, c, rest, rfl⟩
    refine ⟨before, (c :: rest).dropLast, ?_⟩
    rw [← List.append_assoc, List.dropLast_append_of_ne_nil (List.cons_ne_nil c rest)]

instance (line : Text) : Decidable (style.HoldsMarker line) :=
  decidable_of_iff _ occursIn_dropLast_iff

/-- A marker stands in a line that starts at a position: at the first opening of the line, and for what the
rest of the line is read as. -/
structure StandsIn (style : MarkerStyle) (spot : Nat × Text) (m : Marker) : Prop where
  text : m.text = style.opening ++ m.resource
  kind : m.kind = style.kindOf m.resource
  first : ∃ before rest, spot.2 = before ++ (style.opening ++ rest) ∧
    m.start = spot.1 + before.length ∧ ReadAs rest m.resource ∧
    ∀ earlier later, spot.2 = earlier ++ (style.opening ++ later) → before.length ≤ earlier.length

lemma StandsIn.start_le {spot : Nat × Text} {m : Marker} (h : style.StandsIn spot m) :
    ∃ i ≤ spot.2.length, m.start = spot.1 + i := by
  obtain ⟨before, rest, hline, hstart, -⟩ := h.first
  exact ⟨before.length, by simp [hline], hstart⟩

/-- Blanks hold no marker of a token that does not end in one. -/
lemma markersFrom_of_blanks {c : Char} (hlast : style.token.getLast? = some c)
    (hc : isLineTail c = false) (p : Nat) {t : Text} (ht : ∀ e ∈ t, isLineTail e = true) :
    style.markersFrom p 0 t = [] := by
  refine List.eq_nil_iff_forall_not_mem.mpr fun m hm => ?_
  obtain ⟨before, rest, rfl, -, htext, -⟩ := exists_of_mem_markersFrom hm
  have hmem : c ∈ before ++ (m.text ++ rest) := by
    rw [htext, opening]
    simp [List.mem_of_getLast? hlast]
  rw [ht c hmem] at hc
  cases hc

/-- Where no marker starts in a line, no opening with something after it does. -/
lemma eq_nil_of_resourceHere?_eq_none {rest : Text} (h : style.resourceHere? (style.opening ++ rest) = none)
    (hline : '\n' ∉ rest) : rest = [] := by
  unfold resourceHere? at h
  rw [if_pos (List.isPrefixOf_iff_prefix.mpr (List.prefix_append _ _)), List.drop_left] at h
  cases rest with
  | nil => rfl
  | cons c r =>
    obtain ⟨resource, hresource⟩ :=
      exists_resourceAt?_cons (fun he : c = '\n' => hline (by rw [he]; exact List.mem_cons_self)) r
    rw [h] at hresource
    cases hresource

/-- A character more in front that starts no marker does not make a line hold one. -/
lemma holdsMarker_cons_iff {c : Char} {r : Text} (hnone : style.resourceHere? (c :: r) = none)
    (hline : '\n' ∉ c :: r) : style.HoldsMarker (c :: r) ↔ style.HoldsMarker r := by
  constructor
  · rintro ⟨before, e, rest, h⟩
    cases before with
    | nil =>
      rw [List.nil_append] at h
      have hnil := eq_nil_of_resourceHere?_eq_none (h ▸ hnone) fun hm =>
        hline (h ▸ List.mem_append_right _ hm)
      cases hnil
    | cons _ before => exact ⟨before, e, rest, (List.cons.inj h).2⟩
  · rintro ⟨before, e, rest, rfl⟩
    exact ⟨c :: before, e, rest, rfl⟩

/-- What stands in a line stands in the line with a character more in front that starts no marker. -/
lemma StandsIn.cons {p : Nat} {c : Char} {r : Text} {m : Marker} (h : style.StandsIn (p + 1, r) m)
    (hnone : style.resourceHere? (c :: r) = none) (hline : '\n' ∉ c :: r) :
    style.StandsIn (p, c :: r) m where
  text := h.text
  kind := h.kind
  first := by
    obtain ⟨before, rest, hr, hstart, hread, hfirst⟩ := h.first
    dsimp only at hr hstart hfirst
    refine ⟨c :: before, rest, by rw [hr, List.cons_append], ?_, hread, fun earlier later he => ?_⟩
    · rw [hstart, List.length_cons]
      omega
    · cases earlier with
      | nil =>
        -- An opening at the start of the line would be all of the line, and another one stands after it.
        have he' : c :: r = style.opening ++ later := he
        have hnil : later = [] := eq_nil_of_resourceHere?_eq_none (he' ▸ hnone) fun hm =>
          hline (he' ▸ List.mem_append_right _ hm)
        have hlength := congrArg List.length he'
        rw [hnil, hr] at hlength
        simp only [List.length_cons, List.length_append, List.length_nil] at hlength
        omega
      | cons e earlier =>
        have := hfirst earlier later (List.cons.inj he).2
        simpa using this

/-- A line holds one marker, at its first opening, or none if no opening has something after it. -/
lemma markersFrom_line {c : Char} (hlast : style.token.getLast? = some c) (hc : isLineTail c = false)
    (p : Nat) {line : Text} (hline : '\n' ∉ line) :
    ¬ style.HoldsMarker line ∧ style.markersFrom p 0 line = [] ∨
      style.HoldsMarker line ∧ ∃ m, style.markersFrom p 0 line = [m] ∧ style.StandsIn (p, line) m := by
  induction line using style.markers_induction generalizing p with
  | nil =>
    refine .inl ⟨?_, rfl⟩
    rintro ⟨before, c, rest, h⟩
    simp at h
  | plain e r hnone ih =>
    rw [markersFrom_plain p hnone, holdsMarker_cons_iff hnone hline]
    refine (ih (p + 1) fun hm => hline (List.mem_cons_of_mem e hm)).imp_right ?_
    rintro ⟨hr, m, hm, hstands⟩
    exact ⟨hr, m, hm, hstands.cons hnone hline⟩
  | marker resource rest hends hm ih =>
    have hat : resourceAt? (resource ++ rest) = some resource := by
      unfold resourceHere? at hm
      rwa [if_pos (List.isPrefixOf_iff_prefix.mpr (by simp)), List.append_assoc, List.drop_left] at hm
    have hfree : '\n' ∉ resource ++ rest := fun hn =>
      hline (by rw [List.append_assoc]; exact List.mem_append_right _ hn)
    obtain ⟨tail, htail, hblank⟩ := exists_of_resourceAt? hat hfree
    obtain rfl := List.append_cancel_left htail
    obtain ⟨e, r, rfl⟩ := List.exists_cons_of_ne_nil hends.ne_nil
    have hone := markersFrom_marker p hm
    rw [markersFrom_of_blanks hlast hc _ hblank] at hone
    refine .inr ⟨⟨[], e, r ++ rest, by simp⟩, _, hone, rfl, rfl, [], e :: r ++ rest, by simp, rfl,
      readAs_of_resourceAt? hat hfree, fun _ _ _ => Nat.zero_le _⟩

lemma standsIn_markersFrom {c : Char} (hone : '\n' ∉ style.opening)
    (hlast : style.token.getLast? = some c) (hc : isLineTail c = false) (p : Nat) {lines : List Text}
    (hlines : ∀ line ∈ lines, '\n' ∉ line) :
    List.Forall₂ style.StandsIn ((Text.placed p lines).filter (style.HoldsMarker ·.2))
      (style.markersFrom p 0 (Text.joinWith ['\n'] lines)) := by
  induction lines generalizing p with
  | nil => exact .nil
  | cons line lines ih =>
    obtain ⟨hline, hlines⟩ := List.forall_mem_cons.mp hlines
    have hhere : List.Forall₂ style.StandsIn ([(p, line)].filter (style.HoldsMarker ·.2))
        (style.markersFrom p 0 line) := by
      rcases markersFrom_line hlast hc p hline with ⟨hnot, hnone⟩ | ⟨hholds, m, hm, hstands⟩
      · rw [hnone, List.filter_cons_of_neg (by simpa using hnot)]
        exact .nil
      · rw [hm, List.filter_cons_of_pos (by simpa using hholds)]
        exact .cons hstands .nil
    by_cases hnil : lines = []
    · subst hnil
      exact hhere
    · have hjoin : Text.joinWith ['\n'] (line :: lines) = line ++ '\n' :: Text.joinWith ['\n'] lines := by
        rw [Text.joinWith_cons _ _ hnil]
        simp
      rw [hjoin, markersFrom_append_newline hone, Text.placed, ← List.singleton_append,
        List.filter_append]
      exact List.rel_append hhere (ih _ hlines)

/-- The markers of a body are those of its lines: one for each line that holds one. -/
theorem standsIn_markers {c : Char} (hone : '\n' ∉ style.token) (hlast : style.token.getLast? = some c)
    (hc : isLineTail c = false) (body : Text) :
    List.Forall₂ style.StandsIn (body.placedLines.filter (style.HoldsMarker ·.2))
      (style.markers body) := by
  have hopening : '\n' ∉ style.opening := by simpa [opening] using hone
  have hlines : ∀ line ∈ body.lines, '\n' ∉ line := fun line hm => Text.not_mem_of_mem_splitOn hm
  have h := standsIn_markersFrom hopening hlast hc 0 hlines
  rwa [Text.lines, Text.joinWith_splitOn (by simp)] at h

end MarkerStyle
end TemplateSplice
