import Mathlib.Data.List.Forall2
import TemplateSplice.Proofs.Marker.Solid
import TemplateSplice.Proofs.Text.LineEnds

/-! Markers of texts with other line ends. Both texts have the same markers in the same places, but for
bare openings at the end of a line: with a carriage return after it such an opening is a marker whose
resource is the carriage return. -/
namespace TemplateSplice

/-- Positions that cut two texts into parts that are the same line by line. -/
structure SameCut (lone : Prop) (t u : Text) (p q : Nat) : Prop where
  before : SameLines lone (t.take p) (u.take q)
  after : SameLines lone (t.drop p) (u.drop q)

lemma SameCut.of_append {lone : Prop} {t t' u u' : Text} (h : SameLines lone t u)
    (h' : SameLines lone t' u') : SameCut lone (t ++ t') (u ++ u') t.length u.length := by
  constructor
  · rwa [List.take_left, List.take_left]
  · rwa [List.drop_left, List.drop_left]

/-- Two cuts one after the other have related parts between them. -/
lemma SameCut.slice {lone : Prop} {t u : Text} {p q p' q' : Nat} (h : SameCut lone t u p q)
    (h' : SameCut lone t u p' q') (hp : p ≤ p') (hq : q ≤ q') :
    SameLines lone (t.slice p p') (u.slice q q') := by
  have hcut : ∀ (v : Text) {a b : Nat}, a ≤ b → v.take a ++ v.slice a b = v.take b := fun v a b hab => by
    rw [Text.slice, ← Nat.min_eq_left hab, ← List.take_take, Nat.min_eq_left hab,
      List.take_append_drop]
  refine SameLines.cancel h.before ?_
  rw [hcut t hp, hcut u hq]
  exact h'.before

/-- A marker that stands in the same place of two texts, counted from two positions. -/
structure SameSpot (lone : Prop) (p q : Nat) (t u : Text) (m m' : Marker) : Prop where
  same : m'.text = m.text ∧ m'.resource = m.resource ∧ m'.kind = m.kind
  here : ∃ before after before' after', t = before ++ (m.text ++ after) ∧
    u = before' ++ (m.text ++ after') ∧ m.start = p + before.length ∧ m'.start = q + before'.length ∧
      SameLines lone before before' ∧ SameLines lone after after' ∧ m.text.OneLine

namespace SameSpot

variable {lone : Prop} {p q : Nat} {t u : Text} {m m' : Marker}

/-- Related texts put in front keep the place. -/
lemma prepend {v v' : Text} (hv : SameLines lone v v')
    (h : SameSpot lone (p + v.length) (q + v'.length) t u m m') :
    SameSpot lone p q (v ++ t) (v' ++ u) m m' := by
  obtain ⟨same, before, after, before', after', rfl, rfl, hs, hs', hb, ha, ht⟩ := h
  refine ⟨same, v ++ before, after, v' ++ before', after', by simp, by simp, ?_, ?_, hv.append hb, ha,
    ht⟩
  · rw [hs, List.length_append]
    omega
  · rw [hs', List.length_append]
    omega

/-- So do related texts put after. -/
lemma append {v v' : Text} (h : SameSpot lone p q t u m m') (hv : SameLines lone v v') :
    SameSpot lone p q (t ++ v) (u ++ v') m m' := by
  obtain ⟨same, before, after, before', after', rfl, rfl, hs, hs', hb, ha, ht⟩ := h
  exact ⟨same, before, after ++ v, before', after' ++ v', by simp, by simp, hs, hs', hb, ha.append hv, ht⟩

/-- Markers that stand in the same place cut their texts in related parts before and after. -/
lemma cuts (h : SameSpot lone 0 0 t u m m') :
    SameCut lone t u m.start m'.start ∧ SameCut lone t u m.stop m'.stop := by
  obtain ⟨same, before, after, before', after', rfl, rfl, hs, hs', hb, ha, ht⟩ := h
  have hm : SameLines lone m.text m.text := .of_oneLine ht
  rw [Marker.stop, Marker.stop, same.1, hs, hs', Nat.zero_add, Nat.zero_add]
  refine ⟨.of_append hb (hm.append ha), ?_⟩
  rw [← List.append_assoc, ← List.append_assoc, ← List.length_append, ← List.length_append]
  exact .of_append (hb.append hm) ha

lemma kind_iff (k : MarkerKind) : Relator.LiftFun (SameSpot lone p q t u) (· ↔ ·)
    (fun m => decide (m.kind = k) = true) (fun m => decide (m.kind = k) = true) := by
  intro m m' hm
  simp only [hm.same.2.2]

end SameSpot

namespace MarkerStyle

variable {style : MarkerStyle} {d : Char} {lone : Prop} {t u : Text}

/-- A single line has the same markers wherever positions are counted from. -/
lemma sameSpots_line {line : Text} (hline : line.OneLine) (p q : Nat) :
    List.Forall₂ (SameSpot lone p q line line) (style.markersFrom p 0 line)
      (style.markersFrom q 0 line) := by
  induction line using style.markers_induction generalizing p q with
  | nil => simp [markersFrom]
  | plain c r hn ih =>
    obtain ⟨hc, hr⟩ := List.forall_mem_cons.mp hline
    rw [markersFrom_plain p hn, markersFrom_plain q hn]
    have hhere : SameLines lone [c] [c] := .char hc .nil
    exact (ih hr (p + 1) (q + 1)).imp fun m m' hm => SameSpot.prepend hhere hm
  | marker resource rest hends hm ih =>
    have hmarker : (style.opening ++ resource).OneLine := fun c hc =>
      hline c (List.mem_append_left rest hc)
    have hrest : rest.OneLine := fun c hc => hline c (List.mem_append_right _ hc)
    rw [markersFrom_marker p hm, markersFrom_marker q hm]
    refine .cons ⟨⟨rfl, rfl, rfl⟩, [], rest, [], rest, rfl, rfl, rfl, rfl, .nil, .of_oneLine hrest,
      hmarker⟩ ((ih hrest _ _).imp fun m m' hm => ?_)
    exact hm.prepend (.of_oneLine hmarker)

/-- No marker of a single line has a carriage return for its resource. -/
lemma filter_markersFrom_line {line : Text} (hline : line.OneLine) (p : Nat) :
    (style.markersFrom p 0 line).filter (·.resource ≠ ['\r']) = style.markersFrom p 0 line := by
  refine List.filter_eq_self.mpr fun m hm => ?_
  obtain ⟨before, rest, hb, _, ht, _⟩ := exists_of_mem_markersFrom hm
  have hne : m.resource ≠ ['\r'] := fun he => by
    refine (hline '\r' ?_).1 rfl
    rw [hb, ht, he]
    simp
  simpa using hne

/-- A carriage return at the end of a line adds no other marker than one for itself. -/
lemma filter_markersFrom_concat (h : style.StartsWith d) {line : Text} (hline : line.OneLine) (p : Nat) :
    (style.markersFrom p 0 (line ++ ['\r'])).filter (·.resource ≠ ['\r']) =
      style.markersFrom p 0 line := by
  rcases markersFrom_concat h p line (c := '\r') rfl with he | ⟨q, he⟩
  · rw [he, filter_markersFrom_line hline]
  · rw [he, List.filter_append, filter_markersFrom_line hline]
    simp

/-- Both texts have the same markers in the same places, but for carriage returns after bare openings. -/
theorem sameSpots_markersFrom (h : style.StartsWith d) (hs : SameLines lone t u) (p q : Nat) :
    List.Forall₂ (SameSpot lone p q t u) (style.markersFrom p 0 t)
      ((style.markersFrom q 0 u).filter (·.resource ≠ ['\r'])) := by
  refine SameLines.lines_induction (motive := fun t u => ∀ p q, List.Forall₂ (SameSpot lone p q t u)
    (style.markersFrom p 0 t) ((style.markersFrom q 0 u).filter (·.resource ≠ ['\r'])))
    ?last ?crlf ?lf hs p q
  case last =>
    intro line hline p q
    rw [filter_markersFrom_line hline]
    exact sameSpots_line hline p q
  case crlf =>
    intro line t u hline rest ih p q
    have hhere : SameLines lone (line ++ ['\n']) (line ++ ['\r', '\n']) :=
      (SameLines.of_oneLine hline).append (.crlf .nil)
    have hspots : List.Forall₂ (SameSpot lone p q line line) (style.markersFrom p 0 line)
        (style.markersFrom q 0 line) := sameSpots_line hline p q
    rw [markersFrom_append_newline h.one_line, markersFrom_append_newline h.one_line,
      List.filter_append, filter_markersFrom_concat h hline]
    refine List.rel_append (hspots.imp fun m m' hm => ?_)
      ((ih _ _).imp fun m m' hm => ?_)
    · rw [List.append_assoc]
      exact hm.append (.crlf rest)
    · simpa using SameSpot.prepend (p := p) (q := q) hhere (by simpa [Nat.add_assoc] using hm)
  case lf =>
    intro line t u hline hlone rest ih p q
    have hhere : SameLines lone (line ++ ['\n']) (line ++ ['\n']) :=
      (SameLines.of_oneLine hline).append (.lf hlone .nil)
    have hspots : List.Forall₂ (SameSpot lone p q line line) (style.markersFrom p 0 line)
        (style.markersFrom q 0 line) := sameSpots_line hline p q
    rw [markersFrom_append_newline h.one_line, markersFrom_append_newline h.one_line,
      List.filter_append, filter_markersFrom_line hline]
    refine List.rel_append (hspots.imp fun m m' hm => ?_)
      ((ih _ _).imp fun m m' hm => ?_)
    · exact hm.append (.lf hlone rest)
    · simpa using SameSpot.prepend (p := p) (q := q) hhere (by simpa [Nat.add_assoc] using hm)

/-- Inline markers stand in the same places. -/
theorem sameSpots_inlineMarkers (h : style.StartsWith d) (hs : SameLines lone t u)
    (hd : style.kindOf ['\r'] ≠ .inline) :
    List.Forall₂ (SameSpot lone 0 0 t u) (style.inlineMarkers t) (style.inlineMarkers u) := by
  have hspots := List.rel_filter (SameSpot.kind_iff .inline) (sameSpots_markersFrom h hs 0 0)
  have hsame : ((style.markersFrom 0 0 u).filter (·.resource ≠ ['\r'])).filter (·.kind = .inline) =
      style.inlineMarkers u := by
    rw [List.filter_filter]
    refine List.filter_congr fun m hm => ?_
    obtain ⟨_, _, _, _, _, hk, _⟩ := exists_of_mem_markersFrom hm
    by_cases hr : m.resource = ['\r']
    · simp [hk, hr, hd]
    · simp [hr]
  rwa [hsame] at hspots

/-- So do whole-file markers if no bare opening became one. -/
theorem sameSpots_wholeFileMarkers (h : style.StartsWith d) (hs : SameLines lone t u)
    (hbare : ['\r'] ∉ style.resources u) :
    List.Forall₂ (SameSpot lone 0 0 t u) (style.wholeFileMarkers t) (style.wholeFileMarkers u) := by
  have hspots := sameSpots_markersFrom h hs 0 0
  have hall : (style.markersFrom 0 0 u).filter (·.resource ≠ ['\r']) = style.markersFrom 0 0 u := by
    refine List.filter_eq_self.mpr fun m hm => ?_
    have hne : m.resource ≠ ['\r'] := fun he => hbare (he ▸ List.mem_map_of_mem hm)
    simpa using hne
  rw [hall] at hspots
  exact List.rel_filter (SameSpot.kind_iff .wholeFile) hspots

end MarkerStyle
end TemplateSplice
