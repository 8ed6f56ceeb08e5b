import TemplateSplice.Proofs.Command.Exit
import TemplateSplice.Proofs.Marker.Lines
import TemplateSplice.Proofs.Settings.Lines

/-! Line numbers in a listing. An import is listed with the number of the line that its marker starts in,
also where it leads nowhere; and since a line holds one marker, the numbers of a listing increase. -/
namespace TemplateSplice

open Machine Command

namespace Machine

variable {journal : Journal} {machine : Machine} {encoding : Text} {style : MarkerStyle}

lemma ensures_listImport_line (root : Template) (marker : Marker) :
    Ensures journal machine (listImport (host.templates encoding) style root marker) fun r _ _ =>
      ∀ i, r = .ok i → i.line = lineNumber root.body marker.start := by
  unfold listImport
  dsimp only
  split
  · split_ifs
    · exact ensures_pure fun i hi => by rw [← Except.ok.inj hi]
    · exact ensures_throw nofun
  · refine ensures_bind_ok fun found _ _ => ?_
    cases found with
    | ok path => exact ensures_pure fun i hi => by rw [← Except.ok.inj hi]
    | error problem =>
      dsimp only
      split_ifs
      · exact ensures_pure fun i hi => by rw [← Except.ok.inj hi]
      · exact ensures_throw nofun

lemma ensures_listImports_line (root : Template) (markers : List Marker) :
    Ensures journal machine (markers.mapM (listImport (host.templates encoding) style root))
      fun r _ _ => ∀ listed, r = .ok listed →
        listed.map ListedImport.line = markers.map fun marker => lineNumber root.body marker.start := by
  induction markers generalizing journal machine with
  | nil => exact ensures_pure fun listed h => by rw [← Except.ok.inj h]; rfl
  | cons marker markers ih =>
    rw [List.mapM_cons]
    refine (ensures_listImport_line root marker).bind (fun i j u hi => ?_) fun _ _ _ _ => nofun
    refine Ensures.bind (@ih j u) (fun listed _ _ hlisted => ?_) fun _ _ _ _ => nofun
    refine ensures_pure fun _ h => ?_
    rw [← Except.ok.inj h, List.map_cons, List.map_cons, hi i rfl, hlisted listed rfl]

end Machine

namespace MarkerStyle

variable {style : MarkerStyle}

/-- Markers that stand in different lines have different line numbers, in the same order. -/
lemma pairwise_lineNumber {c : Char} (hone : '\n' ∉ style.token) (hlast : style.token.getLast? = some c)
    (hc : isLineTail c = false) (body : Text) :
    (style.markers body).Pairwise fun m m' => lineNumber body m.start < lineNumber body m'.start := by
  have hlines : ∀ line ∈ body.lines, '\n' ∉ line := fun line hm => Text.not_mem_of_mem_splitOn hm
  have hplaced := Text.pairwise_placed [] hlines
  rw [List.nil_append, Text.lines, Text.joinWith_splitOn (List.cons_ne_nil _ _)] at hplaced
  refine Merge.pairwise_of_forall₂ (standsIn_markers hone hlast hc body) (hplaced.filter _) ?_
  intro spot m spot' m' hm hm' hcount
  obtain ⟨i, hi, hstart⟩ := hm.start_le
  obtain ⟨i', -, hstart'⟩ := hm'.start_le
  rw [lineNumber, lineNumber, hstart, hstart']
  exact Nat.add_lt_add_right (hcount i hi _ (Nat.le_add_right _ i')) 1

end MarkerStyle

/-- For a token on one line that does not end in a blank, the markers of a body are those that its lines
hold, one for each and in the order of the lines; they are disjoint, and wherever they are listed the line
numbers increase. -/
theorem markers_line_by_line (style : MarkerStyle) {c : Char} (hone : '\n' ∉ style.token)
    (hlast : style.token.getLast? = some c) (hc : isLineTail c = false) (body : Text) :
    List.Forall₂ style.StandsIn (body.placedLines.filter (style.HoldsMarker ·.2)) (style.markers body) ∧
      (∀ m ∈ style.markers body, body.slice m.start m.stop = m.text) ∧
      (style.markers body).Pairwise (fun m m' => m.stop ≤ m'.start) ∧
      ∀ (path : Path) (encoding : Text) (journal : Journal) (machine : Machine),
        Machine.Ensures journal machine
          ((style.markers body).mapM (listImport (host.templates encoding) style ⟨body, path⟩))
          fun r _ _ => ∀ listed, r = .ok listed → (listed.map ListedImport.line).Pairwise (· < ·) := by
  have hstands := MarkerStyle.standsIn_markers hone hlast hc body
  refine ⟨hstands, fun m hm => ?_, MarkerStyle.pairwise_markersFrom 0 body, fun path _ _ _ => ?_⟩
  · obtain ⟨_, -, h⟩ := Merge.exists_of_mem_forall₂ hstands hm
    rw [(MarkerStyle.slice_of_mem_markers hm).1, h.text]
  · refine (Machine.ensures_listImports_line ⟨body, path⟩ _).imp fun r _ _ hlines listed hr => ?_
    rw [hlines listed hr, List.pairwise_map]
    exact MarkerStyle.pairwise_lineNumber hone hlast hc body

/-- A body with a marker inside a line, a line without one, and a marker for a blank. -/
def listedBody : Text := "A: # @import b \t\nB:\n# @import  \n".toList

theorem markers_line_by_line_blank :
    List.Forall₂ Settings.Template.default.style.StandsIn
        [(0, "A: # @import b \t".toList), (20, "# @import  ".toList)]
        [⟨"# @import b".toList, ['b'], 3, .wholeFile⟩, ⟨"# @import  ".toList, [' '], 20, .wholeFile⟩] ∧
      listedBody.slice 3 14 = "# @import b".toList := by
  obtain ⟨hstands, hslice, -, -⟩ := markers_line_by_line Settings.Template.default.style (c := 't')
    (by decide) (by decide) (by decide) listedBody
  have hmarkers : Settings.Template.default.style.markers listedBody =
      [⟨"# @import b".toList, ['b'], 3, .wholeFile⟩, ⟨"# @import  ".toList, [' '], 20, .wholeFile⟩] := by
    decide +kernel
  have hlines : listedBody.placedLines.filter (Settings.Template.default.style.HoldsMarker ·.2) =
      [(0, "A: # @import b \t".toList), (20, "# @import  ".toList)] := by
    decide +kernel
  rw [hmarkers] at hstands hslice
  rw [hlines] at hstands
  exact ⟨hstands, hslice _ List.mem_cons_self⟩

end TemplateSplice
