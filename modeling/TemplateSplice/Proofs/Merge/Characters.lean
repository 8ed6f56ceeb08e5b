import TemplateSplice.Proofs.Encoding.Characters
import TemplateSplice.Proofs.Merge.Fault

/-! The characters of a merged text. They come from the texts that are merged, but for line feeds. -/
namespace TemplateSplice

variable {P : Char → Prop} {allowed : AllowList} {body document name contents : Text}

namespace AllowList

lemma subset_of_section? (h : allowed.section? document name = some contents) :
    contents ⊆ document := by
  unfold section? at h
  obtain ⟨⟨header, next⟩, _, rfl⟩ := Option.map_eq_some_iff.mp h
  exact fun c hc => List.mem_of_mem_take (List.mem_of_mem_drop hc)

lemma headerText_subset_joined {s : Text × Text} {r : List (Text × Text)} (hs : s ∈ r) :
    headerText s.1 ⊆ Layout.joined r := by
  induction r with
  | nil => simp at hs
  | cons s' r ih =>
    rcases List.mem_cons.mp hs with rfl | hs
    · exact List.subset_append_left _ _
    · exact fun c hc => List.mem_append_right _ (List.mem_append_right _ (ih hs hc))

/-- The headers that are found in a text stand there. -/
lemma headerText_subset (h : name ∈ allowed.sections document) : headerText name ⊆ document := by
  rw [sections_eq_layout] at h
  obtain ⟨s, hs, rfl⟩ := List.mem_map.mp h
  have hjoined := headerText_subset_joined hs
  rw [← allowed.text_layout document]
  exact fun c hc => List.mem_append_right _ (hjoined hc)

/-- What a document adds to others is made of its own characters. -/
lemma subset_of_mem_contributions {c : Text × Text} (h : c ∈ allowed.contributions document) :
    headerText c.1 ⊆ document ∧ c.2 ⊆ document := by
  obtain ⟨name, hn, rfl⟩ := List.mem_map.mp h
  refine ⟨headerText_subset hn, ?_⟩
  cases hs : allowed.section? document name with
  | none => simp
  | some t => exact subset_of_section? hs

lemma only_insert? (hline : P '\n') (hbody : Text.Only P body) (hname : Text.Only P (headerText name))
    (hcontents : Text.Only P contents) {body' : Text}
    (h : allowed.insert? body name contents = some body') : Text.Only P body' := by
  have hheader : Text.Only P (allowed.withHeader body name) := by
    unfold withHeader
    dsimp only
    split_ifs
    · exact hbody
    · exact Text.only_append.mpr ⟨Text.only_append.mpr ⟨hbody, Text.only_nil⟩, hname⟩
    · exact Text.only_append.mpr
        ⟨Text.only_append.mpr ⟨hbody, Text.only_cons.mpr ⟨hline, Text.only_nil⟩⟩, hname⟩
  unfold insert? at h
  obtain ⟨⟨header, next⟩, _, rfl⟩ := Option.map_eq_some_iff.mp h
  exact Text.only_append.mpr ⟨Text.only_append.mpr
    ⟨hheader.of_subset (List.take_subset _ _), hcontents⟩, hheader.of_subset (List.drop_subset _ _)⟩

lemma only_insertAll? (hline : P '\n') {cs : List (Text × Text)} (hbody : Text.Only P body)
    (hcs : ∀ c ∈ cs, Text.Only P (headerText c.1) ∧ Text.Only P c.2) {body' : Text}
    (h : allowed.insertAll? body cs = some body') : Text.Only P body' := by
  induction cs generalizing body with
  | nil =>
    cases h
    exact hbody
  | cons c cs ih =>
    rw [Merge.insertAll?_cons] at h
    obtain ⟨body₁, h₁, h⟩ := Option.bind_eq_some_iff.mp h
    obtain ⟨hc, hcs⟩ := List.forall_mem_cons.mp hcs
    exact ih (only_insert? hline hbody hc.1 hc.2 h₁) hcs h

end AllowList

namespace Merge

/-- Adding sections of a template puts in nothing but its characters and line feeds. -/
lemma only_addSections (hline : P '\n') (hbody : Text.Only P body) {imported : Template}
    (himported : Text.Only P imported.body) {body' : Text}
    (h : addSections allowed imported body (allowed.sections imported.body) = .ok body') :
    Text.Only P body' := by
  refine AllowList.only_insertAll? hline hbody (fun c hc => ?_) (addSections_eq_ok h)
  obtain ⟨hname, hcontents⟩ := AllowList.subset_of_mem_contributions hc
  exact ⟨himported.of_subset hname, himported.of_subset hcontents⟩

lemma only_sectionOf {imported : Template} (himported : Text.Only P imported.body)
    (h : sectionOf allowed imported name = .ok contents) : Text.Only P contents :=
  himported.of_subset (AllowList.subset_of_section? (sectionOf_eq_ok.mp h))

lemma only_replaceAll {replacements : List Replacement} (hbody : Text.Only P body)
    (h : ∀ r ∈ replacements, Text.Only P r.text) : Text.Only P (replaceAll body replacements) := by
  induction replacements with
  | nil => exact hbody
  | cons r replacements ih =>
    obtain ⟨hr, hrest⟩ := List.forall_mem_cons.mp h
    have hbefore := ih hrest
    exact Text.only_append.mpr ⟨Text.only_append.mpr
      ⟨hbefore.of_subset (List.take_subset _ _), hr⟩, hbefore.of_subset (List.drop_subset _ _)⟩

end Merge
end TemplateSplice
