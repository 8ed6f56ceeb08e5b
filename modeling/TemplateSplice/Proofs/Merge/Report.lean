import TemplateSplice.Proofs.Merge.Steps
import TemplateSplice.Proofs.Path.Normal

/-! What a merge reads and what it reports. The imports of a result are its references, in order,
and they account for everything that was read; so imports are followed one level deep, even where
templates import themselves or one another. -/
namespace TemplateSplice

lemma TemplateName.plain_normal (name : TemplateName) : name.normal.Plain :=
  (Path.plain_ofText name.shown).normalize

lemma Text.strip_slash_ne_nil (t : Text) : Text.strip ('/' :: t) ≠ [] := by
  have hslash : isBlank '/' = false := by decide
  unfold Text.strip Text.trim Text.trimLeft Text.trimRight
  rw [List.dropWhile_cons_of_neg (by simp [hslash]), List.reverse_cons, List.dropWhile_append]
  split_ifs <;> simp [hslash]

/-- The name of an absolute path starts with a slash, so it is no blank. -/
lemma TemplateName.not_isBlank {name : TemplateName} (h : name.normal.anchor ≠ .here) :
    ¬ name.isBlank = true := by
  obtain ⟨r, hr⟩ := List.head?_eq_some_iff.mp ((Path.anchor_ofText name.shown).mp h)
  cases name with
  | text t =>
    obtain rfl : t = '/' :: r := hr
    simp [isBlank, shown, Text.strip_slash_ne_nil]
  | path p =>
    have ht : p.text = '/' :: r := hr
    simp [isBlank, shown, ht, Text.strip_slash_ne_nil, Path.dot]

/-- The segments of the path of an absolute name all name something. -/
lemma TemplateName.ordinary_normal {name : TemplateName} (h : name.normal.anchor ≠ .here) :
    ∀ s ∈ name.normal.segments, Path.Ordinary s := (Path.plain_ofText name.shown).ordinary h

/-- A resource is looked for from the directory of the template. -/
lemma Template.target_eq {root : Template} (h : root.path.Plain) (resource : Text) :
    root.target resource = root.path.resolve (.ofText resource) := by
  rw [target, h.ofText_text]

/-- A merge reads its root and then the imports that it reports, and nothing else. It reports first
the whole-file references of the root, and then the inline references of the body that the
whole-file pass leaves; all of them are resolved from the root. -/
theorem merge_reads_imports (s : Shelf) (rules : Rules) (before : Stage) (name : TemplateName)
    (t t' : Trail) (result : Merged)
    (h : (merge s.access rules before name).run t = (.ok result, t')) :
    result.root = name.normal ∧
    t'.reads = t.reads ++ result.root :: result.imports.map AppliedImport.path ∧
    ∃ body whole inline,
      result.imports = whole ++ inline ∧
      (∃ u u', Merge.Gives
        (Merge.wholeFiles s.access rules ⟨s.text result.root, result.root⟩) u (body, whole) u') ∧
      whole = (rules.style.wholeFileMarkers (s.text result.root)).map (fun marker =>
        let path := result.root.resolve (.ofText marker.resource.strip)
        ⟨.wholeFile, marker.resource, path, rules.allowed.sections (s.text path)⟩) ∧
      List.Forall₂ (fun marker i => ∃ path name,
        rules.style.inlineParts marker.resource = .ok (path, name) ∧
        i = ⟨.inline, marker.resource, result.root.resolve (.ofText path), [name]⟩)
        (rules.style.inlineMarkers body) inline := by
  obtain ⟨body, whole, inline, t₁, t₂, t₃, t₄, hw, hi, hroot, himports, h₁, h₃, h₄⟩ :=
    Merge.run_merge h
  obtain ⟨hwhole, hwr, _⟩ := Merge.gives_wholeFilePass hw
  obtain ⟨_, _, hinline, _, hir⟩ := Merge.gives_inlines hi
  have htarget : ∀ resource, Template.target ⟨s.text name.normal, name.normal⟩ resource =
      name.normal.resolve (.ofText resource) := Template.target_eq name.plain_normal
  rw [hroot]
  refine ⟨rfl, ?_, body, whole, inline, himports, ⟨t₁, t₂, hw⟩, ?_, ?_⟩
  · rw [h₄, hir, h₃, hwr, h₁, himports]
    simp
  · rw [hwhole]
    refine List.map_congr_left fun marker _ => ?_
    rw [Merge.wholeImport, htarget]
  · refine hinline.imp ?_
    rintro marker i ⟨path, name', hp, _, rfl⟩
    exact ⟨path, name', hp, by rw [htarget]⟩

theorem merge_sample_reads :
    ∃ t, (merge Shelf.sample.access Rules.sample .init (.text "/a".toList)).run .empty =
        (.ok Merged.sample, t) ∧
      t.reads = [.ofText "/a".toList, .ofText "/b".toList, .ofText "/b".toList] := by
  obtain ⟨t, h⟩ := merge_sample
  obtain ⟨_, hr, _⟩ :=
    merge_reads_imports Shelf.sample Rules.sample .init (.text "/a".toList) .empty t .sample h
  exact ⟨t, h, hr⟩

end TemplateSplice
