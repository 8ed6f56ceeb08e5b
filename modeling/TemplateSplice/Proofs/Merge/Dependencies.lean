import TemplateSplice.Proofs.Merge.Report
import TemplateSplice.Proofs.Text.Order

/-! The dependencies of a merged template: what was read after the root, each path once and in
order. The root itself is among them exactly where an import leads back to it. -/
namespace TemplateSplice

/-- Erasing repetitions leaves each member once. -/
lemma nodup_eraseDups {α : Type} [DecidableEq α] (l : List α) : l.eraseDups.Nodup := by
  cases l with
  | nil => exact List.nodup_nil
  | cons a l =>
    rw [List.eraseDups_cons, List.nodup_cons]
    refine ⟨?_, nodup_eraseDups _⟩
    simp [List.mem_eraseDups]
termination_by l.length
decreasing_by simpa using Nat.lt_succ_of_le (List.length_filter_le _ l)

namespace Merged

variable {result : Merged}

lemma mem_dependencies {p : Path} :
    p ∈ result.dependencies ↔ p ∈ result.imports.map AppliedImport.path := by
  rw [dependencies, (List.mergeSort_perm _ _).mem_iff, List.mem_eraseDups]

lemma nodup_dependencies : result.dependencies.Nodup :=
  (List.mergeSort_perm _ _).nodup_iff.mpr (nodup_eraseDups _)

lemma sorted_dependencies : result.dependencies.Pairwise fun p q => ¬ q.parts < p.parts :=
  pairwise_mergeSort_key Path.parts (by simp) _

/-- Dependencies on plain paths are in order, each of them once. -/
lemma increasing_dependencies (h : ∀ i ∈ result.imports, i.path.Plain) :
    result.dependencies.Pairwise fun p q => p.parts < q.parts := by
  have hplain : ∀ p ∈ result.dependencies, p.Plain := by
    intro p hp
    obtain ⟨i, hi, rfl⟩ := List.mem_map.mp (mem_dependencies.mp hp)
    exact h i hi
  refine (sorted_dependencies.and nodup_dependencies).imp_of_mem fun hp hq hpq => ?_
  have hne : _ ≠ _ := fun hparts => hpq.2 ((hplain _ hp).eq_of_parts (hplain _ hq) hparts)
  exact (lt_or_gt_of_ne hne).resolve_right hpq.1

end Merged

/-- What a template refers to has a plain path, as the template has. -/
lemma Template.plain_target {root : Template} (h : root.path.Plain) (resource : Text) :
    (root.target resource).Plain := by
  rw [target_eq h]
  exact (h.isNormal_resolve (Path.plain_ofText _)).plain

namespace Merge

variable {s : Shelf} {rules : Rules} {before : Stage} {name : TemplateName} {t t' : Trail}
  {result : Merged}

lemma plain_of_inlineImports {root : Template} (hroot : root.path.Plain) {markers : List Marker}
    {imports : List AppliedImport}
    (h : List.Forall₂ (InlineImport s rules root) markers imports) :
    ∀ i ∈ imports, i.path.Plain := by
  induction h with
  | nil => simp
  | cons hi _ ih =>
    obtain ⟨path, _, -, -, rfl⟩ := hi
    exact List.forall_mem_cons.mpr ⟨Template.plain_target hroot path, ih⟩

/-- A merge reads its root and then what its imports lead to, all of them plain paths. -/
lemma reads_of_run (h : (merge s.access rules before name).run t = (.ok result, t')) :
    t'.reads = t.reads ++ result.root :: result.imports.map AppliedImport.path ∧
      ∀ i ∈ result.imports, i.path.Plain := by
  obtain ⟨body, whole, inline, t₁, t₂, t₃, t₄, hw, hi, hroot, himports, h₁, h₃, h₄⟩ := run_merge h
  obtain ⟨hwhole, hwr, -⟩ := gives_wholeFilePass hw
  obtain ⟨_, _, hinline, -, hir⟩ := gives_inlines hi
  refine ⟨?_, ?_⟩
  · rw [h₄, hir, h₃, hwr, h₁, himports, hroot]
    simp
  · rw [himports, List.forall_mem_append]
    refine ⟨?_, plain_of_inlineImports name.plain_normal hinline⟩
    rw [hwhole, List.forall_mem_map]
    exact fun marker _ => Template.plain_target name.plain_normal _

end Merge

/-- The dependencies of a merge are the paths that it reads after its root, in increasing order. If
no import leads back to the root they are the paths read other than the root's, and only then. -/
theorem merge_dependencies (s : Shelf) (rules : Rules) (before : Stage) (name : TemplateName)
    (t t' : Trail) (result : Merged)
    (h : (merge s.access rules before name).run t = (.ok result, t')) :
    ∃ followed, t'.reads = t.reads ++ result.root :: followed ∧
      result.dependencies.Pairwise (fun p q => p.parts < q.parts) ∧
      (∀ p, p ∈ result.dependencies ↔ p ∈ followed) ∧
      ((∀ p, p ∈ result.dependencies ↔ p ∈ result.root :: followed ∧ p ≠ result.root) ↔
        result.root ∉ followed) := by
  obtain ⟨hreads, hplain⟩ := Merge.reads_of_run h
  have hmem : ∀ p, p ∈ result.dependencies ↔ p ∈ result.imports.map AppliedImport.path :=
    fun p => Merged.mem_dependencies
  refine ⟨_, hreads, Merged.increasing_dependencies hplain, hmem, ?_, ?_⟩
  · intro hother hback
    exact ((hother result.root).mp ((hmem result.root).mpr hback)).2 rfl
  · intro hback p
    rw [hmem, List.mem_cons]
    constructor
    · exact fun hp => ⟨.inr hp, fun he => hback (he ▸ hp)⟩
    · rintro ⟨rfl | hp, hne⟩
      · exact absurd rfl hne
      · exact hp

theorem merge_sample_dependencies :
    ∃ t, (merge Shelf.sample.access Rules.sample .init (.text "/a".toList)).run .empty =
        (.ok Merged.sample, t) ∧
      ∀ p, p ∈ Merged.sample.dependencies ↔ p ∈ t.reads ∧ p ≠ Merged.sample.root := by
  obtain ⟨t, h⟩ := merge_sample
  obtain ⟨followed, hreads, _, hmem, hother⟩ :=
    merge_dependencies Shelf.sample Rules.sample .init (.text "/a".toList) .empty t .sample h
  have hback : Merged.sample.root ∉ followed := by
    rw [← hmem, Merged.mem_dependencies]
    decide
  refine ⟨t, h, ?_⟩
  rw [hreads]
  exact hother.mpr hback

/-- A template that takes in itself is one of its own dependencies. -/
theorem not_dependencies_other_than_root :
    ¬ ∀ (s : Shelf) (name : TemplateName) (t : Trail) (result : Merged),
      (merge s.access Rules.standard .init name).run .empty = (.ok result, t) →
      ∀ p, p ∈ result.dependencies ↔ p ∈ t.reads ∧ p ≠ result.root := by
  intro h
  obtain ⟨t, hm⟩ := Merge.run_of_toOption (t := .empty)
    (x := merge (Shelf.ofList [("/a".toList, "# @import a\n".toList)]).access Rules.standard .init
      (.text "/a".toList))
    (a := ⟨"# @import a\n".toList, .ofText "/a".toList,
      [⟨.wholeFile, "a".toList, .ofText "/a".toList, []⟩]⟩) (by decide +kernel)
  have hroot := (h _ _ _ _ hm (.ofText "/a".toList)).mp (Merged.mem_dependencies.mpr (by decide))
  exact hroot.2 rfl

end TemplateSplice
