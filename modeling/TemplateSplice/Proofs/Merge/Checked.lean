import TemplateSplice.Proofs.Merge.Failure
import TemplateSplice.Proofs.Settings.Accepted

/-! Merges under settings that satisfy the schema. Their names can be found where they are written, even
those that end in a line feed, and their delimiter separates; so nothing fails but what the templates are to
blame for, and adding sections never does. -/
namespace TemplateSplice

/-- A header goes on past a line feed with its colon only, and no other header starts with that. -/
lemma AllowList.findable_of_accepts {allowed : AllowList}
    (h : ∀ name ∈ allowed.names, Pattern.name.accepts name = true) : allowed.Findable where
  colonFree name hn hc := by
    rcases Pattern.isAlphanum_or_of_accepts_name (h name hn) _ hc with hc | hc <;> revert hc <;> decide
  seams name hn name' hn' front back he := by
    obtain ⟨word, tail, rfl, hword, htail⟩ := Pattern.accepts_name_iff.mp (h name hn)
    obtain ⟨_, tail', rfl, ⟨c, word', rfl, hc, -⟩, -⟩ := Pattern.accepts_name_iff.mp (h name' hn')
    have hback : back = [':'] := by
      rcases htail with rfl | rfl
      · have hmem : '\n' ∈ word := by simpa [headerText] using congrArg ('\n' ∈ ·) he
        exact absurd hmem hword.newline_not_mem
      · rw [headerText, List.append_assoc] at he
        exact ((List.append_cons_inj_of_notMem hword.newline_not_mem (by decide)).mp he).2.2.symm
    subst hback
    intro hp
    obtain ⟨rfl, -⟩ := List.cons_prefix_cons.mp hp
    exact absurd hc (by decide)

namespace Merge

variable {s : Shelf} {rules : Rules} {d : Char} {root : Template} {t t' : Trail} {e : Problem}

/-- Whole-file markers fail because they are no references or lead to no template. -/
lemma WholeFileFault.kind {marker : Marker} (h : WholeFileFault s rules root marker e) :
    e.report.kind ∈ [ProblemKind.templateNotFound, .malformedReference] := by
  cases h with
  | blank _ => simp [Problem.report, Report.malformedReference]
  | missing _ _ => simp [Problem.report, Report.templateNotFound]

/-- A whole-file pass whose headers can be found never looks for a section that is not there. -/
lemma kind_of_fails_wholeFiles (hf : rules.allowed.Findable)
    (h : Fails (wholeFiles s.access rules root) t e t') :
    e.report.kind ∈ [ProblemKind.templateNotFound, .malformedReference] := by
  obtain ⟨_, _, _, _, _, hfault, _⟩ := fails_wholeFilePass hf h
  exact hfault.kind

/-- The problems of a merge that separates at one character are the program's own. -/
lemma isOwn_of_run_merge (hf : rules.allowed.Findable) (hd : rules.style.delimiter = [d])
    {before : Stage} {name : TemplateName}
    (h : (merge s.access rules before name).run t = (.error e, t')) : e.report.kind.isOwn = true := by
  obtain ⟨⟨_, hfailure, _⟩, _⟩ := failure_of_run hf hd h
  have hkind := hfailure.kind
  generalize e.report.kind = kind at hkind
  revert kind
  decide

end Merge

/-- The rules of checked settings. -/
lemma Settings.Template.Checked.exists_rules {template : Settings.Template} (h : template.Checked) :
    ∃ rules, Rules.ofSettings template = .ok rules ∧ rules.allowed.names = template.sections ∧
      rules.allowed.Findable ∧ rules.style = template.style := by
  refine ⟨⟨⟨template.sections, h.sections_ne_nil⟩, template.style⟩, ?_, rfl, ?_, rfl⟩
  · unfold Rules.ofSettings AllowList.ofList?
    rw [dif_neg h.sections_ne_nil]
  · exact AllowList.findable_of_accepts h.names

/-- Settings that satisfy the schema are safe to merge by. They give different section names, of which there
is at least one, a token that is not empty and a delimiter of one character, and rules come of them. Every
merge of templates in memory by these rules succeeds or fails with a problem of the program's own, and its
whole-file pass never fails because of a missing section. -/
theorem merge_under_accepted_settings (settings : Value) (h : Schema.settings.accepts settings = true) :
    ∃ fields template rules d,
      Settings.TemplateFields.ofSettings settings = .ok fields ∧ fields.texts? = some template ∧
      template.sections ≠ [] ∧ template.sections.Nodup ∧
      template.style.token ≠ [] ∧ template.style.delimiter = [d] ∧
      Rules.ofSettings template = .ok rules ∧
      (∀ (s : Shelf) (before : Stage) (name : TemplateName) (t t' : Trail) (problem : Problem),
        (merge s.access rules before name).run t = (.error problem, t') →
          problem.report.kind.isOwn = true) ∧
      ∀ (s : Shelf) (root : Template) (t t' : Trail) (problem : Problem),
        (Merge.wholeFiles s.access rules root).run.run t = (.error problem, t') →
          problem.report.kind ≠ .sectionNotFound := by
  obtain ⟨fields, template, hfields, htexts, hchecked⟩ :=
    Settings.exists_checked (Schema.admits_of_accepts h)
  obtain ⟨rules, hrules, -, hfindable, hstyle⟩ := hchecked.exists_rules
  obtain ⟨d, hd⟩ := hchecked.delimiter
  have htoken : template.style.token ≠ [] := by
    intro hnil
    have haccepts := hchecked.token
    rw [hnil] at haccepts
    exact absurd haccepts (by decide)
  refine ⟨fields, template, rules, d, hfields, htexts, hchecked.sections_ne_nil, hchecked.nodup, htoken,
    hd, hrules, ?_, ?_⟩
  · intro s before name t t' problem hrun
    exact Merge.isOwn_of_run_merge hfindable (hstyle ▸ hd) hrun
  · intro s root t t' problem hrun hkind
    have hlisted := Merge.kind_of_fails_wholeFiles hfindable hrun
    rw [hkind] at hlisted
    exact absurd hlisted (by decide)

/-- Settings that want the name for the format version in front of two others. -/
def Settings.versioned : Value :=
  .object
    [("template", .object
      [("sections", .strings ["Resources", "Outputs"]), ("include_format_version", .bool true),
       ("import_token", .str "# @import"), ("section_delimiter", .str "#"), ("encoding", .str "utf-8")]),
     ("output", .object []), ("logging", .object [])]

theorem merge_under_versioned_settings :
    ∃ rules, Rules.ofSettings
        ⟨["AWSTemplateFormatVersion".toList, "Resources".toList, "Outputs".toList],
          ⟨"# @import".toList, "#".toList⟩, "utf-8".toList⟩ = .ok rules ∧
      ∀ (s : Shelf) (before : Stage) (name : TemplateName) (t t' : Trail) (problem : Problem),
        (merge s.access rules before name).run t = (.error problem, t') →
          problem.report.kind.isOwn = true := by
  obtain ⟨fields, template, rules, d, hfields, htexts, -, -, -, -, hrules, hmerge, -⟩ :=
    merge_under_accepted_settings Settings.versioned (by decide +kernel)
  cases hfields
  cases htexts
  exact ⟨rules, hrules, hmerge⟩

end TemplateSplice
