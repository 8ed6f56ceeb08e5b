import TemplateSplice.Proofs.Merge.Fault

/-! How a merge over a shelf fails. It takes its root, then the whole-file markers of the root and
then the inline markers of the body that comes of them, each in order; it fails exactly if one of
these cannot be used, and then with the problem of the first that cannot. -/
namespace TemplateSplice

/-- A name that names nothing: a blank text, or the path that stays where it is. -/
def TemplateName.Blank (name : TemplateName) : Prop :=
  name.shown.strip = [] ∨ ∃ p, name = .path p ∧ p.text = Path.dot

lemma TemplateName.isBlank_iff {name : TemplateName} : name.isBlank = true ↔ name.Blank := by
  cases name with
  | text t =>
    simp only [isBlank, Blank, shown, Bool.or_false, reduceCtorEq, false_and, exists_false, or_false]
    exact decide_eq_true_iff
  | path p =>
    simp only [isBlank, Blank, shown, Bool.or_eq_true, TemplateName.path.injEq, exists_eq_left']
    exact or_congr decide_eq_true_iff decide_eq_true_iff

/-- The template of a name, empty if there is none. -/
def Shelf.template (s : Shelf) (name : TemplateName) : Template :=
  ⟨s.text name.normal, name.normal⟩

namespace Merge

/-- How a merge of a name fails: the problem of the first thing that cannot be used, and all that is
read. -/
inductive Failure (s : Shelf) (rules : Rules) (d : Char) (name : TemplateName) :
    Problem → List Path → Prop
  | blankName (blank : name.Blank) : Failure s rules d name .blankTemplate []
  | rootMissing (named : ¬ name.Blank) (gone : s.get? name.normal = none) :
      Failure s rules d name (.templateMissing name.shown name.normal) []
  | wholeFile {earlier later : List Marker} {marker : Marker} {problem : Problem}
      (named : ¬ name.Blank) (here : (s.get? name.normal).isSome = true)
      (markers : rules.style.wholeFileMarkers (s.template name).body =
        earlier ++ marker :: later)
      (followed : ∀ m ∈ earlier, Refers s (s.template name) m)
      (fault : WholeFileFault s rules (s.template name) marker problem) :
      Failure s rules d name problem
        (name.normal :: earlier.map fun m => (s.template name).target m.resource.strip)
  | inline {body : Text} {earlier later : List Marker} {marker : Marker} {problem : Problem}
      {targets tried : List Path} (named : ¬ name.Blank)
      (here : (s.get? name.normal).isSome = true)
      (whole : ∀ m ∈ rules.style.wholeFileMarkers (s.template name).body,
        Refers s (s.template name) m)
      (pass : rules.allowed.insertAll? (s.template name).body
        ((documents s (s.template name) (rules.style.wholeFileMarkers (s.template name).body)).flatMap
          rules.allowed.contributions) = some body)
      (markers : rules.style.inlineMarkers body = earlier ++ marker :: later)
      (followed : List.Forall₂ (Follows s rules d (s.template name)) earlier targets)
      (fault : InlineFault s rules d (s.template name) marker problem tried) :
      Failure s rules d name problem (name.normal ::
        ((rules.style.wholeFileMarkers (s.template name).body).map fun m =>
          (s.template name).target m.resource.strip) ++ (targets ++ tried))

/-- The last change of stage that a trail notes leads to a stage. -/
def EndsIn (t : Trail) (stage : Stage) : Prop :=
  ∃ earlier before later, t.records = earlier ++ stageRecord before stage :: later ∧
    ∀ r ∈ later, r.level ≠ Level.debug

variable {s : Shelf} {rules : Rules} {d : Char} {root : Template} {t t' : Trail} {e : Problem}

/-- The first member of a list without a property is found in only one way. -/
lemma first_unique {α : Type} {P : α → Prop} {l₁ l₂ r₁ r₂ : List α} {a₁ a₂ : α}
    (h : l₁ ++ a₁ :: r₁ = l₂ ++ a₂ :: r₂) (h₁ : ∀ a ∈ l₁, P a) (h₂ : ∀ a ∈ l₂, P a)
    (n₁ : ¬ P a₁) (n₂ : ¬ P a₂) : l₁ = l₂ ∧ a₁ = a₂ := by
  induction l₁ generalizing l₂ with
  | nil =>
    cases l₂ with
    | nil => exact ⟨rfl, (List.cons.inj h).1⟩
    | cons b l₂ =>
      obtain ⟨rfl, _⟩ := List.cons.inj h
      exact absurd (h₂ _ List.mem_cons_self) n₁
  | cons b l₁ ih =>
    cases l₂ with
    | nil =>
      obtain ⟨rfl, _⟩ := List.cons.inj h
      exact absurd (h₁ _ List.mem_cons_self) n₂
    | cons c l₂ =>
      rw [List.cons_append, List.cons_append, List.cons.injEq] at h
      obtain ⟨rfl, h⟩ := h
      obtain ⟨rfl, ha⟩ := ih h (fun a ha => h₁ a (List.mem_cons_of_mem _ ha))
        fun a ha => h₂ a (List.mem_cons_of_mem _ ha)
      exact ⟨rfl, ha⟩

/-- A merge fails in only one way. -/
theorem Failure.unique {name : TemplateName} {e e' : Problem} {reads reads' : List Path}
    (h : Failure s rules d name e reads) (h' : Failure s rules d name e' reads') :
    e = e' ∧ reads = reads' := by
  cases h with
  | blankName blank =>
    cases h' with
    | blankName _ => exact ⟨rfl, rfl⟩
    | rootMissing named _ => exact absurd blank named
    | wholeFile named => exact absurd blank named
    | inline named => exact absurd blank named
  | rootMissing named gone =>
    cases h' with
    | blankName blank => exact absurd blank named
    | rootMissing _ _ => exact ⟨rfl, rfl⟩
    | wholeFile _ here => simp [gone] at here
    | inline _ here => simp [gone] at here
  | wholeFile named here markers followed fault =>
    cases h' with
    | blankName blank => exact absurd blank named
    | rootMissing _ gone => simp [gone] at here
    | wholeFile _ _ markers' followed' fault' =>
      obtain ⟨rfl, rfl⟩ := first_unique (markers.symm.trans markers') followed followed'
        fault.not_refers fault'.not_refers
      exact ⟨fault.unique fault', rfl⟩
    | inline _ _ whole => exact absurd (whole _ (by simp [markers])) fault.not_refers
  | inline named here whole pass markers followed fault =>
    cases h' with
    | blankName blank => exact absurd blank named
    | rootMissing _ gone => simp [gone] at here
    | wholeFile _ _ markers' _ fault' => exact absurd (whole _ (by simp [markers'])) fault'.not_refers
    | inline _ _ _ pass' markers' followed' fault' =>
      obtain rfl := Option.some.inj (pass.symm.trans pass')
      obtain ⟨rfl, rfl⟩ := first_unique (P := fun m => ∃ p, Follows s rules d (s.template name) m p)
        (markers.symm.trans markers') (exists_of_mem_left followed) (exists_of_mem_left followed')
        (not_exists.mpr fault.not_follows) (not_exists.mpr fault'.not_follows)
      obtain ⟨rfl, rfl⟩ := fault.unique fault'
      obtain rfl := List.right_unique_forall₂' (fun _ _ _ h h' => h.unique h') followed followed'
      exact ⟨rfl, rfl⟩

/-- The problems that a merge fails with are of four kinds. -/
lemma Failure.kind {name : TemplateName} {reads : List Path} (h : Failure s rules d name e reads) :
    e.report.kind ∈ [ProblemKind.invalidArgument, .templateNotFound, .malformedReference,
      .sectionNotFound] := by
  cases h with
  | blankName _ => simp [Problem.report, Report.plain]
  | rootMissing _ _ => simp [Problem.report, Report.templateNotFound]
  | wholeFile _ _ _ _ fault =>
    cases fault with
    | blank _ => simp [Problem.report, Report.malformedReference]
    | missing _ _ => simp [Problem.report, Report.templateNotFound]
  | inline _ _ _ _ _ _ fault =>
    cases fault with
    | malformed misread =>
      cases misread <;> simp [Problem.report, Report.malformedReference]
    | missing _ _ => simp [Problem.report, Report.templateNotFound]
    | noSection _ _ _ => simp [Problem.report, Report.sectionNotFound]

lemma run_during_error {α β : Type} {stage next : Stage} {work : ExceptT Problem (StateM Trail) α}
    {rest : α → StateM Trail (Except Problem β)}
    (h : (during s.access stage next work rest).run t = (.error e, t')) :
    (∃ u, Fails work t e u ∧
        t' = { u with records := u.records ++ [stageRecord stage .failed] }) ∨
      ∃ a u, Gives work t a u ∧
        (rest a).run { u with records := u.records ++ [stageRecord stage next] } =
          (.error e, t') := by
  rw [run_during_eq] at h
  cases ho : outcome work t with
  | mk r u =>
    rw [ho] at h
    cases r with
    | error e' =>
      cases h
      exact .inl ⟨u, ho, rfl⟩
    | ok a => exact .inr ⟨a, u, ho, h⟩

lemma endsIn_noted (u : Trail) (before stage : Stage) :
    EndsIn { u with records := u.records ++ [stageRecord before stage] } stage :=
  ⟨u.records, before, [], rfl, by simp⟩

/-- A merge that ends in a problem has failed, in one of the ways in which a merge fails. -/
lemma failure_of_run (hn : rules.allowed.Findable) (hd : rules.style.delimiter = [d])
    {before : Stage} {name : TemplateName}
    (h : (merge s.access rules before name).run t = (.error e, t')) :
    (∃ reads, Failure s rules d name e reads ∧ t'.reads = t.reads ++ reads) ∧
      EndsIn t' .failed := by
  change (during s.access .init .wholeFileMerge _ _).run
    { t with records := t.records ++ [stageRecord before .init] } = _ at h
  rcases run_during_error h with ⟨u, hf, rfl⟩ | ⟨root, u, ho, h⟩
  · refine ⟨?_, endsIn_noted u _ _⟩
    obtain ⟨⟨hblank, rfl⟩ | ⟨hnamed, hgone, rfl⟩, rfl⟩ := fails_openTemplate hf
    · exact ⟨[], .blankName (TemplateName.isBlank_iff.mp hblank), by simp⟩
    · exact ⟨[], .rootMissing (mt TemplateName.isBlank_iff.mpr hnamed) hgone, by simp⟩
  obtain ⟨hnamed, hhere, rfl, hu⟩ := gives_openTemplate ho
  replace hnamed := mt TemplateName.isBlank_iff.mpr hnamed
  rcases run_during_error h with ⟨v, hf, rfl⟩ | ⟨⟨body, whole⟩, v, hw, h⟩
  · refine ⟨?_, endsIn_noted v _ _⟩
    obtain ⟨earlier, marker, later, hm, hgood, hfault, hv⟩ := fails_wholeFilePass hn hf
    exact ⟨_, .wholeFile hnamed hhere hm hgood hfault, by simp [hv, hu, Shelf.template]⟩
  obtain ⟨hwhole, hv, _, hrefers⟩ := gives_wholeFilePass hw
  have hpass := insertAll?_of_wholeFilePass hw
  rcases run_during_error h with ⟨w, hf, rfl⟩ | ⟨⟨content, inline⟩, w, hi, h⟩
  · refine ⟨?_, endsIn_noted w _ _⟩
    simp only [inlines, fails_bind, not_fails_pure, and_false, exists_false, or_false] at hf
    obtain ⟨earlier, targets, marker, later, tried, hm, hgood, hfault, hreads⟩ :=
      fails_inlinePass hd hf
    refine ⟨_, .inline hnamed hhere hrefers hpass hm hgood hfault, ?_⟩
    simp [hreads, hv, hu, hwhole, wholeImport, Shelf.template]
  · cases h

/-- A merge that succeeds has not failed. -/
lemma not_failure_of_run (hd : rules.style.delimiter = [d]) {before : Stage} {name : TemplateName}
    {result : Merged} (h : (merge s.access rules before name).run t = (.ok result, t')) :
    (∀ e reads, ¬ Failure s rules d name e reads) ∧ EndsIn t' .done := by
  change (during s.access .init .wholeFileMerge _ _).run
    { t with records := t.records ++ [stageRecord before .init] } = _ at h
  obtain ⟨root, u, ho, h⟩ := run_during h
  obtain ⟨hnamed, hhere, rfl, _⟩ := gives_openTemplate ho
  obtain ⟨⟨body, whole⟩, v, hw, h⟩ := run_during h
  obtain ⟨_, _, _, hrefers⟩ := gives_wholeFilePass hw
  obtain ⟨⟨content, inline⟩, w, hi, h⟩ := run_during h
  obtain ⟨_, _, hinline, _, _⟩ := gives_inlines hi
  cases h
  refine ⟨fun e reads hfail => ?_, w.records, .inlineMerge, _, List.append_assoc _ _ _, fun r hr => ?_⟩
  · cases hfail with
    | blankName blank => exact hnamed (TemplateName.isBlank_iff.mpr blank)
    | rootMissing _ gone => simp [gone] at hhere
    | wholeFile _ _ markers _ fault =>
      exact fault.not_refers (hrefers _ (markers ▸ List.mem_append_right _ List.mem_cons_self))
    | inline _ _ _ pass markers _ fault =>
      obtain rfl := Option.some.inj ((insertAll?_of_wholeFilePass hw).symm.trans pass)
      obtain ⟨i, hi⟩ := exists_of_mem_left hinline _
        (markers ▸ List.mem_append_right _ List.mem_cons_self)
      exact fault.not_follows _ (hi.follows hd)
  · obtain rfl := List.mem_singleton.mp hr
    exact show Level.info ≠ Level.debug by decide

end Merge

/-- A merge fails exactly if its name, its root or one of its references cannot be used, and then with
the problem of the first that cannot: whole-file references come first, as they stand in the root, and
then inline references, as they stand in the body that the whole-file pass leaves. It reads its root
and what the references before that one lead to; and also what that one leads to, if only the section
is missing there. What the merger did before plays no part. The shelf is only ever read. -/
theorem merge_fails_at_first_unusable (s : Shelf) (rules : Rules) (d : Char) (before : Stage)
    (name : TemplateName) (t t' : Trail) (result : Except Problem Merged)
    (hl : rules.allowed.LetterDigit) (hd : rules.style.delimiter = [d])
    (h : (merge s.access rules before name).run t = (result, t')) :
    (∀ problem, result = .error problem ↔ ∃ reads, Merge.Failure s rules d name problem reads) ∧
      (∀ problem reads, Merge.Failure s rules d name problem reads →
        t'.reads = t.reads ++ reads ∧
        problem.report.kind ∈ [ProblemKind.invalidArgument, .templateNotFound, .malformedReference,
          .sectionNotFound]) ∧
      Merge.EndsIn t' (.ofResult result) := by
  cases result with
  | error e =>
    obtain ⟨⟨reads, hf, hreads⟩, hends⟩ := Merge.failure_of_run hl.findable hd h
    refine ⟨fun problem => ⟨?_, ?_⟩, fun problem reads' hf' => ?_, hends⟩
    · rintro ⟨⟩
      exact ⟨reads, hf⟩
    · rintro ⟨reads', hf'⟩
      rw [(hf.unique hf').1]
    · obtain ⟨rfl, rfl⟩ := hf.unique hf'
      exact ⟨hreads, hf.kind⟩
  | ok merged =>
    obtain ⟨hno, hends⟩ := Merge.not_failure_of_run hd h
    refine ⟨fun problem => ⟨nofun, ?_⟩, fun problem reads hf => absurd hf (hno _ _), hends⟩
    rintro ⟨reads, hf⟩
    exact absurd hf (hno _ _)

/-- A template whose last reference is to a section that is not there. -/
def Shelf.broken : Shelf :=
  .ofList [("/a".toList, "# @import b\nR:\n  # @import b#Q\n  # @import b#R\n".toList),
    ("/b".toList, "Q: 2\nP: y\n".toList)]

lemma failure_broken :
    Merge.Failure Shelf.broken Rules.sample '#' (.text "/a".toList)
      (.sectionMissing "R".toList (some "/b".toList))
      [.ofText "/a".toList, .ofText "/b".toList, .ofText "/b".toList, .ofText "/b".toList] := by
  have hnamed : ¬ (TemplateName.text "/a".toList).Blank := by
    rw [← TemplateName.isBlank_iff]
    decide +kernel
  have hfollows : Merge.Follows Shelf.broken Rules.sample '#'
      (Shelf.broken.template (.text "/a".toList))
      ⟨"# @import b#Q".toList, "b#Q".toList, 17, .inline⟩ (.ofText "/b".toList) :=
    ⟨"b".toList, "Q".toList, ⟨"b".toList, "Q".toList, by decide +kernel⟩, by decide +kernel⟩
  have hfault : Merge.InlineFault Shelf.broken Rules.sample '#'
      (Shelf.broken.template (.text "/a".toList))
      ⟨"# @import b#R".toList, "b#R".toList, 33, .inline⟩
      (.sectionMissing "R".toList
        (some ((Shelf.broken.template (.text "/a".toList)).target "b".toList).text))
      [(Shelf.broken.template (.text "/a".toList)).target "b".toList] :=
    .noSection ⟨"b".toList, "R".toList, by decide +kernel⟩ (by decide +kernel) (by decide +kernel)
  have hmarkers : Rules.sample.style.inlineMarkers
      "# @import b\nR:\n  # @import b#Q\n  # @import b#R\nQ: 2\nP: y\n".toList =
      [⟨"# @import b#Q".toList, "b#Q".toList, 17, .inline⟩] ++
        ⟨"# @import b#R".toList, "b#R".toList, 33, .inline⟩ :: [] := by decide +kernel
  have hfailure := Merge.Failure.inline hnamed (by decide +kernel)
    (by unfold Merge.Refers; decide +kernel) (by decide +kernel) hmarkers (.cons hfollows .nil) hfault
  have hreads : (TemplateName.text "/a".toList).normal ::
      ((Rules.sample.style.wholeFileMarkers (Shelf.broken.template (.text "/a".toList)).body).map
        fun m => (Shelf.broken.template (.text "/a".toList)).target m.resource.strip) ++
      ([.ofText "/b".toList] ++ [(Shelf.broken.template (.text "/a".toList)).target "b".toList]) =
      [.ofText "/a".toList, .ofText "/b".toList, .ofText "/b".toList, .ofText "/b".toList] := by
    decide +kernel
  have hshown : ((Shelf.broken.template (.text "/a".toList)).target "b".toList).text =
      "/b".toList := by decide +kernel
  rwa [hreads, hshown] at hfailure

theorem merge_broken_fails :
    ∃ t, (merge Shelf.broken.access Rules.sample .done (.text "/a".toList)).run .empty =
        (.error (.sectionMissing "R".toList (some "/b".toList)), t) ∧
      t.reads = [.ofText "/a".toList, .ofText "/b".toList, .ofText "/b".toList,
        .ofText "/b".toList] ∧
      Merge.EndsIn t .failed := by
  cases hrun : (merge Shelf.broken.access Rules.sample .done (.text "/a".toList)).run .empty with
  | mk result t =>
    obtain ⟨herror, hreads, hends⟩ := merge_fails_at_first_unusable Shelf.broken Rules.sample '#'
      .done (.text "/a".toList) .empty t result letterDigit_sample rfl hrun
    obtain rfl := (herror _).mpr ⟨_, failure_broken⟩
    exact ⟨t, rfl, (hreads _ _ failure_broken).1, hends⟩

end TemplateSplice
