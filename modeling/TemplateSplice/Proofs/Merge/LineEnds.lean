import TemplateSplice.Proofs.Marker.LineEnds
import TemplateSplice.Proofs.Merge.Kept
import TemplateSplice.Proofs.Merge.TwoRuns
import TemplateSplice.Proofs.Section.LineEnds

/-! Merging texts with other line ends. A merge of texts that are the same line by line takes the same
steps and gives texts that are the same line by line. What comes in new is a line feed before an added
header, which stands alone, and a bare opening before a carriage return, which becomes a marker. -/
namespace TemplateSplice

namespace Merge

variable {lone : Prop} {t u : Text}

/-- What a marker gives up, from the line that it is in. -/
lemma replacedFrom_eq {body before line after : Text} {m : Marker} (hb : body = before ++ line ++ after)
    (hm : m.start = (before ++ line).length) (hopens : Text.opensLine true before = true)
    (hline : '\n' ∉ line) :
    replacedFrom body m =
      if line.any (!isIndent ·) then m.start else before.dropLineEnd.length := by
  have hspan : SpanStart body m.start (replacedFrom body m) :=
    spanStart_replacedFrom (by simp [hm, hb])
  have hlast : ∀ {b l r : Text}, body = b ++ l ++ r → m.start = (b ++ l).length →
      Text.opensLine true b = true → '\n' ∉ l → before = b ∧ line = l := by
    intro b l r hb' hm' hopens' hline'
    have htake : body.take m.start = b ++ l := by rw [hm', hb', List.take_left]
    rw [hm, hb, List.take_left] at htake
    exact Text.lastLine_unique htake hopens hopens' hline hline'
  have hindent : ∀ {l : Text}, (∀ c ∈ l, isIndent c = true) → '\n' ∉ l ∧ l.any (!isIndent ·) = false :=
    fun hblank => ⟨fun hn => absurd (hblank _ hn) (by decide), by simpa using hblank⟩
  generalize replacedFrom body m = p at hspan
  cases hspan with
  | marker here at_line opens one_line mixed =>
    obtain ⟨rfl, rfl⟩ := hlast here at_line opens one_line
    rw [if_pos (by simpa using mixed)]
  | first here at_line blank =>
    obtain ⟨rfl, rfl⟩ := hlast (b := []) here at_line rfl (hindent blank).1
    simp [(hindent blank).2]
  | @lf b indent r here at_line blank no_cr =>
    obtain ⟨rfl, rfl⟩ := hlast (b := b ++ ['\n']) (l := indent) (r := r) (by simpa using here)
      (by simpa using at_line) (by simp [Text.opensLine]) (hindent blank).1
    simp [(hindent blank).2, Text.dropLineEnd_lf no_cr]
  | @crlf b indent r here at_line blank =>
    obtain ⟨rfl, rfl⟩ := hlast (b := b ++ ['\r', '\n']) (l := indent) (r := r) (by simpa using here)
      (by simpa using at_line) (by simp [Text.opensLine]) (hindent blank).1
    simp [(hindent blank).2, Text.dropLineEnd_crlf]

/-- Markers in the same place give up related texts. -/
lemma sameCut_replacedFrom {m m' : Marker} (hle : m.start ≤ t.length) (hle' : m'.start ≤ u.length)
    (hcut : SameCut lone t u m.start m'.start) :
    SameCut lone t u (replacedFrom t m) (replacedFrom u m') := by
  obtain ⟨before, line, hb, hp, -, hopens, hline⟩ := exists_lineStart hle
  have htake : t.take m.start = before ++ line := by rw [hb, hp, List.take_left]
  have hfront := hcut.before
  rw [htake] at hfront
  have hone : line.OneLine := fun c hc => by
    constructor
    · rintro rfl
      exact hfront.return_not_mem (List.mem_append_right before hc)
    · rintro rfl
      exact hline hc
  obtain ⟨before', line', hu, hbb, hll⟩ := hfront.exists_of_append
  rw [SameLines.eq_of_oneLine_left hone hll] at hu hll
  have hp' : m'.start = (before' ++ line).length := by
    rw [← hu, List.length_take_of_le hle']
  have hb' : u = before' ++ line ++ u.drop m'.start := by rw [← hu, List.take_append_drop]
  rw [replacedFrom_eq hb hp hopens hline, replacedFrom_eq hb' hp' (hbb.opensLine true ▸ hopens) hline]
  split_ifs
  · exact hcut
  · -- The parts before the line ends are related, and so is what stands between them and the line.
    obtain ⟨e, he⟩ := before.exists_dropLineEnd_append
    obtain ⟨e', he'⟩ := before'.exists_dropLineEnd_append
    have hends : SameLines lone e e' := by
      have hall := hbb
      rw [he, he'] at hall
      exact hbb.dropLineEnd.cancel hall
    have hcut' := SameCut.of_append hbb.dropLineEnd (hends.append (hll.append hcut.after))
    simp only [← List.append_assoc] at hcut'
    rwa [← he, ← he', ← hb, ← hb'] at hcut'

/-- Replacements in the same places of two texts, with related texts. -/
structure SameReplacement (lone : Prop) (t u : Text) (r r' : Replacement) : Prop where
  start : SameCut lone t u r.start r'.start
  stop : SameCut lone t u r.stop r'.stop
  text : SameLines lone r.text r'.text

lemma sameLines_weave {p q : Nat} {rs rs' : List Replacement} (hp : SameCut lone t u p q)
    (hin : ∀ r ∈ rs, p ≤ r.start ∧ r.start ≤ r.stop) (hin' : ∀ r ∈ rs', q ≤ r.start ∧ r.start ≤ r.stop)
    (hr : rs.Pairwise fun r r' => r.stop ≤ r'.start) (hr' : rs'.Pairwise fun r r' => r.stop ≤ r'.start)
    (h : List.Forall₂ (SameReplacement lone t u) rs rs') :
    SameLines lone (weave t p rs) (weave u q rs') := by
  induction h generalizing p q with
  | nil => exact hp.after
  | @cons r r' rs rs' hrr _ ih =>
    obtain ⟨hpr, hs⟩ := hin r List.mem_cons_self
    obtain ⟨hqr, hs'⟩ := hin' r' List.mem_cons_self
    obtain ⟨hstop, hr⟩ := List.pairwise_cons.mp hr
    obtain ⟨hstop', hr'⟩ := List.pairwise_cons.mp hr'
    have hrest := ih hrr.stop (fun x hx => ⟨hstop x hx, (hin x (List.mem_cons_of_mem r hx)).2⟩)
      (fun x hx => ⟨hstop' x hx, (hin' x (List.mem_cons_of_mem r' hx)).2⟩) hr hr'
    exact ((hp.slice hrr.start hpr hqr).append hrr.text).append hrest

variable {s s' : Shelf} {rules : Rules} {d : Char} {root root' : Template}

/-- A section of related templates has related texts, or is missing in both. -/
lemma matches_sectionOf (hl : rules.allowed.LetterDigit) {a b : Template}
    (h : SameTemplate (SameLines lone) a b) (name : Text) :
    Matches (SameLines lone) (sectionOf rules.allowed a name) (sectionOf rules.allowed b name) := by
  have hs := AllowList.section?_of_sameLines hl h.2 name
  unfold sectionOf
  rw [h.1]
  generalize rules.allowed.section? a.body name = x at hs ⊢
  generalize rules.allowed.section? b.body name = y at hs ⊢
  cases hs with
  | none => exact .error _
  | some hs => exact .ok hs

/-- Bodies that are the same line by line, and that end their last lines where no line feed may stand
alone. -/
structure SameBody (lone : Prop) (t u : Text) : Prop where
  lines : SameLines lone t u
  opens : ¬ lone → Text.opensLine true t = true

lemma matches_addTo (hl : rules.allowed.LetterDigit) (ht : SameBody lone t u) {name : Text}
    (hn : name ∈ rules.allowed.names) {contents contents' : Text}
    (hc : SameLines lone contents contents')
    (hopens : ¬ lone → Text.opensLine false contents = true) :
    Matches (SameBody lone) (addTo rules.allowed t name contents)
      (addTo rules.allowed u name contents') := by
  obtain ⟨t', u', ht', hu', hlines⟩ := AllowList.insert?_of_sameLines hl ht.lines hn ht.opens hc
  rw [addTo_eq_ok.mpr ht', addTo_eq_ok.mpr hu']
  exact .ok ⟨hlines, fun hlone =>
    AllowList.opensLine_of_insert? hl hn (ht.opens hlone) (hopens hlone) ht'⟩

/-- Sections of related templates go into related bodies. -/
lemma matches_addSections (hl : rules.allowed.LetterDigit) {a b : Template} (hpath : a.path = b.path)
    (h : SameBody lone a.body b.body) (ht : SameBody lone t u) {names : List Text}
    (hn : ∀ name ∈ names, name ∈ rules.allowed.names) :
    Matches (SameBody lone) (addSections rules.allowed a t names)
      (addSections rules.allowed b u names) := by
  induction names generalizing t u with
  | nil => exact .ok ht
  | cons name names ih =>
    have hname := hn name List.mem_cons_self
    have hcontents : Matches (SameLines lone) (sectionOf rules.allowed a name)
        (sectionOf rules.allowed b name) := matches_sectionOf hl ⟨hpath, h.lines⟩ name
    refine hcontents.bind fun contents contents' hs hc => ?_
    have hopens : ¬ lone → Text.opensLine false contents = true := fun hlone => by
      rw [sectionOf_eq_ok, AllowList.section?_eq_lookup] at hs
      exact (AllowList.opensLine_layoutFrom (h.opens hlone)).2 _ (AllowList.mem_of_lookup hs)
    exact (matches_addTo hl ht hname hc hopens).bind fun t' u' _ ht' =>
      ih ht' fun n hn' => hn n (List.mem_cons_of_mem name hn')

/-- The whole-file passes over related bodies run alike if their markers have the same resources. -/
theorem alike_wholeFilePass (hl : rules.allowed.LetterDigit) (hs : s.Related (SameLines lone) s')
    (hpath : root.path = root'.path) {markers markers' : List Marker}
    (hm : List.Forall₂ (fun m m' => m.resource = m'.resource) markers markers')
    (hopens : ¬ lone → ∀ document ∈ documents s root markers, Text.opensLine true document = true)
    (ht : SameBody lone t u) :
    Alike (fun r r' => SameBody lone r.1 r'.1 ∧ r.2 = r'.2)
      (wholeFilePass s.access rules root t markers)
      (wholeFilePass s'.access rules root' u markers') := by
  induction hm generalizing t u with
  | nil => exact .pure ⟨ht, rfl⟩
  | @cons m m' markers markers' hr _ ih =>
    have hresource : Alike Eq (lift (wholeFilePath rules.style m.resource (some root.path.text)))
        (lift (wholeFilePath rules.style m'.resource (some root'.path.text))) := by
      rw [← hr, ← hpath]
      exact .refl _
    unfold wholeFilePass
    refine hresource.bind fun resource resource' _ _ hg _ he => ?_
    subst he
    obtain ⟨rfl, -⟩ := wholeFilePath_eq_ok ((gives_lift _ _).mp hg).1
    refine (alike_load hs hpath _).bind fun a b t₁ t₂ ha _ hab => ?_
    obtain ⟨hab, hbody⟩ := hab
    have hdocument : SameBody lone a.body b.body := by
      refine ⟨hbody, fun hlone => ?_⟩
      obtain ⟨rfl, -⟩ := gives_load ha
      exact hopens hlone _ List.mem_cons_self
    have hnames : rules.allowed.sections a.body = rules.allowed.sections b.body :=
      AllowList.sections_eq_of_sameLines hl hbody
    have hnamed : ∀ name ∈ rules.allowed.sections a.body, name ∈ rules.allowed.names :=
      fun name hn => AllowList.mem_names_of_mem_sections hn
    dsimp only
    rw [← hnames, ← hab]
    refine (Alike.lift (matches_addSections hl hab hdocument ht hnamed)).bind fun t' u' _ _ _ _ ht' => ?_
    refine (Alike.refl (liftM (s.access.note _) : ExceptT Problem (StateM Trail) Unit)).bind
      fun _ _ _ _ _ _ _ => ?_
    refine (ih (fun hlone x hx => hopens hlone x (List.mem_cons_of_mem _ hx)) ht').bind
      fun r r' _ _ _ _ hrr => ?_
    exact .pure ⟨hrr.1, by rw [hrr.2, hr]⟩

/-- The inline passes over related bodies run alike if their markers stand in the same places. -/
theorem alike_inlinePass (hl : rules.allowed.LetterDigit) (hs : s.Related (SameLines lone) s')
    (hpath : root.path = root'.path) {markers markers' : List Marker}
    (hm : List.Forall₂ (SameSpot lone 0 0 t u) markers markers') :
    Alike (fun r r' => List.Forall₂ (SameReplacement lone t u) r.1 r'.1 ∧ r.2 = r'.2)
      (inlinePass s.access rules root t markers) (inlinePass s'.access rules root' u markers') := by
  induction hm with
  | nil => exact .pure ⟨.nil, rfl⟩
  | @cons m m' markers markers' hspot _ ih =>
    have hresource : m'.resource = m.resource := hspot.same.2.1
    obtain ⟨hstart, hstop⟩ := hspot.cuts
    have hreplaced : SameCut lone t u (replacedFrom t m) (replacedFrom u m') := by
      refine sameCut_replacedFrom ?_ ?_ hstart
      · obtain ⟨_, before, _, _, _, ht, _, hb, _⟩ := hspot
        rw [hb, ht]
        simp
      · obtain ⟨_, _, _, before', _, _, hu, _, hb, _⟩ := hspot
        rw [hb, hu]
        simp
    have hparts : Alike Eq (lift (inlineParts rules.style m.resource (some root.path.text)))
        (lift (inlineParts rules.style m'.resource (some root'.path.text))) := by
      rw [hresource, ← hpath]
      exact .refl _
    unfold inlinePass
    refine hparts.bind fun parts parts' _ _ _ _ he => ?_
    subst he
    obtain ⟨path, name⟩ := parts
    refine (alike_load hs hpath path).bind fun a b _ _ _ _ hab => ?_
    refine (Alike.lift (matches_sectionOf hl hab name)).bind fun contents contents' _ _ _ _ hc => ?_
    refine ih.bind fun r r' _ _ _ _ hrr => ?_
    obtain ⟨hr, hi⟩ := hrr
    exact .pure ⟨.cons ⟨hreplaced, hstop, hc⟩ hr, by rw [hi, hresource, hab.1]⟩

/-- The inline passes over related bodies give related contents. -/
theorem alike_inlines (hl : rules.allowed.LetterDigit) (hstyle : rules.style.StartsWith d)
    (hd : rules.style.kindOf ['\r'] ≠ .inline) (hs : s.Related (SameLines lone) s')
    (hpath : root.path = root'.path) (ht : SameLines lone t u) :
    Alike (fun r r' => SameLines lone r.1 r'.1 ∧ r.2 = r'.2) (inlines s.access rules root t)
      (inlines s'.access rules root' u) := by
  unfold inlines
  refine (alike_inlinePass hl hs hpath (MarkerStyle.sameSpots_inlineMarkers hstyle ht hd)).bind
    fun r r' _ _ hg hg' hrr => .pure ⟨?_, hrr.2⟩
  obtain ⟨replacements, imports⟩ := r
  obtain ⟨replacements', imports'⟩ := r'
  obtain ⟨hin, hp⟩ := spans_of_replacements (gives_inlinePass hg).1
  obtain ⟨hin', hp'⟩ := spans_of_replacements (gives_inlinePass hg').1
  rw [replaceAll_eq_weave (fun r h => ⟨Nat.zero_le _, hin r h⟩) hp,
    replaceAll_eq_weave (fun r h => ⟨Nat.zero_le _, hin' r h⟩) hp', List.take_zero, List.take_zero]
  have hcut : SameCut lone t u 0 0 := ⟨.nil, ht⟩
  exact sameLines_weave hcut (fun r h => ⟨Nat.zero_le _, (hin r h).1⟩)
    (fun r h => ⟨Nat.zero_le _, (hin' r h).1⟩) hp hp' hrr.1

/-- Results of merges with the same root and imports and related contents. -/
def SameMerged (lone : Prop) (a b : Merged) : Prop :=
  SameLines lone a.content b.content ∧ a.root = b.root ∧ a.imports = b.imports

/-- Merges over shelves that are the same line by line run alike, if no bare opening of the root became
a marker, and if root and whole-file documents end their last lines where no line feed may stand alone. -/
theorem alike_merge (hl : rules.allowed.LetterDigit) (hstyle : rules.style.StartsWith d)
    (hd : rules.style.kindOf ['\r'] ≠ .inline) (hs : s.Related (SameLines lone) s') (before : Stage)
    (name : TemplateName) (hbare : ['\r'] ∉ rules.style.resources (s'.text name.normal))
    (hopens : ¬ lone → Text.opensLine true (s.text name.normal) = true ∧
      ∀ document ∈ documents s ⟨s.text name.normal, name.normal⟩
          (rules.style.wholeFileMarkers (s.text name.normal)),
        Text.opensLine true document = true) :
    Alike (SameMerged lone) (ExceptT.mk (merge s.access rules before name))
      (ExceptT.mk (merge s'.access rules before name)) := by
  intro t
  refine alike_during (alike_openTemplate hs name) (fun root root' t t' hroot hroot' hrr => ?_)
    { t with records := t.records ++ [stageRecord before .init] }
  obtain ⟨hpath, hlines⟩ := hrr
  obtain ⟨_, _, rfl, _⟩ := gives_openTemplate hroot
  obtain ⟨_, _, rfl, _⟩ := gives_openTemplate hroot'
  have hmarkers := (MarkerStyle.sameSpots_wholeFileMarkers hstyle hlines hbare).imp
    fun m m' hm => hm.same.2.1.symm
  refine alike_during (alike_wholeFilePass hl hs hpath hmarkers (fun hlone => (hopens hlone).2)
    ⟨hlines, fun hlone => (hopens hlone).1⟩) fun r r' _ _ _ _ hrr => ?_
  obtain ⟨body, whole⟩ := r
  obtain ⟨body', whole'⟩ := r'
  obtain ⟨hbody, rfl⟩ := hrr
  refine alike_during (alike_inlines hl hstyle hd hs hpath hbody.lines) fun r r' _ _ _ _ hrr => ?_
  obtain ⟨content, inline⟩ := r
  obtain ⟨content', inline'⟩ := r'
  obtain ⟨hcontent, rfl⟩ := hrr
  exact fun u => ⟨rfl, .ok ⟨hcontent, rfl, rfl⟩⟩

/-- The documents of a merge that succeeds are the whole templates that it imports. -/
lemma exists_import_of_mem_documents {s : Shelf} {rules : Rules} {before : Stage} {name : TemplateName}
    {result : Merged} {t t' : Trail} (h : (merge s.access rules before name).run t = (.ok result, t'))
    {document : Text} (hm : document ∈ documents s ⟨s.text name.normal, name.normal⟩
      (rules.style.wholeFileMarkers (s.text name.normal))) :
    ∃ i ∈ result.imports, i.kind = .wholeFile ∧ s.text i.path = document := by
  obtain ⟨marker, hmarker, rfl⟩ := List.mem_map.mp hm
  obtain ⟨_, _, inline, _, _, _, _, hw, _, _, himports, _⟩ := run_merge h
  obtain ⟨hwhole, _⟩ := gives_wholeFilePass hw
  refine ⟨wholeImport s rules ⟨s.text name.normal, name.normal⟩ marker, ?_, rfl, rfl⟩
  rw [himports, hwhole]
  exact List.mem_append_left inline (List.mem_map_of_mem hmarker)

end Merge

/-- The shelf with a carriage return before every line feed of its texts. -/
def Shelf.returned (s : Shelf) : Shelf := ⟨s.files.map fun file => (file.1, file.2.returned)⟩

namespace Shelf

variable {s : Shelf}

lemma get?_returned (p : Path) : s.returned.get? p = (s.get? p).map Text.returned := by
  unfold get? returned
  rw [List.find?_map, Option.map_map, Option.map_map]
  rfl

lemma text_returned (p : Path) : s.returned.text p = (s.text p).returned := by
  unfold text
  rw [get?_returned]
  cases s.get? p <;> rfl

lemma related_returned {lone : Prop} (h : ∀ file ∈ s.files, '\r' ∉ file.2) :
    s.Related (SameLines lone) s.returned := by
  intro p
  rw [get?_returned]
  cases hp : s.get? p with
  | none => exact .none
  | some t =>
    obtain ⟨file, hfile, rfl⟩ := Option.map_eq_some_iff.mp hp
    exact .some (.returned (h file (List.mem_of_find?_eq_some hfile)))

end Shelf

lemma letterDigit_standard : Rules.standard.allowed.LetterDigit := by decide +kernel

lemma not_merge_of_bare {s : Shelf} {before : Stage} {name : TemplateName} {result : Merged}
    {t t' : Trail} (hbare : ['\r'] ∈ Rules.standard.style.resources (s.text name.normal)) :
    (merge s.access Rules.standard before name).run t ≠ (.ok result, t') := by
  intro h
  obtain ⟨_, _, _, _, _, _, _, hw, _⟩ := Merge.run_merge h
  obtain ⟨_, _, _, hrefers⟩ := Merge.gives_wholeFilePass hw
  obtain ⟨m, hm, hr⟩ := List.mem_map.mp hbare
  obtain ⟨_, _, _, _, _, hk, _⟩ := MarkerStyle.exists_of_mem_markersFrom hm
  have hwhole : m ∈ Rules.standard.style.wholeFileMarkers (s.text name.normal) := by
    refine List.mem_filter.mpr ⟨hm, ?_⟩
    rw [hk, hr]
    decide +kernel
  refine (hrefers m hwhole).1 ?_
  rw [hr]
  decide +kernel

/-- Carriage returns before all line feeds change nothing but line ends, with two exceptions. A bare
opening at the end of a line of the root becomes a marker that refers to nothing, so that the merge
fails. Otherwise the merge takes the same steps and fails with the same problem, or it succeeds with the
same imports and with the same content up to line ends; and all line ends are then carriage returns with
line feeds if the root and the whole templates that it imports end their last lines. -/
theorem merge_returned (s : Shelf) (before : Stage) (name : TemplateName) (t : Trail)
    (h : ∀ file ∈ s.files, '\r' ∉ file.2) :
    let run := (merge s.access Rules.standard before name).run t
    let run' := (merge s.returned.access Rules.standard before name).run t
    let bare := ['\r'] ∈ Rules.standard.style.resources (s.text name.normal).returned
    (bare → ∀ result', run'.1 ≠ .ok result') ∧
    (¬ bare → run'.2 = run.2 ∧ (∀ problem, run'.1 = .error problem ↔ run.1 = .error problem) ∧
      ∀ result, run.1 = .ok result → ∃ result', run'.1 = .ok result' ∧
        result'.root = result.root ∧ result'.imports = result.imports ∧
        result'.content.unifyLineEnds = result.content ∧
        (Text.opensLine true (s.text name.normal) = true →
          (∀ i ∈ result.imports, i.kind = .wholeFile → Text.opensLine true (s.text i.path) = true) →
          result'.content = result.content.returned)) := by
  intro run run' bare
  constructor
  · intro hbare result' hrun
    have hbare' : ['\r'] ∈ Rules.standard.style.resources (s.returned.text name.normal) := by
      rwa [Shelf.text_returned]
    exact not_merge_of_bare hbare' (Prod.ext hrun rfl : run' = (.ok result', run'.2))
  · intro hbare
    have hbare' : ['\r'] ∉ Rules.standard.style.resources (s.returned.text name.normal) := by
      rwa [Shelf.text_returned]
    have halike : ∀ lone : Prop, (¬ lone → Text.opensLine true (s.text name.normal) = true ∧
        ∀ document ∈ Merge.documents s ⟨s.text name.normal, name.normal⟩
          (Rules.standard.style.wholeFileMarkers (s.text name.normal)),
          Text.opensLine true document = true) → run.2 = run'.2 ∧
          Merge.Matches (Merge.SameMerged lone) run.1 run'.1 := fun lone hopens =>
      Merge.alike_merge letterDigit_standard startsWith_standard (by decide +kernel)
        (Shelf.related_returned h) before name hbare' hopens t
    obtain ⟨htrail, hmatches⟩ := halike True fun hlone => absurd trivial hlone
    refine ⟨htrail.symm, hmatches.error_iff, fun result hrun => ?_⟩
    obtain ⟨result', hrun', hcontent, hroot, himports⟩ := (hrun ▸ hmatches).exists_ok
    refine ⟨result', hrun', hroot.symm, himports.symm, hcontent.unifyLineEnds, fun hr hd => ?_⟩
    obtain ⟨-, hstrict⟩ := halike False fun _ => ⟨hr, fun document hm => by
      obtain ⟨i, hi, hkind, rfl⟩ := Merge.exists_import_of_mem_documents
        (Prod.ext hrun rfl : run = (.ok result, run.2)) hm
      exact hd i hi hkind⟩
    obtain ⟨result'', hrun'', hlines, -⟩ := (hrun ▸ hstrict).exists_ok
    obtain rfl := Except.ok.inj (hrun'.symm.trans hrun'')
    exact hlines.eq_returned

theorem merge_adjacent_returned :
    ∃ result, ((merge (Shelf.adjacent "\n  A: 1\n".toList).returned.access Rules.standard .init
        (.text "/a".toList)).run .empty).1 = .ok result ∧
      result.content = "# @import b\r\n  A: 1\r\n\r\n".toList := by
  obtain ⟨t, hrun⟩ := Merge.run_of_toOption (t := .empty)
    (x := merge (Shelf.adjacent "\n  A: 1\n".toList).access Rules.standard .init (.text "/a".toList))
    (a := .adjacent "# @import b\n  A: 1\n\n".toList) (by decide +kernel)
  obtain ⟨-, hlaw⟩ := merge_returned (Shelf.adjacent "\n  A: 1\n".toList) .init (.text "/a".toList)
    .empty (by decide +kernel)
  have hbare : ['\r'] ∉ Rules.standard.style.resources ((Shelf.adjacent "\n  A: 1\n".toList).text
      (TemplateName.text "/a".toList).normal).returned := by decide +kernel
  obtain ⟨-, -, hok⟩ := hlaw hbare
  obtain ⟨result, hrun', -, -, -, hcontent⟩ := hok _ (congrArg Prod.fst hrun)
  have hends := hcontent (by decide +kernel) (by decide +kernel)
  exact ⟨result, hrun', hends.trans (by decide +kernel)⟩

/-- A template with a bare opening at the end of a line. -/
def Shelf.bare : Shelf := .ofList [("/a".toList, "# @import \nResources:\n".toList)]

/-- A template that does not end its last line, and one that adds a section to it. -/
def Shelf.unended : Shelf :=
  .ofList [("/a".toList, "# @import b\nX: 1".toList), ("/b".toList, "Resources:\n  A: 1\n".toList)]

/-- Carriage returns do matter: to whether a bare opening is a marker, and to the line end before an
added header. -/
theorem not_merge_returned :
    (¬ ∀ (s : Shelf) (name : TemplateName) (result : Merged), (∀ file ∈ s.files, '\r' ∉ file.2) →
      ((merge s.access Rules.standard .init name).run .empty).1 = .ok result →
      ∃ result', ((merge s.returned.access Rules.standard .init name).run .empty).1 = .ok result') ∧
    ¬ ∀ (s : Shelf) (name : TemplateName) (result result' : Merged),
      (∀ file ∈ s.files, '\r' ∉ file.2) →
      ((merge s.access Rules.standard .init name).run .empty).1 = .ok result →
      ((merge s.returned.access Rules.standard .init name).run .empty).1 = .ok result' →
      result'.content = result.content.returned := by
  constructor
  · intro h
    obtain ⟨t, hrun⟩ := Merge.run_of_toOption (t := .empty)
      (x := merge Shelf.bare.access Rules.standard .init (.text "/a".toList))
      (a := ⟨"# @import \nResources:\n".toList, .ofText "/a".toList, []⟩) (by decide +kernel)
    obtain ⟨result', hrun'⟩ := h Shelf.bare (.text "/a".toList) _ (by decide +kernel)
      (congrArg Prod.fst hrun)
    have hnone : ((merge Shelf.bare.returned.access Rules.standard .init
        (.text "/a".toList)).run .empty).1.toOption = none := by decide +kernel
    rw [hrun'] at hnone
    cases hnone
  · intro h
    obtain ⟨t, hrun⟩ := Merge.run_of_toOption (t := .empty)
      (x := merge Shelf.unended.access Rules.standard .init (.text "/a".toList))
      (a := ⟨"# @import b\nX: 1\nResources:\n  A: 1\n".toList, .ofText "/a".toList,
        [⟨.wholeFile, "b".toList, .ofText "/b".toList, ["Resources".toList]⟩]⟩) (by decide +kernel)
    obtain ⟨t', hrun'⟩ := Merge.run_of_toOption (t := .empty)
      (x := merge Shelf.unended.returned.access Rules.standard .init (.text "/a".toList))
      (a := ⟨"# @import b\r\nX: 1\nResources:\r\n  A: 1\r\n".toList, .ofText "/a".toList,
        [⟨.wholeFile, "b".toList, .ofText "/b".toList, ["Resources".toList]⟩]⟩) (by decide +kernel)
    have hsame := h _ _ _ _ (by decide +kernel) (congrArg Prod.fst hrun) (congrArg Prod.fst hrun')
    revert hsame
    decide +kernel

end TemplateSplice
