import TemplateSplice.Proofs.Marker.Solid
import TemplateSplice.Proofs.Merge.Markers
import TemplateSplice.Proofs.Merge.Sections

/-! Whole-file markers stay in the output. Insertions keep them as long as none is swallowed; the inline
pass keeps them as long as the texts that come in start with the blank rest of their header's line, since
that is what takes the place of the line end before a marker. -/
namespace TemplateSplice

namespace MarkerStyle

variable {style : MarkerStyle} {d : Char}

/-- The resources of the whole-file markers of a body, in order. -/
def wholeFileResources (style : MarkerStyle) (body : Text) : List Text :=
  (style.wholeFileMarkers body).map Marker.resource

lemma wholeFileResources_eq_filter (body : Text) : style.wholeFileResources body =
    (style.resources body).filter (style.kindOf · = .wholeFile) := by
  unfold wholeFileResources wholeFileMarkers resources
  rw [List.filter_map]
  refine congrArg (List.map Marker.resource) (List.filter_congr fun m hm => ?_)
  obtain ⟨_, _, _, _, _, hk, _⟩ := exists_of_mem_markersFrom hm
  rw [Function.comp_apply, hk]

/-- An inline resource that is swallowed makes another one. -/
lemma kindOf_append {resource : Text} (h : style.kindOf resource = .inline) (t : Text) :
    style.kindOf (t ++ resource) = .inline := by
  unfold kindOf at h ⊢
  simp only [Text.occursIn_iff] at h ⊢
  split_ifs at h with hi
  rw [if_pos (hi.trans (List.suffix_append t resource).isInfix)]

/-- The whole-file resources of a body that are solid, in order. -/
def solidWholeFiles (style : MarkerStyle) (body : Text) : List Text :=
  (style.solidResources body).filter (style.kindOf · = .wholeFile)

@[simp] theorem solidWholeFiles_nil : style.solidWholeFiles [] = [] := by simp [solidWholeFiles]

lemma solidWholeFiles_append_newline (h : style.StartsWith d) (t u : Text) :
    style.solidWholeFiles (t ++ '\n' :: u) = style.solidWholeFiles t ++ style.solidWholeFiles u := by
  simp only [solidWholeFiles, solidResources_append_newline h, List.filter_append]

lemma solidWholeFiles_append_blanks (h : style.StartsWith d) (t : Text) {blanks : Text}
    (hblank : ∀ c ∈ blanks, isSpacing c = true) :
    style.solidWholeFiles (t ++ blanks) = style.solidWholeFiles t := by
  unfold solidWholeFiles
  rw [solidResources_append_blanks h t hblank]

/-- A text that goes on with the end of its line goes on with the markers of what comes then. -/
lemma solidWholeFiles_append_of_lineEnd (h : style.StartsWith d) (t : Text) {tail rest : Text}
    (htail : ∀ c ∈ tail, isLineTail c = true) (hrest : ∀ c ∈ rest.head?, c = '\n') :
    style.solidWholeFiles (t ++ (tail ++ rest)) =
      style.solidWholeFiles t ++ style.solidWholeFiles rest := by
  have hblank : ∀ c ∈ tail, isSpacing c = true := fun c hc => by simp [isSpacing, htail c hc]
  rw [← List.append_assoc]
  cases rest with
  | nil => simp [solidWholeFiles_append_blanks h t hblank]
  | cons c r =>
    obtain rfl : c = '\n' := hrest c rfl
    rw [solidWholeFiles_append_newline h, solidWholeFiles_append_blanks h t hblank,
      ← List.nil_append ('\n' :: r), solidWholeFiles_append_newline h, solidWholeFiles_nil,
      List.nil_append]

/-- A line that ends in an inline marker has no whole-file marker. -/
lemma solidWholeFiles_of_inline (h : style.StartsWith d) {l resource : Text}
    (hl : '\n' ∉ l ++ (style.opening ++ resource)) (hs : isSolid resource = true)
    (hk : style.kindOf resource = .inline) :
    style.solidWholeFiles (l ++ (style.opening ++ resource)) = [] := by
  have hr : style.firstResource? (style.opening ++ resource) = some resource := by
    have hn : '\n' ∉ resource := fun hn => hl (by simp [hn])
    have hhere : style.resourceHere? (style.opening ++ resource) = some resource := by
      unfold resourceHere?
      rw [if_pos (List.isPrefixOf_iff_prefix.mpr (List.prefix_append _ _)), List.drop_left]
      have hall := resourceAt?_of_isSolid hs (List.forall_mem_nil (isLineTail · = true))
        (by simpa using hn)
      rwa [List.append_nil] at hall
    rw [h.opening_eq, List.cons_append] at hhere ⊢
    rw [firstResource?, hhere]
    rfl
  unfold solidWholeFiles solidResources
  rw [resources_of_one_line h hl]
  obtain ⟨z, hz, rfl | ⟨y, rfl⟩⟩ := firstResource?_append_of_isSolid h hr hs hl
  · simp [hz, hk]
  · have hy := kindOf_append hk (y ++ style.opening)
    simp_all

/-- An inline marker and the blanks before it take no whole-file marker away that the text before them
does not have. -/
lemma solidWholeFiles_append_inline (h : style.StartsWith d) (t : Text) {blanks resource : Text}
    (hblank : ∀ c ∈ blanks, isSpacing c = true) (hn : '\n' ∉ resource) (hs : isSolid resource = true)
    (hk : style.kindOf resource = .inline) :
    (style.solidWholeFiles (t ++ (blanks ++ (style.opening ++ resource)))).Sublist
      (style.solidWholeFiles t) := by
  obtain ⟨a, l, hal, ha, hl⟩ := Text.exists_lastLine (t ++ blanks)
  have hline : '\n' ∉ l ++ (style.opening ++ resource) := by simp [hl, h.one_line, hn]
  have hopens : ∀ u, style.solidWholeFiles (a ++ u) =
      style.solidWholeFiles a ++ style.solidWholeFiles u := fun u => by
    simp only [solidWholeFiles, solidResources_append_of_opensLine h ha, List.filter_append]
  rw [← solidWholeFiles_append_blanks h t hblank, ← List.append_assoc, hal, List.append_assoc, hopens,
    solidWholeFiles_of_inline h hline hs hk, List.append_nil, hopens]
  exact List.sublist_append_left _ _

end MarkerStyle

/-- What marks off a swallowed marker: markers start with the delimiter and hold some character after it
that is neither blank nor in any section name. -/
structure Rules.Guarded (rules : Rules) (d : Char) : Prop where
  delimiter : rules.style.delimiter = [d]
  foreign : ∃ c ∈ rules.style.opening.tail,
    isBlank c = false ∧ ∀ name ∈ rules.allowed.names, c ∉ name

namespace AllowList

variable {allowed : AllowList} {style : MarkerStyle} {d : Char} {body body' : Text}
  {cs : List (Text × Text)}

/-- Whatever is inserted, the solid resources of a body are still there, unless one is swallowed. -/
lemma sublist_solidResources_of_insertAll? (h : style.StartsWith d) (hc : allowed.Clear d)
    (hi : allowed.insertAll? body cs = some body') :
    (style.solidResources body).Sublist (style.solidResources body') ∨
      ∃ z ∈ style.solidResources body', style.Swallows z := by
  induction cs generalizing body with
  | nil =>
    cases hi
    exact .inl (List.Sublist.refl _)
  | cons c cs ih =>
    rw [Merge.insertAll?_cons] at hi
    obtain ⟨body₁, h₁, hi⟩ := Option.bind_eq_some_iff.mp hi
    obtain ⟨kept, rest, hbody, hbody₁⟩ := exists_resources_of_insert? h hc h₁
    rcases ih hi with hsub | hswallowed
    · rcases MarkerStyle.sublist_solidResources_append h c.2 rest with hsub₁ | ⟨z, hz, hswallows⟩
      · refine .inl (List.Sublist.trans ?_ hsub)
        unfold MarkerStyle.solidResources at hsub₁ ⊢
        rw [hbody, hbody₁, List.filter_append, List.filter_append]
        exact hsub₁.append_left _
      · refine .inr ⟨z, hsub.mem ?_, hswallows⟩
        unfold MarkerStyle.solidResources at hz ⊢
        rw [hbody₁, List.filter_append]
        exact List.mem_append_right _ hz
    · exact .inr hswallowed

/-- Texts that end their lines leave all markers of a body what they are. -/
lemma sublist_resources_of_insertAll?_of_opensLine (h : style.StartsWith d) (hc : allowed.Clear d)
    (hopens : ∀ c ∈ cs, Text.opensLine true c.2 = true) (hi : allowed.insertAll? body cs = some body') :
    (style.resources body).Sublist (style.resources body') := by
  induction cs generalizing body with
  | nil =>
    cases hi
    exact List.Sublist.refl _
  | cons c cs ih =>
    rw [Merge.insertAll?_cons] at hi
    obtain ⟨body₁, h₁, hi⟩ := Option.bind_eq_some_iff.mp hi
    obtain ⟨kept, rest, hbody, hbody₁⟩ := exists_resources_of_insert? h hc h₁
    refine List.Sublist.trans ?_ (ih (fun c' hc' => hopens c' (List.mem_cons_of_mem c hc')) hi)
    rw [hbody, hbody₁, MarkerStyle.resources_append_of_opensLine h (hopens c List.mem_cons_self)]
    exact (List.sublist_append_right _ _).append_left kept

end AllowList

namespace Merge

variable {s : Shelf} {rules : Rules} {d : Char} {root : Template} {body content : Text}
  {whole inline : List AppliedImport} {t t' u u' : Trail}

/-- No inline marker that is followed swallows another one: the name of its section would hold what no
section name holds. -/
lemma InlineImport.not_swallows (hs : rules.style.StartsWith d) (hg : rules.Guarded d) {m : Marker}
    {i : AppliedImport} (h : InlineImport s rules root m i) : ¬ rules.style.Swallows m.resource := by
  rintro ⟨y, resource, hz, _⟩
  obtain ⟨path, name, hparts, hname, _⟩ := h
  obtain ⟨c, hc, hblank, hforeign⟩ := hg.foreign
  obtain ⟨a, b, hcut, ha, hb, _, rfl, _⟩ := (MarkerStyle.inlineParts_eq_ok_iff hg.delimiter).mp hparts
  refine hforeign _ (AllowList.mem_names_of_mem_sections (AllowList.isSome_section?_iff.mp hname)) ?_
  rw [hcut, hs.opening_eq, List.append_assoc, List.cons_append] at hz
  obtain ⟨_, _, rfl⟩ := (List.append_cons_inj_of_notMem ha hb).mp hz
  exact Text.mem_strip (List.mem_append_left resource hc) hblank

/-- In a merge that succeeds the solid resources of the root are still there after the whole-file pass
if no marker can be followed that swallows another one, or if every text that comes in ends its last
line. -/
theorem sublist_solidResources (hs : rules.style.StartsWith d) (hc : rules.allowed.Clear d)
    (hk : rules.Guarded d ∨ ∀ c ∈ (documents s root (rules.style.wholeFileMarkers root.body)).flatMap
      rules.allowed.contributions, Text.opensLine true c.2 = true)
    (hw : Gives (wholeFiles s.access rules root) t (body, whole) t')
    (hi : Gives (inlines s.access rules root body) u (content, inline) u') :
    (rules.style.solidResources root.body).Sublist (rules.style.solidResources body) := by
  have hinsert := insertAll?_of_wholeFilePass hw
  rcases hk with hg | hopens
  · refine (AllowList.sublist_solidResources_of_insertAll? hs hc hinsert).resolve_right ?_
    rintro ⟨z, hz, hswallows⟩
    -- What swallows a marker holds the delimiter, so it is an inline marker and was followed.
    have hd : d ∈ z := by
      obtain ⟨y, resource, rfl, _⟩ := hswallows
      simp [List.mem_of_mem_head? hs.head]
    have hm : z ∈ rules.style.inlineResources body := by
      rw [MarkerStyle.inlineResources_eq_filter, List.mem_filter]
      exact ⟨(List.mem_filter.mp hz).1,
        by simpa using (MarkerStyle.kindOf_eq_inline_iff hg.delimiter).mpr hd⟩
    obtain ⟨marker, hmarker, rfl⟩ := List.mem_map.mp hm
    obtain ⟨_, _, himports, _⟩ := gives_inlines hi
    obtain ⟨i, himport⟩ := exists_of_mem_left himports marker hmarker
    exact himport.not_swallows hs hg hswallows
  · exact (AllowList.sublist_resources_of_insertAll?_of_opensLine hs hc hopens hinsert).filter _

/-- A replacement takes away and brings in whole-file markers in one place only, so what each of them
keeps is kept by all. -/
lemma sublist_weave {f : Text → List Text} {p : Nat} {rs : List Replacement}
    (hin : ∀ r ∈ rs, p ≤ r.start ∧ r.start ≤ r.stop ∧ r.stop ≤ body.length)
    (hr : rs.Pairwise fun r r' => r.stop ≤ r'.start)
    (hf : ∀ r ∈ rs, ∀ t, (f (t ++ (body.slice r.start r.stop ++ body.drop r.stop))).Sublist
      (f (t ++ (r.text ++ body.drop r.stop)))) (t : Text) :
    (f (t ++ body.drop p)).Sublist (f (t ++ weave body p rs)) := by
  induction rs generalizing p t with
  | nil => exact List.Sublist.refl _
  | cons r rs ih =>
    obtain ⟨hp, hs, hb⟩ := hin r List.mem_cons_self
    obtain ⟨hstop, hr⟩ := List.pairwise_cons.mp hr
    have hrest := ih (p := r.stop)
      (fun r' h' => ⟨hstop r' h', (hin r' (List.mem_cons_of_mem r h')).2⟩) hr
      (fun r' h' => hf r' (List.mem_cons_of_mem r h'))
    have hhere := hf r List.mem_cons_self (t ++ body.slice p r.start)
    have hlater := hrest (t ++ body.slice p r.start ++ r.text)
    rw [weave, ← slice_append_slice_append_drop body hp hs]
    simp only [List.append_assoc] at hhere hlater ⊢
    exact hhere.trans hlater

/-- What comes after a marker is the end of its line. -/
lemma InlineReplacement.lineEnd {m : Marker} {r : Replacement}
    (hm : m ∈ rules.style.inlineMarkers body) (h : InlineReplacement s rules root body m r) :
    ∃ tail rest, body.drop r.stop = tail ++ rest ∧ (∀ c ∈ tail, isLineTail c = true) ∧
      ∀ c ∈ rest.head?, c = '\n' := by
  obtain ⟨_, _, _, _, _, hstop⟩ := h
  obtain ⟨before, tail, rest, hb, hs, hends⟩ :=
    MarkerStyle.exists_lineEnd_of_mem_markersFrom (List.mem_filter.mp hm).1
  refine ⟨tail, rest, ?_, hends⟩
  rw [hstop, Marker.stop, hs, Nat.zero_add, ← List.length_append, hb, ← List.append_assoc,
    List.drop_left]

lemma InlineReplacement.keeps (hs : rules.style.StartsWith d) {m : Marker} {r : Replacement}
    (hm : m ∈ rules.style.inlineMarkers body) (h : InlineReplacement s rules root body m r)
    (hblank : ∀ c ∈ r.text.takeWhile (· ≠ '\n'), isLineTail c = true) (t : Text) :
    (rules.style.solidWholeFiles (t ++ (body.slice r.start r.stop ++ body.drop r.stop))).Sublist
      (rules.style.solidWholeFiles (t ++ (r.text ++ body.drop r.stop))) := by
  obtain ⟨blanks, hslice, hspacing, hends⟩ := h.slice_eq hm
  obtain ⟨tail, rest, hdrop, htail, hrest⟩ := h.lineEnd hm
  obtain ⟨_, _, hparts, _⟩ := h
  have hsolid := hends.isSolid (MarkerStyle.two_le_length_of_inlineParts hparts)
  have hinline : rules.style.kindOf m.resource = .inline := by
    obtain ⟨_, _, _, _, _, hkind, _⟩ :=
      MarkerStyle.exists_of_mem_markersFrom (List.mem_filter.mp hm).1
    rw [← hkind]
    simpa using (List.mem_filter.mp hm).2
  obtain ⟨after, htext, _, hafter⟩ := Text.exists_takeWhile_append r.text
  generalize r.text.takeWhile (· ≠ '\n') = first at htext hblank
  rw [hslice, hdrop, htext, ← List.append_assoc t (_ ++ _) (tail ++ rest),
    ← List.append_assoc t (_ ++ _) (tail ++ rest),
    MarkerStyle.solidWholeFiles_append_of_lineEnd hs _ htail hrest,
    MarkerStyle.solidWholeFiles_append_of_lineEnd hs _ htail hrest,
    MarkerStyle.solidWholeFiles_append_of_lineEnd hs _ hblank hafter]
  refine List.Sublist.append_right ?_ _
  exact (MarkerStyle.solidWholeFiles_append_inline hs t hspacing hends.one_line hsolid hinline).trans
    (List.sublist_append_left _ _)

/-- The inline pass keeps the solid whole-file resources of its body if the texts that it puts in start
with the blank rest of a line. -/
theorem sublist_solidWholeFiles_inlines (hs : rules.style.StartsWith d)
    (hblank : ∀ i ∈ inline, ∀ name ∈ i.sections, ∀ text,
      rules.allowed.section? (s.text i.path) name = some text →
        ∀ c ∈ text.takeWhile (· ≠ '\n'), isLineTail c = true)
    (hi : Gives (inlines s.access rules root body) u (content, inline) u') :
    (rules.style.solidWholeFiles body).Sublist (rules.style.solidWholeFiles content) := by
  obtain ⟨replacements, hr, himports, rfl, _⟩ := gives_inlines hi
  obtain ⟨hin, hp⟩ := spans_of_replacements hr
  have hin₀ : ∀ r ∈ replacements, 0 ≤ r.start ∧ r.start ≤ r.stop ∧ r.stop ≤ body.length :=
    fun r h' => ⟨Nat.zero_le _, hin r h'⟩
  rw [replaceAll_eq_weave hin₀ hp]
  refine sublist_weave hin₀ hp (fun r hr' => ?_) []
  obtain ⟨m, hm, hmr⟩ := exists_of_mem_forall₂ hr hr'
  obtain ⟨i, hi', path', name', hparts', _, rfl⟩ := exists_of_mem_forall₂ himports.flip hm
  refine hmr.keeps hs hm ?_
  obtain ⟨path, name, hparts, htext, _⟩ := hmr
  obtain ⟨rfl, rfl⟩ : path' = path ∧ name' = name := by simpa using hparts'.symm.trans hparts
  exact hblank _ hi' name' List.mem_cons_self _ htext

/-- A whole-file resource that is followed is solid. -/
lemma Refers.isSolid {m : Marker} (hm : m ∈ rules.style.wholeFileMarkers root.body)
    (h : Refers s root m) : isSolid m.resource = true := by
  obtain ⟨_, _, _, _, _, _, hends, _⟩ :=
    MarkerStyle.exists_of_mem_markersFrom (List.mem_filter.mp hm).1
  by_cases hl : 2 ≤ m.resource.length
  · exact hends.isSolid hl
  · -- A single character is a resource that refers to something only if it is no blank.
    obtain ⟨c, hc⟩ := List.length_eq_one_iff.mp (show m.resource.length = 1 by
      have := List.length_pos_iff.mpr hends.ne_nil
      omega)
    obtain ⟨e, he, hn⟩ := Text.exists_of_strip_ne_nil h.1
    rw [hc] at he ⊢
    obtain rfl : e = c := by simpa using he
    exact isSolid_iff.mpr ⟨e, rfl, by_contra fun htail => by
      simp [isBlank_of_isLineTail (by simpa using htail)] at hn⟩

/-- All whole-file resources of a root are solid if they are followed. -/
lemma wholeFileResources_eq_solidWholeFiles
    (h : ∀ m ∈ rules.style.wholeFileMarkers root.body, Refers s root m) :
    rules.style.wholeFileResources root.body = rules.style.solidWholeFiles root.body := by
  have hsolid : ∀ z ∈ rules.style.wholeFileResources root.body, isSolid z = true := by
    intro z hz
    obtain ⟨m, hm, rfl⟩ := List.mem_map.mp hz
    exact (h m hm).isSolid hm
  rw [← List.filter_eq_self.mpr hsolid, MarkerStyle.wholeFileResources_eq_filter,
    MarkerStyle.solidWholeFiles, MarkerStyle.solidResources, List.filter_comm]

end Merge

/-- Whole-file markers stay in the output, in order: where markers start with a single delimiter, and
with something that no section name holds, or where every text that a whole template adds ends its last
line; and where each section that comes in place of an inline marker starts with the blank rest of its
header's line. -/
theorem merge_keeps_wholeFileResources (s : Shelf) (rules : Rules) (before : Stage)
    (name : TemplateName) (d : Char) (t t' : Trail) (result : Merged)
    (hs : rules.style.StartsWith d) (hc : rules.allowed.Clear d)
    (hwhole : rules.Guarded d ∨ ∀ i ∈ result.imports, i.kind = .wholeFile →
      ∀ c ∈ rules.allowed.contributions (s.text i.path), Text.opensLine true c.2 = true)
    (hinline : ∀ i ∈ result.imports, i.kind = .inline → ∀ name ∈ i.sections, ∀ text,
      rules.allowed.section? (s.text i.path) name = some text →
        ∀ c ∈ text.takeWhile (· ≠ '\n'), isLineTail c = true)
    (h : (merge s.access rules before name).run t = (.ok result, t')) :
    (rules.style.wholeFileResources (s.text name.normal)).Sublist
      (rules.style.wholeFileResources result.content) := by
  obtain ⟨body, whole, inline, _, _, _, _, hw, hi, _, himports, _⟩ := Merge.run_merge h
  obtain ⟨hwholeImports, _, _, hrefers⟩ := Merge.gives_wholeFilePass hw
  obtain ⟨_, _, hinlineImports, _⟩ := Merge.gives_inlines hi
  rw [himports] at hwhole hinline
  have hk : rules.Guarded d ∨ ∀ c ∈ (Merge.documents s ⟨s.text name.normal, name.normal⟩
      (rules.style.wholeFileMarkers (s.text name.normal))).flatMap rules.allowed.contributions,
      Text.opensLine true c.2 = true := by
    refine hwhole.imp_right fun hopens c hcs => ?_
    obtain ⟨document, hd, hcd⟩ := List.mem_flatMap.mp hcs
    obtain ⟨marker, hm, rfl⟩ := List.mem_map.mp hd
    refine hopens (Merge.wholeImport s rules _ marker) (List.mem_append_left inline ?_) rfl c hcd
    rw [hwholeImports]
    exact List.mem_map_of_mem hm
  have hblank : ∀ i ∈ inline, ∀ name ∈ i.sections, ∀ text,
      rules.allowed.section? (s.text i.path) name = some text →
        ∀ c ∈ text.takeWhile (· ≠ '\n'), isLineTail c = true := fun i himport => by
    obtain ⟨_, _, hmi⟩ := Merge.exists_of_mem_forall₂ hinlineImports himport
    exact hinline i (List.mem_append_right whole himport) hmi.kind
  have hroot := Merge.wholeFileResources_eq_solidWholeFiles hrefers
  have hbody : (rules.style.solidWholeFiles (s.text name.normal)).Sublist
      (rules.style.solidWholeFiles body) := (Merge.sublist_solidResources hs hc hk hw hi).filter _
  have hcontent := Merge.sublist_solidWholeFiles_inlines hs hblank hi
  have hout : (rules.style.solidWholeFiles result.content).Sublist
      (rules.style.wholeFileResources result.content) := by
    rw [MarkerStyle.solidWholeFiles, MarkerStyle.wholeFileResources_eq_filter]
    exact List.filter_sublist.filter _
  exact hroot ▸ (hbody.trans hcontent).trans hout

lemma guarded_standard : Rules.standard.Guarded '#' where
  delimiter := rfl
  foreign := ⟨'@', by decide, by decide, by decide +kernel⟩

/-- A template with an inline marker in the line after a whole-file marker, and the text of its
section. -/
def Shelf.adjacent (text : Text) : Shelf :=
  .ofList [("/a".toList, "# @import b\n# @import c#Resources\n".toList), ("/b".toList, []),
    ("/c".toList, "Resources:".toList ++ text)]

/-- What comes of that template. -/
def Merged.adjacent (content : Text) : Merged where
  content := content
  root := .ofText "/a".toList
  imports := [⟨.wholeFile, "b".toList, .ofText "/b".toList, []⟩,
    ⟨.inline, "c#Resources".toList, .ofText "/c".toList, ["Resources".toList]⟩]

theorem merge_adjacent_keeps_wholeFileResources :
    ∃ t, (merge (Shelf.adjacent "\n  A: 1\n".toList).access Rules.standard .init
        (.text "/a".toList)).run .empty =
          (.ok (.adjacent "# @import b\n  A: 1\n\n".toList), t) ∧
      ["b".toList].Sublist
        (Rules.standard.style.wholeFileResources "# @import b\n  A: 1\n\n".toList) := by
  obtain ⟨t, h⟩ := Merge.run_of_toOption (t := .empty)
    (x := merge (Shelf.adjacent "\n  A: 1\n".toList).access Rules.standard .init (.text "/a".toList))
    (a := .adjacent "# @import b\n  A: 1\n\n".toList) (by decide +kernel)
  have htext : Rules.standard.allowed.section? ((Shelf.adjacent "\n  A: 1\n".toList).text
      (.ofText "/c".toList)) "Resources".toList = some "\n  A: 1\n".toList := by decide +kernel
  refine ⟨t, h, ?_⟩
  refine merge_keeps_wholeFileResources (Shelf.adjacent "\n  A: 1\n".toList) Rules.standard .init
    (.text "/a".toList) '#' .empty t _ startsWith_standard clear_standard (.inl guarded_standard)
    (fun i hi hk name hn text ht => ?_) h
  obtain rfl | rfl : i = _ ∨ i = _ := by simpa [Merged.adjacent] using hi
  · cases hk
  · obtain rfl := List.mem_singleton.mp hn
    obtain rfl := Option.some.inj (htext.symm.trans ht)
    simp

/-- Where the text of a section starts in its header's line, that line goes on the line of the marker
before. -/
theorem not_wholeFileResources_kept :
    ¬ ∀ (s : Shelf) (before : Stage) (name : TemplateName) (t t' : Trail) (result : Merged),
      (merge s.access Rules.standard before name).run t = (.ok result, t') →
      (Rules.standard.style.wholeFileResources (s.text name.normal)).Sublist
        (Rules.standard.style.wholeFileResources result.content) := by
  intro h
  obtain ⟨t, hm⟩ := Merge.run_of_toOption (t := .empty)
    (x := merge (Shelf.adjacent " foo\n".toList).access Rules.standard .init (.text "/a".toList))
    (a := .adjacent "# @import b foo\n\n".toList) (by decide +kernel)
  have hkept := h _ _ _ _ _ _ hm
  revert hkept
  decide +kernel

end TemplateSplice
