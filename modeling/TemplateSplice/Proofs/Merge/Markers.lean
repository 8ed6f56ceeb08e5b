import TemplateSplice.Proofs.Marker.Seam
import TemplateSplice.Proofs.Merge.Fault

/-! What the whole-file pass does to the markers of its root. Text that comes in ends where the rest of
a header's line goes on. If it ends its own last line, all markers stay what they are; if it does not,
a marker there takes in what follows it. -/
namespace TemplateSplice

namespace MarkerStyle

variable {style : MarkerStyle} {d : Char}

/-- The resources of the inline markers of a body, in order. -/
def inlineResources (style : MarkerStyle) (body : Text) : List Text :=
  (style.inlineMarkers body).map Marker.resource

lemma inlineResources_eq_filter (body : Text) : style.inlineResources body =
    (style.resources body).filter (style.kindOf · = .inline) := by
  unfold inlineResources inlineMarkers resources
  rw [List.filter_map]
  refine congrArg (List.map Marker.resource) (List.filter_congr fun m hm => ?_)
  obtain ⟨_, _, _, _, _, hk, _⟩ := exists_of_mem_markersFrom hm
  rw [Function.comp_apply, hk]

end MarkerStyle

namespace AllowList

variable {allowed : AllowList} {style : MarkerStyle} {d : Char}

/-- No header holds the character that markers start with. -/
def Clear (allowed : AllowList) (d : Char) : Prop :=
  ∀ name ∈ allowed.names, d ∉ headerText name

lemma resources_append_lineEnd (h : style.StartsWith d) (t : Text) :
    style.resources (t ++ t.lineEnd true) = style.resources t := by
  unfold Text.lineEnd
  split_ifs
  · rw [List.append_nil]
  · simpa using MarkerStyle.resources_append_newline h t []

/-- A bare header adds no marker. -/
lemma resources_withHeader (allowed : AllowList) (h : style.StartsWith d) (body : Text) {name : Text}
    (hn : d ∉ headerText name) :
    style.resources (allowed.withHeader body name) = style.resources body := by
  by_cases hm : name ∈ allowed.sections body
  · rw [withHeader_of_mem hm]
  · rw [withHeader_of_not_mem hm,
      MarkerStyle.resources_append_of_opensLine h (Text.opensLine_append_lineEnd true body),
      resources_append_lineEnd h, MarkerStyle.resources_of_not_mem h hn, List.append_nil]

/-- An insertion changes the markers of one part of the body, which the inserted text comes in front
of. -/
lemma exists_resources_of_insert? (h : style.StartsWith d) (hc : allowed.Clear d)
    {body name contents body' : Text} (hi : allowed.insert? body name contents = some body') :
    ∃ (kept : List Text) (rest : Text), style.resources body = kept ++ style.resources rest ∧
      style.resources body' = kept ++ style.resources (contents ++ rest) := by
  obtain ⟨before, rest, hb, rfl, hopens, hname⟩ := exists_of_insert? hi
  have hn := hc name hname
  refine ⟨style.resources before, rest, ?_, ?_⟩
  · rw [← resources_withHeader allowed h body hn, hb,
      MarkerStyle.resources_append_of_opensLine h hopens, MarkerStyle.resources_append_of_not_mem h hn]
  · rw [MarkerStyle.resources_append_of_opensLine h hopens,
      MarkerStyle.resources_append_of_not_mem h hn]

/-- Texts that end their lines bring in their own markers and change no other. -/
lemma perm_resources_of_insertAll? (h : style.StartsWith d) (hc : allowed.Clear d)
    {body body' : Text} {cs : List (Text × Text)}
    (hopens : ∀ c ∈ cs, Text.opensLine true c.2 = true)
    (hi : allowed.insertAll? body cs = some body') :
    (style.resources body').Perm (style.resources body ++ cs.flatMap fun c => style.resources c.2) := by
  induction cs generalizing body with
  | nil =>
    cases hi
    simp
  | cons c cs ih =>
    rw [Merge.insertAll?_cons] at hi
    obtain ⟨body₁, h₁, hi⟩ := Option.bind_eq_some_iff.mp hi
    obtain ⟨kept, rest, hbody, hbody₁⟩ := exists_resources_of_insert? h hc h₁
    rw [MarkerStyle.resources_append_of_opensLine h (hopens c List.mem_cons_self)] at hbody₁
    refine (ih (fun c' hc' => hopens c' (List.mem_cons_of_mem c hc')) hi).trans ?_
    rw [List.flatMap_cons, ← List.append_assoc, hbody, hbody₁, ← List.append_assoc kept]
    refine List.Perm.append_right _ ?_
    rw [List.append_assoc, List.append_assoc]
    exact List.perm_append_comm.append_left kept

/-- Whatever is inserted, the inline markers of a body are still there, unless a resource then holds
two delimiters. -/
lemma sublist_resources_of_insertAll? (h : style.StartsWith d) (hc : allowed.Clear d)
    {body body' : Text} {cs : List (Text × Text)} (hi : allowed.insertAll? body cs = some body') :
    ((style.resources body).filter (d ∈ ·)).Sublist ((style.resources body').filter (d ∈ ·)) ∨
      ∃ z ∈ style.resources body', 2 ≤ z.count d := by
  induction cs generalizing body with
  | nil =>
    cases hi
    exact .inl (List.Sublist.refl _)
  | cons c cs ih =>
    rw [Merge.insertAll?_cons] at hi
    obtain ⟨body₁, h₁, hi⟩ := Option.bind_eq_some_iff.mp hi
    obtain ⟨kept, rest, hbody, hbody₁⟩ := exists_resources_of_insert? h hc h₁
    rcases ih hi with hsub | hpoison
    · rcases MarkerStyle.sublist_resources_append h c.2 rest with hsub₁ | ⟨z, hz, hcount⟩
      · refine .inl (List.Sublist.trans ?_ hsub)
        rw [hbody, hbody₁, List.filter_append, List.filter_append]
        exact hsub₁.append_left _
      · -- Two delimiters make an inline marker, which the later insertions keep.
        have hm : z ∈ (style.resources body₁).filter (d ∈ ·) := by
          rw [hbody₁, List.mem_filter]
          exact ⟨List.mem_append_right _ hz,
            by simpa using List.count_pos_iff.mp (Nat.lt_of_lt_of_le Nat.zero_lt_two hcount)⟩
        exact .inr ⟨z, (List.mem_filter.mp (hsub.mem hm)).1, hcount⟩
    · exact .inr hpoison

lemma opensLine_of_mem_contributions {document : Text} (h : Text.opensLine true document = true)
    {c : Text × Text} (hc : c ∈ allowed.contributions document) : Text.opensLine true c.2 = true := by
  obtain ⟨name, hn, rfl⟩ := List.mem_map.mp hc
  obtain ⟨t, ht⟩ := Option.isSome_iff_exists.mp (isSome_section?_iff.mpr hn)
  rw [ht]
  rw [section?_eq_lookup] at ht
  have hopens := (opensLine_layoutFrom h).2 _ (mem_of_lookup ht)
  have hne : t ≠ [] := by
    rintro rfl
    simp at hopens
  rwa [Text.opensLine_of_ne_nil hne false true] at hopens

end AllowList

namespace Merge

variable {s : Shelf} {rules : Rules} {d : Char} {root : Template} {body content : Text}
  {whole inline : List AppliedImport} {t t' u u' : Trail}

/-- In a merge that succeeds all inline markers of the root are followed: none of them ends up in the
resource of another one, since that would hold two delimiters. -/
theorem sublist_inlineResources (hs : rules.style.StartsWith d) (hd : rules.style.delimiter = [d])
    (hc : rules.allowed.Clear d)
    (hw : Gives (wholeFiles s.access rules root) t (body, whole) t')
    (hi : Gives (inlines s.access rules root body) u (content, inline) u') :
    (rules.style.inlineResources root.body).Sublist (rules.style.inlineResources body) := by
  have hinline : ∀ t : Text, rules.style.inlineResources t =
      (rules.style.resources t).filter (d ∈ ·) := fun t => by
    rw [MarkerStyle.inlineResources_eq_filter]
    exact List.filter_congr fun z _ => decide_eq_decide.mpr (MarkerStyle.kindOf_eq_inline_iff hd)
  rw [hinline, hinline]
  refine (AllowList.sublist_resources_of_insertAll? hs hc
    (insertAll?_of_wholeFilePass hw)).resolve_right ?_
  rintro ⟨z, hz, hcount⟩
  have hm : z ∈ rules.style.inlineResources body := by
    rw [hinline, List.mem_filter]
    exact ⟨hz, by simpa using List.count_pos_iff.mp (Nat.lt_of_lt_of_le Nat.zero_lt_two hcount)⟩
  obtain ⟨marker, hmarker, rfl⟩ := List.mem_map.mp hm
  obtain ⟨_, _, himports, _⟩ := gives_inlines hi
  obtain ⟨i, himport⟩ := exists_of_mem_left himports marker hmarker
  obtain ⟨_, _, hparts, _⟩ := himport.follows hd
  rw [hparts.count] at hcount
  exact absurd hcount (by decide)

end Merge

/-- Where every text that comes in ends its last line, or is empty, the whole-file pass leaves all
markers what they are: the inline references of the body are those of the root and those of the texts
that came in, each as it is on its own; and a whole-file reference that came in is none of them. -/
theorem wholeFiles_inline_resources (s : Shelf) (rules : Rules) (d : Char) (root : Template)
    (body : Text) (imports : List AppliedImport) (t t' : Trail) (hs : rules.style.StartsWith d)
    (hc : rules.allowed.Clear d)
    (hopens : ∀ c ∈ (Merge.documents s root (rules.style.wholeFileMarkers root.body)).flatMap
      rules.allowed.contributions, Text.opensLine true c.2 = true)
    (h : Merge.Gives (Merge.wholeFiles s.access rules root) t (body, imports) t') :
    (rules.style.inlineResources body).Perm
      (rules.style.inlineResources root.body ++
        ((Merge.documents s root (rules.style.wholeFileMarkers root.body)).flatMap
          rules.allowed.contributions).flatMap fun c => rules.style.inlineResources c.2) := by
  have hp := (AllowList.perm_resources_of_insertAll? hs hc hopens
    (Merge.insertAll?_of_wholeFilePass h)).filter (rules.style.kindOf · = .inline)
  rw [List.filter_append, List.filter_flatMap] at hp
  simpa only [MarkerStyle.inlineResources_eq_filter] using hp

lemma startsWith_standard : Rules.standard.style.StartsWith '#' where
  head := rfl
  only := by decide
  one_line := by decide
  solid := by decide

lemma clear_standard : Rules.standard.allowed.Clear '#' := by
  unfold AllowList.Clear
  decide +kernel

/-- A template with a comment after a header, and one that brings a whole-file marker under that header
and ends in some text. -/
def Shelf.carrying (ending : Text) : Shelf :=
  .ofList [("/a".toList, "# @import b\nResources: # list\n".toList),
    ("/b".toList, "Resources:\n# @import c".toList ++ ending)]

/-- The template with a comment after a header. -/
def Template.carrying : Template := ⟨"# @import b\nResources: # list\n".toList, .ofText "/a".toList⟩

lemma wholeFiles_carrying (ending : Text) (h : ending = [] ∨ ending = ['\n']) :
    ∃ t', Merge.Gives
      (Merge.wholeFiles (Shelf.carrying ending).access Rules.standard .carrying) .empty
      ("# @import b\nResources:\n# @import c".toList ++ ending ++ " # list\n".toList,
        [⟨.wholeFile, "b".toList, .ofText "/b".toList, ["Resources".toList]⟩]) t' := by
  rcases h with rfl | rfl
  · exact Merge.exists_gives_of_toOption (by decide +kernel)
  · exact Merge.exists_gives_of_toOption (by decide +kernel)

theorem wholeFiles_carrying_inline_resources :
    ∃ body imports t',
      Merge.Gives (Merge.wholeFiles (Shelf.carrying ['\n']).access Rules.standard .carrying) .empty
        (body, imports) t' ∧
      Rules.standard.style.inlineResources body = [] := by
  obtain ⟨t', h⟩ := wholeFiles_carrying ['\n'] (.inr rfl)
  have hopens : ∀ document ∈ Merge.documents (Shelf.carrying ['\n']) .carrying
      (Rules.standard.style.wholeFileMarkers Template.carrying.body),
      Text.opensLine true document = true := by decide +kernel
  have hp := wholeFiles_inline_resources (Shelf.carrying ['\n']) Rules.standard '#' .carrying _ _
    .empty t' startsWith_standard clear_standard (fun c hc => by
      obtain ⟨document, hd, hc⟩ := List.mem_flatMap.mp hc
      exact AllowList.opensLine_of_mem_contributions (hopens document hd) hc) h
  refine ⟨_, _, t', h, List.perm_nil.mp (hp.trans (List.Perm.of_eq ?_))⟩
  decide +kernel

/-- A whole-file marker that comes in on an open line turns into an inline one if the rest of the
header's line holds a delimiter. -/
theorem not_inline_resources_of_open_line :
    ¬ ∀ (s : Shelf) (rules : Rules) (root : Template) (body : Text) (imports : List AppliedImport)
      (t t' : Trail), rules.style = Settings.Template.default.style → rules.allowed.LetterDigit →
      Merge.Gives (Merge.wholeFiles s.access rules root) t (body, imports) t' →
      (rules.style.inlineResources body).Perm
        (rules.style.inlineResources root.body ++
          ((Merge.documents s root (rules.style.wholeFileMarkers root.body)).flatMap
            rules.allowed.contributions).flatMap fun c => rules.style.inlineResources c.2) := by
  intro h
  obtain ⟨t', hg⟩ := wholeFiles_carrying [] (.inl rfl)
  have hp := (h _ _ _ _ _ _ _ rfl (by decide +kernel) hg).length_eq
  revert hp
  decide +kernel

end TemplateSplice
