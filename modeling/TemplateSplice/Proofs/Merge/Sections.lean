import TemplateSplice.Proofs.Merge.Splice
import TemplateSplice.Proofs.Merge.WholeFile

/-! The headers of a merged template. Insertion adds those of new sections at the end; a replacement
puts a text that holds no header in place of a marker, and no header runs over any of the seams. -/
namespace TemplateSplice

lemma not_isHeaderChar_of_isSpacing {c : Char} (h : isSpacing c = true) :
    isHeaderChar c = false := by
  simp only [isSpacing, isLineTail, Bool.or_eq_true, beq_iff_eq] at h
  rcases h with ((rfl | rfl) | rfl) | rfl <;> rfl

namespace Merge

variable {s : Shelf} {rules : Rules} {root : Template} {allowed : AllowList} {body : Text}

/-- A replacement that changes no header of a body: what it takes out and what it puts in hold none,
and both what it puts in and what follows stand apart from what comes before. -/
structure Quiet (allowed : AllowList) (body : Text) (r : Replacement) : Prop where
  taken : ∀ t, allowed.scan true (t ++ body.slice r.start r.stop) = allowed.scan true t
  apart : r.text.Detached
  put : allowed.scan false r.text = []
  rest : Text.Detached (body.drop r.stop)

/-- Quiet replacements keep the headers of a body, and those of any text in front of it. -/
theorem scan_weave (hl : allowed.LetterDigit) {p : Nat} {rs : List Replacement}
    (hin : ∀ r ∈ rs, p ≤ r.start ∧ r.start ≤ r.stop ∧ r.stop ≤ body.length)
    (hr : rs.Pairwise fun r r' => r.stop ≤ r'.start) (hq : ∀ r ∈ rs, Quiet allowed body r)
    (t : Text) :
    allowed.scan true (t ++ weave body p rs) = allowed.scan true (t ++ body.drop p) := by
  induction rs generalizing p t with
  | nil => rfl
  | cons r rs ih =>
    -- The text in front grows by what is already woven, up to and with the first replacement.
    obtain ⟨hp, hs, hb⟩ := hin r List.mem_cons_self
    obtain ⟨hstop, hr⟩ := List.pairwise_cons.mp hr
    have hquiet := hq r List.mem_cons_self
    have hrest := ih (p := r.stop)
      (fun r' h' => ⟨hstop r' h', (hin r' (List.mem_cons_of_mem r h')).2⟩) hr
      (fun r' h' => hq r' (List.mem_cons_of_mem r h'))
    calc allowed.scan true (t ++ weave body p (r :: rs))
        = allowed.scan true (t ++ body.slice p r.start ++ r.text ++ weave body r.stop rs) := by
          simp only [weave, List.append_assoc]
      _ = allowed.scan true (t ++ body.slice p r.start ++ r.text ++ body.drop r.stop) := hrest _
      _ = allowed.scan true (t ++ body.slice p r.start) ++
            allowed.scan false (body.drop r.stop) := by
          rw [allowed.scan_append_of_detached hl true _ hquiet.rest,
            allowed.scan_append_of_detached hl true _ hquiet.apart, hquiet.put, List.append_nil]
      _ = allowed.scan true
            (t ++ body.slice p r.start ++ body.slice r.start r.stop ++ body.drop r.stop) := by
          rw [allowed.scan_append_of_detached hl true _ hquiet.rest, hquiet.taken]
      _ = allowed.scan true (t ++ body.drop p) := by
          rw [← slice_append_slice_append_drop body hp hs]
          simp only [List.append_assoc]

/-- What a marker gives up is blanks and then the marker, and the rest of its line is blank. -/
lemma InlineReplacement.slice_eq {m : Marker} {r : Replacement}
    (hm : m ∈ rules.style.inlineMarkers body) (h : InlineReplacement s rules root body m r) :
    ∃ blanks, body.slice r.start r.stop = blanks ++ (rules.style.opening ++ m.resource) ∧
      (∀ c ∈ blanks, isSpacing c = true) ∧ ResourceEnds m.resource (body.drop r.stop) := by
  obtain ⟨hspan, _, hstop, _⟩ := h.bounds hm
  obtain ⟨before, blanks, after, hb, ha, hp, hblank⟩ := hspan.exists_blanks
  obtain ⟨before', rest, hb', hs, ht, hr⟩ := MarkerStyle.exists_of_mem_inlineMarkers hm
  obtain rfl : before ++ blanks = before' :=
    List.append_inj_left (hb.symm.trans hb') (hp.symm.trans hs)
  have hl : r.stop = (before ++ (blanks ++ m.text)).length := by
    rw [hstop, Marker.stop, hs]
    simp [Nat.add_assoc]
  have hb'' : body = before ++ (blanks ++ m.text) ++ rest := by simpa using hb'
  refine ⟨blanks, ?_, hblank, ?_⟩
  · rw [Text.slice, hl, hb'', List.take_left, ha, List.drop_left, ht]
  · rwa [hl, hb'', List.drop_left]

/-- The replacement of an inline marker is quiet if its token holds no colon and its text comes from
a well-spaced template. -/
lemma InlineReplacement.quiet (hl : rules.allowed.LetterDigit) (htoken : ':' ∉ rules.style.token)
    {m : Marker} {r : Replacement} (hm : m ∈ rules.style.inlineMarkers body)
    (h : InlineReplacement s rules root body m r)
    (hd : ∀ path name, rules.style.inlineParts m.resource = .ok (path, name) →
      rules.allowed.Spaced isSpacing (s.text (root.target path))) :
    Quiet rules.allowed body r := by
  obtain ⟨blanks, hslice, hblank, hends⟩ := h.slice_eq hm
  obtain ⟨path, name, hparts, htext, _, _⟩ := h
  have hc : ':' ∉ blanks ++ rules.style.token := by
    rw [List.mem_append, not_or]
    exact ⟨fun hc => absurd (hblank ':' hc) (by decide), htoken⟩
  have hchain := (hd path name hparts).chain fun _ => not_isHeaderChar_of_isSpacing
  rw [AllowList.section?_eq_lookup] at htext
  obtain ⟨_, hapart, hput⟩ := hchain.of_mem (AllowList.mem_of_lookup htext)
  refine ⟨fun t => ?_, hapart, hput, fun c hc => not_isHeaderChar_of_isSpacing (hends.spaced c hc)⟩
  -- The blanks and the token complete no header, and after the token the line only goes on.
  have he : t ++ body.slice r.start r.stop =
      t ++ (blanks ++ rules.style.token) ++ (' ' :: m.resource) := by
    rw [hslice, MarkerStyle.opening]
    simp
  rw [he, rules.allowed.scan_append_of_detached hl true _ (by simp [isHeaderChar]),
    rules.allowed.scan_append_of_no_colon true t hc, rules.allowed.scan_of_no_newline,
    List.append_nil]
  simpa using hends.one_line

/-- The inline pass keeps the headers of a body. -/
theorem sections_inlines (hl : rules.allowed.LetterDigit) (htoken : ':' ∉ rules.style.token)
    {content : Text} {imports : List AppliedImport} {t t' : Trail}
    (hd : ∀ i ∈ imports, rules.allowed.Spaced isSpacing (s.text i.path))
    (h : Gives (inlines s.access rules root body) t (content, imports) t') :
    rules.allowed.sections content = rules.allowed.sections body := by
  obtain ⟨replacements, hr, hi, rfl, _⟩ := gives_inlines h
  obtain ⟨hin, hp⟩ := spans_of_replacements hr
  have hin₀ : ∀ r ∈ replacements, 0 ≤ r.start ∧ r.start ≤ r.stop ∧ r.stop ≤ body.length :=
    fun r h' => ⟨Nat.zero_le _, hin r h'⟩
  have hquiet : ∀ r ∈ replacements, Quiet rules.allowed body r := by
    intro r hr'
    obtain ⟨m, hm, hmr⟩ := exists_of_mem_forall₂ hr hr'
    obtain ⟨i, hi', path', name', hparts', _, rfl⟩ := exists_of_mem_forall₂ hi.flip hm
    refine hmr.quiet hl htoken hm fun path name hparts => ?_
    obtain ⟨rfl, rfl⟩ : path' = path ∧ name' = name := by simpa using hparts'.symm.trans hparts
    exact hd _ hi'
  rw [replaceAll_eq_weave hin₀ hp, AllowList.sections_eq_scan, AllowList.sections_eq_scan]
  exact scan_weave hl hin₀ hp hquiet []

/-- The whole-file pass adds the new headers of its documents at the end. -/
theorem sections_wholeFilePass (hl : rules.allowed.LetterDigit) {p : Char → Bool}
    (hp : ∀ c, p c = true → isHeaderChar c = false) {body' : Text} {markers : List Marker}
    {imports : List AppliedImport} {t t' : Trail} (hb : rules.allowed.Spaced p body)
    (hd : ∀ i ∈ imports, rules.allowed.Spaced p (s.text i.path))
    (h : Gives (wholeFilePass s.access rules root body markers) t (body', imports) t') :
    rules.allowed.sections body' = rules.allowed.sections body ++
      ((imports.flatMap fun i => rules.allowed.sections (s.text i.path)).filter
        (· ∉ rules.allowed.sections body)).eraseDups := by
  have hdocs : documents s root markers = imports.map fun i => s.text i.path := by
    rw [(gives_wholeFilePass h).1, List.map_map]
    rfl
  obtain ⟨hlayout, _⟩ := layout_of_wholeFilePass hl hp hb (by simpa [hdocs] using hd) h
  have hincoming : ((documents s root markers).flatMap rules.allowed.contributions).map Prod.fst =
      imports.flatMap fun i => rules.allowed.sections (s.text i.path) := by
    rw [hdocs, List.map_flatMap, List.flatMap_map]
    simp
  rw [AllowList.sections_eq_layout body', hlayout, Layout.names_insertAll, hincoming,
    AllowList.sections_eq_layout body]

end Merge

/-- The sections of a merge, for letter-digit names and a token without a colon, where the root and
all templates that it imports are well-spaced: those of the root, and then each new one of the
whole-file imports, once and in the order in which they first come. Neither an insertion nor a
replacement makes, drops or moves any other header. -/
theorem merge_sections (s : Shelf) (rules : Rules) (before : Stage) (name : TemplateName)
    (t t' : Trail) (result : Merged) (hl : rules.allowed.LetterDigit)
    (htoken : ':' ∉ rules.style.token)
    (hroot : rules.allowed.Spaced isSpacing (s.text name.normal))
    (hd : ∀ i ∈ result.imports, rules.allowed.Spaced isSpacing (s.text i.path))
    (h : (merge s.access rules before name).run t = (.ok result, t')) :
    let old := rules.allowed.sections (s.text name.normal)
    let incoming := (result.imports.filter (·.kind = .wholeFile)).flatMap fun i =>
      rules.allowed.sections (s.text i.path)
    rules.allowed.sections result.content = old ++ (incoming.filter (· ∉ old)).eraseDups := by
  obtain ⟨body, whole, inline, _, _, _, _, hw, hi, _, himports, _⟩ := Merge.run_merge h
  obtain ⟨hwhole, _⟩ := Merge.gives_wholeFilePass hw
  obtain ⟨_, _, hinline, _⟩ := Merge.gives_inlines hi
  rw [himports] at hd ⊢
  have hfilter : (whole ++ inline).filter (·.kind = .wholeFile) = whole := by
    rw [hwhole]
    exact Merge.filter_wholeFile hinline
  intro old incoming
  rw [Merge.sections_inlines hl htoken (fun i hi' => hd i (List.mem_append_right whole hi')) hi,
    Merge.sections_wholeFilePass hl (fun _ => not_isHeaderChar_of_isSpacing) hroot
      (fun i hi' => hd i (List.mem_append_left inline hi')) hw]
  simp only [incoming, hfilter, old]

theorem merge_sample_sections :
    ∃ t, (merge Shelf.sample.access Rules.sample .init (.text "/a".toList)).run .empty =
        (.ok Merged.sample, t) ∧
      Rules.sample.allowed.sections Merged.sample.content =
        ["R".toList, "P".toList, "Q".toList] := by
  obtain ⟨t, h⟩ := merge_sample
  have hs := merge_sections Shelf.sample Rules.sample .init (.text "/a".toList) .empty t .sample
    letterDigit_sample (by decide +kernel) (by decide +kernel) (by decide +kernel) h
  exact ⟨t, h, hs.trans (by decide +kernel)⟩

end TemplateSplice
