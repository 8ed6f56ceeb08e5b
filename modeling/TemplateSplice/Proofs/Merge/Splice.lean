import TemplateSplice.Proofs.Marker.Scan
import TemplateSplice.Proofs.Merge.Steps
import TemplateSplice.Proofs.Section.Scan

/-! The inline pass as one substitution. The spans that the inline markers of a body give up lie in
order and apart, so replacing them from the last to the first is the same as writing down the parts
between them with the new texts in between. -/
namespace TemplateSplice

/-- The rest of a body from a position on, with every replacement in the place of its span. -/
def Merge.weave (body : Text) : Nat → List Replacement → Text
  | p, [] => body.drop p
  | p, r :: rs => body.slice p r.start ++ r.text ++ weave body r.stop rs

/-- Where the span of a marker at a position starts: at the marker, or, where only indentation
stands before it on its line, at the line break before or at the start of the body. -/
inductive Merge.SpanStart (body : Text) (position : Nat) : Nat → Prop
  | marker {before line after : Text} (here : body = before ++ line ++ after)
      (at_line : position = (before ++ line).length) (opens : Text.opensLine true before = true)
      (one_line : '\n' ∉ line) (mixed : ∃ c ∈ line, isIndent c = false) :
      SpanStart body position position
  | first {indent after : Text} (here : body = indent ++ after)
      (at_line : position = indent.length) (blank : ∀ c ∈ indent, isIndent c = true) :
      SpanStart body position 0
  | lf {before indent after : Text} (here : body = before ++ '\n' :: indent ++ after)
      (at_line : position = (before ++ '\n' :: indent).length)
      (blank : ∀ c ∈ indent, isIndent c = true) (no_cr : before.getLast? ≠ some '\r') :
      SpanStart body position before.length
  | crlf {before indent after : Text} (here : body = before ++ '\r' :: '\n' :: indent ++ after)
      (at_line : position = (before ++ '\r' :: '\n' :: indent).length)
      (blank : ∀ c ∈ indent, isIndent c = true) : SpanStart body position before.length

namespace Merge

variable {body : Text}

lemma take_append_slice (t : Text) {a b : Nat} (h : a ≤ b) :
    t.take a ++ t.slice a b = t.take b := by
  rw [Text.slice, ← Nat.min_eq_left h, ← List.take_take, Nat.min_eq_left h, List.take_append_drop]

lemma slice_append_slice_append_drop (t : Text) {a b c : Nat} (hab : a ≤ b) (hbc : b ≤ c) :
    t.slice a b ++ t.slice b c ++ t.drop c = t.drop a := by
  apply (List.append_right_inj (t.take a)).mp
  simp only [← List.append_assoc, take_append_slice t hab, take_append_slice t hbc,
    List.take_append_drop]

/-- Replacing ordered spans from the last to the first leaves what stands before them and weaves the
rest. -/
theorem replaceAll_eq_weave {p : Nat} {rs : List Replacement}
    (hin : ∀ r ∈ rs, p ≤ r.start ∧ r.start ≤ r.stop ∧ r.stop ≤ body.length)
    (hr : rs.Pairwise fun r r' => r.stop ≤ r'.start) :
    replaceAll body rs = body.take p ++ weave body p rs := by
  induction rs generalizing p with
  | nil => exact (List.take_append_drop p body).symm
  | cons r rs ih =>
    obtain ⟨hp, hs, hb⟩ := hin r List.mem_cons_self
    obtain ⟨hstop, hr⟩ := List.pairwise_cons.mp hr
    have hrest := ih (p := r.stop) (fun r' h' =>
      ⟨hstop r' h', (hin r' (List.mem_cons_of_mem r h')).2⟩) hr
    have hl : (body.take r.stop).length = r.stop := List.length_take_of_le hb
    -- The later replacements are made first and leave everything up to this span as it was.
    change (replaceAll body rs).splice r.start r.stop r.text = _
    rw [hrest, Text.splice, weave, List.take_append_of_le_length (by omega), List.take_take,
      Nat.min_eq_left hs, List.drop_left' hl, ← take_append_slice body hp]
    simp only [List.append_assoc]

/-- Spans with their own texts in place of themselves weave the body again. -/
theorem weave_self {p : Nat} {rs : List Replacement}
    (hin : ∀ r ∈ rs, p ≤ r.start ∧ r.start ≤ r.stop ∧ r.stop ≤ body.length)
    (hr : rs.Pairwise fun r r' => r.stop ≤ r'.start) :
    weave body p (rs.map fun r => { r with text := body.slice r.start r.stop }) = body.drop p := by
  induction rs generalizing p with
  | nil => rfl
  | cons r rs ih =>
    obtain ⟨hp, hs, hb⟩ := hin r List.mem_cons_self
    obtain ⟨hstop, hr⟩ := List.pairwise_cons.mp hr
    have hrest := ih (p := r.stop) (fun r' h' =>
      ⟨hstop r' h', (hin r' (List.mem_cons_of_mem r h')).2⟩) hr
    rw [List.map_cons, weave, hrest]
    exact slice_append_slice_append_drop body hp hs

/-- The line that a position is in, up to the position. -/
lemma exists_lineStart {position : Nat} (h : position ≤ body.length) :
    ∃ before line, body = before ++ line ++ body.drop position ∧
      position = (before ++ line).length ∧ lineStart body position = before.length ∧
      Text.opensLine true before = true ∧ '\n' ∉ line := by
  have hl : (body.take position).length = position := List.length_take_of_le h
  generalize ht : body.take position = t at hl
  refine ⟨(t.reverse.dropWhile (· ≠ '\n')).reverse, (t.reverse.takeWhile (· ≠ '\n')).reverse, ?_⟩
  have hj : (t.reverse.dropWhile (· ≠ '\n')).reverse ++ (t.reverse.takeWhile (· ≠ '\n')).reverse =
      t := by
    rw [← List.reverse_append, List.takeWhile_append_dropWhile, List.reverse_reverse]
  refine ⟨?_, by rw [hj, hl], ?_, ?_, fun hc => ?_⟩
  · rw [hj, ← ht, List.take_append_drop]
  · have := congrArg List.length hj
    rw [List.length_append, hl, List.length_reverse, List.length_reverse] at this
    rw [lineStart, ht, List.length_reverse]
    omega
  · have := List.head?_dropWhile_not (fun c => decide (c ≠ '\n')) t.reverse
    unfold Text.opensLine
    rw [List.getLast?_reverse]
    cases hd : (t.reverse.dropWhile (· ≠ '\n')).head? with
    | none => rfl
    | some c =>
      rw [hd] at this
      simpa using this
  · have := List.all_eq_true.mp (List.all_takeWhile (l := t.reverse) (p := (· ≠ '\n'))) '\n'
      (List.mem_reverse.mp hc)
    simp at this

/-- The first position that a marker gives up is where its span starts. -/
theorem spanStart_replacedFrom {m : Marker} (h : m.start ≤ body.length) :
    SpanStart body m.start (replacedFrom body m) := by
  obtain ⟨before, line, hb, hp, hstart, hopens, hline⟩ := exists_lineStart h
  have hslice : body.slice before.length m.start = line := by
    rw [hb, hp, Text.slice, List.take_left, List.drop_left]
  unfold replacedFrom
  rw [hstart]
  dsimp only
  rw [hslice]
  split_ifs with hmixed hfirst hcr
  · obtain ⟨c, hc, hi⟩ := List.any_eq_true.mp hmixed
    exact .marker hb hp hopens hline ⟨c, hc, by simpa using hi⟩
  all_goals
    have hblank : ∀ c ∈ line, isIndent c = true := by simpa using hmixed
  · rw [List.length_eq_zero_iff.mp hfirst, List.nil_append] at hb hp
    exact .first hb hp hblank
  all_goals
    obtain ⟨d, c, rfl⟩ : ∃ d c, before = d ++ [c] :=
      ⟨_, _, (List.dropLast_concat_getLast fun he => hfirst (by simp [he])).symm⟩
    obtain rfl : c = '\n' := by simpa [Text.opensLine] using hopens
    have hlast : 2 ≤ (d ++ ['\n']).length →
        body[(d ++ ['\n']).length - 2]? = d.getLast? := fun hl => by
      rw [List.length_append] at hl ⊢
      rw [List.getLast?_eq_getElem?, hb, List.append_assoc, List.append_assoc,
        List.getElem?_append_left (by simp at hl ⊢; omega)]
      rfl
  · obtain ⟨e, rfl⟩ := List.getLast?_eq_some_iff.mp ((hlast hcr.1).symm.trans hcr.2)
    have he : (e ++ ['\r'] ++ ['\n']).length - 2 = e.length := by simp
    rw [he]
    exact .crlf (by simpa using hb) (by simpa using hp) hblank
  · have hd : (d ++ ['\n']).length - 1 = d.length := by simp
    rw [hd]
    refine .lf (by simpa using hb) (by simpa using hp) hblank fun he => ?_
    have hl : 2 ≤ (d ++ ['\n']).length := by
      have := List.length_pos_of_mem (List.mem_of_getLast? he)
      simp
      omega
    exact hcr ⟨hl, (hlast hl).trans he⟩

lemma isSpacing_of_isIndent {c : Char} (h : isIndent c = true) : isSpacing c = true := by
  unfold isIndent at h
  unfold isSpacing isLineTail
  rw [h]
  rfl

/-- A marker gives up only blanks and line breaks before it. -/
lemma SpanStart.exists_blanks {position a : Nat} (h : SpanStart body position a) :
    ∃ before blanks after, body = before ++ blanks ++ after ∧ a = before.length ∧
      position = (before ++ blanks).length ∧ ∀ c ∈ blanks, isSpacing c = true := by
  cases h with
  | @marker before line after here at_line =>
    exact ⟨before ++ line, [], after, by simpa using here, at_line, by simpa using at_line,
      by simp⟩
  | @first indent after here at_line blank =>
    exact ⟨[], indent, after, here, rfl, at_line, fun c hc => isSpacing_of_isIndent (blank c hc)⟩
  | @lf before indent after here at_line blank =>
    refine ⟨before, '\n' :: indent, after, here, rfl, at_line, fun c hc => ?_⟩
    rcases List.mem_cons.mp hc with rfl | hc
    · rfl
    · exact isSpacing_of_isIndent (blank c hc)
  | @crlf before indent after here at_line blank =>
    refine ⟨before, '\r' :: '\n' :: indent, after, here, rfl, at_line, fun c hc => ?_⟩
    rcases List.mem_cons.mp hc with rfl | hc
    · rfl
    rcases List.mem_cons.mp hc with rfl | hc
    · rfl
    · exact isSpacing_of_isIndent (blank c hc)

/-- A span does not reach back over a text that ends in something else than a blank. -/
lemma SpanStart.le_of_not_isSpacing {position a : Nat} (h : SpanStart body position a)
    {head rest : Text} (hb : body = head ++ rest) (hp : head.length ≤ position) {c : Char}
    (hc : head.getLast? = some c) (hs : isSpacing c = false) : head.length ≤ a := by
  obtain ⟨before, blanks, after, hb', rfl, rfl, hblank⟩ := h.exists_blanks
  by_contra hlt
  rw [hb, List.append_assoc] at hb'
  -- The text ends within the blanks, so its last character is one of them.
  obtain ⟨u, rfl⟩ : before <+: head :=
    List.prefix_of_prefix_length_le ⟨_, hb'.symm⟩ (List.prefix_append head rest) (by omega)
  have hu : u ≠ [] := fun hu => by simp [hu] at hlt
  obtain ⟨v, rfl⟩ : u <+: blanks := by
    rw [List.append_assoc, List.append_cancel_left_eq] at hb'
    exact List.prefix_of_prefix_length_le ⟨rest, hb'⟩ (List.prefix_append blanks after)
      (by simpa using hp)
  rw [List.getLast?_append_of_ne_nil _ hu] at hc
  have := hblank c (List.mem_append_left v (List.mem_of_getLast? hc))
  simp [hs] at this

variable {s : Shelf} {rules : Rules} {root : Template} {t t' : Trail}

/-- A span lies within the body, around its marker. -/
lemma InlineReplacement.bounds {m : Marker} {r : Replacement}
    (hm : m ∈ rules.style.inlineMarkers body) (h : InlineReplacement s rules root body m r) :
    SpanStart body m.start r.start ∧ r.start ≤ r.stop ∧ r.stop = m.stop ∧
      r.stop ≤ body.length := by
  obtain ⟨_, _, _, _, hstart, hstop⟩ := h
  obtain ⟨before, rest, hb, hs, _, _⟩ := MarkerStyle.exists_of_mem_inlineMarkers hm
  have hl : m.stop ≤ body.length := by
    rw [Marker.stop, hs, hb]
    simp
  have hspan : SpanStart body m.start (replacedFrom body m) :=
    spanStart_replacedFrom (Nat.le_trans (Nat.le_add_right _ _) hl)
  obtain ⟨_, _, _, _, ha, hp, _⟩ := hspan.exists_blanks
  rw [hstart, hstop]
  refine ⟨hspan, ?_, rfl, hl⟩
  rw [List.length_append] at hp
  rw [Marker.stop]
  omega

/-- A span starts no earlier than a marker before it ends: that marker ends in no blank. -/
lemma InlineReplacement.stop_le_start {m m' : Marker} {r r' : Replacement}
    (hm : m ∈ rules.style.inlineMarkers body) (hm' : m' ∈ rules.style.inlineMarkers body)
    (h : InlineReplacement s rules root body m r) (h' : InlineReplacement s rules root body m' r')
    (hlt : m.stop ≤ m'.start) : r.stop ≤ r'.start := by
  obtain ⟨hspan, _⟩ := h'.bounds hm'
  obtain ⟨_, _, hparts, _, _, hstop⟩ := h
  obtain ⟨before, rest, hb, hs, ht, hr⟩ := MarkerStyle.exists_of_mem_inlineMarkers hm
  obtain ⟨c, hc⟩ : ∃ c, m.resource.getLast? = some c :=
    ⟨_, List.getLast?_eq_some_getLast hr.ne_nil⟩
  have hl : (before ++ m.text).length = m.stop := by rw [List.length_append, Marker.stop, hs]
  rw [hstop, ← hl]
  refine hspan.le_of_not_isSpacing (c := c) (by rw [hb, List.append_assoc]) (hl ▸ hlt) ?_
    (hr.not_isSpacing (MarkerStyle.two_le_length_of_inlineParts hparts) hc)
  rw [ht, ← List.append_assoc, List.getLast?_append_of_ne_nil _ hr.ne_nil, hc]

lemma exists_of_mem_forall₂ {α β : Type} {R : α → β → Prop} {l : List α} {l' : List β}
    (h : List.Forall₂ R l l') {b : β} (hb : b ∈ l') : ∃ a ∈ l, R a b := by
  induction h with
  | nil => simp at hb
  | @cons a b' l l' hab _ ih =>
    rcases List.mem_cons.mp hb with rfl | hb
    · exact ⟨a, List.mem_cons_self, hab⟩
    · obtain ⟨a', ha', hr⟩ := ih hb
      exact ⟨a', List.mem_cons_of_mem a ha', hr⟩

lemma InlineImport.kind {marker : Marker} {i : AppliedImport} (h : InlineImport s rules root marker i) :
    i.kind = .inline := by
  obtain ⟨_, _, _, _, rfl⟩ := h
  rfl

/-- The whole-file imports of a merge are those of its first pass. -/
lemma filter_wholeFile {markers markers' : List Marker} {inline : List AppliedImport}
    (h : List.Forall₂ (InlineImport s rules root) markers' inline) :
    (markers.map (wholeImport s rules root) ++ inline).filter (·.kind = .wholeFile) =
      markers.map (wholeImport s rules root) := by
  have hw : ∀ i ∈ markers.map (wholeImport s rules root), decide (i.kind = .wholeFile) = true := by
    simp [wholeImport]
  have hi : ∀ i ∈ inline, ¬ decide (i.kind = .wholeFile) = true := by
    intro i hi
    obtain ⟨_, _, h⟩ := exists_of_mem_forall₂ h hi
    simp [h.kind]
  rw [List.filter_append, List.filter_eq_self.mpr hw, List.filter_eq_nil_iff.mpr hi,
    List.append_nil]

/-- The inline imports of a merge are those of its second pass. -/
lemma filter_inline {markers markers' : List Marker} {inline : List AppliedImport}
    (h : List.Forall₂ (InlineImport s rules root) markers' inline) :
    (markers.map (wholeImport s rules root) ++ inline).filter (·.kind = .inline) = inline := by
  have hw : ∀ i ∈ markers.map (wholeImport s rules root), ¬ decide (i.kind = .inline) = true := by
    simp [wholeImport]
  have hi : ∀ i ∈ inline, decide (i.kind = .inline) = true := by
    intro i hi
    obtain ⟨_, _, h⟩ := exists_of_mem_forall₂ h hi
    simp [h.kind]
  rw [List.filter_append, List.filter_eq_nil_iff.mpr hw, List.filter_eq_self.mpr hi,
    List.nil_append]

lemma exists_of_mem_left {α β : Type} {R : α → β → Prop} {l : List α} {l' : List β}
    (h : List.Forall₂ R l l') : ∀ a ∈ l, ∃ b, R a b := by
  intro a ha
  obtain ⟨b, _, hab⟩ := exists_of_mem_forall₂ h.flip ha
  exact ⟨b, hab⟩

/-- What comes of part of a list is part of what comes of the list. -/
lemma sublist_of_forall₂ {α β : Type} {R : α → β → Prop} (hR : Relator.RightUnique R) {l l' : List α}
    {bs bs' : List β} (hl : l.Sublist l') (h : List.Forall₂ R l bs) (h' : List.Forall₂ R l' bs') :
    bs.Sublist bs' := by
  induction hl generalizing bs bs' with
  | slnil =>
    cases h
    exact List.nil_sublist _
  | cons a _ ih =>
    cases h' with
    | cons _ hrest => exact (ih h hrest).cons _
  | cons_cons a _ ih =>
    cases h with
    | cons hb hbs =>
      cases h' with
      | cons hb' hbs' =>
        obtain rfl := hR hb hb'
        exact (ih hbs hbs').cons_cons _

lemma pairwise_of_forall₂ {α β : Type} {R : α → β → Prop} {P : α → α → Prop} {Q : β → β → Prop}
    {l : List α} {l' : List β} (h : List.Forall₂ R l l') (hp : l.Pairwise P)
    (hq : ∀ a b a' b', R a b → R a' b' → P a a' → Q b b') : l'.Pairwise Q := by
  induction h with
  | nil => exact .nil
  | @cons a b l l' hab hr ih =>
    obtain ⟨ha, hp⟩ := List.pairwise_cons.mp hp
    refine List.pairwise_cons.mpr ⟨fun b' hb' => ?_, ih hp⟩
    obtain ⟨a', ha', hab'⟩ := exists_of_mem_forall₂ hr hb'
    exact hq a b a' b' hab hab' (ha a' ha')

/-- The replacements of the inline markers of a body lie within it, in order and apart. -/
theorem spans_of_replacements {replacements : List Replacement}
    (h : List.Forall₂ (InlineReplacement s rules root body) (rules.style.inlineMarkers body)
      replacements) :
    (∀ r ∈ replacements, r.start ≤ r.stop ∧ r.stop ≤ body.length) ∧
      replacements.Pairwise fun r r' => r.stop ≤ r'.start := by
  constructor
  · intro r hr
    obtain ⟨m, hm, hmr⟩ := exists_of_mem_forall₂ h hr
    obtain ⟨_, hle, _, hb⟩ := hmr.bounds hm
    exact ⟨hle, hb⟩
  · have h' := (List.forall₂_and_left _ _).mpr ⟨fun m hm => hm, h⟩
    exact pairwise_of_forall₂ h' (MarkerStyle.pairwise_inlineMarkers body)
      fun _ _ _ _ ⟨hm, hr⟩ ⟨hm', hr'⟩ hlt => hr.stop_le_start hm hm' hr' hlt

end Merge

/-- The inline pass substitutes all its sections at once. There is one replacement for each inline
marker of the body, in order: its text is the section that the marker names, and its span runs from
where the marker gives up the line before it to the end of the marker. The spans lie within the
body, in order and apart; the content is the body with every span replaced, and the body itself is
what comes of replacing every span by its own characters. -/
theorem inlines_eq_weave (s : Shelf) (rules : Rules) (root : Template) (body content : Text)
    (imports : List AppliedImport) (t t' : Trail)
    (h : Merge.Gives (Merge.inlines s.access rules root body) t (content, imports) t') :
    ∃ replacements : List Replacement,
      List.Forall₂ (fun marker r =>
        (∃ path name, rules.style.inlineParts marker.resource = .ok (path, name) ∧
          rules.allowed.section? (s.text (root.target path)) name = some r.text) ∧
        Merge.SpanStart body marker.start r.start ∧ r.stop = marker.stop)
        (rules.style.inlineMarkers body) replacements ∧
      (∀ r ∈ replacements, r.start ≤ r.stop ∧ r.stop ≤ body.length) ∧
      (replacements.Pairwise fun r r' => r.stop ≤ r'.start) ∧
      content = Merge.weave body 0 replacements ∧
      Merge.weave body 0
        (replacements.map fun r => { r with text := body.slice r.start r.stop }) = body := by
  obtain ⟨replacements, hr, _, rfl, _⟩ := Merge.gives_inlines h
  obtain ⟨hin, hp⟩ := Merge.spans_of_replacements hr
  have hin₀ : ∀ r ∈ replacements, 0 ≤ r.start ∧ r.start ≤ r.stop ∧ r.stop ≤ body.length :=
    fun r h' => ⟨Nat.zero_le _, hin r h'⟩
  refine ⟨replacements, ?_, hin, hp, Merge.replaceAll_eq_weave hin₀ hp, Merge.weave_self hin₀ hp⟩
  refine ((List.forall₂_and_left _ _).mpr ⟨fun m hm => hm, hr⟩).imp fun m r ⟨hm, hmr⟩ => ?_
  obtain ⟨hspan, _, hstop, _⟩ := hmr.bounds hm
  obtain ⟨path, name, hparts, htext, _⟩ := hmr
  exact ⟨⟨path, name, hparts, htext⟩, hspan, hstop⟩

theorem inlines_sample_weave :
    ∃ imports t, Merge.Gives (Merge.inlines Shelf.sample.access Rules.sample
        ⟨[], .ofText "/a".toList⟩ "x: 1\n  # @import b#Q\n,# @import b#Q\nQ: 3".toList) .empty
        ("x: 1 2\n\n, 2\n\nQ: 3".toList, imports) t ∧
      ∃ replacements : List Replacement,
        (replacements.Pairwise fun r r' => r.stop ≤ r'.start) ∧
        "x: 1 2\n\n, 2\n\nQ: 3".toList = Merge.weave
          "x: 1\n  # @import b#Q\n,# @import b#Q\nQ: 3".toList 0 replacements := by
  obtain ⟨t, h⟩ := Merge.exists_gives_of_toOption (t := .empty)
    (x := Merge.inlines Shelf.sample.access Rules.sample ⟨[], .ofText "/a".toList⟩
      "x: 1\n  # @import b#Q\n,# @import b#Q\nQ: 3".toList)
    (a := ("x: 1 2\n\n, 2\n\nQ: 3".toList, List.replicate 2
      ⟨.inline, "b#Q".toList, .ofText "/b".toList, ["Q".toList]⟩)) (by decide +kernel)
  obtain ⟨replacements, _, _, hp, hw, _⟩ := inlines_eq_weave _ _ _ _ _ _ _ _ h
  exact ⟨_, t, h, replacements, hp, hw⟩

end TemplateSplice
