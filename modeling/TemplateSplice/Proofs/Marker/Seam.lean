import Mathlib.Data.List.Basic
import Mathlib.Data.List.TakeWhile
import TemplateSplice.Proofs.Marker.Scan
import TemplateSplice.Proofs.Section.Scan

/-! The markers of texts that are put together. Texts that meet at a line feed keep theirs. Where a line
is put in front of another one, a marker of the second may end up in the resource of a marker before it;
but that resource then holds more than one delimiter, so it refers to nothing. -/
namespace TemplateSplice

/-- A text that does not hold a character cannot start before that character and end after it. -/
lemma prefix_append_cons_iff {c : Char} {o t u : Text} (hc : c ∉ o) : o <+: t ++ c :: u ↔ o <+: t := by
  constructor
  · rintro ⟨v, hv⟩
    rcases List.append_eq_append_iff.mp hv with ⟨w, rfl, _⟩ | ⟨w, rfl, hw⟩
    · exact List.prefix_append o w
    · cases w with
      | nil => simp
      | cons e w =>
        obtain ⟨rfl, _⟩ := List.cons.inj hw
        simp at hc
  · exact fun h => h.trans (List.prefix_append t _)

lemma takeWhile_append_cons {p : Char → Bool} {c : Char} (hc : p c = false) (t u : Text) :
    (t ++ c :: u).takeWhile p = t.takeWhile p := by
  induction t with
  | nil => simp [hc]
  | cons d t ih => by_cases hd : p d = true <;> simp [hd, ih]

namespace Text

lemma occursIn_iff {part t : Text} : occursIn part t = true ↔ part <:+: t := by
  induction t with
  | nil => simp [occursIn]
  | cons c t ih =>
    rw [occursIn, Bool.or_eq_true, ih, List.isPrefixOf_iff_prefix, List.infix_cons_iff]

/-- A text up to its last line, and that line. -/
lemma exists_lastLine (t : Text) : ∃ a l : Text, t = a ++ l ∧ opensLine true a = true ∧ '\n' ∉ l := by
  induction t with
  | nil => exact ⟨[], [], rfl, rfl, by simp⟩
  | cons c t ih =>
    obtain ⟨a, l, rfl, ha, hl⟩ := ih
    by_cases hc : a = [] ∧ c ≠ '\n'
    · obtain ⟨rfl, hc⟩ := hc
      exact ⟨[], c :: l, rfl, rfl, by simp [hc.symm, hl]⟩
    · refine ⟨c :: a, l, rfl, ?_, hl⟩
      cases a with
      | nil => simpa using hc
      | cons e a => rwa [opensLine_cons, opensLine_of_ne_nil (by simp) _ true]

lemma eq_nil_of_opensLine_append {a w l : Text} (h : opensLine true (a ++ w) = true)
    (hl : '\n' ∉ w ++ l) : w = [] := by
  by_contra hw
  have hne : a ++ w ≠ [] := List.append_ne_nil_of_right_ne_nil a hw
  rw [opensLine_of_ne_nil hne true false] at h
  have hlast := getLast?_of_opensLine h
  rw [List.getLast?_append_of_ne_nil a hw] at hlast
  exact hl (List.mem_append_left l (List.mem_of_getLast? hlast))

/-- There is one last line. -/
lemma lastLine_unique {a l a' l' : Text} (h : a ++ l = a' ++ l') (ha : opensLine true a = true)
    (ha' : opensLine true a' = true) (hl : '\n' ∉ l) (hl' : '\n' ∉ l') : a = a' ∧ l = l' := by
  rcases List.append_eq_append_iff.mp h with ⟨w, rfl, rfl⟩ | ⟨w, rfl, rfl⟩
  · obtain rfl := eq_nil_of_opensLine_append ha' hl
    simp
  · obtain rfl := eq_nil_of_opensLine_append ha hl'
    simp

end Text

/-- A resource that is all of its line but blanks at the end. -/
lemma exists_of_resourceAt? {t resource : Text} (h : resourceAt? t = some resource) (ht : '\n' ∉ t) :
    ∃ tail, t = resource ++ tail ∧ ∀ c ∈ tail, isLineTail c = true := by
  have hline : t.takeWhile (· ≠ '\n') = t :=
    List.takeWhile_eq_self_iff.mpr fun c hc => by
      have hne : c ≠ '\n' := fun he => ht (he ▸ hc)
      simpa using hne
  obtain ⟨tail, htail, hblank⟩ := Text.exists_trimRight_append isLineTail t
  unfold resourceAt? at h
  rw [hline] at h
  dsimp only at h
  split at h
  · next hnil =>
    rw [hnil, List.nil_append] at htail
    subst htail
    cases t with
    | nil => simp at h
    | cons c r =>
      obtain rfl : [c] = resource := by simpa using h
      exact ⟨r, rfl, fun e he => hblank e (List.mem_cons_of_mem c he)⟩
  · cases h
    exact ⟨tail, htail, hblank⟩

namespace MarkerStyle

variable {style : MarkerStyle} {d : Char}

lemma occursIn_singleton (t : Text) : Text.occursIn [d] t = true ↔ d ∈ t := by
  induction t with
  | nil => simp [Text.occursIn]
  | cons c t ih => simp [Text.occursIn, ih]

lemma kindOf_eq_inline_iff (hd : style.delimiter = [d]) {resource : Text} :
    style.kindOf resource = .inline ↔ d ∈ resource := by
  unfold kindOf
  rw [hd, ← occursIn_singleton]
  split_ifs with h <;> simp [h]

/-- The resources of the markers of a body, in order. -/
def resources (style : MarkerStyle) (body : Text) : List Text :=
  (style.markers body).map Marker.resource

/-- Markers are written on one line and start with a character that their opening holds only there,
and that is no blank. -/
structure StartsWith (style : MarkerStyle) (d : Char) : Prop where
  head : style.opening.head? = some d
  only : d ∉ style.opening.tail
  one_line : '\n' ∉ style.opening
  solid : isLineTail d = false

lemma StartsWith.opening_eq (h : style.StartsWith d) :
    style.opening = d :: style.opening.tail := (List.cons_head?_tail h.head).symm

lemma map_resource_markersFrom (p : Nat) (t : Text) :
    (style.markersFrom p 0 t).map Marker.resource = style.resources t := by
  unfold resources markers
  induction t using style.markers_induction generalizing p with
  | nil => simp [markersFrom]
  | plain c r hn ih =>
    rw [markersFrom_plain p hn, markersFrom_plain 0 hn, ih (p + 1), ih (0 + 1)]
  | marker resource rest hr hm ih =>
    rw [markersFrom_marker p hm, markersFrom_marker 0 hm, List.map_cons, List.map_cons, ih,
      ih (0 + _)]

@[simp] theorem resources_nil : style.resources [] = [] := by simp [resources, markers, markersFrom]

lemma resources_plain {c : Char} {r : Text} (h : style.resourceHere? (c :: r) = none) :
    style.resources (c :: r) = style.resources r := by
  rw [← map_resource_markersFrom 0, markersFrom_plain 0 h, map_resource_markersFrom]

lemma resources_marker {resource rest : Text}
    (h : style.resourceHere? (style.opening ++ resource ++ rest) = some resource) :
    style.resources (style.opening ++ resource ++ rest) = resource :: style.resources rest := by
  rw [← map_resource_markersFrom 0, markersFrom_marker 0 h, List.map_cons,
    map_resource_markersFrom]

/-- What stands here is settled by the rest of the line. -/
lemma resourceHere?_append_newline (h : '\n' ∉ style.opening) (t u : Text) :
    style.resourceHere? (t ++ '\n' :: u) = style.resourceHere? t := by
  unfold resourceHere?
  simp only [List.isPrefixOf_iff_prefix, prefix_append_cons_iff h]
  split_ifs with hp
  · obtain ⟨s, rfl⟩ := hp
    rw [List.append_assoc, List.drop_left, List.drop_left]
    unfold resourceAt?
    rw [takeWhile_append_cons (by simp)]
  · rfl

/-- No marker starts at a line feed. -/
lemma resourceHere?_newline (h : '\n' ∉ style.opening) (u : Text) :
    style.resourceHere? ('\n' :: u) = none := by
  rw [← List.nil_append ('\n' :: u), resourceHere?_append_newline h, resourceHere?, if_neg]
  simp [opening]

lemma resourceHere?_of_ne (h : style.StartsWith d) {c : Char} (hc : c ≠ d) (r : Text) :
    style.resourceHere? (c :: r) = none := by
  unfold resourceHere?
  rw [if_neg]
  rw [List.isPrefixOf_iff_prefix, h.opening_eq, List.cons_prefix_cons]
  exact fun hp => hc hp.1.symm

/-- A text without the character that markers start with adds no marker in front of another text. -/
lemma resources_append_of_not_mem (h : style.StartsWith d) {t : Text} (ht : d ∉ t) (u : Text) :
    style.resources (t ++ u) = style.resources u := by
  induction t with
  | nil => rfl
  | cons c t ih =>
    rw [List.cons_append, resources_plain (resourceHere?_of_ne h (fun hc => ht (by simp [hc])) _),
      ih fun hd => ht (List.mem_cons_of_mem c hd)]

/-- A line feed keeps what stands before it apart from what stands after it. -/
theorem markersFrom_append_newline (h : '\n' ∉ style.opening) (p : Nat) (t u : Text) :
    style.markersFrom p 0 (t ++ '\n' :: u) =
      style.markersFrom p 0 t ++ style.markersFrom (p + t.length + 1) 0 u := by
  induction t using style.markers_induction generalizing p with
  | nil =>
    rw [List.nil_append, markersFrom_plain p (resourceHere?_newline h u)]
    simp [markersFrom]
  | plain c r hn ih =>
    have hn' : style.resourceHere? (c :: (r ++ '\n' :: u)) = none := by
      rwa [← List.cons_append, resourceHere?_append_newline h]
    rw [List.cons_append, markersFrom_plain p hn', markersFrom_plain p hn, ih, List.length_cons]
    congr 2
    omega
  | marker resource rest hr hm ih =>
    have hm' : style.resourceHere? (style.opening ++ resource ++ (rest ++ '\n' :: u)) =
        some resource := by
      rwa [← List.append_assoc, resourceHere?_append_newline h]
    rw [List.append_assoc _ rest, markersFrom_marker p hm', markersFrom_marker p hm, ih,
      List.cons_append]
    congr 3
    simp only [List.length_append]
    omega

theorem resources_append_newline (h : style.StartsWith d) (t u : Text) :
    style.resources (t ++ '\n' :: u) = style.resources t ++ style.resources u := by
  rw [← map_resource_markersFrom 0, markersFrom_append_newline h.one_line, List.map_append,
    map_resource_markersFrom, map_resource_markersFrom]

/-- A text that opens a line keeps its markers apart from those of what follows it. -/
theorem resources_append_of_opensLine (h : style.StartsWith d) {t : Text}
    (ht : Text.opensLine true t = true) (u : Text) :
    style.resources (t ++ u) = style.resources t ++ style.resources u := by
  by_cases hn : t = []
  · simp [hn]
  · rw [Text.opensLine_of_ne_nil hn true false] at ht
    obtain ⟨a, rfl⟩ := List.getLast?_eq_some_iff.mp (Text.getLast?_of_opensLine ht)
    have ha := resources_append_newline h a []
    rw [resources_nil, List.append_nil] at ha
    rw [List.append_assoc, List.singleton_append, resources_append_newline h, ha]

lemma resources_of_not_mem (h : style.StartsWith d) {t : Text} (ht : d ∉ t) :
    style.resources t = [] := by
  simpa using resources_append_of_not_mem h ht []

/-- The resource of the first marker of a text. -/
def firstResource? (style : MarkerStyle) : Text → Option Text
  | [] => none
  | c :: r => (style.resourceHere? (c :: r)).or (firstResource? style r)

lemma exists_of_resourceHere? {t resource : Text} (h : style.resourceHere? t = some resource)
    (ht : '\n' ∉ t) :
    ∃ tail, t = style.opening ++ resource ++ tail ∧ ∀ c ∈ tail, isLineTail c = true := by
  unfold resourceHere? at h
  split at h
  · next hp =>
    obtain ⟨u, rfl⟩ := List.isPrefixOf_iff_prefix.mp hp
    rw [List.drop_left] at h
    obtain ⟨tail, rfl, hblank⟩ := exists_of_resourceAt? h fun hu => ht (List.mem_append_right _ hu)
    exact ⟨tail, by simp, hblank⟩
  · simp at h

/-- A marker that starts here holds every further delimiter of the line in its resource. -/
lemma count_of_resourceHere? (h : style.StartsWith d) {t resource : Text}
    (hr : style.resourceHere? t = some resource) (ht : '\n' ∉ t) :
    t.count d = resource.count d + 1 := by
  obtain ⟨tail, rfl, hblank⟩ := exists_of_resourceHere? hr ht
  have htail : d ∉ tail := fun hd => by simpa [h.solid] using hblank d hd
  rw [List.count_append, List.count_append, List.count_eq_zero_of_not_mem htail, h.opening_eq,
    List.count_cons_self, List.count_eq_zero_of_not_mem h.only]
  omega

/-- There is at most one marker in a line. -/
lemma resources_of_one_line (h : style.StartsWith d) {t : Text} (ht : '\n' ∉ t) :
    style.resources t = (style.firstResource? t).toList := by
  induction t with
  | nil => rfl
  | cons c r ih =>
    unfold firstResource?
    cases hr : style.resourceHere? (c :: r) with
    | none =>
      rw [resources_plain hr, ih fun hn => ht (List.mem_cons_of_mem c hn)]
      rfl
    | some resource =>
      obtain ⟨tail, htail, hblank⟩ := exists_of_resourceHere? hr ht
      rw [htail] at hr ⊢
      have hd : d ∉ tail := fun hd => by simpa [h.solid] using hblank d hd
      rw [resources_marker hr, resources_of_not_mem h hd]
      rfl

lemma count_firstResource? (h : style.StartsWith d) {t resource : Text}
    (hr : style.firstResource? t = some resource) (ht : '\n' ∉ t) :
    resource.count d + 1 ≤ t.count d := by
  induction t with
  | nil => simp [firstResource?] at hr
  | cons c r ih =>
    rcases Option.or_eq_some_iff.mp hr with hhere | ⟨_, hlater⟩
    · exact (count_of_resourceHere? h hhere ht).ge
    · exact (ih hlater fun hn => ht (List.mem_cons_of_mem c hn)).trans (List.count_le_count_cons ..)

/-- An inline marker that a line is put in front of is still there, or in the resource of a marker
before it, which then holds two delimiters. -/
lemma firstResource?_append (h : style.StartsWith d) {l t resource : Text}
    (hr : style.firstResource? t = some resource) (hd : d ∈ resource) (ht : '\n' ∉ l ++ t) :
    ∃ z, style.firstResource? (l ++ t) = some z ∧ (z = resource ∨ 2 ≤ z.count d) := by
  induction l with
  | nil => exact ⟨resource, hr, .inl rfl⟩
  | cons c l ih =>
    obtain ⟨z, hz, hor⟩ := ih fun hn => ht (List.mem_cons_of_mem c hn)
    rw [List.cons_append, firstResource?]
    cases hhere : style.resourceHere? (c :: (l ++ t)) with
    | none => exact ⟨z, hz, hor⟩
    | some z' =>
      refine ⟨z', rfl, .inr ?_⟩
      have hz' := count_of_resourceHere? h hhere ht
      have hc : c = d := by
        by_contra hne
        simp [resourceHere?_of_ne h hne] at hhere
      have ht' : '\n' ∉ t := fun hn => ht (List.mem_append_right (c :: l) hn)
      have hcount := count_firstResource? h hr ht'
      have hpos := List.count_pos_iff.mpr hd
      rw [hc, List.count_cons_self, List.count_append] at hz'
      omega

lemma sublist_firstResource?_append (h : style.StartsWith d) {l t : Text} (ht : '\n' ∉ l ++ t) :
    ((style.firstResource? t).toList.filter (d ∈ ·)).Sublist
        ((style.firstResource? (l ++ t)).toList.filter (d ∈ ·)) ∨
      ∃ z, style.firstResource? (l ++ t) = some z ∧ 2 ≤ z.count d := by
  cases hr : style.firstResource? t with
  | none => exact .inl (List.nil_sublist _)
  | some resource =>
    by_cases hd : d ∈ resource
    · obtain ⟨z, hz, rfl | hcount⟩ := firstResource?_append h hr hd ht
      · rw [hz]
        exact .inl (List.Sublist.refl _)
      · exact .inr ⟨z, hz, hcount⟩
    · simp [hd]

/-- Where two texts are put together, only the last line of the first and the first line of the second
one may change their markers. -/
lemma exists_seam (h : style.StartsWith d) (t u : Text) :
    ∃ (l line : Text) (front rest : List Text), '\n' ∉ l ++ line ∧
      style.resources u = style.resources line ++ rest ∧
      style.resources (t ++ u) = front ++ (style.resources (l ++ line) ++ rest) := by
  obtain ⟨a, l, rfl, ha, hl⟩ := Text.exists_lastLine t
  obtain ⟨rest, hu, hline, hnext⟩ := Text.exists_takeWhile_append u
  generalize u.takeWhile (· ≠ '\n') = line at hu hline
  subst hu
  have hcut : ∀ v : Text, style.resources (v ++ rest) = style.resources v ++ style.resources rest := by
    intro v
    cases rest with
    | nil => simp
    | cons c r =>
      obtain rfl : c = '\n' := hnext c rfl
      rw [resources_append_newline h, ← List.nil_append ('\n' :: r), resources_append_newline h]
      rfl
  refine ⟨l, line, style.resources a, style.resources rest, by simp [hl, hline], hcut line, ?_⟩
  rw [List.append_assoc a, resources_append_of_opensLine h ha, ← List.append_assoc l, hcut]

/-- The inline markers of a text are still there when something is put in front of it, unless a
resource then holds two delimiters. -/
theorem sublist_resources_append (h : style.StartsWith d) (t u : Text) :
    ((style.resources u).filter (d ∈ ·)).Sublist ((style.resources (t ++ u)).filter (d ∈ ·)) ∨
      ∃ z ∈ style.resources (t ++ u), 2 ≤ z.count d := by
  obtain ⟨l, line, front, rest, hlt, hu, htu⟩ := exists_seam h t u
  have hline : '\n' ∉ line := fun hn => hlt (List.mem_append_right l hn)
  rw [hu, htu, resources_of_one_line h hline, resources_of_one_line h hlt, List.filter_append,
    List.filter_append, List.filter_append]
  rcases sublist_firstResource?_append h hlt with hsub | ⟨z, hz, hcount⟩
  · exact .inl ((hsub.append_right _).trans (List.sublist_append_right _ _))
  · exact .inr ⟨z, by simp [hz], hcount⟩

end MarkerStyle
end TemplateSplice
