import TemplateSplice.Proofs.Marker.Seam

/-! Solid resources: those that end in something else than a blank. Blanks put after a text change no
solid resource of it. A line put in front of a text keeps the solid resource that the text starts with,
or a marker of that line swallows it together with the opening before it. -/
namespace TemplateSplice

/-- A resource that does not end in a blank. Only a resource that is a single blank does. -/
def isSolid (resource : Text) : Bool := resource.getLast?.any (!isLineTail ·)

lemma isSolid_iff {resource : Text} :
    isSolid resource = true ↔ ∃ c, resource.getLast? = some c ∧ isLineTail c = false := by
  unfold isSolid
  cases resource.getLast? <;> simp

lemma isSolid_append (t : Text) {resource : Text} (h : isSolid resource = true) :
    isSolid (t ++ resource) = true := by
  obtain ⟨c, hc, hs⟩ := isSolid_iff.mp h
  have hne : resource ≠ [] := fun he => by simp [he] at hc
  exact isSolid_iff.mpr ⟨c, by rw [List.getLast?_append_of_ne_nil _ hne, hc], hs⟩

lemma ResourceEnds.isSolid {resource rest : Text} (h : ResourceEnds resource rest)
    (hl : 2 ≤ resource.length) : isSolid resource = true := by
  obtain ⟨c, hc⟩ : ∃ c, resource.getLast? = some c :=
    ⟨_, List.getLast?_eq_some_getLast h.ne_nil⟩
  exact isSolid_iff.mpr ⟨c, hc, h.trimmed hl c hc⟩

lemma isBlank_of_isLineTail {c : Char} (h : isLineTail c = true) : isBlank c = true := by
  simp only [isLineTail, Bool.or_eq_true, beq_iff_eq] at h
  rcases h with (rfl | rfl) | rfl <;> rfl

namespace Text

/-- Trimming at the right gives back what blanks were put after. -/
lemma trimRight_append {t tail : Text} (ht : isSolid t = true)
    (hblank : ∀ c ∈ tail, isLineTail c = true) : trimRight isLineTail (t ++ tail) = t := by
  obtain ⟨c, hc, hs⟩ := isSolid_iff.mp ht
  obtain ⟨u, rfl⟩ := List.getLast?_eq_some_iff.mp hc
  have htail : ∀ e ∈ tail.reverse, isLineTail e = true := fun e he =>
    hblank e (List.mem_reverse.mp he)
  unfold trimRight
  rw [List.reverse_append, List.dropWhile_append_of_pos htail]
  simp [hs]

lemma trimRight_concat (t : Text) {c : Char} (hc : isLineTail c = true) :
    trimRight isLineTail (t ++ [c]) = trimRight isLineTail t := by
  simp [trimRight, hc]

end Text

/-- A line that goes up to a solid end and then on with blanks gives all of it up to that end. -/
lemma resourceAt?_of_isSolid {resource tail : Text} (h : isSolid resource = true)
    (hblank : ∀ c ∈ tail, isLineTail c = true) (hl : '\n' ∉ resource ++ tail) :
    resourceAt? (resource ++ tail) = some resource := by
  have hline : (resource ++ tail).takeWhile (· ≠ '\n') = resource ++ tail :=
    List.takeWhile_eq_self_iff.mpr fun c hc => by simpa using fun he : c = '\n' => hl (he ▸ hc)
  unfold resourceAt?
  rw [hline]
  dsimp only
  rw [Text.trimRight_append h hblank]
  cases resource with
  | nil => simp [isSolid] at h
  | cons c r => rfl

/-- What follows a resource is blanks up to the end of its line. -/
lemma exists_lineEnd_of_resourceAt? {t resource : Text} (h : resourceAt? t = some resource) :
    ∃ tail rest, t = resource ++ (tail ++ rest) ∧ (∀ c ∈ tail, isLineTail c = true) ∧
      ∀ c ∈ rest.head?, c = '\n' := by
  obtain ⟨rest, ht, hline, hnext⟩ := Text.exists_takeWhile_append t
  have hl : resourceAt? (t.takeWhile (· ≠ '\n')) = some resource := by
    unfold resourceAt? at h ⊢
    rwa [List.takeWhile_idem]
  obtain ⟨tail, htail, hblank⟩ := exists_of_resourceAt? hl hline
  exact ⟨tail, rest, by rw [← List.append_assoc, ← htail, ← ht], hblank, hnext⟩

/-- A blank put after a text that starts with a resource leaves the resource as it is. -/
lemma resourceAt?_concat {t resource : Text} {c : Char} (h : resourceAt? t = some resource)
    (hc : isLineTail c = true) : resourceAt? (t ++ [c]) = some resource := by
  have hn : c ≠ '\n' := by
    rintro rfl
    simp [isLineTail] at hc
  by_cases ht : '\n' ∈ t
  · obtain ⟨a, b, rfl⟩ := List.append_of_mem ht
    unfold resourceAt? at h ⊢
    rw [takeWhile_append_cons (by simp)] at h
    rwa [List.append_assoc, List.cons_append, takeWhile_append_cons (by simp)]
  · have hline : ∀ u : Text, '\n' ∉ u → u.takeWhile (· ≠ '\n') = u := fun u hu =>
      List.takeWhile_eq_self_iff.mpr fun e he => by simpa using fun hne : e = '\n' => hu (hne ▸ he)
    have htc : '\n' ∉ t ++ [c] := by simp [ht, hn.symm]
    unfold resourceAt? at h ⊢
    rw [hline _ ht] at h
    rw [hline _ htc]
    dsimp only at h ⊢
    rw [Text.trimRight_concat t hc]
    split at h
    · cases t with
      | nil => simp at h
      | cons e r => simpa using h
    · exact h

namespace MarkerStyle

variable {style : MarkerStyle} {d : Char}

/-- The solid resources of the markers of a body, in order. -/
def solidResources (style : MarkerStyle) (body : Text) : List Text :=
  (style.resources body).filter isSolid

@[simp] theorem solidResources_nil : style.solidResources [] = [] := by simp [solidResources]

lemma solidResources_append_newline (h : style.StartsWith d) (t u : Text) :
    style.solidResources (t ++ '\n' :: u) = style.solidResources t ++ style.solidResources u := by
  simp only [solidResources, resources_append_newline h, List.filter_append]

lemma solidResources_append_of_opensLine (h : style.StartsWith d) {t : Text}
    (ht : Text.opensLine true t = true) (u : Text) :
    style.solidResources (t ++ u) = style.solidResources t ++ style.solidResources u := by
  simp only [solidResources, resources_append_of_opensLine h ht, List.filter_append]

/-- A blank after a text that starts no marker starts one only if the text is a bare opening; the
resource is then that blank. -/
lemma resourceHere?_concat {t : Text} {c : Char} (hc : isLineTail c = true)
    (h : style.resourceHere? t = none) (ht : t ≠ []) :
    style.resourceHere? (t ++ [c]) = none ∨
      t = style.opening ∧ style.resourceHere? (t ++ [c]) = some [c] := by
  cases hz : style.resourceHere? (t ++ [c]) with
  | none => exact .inl rfl
  | some z =>
    refine .inr ?_
    have hne : c ≠ '\n' := by
      rintro rfl
      simp [isLineTail] at hc
    unfold resourceHere? at h hz
    split at hz
    · next hp =>
      obtain ⟨u, hu⟩ := List.isPrefixOf_iff_prefix.mp hp
      rw [← hu, List.drop_left] at hz
      cases hl : u.getLast? with
      | none =>
        rw [List.getLast?_eq_none_iff.mp hl] at hz
        simp [resourceAt?, Text.trimRight] at hz
      | some e =>
        obtain ⟨v, rfl⟩ := List.getLast?_eq_some_iff.mp hl
        rw [← List.append_assoc] at hu
        obtain ⟨rfl, he⟩ := List.append_inj' hu rfl
        obtain rfl : e = c := by simpa using he
        rw [if_pos (List.isPrefixOf_iff_prefix.mpr (List.prefix_append _ _)), List.drop_left] at h
        -- What stands between the opening and the blank is no resource, so there is nothing.
        cases v with
        | nil =>
          simp only [List.nil_append] at hz
          refine ⟨by simp, ?_⟩
          rw [← hz]
          simp [resourceAt?, Text.trimRight, hc, hne]
        | cons f v =>
          exfalso
          have hf : f = '\n' := by
            by_contra hf
            unfold resourceAt? at h
            simp only [ne_eq, hf, not_false_eq_true, decide_true, List.takeWhile_cons_of_pos] at h
            split at h <;> simp at h
          subst hf
          simp [resourceAt?, Text.trimRight] at hz
    · simp at hz

/-- A blank put after a text changes none of its markers. Only if the text ends in a bare opening does
it add one, whose resource is that blank. -/
theorem markersFrom_concat (h : style.StartsWith d) (p : Nat) (t : Text) {c : Char}
    (hc : isLineTail c = true) :
    style.markersFrom p 0 (t ++ [c]) = style.markersFrom p 0 t ∨
      ∃ q, style.markersFrom p 0 (t ++ [c]) =
        style.markersFrom p 0 t ++ [⟨style.opening ++ [c], [c], q, style.kindOf [c]⟩] := by
  have hd : d ∉ [c] := by
    intro hd
    simp [← List.mem_singleton.mp hd, h.solid] at hc
  have hnone : ∀ q (u : Text), d ∉ u → style.markersFrom q 0 u = [] := fun q u hu => by
    have hu' := resources_of_not_mem h hu
    rwa [← map_resource_markersFrom q, List.map_eq_nil_iff] at hu'
  induction t using style.markers_induction generalizing p with
  | nil => exact .inl (by rw [List.nil_append, hnone p _ hd, hnone p _ (by simp)])
  | plain e r hr ih =>
    rcases resourceHere?_concat hc hr (List.cons_ne_nil e r) with hr' | ⟨ho, hr'⟩
    · rw [List.cons_append] at hr' ⊢
      rw [markersFrom_plain p hr', markersFrom_plain p hr]
      exact ih (p + 1)
    · -- A bare opening holds no marker, and with the blank one.
      refine .inr ⟨p, ?_⟩
      have htail : r = style.opening.tail := by rw [← ho, List.tail_cons]
      have hm : style.resourceHere? (style.opening ++ [c] ++ []) = some [c] := by
        rwa [List.append_nil, ← ho]
      have hone := markersFrom_marker p hm
      rw [List.append_nil, hnone _ [] (by simp)] at hone
      rw [ho, hone, ← ho, markersFrom_plain p hr, hnone _ r (htail ▸ h.only), List.nil_append]
  | marker resource rest hr hm ih =>
    have hm' : style.resourceHere? (style.opening ++ resource ++ (rest ++ [c])) = some resource := by
      unfold resourceHere? at hm ⊢
      rw [if_pos (List.isPrefixOf_iff_prefix.mpr (by simp)), List.append_assoc, List.drop_left] at hm ⊢
      rw [← List.append_assoc]
      exact resourceAt?_concat hm hc
    rw [List.append_assoc _ rest, markersFrom_marker p hm', markersFrom_marker p hm]
    rcases ih (p + (style.opening ++ resource).length) with he | ⟨q, he⟩
    · exact .inl (by rw [he])
    · exact .inr ⟨q, by rw [he, List.cons_append]⟩

/-- A blank put after a text changes none of its solid resources. -/
lemma solidResources_concat (h : style.StartsWith d) (t : Text) {c : Char} (hc : isSpacing c = true) :
    style.solidResources (t ++ [c]) = style.solidResources t := by
  by_cases hn : c = '\n'
  · subst hn
    rw [solidResources_append_newline h]
    simp
  have hblank : isLineTail c = true := by simpa [isSpacing, hn] using hc
  unfold solidResources resources markers
  rcases markersFrom_concat h 0 t hblank with he | ⟨q, he⟩
  · rw [he]
  · rw [he, List.map_append, List.filter_append]
    simp [isSolid, hblank]

lemma solidResources_append_blanks (h : style.StartsWith d) (t : Text) {blanks : Text}
    (hblank : ∀ c ∈ blanks, isSpacing c = true) :
    style.solidResources (t ++ blanks) = style.solidResources t := by
  induction blanks generalizing t with
  | nil => rw [List.append_nil]
  | cons c blanks ih =>
    rw [← List.singleton_append, ← List.append_assoc,
      ih (t ++ [c]) fun e he => hblank e (List.mem_cons_of_mem c he),
      solidResources_concat h t (hblank c List.mem_cons_self)]

/-- The first marker of a line, what stands before it and the blanks after it. -/
lemma exists_of_firstResource? {t resource : Text} (h : style.firstResource? t = some resource)
    (ht : '\n' ∉ t) :
    ∃ before tail, t = before ++ (style.opening ++ resource ++ tail) ∧
      ∀ c ∈ tail, isLineTail c = true := by
  induction t with
  | nil => simp [firstResource?] at h
  | cons c r ih =>
    rcases Option.or_eq_some_iff.mp h with hhere | ⟨_, hlater⟩
    · obtain ⟨tail, htail, hblank⟩ := exists_of_resourceHere? hhere ht
      exact ⟨[], tail, htail, hblank⟩
    · obtain ⟨before, tail, rfl, hblank⟩ := ih hlater fun hn => ht (List.mem_cons_of_mem c hn)
      exact ⟨c :: before, tail, rfl, hblank⟩

/-- A line cannot start with an opening that runs into the next one. -/
lemma StartsWith.exists_opening_append (h : style.StartsWith d) {t u : Text} (ht : t ≠ [])
    (hp : style.opening <+: t ++ (style.opening ++ u)) : ∃ v, t = style.opening ++ v := by
  rcases List.prefix_or_prefix_of_prefix hp (List.prefix_append t _) with ⟨v, rfl⟩ | ⟨v, hv⟩
  · exact ⟨v, rfl⟩
  · cases v with
    | nil => exact ⟨[], by rw [← hv, List.append_nil, List.append_nil]⟩
    | cons e v =>
      -- The first character of the second opening would stand within the first one.
      obtain ⟨c, t, rfl⟩ := List.exists_cons_of_ne_nil ht
      have htail : style.opening.tail = t ++ e :: v := by rw [← hv, List.cons_append, List.tail_cons]
      rw [← hv, List.prefix_append_right_inj, hv, h.opening_eq, List.cons_append,
        List.cons_prefix_cons] at hp
      exact absurd (htail ▸ List.mem_append_right t (hp.1 ▸ List.mem_cons_self)) h.only

/-- A line put in front of a text keeps the solid resource that the text starts with, or holds a
marker that swallows it. -/
lemma firstResource?_append_of_isSolid (h : style.StartsWith d) {l t resource : Text}
    (hr : style.firstResource? t = some resource) (hs : isSolid resource = true)
    (ht : '\n' ∉ l ++ t) :
    ∃ z, style.firstResource? (l ++ t) = some z ∧
      (z = resource ∨ ∃ y, z = y ++ style.opening ++ resource) := by
  induction l with
  | nil => exact ⟨resource, hr, .inl rfl⟩
  | cons c l ih =>
    obtain ⟨z, hz, hor⟩ := ih fun hn => ht (List.mem_cons_of_mem c hn)
    rw [List.cons_append, firstResource?]
    cases hhere : style.resourceHere? (c :: (l ++ t)) with
    | none => exact ⟨z, hz, hor⟩
    | some z' =>
      obtain ⟨before, tail, rfl, hblank⟩ :=
        exists_of_firstResource? hr fun hn => ht (List.mem_append_right _ hn)
      unfold resourceHere? at hhere
      split at hhere
      · next hp =>
        have he : c :: (l ++ (before ++ (style.opening ++ resource ++ tail))) =
            (c :: (l ++ before)) ++ (style.opening ++ (resource ++ tail)) := by simp
        rw [List.isPrefixOf_iff_prefix, he] at hp
        obtain ⟨y, hy⟩ := h.exists_opening_append (List.cons_ne_nil c _) hp
        have hz' : c :: (l ++ (before ++ (style.opening ++ resource ++ tail))) =
            style.opening ++ ((y ++ style.opening ++ resource) ++ tail) := by
          rw [he, hy]
          simp
        have hline : '\n' ∉ (y ++ style.opening ++ resource) ++ tail := fun hn =>
          ht (by rw [List.cons_append, hz']; exact List.mem_append_right _ hn)
        rw [hz', List.drop_left, resourceAt?_of_isSolid (isSolid_append _ hs) hblank hline] at hhere
        cases hhere
        exact ⟨_, rfl, .inr ⟨y, rfl⟩⟩
      · simp at hhere

/-- A resource that holds an opening and a solid resource after it. -/
def Swallows (style : MarkerStyle) (z : Text) : Prop :=
  ∃ y resource, z = y ++ style.opening ++ resource ∧ isSolid resource = true

lemma sublist_solidResources_line (h : style.StartsWith d) {l t : Text} (ht : '\n' ∉ l ++ t) :
    (style.solidResources t).Sublist (style.solidResources (l ++ t)) ∨
      ∃ z ∈ style.solidResources (l ++ t), style.Swallows z := by
  unfold solidResources
  rw [resources_of_one_line h ht, resources_of_one_line h fun hn => ht (List.mem_append_right l hn)]
  cases hr : style.firstResource? t with
  | none => exact .inl (List.nil_sublist _)
  | some resource =>
    by_cases hs : isSolid resource = true
    · obtain ⟨z, hz, rfl | ⟨y, rfl⟩⟩ := firstResource?_append_of_isSolid h hr hs ht
      · rw [hz]
        exact .inl (List.Sublist.refl _)
      · rw [hz]
        exact .inr ⟨_, List.mem_filter.mpr ⟨List.mem_singleton_self _, isSolid_append _ hs⟩, y,
          resource, rfl, hs⟩
    · simp [hs]

/-- The solid resources of a text are still there when something is put in front of it, unless one of
them is swallowed. -/
theorem sublist_solidResources_append (h : style.StartsWith d) (t u : Text) :
    (style.solidResources u).Sublist (style.solidResources (t ++ u)) ∨
      ∃ z ∈ style.solidResources (t ++ u), style.Swallows z := by
  obtain ⟨l, line, front, rest, hlt, hu, htu⟩ := exists_seam h t u
  unfold solidResources
  rw [hu, htu, List.filter_append, List.filter_append, List.filter_append]
  rcases sublist_solidResources_line h hlt with hsub | ⟨z, hz, hswallows⟩
  · exact .inl ((hsub.append_right _).trans (List.sublist_append_right _ _))
  · exact .inr ⟨z, List.mem_append_right _ (List.mem_append_left _ hz), hswallows⟩

/-- What follows a marker in its body is the end of its line. -/
lemma exists_lineEnd_of_mem_markersFrom {p : Nat} {t : Text} {m : Marker}
    (h : m ∈ style.markersFrom p 0 t) :
    ∃ before tail rest, t = before ++ (m.text ++ (tail ++ rest)) ∧ m.start = p + before.length ∧
      (∀ c ∈ tail, isLineTail c = true) ∧ ∀ c ∈ rest.head?, c = '\n' := by
  obtain ⟨before, rest, ht, hs, htext, _, _, hhere⟩ := exists_of_mem_markersFrom h
  unfold resourceHere? at hhere
  rw [htext, if_pos (List.isPrefixOf_iff_prefix.mpr (by simp)), List.append_assoc, List.drop_left]
    at hhere
  obtain ⟨tail, rest', he, hends⟩ := exists_lineEnd_of_resourceAt? hhere
  rw [List.append_cancel_left_eq] at he
  exact ⟨before, tail, rest', by rw [ht, he], hs, hends⟩

end MarkerStyle
end TemplateSplice
