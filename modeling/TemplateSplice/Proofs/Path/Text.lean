import Mathlib.Tactic.SplitIfs
import TemplateSplice.Path.Normal
import TemplateSplice.Proofs.Text.Parts

/-! The text of a path. A path whose segments are read as they are written is the path of its own
text; the paths of texts are such, and normalizing keeps them so. Such paths differ in their parts if
they differ at all. A null character in the text comes from a segment. -/
namespace TemplateSplice.Path

/-- A path whose segments are the segments of its text. -/
def Plain (p : Path) : Prop := ∀ s ∈ p.segments, s ≠ [] ∧ s ≠ dot ∧ '/' ∉ s

theorem plain_ofText (t : Text) : (ofText t).Plain := by
  intro s hs
  obtain ⟨hs, hne⟩ := List.mem_filter.mp hs
  obtain ⟨hnil, hdot⟩ := of_decide_eq_true hne
  exact ⟨hnil, hdot, Text.not_mem_of_mem_splitOn hs⟩

lemma mem_push {anchor : Anchor} {stack : List Text} {s u : Text} (h : u ∈ push anchor stack s) :
    u = s ∨ u = dotDot ∨ u ∈ stack := by
  unfold push at h
  by_cases hs : s = dotDot
  · rw [if_neg (fun hn => hn hs)] at h
    cases stack with
    | nil =>
      dsimp only at h
      split at h
      · exact .inr (.inl (List.mem_singleton.mp h))
      · simp at h
    | cons top below =>
      dsimp only at h
      split at h
      · exact .inr (List.mem_cons.mp h)
      · exact .inr (.inr (List.mem_cons_of_mem top h))
  · rw [if_pos hs] at h
    exact (List.mem_cons.mp h).imp_right .inr

/-- Normalizing makes no segments but double dots. -/
lemma mem_foldl_push {anchor : Anchor} {stack segments : List Text} {u : Text}
    (h : u ∈ segments.foldl (push anchor) stack) : u ∈ segments ∨ u = dotDot ∨ u ∈ stack := by
  induction segments generalizing stack with
  | nil => exact .inr (.inr h)
  | cons s segments ih =>
    rcases ih h with h | h | h
    · exact .inl (List.mem_cons_of_mem s h)
    · exact .inr (.inl h)
    · rcases mem_push h with rfl | h | h
      · exact .inl List.mem_cons_self
      · exact .inr (.inl h)
      · exact .inr (.inr h)

theorem Plain.normalize {p : Path} (h : p.Plain) : p.normalize.Plain := by
  intro s hs
  rcases mem_foldl_push (List.mem_reverse.mp hs) with hs | rfl | hs
  · exact h s hs
  · decide
  · simp at hs

lemma Plain.join {p q : Path} (hp : p.Plain) (hq : q.Plain) : (p.join q).Plain := by
  unfold Path.join
  split_ifs
  · exact hq
  · exact fun s hs => (List.mem_append.mp hs).elim (hp s) (hq s)

lemma anchor_join {p : Path} (hp : p.anchor ≠ .here) (q : Path) : (p.join q).anchor ≠ .here := by
  unfold Path.join
  split_ifs with hq
  · simpa [isAbsolute] using hq
  · exact hp

lemma takeWhile_joinWith {segments : List Text} (hne : segments ≠ [])
    (h : ∀ s ∈ segments, s ≠ [] ∧ s ≠ dot ∧ '/' ∉ s) (slashes : Nat) :
    (List.replicate slashes '/' ++ Text.joinWith ['/'] segments).takeWhile (· == '/') =
      List.replicate slashes '/' := by
  obtain ⟨s, r, rfl⟩ := List.exists_cons_of_ne_nil hne
  obtain ⟨hs, _, hslash⟩ := h s List.mem_cons_self
  obtain ⟨c, s, rfl⟩ := List.exists_cons_of_ne_nil hs
  have hc : c ≠ '/' := fun hc => hslash (by simp [hc])
  rw [Text.joinWith_cons_cons, List.takeWhile_append_of_pos (by simp)]
  simp [hc]

lemma splitOn_replicate (slashes : Nat) (t : Text) :
    Text.splitOn ['/'] (List.replicate slashes '/' ++ t) =
      List.replicate slashes [] ++ Text.splitOn ['/'] t := by
  induction slashes with
  | zero => rfl
  | succ n ih => rw [List.replicate_succ, List.cons_append, Text.splitOn_cons_self, ih]; rfl

/-- The slashes of an anchor make that anchor. -/
lemma anchor_text (a : Anchor) :
    ∃ n, a.text = List.replicate n '/' ∧ Anchor.ofSlashes n = a := by
  cases a
  · exact ⟨0, rfl, rfl⟩
  · exact ⟨1, rfl, rfl⟩
  · exact ⟨2, rfl, rfl⟩

/-- The text of a path: its slashes, and its segments with slashes between them. -/
lemma text_eq_append {p : Path} (hne : p.segments ≠ []) :
    p.text = p.anchor.text ++ Text.joinWith ['/'] p.segments := by
  obtain ⟨a, segments⟩ := p
  obtain ⟨s, r, rfl⟩ := List.exists_cons_of_ne_nil hne
  cases a <;> rfl

lemma exists_text_eq {p : Path} (hne : p.segments ≠ []) :
    ∃ n, p.text = List.replicate n '/' ++ Text.joinWith ['/'] p.segments ∧
      Anchor.ofSlashes n = p.anchor := by
  obtain ⟨n, hn, ha⟩ := anchor_text p.anchor
  exact ⟨n, by rw [text_eq_append hne, hn], ha⟩

/-- The text of a plain path has its segments between the slashes, after the empty parts that slashes
in front make. -/
lemma Plain.exists_splitOn_text {p : Path} (h : p.Plain) (hne : p.segments ≠ []) :
    ∃ n, Text.splitOn ['/'] p.text = List.replicate n [] ++ p.segments := by
  obtain ⟨n, ht, _⟩ := exists_text_eq hne
  exact ⟨n, by rw [ht, splitOn_replicate, Text.splitOn_joinWith hne fun s hs => (h s hs).2.2]⟩

/-- The text of a plain path does not end in a slash, unless it is all slashes. -/
lemma Plain.getLast?_text {p : Path} (h : p.Plain) (hne : p.segments ≠ []) :
    p.text.getLast? ≠ some '/' := by
  obtain ⟨n, ht, _⟩ := exists_text_eq hne
  obtain ⟨s, hs⟩ := Option.ne_none_iff_exists'.mp (fun hn => hne (List.getLast?_eq_none_iff.mp hn))
  obtain ⟨u, hu⟩ := Text.exists_joinWith_eq_append ['/'] hs
  obtain ⟨hnil, _, hslash⟩ := h s (List.mem_of_getLast? hs)
  obtain ⟨c, hc⟩ := Option.ne_none_iff_exists'.mp (fun hn => hnil (List.getLast?_eq_none_iff.mp hn))
  rw [ht, hu, ← List.append_assoc, List.getLast?_append, hc]
  rintro ⟨⟩
  exact hslash (List.mem_of_getLast? hc)

/-- A plain path is the path of its text. -/
theorem Plain.ofText_text {p : Path} (h : p.Plain) : ofText p.text = p := by
  by_cases hne : p.segments = []
  · obtain ⟨a, segments⟩ := p
    obtain rfl : segments = [] := hne
    cases a <;> rfl
  · obtain ⟨n, ht, ha⟩ := exists_text_eq hne
    have hs : (Text.splitOn ['/'] (Text.joinWith ['/'] p.segments)).filter
        (fun s => s ≠ [] ∧ s ≠ dot) = p.segments := by
      rw [Text.splitOn_joinWith hne fun s hs => (h s hs).2.2, List.filter_eq_self]
      exact fun s hs => decide_eq_true ⟨(h s hs).1, (h s hs).2.1⟩
    rw [ht, ofText, takeWhile_joinWith hne h, List.length_replicate, ha, splitOn_replicate,
      List.filter_append, hs]
    simp

/-- A plain path starts with a slash if it is absolute. -/
lemma Plain.head?_text {p : Path} (h : p.Plain) : p.text.head? = some '/' ↔ p.anchor ≠ .here := by
  obtain ⟨a, segments⟩ := p
  cases a with
  | root => simp [text, Anchor.text]
  | doubleRoot => simp [text, Anchor.text]
  | here =>
    cases segments with
    | nil => simp [text, dot]
    | cons s r =>
      obtain ⟨hne, _, hslash⟩ := h s List.mem_cons_self
      obtain ⟨c, s, rfl⟩ := List.exists_cons_of_ne_nil hne
      have hc : c ≠ '/' := fun hc => hslash (by simp [hc])
      simp [text, Anchor.text, Text.joinWith_cons_cons, hc]

lemma anchor_ofText (t : Text) : (ofText t).anchor ≠ .here ↔ t.head? = some '/' := by
  cases t with
  | nil => simp [ofText, Anchor.ofSlashes]
  | cons c r =>
    by_cases hc : c = '/'
    · subst hc
      rw [ofText, List.takeWhile_cons_of_pos (by simp), List.length_cons]
      rcases hn : (r.takeWhile (· == '/')).length with _ | _ | n <;> simp [Anchor.ofSlashes]
    · rw [ofText, List.takeWhile_cons_of_neg (by simpa using hc)]
      simp [Anchor.ofSlashes, hc]

lemma exists_text_ofSlashes (n : Nat) :
    ∃ m, m ≤ n ∧ (Anchor.ofSlashes n).text = List.replicate m '/' := by
  rcases n with _ | _ | _ | n
  · exact ⟨0, Nat.le_refl 0, rfl⟩
  · exact ⟨1, Nat.le_refl 1, rfl⟩
  · exact ⟨2, Nat.le_refl 2, rfl⟩
  · exact ⟨1, by omega, rfl⟩

/-- A text is the slashes in front and the rest. -/
lemma replicate_append_dropWhile (t : Text) :
    List.replicate (t.takeWhile (· == '/')).length '/' ++ t.dropWhile (· == '/') = t := by
  have hslashes : t.takeWhile (· == '/') = List.replicate (t.takeWhile (· == '/')).length '/' :=
    List.eq_replicate_iff.mpr ⟨rfl, fun c hc => by
      simpa using List.all_eq_true.mp List.all_takeWhile c hc⟩
  rw [← hslashes, List.takeWhile_append_dropWhile]

/-- Reading a path drops characters from its text. -/
theorem text_ofText_sublist {t : Text} (hne : (ofText t).segments ≠ []) :
    (ofText t).text.Sublist t := by
  obtain ⟨n, hn⟩ : ∃ n, (t.takeWhile (· == '/')).length = n := ⟨_, rfl⟩
  obtain ⟨rest, ht⟩ : ∃ rest, t = List.replicate n '/' ++ rest :=
    ⟨_, hn ▸ (replicate_append_dropWhile t).symm⟩
  obtain ⟨m, hm, ha⟩ := exists_text_ofSlashes n
  have hanchor : (ofText t).anchor.text = List.replicate m '/' := by rw [← ha, ← hn]; rfl
  have hsegments : (ofText t).segments.Sublist (Text.splitOn ['/'] rest) := by
    have hfilter : (ofText t).segments =
        (Text.splitOn ['/'] rest).filter fun s => s ≠ [] ∧ s ≠ dot := by
      rw [ofText, ht, splitOn_replicate, List.filter_append]
      simp
    rw [hfilter]
    exact List.filter_sublist
  have htext : (ofText t).text =
      List.replicate m '/' ++ Text.joinWith ['/'] (ofText t).segments := by
    rw [← hanchor]
    exact text_eq_append hne
  have hjoin := Text.joinWith_sublist ['/'] hsegments hne
  rw [Text.joinWith_splitOn (by simp)] at hjoin
  have hsub := ((List.replicate_sublist_replicate '/').mpr hm).append hjoin
  rwa [← htext, ← ht] at hsub

/-- Segments that name something pile up, the last one on top. -/
lemma foldl_push_of_ordinary {segments : List Text} (h : ∀ s ∈ segments, Ordinary s)
    (anchor : Anchor) (stack : List Text) :
    segments.foldl (push anchor) stack = segments.reverse ++ stack := by
  induction segments generalizing stack with
  | nil => rfl
  | cons s segments ih =>
    obtain ⟨hs, hrest⟩ := List.forall_mem_cons.mp h
    have htop : push anchor stack s = s :: stack := if_pos hs.2.2.1
    rw [List.foldl_cons, htop, ih hrest, List.reverse_cons, List.append_assoc]
    rfl

section Parts

lemma text_anchor_injective {a b : Anchor} (h : a.text = b.text) : a = b := by
  cases a <;> cases b <;> first | rfl | cases h

lemma parts_of_ne_here {a : Anchor} (ha : a ≠ .here) (segments : List Text) :
    (Path.mk a segments).parts = a.text :: segments := by
  cases a
  · exact absurd rfl ha
  · rfl
  · rfl

/-- An anchor has a slash, and no segment of a plain path has one. -/
lemma Plain.text_not_mem {p : Path} (hp : p.Plain) {a : Anchor} (ha : a ≠ .here) :
    a.text ∉ p.segments := by
  intro hmem
  refine (hp _ hmem).2.2 ?_
  cases a
  · exact absurd rfl ha
  · exact List.mem_cons_self
  · exact List.mem_cons_self

/-- Plain paths with the same parts are the same. -/
theorem Plain.eq_of_parts {p q : Path} (hp : p.Plain) (hq : q.Plain) (h : p.parts = q.parts) :
    p = q := by
  obtain ⟨a, segments⟩ := p
  obtain ⟨b, segments'⟩ := q
  by_cases ha : a = .here
  · subst ha
    by_cases hb : b = .here
    · subst hb
      exact congrArg (Path.mk .here) h
    · rw [parts_of_ne_here hb] at h
      have hmem : b.text ∈ (Path.mk .here segments).parts := h ▸ List.mem_cons_self
      exact absurd hmem (hp.text_not_mem hb)
  · by_cases hb : b = .here
    · subst hb
      rw [parts_of_ne_here ha] at h
      have hmem : a.text ∈ (Path.mk .here segments').parts := h ▸ List.mem_cons_self
      exact absurd hmem (hq.text_not_mem ha)
    · rw [parts_of_ne_here ha, parts_of_ne_here hb] at h
      obtain ⟨htext, rfl⟩ := List.cons_eq_cons.mp h
      rw [text_anchor_injective htext]

end Parts

section Null

/-- There is a null character in a path. -/
def HasNull (p : Path) : Prop := ∃ s ∈ p.segments, '\x00' ∈ s

variable {p q : Path}

lemma hasNull_of_text (h : '\x00' ∈ p.text) : p.HasNull := by
  by_cases hne : p.segments = []
  · obtain ⟨a, segments⟩ := p
    obtain rfl : segments = [] := hne
    cases a <;> exact absurd h (by decide)
  · obtain ⟨n, ht, -⟩ := exists_text_eq hne
    rw [ht] at h
    rcases List.mem_append.mp h with h | h
    · exact absurd (List.mem_replicate.mp h).2 (by decide)
    · exact Text.exists_of_mem_joinWith (by decide) h

lemma HasNull.of_parent (h : p.parent.HasNull) : p.HasNull := by
  obtain ⟨s, hs, hnull⟩ := h
  exact ⟨s, List.dropLast_subset _ hs, hnull⟩

lemma HasNull.of_name (h : '\x00' ∈ p.name) : p.HasNull := by
  unfold name at h
  cases hs : p.segments.getLast? with
  | none =>
    rw [hs] at h
    cases h
  | some s =>
    rw [hs] at h
    exact ⟨s, List.mem_of_getLast? hs, h⟩

lemma HasNull.of_normalize (h : p.normalize.HasNull) : p.HasNull := by
  obtain ⟨s, hs, hnull⟩ := h
  rcases mem_foldl_push (List.mem_reverse.mp hs) with hs | rfl | hs
  · exact ⟨s, hs, hnull⟩
  · exact absurd hnull (by decide)
  · cases hs

lemma HasNull.of_join (h : (p.join q).HasNull) : p.HasNull ∨ q.HasNull := by
  obtain ⟨s, hs, hnull⟩ := h
  unfold join at hs
  split_ifs at hs
  · exact .inr ⟨s, hs, hnull⟩
  · exact (List.mem_append.mp hs).imp (fun hs => ⟨s, hs, hnull⟩) fun hs => ⟨s, hs, hnull⟩

end Null

end TemplateSplice.Path
