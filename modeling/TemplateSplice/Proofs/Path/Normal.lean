import TemplateSplice.Proofs.Path.Text

/-! Normal forms. Normalizing gives a normal form and leaves normal forms as they are. It may be done
at any time: what is joined to a path leads to the same place if the path is normalized first. So
references that end in names, followed one after the other, lead where one walk along them leads. -/
namespace TemplateSplice.Path

/-- A stack with double dots at its bottom only, and none above an anchor. -/
def DotsBelow (anchor : Anchor) (stack : List Text) : Prop :=
  ∃ names ups, stack = names ++ List.replicate ups dotDot ∧ dotDot ∉ names ∧
    (anchor ≠ .here → ups = 0)

variable {anchor : Anchor} {stack : List Text} {p q : Path}

lemma DotsBelow.push (h : DotsBelow anchor stack) (s : Text) :
    DotsBelow anchor (push anchor stack s) := by
  obtain ⟨names, ups, rfl, hnames, hups⟩ := h
  by_cases hs : s = dotDot
  · subst hs
    cases names with
    | cons top below =>
      have htop : top ≠ dotDot := fun ht => hnames (by simp [ht])
      have hpop : Path.push anchor (top :: (below ++ List.replicate ups dotDot)) dotDot =
          below ++ List.replicate ups dotDot := by simp [Path.push, htop]
      exact ⟨below, ups, hpop, fun hb => hnames (List.mem_cons_of_mem top hb), hups⟩
    | nil =>
      cases ups with
      | succ n =>
        have ha : anchor = .here :=
          Decidable.not_not.mp fun ha => absurd (hups ha) (Nat.succ_ne_zero n)
        exact ⟨[], n + 2, by simp [Path.push, List.replicate_succ], hnames, fun hn => absurd ha hn⟩
      | zero =>
        by_cases ha : anchor = .here
        · exact ⟨[], 1, by simp [Path.push, ha], hnames, fun hn => absurd ha hn⟩
        · exact ⟨[], 0, by simp [Path.push, ha], hnames, fun _ => rfl⟩
  · refine ⟨s :: names, ups, if_pos hs, ?_, hups⟩
    simp [hnames, Ne.symm hs]

lemma DotsBelow.foldl_push (h : DotsBelow anchor stack) (segments : List Text) :
    DotsBelow anchor (segments.foldl (Path.push anchor) stack) := by
  induction segments generalizing stack with
  | nil => exact h
  | cons s segments ih => exact ih (h.push s)

lemma dotsBelow_foldl_push (anchor : Anchor) (segments : List Text) :
    DotsBelow anchor (segments.foldl (push anchor) []) :=
  DotsBelow.foldl_push ⟨[], 0, rfl, List.not_mem_nil, fun _ => rfl⟩ segments

/-- Such a stack comes back when its segments are pushed again. -/
lemma DotsBelow.foldl_push_reverse (h : DotsBelow anchor stack) :
    stack.reverse.foldl (Path.push anchor) [] = stack := by
  obtain ⟨names, ups, rfl, hnames, hups⟩ := h
  induction names with
  | cons s names ih =>
    have hs : s ≠ dotDot := fun hs => hnames (by simp [hs])
    rw [List.cons_append, List.reverse_cons, List.foldl_append,
      ih fun hn => hnames (List.mem_cons_of_mem s hn)]
    exact if_pos hs
  | nil =>
    rw [List.nil_append, List.reverse_replicate]
    by_cases ha : anchor = .here
    · subst ha
      induction ups with
      | zero => rfl
      | succ n ih =>
        rw [List.replicate_succ', List.foldl_append, ih (by simp), ← List.replicate_succ']
        cases n <;> rfl
    · rw [hups ha]
      rfl

lemma foldl_push_normalize (p : Path) :
    p.normalize.segments.foldl (push p.anchor) [] = p.segments.foldl (push p.anchor) [] :=
  (dotsBelow_foldl_push p.anchor p.segments).foldl_push_reverse

@[simp] lemma anchor_normalize (p : Path) : p.normalize.anchor = p.anchor := rfl

@[simp] theorem normalize_normalize (p : Path) : p.normalize.normalize = p.normalize := by
  rw [normalize, anchor_normalize, foldl_push_normalize]
  rfl

lemma IsNormal.plain (h : p.IsNormal) : p.Plain := by
  obtain ⟨ups, rest, hsegments, hrest, -⟩ := h
  intro s hs
  rw [hsegments, List.mem_append] at hs
  rcases hs with hs | hs
  · obtain rfl := List.eq_of_mem_replicate hs
    decide
  · obtain ⟨hne, hdot, -, hslash⟩ := hrest s hs
    exact ⟨hne, hdot, hslash⟩

theorem Plain.isNormal_normalize (h : p.Plain) : p.normalize.IsNormal := by
  obtain ⟨names, ups, hstack, hnames, hups⟩ := dotsBelow_foldl_push p.anchor p.segments
  have hsegments : p.normalize.segments = List.replicate ups dotDot ++ names.reverse := by
    rw [Path.normalize, hstack, List.reverse_append, List.reverse_replicate]
  refine ⟨ups, names.reverse, hsegments, fun s hs => ?_, hups⟩
  obtain ⟨hne, hdot, hslash⟩ := h.normalize s (hsegments ▸ List.mem_append_right _ hs)
  exact ⟨hne, hdot, fun he => hnames (List.mem_reverse.mp (he ▸ hs)), hslash⟩

lemma Plain.parent (h : p.Plain) : p.parent.Plain := fun s hs => h s (List.dropLast_subset _ hs)

/-- What a reference means in a document is in normal form. -/
theorem Plain.isNormal_resolve (hp : p.Plain) (hq : q.Plain) : (p.resolve q).IsNormal :=
  (hp.parent.join hq).isNormal_normalize

theorem IsNormal.normalize_eq (h : p.IsNormal) : p.normalize = p := by
  obtain ⟨ups, rest, hsegments, hrest, hups⟩ := h
  have hstack : DotsBelow p.anchor p.segments.reverse :=
    ⟨rest.reverse, ups, by rw [hsegments, List.reverse_append, List.reverse_replicate],
      fun hd => (hrest _ (List.mem_reverse.mp hd)).2.2.1 rfl, hups⟩
  have hfold := hstack.foldl_push_reverse
  rw [List.reverse_reverse] at hfold
  rw [normalize, hfold, List.reverse_reverse]

/-- The normal forms are the paths that come of normalizing the path of a text. -/
theorem isNormal_iff : p.IsNormal ↔ ∃ t, (ofText t).normalize = p := by
  constructor
  · exact fun h => ⟨p.text, by rw [h.plain.ofText_text, h.normalize_eq]⟩
  · rintro ⟨t, rfl⟩
    exact (plain_ofText t).isNormal_normalize

/-- The segments of an absolute path in normal form all name something. -/
theorem Plain.ordinary (h : p.Plain) (ha : p.anchor ≠ .here) :
    ∀ s ∈ p.normalize.segments, Ordinary s := by
  obtain ⟨ups, rest, hsegments, hrest, hups⟩ := h.isNormal_normalize
  obtain rfl := hups ha
  rwa [hsegments]

/-- A path from a root, in normal form. -/
structure IsPlace (p : Path) : Prop where
  normal : p.IsNormal
  absolute : p.anchor ≠ .here

lemma IsPlace.ordinary (h : p.IsPlace) : ∀ s ∈ p.segments, Ordinary s :=
  h.normal.normalize_eq ▸ h.normal.plain.ordinary h.absolute

lemma IsPlace.resolve (h : p.IsPlace) (hq : q.Plain) : (p.resolve q).IsPlace where
  normal := h.normal.plain.isNormal_resolve hq
  absolute := anchor_join (p := p.parent) h.absolute q

/-- A path in normal form is that of its own text, again in normal form. -/
theorem Plain.normalize_ofText_text (h : p.Plain) :
    (ofText p.normalize.text).normalize = p.normalize := by
  rw [h.normalize.ofText_text, normalize_normalize]

section Join

lemma join_of_isAbsolute (p : Path) (hq : q.isAbsolute = true) : p.join q = q := if_pos hq

/-- What is joined to a path leads to the same place if the path is normalized first. -/
theorem normalize_join (p q : Path) : (p.normalize.join q).normalize = (p.join q).normalize := by
  by_cases hq : q.isAbsolute = true
  · rw [join_of_isAbsolute _ hq, join_of_isAbsolute _ hq]
  · simp only [join, if_neg hq]
    unfold normalize
    rw [List.foldl_append, List.foldl_append]
    exact congrArg (fun stack => Path.mk p.anchor (q.segments.foldl (push p.anchor) stack).reverse)
      (foldl_push_normalize p)

lemma normalize_join_congr {p' : Path} (h : p.normalize = p'.normalize) (q : Path) :
    (p.join q).normalize = (p'.join q).normalize := by
  rw [← normalize_join p, h, normalize_join]

/-- The last segment of a path names something. -/
def EndsInName (p : Path) : Prop := p.name ≠ [] ∧ p.name ≠ dotDot

instance (p : Path) : Decidable p.EndsInName := inferInstanceAs (Decidable (_ ∧ _))

lemma EndsInName.exists_segments (h : p.EndsInName) :
    ∃ init s, p.segments = init ++ [s] ∧ s ≠ dotDot := by
  obtain ⟨hne, hdots⟩ := h
  have hsegments : p.segments ≠ [] := fun hn => hne (by simp [name, hn])
  refine ⟨p.segments.dropLast, p.segments.getLast hsegments,
    (List.dropLast_concat_getLast hsegments).symm, ?_⟩
  rwa [name, List.getLast?_eq_some_getLast hsegments] at hdots

/-- A path that ends in a name can be normalized before or after its last segment is dropped. -/
lemma EndsInName.parent_normalize (h : p.EndsInName) : p.normalize.parent = p.parent.normalize := by
  obtain ⟨init, s, hsegments, hs⟩ := h.exists_segments
  have hpush : p.segments.foldl (push p.anchor) [] = s :: init.foldl (push p.anchor) [] := by
    rw [hsegments, List.foldl_append]
    exact if_pos hs
  have hinit : p.segments.dropLast = init := by rw [hsegments, List.dropLast_concat]
  unfold parent normalize
  rw [hpush, hinit, List.reverse_cons, List.dropLast_concat]

lemma EndsInName.join (h : q.EndsInName) (p : Path) : (p.join q).EndsInName := by
  obtain ⟨init, s, hsegments, -⟩ := h.exists_segments
  have hname : (p.join q).name = q.name := by
    unfold Path.join name
    split_ifs
    · rfl
    · simp [hsegments]
  rwa [EndsInName, hname]

lemma EndsInName.parent_join (h : q.EndsInName) (p : Path) :
    (p.join q).parent = p.join q.parent := by
  obtain ⟨init, s, hsegments, -⟩ := h.exists_segments
  by_cases hq : q.isAbsolute = true
  · have hparent : q.parent.isAbsolute = true := hq
    rw [join_of_isAbsolute p hq, join_of_isAbsolute p hparent]
  · have hparent : ¬ q.parent.isAbsolute = true := hq
    rw [Path.join, if_neg hq, Path.join, if_neg hparent]
    unfold parent
    simp [hsegments, ← List.append_assoc]

end Join

section Walk

/-- Where one lexical walk leads: along the directories of some references, and then to one more. An
absolute path on the way discards what precedes it. -/
def walk (p : Path) (earlier : List Path) (last : Path) : Path :=
  ((earlier.foldl (fun directory r => directory.join r.parent) p.parent).join last).normalize

/-- Where references lead, each one from where the one before it has led. -/
def stops (p : Path) : List Path → List Path
  | [] => []
  | r :: rs => p.resolve r :: (p.resolve r).stops rs

/-- References lead from one path in normal form to another. -/
theorem IsNormal.foldl_resolve (hp : p.IsNormal) {references : List Path}
    (h : ∀ r ∈ references, r.Plain) : (references.foldl resolve p).IsNormal := by
  induction references generalizing p with
  | nil => exact hp
  | cons r references ih =>
    obtain ⟨hr, hrest⟩ := List.forall_mem_cons.mp h
    exact ih (hp.plain.isNormal_resolve hr) hrest

lemma foldl_resolve_mem_stops (p : Path) (earlier : List Path) (last : Path) :
    (earlier ++ [last]).foldl resolve p ∈ p.stops (earlier ++ [last]) := by
  induction earlier generalizing p with
  | nil => exact List.mem_cons_self
  | cons r earlier ih => exact List.mem_cons_of_mem _ (ih (p.resolve r))

/-- The directory of what a reference means, up to normal form. -/
lemma EndsInName.normalize_parent_resolve {r : Path} (h : r.EndsInName) {directory : Path}
    (hp : p.parent.normalize = directory.normalize) :
    (p.resolve r).parent.normalize = (directory.join r.parent).normalize :=
  calc (p.resolve r).parent.normalize
      = (p.parent.join r).parent.normalize := by
        rw [resolve, (h.join _).parent_normalize, normalize_normalize]
    _ = (p.parent.join r.parent).normalize := by rw [h.parent_join]
    _ = (directory.join r.parent).normalize := normalize_join_congr hp _

/-- References that end in names, followed one after the other, lead where one walk leads. -/
theorem foldl_resolve {earlier : List Path} (h : ∀ r ∈ earlier, r.EndsInName) (last : Path) :
    (earlier ++ [last]).foldl resolve p = p.walk earlier last := by
  suffices ∀ directory : Path, p.parent.normalize = directory.normalize →
      (earlier ++ [last]).foldl resolve p =
        ((earlier.foldl (fun d r => d.join r.parent) directory).join last).normalize from this _ rfl
  induction earlier generalizing p with
  | nil => exact fun directory hp => normalize_join_congr hp last
  | cons r earlier ih =>
    obtain ⟨hr, hrest⟩ := List.forall_mem_cons.mp h
    exact fun directory hp => ih hrest _ (hr.normalize_parent_resolve hp)

end Walk

end TemplateSplice.Path
