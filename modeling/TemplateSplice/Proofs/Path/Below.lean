import TemplateSplice.Proofs.Path.Text

/-! Paths below a directory, and what becomes of them when another directory takes its place. A
relative reference that never leads above the directory means the same file below either. -/
namespace TemplateSplice.Path

/-- The path of segments below a directory. -/
def under (directory : Path) (segments : List Text) : Path :=
  { directory with segments := directory.segments ++ segments }

/-- A path leads to something in a directory, however deep. -/
def Contains (directory p : Path) : Prop := ∃ s segments, p = directory.under (s :: segments)

/-- The path with one directory in place of another in front; other paths stay as they are. -/
def rebase (p old new : Path) : Path :=
  if p.anchor = old.anchor ∧ old.segments <+: p.segments then
    new.under (p.segments.drop old.segments.length)
  else p

/-- Whether a walk along segments that starts at some depth below a directory stays in it. -/
def staysBelow : Nat → List Text → Bool
  | _, [] => true
  | depth, s :: segments =>
    if s = dotDot then decide (0 < depth) && staysBelow (depth - 1) segments
    else staysBelow (depth + 1) segments

/-- A reference of the file at some segments below a directory is relative, and the walk along it
stays in the directory. -/
def LeadsInside (segments : List Text) (reference : Path) : Prop :=
  reference.anchor = .here ∧ staysBelow 0 (segments.dropLast ++ reference.segments) = true

instance (segments : List Text) (reference : Path) : Decidable (LeadsInside segments reference) :=
  inferInstanceAs (Decidable (_ ∧ _))

/-- Where a reference of the file at some segments leads, seen from the directory. -/
def inside (segments : List Text) (reference : Path) : List Text :=
  ((Path.mk .here segments).resolve reference).segments

variable {old new p : Path} {segments : List Text} {reference : Path}

@[simp] lemma anchor_under (directory : Path) (segments : List Text) :
    (directory.under segments).anchor = directory.anchor := rfl

@[simp] lemma segments_under (directory : Path) (segments : List Text) :
    (directory.under segments).segments = directory.segments ++ segments := rfl

lemma under_inj {directory : Path} {segments segments' : List Text} :
    directory.under segments = directory.under segments' ↔ segments = segments' := by
  simp [under]

@[simp] lemma rebase_under (old new : Path) (segments : List Text) :
    (old.under segments).rebase old new = new.under segments := by
  have hold : (old.under segments).anchor = old.anchor ∧
      old.segments <+: (old.under segments).segments := ⟨rfl, List.prefix_append _ _⟩
  rw [rebase, if_pos hold, segments_under, List.drop_left]

/-- A walk that stays below a directory goes the same way wherever the directory is: what is pushed
and taken back is only what the walk itself has put on the stack. -/
lemma foldl_push_append {segments stack : List Text} (hstack : dotDot ∉ stack)
    (h : staysBelow stack.length segments = true) (a b : Anchor) (base : List Text) :
    segments.foldl (push a) (stack ++ base) = segments.foldl (push b) stack ++ base := by
  induction segments generalizing stack with
  | nil => rfl
  | cons s segments ih =>
    rw [List.foldl_cons, List.foldl_cons]
    by_cases hs : s = dotDot
    · subst hs
      rw [staysBelow, if_pos rfl, Bool.and_eq_true, decide_eq_true_iff] at h
      obtain ⟨hdepth, hrest⟩ := h
      obtain ⟨top, below, rfl⟩ := List.exists_cons_of_ne_nil (List.ne_nil_of_length_pos hdepth)
      obtain ⟨htop, hbelow⟩ := not_or.mp (mt List.mem_cons.mpr hstack)
      have hpop : ∀ (anchor : Anchor) (rest : List Text), push anchor (top :: rest) dotDot = rest :=
        fun _ _ => by simp [push, Ne.symm htop]
      rw [List.cons_append, hpop, hpop]
      exact ih hbelow hrest
    · rw [staysBelow, if_neg hs] at h
      have hpush : ∀ (anchor : Anchor) (rest : List Text), push anchor rest s = s :: rest :=
        fun _ _ => if_pos hs
      rw [hpush, hpush, ← List.cons_append]
      exact ih (by simp [hstack, Ne.symm hs]) h

/-- A reference that leads inside a directory means the same file below it wherever the directory
is. -/
theorem resolve_under {directory : Path} (hdirectory : ∀ s ∈ directory.segments, Ordinary s)
    (hne : segments ≠ []) (h : LeadsInside segments reference) :
    (directory.under segments).resolve reference = directory.under (inside segments reference) := by
  obtain ⟨hrelative, hwalk⟩ := h
  have hjoin : (directory.under segments).parent.join reference =
      directory.under (segments.dropLast ++ reference.segments) := by
    simp [join, isAbsolute, hrelative, parent, under, List.dropLast_append_of_ne_nil hne]
  have hjoin' : (Path.mk .here segments).parent.join reference =
      ⟨.here, segments.dropLast ++ reference.segments⟩ := by
    simp [join, isAbsolute, hrelative, parent]
  -- The segments of the directory pile up first; the walk then leaves them alone.
  have hfold : (directory.segments ++ (segments.dropLast ++ reference.segments)).foldl
        (push directory.anchor) [] =
      (segments.dropLast ++ reference.segments).foldl (push .here) [] ++
        directory.segments.reverse := by
    rw [List.foldl_append, foldl_push_of_ordinary hdirectory, List.append_nil]
    have hempty : dotDot ∉ ([] : List Text) := List.not_mem_nil
    exact foldl_push_append hempty hwalk _ _ _
  unfold inside resolve
  rw [hjoin, hjoin', normalize, normalize, segments_under, anchor_under, hfold, List.reverse_append,
    List.reverse_reverse]
  rfl

end TemplateSplice.Path
