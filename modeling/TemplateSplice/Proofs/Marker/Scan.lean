import Mathlib.Tactic.Lemma
import TemplateSplice.Marker.Reference
import TemplateSplice.Proofs.Text.Parts
import TemplateSplice.Proofs.Text.Strip

/-! Where markers stand. Each marker of a body is written there as its token, a space and its
resource, which runs up to the blanks at the end of its line; and markers do not overlap. -/
namespace TemplateSplice

namespace Text

/-- The first line of a text, and what follows it from its line feed on. -/
lemma exists_takeWhile_append (t : Text) :
    ∃ rest, t = t.takeWhile (· ≠ '\n') ++ rest ∧ '\n' ∉ t.takeWhile (· ≠ '\n') ∧
      ∀ c ∈ rest.head?, c = '\n' := by
  refine ⟨t.dropWhile (· ≠ '\n'), List.takeWhile_append_dropWhile.symm, fun hc => ?_,
    fun c hc => ?_⟩
  · simpa using List.all_eq_true.mp (List.all_takeWhile (l := t) (p := (· ≠ '\n'))) _ hc
  · have h := List.head?_dropWhile_not (fun c => decide (c ≠ '\n')) t
    rw [Option.mem_def.mp hc] at h
    simpa using h

end Text

/-- The characters that may follow a resource: those cut off at the end of its line, and the line
feed. -/
def isSpacing (c : Char) : Bool := isLineTail c || c == '\n'

/-- A resource, and what follows it in its body. -/
structure ResourceEnds (resource rest : Text) : Prop where
  ne_nil : resource ≠ []
  one_line : '\n' ∉ resource
  spaced : ∀ c ∈ rest.head?, isSpacing c = true
  /-- A resource may be a single blank, but a longer one ends in no blank. -/
  trimmed : 2 ≤ resource.length → ∀ c ∈ resource.getLast?, isLineTail c = false

/-- A resource of more than one character ends in neither a blank nor a line feed. -/
lemma ResourceEnds.not_isSpacing {resource rest : Text} (h : ResourceEnds resource rest)
    (hl : 2 ≤ resource.length) {c : Char} (hc : resource.getLast? = some c) :
    isSpacing c = false := by
  have hn : c ≠ '\n' := fun he => h.one_line (he ▸ List.mem_of_getLast? hc)
  simp [isSpacing, h.trimmed hl c hc, hn]

lemma resourceEnds_of_resourceAt? {t resource : Text} (h : resourceAt? t = some resource) :
    ∃ rest, t = resource ++ rest ∧ ResourceEnds resource rest := by
  obtain ⟨rest, ht, hline, hnext⟩ := Text.exists_takeWhile_append t
  unfold resourceAt? at h
  generalize t.takeWhile (· ≠ '\n') = line at ht hline h
  subst ht
  obtain ⟨tail, htail, hblank⟩ := Text.exists_trimRight_append isLineTail line
  have hafter : ∀ u : Text, (∀ c ∈ u, isLineTail c = true) →
      ∀ c ∈ (u ++ rest).head?, isSpacing c = true := by
    intro u hu c hc
    cases u with
    | nil => simp [isSpacing, hnext c hc]
    | cons d u =>
      obtain rfl : d = c := by simpa using hc
      simp [isSpacing, hu d List.mem_cons_self]
  dsimp only at h
  split at h
  · next hnil =>
    -- A line of blanks gives its first character.
    rw [hnil, List.nil_append] at htail
    subst htail
    cases line with
    | nil => simp at h
    | cons c r =>
      obtain rfl : [c] = resource := by simpa using h
      exact ⟨r ++ rest, rfl, by simp,
        fun hc => hline (by rw [List.mem_singleton.mp hc]; exact List.mem_cons_self),
        hafter r fun d hd => hblank d (List.mem_cons_of_mem c hd), by simp⟩
  · next hne =>
    cases h
    refine ⟨tail ++ rest, by rw [← List.append_assoc, ← htail], hne, fun hc => hline ?_,
      hafter tail hblank, fun _ c hc => Text.getLast?_trimRight hc⟩
    rw [htail]
    exact List.mem_append_left _ hc

namespace MarkerStyle

variable {style : MarkerStyle}

lemma resourceEnds_of_resourceHere? {t resource : Text}
    (h : style.resourceHere? t = some resource) :
    ∃ rest, t = style.opening ++ resource ++ rest ∧ ResourceEnds resource rest := by
  unfold resourceHere? at h
  split at h
  · next hp =>
    obtain ⟨u, rfl⟩ := List.isPrefixOf_iff_prefix.mp hp
    rw [List.drop_left] at h
    obtain ⟨rest, rfl, hr⟩ := resourceEnds_of_resourceAt? h
    exact ⟨rest, by simp, hr⟩
  · simp at h

lemma markersFrom_skip (p k : Nat) {t : Text} (hk : k ≤ t.length) :
    style.markersFrom p k t = style.markersFrom (p + k) 0 (t.drop k) := by
  induction k generalizing p t with
  | zero => rfl
  | succ k ih =>
    cases t with
    | nil => simp at hk
    | cons c t =>
      rw [markersFrom, ih (p + 1) (by simpa using hk), List.drop_succ_cons]
      congr 1
      omega

lemma markersFrom_plain (p : Nat) {c : Char} {r : Text}
    (h : style.resourceHere? (c :: r) = none) :
    style.markersFrom p 0 (c :: r) = style.markersFrom (p + 1) 0 r := by
  rw [markersFrom, h]

lemma markersFrom_marker (p : Nat) {resource rest : Text}
    (h : style.resourceHere? (style.opening ++ resource ++ rest) = some resource) :
    style.markersFrom p 0 (style.opening ++ resource ++ rest) =
      ⟨style.opening ++ resource, resource, p, style.kindOf resource⟩ ::
        style.markersFrom (p + (style.opening ++ resource).length) 0 rest := by
  obtain ⟨c, r, hr⟩ : ∃ c r, style.opening ++ resource = c :: r :=
    List.exists_cons_of_ne_nil (by simp [opening])
  rw [hr, List.cons_append] at h ⊢
  rw [markersFrom, h]
  simp only [hr]
  rw [markersFrom_skip _ _ (by simp), List.length_cons, Nat.add_sub_cancel, List.drop_left,
    Nat.add_assoc, Nat.add_comm 1]

/-- The three ways in which the search for markers goes on: at the end, past a character that starts
no marker, or past a whole marker. -/
@[elab_as_elim]
theorem markers_induction {motive : Text → Prop} (nil : motive [])
    (plain : ∀ c r, style.resourceHere? (c :: r) = none → motive r → motive (c :: r))
    (marker : ∀ resource rest, ResourceEnds resource rest →
      style.resourceHere? (style.opening ++ resource ++ rest) = some resource → motive rest →
      motive (style.opening ++ resource ++ rest)) (t : Text) : motive t := by
  match t with
  | [] => exact nil
  | c :: r =>
    cases h : style.resourceHere? (c :: r) with
    | none => exact plain c r h (markers_induction nil plain marker r)
    | some resource =>
      obtain ⟨rest, ht, hr⟩ := resourceEnds_of_resourceHere? h
      have hl : rest.length < (c :: r).length := by
        rw [ht]
        simp [opening]
        omega
      rw [ht] at h ⊢
      exact marker resource rest hr h (markers_induction nil plain marker rest)
termination_by t.length
decreasing_by
  · exact Nat.lt_succ_self r.length
  · exact hl

/-- A marker stands in its body as it was found. -/
lemma exists_of_mem_markersFrom {p : Nat} {t : Text} {m : Marker}
    (h : m ∈ style.markersFrom p 0 t) :
    ∃ before rest, t = before ++ (m.text ++ rest) ∧ m.start = p + before.length ∧
      m.text = style.opening ++ m.resource ∧ m.kind = style.kindOf m.resource ∧
      ResourceEnds m.resource rest ∧ style.resourceHere? (m.text ++ rest) = some m.resource := by
  induction t using style.markers_induction generalizing p with
  | nil => simp [markersFrom] at h
  | plain c r hn ih =>
    rw [markersFrom_plain p hn] at h
    obtain ⟨before, rest, rfl, hs, hm⟩ := ih h
    refine ⟨c :: before, rest, rfl, ?_, hm⟩
    rw [hs, List.length_cons]
    omega
  | marker resource rest hr hm ih =>
    rw [markersFrom_marker p hm] at h
    rcases List.mem_cons.mp h with rfl | h
    · exact ⟨[], rest, rfl, rfl, rfl, rfl, hr, hm⟩
    · obtain ⟨before, rest', rfl, hs, hm'⟩ := ih h
      refine ⟨style.opening ++ resource ++ before, rest', by simp, ?_, hm'⟩
      rw [hs, Nat.add_assoc, ← List.length_append]

/-- A marker ends before the next one starts. -/
lemma pairwise_markersFrom (p : Nat) (t : Text) :
    (style.markersFrom p 0 t).Pairwise fun m m' => m.stop ≤ m'.start := by
  induction t using style.markers_induction generalizing p with
  | nil => simp [markersFrom]
  | plain c r hn ih =>
    rw [markersFrom_plain p hn]
    exact ih (p + 1)
  | marker resource rest hr hm ih =>
    rw [markersFrom_marker p hm]
    refine List.pairwise_cons.mpr ⟨fun m' h' => ?_, ih _⟩
    obtain ⟨before, _, _, hs, _⟩ := exists_of_mem_markersFrom h'
    rw [hs]
    exact Nat.le_add_right _ _

theorem pairwise_inlineMarkers (body : Text) :
    (style.inlineMarkers body).Pairwise fun m m' => m.stop ≤ m'.start :=
  (pairwise_markersFrom 0 body).filter _

theorem exists_of_mem_inlineMarkers {body : Text} {m : Marker}
    (h : m ∈ style.inlineMarkers body) :
    ∃ before rest, body = before ++ (m.text ++ rest) ∧ m.start = before.length ∧
      m.text = style.opening ++ m.resource ∧ ResourceEnds m.resource rest := by
  obtain ⟨before, rest, hb, hs, ht, _, hr, _⟩ :=
    exists_of_mem_markersFrom (List.mem_filter.mp h).1
  exact ⟨before, rest, hb, by simpa using hs, ht, hr⟩

/-- A resource with two parts has more than two characters. -/
lemma two_le_length_of_inlineParts {resource path name : Text}
    (h : style.inlineParts resource = .ok (path, name)) : 2 ≤ resource.length := by
  unfold inlineParts at h
  split at h
  · simp at h
  · next hd =>
    split at h
    · next a b hab =>
      have hj := Text.joinWith_splitOn hd resource
      rw [hab] at hj
      have ha : a ≠ [] := fun ha => by simp [ha] at h
      have hb : b ≠ [] := fun hb => by
        subst hb
        cases hs : Text.strip a <;> simp [hs] at h
      rw [← hj]
      simp only [Text.joinWith, List.length_append]
      have := List.length_pos_iff.mpr ha
      have := List.length_pos_iff.mpr hb
      omega
    · simp at h

end MarkerStyle
end TemplateSplice
