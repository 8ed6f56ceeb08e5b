import Mathlib.Tactic.Lemma
import Mathlib.Tactic.SplitIfs
import TemplateSplice.Proofs.Encoding.Characters
import TemplateSplice.Text.Lower

/-! Texts in small letters. Lower-casing leaves nothing in a text that it would change again. -/
namespace TemplateSplice

/-- A character that lower-casing leaves alone wherever it stands. -/
def IsSmall (c : Char) : Prop := lowerChar c = c ∧ c ≠ '\u03A3' ∧ c ≠ '\u0130'

instance (c : Char) : Decidable (IsSmall c) := inferInstanceAs (Decidable (_ ∧ _))

/-- Whether a code point is that of a capital of a run. -/
def inRun (n : Nat) (run : Nat × Nat × Nat × Int) : Bool :=
  run.1 ≤ n && n ≤ run.2.1 && (n - run.1) % run.2.2.1 == 0

/-- The first of the small letters of a run. -/
def smallFirst (run : Nat × Nat × Nat × Int) : Nat := (run.1 + run.2.2.2).toNat

/-- The last of the small letters of a run. -/
def smallLast (run : Nat × Nat × Nat × Int) : Nat := (run.2.1 + run.2.2.2).toNat

/-- Whether no small letter of a run is a capital of another one: the letters lie before or after
the capitals, or are every other code point as the capitals are, one step off. -/
def misses (run other : Nat × Nat × Nat × Int) : Bool :=
  Nat.blt (smallLast run) other.1 || Nat.blt other.2.1 (smallFirst run) ||
    (Nat.beq other.2.2.1 2 && (Nat.beq run.2.2.1 2 || Nat.beq run.1 run.2.1) &&
      Nat.beq ((smallFirst run + other.1) % 2) 1)

lemma misses_capitalRuns : ∀ run ∈ capitalRuns, ∀ other ∈ capitalRuns, misses run other = true := by
  have h : (capitalRuns.all fun run => capitalRuns.all (misses run)) = true := by decide +kernel
  simpa only [List.all_eq_true] using h

/-- The small letters of a run are characters, none of them an ASCII capital or the
dotted one. -/
lemma smallFirst_capitalRuns : ∀ run ∈ capitalRuns, 0 ≤ run.1 + run.2.2.2 ∧
    0x61 ≤ smallFirst run ∧ (smallLast run < 0x130 ∨ 0x130 < smallFirst run) ∧
    (smallLast run < 0xD800 ∨ 0xE000 ≤ smallFirst run ∧ smallLast run < 0x110000) := by
  decide +kernel

lemma exists_inRun_sigma : ∃ run ∈ capitalRuns, inRun 0x3A3 run = true := by decide +kernel

lemma isSmall_lowerChar_ascii : ∀ n < 0x80, IsSmall (lowerChar (Char.ofNat n)) := by
  decide +kernel

/-- What becomes of the characters that do not map alone is small. -/
lemma isSmall_special : ∀ c ∈ ['\u03C2', '\u03C3', 'i', '\u0307'], IsSmall c := by
  have h : (['\u03C2', '\u03C3', 'i', '\u0307'].all fun c => decide (IsSmall c)) = true := by
    decide +kernel
  simpa only [List.all_eq_true, decide_eq_true_eq] using h

lemma lowerChar_of_ascii_small {c : Char} (h : 0x61 ≤ c.toNat) (h' : c.toNat < 0x80) :
    lowerChar c = c := by
  have hall : ∀ n < 0x80, 0x61 ≤ n → lowerChar (Char.ofNat n) = Char.ofNat n := by decide
  have := hall c.toNat h' h
  rwa [Char.ofNat_toNat] at this

lemma lowerChar_eq {c : Char} (h : 0x80 ≤ c.toNat) :
    lowerChar c = match capitalRuns.find? (inRun c.toNat) with
      | some (_, _, _, distance) => Char.ofNat (c.toNat + distance).toNat
      | none => c := by
  unfold lowerChar
  rw [if_neg (by omega)]
  rfl

/-- The small letter of a capital of a run is no capital of another one. -/
lemma not_inRun_of_misses {run other : Nat × Nat × Nat × Int} {n : Nat} (hn : inRun n run = true)
    (hpos : 0 ≤ run.1 + run.2.2.2) (h : misses run other = true) :
    ¬ inRun (n + run.2.2.2).toNat other = true := by
  obtain ⟨low, high, step, distance⟩ := run
  obtain ⟨low', high', step', distance'⟩ := other
  simp only [inRun, misses, smallFirst, smallLast, Nat.blt_eq, Nat.beq_eq, Bool.and_eq_true,
    Bool.or_eq_true, decide_eq_true_eq, beq_iff_eq] at *
  obtain ⟨⟨hlow, hhigh⟩, hstep⟩ := hn
  rintro ⟨⟨hlow', hhigh'⟩, hstep'⟩
  rcases h with (h | h) | ⟨⟨rfl, rfl | rfl⟩, h⟩
  · omega
  · omega
  · omega
  · omega

/-- A character of no run is left alone. -/
lemma lowerChar_of_not_inRun {c : Char} (h : 0x80 ≤ c.toNat)
    (hout : ∀ run ∈ capitalRuns, ¬ inRun c.toNat run = true) : lowerChar c = c := by
  rw [lowerChar_eq h, List.find?_eq_none.mpr hout]

lemma ne_sigma_of_not_inRun {c : Char} (hout : ∀ run ∈ capitalRuns, ¬ inRun c.toNat run = true) :
    c ≠ '\u03A3' := by
  rintro rfl
  obtain ⟨run, hrun, hin⟩ := exists_inRun_sigma
  exact hout run hrun hin

/-- The small letter of a capital of a run is small. -/
lemma isSmall_of_inRun {run : Nat × Nat × Nat × Int} (hrun : run ∈ capitalRuns) {n : Nat}
    (hn : inRun n run = true) : IsSmall (Char.ofNat (n + run.2.2.2).toNat) := by
  obtain ⟨hpos, hfirst, hdot, hvalid⟩ := smallFirst_capitalRuns run hrun
  have hout : ∀ other ∈ capitalRuns, ¬ inRun (n + run.2.2.2).toNat other = true :=
    fun other hother => not_inRun_of_misses hn hpos (misses_capitalRuns run hrun other hother)
  have hbounds : smallFirst run ≤ (n + run.2.2.2).toNat ∧ (n + run.2.2.2).toNat ≤ smallLast run := by
    simp only [inRun, Bool.and_eq_true, decide_eq_true_eq] at hn
    unfold smallFirst smallLast
    omega
  have hchar : (Char.ofNat (n + run.2.2.2).toNat).toNat = (n + run.2.2.2).toNat := by
    refine toNat_ofNat ?_
    unfold Nat.isValidChar
    omega
  generalize Char.ofNat (n + run.2.2.2).toNat = c at hchar ⊢
  rw [← hchar] at hout hbounds
  refine ⟨?_, ne_sigma_of_not_inRun hout, ?_⟩
  · by_cases hascii : c.toNat < 0x80
    · exact lowerChar_of_ascii_small (by omega) hascii
    · exact lowerChar_of_not_inRun (by omega) hout
  · rintro rfl
    change smallFirst run ≤ 0x130 ∧ 0x130 ≤ smallLast run at hbounds
    omega

/-- Lower-casing a character leaves nothing in it to lower, but for the two that do not map alone. -/
theorem isSmall_lowerChar {c : Char} (hdot : c ≠ '\u0130') : IsSmall (lowerChar c) := by
  by_cases hascii : c.toNat < 0x80
  · have := isSmall_lowerChar_ascii c.toNat hascii
    rwa [Char.ofNat_toNat] at this
  · have hhigh : 0x80 ≤ c.toNat := Nat.le_of_not_lt hascii
    rw [lowerChar_eq hhigh]
    cases hfind : capitalRuns.find? (inRun c.toNat) with
    | some run => exact isSmall_of_inRun (List.mem_of_find?_eq_some hfind) (List.find?_some hfind)
    | none =>
      have hout := List.find?_eq_none.mp hfind
      exact ⟨lowerChar_of_not_inRun hhigh hout, ne_sigma_of_not_inRun hout, hdot⟩

namespace Text

lemma isSmall_of_mem_lowerAfter {before t : Text} {c : Char} (h : c ∈ lowerAfter before t) :
    IsSmall c := by
  induction t generalizing before with
  | nil => simp [lowerAfter] at h
  | cons d r ih =>
    rw [lowerAfter] at h
    rcases List.mem_append.mp h with h | h
    · split_ifs at h with hsigma hfinal hdot
      · exact isSmall_special c (by simp_all)
      · exact isSmall_special c (by simp_all)
      · exact isSmall_special c (List.mem_append_right ['\u03C2', '\u03C3'] h)
      · obtain rfl := List.mem_singleton.mp h
        exact isSmall_lowerChar hdot
    · exact ih h

lemma lowerAfter_of_isSmall {before t : Text} (h : ∀ c ∈ t, IsSmall c) : lowerAfter before t = t := by
  induction t generalizing before with
  | nil => rfl
  | cons c r ih =>
    obtain ⟨⟨hchar, hsigma, hdot⟩, hrest⟩ := List.forall_mem_cons.mp h
    rw [lowerAfter, if_neg hsigma, if_neg hdot, hchar, ih hrest]
    rfl

/-- A text in small letters stays as it is. -/
@[simp] theorem lower_lower (t : Text) : t.lower.lower = t.lower :=
  lowerAfter_of_isSmall fun _ => isSmall_of_mem_lowerAfter

end Text
end TemplateSplice
