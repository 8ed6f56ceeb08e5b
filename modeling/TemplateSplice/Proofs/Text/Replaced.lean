import TemplateSplice.Proofs.Encoding.Characters
import TemplateSplice.Proofs.Text.Parts

/-! Replacing a part of a text wherever it occurs. To unify the line ends of a text is to replace every
carriage return with a line feed, and then every carriage return that is left, by a line feed. -/
namespace TemplateSplice.Text

/-- The text with another text for every occurrence of a nonempty one, found from the left. -/
def replaced (old new t : Text) : Text := joinWith new (splitOn old t)

variable {old new r : Text} {c : Char}

lemma partsFrom_append (sep skipped r : Text) :
    partsFrom sep skipped.length (skipped ++ r) = partsFrom sep 0 r := by
  induction skipped with
  | nil => rfl
  | cons c skipped ih =>
    rw [List.length_cons, List.cons_append, partsFrom]
    exact ih

/-- What is replaced at the start of a text gives way to the new text. -/
lemma replaced_append (h : old ≠ []) (new r : Text) :
    replaced old new (old ++ r) = new ++ replaced old new r := by
  obtain ⟨c, rest, rfl⟩ := List.exists_cons_of_ne_nil h
  have hprefix : (c :: rest).isPrefixOf (c :: (rest ++ r)) = true := by simp
  have hsplit : splitOn (c :: rest) (c :: rest ++ r) = [] :: splitOn (c :: rest) r := by
    rw [List.cons_append, splitOn, partsFrom, if_pos hprefix, List.length_cons, Nat.add_sub_cancel,
      partsFrom_append]
    rfl
  rw [replaced, hsplit, joinWith_cons _ _ (splitOn_ne_nil _ _)]
  rfl

/-- A character where nothing is replaced stays. -/
lemma replaced_cons (h : ¬ old <+: c :: r) (new : Text) :
    replaced old new (c :: r) = c :: replaced old new r := by
  have hprefix : ¬ old.isPrefixOf (c :: r) = true := by rwa [List.isPrefixOf_iff_prefix]
  obtain ⟨part, parts, hparts⟩ := List.exists_cons_of_ne_nil (splitOn_ne_nil old r)
  have hsplit : splitOn old (c :: r) = (c :: part) :: parts := by
    unfold splitOn at hparts ⊢
    rw [partsFrom, if_neg hprefix, hparts]
  rw [replaced, hsplit, joinWith_cons_cons, replaced, hparts]

/-- Unified line ends are those of the text with first the pairs and then the lone carriage returns
replaced. -/
theorem unifyLineEnds_eq_replaced (t : Text) :
    t.unifyLineEnds = replaced ['\r'] ['\n'] (replaced ['\r', '\n'] ['\n'] t) := by
  fun_induction unifyLineEnds t with
  | case1 => rfl
  | case2 r ih =>
    have hpair : replaced ['\r', '\n'] ['\n'] ('\r' :: '\n' :: r) =
        '\n' :: replaced ['\r', '\n'] ['\n'] r := replaced_append (List.cons_ne_nil _ _) ['\n'] r
    rw [hpair, replaced_cons (by simp), ih]
  | case3 r hr ih =>
    have hlone : ¬ ['\r', '\n'] <+: '\r' :: r := by
      rintro ⟨u, hu⟩
      exact hr u (List.cons.inj hu).2.symm
    rw [replaced_cons hlone]
    exact (congrArg _ ih).trans (replaced_append (List.cons_ne_nil _ _) ['\n'] _).symm
  | case4 c r _ hc ih =>
    have hother : ∀ (rest u : Text), ¬ '\r' :: rest <+: c :: u := by
      rintro rest u ⟨v, hv⟩
      exact hc (List.cons.inj hv).1.symm
    rw [replaced_cons (hother _ _), replaced_cons (hother _ _), ih]

end TemplateSplice.Text
