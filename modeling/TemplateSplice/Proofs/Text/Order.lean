import Mathlib.Data.Char
import Mathlib.Data.List.Lex
import Mathlib.Order.Lattice
import Mathlib.Tactic.Lemma

/-! Lists sorted by a key, such as a text or the parts of a path. -/
namespace TemplateSplice

variable {α β : Type} [LinearOrder β] (key : α → β) {le : α → α → Bool}

lemma pairwise_mergeSort_key (hle : ∀ a b, le a b = true ↔ ¬ key b < key a) (l : List α) :
    (l.mergeSort le).Pairwise fun a b => ¬ key b < key a := by
  have htrans : ∀ a b c, le a b = true → le b c = true → le a c = true := by
    simp only [hle]
    exact fun a b c h h' => not_lt.mpr ((not_lt.mp h).trans (not_lt.mp h'))
  have htotal : ∀ a b, (le a b || le b a) = true := by
    simp only [Bool.or_eq_true, hle]
    exact fun a b => (em (key b < key a)).symm.imp_right lt_asymm
  exact (List.pairwise_mergeSort htrans htotal l).imp fun h => (hle _ _).mp h

/-- Where no two members have the same key, the keys increase. -/
lemma pairwise_lt_mergeSort_key (hle : ∀ a b, le a b = true ↔ ¬ key b < key a) {l : List α}
    (h : (l.map key).Nodup) : (l.mergeSort le).Pairwise fun a b => key a < key b := by
  have hne : (l.mergeSort le).Pairwise fun a b => key a ≠ key b :=
    List.pairwise_map.mp (((List.mergeSort_perm l le).map key).nodup_iff.mpr h)
  exact ((pairwise_mergeSort_key key hle l).and hne).imp fun h => (lt_or_gt_of_ne h.2).resolve_right h.1

/-- What stands before a member of a sorted list is what has smaller keys, sorted. -/
lemma mergeSort_filter_lt (hle : ∀ a b, le a b = true ↔ ¬ key b < key a) {l before later : List α}
    {x : α} (h : (l.map key).Nodup) (hl : l.mergeSort le = before ++ x :: later) {smaller : α → Bool}
    (hsmaller : ∀ a, smaller a = true ↔ key a < key x) : (l.filter smaller).mergeSort le = before := by
  have hsorted := pairwise_lt_mergeSort_key key hle h
  rw [hl] at hsorted
  obtain ⟨hbefore, hlater, hcross⟩ := List.pairwise_append.mp hsorted
  obtain ⟨hafter, -⟩ := List.pairwise_cons.mp hlater
  have hfilter : (before ++ x :: later).filter smaller = before := by
    have hkept : before.filter smaller = before :=
      List.filter_eq_self.mpr fun a ha => (hsmaller a).mpr (hcross a ha x List.mem_cons_self)
    have hdropped : (x :: later).filter smaller = [] := by
      simp only [List.filter_eq_nil_iff, hsmaller, List.forall_mem_cons]
      exact ⟨lt_irrefl _, fun a ha => lt_asymm (hafter a ha)⟩
    rw [List.filter_append, hkept, hdropped, List.append_nil]
  have hperm : ((l.filter smaller).mergeSort le).Perm before :=
    (List.mergeSort_perm _ _).trans
      (((List.mergeSort_perm l le).symm.filter smaller).trans (.of_eq (hl ▸ hfilter)))
  have hsorted' : ((l.filter smaller).mergeSort le).Pairwise fun a b => key a < key b :=
    pairwise_lt_mergeSort_key key hle (h.sublist (List.filter_sublist.map key))
  exact hperm.eq_of_pairwise (fun _ _ _ _ hlt hgt => absurd hgt (lt_asymm hlt)) hsorted' hbefore

end TemplateSplice
