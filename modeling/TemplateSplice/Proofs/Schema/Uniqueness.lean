import Mathlib.Data.List.Chain
import Mathlib.Tactic.Lemma
import Mathlib.Tactic.SplitIfs
import TemplateSplice.Schema.Uniqueness

/-! The search for repeated items finds what it should in lists of texts. The insertion puts texts in
order and loses none; and in order, texts that are the same are neighbours. -/
namespace TemplateSplice.Uniqueness

variable {v x y z : Value} {items ordered rest run : List Value} {less : Bool}

/-- A value is a text. -/
def IsText (v : Value) : Prop := ∃ s : String, v = .str s

/-- A text may stand before another one in order. -/
def Precedes (x y : Value) : Prop :=
  ∃ s t : String, x = .str s ∧ y = .str t ∧ ¬ t.toList < s.toList

/-- How one text follows another in a run, given whether the run falls. -/
def Follows (falls : Bool) (x y : Value) : Prop := if falls then Precedes y x else Precedes x y

lemma less?_str (s t : String) : less? (.str s) (.str t) = some (decide (s.toList < t.toList)) := rfl

lemma precedes_trans (hxy : Precedes x y) (hyz : Precedes y z) : Precedes x z := by
  obtain ⟨s, t, rfl, rfl, hst⟩ := hxy
  obtain ⟨t', u, ht, rfl, htu⟩ := hyz
  cases ht
  exact ⟨s, u, rfl, rfl, List.not_lt.mpr (List.le_trans (List.not_lt.mp hst) (List.not_lt.mp htu))⟩

instance : Trans Precedes Precedes Precedes := ⟨precedes_trans⟩

lemma precedes_antisymm (hxy : Precedes x y) (hyx : Precedes y x) : x = y := by
  obtain ⟨s, t, rfl, rfl, hst⟩ := hxy
  obtain ⟨t', s', ht, hs, hts⟩ := hyx
  cases ht
  cases hs
  rw [String.toList_inj.mp (List.le_antisymm (List.not_lt.mp hst) (List.not_lt.mp hts))]

/-- The order of two texts is told by whether the second is less. -/
lemma follows_of_less? (hx : IsText x) (hy : IsText y) (h : less? y x = some less) :
    Follows less x y := by
  obtain ⟨s, rfl⟩ := hx
  obtain ⟨t, rfl⟩ := hy
  rw [less?_str, Option.some.injEq] at h
  cases less with
  | true => exact ⟨t, s, rfl, rfl, List.not_lt.mpr (List.le_of_lt (of_decide_eq_true h))⟩
  | false => exact ⟨s, t, rfl, rfl, of_decide_eq_false h⟩

lemma same_iff (hx : IsText x) (hy : IsText y) : x.same y = true ↔ x = y := by
  obtain ⟨s, rfl⟩ := hx
  obtain ⟨t, rfl⟩ := hy
  simp [Value.same, Value.sameBy, Scalar.sameBy]

section Sorting

/-- A run is the front of the list, each item in order with the one before it. -/
lemma runFrom_eq_some {falls : Bool} (hx : IsText x) (hitems : ∀ v ∈ items, IsText v)
    (h : runFrom falls x items = some (run, rest)) :
    items = run ++ rest ∧ (x :: run).IsChain (Follows falls) := by
  induction items generalizing x run with
  | nil =>
    cases h
    exact ⟨rfl, .singleton x⟩
  | cons y items ih =>
    obtain ⟨hy, hitems⟩ := List.forall_mem_cons.mp hitems
    unfold runFrom at h
    obtain ⟨falling, hless, h⟩ := Option.bind_eq_some_iff.mp h
    split_ifs at h with hfalls
    · subst hfalls
      obtain ⟨⟨run', rest'⟩, hrun, h⟩ := Option.bind_eq_some_iff.mp h
      cases h
      obtain ⟨rfl, hchain⟩ := ih hy hitems hrun
      exact ⟨rfl, .cons_cons (follows_of_less? hx hy hless) hchain⟩
    · cases h
      exact ⟨rfl, .singleton x⟩

/-- The first run is in order, and no item is lost. -/
lemma firstRun_eq_some (hitems : ∀ v ∈ items, IsText v) (h : firstRun items = some (run, rest)) :
    (run ++ rest).Perm items ∧ run.Pairwise Precedes := by
  match items, h with
  | [], h =>
    cases h
    exact ⟨.refl _, .nil⟩
  | [x], h =>
    cases h
    exact ⟨.refl _, List.pairwise_singleton _ _⟩
  | x :: y :: items, h =>
    obtain ⟨hx, hrest⟩ := List.forall_mem_cons.mp hitems
    obtain ⟨hy, hrest⟩ := List.forall_mem_cons.mp hrest
    unfold firstRun at h
    obtain ⟨falls, hless, h⟩ := Option.bind_eq_some_iff.mp h
    obtain ⟨⟨run', rest'⟩, hrun, h⟩ := Option.bind_eq_some_iff.mp h
    cases h
    obtain ⟨rfl, hchain⟩ := runFrom_eq_some hy hrest hrun
    have hfirst := hchain.cons_cons (follows_of_less? hx hy hless)
    cases falls with
    | false => exact ⟨.refl _, List.isChain_iff_pairwise.mp hfirst⟩
    | true =>
      -- A run that falls is turned round.
      refine ⟨(List.reverse_perm (x :: y :: run')).append_right rest, ?_⟩
      exact List.isChain_iff_pairwise.mp (List.isChain_reverse.mpr hfirst)

/-- What comes before an item of ordered items comes before all from there on. -/
lemma precedes_drop (hordered : items.Pairwise Precedes) {i : Nat} (hi : i < items.length)
    (h : Precedes v items[i]) : ∀ x ∈ items.drop i, Precedes v x := by
  have hback := hordered.sublist (List.drop_sublist i items)
  rw [List.drop_eq_getElem_cons hi] at hback ⊢
  intro x hx
  rcases List.mem_cons.mp hx with rfl | hx
  · exact h
  · exact precedes_trans h ((List.pairwise_cons.mp hback).1 x hx)

/-- What comes after an item of ordered items comes after all up to there. -/
lemma precedes_take (hordered : items.Pairwise Precedes) {i : Nat} (hi : i < items.length)
    (h : Precedes items[i] v) : ∀ x ∈ items.take (i + 1), Precedes x v := by
  have hfront := hordered.sublist (List.take_sublist (i + 1) items)
  rw [List.take_succ_eq_append_getElem hi] at hfront ⊢
  intro x hx
  rcases List.mem_append.mp hx with hx | hx
  · exact precedes_trans ((List.pairwise_append.mp hfront).2.2 x hx _ (List.mem_singleton.mpr rfl)) h
  · obtain rfl := List.mem_singleton.mp hx
    exact h

/-- The place of a text in ordered texts: what is before it may stand before the text, and the text may
stand before what is from there on. -/
lemma place?_eq_some (hv : IsText v) (hordered : items.Pairwise Precedes)
    (hitems : ∀ x ∈ items, IsText x) {low high i : Nat} (hle : low ≤ high) (hhigh : high ≤ items.length)
    (hbefore : ∀ x ∈ items.take low, Precedes x v) (hafter : ∀ x ∈ items.drop high, Precedes v x)
    (h : place? v items low high = some i) :
    i ≤ items.length ∧ (∀ x ∈ items.take i, Precedes x v) ∧ ∀ x ∈ items.drop i, Precedes v x := by
  induction low, high using place?.induct with
  | case2 low high hdone =>
    obtain rfl : low = high := by omega
    rw [place?, if_neg hdone] at h
    cases h
    exact ⟨hhigh, hbefore, hafter⟩
  | case1 low high hlt middle ihlow ihhigh =>
    have hmiddle : low ≤ middle ∧ middle < high := by omega
    have hlength : middle < items.length := by omega
    rw [place?, if_pos hlt] at h
    obtain ⟨x, hx, h⟩ := Option.bind_eq_some_iff.mp h
    obtain ⟨less, hless, h⟩ := Option.bind_eq_some_iff.mp h
    rw [List.getElem?_eq_getElem hlength, Option.some.injEq] at hx
    subst hx
    have hcompared := follows_of_less? (hitems _ (List.getElem_mem hlength)) hv hless
    cases less with
    | true => exact ihlow hmiddle.1 (by omega) hbefore (precedes_drop hordered hlength hcompared) h
    | false => exact ihhigh (by omega) hhigh (precedes_take hordered hlength hcompared) hafter h

lemma insertIdx_eq {i : Nat} (hi : i ≤ items.length) (v : Value) :
    items.insertIdx i v = items.take i ++ v :: items.drop i := by
  induction items generalizing i with
  | nil =>
    obtain rfl : i = 0 := Nat.le_zero.mp hi
    rfl
  | cons x items ih =>
    cases i with
    | zero => rfl
    | succ i => rw [List.insertIdx_succ_cons, ih (Nat.le_of_succ_le_succ hi)]; rfl

/-- A text put in at its place leaves texts in order. -/
lemma pairwise_insertIdx (hv : IsText v) (hordered : items.Pairwise Precedes)
    (hitems : ∀ x ∈ items, IsText x) {i : Nat} (h : place? v items 0 items.length = some i) :
    (items.insertIdx i v).Perm (v :: items) ∧ (items.insertIdx i v).Pairwise Precedes := by
  obtain ⟨hi, hbefore, hafter⟩ := place?_eq_some hv hordered hitems (Nat.zero_le _) (Nat.le_refl _)
    (by simp) (by simp) h
  refine ⟨List.perm_insertIdx v items hi, ?_⟩
  rw [← List.take_append_drop i items] at hordered
  obtain ⟨hfront, hback, hacross⟩ := List.pairwise_append.mp hordered
  rw [insertIdx_eq hi, List.pairwise_append]
  refine ⟨hfront, List.pairwise_cons.mpr ⟨hafter, hback⟩, fun x hx y hy => ?_⟩
  rcases List.mem_cons.mp hy with rfl | hy
  · exact hbefore x hx
  · exact hacross x hx y hy

/-- The insertion of texts into ordered texts puts all of them in order. -/
lemma insertAll_eq_some (hordered : ordered.Pairwise Precedes) (htexts : ∀ x ∈ ordered, IsText x)
    (hitems : ∀ x ∈ items, IsText x) {result : List Value} (h : insertAll ordered items = some result) :
    result.Perm (ordered ++ items) ∧ result.Pairwise Precedes := by
  induction items generalizing ordered with
  | nil =>
    cases h
    exact ⟨by rw [List.append_nil], hordered⟩
  | cons v items ih =>
    obtain ⟨hv, hitems⟩ := List.forall_mem_cons.mp hitems
    obtain ⟨i, hi, h⟩ := Option.bind_eq_some_iff.mp h
    obtain ⟨hperm, hinserted⟩ := pairwise_insertIdx hv hordered htexts hi
    have htexts' : ∀ x ∈ ordered.insertIdx i v, IsText x := fun x hx =>
      (List.mem_cons.mp (hperm.mem_iff.mp hx)).elim (fun he => he ▸ hv) (htexts x)
    obtain ⟨hresult, hsorted⟩ := ih hinserted htexts' hitems h
    have hmiddle : (v :: ordered ++ items).Perm (ordered ++ v :: items) := List.perm_middle.symm
    exact ⟨hresult.trans ((hperm.append_right items).trans hmiddle), hsorted⟩

/-- Sorting puts texts in order and loses none. -/
theorem sorted?_eq_some (hitems : ∀ x ∈ items, IsText x) (h : sorted? items = some ordered) :
    ordered.Perm items ∧ ordered.Pairwise Precedes := by
  obtain ⟨⟨run, rest⟩, hrun, h⟩ := Option.bind_eq_some_iff.mp h
  obtain ⟨hperm, hordered⟩ := firstRun_eq_some hitems hrun
  have htexts : ∀ x ∈ run ++ rest, IsText x := fun x hx => hitems x (hperm.mem_iff.mp hx)
  obtain ⟨hresult, hsorted⟩ := insertAll_eq_some hordered
    (fun x hx => htexts x (List.mem_append_left rest hx))
    (fun x hx => htexts x (List.mem_append_right run hx)) h
  exact ⟨hresult.trans hperm, hsorted⟩

end Sorting

/-- Ordered texts without equal neighbours are all different. -/
lemma nodup_of_hasSameNeighbours (hordered : items.Pairwise Precedes) (hitems : ∀ x ∈ items, IsText x)
    (h : hasSameNeighbours items = false) : items.Nodup := by
  induction items with
  | nil => exact List.nodup_nil
  | cons x items ih =>
    obtain ⟨hx, hitems⟩ := List.forall_mem_cons.mp hitems
    obtain ⟨hfirst, hordered⟩ := List.pairwise_cons.mp hordered
    cases items with
    | nil => exact List.pairwise_singleton _ _
    | cons y items =>
      rw [hasSameNeighbours, Bool.or_eq_false_iff] at h
      refine List.nodup_cons.mpr ⟨fun hmem => ?_, ih hordered hitems h.2⟩
      -- A later equal of the first item would have the second one between them.
      have hyx : Precedes y x := by
        rcases List.mem_cons.mp hmem with rfl | hmem
        · exact hfirst _ List.mem_cons_self
        · exact (List.pairwise_cons.mp hordered).1 x hmem
      have hxy := precedes_antisymm (hfirst y List.mem_cons_self) hyx
      rw [(same_iff hx (hitems y List.mem_cons_self)).mpr hxy] at h
      cases h.1

lemma nodup_of_hasSamePair (hitems : ∀ x ∈ items, IsText x) (h : hasSamePair items = false) :
    items.Nodup := by
  induction items with
  | nil => exact List.nodup_nil
  | cons x items ih =>
    obtain ⟨hx, hitems⟩ := List.forall_mem_cons.mp hitems
    rw [hasSamePair, Bool.or_eq_false_iff] at h
    refine List.nodup_cons.mpr ⟨fun hmem => ?_, ih hitems h.2⟩
    have hany : items.any (x.same ·) = true :=
      List.any_eq_true.mpr ⟨x, hmem, (same_iff hx hx).mpr rfl⟩
    rw [hany] at h
    cases h.1

/-- Texts among which no repeated one is found are all different. -/
theorem nodup_of_repeatsItem (hitems : ∀ x ∈ items, IsText x) (h : repeatsItem items = false) :
    items.Nodup := by
  unfold repeatsItem at h
  split at h
  · next ordered hsorted =>
    obtain ⟨hperm, hordered⟩ := sorted?_eq_some hitems hsorted
    have htexts : ∀ x ∈ ordered, IsText x := fun x hx => hitems x (hperm.mem_iff.mp hx)
    exact hperm.nodup_iff.mp (nodup_of_hasSameNeighbours hordered htexts h)
  · exact nodup_of_hasSamePair hitems h

end TemplateSplice.Uniqueness
