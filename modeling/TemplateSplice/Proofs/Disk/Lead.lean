import Mathlib.Tactic.Lemma
import Mathlib.Tactic.SplitIfs
import TemplateSplice.Disk.Tree
import TemplateSplice.Proofs.Path.Text

/-! What a name leads to. A name that leads somewhere does so for as long as the directories stay; the
text of an absolute path in normal form leads to the location of its segments and nowhere else; and the
path of a name leads to where the name does. -/
namespace TemplateSplice.FileTree

variable {α : Type} {t u : FileTree} {cwd l : Location} {name : Text} {lead : Lead}

/-- A name leads to some place, which may be empty. -/
def Leads (t : FileTree) (cwd : Location) (name : Text) (lead : Lead) : Prop :=
  t.withLead cwd name .ok = .ok lead

/-- A name that leads somewhere names something that can be followed. -/
lemma leads_iff : t.Leads cwd name lead ↔
    '\x00' ∉ name ∧ t.follow cwd name = .ok lead ∧ lead.isTooLong = false := by
  unfold Leads withLead
  split_ifs with hnull
  · simp [hnull]
  · cases hf : t.follow cwd name with
    | error kind => simp [Except.bind, Except.mapError]
    | ok lead' =>
      cases hlong : lead'.isTooLong with
      | false =>
        simp only [Except.bind, hlong, Bool.false_eq_true, if_false, Except.mapError,
          Except.ok.injEq, hnull, not_false_eq_true, true_and]
        constructor
        · rintro rfl
          exact ⟨rfl, hlong⟩
        · exact And.left
      | true =>
        simp only [Except.bind, hlong, if_true, Except.mapError, reduceCtorEq, Except.ok.injEq,
          hnull, not_false_eq_true, true_and, false_iff]
        rintro ⟨rfl, h⟩
        rw [hlong] at h
        cases h

/-- An operation does at a name what it does at the place that the name leads to. -/
lemma Leads.withLead (h : t.Leads cwd name lead) (f : Lead → Except FaultKind α) :
    t.withLead cwd name f = (f lead).mapError fun kind => .refused kind name none := by
  obtain ⟨hnull, hf, hlong⟩ := leads_iff.mp h
  simp [FileTree.withLead, hnull, hf, hlong, Except.bind]

/-- An operation that succeeds at a name has found a place. -/
lemma exists_leads_of_withLead {f : Lead → Except FaultKind α} {a : α}
    (h : t.withLead cwd name f = .ok a) : ∃ lead, t.Leads cwd name lead ∧ f lead = .ok a := by
  cases hl : t.withLead cwd name Except.ok with
  | error fault =>
    unfold FileTree.withLead at h hl
    split_ifs at h hl with hnull
    cases hf : t.follow cwd name with
    | error kind =>
      rw [hf] at h
      cases h
    | ok lead =>
      rw [hf] at h hl
      simp only [Except.bind] at h hl
      split_ifs at h hl
      · cases h
      · cases hl
  | ok lead =>
    refine ⟨lead, hl, ?_⟩
    rw [Leads.withLead hl] at h
    cases hf : f lead with
    | error kind =>
      rw [hf] at h
      cases h
    | ok b =>
      rw [hf] at h
      exact congrArg Except.ok (Except.ok.inj h)

namespace Lead

lemma ne_nil_of_proper? (h : lead.proper? = some l) : l ≠ [] := by
  unfold proper? at h
  obtain ⟨s, _, h⟩ := Option.bind_eq_some_iff.mp h
  split_ifs at h
  obtain rfl := Option.some.inj h
  simp

lemma location_of_proper? (h : lead.proper? = some l) : lead.location = l := by
  unfold proper? at h
  obtain ⟨s, hs, h⟩ := Option.bind_eq_some_iff.mp h
  split_ifs at h with hdot
  obtain ⟨hdot, hdots⟩ := not_or.mp hdot
  obtain rfl := Option.some.inj h
  simp [location, hs, hdot, hdots]

end Lead

section Walks

/-- The directories of one tree are directories of another one. -/
def KeepsDirectories (t u : FileTree) : Prop :=
  ∀ l, t.get? l = some .directory → u.get? l = some .directory

lemma KeepsDirectories.step (h : t.KeepsDirectories u) {s : Text} {k : Location}
    (hs : t.step l s = .ok k) : u.step l s = .ok k := by
  unfold FileTree.step at hs ⊢
  split_ifs at hs ⊢
  · exact hs
  · exact hs
  · cases hg : t.get? (l ++ [s]) with
    | none =>
      rw [hg] at hs
      cases hs
    | some e =>
      cases e with
      | file bytes =>
        rw [hg] at hs
        cases hs
      | directory =>
        rw [hg] at hs
        rw [h _ hg]
        exact hs

lemma KeepsDirectories.walk (h : t.KeepsDirectories u) {segments : List Text} {k : Location}
    (hs : segments.foldlM t.step l = .ok k) : segments.foldlM u.step l = .ok k := by
  induction segments generalizing l with
  | nil => exact hs
  | cons s segments ih =>
    rw [List.foldlM_cons] at hs ⊢
    cases hstep : t.step l s with
    | error kind =>
      rw [hstep] at hs
      cases hs
    | ok l' =>
      rw [hstep] at hs
      rw [h.step hstep]
      exact ih hs

/-- Where a name starts. -/
def startOf (cwd : Location) (name : Text) : Location := if name.head? = some '/' then [] else cwd

/-- The segments that are followed along a name. -/
def segmentsOf (name : Text) : List Text := (Text.splitOn ['/'] name).filter (· ≠ [])

/-- A name is followed by a walk along all its segments but the last. -/
lemma follow_eq_ok_iff : t.follow cwd name = .ok lead ↔
    name ≠ [] ∧ (Utf8.encode name).length < FileTree.nameLimit ∧
      (segmentsOf name).dropLast.foldlM t.step (startOf cwd name) = .ok lead.directory ∧
      lead.last = (segmentsOf name).getLast? ∧ lead.isSlashed = decide (name.getLast? = some '/') := by
  unfold follow
  by_cases hname : name = []
  · simp [hname]
  by_cases hshort : (Utf8.encode name).length < FileTree.nameLimit
  · rw [if_neg hname, if_neg (Nat.not_le.mpr hshort)]
    change Except.bind ((segmentsOf name).dropLast.foldlM t.step (startOf cwd name)) _ = _ ↔ _
    cases hw : (segmentsOf name).dropLast.foldlM t.step (startOf cwd name) with
    | error kind => simp [Except.bind]
    | ok directory =>
      obtain ⟨directory', last, isSlashed⟩ := lead
      simp only [Except.bind, Except.ok.injEq, Lead.mk.injEq, ne_eq, hname, not_false_eq_true,
        hshort, true_and]
      exact and_congr_right fun _ => and_congr eq_comm eq_comm
  · rw [if_neg hname, if_pos (Nat.not_lt.mp hshort)]
    simp [hshort]

/-- A name leads to the same place while the directories stay. -/
theorem Leads.mono (h : t.Leads cwd name lead) (hk : t.KeepsDirectories u) :
    u.Leads cwd name lead := by
  obtain ⟨hnull, hf, hlong⟩ := leads_iff.mp h
  obtain ⟨hname, hshort, hwalk, hlast⟩ := follow_eq_ok_iff.mp hf
  exact leads_iff.mpr ⟨hnull, follow_eq_ok_iff.mpr ⟨hname, hshort, hk.walk hwalk, hlast⟩, hlong⟩

end Walks

section Paths

/-- The segments along the text of a plain path are those of the path, unless it is the path that stays
where it is. -/
lemma segmentsOf_text {p : Path} (h : p.Plain) (hp : p.anchor ≠ .here ∨ p.segments ≠ []) :
    segmentsOf p.text = p.segments := by
  by_cases hne : p.segments = []
  · obtain ⟨a, segments⟩ := p
    obtain rfl : segments = [] := hne
    cases a with
    | here => exact absurd rfl (hp.resolve_right fun hn => hn rfl)
    | root => rfl
    | doubleRoot => rfl
  · obtain ⟨n, hn⟩ := h.exists_splitOn_text hne
    have hself : p.segments.filter (· ≠ []) = p.segments :=
      List.filter_eq_self.mpr fun s hs => decide_eq_true (h s hs).1
    rw [segmentsOf, hn, List.filter_append, hself]
    simp

lemma startOf_text {p : Path} (h : p.Plain) (ha : p.anchor ≠ .here) : startOf cwd p.text = [] :=
  if_pos (h.head?_text.mpr ha)

/-- A walk along ordinary segments ends where they say. -/
lemma eq_append_of_walk {segments : List Text} (h : ∀ s ∈ segments, Path.Ordinary s) {k : Location}
    (hw : segments.foldlM t.step l = .ok k) : k = l ++ segments := by
  induction segments generalizing l with
  | nil =>
    cases hw
    simp
  | cons s segments ih =>
    obtain ⟨hs, hrest⟩ := List.forall_mem_cons.mp h
    rw [List.foldlM_cons] at hw
    cases hstep : t.step l s with
    | error kind =>
      rw [hstep] at hw
      cases hw
    | ok l' =>
      rw [hstep] at hw
      have hl : l' = l ++ [s] := by
        unfold FileTree.step at hstep
        rw [if_neg hs.2.1, if_neg hs.2.2.1] at hstep
        split_ifs at hstep
        split at hstep
        · cases hstep
        · cases hstep
        · exact (Except.ok.inj hstep).symm
      rw [ih hrest hw, hl, List.append_assoc]
      rfl

/-- The text of an absolute path without double dots leads to the location of its segments. -/
theorem Leads.location_eq {p : Path} (hs : ∀ s ∈ p.segments, Path.Ordinary s) (ha : p.anchor ≠ .here)
    (h : t.Leads cwd p.text lead) : lead.location = p.segments := by
  obtain ⟨_, hf, _⟩ := leads_iff.mp h
  obtain ⟨_, _, hwalk, hlast, _⟩ := follow_eq_ok_iff.mp hf
  have hplain : p.Plain := fun s hm => ⟨(hs s hm).1, (hs s hm).2.1, (hs s hm).2.2.2⟩
  rw [segmentsOf_text hplain (.inl ha), startOf_text hplain ha] at hwalk
  rw [segmentsOf_text hplain (.inl ha)] at hlast
  have hdirectory : lead.directory = p.segments.dropLast :=
    eq_append_of_walk (fun s hm => hs s (List.dropLast_subset p.segments hm)) hwalk
  rcases List.eq_nil_or_concat p.segments with hnil | ⟨above, s, hsegments⟩
  · simp [Lead.location, hlast, hdirectory, hnil]
  · have hord := hs s (by simp [hsegments])
    simp [Lead.location, hlast, hdirectory, hsegments, hord.2.1, hord.2.2.1]

/-- Dots on the way lead nowhere else. -/
lemma walk_filter_dot (segments : List Text) :
    (segments.filter (· ≠ Path.dot)).foldlM t.step l = segments.foldlM t.step l := by
  induction segments generalizing l with
  | nil => rfl
  | cons s segments ih =>
    by_cases hs : s = Path.dot
    · have hstep : t.step l s = .ok l := if_pos hs
      rw [List.filter_cons_of_neg (by simp [hs]), List.foldlM_cons, hstep]
      exact ih
    · rw [List.filter_cons_of_pos (by simp [hs]), List.foldlM_cons, List.foldlM_cons]
      exact congrArg _ (funext fun k => ih)

lemma encode_sublist {a b : Text} (h : a.Sublist b) : (Utf8.encode a).Sublist (Utf8.encode b) := by
  induction h with
  | slnil => exact List.Sublist.refl _
  | cons c _ ih => exact ih.trans (List.sublist_append_right _ _)
  | cons_cons c _ ih => exact ih.append_left _

/-- A name that leads to a location leads there also as a path. -/
theorem Leads.ofText (h : t.Leads cwd name lead) (hl : lead.proper? = some l) :
    ∃ lead', t.Leads cwd (Path.ofText name).text lead' ∧ lead'.proper? = some l ∧
      lead'.isSlashed = false := by
  obtain ⟨hnull, hf, hlong⟩ := leads_iff.mp h
  obtain ⟨hname, hshort, hwalk, hlast, _⟩ := follow_eq_ok_iff.mp hf
  obtain ⟨s, hs, hproper⟩ := Option.bind_eq_some_iff.mp hl
  have hdot : s ≠ Path.dot := by
    rintro rfl
    simp at hproper
  obtain ⟨above, habove⟩ := List.getLast?_eq_some_iff.mp (hlast.symm.trans hs)
  have hplain := Path.plain_ofText name
  have hsegments : (Path.ofText name).segments = above.filter (· ≠ Path.dot) ++ [s] := by
    have hfilter : (Path.ofText name).segments = (segmentsOf name).filter (· ≠ Path.dot) := by
      rw [segmentsOf, List.filter_filter]
      exact List.filter_congr fun u _ => by simp [and_comm]
    rw [hfilter, habove, List.filter_append, List.filter_cons_of_pos (by simp [hdot])]
    rfl
  have hne : (Path.ofText name).segments ≠ [] := by simp [hsegments]
  have hsub := Path.text_ofText_sublist hne
  have hseg : segmentsOf (Path.ofText name).text = above.filter (· ≠ Path.dot) ++ [s] :=
    (segmentsOf_text hplain (.inr hne)).trans hsegments
  have hstart : startOf cwd (Path.ofText name).text = startOf cwd name := by
    unfold startOf
    simp only [hplain.head?_text, Path.anchor_ofText]
  refine ⟨⟨lead.directory, lead.last, decide ((Path.ofText name).text.getLast? = some '/')⟩,
    leads_iff.mpr ⟨fun hn => hnull (hsub.subset hn), follow_eq_ok_iff.mpr ⟨?_, ?_, ?_, ?_, rfl⟩,
      hlong⟩, hl, by simpa using hplain.getLast?_text hne⟩
  · intro hnil
    rw [hnil] at hseg
    simp [segmentsOf, Text.splitOn, Text.partsFrom] at hseg
  · exact Nat.lt_of_le_of_lt (encode_sublist hsub).length_le hshort
  · rw [habove, List.dropLast_concat] at hwalk
    rw [hseg, List.dropLast_concat, walk_filter_dot, hstart]
    exact hwalk
  · rw [hseg, hs]
    simp

end Paths

end TemplateSplice.FileTree
