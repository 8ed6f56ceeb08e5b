import Mathlib.Data.List.Permutation
import TemplateSplice.Proofs.Merge.WholeFile

/-! Templates that repeat a header. The whole-file pass inserts one text for each header of a document,
but it looks the text up by name and finds the first one of that name. So a document adds its own
sections if it repeats no header; otherwise the first text of a name comes in more than once, and a
later one that differs from it is lost. -/
namespace TemplateSplice

namespace AllowList

variable {allowed : AllowList}

lemma contributions_eq_map (document : Text) : allowed.contributions document =
    (allowed.layout document).sections.map fun s =>
      (s.1, (allowed.section? document s.1).getD []) := by
  rw [contributions, sections_eq_layout, Layout.names, List.map_map]
  rfl

lemma mem_contributions {document : Text} {s : Text × Text}
    (h : s ∈ allowed.contributions document) :
    allowed.section? document s.1 = some s.2 := by
  obtain ⟨name, hn, rfl⟩ := List.mem_map.mp h
  obtain ⟨text, ht⟩ := Option.isSome_iff_exists.mp (isSome_section?_iff.mpr hn)
  simp [ht]

/-- A document adds its sections as they stand if each of them has the first text of its name. -/
lemma contributions_of_first {document : Text}
    (h : ∀ s ∈ (allowed.layout document).sections, allowed.section? document s.1 = some s.2) :
    allowed.contributions document = (allowed.layout document).sections := by
  rw [contributions_eq_map]
  refine (List.map_congr_left fun s hs => ?_).trans (List.map_id _)
  rw [h s hs]
  rfl

/-- A document adds its own sections, each once and in whatever order, exactly if each of them has the
first text of its name. -/
theorem contributions_perm_iff {document : Text} :
    (allowed.contributions document).Perm (allowed.layout document).sections ↔
      ∀ s ∈ (allowed.layout document).sections, allowed.section? document s.1 = some s.2 := by
  refine ⟨fun h s hs => mem_contributions (h.mem_iff.mpr hs), fun h => ?_⟩
  rw [contributions_of_first h]

/-- The sections of a document without repeated headers have the first texts of their names. -/
lemma section?_of_nodup {document : Text} (h : (allowed.sections document).Nodup)
    {s : Text × Text} (hs : s ∈ (allowed.layout document).sections) :
    allowed.section? document s.1 = some s.2 := by
  obtain ⟨before, after, hcut⟩ := List.append_of_mem hs
  rw [sections_eq_layout, Layout.names, hcut, List.map_append, List.map_cons,
    List.nodup_append] at h
  rw [section?_eq_lookup, List.lookup_eq_some_iff]
  refine ⟨before, after, hcut, fun s' hs' => ?_⟩
  have hne := h.2.2 s'.1 (List.mem_map_of_mem hs') s.1 List.mem_cons_self
  simpa using hne.symm

end AllowList

/-- The whole-file pass inserts one text for each header of each of its documents: the first text of
that header's name. These are a document's own texts, each once, exactly if no header that repeats a
name has a text of its own; and so they are if no name is repeated. -/
theorem wholeFiles_insert_first_texts (s : Shelf) (rules : Rules) (root : Template) (body : Text)
    (imports : List AppliedImport) (t t' : Trail)
    (h : Merge.Gives (Merge.wholeFiles s.access rules root) t (body, imports) t') :
    let allowed := rules.allowed
    let documents := Merge.documents s root (rules.style.wholeFileMarkers root.body)
    allowed.insertAll? root.body (documents.flatMap allowed.contributions) = some body ∧
    ∀ d ∈ documents,
      (allowed.contributions d = (allowed.layout d).sections.map fun s =>
        (s.1, (allowed.section? d s.1).getD [])) ∧
      ((allowed.contributions d).Perm (allowed.layout d).sections ↔
        ∀ s ∈ (allowed.layout d).sections, allowed.section? d s.1 = some s.2) ∧
      ((allowed.sections d).Nodup → allowed.contributions d = (allowed.layout d).sections) :=
  ⟨Merge.insertAll?_of_wholeFilePass h, fun d _ => ⟨AllowList.contributions_eq_map d,
    AllowList.contributions_perm_iff,
    fun hd => AllowList.contributions_of_first fun _ => AllowList.section?_of_nodup hd⟩⟩

/-- A template that takes in another one, which repeats a header. -/
def Shelf.repeating : Shelf :=
  .ofList [("/a".toList, "# @import b\n".toList),
    ("/b".toList, "Resources:\n  A: 1\nResources:\n  B: 2\n".toList)]

/-- The root of the template that takes in a repeated header. -/
def Template.repeating : Template := ⟨"# @import b\n".toList, .ofText "/a".toList⟩

lemma wholeFiles_repeating :
    ∃ t', Merge.Gives (Merge.wholeFiles Shelf.repeating.access Rules.standard .repeating) .empty
      ("# @import b\nResources:\n  A: 1\n\n  A: 1\n".toList,
        [⟨.wholeFile, "b".toList, .ofText "/b".toList,
          ["Resources".toList, "Resources".toList]⟩]) t' :=
  Merge.exists_gives_of_toOption (by decide +kernel)

theorem wholeFiles_repeating_insert_first_text :
    ∃ body imports t',
      Merge.Gives (Merge.wholeFiles Shelf.repeating.access Rules.standard .repeating) .empty
        (body, imports) t' ∧
      ∃ d ∈ Merge.documents Shelf.repeating .repeating
          (Rules.standard.style.wholeFileMarkers Template.repeating.body),
        ¬ (Rules.standard.allowed.contributions d).Perm (Rules.standard.allowed.layout d).sections := by
  obtain ⟨t', h⟩ := wholeFiles_repeating
  obtain ⟨_, hdocuments⟩ := wholeFiles_insert_first_texts Shelf.repeating Rules.standard .repeating
    _ _ .empty t' h
  have hd : "Resources:\n  A: 1\nResources:\n  B: 2\n".toList ∈ Merge.documents Shelf.repeating
      .repeating (Rules.standard.style.wholeFileMarkers Template.repeating.body) := by
    decide +kernel
  refine ⟨_, _, t', h, _, hd, fun hp => ?_⟩
  have hlost : Rules.standard.allowed.section? "Resources:\n  A: 1\nResources:\n  B: 2\n".toList
      "Resources".toList = some "\n  B: 2\n".toList :=
    (hdocuments _ hd).2.1.mp hp ("Resources".toList, "\n  B: 2\n".toList) (by decide +kernel)
  revert hlost
  decide +kernel

/-- Inserting the own text of each header, in whatever order, does not always give what the whole-file
pass gives. -/
theorem not_own_text_of_each_header :
    ¬ ∀ (s : Shelf) (rules : Rules) (root : Template) (body : Text) (imports : List AppliedImport)
      (t t' : Trail), rules.allowed.LetterDigit →
      Merge.Gives (Merge.wholeFiles s.access rules root) t (body, imports) t' →
      ∃ own, own.Perm ((Merge.documents s root (rules.style.wholeFileMarkers root.body)).flatMap
          fun d => (rules.allowed.layout d).sections) ∧
        rules.allowed.insertAll? root.body own = some body := by
  intro h
  obtain ⟨t', hg⟩ := wholeFiles_repeating
  obtain ⟨own, hp, hi⟩ := h _ _ _ _ _ _ _ (by decide +kernel) hg
  have hne : ∀ own ∈ ((Merge.documents Shelf.repeating .repeating
      (Rules.standard.style.wholeFileMarkers Template.repeating.body)).flatMap
        fun d => (Rules.standard.allowed.layout d).sections).permutations',
      Rules.standard.allowed.insertAll? Template.repeating.body own ≠
        some "# @import b\nResources:\n  A: 1\n\n  A: 1\n".toList := by
    decide +kernel
  exact hne own (List.mem_permutations'.mpr hp) hi

end TemplateSplice
