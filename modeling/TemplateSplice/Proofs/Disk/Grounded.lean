import Mathlib.Data.List.Induction
import TemplateSplice.Proofs.Disk.Effect
import TemplateSplice.Proofs.Path.Normal

/-! Trees in which every entry is in a directory. In such a tree a file is found at an absolute path as soon
as it is there, so it is found before changes that leave it alone exactly if it is found after them. -/
namespace TemplateSplice.FileTree

variable {t u : FileTree} {cwd l : Location} {name : Text} {lead : Lead} {bytes : Bytes} {p : Path}
  {free : Location → Prop}

/-- Whatever there is in a tree is in a directory of it. -/
def Grounded (t : FileTree) : Prop :=
  ∀ l s, (t.get? (l ++ [s])).isSome = true → t.get? l = some .directory

/-- All locations above something are directories. -/
lemma Grounded.above (h : t.Grounded) {k : Location} (hk : k <+: l) (hne : k ≠ l)
    (hl : (t.get? l).isSome = true) : t.get? k = some .directory := by
  induction l using List.reverseRecOn with
  | nil => exact absurd (List.prefix_nil.mp hk) hne
  | append_singleton l s ih =>
    have hdirectory := h l s hl
    rcases List.prefix_concat_iff.mp hk with rfl | hk
    · exact absurd rfl hne
    · by_cases hkl : k = l
      · rw [hkl, hdirectory]
      · exact ih hk hkl (by rw [hdirectory]; rfl)

/-- A file is read where a name leads to one. -/
lemma readFile_eq_ok : t.readFile cwd name = .ok bytes ↔
    ∃ lead, t.Leads cwd name lead ∧ lead.isSlashed = false ∧ t.file? lead.location = some bytes := by
  constructor
  · intro h
    obtain ⟨lead, hlead, hentry⟩ := exists_leads_of_withLead (lookup_of_readFile h)
    refine ⟨lead, hlead, ?_⟩
    split at hentry
    · cases hentry
    · next hfile =>
      split_ifs at hentry with hslash
      cases hentry
      exact ⟨by simpa using hslash, file?_eq_some.mpr hfile⟩
    · cases hentry
  · rintro ⟨lead, hlead, hslash, hfile⟩
    unfold FileTree.readFile FileTree.lookup
    rw [hlead.withLead, file?_eq_some.mp hfile, hslash]
    rfl

/-- A walk through directories of one tree can be made in another one that has them. -/
lemma walk_of_directories {segments : List Text} (hs : ∀ s ∈ segments, Path.Ordinary s) {k : Location}
    (hw : segments.foldlM u.step l = .ok k)
    (hd : ∀ above, above <+: segments → t.get? (l ++ above) = some .directory) :
    segments.foldlM t.step l = .ok k := by
  induction segments generalizing l with
  | nil => exact hw
  | cons s segments ih =>
    obtain ⟨hord, hrest⟩ := List.forall_mem_cons.mp hs
    rw [List.foldlM_cons] at hw ⊢
    cases hstep : u.step l s with
    | error kind =>
      rw [hstep] at hw
      cases hw
    | ok l' =>
      rw [hstep] at hw
      unfold FileTree.step at hstep ⊢
      rw [if_neg hord.2.1, if_neg hord.2.2.1] at hstep ⊢
      split_ifs at hstep ⊢
      rw [hd [s] ⟨segments, rfl⟩]
      split at hstep
      · cases hstep
      · cases hstep
      · obtain rfl := Except.ok.inj hstep
        refine ih hrest hw fun above ha => ?_
        rw [List.append_assoc]
        exact hd (s :: above) (List.cons_prefix_cons.mpr ⟨rfl, ha⟩)

/-- In a grounded tree an absolute path leads to what is there, if it leads there in some tree. -/
lemma Grounded.leads (h : t.Grounded) (hp : p.IsPlace)
    (hl : (t.get? p.segments).isSome = true) (hlead : u.Leads cwd p.text lead) :
    t.Leads cwd p.text lead := by
  have hs := hp.ordinary
  obtain ⟨hnull, hf, hlong⟩ := leads_iff.mp hlead
  obtain ⟨hname, hshort, hwalk, hlast⟩ := follow_eq_ok_iff.mp hf
  refine leads_iff.mpr ⟨hnull, follow_eq_ok_iff.mpr ⟨hname, hshort, ?_, hlast⟩, hlong⟩
  rw [segmentsOf_text hp.normal.plain (.inl hp.absolute),
    startOf_text hp.normal.plain hp.absolute] at hwalk ⊢
  refine walk_of_directories (fun s hm => hs s (List.dropLast_subset _ hm)) hwalk fun above habove => ?_
  rw [List.nil_append]
  by_cases hnil : p.segments = []
  · rw [hnil] at habove
    rw [List.prefix_nil.mp habove]
    exact get?_nil t
  · refine h.above (habove.trans (List.dropLast_prefix _)) ?_ hl
    rintro rfl
    have hlength := habove.length_le
    rw [List.length_dropLast] at hlength
    have hpos := List.length_pos_iff.mpr hnil
    omega

/-- A file at an absolute path is read after changes that leave it alone. -/
lemma Kept.readFile (h : t.Kept free u) (hp : p.IsPlace) (hfree : ¬ free p.segments)
    (hr : t.readFile cwd p.text = .ok bytes) : u.readFile cwd p.text = .ok bytes := by
  obtain ⟨lead, hlead, hslash, hfile⟩ := readFile_eq_ok.mp hr
  have hlocation := hlead.location_eq hp.ordinary hp.absolute
  refine readFile_eq_ok.mpr ⟨lead, hlead.mono h.directories, hslash, ?_⟩
  rw [hlocation] at hfile ⊢
  rw [h.files _ hfree, hfile]

/-- In a grounded tree it was read before them. -/
lemma Kept.readFile_before (h : t.Kept free u) (hg : t.Grounded) (hp : p.IsPlace)
    (hfree : ¬ free p.segments) (hr : u.readFile cwd p.text = .ok bytes) :
    t.readFile cwd p.text = .ok bytes := by
  obtain ⟨lead, hlead, hslash, hfile⟩ := readFile_eq_ok.mp hr
  have hlocation := hlead.location_eq hp.ordinary hp.absolute
  have hbefore : t.file? p.segments = some bytes := by rw [← h.files _ hfree, ← hlocation, hfile]
  have hthere : (t.get? p.segments).isSome = true := by rw [file?_eq_some.mp hbefore]; rfl
  refine readFile_eq_ok.mpr ⟨lead, hg.leads hp hthere hlead, hslash, ?_⟩
  rw [hlocation, hbefore]

end TemplateSplice.FileTree
