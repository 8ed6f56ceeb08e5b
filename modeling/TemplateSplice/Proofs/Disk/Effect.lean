import TemplateSplice.Proofs.Disk.Lead

/-! What the operations of a disk change. No operation takes a directory away, so names keep leading to
where they led; and each of them touches the files at one or two locations only. -/
namespace TemplateSplice.FileTree

variable {t u v : FileTree} {cwd l : Location} {name : Text} {lead : Lead} {bytes : Bytes}

lemma file?_eq_some : t.file? l = some bytes ↔ t.get? l = some (.file bytes) := by
  unfold file?
  split <;> simp_all

lemma file?_of_get?_eq (h : u.get? l = t.get? l) : u.file? l = t.file? l := by rw [file?, h, ← file?]

lemma file?_eq_none_of_get? (h : t.get? l = none) : t.file? l = none := by rw [file?, h]

lemma get?_erase_self (h : l ≠ []) : (t.erase l).get? l = none := by
  have hnone : (t.erase l).entries.find? (fun p => decide (p.1 = l)) = none := by
    rw [List.find?_eq_none]
    intro p hp
    simpa using (List.mem_filter.mp hp).2
  rw [get?, if_neg h, hnone]
  rfl

/-- Directories stay, and so do files, except at the free locations. -/
structure Kept (free : Location → Prop) (t u : FileTree) : Prop where
  directories : t.KeepsDirectories u
  files : ∀ l, ¬ free l → u.file? l = t.file? l

namespace Kept

variable {free free' : Location → Prop}

lemma refl (free : Location → Prop) (t : FileTree) : t.Kept free t := ⟨fun _ => id, fun _ _ => rfl⟩

lemma trans (h : t.Kept free u) (h' : u.Kept free v) : t.Kept free v :=
  ⟨fun l hl => h'.directories l (h.directories l hl),
    fun l hl => (h'.files l hl).trans (h.files l hl)⟩

lemma imp (h : t.Kept free u) (hf : ∀ l, free l → free' l) : t.Kept free' u :=
  ⟨h.directories, fun l hl => h.files l fun hn => hl (hf l hn)⟩

/-- Where nothing is free, nothing but directories is new. -/
lemma file?_eq (h : t.Kept (fun _ => False) u) (l : Location) : u.file? l = t.file? l := h.files l id

end Kept

/-- A change at a location that holds no directory leaves everything else alone. -/
lemma kept_of_get?_eq (hl : t.get? l ≠ some .directory) (h : ∀ k, k ≠ l → u.get? k = t.get? k) :
    t.Kept (· = l) u where
  directories k hk := by
    have hne : k ≠ l := fun he => hl (he ▸ hk)
    rwa [h k hne]
  files k hk := file?_of_get?_eq (h k hk)

lemma kept_set (hl : t.get? l ≠ some .directory) (e : Entry) : t.Kept (· = l) (t.set l e) :=
  kept_of_get?_eq hl fun _ hk => get?_set_of_ne t hk e

lemma kept_erase (hl : t.get? l ≠ some .directory) : t.Kept (· = l) (t.erase l) :=
  kept_of_get?_eq hl fun _ hk => get?_erase_of_ne t hk

/-- A change that ends with no file where there was none before changes no file. -/
lemma Kept.of_no_file (h : t.Kept (· = l) u) (ht : t.file? l = none) (hu : u.file? l = none) :
    t.Kept (fun _ => False) u where
  directories := h.directories
  files k _ := by
    by_cases hk : k = l
    · rw [hk, ht, hu]
    · exact h.files k hk

/-- A name leads to a file. -/
structure HasFile (t : FileTree) (cwd : Location) (name : Text) (l : Location) (bytes : Bytes) :
    Prop where
  leads : ∃ lead, t.Leads cwd name lead ∧ lead.proper? = some l ∧ lead.isSlashed = false
  file : t.file? l = some bytes

namespace HasFile

lemma get?_eq (h : t.HasFile cwd name l bytes) : t.get? l = some (.file bytes) :=
  file?_eq_some.mp h.file

/-- A file that a name leads to can be read. -/
lemma readFile (h : t.HasFile cwd name l bytes) : t.readFile cwd name = .ok bytes := by
  have hget := h.get?_eq
  obtain ⟨lead, hlead, hl, hslash⟩ := h.leads
  unfold FileTree.readFile lookup
  rw [hlead.withLead, Lead.location_of_proper? hl, hget]
  simp [hslash, Except.mapError, Except.bind]

/-- It takes other bytes. -/
lemma writeFile (h : t.HasFile cwd name l bytes) (new : Bytes) :
    t.writeFile cwd name new = .ok (t.set l (.file new)) := by
  have hget := h.get?_eq
  obtain ⟨lead, hlead, hl, _⟩ := h.leads
  unfold FileTree.writeFile
  rw [hlead.withLead, Lead.location_of_proper? hl, hget]
  rfl

/-- It can be removed. -/
lemma removeFile (h : t.HasFile cwd name l bytes) : t.removeFile cwd name = .ok (t.erase l) := by
  have hget := h.get?_eq
  obtain ⟨lead, hlead, hl, _⟩ := h.leads
  unfold FileTree.removeFile
  rw [hlead.withLead, Lead.location_of_proper? hl, hget]
  rfl

lemma kept_set (h : t.HasFile cwd name l bytes) (new : Bytes) :
    t.Kept (· = l) (t.set l (.file new)) := FileTree.kept_set (by simp [h.get?_eq]) _

lemma kept_erase (h : t.HasFile cwd name l bytes) : t.Kept (· = l) (t.erase l) :=
  FileTree.kept_erase (by simp [h.get?_eq])

lemma ne_nil (h : t.HasFile cwd name l bytes) : l ≠ [] := by
  obtain ⟨lead, _, hl, _⟩ := h.leads
  exact Lead.ne_nil_of_proper? hl

lemma set (h : t.HasFile cwd name l bytes) (new : Bytes) :
    (t.set l (.file new)).HasFile cwd name l new := by
  have hset := file?_eq_some.mpr (get?_set_self t h.ne_nil (.file new))
  obtain ⟨lead, hlead, hl, hslash⟩ := h.leads
  exact ⟨⟨lead, hlead.mono (h.kept_set new).directories, hl, hslash⟩, hset⟩

lemma file?_erase (h : t.HasFile cwd name l bytes) : (t.erase l).file? l = none :=
  file?_eq_none_of_get? (get?_erase_self h.ne_nil)

end HasFile

lemma lookup_of_readFile (h : t.readFile cwd name = .ok bytes) :
    t.lookup cwd name = .ok (.file bytes) := by
  unfold FileTree.readFile at h
  cases hl : t.lookup cwd name with
  | error fault =>
    rw [hl] at h
    cases h
  | ok entry =>
    rw [hl] at h
    cases entry with
    | directory => cases h
    | file b =>
      obtain rfl : b = bytes := Except.ok.inj h
      rfl

/-- Making a directory changes no file. -/
theorem kept_of_makeDirectory (h : t.makeDirectory cwd name = .ok u) : t.Kept (fun _ => False) u := by
  obtain ⟨lead, _, h⟩ := exists_leads_of_withLead h
  cases hl : lead.proper? with
  | none =>
    rw [hl] at h
    cases h
  | some l =>
    rw [hl] at h
    dsimp only at h
    split_ifs at h with hsome
    obtain rfl := Except.ok.inj h
    have hnone : t.get? l = none := by simpa using hsome
    have hset : (t.set l .directory).get? l = some .directory :=
      get?_set_self t (Lead.ne_nil_of_proper? hl) _
    exact (kept_set (by simp [hnone]) _).of_no_file (file?_eq_none_of_get? hnone)
      (by rw [file?, hset])

lemma exists_of_createFile (h : t.createFile cwd name = .ok u) :
    ∃ lead l, t.Leads cwd name lead ∧ lead.proper? = some l ∧ lead.isSlashed = false ∧
      t.get? l = none ∧ u = t.set l (.file []) := by
  obtain ⟨lead, hlead, h⟩ := exists_leads_of_withLead h
  cases hl : lead.proper? with
  | none =>
    rw [hl] at h
    cases h
  | some l =>
    rw [hl] at h
    dsimp only at h
    split_ifs at h with hslash hsome
    exact ⟨lead, l, hlead, hl, by simpa using hslash, by simpa using hsome, (Except.ok.inj h).symm⟩

lemma exists_of_appendFile (h : t.appendFile cwd name bytes = .ok u) :
    ∃ lead, t.Leads cwd name lead ∧ t.Kept (· = lead.location) u := by
  obtain ⟨lead, hlead, h⟩ := exists_leads_of_withLead h
  refine ⟨lead, hlead, ?_⟩
  cases hl : lead.proper? with
  | none =>
    rw [hl] at h
    cases h
  | some l =>
    rw [hl] at h
    dsimp only at h
    split_ifs at h
    rw [Lead.location_of_proper? hl]
    cases hg : t.get? l with
    | none =>
      rw [hg] at h
      obtain rfl := Except.ok.inj h
      exact kept_set (by simp [hg]) _
    | some e =>
      rw [hg] at h
      cases e with
      | directory => cases h
      | file before =>
        obtain rfl := Except.ok.inj h
        exact kept_set (by simp [hg]) _

/-- The tree after a file was moved onto no directory. -/
lemma kept_move {k : Location} (hl : t.get? l = some (.file bytes)) (hk : k ≠ [])
    (hdirectory : t.get? k ≠ some .directory) :
    ((t.erase l).set k (.file bytes)).file? k = some bytes ∧
      (k ≠ l → ((t.erase l).set k (.file bytes)).file? l = none) ∧
      t.Kept (fun i => i = l ∨ i = k) ((t.erase l).set k (.file bytes)) := by
  have hne : l ≠ [] := by
    rintro rfl
    simp at hl
  have herased : (t.erase l).get? k ≠ some .directory := by
    by_cases hkl : k = l
    · rw [hkl, get?_erase_self hne]
      simp
    · rwa [get?_erase_of_ne t hkl]
  have hkept : t.Kept (· = l) (t.erase l) := kept_erase (by simp [hl])
  refine ⟨file?_eq_some.mpr (get?_set_self _ hk _), fun hkl => ?_, ?_⟩
  · rw [file?_of_get?_eq (get?_set_of_ne _ (Ne.symm hkl) _),
      file?_eq_none_of_get? (get?_erase_self hne)]
  · exact (hkept.imp fun _ => .inl).trans ((kept_set herased _).imp fun _ => .inr)

/-- A file that is moved stands at the place of the target, and nothing else changes. -/
lemma HasFile.exists_of_moveFile {target : Text} (h : t.HasFile cwd name l bytes)
    (hm : t.moveFile cwd name target = .ok u) :
    ∃ k, u.HasFile cwd target k bytes ∧ (k ≠ l → u.file? l = none) ∧
      t.Kept (fun i => i = l ∨ i = k) u := by
  obtain ⟨source, hsource, hl, _⟩ := h.leads
  have hs : t.withLead cwd name (.ok ·) = .ok source := hsource
  unfold FileTree.moveFile at hm
  rw [h.readFile, hs] at hm
  dsimp only at hm
  cases hlead : t.withLead cwd target (.ok ·) with
  | error fault =>
    rw [hlead] at hm
    cases fault <;> cases hm
  | ok lead =>
    rw [hlead] at hm
    dsimp only at hm
    rw [Lead.location_of_proper? hl] at hm
    cases hk : lead.proper? with
    | none =>
      rw [hk] at hm
      cases hm
    | some k =>
      rw [hk] at hm
      dsimp only at hm
      split at hm
      · cases hm
      · next hne =>
        split_ifs at hm with hslash
        obtain rfl := Except.ok.inj hm
        obtain ⟨hfile, hgone, hkept⟩ := kept_move h.get?_eq (Lead.ne_nil_of_proper? hk) hne
        have hleads := Leads.mono hlead hkept.directories
        exact ⟨k, ⟨⟨lead, hleads, hk, by simpa using hslash⟩, hfile⟩, hgone, hkept⟩

/-- A file can be moved to where nothing is, or a file. -/
lemma HasFile.moveFile {target : Text} {k : Location} (h : t.HasFile cwd name l bytes)
    (hlead : t.Leads cwd target lead) (hk : lead.proper? = some k) (hslash : lead.isSlashed = false)
    (hdirectory : t.get? k ≠ some .directory) : ∃ u, t.moveFile cwd name target = .ok u := by
  obtain ⟨source, hsource, _, _⟩ := h.leads
  have hs : t.withLead cwd name (.ok ·) = .ok source := hsource
  have ht : t.withLead cwd target (.ok ·) = .ok lead := hlead
  unfold FileTree.moveFile
  rw [h.readFile, hs, ht]
  dsimp only
  rw [hk]
  dsimp only
  split
  · next he => exact absurd he hdirectory
  · exact ⟨_, by rw [hslash]; rfl⟩

/-- A directory that is there is not made again. -/
lemma makeDirectory_of_lookup (h : t.lookup cwd name = .ok .directory) :
    t.makeDirectory cwd name = .error (.refused .alreadyExists name none) := by
  obtain ⟨lead, hlead, h⟩ := exists_leads_of_withLead h
  unfold FileTree.makeDirectory
  rw [hlead.withLead]
  cases hl : lead.proper? with
  | none => rfl
  | some l =>
    rw [Lead.location_of_proper? hl] at h
    cases hg : t.get? l with
    | none =>
      rw [hg] at h
      cases h
    | some e => simp [hg, Except.mapError]

end TemplateSplice.FileTree
