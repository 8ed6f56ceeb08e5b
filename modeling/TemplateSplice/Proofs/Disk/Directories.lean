import TemplateSplice.Proofs.Disk.Effect

/-! Directories that operations of a disk make. The only operation that makes a directory makes one; the
others, whatever they do to files, leave the same directories. -/
namespace TemplateSplice.FileTree

variable {t u v : FileTree} {cwd l k : Location} {name target : Text} {bytes : Bytes} {path : Path}
  {segments : List Text}

/-- Nothing that is taken away leaves a directory behind. -/
lemma directory_of_erase (h : (t.erase l).get? k = some .directory) : t.get? k = some .directory := by
  by_cases hne : k = l
  · subst hne
    by_cases hnil : k = []
    · rw [hnil, get?_nil]
    · rw [get?_erase_self hnil] at h
      cases h
  · rwa [get?_erase_of_ne t hne] at h

lemma directory_of_set_file (h : (t.set l (.file bytes)).get? k = some .directory) :
    t.get? k = some .directory := by
  by_cases hne : k = l
  · subst hne
    by_cases hnil : k = []
    · rw [hnil, get?_nil]
    · rw [get?_set_self t hnil] at h
      cases h
  · rwa [get?_set_of_ne t hne] at h

/-- The locations on the way to a path: those that the leading segments of its parent lead to. -/
def OnTheWay (t : FileTree) (cwd : Location) (path : Path) (l : Location) : Prop :=
  ∃ segments lead, segments <+: path.parent.segments ∧
    t.Leads cwd (Path.mk path.anchor segments).text lead ∧ lead.proper? = some l

lemma OnTheWay.mono (h : t.OnTheWay cwd path l) (hk : t.KeepsDirectories u) :
    u.OnTheWay cwd path l := by
  obtain ⟨segments, lead, hsegments, hlead, hl⟩ := h
  exact ⟨segments, lead, hsegments, hlead.mono hk, hl⟩

/-- All directories are there still, and new ones stand on the way to a path. -/
structure Paved (cwd : Location) (path : Path) (t u : FileTree) : Prop where
  keeps : t.KeepsDirectories u
  new : ∀ l, u.get? l = some .directory → t.get? l = some .directory ∨ u.OnTheWay cwd path l

namespace Paved

lemma refl (cwd : Location) (path : Path) (t : FileTree) : Paved cwd path t t :=
  ⟨fun _ => id, fun _ => .inl⟩

lemma trans (h : Paved cwd path t u) (h' : Paved cwd path u v) : Paved cwd path t v where
  keeps l hl := h'.keeps l (h.keeps l hl)
  new l hl := by
    rcases h'.new l hl with hu | hway
    · exact (h.new l hu).imp_right fun hway => hway.mono h'.keeps
    · exact .inr hway

/-- A file may be put wherever no directory is. -/
lemma set_file (hl : t.get? l ≠ some .directory) (bytes : Bytes) :
    Paved cwd path t (t.set l (.file bytes)) :=
  ⟨(kept_set hl _).directories, fun _ hk => .inl (directory_of_set_file hk)⟩

/-- Whatever is no directory may be taken away. -/
lemma erase (hl : t.get? l ≠ some .directory) : Paved cwd path t (t.erase l) :=
  ⟨(kept_erase hl).directories, fun _ hk => .inl (directory_of_erase hk)⟩

/-- A directory that is made on the way to a path is one more on that way. -/
lemma of_makeDirectory (hsegments : segments <+: path.parent.segments)
    (h : t.makeDirectory cwd (Path.mk path.anchor segments).text = .ok u) : Paved cwd path t u := by
  have hkeeps := (kept_of_makeDirectory h).directories
  obtain ⟨lead, hlead, h⟩ := exists_leads_of_withLead h
  cases hl : lead.proper? with
  | none =>
    rw [hl] at h
    cases h
  | some l =>
    rw [hl] at h
    dsimp only at h
    split_ifs at h
    obtain rfl := Except.ok.inj h
    refine ⟨hkeeps, fun k hk => ?_⟩
    by_cases hkl : k = l
    · subst hkl
      exact .inr ⟨segments, lead, hsegments, hlead.mono hkeeps, hl⟩
    · rw [get?_set_of_ne t hkl] at hk
      exact .inl hk

lemma of_createFile (h : t.createFile cwd name = .ok u) : Paved cwd path t u := by
  obtain ⟨_, l, _, _, _, hnew, rfl⟩ := exists_of_createFile h
  exact set_file (by simp [hnew]) _

lemma of_writeFile (h : t.writeFile cwd name bytes = .ok u) : Paved cwd path t u := by
  obtain ⟨lead, _, h⟩ := exists_leads_of_withLead h
  split at h
  · cases h
  · cases h
  · next hget =>
    obtain rfl := Except.ok.inj h
    exact set_file (by simp [hget]) _

lemma of_removeFile (h : t.removeFile cwd name = .ok u) : Paved cwd path t u := by
  obtain ⟨lead, _, h⟩ := exists_leads_of_withLead h
  split at h
  · cases h
  · cases h
  · next hget =>
    obtain rfl := Except.ok.inj h
    exact erase (by simp [hget])

end Paved

/-- A move takes a file from one location and puts it at another one, where no directory is. -/
lemma exists_of_moveFile (h : t.moveFile cwd name target = .ok u) :
    ∃ l k bytes, t.get? l = some (.file bytes) ∧ t.get? k ≠ some .directory ∧
      u = (t.erase l).set k (.file bytes) := by
  unfold moveFile at h
  dsimp only at h
  split at h
  · next bytes source lead hread hsource _ =>
    obtain ⟨lead', hlead', hfound⟩ := exists_leads_of_withLead (lookup_of_readFile hread)
    obtain rfl : lead' = source := Except.ok.inj (hlead'.symm.trans hsource)
    have hl : t.get? lead'.location = some (.file bytes) := by
      split at hfound
      · cases hfound
      · next hget =>
        split_ifs at hfound
        cases hfound
        exact hget
      · cases hfound
    split at h
    · cases h
    · split at h
      · cases h
      · next hdirectory =>
        split_ifs at h
        exact ⟨_, _, bytes, hl, hdirectory, (Except.ok.inj h).symm⟩
  · cases h
  · cases h
  · cases h
  · cases h

lemma Paved.of_moveFile (h : t.moveFile cwd name target = .ok u) : Paved cwd path t u := by
  obtain ⟨l, k, bytes, hl, hk, rfl⟩ := exists_of_moveFile h
  have herase : Paved cwd path t (t.erase l) := .erase (by simp [hl])
  exact herase.trans (.set_file (fun hdirectory => hk (directory_of_erase hdirectory)) _)

/-- Where no file changes, nothing does but that a directory on the way may be new. -/
lemma Paved.get?_eq (h : Paved cwd path t u) (hfile : u.file? l = t.file? l) :
    u.get? l = t.get? l ∨
      t.get? l = none ∧ u.get? l = some .directory ∧ u.OnTheWay cwd path l := by
  cases ht : t.get? l with
  | none =>
    cases hu : u.get? l with
    | none => exact .inl rfl
    | some e =>
      cases e with
      | file bytes => simp [file?, ht, hu] at hfile
      | directory =>
        rcases h.new l hu with hold | hway
        · rw [ht] at hold
          cases hold
        · exact .inr ⟨rfl, rfl, hway⟩
  | some e =>
    cases e with
    | file bytes =>
      rw [file?_eq_some.mpr ht] at hfile
      exact .inl (file?_eq_some.mp hfile)
    | directory => exact .inl (h.keeps l ht)

end TemplateSplice.FileTree
