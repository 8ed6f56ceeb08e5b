import Mathlib.Tactic.SplitIfs
import TemplateSplice.Proofs.Disk.Lead

/-! What the operations of a disk refuse. Each of them refuses a name with a null character in it as no
name at all, and any other name by a refusal of the system. -/
namespace TemplateSplice.FileTree

variable {α : Type} {t : FileTree} {cwd : Location} {name : Text} {bytes : Bytes} {fault : Fault}

/-- A fault that operations on a name give. -/
inductive Refuses (name : Text) : Fault → Prop
  | null (null : '\x00' ∈ name) : Refuses name .nullInName
  | refused (clean : '\x00' ∉ name) (kind : FaultKind) (target : Option Text) :
      Refuses name (.refused kind name target)

lemma refuses_of_withLead {f : Lead → Except FaultKind α}
    (h : t.withLead cwd name f = .error fault) : Refuses name fault := by
  unfold withLead at h
  split_ifs at h with hnull
  · cases h
    exact .null hnull
  · generalize (t.follow cwd name).bind _ = r at h
    cases r with
    | error kind =>
      cases h
      exact .refused hnull kind none
    | ok a => cases h

lemma refuses_of_lookup (h : t.lookup cwd name = .error fault) : Refuses name fault :=
  refuses_of_withLead h

/-- A name, or one of its segments, has more bytes than the disk allows. -/
def TooLong (name : Text) : Prop :=
  nameLimit ≤ (Utf8.encode name).length ∨
    ∃ s ∈ segmentsOf name, segmentLimit < (Utf8.encode s).length

/-- Why a walk ends before its end: something on the way is no directory, or a segment is too long. -/
lemma error_of_walk {segments : List Text} {l : Location} {kind : FaultKind}
    (h : segments.foldlM t.step l = .error kind) :
    kind = .missing ∨ kind = .notDirectory ∨
      kind = .nameTooLong ∧ ∃ s ∈ segments, segmentLimit < (Utf8.encode s).length := by
  induction segments generalizing l with
  | nil => cases h
  | cons s segments ih =>
    rw [List.foldlM_cons] at h
    cases hs : t.step l s with
    | ok k =>
      rw [hs] at h
      refine (ih h).imp_right (.imp_right (.imp_right ?_))
      rintro ⟨s', hs', hlong⟩
      exact ⟨s', List.mem_cons_of_mem s hs', hlong⟩
    | error kind' =>
      rw [hs] at h
      cases h
      unfold step at hs
      split_ifs at hs with hdot hdotDot hlong
      · cases hs
        exact .inr (.inr ⟨rfl, s, List.mem_cons_self, hlong⟩)
      · split at hs
        · cases hs
          exact .inl rfl
        · cases hs
          exact .inr (.inl rfl)
        · cases hs

lemma error_of_follow {kind : FaultKind} (h : t.follow cwd name = .error kind) :
    kind = .missing ∨ kind = .notDirectory ∨ kind = .nameTooLong ∧ TooLong name := by
  unfold follow at h
  by_cases hnil : name = []
  · rw [if_pos hnil] at h
    cases h
    exact .inl rfl
  by_cases hlong : nameLimit ≤ (Utf8.encode name).length
  · rw [if_neg hnil, if_pos hlong] at h
    cases h
    exact .inr (.inr ⟨rfl, .inl hlong⟩)
  rw [if_neg hnil, if_neg hlong] at h
  change Except.bind ((segmentsOf name).dropLast.foldlM t.step (startOf cwd name)) _ = _ at h
  cases hwalk : (segmentsOf name).dropLast.foldlM t.step (startOf cwd name) with
  | ok l =>
    rw [hwalk] at h
    cases h
  | error kind' =>
    rw [hwalk] at h
    cases h
    refine (error_of_walk hwalk).imp_right (.imp_right (.imp_right ?_))
    rintro ⟨s, hs, hlong⟩
    exact .inr ⟨s, List.dropLast_subset _ hs, hlong⟩

lemma tooLong_of_isTooLong {lead : Lead} (h : t.follow cwd name = .ok lead)
    (hlong : lead.isTooLong = true) : TooLong name := by
  obtain ⟨-, -, -, hlast, -⟩ := follow_eq_ok_iff.mp h
  unfold Lead.isTooLong at hlong
  rw [hlast] at hlong
  cases hs : (segmentsOf name).getLast? with
  | none =>
    rw [hs] at hlong
    cases hlong
  | some s =>
    rw [hs] at hlong
    exact .inr ⟨s, List.mem_of_getLast? hs, by simpa using hlong⟩

/-- A name that is looked up and not found leads nowhere, or is too long. -/
theorem fault_of_lookup (h : t.lookup cwd name = .error fault) :
    fault.isAbsence = true ∨ fault = .refused .nameTooLong name none ∧ TooLong name := by
  unfold lookup withLead at h
  split_ifs at h with hnull
  · cases h
    exact .inl rfl
  cases hf : t.follow cwd name with
  | error kind =>
    rw [hf] at h
    cases h
    rcases error_of_follow hf with rfl | rfl | ⟨rfl, hlong⟩
    · exact .inl rfl
    · exact .inl rfl
    · exact .inr ⟨rfl, hlong⟩
  | ok lead =>
    rw [hf] at h
    simp only [Except.bind] at h
    by_cases hlong : lead.isTooLong = true
    · rw [if_pos hlong] at h
      cases h
      exact .inr ⟨rfl, tooLong_of_isTooLong hf hlong⟩
    · rw [if_neg hlong] at h
      refine .inl ?_
      split at h
      · cases h
        rfl
      · split_ifs at h
        · cases h
          rfl
        · cases h
      · cases h

lemma clean_of_lookup {entry : Entry} (h : t.lookup cwd name = .ok entry) : '\x00' ∉ name := by
  intro hnull
  unfold lookup withLead at h
  rw [if_pos hnull] at h
  cases h

/-- A name that leads to an entry names a file or is refused. -/
lemma readFile_of_lookup {entry : Entry} (h : t.lookup cwd name = .ok entry) :
    (∃ bytes, t.readFile cwd name = .ok bytes) ∨
      t.readFile cwd name = .error (.refused .isDirectory name none) := by
  unfold readFile
  rw [h]
  cases entry with
  | directory => exact .inr rfl
  | file bytes => exact .inl ⟨bytes, rfl⟩

lemma refuses_of_readFile (h : t.readFile cwd name = .error fault) : Refuses name fault := by
  cases hl : t.lookup cwd name with
  | error fault' =>
    rw [readFile, hl] at h
    cases h
    exact refuses_of_lookup hl
  | ok entry =>
    rcases readFile_of_lookup hl with ⟨bytes, hb⟩ | hd
    · rw [hb] at h
      cases h
    · rw [hd] at h
      cases h
      exact .refused (clean_of_lookup hl) .isDirectory none

lemma refuses_of_makeDirectory (h : t.makeDirectory cwd name = .error fault) : Refuses name fault :=
  refuses_of_withLead h

lemma refuses_of_createFile (h : t.createFile cwd name = .error fault) : Refuses name fault :=
  refuses_of_withLead h

lemma refuses_of_appendFile (h : t.appendFile cwd name bytes = .error fault) : Refuses name fault :=
  refuses_of_withLead h

lemma refuses_of_writeFile (h : t.writeFile cwd name bytes = .error fault) : Refuses name fault :=
  refuses_of_withLead h

lemma Refuses.eq_refused (h : Refuses name fault) (hclean : '\x00' ∉ name) :
    ∃ kind target, fault = .refused kind name target := by
  cases h with
  | null hnull => exact absurd hnull hclean
  | refused _ kind target => exact ⟨kind, target, rfl⟩

/-- A move is refused, unless one of its two names has a null character in it. -/
lemma refused_of_moveFile {target : Text} (h : t.moveFile cwd name target = .error fault)
    (hname : '\x00' ∉ name) (htarget : '\x00' ∉ target) :
    ∃ kind, fault = .refused kind name (some target) := by
  unfold moveFile at h
  dsimp only at h
  split at h
  · split at h
    · cases h
      exact ⟨_, rfl⟩
    · split at h
      · cases h
        exact ⟨_, rfl⟩
      · split_ifs at h
        cases h
        exact ⟨_, rfl⟩
  · cases h
    exact ⟨_, rfl⟩
  · cases h
    exact ⟨_, rfl⟩
  · cases h
    exact ⟨_, rfl⟩
  · rename_i hread hlead hto hok
    exfalso
    cases hr : t.readFile cwd name with
    | error fault' =>
      obtain ⟨kind, target', rfl⟩ := (refuses_of_readFile hr).eq_refused hname
      exact hread kind _ _ hr
    | ok bytes =>
      cases hl : t.withLead cwd name (.ok ·) with
      | error fault' =>
        obtain ⟨kind, target', rfl⟩ := (refuses_of_withLead hl).eq_refused hname
        exact hlead kind _ _ hl
      | ok lead =>
        cases ht : t.withLead cwd target (.ok ·) with
        | error fault' =>
          obtain ⟨kind, target', rfl⟩ := (refuses_of_withLead ht).eq_refused htarget
          exact hto kind _ _ ht
        | ok lead' => exact hok bytes lead lead' hr hl ht

end TemplateSplice.FileTree
