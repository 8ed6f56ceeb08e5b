import TemplateSplice.Host.Journal
import TemplateSplice.Proofs.Disk.Refusal
import TemplateSplice.Proofs.Host.Replace

/-! How actions on files fail. The system refuses them, or there is a null character in a name: in that
of the file, in that of the directory it is in, or in that of the working directory. -/
namespace TemplateSplice

namespace Problem

/-- What may go wrong with names on a disk, where some of them may hold null characters. -/
inductive OfDisk (P : Prop) : Problem → Prop
  | system {e : Problem} (system : e.report.kind.isSystem = true) : OfDisk P e
  | nullInName (null : P) : OfDisk P (.disk .nullInName)

lemma OfDisk.imp {P P' : Prop} {e : Problem} (h : OfDisk P e) (himp : P → P') : OfDisk P' e := by
  cases h with
  | system system => exact .system system
  | nullInName null => exact .nullInName (himp null)

lemma OfDisk.of_refuses {name : Text} {fault : Fault} (h : FileTree.Refuses name fault) :
    OfDisk ('\x00' ∈ name) (.disk fault) := by
  cases h with
  | null null => exact .nullInName null
  | refused _ kind target => exact .system rfl

/-- What may go wrong where texts are written in the encoding of a name. -/
inductive OfWriting (equipment : Equipment) (encoding : Text) (parts : List Text) (P : Prop) :
    Problem → Prop
  | disk {e : Problem} (disk : OfDisk P e) : OfWriting equipment encoding parts P e
  | nullInEncoding (null : '\x00' ∈ encoding) : OfWriting equipment encoding parts P .nullInEncoding
  | unknownEncoding (unknown : equipment.codecOf? encoding = none) :
      OfWriting equipment encoding parts P (.unknownEncoding encoding)
  /-- The texts have no bytes in the encoding. -/
  | codec {codec : Codec} {fault : CodecFault EncodeFault}
      (named : equipment.codecOf? encoding = some codec) (fails : codec.stream parts = .error fault) :
      OfWriting equipment encoding parts P (Host.encodeProblem fault)

lemma OfWriting.imp {equipment : Equipment} {encoding : Text} {parts : List Text} {P P' : Prop}
    {e : Problem} (h : OfWriting equipment encoding parts P e) (himp : P → P') :
    OfWriting equipment encoding parts P' e := by
  cases h with
  | disk disk => exact .disk (disk.imp himp)
  | nullInEncoding null => exact .nullInEncoding null
  | unknownEncoding unknown => exact .unknownEncoding unknown
  | codec named fails => exact .codec named fails

end Problem

namespace Machine

variable {α β : Type} {journal : Journal} {machine : Machine} {equipment : Equipment}
  {E : Problem → Prop}

/-- The states in which a machine has some equipment. -/
def Equipped (equipment : Equipment) : States := fun _ u => u.equipment = equipment

/-- An action fails with nothing but problems of some sort, wherever it starts on machines with some
equipment. -/
abbrev FailsWith (equipment : Equipment) (x : Action (StateM Machine) α) (E : Problem → Prop) : Prop :=
  Keeps (Equipped equipment) x (fun _ => True) E

/-- What holds of the problems of an action wherever it starts holds of them where it starts. -/
lemma Keeps.ensures_error {x : Action (StateM Machine) α} (h : FailsWith machine.equipment x E) :
    Ensures journal machine x fun r _ _ => ∀ e, r = .error e → E e :=
  (h journal machine rfl).imp fun _ _ _ hr => hr.2.2

section Disk

variable {P : Prop} {name : Text} {p : Path}

lemma failsWith_change_bind {op : FileTree → Location → Except Fault FileTree}
    {f : Except Fault Unit → Action (StateM Machine) β} (hok : FailsWith equipment (f (.ok ())) E)
    (herror : ∀ t cwd fault, op t cwd = .error fault → FailsWith equipment (f (.error fault)) E) :
    FailsWith equipment (Host.run (change op) >>= f) E := fun journal machine hs =>
  ensures_change_bind (fun t _ => hok journal { machine with tree := t } hs)
    fun fault hfault => herror _ _ fault hfault journal machine hs

lemma failsWith_attempt_change (op : FileTree → Location → Except Fault FileTree)
    (h : ∀ t cwd fault, op t cwd = .error fault → E (.disk fault)) :
    FailsWith equipment (Host.attempt (change op)) E :=
  failsWith_change_bind (keeps_pure trivial) fun t cwd fault hfault =>
    keeps_throw (h t cwd fault hfault)

/-- A name is refused as no name at all, or it is too long to be asked for. -/
lemma ensures_directory?_error (name : Text) :
    Ensures journal machine (host.directory? name) fun r _ _ =>
      (∀ answer, r = .ok (some answer) → '\x00' ∉ name) ∧
        ∀ e, r = .error e → e = .disk (.refused .nameTooLong name none) ∧ FileTree.TooLong name := by
  unfold Host.directory?
  change Ensures journal machine (Host.run (look fun t cwd =>
    (t.lookup cwd name).map fun entry => decide (entry = Entry.directory)) >>= _) _
  refine ensures_look_bind ?_
  cases hl : machine.tree.lookup machine.cwd name with
  | ok entry => exact ensures_pure ⟨fun _ _ => FileTree.clean_of_lookup hl, nofun⟩
  | error fault =>
    dsimp only [Except.map]
    split_ifs with habsent
    · exact ensures_pure ⟨nofun, nofun⟩
    · refine ensures_throw ⟨nofun, ?_⟩
      rintro _ ⟨⟩
      obtain ⟨rfl, hlong⟩ := (FileTree.fault_of_lookup hl).resolve_left habsent
      exact ⟨rfl, hlong⟩

/-- Asking for what is at a name keeps all states. -/
lemma keeps_directory? {S : States} (name : Text) :
    Keeps S (host.directory? name) (fun answer => ∀ a, answer = some a → '\x00' ∉ name) fun e =>
      e = .disk (.refused .nameTooLong name none) ∧ FileTree.TooLong name := by
  intro journal machine hs
  refine ((ensures_directory? name).and (ensures_directory?_error name)).imp fun r j u h => ?_
  obtain ⟨⟨rfl, rfl⟩, hclean, herror⟩ := h
  exact ⟨hs, fun answer hr a ha => hclean a (ha ▸ hr), herror⟩

lemma failsWith_makeLastDirectory {fault : Fault} (h : Problem.OfDisk P (.disk fault)) :
    FailsWith equipment (host.makeLastDirectory p fault) (Problem.OfDisk P) := by
  have hholds : FailsWith equipment (host.holdsDirectory p) (Problem.OfDisk P) :=
    ((keeps_directory? _).imp_error (by rintro _ ⟨rfl, -⟩; exact .system rfl)).bind
      fun _ _ => keeps_pure trivial
  unfold Host.makeLastDirectory
  split_ifs
  · exact keeps_throw h
  · refine hholds.bind fun there _ => ?_
    split_ifs
    · exact keeps_pure trivial
    · exact keeps_throw h

lemma failsWith_makeDirectory {f : Except Fault Unit → Action (StateM Machine) Unit}
    (hok : f (.ok ()) = pure ())
    (h : ∀ fault, Problem.OfDisk p.HasNull (.disk fault) → FailsWith equipment (f (.error fault)) E) :
    FailsWith equipment (Host.run (host.makeDirectory p.text) >>= f) E := by
  change FailsWith equipment (Host.run (change fun t cwd => t.makeDirectory cwd p.text) >>= f) E
  refine failsWith_change_bind (hok ▸ keeps_pure trivial) fun t cwd fault hfault => h fault ?_
  exact (Problem.OfDisk.of_refuses (FileTree.refuses_of_makeDirectory hfault)).imp Path.hasNull_of_text

/-- Making directories fails because the system refuses it, or there is a null character in the path. -/
theorem failsWith_makeDirectories (anchor : Anchor) (segments : List Text) :
    FailsWith equipment (host.makeDirectories anchor segments)
      (Problem.OfDisk (Path.mk anchor segments.reverse).HasNull) := by
  induction segments with
  | nil => exact failsWith_makeDirectory rfl fun fault h => failsWith_makeLastDirectory h
  | cons s above ih =>
    have habove : (Path.mk anchor above.reverse).HasNull →
        (Path.mk anchor (s :: above).reverse).HasNull := by
      rintro ⟨s', hs', hnull⟩
      exact ⟨s', by simpa using .inl (List.mem_reverse.mp hs'), hnull⟩
    unfold Host.makeDirectories
    refine failsWith_makeDirectory rfl fun fault h => ?_
    dsimp only
    split_ifs
    · exact (ih.imp_error fun _ h => h.imp habove).bind fun _ _ =>
        failsWith_makeDirectory rfl fun fault h => failsWith_makeLastDirectory h
    · exact failsWith_makeLastDirectory h

lemma failsWith_ensureParent (p : Path) :
    FailsWith equipment (host.ensureParent p) (Problem.OfDisk p.HasNull) := by
  refine (failsWith_makeDirectories p.anchor p.parent.segments.reverse).imp_error fun e h => h.imp ?_
  rw [List.reverse_reverse]
  exact Path.HasNull.of_parent

/-- The path of a working directory. -/
def workingPath (machine : Machine) : Path := .ofText (locationText machine.cwd)

lemma ensures_absolute (p : Path) :
    Ensures journal machine (host.absolute p) fun r j u =>
      r = .ok (machine.workingPath.join p).normalize ∧ j = journal ∧ u = machine := ⟨rfl, rfl, rfl⟩

lemma hasNull_of_absolute (h : (machine.workingPath.join p).normalize.HasNull) :
    p.HasNull ∨ machine.workingPath.HasNull := h.of_normalize.of_join.symm

lemma null_of_nameIn {directory : Path} (h : '\x00' ∈ Host.nameIn directory name) :
    directory.HasNull ∨ '\x00' ∈ name := by
  unfold Host.nameIn at h
  split at h
  · exact .inr h
  · split_ifs at h
    · exact (List.mem_append.mp h).imp_left Path.hasNull_of_text
    · refine (List.mem_append.mp h).imp Path.hasNull_of_text fun h => ?_
      exact (List.mem_cons.mp h).resolve_left (by decide)

lemma null_notMem_freshName (n : Nat) : '\x00' ∉ freshName n := by
  unfold freshName paddedDigits decimalDigits
  intro h
  rcases List.mem_append.mp h with h | h
  · exact absurd h (by decide)
  · rcases List.mem_append.mp h with h | h
    · exact absurd (List.mem_replicate.mp h).2 (by decide)
    · have hdigit : '\x00'.isDigit = true := Nat.isDigit_of_mem_toDigits (by decide) (by decide) h
      exact absurd hdigit (by decide)

/-- Making a new file fails because the system refuses it, or there is a null character in its name. -/
theorem failsWith_createFresh {directory : Path} (nameOf : Text → Text)
    (hdirectory : directory.HasNull → P) (hname : ∀ n, '\x00' ∈ nameOf (freshName n) → P)
    (tries : Nat) :
    FailsWith equipment (host.createFresh directory nameOf tries) (Problem.OfDisk P) := by
  induction tries with
  | zero => exact keeps_throw (.system rfl)
  | succ tries ih =>
    have hfresh : Keeps (Equipped equipment) (Host.run host.freshName)
        (fun fresh => ∃ n, fresh = freshName n) (Problem.OfDisk P) :=
      keeps_run fun journal machine hs => ⟨hs, machine.freshNames, rfl⟩
    unfold Host.createFresh
    refine hfresh.bind fun fresh hn => ?_
    obtain ⟨n, rfl⟩ := hn
    change FailsWith equipment (Host.run (change fun t cwd => t.createFile cwd
      (Host.nameIn directory (nameOf (freshName n)))) >>= _) _
    refine failsWith_change_bind (keeps_pure trivial) fun t cwd fault hfault => ?_
    dsimp only
    split_ifs
    · exact ih
    · have hrefuses := Problem.OfDisk.of_refuses (FileTree.refuses_of_createFile hfault)
      exact keeps_throw (hrefuses.imp fun h => (null_of_nameIn h).elim hdirectory (hname _))

lemma ensures_createBeside_error (p : Path) :
    Ensures journal machine (host.createBeside p) fun r _ _ => ∀ e, r = .error e →
      Problem.OfDisk (p.HasNull ∨ machine.workingPath.HasNull) e := by
  unfold Host.createBeside
  refine (ensures_absolute p.parent).bind (fun directory j u h => ?_) fun e j u h => by cases h.1
  obtain rfl := Except.ok.inj h.1
  refine (failsWith_createFresh _ (fun h => (hasNull_of_absolute h).imp_left Path.HasNull.of_parent)
    (fun n h => .inl ?_) _).ensures_error
  rcases List.mem_append.mp h with h | h
  · exact .of_name ((List.mem_cons.mp h).resolve_left (by decide))
  · exact absurd ((List.mem_cons.mp h).resolve_left (by decide)) (null_notMem_freshName n)

end Disk

section Log

variable {p : Path}

/-- Opening a log file fails because the system refuses it, or there is a null character in its path. -/
lemma ensures_openLog_error (p : Path) :
    Ensures journal machine (host.openLog p) fun r _ _ => ∀ e, r = .error e →
      Problem.OfDisk (p.HasNull ∨ machine.workingPath.HasNull) e := by
  have hpath : Ensures journal machine (host.logPath p) fun r _ _ =>
      (∀ q, r = .ok q → q.HasNull → p.HasNull ∨ machine.workingPath.HasNull) ∧
        ∀ e, r = .error e → Problem.OfDisk p.HasNull e := by
    unfold Host.logPath
    split_ifs with hnull
    · refine ensures_throw ⟨nofun, ?_⟩
      rintro _ ⟨⟩
      exact .nullInName (Path.hasNull_of_text hnull)
    · refine (ensures_absolute p).bind (fun q j u h => ensures_pure ⟨?_, nofun⟩)
        fun e j u h => by cases h.1
      obtain rfl := Except.ok.inj h.1
      rintro _ ⟨⟩
      exact hasNull_of_absolute
  unfold Host.openLog
  refine hpath.bind (fun q j u h => ?_) fun e j u h e' he => ?_
  · have hq := h.1 q rfl
    refine Keeps.ensures_error (((failsWith_ensureParent q).imp_error fun e he => he.imp hq).bind fun _ _ => ?_)
    refine Keeps.bind (failsWith_attempt_change (fun t cwd => t.appendFile cwd q.text [])
      fun t cwd fault hfault => ?_) fun _ _ => keeps_pure trivial
    exact (Problem.OfDisk.of_refuses (FileTree.refuses_of_appendFile hfault)).imp
      fun h => hq (Path.hasNull_of_text h)
  · cases he
    exact (h.2 e rfl).imp .inl

lemma ensures_configureJournal_error (level : Text) (path : Option Path) :
    Ensures journal machine (host.configureJournal level path) fun r _ _ => ∀ e, r = .error e →
      Problem.OfDisk (∃ p, path = some p ∧ (p.HasNull ∨ machine.workingPath.HasNull)) e := by
  unfold Host.configureJournal
  refine (ensures_modify _).bind (fun _ j u h => ?_) fun e j u h => by cases h.1
  obtain rfl := h.2.2
  cases path with
  | none => exact nofun
  | some p =>
    refine (ensures_openLog_error p).bind (fun sink j' u' _ => ?_) fun e j' u' h e' he => ?_
    · exact (ensures_modify _).imp fun r _ _ hr e he => by cases hr.1.symm.trans he
    cases he
    exact (h e rfl).imp fun h => ⟨p, rfl, h⟩

end Log

section Writing

variable {encoding content : Text} {parts : List Text} {name : Text} {p : Path} {P : Prop}

lemma keeps_checkEncodingName {S : States} (encoding : Text) :
    Keeps S (Host.checkEncodingName encoding) (fun _ => '\x00' ∉ encoding) fun e =>
      '\x00' ∈ encoding ∧ e = .nullInEncoding := by
  unfold Host.checkEncodingName
  split_ifs with hnull
  · exact keeps_throw ⟨hnull, rfl⟩
  · exact keeps_pure hnull

/-- The codec of a name is found where states have some equipment. -/
lemma keeps_codecOf {S : States} (hequipped : ∀ {journal machine}, S journal machine →
    machine.equipment = equipment) (name : Text) :
    Keeps S (host.codecOf name) (fun codec => equipment.codecOf? name = some codec)
      fun e => equipment.codecOf? name = none ∧ e = .unknownEncoding name := by
  intro journal machine hs
  have hfound := ending_codecOf name journal machine
  rw [hequipped hs] at hfound
  unfold Ensures
  rw [hfound]
  refine ⟨hs, ?_⟩
  cases equipment.codecOf? name with
  | none => exact ⟨nofun, fun _ he => ⟨rfl, (Except.error.inj he).symm⟩⟩
  | some codec => exact ⟨fun _ hc => congrArg some (Except.ok.inj hc), nofun⟩

/-- Texts are encoded unless their encoding is none, or it has no bytes for them. -/
lemma failsWith_encoded (encoding : Text) (parts : List Text) :
    FailsWith equipment (host.encoded encoding parts) (Problem.OfWriting equipment encoding parts P) := by
  unfold Host.encoded
  refine ((keeps_codecOf id encoding).imp_error ?_).bind fun codec hcodec => ?_
  · rintro _ ⟨hunknown, rfl⟩
    exact .unknownEncoding hunknown
  · cases hb : codec.stream parts with
    | ok bytes => exact keeps_pure trivial
    | error fault => exact keeps_throw (.codec hcodec hb)

lemma Created.clean {l : Location} {j : Journal} {u : Machine}
    (h : Created journal machine name l j u) : '\x00' ∉ name :=
  FileTree.clean_of_lookup (FileTree.lookup_of_readFile h.hasFile.readFile)

lemma failsWith_write (hclean : '\x00' ∉ name) (bytes : Bytes) :
    FailsWith equipment (Host.attempt (host.write name bytes)) (Problem.OfDisk P) := by
  intro journal machine hs
  refine ensures_attempt_write (fun t _ _ => ⟨hs, fun _ _ => trivial, nofun⟩)
    (fun _ kind t _ _ => ⟨hs, nofun, ?_⟩) fun _ fault hfault => ⟨hs, nofun, ?_⟩
  · rintro _ ⟨⟩
    exact .system rfl
  · rintro _ ⟨⟩
    exact (Problem.OfDisk.of_refuses (FileTree.refuses_of_writeFile hfault)).imp fun h => absurd h hclean

lemma failsWith_remove (name : Text) : FailsWith equipment (Host.run (host.remove name)) E := by
  refine keeps_run fun journal machine hs => ⟨?_, trivial⟩
  change Equipped equipment journal ((change fun t cwd => t.removeFile cwd name).run machine).2
  rw [run_change]
  cases machine.tree.removeFile machine.cwd name <;> exact hs

lemma failsWith_move (hclean : '\x00' ∉ name) (p : Path) :
    FailsWith equipment (Host.attempt (host.move name p.text)) (Problem.OfDisk p.HasNull) := by
  refine failsWith_attempt_change (fun t cwd => t.moveFile cwd name p.text)
    fun t cwd fault hfault => ?_
  by_cases hnull : '\x00' ∈ p.text
  · cases fault with
    | nullInName => exact .nullInName (Path.hasNull_of_text hnull)
    | _ => exact .system rfl
  · obtain ⟨kind, rfl⟩ := FileTree.refused_of_moveFile hfault hclean hnull
    exact .system rfl

/-- Replacing a file by a text fails because the system refuses it, or there is a null character in its
path, or the text has no bytes. -/
theorem ensures_writeText_error (p : Path) (content encoding : Text) :
    Ensures journal machine (host.writeText p content encoding) fun r _ _ => ∀ e, r = .error e →
      Problem.OfWriting machine.equipment encoding [content]
        (p.HasNull ∨ machine.workingPath.HasNull) e := by
  unfold Host.writeText Host.replaceFile
  refine ((builds_ensureParent p).and (failsWith_ensureParent p).ensures_error).bind
    (fun _ j u h => ?_) fun e j u h e' he =>
      Except.error.inj he ▸ .disk ((h.2 e rfl).imp .inl)
  obtain ⟨h, -⟩ := h
  have hencoding : FailsWith u.equipment (Host.checkEncodingName encoding) fun e =>
      '\x00' ∈ encoding ∧ e = .nullInEncoding :=
    (keeps_checkEncodingName encoding).imp (fun _ _ => trivial) fun _ => id
  refine ((builds_checkEncodingName encoding).and hencoding.ensures_error).bind
    (fun _ j u h' => ?_) fun e j u h' e' he => ?_
  · replace h := h.trans h'.1
    have hplace : u.workingPath = machine.workingPath := by
      unfold workingPath
      rw [h.still.cwd]
    refine ((ensures_createBeside p).and (ensures_createBeside_error p)).bind
      (fun name j' u' h' => ?_) fun e j' u' h' e' he =>
        Except.error.inj he ▸ hplace ▸ .disk (h'.2 e rfl)
    obtain ⟨⟨l, hcreated⟩, -⟩ := h'
    have hequipment : u'.equipment = machine.equipment :=
      hcreated.still.equipment.trans h.still.equipment
    have hfill : FailsWith u'.equipment (host.fillAndMove name p (.ofText content) encoding)
        (Problem.OfWriting machine.equipment encoding [content]
          (p.HasNull ∨ machine.workingPath.HasNull)) := by
      rw [hequipment]
      refine (failsWith_encoded encoding [content]).bind fun bytes _ =>
        ((failsWith_write hcreated.clean bytes).imp_error fun _ => .disk).bind fun _ _ => ?_
      exact (failsWith_move hcreated.clean p).imp_error fun _ he => .disk (he.imp .inl)
    refine Keeps.ensures_error
      (hfill.observe_bind (fun _ _ => keeps_pure trivial) fun e he => ?_)
    exact (failsWith_remove name).bind fun _ _ => keeps_throw he
  · obtain ⟨hnull, rfl⟩ := h'.2 e rfl
    exact Except.error.inj he ▸ .nullInEncoding hnull

/-- The path of the directory for temporary files, which may itself be seen from a working directory. -/
def temporaryPath (machine : Machine) : Path := .ofText (locationText machine.temporary)

/-- Writing a text to a temporary file fails because the system refuses it, or there is a null character in
its name, or the text has no bytes. -/
theorem ensures_writeTemporary_error (content start stop encoding : Text) :
    Ensures journal machine (host.writeTemporary content start stop encoding) fun r _ _ =>
      ∀ e, r = .error e → Problem.OfWriting machine.equipment encoding [content]
        (('\x00' ∈ start ∨ '\x00' ∈ stop) ∨
          machine.temporaryPath.HasNull ∨ machine.workingPath.HasNull) e := by
  have hplace : Ensures journal machine (Host.run host.temporaryDirectory) fun r j u =>
      r = .ok (locationText machine.temporary) ∧ j = journal ∧ u = machine := ⟨rfl, rfl, rfl⟩
  unfold Host.writeTemporary
  refine hplace.bind (fun place j u h => ?_) fun e j u h => by cases h.1
  obtain ⟨hr, rfl, rfl⟩ := h
  obtain rfl := Except.ok.inj hr
  refine (ensures_absolute _).bind (fun directory j u h => ?_) fun e j u h => by cases h.1
  obtain ⟨hr, rfl, rfl⟩ := h
  obtain rfl := Except.ok.inj hr
  have hfresh : FailsWith u.equipment
      (host.createFresh (u.workingPath.join u.temporaryPath).normalize
        (fun fresh => start ++ fresh ++ stop) Host.nameLimit)
      (Problem.OfDisk (('\x00' ∈ start ∨ '\x00' ∈ stop) ∨
        u.temporaryPath.HasNull ∨ u.workingPath.HasNull)) := by
    refine failsWith_createFresh _ (fun h => .inr (hasNull_of_absolute h)) (fun n h => .inl ?_) _
    rcases List.mem_append.mp h with h | h
    · exact (List.mem_append.mp h).imp_right fun h => absurd h (null_notMem_freshName n)
    · exact .inr h
  refine ((ensures_createFresh _ _ _).and hfresh.ensures_error).bind (fun name j' u' h' => ?_)
    fun e j' u' h' e' he => Except.error.inj he ▸ .disk (h'.2 e rfl)
  obtain ⟨⟨l, hcreated⟩, -⟩ := h'
  rw [← hcreated.still.equipment]
  refine Keeps.ensures_error (((keeps_checkEncodingName encoding).imp_error ?_).bind fun _ _ =>
    (failsWith_encoded encoding [content]).bind fun bytes _ =>
      ((failsWith_write hcreated.clean bytes).imp_error fun _ => .disk).bind fun _ _ =>
        keeps_pure trivial)
  rintro _ ⟨hnull, rfl⟩
  exact .nullInEncoding hnull

end Writing

end Machine
end TemplateSplice
