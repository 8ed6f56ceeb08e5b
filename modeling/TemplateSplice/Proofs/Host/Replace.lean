import Mathlib.Tactic.SplitIfs
import TemplateSplice.Host.Files
import TemplateSplice.Proofs.Disk.Effect
import TemplateSplice.Proofs.Encoding.Codec
import TemplateSplice.Proofs.Host.Ensures
import TemplateSplice.Proofs.Host.Look

/-! Writing of files. A file is replaced by one that was written beside it, and one that cannot be
replaced stays as it was: what was written beside it is removed, even if a disk took only a part of it. -/
namespace TemplateSplice.Machine

variable {journal j j' : Journal} {machine u v : Machine} {name : Text} {l : Location}

/-- Nothing of a machine has changed but the tree, the number of fresh names and the text of the
errors. -/
structure Still (machine u : Machine) : Prop where
  cwd : u.cwd = machine.cwd
  temporary : u.temporary = machine.temporary
  environment : u.environment = machine.environment
  output : u.output = machine.output
  equipment : u.equipment = machine.equipment

namespace Still

lemma refl (machine : Machine) : Still machine machine := ⟨rfl, rfl, rfl, rfl, rfl⟩

lemma trans (h : Still machine u) (h' : Still u v) : Still machine v where
  cwd := h'.cwd.trans h.cwd
  temporary := h'.temporary.trans h.temporary
  environment := h'.environment.trans h.environment
  output := h'.output.trans h.output
  equipment := h'.equipment.trans h.equipment

lemma withTree (machine : Machine) (t : FileTree) : Still machine { machine with tree := t } :=
  ⟨rfl, rfl, rfl, rfl, rfl⟩

end Still

/-- No file has changed, nor the journal; at most there are new directories. -/
structure Builds (journal : Journal) (machine : Machine) (j : Journal) (u : Machine) : Prop where
  journal : j = journal
  still : machine.Still u
  kept : machine.tree.Kept (fun _ => False) u.tree

lemma Builds.refl (journal : Journal) (machine : Machine) : Builds journal machine journal machine :=
  ⟨rfl, .refl _, .refl _ _⟩

lemma Builds.trans (h : Builds journal machine j u) (h' : Builds j u j' v) :
    Builds journal machine j' v :=
  ⟨h'.journal.trans h.journal, h.still.trans h'.still, h.kept.trans h'.kept⟩

section Directories

lemma ensures_directory? (name : Text) :
    Ensures journal machine (host.directory? name) fun _ j u => j = journal ∧ u = machine := by
  unfold Host.directory?
  have hrun : Ensures journal machine (Host.run (host.isDirectory name)) fun _ j u =>
      j = journal ∧ u = machine := ensures_run ⟨rfl, rfl⟩
  refine hrun.bind (fun r j u h => ?_) fun e j u h => h
  cases r with
  | ok a => exact ensures_pure h
  | error fault =>
    dsimp only
    split_ifs
    · exact ensures_pure h
    · exact ensures_throw h

lemma builds_makeLastDirectory (path : Path) (fault : Fault) :
    Ensures journal machine (host.makeLastDirectory path fault) fun _ => Builds journal machine := by
  unfold Host.makeLastDirectory
  split_ifs
  · exact ensures_throw (Builds.refl _ _)
  · unfold Host.holdsDirectory
    have hholds : Ensures journal machine
        (host.directory? path.text >>= fun answer => pure (answer == some true))
        fun _ j u => j = journal ∧ u = machine :=
      (ensures_directory? _).bind (fun _ _ _ h => ensures_pure h) fun _ _ _ h => h
    refine hholds.bind (fun there j u h => ?_) fun e j u h => ?_
    · obtain ⟨rfl, rfl⟩ := h
      cases there with
      | true => exact ensures_pure (Builds.refl _ _)
      | false => exact ensures_throw (Builds.refl _ _)
    · obtain ⟨rfl, rfl⟩ := h
      exact Builds.refl _ _

lemma builds_makeDirectory {path : Path} {f : Except Fault Unit → Action (StateM Machine) Unit}
    (hok : f (.ok ()) = pure ())
    (h : ∀ fault, Ensures journal machine (f (.error fault)) fun _ => Builds journal machine) :
    Ensures journal machine (Host.run (host.makeDirectory path.text) >>= f)
      fun _ => Builds journal machine := by
  change Ensures journal machine
    (Host.run (change fun t cwd => t.makeDirectory cwd path.text) >>= f) _
  refine ensures_change_bind (fun t ht => ?_) fun fault _ => h fault
  rw [hok]
  exact ensures_pure ⟨rfl, .withTree _ _, FileTree.kept_of_makeDirectory ht⟩

/-- Making directories changes no file, even where it fails half-way. -/
theorem builds_makeDirectories (anchor : Anchor) (segments : List Text) :
    Ensures journal machine (host.makeDirectories anchor segments) fun _ => Builds journal machine := by
  induction segments generalizing journal machine with
  | nil => exact builds_makeDirectory rfl fun fault => builds_makeLastDirectory _ fault
  | cons s above ih =>
    unfold Host.makeDirectories
    refine builds_makeDirectory rfl fun fault => ?_
    dsimp only
    split_ifs
    · refine ih.bind (fun _ j u h => ?_) fun e j u h => h
      refine Ensures.imp (Q := fun _ => Builds j u) ?_ fun _ _ _ h' => h.trans h'
      exact builds_makeDirectory rfl fun fault => builds_makeLastDirectory _ fault
    · exact builds_makeLastDirectory _ fault

lemma builds_ensureParent (path : Path) :
    Ensures journal machine (host.ensureParent path) fun _ => Builds journal machine :=
  builds_makeDirectories _ _

lemma builds_absolute (path : Path) :
    Ensures journal machine (host.absolute path) fun _ => Builds journal machine :=
  Builds.refl _ _

/-- Looking at the name of an encoding changes nothing. -/
lemma ensures_checkEncodingName (encoding : Text) :
    Ensures journal machine (Host.checkEncodingName encoding) fun r j u =>
      j = journal ∧ u = machine ∧ ∀ e, r = .error e → '\x00' ∈ encoding := by
  unfold Host.checkEncodingName
  split_ifs with hnull
  · exact ensures_throw ⟨rfl, rfl, fun _ _ => hnull⟩
  · exact ensures_pure ⟨rfl, rfl, nofun⟩

lemma builds_checkEncodingName (encoding : Text) :
    Ensures journal machine (Host.checkEncodingName encoding) fun _ => Builds journal machine := by
  refine (ensures_checkEncodingName encoding).imp fun _ j u h => ?_
  obtain ⟨rfl, rfl, -⟩ := h
  exact .refl _ _

lemma ending_checkEncodingName {encoding : Text} (h : '\x00' ∉ encoding) :
    ending (Host.checkEncodingName encoding) journal machine = ((.ok (), journal), machine) := by
  unfold Host.checkEncodingName
  rw [if_neg h]
  rfl

end Directories

section NewFiles

/-- A new empty file was made under a name, at a location where no file was. -/
structure Created (journal : Journal) (machine : Machine) (name : Text) (l : Location) (j : Journal)
    (u : Machine) : Prop where
  journal : j = journal
  still : machine.Still u
  new : machine.tree.file? l = none
  hasFile : u.tree.HasFile u.cwd name l []
  kept : machine.tree.Kept (· = l) u.tree

/-- What was built before may be left out of account. -/
lemma Builds.created (h : Builds journal machine j u) (h' : Created j u name l j' v) :
    Created journal machine name l j' v where
  journal := h'.journal.trans h.journal
  still := h.still.trans h'.still
  new := (h.kept.file?_eq l).symm.trans h'.new
  hasFile := h'.hasFile
  kept := (h.kept.imp fun _ => False.elim).trans h'.kept

lemma created_of_createFile {t : FileTree} (h : machine.tree.createFile machine.cwd name = .ok t) :
    ∃ l, Created journal machine name l journal { machine with tree := t } := by
  obtain ⟨lead, l, hlead, hl, hslash, hnew, rfl⟩ := FileTree.exists_of_createFile h
  have hkept : machine.tree.Kept (· = l) (machine.tree.set l (.file [])) :=
    FileTree.kept_set (by simp [hnew]) _
  have hset : (machine.tree.set l (.file [])).get? l = some (.file []) :=
    FileTree.get?_set_self _ (FileTree.Lead.ne_nil_of_proper? hl) _
  exact ⟨l, rfl, .withTree _ _, FileTree.file?_eq_none_of_get? hnew,
    ⟨⟨lead, hlead.mono hkept.directories, hl, hslash⟩, FileTree.file?_eq_some.mpr hset⟩, hkept⟩

/-- A file with a fresh name is made, or none is. -/
theorem ensures_createFresh (directory : Path) (nameOf : Text → Text) (tries : Nat) :
    Ensures journal machine (host.createFresh directory nameOf tries) fun r j u =>
      match r with
      | .ok name => ∃ l, Created journal machine name l j u
      | .error _ => Builds journal machine j u := by
  induction tries generalizing journal machine with
  | zero => exact ensures_throw (Builds.refl _ _)
  | succ tries ih =>
    unfold Host.createFresh
    have hfresh : Ensures journal machine (Host.run host.freshName)
        fun _ => Builds journal machine :=
      ensures_run ⟨rfl, ⟨rfl, rfl, rfl, rfl, rfl⟩, .refl _ _⟩
    refine hfresh.bind (fun fresh j u hbuilt => ?_) fun e j u hbuilt => hbuilt
    dsimp only
    generalize Host.nameIn directory (nameOf fresh) = name
    change Ensures j u (Host.run (change fun t cwd => t.createFile cwd name) >>= _) _
    refine ensures_change_bind (fun t ht => ?_) fun fault _ => ?_
    · obtain ⟨l, hcreated⟩ := created_of_createFile ht
      exact ensures_pure ⟨l, hbuilt.created hcreated⟩
    · dsimp only
      split_ifs
      · refine ih.imp fun r j' v h => ?_
        cases r with
        | error e => exact hbuilt.trans h
        | ok name =>
          obtain ⟨l, hcreated⟩ := h
          exact ⟨l, hbuilt.created hcreated⟩
      · exact ensures_throw hbuilt

lemma ensures_createBeside (path : Path) :
    Ensures journal machine (host.createBeside path) fun r j u =>
      match r with
      | .ok name => ∃ l, Created journal machine name l j u
      | .error _ => Builds journal machine j u := by
  unfold Host.createBeside
  refine (builds_absolute _).bind (fun directory j u hbuilt => ?_) fun e j u hbuilt => hbuilt
  refine (ensures_createFresh directory _ _).imp fun r j' v h => ?_
  cases r with
  | error e => exact hbuilt.trans h
  | ok name =>
    obtain ⟨l, hcreated⟩ := h
    exact ⟨l, hbuilt.created hcreated⟩

end NewFiles

section Bytes

variable {encoding : Text} {parts : List Text} {bytes : Bytes}

/-- The bytes of a text in the encoding of a name, if that is one of the program's own encodings. -/
def Encoded (encoding content : Text) (bytes : Bytes) : Prop :=
  ∃ e, Encoding.ofName? encoding = some e ∧ e.encode content = .ok bytes

/-- What a file holds after texts were written to it one after another, in the encoding of a name. -/
def Streamed (equipment : Equipment) (encoding : Text) (parts : List Text) (bytes : Bytes) : Prop :=
  ∃ codec, equipment.codecOf? encoding = some codec ∧ codec.stream parts = .ok bytes

lemma Streamed.unique {equipment : Equipment} {bytes' : Bytes}
    (h : Streamed equipment encoding parts bytes) (h' : Streamed equipment encoding parts bytes') :
    bytes = bytes' := by
  obtain ⟨codec, hcodec, hb⟩ := h
  obtain ⟨codec', hcodec', hb'⟩ := h'
  obtain rfl := Option.some.inj (hcodec.symm.trans hcodec')
  exact Except.ok.inj (hb.symm.trans hb')

/-- In the program's own encodings a file holds the bytes of the whole text. -/
lemma streamed_iff {e : Encoding} (he : Encoding.ofName? encoding = some e) (equipment : Equipment)
    (hparts : parts ≠ []) :
    Streamed equipment encoding parts bytes ↔ e.encode parts.flatten = .ok bytes := by
  rw [← Encoding.stream_eq_ok hparts, ← Encoding.stream_codec]
  have hcodec := equipment.codecOf?_of_ofName? he
  constructor
  · rintro ⟨codec, hcodec', hb⟩
    obtain rfl := Option.some.inj (hcodec.symm.trans hcodec')
    exact hb
  · exact fun hb => ⟨_, hcodec, hb⟩

lemma Encoded.streamed {content : Text} (h : Encoded encoding content bytes) (equipment : Equipment) :
    Streamed equipment encoding [content] bytes := by
  obtain ⟨e, he, hb⟩ := h
  refine (streamed_iff he equipment (List.cons_ne_nil _ _)).mpr ?_
  rwa [List.flatten_singleton]

/-- Whether texts have bytes is found out without changing anything. -/
lemma ending_encoded (encoding : Text) (parts : List Text) (journal : Journal) (machine : Machine) :
    ∃ r, ending (host.encoded encoding parts) journal machine = ((r, journal), machine) ∧
      ∀ bytes, r = .ok bytes ↔ Streamed machine.equipment encoding parts bytes := by
  have hfound := ending_codecOf encoding journal machine
  unfold Host.encoded
  rw [ending_bind, hfound]
  unfold Streamed
  cases machine.equipment.codecOf? encoding with
  | none => exact ⟨_, rfl, fun _ => ⟨nofun, nofun⟩⟩
  | some codec =>
    dsimp only
    cases hb : codec.stream parts with
    | error fault =>
      refine ⟨_, rfl, fun bytes => ⟨nofun, ?_⟩⟩
      rintro ⟨_, ⟨⟩, hb'⟩
      cases hb.symm.trans hb'
    | ok bytes =>
      refine ⟨_, rfl, fun bytes' => ⟨?_, ?_⟩⟩
      · rintro ⟨⟩
        exact ⟨codec, rfl, hb⟩
      · rintro ⟨_, ⟨⟩, hb'⟩
        rw [Except.ok.inj (hb.symm.trans hb')]

lemma ensures_encoded (encoding : Text) (parts : List Text) :
    Ensures journal machine (host.encoded encoding parts) fun r j u =>
      j = journal ∧ u = machine ∧
        ∀ bytes, r = .ok bytes ↔ Streamed machine.equipment encoding parts bytes := by
  obtain ⟨r, hending, hr⟩ := ending_encoded encoding parts journal machine
  unfold Ensures
  rw [hending]
  exact ⟨rfl, rfl, hr⟩

/-- Texts that have bytes in their encoding are encoded. -/
lemma Streamed.ending_encoded (h : Streamed machine.equipment encoding parts bytes)
    (journal : Journal) :
    ending (host.encoded encoding parts) journal machine = ((.ok bytes, journal), machine) := by
  obtain ⟨r, hending, hr⟩ := Machine.ending_encoded encoding parts journal machine
  rw [hending, (hr bytes).mpr h]

end Bytes

section Replacing

variable {before : Bytes}

/-- A file was written to, and nothing else changed. -/
structure Written (journal : Journal) (machine : Machine) (name : Text) (l : Location) (bytes : Bytes)
    (j : Journal) (u : Machine) : Prop where
  journal : j = journal
  still : machine.Still u
  hasFile : u.tree.HasFile u.cwd name l bytes
  kept : machine.tree.Kept (· = l) u.tree

/-- A file that is there takes bytes, all of them or as many as its disk takes. -/
lemma ensures_write (hf : machine.tree.HasFile machine.cwd name l before) (bytes : Bytes) :
    Ensures journal machine (Host.attempt (host.write name bytes)) fun r j u =>
      match r with
      | .ok () => Written journal machine name l bytes j u
      | .error _ => ∃ count kind, machine.equipment.fileLimit machine.tree name bytes = some (count, kind) ∧
          Written journal machine name l (bytes.take count) j u := by
  have hwritten : ∀ {bytes' t}, machine.tree.writeFile machine.cwd name bytes' = .ok t →
      Written journal machine name l bytes' journal { machine with tree := t } := by
    intro bytes' t ht
    obtain rfl := Except.ok.inj ((hf.writeFile bytes').symm.trans ht)
    exact ⟨rfl, .withTree _ _, hf.set bytes', hf.kept_set bytes'⟩
  refine ensures_attempt_write (fun t _ ht => hwritten ht)
    (fun count kind t hlimit ht => ⟨count, kind, hlimit, hwritten ht⟩) fun bytes' fault hfault => ?_
  rw [hf.writeFile] at hfault
  cases hfault

/-- A file that is there can be removed. -/
lemma ensures_remove (hf : machine.tree.HasFile machine.cwd name l before) :
    Ensures journal machine (Host.run (host.remove name)) fun _ j u =>
      j = journal ∧ machine.Still u ∧ u.tree.file? l = none ∧ machine.tree.Kept (· = l) u.tree := by
  have hending : ending (Host.run (change fun t cwd => t.removeFile cwd name)) journal machine =
      ((.ok (.ok ()), journal), { machine with tree := machine.tree.erase l }) :=
    ending_change _ hf.removeFile
  change Ensures journal machine (Host.run (change fun t cwd => t.removeFile cwd name)) _
  unfold Ensures
  rw [hending]
  exact ⟨rfl, .withTree _ _, hf.file?_erase, hf.kept_erase⟩

/-- A file took the place of another one, whatever was there. -/
structure Moved (journal : Journal) (machine : Machine) (l : Location) (target : Text) (k : Location)
    (bytes : Bytes) (j : Journal) (u : Machine) : Prop where
  journal : j = journal
  still : machine.Still u
  hasFile : u.tree.HasFile u.cwd target k bytes
  gone : k ≠ l → u.tree.file? l = none
  kept : machine.tree.Kept (fun i => i = l ∨ i = k) u.tree

lemma ensures_move {bytes : Bytes} (hf : machine.tree.HasFile machine.cwd name l bytes)
    (target : Text) :
    Ensures journal machine (Host.attempt (host.move name target)) fun r j u =>
      match r with
      | .ok () => ∃ k, Moved journal machine l target k bytes j u
      | .error _ => j = journal ∧ u = machine := by
  change Ensures journal machine (Host.attempt (change fun t cwd => t.moveFile cwd name target)) _
  refine ensures_attempt_change (fun t ht => ?_) fun fault _ => ⟨rfl, rfl⟩
  obtain ⟨k, hhas, hgone, hkept⟩ := hf.exists_of_moveFile ht
  exact ⟨k, rfl, .withTree _ _, hhas, hgone, hkept⟩

/-- A file that was written is moved to its target, or it stays where it is. -/
lemma ensures_fillAndMove (path : Path) (writing : Host.Writing) (encoding : Text)
    (hf : machine.tree.HasFile machine.cwd name l before) :
    Ensures journal machine (host.fillAndMove name path writing encoding) fun r j u =>
      match r with
      | .ok () => writing.problem = none ∧ ∃ bytes k,
          Streamed machine.equipment encoding writing.parts bytes ∧
            Moved journal machine l path.text k bytes j u
      | .error _ => ∃ bytes, Written journal machine name l bytes j u := by
  unfold Host.fillAndMove
  refine (ensures_encoded _ _).bind (fun bytes j u h => ?_) fun e j u h => ?_
  · obtain ⟨rfl, rfl, hbytes⟩ := h
    refine (ensures_write hf bytes).bind (fun _ j' v hwritten => ?_) fun e j' v h => ?_
    · cases hproblem : writing.problem with
      | some problem => exact ensures_throw ⟨bytes, hwritten⟩
      | none =>
        refine (ensures_move hwritten.hasFile path.text).imp fun r j'' w h => ?_
        cases r with
        | error e =>
          obtain ⟨rfl, rfl⟩ := h
          exact ⟨bytes, hwritten⟩
        | ok _ =>
          obtain ⟨k, hmoved⟩ := h
          exact ⟨rfl, bytes, k, (hbytes bytes).mp rfl, hmoved.journal.trans hwritten.journal,
            hwritten.still.trans hmoved.still, hmoved.hasFile, hmoved.gone,
            (hwritten.kept.imp fun _ => .inl).trans hmoved.kept⟩
    · obtain ⟨count, _, _, hwritten⟩ := h
      exact ⟨bytes.take count, hwritten⟩
  · obtain ⟨rfl, rfl, _⟩ := h
    exact ⟨before, rfl, .refl _, hf, .refl _ _⟩

/-- A new file that was moved has changed its target only. -/
lemma Created.kept_moved {target : Text} {k : Location} {bytes : Bytes}
    (h : Created journal machine name l j u) (h' : Moved j u l target k bytes j' v) :
    machine.tree.Kept (· = k) v.tree where
  directories i hi := h'.kept.directories i (h.kept.directories i hi)
  files i hi := by
    by_cases hl : i = l
    · subst hl
      rw [h'.gone fun hk => hi hk.symm, h.new]
    · rw [h'.kept.files i (not_or.mpr ⟨hl, hi⟩), h.kept.files i hl]

/-- A file is replaced by all that a writer without a problem wrote, or no file changes. -/
theorem ensures_replaceFile (path : Path) (writing : Host.Writing) (encoding : Text) :
    Ensures journal machine (host.replaceFile path writing encoding) fun r j u =>
      match r with
      | .ok () => writing.problem = none ∧ ∃ bytes k,
          Streamed machine.equipment encoding writing.parts bytes ∧
            Written journal machine path.text k bytes j u
      | .error _ => Builds journal machine j u := by
  unfold Host.replaceFile
  refine (builds_ensureParent path).bind (fun _ j₁ u₁ h₁ => ?_) fun e j u h => h
  refine (builds_checkEncodingName encoding).bind (fun _ j₂ u₂ h₂ => ?_) fun e j u h => h₁.trans h
  refine (ensures_createBeside path).bind (fun name j₃ u₃ h => ?_) fun e j u h =>
    (h₁.trans h₂).trans h
  obtain ⟨l, hcreated⟩ := h
  replace hcreated := (h₁.trans h₂).created hcreated
  refine (ensures_fillAndMove path writing encoding hcreated.hasFile).observe_bind
    fun r j₄ u₄ h => ?_
  cases r with
  | ok _ =>
    obtain ⟨hproblem, bytes, k, hbytes, hmoved⟩ := h
    rw [hcreated.still.equipment] at hbytes
    exact ensures_pure ⟨hproblem, bytes, k, hbytes, hmoved.journal.trans hcreated.journal,
      hcreated.still.trans hmoved.still, hmoved.hasFile, hcreated.kept_moved hmoved⟩
  | error problem =>
    -- What was written beside the target is there still, so it can be removed.
    obtain ⟨bytes, hwritten⟩ := h
    have hremove : Ensures j₄ u₄ (Host.run (host.remove name)) fun _ => Builds journal machine := by
      refine (ensures_remove hwritten.hasFile).imp fun _ j u h => ?_
      obtain ⟨hj, hstill, hgone, hkept⟩ := h
      exact ⟨hj.trans (hwritten.journal.trans hcreated.journal),
        (hcreated.still.trans hwritten.still).trans hstill,
        ((hcreated.kept.trans hwritten.kept).trans hkept).of_no_file hcreated.new hgone⟩
    exact hremove.bind (fun _ j u h => ensures_throw h) fun e j u h => h

/-- A new file was made in vain: an encoding has no bytes for a text, or its disk took no more than some
of them. No other file has changed but some. -/
structure Begun (free : Location → Prop) (machine : Machine) (encoding content : Text)
    (after : FileTree) : Prop where
  cause : '\x00' ∈ encoding ∨ (∀ bytes, ¬ Streamed machine.equipment encoding [content] bytes) ∨
    ∃ t name bytes, Streamed machine.equipment encoding [content] bytes ∧
      (machine.equipment.fileLimit t name bytes).isSome = true
  kept : ∃ l, (¬ free l → machine.tree.file? l = none) ∧
    machine.tree.Kept (fun k => k = l ∨ free k) after

/-- A file that is there is filled with the bytes of a text, or with as many of them as there are and its
disk takes. -/
lemma ensures_fill (content encoding : Text)
    (hf : machine.tree.HasFile machine.cwd name l before) :
    Ensures journal machine (do
        Host.checkEncodingName encoding
        let bytes ← host.encoded encoding [content]
        Host.attempt (host.write name bytes)
        pure (Path.ofText name) : Action (StateM Machine) Path) fun r j u =>
      match r with
      | .ok path => path = Path.ofText name ∧ ∃ bytes,
          Streamed machine.equipment encoding [content] bytes ∧
            Written journal machine name l bytes j u
      | .error _ => ('\x00' ∈ encoding ∨
            (∀ bytes, ¬ Streamed machine.equipment encoding [content] bytes) ∨
            ∃ t name bytes, Streamed machine.equipment encoding [content] bytes ∧
              (machine.equipment.fileLimit t name bytes).isSome = true) ∧
          ∃ bytes, Written journal machine name l bytes j u := by
  have hsame : Written journal machine name l before journal machine :=
    ⟨rfl, .refl _, hf, .refl _ _⟩
  refine (ensures_checkEncodingName encoding).bind (fun _ j u h => ?_) fun e j u h => ?_
  · obtain ⟨rfl, rfl, -⟩ := h
    refine (ensures_encoded encoding [content]).bind (fun bytes j u h => ?_) fun e j u h => ?_
    · obtain ⟨rfl, rfl, hbytes⟩ := h
      have hstreamed := (hbytes bytes).mp rfl
      refine (ensures_write hf bytes).bind (fun _ j' v hwritten => ?_) fun e j' v h => ?_
      · exact ensures_pure ⟨rfl, bytes, hstreamed, hwritten⟩
      · obtain ⟨count, kind, hlimit, hwritten⟩ := h
        exact ⟨.inr (.inr ⟨_, _, bytes, hstreamed, by rw [hlimit]; rfl⟩), _, hwritten⟩
    · obtain ⟨rfl, rfl, hbytes⟩ := h
      exact ⟨.inr (.inl fun bytes hb => by cases (hbytes bytes).mpr hb), _, hsame⟩
  · obtain ⟨rfl, rfl, hnull⟩ := h
    exact ⟨.inl (hnull e rfl), _, hsame⟩

/-- A text is written to a new file, or no file changes, or the new file stays behind. -/
theorem ensures_writeTemporary (content start stop encoding : Text) :
    Ensures journal machine (host.writeTemporary content start stop encoding) fun r j u =>
      match r with
      | .ok path => ∃ bytes k, Streamed machine.equipment encoding [content] bytes ∧
          machine.tree.file? k = none ∧ Written journal machine path.text k bytes j u
      | .error _ => j = journal ∧ machine.Still u ∧
          (machine.tree.Kept (fun _ => False) u.tree ∨ Begun (fun _ => False) machine encoding content u.tree) := by
  have hbuilt : ∀ {j u}, Builds journal machine j u → j = journal ∧ machine.Still u ∧
      (machine.tree.Kept (fun _ => False) u.tree ∨ Begun (fun _ => False) machine encoding content u.tree) :=
    fun h => ⟨h.journal, h.still, .inl h.kept⟩
  unfold Host.writeTemporary
  have hplace : Ensures journal machine (Host.run host.temporaryDirectory)
      fun _ => Builds journal machine := ensures_run (Builds.refl _ _)
  refine hplace.bind (fun place j₁ u₁ h₁ => ?_) fun e j u h => hbuilt h
  refine (builds_absolute _).bind (fun directory j₂ u₂ h₂ => ?_) fun e j u h => hbuilt (h₁.trans h)
  refine (ensures_createFresh directory _ _).bind (fun name j₃ u₃ h => ?_) fun e j u h =>
    hbuilt ((h₁.trans h₂).trans h)
  obtain ⟨l, hcreated⟩ := h
  replace hcreated := (h₁.trans h₂).created hcreated
  refine (ensures_fill content encoding hcreated.hasFile).imp fun r j u h => ?_
  rw [hcreated.still.equipment] at h
  cases r with
  | ok path =>
    obtain ⟨rfl, bytes, hbytes, hwritten⟩ := h
    obtain ⟨lead, hlead, hl, _⟩ := hwritten.hasFile.leads
    exact ⟨bytes, l, hbytes, hcreated.new, hwritten.journal.trans hcreated.journal,
      hcreated.still.trans hwritten.still, ⟨hlead.ofText hl, hwritten.hasFile.file⟩,
      hcreated.kept.trans hwritten.kept⟩
  | error e =>
    obtain ⟨hcause, bytes, hwritten⟩ := h
    have hkept : machine.tree.Kept (fun k => k = l ∨ False) u.tree :=
      (hcreated.kept.trans hwritten.kept).imp fun _ => .inl
    exact ⟨hwritten.journal.trans hcreated.journal, hcreated.still.trans hwritten.still,
      .inr ⟨hcause, l, fun _ => hcreated.new, hkept⟩⟩

end Replacing

section Success

/-- The name of the file that is made beside a path. -/
def besideName (machine : Machine) (path : Path) : Text :=
  Host.nameIn ((Path.ofText (locationText machine.cwd)).join path.parent).normalize
    ('.' :: path.name ++ '.' :: freshName machine.freshNames)

/-- A file can be put at a path: its directory is there, nothing but a file is in its place, and a file
can be made beside it. -/
structure Replaceable (machine : Machine) (path : Path) : Prop where
  parent : machine.tree.lookup machine.cwd path.parent.text = .ok .directory
  target : ∃ lead l, machine.tree.Leads machine.cwd path.text lead ∧ lead.proper? = some l ∧
    lead.isSlashed = false ∧ machine.tree.get? l ≠ some .directory
  beside : ∃ t, machine.tree.createFile machine.cwd (besideName machine path) = .ok t

lemma ending_makeLastDirectory {path : Path} {fault : Fault} (hkind : fault.kind? ≠ some .missing)
    (h : machine.tree.lookup machine.cwd path.text = .ok .directory) :
    ending (host.makeLastDirectory path fault) journal machine = ((.ok (), journal), machine) := by
  have hrun : ending (Host.run (host.isDirectory path.text)) journal machine =
      ((.ok (.ok true), journal), machine) := by
    change ((Except.ok ((machine.tree.lookup machine.cwd path.text).map
      fun entry => decide (entry = Entry.directory)), journal), machine) = _
    rw [h]
    rfl
  have hholds : ending (host.holdsDirectory path) journal machine =
      ((.ok true, journal), machine) := by
    unfold Host.holdsDirectory Host.directory?
    rw [ending_bind, ending_bind_of_ok hrun]
    rfl
  unfold Host.makeLastDirectory
  rw [if_neg hkind, ending_bind_of_ok hholds]
  rfl

/-- Directories that are there need not be made. -/
lemma ending_makeDirectories {anchor : Anchor} {segments : List Text}
    (h : machine.tree.lookup machine.cwd (Path.mk anchor segments.reverse).text = .ok .directory) :
    ending (host.makeDirectories anchor segments) journal machine =
      ((.ok (), journal), machine) := by
  have hmake : ending (Host.run (host.makeDirectory (Path.mk anchor segments.reverse).text)) journal
      machine = ((.ok (.error (.refused .alreadyExists (Path.mk anchor segments.reverse).text none)),
        journal), machine) :=
    ending_change_error (fun t cwd => t.makeDirectory cwd (Path.mk anchor segments.reverse).text)
      (FileTree.makeDirectory_of_lookup h)
  have hlast : ∀ name, ending (host.makeLastDirectory ⟨anchor, segments.reverse⟩
      (.refused .alreadyExists name none)) journal machine = ((.ok (), journal), machine) :=
    fun name => ending_makeLastDirectory (by simp [Fault.kind?]) h
  cases segments with
  | nil =>
    unfold Host.makeDirectories
    exact (ending_bind_of_ok hmake _).trans (hlast _)
  | cons s above =>
    unfold Host.makeDirectories
    exact (ending_bind_of_ok hmake _).trans (hlast _)

lemma ending_ensureParent {path : Path}
    (h : machine.tree.lookup machine.cwd path.parent.text = .ok .directory) :
    ending (host.ensureParent path) journal machine = ((.ok (), journal), machine) := by
  refine ending_makeDirectories ?_
  rw [List.reverse_reverse]
  exact h

lemma ending_createBeside {path : Path} {t : FileTree}
    (h : machine.tree.createFile machine.cwd (besideName machine path) = .ok t) :
    ending (host.createBeside path) journal machine = ((.ok (besideName machine path), journal),
      { machine with tree := t, freshNames := machine.freshNames + 1 }) := by
  have hcreate : ending (Host.run (host.create (besideName machine path))) journal
      { machine with freshNames := machine.freshNames + 1 } = ((.ok (.ok ()), journal),
        { machine with tree := t, freshNames := machine.freshNames + 1 }) :=
    ending_change (fun t cwd => t.createFile cwd (besideName machine path)) h
  have habsolute : ending (host.absolute path.parent) journal machine =
      ((.ok ((Path.ofText (locationText machine.cwd)).join path.parent).normalize, journal),
        machine) := rfl
  have hfresh : ending (Host.run host.freshName) journal machine =
      ((.ok (freshName machine.freshNames), journal),
        { machine with freshNames := machine.freshNames + 1 }) := rfl
  unfold Host.createBeside
  refine (ending_bind_of_ok habsolute _).trans ?_
  change ending (host.createFresh _ _ (9999 + 1)) journal machine = _
  unfold Host.createFresh
  refine (ending_bind_of_ok hfresh _).trans ?_
  exact (ending_bind_of_ok hcreate _).trans rfl

/-- The file that is made beside a path takes some bytes, all of them. -/
def HasRoom (machine : Machine) (path : Path) (bytes : Bytes) : Prop :=
  ∀ t, machine.equipment.fileLimit t (besideName machine path) bytes = none

lemma ending_fillAndMove {path : Path} {parts : List Text} {encoding : Text} {bytes : Bytes}
    {t : FileTree} (hbytes : Streamed machine.equipment encoding parts bytes)
    (hf : machine.tree.HasFile machine.cwd name l before)
    (hroom : machine.equipment.fileLimit machine.tree name bytes = none)
    (ht : (machine.tree.set l (.file bytes)).moveFile machine.cwd name path.text = .ok t) :
    ending (host.fillAndMove name path ⟨parts, none⟩ encoding) journal machine =
      ((.ok (), journal), { machine with tree := t }) := by
  have hwrite : ending (Host.attempt (host.write name bytes)) journal machine =
      ((.ok (), journal), { machine with tree := machine.tree.set l (.file bytes) }) := by
    have hrun := run_write_of_taken hroom
    rw [run_change, hf.writeFile] at hrun
    have hending : ending (Host.run (host.write name bytes)) journal machine =
        ((.ok ((write name bytes).run machine).1, journal), ((write name bytes).run machine).2) := rfl
    rw [hrun] at hending
    exact (ending_bind_of_ok hending _).trans rfl
  have hmove : ending (Host.run (host.move name path.text)) journal
      { machine with tree := machine.tree.set l (.file bytes) } =
        ((.ok (.ok ()), journal), { machine with tree := t }) :=
    ending_change (fun t cwd => t.moveFile cwd name path.text) ht
  unfold Host.fillAndMove
  rw [ending_bind_of_ok (hbytes.ending_encoded journal), ending_bind_of_ok hwrite]
  exact (ending_bind_of_ok hmove _).trans rfl

/-- A file is replaced where it can be, by a writer that meets no problem. -/
theorem ending_replaceFile {path : Path} {parts : List Text} {encoding : Text} {bytes : Bytes}
    (h : machine.Replaceable path) (hname : '\x00' ∉ encoding)
    (hbytes : Streamed machine.equipment encoding parts bytes) (hroom : machine.HasRoom path bytes) :
    (ending (host.replaceFile path ⟨parts, none⟩ encoding) journal machine).1.1 = .ok () := by
  obtain ⟨t, ht⟩ := h.beside
  obtain ⟨target, k, htarget, hk, hslash, hdirectory⟩ := h.target
  obtain ⟨source, l, hsource, hl, hslash', hnew, rfl⟩ := FileTree.exists_of_createFile ht
  have hset : (machine.tree.set l (.file [])).get? l = some (.file []) :=
    FileTree.get?_set_self _ (FileTree.Lead.ne_nil_of_proper? hl) _
  have hkept : machine.tree.Kept (· = l) (machine.tree.set l (.file [])) :=
    FileTree.kept_set (by simp [hnew]) _
  have hhas : (machine.tree.set l (.file [])).HasFile machine.cwd (besideName machine path) l [] :=
    ⟨⟨source, hsource.mono hkept.directories, hl, hslash'⟩, FileTree.file?_eq_some.mpr hset⟩
  have hfree : ((machine.tree.set l (.file [])).set l (.file bytes)).get? k ≠ some .directory := by
    by_cases hkl : k = l
    · rw [hkl, FileTree.get?_set_self _ hhas.ne_nil]
      simp
    · rwa [FileTree.get?_set_of_ne _ hkl, FileTree.get?_set_of_ne _ hkl]
  obtain ⟨v, hmoved⟩ := (hhas.set bytes).moveFile
    ((htarget.mono hkept.directories).mono (hhas.kept_set bytes).directories) hk hslash hfree
  have hfill : ending (host.fillAndMove (besideName machine path) path ⟨parts, none⟩ encoding) journal
      { machine with
        tree := machine.tree.set l (.file [])
        freshNames := machine.freshNames + 1 } = _ := ending_fillAndMove hbytes hhas (hroom _) hmoved
  have hobserved : ending (Host.observe (host.fillAndMove (besideName machine path) path
      ⟨parts, none⟩ encoding)) journal
      { machine with
        tree := machine.tree.set l (.file [])
        freshNames := machine.freshNames + 1 } = _ := ending_observe hfill
  unfold Host.replaceFile
  rw [ending_bind_of_ok (ending_ensureParent h.parent),
    ending_bind_of_ok (ending_checkEncodingName hname), ending_bind_of_ok (ending_createBeside ht),
    ending_bind_of_ok hobserved]
  rfl

/-- A machine without files. -/
def bare : Machine := ⟨.empty, [], [], [], 0, [], [], .standard⟩

lemma replaceable_bare : bare.Replaceable (.ofText "a".toList) where
  parent := rfl
  target := ⟨⟨[], some "a".toList, false⟩, ["a".toList], rfl, rfl, rfl, nofun⟩
  beside := by
    have hname : besideName bare (.ofText "a".toList) = "/.a.rand0000".toList := by decide +kernel
    rw [hname]
    exact ⟨bare.tree.set [".a.rand0000".toList] (.file []), rfl⟩

end Success

end TemplateSplice.Machine
