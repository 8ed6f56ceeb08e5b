import TemplateSplice.Proofs.Disk.Directories
import TemplateSplice.Proofs.Host.Replace

/-! Replacing files as a whole. A file holds all that its encoding made of its new text or nothing of it, and
nothing is left of the file that was written beside it; all else that may be new are directories on the way.
So it is in any sequence of replacements, whichever of them fail. -/
namespace TemplateSplice.Machine

variable {α β : Type} {journal j : Journal} {machine u v : Machine} {path : Path} {name : Text}

section Directories

/-- A machine has no new directories but on the way to a path. -/
structure Paved (path : Path) (machine u : Machine) : Prop where
  cwd : u.cwd = machine.cwd
  tree : FileTree.Paved machine.cwd path machine.tree u.tree

lemma Paved.refl (path : Path) (machine : Machine) : Paved path machine machine := ⟨rfl, .refl _ _ _⟩

lemma Paved.trans (h : Paved path machine u) (h' : Paved path u v) : Paved path machine v :=
  ⟨h'.cwd.trans h.cwd, h.tree.trans (h.cwd ▸ h'.tree)⟩

/-- However an action ends, it has made no directories but on the way to a path. -/
def Paves (path : Path) (x : Action (StateM Machine) α) : Prop :=
  ∀ journal machine, Ensures journal machine x fun _ _ u => Paved path machine u

lemma paves_pure (a : α) : Paves path (pure a) := fun _ _ => ensures_pure (.refl _ _)

lemma paves_throw (e : Problem) : Paves path (throw e : Action (StateM Machine) α) :=
  fun _ _ => ensures_throw (.refl _ _)

lemma Paves.bind {x : Action (StateM Machine) α} {f : α → Action (StateM Machine) β}
    (h : Paves path x) (hf : ∀ a, Paves path (f a)) : Paves path (x >>= f) := by
  intro journal machine
  refine (h journal machine).bind (fun a j u hu => ?_) fun _ _ _ hu => hu
  exact (hf a j u).imp fun _ _ _ hv => hu.trans hv

lemma Paves.observe {x : Action (StateM Machine) α} (h : Paves path x) : Paves path (Host.observe x) :=
  h

/-- An operation of the disk makes directories on the way only, if its changes of the tree do. -/
lemma paves_change {op : FileTree → Location → Except Fault FileTree}
    (h : ∀ t cwd u, op t cwd = .ok u → FileTree.Paved cwd path t u) :
    Paves path (Host.run (change op)) := by
  intro journal machine
  refine ensures_run ?_
  rw [run_change]
  cases hop : op machine.tree machine.cwd with
  | ok t => exact ⟨rfl, h _ _ _ hop⟩
  | error fault => exact .refl _ _

lemma paves_attempt {op : StateM Machine (Except Fault α)} (h : Paves path (Host.run op)) :
    Paves path (Host.attempt op) := by
  unfold Host.attempt
  refine h.bind fun r => ?_
  cases r with
  | ok a => exact paves_pure a
  | error fault => exact paves_throw _

lemma paves_makeLastDirectory (p : Path) (fault : Fault) :
    Paves path (host.makeLastDirectory p fault) := by
  have hdirectory : Paves path (host.directory? p.text) := by
    intro journal machine
    refine (ensures_directory? _).imp fun _ _ u h => ?_
    rw [h.2]
    exact .refl _ _
  have hholds : Paves path (host.holdsDirectory p) := by
    unfold Host.holdsDirectory
    exact hdirectory.bind fun _ => paves_pure _
  unfold Host.makeLastDirectory
  split_ifs
  · exact paves_throw _
  · refine hholds.bind fun there => ?_
    cases there with
    | true => exact paves_pure _
    | false => exact paves_throw _

lemma paves_makeDirectory {segments : List Text} (hsegments : segments <+: path.parent.segments) :
    Paves path (Host.run (host.makeDirectory (Path.mk path.anchor segments).text)) :=
  paves_change fun _ _ _ h => .of_makeDirectory hsegments h

lemma paves_makeDirectories {above : List Text} (h : above.reverse <+: path.parent.segments) :
    Paves path (host.makeDirectories path.anchor above) := by
  induction above with
  | nil =>
    unfold Host.makeDirectories
    refine (paves_makeDirectory h).bind fun r => ?_
    cases r with
    | ok _ => exact paves_pure _
    | error fault => exact paves_makeLastDirectory _ _
  | cons s above ih =>
    have hprefix : above.reverse <+: path.parent.segments := by
      rw [List.reverse_cons] at h
      exact (List.prefix_append _ _).trans h
    unfold Host.makeDirectories
    refine (paves_makeDirectory h).bind fun r => ?_
    cases r with
    | ok _ => exact paves_pure _
    | error fault =>
      dsimp only
      split_ifs
      · refine (ih hprefix).bind fun _ => (paves_makeDirectory h).bind fun r => ?_
        cases r with
        | ok _ => exact paves_pure _
        | error fault => exact paves_makeLastDirectory _ _
      · exact paves_makeLastDirectory _ _

lemma paves_createFresh (directory : Path) (nameOf : Text → Text) (tries : Nat) :
    Paves path (host.createFresh directory nameOf tries) := by
  induction tries with
  | zero => exact paves_throw _
  | succ tries ih =>
    unfold Host.createFresh
    have hfresh : Paves path (Host.run host.freshName) :=
      fun _ _ => ensures_run ⟨rfl, .refl _ _ _⟩
    refine hfresh.bind fun fresh => ?_
    refine Paves.bind (paves_change fun _ _ _ h => .of_createFile h) fun r => ?_
    cases r with
    | ok _ => exact paves_pure _
    | error fault =>
      dsimp only
      split_ifs
      · exact ih
      · exact paves_throw _

lemma paves_encoded (encoding : Text) (parts : List Text) :
    Paves path (host.encoded encoding parts) := by
  intro journal machine
  refine (ensures_encoded encoding parts).imp fun _ _ _ h => ?_
  obtain ⟨_, rfl, _⟩ := h
  exact .refl _ _

lemma paves_write (name : Text) (bytes : Bytes) :
    Paves path (Host.attempt (host.write name bytes)) := fun _ _ =>
  ensures_attempt_write (fun _ _ ht => ⟨rfl, .of_writeFile ht⟩)
    (fun _ _ _ _ ht => ⟨rfl, .of_writeFile ht⟩) fun _ _ _ => .refl _ _

lemma paves_fillAndMove (name : Text) (target : Path) (writing : Host.Writing) (encoding : Text) :
    Paves path (host.fillAndMove name target writing encoding) := by
  unfold Host.fillAndMove
  refine (paves_encoded _ _).bind fun bytes => (paves_write _ _).bind fun _ => ?_
  cases writing.problem with
  | some problem => exact paves_throw problem
  | none => exact paves_attempt (paves_change fun _ _ _ h => .of_moveFile h)

/-- Replacing a file makes directories on the way to it only. -/
theorem paves_replaceFile (path : Path) (writing : Host.Writing) (encoding : Text) :
    Paves path (host.replaceFile path writing encoding) := by
  have hparent : path.parent.segments.reverse.reverse <+: path.parent.segments := by simp
  have hencoding : Paves path (Host.checkEncodingName encoding) := by
    unfold Host.checkEncodingName
    split_ifs
    · exact paves_throw _
    · exact paves_pure _
  have hbeside : Paves path (host.createBeside path) := by
    unfold Host.createBeside
    exact Paves.bind (fun _ _ => Paved.refl _ _) fun directory => paves_createFresh _ _ _
  unfold Host.replaceFile
  refine (paves_makeDirectories hparent).bind fun _ => hencoding.bind fun _ => hbeside.bind fun name => ?_
  refine (paves_fillAndMove name path writing encoding).observe.bind fun r => ?_
  cases r with
  | ok _ => exact paves_pure _
  | error problem =>
    exact Paves.bind (paves_change fun _ _ _ h => .of_removeFile h) fun _ => paves_throw _

end Directories

section Replacing

/-- Nothing is other than it was at a location, but that a directory on the way to a path may be new. -/
def Spares (path : Path) (machine u : Machine) (l : Location) : Prop :=
  u.tree.get? l = machine.tree.get? l ∨
    machine.tree.get? l = none ∧ u.tree.get? l = some .directory ∧
      u.tree.OnTheWay machine.cwd path l

/-- A replacement that succeeds spares all but the file that it replaces, and one that fails spares
everything. -/
lemma spares_of_replaceFile (path : Path) (writing : Host.Writing) (encoding : Text) :
    Ensures journal machine (host.replaceFile path writing encoding) fun r _ u =>
      match r with
      | .ok _ => writing.problem = none ∧ ∃ bytes k,
          Streamed machine.equipment encoding writing.parts bytes ∧
            u.tree.HasFile u.cwd path.text k bytes ∧ ∀ l, l ≠ k → Spares path machine u l
      | .error _ => ∀ l, Spares path machine u l := by
  refine ((ensures_replaceFile path writing encoding).and
    (paves_replaceFile path writing encoding journal machine)).imp fun r j u h => ?_
  obtain ⟨hfiles, hpaved⟩ := h
  cases r with
  | ok _ =>
    obtain ⟨hproblem, bytes, k, hbytes, hwritten⟩ := hfiles
    exact ⟨hproblem, bytes, k, hbytes, hwritten.hasFile,
      fun l hl => hpaved.tree.get?_eq (hwritten.kept.files l hl)⟩
  | error e => exact fun l => hpaved.tree.get?_eq (hfiles.kept.file?_eq l)

end Replacing

section Sequences

/-- A file to be replaced. -/
structure Replacement where
  path : Path
  writing : Host.Writing
  encoding : Text

/-- Replaces files one after the other, and goes on when one cannot be replaced. -/
def replaceEach (replacements : List Replacement) :
    Action (StateM Machine) (List (Except Problem Unit)) :=
  replacements.mapM fun r => Host.observe (host.replaceFile r.path r.writing r.encoding)

/-- A replacement that succeeded has left its text at a location. -/
def Replacement.Holds (r : Replacement) (u : Machine) (l : Location) : Prop :=
  ∃ bytes, Streamed u.equipment r.encoding r.writing.parts bytes ∧
    u.tree.HasFile u.cwd r.path.text l bytes

/-- Files are as they were, or they are those that replacements which succeeded have left. -/
structure Replaced (replacements : List Replacement) (results : List (Except Problem Unit))
    (machine u : Machine) : Prop where
  cwd : u.cwd = machine.cwd
  equipment : u.equipment = machine.equipment
  directories : machine.tree.KeepsDirectories u.tree
  files : ∀ l, u.tree.file? l = machine.tree.file? l ∨
    ∃ r, (r, .ok ()) ∈ replacements.zip results ∧ r.Holds u l

variable {r : Replacement} {rs : List Replacement} {results : List (Except Problem Unit)}

lemma Replaced.refl (machine : Machine) : Replaced [] [] machine machine :=
  ⟨rfl, rfl, fun _ => id, fun _ => .inl rfl⟩

/-- What one replacement leaves stays, unless later ones replace it. -/
lemma Replaced.cons {result : Except Problem Unit} (h : Replaced [r] [result] machine u)
    (h' : Replaced rs results u v) : Replaced (r :: rs) (result :: results) machine v where
  cwd := h'.cwd.trans h.cwd
  equipment := h'.equipment.trans h.equipment
  directories l hl := h'.directories l (h.directories l hl)
  files l := by
    rcases h'.files l with heq | ⟨r', hr', hholds⟩
    · rcases h.files l with heq' | ⟨r', hr', bytes, hbytes, hfile⟩
      · exact .inl (heq.trans heq')
      · obtain ⟨lead, hlead, hl⟩ := hfile.leads
        refine .inr ⟨r', ?_, bytes, h'.equipment.symm ▸ hbytes, ⟨lead, ?_, hl⟩, heq.trans hfile.file⟩
        · have hr : (r', Except.ok ()) = (r, result) := by simpa using hr'
          rw [hr]
          exact List.mem_cons_self
        · rw [h'.cwd]
          exact hlead.mono h'.directories
    · exact .inr ⟨r', List.mem_cons_of_mem _ hr', hholds⟩

lemma replaced_of_replaceFile (r : Replacement) :
    Ensures journal machine (host.replaceFile r.path r.writing r.encoding) fun result _ u =>
      Replaced [r] [result] machine u := by
  refine (ensures_replaceFile r.path r.writing r.encoding).imp fun result j u h => ?_
  cases result with
  | ok _ =>
    obtain ⟨_, bytes, k, hbytes, hwritten⟩ := h
    refine ⟨hwritten.still.cwd, hwritten.still.equipment, hwritten.kept.directories, fun l => ?_⟩
    by_cases hl : l = k
    · subst hl
      rw [← hwritten.still.equipment] at hbytes
      exact .inr ⟨r, List.mem_singleton_self _, bytes, hbytes, hwritten.hasFile⟩
    · exact .inl (hwritten.kept.files l hl)
  | error e =>
    exact ⟨h.still.cwd, h.still.equipment, h.kept.directories, fun l => .inl (h.kept.file?_eq l)⟩

/-- After any sequence of replacements every file is as it was, or it holds the text of a replacement
that succeeded and stands where that replacement put it. -/
lemma replaced_of_replaceEach (replacements : List Replacement) :
    Ensures journal machine (replaceEach replacements) fun results _ u =>
      ∃ rs, results = .ok rs ∧ rs.length = replacements.length ∧ Replaced replacements rs machine u := by
  unfold replaceEach
  induction replacements generalizing journal machine with
  | nil => exact ensures_pure ⟨[], rfl, rfl, .refl machine⟩
  | cons r replacements ih =>
    rw [List.mapM_cons]
    refine (replaced_of_replaceFile r).observe_bind fun result j u hfirst => ?_
    refine ih.bind (fun rs j v h => ?_) fun e j v h => ?_
    · obtain ⟨rs', hrs, hlength, hrest⟩ := h
      obtain rfl := Except.ok.inj hrs
      exact ensures_pure ⟨result :: rs, rfl, by simp [hlength], hfirst.cons hrest⟩
    · obtain ⟨rs', hrs, _⟩ := h
      cases hrs

/-- A replacement is all or nothing. If it succeeds, the file holds what its encoding made of the text that
was written, which are the bytes of the text in an encoding of the program's own; and if it fails, everything
is as it was; nothing else is new but directories on the way. It does succeed where the file can be replaced
and there is room. So in any sequence of replacements nothing is left of those that failed. -/
theorem replacements_all_or_nothing (journal : Journal) (machine : Machine) :
    (∀ (path : Path) (writing : Host.Writing) (encoding : Text),
      Ensures journal machine (host.replaceFile path writing encoding) fun r _ u =>
        match r with
        | .ok _ => writing.problem = none ∧ ∃ bytes k,
            Streamed machine.equipment encoding writing.parts bytes ∧
            (∀ e, Encoding.ofName? encoding = some e → writing.parts ≠ [] →
              e.encode writing.parts.flatten = .ok bytes) ∧
            u.tree.HasFile u.cwd path.text k bytes ∧ ∀ l, l ≠ k → Spares path machine u l
        | .error _ => ∀ l, Spares path machine u l) ∧
      (∀ (path : Path) (parts : List Text) (encoding : Text) (bytes : Bytes),
        machine.Replaceable path → '\x00' ∉ encoding →
          Streamed machine.equipment encoding parts bytes → machine.HasRoom path bytes →
            (ending (host.replaceFile path ⟨parts, none⟩ encoding) journal machine).1.1 = .ok ()) ∧
      ∀ replacements, Ensures journal machine (replaceEach replacements) fun results _ u =>
        ∃ rs, results = .ok rs ∧ rs.length = replacements.length ∧
          ∀ l, u.tree.file? l = machine.tree.file? l ∨
            ∃ r, (r, .ok ()) ∈ replacements.zip rs ∧ r.Holds u l := by
  refine ⟨fun path writing encoding => ?_, fun _ _ _ _ => ending_replaceFile, fun replacements => ?_⟩
  · refine (spares_of_replaceFile path writing encoding).imp fun r j u h => ?_
    cases r with
    | error e => exact h
    | ok _ =>
      obtain ⟨hproblem, bytes, k, hbytes, hfile⟩ := h
      exact ⟨hproblem, bytes, k, hbytes, fun e he hparts => (streamed_iff he _ hparts).mp hbytes, hfile⟩
  · refine (replaced_of_replaceEach replacements).imp fun results j u h => ?_
    obtain ⟨rs, hrs, hlength, hreplaced⟩ := h
    exact ⟨rs, hrs, hlength, hreplaced.files⟩

/-- In the encoding of domain names what follows the last point is held back. So a text without a point is
written without fault, and its file is empty. -/
theorem replaceFile_unfinished_label :
    let ended := ending (host.replaceFile (.ofText "a".toList) (.ofText "abc".toList) "idna".toList)
      .fresh bare
    ended.1.1.toOption = some () ∧
      (bare.equipment.codecOf? "idna".toList).map (·.encode "abc".toList) =
        some (.ok (Utf8.encode "abc".toList)) ∧
      ended.2.tree.entries = [(["a".toList], .file [])] :=
  ⟨by decide +kernel, by rfl, by decide +kernel⟩

/-- A file in a new directory, then a writer that meets a problem, and then a file in the place of that
directory. -/
example :
    let ended := ending (replaceEach
      [⟨.ofText "new/a".toList, .ofText "é".toList, "utf-8".toList⟩,
        ⟨.ofText "new/a".toList, ⟨["b".toList], some .nullInEncoding⟩, "utf-8".toList⟩,
        ⟨.ofText "new".toList, .ofText "c".toList, "utf-8".toList⟩]) .fresh bare
    ended.1.1.toOption.map (·.map Except.toBool) = some [true, false, false] ∧
      ended.2.tree.entries = [(["new".toList], .directory),
        (["new".toList, "a".toList], .file [0xC3, 0xA9])] := by
  decide +kernel

end Sequences

end TemplateSplice.Machine
