import TemplateSplice.Command.Merge
import TemplateSplice.Proofs.Host.Log

/-! Where the result of a merge is put: in the file that is asked for, in a new temporary file, or nowhere
but on the output. What comes of that on the disk, and how it fails. -/
namespace TemplateSplice

namespace Command

/-- What is printed of a result: where it is, or the result itself. -/
def notice (request : Request) (output : Output) (result : Merged) : Option Path → Text
  | some path =>
    let data := Members.insert "output" (.str path.render) (mergedMembers result)
    let start := if (givenPath request.output).isSome then "Wrote merged template to ".toList else []
    output.success data (start ++ path.text) "success"
  | none =>
    let data := Members.insert "content" (.str (String.ofList result.content)) (mergedMembers result)
    if output.asJson then output.success data [] "success" else output.text result.content []

/-- Puts a result where a request asks for it, and gives its path if it is in a file. -/
def storeMerged {m : Type → Type} [Monad m] (host : Host m) (request : Request) (settings : Value)
    (encoding : Text) (result : Merged) : Action m (Option Path) :=
  match givenPath request.output with
  | some path => do
    host.writeText path result.content encoding
    pure (some path)
  | none =>
    if request.toTemporary then do
      let (start, stop) ← temporaryParts settings
      let path ← host.writeTemporary result.content start stop encoding
      pure (some path)
    else pure none

/-- Writing a result is to put it where it was asked for, and then to tell of it. -/
lemma writeMerged_eq (request : Request) (output : Output) (settings : Value) (encoding : Text)
    (result : Merged) :
    writeMerged Machine.host request output settings encoding result =
      storeMerged Machine.host request settings encoding result >>= fun place =>
        print Machine.host (notice request output result place) := by
  unfold writeMerged storeMerged
  dsimp only
  cases hp : givenPath request.output with
  | some path =>
    simp only [bind_assoc, pure_bind]
    unfold notice
    rw [hp]
    rfl
  | none =>
    dsimp only
    split_ifs with htemporary hjson
    · simp only [bind_assoc, pure_bind]
      unfold notice
      rw [hp]
      rfl
    · simp only [pure_bind, notice, if_pos hjson]
    · simp only [pure_bind, notice, if_neg hjson]

end Command

namespace Machine

open Command

variable {machine u : Machine} {journal j : Journal} {request : Request} {encoding : Text}
  {settings : Value} {result : Merged} {place : Option Path} {free : Location → Prop}

section Places

/-- The file at a path holds a text in the encoding of a name, and no other file has changed but some. -/
structure Placed (free : Location → Prop) (machine : Machine) (encoding content : Text) (path : Path)
    (l : Location) (bytes : Bytes) (after : FileTree) : Prop where
  streamed : Streamed machine.equipment encoding [content] bytes
  /-- The program's own encodings write what the text is in them. -/
  encoded : ∀ e, Encoding.ofName? encoding = some e → e.encode content = .ok bytes
  hasFile : after.HasFile machine.cwd path.text l bytes
  kept : machine.tree.Kept (fun k => k = l ∨ free k) after

/-- A result is where a request asks for it, and no other file has changed but some. -/
structure Stored (free : Location → Prop) (machine : Machine) (request : Request) (encoding : Text)
    (result : Merged) (place : Option Path) (after : FileTree) : Prop where
  /-- A file that is asked for holds it. -/
  file : ∀ path, givenPath request.output = some path → place = some path ∧
    ∃ l bytes, Placed free machine encoding result.content path l bytes after
  /-- A new temporary file holds it. -/
  temporary : givenPath request.output = none → request.toTemporary = true → ∃ path l bytes,
    place = some path ∧ (¬ free l → machine.tree.file? l = none) ∧
    Placed free machine encoding result.content path l bytes after
  /-- Otherwise no file is written. -/
  nothing : givenPath request.output = none → request.toTemporary = false →
    place = none ∧ machine.tree.Kept free after

variable {before : Machine} {content : Text} {path : Path} {l : Location} {bytes : Bytes}
  {after : FileTree}

lemma Placed.since (h : Placed (fun _ => False) machine encoding content path l bytes after)
    (hs : Since free before journal machine) : Placed free before encoding content path l bytes after where
  streamed := hs.still.equipment ▸ h.streamed
  encoded := h.encoded
  hasFile := hs.still.cwd ▸ h.hasFile
  kept := (hs.kept.imp fun _ => .inr).trans (h.kept.imp fun _ => .imp_right False.elim)

lemma Stored.since (h : Stored (fun _ => False) machine request encoding result place after)
    (hs : Since free before journal machine) :
    Stored free before request encoding result place after where
  file path hp := by
    obtain ⟨hplace, l, bytes, hplaced⟩ := h.file path hp
    exact ⟨hplace, l, bytes, hplaced.since hs⟩
  temporary hp ht := by
    obtain ⟨path, l, bytes, hplace, hnew, hplaced⟩ := h.temporary hp ht
    refine ⟨path, l, bytes, hplace, fun hl => ?_, hplaced.since hs⟩
    rw [← hs.kept.files l hl, hnew id]
  nothing hp ht := by
    obtain ⟨hplace, hkept⟩ := h.nothing hp ht
    exact ⟨hplace, hs.kept.trans (hkept.imp fun _ => False.elim)⟩

lemma Begun.since (h : Begun (fun _ => False) machine encoding content after)
    (hs : Since free before journal machine) : Begun free before encoding content after where
  cause := hs.still.equipment ▸ h.cause
  kept := by
    obtain ⟨l, hnew, hkept⟩ := h.kept
    refine ⟨l, fun hl => ?_, (hs.kept.imp fun _ => .inr).trans (hkept.imp fun _ => .imp_right False.elim)⟩
    rw [← hs.kept.files l hl, hnew id]

end Places

section Storing

lemma ensures_temporaryParts (settings : Value) :
    Ensures journal machine (temporaryParts settings) fun _ j u => j = journal ∧ u = machine := by
  unfold temporaryParts
  split
  · exact ensures_pure ⟨rfl, rfl⟩
  · exact ensures_throw ⟨rfl, rfl⟩

lemma placed_of_written {content : Text} {path : Path} {l : Location} {bytes : Bytes}
    (hb : Streamed machine.equipment encoding [content] bytes)
    (h : Written journal machine path.text l bytes j u) :
    Placed (fun _ => False) machine encoding content path l bytes u.tree where
  streamed := hb
  encoded e he := by
    have hwhole := (streamed_iff he machine.equipment (List.cons_ne_nil content [])).mp hb
    rwa [List.flatten_singleton] at hwhole
  hasFile := h.still.cwd ▸ h.hasFile
  kept := h.kept.imp fun _ => .inl

/-- A result is put where it was asked for, or no file changes, or a new temporary file was made in vain. -/
theorem ensures_storeMerged (journal : Journal) (machine : Machine) (request : Request)
    (settings : Value) (encoding : Text) (result : Merged) :
    Ensures journal machine (storeMerged host request settings encoding result) fun r _ u =>
      machine.Still u ∧
        match r with
        | .ok place => Stored (fun _ => False) machine request encoding result place u.tree
        | .error _ => machine.tree.Kept (fun _ => False) u.tree ∨
            givenPath request.output = none ∧ request.toTemporary = true ∧
              Begun (fun _ => False) machine encoding result.content u.tree := by
  unfold storeMerged
  cases hp : givenPath request.output with
  | some path =>
    refine (ensures_replaceFile path (.ofText result.content) encoding).bind (fun _ j u h => ?_)
      fun e j u h => ⟨h.still, .inl h.kept⟩
    obtain ⟨-, bytes, l, hbytes, hwritten⟩ := h
    refine ensures_pure ⟨hwritten.still, fun path' hp' => ?_, fun h => ?_, fun h => ?_⟩
    · obtain rfl := Option.some.inj (hp.symm.trans hp')
      exact ⟨rfl, l, bytes, placed_of_written hbytes hwritten⟩
    · simp [hp] at h
    · simp [hp] at h
  | none =>
    have hfile : ∀ path, givenPath request.output ≠ some path := by simp [hp]
    dsimp only
    split_ifs with htemporary
    · refine (ensures_temporaryParts settings).bind (fun parts j u h => ?_) fun e j u h => ?_
      · obtain ⟨rfl, rfl⟩ := h
        refine (ensures_writeTemporary result.content parts.1 parts.2 encoding).bind
          (fun path j' u' h => ?_) fun e j' u' h => ⟨h.2.1, h.2.2.imp_right fun h => ⟨rfl, htemporary, h⟩⟩
        obtain ⟨bytes, l, hbytes, hnew, hwritten⟩ := h
        exact ensures_pure ⟨hwritten.still, fun path' hp' => absurd hp' (hfile path'),
          fun _ _ => ⟨path, l, bytes, rfl, fun _ => hnew, placed_of_written hbytes hwritten⟩,
          fun _ ht => by simp [htemporary] at ht⟩
      · obtain ⟨rfl, rfl⟩ := h
        exact ⟨.refl _, .inl (.refl _ _)⟩
    · exact ensures_pure ⟨.refl _, fun path' hp' => absurd hp' (hfile path'),
        fun _ ht => absurd ht htemporary, fun _ _ => ⟨rfl, .refl _ _⟩⟩

lemma result_storeMerged (settings : Value) {path : Path} (hpath : givenPath request.output = some path)
    (h : (ending (host.writeText path result.content encoding) journal machine).1.1 = .ok ()) :
    (ending (storeMerged host request settings encoding result) journal machine).1.1 =
      .ok (some path) := by
  unfold storeMerged
  rw [hpath]
  dsimp only
  rw [ending_bind]
  cases hwritten : ending (host.writeText path result.content encoding) journal machine with
  | mk p u =>
    obtain ⟨r, j⟩ := p
    rw [hwritten] at h
    obtain rfl : r = .ok () := h
    rfl

end Storing

section Failing

variable {P : Prop}

/-- What may go wrong where a result is put. -/
inductive OfStoring (equipment : Equipment) (settings : Value) (encoding content : Text) (P : Prop) :
    Problem → Prop
  /-- The settings do not say what temporary files start and end with. -/
  | view {fault : Settings.ViewFault} (view : Settings.OutputFields.ofSettings settings = .error fault) :
      OfStoring equipment settings encoding content P (.view fault)
  | writing {e : Problem} (writing : Problem.OfWriting equipment encoding [content] P e) :
      OfStoring equipment settings encoding content P e

/-- Putting a result somewhere fails because the system refuses it, or there is a null character in a name,
or the result has no bytes. -/
theorem ensures_storeMerged_error (result : Merged)
    (houtput : ∀ p, givenPath request.output = some p → p.HasNull → P)
    (hworking : machine.workingPath.HasNull → P) (htemporary : machine.temporaryPath.HasNull → P)
    (hname : ∀ start stop,
      (temporaryParts settings : Action (StateM Machine) (Text × Text)) = pure (start, stop) →
        ('\x00' ∈ start ∨ '\x00' ∈ stop) → P) :
    Ensures journal machine (storeMerged host request settings encoding result) fun r _ _ =>
      ∀ e, r = .error e → OfStoring machine.equipment settings encoding result.content P e := by
  unfold storeMerged
  cases hp : givenPath request.output with
  | some path =>
    refine (ensures_writeText_error path result.content encoding).bind
      (fun _ j v _ => ensures_pure nofun) fun e j v h e' he' => Except.error.inj he' ▸ .writing ?_
    exact (h e rfl).imp fun hnull => hnull.elim (houtput path hp) hworking
  | none =>
    dsimp only
    split_ifs
    · cases hfields : Settings.OutputFields.ofSettings settings with
      | error fault =>
        have hparts : (temporaryParts settings : Action (StateM Machine) (Text × Text)) =
            throw (.view fault) := by
          unfold temporaryParts
          rw [hfields]
        rw [hparts]
        refine Ensures.bind (Q := fun r _ _ => r = .error (.view fault)) (ensures_throw rfl)
          (fun _ j v h => by cases h) fun e j v h e' he' => ?_
        cases h
        cases he'
        exact .view hfields
      | ok fields =>
        have hparts : (temporaryParts settings : Action (StateM Machine) (Text × Text)) =
            pure ((fields.tempStart.str?.getD "").toList, (fields.tempEnd.str?.getD "").toList) := by
          unfold temporaryParts
          rw [hfields]
        rw [hparts, pure_bind]
        refine (ensures_writeTemporary_error result.content _ _ encoding).bind
          (fun _ j v _ => ensures_pure nofun) fun e j v h e' he' => Except.error.inj he' ▸ .writing ?_
        exact (h e rfl).imp fun hnull => hnull.elim (hname _ _ hparts) (·.elim htemporary hworking)
    · exact ensures_pure nofun

/-- So does writing it, or the output does not take what is to be told of it. -/
theorem ensures_writeMerged_error (output : Output) (result : Merged)
    (houtput : ∀ p, givenPath request.output = some p → p.HasNull → P)
    (hworking : machine.workingPath.HasNull → P) (htemporary : machine.temporaryPath.HasNull → P)
    (hname : ∀ start stop,
      (temporaryParts settings : Action (StateM Machine) (Text × Text)) = pure (start, stop) →
        ('\x00' ∈ start ∨ '\x00' ∈ stop) → P) :
    Ensures journal machine (writeMerged host request output settings encoding result) fun r _ _ =>
      ∀ e, r = .error e → OfStoring machine.equipment settings encoding result.content P e ∨
        ∃ place count fault, machine.equipment.outputLimit machine.output
          (notice request output result place) = some (count, fault) ∧ e = .stream fault := by
  rw [writeMerged_eq]
  refine ((ensures_storeMerged journal machine request settings encoding result).and
    (ensures_storeMerged_error result houtput hworking htemporary hname)).bind
      (fun place j u h => ?_) fun e j u h e' he' => Except.error.inj he' ▸ .inl (h.2 e rfl)
  have hprint : Ensures j u (Command.print host (notice request output result place)) _ :=
    ensures_print_error (notice request output result place)
  rw [h.1.1.equipment, h.1.1.output] at hprint
  exact hprint.imp fun r _ _ h e he => .inr ⟨place, h e he⟩

end Failing

end Machine
end TemplateSplice
