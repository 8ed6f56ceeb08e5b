import TemplateSplice.Command.Run
import TemplateSplice.Proofs.Command.Inspect
import TemplateSplice.Proofs.Command.Requested
import TemplateSplice.Proofs.Command.Storing

/-! What merging leaves on the disk. Either the result is where it was asked for, whole and in its
encoding, or no file has changed; the log file is apart. There are two exceptions. A result may be there and
only not be told of, since the output takes no more; and a new temporary file that cannot be written may stay
behind. -/
namespace TemplateSplice

namespace Machine

open Command

variable {α : Type} {machine u : Machine} {journal j : Journal} {request : Request} {encoding : Text}
  {settings : Value} {result : Merged} {place : Option Path} {free : Location → Prop}

section Writing

variable {Q : Except Problem α → Journal → Machine → Prop} {R : Except Problem Nat → Journal → Machine → Prop}

/-- An action whose problem is reported has its answer from what follows it, or an answer other than
zero. -/
lemma Ensures.reporting {output : Output} {word? : ProblemKind → Option String}
    {x : Action (StateM Machine) α} {next : α → Action (StateM Machine) Nat}
    (h : Ensures journal machine x Q) (hok : ∀ a j u, Q (.ok a) j u → Ensures j u (next a) R)
    (herror : ∀ e j u, Q (.error e) j u → ∀ r errors, r ≠ .ok 0 → R r j { u with errors := errors }) :
    Ensures journal machine (reporting host output word? x next) R := by
  unfold Command.reporting
  refine h.observe_bind fun r j u h => ?_
  cases r with
  | ok a => exact hok a j u h
  | error e =>
    have hfail := herror e j u h
    dsimp only
    split
    · exact (ensures_printError _).bind
        (fun _ j' u' h => by obtain ⟨rfl, errors, rfl⟩ := h; exact hfail (.ok 1) errors (by simp))
        fun e' j' u' h => by obtain ⟨rfl, errors, rfl⟩ := h; exact hfail (.error e') errors (by simp)
    · exact hfail (.error e) u.errors (by simp)

/-- A result is where a request asks for it, and all that is to be told of it is printed. -/
def Delivered (free : Location → Prop) (machine : Machine) (request : Request) (encoding : Text)
    (result : Merged) (u : Machine) : Prop :=
  ∃ place, Stored free machine request encoding result place u.tree ∧
    u.output = machine.output ++ notice request (.ofMode request.asJson) result place

/-- A result is where a request asks for it, but the output takes no more than a part of what is to be told
of it. -/
def Untold (free : Location → Prop) (machine : Machine) (request : Request) (encoding : Text)
    (result : Merged) (u : Machine) : Prop :=
  ∃ place count fault, Stored free machine request encoding result place u.tree ∧
    machine.equipment.outputLimit machine.output
      (notice request (.ofMode request.asJson) result place) = some (count, fault) ∧
    u.output = machine.output ++ (notice request (.ofMode request.asJson) result place).take count

section Since

variable {before : Machine}

lemma Delivered.since (h : Delivered (fun _ => False) machine request encoding result u)
    (hs : Since free before journal machine) : Delivered free before request encoding result u := by
  obtain ⟨place, hstored, houtput⟩ := h
  exact ⟨place, hstored.since hs, by rw [houtput, hs.still.output]⟩

lemma Untold.since (h : Untold (fun _ => False) machine request encoding result u)
    (hs : Since free before journal machine) : Untold free before request encoding result u := by
  obtain ⟨place, count, fault, hstored, hlimit, houtput⟩ := h
  rw [hs.still.output, hs.still.equipment] at *
  exact ⟨place, count, fault, hstored.since hs, hlimit, houtput⟩

end Since

/-- A result is delivered, or it is not told of, or no file changes, or a new temporary file was made in
vain. -/
theorem ensures_writeMerged (journal : Journal) (machine : Machine) (request : Request)
    (settings : Value) (encoding : Text) (result : Merged) :
    Ensures journal machine
      (writeMerged host request (.ofMode request.asJson) settings encoding result) fun r _ u =>
        match r with
        | .ok () => Delivered (fun _ => False) machine request encoding result u
        | .error _ => Untold (fun _ => False) machine request encoding result u ∨
            machine.tree.Kept (fun _ => False) u.tree ∨
              givenPath request.output = none ∧ request.toTemporary = true ∧
                Begun (fun _ => False) machine encoding result.content u.tree := by
  rw [writeMerged_eq]
  refine (ensures_storeMerged journal machine request settings encoding result).bind
    (fun place j u h => ?_) fun e j u h => .inr h.2
  obtain ⟨hstill, hstored⟩ := h
  unfold Ensures Command.print
  rw [ending_print, hstill.output, hstill.equipment]
  cases hlimit : machine.equipment.outputLimit machine.output
      (notice request (.ofMode request.asJson) result place) with
  | none => exact ⟨place, hstored, rfl⟩
  | some limit => exact .inl ⟨place, limit.1, limit.2, hstored, hlimit, rfl⟩

end Writing

section Running

/-- How a merge may end that does not end with zero. -/
inductive Unfinished (machine : Machine) (request : Request) (after : Machine) : Prop
  /-- No file has changed but the log file. -/
  | untouched (kept : machine.tree.Kept (IsLog machine request) after.tree) :
      Unfinished machine request after
  /-- All has gone well, but the output does not take what is to be told of it. -/
  | untold {settings : Value} {template : Settings.Template} {result : Merged}
      (merged : (ending (mergeRequested host request) .fresh machine).1.1 =
        .ok (settings, template, result))
      (untold : Untold (IsLog machine request) machine request template.encoding result after) :
      Unfinished machine request after
  /-- The result cannot be written to a new temporary file. -/
  | begun {settings : Value} {template : Settings.Template} {result : Merged}
      (merged : (ending (mergeRequested host request) .fresh machine).1.1 =
        .ok (settings, template, result))
      (file : givenPath request.output = none) (temporary : request.toTemporary = true)
      (begun : Begun (IsLog machine request) machine template.encoding result.content after.tree) :
      Unfinished machine request after

/-- How the command that merges ends: with the result where it was asked for, or without that. -/
theorem ensures_runMerge (machine : Machine) (request : Request) :
    Ensures .fresh machine (runMerge host request) fun r _ u =>
      (r ≠ .ok 0 → Unfinished machine request u) ∧
        (r = .ok 0 → ∃ settings template result,
          (ending (mergeRequested host request) .fresh machine).1.1 = .ok (settings, template, result) ∧
          Delivered (IsLog machine request) machine request template.encoding result u) := by
  have hmerged : Ensures .fresh machine (mergeRequested host request) fun r j u =>
      r = (ending (mergeRequested host request) .fresh machine).1.1 ∧
        Since (IsLog machine request) machine j u := ⟨rfl, (ensures_mergeRequested machine request).1⟩
  unfold runMerge
  refine hmerged.reporting (fun parts j u h => ?_) fun e j u h r errors hr =>
    ⟨fun _ => .untouched h.2.kept, fun h0 => absurd h0 hr⟩
  obtain ⟨settings, template, result⟩ := parts
  obtain ⟨heq, hs⟩ := h
  refine (ensures_writeMerged j u request settings template.encoding result).reporting
    (fun _ j' u' h => ensures_pure ⟨fun h0 => absurd rfl h0, fun _ =>
      ⟨settings, template, result, heq.symm, h.since hs⟩⟩)
    fun e j' u' h r errors hr => ⟨fun _ => ?_, fun h0 => absurd h0 hr⟩
  rcases h with h | h | ⟨hfile, htemporary, h⟩
  · exact .untold heq.symm (h.since hs)
  · exact .untouched (hs.kept.trans (h.imp fun _ => False.elim))
  · exact .begun heq.symm hfile htemporary (h.since hs)

/-- A merge ends with zero where its file can be replaced and has room for the bytes of the result, and the
output takes what is told of it. -/
theorem answer_runMerge {template : Settings.Template} {path : Path} {bytes : Bytes}
    (hm : Answers machine (mergeRequested host request) (.ok (settings, template, result)))
    (hpath : givenPath request.output = some path) (hr : machine.Replaceable path)
    (hbytes : Streamed machine.equipment template.encoding [result.content] bytes)
    (hroom : machine.HasRoom path bytes)
    (htold : machine.equipment.outputLimit machine.output
      (notice request (.ofMode request.asJson) result (some path)) = none) :
    (ending (runMerge host request) .fresh machine).1.1 = .ok 0 := by
  obtain ⟨j, errors, hending⟩ := hm.exists_ending
  have hreads := (ensures_mergeRequested machine request).2
  rw [hending] at hreads
  have hreplaced : (ending (host.writeText path result.content template.encoding) j
      { machine with errors := errors }).1.1 = .ok () :=
    ending_replaceFile ⟨hr.parent, hr.target, hr.beside⟩ (hreads _ rfl).1.1 hbytes hroom
  have hplace := result_storeMerged settings hpath hreplaced
  have hstill := (ensures_storeMerged j { machine with errors := errors } request settings
    template.encoding result).1
  obtain ⟨⟨⟨r, j'⟩, u⟩, hstored⟩ : ∃ end_, ending (storeMerged host request settings template.encoding
      result) j { machine with errors := errors } = end_ := ⟨_, rfl⟩
  rw [hstored] at hplace hstill
  obtain rfl : r = .ok (some path) := hplace
  have htaken : u.equipment.outputLimit u.output
      (notice request (.ofMode request.asJson) result (some path)) = none := by
    rw [hstill.output, hstill.equipment]
    exact htold
  obtain ⟨v, hwritten⟩ : ∃ v, ending (writeMerged host request (.ofMode request.asJson) settings
      template.encoding result) j { machine with errors := errors } = ((.ok (), j'), v) := by
    rw [writeMerged_eq, ending_bind_of_ok hstored]
    exact ⟨_, ending_print_of_taken htaken⟩
  unfold runMerge Command.reporting
  rw [ending_bind_of_ok (ending_observe hending)]
  dsimp only
  rw [ending_bind_of_ok (ending_observe hwritten)]
  rfl

end Running

end Machine

open Machine Command

lemma run_of_verb_merge {dialect : Dialect} {line : List Text} {call : Call}
    (hline : Call.ofLine dialect line = .ok call) (hverb : call.verb = .merge) :
    run host dialect line = runMerge host call.request := by
  unfold run
  rw [hline]
  dsimp only
  rw [hverb]

/-- The request for the template that refers to another one, its result to be put beside it. -/
def Command.Request.pairedTo (out : Text) : Command.Request := { paired with output := some out }

lemma replaceable_paired : Machine.paired.Replaceable (.ofText "c".toList) where
  parent := by decide +kernel
  target := ⟨⟨[], some "c".toList, false⟩, ["c".toList], rfl, rfl, rfl, by decide +kernel⟩
  beside := ⟨_, rfl⟩

lemma answers_pairedTo : Answers .paired (mergeRequested host (.pairedTo "c".toList))
    (.ok (Settings.bundled, .default, .paired)) := answers_paired

/-- A machine with a template, to be read in the encoding of domain names. -/
def Machine.labelled : Machine :=
  { Machine.paired with
    tree := ⟨[(["a.yml".toList], .file (Utf8.encode "A: 1\n".toList))]⟩
    environment := [("CFNMERGE_TEMPLATE__ENCODING".toList, "idna".toList)] }

/-- The request for that template, its result to be put beside it. -/
def Command.Request.labelled : Command.Request :=
  { empty with file := some "a.yml".toList, output := some "out.yml".toList }

end TemplateSplice
