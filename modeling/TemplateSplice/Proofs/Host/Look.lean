import Mathlib.Tactic.SplitIfs
import TemplateSplice.Command.Session
import TemplateSplice.Proofs.Host.Answer
import TemplateSplice.Proofs.Path.Text

/-! What only looks at a machine: reading of texts, of templates and of settings, and making entries in
a journal that takes them to no file. -/
namespace TemplateSplice

/-- The codec of a name: that of one of the program's own encodings, or else one of the libraries. -/
def Equipment.codecOf? (equipment : Equipment) (name : Text) : Option Codec :=
  match Encoding.ofName? name with
  | some encoding => some encoding.codec
  | none => equipment.codec? name

lemma Equipment.codecOf?_of_ofName? {name : Text} {e : Encoding} (h : Encoding.ofName? name = some e)
    (equipment : Equipment) : equipment.codecOf? name = some e.codec := by
  unfold codecOf?
  rw [h]

namespace Machine

variable {α : Type} {machine : Machine}

lemma looks_look (op : FileTree → Location → Except Fault α) : Looks machine (Host.run (look op)) :=
  ⟨.ok (op machine.tree machine.cwd), answers_of_ending_eq fun _ _ => rfl⟩

lemma looks_isDirectory (name : Text) : Looks machine (Host.run (host.isDirectory name)) :=
  looks_look fun t cwd => (t.lookup cwd name).map fun entry => decide (entry = Entry.directory)

/-- What is known of a machine whatever it has printed as errors. -/
lemma answers_know {f : Machine → α} (h : ∀ errors, f { machine with errors := errors } = f machine) :
    Answers machine (Host.run (know f)) (.ok (f machine)) := by
  refine answers_of_ending_eq fun journal errors => ?_
  rw [← h errors]
  rfl

lemma answers_workingDirectory :
    Answers machine (Host.run host.workingDirectory) (.ok (locationText machine.cwd)) :=
  answers_know fun _ => rfl

/-- Paths seen from a working directory are absolute. -/
lemma anchor_locationText (l : Location) : (Path.ofText (locationText l)).anchor ≠ .here := by
  rw [Path.anchor_ofText]
  rfl

lemma answers_environment :
    Answers machine (Host.run host.environment) (.ok machine.environment) := answers_know fun _ => rfl

lemma looks_read (name : Text) : Looks machine (Host.attempt (host.read name)) := by
  have hread : Looks machine (Host.run (host.read name)) :=
    looks_look fun t cwd => t.readFile cwd name
  unfold Host.attempt
  refine hread.bind fun r => ?_
  cases r with
  | ok bytes => exact (answers_pure _).looks
  | error fault => exact (answers_throw _).looks

lemma Looks.observe {x : Action (StateM Machine) α} (h : Looks machine x) :
    Looks machine (Host.observe x) := by
  obtain ⟨answer, h⟩ := h
  exact (answers_observe h).looks

lemma looks_liftExcept (r : Except Problem α) :
    Looks machine (Host.liftExcept r : Action (StateM Machine) α) := (answers_liftExcept r).looks

lemma looks_directory? (name : Text) : Looks machine (host.directory? name) := by
  unfold Host.directory?
  refine (looks_isDirectory name).bind fun r => ?_
  cases r with
  | ok a => exact (answers_pure _).looks
  | error fault =>
    dsimp only
    split_ifs
    · exact (answers_pure _).looks
    · exact (answers_throw _).looks

lemma looks_holds (p : Path) : Looks machine (host.holds p) := by
  unfold Host.holds
  exact (looks_directory? _).bind fun _ => (answers_pure _).looks

lemma looks_holdsFile (p : Path) : Looks machine (host.holdsFile p) := by
  unfold Host.holdsFile
  exact (looks_directory? _).bind fun _ => (answers_pure _).looks

/-- Asking for the codec of a name changes nothing. -/
lemma ending_codecOf (name : Text) (journal : Journal) (machine : Machine) :
    ending (host.codecOf name) journal machine =
      ((match machine.equipment.codecOf? name with
        | some codec => .ok codec
        | none => .error (.unknownEncoding name), journal), machine) := by
  unfold Host.codecOf Equipment.codecOf?
  cases Encoding.ofName? name with
  | some encoding => rfl
  | none =>
    have hknown : ending (Host.run (host.codec? name)) journal machine =
        ((.ok (machine.equipment.codec? name), journal), machine) := rfl
    rw [ending_bind_of_ok hknown]
    cases machine.equipment.codec? name <;> rfl

lemma looks_codecOf (name : Text) : Looks machine (host.codecOf name) := by
  unfold Host.codecOf
  split
  · exact (answers_pure _).looks
  · refine (answers_know fun _ => rfl).looks.bind fun codec => ?_
    split
    · exact (answers_pure _).looks
    · exact (answers_throw _).looks

lemma looks_checkEncodingName (name : Text) :
    Looks machine (Host.checkEncodingName name : Action (StateM Machine) Unit) := by
  unfold Host.checkEncodingName
  split_ifs
  · exact (answers_throw _).looks
  · exact (answers_pure _).looks

lemma looks_readText (p : Path) (encoding : Text) : Looks machine (host.readText p encoding) := by
  unfold Host.readText
  refine (looks_holds p).bind fun there => ?_
  split_ifs
  · exact (answers_throw _).looks
  · refine (looks_checkEncodingName _).bind fun _ => (looks_read _).bind fun bytes =>
      (looks_codecOf _).bind fun codec => ?_
    split
    · exact (answers_pure _).looks
    · exact (answers_throw _).looks

lemma looks_readTemplate (encoding : Text) (p : Path) :
    Looks machine (host.readTemplate encoding p) := by
  unfold Host.readTemplate
  refine (looks_readText p encoding).observe.bind fun r => ?_
  cases r with
  | ok t => exact (answers_pure _).looks
  | error e => exact (answers_throw _).looks

lemma looks_parseYaml (p : Path) : Looks machine (host.parseYaml p) := by
  unfold Host.parseYaml
  refine (looks_read _).bind fun bytes => (answers_know fun _ => rfl).looks.bind fun r => ?_
  cases r with
  | ok v => exact (answers_pure _).looks
  | error refusal => exact (answers_throw _).looks

lemma looks_readYaml (p : Path) (default : Value) (isStrict : Bool) :
    Looks machine (host.readYaml p default isStrict) := by
  unfold Host.readYaml
  refine (looks_holds p).bind fun there => ?_
  split_ifs
  · exact (answers_throw _).looks
  · exact (answers_pure _).looks
  · refine (looks_parseYaml p).observe.bind fun r => ?_
    split
    · exact (answers_pure _).looks
    · exact (answers_pure _).looks
    · split_ifs
      · exact (answers_pure _).looks
      · exact (answers_throw _).looks

lemma looks_readSettings (p : Path) : Looks machine (host.readSettings p) := by
  unfold Host.readSettings
  refine (looks_readYaml p _ _).observe.bind fun r => ?_
  split
  · exact (answers_throw _).looks
  · exact (answers_pure _).looks
  · exact (answers_throw _).looks

lemma looks_layeredSettings (p : Option Path) : Looks machine (host.layeredSettings p) := by
  cases p with
  | none => exact (answers_pure _).looks
  | some p =>
    unfold Host.layeredSettings
    exact (looks_readSettings p).bind fun _ => (answers_pure _).looks

lemma looks_homeOf (user : Text) : Looks machine (host.homeOf user) := by
  unfold Host.homeOf
  refine answers_environment.looks.bind fun own => ?_
  split
  · exact (answers_pure _).looks
  · split_ifs
    · exact (answers_throw _).looks
    · exact (answers_know fun _ => rfl).looks

lemma looks_settingsFile (environment : List (Text × Text)) (p : Option Path) :
    Looks machine (host.settingsFile environment p) := by
  unfold Host.settingsFile
  split
  · exact (answers_pure _).looks
  · next p _ =>
    have hexpand : Looks machine (host.expandHome p) := by
      unfold Host.expandHome
      split
      · exact (answers_pure _).looks
      · exact (looks_homeOf _).bind fun _ => looks_liftExcept _
    exact hexpand.bind fun _ => (answers_pure _).looks

/-- Loading settings only looks at the machine. -/
theorem looks_loadSettings (environment : List (Text × Text)) (p : Option Path) (isChecked : Bool) :
    Looks machine (host.loadSettings environment p isChecked) := by
  unfold Host.loadSettings
  refine (looks_settingsFile _ _).bind fun p => (looks_layeredSettings p).bind fun settings => ?_
  split
  · exact (answers_throw _).looks
  · split_ifs
    · exact looks_liftExcept _
    · exact (answers_pure _).looks

lemma looks_absolute (p : Path) : Looks machine (host.absolute p) := by
  unfold Host.absolute
  exact answers_workingDirectory.looks.bind fun _ => (answers_pure _).looks

lemma looks_templateName (t : Text) : Looks machine (Command.templateName host t) := by
  unfold Command.templateName
  split_ifs
  · exact (answers_pure _).looks
  · exact (looks_absolute _).bind fun _ => (answers_pure _).looks

/-- Deliveries to no file only print errors. -/
lemma run_deliver {deliveries : List (Sink × Text)} (h : ∀ d ∈ deliveries, ∀ p, d.1 ≠ .file p)
    (journal : Journal) (machine : Machine) :
    ∃ errors, ((deliveries.foldlM (fun _ d => liftM (host.deliver d)) PUnit.unit :
      StateT Journal (StateM Machine) PUnit).run journal).run machine =
        ((PUnit.unit, journal), { machine with errors := errors }) := by
  induction deliveries generalizing machine with
  | nil => exact ⟨machine.errors, rfl⟩
  | cons d deliveries ih =>
    obtain ⟨sink, t⟩ := d
    have hrest : ∀ d ∈ deliveries, ∀ p, d.1 ≠ .file p :=
      fun d hd => h d (List.mem_cons_of_mem _ hd)
    rw [List.foldlM_cons]
    cases sink with
    | standardError =>
      exact ih hrest { machine with
        errors := (taken machine.errors t (machine.equipment.errorLimit machine.errors t)).1 }
    | file p => exact absurd rfl (h _ List.mem_cons_self p)
    | nothing => exact ih hrest machine

lemma unfiled_deliver {journal : Journal} (hj : journal.Unfiled) (stamp : Text) (r : Record) :
    ∀ d ∈ journal.deliver stamp r, ∀ p, d.1 ≠ .file p := by
  unfold Journal.deliver
  intro d hd
  split_ifs at hd
  · simp at hd
  · obtain rfl := List.mem_singleton.mp hd
    simp
  · simp at hd
  · obtain ⟨h, hh, rfl⟩ := List.mem_map.mp hd
    exact hj h (List.mem_filter.mp hh).1

/-- Noting something only leaves a record. -/
lemma answers_log (r : Record) :
    Answers machine (ExceptT.lift (host.log r) : Action (StateM Machine) Unit) (.ok ()) := by
  rintro journal _ ⟨hj, errors, rfl⟩
  have hrun : ((host.log r).run journal).run { machine with errors := errors } =
      (((journal.deliver [] r).foldlM (fun _ d => liftM (host.deliver d)) PUnit.unit :
        StateT Journal (StateM Machine) PUnit).run journal).run { machine with errors := errors } := by
    unfold Host.log
    simp
    rfl
  obtain ⟨errors', h⟩ := run_deliver (unfiled_deliver hj [] r) journal
    { machine with errors := errors }
  refine ⟨journal, _, ⟨hj, errors', rfl⟩, ?_⟩
  have hending : ending (ExceptT.lift (host.log r)) journal { machine with errors := errors } =
      (fun p : (Unit × Journal) × Machine => ((Except.ok p.1.1, p.1.2), p.2))
        (((host.log r).run journal).run { machine with errors := errors }) := rfl
  rw [hending, hrun, h]

/-- States of machines with some equipment, which making records does not leave. -/
structure Frame (equipment : Equipment) (S : States) : Prop where
  equipped : ∀ {journal machine}, S journal machine → machine.equipment = equipment
  log : ∀ r, AnswersIn S (ExceptT.lift (host.log r) : Action (StateM Machine) Unit) (.ok ())

lemma frame_at (machine : Machine) : Frame machine.equipment (At machine) where
  equipped := by
    rintro _ _ ⟨_, _, rfl⟩
    rfl
  log := answers_log

lemma answers_modify (f : Journal → Journal) (h : ∀ j : Journal, j.Unfiled → (f j).Unfiled) :
    Answers machine (modify f : Action (StateM Machine) Unit) (.ok ()) :=
  fun journal u hs => ⟨f journal, u, ⟨h journal hs.1, hs.2⟩, rfl⟩

end Machine
end TemplateSplice
