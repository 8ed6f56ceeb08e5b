import TemplateSplice.Command.Inspect
import TemplateSplice.Proofs.Command.Session
import TemplateSplice.Proofs.Host.Shelving

/-! What a command does before it prints or writes a result. It leaves all files alone but the log file that
it is asked to keep. -/
namespace TemplateSplice

/-- A location is that of the log file that a request asks for. -/
def Command.IsLog (machine : Machine) (request : Request) (l : Location) : Prop :=
  ∃ p, givenPath request.logFile = some p ∧ l = Machine.logLocation machine.cwd p

lemma Command.plain_of_givenPath {t : Option Text} {p : Path} (h : givenPath t = some p) : p.Plain := by
  unfold givenPath at h
  split at h
  · obtain rfl := Option.some.inj h
    exact Path.plain_ofText _
  · cases h

namespace Machine

open Command

variable {α : Type} {machine u : Machine} {journal : Journal} {request : Request} {free : Location → Prop}

lemma Looks.ensures {x : Action (StateM Machine) α} (h : Looks machine x) (hs : At machine journal machine) :
    Ensures journal machine x fun _ j u => j.Unfiled ∧ machine.Still u ∧ u.tree = machine.tree := by
  obtain ⟨answer, h⟩ := h
  obtain ⟨j, _, ⟨hj, errors, rfl⟩, hending⟩ := h journal machine hs
  unfold Ensures
  rw [hending]
  exact ⟨hj, ⟨rfl, rfl, rfl, rfl, rfl⟩, rfl⟩

lemma leaves_configure (before : Machine) (settings : Value) :
    Leaves (IsLog before request) before (configure host request settings) fun _ => True := by
  unfold configure
  dsimp only
  split
  · exact leaves_modify _ fun _ hj => hj.muteIfBare
  · exact leaves_configureJournal _ fun p hp => ⟨plain_of_givenPath hp, p, hp, rfl⟩

/-- A log file can be opened on a machine. -/
def OpensLog (machine : Machine) (p : Path) : Prop :=
  ∀ j u, At machine j u → ∃ sink, (ending (host.openLog p) j u).1.1 = .ok sink

lemma LogReady.opensLog {p : Path} (h : machine.LogReady p) : machine.OpensLog p := by
  rintro j _ ⟨_, errors, rfl⟩
  have hready : LogReady { machine with errors := errors } p := ⟨h.clean, h.parent, h.file⟩
  exact ⟨_, ending_openLog hready j⟩

/-- The states once the journal of a request is configured. Nothing has changed but the text of the errors, or,
where a log is kept, no file but the log. -/
def Logged (machine : Machine) (request : Request) : States :=
  if givenPath request.logFile = none then At machine else Since (IsLog machine request) machine

lemma At.since (h : At machine journal u) (free : Location → Prop) : Since free machine journal u := by
  obtain ⟨hunfiled, _, rfl⟩ := h
  exact ⟨hunfiled.within, ⟨rfl, rfl, rfl, rfl, rfl⟩, .refl _ _⟩

lemma Logged.since (h : Logged machine request journal u) :
    Since (IsLog machine request) machine journal u := by
  unfold Logged at h
  split_ifs at h
  · exact h.since _
  · exact h

lemma frame_logged (machine : Machine) (request : Request) :
    Frame machine.equipment (Logged machine request) := by
  unfold Logged
  split_ifs
  · exact frame_at machine
  · exact frame_since _ machine

/-- The log file of a request is at none of some paths. -/
def LogsApart (machine : Machine) (request : Request) (ps : List Path) : Prop :=
  ∀ l, IsLog machine request l → ∀ p ∈ ps, l ≠ p.segments

section Templates

variable {encoding : Text} {ps : List Path}

/-- While a log is kept that is none of some templates, these read as before. Without a log this needs nothing of
the tree. -/
lemma faithful_logged (hlog : LogsApart machine request ps)
    (hground : (givenPath request.logFile).isSome = true → machine.tree.Grounded) :
    Faithful (Logged machine request) machine encoding ps := by
  intro p hp hplace text hgets
  obtain ⟨j, u, hs, hreads⟩ := exists_readsAs_of_gets hgets
  refine ReadsAs.offers ?_
  by_cases hnone : givenPath request.logFile = none
  · unfold Logged at hs
    rw [if_pos hnone] at hs
    obtain ⟨-, _, rfl⟩ := hs
    exact hreads
  · exact hs.since.readsAs_before (hground (Option.isSome_iff_ne_none.mpr hnone)) hplace
      (fun hl => hlog _ hl p hp rfl) hreads

/-- They are offered as before. -/
lemma offersIn_logged (hlog : LogsApart machine request ps) {p : Path} (hp : p ∈ ps) (hplace : p.IsPlace)
    {text : Text} (h : Offers machine encoding p text) :
    OffersIn (Logged machine request) encoding p text :=
  offersIn_of_readsAs fun _ _ hs => hs.since.readsAs hplace (fun hl => hlog _ hl p hp rfl) h.readsAs

end Templates

/-- After the configuration of a journal its states are reached. -/
lemma gets_after_configure {f : Unit → Action (StateM Machine) α} {a : α} {settings : Value}
    (h : Gets (At machine) (configure host request settings >>= f) a) :
    Gets (Logged machine request) (f ()) a := by
  unfold Logged
  split_ifs with hlog
  · obtain ⟨_, _, h⟩ := h.of_bind_answers (answers_configure hlog settings)
    exact h
  · obtain ⟨_, _, _, h⟩ := (h.mono fun _ _ hs => hs.since _).of_bind (leaves_configure machine settings)
    exact h

/-- The configuration reaches them, if the log file can be opened. -/
lemma answers_configure_logged (h : ∀ p, givenPath request.logFile = some p → machine.OpensLog p)
    (settings : Value) :
    AnswersFrom (At machine) (Logged machine request) (configure host request settings) (.ok ()) := by
  unfold Logged
  split_ifs with hlog
  · exact answers_configure hlog settings
  · intro journal u hs
    obtain ⟨p, hp⟩ := Option.ne_none_iff_exists'.mp hlog
    have hended : (ending (configure host request settings) journal u).1.1 = .ok () := by
      unfold configure
      rw [hp, if_neg (by simp), configureJournal_some]
      obtain ⟨sink, hsink⟩ := h p hp _ u ⟨hs.1.prepare _, hs.2⟩
      rw [hsink]
      rfl
    exact ⟨_, _, (leaves_configure machine settings journal u (hs.since _)).1, by rw [← hended]⟩

lemma keeps_templateSettings {S : States} (settings : Value) :
    Keeps S (templateSettings settings : Action (StateM Machine) Settings.Template) (fun _ => True)
      fun _ => True := by
  unfold templateSettings
  split
  · exact keeps_pure trivial
  · exact keeps_throw trivial

lemma keeps_templateName {S : States} {E : Problem → Prop} (t : Text) :
    Keeps S (templateName host t) (fun _ => True) E := by
  have hcwd : Keeps S (Host.run host.workingDirectory) (fun _ => True) E :=
    keeps_run fun _ _ hs => ⟨hs, trivial⟩
  have habsolute : Keeps S (host.absolute (.ofText t)) (fun _ => True) E :=
    hcwd.bind fun _ _ => keeps_pure trivial
  unfold templateName
  split_ifs
  · exact keeps_pure trivial
  · exact habsolute.bind fun _ _ => keeps_pure trivial

/-- The settings of a request are loaded and its journal is configured before the rest, which goes by its
template settings. If the rest leaves all files alone but the log file, so does the whole. -/
lemma ensures_requested {f : Value → Settings.Template → Action (StateM Machine) α} {P : α → Prop}
    (hf : ∀ settings template, Leaves (IsLog machine request) machine (f settings template) P) :
    Ensures .fresh machine (Command.loadSettings host request >>= fun settings =>
      configure host request settings >>= fun _ => templateSettings settings >>= f settings)
      fun r j u => Since (IsLog machine request) machine j u ∧ ∀ a, r = .ok a → P a := by
  have hloaded := (looks_requestedSettings request : Looks machine _).ensures (at_fresh machine)
  have hsince : ∀ j u, j.Unfiled ∧ machine.Still u ∧ u.tree = machine.tree →
      Since (IsLog machine request) machine j u := fun j u h =>
    ⟨h.1.within, h.2.1, h.2.2 ▸ .refl _ _⟩
  refine hloaded.bind (fun settings j u h => ?_) fun e j u h => ⟨hsince j u h, nofun⟩
  refine (((leaves_configure machine settings).bind fun _ _ =>
    (keeps_templateSettings settings).bind fun template _ => hf settings template)
      j u (hsince j u h)).imp fun r j u h => ⟨h.1, h.2.1⟩

/-- Merging what a request asks for leaves all files alone but the log file. The result is made of
characters of its encoding. -/
theorem ensures_mergeRequested (machine : Machine) (request : Request) :
    Ensures .fresh machine (mergeRequested host request) fun r j u =>
      Since (IsLog machine request) machine j u ∧ ∀ parts, r = .ok parts →
        machine.equipment.Reads parts.2.1.encoding ∧
          Text.Only (Encoding.Covers parts.2.1.encoding) parts.2.2.content := by
  refine ensures_requested fun settings template =>
    (keeps_liftExcept (r := Rules.ofSettings template) fun _ _ => trivial).bind fun rules _ =>
      (keeps_templateName _).bind fun name _ => ?_
  rw [lift_bind_liftExcept]
  exact ((keeps_merge (frame_since _ _) .init name).imp_error fun _ _ => trivial).bind
    fun result hresult => keeps_pure hresult

/-- So does opening the template that a request asks for. -/
theorem ensures_openRequested (machine : Machine) (request : Request) :
    Ensures .fresh machine (openRequested host request) fun _ j u =>
      Since (IsLog machine request) machine j u := by
  refine (ensures_requested (P := fun _ => True) fun settings template =>
    (keeps_templateName _).bind fun name _ =>
      ((keeps_openTemplate (frame_since _ _) name).imp_error fun _ _ => trivial).bind
        fun _ _ => keeps_pure trivial).imp fun r j u h => h.1

/-- A merge that a request asks for takes place under its settings, after its journal is configured. -/
lemma gets_of_mergeRequested {settings : Value} {template : Settings.Template} {result : Merged}
    (h : Yields machine (mergeRequested host request) (settings, template, result)) :
    ∃ fields rules,
      Answers machine (Command.loadSettings host request) (.ok settings) ∧
      Settings.TemplateFields.ofSettings settings = .ok fields ∧
      fields.texts?.getD .default = template ∧
      Rules.ofSettings template = .ok rules ∧
      Gets (Logged machine request) (ExceptT.mk (merge (host.templates template.encoding) rules .init
        (templateNameIn machine.cwd (request.file.getD [])))) result := by
  unfold mergeRequested at h
  obtain ⟨settings', hsettings, h⟩ := h.of_bind (looks_requestedSettings request)
  replace h := gets_after_configure h
  have hcwd : ∀ j u, Logged machine request j u → u.cwd = machine.cwd := fun _ _ hs => hs.since.still.cwd
  obtain ⟨template', htemplate, -, h⟩ := h.of_bind (keeps_templateSettings settings')
  obtain ⟨fields, hfields, rfl⟩ := exists_of_templateSettings htemplate
  obtain ⟨rules, hrules, h⟩ := h.of_bind_answers (answers_liftExcept _)
  obtain ⟨_, ⟨⟩, h⟩ := h.of_bind_answers (answers_templateName hcwd _)
  rw [lift_bind_liftExcept] at h
  obtain ⟨result', hresult, he⟩ := h.of_map
  cases he
  exact ⟨fields, rules, hsettings, hfields, rfl, hrules, hresult⟩

end Machine
end TemplateSplice
