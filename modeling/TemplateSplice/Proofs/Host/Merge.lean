import TemplateSplice.Proofs.Host.Look
import TemplateSplice.Proofs.Merge.WholeFile

/-! Merging templates on the disk of a machine. A machine offers texts at paths, and what it offers can be put
on a shelf. A merge only looks at the machine, whether it succeeds or not. -/
namespace TemplateSplice.Machine

variable {machine : Machine} {encoding : Text} {rules : Rules} {S : States} {equipment : Equipment}

/-- A text is offered at a path in some states: there is a file that reads so. -/
structure OffersIn (S : States) (encoding : Text) (p : Path) (text : Text) : Prop where
  holds : AnswersIn S (host.holdsFile p) (.ok true)
  reads : AnswersIn S (host.readTemplate encoding p) (.ok text)

/-- A machine offers a text at a path. -/
abbrev Offers (machine : Machine) (encoding : Text) (p : Path) (text : Text) : Prop :=
  OffersIn (At machine) encoding p text

lemma Offers.unique {p : Path} {text text' : Text} (h : Offers machine encoding p text)
    (h' : Offers machine encoding p text') : text = text' := Except.ok.inj (h.reads.unique h'.reads)

/-- What a machine offers at some paths is on a shelf. -/
def Stocked (machine : Machine) (encoding : Text) (ps : List Path) (s : Shelf) : Prop :=
  ∀ p ∈ ps, ∀ text, Offers machine encoding p text → s.get? p = some text

/-- There is nothing on a shelf but what a machine offers. -/
def Stocks (machine : Machine) (encoding : Text) (s : Shelf) : Prop :=
  ∀ p text, s.get? p = some text → Offers machine encoding p text

lemma Stocks.offers {s : Shelf} (h : Stocks machine encoding s) {p : Path}
    (hp : (s.get? p).isSome = true) : Offers machine encoding p (s.text p) := by
  obtain ⟨text, ht⟩ := Option.isSome_iff_exists.mp hp
  unfold Shelf.text
  rw [ht]
  exact h p text ht

/-- What a machine offers at some paths makes a shelf. -/
lemma exists_shelf (ps : List Path) (h : ∀ p ∈ ps, ∃ text, Offers machine encoding p text) :
    ∃ s, Stocks machine encoding s ∧ Stocked machine encoding ps s := by
  induction ps with
  | nil => exact ⟨⟨[]⟩, fun p text hp => by simp [Shelf.get?] at hp, fun p hp => by simp at hp⟩
  | cons p ps ih =>
    obtain ⟨s, hstocks, hstocked⟩ := ih fun q hq => h q (List.mem_cons_of_mem p hq)
    obtain ⟨text, ht⟩ := h p List.mem_cons_self
    have hget : ∀ q, (Shelf.mk ((p, text) :: s.files)).get? q = if p = q then some text else s.get? q := by
      intro q
      unfold Shelf.get?
      by_cases hq : p = q <;> simp [hq]
    refine ⟨⟨(p, text) :: s.files⟩, fun q u hu => ?_, fun q hq u hu => ?_⟩
    · rw [hget] at hu
      split_ifs at hu with hq
      · obtain rfl := hq
        obtain rfl := Option.some.inj hu
        exact ht
      · exact hstocks q u hu
    · rw [hget]
      split_ifs with hne
      · obtain rfl := hne
        rw [ht.unique hu]
      · exact hstocked q ((List.mem_cons.mp hq).resolve_left fun he => hne he.symm) u hu

section Steps

variable {root imported : Template} {resource : Text}

lemma Frame.note (hframe : Frame equipment S) (r : Record) :
    AnswersIn S (liftM ((host.templates encoding).note r) : Action (StateM Machine) Unit) (.ok ()) :=
  hframe.log r

/-- What actions come to in states that making records does not leave. -/
def Frame.outcome (hframe : Frame equipment S) (encoding : Text) : (host.templates encoding).Outcome where
  Is x a := AnswersIn S x (.ok a)
  pure a := answers_pure a
  bind hx hf := hx.bind hf
  note := hframe.note

lemma answers_lift {α : Type} (r : Except Problem α) :
    AnswersIn S (Merge.lift r : Action (StateM Machine) α) r :=
  answersIn_of_ending_eq fun _ _ _ => rfl

lemma looks_resolve (document resource : Text) :
    Looks machine ((host.templates encoding).resolve document resource) := by
  unfold Access.resolve
  refine (looks_holdsFile _).bind fun there => ?_
  split_ifs
  · exact ((frame_at machine).note _).looks.bind fun _ => (answers_pure _).looks
  · exact (answers_throw _).looks

lemma looks_load (root : Template) (resource : Text) :
    Looks machine ((host.templates encoding).load root resource) := by
  unfold Access.load
  exact (looks_resolve _ _).bind fun p => (looks_readTemplate encoding p).bind fun _ =>
    (answers_pure _).looks

lemma looks_openTemplate (name : TemplateName) :
    Looks machine ((host.templates encoding).openTemplate name) := by
  unfold Access.openTemplate
  split_ifs
  · exact (answers_throw _).looks
  · refine (looks_holdsFile _).bind fun there => ?_
    split_ifs
    · exact (looks_readTemplate encoding _).bind fun _ => (answers_pure _).looks
    · exact (answers_throw _).looks

lemma answers_openTemplate {name : TemplateName} {text : Text} (hnamed : ¬ name.isBlank = true)
    (h : OffersIn S encoding name.normal text) :
    AnswersIn S ((host.templates encoding).openTemplate name) (.ok ⟨text, name.normal⟩) := by
  unfold Access.openTemplate
  rw [if_neg hnamed]
  exact h.holds.bind (h.reads.bind (answers_pure _))

end Steps

section Passes

variable {root : Template} {body : Text} {markers : List Marker} {imports : List AppliedImport}
  {s : Shelf}

lemma looks_wholeFilePass (root : Template) (body : Text) (markers : List Marker) :
    Looks machine (Merge.wholeFilePass (host.templates encoding) rules root body markers) := by
  induction markers generalizing body with
  | nil => exact (answers_pure _).looks
  | cons marker markers ih =>
    unfold Merge.wholeFilePass
    exact (answers_lift _).looks.bind fun _ => (looks_load _ _).bind fun _ =>
      (answers_lift _).looks.bind fun body => ((frame_at machine).note _).looks.bind fun _ =>
        (ih body).bind fun _ => (answers_pure _).looks

lemma looks_inlinePass (root : Template) (body : Text) (markers : List Marker) :
    Looks machine (Merge.inlinePass (host.templates encoding) rules root body markers) := by
  induction markers with
  | nil => exact (answers_pure _).looks
  | cons marker markers ih =>
    unfold Merge.inlinePass
    exact (answers_lift _).looks.bind fun _ => (looks_load _ _).bind fun _ =>
      (answers_lift _).looks.bind fun _ => ih.bind fun _ => (answers_pure _).looks

lemma looks_inlines (root : Template) (body : Text) :
    Looks machine (Merge.inlines (host.templates encoding) rules root body) := by
  unfold Merge.inlines
  exact (looks_inlinePass _ _ _).bind fun _ => (answers_pure _).looks

end Passes

section Stages

variable {α β : Type} {stage next : Stage}

/-- The work of a stage, as an action whose outcome is handled. -/
lemma mk_during (access : Access (StateT Journal (StateM Machine))) (stage next : Stage)
    (work : Action (StateM Machine) α) (rest : α → StateT Journal (StateM Machine) (Except Problem β)) :
    (ExceptT.mk (Merge.during access stage next work rest) : Action (StateM Machine) β) =
      (Host.observe work >>= fun
        | .ok a => ExceptT.lift (Merge.noteStage access stage next) >>= fun _ => ExceptT.mk (rest a)
        | .error problem =>
          ExceptT.lift (Merge.noteStage access stage .failed) >>= fun _ => throw problem) := by
  refine ExceptT.ext ?_
  unfold Merge.during Host.observe
  simp only [ExceptT.run_mk, ExceptT.run_bind, ExceptT.run_lift, map_eq_pure_bind, bind_assoc,
    pure_bind]
  refine bind_congr fun r => ?_
  cases r <;> simp

lemma looks_during {work : Action (StateM Machine) α}
    {rest : α → StateT Journal (StateM Machine) (Except Problem β)} (hwork : Looks machine work)
    (hrest : ∀ a, Looks machine (ExceptT.mk (rest a))) :
    Looks machine (ExceptT.mk (Merge.during (host.templates encoding) stage next work rest)) := by
  rw [mk_during]
  refine hwork.observe.bind fun r => ?_
  cases r with
  | ok a => exact (answers_log _).looks.bind fun _ => hrest a
  | error e => exact (answers_log _).looks.bind fun _ => (answers_throw e).looks

lemma mk_bind (x : StateT Journal (StateM Machine) α)
    (f : α → StateT Journal (StateM Machine) (Except Problem β)) :
    (ExceptT.mk (x >>= f) : Action (StateM Machine) β) =
      ExceptT.lift x >>= fun a => ExceptT.mk (f a) := by
  refine ExceptT.ext ?_
  simp

/-- A merge only looks at the machine, whether it succeeds or not. -/
theorem looks_merge (machine : Machine) (encoding : Text) (rules : Rules) (before : Stage)
    (name : TemplateName) :
    Looks machine (ExceptT.mk (merge (host.templates encoding) rules before name)) := by
  unfold merge
  rw [mk_bind]
  refine (answers_log _).looks.bind fun _ => looks_during (looks_openTemplate name) fun root =>
    looks_during (looks_wholeFilePass root _ _) fun _ => looks_during (looks_inlines root _) fun _ => ?_
  dsimp only
  rw [mk_bind]
  exact (answers_log _).looks.bind fun _ => (answers_pure _).looks

end Stages

end TemplateSplice.Machine
