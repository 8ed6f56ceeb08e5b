import TemplateSplice.Proofs.Host.Merge
import TemplateSplice.Proofs.Merge.Dependencies
import TemplateSplice.Proofs.Path.Normal

/-! Chains of references: each one is seen from the template that the one before has led to. Where a
chain leads is settled by the paths alone, whatever the templates are read from; it is where one lexical
walk leads, if the references on the way end in names. -/
namespace TemplateSplice

namespace Access

variable {m : Type → Type} [Monad m]

/-- The path that a chain of references leads to from a document. -/
def resolveAll (access : Access m) (document : Path) (references : List Text) :
    ExceptT Problem m Path :=
  references.foldlM (fun p r => access.resolve p.text r) document

/-- The template that a chain of references leads to from another one. -/
def loadAll (access : Access m) (document : Template) (references : List Text) :
    ExceptT Problem m Template :=
  references.foldlM access.load document

section Lawful

variable [LawfulMonad m]

/-- A reference that is resolved means its target. -/
lemma map_resolve (access : Access m) (document resource : Text) :
    (fun _ => (Path.ofText document).resolve (.ofText resource)) <$>
      access.resolve document resource = access.resolve document resource := by
  unfold resolve
  rw [map_bind]
  refine bind_congr fun there => ?_
  cases there <;> simp

lemma load_eq (access : Access m) (document : Template) (resource : Text) :
    access.load document resource =
      access.resolve document.path.text resource >>= fun _ =>
        access.read (document.target resource) >>= fun body =>
          pure ⟨body, document.target resource⟩ := by
  unfold load
  rw [← map_resolve, bind_map_left]
  simp only [bind_map_left]
  rfl

end Lawful

namespace Outcome

variable {access : Access m} (o : access.Outcome)

/-- A chain comes to what its steps come to, if each of them does where the chain stops. -/
lemma foldlM {β : Type} {step : β → Text → ExceptT Problem m β} {next : β → Text → β}
    (path : β → Path) (There : Path → Prop)
    (hpath : ∀ b r, (path b).Plain → path (next b r) = (path b).resolve (.ofText r))
    (hstep : ∀ b r, (path b).Plain → There (path (next b r)) → o.Is (step b r) (next b r))
    {b : β} (hb : (path b).Plain) {references : List Text}
    (h : ∀ p ∈ (path b).stops (references.map .ofText), There p) :
    o.Is (references.foldlM step b) (references.foldl next b) := by
  induction references generalizing b with
  | nil => exact o.pure b
  | cons r references ih =>
    have hr := hpath b r hb
    obtain ⟨hthere, hrest⟩ := List.forall_mem_cons.mp h
    have hplain := (hb.isNormal_resolve (Path.plain_ofText r)).plain
    rw [List.foldlM_cons]
    exact o.bind (hstep b r hb (hr ▸ hthere)) (ih (hr ▸ hplain) (hr ▸ hrest))

lemma resolveAll {document : Path} (hdocument : document.Plain) {references : List Text}
    (h : ∀ p ∈ document.stops (references.map .ofText), o.Is (access.holds p) true) :
    o.Is (access.resolveAll document references)
      ((references.map .ofText).foldl Path.resolve document) := by
  have hstep : ∀ (p : Path) (r : Text), p.Plain →
      o.Is (access.holds (p.resolve (.ofText r))) true →
        o.Is (access.resolve p.text r) (p.resolve (.ofText r)) := fun p r hp hthere => by
    have htarget : (Path.ofText p.text).resolve (.ofText r) = p.resolve (.ofText r) := by
      rw [hp.ofText_text]
    exact htarget ▸ o.resolve (htarget ▸ hthere)
  rw [List.foldl_map]
  exact o.foldlM id (fun p => o.Is (access.holds p) true) (fun _ _ _ => rfl) hstep hdocument h

lemma loadAll {document : Template} (hdocument : document.path.Plain) {references : List Text}
    {text : Path → Text} (h : ∀ p ∈ document.path.stops (references.map .ofText),
      o.Is (access.holds p) true ∧ o.Is (access.read p) (text p)) :
    o.Is (access.loadAll document references)
      (references.foldl (fun d r => ⟨text (d.target r), d.target r⟩) document) :=
  o.foldlM Template.path _ (fun _ _ hd => Template.target_eq hd _)
    (fun _ _ _ hthere => o.load hthere.1 hthere.2) hdocument h

end Outcome
end Access

section Chain

variable {m : Type → Type} [Monad m] [LawfulMonad m] {document : Template} {references : List Text}

/-- A chain that is resolved leads where the references lead. -/
theorem Access.map_resolveAll (access : Access m) {document : Path} (hdocument : document.Plain)
    (references : List Text) :
    (fun _ => (references.map .ofText).foldl Path.resolve document) <$>
      access.resolveAll document references = access.resolveAll document references := by
  unfold resolveAll
  induction references generalizing document with
  | nil => simp
  | cons r references ih =>
    have hplain := (hdocument.isNormal_resolve (Path.plain_ofText r)).plain
    rw [List.foldlM_cons, ← map_resolve, hdocument.ofText_text, bind_map_left, map_bind]
    exact bind_congr fun _ => ih hplain

/-- The template that a chain leads to has the path that the references lead to. -/
theorem Access.map_path_loadAll (access : Access m) (hdocument : document.path.Plain)
    (references : List Text) :
    Template.path <$> access.loadAll document references =
      (fun _ => (references.map .ofText).foldl Path.resolve document.path) <$>
        access.loadAll document references := by
  unfold loadAll
  induction references generalizing document with
  | nil => simp
  | cons r references ih =>
    rw [List.foldlM_cons, load_eq]
    simp only [bind_assoc, pure_bind, map_bind]
    refine bind_congr fun _ => bind_congr fun body => ?_
    rw [ih (Template.plain_target hdocument r), Template.target_eq hdocument]
    rfl

/-- So has the template that the steps make of the text at each path. -/
lemma Template.path_foldl_load (hdocument : document.path.Plain) (text : Path → Text) :
    (references.foldl (fun d r => ⟨text (d.target r), d.target r⟩) document).path =
      (references.map .ofText).foldl Path.resolve document.path := by
  induction references generalizing document with
  | nil => rfl
  | cons r references ih =>
    have hr := target_eq hdocument r
    rw [List.foldl_cons, ih (plain_target hdocument r), hr]
    rfl

lemma Template.foldl_load (hdocument : document.path.Plain) (text : Path → Text)
    (earlier : List Text) (resource : Text) :
    let place := ((earlier ++ [resource]).map .ofText).foldl Path.resolve document.path
    (earlier ++ [resource]).foldl (fun d r => ⟨text (d.target r), d.target r⟩) document =
      ⟨text place, place⟩ := by
  intro place
  have hplace : _ = place := path_foldl_load hdocument text
  rw [← hplace, List.foldl_concat]

end Chain

/-- Where a chain of references leads is settled before anything is read, so it depends on no working
directory: to a path in normal form, which is where one lexical walk leads if the references on the way
end in names. If there is a template at each stop, the chain gets there, in memory and on every
machine. -/
theorem chained_references {document : Template} (hdocument : document.path.IsNormal)
    (earlier : List Text) (resource : Text) :
    let references := earlier ++ [resource]
    let stops := document.path.stops (references.map .ofText)
    ∃ place : Path, place.IsNormal ∧
      ((∀ r ∈ earlier, (Path.ofText r).EndsInName) →
        place = document.path.walk (earlier.map .ofText) (.ofText resource)) ∧
      (∀ {m : Type → Type} [Monad m] [LawfulMonad m] (access : Access m),
        (fun _ => place) <$> access.resolveAll document.path references =
          access.resolveAll document.path references ∧
        Template.path <$> access.loadAll document references =
          (fun _ => place) <$> access.loadAll document references) ∧
      (∀ (s : Shelf) (t : Trail), (∀ p ∈ stops, (s.get? p).isSome = true) →
        (∃ t', Merge.Gives (s.access.resolveAll document.path references) t place t') ∧
          ∃ t', Merge.Gives (s.access.loadAll document references) t ⟨s.text place, place⟩ t') ∧
      ∀ (machine : Machine) (encoding : Text),
        let access := Machine.host.templates encoding
        ((∀ p ∈ stops, Machine.Answers machine (Machine.host.holdsFile p) (.ok true)) →
          Machine.Answers machine (access.resolveAll document.path references) (.ok place)) ∧
        ((∀ p ∈ stops, ∃ text, Machine.Offers machine encoding p text) →
          ∃ body, Machine.Offers machine encoding place body ∧
            Machine.Answers machine (access.loadAll document references) (.ok ⟨body, place⟩)) := by
  intro references stops
  have hplain := hdocument.plain
  refine ⟨(references.map .ofText).foldl Path.resolve document.path, ?_, fun hearlier => ?_, ?_, ?_, ?_⟩
  · exact hdocument.foldl_resolve (by simp [Path.plain_ofText])
  · rw [List.map_append]
    exact Path.foldl_resolve (List.forall_mem_map.mpr hearlier) _
  · exact fun access =>
      ⟨access.map_resolveAll hplain references, access.map_path_loadAll hplain references⟩
  · intro s t hs
    have hholds : ∀ p ∈ stops, s.outcome.Is (s.access.holds p) true :=
      fun p hp => Shelf.outcome_holds (hs p hp)
    refine ⟨s.outcome.resolveAll hplain hholds t, ?_⟩
    rw [← Template.foldl_load hplain]
    exact s.outcome.loadAll hplain (fun p hp => ⟨hholds p hp, s.outcome_read p⟩) t
  · intro machine encoding access
    refine ⟨((Machine.frame_at machine).outcome encoding).resolveAll hplain, fun hoffered => ?_⟩
    -- The texts that the machine offers are put on a shelf, so that each stop has one of its own.
    obtain ⟨s, hstocks, hstocked⟩ := Machine.exists_shelf stops hoffered
    have hoffers : ∀ p ∈ stops, Machine.Offers machine encoding p (s.text p) := fun p hp => by
      obtain ⟨text, ht⟩ := hoffered p hp
      exact hstocks.offers (by rw [hstocked p hp text ht]; rfl)
    have hlast : (references.map .ofText).foldl Path.resolve document.path ∈ stops := by
      unfold stops references
      rw [List.map_append]
      exact Path.foldl_resolve_mem_stops _ _ _
    refine ⟨_, hoffers _ hlast, ?_⟩
    rw [← Template.foldl_load hplain]
    exact ((Machine.frame_at machine).outcome encoding).loadAll hplain
      fun p hp => ⟨(hoffers p hp).holds, (hoffers p hp).reads⟩

/-- A chain from a relative template to one above it, on to an absolute one, and from there to the
root. -/
theorem chained_references_to_root :
    let document : Template := ⟨[], .ofText "../main".toList⟩
    let references := ["../x//a".toList, "//y/../z/./d".toList, "../../e".toList]
    let s := Shelf.ofList [("../../x/a".toList, "1".toList), ("//z/d".toList, "2".toList),
      ("//e".toList, "3".toList)]
    document.path.IsNormal ∧
      (∀ r ∈ references.dropLast, (Path.ofText r).EndsInName) ∧
      ∃ t', Merge.Gives (s.access.loadAll document references) .empty
        ⟨"3".toList, .ofText "//e".toList⟩ t' := by
  intro document references s
  have hnormal : document.path.IsNormal := Path.isNormal_iff.mpr ⟨"../main".toList, by decide⟩
  have hnames : ∀ r ∈ references.dropLast, (Path.ofText r).EndsInName := by decide
  obtain ⟨place, -, hplace, -, hshelf, -⟩ :=
    chained_references hnormal references.dropLast "../../e".toList
  have hroot : place = .ofText "//e".toList := (hplace hnames).trans (by decide)
  obtain ⟨-, hloads⟩ := hshelf s .empty (by decide)
  rw [hroot] at hloads
  exact ⟨hnormal, hnames, hloads⟩

end TemplateSplice
