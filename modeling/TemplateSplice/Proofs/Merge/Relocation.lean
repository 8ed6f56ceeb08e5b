import TemplateSplice.Proofs.Merge.Failure
import TemplateSplice.Proofs.Merge.Report
import TemplateSplice.Proofs.Path.Below

/-! Merges in a tree that is moved from one directory to another. As long as no reference that is
tried leads out of the directory, the merge gives what it gave before, with the paths of the root and
of the imports moved. -/
namespace TemplateSplice

/-- The template with its path moved from one directory to another. -/
def Template.move (old new : Path) (template : Template) : Template :=
  { template with path := template.path.rebase old new }

@[simp] lemma Template.path_move (old new : Path) (template : Template) :
    (template.move old new).path = template.path.rebase old new := rfl

@[simp] lemma Template.body_move (old new : Path) (template : Template) :
    (template.move old new).body = template.body := rfl

def AppliedImport.move (old new : Path) (i : AppliedImport) : AppliedImport :=
  { i with path := i.path.rebase old new }

/-- What a pass gives, with the paths of its imports moved. -/
def AppliedImport.movePass {α : Type} (old new : Path) :
    α × List AppliedImport → α × List AppliedImport := Prod.map id (List.map (AppliedImport.move old new))

/-- The same content, from a root and imports whose paths are moved. -/
def Merged.move (old new : Path) (result : Merged) : Merged where
  content := result.content
  root := result.root.rebase old new
  imports := result.imports.map (AppliedImport.move old new)

namespace Shelf

variable {s : Shelf} {old new : Path} {segments : List Text}

/-- The shelf with the texts of one directory in another. -/
def move (s : Shelf) (old new : Path) : Shelf := ⟨s.files.map fun (p, t) => (p.rebase old new, t)⟩

lemma contains_of_get? (h : ∀ file ∈ s.files, old.Contains file.1) {p : Path}
    (hp : (s.get? p).isSome = true) : old.Contains p := by
  obtain ⟨text, htext⟩ := Option.isSome_iff_exists.mp hp
  obtain ⟨file, hfile, -⟩ := Option.map_eq_some_iff.mp htext
  have hpath := List.find?_some hfile
  rw [← of_decide_eq_true hpath]
  exact h file (List.mem_of_find?_eq_some hfile)

/-- What is at some segments below the new directory is what was there below the old one. -/
lemma get?_move (h : ∀ file ∈ s.files, old.Contains file.1) (segments : List Text) :
    (s.move old new).get? (new.under segments) = s.get? (old.under segments) := by
  have hfiles : ∀ file ∈ s.files, decide (file.1.rebase old new = new.under segments) =
      decide (file.1 = old.under segments) := by
    intro file hfile
    obtain ⟨u, rest, hu⟩ := h file hfile
    rw [hu, Path.rebase_under, decide_eq_decide, Path.under_inj, Path.under_inj]
  unfold get? move
  rw [List.find?_map, Option.map_map]
  exact congrArg (Option.map Prod.snd) (List.find?_congr hfiles)

/-- A tree in a directory, and the segments of a file there, can be moved to another directory. -/
structure Movable (s : Shelf) (old new : Path) (segments : List Text) : Prop where
  tree : ∀ file ∈ s.files, old.Contains file.1
  named : segments ≠ []
  ordinary : ∀ u ∈ (old.under segments).segments, Path.Ordinary u
  ordinary_new : ∀ u ∈ (new.under segments).segments, Path.Ordinary u

/-- What is found below an absolute directory by an absolute name can be moved. -/
lemma movable {name name' : TemplateName} (htree : ∀ file ∈ s.files, old.Contains file.1)
    (habsolute : name.normal.anchor ≠ .here) (habsolute' : name'.normal.anchor ≠ .here)
    (hname : name.normal = old.under segments) (hname' : name'.normal = new.under segments)
    (hthere : (s.get? name.normal).isSome = true) : s.Movable old new segments where
  tree := htree
  named := by
    rintro rfl
    obtain ⟨u, rest, hu⟩ := contains_of_get? htree hthere
    rw [hname, Path.under_inj] at hu
    cases hu
  ordinary := hname ▸ name.ordinary_normal habsolute
  ordinary_new := hname' ▸ name'.ordinary_normal habsolute'

end Shelf

namespace Merge

/-- A computation over one shelf mirrors another one, over another shelf and from some trail: from
every trail of its own it gives the value of that other one, changed by a function, or fails as
that does. -/
def Mirrors {α β : Type} (f : α → β) (x : ExceptT Problem (StateM Trail) α) (t : Trail)
    (y : ExceptT Problem (StateM Trail) β) : Prop :=
  ∀ t', (outcome y t').1.toOption = (outcome x t).1.toOption.map f

section Mirrors

variable {α β γ δ : Type} {f : α → β} {g : γ → δ} {t : Trail}

lemma mirrors_pure {a : α} {b : β} (h : f a = b) : Mirrors f (pure a) t (pure b) :=
  fun _ => congrArg some h.symm

lemma mirrors_lift {r r' : Except Problem α} (h : r'.toOption = r.toOption) :
    Mirrors id (lift r) t (lift r') := fun _ => h.trans Option.map_id_apply.symm

/-- Where a computation mirrors another one, both of them fail or both give a value. -/
lemma Mirrors.cases {x : ExceptT Problem (StateM Trail) α} {y : ExceptT Problem (StateM Trail) β}
    (h : Mirrors f x t y) (t' : Trail) :
    (∃ e e' u u', outcome x t = (.error e, u) ∧ outcome y t' = (.error e', u')) ∨
      ∃ a u u', Gives x t a u ∧ Gives y t' (f a) u' := by
  have ht := h t'
  unfold Gives
  cases hx : outcome x t with
  | mk r u =>
    cases hy : outcome y t' with
    | mk r' u' =>
      rw [hx, hy] at ht
      cases r with
      | error e =>
        cases r' with
        | error e' => exact .inl ⟨e, e', u, u', rfl, rfl⟩
        | ok b => cases ht
      | ok a =>
        cases r' with
        | error e' => cases ht
        | ok b =>
          obtain rfl : b = f a := Option.some.inj ht
          exact .inr ⟨a, u, u', rfl, rfl⟩

/-- A sequence mirrors another one if its first step does, and what follows mirrors what follows
there from every value that is given. -/
lemma Mirrors.bind {x : ExceptT Problem (StateM Trail) α} {y : ExceptT Problem (StateM Trail) β}
    {k : α → ExceptT Problem (StateM Trail) γ} {l : β → ExceptT Problem (StateM Trail) δ}
    (h : Mirrors f x t y) (hk : ∀ a u, Gives x t a u → Mirrors g (k a) u (l (f a))) :
    Mirrors g (x >>= k) t (y >>= l) := by
  intro t'
  rw [outcome_bind, outcome_bind]
  obtain ⟨e, e', u, u', hx, hy⟩ | ⟨a, u, u', hx, hy⟩ := h.cases t'
  · rw [hx, hy]
    rfl
  · rw [show outcome x t = (.ok a, u) from hx, show outcome y t' = (.ok (f a), u') from hy]
    exact hk a u hx u'

/-- A stage mirrors another one if its work does, and then what follows. -/
lemma mirrors_during {s s' : Shelf} {stage next : Stage} {x : ExceptT Problem (StateM Trail) α}
    {y : ExceptT Problem (StateM Trail) β} {k : α → StateM Trail (Except Problem γ)}
    {l : β → StateM Trail (Except Problem δ)} (h : Mirrors f x t y)
    (hk : ∀ a u v, Gives x t a u → Mirrors g (ExceptT.mk (k a)) v (ExceptT.mk (l (f a)))) :
    Mirrors g (ExceptT.mk (during s.access stage next x k)) t
      (ExceptT.mk (during s'.access stage next y l)) := by
  intro t'
  change (StateT.run (during s'.access stage next y l) t').1.toOption =
    (StateT.run (during s.access stage next x k) t).1.toOption.map g
  rw [run_during_eq, run_during_eq]
  obtain ⟨e, e', u, u', hx, hy⟩ | ⟨a, u, u', hx, hy⟩ := h.cases t'
  · rw [hx, hy]
    rfl
  · rw [show outcome x t = (.ok a, u) from hx, show outcome y t' = (.ok (f a), u') from hy]
    exact hk a u _ hx _

end Mirrors

variable {s : Shelf} {rules : Rules} {root : Template} {t : Trail}

lemma toOption_load (root : Template) (resource : Text) :
    (outcome (s.access.load root resource) t).1.toOption =
      (s.get? (root.target resource)).map fun body => ⟨body, root.target resource⟩ := by
  cases ho : outcome (s.access.load root resource) t with
  | mk r u =>
    cases r with
    | error e =>
      obtain ⟨hgone, -⟩ := fails_load ho
      rw [hgone]
      rfl
    | ok imported =>
      obtain ⟨rfl, hthere, -⟩ := gives_load ho
      obtain ⟨body, hbody⟩ := Option.isSome_iff_exists.mp hthere
      rw [Shelf.text, hbody]
      rfl

lemma toOption_openTemplate {name : TemplateName} (h : ¬ name.isBlank = true) :
    (outcome (s.access.openTemplate name) t).1.toOption =
      (s.get? name.normal).map fun body => ⟨body, name.normal⟩ := by
  cases ho : outcome (s.access.openTemplate name) t with
  | mk r u =>
    cases r with
    | error e =>
      obtain ⟨⟨hblank, -⟩ | ⟨-, hgone, -⟩, -⟩ := fails_openTemplate ho
      · exact absurd hblank h
      · rw [hgone]
        rfl
    | ok root =>
      obtain ⟨-, hthere, rfl, -⟩ := gives_openTemplate ho
      obtain ⟨body, hbody⟩ := Option.isSome_iff_exists.mp hthere
      rw [Shelf.text, hbody]
      rfl

variable {old new : Path} {segments : List Text}

/-- Whether a section is found does not depend on where its template is. -/
lemma toOption_sectionOf_move (allowed : AllowList) (imported : Template) (name : Text) :
    (sectionOf allowed (imported.move old new) name).toOption =
      (sectionOf allowed imported name).toOption := by
  unfold sectionOf
  rw [Template.body_move]
  cases allowed.section? imported.body name <;> rfl

/-- Whether sections can be added does not depend on where their template is. -/
lemma toOption_addSections_move (allowed : AllowList) (imported : Template) (body : Text)
    (names : List Text) : (addSections allowed (imported.move old new) body names).toOption =
      (addSections allowed imported body names).toOption := by
  induction names generalizing body with
  | nil => rfl
  | cons name names ih =>
    unfold addSections sectionOf
    rw [Template.body_move]
    cases allowed.section? imported.body name with
    | none => rfl
    | some contents =>
      change (addTo allowed body name contents >>= _).toOption =
        (addTo allowed body name contents >>= _).toOption
      cases addTo allowed body name contents with
      | error e => rfl
      | ok body => exact ih body

/-- A reference of a template in a directory that leads inside it means the same file there when the
template is moved. -/
lemma target_eq_under {directory : Path}
    (hordinary : ∀ u ∈ (directory.under segments).segments, Path.Ordinary u) (hne : segments ≠ [])
    (hroot : root.path = directory.under segments) {resource : Text}
    (h : Path.LeadsInside segments (.ofText resource)) :
    root.target resource = directory.under (Path.inside segments (.ofText resource)) := by
  have hplain : root.path.Plain := by
    intro u hu
    obtain ⟨hnil, hdot, -, hslash⟩ := hordinary u (hroot ▸ hu)
    exact ⟨hnil, hdot, hslash⟩
  rw [Template.target_eq hplain, hroot]
  exact Path.resolve_under (fun u hu => hordinary u (List.mem_append_left _ hu)) hne h

/-- Loading through a reference that leads inside the directory moves with the tree. -/
lemma mirrors_load (hm : s.Movable old new segments) (hroot : root.path = old.under segments)
    {resource : Text} (h : Path.LeadsInside segments (.ofText resource)) :
    Mirrors (Template.move old new) (s.access.load root resource) t
      ((s.move old new).access.load (root.move old new) resource) := by
  intro t'
  have hroot' : (root.move old new).path = new.under segments := by
    rw [Template.path_move, hroot, Path.rebase_under]
  rw [toOption_load, toOption_load, target_eq_under hm.ordinary_new hm.named hroot' h,
    target_eq_under hm.ordinary hm.named hroot h, Shelf.get?_move hm.tree, Option.map_map]
  refine congrArg (Option.map · _) (funext fun body => ?_)
  rw [Function.comp_apply, Template.move, Path.rebase_under]

lemma toOption_checkReference {α : Type} (style : MarkerStyle) (resource : Text)
    (source source' : Option Text) (r : Except ReferenceFault α) :
    (checkReference style resource source' r).toOption =
      (checkReference style resource source r).toOption := by
  cases r <;> rfl

/-- The whole-file pass moves with the tree, if every reference that it comes to leads inside the
directory. -/
lemma mirrors_wholeFilePass (hm : s.Movable old new segments)
    (hroot : root.path = old.under segments) {body : Text} {markers : List Marker}
    (h : ∀ earlier marker later x t', markers = earlier ++ marker :: later →
      Gives (wholeFilePass s.access rules root body earlier) t x t' → marker.resource.strip ≠ [] →
      Path.LeadsInside segments (.ofText marker.resource.strip)) :
    Mirrors (AppliedImport.movePass old new) (wholeFilePass s.access rules root body markers) t
      (wholeFilePass (s.move old new).access rules (root.move old new) body markers) := by
  induction markers generalizing body t with
  | nil => exact mirrors_pure rfl
  | cons marker markers ih =>
    unfold wholeFilePass
    refine (mirrors_lift (toOption_checkReference _ _ _ _ _)).bind fun resource t₁ hp => ?_
    obtain ⟨hresource, rfl⟩ := (gives_lift _ _).mp hp
    obtain ⟨rfl, hstrip⟩ := wholeFilePath_eq_ok hresource
    have hinside := h [] marker markers _ _ rfl ((gives_pure _ _).mpr ⟨rfl, rfl⟩) hstrip
    refine (mirrors_load hm hroot hinside).bind fun imported t₂ hl => ?_
    refine (mirrors_lift (toOption_addSections_move _ _ _ _)).bind fun body₁ t₃ ha => ?_
    refine Mirrors.bind (f := id) (fun _ => rfl) fun _ t₄ hn => ?_
    refine (ih ?_).bind fun x t₅ _ => mirrors_pure rfl
    rintro earlier m later x t' rfl hrest hnamed
    obtain ⟨y, hy⟩ : ∃ y, Gives (wholeFilePass s.access rules root body (marker :: earlier)) t y t' :=
      ⟨_, gives_bind.mpr ⟨_, _, hp, gives_bind.mpr ⟨_, _, hl, gives_bind.mpr ⟨_, _, ha,
        gives_bind.mpr ⟨_, _, hn, gives_bind.mpr ⟨_, _, hrest, (gives_pure _ _).mpr ⟨rfl, rfl⟩⟩⟩⟩⟩⟩⟩
    exact h (marker :: earlier) m later y t' rfl hy hnamed

/-- The inline pass moves with the tree, if every reference that it comes to leads inside the
directory. -/
lemma mirrors_inlinePass (hm : s.Movable old new segments)
    (hroot : root.path = old.under segments) {body : Text} {markers : List Marker}
    (h : ∀ earlier marker later x t' path name, markers = earlier ++ marker :: later →
      Gives (inlinePass s.access rules root body earlier) t x t' →
      rules.style.inlineParts marker.resource = .ok (path, name) →
      Path.LeadsInside segments (.ofText path)) :
    Mirrors (AppliedImport.movePass old new) (inlinePass s.access rules root body markers) t
      (inlinePass (s.move old new).access rules (root.move old new) body markers) := by
  induction markers generalizing t with
  | nil => exact mirrors_pure rfl
  | cons marker markers ih =>
    unfold inlinePass
    refine (mirrors_lift (toOption_checkReference _ _ _ _ _)).bind fun parts t₁ hp => ?_
    obtain ⟨path, name⟩ := parts
    obtain ⟨hparts, rfl⟩ := (gives_lift _ _).mp hp
    have hinside := h [] marker markers _ _ path name rfl ((gives_pure _ _).mpr ⟨rfl, rfl⟩)
      (inlineParts_eq_ok hparts)
    refine (mirrors_load hm hroot hinside).bind fun imported t₂ hl => ?_
    refine (mirrors_lift (toOption_sectionOf_move _ _ _)).bind fun contents t₃ hc => ?_
    refine (ih ?_).bind fun x t₄ _ => mirrors_pure rfl
    rintro earlier m later x t' path' name' rfl hrest hparts'
    obtain ⟨y, hy⟩ : ∃ y, Gives (inlinePass s.access rules root body (marker :: earlier)) t y t' :=
      ⟨_, gives_bind.mpr ⟨_, _, hp, gives_bind.mpr ⟨_, _, hl, gives_bind.mpr ⟨_, _, hc,
        gives_bind.mpr ⟨_, _, hrest, (gives_pure _ _).mpr ⟨rfl, rfl⟩⟩⟩⟩⟩⟩
    exact h (marker :: earlier) m later y t' path' name' rfl hy hparts'

/-- The references that a merge of a root comes to: in each pass those of the markers before which
the pass succeeds. -/
inductive Tries (s : Shelf) (rules : Rules) (root : Template) : Text → Prop
  | wholeFile {earlier later : List Marker} {marker : Marker} {x : Text × List AppliedImport}
      {t t' : Trail}
      (markers : rules.style.wholeFileMarkers root.body = earlier ++ marker :: later)
      (passed : Gives (wholeFilePass s.access rules root root.body earlier) t x t')
      (named : marker.resource.strip ≠ []) : Tries s rules root marker.resource.strip
  | inline {body path name : Text} {whole : List AppliedImport} {earlier later : List Marker}
      {marker : Marker} {x : List Replacement × List AppliedImport} {t t' u u' : Trail}
      (before : Gives (wholeFiles s.access rules root) t (body, whole) t')
      (markers : rules.style.inlineMarkers body = earlier ++ marker :: later)
      (passed : Gives (inlinePass s.access rules root body earlier) u x u')
      (parts : rules.style.inlineParts marker.resource = .ok (path, name)) : Tries s rules root path

lemma mirrors_openTemplate {name name' : TemplateName} (htree : ∀ file ∈ s.files, old.Contains file.1)
    (habsolute : name.normal.anchor ≠ .here) (habsolute' : name'.normal.anchor ≠ .here)
    (hname : name.normal = old.under segments) (hname' : name'.normal = new.under segments) :
    Mirrors (Template.move old new) (s.access.openTemplate name) t
      ((s.move old new).access.openTemplate name') := by
  intro t'
  rw [toOption_openTemplate (TemplateName.not_isBlank habsolute),
    toOption_openTemplate (TemplateName.not_isBlank habsolute'), hname, hname',
    Shelf.get?_move htree, Option.map_map]
  refine congrArg (Option.map · _) (funext fun body => ?_)
  rw [Function.comp_apply, Template.move, Path.rebase_under]

lemma mirrors_wholeFiles (hm : s.Movable old new segments) (hroot : root.path = old.under segments)
    (h : ∀ resource, Tries s rules root resource → Path.LeadsInside segments (.ofText resource)) :
    Mirrors (AppliedImport.movePass old new) (wholeFiles s.access rules root) t
      (wholeFiles (s.move old new).access rules (root.move old new)) :=
  mirrors_wholeFilePass hm hroot fun _ _ _ _ _ hmarkers hpassed hnamed =>
    h _ (.wholeFile hmarkers hpassed hnamed)

lemma mirrors_inlines (hm : s.Movable old new segments) (hroot : root.path = old.under segments)
    {body : Text} {whole : List AppliedImport} {u u' : Trail}
    (hbefore : Gives (wholeFiles s.access rules root) u (body, whole) u')
    (h : ∀ resource, Tries s rules root resource → Path.LeadsInside segments (.ofText resource)) :
    Mirrors (AppliedImport.movePass old new) (inlines s.access rules root body) t
      (inlines (s.move old new).access rules (root.move old new) body) := by
  have hpass : Mirrors (AppliedImport.movePass old new)
      (inlinePass s.access rules root body (rules.style.inlineMarkers body)) t
      (inlinePass (s.move old new).access rules (root.move old new) body
        (rules.style.inlineMarkers body)) :=
    mirrors_inlinePass hm hroot fun _ _ _ _ _ path _ hmarkers hpassed hparts =>
      h path (.inline hbefore hmarkers hpassed hparts)
  exact hpass.bind fun _ _ _ => mirrors_pure rfl

end Merge

/-- A merge moves with its tree: if every reference that it comes to is relative and stays in the
directory of the tree, then at the same place in another directory it succeeds or fails as it does
in the first, with the same content and with the imports moved. -/
theorem merge_relocated (s : Shelf) (rules : Rules) (old new : Path) (segments : List Text)
    (name name' : TemplateName) (before before' : Stage) (t t' : Trail)
    (hold : old.anchor ≠ .here) (hnew : new.anchor ≠ .here)
    (hname : name.normal = old.under segments) (hname' : name'.normal = new.under segments)
    (htree : ∀ file ∈ s.files, old.Contains file.1)
    (hinside : ∀ resource, Merge.Tries s rules (s.template name) resource →
      Path.LeadsInside segments (.ofText resource)) :
    ((merge (s.move old new).access rules before' name').run t').1.toOption =
      ((merge s.access rules before name).run t).1.toOption.map (Merged.move old new) := by
  have habsolute : name.normal.anchor ≠ .here := by rwa [hname]
  have habsolute' : name'.normal.anchor ≠ .here := by rwa [hname']
  have hopen : ∀ u, Merge.Mirrors (Template.move old new) (s.access.openTemplate name) u
      ((s.move old new).access.openTemplate name') :=
    fun _ => Merge.mirrors_openTemplate htree habsolute habsolute' hname hname'
  refine Merge.mirrors_during (hopen _) (fun root u v ho => ?_) _
  obtain ⟨-, hthere, rfl, -⟩ := Merge.gives_openTemplate ho
  have hm : s.Movable old new segments :=
    Shelf.movable htree habsolute habsolute' hname hname' hthere
  refine Merge.mirrors_during (Merge.mirrors_wholeFiles hm hname hinside) fun x u v hw => ?_
  obtain ⟨body, whole⟩ := x
  refine Merge.mirrors_during (Merge.mirrors_inlines hm hname hw hinside) fun x u v _ => ?_
  obtain ⟨content, inline⟩ := x
  intro u'
  exact congrArg some (by simp [Merged.move])

/-- A template that refers to its neighbour by a way around. -/
def Shelf.nested : Shelf :=
  .ofList [("/srv/app/stacks/main".toList,
      "# @import ../lib//b\nR:\n  # @import ./../stacks/.././lib/b#Q\nP:".toList),
    ("/srv/app/lib/b".toList, "Q: 2\nP: y\n".toList)]

/-- The root of the tree with a way around. -/
def Template.nested : Template := Shelf.nested.template (.text "/srv/app/stacks/main".toList)

/-- The references of the tree lead around, but not out of the directory. -/
lemma leadsInside_nested {resource : Text} (h : Merge.Tries .nested .sample .nested resource) :
    Path.LeadsInside ["stacks".toList, "main".toList] (.ofText resource) := by
  cases h with
  | @wholeFile _ _ marker _ _ _ markers =>
    have hall : ∀ m ∈ Rules.sample.style.wholeFileMarkers Template.nested.body,
        Path.LeadsInside ["stacks".toList, "main".toList] (.ofText m.resource.strip) := by
      decide +kernel
    refine hall marker ?_
    rw [markers]
    exact List.mem_append_right _ List.mem_cons_self
  | @inline body _ _ _ _ _ marker _ _ _ _ _ before markers _ parts =>
    obtain ⟨rfl, -, hbody, -⟩ := Merge.gives_wholeFilePass before
    have hall : ∀ m ∈ (Rules.sample.allowed.insertAll? Template.nested.body
          (((Rules.sample.style.wholeFileMarkers Template.nested.body).map
            (Merge.wholeImport .nested .sample .nested)).flatMap fun i =>
              Rules.sample.allowed.contributions (Shelf.nested.text i.path))).toList.flatMap
            Rules.sample.style.inlineMarkers,
        (Rules.sample.style.inlineParts m.resource).toOption.all fun parts =>
          decide (Path.LeadsInside ["stacks".toList, "main".toList] (.ofText parts.1)) := by
      decide +kernel
    have hmarker := hall marker (by
      rw [hbody, Option.toList_some, List.flatMap_singleton, markers]
      exact List.mem_append_right _ List.mem_cons_self)
    rw [parts] at hmarker
    exact of_decide_eq_true hmarker

theorem merge_nested_relocated :
    ((merge (Shelf.nested.move (.ofText "/srv/app".toList) (.ofText "/opt".toList)).access
        Rules.sample .init (.text "/opt/stacks/main".toList)).run .empty).1.toOption =
      some { content := "# @import ../lib//b\nR: 2\n\nP: y\n\nQ: 2\n".toList
             root := .ofText "/opt/stacks/main".toList
             imports :=
               [⟨.wholeFile, "../lib//b".toList, .ofText "/opt/lib/b".toList,
                  ["Q".toList, "P".toList]⟩,
                ⟨.inline, "./../stacks/.././lib/b#Q".toList, .ofText "/opt/lib/b".toList,
                  ["Q".toList]⟩] } := by
  have hfiles : ∀ file ∈ Shelf.nested.files,
      file.1 = (Path.ofText "/srv/app".toList).under ["stacks".toList, "main".toList] ∨
        file.1 = (Path.ofText "/srv/app".toList).under ["lib".toList, "b".toList] := by
    decide +kernel
  have htree : ∀ file ∈ Shelf.nested.files, (Path.ofText "/srv/app".toList).Contains file.1 := by
    intro file hfile
    rcases hfiles file hfile with h | h
    · exact ⟨_, _, h⟩
    · exact ⟨_, _, h⟩
  rw [merge_relocated Shelf.nested Rules.sample (.ofText "/srv/app".toList) (.ofText "/opt".toList)
    ["stacks".toList, "main".toList] (.text "/srv/app/stacks/main".toList)
    (.text "/opt/stacks/main".toList) .init .init .empty .empty (by decide) (by decide) (by decide)
    (by decide) htree fun _ => leadsInside_nested]
  decide +kernel

end TemplateSplice
