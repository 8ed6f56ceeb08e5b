import TemplateSplice.Proofs.Disk.Grounded
import TemplateSplice.Proofs.Host.MergeKeeps
import TemplateSplice.Proofs.Host.Reading

/-! Merges of files as merges over shelves. In whatever states records can be made, a merge that succeeds is
one over a shelf, if what it read is what a machine offers at the paths that it names. That is so while nothing
has changed but a log file that is none of the templates. -/
namespace TemplateSplice

/-- What a template at a place refers to is at a place. -/
lemma Template.isPlace_target {root : Template} (h : root.path.IsPlace) (resource : Text) :
    (root.target resource).IsPlace := by
  rw [target_eq h.normal.plain]
  exact h.resolve (Path.plain_ofText resource)

namespace Machine

variable {machine : Machine} {equipment : Equipment} {S : States} {encoding : Text} {rules : Rules}
  {root : Template} {p : Path} {text : Text}

section Files

/-- What was read at a path is what some file there reads as. -/
lemma exists_readsAs_of_gets (h : Gets S (host.readTemplate encoding p) text) :
    ∃ j u, S j u ∧ u.ReadsAs encoding p text := by
  obtain ⟨journal, u, hs, h⟩ := h
  have hread : Keeps (fun _ v => v = u) (Host.attempt (host.read p.text))
      (fun bytes => u.tree.readFile u.cwd p.text = .ok bytes) fun _ => True := by
    have hrun : Keeps (fun _ v => v = u) (Host.run (host.read p.text))
        (fun r => u.tree.readFile u.cwd p.text = r) fun _ => True :=
      keeps_run fun _ v hv => ⟨hv, hv ▸ rfl⟩
    refine hrun.bind fun r hr => ?_
    cases r with
    | ok bytes => exact keeps_pure hr
    | error fault => exact keeps_throw trivial
  have htext : Keeps (fun _ v => v = u) (host.readText p encoding) (u.ReadsAs encoding p)
      fun _ => True := by
    unfold Host.readText
    refine ((keeps_holds p).imp_error fun _ _ => trivial).bind fun there _ => ?_
    split_ifs
    · exact keeps_throw trivial
    · refine ((keeps_checkEncodingName encoding).imp_error fun _ _ => trivial).bind fun _ hnull =>
        hread.bind fun bytes hbytes => ((keeps_codecOf (fun hv => congrArg equipment hv) encoding).imp_error
          fun _ _ => trivial).bind fun codec hcodec => ?_
      cases hd : codec.decode bytes with
      | ok t => exact keeps_pure ⟨bytes, codec, t, hbytes, hnull, hcodec, hd, rfl⟩
      | error fault => exact keeps_throw trivial
  have hkeeps : Keeps (fun _ v => v = u) (host.readTemplate encoding p) (u.ReadsAs encoding p)
      fun _ => True :=
    htext.observe_bind (fun _ ht => keeps_pure ht) fun _ _ => keeps_throw trivial
  exact ⟨journal, u, hs, (hkeeps journal u rfl).2.1 text h⟩

/-- A machine offers nothing but what its files read as. -/
lemma OffersIn.readsAs (h : Offers machine encoding p text) : machine.ReadsAs encoding p text := by
  obtain ⟨_, _, ⟨_, _, rfl⟩, hreads⟩ := exists_readsAs_of_gets h.reads.yields
  exact hreads

variable {free : Location → Prop} {before u : Machine} {j : Journal}

/-- A file reads as it did before, if it is not free to change. -/
lemma Since.readsAs (hs : Since free before j u) (hp : p.IsPlace) (hfree : ¬ free p.segments)
    (h : before.ReadsAs encoding p text) : u.ReadsAs encoding p text := by
  obtain ⟨bytes, codec, t, hfile, hnull, hcodec, hd⟩ := h
  refine ⟨bytes, codec, t, ?_, hnull, hs.still.equipment ▸ hcodec, hd⟩
  rw [hs.still.cwd]
  exact hs.kept.readFile hp hfree hfile

/-- So it read before as it does, if the tree was grounded. -/
lemma Since.readsAs_before (hs : Since free before j u) (hg : before.tree.Grounded) (hp : p.IsPlace)
    (hfree : ¬ free p.segments) (h : u.ReadsAs encoding p text) : before.ReadsAs encoding p text := by
  obtain ⟨bytes, codec, t, hfile, hnull, hcodec, hd⟩ := h
  rw [hs.still.cwd] at hfile
  exact ⟨bytes, codec, t, hs.kept.readFile_before hg hp hfree hfile, hnull,
    hs.still.equipment ▸ hcodec, hd⟩

end Files

/-- What is read at some places in some states is what a machine offers there. -/
def Faithful (S : States) (machine : Machine) (encoding : Text) (ps : List Path) : Prop :=
  ∀ p ∈ ps, p.IsPlace → ∀ text, Gets S (host.readTemplate encoding p) text → Offers machine encoding p text

section Steps

variable {imported : Template} {resource : Text}

/-- What a template refers to is read at its target. -/
lemma gets_of_load (hframe : Frame equipment S)
    (h : Gets S ((host.templates encoding).load root resource) imported) :
    imported.path = root.target resource ∧
      Gets S (host.readTemplate encoding imported.path) imported.body := by
  obtain ⟨path, hpath, -, h⟩ := h.of_bind (keeps_resolve hframe _ _)
  obtain ⟨body, hbody, -, h⟩ := h.of_bind (keeps_readTemplate hframe path encoding)
  obtain rfl := h.eq_of_pure
  refine ⟨?_, hbody⟩
  obtain ⟨there, -, -, hpath⟩ := hpath.of_bind (keeps_holdsFile _)
  cases there with
  | false => exact absurd hpath (not_gets_throw _ _)
  | true =>
    obtain ⟨_, -, hpath⟩ := hpath.of_bind_answers (hframe.note _)
    exact hpath.eq_of_pure.symm

/-- A template that is opened is read at the normal path of its name. -/
lemma gets_of_openTemplate (hframe : Frame equipment S) {name : TemplateName}
    (h : Gets S ((host.templates encoding).openTemplate name) root) :
    ¬ name.isBlank = true ∧ root.path = name.normal ∧
      Gets S (host.readTemplate encoding root.path) root.body := by
  unfold Access.openTemplate at h
  split_ifs at h with hblank
  · exact absurd h (not_gets_throw _ _)
  · obtain ⟨there, -, -, h⟩ := h.of_bind (keeps_holdsFile _)
    cases there with
    | false => exact absurd h (not_gets_throw _ _)
    | true =>
      obtain ⟨body, hbody, -, h⟩ := h.of_bind (keeps_readTemplate hframe _ encoding)
      obtain rfl := h.eq_of_pure
      exact ⟨hblank, rfl, hbody⟩

/-- A load of what a machine offers is one over a shelf that holds it. -/
lemma exists_gives_load {s : Shelf} (hpath : imported.path = root.target resource)
    (hoffers : Offers machine encoding imported.path imported.body)
    (hs : Stocked machine encoding [imported.path] s) (t : Trail) :
    ∃ t', Merge.Gives (s.access.load root resource) t imported t' := by
  have hget := hs _ (List.mem_singleton_self _) _ hoffers
  rw [hpath] at hget
  have hthere : (s.get? (root.target resource)).isSome = true := by rw [hget]; rfl
  obtain ⟨t', ht'⟩ := Merge.exists_gives_load hthere t
  rw [Shelf.text, hget, ← hpath] at ht'
  exact ⟨t', ht'⟩

lemma exists_gives_openTemplate {s : Shelf} {name : TemplateName} {root : Template}
    (hnamed : ¬ name.isBlank = true) (hpath : root.path = name.normal)
    (hget : s.get? root.path = some root.body) (t : Trail) :
    ∃ t', Merge.Gives (s.access.openTemplate name) t root t' := by
  obtain ⟨body, path⟩ := root
  obtain rfl := hpath
  unfold Access.openTemplate
  rw [if_neg hnamed]
  refine Merge.gives_of_steps ((Merge.gives_holds _ _).mpr ⟨rfl, rfl⟩) ?_
  rw [if_pos (by rw [hget]; rfl)]
  refine Merge.gives_of_steps ((Merge.gives_read _ _).mpr ⟨rfl, rfl⟩)
    ⟨_, (Merge.gives_pure _ _).mpr ⟨?_, rfl⟩⟩
  rw [Shelf.text, hget]
  rfl

lemma Stocked.left {s : Shelf} (ps : List Path) {qs : List Path}
    (h : Stocked machine encoding (ps ++ qs) s) : Stocked machine encoding ps s :=
  fun p hp => h p (List.mem_append_left qs hp)

lemma Stocked.right {s : Shelf} (ps : List Path) {qs : List Path}
    (h : Stocked machine encoding (ps ++ qs) s) : Stocked machine encoding qs s :=
  fun p hp => h p (List.mem_append_right ps hp)

end Steps

section Passes

variable {body : Text} {markers : List Marker} {imports : List AppliedImport}

/-- The whole-file pass over files is the one over any shelf that holds its imports. -/
lemma exists_gives_of_gets_wholeFilePass (hframe : Frame equipment S) (hroot : root.path.IsPlace)
    (hbody : Text.Only (Encoding.Covers encoding) body) {body' : Text}
    (h : Gets S (Merge.wholeFilePass (host.templates encoding) rules root body markers) (body', imports))
    (hfaithful : Faithful S machine encoding (imports.map AppliedImport.path)) :
    (∀ p ∈ imports.map AppliedImport.path, ∃ text, Offers machine encoding p text) ∧
      ∀ s t, Stocked machine encoding (imports.map AppliedImport.path) s →
        ∃ t', Merge.Gives (Merge.wholeFilePass s.access rules root body markers) t
          (body', imports) t' := by
  induction markers generalizing body imports with
  | nil =>
    obtain ⟨rfl, rfl⟩ := Prod.mk.inj h.eq_of_pure
    exact ⟨by simp, fun s t _ => ⟨t, rfl⟩⟩
  | cons marker markers ih =>
    obtain ⟨resource, hp, h⟩ := h.of_bind_answers (answers_lift _)
    obtain ⟨imported, hload, himported, h⟩ := h.of_bind (keeps_load hframe _ _)
    obtain ⟨body₁, hadd, h⟩ := h.of_bind_answers (answers_lift _)
    obtain ⟨_, -, h⟩ := h.of_bind_answers (hframe.note _)
    have hbody₁ := Merge.only_addSections (Encoding.covers_newline encoding) hbody himported hadd
    obtain ⟨⟨body₂, imports₂⟩, hrest, -, h⟩ := h.of_bind (keeps_wholeFilePass hframe hbody₁)
    obtain ⟨rfl, rfl⟩ := Prod.mk.inj h.eq_of_pure
    obtain ⟨hfirst, hlater⟩ := List.forall_mem_cons.mp hfaithful
    obtain ⟨hoffered, hgives⟩ := ih hbody₁ hrest hlater
    obtain ⟨hpath, hreads⟩ := gets_of_load hframe hload
    have hoffers := hfirst (hpath ▸ Template.isPlace_target hroot resource) _ hreads
    refine ⟨List.forall_mem_cons.mpr ⟨⟨_, hoffers⟩, hoffered⟩, fun s t hs => ?_⟩
    obtain ⟨u, hu⟩ := exists_gives_load hpath hoffers (Stocked.left [_] hs) t
    refine Merge.gives_of_steps ((Merge.gives_lift _ _).mpr ⟨hp, rfl⟩) (Merge.gives_of_steps hu
      (Merge.gives_of_steps ((Merge.gives_lift _ _).mpr ⟨hadd, rfl⟩)
        (Merge.gives_of_steps (a := ()) ((Merge.gives_note _ _).mpr rfl) ?_)))
    obtain ⟨t', ht'⟩ := hgives s _ (Stocked.right [_] hs)
    exact ⟨t', Merge.gives_bind.mpr ⟨_, _, ht', rfl⟩⟩

/-- The inline pass over files is the one over any shelf that holds its imports. -/
lemma exists_gives_of_gets_inlinePass (hframe : Frame equipment S) (hroot : root.path.IsPlace)
    {replacements : List TemplateSplice.Replacement}
    (h : Gets S (Merge.inlinePass (host.templates encoding) rules root body markers)
      (replacements, imports))
    (hfaithful : Faithful S machine encoding (imports.map AppliedImport.path)) :
    (∀ p ∈ imports.map AppliedImport.path, ∃ text, Offers machine encoding p text) ∧
      ∀ s t, Stocked machine encoding (imports.map AppliedImport.path) s →
        ∃ t', Merge.Gives (Merge.inlinePass s.access rules root body markers) t
          (replacements, imports) t' := by
  induction markers generalizing replacements imports with
  | nil =>
    obtain ⟨rfl, rfl⟩ := Prod.mk.inj h.eq_of_pure
    exact ⟨by simp, fun s t _ => ⟨t, rfl⟩⟩
  | cons marker markers ih =>
    obtain ⟨⟨resource, name⟩, hp, h⟩ := h.of_bind_answers (answers_lift _)
    obtain ⟨imported, hload, -, h⟩ := h.of_bind (keeps_load hframe _ _)
    obtain ⟨contents, hc, h⟩ := h.of_bind_answers (answers_lift _)
    obtain ⟨⟨replacements₂, imports₂⟩, hrest, -, h⟩ := h.of_bind (keeps_inlinePass hframe)
    obtain ⟨rfl, rfl⟩ := Prod.mk.inj h.eq_of_pure
    obtain ⟨hfirst, hlater⟩ := List.forall_mem_cons.mp hfaithful
    obtain ⟨hoffered, hgives⟩ := ih hrest hlater
    obtain ⟨hpath, hreads⟩ := gets_of_load hframe hload
    have hoffers := hfirst (hpath ▸ Template.isPlace_target hroot resource) _ hreads
    refine ⟨List.forall_mem_cons.mpr ⟨⟨_, hoffers⟩, hoffered⟩, fun s t hs => ?_⟩
    obtain ⟨u, hu⟩ := exists_gives_load hpath hoffers (Stocked.left [_] hs) t
    refine Merge.gives_of_steps ((Merge.gives_lift _ _).mpr ⟨hp, rfl⟩) (Merge.gives_of_steps hu
      (Merge.gives_of_steps ((Merge.gives_lift _ _).mpr ⟨hc, rfl⟩) ?_))
    obtain ⟨t', ht'⟩ := hgives s _ (Stocked.right [_] hs)
    exact ⟨t', Merge.gives_bind.mpr ⟨_, _, ht', rfl⟩⟩

lemma exists_gives_of_gets_inlines (hframe : Frame equipment S) (hroot : root.path.IsPlace)
    {content : Text}
    (h : Gets S (Merge.inlines (host.templates encoding) rules root body) (content, imports))
    (hfaithful : Faithful S machine encoding (imports.map AppliedImport.path)) :
    (∀ p ∈ imports.map AppliedImport.path, ∃ text, Offers machine encoding p text) ∧
      ∀ s t, Stocked machine encoding (imports.map AppliedImport.path) s →
        ∃ t', Merge.Gives (Merge.inlines s.access rules root body) t (content, imports) t' := by
  obtain ⟨⟨replacements, imports'⟩, hpass, -, h⟩ := h.of_bind (keeps_inlinePass hframe)
  obtain ⟨rfl, rfl⟩ := Prod.mk.inj h.eq_of_pure
  obtain ⟨hoffered, hgives⟩ := exists_gives_of_gets_inlinePass hframe hroot hpass hfaithful
  refine ⟨hoffered, fun s t hs => ?_⟩
  obtain ⟨t', ht'⟩ := hgives s t hs
  exact ⟨t', Merge.gives_bind.mpr ⟨_, _, ht', rfl⟩⟩

end Passes

section Stages

variable {α β : Type} {stage next : Stage} {P : α → Prop} {E : Problem → Prop}

/-- A stage that succeeds has done its work, and then the rest succeeds. -/
lemma Gets.of_during (hframe : Frame equipment S) {work : Action (StateM Machine) α}
    {rest : α → StateT Journal (StateM Machine) (Except Problem β)} {b : β}
    (h : Gets S (ExceptT.mk (Merge.during (host.templates encoding) stage next work rest)) b)
    (hwork : Keeps S work P E) : ∃ a, Gets S work a ∧ P a ∧ Gets S (ExceptT.mk (rest a)) b := by
  rw [mk_during] at h
  rcases h.of_observe_bind hwork with ⟨a, ha, hP, h⟩ | ⟨e, h⟩
  · obtain ⟨_, -, h⟩ := h.of_bind_answers (hframe.log _)
    exact ⟨a, ha, hP, h⟩
  · obtain ⟨_, -, h⟩ := h.of_bind_answers (hframe.log _)
    exact absurd h (not_gets_throw _ _)

/-- A merge of files that succeeds is a merge over a shelf on which there is nothing but what a machine offers,
if what it read is what the machine offers. -/
theorem exists_shelf_of_gets_merge (hframe : Frame equipment S) {before : Stage} {name : TemplateName}
    {result : Merged} (hname : ¬ name.isBlank = true → name.normal.IsPlace)
    (h : Gets S (ExceptT.mk (merge (host.templates encoding) rules before name)) result)
    (hfaithful : Faithful S machine encoding (result.root :: result.imports.map AppliedImport.path)) :
    ∃ s, Stocks machine encoding s ∧
      ∀ t, ∃ t', (merge s.access rules before name).run t = (.ok result, t') := by
  unfold merge at h
  rw [mk_bind] at h
  obtain ⟨_, -, h⟩ := h.of_bind_answers (hframe.log _)
  obtain ⟨root, hroot, hbody, h⟩ := h.of_during hframe (keeps_openTemplate hframe name)
  obtain ⟨⟨body, whole⟩, hwhole, hbody', h⟩ := h.of_during hframe (keeps_wholeFilePass hframe hbody.2)
  obtain ⟨⟨content, inline⟩, hinline, -, h⟩ := h.of_during hframe (keeps_inlines hframe hbody')
  rw [mk_bind] at h
  obtain ⟨_, -, h⟩ := h.of_bind_answers (hframe.log _)
  obtain rfl := h.eq_of_pure
  obtain ⟨hnamed, hpath, hreads⟩ := gets_of_openTemplate hframe hroot
  have hplace : root.path.IsPlace := hpath ▸ hname hnamed
  obtain ⟨hfirst, hlater⟩ := List.forall_mem_cons.mp hfaithful
  rw [List.map_append] at hlater
  have hoffers := hfirst hplace _ hreads
  obtain ⟨hwoffered, hwgives⟩ := exists_gives_of_gets_wholeFilePass hframe hplace hbody.2 hwhole
    fun p hp => hlater p (List.mem_append_left _ hp)
  obtain ⟨hioffered, higives⟩ := exists_gives_of_gets_inlines hframe hplace hinline
    fun p hp => hlater p (List.mem_append_right _ hp)
  have hoffered : ∀ p ∈ [root.path] ++ (whole.map AppliedImport.path ++
      inline.map AppliedImport.path), ∃ text, Offers machine encoding p text := fun p hp => by
    rcases List.mem_append.mp hp with hp | hp
    · exact ⟨root.body, List.mem_singleton.mp hp ▸ hoffers⟩
    · exact (List.mem_append.mp hp).elim (hwoffered p) (hioffered p)
  obtain ⟨s, hstocks, hs⟩ := exists_shelf _ hoffered
  refine ⟨s, hstocks, fun t => ?_⟩
  have hget := Stocked.left _ hs _ (List.mem_singleton_self _) _ hoffers
  obtain ⟨t₁, h₁⟩ := exists_gives_openTemplate hnamed hpath hget
    { t with records := t.records ++ [Merge.stageRecord before .init] }
  obtain ⟨t₂, h₂⟩ := hwgives s _ (Stocked.left _ (Stocked.right _ hs))
  obtain ⟨t₃, h₃⟩ := higives s _ (Stocked.right _ (Stocked.right _ hs))
  exact Merge.run_of_stage h₁ (Merge.run_of_stage h₂ (Merge.run_of_stage h₃ ⟨_, rfl⟩))

end Stages

end Machine
end TemplateSplice
