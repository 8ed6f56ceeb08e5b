import TemplateSplice.Proofs.Merge.Fault

/-! A body cut at its headers. The text before the first header and every header with the text after it
make up the body, whatever the names are: they may hold colons and line feeds, and one may start with
another one. A section that is asked for is one of these texts. -/
namespace TemplateSplice

namespace Layout

/-- A body is laid out by its headers. -/
lemma pieces_headers (allowed : AllowList) (body : Text) :
    ⟨textBefore body (allowed.headers body), pieces body (allowed.headers body)⟩ =
      allowed.layout body := by
  have hbody : (allowed.layout body).preamble ++ joined (allowed.layout body).sections = body :=
    AllowList.text_layout body
  have hbefore := textBefore_headersAt (allowed.layout body).preamble (allowed.layout body).sections
  have hpieces := pieces_headersAt (allowed.layout body).preamble (allowed.layout body).sections
  rw [hbody] at hbefore hpieces
  rw [AllowList.headers_eq_layout, headers, hbefore, hpieces]

end Layout

/-- The text before the first header, and each header with the text after it up to the next one, are the
body; headers do not overlap, and each is an allowed name with its colon. The section of a name is the
first of the texts under that name; it is missing exactly if the name is not among the sections, and
nothing else can go wrong. -/
theorem sections_partition (allowed : AllowList) (body : Text) :
    Layout.textBefore body (allowed.headers body) ++
        Layout.joined (Layout.pieces body (allowed.headers body)) = body ∧
      (allowed.headers body).Pairwise (fun h h' => h.stop ≤ h'.start) ∧
      (∀ h ∈ allowed.headers body, h.name ∈ allowed.names ∧
        body.slice h.start h.stop = AllowList.headerText h.name) ∧
      ∀ (path : Path) (name : Text),
        (∀ t, Merge.sectionOf allowed ⟨body, path⟩ name = .ok t ↔
          (Layout.pieces body (allowed.headers body)).lookup name = some t) ∧
        ∀ problem, Merge.sectionOf allowed ⟨body, path⟩ name = .error problem ↔
          name ∉ allowed.sections body ∧ problem = .sectionMissing name (some path.text) := by
  have hlayout := Layout.pieces_headers allowed body
  refine ⟨?_, AllowList.pairwise_headersFrom 0 true body, fun h hm => ?_, fun path name => ⟨fun t => ?_,
    fun problem => ⟨Merge.sectionOf_eq_error, ?_⟩⟩⟩
  · exact (congrArg Layout.text hlayout).trans (AllowList.text_layout body)
  · obtain ⟨hslice, hname⟩ := AllowList.slice_of_mem_headers hm
    exact ⟨hname, hslice⟩
  · have hsections : Layout.pieces body (allowed.headers body) = (allowed.layout body).sections :=
      congrArg Layout.sections hlayout
    rw [Merge.sectionOf_eq_ok, AllowList.section?_eq_lookup, hsections]
  · rintro ⟨hn, rfl⟩
    cases hsection : Merge.sectionOf allowed ⟨body, path⟩ name with
    | error e => rw [(Merge.sectionOf_eq_error hsection).2]
    | ok t =>
      have hsome := Option.isSome_of_eq_some (Merge.sectionOf_eq_ok.mp hsection)
      exact absurd (AllowList.isSome_section?_iff.mp hsome) hn

end TemplateSplice
