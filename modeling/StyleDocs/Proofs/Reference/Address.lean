import StyleDocs.Proofs.Key
import StyleDocs.Proofs.Link
import StyleDocs.Proofs.Reference.Tables

/-!
# Addresses of pages

Links in the grammar of a property and queries to the reference lead to the pages of the site by
different ways: a link looks its target up in the catalogs, a query looks a folded key up in the
published tables. The two ways to a property meet unless its file name has a hyphen, because files
are looked up under a key with underscores. The two ways to a type meet unless its name has a
capital letter, because the published address is written in lower case.
-/

namespace StyleDocs.Reference

variable (conv : Conventions) (types : TypeCatalog) (properties : PropertyCatalog)
  (records : List (Text × PropertyRecord))

/-! ### Properties -/

/-- The document of a name without hyphens is found if no other name has its lower-case form. -/
theorem propertyFile?_build_of_no_hyphen {name path : Text}
    (hmem : (name, path) ∈ properties.entries) (htrim : Text.strip name = name)
    (hunique : ∀ d ∈ properties.entries, Text.lower d.1 = Text.lower name → d.1 = name)
    (hhyphen : '-' ∉ name) :
    (build conv types properties records).1.propertyFile? name = some path := by
  rw [propertyFile?_build, filed?, (Key.file_eq_lower_iff htrim).2 hhyphen]
  cases hlast : properties.entries.findRev? fun d => Text.lower d.1 = Text.lower name with
  | none =>
    rw [List.findRev?_eq_find?_reverse, List.find?_eq_none] at hlast
    exact absurd (by simp) (hlast _ (List.mem_reverse.2 hmem))
  | some d =>
    obtain ⟨hkey, -⟩ := findRev?_eq_some_iff.1 hlast
    have hd := mem_of_findRev? hlast
    have hname : d.1 = name := hunique d hd (by simpa using hkey)
    have hpath : properties.get? d.1 = some d.2 := Table.mem_entries_iff.1 hd
    rw [hname, Table.mem_entries_iff.1 hmem] at hpath
    rw [Option.map_some, Option.some.inj hpath]

/-- The queries lead from the name of a catalogued document to its path and to the page that its
links point to exactly when the name has no hyphen or the last document whose name in lower case is
the underscored key has the very same path. The name is trimmed and no other name equals it in
lower case. -/
theorem document_found_iff {name path : Text}
    (hmem : (name, path) ∈ properties.entries) (htrim : Text.strip name = name)
    (hunique : ∀ d ∈ properties.entries, Text.lower d.1 = Text.lower name → d.1 = name) :
    ((build conv types properties records).1.hasProperty name = true ∧
        (build conv types properties records).1.propertyFile? name = some path ∧
        (build conv types properties records).1.propertyUrl? name = some (conv.propertyUrl path) ↔
      '-' ∉ name ∨ (filed? properties name).map Prod.snd = some path) ∧
    (∀ link : Link.Written, link.target = name →
      Link.propertyImage conv properties link =
        Link.anchor (conv.propertyUrl path) link.visible) ∧
    ∀ before t rest link, Link.propertyLink conv ('[' :: t) = some (link, rest) →
      link.target = name → '[' ∉ before → '[' ∉ t →
      Link.resolve conv types properties (before ++ '[' :: t) =
        before ++ Link.anchor (conv.propertyUrl path) link.visible ++ rest := by
  have himage : ∀ link : Link.Written, link.target = name →
      Link.propertyImage conv properties link =
        Link.anchor (conv.propertyUrl path) link.visible := by
    intro link htarget
    rw [Link.propertyImage, htarget, Table.mem_entries_iff.1 hmem]
  refine ⟨⟨?_, ?_⟩, himage, ?_⟩
  · rintro ⟨-, hfile, -⟩
    rw [propertyFile?_build] at hfile
    exact Or.inr hfile
  · intro h
    have hfile : (build conv types properties records).1.propertyFile? name = some path := by
      rcases h with hhyphen | hlast
      · exact propertyFile?_build_of_no_hyphen conv types properties records hmem htrim hunique
          hhyphen
      · rw [propertyFile?_build, hlast]
    refine ⟨by rw [hasProperty, hfile, Option.isSome_some], hfile, ?_⟩
    rw [propertyUrl?, hfile, Option.map_some, baseUrl_build, Conventions.propertyUrl]
  · intro before t rest link hlink htarget hbefore ht
    rw [Link.resolve_propertyLink types properties hlink hbefore ht, himage link htarget]

/-- A catalog with a name in capitals and one with a hyphen. -/
def gridCatalog : PropertyCatalog :=
  .ofList [("Grid_Rows".toList, "styles/grid/Grid_Rows".toList),
    ("grid-size".toList, "styles/grid/grid-size".toList)]

/-- The name with an underscore leads to the page of its document. -/
theorem document_found_grid_rows :
    ("Grid_Rows".toList, "styles/grid/Grid_Rows".toList) ∈ gridCatalog.entries ∧
      Text.strip "Grid_Rows".toList = "Grid_Rows".toList ∧
      (∀ d ∈ gridCatalog.entries, Text.lower d.1 = Text.lower "Grid_Rows".toList →
        d.1 = "Grid_Rows".toList) ∧
      (build {} .empty gridCatalog []).1.propertyUrl? "Grid_Rows".toList =
        some "https://textual.textualize.io/styles/grid/Grid_Rows/".toList := by
  have hmem : ("Grid_Rows".toList, "styles/grid/Grid_Rows".toList) ∈ gridCatalog.entries := by
    decide
  have htrim : Text.strip "Grid_Rows".toList = "Grid_Rows".toList := by decide
  have hunique : ∀ d ∈ gridCatalog.entries, Text.lower d.1 = Text.lower "Grid_Rows".toList →
      d.1 = "Grid_Rows".toList := by decide +kernel
  have hfound := (document_found_iff {} .empty gridCatalog [] hmem htrim hunique).1.2
  exact ⟨hmem, htrim, hunique, (hfound (Or.inl (by decide))).2.2⟩

/-- The name with a hyphen is catalogued and leads nowhere. -/
theorem hyphenated_document_lost :
    ("grid-size".toList, "styles/grid/grid-size".toList) ∈ gridCatalog.entries ∧
      Text.strip "grid-size".toList = "grid-size".toList ∧
      (∀ d ∈ gridCatalog.entries, Text.lower d.1 = Text.lower "grid-size".toList →
        d.1 = "grid-size".toList) ∧
      (build {} .empty gridCatalog []).1.hasProperty "grid-size".toList = false ∧
      (build {} .empty gridCatalog []).1.propertyFile? "grid-size".toList = none ∧
      (build {} .empty gridCatalog []).1.propertyUrl? "grid-size".toList = none := by
  decide +kernel

/-! ### Types -/

/-- Anchors around one visible text are told apart by their addresses. -/
theorem anchor_inj {url url' visible : Text} :
    Link.anchor url visible = Link.anchor url' visible ↔ url = url' := by
  have h : ∀ opening middle closing : Text,
      opening ++ url ++ middle ++ visible ++ closing =
        opening ++ url' ++ middle ++ visible ++ closing ↔ url = url' := by
    simp [List.append_assoc]
  exact h _ _ _

theorem typeUrl_inj {name name' : Text} :
    conv.typeUrl name = conv.typeUrl name' ↔ name = name' := by
  simp only [Conventions.typeUrl, List.append_right_inj, List.append_left_inj]

/-- The query for the target of a link to a documented type always answers, and the link is given
the address of the answer exactly when the target has no capital letter. So it is in the resolved
text, where the text around the link, the address of the site and the name of the type directory
have no bracket that could open another link. -/
theorem typeLink_address_iff {t rest : Text} {link : Link.Written}
    (hlink : Link.typeLink conv t = some (link, rest))
    (hdocumented : types.documents link.target = true) :
    ∃ url, (build conv types properties records).1.typeUrl? link.target = some url ∧
      (Link.typeImage conv types link = Link.anchor url link.visible ↔
        ∀ c ∈ link.target, c.isUpper = false) ∧
      ∀ before, '[' ∉ before → '[' ∉ rest → '[' ∉ conv.baseUrl → '[' ∉ conv.typeDirectory →
        (Link.resolve conv types properties (before ++ t) =
            before ++ Link.anchor url link.visible ++ rest ↔
          ∀ c ∈ link.target, c.isUpper = false) := by
  obtain ⟨-, htarget, -, -⟩ := Link.exists_of_typeLink hlink
  have hascii : ∀ c ∈ link.target, c.toNat < 128 := fun c hc =>
    Link.toNat_lt_of_isTargetChar (htarget c hc)
  have hkey : Key.property link.target = Text.lower (typeName link.target) :=
    Key.property_eq_lower_typeName hascii fun c hc =>
      Link.not_isBlank_of_isTargetChar (htarget c hc)
  have htype : typeName link.target ∈ types.keys := Table.mem_keys_iff.2 hdocumented
  have himage : Link.typeImage conv types link =
      Link.anchor (conv.typeUrl (typeName link.target)) link.visible := by
    have hnormal : types.documents (typeName link.target) = true := by
      rw [TypeCatalog.documents, Key.typeName_typeName]
      exact hdocumented
    rw [Link.typeImage]
    exact if_pos hnormal
  have hiff : Link.typeImage conv types link =
      Link.anchor (conv.typeUrl (Text.lower (typeName link.target))) link.visible ↔
        ∀ c ∈ link.target, c.isUpper = false := by
    rw [himage, anchor_inj, typeUrl_inj, eq_comm, Key.lower_typeName_eq_iff hascii]
  refine ⟨_, typeUrl?_build conv types properties records htype hkey, hiff, ?_⟩
  intro before hbefore hrest hbase hdirectory
  rw [Link.resolve_typeLink types properties hlink hbefore hrest hbase hdirectory,
    List.append_left_inj, List.append_right_inj, hiff]

/-- The link with an underscore leads to the page of the hyphenated name, and so does the query. -/
theorem typeLink_address_text_align :
    Link.typeLink {} "[`<text>`](../../css_types/text_align.md#top), with".toList =
        some (⟨"`<text>`".toList, "text_align".toList⟩, ", with".toList) ∧
      (TypeCatalog.ofNames ["text_align".toList]).documents "text_align".toList = true ∧
      ∃ url, (build {} (.ofNames ["text_align".toList]) .empty []).1.typeUrl?
          "text_align".toList = some url ∧
        Link.resolve {} (.ofNames ["text_align".toList]) .empty
            ("see ".toList ++ "[`<text>`](../../css_types/text_align.md#top), with".toList) =
          "see ".toList ++ Link.anchor url "`<text>`".toList ++ ", with".toList := by
  have hlink : Link.typeLink {} "[`<text>`](../../css_types/text_align.md#top), with".toList =
      some (⟨"`<text>`".toList, "text_align".toList⟩, ", with".toList) := by decide +kernel
  have hdocumented : (TypeCatalog.ofNames ["text_align".toList]).documents
      "text_align".toList = true := by decide +kernel
  obtain ⟨url, hurl, -, hresolve⟩ :=
    typeLink_address_iff {} (.ofNames ["text_align".toList]) .empty [] hlink hdocumented
  refine ⟨hlink, hdocumented, url, hurl, ?_⟩
  have hsmall : ("text_align".toList.all fun c => !c.isUpper) = true := by decide
  refine (hresolve "see ".toList (by decide) (by decide) (by decide) (by decide)).2 ?_
  intro c hc
  simpa using List.all_eq_true.1 hsmall c hc

/-- A type with a capital letter has one page for its links and another for the query. -/
theorem capital_type_has_two_addresses :
    Link.typeLink {} "[<c>](../css_types/Color.md)".toList =
        some (⟨"<c>".toList, "Color".toList⟩, []) ∧
      (TypeCatalog.ofNames ["Color".toList]).documents "Color".toList = true ∧
      Link.resolve {} (.ofNames ["Color".toList]) .empty "[<c>](../css_types/Color.md)".toList =
        Link.anchor "https://textual.textualize.io/css_types/Color/".toList "<c>".toList ∧
      (build {} (.ofNames ["Color".toList]) .empty []).1.typeUrl? "Color".toList =
        some "https://textual.textualize.io/css_types/color/".toList ∧
      Link.anchor "https://textual.textualize.io/css_types/Color/".toList "<c>".toList ≠
        Link.anchor "https://textual.textualize.io/css_types/color/".toList "<c>".toList := by
  decide +kernel

end StyleDocs.Reference
