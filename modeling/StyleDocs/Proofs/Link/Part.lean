import StyleDocs.Proofs.Key
import StyleDocs.Proofs.Link.Spelling
import StyleDocs.Proofs.Text.Occurrence

/-!
# The links of a text together

The two passes over a text go from its left end to its right end, and the second reads what the
first has written. Still every link is resolved by itself, whatever stands around it: nothing is
found that begins in one part of the text and ends in another, and what the first pass writes has
no bracket in which the second could find anything. One thing is left to the conventions. A link to
a property is spelled with their extension, and the first pass reads it too; if the extension has
something in it that begins as a link to a type does, the first pass may find a link that begins in
the extension and ends in the text behind it.
-/

namespace StyleDocs.Link

open Text

/-! ### Where a link to a type can begin -/

/-- The beginnings of links to types. -/
def typeOpenings : List Text := ["[<".toList, "[`<".toList]

/-- Nothing in a text begins as a link to a type does. -/
def OpensNoType (t : Text) : Prop := ∀ w ∈ typeOpenings, includes w t = false

instance (t : Text) : Decidable (OpensNoType t) := inferInstanceAs (Decidable (∀ w ∈ _, _))

theorem exists_opening_of_typeLink {conv : Conventions} {t rest : Text} {link : Written}
    (h : typeLink conv t = some (link, rest)) : ∃ w ∈ typeOpenings, startsWith w t = true := by
  unfold typeLink at h
  split at h
  · cases h
  · next visible behind hlabel =>
    obtain ⟨rfl, -, name, -, tail, -, -, -, hskip, hname⟩ :=
      exists_of_label? leavesEnd_afterTypeName? hlabel
    obtain ⟨inner, -, hinner⟩ := exists_of_afterTypeName? hname
    obtain ⟨u, hu, hsplit⟩ := exists_skipBackquote (visible ++ ']' :: behind)
    rw [hskip, hinner] at hsplit
    rw [hsplit]
    rcases hu with rfl | rfl
    · exact ⟨"[<".toList, List.mem_cons_self, startsWith_iff.2 ⟨_, rfl⟩⟩
    · exact ⟨"[`<".toList, List.mem_cons_of_mem _ List.mem_cons_self, startsWith_iff.2 ⟨_, rfl⟩⟩

/-- The beginnings of links to types have none of the marks that close the parts of a link. -/
theorem not_mem_typeOpening {w : Text} (hw : w ∈ typeOpenings) :
    w ≠ [] ∧ '[' ∈ w ∧ '<' ∈ w ∧ ']' ∉ w ∧ '.' ∉ w ∧ '#' ∉ w ∧ ')' ∉ w := by
  have h : ∀ w ∈ typeOpenings,
      w ≠ [] ∧ '[' ∈ w ∧ '<' ∈ w ∧ ']' ∉ w ∧ '.' ∉ w ∧ '#' ∉ w ∧ ')' ∉ w := by decide
  exact h w hw

theorem includes_eq_false_of_not_mem {w t : Text} {c : Char} (hc : c ∈ w) (ht : c ∉ t) :
    includes w t = false := by
  rw [Bool.eq_false_iff, Ne, includes_iff_infix]
  exact fun h => ht (h.subset hc)

namespace Spelling

variable {conv : Conventions} {s : Spelling}

theorem getLast?_text : (s.text conv).getLast? = some ')' := by
  simp [text, address, targetText, List.getLast?_cons, List.getLast?_append]

/-- A link to a property has in it no beginning of a link to a type but one of the extension. -/
theorem opensNoType_text (hkind : s.kind = .property) (hextension : OpensNoType conv.extension) :
    OpensNoType (s.text conv) := by
  intro w hw
  obtain ⟨hne, hopen, hangle, hclose, hdot, hsharp, hparen⟩ := not_mem_typeOpening hw
  have hname : '<' ∉ s.name ∧ s.kind.shown s.name = s.name ∧ s.kind.path conv = "./".toList := by
    have h := s.isName
    rw [hkind] at h ⊢
    exact ⟨fun hmem => absurd (List.all_eq_true.1 h.2 _ hmem) (by decide), rfl, rfl⟩
  obtain ⟨hname, hshown, hpath⟩ := hname
  have hvisible : includes w ('[' :: s.visible) = false := by
    refine includes_eq_false_of_not_mem hangle ?_
    rw [visible, hshown]
    cases s.opening <;> cases s.closing <;> simp [quote, backquote, hname]
  have htarget : includes w ("(./".toList ++ s.target) = false := by
    refine includes_eq_false_of_not_mem hopen ?_
    have hbracket : '[' ∉ s.target := fun hmem => absurd (s.isTargetChar_target _ hmem) (by decide)
    simp [hbracket]
  have hfragment : includes w (conv.extension ++ fragmentText s.fragment) = false := by
    cases hwritten : s.fragment with
    | none =>
      rw [fragmentText, List.append_nil]
      exact hextension w hw
    | some written =>
      rw [fragmentText, includes_append_cons hne hsharp, hextension w hw, Bool.false_or]
      exact includes_eq_false_of_not_mem hopen fun hmem =>
        (s.of_mem_fragment hwritten hmem).2 rfl
  have htext : s.text conv = ('[' :: s.visible) ++ ']' :: (("(./".toList ++ s.target) ++
      '.' :: ((conv.extension ++ fragmentText s.fragment) ++ ')' :: [])) := by
    simp [text, address, targetText, hpath]
  have hnil : includes w [] = false := by simpa [includes] using hne
  rw [htext, includes_append_cons hne hclose, includes_append_cons hne hdot,
    includes_append_cons hne hparen, hvisible, htarget, hfragment, hnil]
  rfl

end Spelling

/-! ### Texts that both passes know -/

/-- Wherever a text stands, its links are resolved by themselves. -/
def Resolves (conv : Conventions) (types : TypeCatalog) (properties : PropertyCatalog)
    (t image : Text) : Prop :=
  ∃ typed, Rewrites (typeLink conv) (typeImage conv types) t typed ∧
    Rewrites (propertyLink conv) (propertyImage conv properties) typed image

namespace Resolves

variable {conv : Conventions} {types : TypeCatalog} {properties : PropertyCatalog} {t image : Text}

theorem resolve_eq (h : Resolves conv types properties t image) :
    resolve conv types properties t = image := by
  obtain ⟨typed, htype, hproperty⟩ := h
  rw [resolve, htype.substitute_eq, hproperty.substitute_eq]

theorem append (h : Resolves conv types properties t image) {t' image' : Text}
    (h' : Resolves conv types properties t' image') :
    Resolves conv types properties (t ++ t') (image ++ image') := by
  obtain ⟨typed, htype, hproperty⟩ := h
  obtain ⟨typed', htype', hproperty'⟩ := h'
  exact ⟨typed ++ typed', htype.append htype', hproperty.append hproperty'⟩

theorem flatMap {α : Type} {text face : α → Text} {parts : List α}
    (h : ∀ part ∈ parts, Resolves conv types properties (text part) (face part)) :
    Resolves conv types properties (parts.flatMap text) (parts.flatMap face) := by
  induction parts with
  | nil => exact ⟨[], Rewrites.nil, Rewrites.nil⟩
  | cons part parts ih =>
    rw [List.forall_mem_cons] at h
    rw [List.flatMap_cons, List.flatMap_cons]
    exact h.1.append (ih h.2)

/-- A text without a bracket stays. -/
theorem plain (ht : '[' ∉ t) : Resolves conv types properties t t :=
  ⟨t, (opensWith_typeLink conv).rewrites_self _ ht,
    (opensWith_propertyLink conv).rewrites_self _ ht⟩

end Resolves

/-! ### Links between other text -/

/-- What is written for a link: an anchor to the page of its target around the visible text if the
target is documented, and the visible text if not. -/
def Spelling.image (conv : Conventions) (types : TypeCatalog) (properties : PropertyCatalog)
    (s : Spelling) : Text :=
  match s.kind with
  | .type _ =>
    if types.has (typeName s.target) then anchor (conv.typeUrl (typeName s.target)) s.visible
    else s.visible
  | .property =>
    match properties.get? s.target with
    | some path => anchor (conv.propertyUrl path) s.visible
    | none => s.visible

/-- A part of a text. -/
inductive Part where
  /-- Text without a bracket. -/
  | plain (text : Text) (noBracket : '[' ∉ text)
  /-- A link. -/
  | link (spelling : Spelling)

namespace Part

/-- The part as it is written. -/
def text (conv : Conventions) : Part → Text
  | plain text _ => text
  | link spelling => spelling.text conv

/-- What is written for the part. -/
def image (conv : Conventions) (types : TypeCatalog) (properties : PropertyCatalog) : Part → Text
  | plain text _ => text
  | link spelling => spelling.image conv types properties

end Part

section Parts

variable {conv : Conventions} (types : TypeCatalog) (properties : PropertyCatalog)
variable (hbase : '[' ∉ conv.baseUrl) (hdirectory : '[' ∉ conv.typeDirectory)
variable (hextension : OpensNoType conv.extension)
include hbase hdirectory hextension

/-- A link is resolved by itself. The first pass finds a link to a type and leaves no bracket to the
second; it finds nothing in a link to a property, which the second one finds. -/
theorem Spelling.resolves_text (s : Spelling) :
    Resolves conv types properties (s.text conv) (s.image conv types properties) := by
  cases hkind : s.kind with
  | type more =>
    have hfound := s.typeLink_text conv hkind
    have hvisible : '[' ∉ s.visible := (exists_of_typeLink (hfound [])).2.2.1
    have himage : s.image conv types properties = typeImage conv types s.toWritten := by
      simp only [image, hkind, typeImage, TypeCatalog.documents, Key.typeName_typeName, toWritten]
    rw [himage]
    refine ⟨_, (opensWith_typeLink conv).rewrites_found _ hfound,
      (opensWith_propertyLink conv).rewrites_self _ ?_⟩
    exact not_mem_typeImage hvisible s.isTargetChar_target hbase hdirectory
  | property =>
    have himage : s.image conv types properties = propertyImage conv properties s.toWritten := by
      simp only [image, hkind]
      rfl
    rw [himage]
    refine ⟨s.text conv, Rewrites.of_none ?_,
      (opensWith_propertyLink conv).rewrites_found _ (s.propertyLink_text conv hkind)⟩
    intro behind hbehind hne rest
    -- A link to a type would have to begin inside the link, since this ends in a parenthesis.
    cases hfound : typeLink conv (behind ++ rest) with
    | none => rfl
    | some found =>
      obtain ⟨w, hw, hstarts⟩ := exists_opening_of_typeLink hfound
      have hlast : ∀ m ∈ behind.getLast?, m ∉ w := by
        intro m hm
        have hm' : behind.getLast? = some m := hm
        obtain ⟨front, hfront⟩ := hbehind
        have hend : (s.text conv).getLast? = some ')' := getLast?_text
        rw [← hfront, List.getLast?_append_of_ne_nil _ hne, hm'] at hend
        rw [Option.some.inj hend]
        exact (not_mem_typeOpening hw).2.2.2.2.2.2
      rw [startsWith_append_of_getLast? hne hlast, includes_eq_false_iff.1
        (opensNoType_text hkind hextension w hw) behind hbehind] at hstarts
      cases hstarts

/-- Resolving a text resolves its links one by one and leaves the rest as it is, however many links
there are and wherever they stand. -/
theorem resolve_parts (parts : List Part) :
    resolve conv types properties (parts.flatMap (Part.text conv)) =
      parts.flatMap (Part.image conv types properties) := by
  refine (Resolves.flatMap fun part _ => ?_).resolve_eq
  cases part with
  | plain text noBracket => exact Resolves.plain noBracket
  | link spelling => exact spelling.resolves_text types properties hbase hdirectory hextension

end Parts

/-- Links of both kinds side by side, with and without a page, under an extension with a bracket. -/
theorem resolve_parts_adjacent :
    let conv : Conventions := { extension := "md[x]".toList }
    let types := TypeCatalog.ofNames ["text-align".toList]
    let properties : PropertyCatalog := Table.ofList [("grid_rows".toList, "styles/rows".toList)]
    let documentedType : Spelling :=
      { kind := .type 1, name := "align".toList, opening := true, closing := true
        target := "text_align".toList, isName := by decide, hasTarget := by decide
        isTarget := by decide, isFragment := by decide }
    let documentedProperty : Spelling :=
      { kind := .property, name := "rows".toList, target := "grid_rows".toList
        fragment := some "end".toList, isName := by decide, hasTarget := by decide
        isTarget := by decide, isFragment := by decide }
    let unknownType : Spelling :=
      { kind := .type 0, name := "a".toList, target := "b".toList, isName := by decide
        hasTarget := by decide, isTarget := by decide, isFragment := by decide }
    let parts : List Part :=
      [.plain "x](".toList (by decide), .link documentedType, .link documentedProperty,
        .link unknownType, .plain ")".toList (by decide)]
    ('[' ∉ conv.baseUrl ∧ '[' ∉ conv.typeDirectory ∧ OpensNoType conv.extension) ∧
      parts.flatMap (Part.text conv) = ("x]([`<align>`](../../css_types/text_align.md[x])" ++
        "[rows](./grid_rows.md[x]#end)[<a>](../css_types/b.md[x]))").toList ∧
      resolve conv types properties (parts.flatMap (Part.text conv)) =
        ("x](<a href=\"https://textual.textualize.io/css_types/text-align/\">`<align>`</a>" ++
          "<a href=\"https://textual.textualize.io/styles/rows/\">rows</a><a>)").toList := by
  intro conv types properties documentedType documentedProperty unknownType parts
  have hbase : '[' ∉ conv.baseUrl := by decide
  have hdirectory : '[' ∉ conv.typeDirectory := by decide
  have hextension : OpensNoType conv.extension := by decide
  refine ⟨⟨hbase, hdirectory, hextension⟩, by decide, ?_⟩
  rw [resolve_parts types properties hbase hdirectory hextension]
  decide +kernel

/-- Under an extension that opens a link to a type, what is written for two links side by side is
not what is written for each. -/
theorem resolve_opening_extension :
    let conv : Conventions := { extension := ")[<a>](../css_types/b.".toList }
    let property : Spelling :=
      { kind := .property, name := "p".toList, target := "s".toList, isName := by decide
        hasTarget := by decide, isTarget := by decide, isFragment := by decide }
    let type : Spelling :=
      { kind := .type 0, name := "a".toList, target := "b".toList, isName := by decide
        hasTarget := by decide, isTarget := by decide, isFragment := by decide }
    let parts : List Part := [.link property, .link type]
    '[' ∉ conv.baseUrl ∧ '[' ∉ conv.typeDirectory ∧
      resolve conv .empty .empty (parts.flatMap (Part.text conv)) =
        "[p](./s.)<a>[<a>](../css_types/b.)".toList ∧
      parts.flatMap (Part.image conv .empty .empty) = "p<a>".toList := by
  decide +kernel

end StyleDocs.Link
