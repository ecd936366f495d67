import StyleDocs.Document
import StyleDocs.Proofs.Link.Grammar

/-!
# A grammar with links that is published

The grammar of a property goes from its section through the filter of lines and the cleaning of tags
to the resolution of its links. Followed through all of these, a grammar on one line is published
with an image for each link and everything else as it is written, white space at its ends aside.
Only a link that shows an anchor tag is not: cleaning takes the tag, and with it the link is lost.
-/

namespace StyleDocs.Document

open Text Markdown Link

/-- A document around a grammar on one line between two fences. -/
structure Frame where
  /-- What stands before the heading of the section. -/
  before : Text
  /-- The number of blank lines before the first fence. -/
  blanks : Nat
  /-- What stands behind the ticks of the first fence. -/
  info : Text
  /-- The number of line feeds behind the ticks of the second fence. -/
  breaks : Nat
  /-- What stands behind the section. -/
  behind : Text
  /-- The heading is on a line of its own. -/
  isWhole : openLine before = []
  /-- No fence is open before it. -/
  isPaired : Even ((pieces before).countP isFence)
  /-- It is the first with its title. -/
  isFirst : ∀ line ∈ outline before, isHeaded "Syntax".toList line = false
  /-- The first fence is one line. -/
  oneLine : '\n' ∉ info
  /-- So is the second, if anything follows it. -/
  isClosed : breaks ≠ 0 ∨ behind = []
  /-- What stands behind the section begins with a heading. -/
  isHeading : (outline behind).head?.all fun line => line.2.isSome

namespace Frame

variable (frame : Frame) {grammar : Text}

/-- The section of a grammar. -/
def body (grammar : Text) : Text :=
  List.replicate frame.blanks '\n' ++ (ticks ++ frame.info ++ '\n' :: (grammar ++ '\n' ::
    (ticks ++ List.replicate frame.breaks '\n')))

/-- The document of a grammar. -/
def text (grammar : Text) : Text :=
  frame.before ++ "## Syntax\n".toList ++ frame.body grammar ++ frame.behind

/-! ### The section -/

theorem pieces_blanks_append (n : Nat) (rest : Text) :
    pieces (List.replicate n '\n' ++ rest) = List.replicate n ['\n'] ++ pieces rest := by
  rw [← Passage.text_blank]
  exact pieces_flatten_append (Passage.blank n).isLine rest

/-- The pieces of the section are a block of code between blank lines. -/
theorem exists_pieces_body (h : '\n' ∉ grammar) :
    ∃ stop n, isFence stop = true ∧ pieces (frame.body grammar) =
      List.replicate frame.blanks ['\n'] ++ (Passage.opening frame.info ::
        (Passage.codeLines grammar ++ [stop])) ++ List.replicate n ['\n'] := by
  -- Whether the second fence ends with a line feed is the only difference.
  obtain ⟨stop, n, hstop, hpieces⟩ : ∃ stop n, isFence stop = true ∧
      pieces (ticks ++ List.replicate frame.breaks '\n') = stop :: List.replicate n ['\n'] := by
    cases frame.breaks with
    | zero => exact ⟨ticks, 0, by decide, by decide⟩
    | succ n =>
      refine ⟨Passage.closing, n, by decide, ?_⟩
      have hblanks := pieces_blanks_append n []
      rw [List.append_nil] at hblanks
      have hclosing := pieces_line_append (t := ticks) (by decide) (List.replicate n '\n')
      rw [List.replicate_succ, hclosing, hblanks, show pieces [] = [] from rfl, List.append_nil]
      rfl
  have hopening : '\n' ∉ ticks ++ frame.info := by
    rw [List.mem_append, not_or]
    exact ⟨by decide, frame.oneLine⟩
  refine ⟨stop, n, hstop, ?_⟩
  rw [body, pieces_blanks_append, pieces_line_append hopening, pieces_line_append h, hpieces,
    Passage.codeLines, splitAt_of_not_mem h]
  simp [Passage.opening]

/-- The section leaves no fence open and has no heading. -/
theorem outline_body (h : '\n' ∉ grammar) (hfence : isFence grammar = false) :
    Even ((pieces (frame.body grammar)).countP isFence) ∧
      ∀ line ∈ outline (frame.body grammar), line.2 = none := by
  obtain ⟨stop, n, hstop, hpieces⟩ := frame.exists_pieces_body h
  have hstart := Passage.isFence_opening frame.info
  have hcode : ∀ line ∈ Passage.codeLines grammar, isFence line = false := by
    refine Passage.isFence_codeLines ?_
    rw [splitAt_of_not_mem h]
    exact List.forall_mem_singleton.2 hfence
  have hblank : Even ((List.replicate frame.blanks ['\n']).countP isFence) :=
    (Passage.blank frame.blanks).paired
  have hblock := even_countP_block hstart hstop hcode
  have hfront : Even ((List.replicate frame.blanks ['\n'] ++ (Passage.opening frame.info ::
      (Passage.codeLines grammar ++ [stop]))).countP isFence) := by
    rw [List.countP_append]
    exact hblank.add hblock
  rw [outline_eq, hpieces]
  refine ⟨?_, ?_⟩
  · rw [List.countP_append]
    exact hfront.add (Passage.blank n).paired
  · rw [marked_append hfront, marked_append hblank, List.forall_mem_append,
      List.forall_mem_append]
    exact ⟨⟨(Passage.blank frame.blanks).plain, mem_marked_block hstart hstop hcode⟩,
      (Passage.blank n).plain⟩

/-- The section is found in the document. -/
theorem section?_text (h : '\n' ∉ grammar) (hfence : isFence grammar = false) :
    Markdown.section? (frame.text grammar) "Syntax".toList = some (frame.body grammar) := by
  have hwhole : openLine (frame.body grammar) = [] ∨ frame.behind = [] := by
    refine frame.isClosed.imp_left fun hbreaks => ?_
    obtain ⟨n, hn⟩ := Nat.exists_eq_succ_of_ne_zero hbreaks
    have hend : frame.body grammar = (List.replicate frame.blanks '\n' ++ (ticks ++ frame.info ++
        '\n' :: (grammar ++ '\n' :: (ticks ++ List.replicate n '\n')))) ++ ['\n'] := by
      simp [body, hn, List.replicate_succ']
    rw [hend, openLine_concat_newline]
  have hheading : headingTitle? "## Syntax\n".toList = some "Syntax".toList := by decide
  exact section?_between (by decide) hheading (by decide)
    ⟨frame.isWhole, frame.isPaired, frame.isFirst⟩ (frame.outline_body h hfence) hwhole
    frame.isHeading

/-- Of the section, the grammar is cleaned. -/
theorem exists_grammarText_body (h : '\n' ∉ grammar) (hreturn : '\r' ∉ grammar)
    (hstays : staysInGrammar "--8<--".toList grammar = true) :
    ∃ n, grammarText "--8<--".toList (frame.body grammar) = strip
      (dropAnchors (List.replicate frame.blanks '\n' ++ grammar ++ List.replicate n '\n')) := by
  obtain ⟨stop, n, hstop, hpieces⟩ := frame.exists_pieces_body h
  have hcode : ∀ line ∈ splitAt '\n' grammar, staysInGrammar "--8<--".toList line = true := by
    rw [splitAt_of_not_mem h]
    exact List.forall_mem_singleton.2 hstays
  refine ⟨n, ?_⟩
  rw [grammarText, lines, hpieces,
    filter_block (Passage.isFence_opening frame.info) hstop hreturn hcode, joinWith_blanks]

end Frame

/-! ### The grammar -/

section Grammar

variable (frame : Frame) (types : TypeCatalog) (properties : PropertyCatalog)
variable {parts : List Link.Part}
variable (hparts : ∀ part ∈ parts, part.InGrammar)
include hparts

/-- A grammar is cleaned part by part. -/
theorem grammarText_body_parts :
    grammarText "--8<--".toList (frame.body (parts.flatMap (Link.Part.text {}))) =
      strip (parts.flatMap (Link.Part.cleaned {})) := by
  have hstays : staysInGrammar "--8<--".toList (parts.flatMap (Link.Part.text {})) = true := by
    rw [staysInGrammar, isFence_flatMap_text hparts, includes_flatMap_text hparts]
    rfl
  obtain ⟨n, hcleaned⟩ := frame.exists_grammarText_body (not_mem_flatMap_text hparts (Or.inr rfl))
    (not_mem_flatMap_text hparts (Or.inl rfl)) hstays
  have hblanks : ∀ k, Rewrites anchorTag (fun _ => []) (List.replicate k '\n')
      (List.replicate k '\n') := by
    intro k
    refine opensWith_anchorTag.rewrites_self _ fun hmem => ?_
    exact absurd (List.eq_of_mem_replicate hmem) (by decide)
  have hcleans := Rewrites.flatMap fun part hpart => Link.Part.rewrites_cleaned (hparts part hpart)
  have hrewrites := ((hblanks frame.blanks).append hcleans).append (hblanks n)
  rw [hcleaned, dropAnchors, hrewrites.substitute_eq]
  exact trimEnds_between (isBlank_of_mem_replicate _) (isBlank_of_mem_replicate _) _

/-- The grammar of the document is what is published for its parts. -/
theorem grammar_text_parts (hwritten : allBlank (parts.flatMap (Link.Part.text {})) = false) :
    (record {} types properties (frame.text (parts.flatMap (Link.Part.text {})))).grammar =
      some (strip (parts.flatMap (Link.Part.published {} types properties))) := by
  obtain ⟨rest, hrest, hfaces⟩ := exists_strip_flatMap hparts
  have hsection := frame.section?_text (not_mem_flatMap_text hparts (Or.inr rfl))
    (isFence_flatMap_text hparts)
  have hne : strip (parts.flatMap (Link.Part.cleaned {})) ≠ [] := by
    intro hnil
    rw [← allBlank_flatMap_cleaned, allBlank_of_strip_eq_nil hnil] at hwritten
    cases hwritten
  have hresolve : Link.resolve {} types properties (strip (parts.flatMap (Link.Part.cleaned {}))) =
      strip (parts.flatMap (Link.Part.published {} types properties)) := by
    rw [hfaces _ (isFace_cleaned {}), hfaces _ (isFace_published {} types properties)]
    exact (Resolves.flatMap fun part hpart =>
      Link.Part.resolves_cleaned types properties (hrest part hpart)).resolve_eq
  have hread : ∀ doc, (record {} types properties doc).grammar =
      grammar? {} types properties doc := fun _ => rfl
  have hheading : ({} : Conventions).headings.grammar = "Syntax".toList := rfl
  rw [hread, grammar?, hheading, hsection]
  dsimp only
  rw [grammarText_body_parts frame hparts, hresolve, if_neg (by simpa using hne)]

/-- The grammar of a document is read from its section as its parts are written, and published with
the images of all its links exactly if no link shows an anchor tag. -/
theorem grammar_parts (hwritten : allBlank (parts.flatMap (Link.Part.text {})) = false) :
    (record {} types properties (frame.text (parts.flatMap (Link.Part.text {})))).grammar =
        some (strip (parts.flatMap (Link.Part.published {} types properties))) ∧
      ((record {} types properties (frame.text (parts.flatMap (Link.Part.text {})))).grammar =
          some (strip (parts.flatMap (Link.Part.image {} types properties))) ↔
        ∀ part ∈ parts, ¬part.ShowsTag) := by
  have hgrammar := grammar_text_parts frame types properties hparts hwritten
  refine ⟨hgrammar, ?_⟩
  rw [hgrammar]
  constructor
  · -- A link that shows a tag has fewer angle brackets left than its image has.
    intro heq part hpart htag
    have hcount := congrArg (List.count '<') (Option.some.inj heq)
    rw [count_strip (by decide), count_strip (by decide)] at hcount
    exact absurd hcount (Nat.ne_of_lt
      (count_flatMap_published_lt types properties hparts ⟨part, hpart, htag⟩))
  · intro hnone
    have hsame : parts.flatMap (Link.Part.published {} types properties) =
        parts.flatMap (Link.Part.image {} types properties) :=
      List.flatMap_congr fun part hpart => part.published_eq_image types properties {}
        (hnone part hpart)
    rw [hsame]

end Grammar

/-- A grammar with links of both kinds, in a section behind one that only looks like it and in front
of another. -/
theorem grammar_parts_align :
    let frame : Frame :=
      { before := "# Align\n```\n## Syntax\n```\n".toList, blanks := 1, info := "css".toList
        breaks := 2, behind := "## CSS\n```".toList, isWhole := by decide, isPaired := by decide
        isFirst := by decide, oneLine := by decide, isClosed := by decide, isHeading := by decide }
    let types := TypeCatalog.ofNames ["text_align".toList]
    let properties : PropertyCatalog := Table.ofList [("dock".toList, "styles/dock".toList)]
    let ofType : Spelling :=
      { kind := .type 1, name := "align".toList, opening := true, closing := true
        target := "text_align".toList, isName := by decide, hasTarget := by decide
        isTarget := by decide, isFragment := by decide }
    let ofProperty : Spelling :=
      { kind := .property, name := "a".toList, target := "dock".toList, isName := by decide
        hasTarget := by decide, isTarget := by decide, isFragment := by decide }
    let unknown : Spelling :=
      { kind := .type 0, name := "b".toList, target := "b".toList, isName := by decide
        hasTarget := by decide, isTarget := by decide, isFragment := by decide }
    let parts : List Link.Part :=
      [.plain " align: ".toList (by decide), .link ofType, .link ofProperty,
        .plain " | ".toList (by decide), .link unknown, .plain "; ".toList (by decide)]
    (∀ part ∈ parts, part.InGrammar) ∧ allBlank (parts.flatMap (Link.Part.text {})) = false ∧
      frame.text (parts.flatMap (Link.Part.text {})) =
        ("# Align\n```\n## Syntax\n```\n## Syntax\n\n```css\n " ++
          "align: [`<align>`](../../css_types/text_align.md)[a](./dock.md) | " ++
          "[<b>](../css_types/b.md); \n```\n\n## CSS\n```").toList ∧
      (record {} types properties (frame.text (parts.flatMap (Link.Part.text {})))).grammar = some
        ("align: <a href=\"https://textual.textualize.io/css_types/text-align/\">`<align>`</a>" ++
          "<a href=\"https://textual.textualize.io/styles/dock/\">a</a> | <b>;").toList := by
  intro frame types properties ofType ofProperty unknown parts
  have hparts : ∀ part ∈ parts, part.InGrammar := by decide
  have hwritten : allBlank (parts.flatMap (Link.Part.text {})) = false := by decide
  have htag : ∀ part ∈ parts, ¬part.ShowsTag := by decide
  refine ⟨hparts, hwritten, by decide +kernel, ?_⟩
  rw [(grammar_parts frame types properties hparts hwritten).2.2 htag]
  decide +kernel

/-- A link to a documented type that shows an anchor tag is lost. -/
theorem grammar_parts_tag :
    let frame : Frame :=
      { before := [], blanks := 1, info := [], breaks := 1, behind := [], isWhole := rfl
        isPaired := by decide, isFirst := by decide, oneLine := by decide, isClosed := by decide
        isHeading := by decide }
    let types := TypeCatalog.ofNames ["a".toList]
    let link : Spelling :=
      { kind := .type 0, name := "a".toList, target := "a".toList, isName := by decide
        hasTarget := by decide, isTarget := by decide, isFragment := by decide }
    let parts : List Link.Part :=
      [.plain "x: ".toList (by decide), .link link, .plain ";".toList (by decide)]
    (∀ part ∈ parts, part.InGrammar) ∧ allBlank (parts.flatMap (Link.Part.text {})) = false ∧
      frame.text (parts.flatMap (Link.Part.text {})) =
        "## Syntax\n\n```\nx: [<a>](../css_types/a.md);\n```\n".toList ∧
      (record {} types .empty (frame.text (parts.flatMap (Link.Part.text {})))).grammar =
        some "x: [](../css_types/a.md);".toList ∧
      strip (parts.flatMap (Link.Part.image {} types .empty)) =
        "x: <a href=\"https://textual.textualize.io/css_types/a/\"><a></a>;".toList := by
  decide +kernel

end StyleDocs.Document
