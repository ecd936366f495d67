import StyleDocs.Document
import StyleDocs.Proofs.Markdown.Cleanup
import StyleDocs.Proofs.Markdown.CodeBlock
import StyleDocs.Proofs.Markdown.InlineLink

/-!
# Complete recovery of a well-formed document

A well-formed document is a title and some of five parts, each at most once, in any order and with
any number of blank lines around their contents. The five passes of reading such a document are
independent, and each of them finds its own part and nothing in the others: the record of the
document holds exactly what the parts say, in their order.
-/

namespace StyleDocs.Document

open Text Markdown

/-! ### Parts -/

/-- A part of a well-formed document. -/
inductive Part where
  /-- The grammar between fences. -/
  | grammar (body : GrammarBody)
  /-- The table of values. -/
  | values (table : WrittenTable)
  /-- The style sheet example. -/
  | css (code : CodeBody)
  /-- The example in the second language with one of its labels. -/
  | second (label : Text) (known : label ∈ ["python".toList, "py".toList]) (code : CodeBody)
  /-- The links to related properties. -/
  | seeAlso (links : List ListedLink)

namespace Part

/-- The title over a part. -/
def title : Part → Text
  | grammar _ => "Syntax".toList
  | values _ => "Values".toList
  | css _ => "CSS".toList
  | second _ _ _ => "Python".toList
  | seeAlso _ => "See also".toList

/-- The line of the title. -/
def heading (part : Part) : Text := "## ".toList ++ part.title ++ ['\n']

/-- The content of a part as it is written. -/
def text : Part → Text
  | grammar body => Passage.fencedText [] body.text
  | values table => table.lines.flatten
  | css code => Passage.fencedText "css".toList code.text
  | second label _ code => Passage.fencedText label code.text
  | seeAlso links => (links.map ListedLink.line).flatten

/-- The record with what a part says in its field. -/
def into (record : PropertyRecord) : Part → PropertyRecord
  | grammar body => { record with grammar := some body.text }
  | values table => { record with values := table.values }
  | css code => { record with cssExample := some code.text }
  | second _ _ code => { record with secondExample := some code.text }
  | seeAlso links => { record with seeAlso := links.map ListedLink.text }

end Part

/-- A part with the number of blank lines in front of its content and behind it. -/
structure Placed where
  /-- The part. -/
  part : Part
  /-- Blank lines between the title and the content. -/
  before : Nat
  /-- Blank lines behind the content. -/
  behind : Nat

/-- A placed part as it is written. -/
def Placed.text (placed : Placed) : Text :=
  placed.part.heading ++ List.replicate placed.before '\n' ++ placed.part.text ++
    List.replicate placed.behind '\n'

/-- A well-formed document. -/
structure Layout where
  /-- Blank lines behind the title of the document. -/
  behind : Nat
  /-- The parts, in order. -/
  parts : List Placed
  /-- No part occurs twice. -/
  once : (parts.map fun placed => placed.part.title).Nodup

namespace Layout

/-- A well-formed document as it is written. -/
def text (layout : Layout) : Text :=
  "# Doc\n".toList ++ List.replicate layout.behind '\n' ++ (layout.parts.map Placed.text).flatten

/-- What the parts say, each in its field. -/
def recordOf (parts : List Placed) : PropertyRecord :=
  parts.foldr (fun placed record => placed.part.into record) {}

/-- What a well-formed document says. -/
def record (layout : Layout) : PropertyRecord := recordOf layout.parts

end Layout

/-! ### Parts as chunks -/

theorem isLabel_css : IsLabel ["css".toList] "css".toList where
  oneLine := by decide
  first := ⟨[], [], rfl, by simp⟩
  noGap := by decide
  edge := by decide +kernel

theorem isLabel_second {label : Text} (h : label ∈ ["python".toList, "py".toList]) :
    IsLabel ["python".toList, "py".toList] label := by
  rw [List.mem_cons, List.mem_singleton] at h
  rcases h with rfl | rfl
  · exact ⟨by decide, ⟨[], ["py".toList], rfl, by simp⟩, by decide, by decide +kernel⟩
  · exact ⟨by decide, ⟨["python".toList], [], rfl, by decide⟩, by decide, by decide +kernel⟩

namespace Part

/-- The content of a part as a passage. -/
def passage : Part → Passage
  | grammar body => body.passage
  | values table => table.passage
  | css code => code.passage "css".toList isLabel_css.oneLine
  | second label known code => code.passage label (isLabel_second known).oneLine
  | seeAlso links => linkPassage links

theorem text_passage (part : Part) : part.passage.text = part.text := by
  cases part with
  | grammar body => exact Passage.text_block [] body.text (by simp) body.noFence
  | values table => rfl
  | css code => exact Passage.text_block "css".toList code.text (by decide) code.not_isFence
  | second label known code =>
    exact Passage.text_block label code.text (isLabel_second known).oneLine code.not_isFence
  | seeAlso links => rfl

/-- The part under the title of the table is the table. -/
theorem exists_of_title_eq {part : Part} (h : part.title = "Values".toList) :
    ∃ table, part = values table := by
  have hsame : (part.title == "Values".toList) = true := beq_iff_eq.2 h
  cases part with
  | values table => exact ⟨table, rfl⟩
  | grammar | css | second | seeAlso => exact absurd hsame Bool.false_ne_true

/-- The rows of a part are the values that it says. -/
theorem rows_passage (part : Part) :
    part.passage.rows = (part.into {}).values.pairs := by
  cases part with
  | grammar body => exact Passage.rows_block [] body.text (by simp) body.noFence
  | values table => exact table.rows_passage
  | css code => exact Passage.rows_block "css".toList code.text (by decide) code.not_isFence
  | second label known code =>
    exact Passage.rows_block label code.text (isLabel_second known).oneLine code.not_isFence
  | seeAlso links => exact rows_linkPassage links

/-- The titles of the parts. -/
def titles : List Text :=
  ["Syntax".toList, "Values".toList, "CSS".toList, "Python".toList, "See also".toList]

theorem title_mem (part : Part) : part.title ∈ titles := by
  cases part <;> exact List.elem_iff.1 rfl

theorem headingTitle?_heading (part : Part) : headingTitle? part.heading = some part.title := by
  have h : ∀ t ∈ titles, headingTitle? ("## ".toList ++ t ++ ['\n']) = some t := by decide
  exact h part.title part.title_mem

theorem isLine_heading (part : Part) : IsLine part.heading := by
  have h : ∀ t ∈ titles, IsLine ("## ".toList ++ t ++ ['\n']) := by decide
  exact h part.title part.title_mem

/-- The line of a title is no row. -/
theorem row?_heading (part : Part) : row? (chomp part.heading) = none := by
  have h : ∀ t ∈ titles, row? (chomp ("## ".toList ++ t ++ ['\n'])) = none := by decide
  exact h part.title part.title_mem

end Part

/-- A placed part as a chunk. -/
def Placed.chunk (placed : Placed) : Chunk where
  heading := placed.part.heading
  isLine := placed.part.isLine_heading
  title := placed.part.title
  isHeading := placed.part.headingTitle?_heading
  body := Passage.blank placed.before ++ placed.part.passage ++ Passage.blank placed.behind

namespace Layout

/-- The title of the document as a chunk. -/
def docChunk (behind : Nat) : Chunk where
  heading := "# Doc\n".toList
  isLine := by decide
  title := "Doc".toList
  isHeading := by decide
  body := .blank behind

/-- A well-formed document is sectioned. -/
def sectioned (layout : Layout) : Sectioned where
  preamble := .empty
  chunks := docChunk layout.behind :: layout.parts.map Placed.chunk

theorem text_sectioned (layout : Layout) : layout.sectioned.text = layout.text := by
  have hplaced : ∀ placed : Placed, placed.chunk.lines.flatten = placed.text := by
    intro placed
    rw [Chunk.lines, List.flatten_cons]
    change placed.part.heading ++ (Passage.blank placed.before ++ placed.part.passage ++
      Passage.blank placed.behind).text = placed.text
    rw [Passage.text_between_blanks, placed.part.text_passage, Placed.text]
    simp only [List.append_assoc]
  have hparts : ((layout.parts.map Placed.chunk).flatMap Chunk.lines).flatten =
      (layout.parts.map Placed.text).flatten := by
    rw [List.flatMap_map]
    induction layout.parts with
    | nil => rfl
    | cons placed rest ih =>
      rw [List.flatMap_cons, List.flatten_append, ih, hplaced, List.map_cons, List.flatten_cons]
  rw [sectioned, Sectioned.text, List.flatMap_cons, List.flatten_append, hparts]
  change [] ++ (("# Doc\n".toList ++ (Passage.blank layout.behind).text) ++
    (layout.parts.map Placed.text).flatten) = layout.text
  rw [Passage.text_blank, List.nil_append]
  rfl

/-! ### What is read -/

/-- A field that is read from the section with a title has what the part with the title says, if the
other parts leave it as it is. -/
theorem field_recordOf {α : Type} (field : PropertyRecord → α) (read : Option Text → α)
    (title : Text) (hnone : read none = field {})
    (hown : ∀ (placed : Placed) record, sameIgnoringCase placed.part.title title = true →
      read (some placed.chunk.body.text) = field (placed.part.into record))
    (hother : ∀ (part : Part) record, sameIgnoringCase part.title title = false →
      field (part.into record) = field record) (parts : List Placed) :
    read (((parts.map Placed.chunk).find? fun chunk =>
      sameIgnoringCase chunk.title title).map fun chunk => chunk.body.text) =
        field (recordOf parts) := by
  induction parts with
  | nil => exact hnone
  | cons placed rest ih =>
    rw [List.map_cons, List.find?_cons]
    cases h : sameIgnoringCase placed.chunk.title title with
    | true => exact hown placed (recordOf rest) h
    | false => exact ih.trans (hother placed.part (recordOf rest) h).symm

/-- The rows of the parts are the rows of the table, if there is one. -/
theorem rows_parts {parts : List Placed}
    (once : (parts.map fun placed => placed.part.title).Nodup) :
    (parts.flatMap fun placed => placed.part.passage.rows) = (recordOf parts).values.pairs := by
  -- A part that is not the table has no rows and leaves the values as they are.
  have hother : ∀ (part : Part) record, part.title ≠ "Values".toList →
      part.passage.rows = [] ∧ (part.into record).values = record.values := by
    intro part record htitle
    rw [part.rows_passage]
    cases part with
    | values table => exact absurd rfl htitle
    | grammar | css | second | seeAlso => exact ⟨rfl, rfl⟩
  induction parts with
  | nil => rfl
  | cons placed rest ih =>
    rw [List.map_cons, List.nodup_cons] at once
    rw [List.flatMap_cons]
    by_cases h : placed.part.title = "Values".toList
    · have hrest : (rest.flatMap fun placed => placed.part.passage.rows) = [] := by
        rw [List.flatMap_eq_nil_iff]
        intro later hlater
        have htitle : later.part.title ≠ "Values".toList := fun heq =>
          once.1 (List.mem_map.2 ⟨later, hlater, heq.trans h.symm⟩)
        exact (hother later.part {} htitle).1
      have hvalues : (placed.part.into {}).values.pairs =
          (placed.part.into (recordOf rest)).values.pairs := by
        obtain ⟨table, htable⟩ := Part.exists_of_title_eq h
        rw [htable]
        rfl
      rw [hrest, List.append_nil, placed.part.rows_passage, hvalues]
      rfl
    · obtain ⟨hrows, hvalues⟩ := hother placed.part (recordOf rest) h
      rw [hrows, List.nil_append, ih once.2]
      exact congrArg ValueList.pairs hvalues.symm

/-- The rows of a well-formed document are the rows of its table. -/
theorem rows_text (layout : Layout) : rows layout.text = layout.record.values.pairs := by
  have hchunk : ∀ placed : Placed, rowsAmong placed.chunk.lines = placed.part.passage.rows := by
    intro placed
    have hheading : row? (chomp placed.chunk.heading) = none := placed.part.row?_heading
    have hbody : placed.chunk.body.rows = placed.part.passage.rows :=
      Passage.rows_between_blanks placed.before placed.behind placed.part.passage
    rw [Chunk.rowsAmong_lines, hheading, hbody]
    rfl
  have hdoc : rowsAmong (docChunk layout.behind).lines = [] := by
    rw [Chunk.rowsAmong_lines]
    exact Passage.rows_blank layout.behind
  have hparts : (layout.parts.map Placed.chunk).flatMap (fun chunk => rowsAmong chunk.lines) =
      layout.parts.flatMap fun placed => placed.part.passage.rows := by
    rw [List.flatMap_map]
    exact congrArg (layout.parts.flatMap ·) (funext hchunk)
  rw [← layout.text_sectioned, Sectioned.rows_text, sectioned, List.flatMap_cons, hdoc, hparts,
    rows_parts layout.once]
  rfl

theorem values_text (layout : Layout) : valueTable layout.text = layout.record.values := by
  apply ValueList.eq_of_pairs_eq
  rw [valueTable, layout.rows_text]
  exact ValueList.pairs_ofPairs layout.record.values.distinct

/-- The section of a well-formed document with the title of a part is found behind the title of the
document. -/
theorem section?_text (layout : Layout) {title : Text}
    (h : sameIgnoringCase "Doc".toList title = false) :
    Markdown.section? layout.text title = ((layout.parts.map Placed.chunk).find? fun chunk =>
      sameIgnoringCase chunk.title title).map fun chunk => chunk.body.text := by
  have hdoc : sameIgnoringCase (docChunk layout.behind).title title = false := h
  rw [← layout.text_sectioned, Markdown.section?_text, Sectioned.body?, sectioned,
    List.find?_cons_of_neg (by simp [hdoc])]

/-- The grammar in the body of its section. -/
def grammarIn? (types : TypeCatalog) (properties : PropertyCatalog) (body : Text) : Option Text :=
  let cleaned := grammarText "--8<--".toList body
  if cleaned.isEmpty then none else some (Link.resolve {} types properties cleaned)

theorem grammarIn?_text (body : GrammarBody) (types : TypeCatalog) (properties : PropertyCatalog)
    (n m : Nat) :
    grammarIn? types properties (Passage.blank n ++ body.passage ++ Passage.blank m).text =
      some body.text := by
  rw [grammarIn?, body.grammarText_text, body.resolve_text, if_neg (by simp [body.written])]

theorem grammar_text (layout : Layout) (types : TypeCatalog) (properties : PropertyCatalog) :
    grammar? {} types properties layout.text = layout.record.grammar := by
  have hread : grammar? {} types properties layout.text =
      (section? layout.text "Syntax".toList).bind (grammarIn? types properties) := by
    rw [grammar?]
    cases section? layout.text "Syntax".toList <;> rfl
  rw [hread, layout.section?_text (by decide)]
  refine field_recordOf PropertyRecord.grammar (·.bind (grammarIn? types properties))
    "Syntax".toList rfl (fun placed record h => ?_) (fun part record h => ?_) layout.parts
  · obtain ⟨part, before, behind⟩ := placed
    cases part with
    | grammar body =>
      exact (Option.bind_some ..).trans (grammarIn?_text body types properties before behind)
    | values | css | second | seeAlso => exact absurd h Bool.false_ne_true
  · cases part with
    | grammar => exact absurd h.symm Bool.false_ne_true
    | values | css | second | seeAlso => rfl

theorem cssExample_text (layout : Layout) :
    exampleUnder? "CSS".toList ["css".toList] layout.text = layout.record.cssExample := by
  rw [exampleUnder?, layout.section?_text (by decide)]
  refine field_recordOf PropertyRecord.cssExample (·.bind (example? ["css".toList]))
    "CSS".toList rfl (fun placed record h => ?_) (fun part record h => ?_) layout.parts
  · obtain ⟨part, before, behind⟩ := placed
    cases part with
    | css code => exact example?_text isLabel_css code before behind
    | grammar | values | second | seeAlso => exact absurd h Bool.false_ne_true
  · cases part with
    | css => exact absurd h.symm Bool.false_ne_true
    | grammar | values | second | seeAlso => rfl

theorem secondExample_text (layout : Layout) :
    exampleUnder? "Python".toList ["python".toList, "py".toList] layout.text =
      layout.record.secondExample := by
  rw [exampleUnder?, layout.section?_text (by decide)]
  refine field_recordOf PropertyRecord.secondExample
    (·.bind (example? ["python".toList, "py".toList])) "Python".toList rfl
    (fun placed record h => ?_) (fun part record h => ?_) layout.parts
  · obtain ⟨part, before, behind⟩ := placed
    cases part with
    | second label known code => exact example?_text (isLabel_second known) code before behind
    | grammar | values | css | seeAlso => exact absurd h Bool.false_ne_true
  · cases part with
    | second => exact absurd h.symm Bool.false_ne_true
    | grammar | values | css | seeAlso => rfl

theorem seeAlso_text (layout : Layout) :
    Document.seeAlso {} layout.text = layout.record.seeAlso := by
  have hread : Document.seeAlso {} layout.text =
      ((section? layout.text "See also".toList).map linkLabels).getD [] := by
    rw [Document.seeAlso]
    cases section? layout.text "See also".toList <;> rfl
  rw [hread, layout.section?_text (by decide)]
  refine field_recordOf PropertyRecord.seeAlso (fun body => (body.map linkLabels).getD [])
    "See also".toList rfl (fun placed record h => ?_) (fun part record h => ?_) layout.parts
  · obtain ⟨part, before, behind⟩ := placed
    cases part with
    | seeAlso links => exact linkLabels_text links before behind
    | grammar | values | css | second => exact absurd h Bool.false_ne_true
  · cases part with
    | seeAlso => exact absurd h.symm Bool.false_ne_true
    | grammar | values | css | second => rfl

end Layout

/-- The record of a well-formed document says what the parts of the document say, whatever else is
documented. -/
theorem record_text (layout : Layout) (types : TypeCatalog) (properties : PropertyCatalog) :
    Document.record {} types properties layout.text = layout.record := by
  calc Document.record {} types properties layout.text
      = { values := valueTable layout.text
          grammar := grammar? {} types properties layout.text
          cssExample := exampleUnder? "CSS".toList ["css".toList] layout.text
          secondExample := exampleUnder? "Python".toList ["python".toList, "py".toList] layout.text
          seeAlso := Document.seeAlso {} layout.text } := rfl
    _ = layout.record := by
      rw [layout.values_text, layout.grammar_text, layout.cssExample_text,
        layout.secondExample_text, layout.seeAlso_text]

/-! ### A document with all parts -/

/-- Code with a line that looks like a heading and one that looks like a row. -/
def showCode : CodeBody where
  text := "# Show | hide\na | b".toList
  notBlank := by decide
  noBreak := by decide
  noBlankEnd := by decide
  noTicks := by decide
  noTildes := by decide

/-- A document with the five parts. -/
def displayLayout : Layout where
  behind := 1
  parts := [
    { before := 1, behind := 1
      part := .seeAlso [
        { text := "visibility".toList, target := "visibility".toList
          named := by decide, trimmed := by decide, bare := by decide, oneLine := by decide
          oneTarget := by decide }] },
    { before := 0, behind := 1, part := .second "py".toList (by decide) showCode },
    { before := 1, behind := 2
      part := .values
        { head :=
            { title := " Value ".toList, titles := " Description ".toList, rule := "---".toList
              rules := "---".toList, isTitle := by decide, isRule := by decide
              oneLine := by decide }
          rows := [
            { value := "none".toList, description := "Not shown".toList
              named := by decide, oneWord := by decide, bare := by decide, notTitle := by decide
              notRule := by decide, noNote := by decide, described := by decide
              trimmed := by decide, oneCell := by decide }]
          distinct := by decide } },
    { before := 1, behind := 1, part := .css showCode },
    { before := 1, behind := 0
      part := .grammar
        { text := "display: block | none;".toList, written := by decide, trimmed := by decide
          noReturn := by decide, noBracket := by decide, noAnchor := by decide
          noInclude := by decide, noFence := by decide } }]
  once := by decide

/-- The document as it is written, and what is read from it: the line that looks like a heading and
the ones that look like rows are code. -/
theorem record_text_display :
    displayLayout.text = ["# Doc", "", "## See also", "", "- [`visibility`](./visibility.md)", "",
      "## Python", "```py", "# Show | hide", "a | b", "```", "", "## Values", "",
      "| Value | Description |", "|---|---|", "| `none` | Not shown |", "", "", "## CSS", "",
      "```css", "# Show | hide", "a | b", "```", "", "## Syntax", "", "```",
      "display: block | none;", "```"].flatMap (fun line => line.toList ++ ['\n']) ∧
    let record := Document.record {} .empty .empty displayLayout.text
    record.values.pairs = [("none".toList, "Not shown".toList)] ∧
      record.grammar = some "display: block | none;".toList ∧
      record.cssExample = some "# Show | hide\na | b".toList ∧
      record.secondExample = some "# Show | hide\na | b".toList ∧
      record.seeAlso = ["visibility".toList] := by
  refine ⟨by decide +kernel, ?_⟩
  rw [record_text displayLayout .empty .empty]
  decide

end StyleDocs.Document
