import Mathlib.Data.List.Infix
import StyleDocs.Document
import StyleDocs.Proofs.Link.Visible
import StyleDocs.Proofs.Markdown.Block
import StyleDocs.Proofs.Markdown.InlineLink
import StyleDocs.Proofs.Markdown.ValueRow
import StyleDocs.Proofs.Text.LetterCase

/-!
# Records are clean

Whatever a document says and whatever the conventions are, what its record holds can be shown as it
is: values are words, descriptions and link texts are trimmed, the grammar is trimmed after its
links were resolved as it was before, and examples begin and end with something that is seen. No
field is there and blank, so a record is empty exactly when no pass over the document found
anything.
-/

namespace StyleDocs

open Text Markdown

/-! ### Values -/

namespace Text

/-- The letters of the column title are the lower-case forms of no others. -/
theorem keptByLower_titleLetter : KeptByLower fun c => "valueVALUE".toList.contains c := by
  refine .of_members [118, 97, 108, 117, 101, 86, 65, 76, 85, 69] ?_ (by decide)
    (by decide +kernel) (by decide) (by decide) (by decide) (by decide)
  intro c hc
  have hmem : c ∈ "valueVALUE".toList := by simpa using hc
  have hcodes : ("valueVALUE".toList.all fun d =>
      [118, 97, 108, 117, 101, 86, 65, 76, 85, 69].contains d.toNat) = true := by decide
  exact List.contains_iff_mem.1 (List.all_eq_true.1 hcodes c hmem)

/-- A text that is the column title in any case is so in ASCII case. -/
theorem lower_eq_title_iff {t : Text} :
    lower t = "value".toList ↔ sameIgnoringCase t "value".toList = true := by
  rw [sameIgnoringCase, beq_iff_eq]
  constructor
  · intro h
    have hletters : t.any (fun c => !"valueVALUE".toList.contains c) = false := by
      rw [← keptByLower_titleLetter.not.any_lower, h]
      decide
    have hascii : ("valueVALUE".toList.all fun c => decide (c.toNat < 128)) = true := by decide
    have ht : ∀ c ∈ t, c.toNat < 128 := by
      intro c hc
      have hletter := List.any_eq_false.1 hletters c hc
      rw [Bool.not_eq_true, Bool.not_eq_false', List.contains_iff_mem] at hletter
      exact of_decide_eq_true (List.all_eq_true.1 hascii c hletter)
    rw [← lower_ascii ht, h]
    decide
  · intro h
    rw [← lower_map_toLower, h]
    decide

end Text

/-- What a list of values may name. -/
structure IsValue (value : Text) : Prop where
  /-- There is a value. -/
  ne_nil : value ≠ []
  /-- It is one word in one cell. -/
  oneWord : ∀ c ∈ value, isBlank c = false ∧ c ≠ '|'
  /-- It is not the title of the column, in any case. -/
  notTitle : lower value ≠ "value".toList
  /-- It is no rule. -/
  notRule : ¬IsRule value

/-- How a value may be described. -/
structure IsDescription (description : Text) : Prop where
  /-- There is a description, and no white space around it. -/
  trimmed : IsTrimmed description
  /-- It stays in its cell. -/
  oneCell : '|' ∉ description
  /-- It stays on its line. -/
  oneLine : '\n' ∉ description

theorem IsValue.isTrimmed {value : Text} (h : IsValue value) : IsTrimmed value :=
  isTrimmed_of_forall h.ne_nil fun c hc => (h.oneWord c hc).1

theorem Markdown.IsRow.isValue {line value description : Text}
    (h : IsRow line value description) : IsValue value := by
  obtain ⟨_, _, _, -, -, -, -, hne, -, htitle, hrule, hword⟩ := h
  refine ⟨hne, hword, fun hlower => ?_, hrule⟩
  rw [lower_eq_title_iff.1 hlower] at htitle
  cases htitle

theorem Markdown.IsRow.isDescription {line value description : Text}
    (h : IsRow line value description) (hline : '\n' ∉ line) : IsDescription description := by
  obtain ⟨first, second, _, hcells, -, -, rfl, -, hne, -⟩ := h
  obtain ⟨gap, lead, rest, rfl, -⟩ := hcells.whole
  have hsecond : '\n' ∉ second := fun hmem => hline (by simp [hmem])
  exact ⟨isTrimmed_strip hne, fun hmem => hcells.bars.2 ((infix_strip second).subset hmem),
    fun hmem => hsecond ((infix_strip second).subset hmem)⟩

theorem Markdown.not_mem_of_mem_unfencedLines {t line : Text} (h : line ∈ unfencedLines t) :
    '\n' ∉ line := by
  obtain ⟨⟨line', inside⟩, hentry, hline⟩ := List.mem_filterMap.1 h
  cases inside with
  | true => cases hline
  | false =>
    cases hline
    exact not_mem_of_mem_lines (List.of_mem_zip hentry).1

/-! ### Examples -/

/-- What an example may be. -/
structure IsExample (code : Text) : Prop where
  /-- There is something to be seen in it. -/
  notBlank : allBlank code = false
  /-- It does not begin with a line break. -/
  noBreak : code.head?.any isBreak = false
  /-- It does not end with white space. -/
  noBlankEnd : code.getLast?.any isBlank = false
  /-- It has no three backquotes in a row. -/
  noTicks : ¬ticks <:+: code

namespace Markdown

/-- The code of a block ends before the first three backquotes. -/
theorem includes_of_codeBehind? {label : Text} {before : Char} {t code : Text}
    (h : codeBehind? label before t = some code) : includes ticks code = false := by
  unfold codeBehind? at h
  split at h
  · cases h
  · split at h
    · split at h
      · cases h
      · obtain ⟨⟨found, rest⟩, hcut, rfl⟩ := Option.map_eq_some_iff.1 h
        exact includes_of_cut? (by decide) hcut
    · cases h

theorem includes_of_blockAt? {labels : List Text} {t code : Text}
    (h : blockAt? labels t = some code) : includes ticks code = false := by
  unfold blockAt? at h
  split at h
  · cases h
  · obtain ⟨place, -, hplace⟩ := List.exists_of_findSome?_eq_some h
    obtain ⟨label, -, hcode⟩ := List.exists_of_findSome?_eq_some hplace
    exact includes_of_codeBehind? hcode

theorem includes_of_block? {labels : List Text} {t code : Text}
    (h : block? labels t = some code) : includes ticks code = false := by
  induction t with
  | nil => cases h
  | cons c t ih =>
    rw [block?] at h
    split at h
    · next found hfound =>
      cases h
      exact includes_of_blockAt? hfound
    · exact ih h

/-- Tidy code begins and ends with something that is seen. -/
theorem isExample_of_tidyCode? {code tidy : Text} (h : tidyCode? code = some tidy)
    (hticks : includes ticks code = false) : IsExample tidy := by
  have htidy : includes ticks tidy = false := by
    have hincludes := includes_tidyCode? code
    rwa [h, Option.getD_some, hticks] at hincludes
  rw [tidyCode?] at h
  split at h
  · cases h
  · next hblank =>
    cases h
    refine ⟨by simpa using hblank, ?_, getLast?_trimEnd isBlank _, ?_⟩
    · exact head?_trimEnd (head?_trimStart isBreak code) isBlank
    · rw [← includes_iff_infix, htidy]
      exact Bool.false_ne_true

theorem isExample_of_example? {labels : List Text} {t code : Text}
    (h : example? labels t = some code) : IsExample code := by
  obtain ⟨found, hfound, htidy⟩ := Option.bind_eq_some_iff.1 h
  exact isExample_of_tidyCode? htidy (includes_of_block? hfound)

/-! ### Link texts -/

/-- The text of a link ends at the first closing bracket. -/
theorem not_mem_of_inlineLink {t label rest : Text} (h : inlineLink t = some (label, rest)) :
    ']' ∉ label := by
  unfold inlineLink at h
  split at h
  · split at h
    · next behind hlabel =>
      obtain ⟨parts, -, he⟩ := Option.map_eq_some_iff.1 h
      cases he
      rw [← List.singleton_infix_iff, ← includes_iff_infix, includes_of_cut? (by simp) hlabel]
      exact Bool.false_ne_true
    · cases h
  · cases h

theorem infix_linkLabel (label : Text) : linkLabel label <:+: label :=
  (infix_strip _).trans ((infix_trimEnds _ _).trans (infix_strip label))

theorem isTrimmed_of_mem_linkLabels {t text : Text} (h : text ∈ linkLabels t) :
    IsTrimmed text ∧ ']' ∉ text := by
  obtain ⟨hmem, hne⟩ := List.mem_filter.1 h
  obtain ⟨label, hlabel, rfl⟩ := List.mem_map.1 hmem
  obtain ⟨s, rest, -, hfound⟩ := opensWith_inlineLink.exists_of_mem_findings hlabel
  have hne' : linkLabel label ≠ [] := by simpa using hne
  refine ⟨isTrimmed_strip hne', fun hbracket => ?_⟩
  exact not_mem_of_inlineLink hfound ((infix_linkLabel label).subset hbracket)

end Markdown

/-! ### Records -/

/-- What every record of a document may be relied on for. -/
structure PropertyRecord.Clean (record : PropertyRecord) : Prop where
  /-- No value is listed twice. -/
  distinct : (record.values.pairs.map Prod.fst).Nodup
  /-- Every value is one. -/
  values : ∀ pair ∈ record.values.pairs, IsValue pair.1
  /-- Every value is described. -/
  descriptions : ∀ pair ∈ record.values.pairs, IsDescription pair.2
  /-- The grammar has no white space around it. -/
  grammar : ∀ text ∈ record.grammar, IsTrimmed text
  /-- The style sheet example is one. -/
  cssExample : ∀ code ∈ record.cssExample, IsExample code
  /-- The example in the second language is one. -/
  secondExample : ∀ code ∈ record.secondExample, IsExample code
  /-- The texts of links have no white space around them and stay between their brackets. -/
  seeAlso : ∀ text ∈ record.seeAlso, IsTrimmed text ∧ ']' ∉ text

/-- All that a record says. -/
def PropertyRecord.texts (record : PropertyRecord) : List Text :=
  record.values.pairs.flatMap (fun pair => [pair.1, pair.2]) ++ record.grammar.toList ++
    record.cssExample.toList ++ record.secondExample.toList ++ record.seeAlso

/-- In a clean record no field is there and blank. -/
theorem PropertyRecord.Clean.not_allBlank {record : PropertyRecord} (h : record.Clean) :
    ∀ text ∈ record.texts, allBlank text = false := by
  intro text htext
  simp only [texts, List.mem_append, List.mem_flatMap, List.mem_cons, List.not_mem_nil, or_false,
    Option.mem_toList] at htext
  rcases htext with (((⟨pair, hpair, rfl | rfl⟩ | hgrammar) | hcss) | hsecond) | hseeAlso
  · exact (h.values pair hpair).isTrimmed.not_allBlank
  · exact (h.descriptions pair hpair).trimmed.not_allBlank
  · exact (h.grammar text hgrammar).not_allBlank
  · exact (h.cssExample text hcss).notBlank
  · exact (h.secondExample text hsecond).notBlank
  · exact (h.seeAlso text hseeAlso).1.not_allBlank

/-- An empty record says nothing. -/
theorem PropertyRecord.isEmpty_iff_texts {record : PropertyRecord} :
    record.isEmpty = true ↔ record.texts = [] := by
  have hvalues : record.values.pairs.flatMap (fun pair => [pair.1, pair.2]) = [] ↔
      record.values.pairs = [] := by
    cases record.values.pairs <;> simp
  simp [isEmpty, texts, ValueList.isEmpty, hvalues, and_assoc]

namespace Document

variable (conv : Conventions) (types : TypeCatalog) (properties : PropertyCatalog) (doc : Text)

/-- No pass over a document finds anything: no line outside code is a row, and of the sections that
are read each is missing or without what it is read for. -/
structure SaysNothing : Prop where
  /-- No line is a row. -/
  noRow : ∀ line ∈ unfencedLines doc, ∀ value description, ¬IsRow line value description
  /-- Nothing is left of the grammar when it is cleaned. -/
  noGrammar : ∀ body, section? doc conv.headings.grammar = some body →
    grammarText conv.includeMark body = []
  /-- There is no style sheet example. -/
  noCss : ∀ body, section? doc conv.headings.css = some body → example? conv.cssLabels body = none
  /-- There is no example in the second language. -/
  noSecond : ∀ body, section? doc conv.second.heading = some body →
    example? conv.second.labels body = none
  /-- No link has a text. -/
  noSeeAlso : ∀ body, section? doc conv.headings.seeAlso = some body →
    ∀ label ∈ findings inlineLink body, linkLabel label = []

/-- The grammar is trimmed when it is tested whether there is one, and again when its links are
resolved. -/
theorem exists_of_mem_grammar? {text : Text} (h : text ∈ grammar? conv types properties doc) :
    ∃ body, section? doc conv.headings.grammar = some body ∧
      IsTrimmed (grammarText conv.includeMark body) ∧
      text = Link.resolve conv types properties (grammarText conv.includeMark body) := by
  rw [Option.mem_def, grammar?] at h
  split at h
  · cases h
  · next body hbody =>
    dsimp only at h
    split at h
    · cases h
    · next hne =>
      have hcleaned : grammarText conv.includeMark body ≠ [] := by simpa using hne
      cases h
      exact ⟨body, hbody, isTrimmed_strip hcleaned, rfl⟩

theorem isTrimmed_of_mem_grammar? {text : Text} (h : text ∈ grammar? conv types properties doc) :
    IsTrimmed text := by
  obtain ⟨body, -, htrimmed, rfl⟩ := exists_of_mem_grammar? conv types properties doc h
  exact Link.isTrimmed_resolve conv types properties htrimmed

theorem isExample_of_mem_exampleUnder? {heading : Text} {labels : List Text} {code : Text}
    (h : code ∈ exampleUnder? heading labels doc) : IsExample code := by
  obtain ⟨body, -, hcode⟩ := Option.bind_eq_some_iff.1 h
  exact isExample_of_example? hcode

theorem isTrimmed_of_mem_seeAlso {text : Text} (h : text ∈ seeAlso conv doc) :
    IsTrimmed text ∧ ']' ∉ text := by
  unfold seeAlso at h
  split at h
  · cases h
  · exact isTrimmed_of_mem_linkLabels h

/-- The record of a document is clean. -/
theorem clean_record : (record conv types properties doc).Clean := by
  have hrow : ∀ pair ∈ (record conv types properties doc).values.pairs,
      ∃ line ∈ unfencedLines doc, IsRow line pair.1 pair.2 := fun pair hpair =>
    exists_isRow_of_mem_rows (ValueList.mem_of_mem_ofPairs hpair)
  exact {
    distinct := ValueList.distinct _
    values := fun pair hpair => by
      obtain ⟨line, -, hline⟩ := hrow pair hpair
      exact hline.isValue
    descriptions := fun pair hpair => by
      obtain ⟨line, hmem, hline⟩ := hrow pair hpair
      exact hline.isDescription (not_mem_of_mem_unfencedLines hmem)
    grammar := fun _ => isTrimmed_of_mem_grammar? conv types properties doc
    cssExample := fun _ => isExample_of_mem_exampleUnder? doc
    secondExample := fun _ => isExample_of_mem_exampleUnder? doc
    seeAlso := fun _ => isTrimmed_of_mem_seeAlso conv doc }

/-! ### Empty records -/

theorem values_isEmpty_iff : (valueTable doc).isEmpty = true ↔
    ∀ line ∈ unfencedLines doc, ∀ value description, ¬IsRow line value description := by
  rw [valueTable, ValueList.isEmpty_ofPairs, rows_eq_filterMap, List.filterMap_eq_nil_iff]
  refine forall₂_congr fun line _ => ?_
  simp only [Option.eq_none_iff_forall_ne_some, Prod.forall, Ne, row?_eq_some_iff]

theorem grammar?_eq_none_iff : grammar? conv types properties doc = none ↔
    ∀ body, section? doc conv.headings.grammar = some body →
      grammarText conv.includeMark body = [] := by
  unfold grammar?
  cases section? doc conv.headings.grammar <;> simp

theorem exampleUnder?_eq_none_iff {heading : Text} {labels : List Text} :
    exampleUnder? heading labels doc = none ↔
      ∀ body, section? doc heading = some body → example? labels body = none :=
  Option.bind_eq_none_iff

theorem seeAlso_eq_nil_iff : seeAlso conv doc = [] ↔
    ∀ body, section? doc conv.headings.seeAlso = some body →
      ∀ label ∈ findings inlineLink body, linkLabel label = [] := by
  unfold seeAlso
  cases section? doc conv.headings.seeAlso <;> simp [linkLabels, List.filter_eq_nil_iff]

/-- A record is empty exactly when no pass found anything. -/
theorem isEmpty_record_iff :
    (record conv types properties doc).isEmpty = true ↔ SaysNothing conv doc := by
  simp only [PropertyRecord.isEmpty, record, Bool.and_eq_true, Option.isNone_iff_eq_none,
    List.isEmpty_iff, values_isEmpty_iff, grammar?_eq_none_iff, exampleUnder?_eq_none_iff,
    seeAlso_eq_nil_iff]
  constructor
  · rintro ⟨⟨⟨⟨hrow, hgrammar⟩, hcss⟩, hsecond⟩, hseeAlso⟩
    exact ⟨hrow, hgrammar, hcss, hsecond, hseeAlso⟩
  · rintro ⟨hrow, hgrammar, hcss, hsecond, hseeAlso⟩
    exact ⟨⟨⟨⟨hrow, hgrammar⟩, hcss⟩, hsecond⟩, hseeAlso⟩

/-- The record of a document is clean, and its grammar was trimmed before its links were resolved as
it is now. So no field is there and blank. The record is empty exactly when it says nothing, and
this is exactly when no pass over the document found anything. -/
theorem clean_record_and_isEmpty_iff :
    let record := record conv types properties doc
    record.Clean ∧
      (∀ text ∈ record.grammar, ∃ body, section? doc conv.headings.grammar = some body ∧
        IsTrimmed (grammarText conv.includeMark body) ∧
        text = Link.resolve conv types properties (grammarText conv.includeMark body)) ∧
      (∀ text ∈ record.texts, allBlank text = false) ∧
      (record.isEmpty = true ↔ record.texts = []) ∧
      (record.isEmpty = true ↔ SaysNothing conv doc) := by
  intro record
  have hclean : record.Clean := clean_record conv types properties doc
  exact ⟨hclean, fun _ => exists_of_mem_grammar? conv types properties doc, hclean.not_allBlank,
    PropertyRecord.isEmpty_iff_texts, isEmpty_record_iff conv types properties doc⟩

end Document

end StyleDocs
