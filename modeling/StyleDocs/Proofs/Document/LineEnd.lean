import StyleDocs.Document
import StyleDocs.Proofs.Markdown.LineEnd

/-!
# Documents with returns in their line ends

A document says the same whichever way its lines end. Its values and its grammar are made from lines
and are the same; its examples and the texts of its links are cut out of it and have the line ends
that it has.
-/

namespace StyleDocs.Document

open Text Markdown

section Fields

variable {doc : Text} (hdoc : '\r' ∉ doc)

include hdoc

theorem grammar?_crlf (conv : Conventions) (types : TypeCatalog) (properties : PropertyCatalog) :
    grammar? conv types properties (crlf doc) = grammar? conv types properties doc := by
  rw [grammar?, grammar?, section?_crlf hdoc]
  cases hbody : section? doc conv.headings.grammar with
  | none => rfl
  | some body =>
    have hreturn : '\r' ∉ body := fun hmem => hdoc (mem_of_section? hbody hmem)
    dsimp only [Option.map_some]
    rw [grammarText_crlf _ hreturn]

theorem exampleUnder?_crlf {labels : List Text} (hlabels : ∀ label ∈ labels, Unbroken label)
    (heading : Text) :
    exampleUnder? heading labels (crlf doc) = (exampleUnder? heading labels doc).map crlf := by
  rw [exampleUnder?, exampleUnder?, section?_crlf hdoc]
  cases section? doc heading with
  | none => rfl
  | some body => exact example?_crlf hlabels body

theorem seeAlso_crlf (conv : Conventions) :
    seeAlso conv (crlf doc) = (seeAlso conv doc).map crlf := by
  rw [seeAlso, seeAlso, section?_crlf hdoc]
  cases section? doc conv.headings.seeAlso with
  | none => rfl
  | some body => exact linkLabels_crlf body

end Fields

/-- Returns in the line ends of a document change neither its values nor its grammar, and they stand
in its examples and in the texts of its links where they stand in the document; a field is there
with the returns exactly when it is there without them. Only the labels of the code that counts
must not reach over a line end. -/
theorem record_crlf (conv : Conventions) (types : TypeCatalog) (properties : PropertyCatalog)
    {doc : Text} (hdoc : '\r' ∉ doc)
    (hlabels : ∀ label ∈ conv.cssLabels ++ conv.second.labels, Unbroken label) :
    let plain := record conv types properties doc
    let returned := record conv types properties (crlf doc)
    returned.values = plain.values ∧
      returned.grammar = plain.grammar ∧
      returned.cssExample = plain.cssExample.map crlf ∧
      returned.secondExample = plain.secondExample.map crlf ∧
      returned.seeAlso = plain.seeAlso.map crlf ∧
      returned.isEmpty = plain.isEmpty := by
  intro plain returned
  have hvalues : returned.values = plain.values := by
    change valueTable (crlf doc) = valueTable doc
    rw [valueTable, valueTable, rows_crlf hdoc]
  have hgrammar : returned.grammar = plain.grammar := grammar?_crlf hdoc conv types properties
  have hcss : returned.cssExample = plain.cssExample.map crlf :=
    exampleUnder?_crlf hdoc (fun label hlabel => hlabels label (List.mem_append_left _ hlabel)) _
  have hsecond : returned.secondExample = plain.secondExample.map crlf :=
    exampleUnder?_crlf hdoc (fun label hlabel => hlabels label (List.mem_append_right _ hlabel)) _
  have hseeAlso : returned.seeAlso = plain.seeAlso.map crlf := seeAlso_crlf hdoc conv
  refine ⟨hvalues, hgrammar, hcss, hsecond, hseeAlso, ?_⟩
  rw [PropertyRecord.isEmpty, PropertyRecord.isEmpty, hvalues, hgrammar, hcss, hsecond, hseeAlso,
    Option.isNone_map, Option.isNone_map, List.isEmpty_map]

/-- The line ends inside an example and inside the text of a link become those of the document. -/
theorem record_crlf_two_lines :
    let doc := "a|b\n# CSS\n```css\nx\ny\n```\n# See also\n[p\nq](r)\n".toList
    let returned := record {} .empty .empty (crlf doc)
    '\r' ∉ doc ∧ (∀ label ∈ ["css".toList] ++ ["python".toList, "py".toList], Unbroken label) ∧
      returned.values.pairs = [("a".toList, "b".toList)] ∧
      returned.cssExample = some "x\r\ny".toList ∧
      returned.seeAlso = ["p\r\nq".toList] := by
  intro doc returned
  have hdoc : '\r' ∉ doc := by decide
  have hlabels : ∀ label ∈ ["css".toList] ++ ["python".toList, "py".toList], Unbroken label := by
    decide
  obtain ⟨hvalues, -, hcss, -, hseeAlso, -⟩ := record_crlf {} .empty .empty hdoc hlabels
  have hplain : (record {} .empty .empty doc).values.pairs = [("a".toList, "b".toList)] ∧
      (record {} .empty .empty doc).cssExample = some "x\ny".toList ∧
      (record {} .empty .empty doc).seeAlso = ["p\nq".toList] := by decide +kernel
  refine ⟨hdoc, hlabels, ?_, ?_, ?_⟩
  · rw [← hplain.1, ← hvalues]
  · rw [hcss, hplain.2.1]
    rfl
  · rw [hseeAlso, hplain.2.2]
    rfl

end StyleDocs.Document
