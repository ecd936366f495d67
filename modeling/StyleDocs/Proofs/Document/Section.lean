import StyleDocs.Document
import StyleDocs.Proofs.Markdown.Section

/-!
# Sections do not interfere

The grammar, the two examples and the related properties are each read from one section. In a
sectioned document the section is the body of the first chunk with its title, so what else the
document says, and in which order, makes no difference to what is read from it.
-/

namespace StyleDocs.Document

open Markdown

/-- In two sectioned documents in which the first chunk with the title of a field has the same body,
or which both have no such chunk, the field has the same value. -/
theorem field_eq_of_body?_eq (conv : Conventions) (types : TypeCatalog)
    (properties : PropertyCatalog) (a b : Sectioned) :
    let recordOf := fun doc : Sectioned => record conv types properties doc.text
    (a.body? conv.headings.grammar = b.body? conv.headings.grammar →
        (recordOf a).grammar = (recordOf b).grammar) ∧
      (a.body? conv.headings.css = b.body? conv.headings.css →
        (recordOf a).cssExample = (recordOf b).cssExample) ∧
      (a.body? conv.second.heading = b.body? conv.second.heading →
        (recordOf a).secondExample = (recordOf b).secondExample) ∧
      (a.body? conv.headings.seeAlso = b.body? conv.headings.seeAlso →
        (recordOf a).seeAlso = (recordOf b).seeAlso) := by
  intro recordOf
  refine ⟨fun h => ?_, fun h => ?_, fun h => ?_, fun h => ?_⟩
  · change grammar? conv types properties a.text = grammar? conv types properties b.text
    rw [grammar?, grammar?, section?_text, section?_text, h]
  · change exampleUnder? conv.headings.css conv.cssLabels a.text =
      exampleUnder? conv.headings.css conv.cssLabels b.text
    rw [exampleUnder?, exampleUnder?, section?_text, section?_text, h]
  · change exampleUnder? conv.second.heading conv.second.labels a.text =
      exampleUnder? conv.second.heading conv.second.labels b.text
    rw [exampleUnder?, exampleUnder?, section?_text, section?_text, h]
  · change seeAlso conv a.text = seeAlso conv b.text
    rw [seeAlso, seeAlso, section?_text, section?_text, h]

/-- A body of style sheet code whose first line looks like a heading. -/
def codePassage : Passage where
  lines := ["```css\n".toList, "# CSS\n".toList, "```\n".toList]
  isLine := by decide
  paired := by decide
  plain := by decide

/-- A chunk with this body. -/
def codeChunk : Chunk where
  heading := "## CSS\n".toList
  isLine := by decide
  title := "CSS".toList
  isHeading := rfl
  body := codePassage

/-- A chunk with a body in other fences. -/
def otherChunk : Chunk where
  heading := "# Other ##\n".toList
  isLine := by decide
  title := "Other".toList
  isHeading := rfl
  body := { codePassage with
    lines := ["~~~\n".toList, "```css\n".toList]
    isLine := by decide
    paired := by decide
    plain := by decide }

/-- Another chunk, with fences of its own, does not change the example. -/
theorem field_eq_of_body?_eq_css :
    let alone : Sectioned := ⟨.empty, [codeChunk]⟩
    let behind : Sectioned := ⟨.empty, [otherChunk, codeChunk]⟩
    alone.body? "CSS".toList = behind.body? "CSS".toList ∧
      (record {} .empty .empty alone.text).cssExample = some "# CSS".toList ∧
      (record {} .empty .empty behind.text).cssExample = some "# CSS".toList := by
  intro alone behind
  have hbody : alone.body? "CSS".toList = behind.body? "CSS".toList := by decide
  have hsame := (field_eq_of_body?_eq {} .empty .empty alone behind).2.1 hbody
  have halone : (record {} .empty .empty alone.text).cssExample = some "# CSS".toList := by
    decide +kernel
  exact ⟨hbody, halone, hsame.symm.trans halone⟩

end StyleDocs.Document
