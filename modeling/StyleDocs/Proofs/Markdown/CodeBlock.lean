import StyleDocs.Markdown.CodeBlock
import StyleDocs.Proofs.Markdown.Passage
import StyleDocs.Proofs.Text.Strip

/-!
# Examples that are read back

Code that is written between two fences, the first with one of the labels behind it, is the example
of its section, as long as the code does not hold a fence of its own.
-/

namespace StyleDocs.Markdown

open Text

/-! ### Code -/

/-- Code that may stand in a block and is read back as it is. -/
structure CodeBody where
  /-- The code. -/
  text : Text
  /-- It is not blank. -/
  notBlank : allBlank text = false
  /-- It does not begin with a line break. -/
  noBreak : text.head?.any isBreak = false
  /-- It does not end with white space. -/
  noBlankEnd : text.getLast?.any isBlank = false
  /-- It has no three backquotes. -/
  noTicks : includes ticks text = false
  /-- None of its lines begins with three tildes, white space aside. -/
  noTildes : ∀ line ∈ splitAt '\n' text, startsWith "~~~".toList (trimStart isBlank line) = false

namespace CodeBody

theorem text_ne_nil (code : CodeBody) : code.text ≠ [] := by
  intro h
  have hblank := code.notBlank
  rw [h] at hblank
  cases hblank

/-- Code has no fence among its lines. -/
theorem not_isFence (code : CodeBody) : ∀ line ∈ splitAt '\n' code.text, isFence line = false := by
  intro line hline
  have hinfix : trimStart isBlank line <:+: code.text :=
    (List.dropWhile_suffix isBlank).isInfix.trans (infix_of_mem_splitAt hline)
  have hticks : startsWith ticks (trimStart isBlank line) = false :=
    includes_eq_false_iff.1 (includes_eq_false_of_part hinfix code.noTicks) _ List.suffix_rfl
  rw [isFence, hticks, code.noTildes line hline]
  rfl

/-- The code between two fences, the first with a label. -/
def passage (code : CodeBody) (label : Text) (hlabel : '\n' ∉ label) : Passage :=
  .block label code.text hlabel code.not_isFence

/-- Code is tidy already but for the line feed behind it. -/
theorem tidyCode?_text (code : CodeBody) : tidyCode? (code.text ++ ['\n']) = some code.text := by
  have hstart : trimStart isBreak (code.text ++ ['\n']) = code.text ++ ['\n'] := by
    refine trimStart_eq_self ?_
    rw [List.head?_append_of_ne_nil code.text code.text_ne_nil]
    exact code.noBreak
  have hend : trimEnd isBlank (code.text ++ ['\n']) = code.text := by
    change (code.text ++ ['\n']).rdropWhile isBlank = code.text
    rw [List.rdropWhile_concat_pos _ _ _ (by decide)]
    exact trimEnd_eq_self code.noBlankEnd
  rw [tidyCode?, hstart, hend]
  simp [code.notBlank]

end CodeBody

/-! ### Labels -/

/-- Whether a label is the first of some labels that fits a line of its own, up to the edge of a
word. -/
structure IsLabel (labels : List Text) (label : Text) : Prop where
  /-- It stays on its line. -/
  oneLine : '\n' ∉ label
  /-- The labels before it do not begin it. -/
  first : ∃ before behind, labels = before ++ label :: behind ∧
    ∀ other ∈ before, '\n' ∉ other ∧ startsWith other label = false
  /-- It does not begin with a gap. -/
  noGap : label.head?.any isGap = false
  /-- There is an edge of a word between it and the end of the line. -/
  edge : isWordEdge (label.getLast?.getD backquote) ['\n'] = true

section Block

variable {labels : List Text} {label : Text}

/-- A label that does not begin with a gap stands at once behind the backquotes. -/
theorem labelPlaces_label (h : label.head?.any isGap = false) (rest : Text) :
    labelPlaces backquote (label ++ '\n' :: rest) = [(backquote, label ++ '\n' :: rest)] := by
  cases label with
  | nil => rfl
  | cons c label =>
    have hc : isGap c = false := by simpa using h
    rw [List.cons_append, labelPlaces, if_neg (by simp [hc])]

/-- The code behind a label and the end of its line runs to the next three backquotes. -/
theorem codeBehind?_label (h : IsLabel labels label) (code : CodeBody) (rest : Text) :
    codeBehind? label backquote (label ++ '\n' :: (code.text ++ '\n' :: (ticks ++ rest))) =
      some (code.text ++ ['\n']) := by
  have hlabel : after? label (label ++ '\n' :: (code.text ++ '\n' :: (ticks ++ rest))) =
      some ('\n' :: (code.text ++ '\n' :: (ticks ++ rest))) := after?_eq_some_iff.2 rfl
  have hedge : isWordEdge (label.getLast?.getD backquote)
      ('\n' :: (code.text ++ '\n' :: (ticks ++ rest))) = true := h.edge
  have hline : cut? ['\n'] ('\n' :: (code.text ++ '\n' :: (ticks ++ rest))) =
      some ([], code.text ++ '\n' :: (ticks ++ rest)) := cut?_of_startsWith (by simp) _
  have hcode : cut? ticks (code.text ++ '\n' :: (ticks ++ rest)) =
      some (code.text ++ ['\n'], rest) :=
    cut?_append (by decide) (by decide) code.noTicks rest
  simp only [codeBehind?, hlabel, hedge, hline, hcode]
  rfl

/-- A label that does not begin another label is not found in its place. -/
theorem codeBehind?_of_not_startsWith {other : Text} (hline : '\n' ∉ other)
    (h : startsWith other label = false) (before : Char) (rest : Text) :
    codeBehind? other before (label ++ '\n' :: rest) = none := by
  have hafter : after? other (label ++ '\n' :: rest) = none := by
    rw [← startsWith_eq_false_iff, startsWith_append_cons hline]
    exact h
  rw [codeBehind?, hafter]

/-- A block with a label gives its code. -/
theorem blockAt?_label (h : IsLabel labels label) (code : CodeBody) (rest : Text) :
    blockAt? labels (ticks ++ (label ++ '\n' :: (code.text ++ '\n' :: (ticks ++ rest)))) =
      some (code.text ++ ['\n']) := by
  obtain ⟨before, behind, hlabels, hbefore⟩ := h.first
  have hticks : after? ticks (ticks ++ (label ++ '\n' :: (code.text ++ '\n' :: (ticks ++ rest)))) =
      some (label ++ '\n' :: (code.text ++ '\n' :: (ticks ++ rest))) := after?_eq_some_iff.2 rfl
  have hplaces := labelPlaces_label h.noGap (code.text ++ '\n' :: (ticks ++ rest))
  have hlabels' : (if labels.isEmpty then [[]] else labels) = before ++ label :: behind := by
    rw [if_neg (by simp [hlabels]), hlabels]
  rw [blockAt?, hticks]
  dsimp only
  rw [hplaces, hlabels', List.findSome?_singleton, List.findSome?_append,
    List.findSome?_eq_none_iff.2 fun other hother =>
      codeBehind?_of_not_startsWith (hbefore other hother).1 (hbefore other hother).2 _ _,
    Option.none_or, List.findSome?_cons, codeBehind?_label h]

/-- Blank lines in front of a block are passed over. -/
theorem block?_blank (labels : List Text) (n : Nat) (t : Text) :
    block? labels (List.replicate n '\n' ++ t) = block? labels t := by
  induction n with
  | zero => rfl
  | succ n ih =>
    have hnone : blockAt? labels ('\n' :: (List.replicate n '\n' ++ t)) = none := rfl
    rw [List.replicate_succ, List.cons_append, block?, hnone]
    exact ih

/-- The example of a section that is a block between blank lines is the code of the block. -/
theorem example?_text (h : IsLabel labels label) (code : CodeBody) (n m : Nat) :
    example? labels (Passage.blank n ++ code.passage label h.oneLine ++ Passage.blank m).text =
      some code.text := by
  have htext : (Passage.blank n ++ code.passage label h.oneLine ++ Passage.blank m).text =
      List.replicate n '\n' ++ (ticks ++ (label ++ '\n' :: (code.text ++ '\n' :: (ticks ++
        ('\n' :: List.replicate m '\n'))))) := by
    rw [Passage.text_between_blanks, CodeBody.passage, Passage.text_block, Passage.fencedText]
    simp only [List.append_assoc, List.cons_append, List.nil_append]
  have hblock : ∀ t, blockAt? labels t = some (code.text ++ ['\n']) →
      block? labels t = some (code.text ++ ['\n']) := by
    intro t ht
    cases t with
    | nil => cases ht
    | cons c t => rw [block?, ht]
  rw [htext, example?, block?_blank, hblock _ (blockAt?_label h code _), Option.bind_some,
    code.tidyCode?_text]

end Block

end StyleDocs.Markdown
