import StyleDocs.Proofs.Markdown.Section

/-!
# Passages put together

Passages are made of blank lines, lines that are neither fences nor headings, and blocks of code
between two fences; one behind the other they are a passage again.
-/

namespace StyleDocs.Markdown

open Text

/-- A line is marked with a title only where it is not fenced and is a heading. -/
theorem mem_marked {lines : List Text} {entry : Text × Option Text} (h : entry ∈ marked lines) :
    entry.2 = none ∨
      (entry.1, false) ∈ lines.zip (fenced lines) ∧ entry.2 = headingTitle? entry.1 := by
  obtain ⟨⟨piece, inside⟩, hmem, rfl⟩ := List.mem_map.1 h
  cases inside with
  | true => exact Or.inl rfl
  | false => exact Or.inr ⟨hmem, rfl⟩

/-- No line counts as a heading in code between two fences. -/
theorem mem_marked_block {start stop : Text} {lines : List Text} (hstart : isFence start = true)
    (hstop : isFence stop = true) (h : ∀ line ∈ lines, isFence line = false) :
    ∀ entry ∈ marked (start :: (lines ++ [stop])), entry.2 = none := by
  intro entry hentry
  rcases mem_marked hentry with hnone | ⟨hmem, -⟩
  · exact hnone
  · have hflag := (List.of_mem_zip hmem).2
    rw [fenced_block hstart hstop h] at hflag
    simp at hflag

/-- Code between two fences leaves no fence open. -/
theorem even_countP_block {start stop : Text} {lines : List Text} (hstart : isFence start = true)
    (hstop : isFence stop = true) (h : ∀ line ∈ lines, isFence line = false) :
    Even ((start :: (lines ++ [stop])).countP isFence) := by
  have hnone : lines.countP isFence = 0 :=
    List.countP_eq_zero.2 fun line hline => by simp [h line hline]
  rw [List.countP_cons_of_pos hstart, List.countP_append, hnone, List.countP_singleton,
    if_pos hstop]
  exact ⟨1, rfl⟩

namespace Passage

/-- One passage behind another. -/
def append (a b : Passage) : Passage where
  lines := a.lines ++ b.lines
  isLine := by
    intro line hline
    exact (List.mem_append.1 hline).elim (a.isLine line) (b.isLine line)
  paired := by
    rw [List.countP_append]
    exact a.paired.add b.paired
  plain := by
    intro entry hentry
    rw [a.marked_append] at hentry
    exact (List.mem_append.1 hentry).elim (a.plain entry) (b.plain entry)

instance : Append Passage := ⟨append⟩

theorem lines_append (a b : Passage) : (a ++ b).lines = a.lines ++ b.lines := rfl

theorem text_append (a b : Passage) : (a ++ b).text = a.text ++ b.text := by
  rw [text, lines_append, List.flatten_append]
  rfl

/-- Lines of which none is a fence or a heading. -/
def ofPlain (lines : List Text)
    (h : ∀ line ∈ lines, IsLine line ∧ isFence line = false ∧ headingTitle? line = none) :
    Passage where
  lines := lines
  isLine := fun line hline => (h line hline).1
  paired := by
    rw [List.countP_eq_zero.2 fun line hline => by simp [(h line hline).2.1]]
    exact Even.zero
  plain := by
    intro entry hentry
    rcases mem_marked hentry with hnone | ⟨hmem, htitle⟩
    · exact hnone
    · rw [htitle]
      exact (h entry.1 (List.of_mem_zip hmem).1).2.2

/-- Blank lines. -/
def blank (n : Nat) : Passage :=
  ofPlain (List.replicate n ['\n']) fun line hline => by
    rw [List.eq_of_mem_replicate hline]
    exact ⟨isLine_empty, by decide, by decide⟩

theorem text_blank (n : Nat) : (blank n).text = List.replicate n '\n' := by
  simp [blank, text, ofPlain]

theorem text_between_blanks (n m : Nat) (passage : Passage) :
    (blank n ++ passage ++ blank m).text =
      List.replicate n '\n' ++ (passage.text ++ List.replicate m '\n') := by
  rw [text_append, text_append, text_blank, text_blank, List.append_assoc]

/-- The line that opens a block of code. -/
def opening (info : Text) : Text := ticks ++ info ++ ['\n']

/-- The line that closes a block of code. -/
def closing : Text := ticks ++ ['\n']

theorem isFence_opening (info : Text) : isFence (opening info) = true := by
  rw [isFence, Bool.or_eq_true]
  exact Or.inl (startsWith_self_append ticks (info ++ ['\n']))

/-- The lines of some code, each with a line feed. -/
def codeLines (code : Text) : List Text := (splitAt '\n' code).map (· ++ ['\n'])

theorem isFence_codeLines {code : Text} (h : ∀ line ∈ splitAt '\n' code, isFence line = false) :
    ∀ line ∈ codeLines code, isFence line = false := by
  intro line hline
  obtain ⟨part, hpart, rfl⟩ := List.mem_map.1 hline
  rw [isFence_append (List.all_eq_true.1 rfl)]
  exact h part hpart

/-- Code between two fences as it is written, with a label behind the first. -/
def fencedText (info code : Text) : Text := ticks ++ info ++ '\n' :: code ++ '\n' :: ticks ++ ['\n']

/-- Code between two fences. -/
def block (info code : Text) (hinfo : '\n' ∉ info)
    (hcode : ∀ line ∈ splitAt '\n' code, isFence line = false) : Passage where
  lines := opening info :: (codeLines code ++ [closing])
  isLine := by
    intro line hline
    rw [List.mem_cons, List.mem_append, List.mem_singleton] at hline
    rcases hline with rfl | hline | rfl
    · exact isLine_append (by simpa [ticks] using hinfo)
    · exact isLine_of_mem_splitAt hline
    · exact isLine_append (by decide)
  paired := even_countP_block (isFence_opening info) (by decide) (isFence_codeLines hcode)
  plain := mem_marked_block (isFence_opening info) (by decide) (isFence_codeLines hcode)

theorem text_block (info code : Text) (hinfo : '\n' ∉ info)
    (hcode : ∀ line ∈ splitAt '\n' code, isFence line = false) :
    (block info code hinfo hcode).text = fencedText info code := by
  rw [text, block, List.flatten_cons, List.flatten_append, codeLines, flatten_map_splitAt]
  simp [opening, closing, fencedText]

end Passage

end StyleDocs.Markdown
