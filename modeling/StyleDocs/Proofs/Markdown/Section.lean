import StyleDocs.Markdown.Section
import StyleDocs.Proofs.Markdown.Fence

/-!
# Documents made of sections

A document is sectioned when its lines fall into a preamble and chunks, each a heading and a body,
such that fences pair up in the preamble and in every body and no other heading counts. The state of
the fences is then the same at every border, so each heading counts, and the section with a title is
the body of the first chunk with the title.
-/

namespace StyleDocs.Markdown

open Text

/-! ### Headings among lines -/

/-- Lines, each with its title if it is a heading that counts among them. -/
def marked (lines : List Text) : List (Text × Option Text) :=
  (lines.zip (fenced lines)).map fun
    | (piece, true) => (piece, none)
    | (piece, false) => (piece, headingTitle? piece)

theorem outline_eq (t : Text) : outline t = marked (pieces t) := rfl

theorem map_fst_marked (lines : List Text) : (marked lines).map Prod.fst = lines := by
  have hline : Prod.fst ∘ (fun
      | (piece, true) => (piece, none)
      | (piece, false) => (piece, headingTitle? piece) : Text × Bool → Text × Option Text) =
      Prod.fst := by
    funext entry
    obtain ⟨piece, inside⟩ := entry
    cases inside <;> rfl
  rw [marked, List.map_map, hline, List.map_fst_zip]
  simp

/-- Lines that leave no fence open do not matter to the headings behind them. -/
theorem marked_append {a : List Text} (h : Even (a.countP isFence)) (b : List Text) :
    marked (a ++ b) = marked a ++ marked b := by
  rw [marked, fenced_append h, List.zip_append (length_fenced a).symm, List.map_append]
  rfl

/-- A heading begins with a number sign. -/
theorem headingTitle?_cons_of_ne {c : Char} (h : c ≠ '#') (rest : Text) :
    headingTitle? (c :: rest) = none := by
  have hlevel : ((trimEnd (· == '\n') (c :: rest)).takeWhile (· == '#')).length = 0 := by
    obtain ⟨dropped, happ⟩ := List.dropWhile_suffix (l := (c :: rest).reverse) (· == '\n')
    have hfront : trimEnd (· == '\n') (c :: rest) ++ dropped.reverse = c :: rest := by
      simpa [trimEnd] using congrArg List.reverse happ
    cases htrim : trimEnd (· == '\n') (c :: rest) with
    | nil => rfl
    | cons d more =>
      rw [htrim, List.cons_append, List.cons.injEq] at hfront
      rw [hfront.1, List.takeWhile_cons_of_neg (by simpa using h), List.length_nil]
  simp [headingTitle?, hlevel]

/-- A heading is no fence. -/
theorem not_isFence_of_heading {piece title : Text} (h : headingTitle? piece = some title) :
    isFence piece = false := by
  cases piece with
  | nil => rfl
  | cons c rest =>
    have hc : c = '#' := by
      by_contra hne
      rw [headingTitle?_cons_of_ne hne] at h
      cases h
    subst hc
    rfl

/-- A fence is no heading. -/
theorem headingTitle?_of_isFence {piece : Text} (h : isFence piece = true) :
    headingTitle? piece = none := by
  by_contra hsome
  obtain ⟨title, hheading⟩ := Option.ne_none_iff_exists'.1 hsome
  rw [not_isFence_of_heading hheading] at h
  cases h

theorem marked_cons_heading {piece title : Text} (h : headingTitle? piece = some title)
    (lines : List Text) : marked (piece :: lines) = (piece, some title) :: marked lines := by
  simp [marked, fenced_cons (not_isFence_of_heading h), h]

/-! ### Sectioned documents -/

/-- Lines that leave no fence open and in which no heading counts. -/
structure Passage where
  /-- The lines, each with its line feed. -/
  lines : List Text
  /-- Each is one line. -/
  isLine : ∀ line ∈ lines, IsLine line
  /-- There is an even number of fences. -/
  paired : Even (lines.countP isFence)
  /-- No line outside the fenced ones is a heading. -/
  plain : ∀ entry ∈ marked lines, entry.2 = none

/-- The text of a passage. -/
def Passage.text (passage : Passage) : Text := passage.lines.flatten

/-- The passage without lines. -/
def Passage.empty : Passage where
  lines := []
  isLine := by simp
  paired := by simp
  plain := by simp [marked]

/-- A heading and the passage behind it. -/
structure Chunk where
  /-- The line of the heading, with its line feed. -/
  heading : Text
  /-- It is one line. -/
  isLine : IsLine heading
  /-- Its title. -/
  title : Text
  /-- It is a heading with this title. -/
  isHeading : headingTitle? heading = some title
  /-- The body. -/
  body : Passage

/-- The lines of a chunk. -/
def Chunk.lines (chunk : Chunk) : List Text := chunk.heading :: chunk.body.lines

/-- A preamble and chunks. -/
structure Sectioned where
  /-- What stands before the first heading. -/
  preamble : Passage
  /-- The chunks, in order. -/
  chunks : List Chunk

namespace Sectioned

/-- The text of a sectioned document. -/
def text (doc : Sectioned) : Text := doc.preamble.text ++ (doc.chunks.flatMap Chunk.lines).flatten

/-- The body of the first chunk with the title, ASCII case aside. -/
def body? (doc : Sectioned) (title : Text) : Option Text :=
  (doc.chunks.find? fun chunk => sameIgnoringCase chunk.title title).map fun chunk =>
    chunk.body.text

end Sectioned

theorem Passage.marked_append (passage : Passage) (lines : List Text) :
    marked (passage.lines ++ lines) = marked passage.lines ++ marked lines :=
  Markdown.marked_append passage.paired lines

theorem Chunk.marked_append (chunk : Chunk) (lines : List Text) :
    marked (chunk.lines ++ lines) =
      (chunk.heading, some chunk.title) :: marked chunk.body.lines ++ marked lines := by
  rw [Chunk.lines, List.cons_append, marked_cons_heading chunk.isHeading,
    chunk.body.marked_append, List.cons_append]

theorem Chunk.isLine_of_mem (chunk : Chunk) {line : Text} (h : line ∈ chunk.lines) :
    IsLine line := by
  rcases List.mem_cons.1 h with rfl | h
  · exact chunk.isLine
  · exact chunk.body.isLine line h

namespace Sectioned

/-- The pieces of a sectioned document are its lines. -/
theorem pieces_text (doc : Sectioned) :
    pieces doc.text = doc.preamble.lines ++ doc.chunks.flatMap Chunk.lines := by
  have hchunks : ∀ line ∈ doc.chunks.flatMap Chunk.lines, IsLine line := by
    intro line hline
    obtain ⟨chunk, -, hmem⟩ := List.mem_flatMap.1 hline
    exact chunk.isLine_of_mem hmem
  rw [text, Passage.text, pieces_flatten_append doc.preamble.isLine, pieces_flatten hchunks]

theorem outline_text (doc : Sectioned) :
    outline doc.text = marked doc.preamble.lines ++ marked (doc.chunks.flatMap Chunk.lines) := by
  rw [outline_eq, pieces_text, doc.preamble.marked_append]

end Sectioned

/-! ### Finding a section -/

/-- The body of the first section with the title among marked lines. -/
def sectionAmong? (title : Text) (outline : List (Text × Option Text)) : Option Text :=
  match outline.dropWhile fun line => !isHeaded title line with
  | [] => none
  | _ :: rest => some ((rest.takeWhile fun line => line.2.isNone).map Prod.fst).flatten

theorem section?_eq (t title : Text) : section? t title = sectionAmong? title (outline t) := rfl

/-- A line that is not headed with the title is passed over. -/
theorem sectionAmong?_cons {title : Text} {line : Text × Option Text}
    (h : isHeaded title line = false) (outline : List (Text × Option Text)) :
    sectionAmong? title (line :: outline) = sectionAmong? title outline := by
  rw [sectionAmong?, List.dropWhile_cons_of_pos (by simp [h])]
  rfl

/-- Lines without the heading are passed over. -/
theorem sectionAmong?_append {title : Text} {front : List (Text × Option Text)}
    (h : ∀ line ∈ front, isHeaded title line = false) (outline : List (Text × Option Text)) :
    sectionAmong? title (front ++ outline) = sectionAmong? title outline := by
  have hpassed : ∀ line ∈ front, (!isHeaded title line) = true := by
    intro line hline
    rw [h line hline]
    rfl
  rw [sectionAmong?, sectionAmong?, List.dropWhile_append_of_pos hpassed]

/-- Among lines without the heading there is no section. -/
theorem sectionAmong?_eq_none {title : Text} {outline : List (Text × Option Text)}
    (h : ∀ line ∈ outline, isHeaded title line = false) : sectionAmong? title outline = none := by
  rw [← List.append_nil outline, sectionAmong?_append h]
  rfl

/-- The section behind its heading runs to the next heading. -/
theorem sectionAmong?_headed {title : Text} {heading : Text × Option Text}
    (h : isHeaded title heading = true) {body outline : List (Text × Option Text)}
    (hbody : ∀ line ∈ body, line.2 = none)
    (houtline : outline.head?.all fun line => line.2.isSome) :
    sectionAmong? title (heading :: (body ++ outline)) = some (body.map Prod.fst).flatten := by
  have htaken : ∀ line ∈ body, line.2.isNone = true := by
    intro line hline
    rw [hbody line hline]
    rfl
  have hend : outline.takeWhile (fun line => line.2.isNone) = [] := by
    cases outline with
    | nil => rfl
    | cons line rest =>
      have hline : line.2 ≠ none := Option.isSome_iff_ne_none.1 (by simpa using houtline)
      exact List.takeWhile_cons_of_neg (by simpa using hline)
  rw [sectionAmong?, List.dropWhile_cons_of_neg (by simp [h])]
  dsimp only
  rw [List.takeWhile_append_of_pos htaken, hend, List.append_nil]

/-- A line with no title is not headed. -/
theorem isHeaded_of_none (title : Text) {line : Text × Option Text} (h : line.2 = none) :
    isHeaded title line = false := by
  rw [isHeaded, h]
  rfl

/-- Among lines of which only one has a title, the section is what stands behind that line. -/
theorem sectionAmong?_alone {title : Text} {front body : List (Text × Option Text)}
    (hfront : ∀ line ∈ front, line.2 = none) (heading : Text × Option Text)
    (hbody : ∀ line ∈ body, line.2 = none) :
    sectionAmong? title (front ++ heading :: body) =
      if isHeaded title heading then some (body.map Prod.fst).flatten else none := by
  rw [sectionAmong?_append fun line hmem => isHeaded_of_none title (hfront line hmem)]
  split
  · next hheaded =>
    have hempty : ([] : List (Text × Option Text)).head?.all fun line => line.2.isSome := rfl
    simpa using sectionAmong?_headed hheaded hbody hempty
  · next hother =>
    rw [sectionAmong?_cons (Bool.eq_false_iff.2 hother)]
    exact sectionAmong?_eq_none fun line hmem => isHeaded_of_none title (hbody line hmem)

/-- A text of whole lines that leaves no fence open is outlined by itself. -/
theorem outline_append {a : Text} (hwhole : openLine a = [])
    (hpaired : Even ((pieces a).countP isFence)) (b : Text) :
    outline (a ++ b) = outline a ++ outline b := by
  rw [outline_eq, pieces_append hwhole, marked_append hpaired]
  rfl

/-- The section with the title of a heading is what stands between it and the next heading, if no
heading before it has the title and no fence is open at either. -/
theorem section?_between {title name before heading body behind : Text} (hline : IsLine heading)
    (hheading : headingTitle? heading = some name) (hname : sameIgnoringCase name title = true)
    (hbefore : openLine before = [] ∧ Even ((pieces before).countP isFence) ∧
      ∀ line ∈ outline before, isHeaded title line = false)
    (hbody : Even ((pieces body).countP isFence) ∧ ∀ line ∈ outline body, line.2 = none)
    (hwhole : openLine body = [] ∨ behind = [])
    (hbehind : (outline behind).head?.all fun line => line.2.isSome) :
    Markdown.section? (before ++ heading ++ body ++ behind) title = some body := by
  have hrest : outline (body ++ behind) = outline body ++ outline behind := by
    rcases hwhole with hwhole | rfl
    · exact outline_append hwhole hbody.1 behind
    · rw [List.append_nil]
      exact (List.append_nil _).symm
  have hheaded : outline (heading ++ (body ++ behind)) =
      (heading, some name) :: (outline body ++ outline behind) := by
    have hlines : ∀ line ∈ [heading], IsLine line := List.forall_mem_singleton.2 hline
    have hpieces : pieces (heading ++ (body ++ behind)) = heading :: pieces (body ++ behind) := by
      simpa using pieces_flatten_append hlines (body ++ behind)
    rw [outline_eq, hpieces, marked_cons_heading hheading, ← outline_eq, hrest]
  have htitle : isHeaded title (heading, some name) = true := hname
  rw [section?_eq, List.append_assoc, List.append_assoc, outline_append hbefore.1 hbefore.2.1,
    hheaded, sectionAmong?_append hbefore.2.2, sectionAmong?_headed htitle hbody.2 hbehind,
    outline_eq, map_fst_marked, flatten_pieces]

/-- A passage in front is passed over. -/
theorem Passage.sectionAmong?_append (passage : Passage) (title : Text)
    (outline : List (Text × Option Text)) :
    sectionAmong? title (marked passage.lines ++ outline) = sectionAmong? title outline :=
  Markdown.sectionAmong?_append
    (fun line hline => isHeaded_of_none title (passage.plain line hline)) outline

/-- Behind a chunk, another heading follows or nothing. -/
theorem head?_marked_chunks (chunks : List Chunk) :
    (marked (chunks.flatMap Chunk.lines)).head?.all fun line => line.2.isSome := by
  cases chunks with
  | nil => rfl
  | cons chunk rest =>
    rw [List.flatMap_cons, chunk.marked_append]
    rfl

/-- The section with a title among chunks is the body of the first chunk with the title. -/
theorem sectionAmong?_chunks (title : Text) (chunks : List Chunk) :
    sectionAmong? title (marked (chunks.flatMap Chunk.lines)) =
      (chunks.find? fun chunk => sameIgnoringCase chunk.title title).map fun chunk =>
        chunk.body.text := by
  induction chunks with
  | nil => rfl
  | cons chunk rest ih =>
    rw [List.flatMap_cons, chunk.marked_append, List.cons_append]
    by_cases h : sameIgnoringCase chunk.title title = true
    · have hheaded : isHeaded title (chunk.heading, some chunk.title) = true := by
        simpa [isHeaded] using h
      rw [sectionAmong?_headed hheaded chunk.body.plain (head?_marked_chunks rest), map_fst_marked,
        List.find?_cons_of_pos (by exact h)]
      rfl
    · have hheaded : isHeaded title (chunk.heading, some chunk.title) = false := by
        simpa [isHeaded] using h
      rw [sectionAmong?_cons hheaded, chunk.body.sectionAmong?_append, ih,
        List.find?_cons_of_neg (by exact h)]

/-- The section of a sectioned document with a title is the body of its first chunk with the
title. -/
theorem section?_text (doc : Sectioned) (title : Text) :
    Markdown.section? doc.text title = doc.body? title := by
  rw [section?_eq, doc.outline_text, doc.preamble.sectionAmong?_append, sectionAmong?_chunks]
  rfl

end StyleDocs.Markdown
