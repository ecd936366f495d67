import StyleDocs.Markdown.ValueTable
import StyleDocs.Proofs.Markdown.Passage
import StyleDocs.Proofs.Text.Segment
import StyleDocs.Proofs.Text.Strip
import StyleDocs.Proofs.ValueList

/-!
# Tables that are read back

The rows of a text are the rows of its passages, one after the other: code has none, and a line
without a bar is none. A table that is written with a value and a description in each row, the value
between backquotes, is read back row by row, and neither its header nor its rule counts as one.
-/

namespace StyleDocs.Markdown

open Text

/-! ### Rows of passages -/

/-- The rows among some lines. -/
def rowsAmong (lines : List Text) : List (Text × Text) :=
  (lines.zip (fenced lines)).filterMap fun
    | (_, true) => none
    | (line, false) => row? (chomp line)

theorem rows_eq (t : Text) : rows t = rowsAmong (pieces t) := by
  rw [rows, fenced_lines, lines, List.zip_map_left, List.filterMap_map, rowsAmong]
  refine List.filterMap_congr fun entry _ => ?_
  obtain ⟨line, inside⟩ := entry
  cases inside <;> rfl

/-- Lines that leave no fence open do not matter to the rows behind them. -/
theorem rowsAmong_append {a : List Text} (h : Even (a.countP isFence)) (b : List Text) :
    rowsAmong (a ++ b) = rowsAmong a ++ rowsAmong b := by
  rw [rowsAmong, fenced_append h, List.zip_append (length_fenced a).symm, List.filterMap_append]
  rfl

theorem rowsAmong_cons {line : Text} (h : isFence line = false) (lines : List Text) :
    rowsAmong (line :: lines) = (row? (chomp line)).toList ++ rowsAmong lines := by
  rw [rowsAmong, fenced_cons h, List.zip_cons_cons, List.filterMap_cons]
  cases hrow : row? (chomp line) <;> simp [hrow, rowsAmong]

/-- Where no line is a fence, every line is looked at. -/
theorem rowsAmong_of_no_fence {lines : List Text} (h : ∀ line ∈ lines, isFence line = false) :
    rowsAmong lines = lines.filterMap fun line => row? (chomp line) := by
  induction lines with
  | nil => rfl
  | cons line lines ih =>
    rw [rowsAmong_cons (h line List.mem_cons_self), List.filterMap_cons,
      ih fun l hl => h l (List.mem_cons_of_mem _ hl)]
    cases row? (chomp line) <;> rfl

namespace Passage

/-- The rows of a passage. -/
def rows (passage : Passage) : List (Text × Text) := rowsAmong passage.lines

theorem rows_append (a b : Passage) : (a ++ b).rows = a.rows ++ b.rows :=
  rowsAmong_append a.paired b.lines

theorem rows_ofPlain (lines : List Text)
    (h : ∀ line ∈ lines, IsLine line ∧ isFence line = false ∧ headingTitle? line = none) :
    (ofPlain lines h).rows = lines.filterMap fun line => row? (chomp line) :=
  rowsAmong_of_no_fence fun line hline => (h line hline).2.1

/-- Blank lines are no rows. -/
theorem rows_blank (n : Nat) : (blank n).rows = [] := by
  rw [blank, rows_ofPlain, List.filterMap_eq_nil_iff]
  intro line hline
  rw [List.eq_of_mem_replicate hline]
  rfl

theorem rows_between_blanks (n m : Nat) (passage : Passage) :
    (blank n ++ passage ++ blank m).rows = passage.rows := by
  rw [rows_append, rows_append, rows_blank, rows_blank, List.nil_append, List.append_nil]

/-- Code has no rows, whatever it says. -/
theorem rows_block (info code : Text) (hinfo : '\n' ∉ info)
    (hcode : ∀ line ∈ splitAt '\n' code, isFence line = false) :
    (block info code hinfo hcode).rows = [] := by
  rw [rows, rowsAmong, List.filterMap_eq_nil_iff]
  intro entry hentry
  obtain ⟨line, inside⟩ := entry
  have hinside := (List.of_mem_zip hentry).2
  rw [block, fenced_block (isFence_opening info) (by decide) (isFence_codeLines hcode),
    List.mem_map] at hinside
  obtain ⟨-, -, rfl⟩ := hinside
  rfl

end Passage

theorem Chunk.rowsAmong_lines (chunk : Chunk) :
    rowsAmong chunk.lines = (row? (chomp chunk.heading)).toList ++ chunk.body.rows :=
  rowsAmong_cons (not_isFence_of_heading chunk.isHeading) chunk.body.lines

theorem Chunk.paired (chunk : Chunk) : Even (chunk.lines.countP isFence) := by
  rw [Chunk.lines, List.countP_cons_of_neg (by simp [not_isFence_of_heading chunk.isHeading])]
  exact chunk.body.paired

/-- The rows of a sectioned document are those of its parts, in order. -/
theorem Sectioned.rows_text (doc : Sectioned) :
    rows doc.text = doc.preamble.rows ++ doc.chunks.flatMap fun chunk => rowsAmong chunk.lines := by
  have hchunks : ∀ chunks : List Chunk, rowsAmong (chunks.flatMap Chunk.lines) =
      chunks.flatMap fun chunk => rowsAmong chunk.lines := by
    intro chunks
    induction chunks with
    | nil => rfl
    | cons chunk chunks ih =>
      rw [List.flatMap_cons, rowsAmong_append chunk.paired, ih, List.flatMap_cons]
  rw [rows_eq, doc.pieces_text, rowsAmong_append doc.preamble.paired, hchunks]
  rfl

/-! ### Cells -/

/-- The note that marks the default stands in parentheses, and only white space may stand around
its word. -/
theorem exists_of_defaultNote {t rest : Text} {found : Unit}
    (h : defaultNote t = some (found, rest)) :
    ∃ a word b, (∀ c ∈ a, isBlank c = true) ∧ word.map Char.toLower = "default".toList ∧
      (∀ c ∈ b, isBlank c = true) ∧ t = ('(' :: (a ++ word ++ b) ++ [')']) ++ rest := by
  have hblank : ∀ u : Text, ∀ c ∈ u.takeWhile isBlank, isBlank c = true := fun u =>
    List.all_eq_true.1 List.all_takeWhile
  unfold defaultNote at h
  split at h
  · next t' =>
    dsimp only at h
    split at h
    · next hword =>
      split at h
      · next rest' hclose =>
        cases h
        have hfront := List.takeWhile_append_dropWhile (p := isBlank) (l := t')
        have hback := List.takeWhile_append_dropWhile (p := isBlank)
          (l := (trimStart isBlank t').drop 7)
        rw [trimStart] at hclose
        rw [hclose] at hback
        refine ⟨t'.takeWhile isBlank, (trimStart isBlank t').take 7,
          ((trimStart isBlank t').drop 7).takeWhile isBlank, hblank _,
          by simpa [sameIgnoringCase] using hword, hblank _, ?_⟩
        calc '(' :: t' = '(' :: (t'.takeWhile isBlank ++ trimStart isBlank t') := by
              rw [trimStart, hfront]
          _ = '(' :: (t'.takeWhile isBlank ++ ((trimStart isBlank t').take 7 ++
                (trimStart isBlank t').drop 7)) := by rw [List.take_append_drop]
          _ = _ := by
            conv_lhs => rw [← hback]
            simp
      · cases h
    · cases h
  · cases h

theorem opensWith_defaultNote : Pattern.OpensWith defaultNote '(' := by
  intro t found rest h
  obtain ⟨a, word, b, -, -, -, rfl⟩ := exists_of_defaultNote h
  exact ⟨a ++ word ++ b ++ [')'], by simp⟩

/-- What a cell without a parenthesis and without backquotes names is the cell without the white
space around it. -/
theorem cellValue_eq_strip {cell : Text} (hnote : '(' ∉ cell) (hquote : backquote ∉ cell) :
    cellValue cell = strip cell := by
  have hstripped : ∀ c ∈ strip cell, (c == backquote) = false := by
    obtain ⟨a, b, hcell, -, -⟩ := exists_trimEnds isBlank cell
    intro c hc
    have hmem : c ∈ cell := hcell ▸ List.mem_append_left b (List.mem_append_right a hc)
    simpa using ne_of_mem_of_not_mem hmem hquote
  have htrimmed : trimEnds (· == backquote) (strip cell) = strip cell :=
    trimEnds_of_forall hstripped
  rw [cellValue, dropDefault, opensWith_defaultNote.substitute_eq_self _ hnote, htrimmed,
    strip_eq_self (hasBlankEnd_strip cell)]

/-- The rule of a table is made of hyphens and colons. -/
theorem mem_of_isRule {cell : Text} (h : isRule cell = true) : ∀ c ∈ cell, c = '-' ∨ c = ':' := by
  have hcolon : ∀ c ∈ cell, c = ':' ∨ c ∈ (after? [':'] cell).getD cell := by
    intro c hc
    cases hafter : after? [':'] cell with
    | none => exact Or.inr hc
    | some rest =>
      rw [after?_eq_some_iff.1 hafter] at hc
      simpa using hc
  simp only [isRule, Bool.and_eq_true] at h
  generalize (after? [':'] cell).getD cell = inner at hcolon h
  intro c hc
  rcases hcolon c hc with rfl | hinner
  · exact Or.inr rfl
  split at h
  · next hlast =>
    rw [← List.dropLast_append_getLast? ':' hlast, List.mem_append, List.mem_singleton] at hinner
    rcases hinner with hinner | rfl
    · exact Or.inl (by simpa using List.all_eq_true.1 h.2 c hinner)
    · exact Or.inr rfl
  · exact Or.inl (by simpa using List.all_eq_true.1 h.2 c hinner)

/-! ### Lines of a table -/

/-- A line between bars, with a bar behind its first cell. -/
def barred (first rest : Text) : Text := '|' :: first ++ '|' :: rest ++ ['|']

theorem chomp_barred (first rest : Text) :
    chomp (barred first rest ++ ['\n']) = barred first rest := by
  refine chomp_append ?_
  rw [barred, List.getLast?_concat]
  simp

theorem firstCells?_barred {first : Text} (h : '|' ∉ first) (rest : Text) :
    firstCells? (barred first rest) = some (first, (rest ++ ['|']).takeWhile (· != '|')) := by
  have hcell : ∀ c ∈ first, (c != '|') = true := by
    intro c hc
    simpa using ne_of_mem_of_not_mem hc h
  have hgap : trimStart isGap (barred first rest) = barred first rest := rfl
  have hbar : after? ['|'] (barred first rest) = some (first ++ '|' :: (rest ++ ['|'])) := by
    simp [barred, after?]
  rw [firstCells?]
  simp only [hgap, hbar, Option.getD_some]
  rw [dropWhile_append_cons hcell (by simp), takeWhile_append_cons hcell (by simp)]

/-- A line of a table is one line, no fence and no heading. -/
theorem plain_barred {first rest : Text} (hfirst : '\n' ∉ first) (hrest : '\n' ∉ rest) :
    IsLine (barred first rest ++ ['\n']) ∧ isFence (barred first rest ++ ['\n']) = false ∧
      headingTitle? (barred first rest ++ ['\n']) = none :=
  ⟨isLine_append (by simp [barred, hfirst, hrest]), rfl, headingTitle?_cons_of_ne (by decide) _⟩

/-- A row of a table of values. -/
structure TableRow where
  /-- The value. -/
  value : Text
  /-- Its description. -/
  description : Text
  /-- There is a value. -/
  named : value ≠ []
  /-- It is one word in one cell. -/
  oneWord : value.all (fun c => !isBlank c && c != '|') = true
  /-- It has no backquote at either end. -/
  bare : value.head?.any (· == backquote) = false ∧ value.getLast?.any (· == backquote) = false
  /-- It is not the title of the column. -/
  notTitle : sameIgnoringCase value "value".toList = false
  /-- It does not look like a rule. -/
  notRule : isRule value = false
  /-- It does not carry the note of the default, in any case. -/
  noNote : includes "(default)".toList (value.map Char.toLower) = false
  /-- There is a description. -/
  described : description ≠ []
  /-- It has no white space around it. -/
  trimmed : hasBlankEnd description = false
  /-- It stays in its cell and on its line. -/
  oneCell : '|' ∉ description ∧ '\n' ∉ description

namespace TableRow

/-- The first cell: the value between backquotes. -/
def firstCell (row : TableRow) : Text := [' ', backquote] ++ row.value ++ [backquote, ' ']

/-- The second cell: the description. -/
def secondCell (row : TableRow) : Text := [' '] ++ row.description ++ [' ']

/-- The row as it is written. -/
def line (row : TableRow) : Text :=
  "| \x60".toList ++ row.value ++ "\x60 | ".toList ++ row.description ++ " |\n".toList

/-- The row as it is read. -/
def pair (row : TableRow) : Text × Text := (row.value, row.description)

theorem line_eq (row : TableRow) : row.line = barred row.firstCell row.secondCell ++ ['\n'] := by
  have hline : row.line = ['|', ' ', backquote] ++ row.value ++ [backquote, ' ', '|', ' '] ++
      row.description ++ [' ', '|', '\n'] := rfl
  rw [hline]
  simp [barred, firstCell, secondCell]

theorem of_mem_value (row : TableRow) : ∀ c ∈ row.value, isBlank c = false ∧ c ≠ '|' := by
  intro c hc
  simpa using List.all_eq_true.1 row.oneWord c hc

theorem not_mem_value {c : Char} (h : isBlank c = true ∨ c = '|') (row : TableRow) :
    c ∉ row.value := by
  intro hmem
  obtain ⟨hblank, hbar⟩ := row.of_mem_value c hmem
  rcases h with h | h
  · rw [hblank] at h
    cases h
  · exact hbar h

/-- The value does not carry the note of the default. -/
theorem dropDefault_firstCell (row : TableRow) : dropDefault row.firstCell = row.firstCell := by
  refine substitute_eq_self _ fun s hs => ?_
  cases hnote : defaultNote s with
  | none => rfl
  | some found =>
    obtain ⟨a, word, b, ha, hword, hb, rfl⟩ := exists_of_defaultNote hnote
    -- What stands around the value has no parenthesis, so the whole note lies in the value.
    have hvalue : '(' :: (a ++ word ++ b) ++ [')'] <:+: row.value := by
      have hcell : '(' :: (a ++ word ++ b) ++ [')'] <:+: row.firstCell :=
        (List.prefix_append _ _).isInfix.trans hs.isInfix
      refine infix_of_infix_append_right (u := [backquote, ' ']) (by decide) ?_
      refine infix_of_infix_append_left (u := [' ', backquote]) (by decide) ?_
      simpa [firstCell] using hcell
    have hblankless : ∀ u : Text, (∀ c ∈ u, isBlank c = true) →
        (∀ c ∈ u, c ∈ a ++ word ++ b) → u = [] := by
      intro u hblank hmem
      refine List.eq_nil_iff_forall_not_mem.2 fun c hc => ?_
      have hnote : c ∈ '(' :: (a ++ word ++ b) ++ [')'] :=
        List.mem_append_left _ (List.mem_cons_of_mem _ (hmem c hc))
      exact row.not_mem_value (Or.inl (hblank c hc)) (hvalue.subset hnote)
    have hword' : a = [] ∧ b = [] :=
      ⟨hblankless a ha fun c hc => by simp [hc], hblankless b hb fun c hc => by simp [hc]⟩
    rw [hword'.1, hword'.2] at hvalue
    have hlower := hvalue.map Char.toLower
    have hnot := row.noNote
    rw [Bool.eq_false_iff, Ne, includes_iff_infix] at hnot
    refine absurd ?_ hnot
    simpa [hword] using hlower

theorem cellValue_firstCell (row : TableRow) : cellValue row.firstCell = row.value := by
  have hcell : row.firstCell = [' '] ++ ([backquote] ++ row.value ++ [backquote]) ++ [' '] := by
    simp [firstCell]
  rw [cellValue, row.dropDefault_firstCell, hcell,
    trimEnds_strip_quoted (List.all_eq_true.1 rfl) (List.all_eq_true.1 rfl) row.bare.1
      row.bare.2]
  exact trimEnds_of_forall fun c hc => (row.of_mem_value c hc).1

theorem namesValue (row : TableRow) : namesValue row.value = true := by
  rw [Markdown.namesValue, row.notTitle, row.notRule, row.oneWord]
  simp [row.named]

/-- A row is read back. -/
theorem row?_line (row : TableRow) : row? (chomp row.line) = some row.pair := by
  have hfirst : '|' ∉ row.firstCell := by
    have hvalue : '|' ∉ row.value := row.not_mem_value (Or.inr rfl)
    simp [firstCell, hvalue, backquote]
  have hsecond : (row.secondCell ++ ['|']).takeWhile (· != '|') = row.secondCell := by
    refine takeWhile_append_cons (fun c hc => ?_) (by simp) []
    have hbar : '|' ∉ row.secondCell := by simp [secondCell, row.oneCell.1]
    simpa using ne_of_mem_of_not_mem hc hbar
  have hdescription : strip row.secondCell = row.description :=
    strip_append (List.all_eq_true.1 rfl) (List.all_eq_true.1 rfl) row.trimmed
  rw [row.line_eq, chomp_barred, row?, firstCells?_barred hfirst, hsecond]
  dsimp only
  rw [row.cellValue_firstCell, hdescription]
  simp [row.namesValue, row.described, pair]

theorem plain_line (row : TableRow) :
    IsLine row.line ∧ isFence row.line = false ∧ headingTitle? row.line = none := by
  have hvalue : '\n' ∉ row.value := row.not_mem_value (Or.inl (by decide))
  rw [row.line_eq]
  exact plain_barred (by simp [firstCell, hvalue, backquote]) (by simp [secondCell, row.oneCell.2])

end TableRow

/-- The two lines at the top of a table of values. -/
structure TableHead where
  /-- The title of the first column, with the white space around it. -/
  title : Text
  /-- What stands behind it on its line, up to the last bar. -/
  titles : Text
  /-- The rule under the first title, with the white space around it. -/
  rule : Text
  /-- What stands behind it on its line, up to the last bar. -/
  rules : Text
  /-- The first column is the column of the values. -/
  isTitle : sameIgnoringCase (strip title) "value".toList = true
  /-- The rule is one. -/
  isRule : isRule (strip rule) = true
  /-- Both are one line. -/
  oneLine : '\n' ∉ title ++ titles ∧ '\n' ∉ rule ++ rules

namespace TableHead

/-- The line of the titles. -/
def titleLine (head : TableHead) : Text := '|' :: head.title ++ '|' :: head.titles ++ "|\n".toList

/-- The line of the rules. -/
def ruleLine (head : TableHead) : Text := '|' :: head.rule ++ '|' :: head.rules ++ "|\n".toList

theorem titleLine_eq (head : TableHead) :
    head.titleLine = barred head.title head.titles ++ ['\n'] := by
  simp [titleLine, barred]

theorem ruleLine_eq (head : TableHead) :
    head.ruleLine = barred head.rule head.rules ++ ['\n'] := by
  simp [ruleLine, barred]

end TableHead

/-- A line is no row if its first cell is a word that names no value and has nothing special about
it. -/
theorem row?_barred {first : Text} (hword : ∀ c ∈ ['|', '(', backquote], c ∉ strip first)
    (hname : namesValue (strip first) = false) (rest : Text) : row? (barred first rest) = none := by
  have hfirst : ∀ c ∈ ['|', '(', backquote], c ∉ first := by
    intro c hc hmem
    obtain ⟨a, b, happ, ha, hb⟩ := exists_trimEnds isBlank first
    have hblank : isBlank c = false := by
      rw [List.mem_cons, List.mem_cons, List.mem_singleton] at hc
      rcases hc with rfl | rfl | rfl <;> decide
    rw [happ, List.mem_append, List.mem_append] at hmem
    rcases hmem with (hmem | hmem) | hmem
    · rw [ha c hmem] at hblank
      cases hblank
    · exact hword c hc hmem
    · rw [hb c hmem] at hblank
      cases hblank
  rw [row?, firstCells?_barred (hfirst '|' (by simp))]
  dsimp only
  rw [cellValue_eq_strip (hfirst '(' (by simp)) (hfirst backquote (by simp)), hname]
  rfl

namespace TableHead

theorem row?_titleLine (head : TableHead) : row? (chomp head.titleLine) = none := by
  have hletters : (strip head.title).map Char.toLower = "value".toList := by
    simpa [sameIgnoringCase] using head.isTitle
  rw [head.titleLine_eq, chomp_barred]
  refine row?_barred ?_ ?_ _
  · intro c hc hmem
    have hlower : c.toLower ∈ "value".toList := hletters ▸ List.mem_map_of_mem hmem
    rw [List.mem_cons, List.mem_cons, List.mem_singleton] at hc
    rcases hc with rfl | rfl | rfl <;> exact absurd hlower (by decide)
  · rw [namesValue, head.isTitle]
    simp

theorem row?_ruleLine (head : TableHead) : row? (chomp head.ruleLine) = none := by
  rw [head.ruleLine_eq, chomp_barred]
  refine row?_barred ?_ ?_ _
  · intro c hc hmem
    rcases mem_of_isRule head.isRule c hmem with rfl | rfl <;> exact absurd hc (by decide)
  · rw [namesValue, head.isRule]
    simp

end TableHead

/-- A table of values as it is written. -/
structure WrittenTable where
  /-- The lines at its top. -/
  head : TableHead
  /-- Its rows. -/
  rows : List TableRow
  /-- No value has two rows. -/
  distinct : (rows.map TableRow.value).Nodup

namespace WrittenTable

/-- The lines of a table. -/
def lines (table : WrittenTable) : List Text :=
  table.head.titleLine :: table.head.ruleLine :: table.rows.map TableRow.line

/-- A table as a passage. -/
def passage (table : WrittenTable) : Passage :=
  .ofPlain table.lines fun line hline => by
    have htitle := table.head.oneLine.1
    have hrule := table.head.oneLine.2
    rw [List.mem_append, not_or] at htitle hrule
    rw [lines, List.mem_cons, List.mem_cons, List.mem_map] at hline
    rcases hline with rfl | rfl | ⟨row, -, rfl⟩
    · rw [table.head.titleLine_eq]
      exact plain_barred htitle.1 htitle.2
    · rw [table.head.ruleLine_eq]
      exact plain_barred hrule.1 hrule.2
    · exact row.plain_line

/-- The values of a table with their descriptions. -/
def values (table : WrittenTable) : ValueList where
  pairs := table.rows.map TableRow.pair
  distinct := by
    rw [List.map_map]
    exact table.distinct

/-- The rows of a table are read back, and nothing else is. -/
theorem rows_passage (table : WrittenTable) : table.passage.rows = table.values.pairs := by
  have hrows : (table.rows.map TableRow.line).filterMap (fun line => row? (chomp line)) =
      table.rows.map TableRow.pair := by
    rw [List.filterMap_map, ← List.filterMap_eq_map]
    exact List.filterMap_congr fun row _ => row.row?_line
  rw [passage, Passage.rows_ofPlain, lines, List.filterMap_cons, List.filterMap_cons,
    table.head.row?_titleLine, table.head.row?_ruleLine]
  exact hrows

end WrittenTable

end StyleDocs.Markdown
