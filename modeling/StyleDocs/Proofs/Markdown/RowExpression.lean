import StyleDocs.Proofs.Markdown.ValueRow
import StyleDocs.Proofs.Text.Expression

/-!
# Rows by expression

The rows of a table of values can be found by regular expressions: one for the cells of a line, and
further ones for the note of the default, for a rule and for a single word. The expression for the
cells fits a line in several ways, since a blank in front of the value may belong to the gap or to
the value, and the bar in front may be left out. In the way that counts the gap is taken as a whole,
if there is such a way, and then the groups hold the first two cells up to the blanks around them.
If there is none, then the first cell is empty, or there is no cell at all. What the expression can
still fit, by giving back some of the gap, has a blank value and is no row.
-/

namespace StyleDocs.Markdown

open Text Expression

/-! ### The expressions -/

/-- A bar between cells. -/
def bar : Expression := one (· == '|')

/-- The cells of a line, from the bar in front of them: the first has at least one character, and
the gaps around a cell are not part of it. -/
def cellsExpression : Expression :=
  row [maybe bar, many isGap, group (seq (one (· != '|')) (few (· != '|'))), many isGap, bar,
    many isGap, group (few (· != '|')), many isGap, maybe (seq bar (many (· != '\n'))),
    maybe (one (· == '\r')), stop]

/-- A line with cells. -/
def lineExpression : Expression := seq (many isGap) cellsExpression

/-- The note that marks the default. -/
def noteExpression : Expression :=
  row [one (· == '('), many isBlank, word "default".toList, many isBlank, one (· == ')')]

/-- The rule under the column titles. -/
def ruleExpression : Expression :=
  row [maybe (one (· == ':')), one (· == '-'), many (· == '-'), maybe (one (· == ':')), stop]

/-- One word in one cell. -/
def literalExpression : Expression :=
  row [one fun c => !isBlank c && c != '|', many fun c => !isBlank c && c != '|', stop]

/-- What an expression finds at the front of a text. -/
def pattern (e : Expression) : Pattern Unit := fun t => (first? e t).map fun way => ((), way.rest)

/-- The value and the description of a line on which the expressions find a row. -/
def matchedRow? (line : Text) : Option (Text × Text) :=
  match first? lineExpression line with
  | some ⟨_, [first, second], _⟩ =>
    let value := substitute (pattern noteExpression) (fun _ => []) first
    let value := strip (trimEnds (· == backquote) (strip value))
    let description := strip second
    if value.isEmpty || description.isEmpty then none
    else if sameIgnoringCase value "value".toList || isMatch ruleExpression value then none
    else if !isMatch literalExpression value then none
    else some (value, description)
  | _ => none

/-! ### What the expressions fit -/

theorem fits_noteExpression_iff {u rest : Text} {gs : List Text} :
    Fits noteExpression u gs rest ↔ IsNote u ∧ gs = [] := by
  simp only [noteExpression, row, fits_seq_one_iff, fits_seq_many_iff, fits_seq_word_iff,
    fits_nothing_iff, IsNote, beq_iff_eq]
  constructor
  · rintro ⟨_, _, rfl, rfl, a, _, rfl, ha, word, _, rfl, hword, b, _, rfl, hb, _, _, rfl, rfl,
      rfl, rfl⟩
    exact ⟨⟨a, word, b, ha, hword, hb, by simp⟩, rfl⟩
  · rintro ⟨⟨a, word, b, ha, hword, hb, rfl⟩, rfl⟩
    exact ⟨'(', a ++ (word ++ (b ++ [')'])), by simp, rfl, a, _, rfl, ha, word, _, rfl, hword, b, _,
      rfl, hb, ')', [], rfl, rfl, rfl, rfl⟩

theorem fits_ruleExpression_iff {u rest : Text} {gs : List Text} :
    Fits ruleExpression u gs rest ↔ IsRule u ∧ gs = [] ∧ rest = [] := by
  simp only [ruleExpression, row, fits_seq_maybe_one_iff, fits_seq_one_iff, fits_seq_many_iff,
    fits_seq_stop_iff, IsRule, beq_iff_eq, exists_eq_right]
  constructor
  · rintro ⟨a, _, rfl, ha, _, _, rfl, rfl, hyphens, _, rfl, hhyphens, b, _, rfl, hb, rfl, hends⟩
    refine ⟨⟨a, hyphens.length, b, ha, hb, ?_⟩, hends⟩
    rw [List.replicate_succ, ← List.eq_replicate_iff.2 ⟨rfl, hhyphens⟩]
    simp
  · rintro ⟨⟨a, n, b, ha, hb, rfl⟩, hends⟩
    exact ⟨a, '-' :: (List.replicate n '-' ++ b), by simp [List.replicate_succ], ha, '-', _, rfl,
      rfl, _, b, rfl, fun c hc => List.eq_of_mem_replicate hc, b, [], by simp, hb, rfl, hends⟩

theorem fits_literalExpression_iff {u rest : Text} {gs : List Text} :
    Fits literalExpression u gs rest ↔
      (u ≠ [] ∧ ∀ c ∈ u, isBlank c = false ∧ c ≠ '|') ∧ gs = [] ∧ rest = [] := by
  simp only [literalExpression, row, fits_seq_one_iff, fits_seq_many_iff, fits_seq_stop_iff,
    Bool.and_eq_true, Bool.not_eq_true', bne_iff_ne]
  constructor
  · rintro ⟨c, _, rfl, hc, cs, _, rfl, hcs, rfl, hends⟩
    rw [List.append_nil]
    exact ⟨⟨List.cons_ne_nil c cs, List.forall_mem_cons.2 ⟨hc, hcs⟩⟩, hends⟩
  · rintro ⟨⟨hne, hu⟩, hends⟩
    obtain ⟨c, cs, rfl⟩ := List.exists_cons_of_ne_nil hne
    rw [List.forall_mem_cons] at hu
    exact ⟨c, cs, rfl, hu.1, cs, [], by simp, hu.2, rfl, hends⟩

/-- An expression that goes to the end of a text. -/
theorem isMatch_whole_iff {e : Expression} {P : Text → Prop}
    (h : ∀ u gs rest, Fits e u gs rest ↔ P u ∧ gs = [] ∧ rest = []) (t : Text) :
    isMatch e t = true ↔ P t := by
  rw [isMatch_iff]
  constructor
  · rintro ⟨u, gs, rest, hfits, rfl⟩
    obtain ⟨hu, -, rfl⟩ := (h u gs rest).1 hfits
    rwa [List.append_nil]
  · intro ht
    exact ⟨t, [], [], (h t [] []).2 ⟨ht, rfl, rfl⟩, (List.append_nil t).symm⟩

/-- The expression finds a note where the scanner finds it. -/
theorem pattern_noteExpression : pattern noteExpression = defaultNote := by
  funext t
  cases hfirst : first? noteExpression t with
  | none =>
    rw [pattern, hfirst, Option.map_none, eq_comm, defaultNote_eq_none_iff]
    rintro n hn ⟨rest, rfl⟩
    have hfits : Fits noteExpression n [] rest := fits_noteExpression_iff.2 ⟨hn, rfl⟩
    have hsome := first?_isSome_of_fits hfits
    rw [hfirst] at hsome
    cases hsome
  | some way =>
    obtain ⟨hfits, ht⟩ := fits_of_first? hfirst
    rw [pattern, hfirst, Option.map_some, eq_comm, defaultNote_eq_some_iff]
    exact ⟨way.text, (fits_noteExpression_iff.1 hfits).1, ht⟩

/-! ### The cells of a line -/

/-- The value and the description in two cells. -/
def namedRow? (first second : Text) : Option (Text × Text) :=
  if namesValue (cellValue first) && !(strip second).isEmpty then
    some (cellValue first, strip second)
  else none

theorem IsCells.row?_eq {line first second : Text} (h : IsCells line first second) :
    row? line = namedRow? first second := by
  rw [row?, h.firstCells?_eq, namedRow?]

theorem namedRow?_of_gaps {first : Text} (h : ∀ c ∈ first, isGap c = true) (second : Text) :
    namedRow? first second = none := by
  have hvalue : cellValue first = [] := by
    have hbetween := cellValue_between h (b := []) (by simp) []
    rwa [List.append_nil, List.append_nil] at hbetween
  rw [namedRow?, hvalue]
  rfl

theorem namedRow?_between {a b c d : Text} (ha : ∀ x ∈ a, isGap x = true)
    (hb : ∀ x ∈ b, isGap x = true) (hc : ∀ x ∈ c, isBlank x = true)
    (hd : ∀ x ∈ d, isBlank x = true) (first second : Text) :
    namedRow? (a ++ first ++ b) (c ++ second ++ d) = namedRow? first second := by
  have hstrip : strip (c ++ second ++ d) = strip second := trimEnds_between hc hd second
  rw [namedRow?, cellValue_between ha hb, hstrip, namedRow?]

/-- The texts of the groups are handled as the scanner handles the cells. -/
theorem matchedRow?_eq_namedRow? {line u v w rest : Text}
    (h : first? lineExpression line = some ⟨u, [v, w], rest⟩) :
    matchedRow? line = namedRow? v w := by
  have hliteral : isMatch literalExpression (cellValue v) =
      (!(cellValue v).isEmpty && (cellValue v).all fun c => !isBlank c && c != '|') := by
    rw [Bool.eq_iff_iff, isMatch_whole_iff fun _ _ _ => fits_literalExpression_iff]
    simp
  have hrule : isMatch ruleExpression (cellValue v) = isRule (cellValue v) := by
    rw [Bool.eq_iff_iff, isRule_iff]
    exact isMatch_whole_iff (fun _ _ _ => fits_ruleExpression_iff) _
  rw [matchedRow?, h, pattern_noteExpression]
  dsimp only
  rw [← dropDefault, ← cellValue, hrule, hliteral, namedRow?, namesValue]
  generalize (cellValue v).isEmpty = empty, sameIgnoringCase (cellValue v) "value".toList = title,
    isRule (cellValue v) = rule, ((cellValue v).all fun c => !isBlank c && c != '|') = oneWord,
    (strip w).isEmpty = undescribed
  cases empty <;> cases title <;> cases rule <;> cases oneWord <;> cases undescribed <;> rfl

/-- How the expression for the cells fits a text `u`, with the cells `v` and `w` in its groups. -/
structure FitsCells (u v w : Text) : Prop where
  /-- There is a first cell. -/
  named : v ≠ []
  /-- No cell has a bar in it. -/
  bars : '|' ∉ v ∧ '|' ∉ w
  /-- How the text is put together. -/
  whole : ∃ lead a b c d further ending,
    u = lead ++ (a ++ v ++ b) ++ '|' :: ((c ++ w ++ d) ++ (further ++ ending)) ∧
    (lead = [] ∨ lead = ['|']) ∧ (∀ x ∈ a ++ b ++ c ++ d, isGap x = true) ∧
    (further = [] ∨ ∃ cells, further = '|' :: cells ∧ '\n' ∉ cells) ∧
    (ending = [] ∨ ending = ['\r'])

/-- Behind the second cell there is nothing, or a bar and anything on the line. -/
theorem fits_furtherCells_iff {f : Expression} {u rest : Text} {gs : List Text} :
    Fits (seq (maybe (seq (one (· == '|')) (many (· != '\n')))) f) u gs rest ↔
      ∃ further v, u = further ++ v ∧
        (further = [] ∨ ∃ cells, further = '|' :: cells ∧ '\n' ∉ cells) ∧ Fits f v gs rest := by
  simp only [fits_seq_maybe_iff, fits_seq_seq_iff, fits_seq_one_iff, fits_seq_many_iff, beq_iff_eq,
    bne_iff_ne]
  constructor
  · rintro (⟨_, _, rfl, rfl, cells, v, rfl, hcells, hf⟩ | hf)
    · exact ⟨'|' :: cells, v, rfl, Or.inr ⟨cells, rfl, fun h => hcells _ h rfl⟩, hf⟩
    · exact ⟨[], u, rfl, Or.inl rfl, hf⟩
  · rintro ⟨_, v, rfl, rfl | ⟨cells, rfl, hcells⟩, hf⟩
    · exact Or.inr hf
    · exact Or.inl ⟨'|', cells ++ v, rfl, rfl, cells, v, rfl,
        fun c hc => ne_of_mem_of_not_mem hc hcells, hf⟩

theorem fits_cellsExpression_iff {u rest : Text} {gs : List Text} :
    Fits cellsExpression u gs rest ↔ ∃ v w, FitsCells u v w ∧ gs = [v, w] ∧ rest = [] := by
  simp only [cellsExpression, row, bar, fits_furtherCells_iff, fits_seq_maybe_one_iff,
    fits_seq_many_iff, fits_seq_one_iff, fits_seq_group_iff, fits_few_iff, fits_seq_stop_iff,
    beq_iff_eq, exists_eq_right, bne_iff_ne]
  constructor
  · rintro ⟨lead, _, rfl, hlead, a, _, rfl, ha, v, _, _, _, rfl, rfl, hv, b, _, rfl, hb, _, _, rfl,
      rfl, c, _, rfl, hc, w, _, _, _, rfl, rfl, ⟨hw, rfl⟩, d, _, rfl, hd, further, _, rfl, hfurther,
      ending, _, rfl, hending, rfl, rfl, rfl⟩
    obtain ⟨x, v, rfl, hx, hv, rfl⟩ := hv
    refine ⟨x :: v, w, ⟨List.cons_ne_nil x v, ⟨?_, fun h => hw _ h rfl⟩, lead, a, b, c, d, further,
      ending, by simp, hlead, ?_, hfurther, hending⟩, rfl, rfl⟩
    · rw [List.mem_cons, not_or]
      exact ⟨Ne.symm hx, fun h => hv _ h rfl⟩
    · simp only [List.forall_mem_append]
      exact ⟨⟨⟨ha, hb⟩, hc⟩, hd⟩
  · rintro ⟨v, w, ⟨hne, ⟨hv, hw⟩, lead, a, b, c, d, further, ending, rfl, hlead, hgaps, hfurther,
      hending⟩, rfl, rfl⟩
    simp only [List.forall_mem_append] at hgaps
    obtain ⟨⟨⟨ha, hb⟩, hc⟩, hd⟩ := hgaps
    obtain ⟨x, v, rfl⟩ := List.exists_cons_of_ne_nil hne
    rw [List.mem_cons, not_or] at hv
    have hcell : ∀ {cell : Text}, '|' ∉ cell → ∀ y ∈ cell, y ≠ '|' :=
      fun h y hy => ne_of_mem_of_not_mem hy h
    exact ⟨lead, a ++ (x :: v ++ (b ++ '|' :: (c ++ (w ++ (d ++ (further ++ ending)))))), by simp,
      hlead, a, _, rfl, ha, x :: v, _, [], [w], rfl, rfl,
      ⟨x, v, rfl, Ne.symm hv.1, hcell hv.2, rfl⟩, b, _, rfl, hb, '|', _, rfl, rfl, c, _, rfl, hc, w,
      _, [], [], rfl, rfl, ⟨hcell hw, rfl⟩, d, _, rfl, hd, further, _, rfl, hfurther, ending, [],
      (List.append_nil _).symm, hending, rfl, rfl, rfl⟩

theorem not_mem_of_gaps {u : Text} {c : Char} (hu : ∀ x ∈ u, isGap x = true)
    (hc : isGap c = false) : c ∉ u := by
  intro hmem
  rw [hu c hmem] at hc
  cases hc

/-- Where the text does not begin with a gap, the cells in the groups are those of the text, up to
the gaps around them. -/
theorem FitsCells.exists_isCells {u v w : Text} (h : FitsCells u v w)
    (hu : u.head?.any isGap = false) :
    ∃ first second, IsCells u first second ∧ namedRow? first second = namedRow? v w := by
  obtain ⟨hne, ⟨hv, hw⟩, lead, a, b, c, d, further, ending, rfl, hlead, hgaps, hfurther,
    hending⟩ := h
  simp only [List.forall_mem_append] at hgaps
  obtain ⟨⟨⟨ha, hb⟩, hc⟩, hd⟩ := hgaps
  have hblank : ∀ {gap : Text}, (∀ x ∈ gap, isGap x = true) → ∀ x ∈ gap, isBlank x = true :=
    fun hgap x hx => isBlank_of_isGap (hgap x hx)
  have hbar : ∀ {gap : Text}, (∀ x ∈ gap, isGap x = true) → '|' ∉ gap :=
    fun hgap => not_mem_of_gaps hgap (by decide)
  -- A carriage return at the end of the line belongs to the second cell if there is no third.
  obtain ⟨d', rest, hsplit, hd', hbar', hrest⟩ : ∃ d' rest, d ++ (further ++ ending) = d' ++ rest ∧
      (∀ x ∈ d', isBlank x = true) ∧ '|' ∉ d' ∧ (rest = [] ∨ ∃ cells, rest = '|' :: cells) := by
    rcases hfurther with rfl | ⟨cells, rfl, -⟩
    · refine ⟨d ++ ending, [], by simp, ?_, ?_, Or.inl rfl⟩
      · rcases hending with rfl | rfl
        · simpa using hblank hd
        · rw [List.forall_mem_append]
          exact ⟨hblank hd, List.all_eq_true.1 rfl⟩
      · rcases hending with rfl | rfl <;> simp [hbar hd]
    · exact ⟨d, '|' :: (cells ++ ending), by simp, hblank hd, hbar hd, Or.inr ⟨_, rfl⟩⟩
  have hfirst : a ++ v ++ b ≠ [] := by simp [hne]
  obtain ⟨x, cell, hcell⟩ := List.exists_cons_of_ne_nil hfirst
  have hbars : '|' ∉ a ++ v ++ b ∧ '|' ∉ c ++ w ++ d' := by
    simp [hv, hbar ha, hbar hb, hw, hbar hc, hbar']
  refine ⟨a ++ v ++ b, c ++ w ++ d', ⟨hbars, [], lead, rest, ?_, by simp, ?_, hrest⟩,
    namedRow?_between ha hb (hblank hc) hd' v w⟩
  · rw [List.append_assoc (c ++ w), hsplit]
    simp
  · rcases hlead with rfl | rfl
    · refine Or.inr ⟨rfl, x, cell, hcell, ?_⟩
      rw [hcell] at hu
      simpa using hu
    · exact Or.inl rfl

/-- The cells of a line without a line feed are fitted, if the first has any characters. -/
theorem IsCells.fitsCells {line first second : Text} (h : IsCells line first second)
    (hfirst : first ≠ []) (hline : '\n' ∉ line) :
    FitsCells (line.dropWhile isGap) first second := by
  obtain ⟨lead, rest, hstart, hlead, hrest⟩ := h.exists_trimStart
  have hbreak : '\n' ∉ lead ++ (first ++ '|' :: (second ++ rest)) := by
    rw [← hstart]
    exact fun hmem => hline ((List.dropWhile_suffix _).subset hmem)
  refine ⟨hfirst, h.bars, lead, [], [], [], [], rest, [], ?_, ?_, by simp, ?_, Or.inl rfl⟩
  · simpa [trimStart] using hstart
  · exact hlead.symm.imp_left And.left
  · rcases hrest with rfl | ⟨cells, rfl⟩
    · exact Or.inl rfl
    · refine Or.inr ⟨cells, rfl, fun hmem => hbreak ?_⟩
      simp [hmem]

/-- If the expression fits a line when it gives back some of the gap, and the first cell is more
than a gap, then it fits without giving anything back. -/
theorem FitsCells.exists_dropWhile {gap u v w : Text} (h : FitsCells u v w)
    (hgap : ∀ c ∈ gap, isGap c = true) (hv : ∃ c ∈ v, isGap c = false) :
    ∃ v', FitsCells ((gap ++ u).dropWhile isGap) v' w := by
  obtain ⟨hne, hbars, lead, a, b, c, d, further, ending, rfl, hlead, hgaps, hends⟩ := h
  rcases hlead with rfl | rfl
  · have ha : ∀ x ∈ a, isGap x = true := fun x hx => hgaps x (by simp [hx])
    obtain ⟨front, x, v', rfl, hfront, hx⟩ := exists_first hv
    have hbars' : '|' ∉ x :: v' := fun hmem => hbars.1 (List.mem_append_right _ hmem)
    refine ⟨x :: v', List.cons_ne_nil x v', ⟨hbars', hbars.2⟩, [], [], b, c, d, further, ending, ?_,
      Or.inl rfl, fun y hy => hgaps y ?_, hends⟩
    · have hgap' : ∀ y ∈ gap ++ a ++ front, isGap y = true := by
        simp only [List.forall_mem_append]
        exact ⟨⟨hgap, ha⟩, hfront⟩
      have hdrop := dropWhile_append_cons hgap' hx
        (v' ++ b ++ '|' :: ((c ++ w ++ d) ++ (further ++ ending)))
      simpa using hdrop
    · simp only [List.append_assoc, List.mem_append, List.nil_append] at hy ⊢
      exact Or.inr hy
  · refine ⟨v, hne, hbars, ['|'], a, b, c, d, further, ending, ?_, Or.inr rfl, hgaps, hends⟩
    exact dropWhile_append_cons hgap (by decide) _

/-- The row that the expressions find on a line that they fit. -/
theorem matchedRow?_of_first? {line : Text} {way : Way}
    (h : first? lineExpression line = some way) :
    ∃ gap u v w, line = gap ++ u ∧ (∀ c ∈ gap, isGap c = true) ∧ FitsCells u v w ∧
      matchedRow? line = namedRow? v w := by
  obtain ⟨hfits, hline⟩ := fits_of_first? h
  obtain ⟨gap, u, htext, hgap, hcells⟩ := fits_seq_many_iff.1 hfits
  obtain ⟨v, w, hvw, hgroups, hend⟩ := fits_cellsExpression_iff.1 hcells
  obtain ⟨text, groups, rest⟩ := way
  subst htext hgroups hend
  exact ⟨gap, u, v, w, by rw [hline, List.append_nil], hgap, hvw, matchedRow?_eq_namedRow? h⟩

/-- On a line without a line feed, the expressions find a row exactly when the scanner does. -/
theorem matchedRow?_eq_row? {line : Text} (h : '\n' ∉ line) : matchedRow? line = row? line := by
  have hgap : ∀ c ∈ line.takeWhile isGap, isGap c = true := List.all_eq_true.1 List.all_takeWhile
  cases hcells : first? cellsExpression (line.dropWhile isGap) with
  | some way =>
    -- The gap is taken as a whole, and the rest decides the cells.
    obtain ⟨hfits, hrest⟩ := fits_of_first? hcells
    obtain ⟨v, w, hvw, hgroups, hend⟩ := fits_cellsExpression_iff.1 hfits
    have hline := first?_seq_many (p := isGap) (t := line) (by rw [hcells, Option.isSome_some])
    rw [hcells, Option.map_some, Way.next, hgroups] at hline
    rw [hend, List.append_nil] at hrest
    obtain ⟨first, second, hfirst, hnamed⟩ := (hrest ▸ hvw).exists_isCells (head?_trimStart _ line)
    have hwhole : IsCells line first second := by
      rw [← List.takeWhile_append_dropWhile (p := isGap) (l := line)]
      exact hfirst.append hgap
    rw [matchedRow?_eq_namedRow? hline, ← hnamed, hwhole.row?_eq]
  | none =>
    have hnot : ∀ v w, ¬FitsCells (line.dropWhile isGap) v w := by
      intro v w hvw
      have hsome := first?_isSome_of_fits (fits_cellsExpression_iff.2 ⟨v, w, hvw, rfl, rfl⟩)
      rw [List.append_nil, hcells] at hsome
      cases hsome
    have hrow : row? line = none := by
      cases hfirst : firstCells? line with
      | none => rw [row?, hfirst]
      | some cells =>
        have hisCells := isCells_of_firstCells? hfirst
        have hempty : cells.1 = [] := by
          by_contra hne
          exact hnot _ _ (hisCells.fitsCells hne h)
        rw [hisCells.row?_eq, hempty, namedRow?_of_gaps (by simp)]
    rw [hrow]
    cases hway : first? lineExpression line with
    | none => rw [matchedRow?, hway]
    | some way =>
      obtain ⟨gap, u, v, w, rfl, hgap', hvw, hmatched⟩ := matchedRow?_of_first? hway
      rw [hmatched]
      refine namedRow?_of_gaps (fun c hc => ?_) w
      by_contra hc'
      obtain ⟨v', hv'⟩ := hvw.exists_dropWhile hgap' ⟨c, hc, by simpa using hc'⟩
      exact hnot v' w hv'

/-- The rows of a text are the lines outside fenced code that are rows by definition, and the
expressions find the same rows. -/
theorem valueTable_eq (t : Text) :
    valueTable t = ValueList.ofPairs ((unfencedLines t).filterMap row?) ∧
      (∀ line ∈ lines t, matchedRow? line = row? line) ∧
      ∀ line value description, row? line = some (value, description) ↔
        IsRow line value description := by
  refine ⟨?_, fun line hline => matchedRow?_eq_row? (not_mem_of_mem_lines hline),
    fun _ _ _ => row?_eq_some_iff⟩
  rw [valueTable, rows_eq_filterMap]

end StyleDocs.Markdown
