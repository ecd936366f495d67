import StyleDocs.Proofs.Markdown.ValueTable

/-!
# What a row of a table of values is

A line is a row if its first cell, without the notes that mark the default and without what stands
around the value, names a value, and its second cell is not blank. The definition (`IsRow`) speaks
of the cells and of the notes in them as parts of the line, and the scanner computes both. It takes
a line for a row exactly when the line is one.
-/

namespace StyleDocs.Markdown

open Text

/-- The lines of a text outside fenced code. -/
def unfencedLines (t : Text) : List Text :=
  ((lines t).zip (fenced (lines t))).filterMap fun
    | (_, true) => none
    | (line, false) => some line

theorem rows_eq_filterMap (t : Text) : rows t = (unfencedLines t).filterMap row? := by
  rw [rows, unfencedLines, List.filterMap_filterMap]
  refine List.filterMap_congr fun entry _ => ?_
  obtain ⟨line, inside⟩ := entry
  cases inside <;> rfl

/-! ### The definition -/

/-- The note that marks the default: the word in parentheses, in any case and with white space
around it. -/
def IsNote (note : Text) : Prop :=
  ∃ a word b, (∀ c ∈ a, isBlank c = true) ∧ word.map Char.toLower = "default".toList ∧
    (∀ c ∈ b, isBlank c = true) ∧ note = '(' :: (a ++ word ++ b) ++ [')']

/-- A cell and what is left of it when the notes are removed from left to right. -/
inductive WithoutNotes : Text → Text → Prop
  /-- Nothing is left to read. -/
  | nil : WithoutNotes [] []
  /-- A note is removed. -/
  | note {n t t' : Text} : IsNote n → WithoutNotes t t' → WithoutNotes (n ++ t) t'
  /-- A character at which no note begins stays. -/
  | keep {c : Char} {t t' : Text} : (∀ n, IsNote n → ¬n <+: c :: t) → WithoutNotes t t' →
      WithoutNotes (c :: t) (c :: t')

/-- A rule: hyphens, with or without a colon at either end. -/
def IsRule (cell : Text) : Prop :=
  ∃ a n b, (a = [] ∨ a = [':']) ∧ (b = [] ∨ b = [':']) ∧
    cell = a ++ List.replicate (n + 1) '-' ++ b

/-- The first two cells of a line: spaces and tabs are dropped at its front and then a bar, the
first cell goes to the next bar, and the second to the bar behind that or to the end. -/
structure IsCells (line first second : Text) : Prop where
  /-- No cell has a bar in it. -/
  bars : '|' ∉ first ∧ '|' ∉ second
  /-- How the line is put together. -/
  whole : ∃ gap lead rest, line = gap ++ lead ++ first ++ '|' :: (second ++ rest) ∧
    (∀ c ∈ gap, isGap c = true) ∧
    (lead = ['|'] ∨ lead = [] ∧ ∃ c cell, first = c :: cell ∧ isGap c = false) ∧
    (rest = [] ∨ ∃ cells, rest = '|' :: cells)

/-- A line is a row with this value and this description. -/
def IsRow (line value description : Text) : Prop :=
  ∃ first second cell, IsCells line first second ∧ WithoutNotes first cell ∧
    value = strip (trimEnds (· == backquote) (strip cell)) ∧ description = strip second ∧
    value ≠ [] ∧ description ≠ [] ∧ sameIgnoringCase value "value".toList = false ∧
    ¬IsRule value ∧ ∀ c ∈ value, isBlank c = false ∧ c ≠ '|'

/-! ### The notes of a cell -/

/-- White space has no case. -/
theorem toLower_of_isBlank {c : Char} (h : isBlank c = true) : c.toLower = c := by
  refine toLower_eq_self fun hletter => ?_
  simp only [isBlank, Bool.or_eq_true, Bool.and_eq_true, decide_eq_true_eq, beq_iff_eq] at h
  omega

/-- The scanner finds a note exactly where one stands. -/
theorem defaultNote_eq_some_iff {t rest : Text} :
    defaultNote t = some ((), rest) ↔ ∃ n, IsNote n ∧ t = n ++ rest := by
  constructor
  · intro h
    obtain ⟨a, word, b, ha, hword, hb, rfl⟩ := exists_of_defaultNote h
    exact ⟨_, ⟨a, word, b, ha, hword, hb, rfl⟩, rfl⟩
  · rintro ⟨n, ⟨a, word, b, ha, hword, hb, rfl⟩, rfl⟩
    have hlength : word.length = 7 := by simpa using congrArg List.length hword
    have hfront : trimStart isBlank (a ++ (word ++ (b ++ ')' :: rest))) =
        word ++ (b ++ ')' :: rest) := by
      cases word with
      | nil => cases hlength
      | cons d w =>
        refine dropWhile_append_cons ha ?_ _
        rw [Bool.eq_false_iff]
        intro hd
        have hletter : d.toLower = 'd' := (List.cons.inj (hword : _ = 'd' :: "efault".toList)).1
        rw [toLower_of_isBlank hd] at hletter
        subst hletter
        exact absurd hd (by decide)
    have hback : trimStart isBlank (b ++ ')' :: rest) = ')' :: rest :=
      dropWhile_append_cons hb (by decide) rest
    have hsame : sameIgnoringCase word "default".toList = true := by
      rw [sameIgnoringCase, hword]
      decide
    have hnote : '(' :: (a ++ word ++ b) ++ [')'] ++ rest =
        '(' :: (a ++ (word ++ (b ++ ')' :: rest))) := by simp
    rw [hnote, defaultNote]
    simp only [hfront, List.take_left' hlength, List.drop_left' hlength, hback, hsame, if_true]

theorem defaultNote_eq_none_iff {t : Text} :
    defaultNote t = none ↔ ∀ n, IsNote n → ¬n <+: t := by
  rw [Option.eq_none_iff_forall_ne_some]
  constructor
  · rintro h n hn ⟨rest, hrest⟩
    exact h ((), rest) (defaultNote_eq_some_iff.2 ⟨n, hn, hrest.symm⟩)
  · rintro h ⟨_, rest⟩ hfound
    obtain ⟨n, hn, ht⟩ := defaultNote_eq_some_iff.1 hfound
    exact h n hn ⟨rest, ht.symm⟩

theorem dropDefault_note {n : Text} (h : IsNote n) (t : Text) :
    dropDefault (n ++ t) = dropDefault t :=
  opensWith_defaultNote.substitute_found _ (defaultNote_eq_some_iff.2 ⟨n, h, rfl⟩)

theorem dropDefault_keep {c : Char} {t : Text} (h : ∀ n, IsNote n → ¬n <+: c :: t) :
    dropDefault (c :: t) = c :: dropDefault t :=
  substitute_plain _ (defaultNote_eq_none_iff.2 h)

/-- What is left of a cell is what the scanner leaves of it. -/
theorem withoutNotes_iff {t t' : Text} : WithoutNotes t t' ↔ dropDefault t = t' := by
  constructor
  · intro h
    induction h with
    | nil => rfl
    | note hn _ ih => rw [dropDefault_note hn, ih]
    | keep hnone _ ih => rw [dropDefault_keep hnone, ih]
  · rintro rfl
    induction t using opensWith_defaultNote.induction with
    | nil => exact .nil
    | plain c t hnone ih =>
      have hkeep := defaultNote_eq_none_iff.1 hnone
      rw [dropDefault_keep hkeep]
      exact .keep hkeep ih
    | found t a rest hfound ih =>
      obtain ⟨n, hn, rfl⟩ := defaultNote_eq_some_iff.1 hfound
      rw [dropDefault_note hn]
      exact .note hn ih

/-- Spaces and tabs around a cell stay when the notes are removed, since a note begins and ends with
a parenthesis. -/
theorem dropDefault_between {a b : Text} (ha : ∀ c ∈ a, isGap c = true)
    (hb : ∀ c ∈ b, isGap c = true) (t : Text) :
    dropDefault (a ++ t ++ b) = a ++ dropDefault t ++ b := by
  have hopen : '(' ∉ a := fun h => absurd (ha _ h) (by decide)
  have hclose : ')' ∉ b := fun h => absurd (hb _ h) (by decide)
  have hb' : '(' ∉ b := fun h => absurd (hb _ h) (by decide)
  have hback : ∀ {t t'}, WithoutNotes t t' → dropDefault (t ++ b) = t' ++ b := by
    intro t t' h
    induction h with
    | nil => exact opensWith_defaultNote.substitute_eq_self _ hb'
    | note hn _ ih => rw [List.append_assoc, dropDefault_note hn, ih]
    | @keep c t t' hnone _ ih =>
      rw [List.cons_append, dropDefault_keep, ih, List.cons_append]
      -- A note that reaches into the gap would end there.
      rintro n hn hnote
      refine hnone n hn ?_
      obtain ⟨a, word, b', -, -, -, rfl⟩ := hn
      exact prefix_of_prefix_append hclose hnote
  rw [List.append_assoc, dropDefault, opensWith_defaultNote.substitute_append _ hopen,
    ← dropDefault, hback (withoutNotes_iff.2 rfl), List.append_assoc]

/-- Spaces and tabs around a cell are not part of the value that it names. -/
theorem cellValue_between {a b : Text} (ha : ∀ c ∈ a, isGap c = true)
    (hb : ∀ c ∈ b, isGap c = true) (t : Text) : cellValue (a ++ t ++ b) = cellValue t := by
  have hblank : ∀ {u : Text}, (∀ c ∈ u, isGap c = true) → ∀ c ∈ u, isBlank c = true :=
    fun hu c hc => isBlank_of_isGap (hu c hc)
  have hstrip : strip (a ++ dropDefault t ++ b) = strip (dropDefault t) :=
    trimEnds_between (hblank ha) (hblank hb) _
  rw [cellValue, dropDefault_between ha hb, hstrip, ← cellValue]

/-! ### The cells of a line -/

/-- What is left of a line behind the gap at its front begins with the bar or the first cell. -/
theorem IsCells.exists_trimStart {line first second : Text} (h : IsCells line first second) :
    ∃ lead rest, trimStart isGap line = lead ++ (first ++ '|' :: (second ++ rest)) ∧
      (lead = ['|'] ∨ lead = [] ∧ ∃ c cell, first = c :: cell ∧ isGap c = false) ∧
      (rest = [] ∨ ∃ cells, rest = '|' :: cells) := by
  obtain ⟨-, gap, lead, rest, rfl, hgap, hlead, hrest⟩ := h
  refine ⟨lead, rest, ?_, hlead, hrest⟩
  rcases hlead with rfl | ⟨rfl, c, cell, rfl, hc⟩
  · rw [List.append_assoc, List.append_assoc]
    exact dropWhile_append_cons hgap (by decide) _
  · rw [List.append_nil, List.append_assoc]
    exact dropWhile_append_cons hgap hc _

/-- A longer gap at the front of a line does not matter. -/
theorem IsCells.append {line first second : Text} (h : IsCells line first second) {gap : Text}
    (hgap : ∀ c ∈ gap, isGap c = true) : IsCells (gap ++ line) first second := by
  obtain ⟨hbars, gap', lead, rest, rfl, hgap', hends⟩ := h
  refine ⟨hbars, gap ++ gap', lead, rest, by simp only [List.append_assoc], ?_, hends⟩
  exact List.forall_mem_append.2 ⟨hgap, hgap'⟩

theorem IsCells.firstCells?_eq {line first second : Text} (h : IsCells line first second) :
    firstCells? line = some (first, second) := by
  obtain ⟨lead, rest, hstart, hlead, hrest⟩ := h.exists_trimStart
  obtain ⟨hfirst, hsecond⟩ := h.bars
  have hinner : ∀ {u : Text}, '|' ∉ u → ∀ c ∈ u, (c != '|') = true := by
    intro u hu c hc
    simpa using ne_of_mem_of_not_mem hc hu
  have hbar : (after? ['|'] (lead ++ (first ++ '|' :: (second ++ rest)))).getD
      (lead ++ (first ++ '|' :: (second ++ rest))) = first ++ '|' :: (second ++ rest) := by
    rcases hlead with rfl | ⟨rfl, c, cell, rfl, -⟩
    · simp [after?]
    · have hc : '|' ≠ c := fun h => hfirst (h ▸ List.mem_cons_self)
      simp [after?, hc]
  have hsecond' : (second ++ rest).takeWhile (· != '|') = second := by
    rcases hrest with rfl | ⟨cells, rfl⟩
    · rw [List.append_nil, List.takeWhile_eq_self_iff]
      exact hinner hsecond
    · exact takeWhile_append_cons (hinner hsecond) (by simp) cells
  rw [firstCells?]
  simp only [hstart, hbar]
  rw [dropWhile_append_cons (hinner hfirst) (by simp)]
  simp only [takeWhile_append_cons (hinner hfirst) (c := '|') (by simp), hsecond']

theorem eq_of_dropWhile_bar {u rest : Text} {c : Char} (h : u.dropWhile (· != '|') = c :: rest) :
    c = '|' := by
  have hc : (c != '|') = false := by
    have hhead := List.head?_dropWhile_not (· != '|') u
    rwa [h] at hhead
  simpa using hc

theorem not_mem_takeWhile_bar (u : Text) : '|' ∉ u.takeWhile (· != '|') := by
  intro h
  simpa using List.mem_takeWhile_imp h

/-- The cells that the scanner takes are those of the line. -/
theorem isCells_of_firstCells? {line first second : Text}
    (h : firstCells? line = some (first, second)) : IsCells line first second := by
  have hline : line = line.takeWhile isGap ++ trimStart isGap line :=
    List.takeWhile_append_dropWhile.symm
  have hgap : ∀ c ∈ line.takeWhile isGap, isGap c = true := List.all_eq_true.1 List.all_takeWhile
  have hhead := head?_trimStart isGap line
  rw [firstCells?] at h
  generalize trimStart isGap line = inner at hline hhead h
  obtain ⟨lead, bare, hbare, hinner, hlead⟩ : ∃ lead bare, (after? ['|'] inner).getD inner = bare ∧
      inner = lead ++ bare ∧ (lead = ['|'] ∨ lead = [] ∧ bare.head? ≠ some '|') := by
    cases hafter : after? ['|'] inner with
    | some bare => exact ⟨['|'], bare, rfl, after?_eq_some_iff.1 hafter, Or.inl rfl⟩
    | none =>
      refine ⟨[], inner, rfl, rfl, Or.inr ⟨rfl, fun hbar => ?_⟩⟩
      obtain ⟨rest, rfl⟩ := List.head?_eq_some_iff.1 hbar
      simp [after?] at hafter
  simp only [hbare] at h
  split at h
  · cases h
  · next c rest hrest =>
    obtain ⟨rfl, rfl⟩ := Prod.mk.inj (Option.some.inj h)
    have hsplit : bare = bare.takeWhile (· != '|') ++ '|' :: rest := by
      conv_lhs => rw [← List.takeWhile_append_dropWhile (p := (· != '|')) (l := bare), hrest,
        eq_of_dropWhile_bar hrest]
    refine ⟨⟨not_mem_takeWhile_bar _, not_mem_takeWhile_bar _⟩, line.takeWhile isGap, lead,
      rest.dropWhile (· != '|'), ?_, hgap, ?_, ?_⟩
    · rw [List.takeWhile_append_dropWhile, List.append_assoc, ← hsplit, List.append_assoc, ← hinner,
        ← hline]
    · rcases hlead with hone | ⟨hnone, hbar⟩
      · exact Or.inl hone
      · refine Or.inr ⟨hnone, ?_⟩
        rw [hinner, hnone, List.nil_append, hsplit] at hhead
        rw [hsplit] at hbar
        cases hfirst : bare.takeWhile (· != '|') with
        | nil => simp [hfirst] at hbar
        | cons d cell => exact ⟨d, cell, rfl, by simpa [hfirst] using hhead⟩
    · cases hfurther : rest.dropWhile (· != '|') with
      | nil => exact Or.inl rfl
      | cons d cells => exact Or.inr ⟨cells, by rw [eq_of_dropWhile_bar hfurther]⟩

/-! ### Values -/

theorem isRule_iff {cell : Text} : isRule cell = true ↔ IsRule cell := by
  constructor
  · intro h
    rw [isRule, Bool.and_eq_true, Bool.not_eq_true', List.isEmpty_eq_false_iff] at h
    obtain ⟨a, ha, hcell⟩ : ∃ a, (a = [] ∨ a = [':']) ∧
        cell = a ++ (after? [':'] cell).getD cell := by
      cases hafter : after? [':'] cell with
      | some rest => exact ⟨[':'], Or.inr rfl, after?_eq_some_iff.1 hafter⟩
      | none => exact ⟨[], Or.inl rfl, rfl⟩
    generalize (after? [':'] cell).getD cell = inner at h hcell
    obtain ⟨b, hb, hinner⟩ : ∃ b, (b = [] ∨ b = [':']) ∧
        inner = (if inner.getLast? = some ':' then inner.dropLast else inner) ++ b := by
      split
      · next hlast => exact ⟨[':'], Or.inr rfl, (List.dropLast_append_getLast? ':' hlast).symm⟩
      · exact ⟨[], Or.inl rfl, (List.append_nil _).symm⟩
    generalize (if inner.getLast? = some ':' then inner.dropLast else inner) = hyphens at h hinner
    obtain ⟨hne, hall⟩ := h
    have hreplicate : hyphens = List.replicate (hyphens.length - 1 + 1) '-' := by
      rw [Nat.sub_add_cancel (List.length_pos_iff.2 hne), List.eq_replicate_iff]
      exact ⟨rfl, fun c hc => by simpa using List.all_eq_true.1 hall c hc⟩
    refine ⟨a, hyphens.length - 1, b, ha, hb, ?_⟩
    rw [← hreplicate, List.append_assoc, ← hinner]
    exact hcell
  · rintro ⟨a, n, b, ha, hb, rfl⟩
    have hafter : (after? [':'] (a ++ List.replicate (n + 1) '-' ++ b)).getD
        (a ++ List.replicate (n + 1) '-' ++ b) = List.replicate (n + 1) '-' ++ b := by
      rcases ha with rfl | rfl <;> simp [after?, List.replicate_succ]
    have hhyphens : (if (List.replicate (n + 1) '-' ++ b).getLast? = some ':' then
        (List.replicate (n + 1) '-' ++ b).dropLast else List.replicate (n + 1) '-' ++ b) =
        List.replicate (n + 1) '-' := by
      rcases hb with rfl | rfl
      · rw [List.append_nil, List.getLast?_replicate]
        simp
      · rw [List.getLast?_concat, if_pos rfl, List.dropLast_concat]
    rw [isRule, hafter]
    simp only [hhyphens]
    simp

theorem namesValue_iff {value : Text} : namesValue value = true ↔ value ≠ [] ∧
    sameIgnoringCase value "value".toList = false ∧ ¬IsRule value ∧
    ∀ c ∈ value, isBlank c = false ∧ c ≠ '|' := by
  rw [namesValue, ← isRule_iff]
  simp [and_assoc]

/-- The scanner takes a line for a row exactly when it is one. -/
theorem row?_eq_some_iff {line value description : Text} :
    row? line = some (value, description) ↔ IsRow line value description := by
  rw [row?]
  constructor
  · intro h
    split at h
    · cases h
    · next first second hcells =>
      dsimp only at h
      split at h
      · next hnamed =>
        cases h
        rw [Bool.and_eq_true, namesValue_iff, Bool.not_eq_true', List.isEmpty_eq_false_iff]
          at hnamed
        obtain ⟨⟨hne, htitle, hrule, hword⟩, hdescribed⟩ := hnamed
        exact ⟨first, second, dropDefault first, isCells_of_firstCells? hcells,
          withoutNotes_iff.2 rfl, rfl, rfl, hne, hdescribed, htitle, hrule, hword⟩
      · cases h
  · rintro ⟨first, second, cell, hcells, hcell, rfl, rfl, hne, hdescribed, htitle, hrule, hword⟩
    rw [hcells.firstCells?_eq]
    cases withoutNotes_iff.1 hcell
    have hnamed : namesValue (cellValue first) = true :=
      namesValue_iff.2 ⟨hne, htitle, hrule, hword⟩
    have hdescribed' : (!(strip second).isEmpty) = true := by simpa using hdescribed
    dsimp only
    rw [hnamed, hdescribed']
    rfl

/-- Every row of a text is one by the definition, for some line. -/
theorem exists_isRow_of_mem_rows {t : Text} {row : Text × Text} (h : row ∈ rows t) :
    ∃ line ∈ unfencedLines t, IsRow line row.1 row.2 := by
  rw [rows_eq_filterMap] at h
  obtain ⟨line, hline, hrow⟩ := List.mem_filterMap.1 h
  exact ⟨line, hline, row?_eq_some_iff.1 hrow⟩

/-- The value of a row is one word. -/
theorem not_isBlank_of_mem_rows {t : Text} {row : Text × Text} (h : row ∈ rows t) :
    ∀ c ∈ row.1, isBlank c = false := by
  obtain ⟨_, _, _, _, _, _, _, _, _, _, _, _, _, hword⟩ := exists_isRow_of_mem_rows h
  exact fun c hc => (hword c hc).1

end StyleDocs.Markdown
