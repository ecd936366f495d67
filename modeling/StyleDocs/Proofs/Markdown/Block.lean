import StyleDocs.Proofs.Markdown.Fence
import StyleDocs.Proofs.Markdown.Mark

/-!
# Examples and pairs of fences

Fences are paired line by line, but an example is searched for by its mark, and it ends at the next
three backquotes wherever they stand. Both ways give the same code for a block that is reached by
its own mark, if there are no three backquotes in its code and its closing fence is made of
backquotes.
-/

namespace StyleDocs.Markdown

open Text

/-! ### Blocks between fences -/

/-- A pair of fences, the lines between them, and the lines behind. -/
structure Block where
  /-- The fence that opens the block. -/
  opening : Text
  /-- The lines between the fences. -/
  inner : List Text
  /-- The fence that closes the block. -/
  closing : Text
  /-- The lines behind the block. -/
  after : List Text
deriving DecidableEq, Repr

namespace Block

/-- The lines from the opening fence on. -/
def lines (b : Block) : List Text := b.opening :: (b.inner ++ b.closing :: b.after)

/-- The code between the fences. -/
def code (b : Block) : Text := b.inner.flatten

/-- The text from the closing fence on. -/
def behind (b : Block) : Text := b.closing ++ b.after.flatten

/-- The text from the visible front of the opening fence on. -/
def front (b : Block) : Text := trimStart isBlank b.lines.flatten

end Block

/-- The blocks among lines that come with their flags. If the lines begin inside a block, its
opening fence and its lines so far are given. -/
def blocksFrom : Option (Text × List Text) → List (Text × Bool) → List Block
  | _, [] => []
  | _, (_, false) :: rest => blocksFrom none rest
  | none, (line, true) :: rest => blocksFrom (some (line, [])) rest
  | some (opening, inner), (line, true) :: rest =>
    if isFence line then ⟨opening, inner, line, rest.map Prod.fst⟩ :: blocksFrom none rest
    else blocksFrom (some (opening, inner ++ [line])) rest

/-- The blocks among lines, as the fences pair up. -/
def blocks (lines : List Text) : List Block := blocksFrom none (lines.zip (fenced lines))

/-- Whether an opening fence has one of the labels. -/
def hasLabel (labels : List Text) (opening : Text) : Bool :=
  !labels.isEmpty && isMark labels (trimStart isBlank opening)

/-- The first block of a text with one of the labels, as the fences pair up. -/
def labelledBlock? (labels : List Text) (t : Text) : Option Block :=
  (blocks (pieces t)).find? fun b => hasLabel labels b.opening

/-- Whether a block has been begun: its opening fence is one, and its lines so far are not. -/
def IsBegun (begun : Text × List Text) : Prop :=
  isFence begun.1 = true ∧ ∀ line ∈ begun.2, isFence line = false

theorem blocksFrom_unfenced (rest : List Text) :
    blocksFrom none (rest.zip (rest.map fun _ => false)) = [] := by
  induction rest with
  | nil => rfl
  | cons line rest ih => exact ih

/-- A block is two fences without a fence between them, and it stands among the lines, or the lines
end a block that has been begun. -/
theorem mem_blocksFrom {b : Block} {inside : Option (Text × List Text)} {lines : List Text}
    (hinside : ∀ begun ∈ inside, IsBegun begun)
    (h : b ∈ blocksFrom inside (lines.zip (fencedFrom inside.isSome lines))) :
    IsBegun (b.opening, b.inner) ∧ isFence b.closing = true ∧
      b.lines <:+ (inside.elim [] fun begun => begun.1 :: begun.2) ++ lines := by
  -- Whether a block is open decides the flags of the lines behind and what has been begun.
  induction lines generalizing inside with
  | nil =>
    rw [List.zip_nil_left] at h
    cases inside <;> cases h
  | cons line rest ih =>
    have hskip {a : List Text} (front : List Text) (hlines : b.lines <:+ a) :
        b.lines <:+ front ++ line :: a :=
      hlines.trans ((List.suffix_cons line a).trans (List.suffix_append _ _))
    rw [fencedFrom] at h
    by_cases hfence : isFence line = true
    · rw [if_pos hfence] at h
      cases inside with
      | none =>
        by_cases hpartner : rest.any isFence = true
        · rw [if_neg (by simp), if_pos hpartner] at h
          exact @ih (some (line, [])) (by simpa [IsBegun] using hfence) h
        · rw [if_neg (by simp), if_neg hpartner, List.zip_cons_cons, blocksFrom,
            blocksFrom_unfenced] at h
          cases h
      | some begun =>
        obtain ⟨opening, inner⟩ := begun
        rw [if_pos (by simp), List.zip_cons_cons, blocksFrom, if_pos hfence] at h
        rcases List.mem_cons.1 h with rfl | h
        · rw [List.map_fst_zip (by simp [length_fencedFrom])]
          exact ⟨hinside _ rfl, hfence, List.suffix_rfl⟩
        · obtain ⟨hbegun, hclosing, hlines⟩ := @ih none (by simp) h
          exact ⟨hbegun, hclosing, hskip (opening :: inner) hlines⟩
    · rw [if_neg hfence] at h
      cases inside with
      | none =>
        obtain ⟨hbegun, hclosing, hlines⟩ := @ih none (by simp) h
        exact ⟨hbegun, hclosing, hskip [] hlines⟩
      | some begun =>
        obtain ⟨opening, inner⟩ := begun
        obtain ⟨hopening, hinner⟩ := hinside _ rfl
        rw [Option.isSome_some, List.zip_cons_cons, blocksFrom, if_neg hfence] at h
        have hbegun : IsBegun (opening, inner ++ [line]) := by
          refine ⟨hopening, List.forall_mem_append.2 ⟨hinner, ?_⟩⟩
          simpa using hfence
        simpa using @ih (some (opening, inner ++ [line])) (by simpa using hbegun) h

theorem mem_blocks {b : Block} {lines : List Text} (h : b ∈ blocks lines) :
    IsBegun (b.opening, b.inner) ∧ isFence b.closing = true ∧ b.lines <:+ lines :=
  mem_blocksFrom (by simp) h

/-! ### Tidy code -/

/-- Code is blank exactly when nothing of it is left. -/
theorem tidyCode?_eq_none_iff {code : Text} : tidyCode? code = none ↔ allBlank code = true := by
  obtain ⟨a, b, hcode, ha, hb⟩ := exists_trimEnd_trimStart isBreak isBlank code
  have hblank : allBlank code = allBlank (trimEnd isBlank (trimStart isBreak code)) := by
    have hfront : allBlank a = true := List.all_eq_true.2 fun c hc => isBlank_of_isBreak (ha c hc)
    have hback : allBlank b = true := List.all_eq_true.2 hb
    unfold allBlank at hfront hback ⊢
    conv_lhs => rw [hcode, List.all_append, List.all_append, hfront, hback]
    simp
  rw [hblank, tidyCode?]
  simp

/-- White space is all that is dropped from code. -/
theorem exists_tidyCode?_append (code : Text) :
    ∃ a b, code = a ++ (tidyCode? code).getD [] ++ b ∧
      (∀ c ∈ a, isBlank c = true) ∧ ∀ c ∈ b, isBlank c = true := by
  cases htidy : tidyCode? code with
  | none =>
    have hblank := tidyCode?_eq_none_iff.1 htidy
    exact ⟨code, [], by simp, List.all_eq_true.1 hblank, by simp⟩
  | some tidy =>
    obtain ⟨a, b, hcode, ha, hb⟩ := exists_trimEnd_trimStart isBreak isBlank code
    refine ⟨a, b, ?_, fun c hc => isBlank_of_isBreak (ha c hc), hb⟩
    rw [tidyCode?] at htidy
    split at htidy
    · cases htidy
    · rw [← Option.some.inj htidy]
      exact hcode

/-- White space behind code is dropped. -/
theorem tidyCode?_append {u : Text} (hu : allBlank u = true) (code : Text) :
    tidyCode? (code ++ u) = tidyCode? code := by
  by_cases hcode : allBlank code = true
  · have hwhole : allBlank (code ++ u) = true := by
      rw [allBlank, List.all_append, ← allBlank, ← allBlank, hcode, hu, Bool.and_self]
    rw [tidyCode?_eq_none_iff.2 hwhole, tidyCode?_eq_none_iff.2 hcode]
  · have hbreak : code.all isBreak ≠ true := fun hall =>
      hcode (List.all_eq_true.2 fun c hc => isBlank_of_isBreak (List.all_eq_true.1 hall c hc))
    have htrim : trimEnd isBlank (trimStart isBreak (code ++ u)) =
        trimEnd isBlank (trimStart isBreak code) := by
      rw [trimStart_append, if_neg hbreak, trimEnd_append (List.all_eq_true.1 hu)]
    rw [tidyCode?, tidyCode?, htrim]

theorem not_mem_ticks {c : Char} (h : isBlank c = true) : c ∉ ticks := by
  intro hc
  have hquote : c = backquote := by simpa [ticks, backquote] using hc
  rw [hquote] at h
  revert h
  decide

/-- Dropping white space neither adds nor removes three backquotes. -/
theorem includes_tidyCode? (code : Text) :
    includes ticks ((tidyCode? code).getD []) = includes ticks code := by
  obtain ⟨a, b, hcode, ha, hb⟩ := exists_tidyCode?_append code
  conv_rhs => rw [hcode]
  rw [includes_append_right (by decide) fun c hc => not_mem_ticks (hb c hc),
    includes_append_left (by decide) fun c hc => not_mem_ticks (ha c hc)]

/-- Dropping white space keeps all visible characters. -/
theorem filter_tidyCode? (code : Text) :
    ((tidyCode? code).getD []).filter (!isBlank ·) = code.filter (!isBlank ·) := by
  obtain ⟨a, b, hcode, ha, hb⟩ := exists_tidyCode?_append code
  have hfront : a.filter (!isBlank ·) = [] := by simpa using ha
  have hback : b.filter (!isBlank ·) = [] := by simpa using hb
  conv_rhs => rw [hcode, List.filter_append, List.filter_append, hfront, hback]
  simp

/-- Code with more behind it is tidied to the same only if there is only white space behind it. -/
theorem tidyCode?_append_eq_iff (code u : Text) :
    tidyCode? (code ++ u) = tidyCode? code ↔ allBlank u = true := by
  refine ⟨fun h => ?_, fun hu => tidyCode?_append hu code⟩
  have hvisible : (code ++ u).filter (!isBlank ·) = code.filter (!isBlank ·) := by
    rw [← filter_tidyCode?, h, filter_tidyCode?]
  rw [List.filter_append, List.append_right_eq_self] at hvisible
  simpa [allBlank] using hvisible

/-! ### Code up to the next three backquotes -/

/-- A text is cut at the three backquotes behind white space. -/
theorem cut?_ticks_blank {u : Text} (hu : ∀ c ∈ u, isBlank c = true) (rest : Text) :
    cut? ticks (u ++ (ticks ++ rest)) = some (u, rest) := by
  have hword : ∀ c ∈ u, c ∉ ticks := fun c hc => not_mem_ticks (hu c hc)
  have hticks : includes ticks u = false := by
    have h := includes_append_right (w := ticks) (by decide) hword []
    rwa [List.nil_append] at h
  rw [cut?_append_left hticks fun c hc => hword c (List.mem_of_getLast? hc),
    cut?_of_startsWith (by decide)]
  simp

/-- There is only white space before the first three backquotes exactly when they are the first that
is visible. -/
theorem allBlank_iff_of_cut? {t a rest : Text} (h : cut? ticks t = some (a, rest)) :
    allBlank a = true ↔ startsWith ticks (trimStart isBlank t) = true := by
  constructor
  · intro ha
    have ht : trimStart isBlank t = ticks ++ rest := by
      rw [eq_of_cut? h, List.append_assoc, trimStart,
        List.dropWhile_append_of_pos (List.all_eq_true.1 ha)]
      exact trimStart_eq_self rfl
    rw [ht]
    exact startsWith_self_append ticks rest
  · intro hstart
    obtain ⟨behind, hbehind⟩ := startsWith_iff.1 hstart
    have ht : t = t.takeWhile isBlank ++ (ticks ++ behind) := by
      rw [← hbehind, trimStart, List.takeWhile_append_dropWhile]
    have hblank : ∀ c ∈ t.takeWhile isBlank, isBlank c = true :=
      List.all_eq_true.1 List.all_takeWhile
    rw [ht, cut?_ticks_blank hblank, Option.some.injEq, Prod.mk.injEq] at h
    rw [← h.1]
    exact List.all_takeWhile

namespace Block

variable {b : Block}

/-- Lines end with white space. -/
theorem isBlank_of_getLast?_code (h : ∀ line ∈ b.inner, IsLine line) :
    ∀ c ∈ b.code.getLast?, isBlank c = true := by
  rw [code]
  rcases List.eq_nil_or_concat' b.inner with hinner | ⟨before, line, hinner⟩
  · simp [hinner]
  · obtain ⟨t, -, rfl⟩ := h line (by simp [hinner])
    simp [hinner]
    decide

/-- The next three backquotes are the closing fence if they are the first that is visible there. -/
theorem startsWith_behind (h : isFence b.closing = true) :
    startsWith ticks (trimStart isBlank b.behind) =
      startsWith ticks (trimStart isBlank b.closing) := by
  have hvisible : b.closing.all isBlank ≠ true := by
    intro hall
    rw [isFence, trimStart, List.dropWhile_eq_nil_iff.2 (List.all_eq_true.1 hall)] at h
    cases h
  rw [behind, trimStart_append, if_neg hvisible]
  rw [isFence, Bool.or_eq_true] at h
  rcases h with h | h
  · obtain ⟨rest, hrest⟩ := startsWith_iff.1 h
    rw [hrest, List.append_assoc, startsWith_self_append, startsWith_self_append]
  · obtain ⟨rest, hrest⟩ := startsWith_iff.1 h
    rw [hrest]
    rfl

/-- The text up to the next three backquotes is tidied to the same as the code between the fences if
these are the three backquotes of the closing fence, or if there are none and the code is blank. -/
theorem tidyCode?_cut_eq_iff (hclosing : isFence b.closing = true)
    (hinner : ∀ line ∈ b.inner, IsLine line) :
    ((cut? ticks (b.code ++ b.behind)).map Prod.fst).bind tidyCode? = tidyCode? b.code ↔
      includes ticks b.code = false ∧
        (startsWith ticks (trimStart isBlank b.closing) = true ∨
          allBlank b.code = true ∧ includes ticks b.behind = false) := by
  cases hticks : includes ticks b.code with
  | true =>
    -- The cut leaves out the three backquotes that the code has.
    have hcode := includes_iff_infix.1 hticks
    have hwhole : includes ticks (b.code ++ b.behind) = true :=
      includes_iff_infix.2 (hcode.trans (List.prefix_append _ _).isInfix)
    rw [← isSome_cut?, Option.isSome_iff_exists] at hwhole
    obtain ⟨⟨found, rest⟩, hcut⟩ := hwhole
    have hne : tidyCode? found ≠ tidyCode? b.code := by
      intro h
      have hfound := includes_of_cut? (by decide) hcut
      rw [← includes_tidyCode?, h, includes_tidyCode?, hticks] at hfound
      cases hfound
    simpa [hcut] using hne
  | false =>
    have hlast : ∀ c ∈ b.code.getLast?, c ∉ ticks := fun c hc =>
      not_mem_ticks (isBlank_of_getLast?_code hinner c hc)
    have hbehind := isSome_cut? ticks b.behind
    rw [cut?_append_left hticks hlast, ← startsWith_behind hclosing]
    cases hcut : cut? ticks b.behind with
    | none =>
      rw [hcut, Option.isSome_none] at hbehind
      have hstart := includes_eq_false_iff.1 hbehind.symm _ (List.dropWhile_suffix isBlank)
      rw [trimStart, hstart, ← hbehind, ← tidyCode?_eq_none_iff]
      simp [eq_comm]
    | some parts =>
      rw [hcut, Option.isSome_some] at hbehind
      rw [← hbehind, ← allBlank_iff_of_cut? hcut, ← tidyCode?_append_eq_iff b.code parts.1]
      simp

/-- All lines of a block up to its closing fence are lines with their line feeds. -/
theorem isLine_of_suffix {t : Text} (h : b.lines <:+ pieces t) :
    IsLine b.opening ∧ ∀ line ∈ b.inner, IsLine line := by
  obtain ⟨before, hpieces⟩ := h
  have hlines : ∀ line ∈ before ++ b.opening :: b.inner, IsLine line := by
    refine isLine_of_pieces_eq_append (t := t) (b := b.closing :: b.after) ?_ (by simp)
    rw [← hpieces, lines, List.append_assoc, List.cons_append]
  rw [List.forall_mem_append, List.forall_mem_cons] at hlines
  exact hlines.2

theorem front_suffix {t : Text} (h : b.lines <:+ pieces t) : b.front <:+ t := by
  obtain ⟨before, hpieces⟩ := h
  refine (List.dropWhile_suffix isBlank).trans ⟨before.flatten, ?_⟩
  rw [← List.flatten_append, hpieces, flatten_pieces]

/-- A block with a label begins with a mark, and its code follows behind the first line. -/
theorem front_eq {labels : List Text} (hopening : IsLine b.opening)
    (hlabel : hasLabel labels b.opening = true) :
    isMark labels b.front = true ∧
      ∃ w, '\n' ∉ w ∧ b.front = w ++ '\n' :: (b.code ++ b.behind) := by
  obtain ⟨w, hw, hline⟩ := hopening
  have hmark : isMark labels (trimStart isBlank b.opening) = true :=
    (Bool.and_eq_true_iff.1 hlabel).2
  have htrim : ∀ rest, trimStart isBlank (w ++ rest) = trimStart isBlank w ++ rest := by
    intro rest
    rw [trimStart_append, if_neg]
    intro hall
    have hnil : trimStart isBlank (w ++ ['\n']) = [] := by
      rw [trimStart_append, if_pos hall]
      rfl
    rw [hline, hnil] at hmark
    cases hmark
  have hbreak : '\n' ∉ trimStart isBlank w := fun hmem =>
    hw ((List.dropWhile_suffix isBlank).subset hmem)
  have hfront : b.front = trimStart isBlank w ++ '\n' :: (b.code ++ b.behind) := by
    rw [front, lines, hline, List.flatten_cons, List.append_assoc, htrim]
    simp [code, behind]
  refine ⟨?_, _, hbreak, hfront⟩
  rwa [hfront, isMark_append hbreak _ [], ← htrim, ← hline]

end Block

/-- The example is the tidy code behind the first mark. For a block with a label, as the fences pair
up, this is the code between its fences if its own mark is the first, the code has no three
backquotes and the closing fence is made of backquotes. A block that is blank and has no three
backquotes behind it has no example either way. -/
theorem example?_of_labelledBlock? {labels : List Text}
    (hlabels : ∀ label ∈ labels, ∀ c ∈ label, isWordChar c = true) (t : Text) :
    example? labels t = ((firstMark? labels t).bind markedCode?).bind tidyCode? ∧
      (∀ b, labelledBlock? labels t = some b →
        ∃ mark, firstMark? labels t = some mark ∧ b.front <:+ mark ∧
          (mark = b.front →
            (example? labels t = tidyCode? b.code ↔
              includes ticks b.code = false ∧
                (startsWith ticks (trimStart isBlank b.closing) = true ∨
                  allBlank b.code = true ∧ includes ticks b.behind = false)))) ∧
      (labelledBlock? labels t = none →
        (example? labels t = none ↔
          ∀ code, (firstMark? labels t).bind markedCode? = some code → allBlank code = true)) := by
  have hexample : example? labels t = ((firstMark? labels t).bind markedCode?).bind tidyCode? := by
    rw [example?, block?_eq hlabels]
  refine ⟨hexample, fun b hb => ?_, fun _ => ?_⟩
  · obtain ⟨-, hclosing, hsuffix⟩ := mem_blocks (List.mem_of_find?_eq_some hb)
    obtain ⟨hopening, hinner⟩ := Block.isLine_of_suffix hsuffix
    have hlabel : hasLabel labels b.opening = true :=
      List.find?_some (p := fun b : Block => hasLabel labels b.opening) hb
    obtain ⟨hmark, w, hw, hfront⟩ := Block.front_eq hopening hlabel
    obtain ⟨mark, hfirst, hbehind⟩ := exists_firstMark? hmark (Block.front_suffix hsuffix)
    refine ⟨mark, hfirst, hbehind, ?_⟩
    rintro rfl
    rw [hexample, hfirst, Option.bind_some, hfront, markedCode?_append hw]
    exact Block.tidyCode?_cut_eq_iff hclosing hinner
  · rw [hexample, Option.bind_eq_none_iff]
    exact forall₂_congr fun code _ => tidyCode?_eq_none_iff

theorem example?_of_labelledBlock?_css :
    (∀ label ∈ ["css".toList], ∀ c ∈ label, isWordChar c = true) ∧
      labelledBlock? ["css".toList] "Set it.\n\n```css\nwidth: 10;\n```\n".toList =
        some ⟨"```css\n".toList, ["width: 10;\n".toList], "```\n".toList, []⟩ ∧
      example? ["css".toList] "Set it.\n\n```css\nwidth: 10;\n```\n".toList =
        some "width: 10;".toList := by
  have hlabels : ∀ label ∈ ["css".toList], ∀ c ∈ label, isWordChar c = true := by
    intro label hlabel
    rw [List.mem_singleton.1 hlabel]
    exact List.all_eq_true.1 (by decide)
  have hblock : labelledBlock? ["css".toList] "Set it.\n\n```css\nwidth: 10;\n```\n".toList =
      some ⟨"```css\n".toList, ["width: 10;\n".toList], "```\n".toList, []⟩ := by decide +kernel
  refine ⟨hlabels, hblock, ?_⟩
  obtain ⟨-, hagree, -⟩ := example?_of_labelledBlock? hlabels
    "Set it.\n\n```css\nwidth: 10;\n```\n".toList
  obtain ⟨mark, hmark, -, hagree⟩ := hagree _ hblock
  have hfirst : mark = "```css\nwidth: 10;\n```\n".toList :=
    Option.some.inj (hmark.symm.trans (by decide +kernel))
  rw [(hagree (hfirst.trans (by decide +kernel))).2 ⟨by decide +kernel, Or.inl (by decide +kernel)⟩]
  decide +kernel

/-- Three backquotes in the code of a block end the example, but not the block. -/
theorem example?_cut_in_code :
    labelledBlock? ["css".toList] "```css\nx = \"```\";\n```\n".toList =
        some ⟨"```css\n".toList, ["x = \"```\";\n".toList], "```\n".toList, []⟩ ∧
      tidyCode? "x = \"```\";\n".toList = some "x = \"```\";".toList ∧
      example? ["css".toList] "```css\nx = \"```\";\n```\n".toList = some "x = \"".toList := by
  decide +kernel

end StyleDocs.Markdown
