import StyleDocs.Proofs.Markdown.Passage
import StyleDocs.Proofs.Text.Strip

/-!
# Headings that are found

A heading is written as number signs, a space and its title. Number signs at the end of a title are
taken for closing ones and do not belong to it, so a title that ends in one is never found. Every
other title is, in any document whose fences pair up around the heading, as long as the heading
begins its line or only continues a run of number signs that does not get too long.
-/

namespace StyleDocs.Markdown

open Text

/-! ### Titles -/

/-- The line feed at the end of a line is trimmed away. -/
theorem trimEnd_newline {line : Text} (h : '\n' ∉ line) :
    trimEnd (· == '\n') (line ++ ['\n']) = line := by
  change (line ++ ['\n']).rdropWhile (· == '\n') = line
  rw [List.rdropWhile_concat_pos _ _ _ (by decide)]
  refine trimEnd_eq_self ?_
  cases hlast : line.getLast? with
  | none => rfl
  | some c => simpa using ne_of_mem_of_not_mem (List.mem_of_getLast? hlast) h

/-- A title without a return at its end loses its closing characters only. -/
theorem titleOf_eq {rest : Text} (h : rest.getLast? ≠ some '\r') :
    titleOf rest = trimEnd isClosing rest := by
  unfold titleOf
  split
  · next before hbefore =>
    rw [List.getLast?_eq_head?_reverse, hbefore] at h
    exact absurd rfl h
  · rfl

/-- A title that neither begins nor ends with white space is told from itself without its closing
characters exactly if it ends in a number sign. -/
theorem sameIgnoringCase_trimEnd_iff {title : Text} (hends : hasBlankEnd title = false) :
    sameIgnoringCase (trimEnd isClosing title) title = true ↔ title.getLast? ≠ some '#' := by
  constructor
  · intro hsame hlast
    obtain ⟨front, rfl⟩ : ∃ front, title = front ++ ['#'] :=
      ⟨title.dropLast, (List.dropLast_append_getLast? '#' hlast).symm⟩
    have hlength := congrArg List.length (eq_of_beq hsame)
    have hshort : (trimEnd isClosing front).length ≤ front.length :=
      (List.rdropWhile_prefix isClosing front).length_le
    rw [trimEnd_append (List.all_eq_true.1 rfl)] at hlength
    simp only [List.length_map, List.length_append, List.length_singleton] at hlength
    omega
  · intro hlast
    have hclosing : title.getLast?.any isClosing = false := by
      cases hchar : title.getLast? with
      | none => rfl
      | some c =>
        have hgap : isGap c = false := by
          have h := (isGap_ends hends).2
          rwa [hchar] at h
        have hsign : c ≠ '#' := fun h => hlast (hchar.trans (congrArg some h))
        simp [isClosing, hgap, hsign]
    rw [trimEnd_eq_self hclosing]
    exact beq_self_eq_true _

/-! ### The line of a heading -/

/-- A text with other characters than number signs has a first one behind its number signs. -/
theorem exists_replicate_append {t : Text} (h : ¬∀ c ∈ t, c = '#') :
    ∃ n c rest, c ≠ '#' ∧ t = List.replicate n '#' ++ c :: rest := by
  induction t with
  | nil => simp at h
  | cons d t ih =>
    by_cases hd : d = '#'
    · have hrest : ¬∀ c ∈ t, c = '#' := fun hall => h (List.forall_mem_cons.2 ⟨hd, hall⟩)
      obtain ⟨n, c, rest, hc, rfl⟩ := ih hrest
      exact ⟨n + 1, c, rest, hc, by rw [hd, List.replicate_succ, List.cons_append]⟩
    · exact ⟨0, d, t, hd, rfl⟩

/-- A heading as it is written. -/
def headingLine (level : Nat) (title : Text) : Text :=
  List.replicate level '#' ++ ' ' :: (title ++ ['\n'])

/-- Whether a line is a heading shows on its number signs and the character behind them. -/
theorem headingTitle?_replicate {c : Char} (hsign : c ≠ '#') (hbreak : c ≠ '\n') (n : Nat)
    (rest : Text) :
    headingTitle? (List.replicate n '#' ++ c :: rest) =
      if 1 ≤ n && n ≤ 6 && isGap c then
        some (titleOf ((c :: trimEnd (· == '\n') rest).dropWhile isGap))
      else none := by
  have hline : trimEnd (· == '\n') (List.replicate n '#' ++ c :: rest) =
      List.replicate n '#' ++ c :: trimEnd (· == '\n') rest :=
    trimEnd_append_cons (by simpa using hbreak) _ rest
  have hsigns : ∀ d ∈ List.replicate n '#', (d == '#') = true := by
    intro d hd
    rw [List.eq_of_mem_replicate hd]
    rfl
  have hlevel : (List.replicate n '#' ++ c :: trimEnd (· == '\n') rest).takeWhile (· == '#') =
      List.replicate n '#' := takeWhile_append_cons hsigns (by simpa using hsign) _
  have hrest : (List.replicate n '#' ++ c :: trimEnd (· == '\n') rest).dropWhile (· == '#') =
      c :: trimEnd (· == '\n') rest := dropWhile_append_cons hsigns (by simpa using hsign) _
  simp only [headingTitle?, hline, hlevel, hrest, List.length_replicate]
  rfl

theorem headingTitle?_headingLine {title : Text} (hends : hasBlankEnd title = false)
    (hline : '\n' ∉ title) (level : Nat) :
    headingTitle? (headingLine level title) =
      if 1 ≤ level && level ≤ 6 then some (trimEnd isClosing title) else none := by
  have hfront : (' ' :: title).dropWhile isGap = title := by
    rw [List.dropWhile_cons_of_pos (by decide)]
    exact trimStart_eq_self (isGap_ends hends).1
  have hreturn : title.getLast? ≠ some '\r' := by
    intro hlast
    have h := (Bool.or_eq_false_iff.1 hends).2
    rw [hlast] at h
    exact absurd h (by decide)
  rw [headingLine, headingTitle?_replicate (by decide) (by decide), trimEnd_newline hline, hfront,
    titleOf_eq hreturn, Bool.and_eq_left_iff_imp.2 fun _ => by decide]

/-- Whether a heading makes a heading of the line that it goes on: nothing stands in front of it, or
number signs that do not raise its level above six. -/
structure Continues (front : Text) (level : Nat) : Prop where
  /-- There are only number signs in front. -/
  signs : ∀ c ∈ front, c = '#'
  /-- Together they are not too many. -/
  atMostSix : front.length + level ≤ 6

theorem headingTitle?_of_continues {front title : Text} {level : Nat} (h : Continues front level)
    (hlevel : 1 ≤ level) (hends : hasBlankEnd title = false) (hline : '\n' ∉ title) :
    headingTitle? (front ++ headingLine level title) = some (trimEnd isClosing title) := by
  have hfront : front = List.replicate front.length '#' := List.eq_replicate_iff.2 ⟨rfl, h.signs⟩
  have hwhole : front ++ headingLine level title = headingLine (front.length + level) title := by
    rw [headingLine, headingLine, ← List.replicate_append_replicate, List.append_assoc, ← hfront]
  have hsix := h.atMostSix
  have hrange : (1 ≤ front.length + level && front.length + level ≤ 6) = true := by
    simp only [Bool.and_eq_true, decide_eq_true_eq]
    omega
  rw [hwhole, headingTitle?_headingLine hends hline, if_pos hrange]

theorem headingTitle?_of_not_continues {front title : Text} {level : Nat}
    (h : ¬Continues front level) (hfront : '\n' ∉ front) (hplain : headingTitle? front = none)
    (hends : hasBlankEnd title = false) (hline : '\n' ∉ title) :
    headingTitle? (front ++ headingLine level title) = none := by
  by_cases hsigns : ∀ c ∈ front, c = '#'
  · have heq : front = List.replicate front.length '#' := List.eq_replicate_iff.2 ⟨rfl, hsigns⟩
    have hwhole : front ++ headingLine level title = headingLine (front.length + level) title := by
      rw [headingLine, headingLine, ← List.replicate_append_replicate, List.append_assoc, ← heq]
    have hrange : ¬(1 ≤ front.length + level && front.length + level ≤ 6) = true := by
      simp only [Bool.and_eq_true, decide_eq_true_eq]
      exact fun hrange => h ⟨hsigns, hrange.2⟩
    rw [hwhole, headingTitle?_headingLine hends hline, if_neg hrange]
  · -- The line in front is told from a heading by what it has itself.
    obtain ⟨n, c, rest, hc, rfl⟩ := exists_replicate_append hsigns
    have hbreak : c ≠ '\n' := fun heq => hfront (by simp [heq])
    rw [headingTitle?_replicate hc hbreak] at hplain
    rw [List.append_assoc, List.cons_append, headingTitle?_replicate hc hbreak]
    split at hplain
    · cases hplain
    · next hno => rw [if_neg hno]

/-! ### A heading in a document -/

/-- A line that is no fence is marked with its title, if it has one. -/
theorem marked_singleton {line : Text} (h : isFence line = false) :
    marked [line] = [(line, headingTitle? line)] := by
  rw [marked, fenced_cons h]
  rfl

/-- Lines in which no heading counts have none either when a fence among them goes on. -/
theorem marked_fence_append {lines : List Text} {line : Text} (hfence : isFence line = true)
    (hplain : ∀ entry ∈ marked (lines ++ [line]), entry.2 = none) {behind : Text}
    (hbehind : isFence (line ++ behind) = true) :
    ∀ entry ∈ marked (lines ++ [line ++ behind]), entry.2 = none := by
  have hflags : fenced (lines ++ [line ++ behind]) = fenced (lines ++ [line]) :=
    fencedFrom_congr (by simp [hfence, hbehind]) false
  obtain ⟨flags, flag, hlast⟩ : ∃ flags flag, fenced (lines ++ [line]) = flags ++ [flag] :=
    (List.eq_nil_or_concat' _).resolve_left fun hnil => by
      simpa [hnil] using length_fenced (lines ++ [line])
  have hlength : lines.length = flags.length := by
    simpa [hlast] using (length_fenced (lines ++ [line])).symm
  have hzip : ∀ last : Text, (lines ++ [last]).zip (flags ++ [flag]) =
      lines.zip flags ++ [(last, flag)] := fun last => by
    rw [List.zip_append hlength]
    rfl
  intro entry hentry
  rcases mem_marked hentry with hnone | ⟨hmem, htitle⟩
  · exact hnone
  · rw [htitle]
    rw [hflags, hlast, hzip, List.mem_append, List.mem_singleton] at hmem
    rcases hmem with hmem | hmem
    · refine hplain (entry.1, headingTitle? entry.1) ?_
      rw [marked, hlast, hzip]
      exact List.mem_map.2 ⟨(entry.1, false), List.mem_append_left _ hmem, rfl⟩
    · rw [(Prod.mk.inj hmem).1]
      exact headingTitle?_of_isFence hbehind

/-- The lines of a text and what stands behind them are marked as the text is. -/
theorem marked_of_openLine {t : Text} {ls : List Text} (hls : ∀ l ∈ ls, IsLine l)
    (ht : t = ls.flatten ++ openLine t) (hpaired : Even ((pieces t).countP isFence))
    (hplain : ∀ entry ∈ outline t, entry.2 = none) :
    Even ((ls ++ [openLine t]).countP isFence) ∧
      ∀ entry ∈ marked (ls ++ [openLine t]), entry.2 = none := by
  have hpieces : pieces t = ls ++ if openLine t = [] then [] else [openLine t] := by
    conv_lhs => rw [ht]
    rw [pieces_flatten_append hls, pieces_of_not_mem (not_mem_openLine t)]
  rw [hpieces] at hpaired
  rw [outline_eq, hpieces] at hplain
  split at hpaired
  · next hnil =>
    rw [if_pos hnil, List.append_nil] at hplain
    rw [List.append_nil] at hpaired
    rw [hnil, marked_append hpaired, List.countP_append]
    refine ⟨hpaired, ?_⟩
    rw [List.forall_mem_append]
    exact ⟨hplain, by decide⟩
  · next hne =>
    rw [if_neg hne] at hplain
    exact ⟨hpaired, hplain⟩

/-- A heading on a line does not make the line a fence. -/
theorem isFence_append_headingLine {level : Nat} (hlevel : 1 ≤ level) (front title : Text) :
    isFence (front ++ headingLine level title) = isFence front := by
  obtain ⟨n, rfl⟩ := Nat.exists_eq_add_of_le' hlevel
  have hline : headingLine (n + 1) title = '#' :: headingLine n title := rfl
  have hword : ∀ w : Text, w ≠ [] → '#' ∉ w →
      startsWith w (trimStart isBlank (front ++ headingLine (n + 1) title)) =
        startsWith w (trimStart isBlank front) := by
    intro w hne hw
    rw [trimStart_append, hline]
    split
    · next hall =>
      have hsign : trimStart isBlank ('#' :: headingLine n title) =
          '#' :: headingLine n title := rfl
      have hnil : trimStart isBlank front = [] :=
        List.dropWhile_eq_nil_iff.2 (List.all_eq_true.1 hall)
      have hstart := startsWith_append_cons hw [] (headingLine n title)
      rwa [List.nil_append, ← hnil, ← hsign] at hstart
    · exact startsWith_append_cons hw _ _
  simp only [isFence]
  rw [hword ticks (by decide) (by decide), hword "~~~".toList (by decide) (by decide)]

/-- The outline of a document with a heading on some line. -/
theorem outline_headingLine {level : Nat} {title before body : Text} {ls : List Text}
    (hlevel : 1 ≤ level) (hline : '\n' ∉ title) (hls : ∀ l ∈ ls, IsLine l)
    (hbefore : before = ls.flatten ++ openLine before)
    (hpaired : Even ((ls ++ [openLine before]).countP isFence)) :
    outline (before ++ headingLine level title ++ body) =
      marked (ls ++ [openLine before ++ headingLine level title]) ++ outline body := by
  have hopen : '\n' ∉ openLine before ++ (List.replicate level '#' ++ ' ' :: title) := by
    simp [not_mem_openLine, hline, List.mem_replicate]
  have hpieces : pieces (before ++ headingLine level title ++ body) =
      (ls ++ [openLine before ++ headingLine level title]) ++ pieces body := by
    calc pieces (before ++ headingLine level title ++ body)
        = pieces (ls.flatten ++ ((openLine before ++ (List.replicate level '#' ++ ' ' :: title)) ++
            '\n' :: body)) := by
          conv_lhs => rw [hbefore]
          simp [headingLine]
      _ = (ls ++ [openLine before ++ headingLine level title]) ++ pieces body := by
          rw [pieces_flatten_append hls, pieces_line_append hopen]
          simp [headingLine]
  have hfences : Even ((ls ++ [openLine before ++ headingLine level title]).countP isFence) := by
    rw [List.countP_append] at hpaired ⊢
    rwa [List.countP_singleton, isFence_append_headingLine hlevel, ← List.countP_singleton]
  rw [outline_eq, hpieces, marked_append hfences, outline_eq]

/-- The text before a heading does not end in a heading of its own. -/
theorem headingTitle?_openLine {before : Text}
    (hbefore : Even ((pieces before).countP isFence) ∧ ∀ line ∈ outline before, line.2 = none) :
    headingTitle? (openLine before) = none := by
  obtain ⟨ls, hls, hsplit⟩ := exists_lines_append_openLine before
  obtain ⟨hpaired, hplain⟩ := marked_of_openLine hls hsplit hbefore.1 hbefore.2
  cases hfence : isFence (openLine before) with
  | true => exact headingTitle?_of_isFence hfence
  | false =>
    have heven : Even (ls.countP isFence) := by
      simpa [List.countP_append, hfence] using hpaired
    rw [marked_append heven, marked_singleton hfence, List.forall_mem_append] at hplain
    exact hplain.2 _ (List.mem_singleton.2 rfl)

/-- In a document in which no other heading counts, the section is what stands behind the line of
the heading, if that line is headed. -/
theorem section?_append_headingLine {level : Nat} {title before body : Text} (hlevel : 1 ≤ level)
    (hline : '\n' ∉ title)
    (hbefore : Even ((pieces before).countP isFence) ∧ ∀ line ∈ outline before, line.2 = none)
    (hbody : ∀ line ∈ outline body, line.2 = none) :
    Markdown.section? (before ++ headingLine level title ++ body) title =
      if isHeaded title (openLine before ++ headingLine level title,
        headingTitle? (openLine before ++ headingLine level title)) then some body else none := by
  obtain ⟨ls, hls, hsplit⟩ := exists_lines_append_openLine before
  obtain ⟨hpaired, hplain⟩ := marked_of_openLine hls hsplit hbefore.1 hbefore.2
  rw [section?_eq, outline_headingLine hlevel hline hls hsplit hpaired]
  have hfence := isFence_append_headingLine hlevel (openLine before) title
  cases hopen : isFence (openLine before) with
  | true =>
    -- The heading goes on a fence, which ends the last pair.
    rw [hopen] at hfence
    have hfront := marked_fence_append hopen hplain hfence
    rw [sectionAmong?_eq_none, headingTitle?_of_isFence hfence, isHeaded_of_none title rfl]
    · rfl
    · intro line hmem
      exact isHeaded_of_none title ((List.mem_append.1 hmem).elim (hfront line) (hbody line))
  | false =>
    rw [hopen] at hfence
    have heven : Even (ls.countP isFence) := by
      simpa [List.countP_append, hopen] using hpaired
    rw [marked_append heven, List.forall_mem_append] at hplain
    rw [marked_append heven, marked_singleton hfence, List.append_assoc, List.singleton_append,
      sectionAmong?_alone hplain.1 _ hbody, outline_eq, map_fst_marked, flatten_pieces]

/-- In a document whose fences pair up in front of a heading and behind it, and in which no other
heading counts, the section with the title of the heading is what stands behind it, if the title
does not end in a number sign and the heading is one where it stands. Otherwise there is no such
section. -/
theorem section?_headingLine {level : Nat} {title before body : Text}
    (hlevel : 1 ≤ level ∧ level ≤ 6) (hends : hasBlankEnd title = false) (hline : '\n' ∉ title)
    (hbefore : Even ((pieces before).countP isFence) ∧ ∀ line ∈ outline before, line.2 = none)
    (hbody : Even ((pieces body).countP isFence) ∧ ∀ line ∈ outline body, line.2 = none) :
    (section? (before ++ headingLine level title ++ body) title = some body ↔
        title.getLast? ≠ some '#' ∧ Continues (openLine before) level) ∧
      (¬(title.getLast? ≠ some '#' ∧ Continues (openLine before) level) →
        Markdown.section? (before ++ headingLine level title ++ body) title = none) := by
  have hheaded : isHeaded title (openLine before ++ headingLine level title,
      headingTitle? (openLine before ++ headingLine level title)) = true ↔
      title.getLast? ≠ some '#' ∧ Continues (openLine before) level := by
    by_cases hcontinues : Continues (openLine before) level
    · rw [headingTitle?_of_continues hcontinues hlevel.1 hends hline, and_iff_left hcontinues]
      exact sameIgnoringCase_trimEnd_iff hends
    · rw [headingTitle?_of_not_continues hcontinues (not_mem_openLine before)
        (headingTitle?_openLine hbefore) hends hline, isHeaded_of_none title rfl]
      exact ⟨fun hfalse => absurd hfalse Bool.false_ne_true, fun h => absurd h.2 hcontinues⟩
  have hsection := section?_append_headingLine hlevel.1 hline hbefore hbody.2
  constructor
  · rw [hsection, ← hheaded]
    simp
  · intro hno
    rw [hsection]
    exact if_neg fun h => hno (hheaded.1 h)

/-- A heading that is found behind a fenced line that looks like it, with a fence behind it. -/
theorem section?_headingLine_fenced :
    let before := "```\n### F# notes\n```\n".toList
    let body := "~~~\n# code\n~~~\nend".toList
    hasBlankEnd "F# notes".toList = false ∧ '\n' ∉ "F# notes".toList ∧
      (Even ((pieces before).countP isFence) ∧ ∀ line ∈ outline before, line.2 = none) ∧
      (Even ((pieces body).countP isFence) ∧ ∀ line ∈ outline body, line.2 = none) ∧
      Markdown.section? (before ++ headingLine 3 "F# notes".toList ++ body) "F# notes".toList =
        some body := by
  intro before body
  have hends : hasBlankEnd "F# notes".toList = false := by decide
  have hline : '\n' ∉ "F# notes".toList := by decide
  have hbefore : Even ((pieces before).countP isFence) ∧
      ∀ line ∈ outline before, line.2 = none := by decide
  have hbody : Even ((pieces body).countP isFence) ∧ ∀ line ∈ outline body, line.2 = none := by
    decide
  have hcontinues : Continues (openLine before) 3 := by
    rw [show openLine before = [] by decide]
    exact ⟨by simp, by decide⟩
  refine ⟨hends, hline, hbefore, hbody, ?_⟩
  exact (section?_headingLine (by decide) hends hline hbefore hbody).1.2 ⟨by decide, hcontinues⟩

/-- A title that ends in a number sign is not found. -/
theorem sharp_title_lost :
    hasBlankEnd "C#".toList = false ∧ '\n' ∉ "C#".toList ∧ outline [] = [] ∧
      (∀ line ∈ outline "body\n".toList, isFence line.1 = false ∧ line.2 = none) ∧
      Markdown.section? ([] ++ headingLine 2 "C#".toList ++ "body\n".toList) "C#".toList =
        none := by
  decide

end StyleDocs.Markdown
