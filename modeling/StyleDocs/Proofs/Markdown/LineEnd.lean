import StyleDocs.Markdown.Cleanup
import StyleDocs.Proofs.Markdown.InlineLink
import StyleDocs.Markdown.CodeBlock
import StyleDocs.Proofs.Markdown.Heading
import StyleDocs.Proofs.Text.LineEnd

/-!
# Markdown with returns in the line ends

A document whose line ends carry a return has the fences, the headings and the rows that it has
without the returns. A section, the code of a block and the text of a link have the returns that
stand in them; a grammar, which is put together from lines, has none.
-/

namespace StyleDocs.Markdown

open Text

/-! ### Fences and headings -/

theorem isFence_crlf (piece : Text) : isFence (crlf piece) = isFence piece := by
  have htrim : trimStart isBlank (crlf piece) = crlf (trimStart isBlank piece) :=
    trimStart_crlf (by decide) piece
  simp only [isFence]
  rw [htrim, startsWith_crlf (by decide), startsWith_crlf (by decide)]

/-- A return at the end does not belong to a title. -/
theorem titleOf_return {rest : Text} (h : '\r' ∉ rest) :
    titleOf (rest ++ ['\r']) = titleOf rest := by
  rw [titleOf_eq fun hlast => h (List.mem_of_getLast? hlast), titleOf, List.reverse_append]
  rfl

/-- Dropping a class without the return keeps a return at the end. -/
theorem dropWhile_return {p : Char → Bool} (h : p '\r' = false) (line : Text) :
    (line ++ ['\r']).dropWhile p = line.dropWhile p ++ ['\r'] := by
  induction line with
  | nil => exact List.dropWhile_cons_of_neg (by simp [h])
  | cons c line ih =>
    rw [List.cons_append, List.dropWhile_cons, List.dropWhile_cons, ih]
    split <;> rfl

/-- A heading has the same title with a return behind it. -/
theorem headingTitle?_return {line : Text} (h : Unbroken line) :
    headingTitle? (line ++ ['\r', '\n']) = headingTitle? (line ++ ['\n']) := by
  have hline : trimEnd (· == '\n') (line ++ ['\r', '\n']) = line ++ ['\r'] := by
    have hreturned : '\n' ∉ line ++ ['\r'] := by simp [h.2]
    have hreturn := trimEnd_newline hreturned
    rwa [List.append_assoc] at hreturn
  have hlevel : ∀ u : Text, (u ++ ['\r']).takeWhile (· == '#') = u.takeWhile (· == '#') := by
    intro u
    induction u with
    | nil => rfl
    | cons c u ih => rw [List.cons_append, List.takeWhile_cons, List.takeWhile_cons, ih]
  have hgap : ∀ u : Text, (u ++ ['\r']).head?.any isGap = u.head?.any isGap := by
    intro u
    cases u <;> rfl
  have hrest : '\r' ∉ (line.dropWhile (· == '#')).dropWhile isGap := fun hmem =>
    h.1 ((List.dropWhile_suffix _).subset ((List.dropWhile_suffix _).subset hmem))
  simp only [headingTitle?]
  rw [hline, trimEnd_newline h.2, hlevel, dropWhile_return rfl, hgap, dropWhile_return rfl,
    titleOf_return hrest]

section Pieces

variable {t piece : Text}

theorem headingTitle?_crlf (hpiece : piece ∈ pieces t) (ht : '\r' ∉ t) :
    headingTitle? (crlf piece) = headingTitle? piece := by
  obtain ⟨line, hline, rfl | rfl⟩ := exists_of_mem_pieces hpiece
  · rw [crlf_eq_self hline]
  · have hreturn : '\r' ∉ line := fun hmem =>
      ht (mem_of_mem_pieces hpiece (List.mem_append_left _ hmem))
    rw [crlf_append, crlf_eq_self hline]
    exact headingTitle?_return ⟨hreturn, hline⟩

/-- The same pieces are headings. -/
theorem outline_crlf (ht : '\r' ∉ t) :
    outline (crlf t) = (outline t).map (Prod.map crlf id) := by
  have hfenced : fenced ((pieces t).map crlf) = fenced (pieces t) :=
    fencedFrom_map isFence_crlf false _
  rw [outline_eq, marked, pieces_crlf, hfenced, List.zip_map_left, List.map_map, outline_eq, marked,
    List.map_map]
  refine List.map_congr_left fun entry hentry => ?_
  obtain ⟨piece, inside⟩ := entry
  cases inside with
  | true => rfl
  | false =>
    have htitle := headingTitle?_crlf (List.of_mem_zip hentry).1 ht
    exact Prod.ext rfl htitle

/-- The section with a title is the section that it was, with the returns in it. -/
theorem section?_crlf (ht : '\r' ∉ t) (title : Text) : section? (crlf t) title =
    (section? t title).map crlf := by
  have hheaded : (fun line => !isHeaded title line) ∘ Prod.map crlf id =
      fun line => !isHeaded title line := rfl
  have hbody : (fun line : Text × Option Text => line.2.isNone) ∘ Prod.map crlf id =
      fun line => line.2.isNone := rfl
  rw [section?_eq, section?_eq, outline_crlf ht, sectionAmong?, sectionAmong?, List.dropWhile_map,
    hheaded]
  cases (outline t).dropWhile fun line => !isHeaded title line with
  | nil => rfl
  | cons line rest =>
    rw [List.map_cons, Option.map_some, crlf_flatten]
    dsimp only
    rw [List.takeWhile_map, hbody, List.map_map, List.map_map]
    rfl

/-- The characters of a section are characters of the text. -/
theorem mem_of_section? {title body : Text} (h : section? t title = some body) {c : Char}
    (hc : c ∈ body) : c ∈ t := by
  rw [section?_eq, sectionAmong?] at h
  split at h
  · cases h
  · next line rest hrest =>
    cases h
    obtain ⟨piece, hpiece, hmem⟩ := List.mem_flatten.1 hc
    have htaken : piece ∈ (line :: rest).map Prod.fst :=
      List.mem_cons_of_mem _ ((List.takeWhile_sublist _).map Prod.fst |>.subset hpiece)
    have hpieces : piece ∈ pieces t := by
      rw [← hrest] at htaken
      rw [← map_fst_marked (pieces t)]
      exact ((List.dropWhile_sublist _).map Prod.fst).subset htaken
    exact mem_of_mem_pieces hpieces hmem

/-! ### What is put together from lines -/

theorem rows_crlf (ht : '\r' ∉ t) : rows (crlf t) = rows t := by
  rw [rows, rows, lines_crlf ht]

theorem grammarText_crlf (mark : Text) (ht : '\r' ∉ t) :
    grammarText mark (crlf t) = grammarText mark t := by
  rw [grammarText, grammarText, lines_crlf ht]

end Pieces

/-! ### Code -/

theorem isWordEdge_crlf (before : Char) (behind : Text) :
    isWordEdge before (crlf behind) = isWordEdge before behind := by
  have hbreaks : isWordChar '\r' = isWordChar '\n' := by decide
  cases behind with
  | nil => rfl
  | cons c rest =>
    by_cases hc : c = '\n'
    · subst hc
      simp [isWordEdge, hbreaks]
    · rw [crlf_cons hc]
      rfl

theorem labelPlaces_crlf (before : Char) (t : Text) :
    labelPlaces before (crlf t) = (labelPlaces before t).map (Prod.map id crlf) := by
  induction t generalizing before with
  | nil => rfl
  | cons c t ih =>
    by_cases hc : c = '\n'
    · subst hc
      rfl
    · rw [crlf_cons hc, labelPlaces, labelPlaces, ih]
      split <;> simp [crlf_cons hc]

theorem codeBehind?_crlf {label : Text} (hlabel : Unbroken label) (before : Char) (t : Text) :
    codeBehind? label before (crlf t) = (codeBehind? label before t).map crlf := by
  rw [codeBehind?, codeBehind?, after?_crlf hlabel]
  cases after? label t with
  | none => rfl
  | some rest =>
    dsimp only [Option.map_some]
    rw [isWordEdge_crlf]
    split
    · have hline := snd_cut?_newline_crlf rest
      cases hcut : cut? ['\n'] rest with
      | none =>
        rw [hcut] at hline
        cases hcut' : cut? ['\n'] (crlf rest) with
        | none => rfl
        | some parts => rw [hcut'] at hline; cases hline
      | some parts =>
        obtain ⟨line, body⟩ := parts
        rw [hcut] at hline
        cases hcut' : cut? ['\n'] (crlf rest) with
        | none => rw [hcut'] at hline; cases hline
        | some parts' =>
          obtain ⟨line', body'⟩ := parts'
          rw [hcut'] at hline
          obtain rfl : body' = crlf body := Option.some.inj hline
          dsimp only
          rw [cut?_crlf (by decide) (by decide)]
          cases cut? ticks body <;> rfl
    · rfl

section Labels

variable {labels : List Text} (hlabels : ∀ label ∈ labels, Unbroken label)

include hlabels

theorem blockAt?_crlf (t : Text) :
    blockAt? labels (crlf t) = (blockAt? labels t).map crlf := by
  have hchoices : ∀ label ∈ (if labels.isEmpty then [[]] else labels), Unbroken label := by
    split
    · intro label hlabel
      rw [List.mem_singleton.1 hlabel]
      decide
    · exact hlabels
  rw [blockAt?, blockAt?, after?_crlf (by decide)]
  cases after? ticks t with
  | none => rfl
  | some rest =>
    dsimp only [Option.map_some]
    generalize (if labels.isEmpty then [[]] else labels) = choices at hchoices
    rw [labelPlaces_crlf, List.findSome?_map, List.map_findSome?]
    congr 1
    funext place
    obtain ⟨before, behind⟩ := place
    simp only [Function.comp_apply, Prod.map_apply, id_eq]
    induction choices with
    | nil => rfl
    | cons label choices ih =>
      rw [List.findSome?_cons, List.findSome?_cons,
        codeBehind?_crlf (hchoices label List.mem_cons_self),
        ih fun other hother => hchoices other (List.mem_cons_of_mem _ hother)]
      cases codeBehind? label before behind <;> rfl

/-- The code of the first block is the code that it was, with the returns in it. -/
theorem block?_crlf (t : Text) : block? labels (crlf t) = (block? labels t).map crlf := by
  have hbreak : ∀ (c : Char) (u : Text), isBreak c = true →
      block? labels (c :: u) = block? labels u := by
    intro c u hc
    rw [block?, blockAt?, after?_break (by decide) (by decide) hc]
  induction t with
  | nil => rfl
  | cons c t ih =>
    by_cases hc : c = '\n'
    · subst hc
      rw [crlf_newline, hbreak _ _ rfl, hbreak _ _ rfl, hbreak _ _ rfl, ih]
    · have hfront := blockAt?_crlf hlabels (c :: t)
      rw [crlf_cons hc] at hfront
      rw [crlf_cons hc, block?, block?, hfront, ih]
      cases blockAt? labels (c :: t) <;> rfl

theorem example?_crlf (t : Text) : example? labels (crlf t) = (example? labels t).map crlf := by
  have htidy : ∀ code, tidyCode? (crlf code) = (tidyCode? code).map crlf := by
    intro code
    have hblank : ∀ u : Text, allBlank (crlf u) = allBlank u := fun u => all_crlf (by decide) u
    have htrim : trimEnd isBlank (trimStart isBreak (crlf code)) =
        crlf (trimEnd isBlank (trimStart isBreak code)) := by
      rw [trimStart_crlf (by decide), trimEnd_crlf (by decide)]
    simp only [tidyCode?]
    rw [htrim, hblank]
    split <;> rfl
  rw [example?, example?, block?_crlf hlabels]
  cases block? labels t with
  | none => rfl
  | some code => exact htidy code

end Labels

/-! ### Links -/

/-- A link in steps: its text, the opening parenthesis and the target. -/
theorem inlineLink_bracket (t : Text) :
    inlineLink ('[' :: t) = (cut? [']'] t).bind fun parts =>
      ((after? ['('] parts.2).bind (cut? [')'])).map fun target => (parts.1, target.2) := by
  rw [inlineLink]
  cases cut? [']'] t with
  | none => rfl
  | some parts =>
    obtain ⟨label, behind⟩ := parts
    cases behind with
    | nil => rfl
    | cons d behind =>
      by_cases hd : d = '('
      · subst hd
        rfl
      · rw [Option.bind_some, after?, if_neg (Ne.symm hd)]
        split
        · next heq =>
          simp only [Option.some.injEq, Prod.mk.injEq, List.cons.injEq] at heq
          exact absurd heq.2.1 hd
        · rfl

theorem inlineLink_crlf (t : Text) :
    inlineLink (crlf t) = (inlineLink t).map (Prod.map crlf crlf) := by
  cases t with
  | nil => rfl
  | cons c t =>
    by_cases hc : c = '['
    · subst hc
      rw [crlf_cons (by decide), inlineLink_bracket, inlineLink_bracket,
        cut?_crlf (by decide) (by decide)]
      cases cut? [']'] t with
      | none => rfl
      | some parts =>
        rw [Option.map_some, Option.bind_some, Option.bind_some, Prod.map_snd,
          after?_crlf (by decide)]
        cases after? ['('] parts.2 with
        | none => rfl
        | some behind =>
          rw [Option.map_some, Option.bind_some, Option.bind_some,
            cut?_crlf (by decide) (by decide)]
          cases cut? [')'] behind <;> rfl
    · rw [opensWith_inlineLink.eq_none hc]
      by_cases hfeed : c = '\n'
      · subst hfeed
        rfl
      · rw [crlf_cons hfeed, opensWith_inlineLink.eq_none hc]
        rfl

/-- The texts of the links are the texts that they were, with the returns in them. -/
theorem linkLabels_crlf (t : Text) : linkLabels (crlf t) = (linkLabels t).map crlf := by
  have hlabel : linkLabel ∘ crlf = crlf ∘ linkLabel := by
    funext label
    simp only [Function.comp_apply]
    rw [linkLabel, linkLabel, strip_crlf, trimEnds_crlf (by decide), strip_crlf]
  have hempty : (fun label : Text => !label.isEmpty) ∘ crlf = fun label => !label.isEmpty := by
    funext label
    simp
  rw [linkLabels, linkLabels, opensWith_inlineLink.findings_crlf (by decide) inlineLink_crlf,
    List.map_map, hlabel, ← List.map_map, List.filter_map, hempty]

end StyleDocs.Markdown
