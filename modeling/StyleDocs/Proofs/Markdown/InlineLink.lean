import StyleDocs.Markdown.InlineLink
import StyleDocs.Proofs.Markdown.ValueTable

/-!
# Lists of links that are read back

A list of links, one in a line and each with its text between backquotes, gives the texts in order.
No line of it is taken for a row of a table, even if a text or a target has a bar in it.
-/

namespace StyleDocs.Markdown

open Text

/-- An inline link begins with a bracket. -/
theorem opensWith_inlineLink : Pattern.OpensWith inlineLink '[' := by
  intro t label rest h
  unfold inlineLink at h
  split at h
  · split at h
    · next behind hlabel =>
      obtain ⟨⟨target, after⟩, htarget, he⟩ := Option.map_eq_some_iff.1 h
      cases he
      refine ⟨label ++ [']'] ++ '(' :: target ++ [')'], ?_⟩
      rw [eq_of_cut? hlabel, eq_of_cut? htarget]
      simp
    · cases h
  · cases h

/-- A link runs to the first closing bracket and the first closing parenthesis behind it. -/
theorem inlineLink_of_marks {label target : Text} (hlabel : ']' ∉ label) (htarget : ')' ∉ target)
    (rest : Text) :
    inlineLink ('[' :: (label ++ ']' :: '(' :: (target ++ ')' :: rest))) = some (label, rest) := by
  simp only [inlineLink, cut?_mark hlabel, cut?_mark htarget, Option.map_some]

/-- An item of a list that begins with a bracket is no row: what stands in front of a bar is more
than one word. -/
theorem row?_item (t : Text) : row? ("- [".toList ++ t) = none := by
  have hcell : ∀ first second, firstCells? ("- [".toList ++ t) = some (first, second) →
      ∃ w, first = "- [".toList ++ w := by
    intro first second h
    have hgap : trimStart isGap ("- [".toList ++ t) = "- [".toList ++ t := rfl
    have hbar : after? ['|'] ("- [".toList ++ t) = none := rfl
    simp only [firstCells?, hgap, hbar, Option.getD_none] at h
    split at h
    · cases h
    · cases h
      exact ⟨t.takeWhile (· != '|'), List.takeWhile_append_of_pos (List.all_eq_true.1 rfl)⟩
  -- Neither the trimming nor the dropping of notes reaches the blank behind the hyphen.
  have htrimmed : ∀ p : Char → Bool, p '-' = false → p '[' = false → ∀ w,
      ∃ w', trimEnds p ("- [".toList ++ w) = "- [".toList ++ w' := fun p hhyphen hbracket w =>
    exists_trimEnds_append (by simp) (by simpa using hhyphen) (by simpa using hbracket) w
  have hvalue : ∀ w, ∃ w', cellValue ("- [".toList ++ w) = "- [".toList ++ w' := by
    intro w
    have hnote : dropDefault ("- [".toList ++ w) = "- [".toList ++ dropDefault w :=
      opensWith_defaultNote.substitute_append _ (by decide) w
    obtain ⟨w₁, h₁⟩ := htrimmed isBlank (by decide) (by decide) (dropDefault w)
    obtain ⟨w₂, h₂⟩ := htrimmed (· == backquote) (by decide) (by decide) w₁
    obtain ⟨w₃, h₃⟩ := htrimmed isBlank (by decide) (by decide) w₂
    refine ⟨w₃, ?_⟩
    rw [cellValue, hnote, strip, strip, h₁, h₂, h₃]
  rw [row?]
  cases hcells : firstCells? ("- [".toList ++ t) with
  | none => rfl
  | some cells =>
    obtain ⟨first, second⟩ := cells
    obtain ⟨w, rfl⟩ := hcell first second hcells
    obtain ⟨w', hw'⟩ := hvalue w
    have hword : ("- [".toList ++ w').all (fun c => !isBlank c && c != '|') = false := rfl
    have hname : namesValue ("- [".toList ++ w') = false := by
      rw [namesValue, hword, Bool.and_false]
    dsimp only
    rw [hw', hname]
    rfl

/-- A link in a list. -/
structure ListedLink where
  /-- Its text. -/
  text : Text
  /-- The document that it links to. -/
  target : Text
  /-- There is a text. -/
  named : text ≠ []
  /-- It has no white space around it. -/
  trimmed : hasBlankEnd text = false
  /-- It has no backquote at either end. -/
  bare : text.head?.any (· == backquote) = false ∧ text.getLast?.any (· == backquote) = false
  /-- It stays between the brackets and on its line. -/
  oneLine : ']' ∉ text ∧ '\n' ∉ text
  /-- The target stays between the parentheses and on its line. -/
  oneTarget : ')' ∉ target ∧ '\n' ∉ target

namespace ListedLink

/-- What stands between the brackets: the text between backquotes. -/
def label (link : ListedLink) : Text := [backquote] ++ link.text ++ [backquote]

/-- What stands between the parentheses. -/
def path (link : ListedLink) : Text := "./".toList ++ link.target ++ ".md".toList

/-- The link as it is written. -/
def line (link : ListedLink) : Text :=
  "- [".toList ++ (link.label ++ "](".toList ++ link.path ++ [')']) ++ ['\n']

/-- The text of a link is read back, and reading goes on behind the link. -/
theorem findings_line (link : ListedLink) (rest : Text) :
    findings inlineLink (link.line ++ rest) = link.label :: findings inlineLink rest := by
  have hline : link.line ++ rest =
      "- ".toList ++ '[' :: (link.label ++ ']' :: '(' :: (link.path ++ ')' :: '\n' :: rest)) := by
    rw [line]
    simp only [List.append_assoc]
    rfl
  have hlabel : ']' ∉ link.label := by simp [label, link.oneLine.1, backquote]
  have hpath : ')' ∉ link.path := by simp [path, link.oneTarget.1]
  have hfound := inlineLink_of_marks hlabel hpath ('\n' :: rest)
  rw [hline, opensWith_inlineLink.findings_append (by decide),
    opensWith_inlineLink.findings_found hfound]
  have hbreak : '[' ∉ ['\n'] := by decide
  exact congrArg _ (opensWith_inlineLink.findings_append hbreak rest)

theorem linkLabel_label (link : ListedLink) : linkLabel link.label = link.text := by
  have hlabel := trimEnds_strip_quoted (a := []) (b := []) (by simp) (by simp) link.bare.1
    link.bare.2
  rw [List.nil_append, List.append_nil] at hlabel
  rw [linkLabel, label, hlabel, strip_eq_self link.trimmed]

/-- The line of a link is no row. -/
theorem row?_line (link : ListedLink) : row? (chomp link.line) = none := by
  have hchomp : chomp link.line =
      "- [".toList ++ (link.label ++ "](".toList ++ link.path ++ [')']) := by
    rw [line]
    refine chomp_append ?_
    rw [← List.append_assoc, List.getLast?_concat]
    simp
  rw [hchomp]
  exact row?_item _

theorem plain_line (link : ListedLink) :
    IsLine link.line ∧ isFence link.line = false ∧ headingTitle? link.line = none := by
  have hbreak : '\n' ∉ link.label ++ "](".toList ++ link.path ++ [')'] := by
    simp [label, path, link.oneLine.2, link.oneTarget.2, backquote]
  refine ⟨?_, rfl, headingTitle?_cons_of_ne (by decide) _⟩
  rw [line]
  refine isLine_append fun hmem => ?_
  exact (List.mem_append.1 hmem).elim (by decide) hbreak

end ListedLink

/-- A list of links as a passage. -/
def linkPassage (links : List ListedLink) : Passage :=
  .ofPlain (links.map ListedLink.line) fun line hline => by
    obtain ⟨link, -, rfl⟩ := List.mem_map.1 hline
    exact link.plain_line

theorem rows_linkPassage (links : List ListedLink) : (linkPassage links).rows = [] := by
  rw [linkPassage, Passage.rows_ofPlain, List.filterMap_eq_nil_iff]
  intro line hline
  obtain ⟨link, -, rfl⟩ := List.mem_map.1 hline
  exact link.row?_line

/-- The texts of the links in a list between blank lines are read back in order. -/
theorem linkLabels_text (links : List ListedLink) (n m : Nat) :
    linkLabels (Passage.blank n ++ linkPassage links ++ Passage.blank m).text =
      links.map ListedLink.text := by
  have hbreaks : ∀ k, '[' ∉ List.replicate k '\n' := fun k hmem =>
    absurd (List.eq_of_mem_replicate hmem) (by decide)
  have hlines : findings inlineLink ((links.map ListedLink.line).flatten ++ List.replicate m '\n') =
      links.map ListedLink.label := by
    induction links with
    | nil =>
      have hnone := opensWith_inlineLink.findings_append (hbreaks m) []
      rwa [List.append_nil] at hnone
    | cons link links ih =>
      rw [List.map_cons, List.flatten_cons, List.append_assoc, link.findings_line, ih,
        List.map_cons]
  have htext : (Passage.blank n ++ linkPassage links ++ Passage.blank m).text =
      List.replicate n '\n' ++
        ((links.map ListedLink.line).flatten ++ List.replicate m '\n') :=
    Passage.text_between_blanks n m (linkPassage links)
  have hlabels : (links.map ListedLink.label).map linkLabel = links.map ListedLink.text := by
    rw [List.map_map]
    refine List.map_congr_left fun link _ => ?_
    rw [Function.comp_apply, link.linkLabel_label]
  rw [linkLabels, htext, opensWith_inlineLink.findings_append (hbreaks n), hlines, hlabels,
    List.filter_eq_self]
  intro text htext
  obtain ⟨link, -, rfl⟩ := List.mem_map.1 htext
  simp [link.named]

end StyleDocs.Markdown
