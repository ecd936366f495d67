import StyleDocs.Markdown.CodeBlock
import StyleDocs.Proofs.Text.Occurrence
import StyleDocs.Proofs.Text.Strip

/-!
# The mark of an example

Three backquotes with one of the labels behind them are a mark, wherever in a line they stand. What
is taken for the example begins behind the line of the first mark of a text and runs to the next
three backquotes. If there are none, no later mark has an example either, so the first mark alone
decides.
-/

namespace StyleDocs.Markdown

open Text

/-! ### Marks -/

/-- What stands on the first line of a text. -/
def firstLine (t : Text) : Text := t.takeWhile (· != '\n')

/-- The labels that a block may have. A block without labels to choose from has the empty label. -/
def choices (labels : List Text) : List Text := if labels.isEmpty then [[]] else labels

/-- Whether a label begins a text and ends at the edge of a word. -/
def fits (label : Text) (before : Char) (t : Text) : Bool :=
  match after? label t with
  | none => false
  | some behind => isWordEdge (label.getLast?.getD before) behind

/-- The character in front of what follows some gaps. -/
def lastGap (before : Char) : Text → Char
  | [] => before
  | c :: cs => if isGap c then lastGap c cs else before

/-- Whether a text begins with a mark: three backquotes, gaps, and one of the labels up to the edge
of a word. -/
def isMark (labels : List Text) (t : Text) : Bool :=
  match after? ticks (firstLine t) with
  | none => false
  | some rest =>
    (choices labels).any fun label => fits label (lastGap backquote rest) (trimStart isGap rest)

/-- What stands between the first line of a text and the next three backquotes. -/
def markedCode? (t : Text) : Option Text :=
  (cut? ['\n'] t).bind fun parts => (cut? ticks parts.2).map Prod.fst

/-- The first end of a text that begins with a mark. -/
def firstMark? (labels : List Text) : Text → Option Text
  | [] => none
  | c :: cs => if isMark labels (c :: cs) then some (c :: cs) else firstMark? labels cs

theorem firstLine_append {w : Text} (h : '\n' ∉ w) (rest : Text) :
    firstLine (w ++ '\n' :: rest) = w := by
  have hw : ∀ c ∈ w, (c != '\n') = true := by
    intro c hc
    simpa using fun heq : c = '\n' => h (heq ▸ hc)
  exact takeWhile_append_cons hw (by simp) rest

theorem markedCode?_append {w : Text} (h : '\n' ∉ w) (rest : Text) :
    markedCode? (w ++ '\n' :: rest) = (cut? ticks rest).map Prod.fst := by
  rw [markedCode?, cut?_mark h, Option.bind_some]

/-- Whether a text begins with a mark shows on its first line. -/
theorem isMark_append {labels : List Text} {w : Text} (h : '\n' ∉ w) (a b : Text) :
    isMark labels (w ++ '\n' :: a) = isMark labels (w ++ '\n' :: b) := by
  rw [isMark, isMark, firstLine_append h, firstLine_append h]

/-! ### Labels made of words -/

theorem isWordChar_of_isGap {c : Char} (h : isGap c = true) : isWordChar c = false := by
  simp only [isGap, Bool.or_eq_true, beq_iff_eq] at h
  rcases h with rfl | rfl <;> decide

theorem isWordEdge_append (before : Char) (t rest : Text) :
    isWordEdge before (t ++ '\n' :: rest) = isWordEdge before t := by
  have hbreak : isWordChar '\n' = false := by decide
  cases t with
  | nil => simp [isWordEdge, hbreak]
  | cons c t => rfl

/-- A label finds the code behind its line if it fits. -/
theorem codeBehind?_append {label p : Text} (hlabel : '\n' ∉ label) (hp : '\n' ∉ p) (before : Char)
    (body : Text) :
    codeBehind? label before (p ++ '\n' :: body) =
      if fits label before p then (cut? ticks body).map Prod.fst else none := by
  rw [codeBehind?, fits, after?_append_cons hlabel]
  cases hafter : after? label p with
  | none => rfl
  | some behind =>
    have hbehind : '\n' ∉ behind := fun hmem => hp (mem_of_after? hafter hmem)
    simp only [Option.map_some, isWordEdge_append, cut?_mark hbehind]

/-- A label finds no code in a text without a line feed. -/
theorem codeBehind?_of_not_mem {p : Text} (hp : '\n' ∉ p) (label : Text) (before : Char) :
    codeBehind? label before p = none := by
  rw [codeBehind?]
  cases hafter : after? label p with
  | none => rfl
  | some behind =>
    have hbehind : '\n' ∉ behind := fun hmem => hp (mem_of_after? hafter hmem)
    simp [cut?_of_not_mem hbehind]

/-- A label made of words does not begin in front of a gap. -/
theorem codeBehind?_gap {label : Text} (hlabel : ∀ c ∈ label, isWordChar c = true) {before c : Char}
    (hbefore : isWordChar before = false) (hc : isGap c = true) (t : Text) :
    codeBehind? label before (c :: t) = none := by
  have hword := isWordChar_of_isGap hc
  cases label with
  | nil => simp [codeBehind?, after?, isWordEdge, hbefore, hword]
  | cons w label =>
    have hne : w ≠ c := by
      rintro rfl
      rw [hlabel w List.mem_cons_self] at hword
      cases hword
    simp [codeBehind?, after?, hne]

/-- A search that finds nothing in front of a gap looks at the place behind all gaps only. -/
theorem findSome?_labelPlaces {α : Type} {find : Char × Text → Option α}
    (hfind : ∀ before c t, isWordChar before = false → isGap c = true →
      find (before, c :: t) = none)
    {before : Char} (hbefore : isWordChar before = false) (t : Text) :
    (labelPlaces before t).findSome? find = find (lastGap before t, trimStart isGap t) := by
  induction t generalizing before with
  | nil => simp [labelPlaces, lastGap, trimStart]
  | cons c t ih =>
    rw [labelPlaces, lastGap]
    split
    · next hc =>
      have htrim : trimStart isGap (c :: t) = trimStart isGap t := List.dropWhile_cons_of_pos hc
      rw [List.findSome?_append, ih (isWordChar_of_isGap hc), List.findSome?_singleton,
        hfind before c t hbefore hc, Option.or_none, htrim]
    · next hc =>
      have htrim : trimStart isGap (c :: t) = c :: t := List.dropWhile_cons_of_neg hc
      rw [List.findSome?_singleton, htrim]

/-- A search that finds the same wherever it finds something. -/
theorem findSome?_eq_ite {α β : Type} {find : α → Option β} {p : α → Bool} {found : Option β}
    {l : List α} (h : ∀ a ∈ l, find a = if p a then found else none) :
    l.findSome? find = if l.any p then found else none := by
  induction l with
  | nil => rfl
  | cons a l ih =>
    rw [List.findSome?_cons, List.any_cons, h a List.mem_cons_self,
      ih fun b hb => h b (List.mem_cons_of_mem a hb)]
    cases p a <;> cases found <;> simp

theorem lastGap_append (before : Char) (t rest : Text) :
    lastGap before (t ++ '\n' :: rest) = lastGap before t := by
  induction t generalizing before with
  | nil => rfl
  | cons c t ih => rw [List.cons_append, lastGap, lastGap, ih]

theorem trimStart_isGap_append (t rest : Text) :
    trimStart isGap (t ++ '\n' :: rest) = trimStart isGap t ++ '\n' :: rest := by
  induction t with
  | nil => rfl
  | cons c t ih =>
    simp only [trimStart, List.cons_append, List.dropWhile_cons] at ih ⊢
    split
    · exact ih
    · rfl

section Labels

variable {labels : List Text} (hlabels : ∀ label ∈ labels, ∀ c ∈ label, isWordChar c = true)
include hlabels

theorem isWordChar_of_choices : ∀ label ∈ choices labels, ∀ c ∈ label, isWordChar c = true := by
  intro label hlabel
  rw [choices] at hlabel
  split at hlabel
  · rw [List.mem_singleton.1 hlabel]
    simp
  · exact hlabels label hlabel

/-- The label of a block stands behind all the gaps. -/
theorem blockAt?_of_after? {t rest : Text} (h : after? ticks t = some rest) :
    blockAt? labels t = (choices labels).findSome? fun label =>
      codeBehind? label (lastGap backquote rest) (trimStart isGap rest) := by
  have hgap : ∀ before c t, isWordChar before = false → isGap c = true →
      ((choices labels).findSome? fun label => codeBehind? label before (c :: t)) = none :=
    fun before c t hbefore hc => List.findSome?_eq_none_iff.2 fun label hlabel =>
      codeBehind?_gap (isWordChar_of_choices hlabels label hlabel) hbefore hc t
  rw [blockAt?, h]
  exact findSome?_labelPlaces hgap (by decide) rest

theorem blockAt?_append {w : Text} (hw : '\n' ∉ w) (body : Text) :
    blockAt? labels (w ++ '\n' :: body) =
      if isMark labels (w ++ '\n' :: body) then (cut? ticks body).map Prod.fst else none := by
  have hticks := after?_append_cons (w := ticks) (m := '\n') (by decide) w body
  rw [isMark, firstLine_append hw]
  cases hafter : after? ticks w with
  | none =>
    rw [hafter] at hticks
    rw [blockAt?, hticks]
    rfl
  | some rest =>
    rw [hafter] at hticks
    have hrest : '\n' ∉ trimStart isGap rest := fun hmem =>
      hw (mem_of_after? hafter ((List.dropWhile_suffix isGap).subset hmem))
    have hplain : ∀ label ∈ choices labels, '\n' ∉ label := fun label hlabel hmem =>
      absurd (isWordChar_of_choices hlabels label hlabel _ hmem) (by decide)
    rw [blockAt?_of_after? hlabels hticks, lastGap_append, trimStart_isGap_append]
    exact findSome?_eq_ite fun label hlabel =>
      codeBehind?_append (hplain label hlabel) hrest _ body

/-- There is no block in a text without a line feed. -/
theorem blockAt?_of_not_mem {t : Text} (ht : '\n' ∉ t) : blockAt? labels t = none := by
  cases hafter : after? ticks t with
  | none => rw [blockAt?, hafter]
  | some rest =>
    have hrest : '\n' ∉ trimStart isGap rest := fun hmem =>
      ht (mem_of_after? hafter ((List.dropWhile_suffix isGap).subset hmem))
    rw [blockAt?_of_after? hlabels hafter, List.findSome?_eq_none_iff]
    exact fun label _ => codeBehind?_of_not_mem hrest label _

/-- There is a block at the front of a text if the text begins with a mark that has code. -/
theorem blockAt?_eq (t : Text) :
    blockAt? labels t = if isMark labels t then markedCode? t else none := by
  by_cases hbreak : '\n' ∈ t
  · obtain ⟨w, body, rfl, hw⟩ := List.eq_append_cons_of_mem hbreak
    rw [blockAt?_append hlabels hw, markedCode?_append hw]
  · rw [blockAt?_of_not_mem hlabels hbreak, markedCode?, cut?_of_not_mem hbreak, Option.bind_none,
      ite_self]

end Labels

/-! ### The first mark -/

theorem includes_of_isSome_markedCode? {t : Text} (h : (markedCode? t).isSome = true) :
    includes ticks t = true := by
  rw [markedCode?] at h
  cases hcut : cut? ['\n'] t with
  | none =>
    rw [hcut] at h
    cases h
  | some parts =>
    rw [hcut, Option.bind_some, Option.isSome_map, isSome_cut?, includes_iff_infix] at h
    refine includes_iff_infix.2 (h.trans ⟨parts.1 ++ ['\n'], [], ?_⟩)
    rw [List.append_nil, ← eq_of_cut? hcut]

/-- What has code behind its first line has it still with more in front. -/
theorem isSome_markedCode?_of_suffix {s t : Text} (hs : (markedCode? s).isSome = true)
    (h : s <:+ t) : (markedCode? t).isSome = true := by
  obtain ⟨front, rfl⟩ := h
  induction front with
  | nil => exact hs
  | cons c front ih =>
    rw [List.cons_append]
    by_cases hc : c = '\n'
    · subst hc
      have hwhole : markedCode? ('\n' :: (front ++ s)) = (cut? ticks (front ++ s)).map Prod.fst :=
        markedCode?_append List.not_mem_nil _
      rw [hwhole, Option.isSome_map, isSome_cut?]
      exact includes_of_isSome_markedCode? ih
    · have hcut : cut? ['\n'] (c :: (front ++ s)) =
          (cut? ['\n'] (front ++ s)).map fun parts => (c :: parts.1, parts.2) :=
        cut?_cons (startsWith_cons_of_not_mem (by simp) (by simpa using hc) _)
      rw [markedCode?, hcut, Option.bind_map]
      exact ih

theorem suffix_of_firstMark? {labels : List Text} {t s : Text} (h : firstMark? labels t = some s) :
    s <:+ t := by
  induction t with
  | nil => cases h
  | cons c t ih =>
    rw [firstMark?] at h
    split at h
    · cases h
      exact List.suffix_rfl
    · exact (ih h).trans (List.suffix_cons c t)

/-- No mark in a text is before the first. -/
theorem exists_firstMark? {labels : List Text} {t u : Text} (hmark : isMark labels u = true)
    (hu : u <:+ t) : ∃ s, firstMark? labels t = some s ∧ u <:+ s := by
  induction t with
  | nil =>
    rw [List.suffix_nil.1 hu] at hmark
    cases hmark
  | cons c t ih =>
    rw [firstMark?]
    split
    · exact ⟨_, rfl, hu⟩
    · next hc =>
      rcases List.suffix_cons_iff.1 hu with rfl | hu
      · exact absurd hmark hc
      · exact ih hu

/-- The block that is found is the one of the first mark. -/
theorem block?_eq {labels : List Text}
    (hlabels : ∀ label ∈ labels, ∀ c ∈ label, isWordChar c = true) (t : Text) :
    block? labels t = (firstMark? labels t).bind markedCode? := by
  induction t with
  | nil => rfl
  | cons c t ih =>
    rw [block?, blockAt?_eq hlabels, firstMark?, ih]
    by_cases hmark : isMark labels (c :: t) = true
    · rw [if_pos hmark, if_pos hmark, Option.bind_some]
      cases hcode : markedCode? (c :: t) with
      | some code => rfl
      | none =>
        -- No mark behind this one has code, since this one would have it too.
        refine Option.bind_eq_none_iff.2 fun s hs => ?_
        have hsuffix := (suffix_of_firstMark? hs).trans (List.suffix_cons c t)
        rw [← Option.not_isSome_iff_eq_none]
        intro hsome
        have hwhole := isSome_markedCode?_of_suffix hsome hsuffix
        rw [hcode] at hwhole
        cases hwhole
    · rw [if_neg hmark, if_neg hmark]

end StyleDocs.Markdown
