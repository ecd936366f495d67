import Mathlib.Data.List.Find
import Mathlib.Data.List.Infix
import StyleDocs.Proofs.Markdown.Block
import StyleDocs.Proofs.Markdown.CodeBlock

/-!
# Labels that are accepted

A label is looked for up to the edge of a word. Behind a label that ends in a sign there is no such
edge at the end of the line, so this label is never accepted for its own sake; but another one may
be found in its place, and then the code is the same. A label that runs over a line takes lines of
the code with it.
-/

namespace StyleDocs.Markdown

open Text

/-! ### Words and white space -/

/-- White space belongs to no word. -/
theorem isWordChar_of_isBlank {c : Char} (h : isBlank c = true) : isWordChar c = false := by
  have hcodes : ∀ n ∈ List.range' 9 5 ++ [0x20, 0x85, 0xA0, 0x1680] ++ List.range' 0x2000 11 ++
      [0x2028, 0x2029, 0x202F, 0x205F, 0x3000], covered n wordRanges = false := by decide +kernel
  refine hcodes c.toNat ?_
  simp only [isBlank, Bool.or_eq_true, Bool.and_eq_true, decide_eq_true_eq, beq_iff_eq] at h
  simp only [List.mem_append, List.mem_range'_1, List.mem_cons, List.not_mem_nil, or_false]
  omega

/-- A search that succeeds for the members of a kind finds what it finds for the first of them. -/
theorem findSome?_eq_bind_find? {α β : Type} {find : α → Option β} {p : α → Bool} {l : List α}
    (h : ∀ a ∈ l, (find a).isSome = p a) : l.findSome? find = (l.find? p).bind find := by
  induction l with
  | nil => rfl
  | cons a l ih =>
    have ha := h a List.mem_cons_self
    rw [List.findSome?_cons, List.find?_cons, ← ha]
    cases hfind : find a with
    | none => exact ih fun b hb => h b (List.mem_cons_of_mem a hb)
    | some b => exact hfind.symm

/-! ### Code up to the closing backquotes -/

/-- A label that begins a text up to the edge of a word has the code behind the first line of what
follows. -/
theorem codeBehind?_of_after? {label t behind : Text} (h : after? label t = some behind)
    (before : Char) :
    codeBehind? label before t =
      if isWordEdge (label.getLast?.getD before) behind then markedCode? behind else none := by
  rw [codeBehind?, h]
  dsimp only
  rw [markedCode?]
  cases cut? ['\n'] behind <;> rfl

/-- In a text without three backquotes, but with a line of them behind it, the code is what stands
behind the first line of the text. -/
theorem markedCode?_closed {t : Text} (ht : includes ticks t = false) :
    markedCode? (t ++ '\n' :: (ticks ++ ['\n'])) = (cut? ['\n'] (t ++ ['\n'])).map Prod.snd := by
  obtain ⟨line, code, hsplit, hline⟩ :=
    List.eq_append_cons_of_mem (show '\n' ∈ t ++ ['\n'] by simp)
  have hwhole : t ++ '\n' :: (ticks ++ ['\n']) = line ++ '\n' :: (code ++ (ticks ++ ['\n'])) := by
    calc t ++ '\n' :: (ticks ++ ['\n']) = (t ++ ['\n']) ++ (ticks ++ ['\n']) := by simp
      _ = line ++ '\n' :: (code ++ (ticks ++ ['\n'])) := by rw [hsplit]; simp
  have hcode : includes ticks code = false := by
    have hbreak : ∀ c ∈ ['\n'], c ∉ ticks := List.forall_mem_singleton.2 (by decide)
    have h := includes_append_right (by decide) hbreak t
    rw [hsplit, ht, includes_append_cons (by decide) (by decide)] at h
    exact (Bool.or_eq_false_iff.1 h).2
  have hlast : ∀ c ∈ code.getLast?, c ∉ ticks := by
    intro c hc
    have h : (line ++ '\n' :: code).getLast? = some c := by
      rw [List.getLast?_append, List.getLast?_cons, Option.mem_def.1 hc]
      rfl
    rw [← hsplit, List.getLast?_concat, Option.some.injEq] at h
    rw [← h]
    decide
  rw [hwhole, markedCode?_append hline, cut?_append_left hcode hlast,
    cut?_of_startsWith (by decide), hsplit, cut?_mark hline]
  simp

/-- There is no code behind a line of three backquotes at the end of a text. -/
theorem markedCode?_of_suffix {t : Text} (h : t <:+ ticks ++ ['\n']) : markedCode? t = none := by
  have hends : ∀ t ∈ (ticks ++ ['\n']).tails, markedCode? t = none := by decide
  exact hends t ((List.mem_tails _ _).2 h)

/-- The code behind a label runs from the line below the label to the closing backquotes. -/
theorem codeBehind?_closed {t : Text} (ht : includes ticks t = false) (label : Text)
    (before : Char) :
    codeBehind? label before (t ++ '\n' :: (ticks ++ ['\n'])) =
      if fits label before t then
        (after? label t).bind fun behind => (cut? ['\n'] (behind ++ ['\n'])).map Prod.snd
      else none := by
  rw [fits]
  cases hafter : after? label t with
  | some behind =>
    rw [after?_eq_some_iff] at hafter
    have hbehind : includes ticks behind = false :=
      includes_eq_false_of_part (hafter ▸ (List.suffix_append label behind).isInfix) ht
    have hwhole : after? label (t ++ '\n' :: (ticks ++ ['\n'])) =
        some (behind ++ '\n' :: (ticks ++ ['\n'])) := by
      rw [after?_eq_some_iff, hafter, List.append_assoc]
    rw [codeBehind?_of_after? hwhole, isWordEdge_append, markedCode?_closed hbehind]
    rfl
  | none =>
    cases hwhole : after? label (t ++ '\n' :: (ticks ++ ['\n'])) with
    | none => rw [codeBehind?, hwhole]; rfl
    | some behind =>
      -- The label reaches over the text into the closing backquotes.
      have hshort : behind <:+ ticks ++ ['\n'] := by
        rcases List.append_eq_append_iff.1 (after?_eq_some_iff.1 hwhole) with
          ⟨more, hlabel, hend⟩ | ⟨rest, ht', -⟩
        · cases more with
          | nil =>
            rw [after?_eq_some_iff.2 (by rw [hlabel, List.append_nil, List.append_nil])] at hafter
            cases hafter
          | cons c more => exact ⟨more, (List.cons.inj hend).2.symm⟩
        · rw [after?_eq_some_iff.2 ht'] at hafter
          cases hafter
      rw [codeBehind?_of_after? hwhole, markedCode?_of_suffix hshort, ite_self]
      rfl

/-- A label that fits finds code. -/
theorem exists_of_fits {label t : Text} {before : Char} (ht : includes ticks t = false)
    (h : fits label before t = true) :
    ∃ behind line code, t = label ++ behind ∧
      isWordEdge (label.getLast?.getD before) behind = true ∧ '\n' ∉ line ∧
      behind ++ ['\n'] = line ++ '\n' :: code ∧
      codeBehind? label before (t ++ '\n' :: (ticks ++ ['\n'])) = some code := by
  rw [codeBehind?_closed ht, if_pos h]
  rw [fits] at h
  cases hafter : after? label t with
  | none =>
    rw [hafter] at h
    cases h
  | some behind =>
    rw [hafter] at h
    obtain ⟨line, code, hsplit, hline⟩ :=
      List.eq_append_cons_of_mem (show '\n' ∈ behind ++ ['\n'] by simp)
    refine ⟨behind, line, code, after?_eq_some_iff.1 hafter, h, hline, hsplit, ?_⟩
    rw [Option.bind_some, hsplit, cut?_mark hline]
    rfl

theorem isSome_codeBehind? {label t : Text} {before : Char} (ht : includes ticks t = false) :
    (codeBehind? label before (t ++ '\n' :: (ticks ++ ['\n']))).isSome = fits label before t := by
  cases h : fits label before t with
  | true =>
    obtain ⟨_, _, code, -, -, -, -, hcode⟩ := exists_of_fits ht h
    rw [hcode]
    rfl
  | false =>
    rw [codeBehind?_closed ht, h]
    rfl

/-! ### No second block -/

theorem suffix_of_mem_labelPlaces {before : Char} {t : Text} {place : Char × Text}
    (h : place ∈ labelPlaces before t) : place.2 <:+ t := by
  induction t generalizing before with
  | nil => rw [List.mem_singleton.1 h]
  | cons c t ih =>
    rw [labelPlaces] at h
    split at h
    · rcases List.mem_append.1 h with h | h
      · exact (ih h).trans (List.suffix_cons c t)
      · rw [List.mem_singleton.1 h]
    · rw [List.mem_singleton.1 h]

/-- A block begins with three backquotes and has three more behind them. -/
theorem exists_of_blockAt? {labels : List Text} {t code : Text}
    (h : blockAt? labels t = some code) :
    ∃ rest, after? ticks t = some rest ∧ includes ticks rest = true := by
  rw [blockAt?] at h
  cases hticks : after? ticks t with
  | none =>
    rw [hticks] at h
    cases h
  | some rest =>
    rw [hticks] at h
    obtain ⟨place, hplace, hfound⟩ := List.exists_of_findSome?_eq_some h
    obtain ⟨label, -, hcode⟩ := List.exists_of_findSome?_eq_some hfound
    refine ⟨rest, rfl, ?_⟩
    cases hafter : after? label place.2 with
    | none =>
      rw [codeBehind?, hafter] at hcode
      cases hcode
    | some behind =>
      rw [codeBehind?_of_after? hafter] at hcode
      split at hcode
      · have hbehind := includes_of_isSome_markedCode? (Option.isSome_of_eq_some hcode)
        have hsuffix : behind <:+ rest :=
          (after?_eq_some_iff.1 hafter ▸ List.suffix_append label behind).trans
            (suffix_of_mem_labelPlaces hplace)
        have hticks := includes_iff_infix.1 hbehind
        exact includes_iff_infix.2 (hticks.trans hsuffix.isInfix)
      · cases hcode

/-- A text has no block if none of its ends begins with one. -/
theorem block?_eq_none {labels : List Text} {t : Text}
    (h : ∀ s, s <:+ t → blockAt? labels s = none) : block? labels t = none := by
  induction t with
  | nil => rfl
  | cons c t ih =>
    rw [block?, h _ List.suffix_rfl]
    exact ih fun s hs => h s (hs.trans (List.suffix_cons c t))

/-- A text without three backquotes has no block, also with a line of them behind it. -/
theorem block?_closed {t : Text} (ht : includes ticks t = false) (labels : List Text) :
    block? labels (t ++ '\n' :: (ticks ++ ['\n'])) = none := by
  refine block?_eq_none fun s hs => ?_
  by_contra hblock
  obtain ⟨code, hcode⟩ := Option.ne_none_iff_exists'.1 hblock
  obtain ⟨rest, hrest, hticks⟩ := exists_of_blockAt? hcode
  have hline : includes ticks (t ++ ['\n']) = false := by
    rw [includes_append_right (by decide) (List.forall_mem_singleton.2 (by decide)), ht]
  have hshort : s <:+ ticks ++ ['\n'] := by
    obtain ⟨front, hfront⟩ := hs
    rw [List.append_cons] at hfront
    rcases List.append_eq_append_iff.1 hfront with ⟨v, hv, rfl⟩ | ⟨v, -, hv⟩
    · -- The three backquotes would stand in front of the last line.
      cases v with
      | nil => exact List.suffix_rfl
      | cons c v =>
        have hlast : ∀ m ∈ (c :: v).getLast?, m ∉ ticks := by
          intro m hm
          have hwhole : (t ++ ['\n']).getLast? = some m := by
            rw [hv, List.getLast?_append, Option.mem_def.1 hm]
            rfl
          rw [List.getLast?_concat, Option.some.injEq] at hwhole
          rw [← hwhole]
          decide
        have hstart : startsWith ticks (c :: v ++ (ticks ++ ['\n'])) = false := by
          rw [startsWith_append_of_getLast? (List.cons_ne_nil c v) hlast]
          exact includes_eq_false_iff.1 hline _ ⟨front, hv.symm⟩
        rw [startsWith, hrest] at hstart
        cases hstart
    · exact ⟨v, hv.symm⟩
  have hends : ∀ s ∈ (ticks ++ ['\n']).tails,
      (after? ticks s).all (fun rest => !includes ticks rest) = true := by decide
  have hnone := hends s ((List.mem_tails _ _).2 hshort)
  rw [hrest, Option.all_some, hticks] at hnone
  cases hnone

/-! ### The label that is chosen -/

section Choice

variable {labels : List Text} {label body : Text}

/-- There are no three backquotes between those in front of a label and those behind the code. -/
theorem includes_opened (hlabel : backquote ∉ label) (hbody : includes ticks body = false) :
    includes ticks ('\x60' :: '\x60' :: (label ++ '\n' :: body)) = false ∧
      includes ticks (label ++ '\n' :: body) = false := by
  have hfront : includes ticks ('\x60' :: '\x60' :: label) = false := by
    cases label with
    | nil => decide
    | cons c label =>
      rw [List.mem_cons, not_or] at hlabel
      have hc : '\x60' ≠ c := hlabel.1
      have hrest : includes ticks label = false := by
        rw [Bool.eq_false_iff, Ne, includes_iff_infix]
        exact fun h => hlabel.2 (h.subset (by decide))
      simpa [ticks, includes, startsWith, after?, hc] using hrest
  have hwhole : includes ticks ('\x60' :: '\x60' :: (label ++ '\n' :: body)) = false := by
    have h := includes_append_cons (w := ticks) (m := '\n') (by decide) (by decide)
      ('\x60' :: '\x60' :: label) body
    rwa [hfront, hbody, Bool.or_false] at h
  exact ⟨hwhole, includes_eq_false_of_part (List.suffix_append ['\x60', '\x60'] _).isInfix hwhole⟩

/-- The block of a label has the code of the first of some labels that fits what is written, and no
code if none fits. -/
theorem block?_fencedText (hmem : label ∈ labels) (hends : hasBlankEnd label = false)
    (hquote : backquote ∉ label) (hbody : includes ticks body = false) :
    block? labels (Passage.fencedText label body) =
      (labels.find? fun other => fits other backquote (label ++ '\n' :: body)).bind fun other =>
        codeBehind? other backquote (label ++ '\n' :: body ++ '\n' :: (ticks ++ ['\n'])) := by
  obtain ⟨hopened, hwritten⟩ := includes_opened hquote hbody
  have htext : Passage.fencedText label body =
      ticks ++ (label ++ '\n' :: body ++ '\n' :: (ticks ++ ['\n'])) := by
    simp [Passage.fencedText]
  have hplaces : labelPlaces backquote (label ++ '\n' :: body ++ '\n' :: (ticks ++ ['\n'])) =
      [(backquote, label ++ '\n' :: body ++ '\n' :: (ticks ++ ['\n']))] := by
    rw [List.append_assoc, List.cons_append]
    exact labelPlaces_label (isGap_ends hends).1 _
  have hblock : blockAt? labels (Passage.fencedText label body) =
      (labels.find? fun other => fits other backquote (label ++ '\n' :: body)).bind fun other =>
        codeBehind? other backquote (label ++ '\n' :: body ++ '\n' :: (ticks ++ ['\n'])) := by
    have hchoices : (if labels.isEmpty then [[]] else labels) = labels :=
      if_neg (by simpa using List.ne_nil_of_mem hmem)
    rw [blockAt?, htext, after?_eq_some_iff.2 rfl]
    dsimp only
    rw [hplaces, hchoices, List.findSome?_singleton]
    exact findSome?_eq_bind_find? fun other _ => isSome_codeBehind? hwritten
  have hrest : Passage.fencedText label body = '\x60' ::
      ('\x60' :: '\x60' :: (label ++ '\n' :: body) ++ '\n' :: (ticks ++ ['\n'])) := htext
  rw [← hblock]
  cases hfound : blockAt? labels (Passage.fencedText label body) with
  | some code =>
    rw [hrest] at hfound ⊢
    rw [block?, hfound]
  | none =>
    rw [hrest] at hfound ⊢
    rw [block?, hfound]
    exact block?_closed hopened labels

/-- The code of a label of one line that fits is the whole code. -/
theorem code_eq_of_oneLine {other behind line code : Text} (hother : '\n' ∉ other)
    (hlabel : '\n' ∉ label) (hsplit : label ++ '\n' :: body = other ++ behind) (hline : '\n' ∉ line)
    (hcode : behind ++ ['\n'] = line ++ '\n' :: code) : code = body ++ ['\n'] := by
  obtain ⟨rest, hrest, hbehind⟩ : ∃ rest, '\n' ∉ rest ∧ behind = rest ++ '\n' :: body := by
    rcases List.append_eq_append_iff.1 hsplit with ⟨more, rfl, hmore⟩ | ⟨rest, rfl, hbehind⟩
    · cases more with
      | nil => exact ⟨[], List.not_mem_nil, hmore.symm⟩
      | cons c more =>
        rw [← (List.cons.inj hmore).1] at hother
        exact absurd (by simp) hother
    · exact ⟨rest, fun hmem => hlabel (List.mem_append_right _ hmem), hbehind⟩
  have hwhole : behind ++ ['\n'] = rest ++ '\n' :: (body ++ ['\n']) := by
    rw [hbehind, List.append_assoc, List.cons_append]
  have hcut := cut?_mark hrest (body ++ ['\n'])
  rw [← hwhole, hcode, cut?_mark hline] at hcut
  exact (Prod.mk.inj (Option.some.inj hcut)).2

/-- Text in front of code that is tidied to the same with it is white space. -/
theorem isBlank_of_tidyCode?_eq {front : Text} (code : Text)
    (h : tidyCode? (front ++ code) = tidyCode? code) : ∀ c ∈ front, isBlank c = true := by
  have hfilter : (front ++ code).filter (!isBlank ·) = code.filter (!isBlank ·) := by
    rw [← filter_tidyCode?, h, filter_tidyCode?]
  rw [List.filter_append, List.append_left_eq_self] at hfilter
  simpa using hfilter

/-- The code of a label that runs over a line is tidied to other code than the whole. -/
theorem tidyCode?_ne_of_lines {other behind line code : Text} (hother : '\n' ∈ other)
    (hlabel : '\n' ∉ label) (hsplit : label ++ '\n' :: body = other ++ behind)
    (hedge : isWordEdge (other.getLast?.getD backquote) behind = true)
    (hcode : behind ++ ['\n'] = line ++ '\n' :: code) : tidyCode? code ≠ tidyCode? body := by
  intro hsame
  obtain ⟨front, lines, rfl, hfront⟩ := List.eq_append_cons_of_mem hother
  have hbody : body = lines ++ behind := by
    have hcut := cut?_mark hlabel body
    rw [hsplit, List.append_assoc, List.cons_append, cut?_mark hfront] at hcut
    exact (Prod.mk.inj (Option.some.inj hcut)).2.symm
  -- What stands before the code would be white space, so there is no edge of a word in it.
  have hblank : ∀ c ∈ lines ++ line ++ ['\n'], isBlank c = true := by
    have hwhole : body ++ ['\n'] = lines ++ line ++ ['\n'] ++ code := by
      rw [hbody, List.append_assoc, hcode]
      simp
    refine isBlank_of_tidyCode?_eq code ?_
    rw [← hwhole, tidyCode?_append rfl, hsame]
  have hlinesBlank : ∀ c ∈ lines, isBlank c = true := fun c hc => hblank c (by simp [hc])
  have hlineBlank : ∀ c ∈ line, isBlank c = true := fun c hc => hblank c (by simp [hc])
  have hlast : isWordChar ((front ++ '\n' :: lines).getLast?.getD backquote) = false := by
    refine isWordChar_of_isBlank ?_
    rw [List.getLast?_append, List.getLast?_cons]
    cases hend : lines.getLast? with
    | none => rfl
    | some c => exact hlinesBlank c (List.mem_of_getLast? hend)
  have hhead : behind.head?.any isWordChar = false := by
    cases behind with
    | nil => rfl
    | cons c behind =>
      refine isWordChar_of_isBlank ?_
      cases line with
      | nil =>
        rw [(List.cons.inj hcode).1]
        decide
      | cons d line =>
        rw [(List.cons.inj hcode).1]
        exact hlineBlank d List.mem_cons_self
  rw [isWordEdge, hlast, hhead] at hedge
  cases hedge

/-- Code with something visible in it is tidied to itself without the line breaks in front and the
white space at the end. -/
theorem tidyCode?_eq_some {code : Text} (h : allBlank code = false) :
    tidyCode? code = some (trimEnd isBlank (trimStart isBreak code)) := by
  have hsome : tidyCode? code ≠ none := fun hnone => by
    rw [tidyCode?_eq_none_iff.1 hnone] at h
    cases h
  rw [tidyCode?] at hsome ⊢
  exact if_neg fun hblank => hsome (if_pos hblank)

/-- The code of a label that fits is the example exactly if the label stands on one line. -/
theorem tidyCode?_eq_of_fits {other : Text} (hline : '\n' ∉ label)
    (hwritten : includes ticks (label ++ '\n' :: body) = false)
    (hfits : fits other backquote (label ++ '\n' :: body) = true) :
    (codeBehind? other backquote (label ++ '\n' :: body ++ '\n' :: (ticks ++ ['\n']))).bind
      tidyCode? = tidyCode? body ↔ '\n' ∉ other := by
  obtain ⟨behind, line, code, hsplit, hedge, hlineEnd, hbehind, hother⟩ :=
    exists_of_fits hwritten hfits
  rw [hother, Option.bind_some]
  by_cases hlines : '\n' ∈ other
  · have hne := tidyCode?_ne_of_lines hlines hline hsplit hedge hbehind
    exact ⟨fun hsame => absurd hsame hne, fun hno => absurd hlines hno⟩
  · have hwhole := code_eq_of_oneLine hlines hline hsplit hlineEnd hbehind
    exact ⟨fun _ => hlines, fun _ => by rw [hwhole, tidyCode?_append rfl]⟩

/-- A label of one line fits what is written exactly if it fits the label that is written. -/
theorem fits_append_body {other : Text} (hother : '\n' ∉ other) :
    fits other backquote (label ++ '\n' :: body) = fits other backquote label := by
  rw [fits, fits, after?_append_cons hother]
  cases after? other label with
  | none => rfl
  | some behind => exact isWordEdge_append _ behind body

/-- If all labels stand on one line, the first that fits does, and there is one as soon as one of
them begins the label that is written. -/
theorem exists_first_iff (honeLine : ∀ other ∈ labels, '\n' ∉ other) :
    (∃ other, (labels.find? fun other => fits other backquote (label ++ '\n' :: body)) =
        some other ∧ '\n' ∉ other) ↔
      ∃ other ∈ labels, fits other backquote label = true := by
  have hall : (labels.find? fun other => fits other backquote (label ++ '\n' :: body)) =
      labels.find? fun other => fits other backquote label :=
    List.find?_congr fun other hother => fits_append_body (honeLine other hother)
  rw [hall]
  constructor
  · rintro ⟨other, hfind, -⟩
    exact ⟨other, List.mem_of_find?_eq_some hfind,
      List.find?_some (p := fun other => fits other backquote label) hfind⟩
  · rintro ⟨other, hother, hfit⟩
    have hsome : (labels.find? fun other => fits other backquote label).isSome :=
      List.find?_isSome.2 ⟨other, hother, hfit⟩
    obtain ⟨first, hfirst⟩ := Option.isSome_iff_exists.1 hsome
    exact ⟨first, hfirst, honeLine first (List.mem_of_find?_eq_some hfirst)⟩

/-- The code under a label is the example exactly if the first of the labels that fits what is
written stands on one line; if no label fits, there is no example. If all labels stand on one line,
it is enough that one of them begins the label that is written, up to the edge of a word. -/
theorem example?_fencedText (hmem : label ∈ labels) (hends : hasBlankEnd label = false)
    (hquote : backquote ∉ label) (hline : '\n' ∉ label) (hbody : includes ticks body = false)
    (hcode : allBlank body = false) :
    (example? labels (Passage.fencedText label body) =
          some (trimEnd isBlank (trimStart isBreak body)) ↔
        ∃ other, (labels.find? fun other => fits other backquote (label ++ '\n' :: body)) =
          some other ∧ '\n' ∉ other) ∧
      ((labels.find? fun other => fits other backquote (label ++ '\n' :: body)) = none →
        example? labels (Passage.fencedText label body) = none) ∧
      ((∀ other ∈ labels, '\n' ∉ other) →
        (example? labels (Passage.fencedText label body) =
            some (trimEnd isBlank (trimStart isBreak body)) ↔
          ∃ other ∈ labels, fits other backquote label = true)) := by
  have hwritten := (includes_opened hquote hbody).2
  have hblock := block?_fencedText hmem hends hquote hbody
  have hfound : example? labels (Passage.fencedText label body) =
        some (trimEnd isBlank (trimStart isBreak body)) ↔
      ∃ other, (labels.find? fun other => fits other backquote (label ++ '\n' :: body)) =
        some other ∧ '\n' ∉ other := by
    rw [example?, hblock, ← tidyCode?_eq_some hcode]
    cases hfind : labels.find? fun other => fits other backquote (label ++ '\n' :: body) with
    | none => simp [tidyCode?_eq_some hcode]
    | some other =>
      have hfits : fits other backquote (label ++ '\n' :: body) = true :=
        List.find?_some (p := fun other => fits other backquote (label ++ '\n' :: body)) hfind
      rw [Option.bind_some, tidyCode?_eq_of_fits hline hwritten hfits]
      simp
  refine ⟨hfound, fun hnone => ?_, fun honeLine => hfound.trans (exists_first_iff honeLine)⟩
  rw [example?, hblock, hnone]
  rfl

end Choice

/-- A label that ends in a sign is accepted for the sake of another label that begins it. -/
theorem example?_fencedText_signed :
    let labels := ["c++".toList, "c".toList]
    let body := "\n  f(``x``);  ".toList
    "c++".toList ∈ labels ∧ hasBlankEnd "c++".toList = false ∧ backquote ∉ "c++".toList ∧
      '\n' ∉ "c++".toList ∧ includes ticks body = false ∧ allBlank body = false ∧
      (∀ other ∈ labels, '\n' ∉ other) ∧
      example? labels (Passage.fencedText "c++".toList body) = some "  f(``x``);".toList := by
  intro labels body
  have hmem : "c++".toList ∈ labels := by decide
  have hends : hasBlankEnd "c++".toList = false := by decide
  have hquote : backquote ∉ "c++".toList := by decide
  have hline : '\n' ∉ "c++".toList := by decide
  have hbody : includes ticks body = false := by decide
  have hcode : allBlank body = false := by decide
  have honeLine : ∀ other ∈ labels, '\n' ∉ other := by decide
  refine ⟨hmem, hends, hquote, hline, hbody, hcode, honeLine, ?_⟩
  refine ((example?_fencedText hmem hends hquote hline hbody hcode).2.2 honeLine).2 ?_
  exact ⟨"c".toList, by decide, by decide +kernel⟩

/-- On its own a label that ends in a sign is not accepted. -/
theorem signed_label_lost :
    "c++".toList ∈ ["c++".toList] ∧ hasBlankEnd "c++".toList = false ∧ backquote ∉ "c++".toList ∧
      '\n' ∉ "c++".toList ∧ includes ticks "x".toList = false ∧ allBlank "x".toList = false ∧
      example? ["c++".toList] (Passage.fencedText "c++".toList "x".toList) = none := by
  decide +kernel

end StyleDocs.Markdown
