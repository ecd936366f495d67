import StyleDocs.Proofs.Text.Lines
import StyleDocs.Proofs.Text.Segment
import StyleDocs.Proofs.Text.Strip

/-!
# Line ends with a carriage return

A line may end with a line feed alone or with a carriage return in front of it. Writing the return
into every line end changes no line, and the ways of reading a text do not see it: words without
line breaks occur in the same places, trimming treats both characters of a line end alike, and what
is cut out of the text is what was cut out before, with the returns in it.
-/

namespace StyleDocs.Text

/-- The text with a carriage return in front of each line feed. -/
def crlf (t : Text) : Text := t.flatMap fun c => if c = '\n' then ['\r', '\n'] else [c]

@[simp] theorem crlf_nil : crlf [] = [] := rfl

@[simp] theorem crlf_newline (t : Text) : crlf ('\n' :: t) = '\r' :: '\n' :: crlf t := rfl

theorem crlf_cons {c : Char} (h : c ≠ '\n') (t : Text) : crlf (c :: t) = c :: crlf t := by
  rw [crlf, List.flatMap_cons, if_neg h]
  rfl

theorem crlf_append (t u : Text) : crlf (t ++ u) = crlf t ++ crlf u := List.flatMap_append

theorem crlf_flatten (ts : List Text) : crlf ts.flatten = (ts.map crlf).flatten := by
  induction ts with
  | nil => rfl
  | cons t ts ih => rw [List.flatten_cons, crlf_append, ih, List.map_cons, List.flatten_cons]

/-- A text of one line is not changed. -/
theorem crlf_eq_self {t : Text} (h : '\n' ∉ t) : crlf t = t := by
  induction t with
  | nil => rfl
  | cons c t ih =>
    rw [List.mem_cons, not_or] at h
    rw [crlf_cons (Ne.symm h.1), ih h.2]

@[simp] theorem isEmpty_crlf (t : Text) : (crlf t).isEmpty = t.isEmpty := by
  cases t with
  | nil => rfl
  | cons c t =>
    by_cases h : c = '\n'
    · subst h
      rfl
    · rw [crlf_cons h]
      rfl

/-! ### Trimming -/

section Trim

variable {p : Char → Bool}

theorem all_crlf (h : p '\r' = p '\n') (t : Text) : (crlf t).all p = t.all p := by
  induction t with
  | nil => rfl
  | cons c t ih =>
    by_cases hc : c = '\n'
    · subst hc
      simp [h, ih]
    · simp [crlf_cons hc, ih]

/-- A class that has both characters of a line end or neither is trimmed at the front with them. -/
theorem trimStart_crlf (h : p '\r' = p '\n') (t : Text) :
    trimStart p (crlf t) = crlf (trimStart p t) := by
  induction t with
  | nil => rfl
  | cons c t ih =>
    rw [trimStart, trimStart] at *
    by_cases hc : c = '\n'
    · subst hc
      cases hp : p '\n' with
      | true => simpa [hp, h] using ih
      | false => simp [hp, h]
    · cases hp : p c with
      | true => simpa [crlf_cons hc, hp] using ih
      | false => simp [crlf_cons hc, hp]

/-- A class that has both characters of a line end or neither is trimmed at the end with them. -/
theorem trimEnd_crlf (h : p '\r' = p '\n') (t : Text) :
    trimEnd p (crlf t) = crlf (trimEnd p t) := by
  have hstep : ∀ (u : Text) (c : Char), trimEnd p (u ++ [c]) =
      if p c then trimEnd p u else u ++ [c] := fun u c => List.rdropWhile_concat p u c
  induction t using List.reverseRecOn with
  | nil => rfl
  | append_singleton t c ih =>
    rw [crlf_append, hstep]
    by_cases hc : c = '\n'
    · subst hc
      have hbreak : crlf t ++ crlf ['\n'] = (crlf t ++ ['\r']) ++ ['\n'] := by simp
      rw [hbreak, hstep, hstep, h]
      cases hp : p '\n' with
      | true => simpa using ih
      | false => simp [crlf_append]
    · rw [crlf_cons hc, crlf_nil, hstep]
      cases hp : p c with
      | true => simpa using ih
      | false => simp [crlf_append, crlf_cons hc]

theorem trimEnds_crlf (h : p '\r' = p '\n') (t : Text) :
    trimEnds p (crlf t) = crlf (trimEnds p t) := by
  rw [trimEnds, trimStart_crlf h, trimEnd_crlf h, trimEnds]

end Trim

theorem strip_crlf (t : Text) : strip (crlf t) = crlf (strip t) := trimEnds_crlf (by decide) t

/-! ### Words -/

/-- A text without any character of a line end. -/
def Unbroken (t : Text) : Prop := '\r' ∉ t ∧ '\n' ∉ t

instance (t : Text) : Decidable (Unbroken t) :=
  inferInstanceAs (Decidable ('\r' ∉ t ∧ '\n' ∉ t))

/-- A word without line ends begins the same texts. -/
theorem after?_crlf {w : Text} (hw : Unbroken w) (t : Text) :
    after? w (crlf t) = (after? w t).map crlf := by
  induction w generalizing t with
  | nil => rfl
  | cons a w ih =>
    obtain ⟨hreturn, hfeed⟩ := hw
    rw [List.mem_cons, not_or] at hreturn hfeed
    cases t with
    | nil => rfl
    | cons c t =>
      by_cases hc : c = '\n'
      · subst hc
        rw [crlf_newline, after?, after?, if_neg (Ne.symm hreturn.1), if_neg (Ne.symm hfeed.1)]
        rfl
      · rw [crlf_cons hc, after?, after?, ih ⟨hreturn.2, hfeed.2⟩]
        split <;> rfl

theorem startsWith_crlf {w : Text} (hw : Unbroken w) (t : Text) :
    startsWith w (crlf t) = startsWith w t := by
  rw [startsWith, startsWith, after?_crlf hw, Option.isSome_map]

/-- No word without line ends begins at a line end. -/
theorem after?_break {w : Text} (hw : Unbroken w) (hne : w ≠ []) {c : Char}
    (hc : isBreak c = true) (t : Text) : after? w (c :: t) = none := by
  obtain ⟨a, w, rfl⟩ := List.exists_cons_of_ne_nil hne
  have ha : a ≠ c := by
    rintro rfl
    simp only [isBreak, Bool.or_eq_true, beq_iff_eq] at hc
    rcases hc with rfl | rfl
    · exact hw.1 List.mem_cons_self
    · exact hw.2 List.mem_cons_self
  rw [after?, if_neg ha]

/-- A text is cut at the same occurrence of a word without line ends. -/
theorem cut?_crlf {w : Text} (hw : Unbroken w) (hne : w ≠ []) (t : Text) :
    cut? w (crlf t) = (cut? w t).map (Prod.map crlf crlf) := by
  induction t with
  | nil =>
    obtain ⟨a, w, rfl⟩ := List.exists_cons_of_ne_nil hne
    rfl
  | cons c t ih =>
    by_cases hc : c = '\n'
    · subst hc
      rw [crlf_newline, cut?, after?_break hw hne rfl, cut?, after?_break hw hne rfl, cut?,
        after?_break hw hne rfl, ih]
      cases cut? w t <;> rfl
    · have hafter := after?_crlf hw (c :: t)
      rw [crlf_cons hc] at hafter
      rw [crlf_cons hc, cut?, cut?, hafter]
      cases after? w (c :: t) with
      | some rest => rfl
      | none =>
        rw [Option.map_none, ih]
        cases cut? w t with
        | none => rfl
        | some parts => simp [crlf_cons hc]

/-- What follows the first line is what followed it before. -/
theorem snd_cut?_newline_crlf (t : Text) :
    (cut? ['\n'] (crlf t)).map Prod.snd = ((cut? ['\n'] t).map Prod.snd).map crlf := by
  induction t with
  | nil => rfl
  | cons c t ih =>
    by_cases hc : c = '\n'
    · subst hc
      rw [crlf_newline, cut?_cons (by rfl)]
      rfl
    · have hfront : ∀ u, startsWith ['\n'] (c :: u) = false := fun u =>
        startsWith_cons_of_not_mem (by simp) (by simpa using hc) u
      rw [crlf_cons hc, cut?_cons (hfront _), cut?_cons (hfront _)]
      simpa [Function.comp_def] using ih

/-! ### Lines -/

theorem pieces_crlf (t : Text) : pieces (crlf t) = (pieces t).map crlf := by
  induction t with
  | nil => rfl
  | cons c t ih =>
    by_cases hc : c = '\n'
    · subst hc
      simp [pieces, ih]
    · rw [crlf_cons hc, pieces, pieces, if_neg hc, if_neg hc, ih]
      cases pieces t with
      | nil => simp [crlf_cons hc]
      | cons piece rest => simp [crlf_cons hc]

/-- A piece is a line with or without a line feed at its end. -/
theorem exists_of_mem_pieces {t piece : Text} (h : piece ∈ pieces t) :
    ∃ line, '\n' ∉ line ∧ (piece = line ∨ piece = line ++ ['\n']) := by
  induction t generalizing piece with
  | nil => cases h
  | cons c t ih =>
    unfold pieces at h
    split at h
    · rcases List.mem_cons.1 h with rfl | h
      · exact ⟨[], List.not_mem_nil, Or.inr rfl⟩
      · exact ih h
    · next hc =>
      split at h
      · rw [List.mem_singleton.1 h]
        exact ⟨[c], by simpa using Ne.symm hc, Or.inl rfl⟩
      · next first rest hpieces =>
        rcases List.mem_cons.1 h with rfl | h
        · obtain ⟨line, hline, hfirst⟩ := ih (hpieces ▸ List.mem_cons_self)
          refine ⟨c :: line, by simp [Ne.symm hc, hline], ?_⟩
          exact hfirst.imp (congrArg (c :: ·)) (congrArg (c :: ·))
        · exact ih (hpieces ▸ List.mem_cons_of_mem _ h)

/-- The characters of a piece are characters of the text. -/
theorem mem_of_mem_pieces {t piece : Text} (h : piece ∈ pieces t) {c : Char} (hc : c ∈ piece) :
    c ∈ t := by
  rw [← flatten_pieces t]
  exact List.mem_flatten.2 ⟨piece, h, hc⟩

/-- A line without returns is the same behind either line end. -/
theorem chomp_crlf {t piece : Text} (hpiece : piece ∈ pieces t) (ht : '\r' ∉ t) :
    chomp (crlf piece) = chomp piece := by
  obtain ⟨line, hline, rfl | rfl⟩ := exists_of_mem_pieces hpiece
  · rw [crlf_eq_self hline]
  · have hlast : line.getLast? ≠ some '\r' := fun hlast =>
      ht (mem_of_mem_pieces hpiece (List.mem_append_left _ (List.mem_of_getLast? hlast)))
    rw [chomp_append hlast, crlf_append, crlf_eq_self hline]
    simp [chomp]

/-- A text has the same lines with either line end. -/
theorem lines_crlf {t : Text} (h : '\r' ∉ t) : lines (crlf t) = lines t := by
  rw [lines, pieces_crlf, List.map_map, lines]
  exact List.map_congr_left fun piece hpiece => chomp_crlf hpiece h

/-! ### Patterns -/

/-- A pattern that finds the same things, with the returns in them, and opens with a mark finds the
same things all over the text. -/
theorem Pattern.OpensWith.findings_crlf {p : Pattern Text} {mark : Char} (hp : p.OpensWith mark)
    (hmark : isBreak mark = false)
    (h : ∀ t, p (crlf t) = (p t).map (Prod.map crlf crlf)) (t : Text) :
    findings p (crlf t) = (findings p t).map crlf := by
  induction t using hp.induction with
  | nil => rfl
  | plain c t hnone ih =>
    have hnone' : p (crlf (c :: t)) = none := by rw [h, hnone]; rfl
    rw [findings_plain hnone, ← ih]
    by_cases hc : c = '\n'
    · subst hc
      have hbreak : ∀ d u, isBreak d = true → p (d :: u) = none := fun d u hd =>
        hp.eq_none fun hdm => by rw [hdm, hmark] at hd; cases hd
      rw [crlf_newline, findings_plain (hbreak _ _ rfl), findings_plain (hbreak _ _ rfl)]
    · rw [crlf_cons hc] at hnone' ⊢
      exact findings_plain hnone'
  | found t a rest hfound ih =>
    have hfound' : p (crlf t) = some (crlf a, crlf rest) := by rw [h, hfound]; rfl
    rw [hp.findings_found hfound, hp.findings_found hfound', ih, List.map_cons]

end StyleDocs.Text
