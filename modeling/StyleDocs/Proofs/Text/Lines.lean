import Mathlib.Data.List.DropRight
import Mathlib.Data.List.Forall2
import StyleDocs.Proofs.Text.Occurrence
import StyleDocs.Text.Blank
import StyleDocs.Text.Lines

/-!
# Lines put together

A text that is put together from lines falls into these lines again, whatever follows. The lines of
a text without carriage returns are its parts between the line feeds.
-/

namespace StyleDocs.Text

/-- A line with its line feed. -/
def IsLine (piece : Text) : Prop := ∃ t, '\n' ∉ t ∧ piece = t ++ ['\n']

theorem isLine_append {t : Text} (h : '\n' ∉ t) : IsLine (t ++ ['\n']) := ⟨t, h, rfl⟩

theorem isLine_iff {piece : Text} :
    IsLine piece ↔ piece.getLast? = some '\n' ∧ '\n' ∉ piece.dropLast := by
  constructor
  · rintro ⟨t, ht, rfl⟩
    simpa using ht
  · rintro ⟨hlast, hrest⟩
    exact ⟨piece.dropLast, hrest, (List.dropLast_append_getLast? '\n' hlast).symm⟩

instance (piece : Text) : Decidable (IsLine piece) := decidable_of_iff _ isLine_iff.symm

/-- The line without anything in it. -/
theorem isLine_empty : IsLine ['\n'] := ⟨[], List.not_mem_nil, rfl⟩

theorem pieces_line_append {t : Text} (h : '\n' ∉ t) (rest : Text) :
    pieces (t ++ '\n' :: rest) = (t ++ ['\n']) :: pieces rest := by
  induction t with
  | nil => simp [pieces]
  | cons c t ih =>
    rw [List.mem_cons, not_or] at h
    rw [List.cons_append, pieces, if_neg (Ne.symm h.1), ih h.2]
    rfl

/-- Lines in front of a text are its first pieces. -/
theorem pieces_flatten_append {ls : List Text} (h : ∀ l ∈ ls, IsLine l) (rest : Text) :
    pieces (ls.flatten ++ rest) = ls ++ pieces rest := by
  induction ls with
  | nil => rfl
  | cons l ls ih =>
    obtain ⟨t, ht, rfl⟩ := h l List.mem_cons_self
    have hrest : ∀ l ∈ ls, IsLine l := fun l hl => h l (List.mem_cons_of_mem _ hl)
    rw [List.flatten_cons, List.append_assoc, List.append_assoc, List.singleton_append,
      pieces_line_append ht, ih hrest, List.cons_append]

/-- The pieces of some lines are the lines. -/
theorem pieces_flatten {ls : List Text} (h : ∀ l ∈ ls, IsLine l) : pieces ls.flatten = ls := by
  simpa [pieces] using pieces_flatten_append h []

/-- A text without a line feed is one piece, if it is not empty. -/
theorem pieces_of_not_mem {t : Text} (h : '\n' ∉ t) : pieces t = if t = [] then [] else [t] := by
  induction t with
  | nil => rfl
  | cons c t ih =>
    rw [List.mem_cons, not_or] at h
    rw [pieces, if_neg (Ne.symm h.1), ih h.2, if_neg (List.cons_ne_nil c t)]
    cases t with
    | nil => rfl
    | cons d t => rw [if_neg (List.cons_ne_nil d t)]

/-- What stands behind the last line feed of a text. -/
def openLine (t : Text) : Text := t.rtakeWhile (· != '\n')

theorem not_mem_openLine (t : Text) : '\n' ∉ openLine t := by
  intro h
  exact absurd (List.mem_rtakeWhile_imp h) (by decide)

theorem openLine_concat_newline (t : Text) : openLine (t ++ ['\n']) = [] :=
  List.rtakeWhile_concat_neg _ _ _ (by decide)

theorem openLine_concat {c : Char} (h : c ≠ '\n') (t : Text) :
    openLine (t ++ [c]) = openLine t ++ [c] :=
  List.rtakeWhile_concat_pos _ _ _ (by simpa using h)

/-- A text is made of lines and of what stands behind them. -/
theorem exists_lines_append_openLine (t : Text) :
    ∃ ls : List Text, (∀ l ∈ ls, IsLine l) ∧ t = ls.flatten ++ openLine t := by
  induction t using List.reverseRecOn with
  | nil => exact ⟨[], by simp, rfl⟩
  | append_singleton t c ih =>
    obtain ⟨ls, hls, ht⟩ := ih
    by_cases hc : c = '\n'
    · refine ⟨ls ++ [openLine t ++ [c]], ?_, ?_⟩
      · intro l hl
        rcases List.mem_append.1 hl with hl | hl
        · exact hls l hl
        · rw [List.mem_singleton.1 hl, hc]
          exact isLine_append (not_mem_openLine t)
      · rw [hc, openLine_concat_newline, List.append_nil, List.flatten_append,
          List.flatten_singleton, ← List.append_assoc, ← ht]
    · refine ⟨ls, hls, ?_⟩
      rw [openLine_concat hc, ← List.append_assoc, ← ht]

/-- A text in front that ends with a line feed, or is empty, is cut by itself. -/
theorem pieces_append {a : Text} (h : openLine a = []) (b : Text) :
    pieces (a ++ b) = pieces a ++ pieces b := by
  obtain ⟨ls, hls, ha⟩ := exists_lines_append_openLine a
  rw [h, List.append_nil] at ha
  rw [ha, pieces_flatten_append hls, pieces_flatten hls]

/-- The pieces before others are lines. -/
theorem isLine_of_pieces_eq_append {t : Text} {a b : List Text} (h : pieces t = a ++ b)
    (hb : b ≠ []) : ∀ piece ∈ a, IsLine piece := by
  induction t generalizing a with
  | nil => simp [(List.append_eq_nil_iff.1 h.symm).1]
  | cons c t ih =>
    cases a with
    | nil => simp
    | cons first a =>
      rw [pieces] at h
      split at h
      · obtain ⟨rfl, hrest⟩ := List.cons.inj h
        exact List.forall_mem_cons.2 ⟨isLine_empty, ih hrest⟩
      · next hc =>
        split at h
        · -- The text is a single piece, so nothing comes behind the first one.
          exact absurd (List.append_eq_nil_iff.1 (List.cons.inj h).2.symm).2 hb
        · next piece rest hpieces =>
          obtain ⟨rfl, hrest⟩ := List.cons.inj h
          have hlines := ih (a := piece :: a) (hpieces.trans (congrArg (piece :: ·) hrest))
          obtain ⟨⟨w, hw, rfl⟩, ha⟩ := List.forall_mem_cons.1 hlines
          refine List.forall_mem_cons.2 ⟨⟨c :: w, ?_, rfl⟩, ha⟩
          simp [Ne.symm hc, hw]

/-- What a line may end in; only the end of the text ends it with nothing. -/
def IsLineEnd (ending : Text) : Prop := ending = [] ∨ ending = ['\n'] ∨ ending = ['\r', '\n']

/-- A piece is the line with a line end behind it. -/
def IsPieceOf (line piece : Text) : Prop := ∃ ending, IsLineEnd ending ∧ piece = line ++ ending

theorem IsLineEnd.isBlank {ending : Text} (h : IsLineEnd ending) :
    ∀ c ∈ ending, isBlank c = true := by
  rcases h with rfl | rfl | rfl <;> exact List.all_eq_true.1 rfl

theorem isPieceOf_chomp (piece : Text) : IsPieceOf (chomp piece) piece := by
  unfold chomp
  split
  · next rest h =>
    exact ⟨['\r', '\n'], Or.inr (Or.inr rfl), by simpa using congrArg List.reverse h⟩
  · next rest _ h => exact ⟨['\n'], Or.inr (Or.inl rfl), by simpa using congrArg List.reverse h⟩
  · exact ⟨[], Or.inl rfl, (List.append_nil piece).symm⟩

/-- A text is cut in the same places into lines and into pieces. -/
theorem forall₂_lines_pieces (t : Text) : List.Forall₂ IsPieceOf (lines t) (pieces t) := by
  rw [lines, List.forall₂_map_left_iff, List.forall₂_same]
  exact fun piece _ => isPieceOf_chomp piece

/-- A line that does not end in a carriage return is what stands before its line feed. -/
theorem chomp_append {t : Text} (h : t.getLast? ≠ some '\r') : chomp (t ++ ['\n']) = t := by
  unfold chomp
  rw [List.reverse_append, List.reverse_singleton, List.singleton_append]
  split
  · next rest hrest =>
    rw [List.getLast?_eq_head?_reverse, (List.cons.inj hrest).2] at h
    exact absurd rfl h
  · next rest _ hrest => rw [← (List.cons.inj hrest).2, List.reverse_reverse]
  · next hother => exact absurd rfl (hother t.reverse)

theorem chomp_return (t : Text) : chomp (t ++ ['\r', '\n']) = t := by
  simp [chomp]

/-- The lines of a text that is put together from lines. -/
theorem lines_flatten {ls : List Text} (h : ∀ l ∈ ls, IsLine l) :
    lines ls.flatten = ls.map chomp := by
  rw [lines, pieces_flatten h]

/-- What holds of a text without a line feed, and of a line in front of a text of which it holds,
holds of every text. -/
theorem line_induction {P : Text → Prop} (hlast : ∀ t, '\n' ∉ t → P t)
    (hline : ∀ line rest, '\n' ∉ line → P rest → P (line ++ '\n' :: rest)) (t : Text) : P t := by
  obtain ⟨ls, hls, ht⟩ := exists_lines_append_openLine t
  rw [ht]
  clear ht
  induction ls with
  | nil => exact hlast _ (not_mem_openLine t)
  | cons l ls ih =>
    rw [List.forall_mem_cons] at hls
    obtain ⟨line, hbreak, rfl⟩ := hls.1
    have hrest := hline line (ls.flatten ++ openLine t) hbreak (ih hls.2)
    simpa using hrest

theorem lines_of_not_mem {t : Text} (h : '\n' ∉ t) (hne : t ≠ []) : lines t = [t] := by
  have hchomp : chomp t = t := by
    unfold chomp
    split
    · next rest hrest =>
      exact absurd (List.mem_reverse.1 (hrest ▸ List.mem_cons_self)) h
    · next rest _ hrest =>
      exact absurd (List.mem_reverse.1 (hrest ▸ List.mem_cons_self)) h
    · rfl
  rw [lines, pieces_of_not_mem h, if_neg hne, List.map_singleton, hchomp]

theorem lines_ne_nil {t : Text} (h : t ≠ []) : lines t ≠ [] := by
  intro hnil
  have hflat := flatten_pieces t
  rw [List.map_eq_nil_iff.1 hnil] at hflat
  exact h hflat.symm

theorem lines_append_cons {line : Text} (h : '\n' ∉ line) (rest : Text) :
    lines (line ++ '\n' :: rest) = chomp (line ++ ['\n']) :: lines rest := by
  rw [lines, pieces_line_append h, List.map_cons, lines]

/-- Of what stands before a line feed at most one carriage return is dropped. -/
theorem exists_eq_chomp_append (line : Text) :
    ∃ u, line = chomp (line ++ ['\n']) ++ u ∧ (u = [] ∨ u = ['\r']) := by
  by_cases hreturn : line.getLast? = some '\r'
  · obtain ⟨front, rfl⟩ := List.getLast?_eq_some_iff.1 hreturn
    refine ⟨['\r'], ?_, Or.inr rfl⟩
    rw [List.append_assoc, List.singleton_append, chomp_return]
  · exact ⟨[], by rw [chomp_append hreturn, List.append_nil], Or.inl rfl⟩

theorem not_mem_of_mem_lines {t line : Text} (h : line ∈ lines t) : '\n' ∉ line := by
  induction t using line_induction with
  | hlast t ht =>
    by_cases hne : t = []
    · subst hne
      cases h
    · rw [lines_of_not_mem ht hne, List.mem_singleton] at h
      rwa [h]
  | hline first rest hfirst ih =>
    rw [lines_append_cons hfirst, List.mem_cons] at h
    rcases h with rfl | h
    · obtain ⟨u, hu, -⟩ := exists_eq_chomp_append first
      rw [hu, List.mem_append, not_or] at hfirst
      exact hfirst.1
    · exact ih h

/-- The lines of texts that are joined by line feeds are these texts, up to a carriage return at the
end. -/
theorem exists_of_mem_lines_joinWith {ls : List Text} (h : ∀ l ∈ ls, '\n' ∉ l) {line : Text}
    (hline : line ∈ lines (joinWith ['\n'] ls)) :
    ∃ l ∈ ls, ∃ u, l = line ++ u ∧ (u = [] ∨ u = ['\r']) := by
  induction ls with
  | nil => cases hline
  | cons l ls ih =>
    rw [List.forall_mem_cons] at h
    cases ls with
    | nil =>
      rw [joinWith] at hline
      by_cases hne : l = []
      · subst hne
        cases hline
      · rw [lines_of_not_mem h.1 hne, List.mem_singleton] at hline
        exact ⟨l, List.mem_cons_self, [], by rw [hline, List.append_nil], Or.inl rfl⟩
    | cons l' ls =>
      have hjoin : joinWith ['\n'] (l :: l' :: ls) = l ++ '\n' :: joinWith ['\n'] (l' :: ls) := by
        rw [joinWith, List.append_assoc, List.singleton_append]
        simp
      rw [hjoin, lines_append_cons h.1, List.mem_cons] at hline
      rcases hline with rfl | hline
      · exact ⟨l, List.mem_cons_self, exists_eq_chomp_append l⟩
      · obtain ⟨l₀, hl₀, hu⟩ := ih h.2 hline
        exact ⟨l₀, List.mem_cons_of_mem _ hl₀, hu⟩

/-- A line end of two characters in a line and what follows it is the end of the line or stands
behind it. -/
theorem return_infix_iff {line rest : Text} (h : '\n' ∉ line) :
    ['\r', '\n'] <:+: line ++ '\n' :: rest ↔
      line.getLast? = some '\r' ∨ ['\r', '\n'] <:+: rest := by
  induction line with
  | nil => simp [List.infix_cons_iff]
  | cons c line ih =>
    rw [List.mem_cons, not_or] at h
    rw [List.cons_append, List.infix_cons_iff, ih h.2, List.cons_prefix_cons]
    cases line with
    | nil => simp [eq_comm]
    | cons d line =>
      have hd : '\n' ≠ d := fun hd => h.2 (hd ▸ List.mem_cons_self)
      simp [hd]

/-- Joining the lines of a text gives the text, if it has no line feed at its end and no carriage
return before one. -/
theorem joinWith_lines_sublist {t : Text} (h : t.getLast? ≠ some '\n') :
    (joinWith ['\n'] (lines t)).Sublist t ∧
      (joinWith ['\n'] (lines t) = t ↔ ¬['\r', '\n'] <:+: t) := by
  induction t using line_induction with
  | hlast t ht =>
    have hbreak : ¬['\r', '\n'] <:+: t := fun hin => ht (hin.subset (by simp))
    by_cases hne : t = []
    · subst hne
      exact ⟨List.Sublist.refl _, by simp [lines, pieces, joinWith]⟩
    · rw [lines_of_not_mem ht hne]
      exact ⟨List.Sublist.refl _, by simp [joinWith, hbreak]⟩
  | hline line rest hline ih =>
    obtain ⟨d, rest', rfl⟩ : ∃ d rest', rest = d :: rest' := by
      refine List.exists_cons_of_ne_nil fun hnil => h ?_
      rw [hnil, List.getLast?_concat]
    obtain ⟨hsub, hiff⟩ := ih (by simpa using h)
    have hjoin : joinWith ['\n'] (lines (line ++ '\n' :: d :: rest')) =
        chomp (line ++ ['\n']) ++ '\n' :: joinWith ['\n'] (lines (d :: rest')) := by
      rw [lines_append_cons hline]
      cases hlines : lines (d :: rest') with
      | nil => exact absurd hlines (lines_ne_nil (List.cons_ne_nil d rest'))
      | cons l ls => simp [joinWith]
    rw [hjoin, return_infix_iff hline, not_or, ← hiff]
    by_cases hreturn : line.getLast? = some '\r'
    · obtain ⟨front, rfl⟩ := List.getLast?_eq_some_iff.1 hreturn
      rw [List.append_assoc, List.singleton_append, chomp_return]
      refine ⟨?_, ?_⟩
      · rw [List.append_assoc]
        exact (List.Sublist.refl front).append ((hsub.cons_cons '\n').cons '\r')
      · have hlength := hsub.length_le
        refine iff_of_false (fun heq => ?_) (by simp)
        have hcount := congrArg List.length heq
        simp only [List.length_append, List.length_cons, List.length_nil] at hcount hlength
        omega
    · rw [chomp_append hreturn]
      refine ⟨(List.Sublist.refl line).append (hsub.cons_cons '\n'), ?_⟩
      simp [hreturn]

/-- The parts between line feeds, each with a line feed, are lines. -/
theorem isLine_of_mem_splitAt {t line : Text} (h : line ∈ (splitAt '\n' t).map (· ++ ['\n'])) :
    IsLine line := by
  obtain ⟨part, hpart, rfl⟩ := List.mem_map.1 h
  exact isLine_append (not_mem_of_mem_splitAt hpart)

end StyleDocs.Text
