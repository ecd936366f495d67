import StyleDocs.Proofs.Markdown.Section
import StyleDocs.Proofs.Markdown.ValueRow

/-!
# Two ways to cut a text

The rows of a table are read off the lines of a text, which have lost their line ends, and the
headings off its pieces, which have kept them. Both cut the text in the same places, and what they
leave at the end of a line differs in white space only. So the same lines are fences for both
readers, and the same lines are code.
-/

namespace StyleDocs.Markdown

open Text

/-! ### Lines -/

/-- The lines of a text as they are met: a line feed ends a line, and so does a return with a line
feed right behind it. Every other character belongs to the line that it stands in. -/
def cutLines : Text → List Text
  | [] => []
  | c :: cs =>
    if c = '\n' then [] :: cutLines cs
    else if c = '\r' ∧ cs.head? = some '\n' then cutLines cs
    else match cutLines cs with
      | [] => [[c]]
      | line :: rest => (c :: line) :: rest

theorem cutLines_of_not_mem {t : Text} (h : '\n' ∉ t) :
    cutLines t = if t = [] then [] else [t] := by
  induction t with
  | nil => rfl
  | cons c t ih =>
    rw [List.mem_cons, not_or] at h
    have hnext : t.head? ≠ some '\n' := fun hhead => h.2 (List.mem_of_head? hhead)
    rw [cutLines, if_neg (Ne.symm h.1), if_neg fun hreturn => hnext hreturn.2, ih h.2,
      if_neg (List.cons_ne_nil c t)]
    cases t with
    | nil => rfl
    | cons d t => rw [if_neg (List.cons_ne_nil d t)]

/-- A character in front of a line stays there, unless it is a return in the line end. -/
theorem chomp_cons_append {c : Char} {line : Text} (h : ¬(c = '\r' ∧ line = [])) :
    chomp (c :: line ++ ['\n']) = c :: chomp (line ++ ['\n']) := by
  rcases List.eq_nil_or_concat' line with rfl | ⟨front, d, rfl⟩
  · have hc : c ≠ '\r' := fun hc => h ⟨hc, rfl⟩
    rw [chomp_append (by simpa using hc), chomp_append (by simp)]
  · by_cases hd : d = '\r'
    · subst hd
      rw [List.append_assoc, List.singleton_append, chomp_return, ← List.cons_append,
        List.append_assoc, List.singleton_append, chomp_return]
    · have hlast : ∀ u : Text, (u ++ [d]).getLast? ≠ some '\r' := fun u => by simpa using hd
      rw [chomp_append (hlast front), ← List.cons_append, chomp_append (hlast (c :: front))]

/-- A line in front of a text is cut off with its line end. -/
theorem cutLines_append_cons {line : Text} (h : '\n' ∉ line) (rest : Text) :
    cutLines (line ++ '\n' :: rest) = chomp (line ++ ['\n']) :: cutLines rest := by
  induction line with
  | nil => rfl
  | cons c line ih =>
    rw [List.mem_cons, not_or] at h
    have hnext : (line ++ '\n' :: rest).head? = some '\n' ↔ line = [] := by
      cases line with
      | nil => simp
      | cons d line => simpa using fun hd : d = '\n' => h.2 (hd ▸ List.mem_cons_self)
    rw [List.cons_append, cutLines, if_neg (Ne.symm h.1), ih h.2]
    by_cases hreturn : c = '\r' ∧ line = []
    · obtain ⟨rfl, rfl⟩ := hreturn
      rfl
    · rw [if_neg (by rwa [hnext]), chomp_cons_append hreturn]

/-- The pieces of a text without their line ends are its lines as they are met. -/
theorem lines_eq_cutLines (t : Text) : lines t = cutLines t := by
  induction t using line_induction with
  | hlast t ht =>
    rw [cutLines_of_not_mem ht]
    split
    · next hnil => rw [hnil]; rfl
    · next hne => rw [lines_of_not_mem ht hne]
  | hline line rest hline ih => rw [lines_append_cons hline, cutLines_append_cons hline, ih]

example : cutLines "a\r\n\rb\r\r\n\nc\r".toList =
    ["a".toList, "\rb\r".toList, [], "c\r".toList] := by decide

/-! ### What the readers look at -/

/-- The pieces of a text outside fenced code. -/
def unfencedPieces (t : Text) : List Text :=
  ((pieces t).zip (fenced (pieces t))).filterMap fun
    | (_, true) => none
    | (piece, false) => some piece

/-- The lines outside code are the pieces outside code without their line ends. -/
theorem unfencedLines_eq_map (t : Text) : unfencedLines t = (unfencedPieces t).map chomp := by
  rw [unfencedLines, fenced_lines, lines, List.zip_map_left, List.filterMap_map, unfencedPieces,
    List.map_filterMap]
  refine List.filterMap_congr fun entry _ => ?_
  obtain ⟨piece, inside⟩ := entry
  cases inside <;> rfl

/-- The titles that count are those of the pieces outside code. -/
theorem filterMap_outline (t : Text) :
    (outline t).filterMap Prod.snd = (unfencedPieces t).filterMap headingTitle? := by
  rw [outline_eq, marked, List.filterMap_map, unfencedPieces, List.filterMap_filterMap]
  refine List.filterMap_congr fun entry _ => ?_
  obtain ⟨piece, inside⟩ := entry
  cases inside <;> rfl

/-- A text has as many lines as pieces, each piece is its line with the line end behind it, and line
by line the flags are the same. So the rows and the headings of a text are looked for in the same
places: what is code to the one reader is code to the other. -/
theorem fenced_lines_eq_fenced_pieces (t : Text) :
    (lines t = cutLines t ∧ (pieces t).flatten = t ∧
      List.Forall₂ IsPieceOf (lines t) (pieces t)) ∧
    (fenced (lines t)).length = (fenced (pieces t)).length ∧
    (∀ i : Nat, (fenced (lines t))[i]? = (fenced (pieces t))[i]?) ∧
    rows t = (unfencedPieces t).filterMap (fun piece => row? (chomp piece)) ∧
    (outline t).filterMap Prod.snd = (unfencedPieces t).filterMap headingTitle? := by
  refine ⟨⟨lines_eq_cutLines t, flatten_pieces t, forall₂_lines_pieces t⟩, by rw [fenced_lines],
    fun i => by rw [fenced_lines], ?_, filterMap_outline t⟩
  rw [rows_eq_filterMap, unfencedLines_eq_map, List.filterMap_map]
  rfl

end StyleDocs.Markdown
