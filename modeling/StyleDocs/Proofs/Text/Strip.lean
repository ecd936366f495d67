import StyleDocs.Proofs.Text.LowerCase
import Mathlib.Data.List.DropRight

/-!
# White space at the ends

A stripped text has no white space at either end, and a text without white space at its ends is
stripped already. Lower case keeps the ends, and so does replacing one visible character by another.
-/

namespace StyleDocs.Text

/-- Whether the text begins or ends with white space. -/
def hasBlankEnd (t : Text) : Bool := t.head?.any isBlank || t.getLast?.any isBlank

/-- Trimming a class at the front leaves no character of the class there. -/
theorem head?_trimStart (p : Char → Bool) (t : Text) : (trimStart p t).head?.any p = false := by
  have h := List.head?_dropWhile_not p t
  unfold trimStart
  cases hd : (t.dropWhile p).head? with
  | none => rfl
  | some c =>
    rw [hd] at h
    simpa using h

/-- Trimming at the end leaves the first character, if it leaves any. -/
theorem head?_trimEnd {p : Char → Bool} {t : Text} (h : t.head?.any p = false) (q : Char → Bool) :
    (trimEnd q t).head?.any p = false := by
  obtain ⟨dropped, hdropped⟩ := List.rdropWhile_prefix q t
  change (t.rdropWhile q).head?.any p = false
  cases hs : t.rdropWhile q with
  | nil => rfl
  | cons c rest =>
    rw [← hdropped, hs] at h
    exact h

theorem head?_strip (t : Text) : (strip t).head?.any isBlank = false :=
  head?_trimEnd (head?_trimStart isBlank t) isBlank

/-- Trimming a class at the end leaves no character of the class there. -/
theorem getLast?_trimEnd (p : Char → Bool) (t : Text) : (trimEnd p t).getLast?.any p = false := by
  change (t.rdropWhile p).getLast?.any p = false
  by_cases hne : t.rdropWhile p = []
  · rw [hne]
    rfl
  · rw [List.getLast?_eq_some_getLast hne]
    simpa using List.rdropWhile_last_not p t hne

theorem getLast?_strip (t : Text) : (strip t).getLast?.any isBlank = false :=
  getLast?_trimEnd isBlank (trimStart isBlank t)

/-- A stripped text has no white space at either end. -/
theorem hasBlankEnd_strip (t : Text) : hasBlankEnd (strip t) = false := by
  rw [hasBlankEnd, head?_strip, getLast?_strip, Bool.or_false]

/-- A text that does not begin with a character of a class is trimmed of the class at the front. -/
theorem trimStart_eq_self {p : Char → Bool} {t : Text} (h : t.head?.any p = false) :
    trimStart p t = t := by
  cases t with
  | nil => rfl
  | cons c t => exact List.dropWhile_cons_of_neg (by simpa using h)

/-- A text that does not end with a character of a class is trimmed of the class at the end. -/
theorem trimEnd_eq_self {p : Char → Bool} {t : Text} (h : t.getLast?.any p = false) :
    trimEnd p t = t := by
  change t.rdropWhile p = t
  rw [List.rdropWhile_eq_self_iff]
  intro hne
  rw [List.getLast?_eq_some_getLast hne] at h
  simpa using h

/-- A text without characters of a class at its ends is trimmed of the class. -/
theorem trimEnds_eq_self {p : Char → Bool} {t : Text} (hhead : t.head?.any p = false)
    (hlast : t.getLast?.any p = false) : trimEnds p t = t := by
  rw [trimEnds, trimStart_eq_self hhead, trimEnd_eq_self hlast]

/-- A text without any character of a class is trimmed of the class. -/
theorem trimEnds_of_forall {p : Char → Bool} {t : Text} (h : ∀ c ∈ t, p c = false) :
    trimEnds p t = t := by
  refine trimEnds_eq_self ?_ ?_
  · cases hhead : t.head? with
    | none => rfl
    | some c => exact h c (List.mem_of_head? hhead)
  · cases hlast : t.getLast? with
    | none => rfl
    | some c => exact h c (List.mem_of_getLast? hlast)

theorem hasBlankEnd_of_ends {t : Text} {c d : Char} (hhead : t.head? = some c)
    (hlast : t.getLast? = some d) (hc : isBlank c = false) (hd : isBlank d = false) :
    hasBlankEnd t = false := by
  rw [hasBlankEnd, hhead, hlast, Option.any_some, Option.any_some, hc, hd]
  rfl

theorem hasBlankEnd_of_forall {t : Text} (h : ∀ c ∈ t, isBlank c = false) :
    hasBlankEnd t = false := by
  rw [hasBlankEnd, Bool.or_eq_false_iff, Option.any_eq_false, Option.any_eq_false]
  exact ⟨fun c hc => by simp [h c (List.mem_of_head? hc)],
    fun c hc => by simp [h c (List.mem_of_getLast? hc)]⟩

/-- A text that has no white space at its ends has no space and no tab there. -/
theorem isGap_ends {t : Text} (h : hasBlankEnd t = false) :
    t.head?.any isGap = false ∧ t.getLast?.any isGap = false := by
  have hgap : ∀ o : Option Char, o.any isBlank = false → o.any isGap = false := by
    intro o ho
    cases o with
    | none => rfl
    | some c =>
      rw [Option.any_some, ← Bool.not_eq_true] at ho ⊢
      exact fun hc => ho (isBlank_of_isGap hc)
  rw [hasBlankEnd, Bool.or_eq_false_iff] at h
  exact ⟨hgap _ h.1, hgap _ h.2⟩

/-- A text without white space at its ends is stripped. -/
theorem strip_eq_self {t : Text} (h : hasBlankEnd t = false) : strip t = t :=
  trimEnds_eq_self (Bool.or_eq_false_iff.1 h).1 (Bool.or_eq_false_iff.1 h).2

/-- What is dropped in front of a text does not depend on what follows it, unless all of it is
dropped. -/
theorem trimStart_append (p : Char → Bool) (t u : Text) :
    trimStart p (t ++ u) = if t.all p then trimStart p u else trimStart p t ++ u := by
  induction t with
  | nil => rfl
  | cons c t ih =>
    by_cases h : p c = true
    · simpa [trimStart, List.dropWhile_cons, h] using ih
    · simp [trimStart, h]

/-- What trimming drops belongs to the classes. -/
theorem exists_trimEnd_trimStart (p q : Char → Bool) (t : Text) :
    ∃ a b, t = a ++ trimEnd q (trimStart p t) ++ b ∧
      (∀ c ∈ a, p c = true) ∧ ∀ c ∈ b, q c = true := by
  have hback : trimEnd q (trimStart p t) ++ (trimStart p t).rtakeWhile q = trimStart p t :=
    List.rdropWhile_append_rtakeWhile
  refine ⟨t.takeWhile p, (trimStart p t).rtakeWhile q, ?_, List.all_eq_true.1 List.all_takeWhile,
    fun c hc => List.mem_rtakeWhile_imp hc⟩
  rw [List.append_assoc, hback, trimStart, List.takeWhile_append_dropWhile]

theorem exists_trimEnds (p : Char → Bool) (t : Text) :
    ∃ a b, t = a ++ trimEnds p t ++ b ∧ (∀ c ∈ a, p c = true) ∧ ∀ c ∈ b, p c = true :=
  exists_trimEnd_trimStart p p t

theorem infix_trimEnds (p : Char → Bool) (t : Text) : trimEnds p t <:+: t := by
  obtain ⟨a, b, ht, -, -⟩ := exists_trimEnds p t
  exact ⟨a, b, ht.symm⟩

theorem infix_strip (t : Text) : strip t <:+: t := infix_trimEnds isBlank t

/-- Characters of the class behind a text are trimmed. -/
theorem trimEnd_append {p : Char → Bool} {u : Text} (h : ∀ c ∈ u, p c = true) (t : Text) :
    trimEnd p (t ++ u) = trimEnd p t := by
  rw [trimEnd, List.reverse_append,
    List.dropWhile_append_of_pos fun c hc => h c (List.mem_reverse.1 hc), trimEnd]

/-- What is dropped behind a text does not depend on what stands in front of it, unless all of it is
dropped. -/
theorem trimEnd_append_eq (p : Char → Bool) (t u : Text) :
    trimEnd p (t ++ u) = if u.all p then trimEnd p t else t ++ trimEnd p u := by
  have hreverse : ∀ w : Text, trimEnd p w = (trimStart p w.reverse).reverse := fun _ => rfl
  rw [hreverse, List.reverse_append, trimStart_append, List.all_reverse]
  split
  · rw [hreverse]
  · rw [List.reverse_append, List.reverse_reverse, hreverse]

/-- Trimming at the end does not reach over a character outside the class. -/
theorem trimEnd_append_cons {p : Char → Bool} {c : Char} (h : p c = false) (a t : Text) :
    trimEnd p (a ++ c :: t) = a ++ c :: trimEnd p t := by
  have hfront : trimEnd p (a ++ [c]) = a ++ [c] := trimEnd_eq_self (by simpa using h)
  rw [List.append_cons, trimEnd_append_eq]
  split
  · next hall =>
    have hnil : trimEnd p t = [] := by
      have hdropped : t.reverse.dropWhile p = [] :=
        List.dropWhile_eq_nil_iff.2 (List.all_eq_true.1 (by rwa [List.all_reverse]))
      rw [trimEnd, hdropped, List.reverse_nil]
    rw [hfront, hnil]
  · rw [← List.append_cons]

/-- Characters of the class around a text are trimmed with those of the text. -/
theorem trimEnds_between {p : Char → Bool} {a b : Text} (ha : ∀ c ∈ a, p c = true)
    (hb : ∀ c ∈ b, p c = true) (t : Text) : trimEnds p (a ++ t ++ b) = trimEnds p t := by
  have hstart : trimStart p (a ++ (t ++ b)) = trimStart p (t ++ b) :=
    List.dropWhile_append_of_pos ha
  rw [trimEnds, trimEnds, List.append_assoc, hstart, trimStart_append]
  split
  · next hall =>
    have hbnil : trimStart p b = [] := List.dropWhile_eq_nil_iff.2 hb
    have htnil : trimStart p t = [] := List.dropWhile_eq_nil_iff.2 (List.all_eq_true.1 hall)
    rw [hbnil, htnil]
  · rw [trimEnd_append hb]

/-- Trimming a class at both ends leaves a text between characters of the class that has none of
them at its ends. -/
theorem trimEnds_append {p : Char → Bool} {a t b : Text} (ha : ∀ c ∈ a, p c = true)
    (hb : ∀ c ∈ b, p c = true) (hhead : t.head?.any p = false)
    (hlast : t.getLast?.any p = false) : trimEnds p (a ++ t ++ b) = t := by
  rw [trimEnds_between ha hb, trimEnds_eq_self hhead hlast]

/-- Trimming a class keeps what stands in front of a text, if neither its first nor its last
character belongs to the class. -/
theorem exists_trimEnds_append {p : Char → Bool} {u : Text} (hne : u ≠ [])
    (hhead : u.head?.any p = false) (hlast : u.getLast?.any p = false) (t : Text) :
    ∃ t', trimEnds p (u ++ t) = u ++ t' := by
  have hend : ∃ t', (u ++ t).rdropWhile p = u ++ t' := by
    induction t using List.reverseRecOn with
    | nil =>
      rw [List.append_nil]
      exact ⟨[], (trimEnd_eq_self hlast).trans (List.append_nil u).symm⟩
    | append_singleton t c ih =>
      rw [← List.append_assoc, List.rdropWhile_concat]
      split
      · exact ih
      · exact ⟨t ++ [c], List.append_assoc ..⟩
  have hstart : trimStart p (u ++ t) = u ++ t :=
    trimStart_eq_self (by rwa [List.head?_append_of_ne_nil u hne])
  rw [trimEnds, hstart]
  exact hend

/-- White space around a text is stripped. -/
theorem strip_append {a t b : Text} (ha : ∀ c ∈ a, isBlank c = true)
    (hb : ∀ c ∈ b, isBlank c = true) (ht : hasBlankEnd t = false) : strip (a ++ t ++ b) = t := by
  rw [strip, trimEnds_between ha hb]
  exact strip_eq_self ht

/-- A text between backquotes is what is left when the white space around it and then the backquotes
are dropped. -/
theorem trimEnds_strip_quoted {a t b : Text} (ha : ∀ c ∈ a, isBlank c = true)
    (hb : ∀ c ∈ b, isBlank c = true) (hhead : t.head?.any (· == backquote) = false)
    (hlast : t.getLast?.any (· == backquote) = false) :
    trimEnds (· == backquote) (strip (a ++ ([backquote] ++ t ++ [backquote]) ++ b)) = t := by
  have hends : hasBlankEnd ([backquote] ++ t ++ [backquote]) = false := by
    rw [hasBlankEnd, List.getLast?_concat]
    rfl
  rw [strip_append ha hb hends]
  exact trimEnds_append (by simp) (by simp) hhead hlast

/-- Nothing but white space is stripped. -/
theorem count_strip {c : Char} (hc : isBlank c = false) (t : Text) :
    (strip t).count c = t.count c := by
  obtain ⟨a, b, ht, ha, hb⟩ := exists_trimEnds isBlank t
  have hnone : ∀ u : Text, (∀ d ∈ u, isBlank d = true) → u.count c = 0 := by
    intro u hu
    refine List.count_eq_zero_of_not_mem fun hmem => ?_
    rw [hu c hmem] at hc
    cases hc
  conv_rhs => rw [ht]
  rw [List.count_append, List.count_append, hnone a ha, hnone b hb, Nat.zero_add, Nat.add_zero,
    strip]

theorem allBlank_of_strip_eq_nil {t : Text} (h : strip t = []) : allBlank t = true := by
  obtain ⟨a, b, ht, ha, hb⟩ := exists_trimEnds isBlank t
  rw [show trimEnds isBlank t = [] from h, List.append_nil] at ht
  rw [ht, allBlank, List.all_append, List.all_eq_true.2 ha, List.all_eq_true.2 hb, Bool.and_self]

/-- Lower case neither adds nor removes white space at an end. -/
theorem hasBlankEnd_lower (t : Text) : hasBlankEnd (lower t) = hasBlankEnd t := by
  rw [hasBlankEnd, keptByLower_isBlank.head?_lower, keptByLower_isBlank.getLast?_lower,
    hasBlankEnd]

/-! ### Where the characters of a class stop -/

theorem dropWhile_append_cons {p : Char → Bool} {u : Text} {c : Char} (hu : ∀ d ∈ u, p d = true)
    (hc : p c = false) (t : Text) : (u ++ c :: t).dropWhile p = c :: t := by
  rw [List.dropWhile_append_of_pos hu, List.dropWhile_cons_of_neg (by simp [hc])]

theorem takeWhile_append_cons {p : Char → Bool} {u : Text} {c : Char} (hu : ∀ d ∈ u, p d = true)
    (hc : p c = false) (t : Text) : (u ++ c :: t).takeWhile p = u := by
  rw [List.takeWhile_append_of_pos hu, List.takeWhile_cons_of_neg (by simp [hc]), List.append_nil]

/-- The first character outside a class. -/
theorem exists_first {p : Char → Bool} {t : Text} (h : ∃ c ∈ t, p c = false) :
    ∃ front c rest, t = front ++ c :: rest ∧ (∀ x ∈ front, p x = true) ∧ p c = false := by
  obtain ⟨c, hc, hp⟩ := h
  have hne : t.dropWhile p ≠ [] := by
    intro hnil
    rw [List.dropWhile_eq_nil_iff.1 hnil c hc] at hp
    cases hp
  obtain ⟨x, rest, hrest⟩ := List.exists_cons_of_ne_nil hne
  refine ⟨t.takeWhile p, x, rest, ?_, List.all_eq_true.1 List.all_takeWhile, ?_⟩
  · rw [← hrest, List.takeWhile_append_dropWhile]
  · have hhead := List.head?_dropWhile_not p t
    rwa [hrest] at hhead

/-! ### Replacing characters -/

theorem replaceChar_eq_self_iff {a b : Char} (h : a ≠ b) {t : Text} :
    replaceChar a b t = t ↔ a ∉ t := by
  induction t with
  | nil => simp [replaceChar]
  | cons c t ih =>
    rw [replaceChar, List.map_cons, List.cons.injEq, ← replaceChar, ih, List.mem_cons, not_or]
    by_cases hc : c = a
    · subst hc
      simp [Ne.symm h]
    · simp [hc, Ne.symm hc]

/-- Replacing back and forth is replacing back. -/
theorem replaceChar_replaceChar (a b : Char) (t : Text) :
    replaceChar a b (replaceChar b a t) = replaceChar a b t := by
  simp only [replaceChar, List.map_map]
  refine List.map_congr_left fun c _ => ?_
  by_cases hb : c = b
  · subst hb
    simp
  · simp [hb]

/-- Replacing a visible character by a visible one keeps the ends. -/
theorem hasBlankEnd_replaceChar {a b : Char} (ha : isBlank a = false) (hb : isBlank b = false)
    (t : Text) : hasBlankEnd (replaceChar a b t) = hasBlankEnd t := by
  have h : ∀ c : Char, isBlank (if c = a then b else c) = isBlank c := by
    intro c
    split
    · next hc => rw [hb, hc, ha]
    · rfl
  simp only [hasBlankEnd, replaceChar, List.head?_map, List.getLast?_map, Option.any_map,
    h]

end StyleDocs.Text
