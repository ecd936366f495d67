import Mathlib.Data.List.Basic
import StyleDocs.Text

/-!
# Where words occur

A word does not reach over a character that it does not have. So a text with such a character in it
begins with the word exactly when the part before the character does, and an occurrence lies on one
side of the character. A text is cut at a word where the word occurs first.
-/

namespace StyleDocs.Text

theorem startsWith_eq_false_iff {w t : Text} : startsWith w t = false ↔ after? w t = none := by
  rw [startsWith, Option.isSome_eq_false_iff, Option.isNone_iff_eq_none]

theorem startsWith_self_append (w rest : Text) : startsWith w (w ++ rest) = true :=
  startsWith_iff.2 ⟨rest, rfl⟩

/-- What follows a word in a text belongs to the text. -/
theorem mem_of_after? {w t rest : Text} (h : after? w t = some rest) {c : Char} (hc : c ∈ rest) :
    c ∈ t := by
  rw [after?_eq_some_iff.1 h]
  exact List.mem_append_right w hc

/-- A word without a character begins a text exactly when it begins what stands before the
character. -/
theorem startsWith_append_cons {w : Text} {m : Char} (hm : m ∉ w) (t u : Text) :
    startsWith w (t ++ m :: u) = startsWith w t := by
  rw [Bool.eq_iff_iff, startsWith_iff, startsWith_iff]
  constructor
  · rintro ⟨rest, hrest⟩
    rcases List.append_eq_append_iff.1 hrest with ⟨a, rfl, hu⟩ | ⟨a, rfl, -⟩
    · cases a with
      | nil => exact ⟨[], by simp⟩
      | cons c a =>
        rw [List.cons_append, List.cons.injEq] at hu
        exact absurd (by simp [hu.1]) hm
    · exact ⟨a, rfl⟩
  · rintro ⟨rest, rfl⟩
    exact ⟨rest ++ m :: u, List.append_assoc ..⟩

/-- What follows a text that ends outside a word does not matter to whether it begins with the
word. -/
theorem startsWith_append_of_getLast? {w u : Text} (hne : u ≠ [])
    (hlast : ∀ m ∈ u.getLast?, m ∉ w) (t : Text) : startsWith w (u ++ t) = startsWith w u := by
  rcases List.eq_nil_or_concat' u with rfl | ⟨u, m, rfl⟩
  · exact absurd rfl hne
  · have hm : m ∉ w := by simpa using hlast
    rw [List.append_assoc, List.singleton_append, startsWith_append_cons hm,
      startsWith_append_cons hm]

/-- What follows a word in front of a character that it does not have goes on to the character. -/
theorem after?_append_cons {w : Text} {m : Char} (hm : m ∉ w) (t u : Text) :
    after? w (t ++ m :: u) = (after? w t).map (· ++ m :: u) := by
  cases h : after? w t with
  | none =>
    rw [← startsWith_eq_false_iff] at h
    rw [Option.map_none, ← startsWith_eq_false_iff, startsWith_append_cons hm, h]
  | some rest =>
    rw [Option.map_some, after?_eq_some_iff, after?_eq_some_iff.1 h, List.append_assoc]

/-- A word begins no text that begins with a character outside the word. -/
theorem startsWith_cons_of_not_mem {w : Text} (hw : w ≠ []) {m : Char} (hm : m ∉ w) (t : Text) :
    startsWith w (m :: t) = false := by
  have h := startsWith_append_cons hm [] t
  rw [List.nil_append] at h
  rw [h]
  cases w with
  | nil => exact absurd rfl hw
  | cons c w => rfl

/-- A word occurs in a text exactly when it begins one of the ends of the text. -/
theorem includes_eq_false_iff {w t : Text} :
    includes w t = false ↔ ∀ s, s <:+ t → startsWith w s = false := by
  induction t with
  | nil => cases w <;> simp [includes, startsWith, after?]
  | cons c t ih =>
    rw [includes, Bool.or_eq_false_iff, ih]
    constructor
    · rintro ⟨hfront, hrest⟩ s hs
      rcases List.suffix_cons_iff.1 hs with rfl | hs
      · exact hfront
      · exact hrest s hs
    · intro h
      exact ⟨h _ List.suffix_rfl, fun s hs => h s (hs.trans (List.suffix_cons c t))⟩

theorem includes_iff_infix {w t : Text} : includes w t = true ↔ w <:+: t := by
  rw [includes_iff]
  constructor
  · rintro ⟨a, b, rfl⟩
    exact ⟨a, b, rfl⟩
  · rintro ⟨a, b, rfl⟩
    exact ⟨a, b, rfl⟩

/-- What a part of a text includes, the text includes. -/
theorem includes_eq_false_of_part {w s t : Text} (hs : s <:+: t) (h : includes w t = false) :
    includes w s = false := by
  rw [Bool.eq_false_iff, Ne, includes_iff_infix] at h ⊢
  exact fun hw => h (hw.trans hs)

/-- Characters outside a word in front of a text do not make the word occur. -/
theorem includes_append_left {w u : Text} (hw : w ≠ []) (hu : ∀ c ∈ u, c ∉ w) (t : Text) :
    includes w (u ++ t) = includes w t := by
  induction u with
  | nil => rfl
  | cons c u ih =>
    have hc : startsWith w (c :: (u ++ t)) = false :=
      startsWith_cons_of_not_mem hw (hu c List.mem_cons_self) _
    rw [List.cons_append, includes, hc, Bool.false_or,
      ih fun d hd => hu d (List.mem_cons_of_mem _ hd)]

/-- Characters outside a word behind a text do not make the word occur. -/
theorem includes_append_right {w u : Text} (hw : w ≠ []) (hu : ∀ c ∈ u, c ∉ w) (t : Text) :
    includes w (t ++ u) = includes w t := by
  induction t with
  | nil =>
    have h := includes_append_left hw hu []
    rwa [List.append_nil] at h
  | cons c t ih =>
    have hfront : startsWith w (c :: t ++ u) = startsWith w (c :: t) := by
      cases u with
      | nil => rw [List.append_nil]
      | cons d u => exact startsWith_append_cons (hu d List.mem_cons_self) _ _
    rw [List.cons_append, includes, ih, ← List.cons_append, hfront, includes]

/-- A word occurs on one side of a character that it does not have. -/
theorem includes_append_cons {w : Text} (hw : w ≠ []) {m : Char} (hm : m ∉ w) (t u : Text) :
    includes w (t ++ m :: u) = (includes w t || includes w u) := by
  induction t with
  | nil =>
    have hnil : includes w [] = false := by simpa [includes] using hw
    have hfront : startsWith w (m :: u) = false := startsWith_cons_of_not_mem hw hm u
    rw [List.nil_append, hnil, includes, hfront]
  | cons c t ih =>
    have hfront : startsWith w (c :: (t ++ m :: u)) = startsWith w (c :: t) :=
      startsWith_append_cons hm (c :: t) u
    rw [List.cons_append, includes, hfront, ih, includes, Bool.or_assoc]

/-- A word does not reach into a text in front that lacks the word's first character. -/
theorem infix_of_infix_append_left {c : Char} {w u t : Text} (hc : c ∉ u)
    (h : c :: w <:+: u ++ t) : c :: w <:+: t := by
  obtain ⟨before, behind, happ⟩ := h
  rw [List.append_assoc] at happ
  rcases List.append_eq_append_iff.1 happ with ⟨a, rfl, ht⟩ | ⟨a, -, ht⟩
  · cases a with
    | nil => exact ⟨[], behind, ht⟩
    | cons d a =>
      have hd : c = d := (List.cons.inj ht).1
      exact absurd (by simp [hd]) hc
  · exact ⟨a, behind, by rw [ht, List.append_assoc]⟩

/-- A word does not reach into a text behind that lacks the word's last character. -/
theorem infix_of_infix_append_right {c : Char} {w u t : Text} (hc : c ∉ u)
    (h : w ++ [c] <:+: t ++ u) : w ++ [c] <:+: t := by
  rw [← List.reverse_infix, List.reverse_append, List.reverse_singleton,
    List.singleton_append] at h ⊢
  rw [List.reverse_append] at h
  exact infix_of_infix_append_left (by simpa using hc) h

/-- A front that ends with a mark does not reach into a text without the mark. -/
theorem prefix_of_prefix_append {u t b : Text} {mark : Char} (hb : mark ∉ b)
    (h : u ++ [mark] <+: t ++ b) : u ++ [mark] <+: t := by
  obtain ⟨rest, hrest⟩ := h
  rcases List.append_eq_append_iff.1 hrest with ⟨a, ht, -⟩ | ⟨a, hu, hab⟩
  · exact ⟨a, ht.symm⟩
  · rcases List.eq_nil_or_concat a with rfl | ⟨a, c, rfl⟩
    · exact ⟨[], by simpa using hu⟩
    · rw [List.concat_eq_append, ← List.append_assoc] at hu
      obtain ⟨-, hc⟩ := List.append_inj' hu rfl
      rw [hab, ← List.cons.inj hc |>.1] at hb
      exact absurd (by simp) hb

/-! ### Cutting -/

/-- Where a text does not begin with the word, it is cut behind its first character. -/
theorem cut?_cons {w : Text} {c : Char} {t : Text} (h : startsWith w (c :: t) = false) :
    cut? w (c :: t) = (cut? w t).map fun parts => (c :: parts.1, parts.2) := by
  rw [cut?, startsWith_eq_false_iff.1 h]

/-- A text is cut exactly when the word occurs. -/
theorem isSome_cut? (w t : Text) : (cut? w t).isSome = includes w t := by
  induction t with
  | nil => cases w <;> rfl
  | cons c t ih =>
    cases h : startsWith w (c :: t) with
    | true =>
      obtain ⟨rest, hrest⟩ := Option.isSome_iff_exists.1 h
      rw [cut?, hrest, includes, h]
      rfl
    | false => rw [cut?_cons h, Option.isSome_map, ih, includes, h, Bool.false_or]

/-- The word does not occur before the place where a text is cut. -/
theorem includes_of_cut? {w t a b : Text} (hw : w ≠ []) (h : cut? w t = some (a, b)) :
    includes w a = false := by
  induction t generalizing a b with
  | nil =>
    cases w with
    | nil => exact absurd rfl hw
    | cons c w => cases h
  | cons c t ih =>
    cases hfront : startsWith w (c :: t) with
    | true =>
      obtain ⟨rest, hrest⟩ := Option.isSome_iff_exists.1 hfront
      rw [cut?, hrest] at h
      cases h
      simpa [includes] using hw
    | false =>
      rw [cut?_cons hfront] at h
      obtain ⟨⟨a', b'⟩, hcut, heq⟩ := Option.map_eq_some_iff.1 h
      cases heq
      rw [includes, ih hcut, Bool.or_false, ← Bool.not_eq_true]
      intro hstart
      obtain ⟨rest, hrest⟩ := startsWith_iff.1 hstart
      have hwhole : startsWith w (c :: t) = true := by
        refine startsWith_iff.2 ⟨rest ++ w ++ b', ?_⟩
        rw [eq_of_cut? hcut, ← List.append_assoc, ← List.append_assoc, ← hrest]
        simp
      rw [hfront] at hwhole
      cases hwhole

/-- A text is not cut at a character that it does not have. -/
theorem cut?_of_not_mem {m : Char} {t : Text} (h : m ∉ t) : cut? [m] t = none := by
  rw [← Option.isNone_iff_eq_none, ← Option.isSome_eq_false_iff, isSome_cut?, Bool.eq_false_iff,
    Ne, includes_iff]
  rintro ⟨a, b, rfl⟩
  simp at h

theorem cut?_of_startsWith {w : Text} (hw : w ≠ []) (rest : Text) :
    cut? w (w ++ rest) = some ([], rest) := by
  obtain ⟨c, w', rfl⟩ := List.exists_cons_of_ne_nil hw
  rw [List.cons_append, cut?, after?_eq_some_iff.2 (by rw [List.cons_append])]

/-- A text in front in which the word does not occur and whose last character is outside the word
belongs to the part before the cut. -/
theorem cut?_append_left {w u : Text} (h : includes w u = false) (hlast : ∀ m ∈ u.getLast?, m ∉ w)
    (t : Text) : cut? w (u ++ t) = (cut? w t).map fun parts => (u ++ parts.1, parts.2) := by
  induction u with
  | nil => simp
  | cons c u ih =>
    rw [includes, Bool.or_eq_false_iff] at h
    have hrest : ∀ m ∈ u.getLast?, m ∉ w := by
      intro m hm
      refine hlast m ?_
      rw [List.getLast?_cons, Option.mem_def.1 hm]
      rfl
    have hfront : startsWith w (c :: (u ++ t)) = false := by
      rw [← List.cons_append, startsWith_append_of_getLast? (List.cons_ne_nil c u) hlast, h.1]
    rw [List.cons_append, cut?_cons hfront, ih h.2 hrest, Option.map_map]
    rfl

/-- A text in which a word does not occur, a character outside the word, and the word: this is cut
at the word. -/
theorem cut?_append {w u : Text} {m : Char} (hw : w ≠ []) (hm : m ∉ w)
    (h : includes w u = false) (rest : Text) :
    cut? w (u ++ m :: (w ++ rest)) = some (u ++ [m], rest) := by
  have hwhole : includes w (u ++ [m]) = false := by
    rw [includes_append_right hw (by simpa using hm), h]
  rw [List.append_cons, cut?_append_left hwhole (by simpa using hm), cut?_of_startsWith hw]
  simp

/-- A text is cut at the first occurrence of a single character. -/
theorem cut?_mark {m : Char} {u : Text} (h : m ∉ u) (rest : Text) :
    cut? [m] (u ++ m :: rest) = some (u, rest) := by
  induction u with
  | nil => exact cut?_of_startsWith (by simp) rest
  | cons c u ih =>
    rw [List.mem_cons, not_or] at h
    have hfront : startsWith [m] (c :: (u ++ m :: rest)) = false :=
      startsWith_cons_of_not_mem (by simp) (by simpa using Ne.symm h.1) _
    rw [List.cons_append, cut?_cons hfront, ih h.2]
    rfl

/-! ### Parts between marks -/

/-- The parts between the marks lie in the text. -/
theorem infix_of_mem_splitAt {m : Char} {t part : Text} (h : part ∈ splitAt m t) : part <:+: t := by
  -- The first part begins the text, which the induction needs for a character in front of it.
  suffices hall : (∀ p ∈ splitAt m t, p <:+: t) ∧ ∀ p ∈ (splitAt m t).head?, p <+: t from
    hall.1 part h
  clear h
  induction t with
  | nil => simp [splitAt]
  | cons c t ih =>
    obtain ⟨hall, hfirst⟩ := ih
    unfold splitAt
    split
    · refine ⟨fun p hp => ?_, by simp⟩
      rcases List.mem_cons.1 hp with rfl | hp
      · exact List.nil_infix
      · exact (hall p hp).trans (List.suffix_cons c t).isInfix
    · split
      · next hnil => exact absurd hnil (splitAt_ne_nil m t)
      · next part parts hparts =>
        rw [hparts] at hall hfirst
        have hfront : c :: part <+: c :: t := by simpa using hfirst part rfl
        refine ⟨fun p hp => ?_, fun p hp => ?_⟩
        · rcases List.mem_cons.1 hp with rfl | hp
          · exact hfront.isInfix
          · exact (hall p (List.mem_cons_of_mem _ hp)).trans (List.suffix_cons c t).isInfix
        · rw [List.head?_cons, Option.mem_some_iff] at hp
          exact hp ▸ hfront

/-- The parts between the marks have no mark. -/
theorem not_mem_of_mem_splitAt {m : Char} {t part : Text} (h : part ∈ splitAt m t) : m ∉ part := by
  induction t generalizing part with
  | nil =>
    rw [List.mem_singleton.1 h]
    exact List.not_mem_nil
  | cons c t ih =>
    unfold splitAt at h
    split at h
    · rcases List.mem_cons.1 h with rfl | h
      · exact List.not_mem_nil
      · exact ih h
    · next hc =>
      split at h
      · next hnil => exact absurd hnil (splitAt_ne_nil m t)
      · next first parts hparts =>
        rw [hparts] at ih
        rcases List.mem_cons.1 h with rfl | h
        · rw [List.mem_cons, not_or]
          exact ⟨Ne.symm hc, ih List.mem_cons_self⟩
        · exact ih (List.mem_cons_of_mem _ h)

/-- A text without a mark is its only part. -/
theorem splitAt_of_not_mem {m : Char} {t : Text} (h : m ∉ t) : splitAt m t = [t] := by
  induction t with
  | nil => rfl
  | cons c t ih =>
    rw [List.mem_cons, not_or] at h
    rw [splitAt, if_neg (Ne.symm h.1), ih h.2]

/-- Characters that are no marks belong to the first part. -/
theorem splitAt_append_of_not_mem {m : Char} {u : Text} (h : m ∉ u) (t : Text) :
    splitAt m (u ++ t) = (splitAt m t).modifyHead (u ++ ·) := by
  induction u with
  | nil => cases hparts : splitAt m t <;> rw [List.nil_append, hparts] <;> rfl
  | cons c u ih =>
    rw [List.mem_cons, not_or] at h
    rw [List.cons_append, splitAt, if_neg (Ne.symm h.1), ih h.2]
    cases hparts : splitAt m t with
    | nil => exact absurd hparts (splitAt_ne_nil m t)
    | cons part parts => rfl

/-- A mark between two texts ends the parts of the first. -/
theorem splitAt_append_mark (m : Char) (t u : Text) :
    splitAt m (t ++ m :: u) = splitAt m t ++ splitAt m u := by
  induction t with
  | nil => simp [splitAt]
  | cons c t ih =>
    rw [List.cons_append, splitAt, splitAt, ih]
    split
    · rfl
    · cases hparts : splitAt m t with
      | nil => exact absurd hparts (splitAt_ne_nil m t)
      | cons part parts => rfl

/-- Texts with a separator behind each are the texts joined, with a separator at the end. -/
theorem flatten_map_append {parts : List Text} (h : parts ≠ []) (sep : Text) :
    (parts.map (· ++ sep)).flatten = joinWith sep parts ++ sep := by
  induction parts with
  | nil => exact absurd rfl h
  | cons part parts ih =>
    cases parts with
    | nil => simp [joinWith]
    | cons part' parts =>
      have hjoin : joinWith sep (part :: part' :: parts) =
          part ++ sep ++ joinWith sep (part' :: parts) := rfl
      rw [List.map_cons, List.flatten_cons, ih (by simp), hjoin, List.append_assoc,
        List.append_assoc, List.append_assoc]

/-- A mark behind every part gives the text with a mark at its end. -/
theorem flatten_map_splitAt (m : Char) (t : Text) :
    ((splitAt m t).map (· ++ [m])).flatten = t ++ [m] := by
  rw [flatten_map_append (splitAt_ne_nil m t), joinWith_splitAt]

/-- Parts without the mark are found again between the marks. -/
theorem splitAt_joinWith {m : Char} {parts : List Text} (hne : parts ≠ [])
    (hparts : ∀ part ∈ parts, m ∉ part) : splitAt m (joinWith [m] parts) = parts := by
  induction parts with
  | nil => exact absurd rfl hne
  | cons part rest ih =>
    obtain ⟨hpart, hrest⟩ := List.forall_mem_cons.1 hparts
    cases rest with
    | nil => exact splitAt_of_not_mem hpart
    | cons next rest =>
      have hjoin : joinWith [m] (part :: next :: rest) =
          part ++ m :: joinWith [m] (next :: rest) := by simp [joinWith]
      rw [hjoin, splitAt_append_mark, splitAt_of_not_mem hpart,
        ih (List.cons_ne_nil _ _) hrest]
      rfl

/-- What is put behind joined texts is put behind the last of them. -/
theorem joinWith_append_singleton (sep : Text) (parts : List Text) (last behind : Text) :
    joinWith sep (parts ++ [last]) ++ behind = joinWith sep (parts ++ [last ++ behind]) := by
  induction parts with
  | nil => rfl
  | cons part rest ih =>
    cases rest with
    | nil => simp [joinWith]
    | cons next rest =>
      simp only [List.cons_append, joinWith, List.append_assoc] at ih ⊢
      rw [ih]

end StyleDocs.Text
