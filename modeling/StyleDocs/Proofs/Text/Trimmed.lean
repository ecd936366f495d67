import StyleDocs.Proofs.Text.Segment
import StyleDocs.Proofs.Text.Strip

/-!
# Trimmed texts

A text is trimmed when there is something in it and no white space around it. A substitution that
writes trimmed texts makes a trimmed text of a trimmed one: what the text begins and ends with is
either a character that stays or a find, and in the place of a find stands its image.
-/

namespace StyleDocs.Text

/-- There is something in the text, and no white space around it. -/
structure IsTrimmed (t : Text) : Prop where
  /-- The text is not empty. -/
  ne_nil : t ≠ []
  /-- Neither its first nor its last character is white space. -/
  ends : hasBlankEnd t = false

/-- What is left when a text is stripped is trimmed, if anything is left. -/
theorem isTrimmed_strip {t : Text} (h : strip t ≠ []) : IsTrimmed (strip t) :=
  ⟨h, hasBlankEnd_strip t⟩

/-- A word is trimmed. -/
theorem isTrimmed_of_forall {t : Text} (hne : t ≠ []) (h : ∀ c ∈ t, isBlank c = false) :
    IsTrimmed t :=
  ⟨hne, hasBlankEnd_of_forall h⟩

/-- A text between two visible characters is trimmed with them, whatever it is. -/
theorem isTrimmed_between {c d : Char} (hc : isBlank c = false) (hd : isBlank d = false)
    (t : Text) : IsTrimmed (c :: (t ++ [d])) := by
  refine ⟨List.cons_ne_nil _ _, hasBlankEnd_of_ends (c := c) (d := d) rfl ?_ hc hd⟩
  rw [← List.cons_append, List.getLast?_concat]

namespace IsTrimmed

variable {t : Text} (h : IsTrimmed t)

include h

theorem head?_any : t.head?.any isBlank = false := (Bool.or_eq_false_iff.1 h.ends).1

theorem getLast?_any : t.getLast?.any isBlank = false := (Bool.or_eq_false_iff.1 h.ends).2

/-- A trimmed text is not blank. -/
theorem not_allBlank : allBlank t = false := by
  obtain ⟨c, rest, rfl⟩ := List.exists_cons_of_ne_nil h.ne_nil
  have hc : isBlank c = false := h.head?_any
  rw [allBlank, List.all_cons, hc, Bool.false_and]

/-- A backquote may be written in front of a trimmed text and behind it. -/
theorem quoted {opening closing : Text} (hopening : opening = [] ∨ opening = [backquote])
    (hclosing : closing = [] ∨ closing = [backquote]) : IsTrimmed (opening ++ t ++ closing) := by
  have hquote : isBlank backquote = false := by decide
  obtain ⟨c, hhead, hc⟩ : ∃ c, (opening ++ t ++ closing).head? = some c ∧ isBlank c = false := by
    rcases hopening with rfl | rfl
    · obtain ⟨c, rest, rfl⟩ := List.exists_cons_of_ne_nil h.ne_nil
      exact ⟨c, rfl, h.head?_any⟩
    · exact ⟨backquote, rfl, hquote⟩
  obtain ⟨d, hlast, hd⟩ :
      ∃ d, (opening ++ t ++ closing).getLast? = some d ∧ isBlank d = false := by
    rcases hclosing with rfl | rfl
    · obtain ⟨front, d, rfl⟩ := (List.eq_nil_or_concat' t).resolve_left h.ne_nil
      have hd : isBlank d = false := by simpa using h.getLast?_any
      exact ⟨d, by simp, hd⟩
    · exact ⟨backquote, List.getLast?_concat, hquote⟩
  refine ⟨fun hnil => ?_, hasBlankEnd_of_ends hhead hlast hc hd⟩
  rw [hnil] at hhead
  cases hhead

end IsTrimmed

/-! ### Substitution -/

variable {α : Type} {p : Pattern α} {mark : Char} {image : α → Text}

section

variable (hp : p.OpensWith mark)
  (himage : ∀ t a rest, p t = some (a, rest) → IsTrimmed (image a))

include hp himage

theorem substitute_ne_nil {t : Text} (h : t ≠ []) : substitute p image t ≠ [] := by
  obtain ⟨c, t, rfl⟩ := List.exists_cons_of_ne_nil h
  cases hfound : p (c :: t) with
  | none =>
    rw [substitute_plain image hfound]
    exact List.cons_ne_nil _ _
  | some found =>
    rw [hp.substitute_found image hfound]
    exact List.append_ne_nil_of_left_ne_nil (himage _ _ _ hfound).ne_nil _

/-- A substitution does not put white space at the front of a text. -/
theorem head?_substitute {t : Text} (h : t.head?.any isBlank = false) :
    (substitute p image t).head?.any isBlank = false := by
  cases t with
  | nil => rfl
  | cons c t =>
    cases hfound : p (c :: t) with
    | none =>
      rw [substitute_plain image hfound]
      exact h
    | some found =>
      have htrimmed := himage _ _ _ hfound
      rw [hp.substitute_found image hfound, List.head?_append_of_ne_nil _ htrimmed.ne_nil]
      exact htrimmed.head?_any

/-- A substitution does not put white space at the end of a text. -/
theorem getLast?_substitute {t : Text} (h : t.getLast?.any isBlank = false) :
    (substitute p image t).getLast?.any isBlank = false := by
  -- A text ends as it ends behind its first segment, if there is anything behind it.
  have hsegment : ∀ written rest : Text, (rest = [] → written.getLast?.any isBlank = false) →
      (rest ≠ [] → (substitute p image rest).getLast?.any isBlank = false) →
      (written ++ substitute p image rest).getLast?.any isBlank = false := by
    intro written rest hwritten hrest
    by_cases hnil : rest = []
    · subst hnil
      exact (List.append_nil written).symm ▸ hwritten rfl
    · rw [List.getLast?_append_of_ne_nil _ (substitute_ne_nil hp himage hnil)]
      exact hrest hnil
  induction t using hp.induction with
  | nil => rfl
  | plain c t hnone ih =>
    rw [substitute_plain image hnone]
    refine hsegment [c] t (fun hnil => by rwa [hnil] at h) fun hne => ih ?_
    rwa [← List.singleton_append, List.getLast?_append_of_ne_nil _ hne] at h
  | found t a rest hfound ih =>
    obtain ⟨u, rfl⟩ := hp t a rest hfound
    rw [hp.substitute_found image hfound]
    refine hsegment (image a) rest (fun _ => (himage _ _ _ hfound).getLast?_any) fun hne => ih ?_
    rwa [← List.cons_append, List.getLast?_append_of_ne_nil _ hne] at h

theorem isTrimmed_substitute {t : Text} (h : IsTrimmed t) :
    IsTrimmed (substitute p image t) where
  ne_nil := substitute_ne_nil hp himage h.ne_nil
  ends := by
    rw [hasBlankEnd, head?_substitute hp himage h.head?_any,
      getLast?_substitute hp himage h.getLast?_any, Bool.or_self]

end

end StyleDocs.Text
