import StyleDocs.Text.Segment

/-!
# Substitution around a mark

The patterns for links open with a bracket: whatever they find begins with it and leaves the end
of the text as the rest. Text without the bracket is therefore not touched by a substitution, and a
find is replaced as a whole, whatever surrounds it.
-/

namespace StyleDocs.Text

variable {α : Type}

/-- A pattern opens with a mark when each of its finds begins with the mark and what it leaves is
the end of the text. -/
def Pattern.OpensWith (p : Pattern α) (mark : Char) : Prop :=
  ∀ t a rest, p t = some (a, rest) → ∃ u, t = mark :: (u ++ rest)

/-- Where nothing is found, the character stays. -/
theorem substitute_plain {p : Pattern α} (image : α → Text) {c : Char} {t : Text}
    (h : p (c :: t) = none) : substitute p image (c :: t) = c :: substitute p image t := by
  rw [substitute, segments_plain h, List.flatMap_cons]
  rfl

/-- Where nothing is found, reading goes on behind the character. -/
theorem findings_plain {p : Pattern α} {c : Char} {t : Text} (h : p (c :: t) = none) :
    findings p (c :: t) = findings p t := by
  rw [findings, segments_plain h]
  rfl

/-- A text in which nothing is found anywhere is not changed. -/
theorem substitute_eq_self {p : Pattern α} (image : α → Text) {t : Text}
    (h : ∀ s, s <:+ t → p s = none) : substitute p image t = t := by
  induction t with
  | nil => rfl
  | cons c t ih =>
    rw [substitute_plain image (h _ List.suffix_rfl),
      ih fun s hs => h s (hs.trans (List.suffix_cons c t))]

namespace Pattern.OpensWith

variable {p : Pattern α} {mark : Char}

/-- Nothing is found at another character. -/
theorem eq_none (hp : p.OpensWith mark) {c : Char} {t : Text} (hc : c ≠ mark) :
    p (c :: t) = none := by
  cases h : p (c :: t) with
  | none => rfl
  | some found =>
    obtain ⟨u, hu⟩ := hp _ found.1 found.2 h
    exact absurd (List.cons.inj hu).1 hc

/-- Text without the mark stays in front of what a substitution makes of the rest. -/
theorem substitute_append (hp : p.OpensWith mark) (image : α → Text) {before : Text}
    (hbefore : mark ∉ before) (t : Text) :
    substitute p image (before ++ t) = before ++ substitute p image t := by
  induction before with
  | nil => rfl
  | cons c before ih =>
    rw [List.mem_cons, not_or] at hbefore
    have hnone : p (c :: (before ++ t)) = none := hp.eq_none (Ne.symm hbefore.1)
    rw [List.cons_append, substitute_plain image hnone, ih hbefore.2, List.cons_append]

/-- A text without the mark is not changed. -/
theorem substitute_eq_self (hp : p.OpensWith mark) (image : α → Text) {t : Text}
    (ht : mark ∉ t) : substitute p image t = t := by
  simpa [substitute, segments, segmentsFrom] using hp.substitute_append image ht []

/-- Nothing is found in text without the mark in front of a text. -/
theorem findings_append (hp : p.OpensWith mark) {before : Text} (hbefore : mark ∉ before)
    (t : Text) : findings p (before ++ t) = findings p t := by
  induction before with
  | nil => rfl
  | cons c before ih =>
    rw [List.mem_cons, not_or] at hbefore
    have hnone : p (c :: (before ++ t)) = none := hp.eq_none (Ne.symm hbefore.1)
    rw [List.cons_append, findings_plain hnone, ih hbefore.2]

/-- A find comes first, and behind it the finds in the rest. -/
theorem findings_found (hp : p.OpensWith mark) {t rest : Text} {a : α}
    (h : p t = some (a, rest)) : findings p t = a :: findings p rest := by
  obtain ⟨u, rfl⟩ := hp t a rest h
  rw [findings, segments_found h]
  rfl

/-- A find is replaced by its image. -/
theorem substitute_found (hp : p.OpensWith mark) (image : α → Text) {t rest : Text} {a : α}
    (h : p t = some (a, rest)) : substitute p image t = image a ++ substitute p image rest := by
  obtain ⟨u, rfl⟩ := hp t a rest h
  rw [substitute, segments_found h, List.flatMap_cons]
  rfl

/-- What holds of the empty text, and of a text if it holds behind its first character or, where
something is found, behind the find, holds of every text. -/
theorem induction (hp : p.OpensWith mark) {motive : Text → Prop} (nil : motive [])
    (plain : ∀ c t, p (c :: t) = none → motive t → motive (c :: t))
    (found : ∀ t a rest, p t = some (a, rest) → motive rest → motive t) (t : Text) : motive t := by
  induction hlength : t.length using Nat.strongRecOn generalizing t with
  | _ n ih =>
    cases t with
    | nil => exact nil
    | cons c t =>
      cases hfound : p (c :: t) with
      | none => exact plain c t hfound (ih t.length (by simp [← hlength]) t rfl)
      | some result =>
        obtain ⟨a, rest⟩ := result
        refine found _ a rest hfound (ih rest.length ?_ rest rfl)
        obtain ⟨u, hu⟩ := hp _ a rest hfound
        rw [← hlength, hu, List.length_cons, List.length_append]
        omega

/-- What is found in a text is found at the front of one of its ends. -/
theorem exists_of_mem_findings (hp : p.OpensWith mark) {t : Text} {a : α}
    (h : a ∈ findings p t) : ∃ s rest, s <:+ t ∧ p s = some (a, rest) := by
  induction t using hp.induction with
  | nil => cases h
  | plain c t hnone ih =>
    rw [findings_plain hnone] at h
    obtain ⟨s, rest, hs, hfound⟩ := ih h
    exact ⟨s, rest, hs.trans (List.suffix_cons c t), hfound⟩
  | found t b rest hfound ih =>
    rw [hp.findings_found hfound] at h
    rcases List.mem_cons.1 h with rfl | h
    · exact ⟨t, rest, List.suffix_rfl, hfound⟩
    · obtain ⟨s, rest', hs, hfound'⟩ := ih h
      obtain ⟨u, rfl⟩ := hp t b rest hfound
      exact ⟨s, rest', hs.trans (List.suffix_append (mark :: u) rest), hfound'⟩

end Pattern.OpensWith

/-! ### Texts in a row -/

/-- A substitution makes one text of another wherever this stands: whatever follows, nothing begins
in it that reaches over its end. -/
def Rewrites (p : Pattern α) (image : α → Text) (u v : Text) : Prop :=
  ∀ rest, substitute p image (u ++ rest) = v ++ substitute p image rest

namespace Rewrites

variable {p : Pattern α} {image : α → Text} {u v : Text}

theorem nil : Rewrites p image [] [] := fun _ => rfl

theorem append (h : Rewrites p image u v) {u' v' : Text} (h' : Rewrites p image u' v') :
    Rewrites p image (u ++ u') (v ++ v') := by
  intro rest
  rw [List.append_assoc, h, h', List.append_assoc]

/-- A character at which nothing is found stays. -/
theorem cons (c : Char) (hc : ∀ rest, p (c :: (u ++ rest)) = none) (h : Rewrites p image u v) :
    Rewrites p image (c :: u) (c :: v) := by
  intro rest
  rw [List.cons_append, substitute_plain image (hc rest), h, List.cons_append]

/-- A text in which nothing is found, whatever follows, stays. -/
theorem of_none (h : ∀ s, s <:+ u → s ≠ [] → ∀ rest, p (s ++ rest) = none) :
    Rewrites p image u u := by
  induction u with
  | nil => exact nil
  | cons c u ih =>
    refine cons c (h (c :: u) List.suffix_rfl (List.cons_ne_nil c u)) (ih fun s hs => ?_)
    exact h s (hs.trans (List.suffix_cons c u))

theorem flatMap {β : Type} {f g : β → Text} {parts : List β}
    (h : ∀ part ∈ parts, Rewrites p image (f part) (g part)) :
    Rewrites p image (parts.flatMap f) (parts.flatMap g) := by
  induction parts with
  | nil => exact nil
  | cons part parts ih =>
    rw [List.forall_mem_cons] at h
    rw [List.flatMap_cons, List.flatMap_cons]
    exact h.1.append (ih h.2)

theorem substitute_eq (h : Rewrites p image u v) : substitute p image u = v := by
  have hnil : substitute p image [] = [] := rfl
  have hu := h []
  rwa [List.append_nil, hnil, List.append_nil] at hu

end Rewrites

namespace Pattern.OpensWith

variable {p : Pattern α} {mark : Char} (hp : p.OpensWith mark) (image : α → Text)
include hp

/-- A text without the mark stays. -/
theorem rewrites_self {u : Text} (hu : mark ∉ u) : Rewrites p image u u :=
  hp.substitute_append image hu

/-- A find is replaced by its image. -/
theorem rewrites_found {u : Text} {a : α} (hu : ∀ rest, p (u ++ rest) = some (a, rest)) :
    Rewrites p image u (image a) :=
  fun rest => hp.substitute_found image (hu rest)

end Pattern.OpensWith

end StyleDocs.Text
