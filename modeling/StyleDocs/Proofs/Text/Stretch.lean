import StyleDocs.Proofs.Text.Segment

/-!
# Stretches of segments

What a substitution by nothing leaves of a text is the plain text of its segments. A part of what is
left is the plain text of a stretch of the segments. If nothing was found within the stretch, then
the part stands in the text already; otherwise it was put together when a find was removed.
-/

namespace StyleDocs.Text

variable {α : Type}

/-- The plain characters among segments. -/
def plainText (segs : List (Segment α)) : Text :=
  segs.flatMap fun
    | .plain c => [c]
    | .found _ => []

@[simp] theorem plainText_nil : plainText ([] : List (Segment α)) = [] := rfl

@[simp] theorem plainText_plain (c : Char) (segs : List (Segment α)) :
    plainText (.plain c :: segs) = c :: plainText segs := rfl

@[simp] theorem plainText_found (a : α) (segs : List (Segment α)) :
    plainText (.found a :: segs) = plainText segs := rfl

@[simp] theorem plainText_append (segs segs' : List (Segment α)) :
    plainText (segs ++ segs') = plainText segs ++ plainText segs' := List.flatMap_append

/-- Something was found within a stretch. -/
def HasFind (segs : List (Segment α)) : Prop := ∃ a, .found a ∈ segs

/-- A stretch stops behind a plain character, if it has any segments. -/
def StopsPlain (segs : List (Segment α)) : Prop := segs = [] ∨ ∃ segs' c, segs = segs' ++ [.plain c]

/-- Where the plain text is cut, the segments can be cut too, right behind the last character. -/
theorem exists_stretch {segs : List (Segment α)} {x y : Text} (h : plainText segs = x ++ y) :
    ∃ a b, segs = a ++ b ∧ plainText a = x ∧ plainText b = y ∧ StopsPlain a := by
  induction segs generalizing x with
  | nil =>
    obtain ⟨rfl, rfl⟩ := List.append_eq_nil_iff.1 h.symm
    exact ⟨[], [], rfl, rfl, rfl, Or.inl rfl⟩
  | cons seg segs ih =>
    cases x with
    | nil => exact ⟨[], seg :: segs, rfl, rfl, h, Or.inl rfl⟩
    | cons c x =>
      cases seg with
      | plain d =>
        obtain ⟨rfl, hsegs⟩ := List.cons.inj h
        obtain ⟨a, b, rfl, rfl, hb, ha⟩ := ih hsegs
        refine ⟨.plain d :: a, b, rfl, rfl, hb, Or.inr ?_⟩
        rcases ha with rfl | ⟨a', e, rfl⟩
        · exact ⟨[], d, rfl⟩
        · exact ⟨.plain d :: a', e, rfl⟩
      | found found =>
        obtain ⟨a, b, rfl, hx, hb, ha⟩ := ih h
        refine ⟨.found found :: a, b, rfl, hx, hb, Or.inr ?_⟩
        rcases ha with rfl | ⟨a', e, rfl⟩
        · cases hx
        · exact ⟨.found found :: a', e, rfl⟩

/-- A part of the plain text is the plain text of a stretch that begins right behind a plain
character. -/
theorem exists_stretch_between {segs : List (Segment α)} {x w y : Text}
    (h : plainText segs = x ++ w ++ y) :
    ∃ a m b, segs = a ++ m ++ b ∧ plainText a = x ∧ plainText m = w ∧ plainText b = y ∧
      StopsPlain a := by
  rw [List.append_assoc] at h
  obtain ⟨a, rest, rfl, ha, hrest, hstop⟩ := exists_stretch h
  obtain ⟨m, b, rfl, hm, hb, -⟩ := exists_stretch hrest
  exact ⟨a, m, b, (List.append_assoc a m b).symm, ha, hm, hb, hstop⟩

variable {p : Pattern α} {mark : Char} {t : Text} {a b m : List (Segment α)}

/-- A plain character stands in the text, and nothing begins at it. -/
theorem exists_of_segments_plain (hp : p.OpensWith mark) {c : Char}
    (h : segments p t = .plain c :: b) :
    ∃ t', t = c :: t' ∧ p t = none ∧ segments p t' = b := by
  cases t with
  | nil => cases h
  | cons d t =>
    cases hfound : p (d :: t) with
    | none =>
      rw [segments_plain hfound] at h
      obtain ⟨hc, rfl⟩ := List.cons.inj h
      cases hc
      exact ⟨t, rfl, rfl, rfl⟩
    | some found =>
      obtain ⟨u, hu⟩ := hp _ found.1 found.2 hfound
      obtain ⟨rfl, rfl⟩ := List.cons.inj hu
      rw [segments_found hfound] at h
      cases h

/-- The segments behind others are those of the text behind them. -/
theorem exists_of_segments_append (hp : p.OpensWith mark) (h : segments p t = a ++ b) :
    ∃ u v, t = u ++ v ∧ segments p v = b := by
  induction a generalizing t with
  | nil => exact ⟨[], t, rfl, h⟩
  | cons seg a ih =>
    cases seg with
    | plain c =>
      obtain ⟨t', rfl, -, ht'⟩ := exists_of_segments_plain hp h
      obtain ⟨u, v, rfl, hv⟩ := ih ht'
      exact ⟨c :: u, v, rfl, hv⟩
    | found found =>
      cases t with
      | nil => cases h
      | cons d t =>
        cases hfound : p (d :: t) with
        | none =>
          rw [segments_plain hfound] at h
          cases h
        | some result =>
          obtain ⟨w, hw⟩ := hp _ result.1 result.2 hfound
          obtain ⟨rfl, rfl⟩ := List.cons.inj hw
          rw [segments_found hfound] at h
          obtain ⟨u, v, hrest, hv⟩ := ih (List.cons.inj h).2
          exact ⟨d :: (w ++ u), v, by rw [hrest]; simp, hv⟩

/-- A stretch without finds stands in the text. -/
theorem exists_of_not_hasFind (hp : p.OpensWith mark) (hm : ¬HasFind m)
    (h : segments p t = m ++ b) : ∃ v, t = plainText m ++ v ∧ segments p v = b := by
  induction m generalizing t with
  | nil => exact ⟨t, rfl, h⟩
  | cons seg m ih =>
    cases seg with
    | plain c =>
      obtain ⟨t', rfl, -, ht'⟩ := exists_of_segments_plain hp h
      have hrest : ¬HasFind m := by
        rintro ⟨found, hfound⟩
        exact hm ⟨found, List.mem_cons_of_mem _ hfound⟩
      obtain ⟨v, rfl, hv⟩ := ih hrest ht'
      exact ⟨v, rfl, hv⟩
    | found found => exact absurd ⟨found, List.mem_cons_self⟩ hm

theorem exists_of_not_hasFind_between (hp : p.OpensWith mark) (hm : ¬HasFind m)
    (h : segments p t = a ++ m ++ b) :
    ∃ u v, t = u ++ plainText m ++ v ∧ segments p (plainText m ++ v) = m ++ b := by
  rw [List.append_assoc] at h
  obtain ⟨u, rest, rfl, hrest⟩ := exists_of_segments_append hp h
  obtain ⟨v, rfl, -⟩ := exists_of_not_hasFind hp hm hrest
  exact ⟨u, v, (List.append_assoc ..).symm, hrest⟩

/-! ### Nothing found -/

theorem plainText_segmentsFrom_sublist (p : Pattern α) (skip : Nat) (t : Text) :
    (plainText (segmentsFrom p skip t)).Sublist t := by
  induction t generalizing skip with
  | nil => cases skip <;> exact List.Sublist.refl _
  | cons c t ih =>
    cases skip with
    | succ skip => exact (ih skip).cons c
    | zero =>
      rw [segmentsFrom]
      split
      · exact (ih _).cons c
      · exact (ih 0).cons_cons c

/-- If all of a text is left, then nothing was found in it. -/
theorem eq_none_of_plainText_eq {p : Pattern α} {t : Text} (h : plainText (segments p t) = t) :
    ∀ s, s <:+ t → s ≠ [] → p s = none := by
  induction t with
  | nil =>
    intro s hs hne
    exact absurd (List.suffix_nil.1 hs) hne
  | cons c t ih =>
    cases hfound : p (c :: t) with
    | some found =>
      have hlength := (plainText_segmentsFrom_sublist p (t.length - found.2.length) t).length_le
      have hplain : plainText (segments p (c :: t)) =
          plainText (segmentsFrom p (t.length - found.2.length) t) := by
        simp only [segments, segmentsFrom, hfound, plainText_found]
      rw [← hplain, h, List.length_cons] at hlength
      omega
    | none =>
      rw [segments_plain hfound, plainText_plain] at h
      intro s hs hne
      rcases List.suffix_cons_iff.1 hs with rfl | hs
      · exact hfound
      · exact ih (List.cons.inj h).2 s hs hne

end StyleDocs.Text
