import StyleDocs.Text

/-!
# Regular expressions with a preference

A regular expression can fit the front of a text in several ways: a repetition may take more or
fewer characters, and what is optional may be left out. The ways are tried in a fixed order and the
first one counts: a repetition takes as much as it can, or as little if it is reluctant, and what is
optional is taken if that leads to a fit. So an expression stands for the list of all its ways in
this order, each with the texts of its groups. Which ways there are does not depend on the order
(`mem_ways_iff`), and the order matters only where two ways differ.
-/

namespace StyleDocs.Text

/-- A regular expression. -/
inductive Expression where
  /-- Nothing. -/
  | nothing
  /-- One character of a class. -/
  | one (p : Char → Bool)
  /-- Characters of a class, as many as possible. -/
  | many (p : Char → Bool)
  /-- Characters of a class, as few as possible. -/
  | few (p : Char → Bool)
  /-- An expression, if possible. -/
  | maybe (e : Expression)
  /-- One expression and then another. -/
  | seq (e f : Expression)
  /-- An expression whose text is kept. -/
  | group (e : Expression)
  /-- The end of the text. -/
  | stop

/-- A way to fit the front of a text. -/
structure Way where
  /-- The text that is fitted. -/
  text : Text
  /-- The texts of the groups. -/
  groups : List Text
  /-- What is left of the text. -/
  rest : Text

namespace Way

/-- One way and then another. -/
def next (a b : Way) : Way := ⟨a.text ++ b.text, a.groups ++ b.groups, b.rest⟩

/-- A way whose text is kept. -/
def keep (a : Way) : Way := { a with groups := a.text :: a.groups }

end Way

namespace Expression

/-- Expressions in a row. -/
def row : List Expression → Expression
  | [] => nothing
  | e :: es => seq e (row es)

/-- A word, whose letters may be of either case. -/
def word : Text → Expression
  | [] => nothing
  | c :: cs => seq (one fun d => d.toLower == c) (word cs)

/-- The ways to take characters of a class from the front of a text, the longest first. -/
def runs (p : Char → Bool) : Text → List Way
  | [] => [⟨[], [], []⟩]
  | c :: cs =>
    if p c then (runs p cs).map (Way.next ⟨[c], [], cs⟩) ++ [⟨[], [], c :: cs⟩]
    else [⟨[], [], c :: cs⟩]

/-- The ways in which an expression fits the front of a text, in the order in which they are
tried. -/
def ways : Expression → Text → List Way
  | nothing, t => [⟨[], [], t⟩]
  | one _, [] => []
  | one p, c :: cs => if p c then [⟨[c], [], cs⟩] else []
  | many p, t => runs p t
  | few p, t => (runs p t).reverse
  | maybe e, t => ways e t ++ [⟨[], [], t⟩]
  | seq e f, t => (ways e t).flatMap fun way => (ways f way.rest).map way.next
  | group e, t => (ways e t).map Way.keep
  | stop, t => if t.isEmpty then [⟨[], [], []⟩] else []

/-- The way that counts. -/
def first? (e : Expression) (t : Text) : Option Way := (ways e t).head?

/-- Whether an expression fits the front of a text. -/
def isMatch (e : Expression) (t : Text) : Bool := (first? e t).isSome

/-! ### Which ways there are -/

/-- An expression fits a text, with these groups and in front of this rest. -/
def Fits : Expression → (text : Text) → (groups : List Text) → (rest : Text) → Prop
  | nothing, u, gs, _ => u = [] ∧ gs = []
  | one p, u, gs, _ => (∃ c, p c = true ∧ u = [c]) ∧ gs = []
  | many p, u, gs, _ => (∀ c ∈ u, p c = true) ∧ gs = []
  | few p, u, gs, _ => (∀ c ∈ u, p c = true) ∧ gs = []
  | maybe e, u, gs, rest => Fits e u gs rest ∨ u = [] ∧ gs = []
  | seq e f, u, gs, rest => ∃ a b, u = a ++ b ∧ ∃ ga gb, gs = ga ++ gb ∧
      Fits e a ga (b ++ rest) ∧ Fits f b gb rest
  | group e, u, gs, rest => ∃ gs', gs = u :: gs' ∧ Fits e u gs' rest
  | stop, u, gs, rest => u = [] ∧ gs = [] ∧ rest = []

section Fits

variable {p : Char → Bool} {e f : Expression} {u rest : Text} {gs : List Text}

theorem fits_nothing_iff : Fits nothing u gs rest ↔ u = [] ∧ gs = [] := Iff.rfl

theorem fits_one_iff : Fits (one p) u gs rest ↔ (∃ c, p c = true ∧ u = [c]) ∧ gs = [] := Iff.rfl

theorem fits_many_iff : Fits (many p) u gs rest ↔ (∀ c ∈ u, p c = true) ∧ gs = [] := Iff.rfl

theorem fits_few_iff : Fits (few p) u gs rest ↔ (∀ c ∈ u, p c = true) ∧ gs = [] := Iff.rfl

theorem fits_maybe_iff : Fits (maybe e) u gs rest ↔ Fits e u gs rest ∨ u = [] ∧ gs = [] := Iff.rfl

theorem fits_seq_iff : Fits (seq e f) u gs rest ↔ ∃ a b, u = a ++ b ∧ ∃ ga gb, gs = ga ++ gb ∧
    Fits e a ga (b ++ rest) ∧ Fits f b gb rest := Iff.rfl

theorem fits_group_iff : Fits (group e) u gs rest ↔ ∃ gs', gs = u :: gs' ∧ Fits e u gs' rest :=
  Iff.rfl

theorem fits_stop_iff : Fits stop u gs rest ↔ u = [] ∧ gs = [] ∧ rest = [] := Iff.rfl

end Fits

variable {p : Char → Bool} {e f : Expression} {t : Text} {way : Way}

theorem way_eq_iff {u rest : Text} {gs : List Text} :
    way = ⟨u, gs, rest⟩ ↔ way.text = u ∧ way.groups = gs ∧ way.rest = rest := by
  cases way
  rw [Way.mk.injEq]

/-- The way that takes nothing. -/
theorem way_eq_empty_iff : way = ⟨[], [], t⟩ ↔
    (way.text = [] ∧ way.groups = []) ∧ t = way.text ++ way.rest := by
  rw [way_eq_iff]
  constructor
  · rintro ⟨htext, hgroups, rfl⟩
    exact ⟨⟨htext, hgroups⟩, by rw [htext, List.nil_append]⟩
  · rintro ⟨⟨htext, hgroups⟩, h⟩
    rw [htext, List.nil_append] at h
    exact ⟨htext, hgroups, h.symm⟩

theorem mem_runs_iff : way ∈ runs p t ↔
    Fits (many p) way.text way.groups way.rest ∧ t = way.text ++ way.rest := by
  induction t generalizing way with
  | nil =>
    rw [runs, List.mem_singleton, way_eq_empty_iff, fits_many_iff]
    refine and_congr_left fun h => and_congr_left fun _ => ?_
    rw [(List.append_eq_nil_iff.1 h.symm).1]
    simp
  | cons c t ih =>
    obtain ⟨u, gs, rest⟩ := way
    rw [runs, fits_many_iff]
    split
    · next hc =>
      rw [List.mem_append, List.mem_singleton, way_eq_empty_iff, List.mem_map]
      constructor
      · rintro (⟨a, ha, hway⟩ | ⟨⟨rfl, rfl⟩, h⟩)
        · obtain ⟨⟨hrun, hgroups⟩, rfl⟩ := ih.1 ha
          cases hway
          exact ⟨⟨List.forall_mem_cons.2 ⟨hc, hrun⟩, hgroups⟩, rfl⟩
        · exact ⟨⟨by simp, rfl⟩, h⟩
      · rintro ⟨⟨hrun, rfl⟩, h⟩
        cases u with
        | nil => exact Or.inr ⟨⟨rfl, rfl⟩, h⟩
        | cons d u =>
          obtain ⟨rfl, rfl⟩ := List.cons.inj h
          have hrun' : ∀ d ∈ u, p d = true := fun d hd => hrun d (List.mem_cons_of_mem _ hd)
          exact Or.inl ⟨⟨u, [], rest⟩, ih.2 ⟨⟨hrun', rfl⟩, rfl⟩, rfl⟩
    · next hc =>
      rw [List.mem_singleton, way_eq_empty_iff]
      refine and_congr_left fun h => and_congr_left fun _ => ⟨?_, fun hrun => ?_⟩
      · rintro rfl
        simp
      · cases u with
        | nil => rfl
        | cons d u =>
          obtain ⟨rfl, -⟩ := List.cons.inj h
          exact absurd (hrun c List.mem_cons_self) hc

/-- The ways of an expression cut the text into a front that it fits and a rest. -/
theorem mem_ways_iff : way ∈ ways e t ↔
    Fits e way.text way.groups way.rest ∧ t = way.text ++ way.rest := by
  induction e generalizing t way with
  | nothing => rw [ways, List.mem_singleton, way_eq_empty_iff, fits_nothing_iff]
  | one p =>
    rw [fits_one_iff]
    cases t with
    | nil =>
      refine iff_of_false List.not_mem_nil ?_
      rintro ⟨⟨⟨c, -, hc⟩, -⟩, h⟩
      rw [hc] at h
      cases h
    | cons c t =>
      rw [ways]
      split
      · next hc =>
        rw [List.mem_singleton, way_eq_iff]
        constructor
        · rintro ⟨htext, hgroups, rfl⟩
          exact ⟨⟨⟨c, hc, htext⟩, hgroups⟩, by rw [htext]; rfl⟩
        · rintro ⟨⟨⟨d, -, htext⟩, hgroups⟩, h⟩
          rw [htext] at h ⊢
          obtain ⟨rfl, hrest⟩ := List.cons.inj h
          exact ⟨rfl, hgroups, hrest.symm⟩
      · next hc =>
        refine iff_of_false List.not_mem_nil ?_
        rintro ⟨⟨⟨d, hd, htext⟩, -⟩, h⟩
        rw [htext] at h
        obtain ⟨rfl, -⟩ := List.cons.inj h
        exact hc hd
  | many p => exact mem_runs_iff
  | few p => rw [ways, List.mem_reverse, mem_runs_iff]; rfl
  | maybe e ih =>
    rw [ways, List.mem_append, ih, List.mem_singleton, way_eq_empty_iff, fits_maybe_iff,
      or_and_right]
  | seq e f ihe ihf =>
    simp only [ways, List.mem_flatMap, List.mem_map, ihe, ihf]
    constructor
    · rintro ⟨a, ⟨ha, rfl⟩, b, ⟨hb, hrest⟩, rfl⟩
      rw [hrest] at ha
      exact ⟨⟨a.text, b.text, rfl, a.groups, b.groups, rfl, ha, hb⟩, by simp [Way.next, hrest]⟩
    · obtain ⟨u, gs, rest⟩ := way
      rintro ⟨⟨a, b, rfl, ga, gb, rfl, ha, hb⟩, rfl⟩
      exact ⟨⟨a, ga, b ++ rest⟩, ⟨ha, List.append_assoc ..⟩, ⟨b, gb, rest⟩, ⟨hb, rfl⟩, rfl⟩
  | group e ih =>
    simp only [ways, List.mem_map, ih, fits_group_iff]
    constructor
    · rintro ⟨a, ⟨ha, rfl⟩, rfl⟩
      exact ⟨⟨a.groups, rfl, ha⟩, rfl⟩
    · rintro ⟨⟨gs, hgroups, hgs⟩, rfl⟩
      exact ⟨⟨way.text, gs, way.rest⟩, ⟨hgs, rfl⟩, by rw [Way.keep, ← hgroups]⟩
  | stop =>
    rw [ways, fits_stop_iff]
    cases t with
    | nil =>
      rw [List.isEmpty_nil, if_pos rfl, List.mem_singleton, way_eq_iff]
      refine ⟨fun h => ⟨h, by rw [h.1, h.2.2]; rfl⟩, And.left⟩
    | cons c t =>
      refine iff_of_false (by simp) ?_
      rintro ⟨⟨htext, -, hrest⟩, h⟩
      rw [htext, hrest] at h
      cases h

/-- What counts is a way. -/
theorem fits_of_first? (h : first? e t = some way) :
    Fits e way.text way.groups way.rest ∧ t = way.text ++ way.rest :=
  mem_ways_iff.1 (List.mem_of_mem_head? h)

theorem first?_isSome_of_fits {u rest : Text} {gs : List Text} (h : Fits e u gs rest) :
    (first? e (u ++ rest)).isSome = true := by
  have hmem : ⟨u, gs, rest⟩ ∈ ways e (u ++ rest) := mem_ways_iff.2 ⟨h, rfl⟩
  rw [first?, List.isSome_head?]
  exact List.ne_nil_of_mem hmem

/-- An expression fits the front of a text exactly when it fits some front of it. -/
theorem isMatch_iff : isMatch e t = true ↔ ∃ u gs rest, Fits e u gs rest ∧ t = u ++ rest := by
  constructor
  · intro h
    obtain ⟨way, hway⟩ := Option.isSome_iff_exists.1 h
    exact ⟨way.text, way.groups, way.rest, fits_of_first? hway⟩
  · rintro ⟨u, gs, rest, h, rfl⟩
    exact first?_isSome_of_fits h

theorem fits_word_iff {w u : Text} {gs : List Text} {rest : Text} :
    Fits (word w) u gs rest ↔ u.map Char.toLower = w ∧ gs = [] := by
  induction w generalizing u gs with
  | nil => rw [word, fits_nothing_iff, List.map_eq_nil_iff]
  | cons c w ih =>
    rw [word, fits_seq_iff]
    constructor
    · rintro ⟨a, b, rfl, ga, gb, rfl, ⟨⟨d, hd, rfl⟩, rfl⟩, hb⟩
      obtain ⟨rfl, rfl⟩ := ih.1 hb
      exact ⟨by simpa using hd, rfl⟩
    · rintro ⟨hu, rfl⟩
      cases u with
      | nil => cases hu
      | cons d u =>
        obtain ⟨hd, hu⟩ := List.cons.inj hu
        exact ⟨[d], u, rfl, [], [], rfl, ⟨⟨d, by simpa using hd, rfl⟩, rfl⟩, ih.2 ⟨hu, rfl⟩⟩

/-! ### What comes first in a row -/

variable {u rest : Text} {gs : List Text}

theorem fits_seq_one_iff : Fits (seq (one p) f) u gs rest ↔
    ∃ c v, u = c :: v ∧ p c = true ∧ Fits f v gs rest := by
  rw [fits_seq_iff]
  constructor
  · rintro ⟨_, v, rfl, _, gs', rfl, ⟨⟨c, hc, rfl⟩, rfl⟩, hf⟩
    exact ⟨c, v, rfl, hc, hf⟩
  · rintro ⟨c, v, rfl, hc, hf⟩
    exact ⟨[c], v, rfl, [], gs, rfl, ⟨⟨c, hc, rfl⟩, rfl⟩, hf⟩

theorem fits_seq_many_iff : Fits (seq (many p) f) u gs rest ↔
    ∃ a v, u = a ++ v ∧ (∀ c ∈ a, p c = true) ∧ Fits f v gs rest := by
  rw [fits_seq_iff]
  constructor
  · rintro ⟨a, v, rfl, _, gs', rfl, ⟨ha, rfl⟩, hf⟩
    exact ⟨a, v, rfl, ha, hf⟩
  · rintro ⟨a, v, rfl, ha, hf⟩
    exact ⟨a, v, rfl, [], gs, rfl, ⟨ha, rfl⟩, hf⟩

theorem fits_seq_word_iff {w : Text} : Fits (seq (word w) f) u gs rest ↔
    ∃ a v, u = a ++ v ∧ a.map Char.toLower = w ∧ Fits f v gs rest := by
  rw [fits_seq_iff]
  constructor
  · rintro ⟨a, v, rfl, _, gs', rfl, ha, hf⟩
    obtain ⟨hw, rfl⟩ := fits_word_iff.1 ha
    exact ⟨a, v, rfl, hw, hf⟩
  · rintro ⟨a, v, rfl, ha, hf⟩
    exact ⟨a, v, rfl, [], gs, rfl, fits_word_iff.2 ⟨ha, rfl⟩, hf⟩

theorem fits_seq_maybe_iff :
    Fits (seq (maybe e) f) u gs rest ↔ Fits (seq e f) u gs rest ∨ Fits f u gs rest := by
  rw [fits_seq_iff, fits_seq_iff]
  constructor
  · rintro ⟨a, v, rfl, ga, gs', rfl, he | ⟨rfl, rfl⟩, hf⟩
    · exact Or.inl ⟨a, v, rfl, ga, gs', rfl, he, hf⟩
    · exact Or.inr hf
  · rintro (⟨a, v, rfl, ga, gs', rfl, he, hf⟩ | hf)
    · exact ⟨a, v, rfl, ga, gs', rfl, Or.inl he, hf⟩
    · exact ⟨[], u, rfl, [], gs, rfl, Or.inr ⟨rfl, rfl⟩, hf⟩

/-- What is optional may be empty. -/
theorem fits_seq_maybe_one_iff : Fits (seq (maybe (one p)) f) u gs rest ↔
    ∃ a v, u = a ++ v ∧ (a = [] ∨ ∃ c, a = [c] ∧ p c = true) ∧ Fits f v gs rest := by
  rw [fits_seq_maybe_iff, fits_seq_one_iff]
  constructor
  · rintro (⟨c, v, rfl, hc, hf⟩ | hf)
    · exact ⟨[c], v, rfl, Or.inr ⟨c, rfl, hc⟩, hf⟩
    · exact ⟨[], u, rfl, Or.inl rfl, hf⟩
  · rintro ⟨_, v, rfl, rfl | ⟨c, rfl, hc⟩, hf⟩
    · exact Or.inr hf
    · exact Or.inl ⟨c, v, rfl, hc, hf⟩

theorem fits_seq_group_iff : Fits (seq (group e) f) u gs rest ↔
    ∃ a v ga gs', u = a ++ v ∧ gs = a :: (ga ++ gs') ∧ Fits e a ga (v ++ rest) ∧
      Fits f v gs' rest := by
  rw [fits_seq_iff]
  constructor
  · rintro ⟨a, v, rfl, _, gs', rfl, ⟨ga, rfl, he⟩, hf⟩
    exact ⟨a, v, ga, gs', rfl, rfl, he, hf⟩
  · rintro ⟨a, v, ga, gs', rfl, rfl, he, hf⟩
    exact ⟨a, v, rfl, a :: ga, gs', rfl, ⟨ga, rfl, he⟩, hf⟩

theorem fits_seq_seq_iff {g : Expression} :
    Fits (seq (seq e f) g) u gs rest ↔ Fits (seq e (seq f g)) u gs rest := by
  simp only [fits_seq_iff]
  constructor
  · rintro ⟨_, v, rfl, _, gs', rfl, ⟨a, b, rfl, ga, gb, rfl, he, hf⟩, hg⟩
    exact ⟨a, b ++ v, List.append_assoc .., ga, gb ++ gs', List.append_assoc ..,
      by rwa [List.append_assoc], b, v, rfl, gb, gs', rfl, hf, hg⟩
  · rintro ⟨a, _, rfl, ga, _, rfl, he, b, v, rfl, gb, gs', rfl, hf, hg⟩
    rw [List.append_assoc] at he
    exact ⟨a ++ b, v, (List.append_assoc ..).symm, ga ++ gb, gs', (List.append_assoc ..).symm,
      ⟨a, b, rfl, ga, gb, rfl, he, hf⟩, hg⟩

theorem fits_seq_stop_iff : Fits (seq stop nothing) u gs rest ↔ u = [] ∧ gs = [] ∧ rest = [] := by
  rw [fits_seq_iff]
  constructor
  · rintro ⟨_, _, rfl, _, _, rfl, ⟨rfl, rfl, h⟩, rfl, rfl⟩
    exact ⟨rfl, rfl, h⟩
  · rintro ⟨rfl, rfl, rfl⟩
    exact ⟨[], [], rfl, [], [], rfl, ⟨rfl, rfl, rfl⟩, rfl, rfl⟩

/-! ### Which way counts -/

theorem head?_runs : (runs p t).head? = some ⟨t.takeWhile p, [], t.dropWhile p⟩ := by
  induction t with
  | nil => rfl
  | cons c t ih =>
    rw [runs]
    split
    · next hc =>
      rw [List.head?_append, List.head?_map, ih, List.takeWhile_cons_of_pos hc,
        List.dropWhile_cons_of_pos hc]
      rfl
    · next hc =>
      rw [List.takeWhile_cons_of_neg hc, List.dropWhile_cons_of_neg hc]
      rfl

/-- A repetition takes as much as it can, if what follows it fits there. -/
theorem first?_seq_many (h : (first? f (t.dropWhile p)).isSome = true) :
    first? (seq (many p) f) t =
      (first? f (t.dropWhile p)).map (Way.next ⟨t.takeWhile p, [], t.dropWhile p⟩) := by
  obtain ⟨way, hway⟩ := Option.isSome_iff_exists.1 h
  obtain ⟨later, hruns⟩ := List.head?_eq_some_iff.1 (head?_runs (p := p) (t := t))
  rw [first?, ways, ways, hruns, List.flatMap_cons, List.head?_append, List.head?_map]
  change ((first? f _).map _).or _ = _
  rw [hway]
  rfl

end Expression

end StyleDocs.Text
