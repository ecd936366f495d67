import StyleDocs.Proofs.Text.Occurrence
import StyleDocs.Wildcard.Listing

/-!
# Patterns that stand for themselves

The bracketed form of a text is a pattern that stands for the text and nothing else. It has a slash
where the text has one, so the components of a bracketed path are the bracketed components of the
path.
-/

namespace StyleDocs.Wildcard

open Text

/-- Whether a character is special in patterns. -/
def isSpecial (c : Char) : Bool := c = '?' || c = '*' || c = '[' || c = ']'

/-- The part that stands for one character of a bracketed text. -/
def escapedPart (c : Char) : Part := if isSpecial c then .within [.one c] else .char c

/-- The component that stands for a name. -/
def named (name : Text) : List Part := name.map escapedPart

theorem escape_cons_of_special {c : Char} (h : isSpecial c = true) (t : Text) :
    escape (c :: t) = '[' :: c :: ']' :: escape t := by
  rw [escape, List.flatMap_cons, ← escape, if_pos (by simpa [isSpecial] using h)]
  rfl

theorem escape_cons_of_not_special {c : Char} (h : isSpecial c = false) (t : Text) :
    escape (c :: t) = c :: escape t := by
  rw [escape, List.flatMap_cons, ← escape, if_neg (by simpa [isSpecial] using h)]
  rfl

theorem partsFrom_cons {position taken : Nat} {before : Option Char} {c : Char} {rest : Text}
    {found : List Part} (h : partsAt position before c rest = .ok (found, taken)) :
    partsFrom 0 position before (c :: rest) =
      (partsFrom taken (position + 1) (some c) rest).map (found ++ ·) := by
  rw [partsFrom, h]
  dsimp only
  cases partsFrom taken (position + 1) (some c) rest <;> rfl

/-- The bracketed form of a text is read as the parts of its characters, and what stands behind it
is read on from there. -/
theorem exists_partsFrom_escape (t rest : Text) (position : Nat) (before : Option Char) :
    ∃ position' before', partsFrom 0 position before (escape t ++ rest) =
      (partsFrom 0 position' before' rest).map (named t ++ ·) := by
  induction t generalizing position before with
  | nil =>
    refine ⟨position, before, ?_⟩
    change partsFrom 0 position before rest = _
    cases partsFrom 0 position before rest <;> rfl
  | cons c t ih =>
    have hnamed : named (c :: t) = escapedPart c :: named t := rfl
    cases h : isSpecial c with
    | true =>
      have hset : partsAt position before '[' (c :: ']' :: (escape t ++ rest)) =
          .ok ([.within [.one c]], 2) := by
        simp only [isSpecial, Bool.or_eq_true, decide_eq_true_eq, or_assoc] at h
        rcases h with rfl | rfl | rfl | rfl <;> rfl
      obtain ⟨position', before', ih⟩ := ih (position + 1 + 1 + 1) (some ']')
      refine ⟨position', before', ?_⟩
      rw [escape_cons_of_special h, List.cons_append, List.cons_append, List.cons_append,
        partsFrom_cons hset, partsFrom, partsFrom, ih, hnamed, escapedPart, if_pos h]
      cases partsFrom 0 position' before' rest <;> rfl
    | false =>
      have hchar : partsAt position before c (escape t ++ rest) = .ok ([.char c], 0) := by
        simp only [isSpecial, Bool.or_eq_false_iff, decide_eq_false_iff_not] at h
        simp [partsAt, h]
      obtain ⟨position', before', ih⟩ := ih (position + 1) (some c)
      refine ⟨position', before', ?_⟩
      rw [escape_cons_of_not_special h, List.cons_append, partsFrom_cons hchar, ih, hnamed,
        escapedPart, h, if_neg Bool.false_ne_true]
      cases partsFrom 0 position' before' rest <;> rfl

/-- The bracketed form of a text is a pattern wherever it stands. -/
theorem partsFrom_escape (t : Text) (position : Nat) (before : Option Char) :
    partsFrom 0 position before (escape t) = .ok (named t) := by
  obtain ⟨position', before', h⟩ := exists_partsFrom_escape t [] position before
  rw [List.append_nil, partsFrom] at h
  rw [h, Except.map, List.append_nil]

/-- The bracketed form of a text is a pattern. -/
theorem parts_escape (t : Text) : parts (escape t) = .ok (named t) := partsFrom_escape t 0 none

/-- A text without special characters is its bracketed form. -/
theorem escape_eq_self {t : Text} (h : ∀ c ∈ t, isSpecial c = false) : escape t = t := by
  induction t with
  | nil => rfl
  | cons c t ih =>
    obtain ⟨hc, ht⟩ := List.forall_mem_cons.1 h
    rw [escape_cons_of_not_special hc, ih ht]

/-- A component that stands for a name and has no special parts is looked up under the name. -/
theorem eq_of_literal?_named {name found : Text} (h : literal? (named name) = some found) :
    found = name := by
  induction name generalizing found with
  | nil => simpa [named, literal?] using h.symm
  | cons c name ih =>
    cases hc : isSpecial c with
    | true => simp [named, escapedPart, hc, literal?] at h
    | false =>
      have hcons : named (c :: name) = .char c :: named name := by simp [named, escapedPart, hc]
      rw [hcons, literal?] at h
      obtain ⟨rest, hrest, rfl⟩ := Option.map_eq_some_iff.1 h
      rw [ih hrest]

theorem escapedPart_cases (c : Char) :
    escapedPart c = .within [.one c] ∨ escapedPart c = .char c := by
  unfold escapedPart
  split
  · exact Or.inl rfl
  · exact Or.inr rfl

/-- A component that stands for a name compares it character by character. -/
theorem accepts_named_cons (c d : Char) (name found : Text) :
    accepts (named (c :: name)) (d :: found) = (d == c && accepts (named name) found) := by
  rw [named, List.map_cons, ← named]
  rcases escapedPart_cases c with h | h <;> rw [h] <;>
    simp [accepts, Part.accepts, Spec.covers]

/-- A component that stands for a name accepts the name and nothing else. -/
theorem accepts_named_iff {name found : Text} :
    accepts (named name) found = true ↔ found = name := by
  induction name generalizing found with
  | nil => simp [named, accepts]
  | cons c name ih =>
    cases found with
    | nil =>
      rw [named, List.map_cons]
      rcases escapedPart_cases c with h | h <;> rw [h] <;> simp [accepts]
    | cons d found => rw [accepts_named_cons, Bool.and_eq_true, beq_iff_eq, ih, List.cons.injEq]

/-! ### Components of a pattern -/

/-- The components of a bracketed path are the bracketed components of the path. -/
theorem splitAt_escape (t : Text) : splitAt '/' (escape t) = (splitAt '/' t).map escape := by
  induction t with
  | nil => rfl
  | cons c t ih =>
    cases h : isSpecial c with
    | true =>
      have hslash : c ≠ '/' := by
        rintro rfl
        cases h
      have hpiece : '/' ∉ ['[', c, ']'] := by simp [hslash.symm]
      rw [escape_cons_of_special h]
      change splitAt '/' (['[', c, ']'] ++ escape t) = _
      rw [splitAt_append_of_not_mem hpiece, ih, splitAt, if_neg hslash]
      cases hparts : splitAt '/' t with
      | nil => exact absurd hparts (splitAt_ne_nil '/' t)
      | cons part parts => simp [escape_cons_of_special h]
    | false =>
      rw [escape_cons_of_not_special h, splitAt, splitAt, ih]
      by_cases hslash : c = '/'
      · rw [if_pos hslash, if_pos hslash, List.map_cons]
        rfl
      · rw [if_neg hslash, if_neg hslash]
        cases hparts : splitAt '/' t with
        | nil => exact absurd hparts (splitAt_ne_nil '/' t)
        | cons part parts => simp [escape_cons_of_not_special h]

/-- Reading some texts behind others reads both. -/
theorem exists_of_mapM_append {a b : List Text} {components : List (List Part)}
    (h : (a ++ b).mapM parts = .ok components) :
    ∃ front back, a.mapM parts = .ok front ∧ b.mapM parts = .ok back ∧
      components = front ++ back := by
  rw [List.mapM_append] at h
  cases hfront : a.mapM parts with
  | error fault =>
    rw [hfront] at h
    cases h
  | ok front =>
    cases hback : b.mapM parts with
    | error fault =>
      rw [hfront, hback] at h
      cases h
    | ok back =>
      rw [hfront, hback] at h
      cases h
      exact ⟨front, back, rfl, rfl, rfl⟩

theorem mapM_parts_escape (names : List Text) :
    (names.map escape).mapM parts = .ok (names.map named) := by
  induction names with
  | nil => rfl
  | cons name names ih =>
    rw [List.map_cons, List.mapM_cons, parts_escape, ih]
    rfl

/-- The components of the pattern for the documents below a path. -/
theorem splitAt_documents (path extension : Text) :
    splitAt '/' (escape path ++ "/**/*.".toList ++ extension) =
      (splitAt '/' path).map escape ++ "**".toList :: splitAt '/' ("*.".toList ++ extension) := by
  have hpattern : escape path ++ "/**/*.".toList ++ extension =
      (escape path ++ '/' :: "**".toList) ++ '/' :: ("*.".toList ++ extension) := by
    rw [List.append_assoc, List.append_assoc]
    rfl
  rw [hpattern, splitAt_append_mark, splitAt_append_mark, splitAt_escape, List.append_assoc]
  rfl

/-- The component that stands for the file names with an extension. -/
def withExtension (extension : Text) : List Part := .run :: named ('.' :: extension)

theorem escape_extension {extension : Text} (h : ∀ c ∈ extension, isSpecial c = false) :
    escape ('.' :: extension) = '.' :: extension :=
  escape_eq_self (List.forall_mem_cons.2 ⟨rfl, h⟩)

theorem partsFrom_withExtension {extension : Text} (h : ∀ c ∈ extension, isSpecial c = false)
    (position : Nat) (before : Option Char) :
    partsFrom 0 position before ("*.".toList ++ extension) = .ok (withExtension extension) := by
  have hrun : partsAt position before '*' ('.' :: extension) = .ok ([.run], 0) := rfl
  change partsFrom 0 position before ('*' :: '.' :: extension) = _
  rw [partsFrom_cons hrun, ← escape_extension h, partsFrom_escape]
  rfl

theorem mem_endings_iff {ending t : Text} : ending ∈ endings t ↔ ending <:+ t := by
  induction t with
  | nil => simp [endings]
  | cons c t ih => rw [endings, List.mem_cons, ih, List.suffix_cons_iff]

/-- The component accepts the names that end in a dot and the extension. -/
theorem accepts_withExtension_iff {extension file : Text} :
    accepts (withExtension extension) file = true ↔ ∃ name, file = name ++ '.' :: extension := by
  rw [withExtension, accepts, List.any_eq_true]
  simp only [mem_endings_iff, accepts_named_iff]
  constructor
  · rintro ⟨-, ⟨name, hname⟩, rfl⟩
    exact ⟨name, hname.symm⟩
  · rintro ⟨name, rfl⟩
    exact ⟨_, List.suffix_append _ _, rfl⟩

/-- The pattern for the documents below a path is one. -/
theorem exists_parts_documents (path : Text) {extension : Text}
    (h : ∀ c ∈ extension, isSpecial c = false) :
    ∃ found, parts (escape path ++ "/**/*.".toList ++ extension) = .ok found := by
  obtain ⟨position, before, hpath⟩ :=
    exists_partsFrom_escape path ("/**/*.".toList ++ extension) 0 none
  have hslash : partsAt position before '/' ('*' :: '*' :: '/' :: ("*.".toList ++ extension)) =
      .ok ([.char '/'], 0) := rfl
  have hdeep : partsAt (position + 1) (some '/') '*' ('*' :: '/' :: ("*.".toList ++ extension)) =
      .ok ([.deep], 2) := rfl
  have hbehind : partsFrom 0 position before ("/**/*.".toList ++ extension) =
      .ok ([.char '/'] ++ ([.deep] ++ withExtension extension)) := by
    change partsFrom 0 position before ('/' :: '*' :: '*' :: '/' :: ("*.".toList ++ extension)) = _
    rw [partsFrom_cons hslash, partsFrom_cons hdeep, partsFrom, partsFrom,
      partsFrom_withExtension h]
    rfl
  rw [List.append_assoc, parts, hpath, hbehind]
  exact ⟨_, rfl⟩

theorem mapM_documents {extension : Text} (h : ∀ c ∈ extension, isSpecial c = false)
    (names : List Text) :
    (names.map escape ++ ["**".toList, "*.".toList ++ extension]).mapM parts =
      .ok (names.map named ++ [[.deep], withExtension extension]) := by
  have hdeep : parts "**".toList = .ok [.deep] := rfl
  have hextension : parts ("*.".toList ++ extension) = .ok (withExtension extension) :=
    partsFrom_withExtension h 0 none
  rw [List.mapM_append, mapM_parts_escape, List.mapM_cons, List.mapM_cons, List.mapM_nil, hdeep,
    hextension]
  rfl

theorem isAbsolute_escape_append {path : Text} (hne : path ≠ []) (rest : Text) :
    Path.isAbsolute (escape path ++ rest) = Path.isAbsolute path := by
  obtain ⟨c, path, rfl⟩ := List.exists_cons_of_ne_nil hne
  cases h : isSpecial c with
  | true =>
    have hc : c ≠ '/' := by
      rintro rfl
      cases h
    rw [escape_cons_of_special h]
    simp [Path.isAbsolute, hc]
  | false =>
    rw [escape_cons_of_not_special h]
    rfl

/-- The components of the pattern for the documents below a relative path: those of the path, two
stars and the file names. The empty path has no components, for behind it the pattern begins with a
slash. -/
theorem compile_documents {path extension : Text} (hpath : Path.isAbsolute path = false)
    (hextension : ∀ c ∈ extension, c ≠ '/' ∧ isSpecial c = false) :
    compile (escape path ++ "/**/*.".toList ++ extension) =
      .ok ((if path = [] then [] else splitAt '/' path).map named ++
        [[.deep], withExtension extension]) := by
  have hspecial : ∀ c ∈ extension, isSpecial c = false := fun c hc => (hextension c hc).2
  have hslash : splitAt '/' ("*.".toList ++ extension) = ["*.".toList ++ extension] := by
    refine splitAt_of_not_mem ?_
    rw [List.mem_append, not_or]
    exact ⟨by decide, fun hmem => (hextension '/' hmem).1 rfl⟩
  have hcomponents : splitComponents (escape path ++ "/**/*.".toList ++ extension) =
      (if path = [] then [] else splitAt '/' path).map escape ++
        ["**".toList, "*.".toList ++ extension] := by
    by_cases hne : path = []
    · subst hne
      have hbehind : ("/**/*.".toList ++ extension).drop 1 =
          "**".toList ++ '/' :: ("*.".toList ++ extension) := rfl
      have habsolute : Path.isAbsolute ("/**/*.".toList ++ extension) = true := rfl
      change splitComponents ("/**/*.".toList ++ extension) = _
      rw [splitComponents, if_pos habsolute, hbehind, splitAt_append_mark, hslash]
      exact if_neg (by simp)
    · have hrelative : Path.isAbsolute (escape path ++ "/**/*.".toList ++ extension) = false := by
        rw [List.append_assoc, isAbsolute_escape_append hne, hpath]
      rw [splitComponents, hrelative, if_neg Bool.false_ne_true, splitAt_documents, hslash,
        if_neg hne]
      exact if_neg (by simp)
  obtain ⟨found, hfound⟩ := exists_parts_documents path hspecial
  rw [compile, hfound, hcomponents]
  exact mapM_documents hspecial _

/-- The components of the pattern for the documents below a path that begins with a dot: names
first, and behind them two stars. -/
theorem exists_of_compile {path extension : Text} {components : List (List Part)}
    (h : compile (escape ('.' :: '/' :: path) ++ "/**/*.".toList ++ extension) = .ok components) :
    ∃ (names : List Text) (back : List (List Part)), (∀ name ∈ names, '/' ∉ name) ∧
      components = names.map named ++ [.deep] :: back := by
  have hsplit : splitAt '/' (escape ('.' :: '/' :: path) ++ "/**/*.".toList ++ extension) =
      (splitAt '/' ('.' :: '/' :: path)).map escape ++ ["**".toList] ++
        splitAt '/' ("*.".toList ++ extension) := by
    rw [splitAt_documents, List.append_assoc]
    rfl
  -- A slash at the end takes away the last component, which is one behind the stars.
  have hcomponents : ∃ last, splitComponents
      (escape ('.' :: '/' :: path) ++ "/**/*.".toList ++ extension) =
        (splitAt '/' ('.' :: '/' :: path)).map escape ++ ["**".toList] ++ last := by
    have hrelative : Path.isAbsolute
        (escape ('.' :: '/' :: path) ++ "/**/*.".toList ++ extension) = false := by
      rw [escape_cons_of_not_special rfl]
      rfl
    rw [splitComponents, hrelative, if_neg Bool.false_ne_true, hsplit]
    split
    · exact ⟨_, List.dropLast_append_of_ne_nil (splitAt_ne_nil '/' _)⟩
    · exact ⟨_, rfl⟩
  obtain ⟨last, hlast⟩ := hcomponents
  unfold compile at h
  split at h
  · cases h
  · rw [hlast] at h
    obtain ⟨front, back, hfront, -, rfl⟩ := exists_of_mapM_append h
    obtain ⟨names, deep, hnames, hdeep, rfl⟩ := exists_of_mapM_append hfront
    rw [mapM_parts_escape] at hnames
    cases hnames
    cases hdeep
    refine ⟨splitAt '/' ('.' :: '/' :: path), back, fun name hname => ?_, by simp⟩
    exact not_mem_of_mem_splitAt hname

end StyleDocs.Wildcard
