import StyleDocs.Proofs.Markdown.Heading
import StyleDocs.Proofs.Text.Offset

/-!
# Where a section stands

A section is given by two lines: its heading and the line at which it ends, which is the next
heading that counts or the end of the document. It is what stands between the two, whole lines of
the text in a row. A scan that counts bytes finds the places of both, and since each is an end of a
line, the text can be cut there.
-/

namespace StyleDocs.Markdown

open Text

/-! ### Headings taken apart -/

/-- The parts of a heading. -/
structure HeadingParts where
  /-- The number of number signs. -/
  level : Nat
  /-- The blanks behind them. -/
  gap : Text
  /-- The title. -/
  title : Text
  /-- The blanks and number signs behind the title. -/
  closing : Text
  /-- Whether a carriage return ends the line. -/
  returned : Bool
  /-- There is a number sign. -/
  one_le_level : 1 ≤ level
  /-- There are at most six. -/
  level_le_six : level ≤ 6
  /-- There is a blank behind them. -/
  gap_ne_nil : gap ≠ []
  /-- The gap is made of blanks. -/
  isGap_gap : ∀ c ∈ gap, isGap c = true
  /-- All blanks behind the number signs belong to the gap. -/
  gap_whole : (title ++ closing).head?.any isGap = false
  /-- What closes the line is made of blanks and number signs. -/
  isClosing_closing : ∀ c ∈ closing, isClosing c = true
  /-- All blanks and number signs behind the title close the line. -/
  closing_whole : title.getLast?.any isClosing = false
  /-- A carriage return at the end of the line does not belong to the title. -/
  return_whole : returned = false → closing = [] → title.getLast? ≠ some '\r'

namespace HeadingParts

/-- What stands at the end of the line. -/
def ending (parts : HeadingParts) : Text := if parts.returned then ['\r'] else []

/-- The line, without its line feed. -/
def line (parts : HeadingParts) : Text :=
  List.replicate parts.level '#' ++ (parts.gap ++ (parts.title ++ parts.closing ++ parts.ending))

theorem titleOf_eq (parts : HeadingParts) :
    titleOf (parts.title ++ parts.closing ++ parts.ending) = parts.title := by
  have htrim : trimEnd isClosing (parts.title ++ parts.closing) = parts.title := by
    rw [trimEnd_append parts.isClosing_closing, trimEnd_eq_self parts.closing_whole]
  cases hreturn : parts.returned with
  | true =>
    rw [ending, hreturn, if_pos rfl, titleOf, List.reverse_append]
    exact htrim
  | false =>
    have hlast : (parts.title ++ parts.closing).getLast? ≠ some '\r' := by
      rcases List.eq_nil_or_concat' parts.closing with hnil | ⟨front, c, hclosing⟩
      · rw [hnil, List.append_nil]
        exact parts.return_whole hreturn hnil
      · have hc : isClosing c = true := parts.isClosing_closing c (by simp [hclosing])
        rw [hclosing, ← List.append_assoc, List.getLast?_concat, Ne, Option.some_inj]
        rintro rfl
        exact absurd hc (by decide)
    rw [ending, hreturn, if_neg Bool.false_ne_true, List.append_nil, Markdown.titleOf_eq hlast,
      htrim]

end HeadingParts

/-- What stands behind the gap of a heading is a title, what closes the line and perhaps a carriage
return. -/
theorem exists_titleOf (rest : Text) :
    ∃ (closing : Text) (returned : Bool),
      rest = titleOf rest ++ closing ++ (if returned then ['\r'] else []) ∧
      (∀ c ∈ closing, isClosing c = true) ∧ (titleOf rest).getLast?.any isClosing = false ∧
      (returned = false → closing = [] → (titleOf rest).getLast? ≠ some '\r') := by
  have hsplit : ∀ t : Text, trimEnd isClosing t ++ t.rtakeWhile isClosing = t := fun t =>
    List.rdropWhile_append_rtakeWhile
  have hclosing : ∀ t : Text, ∀ c ∈ t.rtakeWhile isClosing, isClosing c = true := fun t c hc =>
    List.mem_rtakeWhile_imp hc
  by_cases hlast : rest.getLast? = some '\r'
  · obtain ⟨front, rfl⟩ : ∃ front, rest = front ++ ['\r'] :=
      ⟨rest.dropLast, (List.dropLast_append_getLast? '\r' hlast).symm⟩
    have htitle : titleOf (front ++ ['\r']) = trimEnd isClosing front := by
      rw [titleOf, List.reverse_append]
      rfl
    refine ⟨front.rtakeWhile isClosing, true, ?_, hclosing front, ?_, fun h => by cases h⟩
    · rw [htitle, hsplit, if_pos rfl]
    · rw [htitle]
      exact getLast?_trimEnd isClosing front
  · have htitle := titleOf_eq hlast
    refine ⟨rest.rtakeWhile isClosing, false, ?_, hclosing rest, ?_, fun _ hnil => ?_⟩
    · rw [htitle, hsplit, if_neg Bool.false_ne_true, List.append_nil]
    · rw [htitle]
      exact getLast?_trimEnd isClosing rest
    · have hwhole := hsplit rest
      rw [hnil, List.append_nil] at hwhole
      rwa [htitle, hwhole]

namespace HeadingParts

variable (parts : HeadingParts)

/-- Behind the gap the line does not go on with a blank. -/
theorem head?_behind :
    (parts.title ++ parts.closing ++ parts.ending).head?.any isGap = false := by
  cases hfront : parts.title ++ parts.closing with
  | nil =>
    rw [List.nil_append, ending]
    split <;> rfl
  | cons c rest =>
    have hwhole := parts.gap_whole
    rw [hfront] at hwhole
    exact hwhole

theorem takeWhile_line : parts.line.takeWhile (· == '#') = List.replicate parts.level '#' ∧
    parts.line.dropWhile (· == '#') =
      parts.gap ++ (parts.title ++ parts.closing ++ parts.ending) := by
  obtain ⟨g, gap, hgap⟩ := List.exists_cons_of_ne_nil parts.gap_ne_nil
  have hsign : g ≠ '#' := by
    have hg : isGap g = true := parts.isGap_gap g (by simp [hgap])
    rintro rfl
    exact absurd hg (by decide)
  have hsigns : ∀ c ∈ List.replicate parts.level '#', (c == '#') = true := by
    intro c hc
    rw [List.eq_of_mem_replicate hc]
    rfl
  rw [line, hgap, List.cons_append]
  exact ⟨takeWhile_append_cons hsigns (by simpa using hsign) _,
    dropWhile_append_cons hsigns (by simpa using hsign) _⟩

end HeadingParts

/-- Number signs and a blank behind them begin a heading. -/
theorem exists_headingParts {level : Nat} (hone : 1 ≤ level) (hsix : level ≤ 6) {rest : Text}
    (hgap : rest.head?.any isGap = true) :
    ∃ parts : HeadingParts, parts.line = List.replicate level '#' ++ rest ∧
      parts.title = titleOf (rest.dropWhile isGap) := by
  have hsplit := List.takeWhile_append_dropWhile (p := isGap) (l := rest)
  have hbehind := head?_trimStart isGap rest
  obtain ⟨closing, returned, hrest, hclosing, htitle, hreturn⟩ :=
    exists_titleOf (rest.dropWhile isGap)
  rw [trimStart, hrest] at hbehind
  have hnil : rest.takeWhile isGap ≠ [] := by
    cases rest with
    | nil => cases hgap
    | cons c rest =>
      rw [List.takeWhile_cons_of_pos (by simpa using hgap)]
      exact List.cons_ne_nil _ _
  have hwhole : (titleOf (rest.dropWhile isGap) ++ closing).head?.any isGap = false := by
    cases hfront : titleOf (rest.dropWhile isGap) ++ closing with
    | nil => rfl
    | cons c front =>
      rw [hfront] at hbehind
      exact hbehind
  refine ⟨{ level := level
            gap := rest.takeWhile isGap
            title := titleOf (rest.dropWhile isGap)
            closing := closing
            returned := returned
            one_le_level := hone
            level_le_six := hsix
            gap_ne_nil := hnil
            isGap_gap := fun c hc => List.mem_takeWhile_imp hc
            gap_whole := hwhole
            isClosing_closing := hclosing
            closing_whole := htitle
            return_whole := hreturn }, ?_, rfl⟩
  simp only [HeadingParts.line, HeadingParts.ending]
  rw [← hrest, hsplit]

/-- A line is a heading exactly when it has the parts of one, and its title is the title among
them. -/
theorem headingTitle?_eq_some_iff {piece title : Text} :
    headingTitle? piece = some title ↔
      ∃ parts : HeadingParts, parts.line = trimEnd (· == '\n') piece ∧ parts.title = title := by
  simp only [headingTitle?]
  generalize trimEnd (· == '\n') piece = line
  constructor
  · intro h
    split at h
    · next hheading =>
      simp only [Bool.and_eq_true, decide_eq_true_eq] at hheading
      obtain ⟨⟨hone, hsix⟩, hgap⟩ := hheading
      obtain ⟨parts, hparts, htitle⟩ := exists_headingParts hone hsix hgap
      have hsigns : List.replicate (line.takeWhile (· == '#')).length '#' =
          line.takeWhile (· == '#') :=
        (List.eq_replicate_iff.2 ⟨rfl, fun c hc => by simpa using List.mem_takeWhile_imp hc⟩).symm
      refine ⟨parts, ?_, htitle.trans (Option.some.inj h)⟩
      rw [hparts, hsigns, List.takeWhile_append_dropWhile]
    · cases h
  · rintro ⟨parts, rfl, rfl⟩
    have hgap : (parts.gap ++ (parts.title ++ parts.closing ++ parts.ending)).head?.any isGap =
        true := by
      obtain ⟨g, gap, hgap⟩ := List.exists_cons_of_ne_nil parts.gap_ne_nil
      rw [hgap]
      exact parts.isGap_gap g (by simp [hgap])
    have hbehind : (parts.gap ++ (parts.title ++ parts.closing ++ parts.ending)).dropWhile isGap =
        parts.title ++ parts.closing ++ parts.ending := by
      rw [List.dropWhile_append_of_pos parts.isGap_gap]
      exact trimStart_eq_self parts.head?_behind
    rw [parts.takeWhile_line.1, parts.takeWhile_line.2, List.length_replicate, hgap, hbehind,
      parts.titleOf_eq, if_pos (by simp [parts.one_le_level, parts.level_le_six])]

/-! ### The lines of a section -/

/-- Line `i` of a text is a heading that counts: it is not fenced, and without its line feed it has
the parts of a heading with this title. -/
def IsLive (t : Text) (i : Nat) (title : Text) : Prop :=
  ∃ piece, (pieces t)[i]? = some piece ∧ (fenced (pieces t))[i]? = some false ∧
    ∃ parts : HeadingParts, parts.line = trimEnd (· == '\n') piece ∧ parts.title = title

theorem isLive_iff {t title : Text} {i : Nat} :
    IsLive t i title ↔ ∃ piece, (outline t)[i]? = some (piece, some title) := by
  refine exists_congr fun piece => ?_
  rw [← headingTitle?_eq_some_iff, outline_eq, marked, List.getElem?_map,
    Option.map_eq_some_iff]
  constructor
  · rintro ⟨hpiece, hflag, htitle⟩
    exact ⟨(piece, false), List.getElem?_zip_eq_some.2 ⟨hpiece, hflag⟩, Prod.ext rfl htitle⟩
  · rintro ⟨⟨piece', inside⟩, hzip, hentry⟩
    obtain ⟨hpiece, hflag⟩ := List.getElem?_zip_eq_some.1 hzip
    cases inside with
    | true => cases hentry
    | false =>
      obtain ⟨rfl, htitle⟩ := Prod.mk.inj hentry
      exact ⟨hpiece, hflag, htitle⟩

/-- The section with a title has its heading at line `i` and ends before line `j`. -/
structure IsSection (t title : Text) (i j : Nat) : Prop where
  /-- Line `i` is a heading with the title, ASCII case aside. -/
  headed : ∃ found, IsLive t i found ∧ sameIgnoringCase found title = true
  /-- It is the first one. -/
  first : ∀ k found, k < i → IsLive t k found → sameIgnoringCase found title = false
  /-- The section ends behind its heading. -/
  lt : i < j
  /-- No heading counts in between. -/
  inner : ∀ k found, i < k → k < j → ¬IsLive t k found
  /-- The section ends at the end of the text or at a heading that counts. -/
  stops : j = (pieces t).length ∨ ∃ found, IsLive t j found

theorem lt_length_of_isLive {t title : Text} {i : Nat} (h : IsLive t i title) :
    i < (pieces t).length := by
  obtain ⟨piece, hpiece, -⟩ := h
  exact (List.getElem?_eq_some_iff.1 hpiece).1

/-- There is one section with a title at most. -/
theorem IsSection.unique {t title : Text} {i j i' j' : Nat} (h : IsSection t title i j)
    (h' : IsSection t title i' j') : i = i' ∧ j = j' := by
  have hle : ∀ {a b c d : Nat}, IsSection t title a b → IsSection t title c d → a ≤ c := by
    intro a b c d hab hcd
    by_contra hlt
    obtain ⟨found, hlive, hsame⟩ := hcd.headed
    rw [hab.first c found (by omega) hlive] at hsame
    cases hsame
  have hi : i = i' := Nat.le_antisymm (hle h h') (hle h' h)
  subst hi
  refine ⟨rfl, ?_⟩
  have hend : ∀ {b d : Nat}, IsSection t title i b → IsSection t title i d → b ≤ d := by
    intro b d hb hd
    by_contra hlt
    have hbelow : d < (pieces t).length := by
      rcases hb.stops with hlast | ⟨found, hlive⟩
      · omega
      · have := lt_length_of_isLive hlive
        omega
    rcases hd.stops with hlast | ⟨found, hlive⟩
    · omega
    · exact hb.inner d found hd.lt (by omega) hlive
  exact Nat.le_antisymm (hend h h') (hend h' h)

/-- The lines of a document around the section with a title, each with its own title if it is a
heading that counts. -/
structure Around (title : Text) where
  /-- The lines above the heading. -/
  front : List (Text × Option Text)
  /-- The heading. -/
  heading : Text × Option Text
  /-- The lines of the section. -/
  body : List (Text × Option Text)
  /-- The lines behind it. -/
  behind : List (Text × Option Text)
  /-- No line above the heading is headed with the title. -/
  front_not : ∀ line ∈ front, isHeaded title line = false
  /-- The heading is. -/
  headed : isHeaded title heading = true
  /-- No heading counts in the section. -/
  body_none : ∀ line ∈ body, line.2 = none
  /-- What stands behind it begins with a heading that counts. -/
  behind_some : behind.head?.all fun line => line.2.isSome

/-- All the lines. -/
def Around.lines {title : Text} (around : Around title) : List (Text × Option Text) :=
  around.front ++ around.heading :: (around.body ++ around.behind)

/-- Where some line is headed with the title, there is a section. -/
theorem exists_around {title : Text} {outline : List (Text × Option Text)}
    (h : ∃ line ∈ outline, isHeaded title line = true) :
    ∃ around : Around title, outline = around.lines := by
  obtain ⟨heading, hfind⟩ := Option.isSome_iff_exists.1 (List.find?_isSome.2 h)
  obtain ⟨hheaded, front, rest, heq, hfront⟩ := List.find?_eq_some_iff_append.1 hfind
  have hstop : (rest.dropWhile fun line => line.2.isNone).head?.all fun line => line.2.isSome := by
    have hnot := List.head?_dropWhile_not (fun line : Text × Option Text => line.2.isNone) rest
    cases hhead : (rest.dropWhile fun line => line.2.isNone).head? with
    | none => rfl
    | some line =>
      rw [hhead] at hnot
      simpa [Option.isSome_iff_ne_none] using hnot
  refine ⟨{ front := front
            heading := heading
            body := rest.takeWhile fun line => line.2.isNone
            behind := rest.dropWhile fun line => line.2.isNone
            front_not := fun line hline => by simpa using hfront line hline
            headed := hheaded
            body_none := fun line hline => by simpa using List.mem_takeWhile_imp hline
            behind_some := hstop }, ?_⟩
  rw [Around.lines, List.takeWhile_append_dropWhile, heq]

namespace Around

variable {t title : Text} {around : Around title} (h : outline t = around.lines)

/-- The place of the line behind the section. -/
def stop (around : Around title) : Nat := around.front.length + 1 + around.body.length

include h

/-- The pieces of the text are the lines of its outline. -/
theorem pieces_eq : pieces t = around.front.map Prod.fst ++ [around.heading.1] ++
    around.body.map Prod.fst ++ around.behind.map Prod.fst := by
  rw [← map_fst_marked (pieces t), ← outline_eq, h, lines, List.append_assoc, List.append_assoc,
    List.singleton_append, List.map_append, List.map_cons, List.map_append]

theorem getElem?_front {k : Nat} (hk : k < around.front.length) :
    (outline t)[k]? = around.front[k]? := by
  rw [h, lines, List.getElem?_append_left hk]

theorem getElem?_heading : (outline t)[around.front.length]? = some around.heading := by
  rw [h, lines, List.getElem?_append_right le_rfl, Nat.sub_self, List.getElem?_cons_zero]

theorem getElem?_body {k : Nat} (hk : k < around.body.length) :
    (outline t)[around.front.length + 1 + k]? = around.body[k]? := by
  have hplace : around.front.length + 1 + k - around.front.length = k + 1 := by omega
  rw [h, lines, List.getElem?_append_right (by omega), hplace, List.getElem?_cons_succ,
    List.getElem?_append_left hk]

theorem getElem?_stop : (outline t)[around.stop]? = around.behind.head? := by
  have hplace : around.front.length + 1 + around.body.length - around.front.length =
      around.body.length + 1 := by omega
  rw [h, stop, lines, List.getElem?_append_right (by omega), hplace, List.getElem?_cons_succ,
    List.getElem?_append_right le_rfl, Nat.sub_self, List.head?_eq_getElem?]

theorem isSection : IsSection t title around.front.length around.stop where
  headed := by
    obtain ⟨found, hfound, hsame⟩ := (Option.any_eq_true _ _).1 around.headed
    refine ⟨found, isLive_iff.2 ⟨around.heading.1, ?_⟩, hsame⟩
    rw [getElem?_heading h, ← hfound]
  first := by
    intro k found hk hlive
    obtain ⟨piece, hpiece⟩ := isLive_iff.1 hlive
    rw [getElem?_front h hk] at hpiece
    exact around.front_not _ (List.mem_of_getElem? hpiece)
  lt := by
    rw [stop]
    omega
  inner := by
    intro k found hik hkj hlive
    obtain ⟨piece, hpiece⟩ := isLive_iff.1 hlive
    obtain ⟨m, rfl⟩ := Nat.exists_eq_add_of_le (show around.front.length + 1 ≤ k by omega)
    rw [stop] at hkj
    rw [getElem?_body h (by omega)] at hpiece
    have hnone := around.body_none _ (List.mem_of_getElem? hpiece)
    cases hnone
  stops := by
    have hstop := getElem?_stop h
    have hsome := around.behind_some
    cases hbehind : around.behind with
    | nil =>
      have hlength := congrArg List.length (pieces_eq h)
      rw [hbehind] at hlength
      simp only [List.length_append, List.length_map, List.length_singleton, List.map_nil,
        List.length_nil, Nat.add_zero] at hlength
      exact Or.inl hlength.symm
    | cons line rest =>
      rw [hbehind, List.head?_cons] at hstop hsome
      obtain ⟨found, hfound⟩ := Option.isSome_iff_exists.1 hsome
      refine Or.inr ⟨found, isLive_iff.2 ⟨line.1, ?_⟩⟩
      rw [hstop, ← hfound]

end Around

/-- The place in bytes of the border in front of line `n`. -/
def border (t : Text) (n : Nat) : Nat := byteLength ((pieces t).take n).flatten

/-- The lines of a text strictly between two of them, in a row. -/
def linesBetween (t : Text) (i j : Nat) : Text := (((pieces t).take j).drop (i + 1)).flatten

/-! ### The scan that counts bytes -/

/-- The places in bytes where the section with a title begins and ends. The scan knows how many
bytes it has passed, and where the body begins once it has passed the heading; the end of the text
is given. -/
def spanFrom (title : Text) (size : Nat) :
    Option Nat → Nat → List (Text × Option Text) → Option (Nat × Nat)
  | start, _, [] => start.map fun place => (place, size)
  | some place, offset, (line, found) :: rest =>
    if found.isSome then some (place, offset)
    else spanFrom title size (some place) (offset + byteLength line) rest
  | none, offset, (line, found) :: rest =>
    if isHeaded title (line, found) then
      spanFrom title size (some (offset + byteLength line)) (offset + byteLength line) rest
    else spanFrom title size none (offset + byteLength line) rest

/-- The places in bytes where the section with a title begins and ends. -/
def sectionSpan? (t title : Text) : Option (Nat × Nat) :=
  spanFrom title (byteLength t) none 0 (outline t)

section Span

variable {title : Text} {size : Nat}

/-- Lines without the heading are passed over. -/
theorem spanFrom_front {front : List (Text × Option Text)}
    (h : ∀ line ∈ front, isHeaded title line = false) (offset : Nat)
    (outline : List (Text × Option Text)) :
    spanFrom title size none offset (front ++ outline) =
      spanFrom title size none (offset + byteLength (front.map Prod.fst).flatten) outline := by
  induction front generalizing offset with
  | nil => rfl
  | cons line front ih =>
    rw [List.forall_mem_cons] at h
    rw [List.cons_append, spanFrom, if_neg (by simp [h.1]), ih h.2, List.map_cons,
      List.flatten_cons, byteLength_append, Nat.add_assoc]

/-- Behind the heading the body begins. -/
theorem spanFrom_headed {heading : Text × Option Text} (h : isHeaded title heading = true)
    (offset : Nat) (outline : List (Text × Option Text)) :
    spanFrom title size none offset (heading :: outline) =
      spanFrom title size (some (offset + byteLength heading.1)) (offset + byteLength heading.1)
        outline := by
  obtain ⟨line, found⟩ := heading
  rw [spanFrom, if_pos h]

/-- Lines in which no heading counts belong to the section. -/
theorem spanFrom_body {body : List (Text × Option Text)} (h : ∀ line ∈ body, line.2 = none)
    (place offset : Nat) (outline : List (Text × Option Text)) :
    spanFrom title size (some place) offset (body ++ outline) =
      spanFrom title size (some place) (offset + byteLength (body.map Prod.fst).flatten)
        outline := by
  induction body generalizing offset with
  | nil => rfl
  | cons line body ih =>
    rw [List.forall_mem_cons] at h
    rw [List.cons_append, spanFrom, if_neg (by simp [h.1]), ih h.2, List.map_cons,
      List.flatten_cons, byteLength_append, Nat.add_assoc]

/-- At the next heading, or at the end of the text, the section ends. -/
theorem spanFrom_stop {behind : List (Text × Option Text)}
    (h : behind.head?.all fun line => line.2.isSome) {place offset : Nat}
    (hsize : behind = [] → offset = size) :
    spanFrom title size (some place) offset behind = some (place, offset) := by
  cases behind with
  | nil => rw [spanFrom, hsize rfl, Option.map_some]
  | cons line rest => rw [spanFrom, if_pos (by simpa using h)]

end Span

namespace Around

variable {t title : Text} {around : Around title} (h : outline t = around.lines)
include h

theorem border_heading : border t (around.front.length + 1) =
    byteLength (around.front.map Prod.fst).flatten + byteLength around.heading.1 := by
  rw [border, pieces_eq h, List.append_assoc, List.take_left' (by simp), List.flatten_append,
    List.flatten_singleton, byteLength_append]

omit h in
theorem length_lines : (around.front.map Prod.fst ++ [around.heading.1] ++
    around.body.map Prod.fst).length = around.stop := by
  rw [List.length_append, List.length_append, List.length_map, List.length_map,
    List.length_singleton, stop]

theorem border_stop : border t around.stop =
    byteLength (around.front.map Prod.fst).flatten + byteLength around.heading.1 +
      byteLength (around.body.map Prod.fst).flatten := by
  rw [border, pieces_eq h, List.take_left' length_lines, List.flatten_append,
    List.flatten_append, List.flatten_singleton, byteLength_append, byteLength_append]

theorem linesBetween_eq : linesBetween t around.front.length around.stop =
    (around.body.map Prod.fst).flatten := by
  rw [linesBetween, pieces_eq h, List.take_left' length_lines, List.drop_left' (by simp)]

/-- The section is what stands between its heading and its end. -/
theorem section?_eq : section? t title =
    some (linesBetween t around.front.length around.stop) := by
  rw [Markdown.section?_eq, h, lines, sectionAmong?_append around.front_not,
    sectionAmong?_headed around.headed around.body_none around.behind_some, linesBetween_eq h]

/-- The scan finds the borders of the section. -/
theorem sectionSpan?_eq : sectionSpan? t title =
    some (border t (around.front.length + 1), border t around.stop) := by
  have hsize : around.behind = [] → border t around.stop = byteLength t := by
    intro hnil
    have hpieces := pieces_eq h
    rw [hnil, List.map_nil, List.append_nil] at hpieces
    rw [border, ← length_lines, ← hpieces, List.take_length, flatten_pieces]
  rw [border_stop h] at hsize
  rw [sectionSpan?, h, lines, spanFrom_front around.front_not, spanFrom_headed around.headed,
    spanFrom_body around.body_none, border_heading h, border_stop h]
  simp only [Nat.zero_add]
  exact spanFrom_stop around.behind_some hsize

end Around

theorem flatten_take_append_linesBetween (t : Text) {i j : Nat} (hij : i < j) :
    ((pieces t).take (i + 1)).flatten ++ linesBetween t i j = ((pieces t).take j).flatten := by
  have htake : ((pieces t).take j).take (i + 1) = (pieces t).take (i + 1) := by
    rw [List.take_take, Nat.min_eq_left (by omega)]
  rw [linesBetween, ← htake, ← List.flatten_append, List.take_append_drop]

/-- Lines between two others are cut out of the text at their borders. -/
theorem slice?_borders (t : Text) {i j : Nat} (hij : i < j) :
    slice? t (border t (i + 1)) (border t j) = some (linesBetween t i j) := by
  have hfront := flatten_take_append_linesBetween t hij
  refine slice?_eq_some_iff.2 ⟨((pieces t).take (i + 1)).flatten, ((pieces t).drop j).flatten,
    ?_, rfl, ?_⟩
  · rw [hfront, ← List.flatten_append, List.take_append_drop, flatten_pieces]
  · rw [hfront, border]

theorem border_le_border (t : Text) {i j : Nat} (hij : i < j) :
    border t (i + 1) ≤ border t j ∧ border t j ≤ byteLength t := by
  have hwhole : ((pieces t).take j).flatten ++ ((pieces t).drop j).flatten = t := by
    rw [← List.flatten_append, List.take_append_drop, flatten_pieces]
  have hlength := congrArg byteLength hwhole
  rw [byteLength_append] at hlength
  constructor
  · rw [border, border, ← flatten_take_append_linesBetween t hij, byteLength_append]
    omega
  · rw [border]
    omega

/-- Either the section with a title stands between two lines and the scan finds the borders of what
it is made of, or no heading that counts has the title and nothing is found. -/
theorem section?_cases (t title : Text) :
    (∃ i j, IsSection t title i j ∧ section? t title = some (linesBetween t i j) ∧
      sectionSpan? t title = some (border t (i + 1), border t j)) ∨
    ((∀ i found, IsLive t i found → sameIgnoringCase found title = false) ∧
      (section? t title = none ∧ sectionSpan? t title = none)) := by
  by_cases hheaded : ∃ line ∈ outline t, isHeaded title line = true
  · obtain ⟨around, h⟩ := exists_around hheaded
    exact Or.inl ⟨_, _, Around.isSection h, Around.section?_eq h, Around.sectionSpan?_eq h⟩
  · have hnot : ∀ line ∈ outline t, isHeaded title line = false := by
      intro line hline
      rw [← Bool.not_eq_true]
      exact fun hyes => hheaded ⟨line, hline, hyes⟩
    refine Or.inr ⟨fun i found hlive => ?_, sectionAmong?_eq_none hnot, ?_⟩
    · obtain ⟨piece, hpiece⟩ := isLive_iff.1 hlive
      exact hnot _ (List.mem_of_getElem? hpiece)
    · rw [sectionSpan?, ← List.append_nil (outline t), spanFrom_front hnot]
      rfl

/-- The section with a title, found by its lines and by its places in bytes. There is none exactly
when no heading that counts has the title; otherwise it is made of the whole lines strictly between
the first such heading and the next heading that counts, or the end of the text. The scan that
counts bytes finds the borders of these lines: they are in order and inside the text, and the text
is always cut there. -/
theorem section?_lines (t title : Text) :
    (section? t title = none ↔
      ∀ i found, IsLive t i found → sameIgnoringCase found title = false) ∧
    (∀ body, section? t title = some body ↔
      ∃ i j, IsSection t title i j ∧ body = linesBetween t i j) ∧
    (∀ start stop, sectionSpan? t title = some (start, stop) ↔
      ∃ i j, IsSection t title i j ∧ start = border t (i + 1) ∧ stop = border t j ∧
        start ≤ stop ∧ stop ≤ byteLength t) ∧
    (sectionSpan? t title).map (fun span => slice? t span.1 span.2) =
      (section? t title).map some := by
  rcases section?_cases t title with ⟨i, j, hsection, hbody, hspan⟩ | ⟨hlive, hbody, hspan⟩
  · have hunique : ∀ {i' j'}, IsSection t title i' j' → i' = i ∧ j' = j := fun hother =>
      hother.unique hsection
    obtain ⟨found, hfound, hsame⟩ := hsection.headed
    rw [hbody, hspan]
    refine ⟨iff_of_false (by simp) fun hnone => ?_, fun body => ?_, fun start stop => ?_, ?_⟩
    · rw [hnone i found hfound] at hsame
      cases hsame
    · rw [Option.some_inj]
      constructor
      · rintro rfl
        exact ⟨i, j, hsection, rfl⟩
      · rintro ⟨i', j', hother, rfl⟩
        rw [(hunique hother).1, (hunique hother).2]
    · rw [Option.some_inj, Prod.mk.injEq]
      constructor
      · rintro ⟨rfl, rfl⟩
        exact ⟨i, j, hsection, rfl, rfl, border_le_border t hsection.lt⟩
      · rintro ⟨i', j', hother, rfl, rfl, -⟩
        rw [(hunique hother).1, (hunique hother).2]
        exact ⟨rfl, rfl⟩
    · rw [Option.map_some, Option.map_some, slice?_borders t hsection.lt]
  · have hnone : ∀ i j, ¬IsSection t title i j := by
      intro i j hsection
      obtain ⟨found, hfound, hsame⟩ := hsection.headed
      rw [hlive i found hfound] at hsame
      cases hsame
    rw [hbody, hspan]
    refine ⟨iff_of_true rfl hlive, fun body => iff_of_false (by simp) ?_,
      fun start stop => iff_of_false (by simp) ?_, rfl⟩
    · rintro ⟨i, j, hsection, -⟩
      exact hnone i j hsection
    · rintro ⟨i, j, hsection, -⟩
      exact hnone i j hsection

example : sectionSpan? "# é\n## b ##\r\ny\n# c\n".toList "B".toList = some (14, 16) := by decide

end StyleDocs.Markdown
