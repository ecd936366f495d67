import Mathlib.Data.List.Flatten
import StyleDocs.Proofs.Markdown.Cleanup
import StyleDocs.Proofs.Text.LineEnd
import StyleDocs.Proofs.Text.Stretch

/-!
# What cleaning leaves

Cleaning drops lines first and anchor tags after them. Removing a tag joins what stands on its two
sides, and this can be a tag, the inclusion mark or the beginning of a fence that nothing looks for
any more. Here it is shown that this is the only way in which cleaning leaves any of the three.
-/

namespace StyleDocs.Markdown

open Text

/-- An anchor tag: the name, with or without a slash before it, and with or without attributes. -/
def IsAnchorTag (w : Text) : Prop :=
  ∃ slash attributes, (slash = [] ∨ slash = ['/']) ∧
    (attributes = [] ∨ ∃ c cs, attributes = c :: cs ∧ isBlank c = true ∧ '>' ∉ cs) ∧
    w = '<' :: (slash ++ 'a' :: (attributes ++ ['>']))

/-- A text has nothing in it that cleaning drops. -/
structure IsClean (mark t : Text) : Prop where
  /-- No line is a fence. -/
  noFence : ∀ line ∈ lines t, isFence line = false
  /-- No line holds the inclusion mark. -/
  noMark : ∀ line ∈ lines t, includes mark line = false
  /-- There is no anchor tag. -/
  noTag : ∀ w, IsAnchorTag w → ¬w <:+: t

/-- The lines of a grammar that stay. -/
def keptText (mark t : Text) : Text := joinWith ['\n'] ((lines t).filter (staysInGrammar mark))

theorem grammarText_eq (mark t : Text) :
    grammarText mark t = strip (plainText (segments anchorTag (keptText mark t))) := rfl

/-- The segments that are left when the white space at the ends of their plain text is trimmed. -/
structure IsTrimmed (segs inner : List (Segment Unit)) : Prop where
  /-- No white space is left at the ends. -/
  ends : hasBlankEnd (plainText inner) = false
  /-- Only white space is trimmed. -/
  around : ∃ a b, segs = a ++ inner ++ b ∧ (∀ c ∈ plainText a, isBlank c = true) ∧
    ∀ c ∈ plainText b, isBlank c = true

/-- The sign of a fence and the white space before it. -/
def IsFenceSign (w : Text) : Prop :=
  ∃ u sign, (∀ c ∈ u, isBlank c = true) ∧ (sign = ticks ∨ sign = "~~~".toList) ∧ w = u ++ sign

/-- The removal of tags uncovers something to drop: a stretch with a tag in it becomes a tag or the
inclusion mark, or a stretch with a tag in it at the beginning of a line becomes a fence. -/
inductive Uncovers (mark : Text) (segs : List (Segment Unit)) : Prop
  /-- A tag, or the mark. -/
  | part {inner a m b : List (Segment Unit)} (trimmed : IsTrimmed segs inner)
      (split : inner = a ++ m ++ b) (find : HasFind m)
      (same : IsAnchorTag (plainText m) ∨ plainText m = mark)
  /-- A fence. -/
  | fence {a m b : List (Segment Unit)} (split : segs = a ++ m ++ b) (find : HasFind m)
      (begins : a = [] ∨ ∃ a', a = a' ++ [.plain '\n']) (same : IsFenceSign (plainText m))

/-! ### Anchor tags -/

theorem tagEnd?_eq_some_iff {t rest : Text} : tagEnd? t = some rest ↔
    ∃ attributes, (attributes = [] ∨ ∃ c cs, attributes = c :: cs ∧ isBlank c = true ∧ '>' ∉ cs) ∧
      t = attributes ++ '>' :: rest := by
  constructor
  · intro h
    cases t with
    | nil => cases h
    | cons c t =>
      rw [tagEnd?] at h
      split at h
      · next hc =>
        cases h
        exact ⟨[], Or.inl rfl, by rw [hc]; rfl⟩
      · split at h
        · next hblank =>
          obtain ⟨⟨before, behind⟩, hcut, rfl⟩ := Option.map_eq_some_iff.1 h
          have hbefore : '>' ∉ before := by
            intro hmem
            obtain ⟨x, y, rfl⟩ := List.append_of_mem hmem
            have hnot := includes_of_cut? (by simp) hcut
            rw [Bool.eq_false_iff, Ne, includes_iff] at hnot
            exact hnot ⟨x, y, by simp⟩
          exact ⟨c :: before, Or.inr ⟨c, before, rfl, hblank, hbefore⟩, by simp [eq_of_cut? hcut]⟩
        · cases h
  · rintro ⟨_, rfl | ⟨c, cs, rfl, hc, hcs⟩, rfl⟩
    · rfl
    · have hne : c ≠ '>' := by
        rintro rfl
        exact absurd hc (by decide)
      rw [List.cons_append, tagEnd?, if_neg hne, if_pos hc, cut?_mark hcs]
      rfl

/-- A tag is found exactly where one stands. -/
theorem anchorTag_eq_some_iff {t rest : Text} :
    anchorTag t = some ((), rest) ↔ ∃ w, IsAnchorTag w ∧ t = w ++ rest := by
  constructor
  · intro h
    unfold anchorTag at h
    split at h
    · next t =>
      obtain ⟨after, hafter, he⟩ := Option.map_eq_some_iff.1 h
      cases he
      obtain ⟨behind, hname, hend⟩ := Option.bind_eq_some_iff.1 hafter
      obtain ⟨attributes, hattributes, rfl⟩ := tagEnd?_eq_some_iff.1 hend
      obtain ⟨slash, hslash, ht⟩ : ∃ slash, (slash = [] ∨ slash = ['/']) ∧
          t = slash ++ (after? ['/'] t).getD t := by
        cases hslash : after? ['/'] t with
        | none => exact ⟨[], Or.inl rfl, rfl⟩
        | some named => exact ⟨['/'], Or.inr rfl, after?_eq_some_iff.1 hslash⟩
      rw [after?_eq_some_iff] at hname
      refine ⟨_, ⟨slash, attributes, hslash, hattributes, rfl⟩, ?_⟩
      rw [ht, hname]
      simp
    · cases h
  · rintro ⟨w, ⟨slash, attributes, hslash, hattributes, rfl⟩, rfl⟩
    have hend : tagEnd? (attributes ++ '>' :: rest) = some rest :=
      tagEnd?_eq_some_iff.2 ⟨attributes, hattributes, rfl⟩
    rcases hslash with rfl | rfl <;>
      simp [anchorTag, anchorName?, after?, hend]

theorem IsAnchorTag.ne_nil {w : Text} (h : IsAnchorTag w) : w ≠ [] := by
  obtain ⟨slash, attributes, -, -, rfl⟩ := h
  exact List.cons_ne_nil _ _

/-! ### Trimming -/

/-- What is left is the plain text of the trimmed segments. -/
theorem IsTrimmed.strip_eq {segs inner : List (Segment Unit)} (h : IsTrimmed segs inner) :
    strip (plainText segs) = plainText inner := by
  obtain ⟨a, b, rfl, ha, hb⟩ := h.around
  rw [plainText_append, plainText_append, strip_append ha hb h.ends]

theorem exists_isTrimmed (segs : List (Segment Unit)) : ∃ inner, IsTrimmed segs inner := by
  obtain ⟨x, y, hxy, hx, hy⟩ := exists_trimEnds isBlank (plainText segs)
  obtain ⟨a, inner, b, rfl, rfl, hinner, rfl, -⟩ := exists_stretch_between hxy
  refine ⟨inner, ?_, a, b, rfl, hx, hy⟩
  rw [hinner]
  exact hasBlankEnd_strip _

/-! ### The inclusion mark -/

variable {mark : Text}

theorem staysInGrammar_iff (hne : mark ≠ []) {line : Text} :
    staysInGrammar mark line = true ↔ isFence line = false ∧ includes mark line = false := by
  rw [staysInGrammar, List.isEmpty_eq_false_iff.2 hne]
  simp

/-- The mark stands in a text exactly when it stands in one of its lines. -/
theorem exists_includes_iff (hne : mark ≠ []) (hmark : Unbroken mark) {t : Text} :
    (∃ line ∈ lines t, includes mark line = true) ↔ mark <:+: t := by
  rw [← includes_iff_infix]
  induction t using line_induction with
  | hlast t ht =>
    by_cases hnil : t = []
    · subst hnil
      have hnot : includes mark [] = false := by simpa [includes] using hne
      simp [hnot, lines, pieces]
    · simp [lines_of_not_mem ht hnil]
  | hline line rest hline ih =>
    obtain ⟨u, hu, hreturn⟩ := exists_eq_chomp_append line
    have hchomp : includes mark (chomp (line ++ ['\n'])) = includes mark line := by
      conv_rhs => rw [hu]
      refine (includes_append_right hne ?_ _).symm
      rcases hreturn with rfl | rfl
      · simp
      · simpa using hmark.1
    rw [lines_append_cons hline, List.exists_mem_cons_iff, ih, hchomp,
      includes_append_cons hne hmark.2, Bool.or_eq_true]

section Kept

variable (hne : mark ≠ []) (hmark : Unbroken mark)

include hne in
/-- What is kept has no fence and no line that holds the mark. -/
theorem keptText_line {t line : Text} (h : line ∈ lines (keptText mark t)) :
    isFence line = false ∧ includes mark line = false := by
  obtain ⟨l, hl, u, rfl, hu⟩ := exists_of_mem_lines_joinWith
    (fun l hl => not_mem_of_mem_lines (List.mem_of_mem_filter hl)) h
  obtain ⟨hfence, hinclude⟩ := (staysInGrammar_iff hne).1 (List.of_mem_filter hl)
  have hblank : ∀ c ∈ u, isBlank c = true := by
    rcases hu with rfl | rfl <;> exact List.all_eq_true.1 rfl
  rw [isFence_append hblank] at hfence
  exact ⟨hfence, includes_eq_false_of_part (List.prefix_append line u).isInfix hinclude⟩

include hne in
theorem isFence_of_keptText {t before rest : Text} (h : keptText mark t = before ++ rest)
    (hbefore : BeginsLine before) : isFence rest = false := by
  rw [Bool.eq_false_iff]
  intro hfence
  obtain ⟨line, hline, hline'⟩ := exists_fence_iff.2 ⟨before, rest, h, hbefore, hfence⟩
  rw [(keptText_line hne hline).1] at hline'
  cases hline'

include hne hmark in
theorem not_infix_keptText (t : Text) : ¬mark <:+: keptText mark t := by
  intro h
  obtain ⟨line, hline, hline'⟩ := (exists_includes_iff hne hmark).2 h
  rw [(keptText_line hne hline).2] at hline'
  cases hline'

/-! ### What is uncovered -/

include hne hmark in
/-- A stretch that is a tag or the mark has a find in it. -/
theorem hasFind_of_part {t : Text} {a m b : List (Segment Unit)}
    (hsegs : segments anchorTag (keptText mark t) = a ++ m ++ b)
    (hm : IsAnchorTag (plainText m) ∨ plainText m = mark) : HasFind m := by
  by_contra hfind
  obtain ⟨u, v, hkept, hrest⟩ := exists_of_not_hasFind_between opensWith_anchorTag hfind hsegs
  rcases hm with htag | hmark'
  · -- A tag that stands in the text is found there.
    have hfound : anchorTag (plainText m ++ v) = some ((), v) :=
      anchorTag_eq_some_iff.2 ⟨_, htag, rfl⟩
    cases m with
    | nil => exact htag.ne_nil rfl
    | cons seg m =>
      cases seg with
      | plain c =>
        obtain ⟨_, -, hnone, -⟩ := exists_of_segments_plain opensWith_anchorTag hrest
        rw [hnone] at hfound
        cases hfound
      | found found => exact hfind ⟨found, List.mem_cons_self⟩
  · refine not_infix_keptText hne hmark t ⟨u, v, ?_⟩
    rw [hkept, hmark']

include hne hmark in
/-- A tag or the mark in what is left was uncovered. -/
theorem uncovers_of_part {t w : Text} (h : w <:+: grammarText mark t)
    (hw : IsAnchorTag w ∨ w = mark) : Uncovers mark (segments anchorTag (keptText mark t)) := by
  obtain ⟨inner, hinner⟩ := exists_isTrimmed (segments anchorTag (keptText mark t))
  obtain ⟨x, y, hxy⟩ := h
  rw [grammarText_eq, hinner.strip_eq] at hxy
  obtain ⟨a, m, b, hsplit, -, rfl, -, -⟩ := exists_stretch_between hxy.symm
  refine .part hinner hsplit ?_ hw
  obtain ⟨front, back, hsegs, -⟩ := hinner.around
  have hwhole : segments anchorTag (keptText mark t) = (front ++ a) ++ m ++ (b ++ back) := by
    rw [hsegs, hsplit]
    simp only [List.append_assoc]
  exact hasFind_of_part hne hmark hwhole hw

include hne in
/-- A fence in what is left was uncovered. -/
theorem uncovers_of_fence {t : Text}
    (h : ∃ line ∈ lines (grammarText mark t), isFence line = true) :
    Uncovers mark (segments anchorTag (keptText mark t)) := by
  rw [grammarText_eq, exists_fence_strip_iff, exists_fence_iff] at h
  obtain ⟨before, rest, hplain, hbefore, hrest⟩ := h
  obtain ⟨u, sign, behind, hu, hsign, rfl⟩ := isFence_iff.1 hrest
  rw [← List.append_assoc] at hplain
  obtain ⟨a, m, b, hsplit, rfl, hm, rfl, hstop⟩ := exists_stretch_between hplain
  have hfence : isFence (plainText m) = true := by
    rw [hm]
    exact isFence_iff.2 ⟨u, sign, [], hu, hsign, (List.append_nil _).symm⟩
  rcases hstop with rfl | ⟨a, c, rfl⟩
  · refine .fence hsplit ?_ (Or.inl rfl) ⟨u, sign, hu, hsign, hm⟩
    by_contra hfind
    obtain ⟨v, hkept, -⟩ := exists_of_not_hasFind opensWith_anchorTag hfind hsplit
    have hnot : isFence (plainText m ++ v) = false :=
      isFence_of_keptText hne (hkept.trans (List.nil_append _).symm) (Or.inl rfl)
    rw [isFence_append_of_isFence hfence] at hnot
    cases hnot
  · have hc : c = '\n' := by
      rcases hbefore with hnil | ⟨front, hfront⟩
      · simp at hnil
      · rw [plainText_append, plainText_plain, plainText_nil] at hfront
        simpa using (List.append_inj' hfront rfl).2
    subst hc
    refine .fence hsplit ?_ (Or.inr ⟨a, rfl⟩) ⟨u, sign, hu, hsign, hm⟩
    by_contra hfind
    have hsegs : segments anchorTag (keptText mark t) = a ++ (.plain '\n' :: (m ++ b)) := by
      simpa using hsplit
    obtain ⟨before, rest, hkept, hsegs'⟩ := exists_of_segments_append opensWith_anchorTag hsegs
    obtain ⟨rest, rfl, -, hsegs''⟩ := exists_of_segments_plain opensWith_anchorTag hsegs'
    obtain ⟨v, rfl, -⟩ := exists_of_not_hasFind opensWith_anchorTag hfind hsegs''
    rw [List.append_cons] at hkept
    have hnot := isFence_of_keptText hne hkept (Or.inr ⟨before, rfl⟩)
    rw [isFence_append_of_isFence hfence] at hnot
    cases hnot

include hne hmark in
/-- What is uncovered is left. -/
theorem not_isClean_of_uncovers {t : Text}
    (h : Uncovers mark (segments anchorTag (keptText mark t))) :
    ¬IsClean mark (grammarText mark t) := by
  intro hclean
  cases h with
  | @part inner a m b trimmed split find same =>
    have hinfix : plainText m <:+: grammarText mark t := by
      rw [grammarText_eq, trimmed.strip_eq, split, plainText_append, plainText_append]
      exact ⟨_, _, rfl⟩
    rcases same with htag | rfl
    · exact hclean.noTag _ htag hinfix
    · obtain ⟨line, hline, hline'⟩ := (exists_includes_iff hne hmark).2 hinfix
      rw [hclean.noMark line hline] at hline'
      cases hline'
  | @fence a m b split find begins same =>
    obtain ⟨u, sign, hu, hsign, hm⟩ := same
    have hfence : ∃ line ∈ lines (grammarText mark t), isFence line = true := by
      rw [grammarText_eq, exists_fence_strip_iff, exists_fence_iff, split, List.append_assoc]
      refine ⟨plainText a, plainText (m ++ b), plainText_append _ _, ?_, ?_⟩
      · rcases begins with rfl | ⟨a, rfl⟩
        · exact Or.inl rfl
        · exact Or.inr ⟨plainText a, plainText_append _ _⟩
      · rw [plainText_append, hm]
        exact isFence_iff.2 ⟨u, sign, plainText b, hu, hsign, rfl⟩
    obtain ⟨line, hline, hline'⟩ := hfence
    rw [hclean.noFence line hline] at hline'
    cases hline'

include hne hmark in
theorem isClean_iff_not_uncovers {t : Text} : IsClean mark (grammarText mark t) ↔
    ¬Uncovers mark (segments anchorTag (keptText mark t)) := by
  refine ⟨fun hclean h => not_isClean_of_uncovers hne hmark h hclean, fun h => ⟨?_, ?_, ?_⟩⟩
  · intro line hline
    rw [Bool.eq_false_iff]
    exact fun hfence => h (uncovers_of_fence hne ⟨line, hline, hfence⟩)
  · intro line hline
    rw [Bool.eq_false_iff]
    intro hinclude
    have hinfix := (exists_includes_iff hne hmark).1 ⟨line, hline, hinclude⟩
    exact h (uncovers_of_part hne hmark hinfix (Or.inr rfl))
  · intro w hw hinfix
    exact h (uncovers_of_part hne hmark hinfix (Or.inl hw))

/-! ### Cleaning again -/

theorem keptText_sublist {r : Text} : (keptText mark r).Sublist (joinWith ['\n'] (lines r)) := by
  by_cases hnil : (lines r).filter (staysInGrammar mark) = []
  · rw [keptText, hnil]
    exact List.nil_sublist _
  · have hlines : lines r ≠ [] := fun h => hnil (by rw [h, List.filter_nil])
    have hsub := ((List.filter_sublist (p := staysInGrammar mark) (l := lines r)).map
      (· ++ ['\n'])).flatten
    rw [flatten_map_append hnil, flatten_map_append hlines] at hsub
    exact (List.append_sublist_append_right ['\n']).1 hsub

include hne in
/-- A clean text without white space at its ends is kept whole, up to its line ends. -/
theorem keptText_of_isClean {r : Text} (h : IsClean mark r) :
    keptText mark r = joinWith ['\n'] (lines r) := by
  rw [keptText, List.filter_eq_self.2]
  exact fun line hline => (staysInGrammar_iff hne).2 ⟨h.noFence line hline, h.noMark line hline⟩

theorem plainText_of_isClean {r : Text} (h : IsClean mark r) :
    plainText (segments anchorTag r) = r := by
  refine substitute_eq_self (fun _ => []) fun s hs => ?_
  cases hfound : anchorTag s with
  | none => rfl
  | some found =>
    have hsome : anchorTag s = some ((), found.2) := hfound
    obtain ⟨w, hw, rfl⟩ := anchorTag_eq_some_iff.1 hsome
    exact absurd ((List.prefix_append w _).isInfix.trans hs.isInfix) (h.noTag w hw)

include hne in
/-- Cleaning changes nothing of a text without white space at its ends exactly when the text is
clean and no carriage return stands before a line feed in it. -/
theorem grammarText_eq_self_iff {r : Text} (hends : hasBlankEnd r = false) :
    grammarText mark r = r ↔ IsClean mark r ∧ ¬['\r', '\n'] <:+: r := by
  have hlast : r.getLast? ≠ some '\n' := by
    intro hlast
    rw [hasBlankEnd, hlast] at hends
    simp [isBlank] at hends
  obtain ⟨hjoin, hjoin'⟩ := joinWith_lines_sublist hlast
  constructor
  · intro h
    -- Each step leaves out some characters, and in the end none is missing.
    have hstrip : r.Sublist (plainText (segments anchorTag (keptText mark r))) := by
      conv_lhs => rw [← h]
      exact (infix_strip _).sublist
    have hplain : (plainText (segments anchorTag (keptText mark r))).Sublist (keptText mark r) :=
      plainText_segmentsFrom_sublist anchorTag 0 _
    have hkept : (keptText mark r).Sublist (joinWith ['\n'] (lines r)) := keptText_sublist
    have hkept' : keptText mark r = r := (hkept.trans hjoin).antisymm (hstrip.trans hplain)
    have hplain' : plainText (segments anchorTag r) = r := by
      rw [hkept'] at hstrip hplain
      exact hplain.antisymm hstrip
    have hjoin'' : joinWith ['\n'] (lines r) = r := by
      rw [hkept'] at hkept
      exact hjoin.antisymm hkept
    refine ⟨⟨fun line hline => ?_, fun line hline => ?_, ?_⟩, hjoin'.1 hjoin''⟩
    · exact (keptText_line hne (t := r) (hkept'.symm ▸ hline)).1
    · exact (keptText_line hne (t := r) (hkept'.symm ▸ hline)).2
    · rintro w hw ⟨u, v, huv⟩
      have hnone := eq_none_of_plainText_eq hplain' (w ++ v) ⟨u, by rw [← huv, List.append_assoc]⟩
        (by simp [hw.ne_nil])
      rw [anchorTag_eq_some_iff.2 ⟨w, hw, rfl⟩] at hnone
      cases hnone
  · rintro ⟨hclean, hreturn⟩
    rw [grammarText_eq, keptText_of_isClean hne hclean, hjoin'.2 hreturn,
      plainText_of_isClean hclean]
    exact strip_eq_self hends

end Kept

/-- What cleaning leaves has nothing in it to drop exactly when the removal of tags uncovers
nothing, and exactly then cleaning again changes nothing, if moreover no carriage return is left in
front of a line feed. -/
theorem isClean_grammarText_iff (hne : mark ≠ []) (hmark : Unbroken mark) (t : Text) :
    (IsClean mark (grammarText mark t) ↔
        ¬Uncovers mark (segments anchorTag (keptText mark t))) ∧
      (grammarText mark (grammarText mark t) = grammarText mark t ↔
        ¬Uncovers mark (segments anchorTag (keptText mark t)) ∧
          ¬['\r', '\n'] <:+: grammarText mark t) := by
  have hends : hasBlankEnd (grammarText mark t) = false := hasBlankEnd_strip _
  rw [grammarText_eq_self_iff hne hends, isClean_iff_not_uncovers hne hmark]
  exact ⟨Iff.rfl, Iff.rfl⟩

/-- The fence behind a tag is uncovered when the tag is removed. -/
theorem uncovers_fence_behind_tag :
    ("--8<--".toList ≠ [] ∧ Unbroken "--8<--".toList) ∧
      Uncovers "--8<--".toList (segments anchorTag
        (keptText "--8<--".toList "<a id=\"x\"></a>```\nx: 1;\n```\n".toList)) := by
  have hmark : "--8<--".toList ≠ [] ∧ Unbroken "--8<--".toList := by decide
  refine ⟨hmark, ?_⟩
  obtain ⟨hclean, -⟩ := isClean_grammarText_iff hmark.1 hmark.2
    "<a id=\"x\"></a>```\nx: 1;\n```\n".toList
  by_contra h
  exact absurd ((hclean.2 h).noFence ticks (by decide)) (by decide)

/-- A tag in front of a fence hides it from the lines. It is left when the tag is removed, and
cleaning again removes it. -/
theorem fence_behind_tag_left :
    grammarText "--8<--".toList "<a id=\"x\"></a>```\nx: 1;\n```\n".toList =
        "```\nx: 1;".toList ∧
      ¬IsClean "--8<--".toList "```\nx: 1;".toList ∧
      grammarText "--8<--".toList "```\nx: 1;".toList = "x: 1;".toList := by
  refine ⟨by decide, fun hclean => ?_, by decide⟩
  exact absurd (hclean.noFence ticks (by decide)) (by decide)

end StyleDocs.Markdown
