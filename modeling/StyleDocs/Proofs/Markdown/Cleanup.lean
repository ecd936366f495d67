import StyleDocs.Markdown.Cleanup
import StyleDocs.Proofs.Link
import StyleDocs.Proofs.Markdown.Passage
import StyleDocs.Proofs.Text.Strip

/-!
# A grammar that is read back

Cleaning drops the fences around a grammar, lines that include another file, and anchors. A grammar
without any of these in it is therefore read back as it is written, and without brackets there is
no link to resolve in it either.
-/

namespace StyleDocs.Markdown

open Text

/-! ### Anchor tags -/

theorem exists_of_tagEnd? {t rest : Text} (h : tagEnd? t = some rest) : ∃ u, t = u ++ rest := by
  cases t with
  | nil => cases h
  | cons c t =>
    rw [tagEnd?] at h
    split at h
    · cases h
      exact ⟨[c], rfl⟩
    · split at h
      · obtain ⟨⟨before, behind⟩, hcut, he⟩ := Option.map_eq_some_iff.1 h
        cases he
        exact ⟨c :: (before ++ ['>']), by rw [eq_of_cut? hcut, List.cons_append]⟩
      · cases h

/-- A tag begins with an angle bracket. -/
theorem opensWith_anchorTag : anchorTag.OpensWith '<' := by
  intro t found rest h
  unfold anchorTag at h
  split at h
  · next t =>
    obtain ⟨after, hafter, he⟩ := Option.map_eq_some_iff.1 h
    cases he
    obtain ⟨behind, hname, hend⟩ := Option.bind_eq_some_iff.1 hafter
    obtain ⟨attributes, rfl⟩ := exists_of_tagEnd? hend
    rw [after?_eq_some_iff] at hname
    cases hslash : after? ['/'] t with
    | none =>
      rw [hslash, Option.getD_none] at hname
      exact ⟨'a' :: attributes, by rw [hname]; rfl⟩
    | some named =>
      rw [hslash, Option.getD_some] at hname
      refine ⟨'/' :: 'a' :: attributes, ?_⟩
      rw [after?_eq_some_iff.1 hslash, hname]
      rfl
  · cases h

/-- A text without the beginning of an anchor tag keeps everything. -/
theorem dropAnchors_eq_self {t : Text} (hopening : includes "<a".toList t = false)
    (hclosing : includes "</a".toList t = false) : dropAnchors t = t := by
  refine substitute_eq_self _ fun s hs => ?_
  cases s with
  | nil => rfl
  | cons c s =>
    by_cases hc : c = '<'
    · subst hc
      have hnoOpening := includes_eq_false_iff.1 hopening _ hs
      have hnoClosing := includes_eq_false_iff.1 hclosing _ hs
      have hname : after? ['a'] ((after? ['/'] s).getD s) = none := by
        cases hslash : after? ['/'] s with
        | none => simpa [startsWith, after?] using hnoOpening
        | some rest =>
          rw [after?_eq_some_iff] at hslash
          subst hslash
          simpa [startsWith, after?] using hnoClosing
      simp [anchorTag, anchorName?, hname]
    · exact opensWith_anchorTag.eq_none hc

/-! ### Lines that stay -/

/-- Of code between two fences and blank lines, everything stays but the fences. -/
theorem filter_block {start stop code : Text} (hstart : isFence start = true)
    (hstop : isFence stop = true) (hreturn : '\r' ∉ code)
    (hcode : ∀ line ∈ splitAt '\n' code, staysInGrammar "--8<--".toList line = true) (n m : Nat) :
    ((List.replicate n ['\n'] ++ (start :: (Passage.codeLines code ++ [stop])) ++
        List.replicate m ['\n']).map chomp).filter (staysInGrammar "--8<--".toList) =
      List.replicate n [] ++ splitAt '\n' code ++ List.replicate m [] := by
  have hblank : ∀ k, ((List.replicate k ['\n']).map chomp).filter
      (staysInGrammar "--8<--".toList) = List.replicate k [] := by
    intro k
    rw [List.map_replicate, List.filter_replicate]
    rfl
  have hfence : ∀ line, isFence line = true →
      staysInGrammar "--8<--".toList (chomp line) = false := by
    intro line hline
    rw [staysInGrammar, isFence_chomp, hline]
    rfl
  have hlines : ((Passage.codeLines code).map chomp).filter
      (staysInGrammar "--8<--".toList) = splitAt '\n' code := by
    have hchomp : (Passage.codeLines code).map chomp = splitAt '\n' code := by
      rw [Passage.codeLines, List.map_map]
      refine (List.map_congr_left fun line hline => ?_).trans (List.map_id _)
      refine chomp_append fun hlast => hreturn ?_
      exact (infix_of_mem_splitAt hline).subset (List.mem_of_getLast? hlast)
    rw [hchomp, List.filter_eq_self]
    exact hcode
  simp only [List.map_append, List.map_cons, List.map_nil, List.filter_append, hblank, hlines,
    List.filter_cons, hfence start hstart, hfence stop hstop, List.filter_nil, Bool.false_eq_true,
    if_false, List.append_nil]

/-- Lines joined between blank ones are a text between line feeds. -/
theorem joinWith_blanks (code : Text) (n m : Nat) :
    joinWith ['\n'] (List.replicate n [] ++ splitAt '\n' code ++ List.replicate m []) =
      List.replicate n '\n' ++ code ++ List.replicate m '\n' := by
  refine (List.append_left_inj ['\n']).1 ?_
  have hne : List.replicate n [] ++ splitAt '\n' code ++ List.replicate m [] ≠ [] := by
    simp [splitAt_ne_nil]
  rw [← flatten_map_append hne, List.map_append, List.map_append, List.flatten_append,
    List.flatten_append, flatten_map_splitAt]
  simp [← List.replicate_succ, ← List.replicate_succ']

/-- Line feeds are white space. -/
theorem isBlank_of_mem_replicate (n : Nat) : ∀ c ∈ List.replicate n '\n', isBlank c = true := by
  intro c hc
  rw [List.eq_of_mem_replicate hc]
  decide

/-! ### A grammar between fences -/

/-- A grammar that may stand between fences and is read back as it is. -/
structure GrammarBody where
  /-- The grammar. -/
  text : Text
  /-- There is a grammar. -/
  written : text ≠ []
  /-- It has no white space around it. -/
  trimmed : hasBlankEnd text = false
  /-- It has no carriage return. -/
  noReturn : '\r' ∉ text
  /-- It has no bracket that could open a link. -/
  noBracket : '[' ∉ text
  /-- It has no anchor tags. -/
  noAnchor : includes "<a".toList text = false ∧ includes "</a".toList text = false
  /-- It includes no other file. -/
  noInclude : includes "--8<--".toList text = false
  /-- None of its lines is a fence. -/
  noFence : ∀ line ∈ splitAt '\n' text, isFence line = false

namespace GrammarBody

/-- The grammar between two fences. -/
def passage (body : GrammarBody) : Passage := .block [] body.text (by simp) body.noFence

/-- The lines of a grammar stay. -/
theorem staysInGrammar (body : GrammarBody) :
    ∀ line ∈ splitAt '\n' body.text, staysInGrammar "--8<--".toList line = true := by
  intro line hline
  have hmark : includes "--8<--".toList line = false :=
    includes_eq_false_of_part (infix_of_mem_splitAt hline) body.noInclude
  rw [Markdown.staysInGrammar, body.noFence line hline, hmark]
  rfl

/-- Of a grammar between fences and blank lines, everything stays but the fences. -/
theorem filter_lines (body : GrammarBody) (n m : Nat) :
    (lines (Passage.blank n ++ body.passage ++ Passage.blank m).text).filter
        (Markdown.staysInGrammar "--8<--".toList) =
      List.replicate n [] ++ splitAt '\n' body.text ++ List.replicate m [] := by
  have hlines : lines (Passage.blank n ++ body.passage ++ Passage.blank m).text =
      (List.replicate n ['\n'] ++ (Passage.opening [] ::
        (Passage.codeLines body.text ++ [Passage.closing])) ++ List.replicate m ['\n']).map chomp :=
    lines_flatten (Passage.isLine _)
  rw [hlines]
  exact filter_block (Passage.isFence_opening []) (by decide) body.noReturn body.staysInGrammar n m

/-- A grammar between fences and blank lines is read back. -/
theorem grammarText_text (body : GrammarBody) (n m : Nat) :
    grammarText "--8<--".toList (Passage.blank n ++ body.passage ++ Passage.blank m).text =
      body.text := by
  have hwhole : ∀ w : Text, w ≠ [] → '\n' ∉ w →
      includes w (List.replicate n '\n' ++ body.text ++ List.replicate m '\n') =
        includes w body.text := by
    intro w hw hbreak
    have hmem : ∀ k, ∀ c ∈ List.replicate k '\n', c ∉ w := fun k c hc => by
      rwa [List.eq_of_mem_replicate hc]
    rw [includes_append_right hw (hmem m), includes_append_left hw (hmem n)]
  have hanchors : dropAnchors (List.replicate n '\n' ++ body.text ++ List.replicate m '\n') =
      List.replicate n '\n' ++ body.text ++ List.replicate m '\n' :=
    dropAnchors_eq_self ((hwhole _ (by decide) (by decide)).trans body.noAnchor.1)
      ((hwhole _ (by decide) (by decide)).trans body.noAnchor.2)
  rw [grammarText, body.filter_lines, joinWith_blanks, hanchors]
  exact strip_append (isBlank_of_mem_replicate n) (isBlank_of_mem_replicate m) body.trimmed

/-- There is no link to resolve in a grammar without brackets. -/
theorem resolve_text (body : GrammarBody) (conv : Conventions) (types : TypeCatalog)
    (properties : PropertyCatalog) : Link.resolve conv types properties body.text = body.text := by
  rw [Link.resolve, (Link.opensWith_typeLink conv).substitute_eq_self _ body.noBracket,
    (Link.opensWith_propertyLink conv).substitute_eq_self _ body.noBracket]

end GrammarBody

end StyleDocs.Markdown
