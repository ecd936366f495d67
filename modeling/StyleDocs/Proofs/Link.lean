import StyleDocs.Link
import StyleDocs.Proofs.Text.LowerCase
import StyleDocs.Proofs.Text.Segment

/-!
# Links as written

What the recognisers of links accept, told through the text: both open with a bracket, the target
is a name over letters, digits, hyphens and underscores, and the visible text of a type link has no
bracket of its own. What follows for the resolution of a text: a link to a type and a link to a
property in a text that has no other bracket are replaced by their images, and the rest of the text
stays as it is.
-/

namespace StyleDocs.Link

open Text

/-! ### The parts of a link -/

/-- Targets are written in ASCII. -/
theorem toNat_lt_of_isTargetChar {c : Char} (h : isTargetChar c = true) : c.toNat < 128 := by
  delta isTargetChar Char.isAlphanum Char.isAlpha Char.isUpper Char.isLower Char.isDigit at h
  simp only [Bool.or_eq_true, Bool.and_eq_true, decide_eq_true_eq, beq_iff_eq, ge_iff_le,
    UInt32.le_iff_toNat_le] at h
  rcases h with (h | rfl) | rfl
  · have hcode : c.toNat = c.val.toNat := rfl
    have hcapital : 'Z'.val.toNat = 90 := rfl
    have hsmall : 'z'.val.toNat = 122 := rfl
    have hdigit : '9'.val.toNat = 57 := rfl
    omega
  · decide
  · decide

theorem not_isBlank_of_isTargetChar {c : Char} (h : isTargetChar c = true) : isBlank c = false :=
  forall_ascii (P := fun c => isTargetChar c = true → isBlank c = false) (by decide)
    (toNat_lt_of_isTargetChar h) h

theorem isTargetChar_of_isPropertyChar {c : Char} (h : isPropertyChar c = true) :
    isTargetChar c = true := by
  have htarget : isTargetChar c =
      (c.isUpper || c.isLower || c.isDigit || c == '_' || c == '-') := rfl
  simp only [isPropertyChar, Bool.or_eq_true] at h
  simp only [htarget, Bool.or_eq_true]
  rcases h with (hsmall | hdigit) | hhyphen
  · exact .inl (.inl (.inl (.inr hsmall)))
  · exact .inl (.inl (.inr hdigit))
  · exact .inr hhyphen

/-- A recogniser that leaves the end of what it reads. -/
def LeavesEnd (f : Text → Option Text) : Prop := ∀ t rest, f t = some rest → ∃ u, t = u ++ rest

theorem exists_of_afterChar? {p : Char → Bool} {t rest : Text} (h : afterChar? p t = some rest) :
    ∃ c, p c = true ∧ t = c :: rest := by
  cases t with
  | nil => cases h
  | cons c t =>
    simp only [afterChar?] at h
    split at h
    · next hc =>
      cases h
      exact ⟨c, hc, rfl⟩
    · cases h

/-- A run is one or more characters of the kind. -/
theorem exists_of_afterRun? {p : Char → Bool} {t rest : Text} (h : afterRun? p t = some rest) :
    ∃ w, w ≠ [] ∧ (∀ c ∈ w, p c = true) ∧ t = w ++ rest := by
  obtain ⟨behind, hbehind, rfl⟩ := Option.map_eq_some_iff.1 h
  obtain ⟨c, hc, rfl⟩ := exists_of_afterChar? hbehind
  refine ⟨c :: behind.takeWhile p, List.cons_ne_nil _ _, ?_, ?_⟩
  · intro d hd
    rcases List.mem_cons.1 hd with rfl | hd
    · exact hc
    · exact List.all_eq_true.1 List.all_takeWhile d hd
  · rw [List.cons_append, List.takeWhile_append_dropWhile]

/-- A type name is a run of name characters in angle brackets. -/
theorem exists_of_afterTypeName? {t rest : Text} (h : afterTypeName? t = some rest) :
    ∃ w, (∀ c ∈ w, isTargetChar c = true) ∧ t = '<' :: (w ++ '>' :: rest) := by
  obtain ⟨behind, hbehind, hclose⟩ := Option.bind_eq_some_iff.1 h
  obtain ⟨inner, hopen, hrun⟩ := Option.bind_eq_some_iff.1 hbehind
  obtain ⟨w, -, hw, rfl⟩ := exists_of_afterRun? hrun
  rw [after?_eq_some_iff] at hopen hclose
  exact ⟨w, hw, by simp [hopen, hclose]⟩

theorem leavesEnd_afterTypeName? : LeavesEnd afterTypeName? := by
  intro t rest h
  obtain ⟨w, -, rfl⟩ := exists_of_afterTypeName? h
  exact ⟨'<' :: (w ++ ['>']), by simp⟩

/-- The name of a type that was read, whatever is left behind it. -/
theorem exists_typeName {name rest : Text} (h : afterTypeName? (name ++ rest) = some rest) :
    ∃ w, (∀ c ∈ w, isTargetChar c = true) ∧ name = '<' :: (w ++ ['>']) := by
  obtain ⟨w, hw, hshape⟩ := exists_of_afterTypeName? h
  exact ⟨w, hw, (List.append_left_inj rest).1 (by simpa using hshape)⟩

/-- A property name begins with a small letter and goes on with its characters. -/
theorem exists_of_afterPropertyName? {t rest : Text} (h : afterPropertyName? t = some rest) :
    ∃ c w, c.isLower = true ∧ (∀ d ∈ w, isPropertyChar d = true) ∧ t = c :: (w ++ rest) := by
  obtain ⟨behind, hbehind, rfl⟩ := Option.map_eq_some_iff.1 h
  obtain ⟨c, hc, rfl⟩ := exists_of_afterChar? hbehind
  exact ⟨c, behind.takeWhile isPropertyChar, hc, List.all_eq_true.1 List.all_takeWhile,
    by rw [List.takeWhile_append_dropWhile]⟩

theorem leavesEnd_afterPropertyName? : LeavesEnd afterPropertyName? := by
  intro t rest h
  obtain ⟨c, w, -, -, rfl⟩ := exists_of_afterPropertyName? h
  exact ⟨c :: w, rfl⟩

/-- Skipping a backquote drops a backquote or nothing. -/
theorem exists_skipBackquote (t : Text) :
    ∃ u, (u = [] ∨ u = [backquote]) ∧ t = u ++ skipBackquote t := by
  unfold skipBackquote
  cases h : after? [backquote] t with
  | none => exact ⟨[], Or.inl rfl, rfl⟩
  | some rest => exact ⟨[backquote], Or.inr rfl, after?_eq_some_iff.1 h⟩

/-- A label is a bracket, a name that may stand between backquotes, and a closing bracket; the
visible text is what stands between the brackets. -/
theorem exists_of_label? {f : Text → Option Text} (hf : LeavesEnd f) {t visible behind : Text}
    (h : label? f t = some (visible, behind)) :
    t = '[' :: (visible ++ ']' :: behind) ∧
      ∃ opening name closing rest, visible = opening ++ name ++ closing ∧
        (opening = [] ∨ opening = [backquote]) ∧ (closing = [] ∨ closing = [backquote]) ∧
        skipBackquote (visible ++ ']' :: behind) = name ++ rest ∧ f (name ++ rest) = some rest := by
  unfold label? at h
  split at h
  · cases h
  · next inner hinner =>
    split at h
    · cases h
    · next rest hrest =>
      obtain ⟨after, hafter, he⟩ := Option.map_eq_some_iff.1 h
      obtain ⟨rfl, rfl⟩ := Prod.mk.inj he
      obtain ⟨opening, hopening, hsplit⟩ := exists_skipBackquote inner
      obtain ⟨closing, hclosing, hrestsplit⟩ := exists_skipBackquote rest
      obtain ⟨name, hname⟩ := hf _ _ hrest
      rw [after?_eq_some_iff] at hinner hafter
      have hwhole : inner = (opening ++ name ++ closing) ++ ']' :: after := by
        calc inner = opening ++ skipBackquote inner := hsplit
          _ = opening ++ (name ++ (closing ++ skipBackquote rest)) := by rw [hname, ← hrestsplit]
          _ = (opening ++ name ++ closing) ++ ']' :: after := by simp [hafter]
      have hvisible : inner.take (inner.length - (skipBackquote rest).length) =
          opening ++ name ++ closing := by
        have hlength : inner.length - (skipBackquote rest).length =
            (opening ++ name ++ closing).length := by
          simp only [hwhole, hafter, List.length_append, List.length_cons, List.length_nil]
          omega
        rw [hlength, hwhole, List.take_left]
      rw [hvisible, ← hwhole]
      exact ⟨hinner, opening, name, closing, rest, rfl, hopening, hclosing, hname, hname ▸ hrest⟩

/-- A target ends in a name, the extension, a fragment or none, and a parenthesis. -/
theorem exists_of_targetEnd? {extension t name rest : Text}
    (h : targetEnd? extension t = some (name, rest)) :
    name ≠ [] ∧ (∀ c ∈ name, isTargetChar c = true) ∧
      ∃ fragment, t = name ++ '.' :: (extension ++ fragment ++ ')' :: rest) := by
  unfold targetEnd? at h
  simp only at h
  split at h
  · cases h
  · next hname =>
    split at h
    · cases h
    · next behind hbehind =>
      obtain ⟨after, hafter, he⟩ := Option.map_eq_some_iff.1 h
      obtain ⟨rfl, rfl⟩ := Prod.mk.inj he
      rw [after?_eq_some_iff] at hbehind hafter
      refine ⟨by simpa using hname, List.all_eq_true.1 List.all_takeWhile, ?_⟩
      have hsplit := List.takeWhile_append_dropWhile (p := isTargetChar) (l := t)
      rw [hbehind] at hsplit
      have hfragment : ∃ fragment, behind = fragment ++ ')' :: after := by
        split at hafter
        · next written =>
          refine ⟨'#' :: written.takeWhile fun c => c != ')' && !isBlank c, ?_⟩
          rw [List.cons_append, ← List.singleton_append (x := ')'), ← hafter,
            List.takeWhile_append_dropWhile]
        · exact ⟨[], hafter⟩
      obtain ⟨fragment, rfl⟩ := hfragment
      exact ⟨fragment, by simpa using hsplit.symm⟩

/-- The places to which a path climbs are ends of it behind some dots and slashes. -/
theorem exists_of_mem_climbs {fuel : Nat} {path place : Text} (h : place ∈ climbs fuel path) :
    ∃ u, u ≠ [] ∧ (∀ c ∈ u, c = '.' ∨ c = '/') ∧ path = u ++ place := by
  induction fuel generalizing path with
  | zero => cases h
  | succ fuel ih =>
    simp only [climbs] at h
    split at h
    · cases h
    · next rest hrest =>
      rw [after?_eq_some_iff] at hrest
      rcases List.mem_append.1 h with h | h
      · obtain ⟨u, -, hu, rfl⟩ := ih h
        refine ⟨"../".toList ++ u, by simp, ?_, by simpa using hrest⟩
        rw [List.forall_mem_append]
        exact ⟨by simp, hu⟩
      · rw [List.mem_singleton.1 h]
        exact ⟨_, by simp, by simp, hrest⟩

/-! ### Whole links -/

/-- A link to a type has a name over the target characters as its target, no bracket in its
visible text, and stands between a bracket and the rest of the text. -/
theorem exists_of_typeLink {conv : Conventions} {t rest : Text} {link : Written}
    (h : typeLink conv t = some (link, rest)) :
    link.target ≠ [] ∧ (∀ c ∈ link.target, isTargetChar c = true) ∧ '[' ∉ link.visible ∧
      ∃ u, t = '[' :: (u ++ rest) := by
  unfold typeLink at h
  split at h
  · cases h
  · next visible behind hlabel =>
    split at h
    · cases h
    · next path hpath =>
      obtain ⟨⟨target, after⟩, hfound, he⟩ := Option.map_eq_some_iff.1 h
      cases he
      obtain ⟨place, hplace, hend⟩ := List.exists_of_findSome?_eq_some hfound
      obtain ⟨behindDirectory, hdirectory, htarget⟩ := Option.bind_eq_some_iff.1 hend
      obtain ⟨hne, hchars, fragment, htext⟩ := exists_of_targetEnd? htarget
      obtain ⟨steps, -, -, rfl⟩ := exists_of_mem_climbs hplace
      rw [after?_eq_some_iff] at hpath hdirectory
      obtain ⟨rfl, opening, name, closing, tail, rfl, hopening, hclosing, -, hname⟩ :=
        exists_of_label? leavesEnd_afterTypeName? hlabel
      refine ⟨hne, hchars, ?_, ?_⟩
      · obtain ⟨w, hw, hwhole⟩ := exists_typeName hname
        have hbracket : '[' ∉ w := fun hmem => absurd (hw _ hmem) (by decide)
        rcases hopening with rfl | rfl <;> rcases hclosing with rfl | rfl <;>
          simp [hwhole, hbracket, backquote]
      · refine ⟨(opening ++ name ++ closing) ++ ']' :: '(' :: (steps ++ conv.typeDirectory ++ '/' ::
          (target ++ '.' :: (conv.extension ++ fragment ++ [')']))), ?_⟩
        simp [hpath, hdirectory, htext]

/-- A link to a property stands between a bracket and the rest of the text. -/
theorem exists_of_propertyLink {conv : Conventions} {t rest : Text} {link : Written}
    (h : propertyLink conv t = some (link, rest)) : ∃ u, t = '[' :: (u ++ rest) := by
  unfold propertyLink at h
  split at h
  · cases h
  · next visible behind hlabel =>
    obtain ⟨⟨target, after⟩, hfound, he⟩ := Option.map_eq_some_iff.1 h
    cases he
    obtain ⟨path, hpath, htarget⟩ := Option.bind_eq_some_iff.1 hfound
    obtain ⟨-, -, fragment, htext⟩ := exists_of_targetEnd? htarget
    rw [after?_eq_some_iff] at hpath
    obtain ⟨rfl, -⟩ := exists_of_label? leavesEnd_afterPropertyName? hlabel
    refine ⟨visible ++ ']' :: ("(./".toList ++ (target ++ '.' ::
      (conv.extension ++ fragment ++ [')']))), ?_⟩
    simp [hpath, htext]

theorem opensWith_typeLink (conv : Conventions) : (typeLink conv).OpensWith '[' :=
  fun _ _ _ h => (exists_of_typeLink h).2.2.2

theorem opensWith_propertyLink (conv : Conventions) : (propertyLink conv).OpensWith '[' :=
  fun _ _ _ h => exists_of_propertyLink h

/-- No text begins with a link to a type and a link to a property: what follows the bracket is an
angle bracket in the one and a small letter in the other. -/
theorem typeLink_eq_none {conv : Conventions} {t rest : Text} {link : Written}
    (h : propertyLink conv t = some (link, rest)) : typeLink conv t = none := by
  unfold propertyLink at h
  split at h
  · cases h
  · next visible behind hlabel =>
    obtain ⟨ht, -, name, -, tail, -, -, -, hskip, hname⟩ :=
      exists_of_label? leavesEnd_afterPropertyName? hlabel
    unfold typeLink
    split
    · rfl
    · next visible' behind' hlabel' =>
      obtain ⟨ht', -, name', -, tail', -, -, -, hskip', hname'⟩ :=
        exists_of_label? leavesEnd_afterTypeName? hlabel'
      obtain ⟨c, w, hc, -, hw⟩ := exists_of_afterPropertyName? hname
      obtain ⟨w', -, hw'⟩ := exists_of_afterTypeName? hname'
      have hsame : visible ++ ']' :: behind = visible' ++ ']' :: behind' :=
        (List.cons.inj (ht.symm.trans ht')).2
      rw [hsame, hskip', hw', hw] at hskip
      have hletter : '<' = c := (List.cons.inj hskip).1
      rw [← hletter] at hc
      exact absurd hc (by decide)

/-! ### Resolution -/

/-- An anchor has no brackets of its own. -/
theorem mem_anchor_iff {url visible : Text} :
    '[' ∈ anchor url visible ↔ '[' ∈ url ∨ '[' ∈ visible := by
  -- The pieces around the address are kept abstract: they are only compared with the bracket.
  have h : ∀ opening middle closing : Text, '[' ∉ opening → '[' ∉ middle → '[' ∉ closing →
      ('[' ∈ opening ++ url ++ middle ++ visible ++ closing ↔ '[' ∈ url ∨ '[' ∈ visible) := by
    intro opening middle closing hopening hmiddle hclosing
    simp [hopening, hmiddle, hclosing]
  exact h _ _ _ (by decide) (by decide) (by decide)

/-- The image of a link to a type has a bracket only if the address of the site or the name of the
type directory has one. -/
theorem not_mem_typeImage {conv : Conventions} {types : TypeCatalog} {link : Written}
    (hvisible : '[' ∉ link.visible) (htarget : ∀ c ∈ link.target, isTargetChar c = true)
    (hbase : '[' ∉ conv.baseUrl) (hdirectory : '[' ∉ conv.typeDirectory) :
    '[' ∉ typeImage conv types link := by
  have hname : '[' ∉ typeName link.target := by
    intro hmem
    obtain ⟨c, hc, he⟩ := List.mem_map.1 hmem
    split at he
    · exact absurd he (by decide)
    · exact absurd (htarget c hc) (by rw [he]; decide)
  unfold typeImage
  dsimp only
  split
  · rw [mem_anchor_iff]
    simp [Conventions.typeUrl, hvisible, hname, hbase, hdirectory]
  · exact hvisible

/-- A link to a type is replaced by its image in a text without other brackets. -/
theorem resolve_typeLink {conv : Conventions} (types : TypeCatalog) (properties : PropertyCatalog)
    {before t rest : Text} {link : Written} (h : typeLink conv t = some (link, rest))
    (hbefore : '[' ∉ before) (hrest : '[' ∉ rest) (hbase : '[' ∉ conv.baseUrl)
    (hdirectory : '[' ∉ conv.typeDirectory) :
    resolve conv types properties (before ++ t) =
      before ++ typeImage conv types link ++ rest := by
  obtain ⟨-, htarget, hvisible, -⟩ := exists_of_typeLink h
  have hclean : '[' ∉ before ++ (typeImage conv types link ++ rest) := by
    simp [hbefore, hrest, not_mem_typeImage hvisible htarget hbase hdirectory]
  rw [resolve, (opensWith_typeLink conv).substitute_append _ hbefore,
    (opensWith_typeLink conv).substitute_found _ h,
    (opensWith_typeLink conv).substitute_eq_self _ hrest,
    (opensWith_propertyLink conv).substitute_eq_self _ hclean, List.append_assoc]

/-- A link to a property is replaced by its image in a text without other brackets. -/
theorem resolve_propertyLink {conv : Conventions} (types : TypeCatalog)
    (properties : PropertyCatalog) {before t rest : Text} {link : Written}
    (h : propertyLink conv ('[' :: t) = some (link, rest)) (hbefore : '[' ∉ before)
    (ht : '[' ∉ t) :
    resolve conv types properties (before ++ '[' :: t) =
      before ++ propertyImage conv properties link ++ rest := by
  obtain ⟨u, hu⟩ := exists_of_propertyLink h
  have hrest : '[' ∉ rest := by
    rw [(List.cons.inj hu).2, List.mem_append, not_or] at ht
    exact ht.2
  have htyped : substitute (typeLink conv) (typeImage conv types) (before ++ '[' :: t) =
      before ++ '[' :: t := by
    rw [(opensWith_typeLink conv).substitute_append _ hbefore,
      substitute_plain _ (typeLink_eq_none h), (opensWith_typeLink conv).substitute_eq_self _ ht]
  rw [resolve, htyped, (opensWith_propertyLink conv).substitute_append _ hbefore,
    (opensWith_propertyLink conv).substitute_found _ h,
    (opensWith_propertyLink conv).substitute_eq_self _ hrest, List.append_assoc]

end StyleDocs.Link
