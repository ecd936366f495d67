import StyleDocs.Proofs.Link
import StyleDocs.Proofs.Text.Trimmed

/-!
# What a resolved link begins and ends with

The visible text of a link is a name, perhaps between backquotes, and an anchor begins and ends with
an angle bracket. So what is written for a link has no white space at its ends, whatever the
addresses are, and resolving the links of a trimmed text gives a trimmed text.
-/

namespace StyleDocs.Link

open Text

/-- A type name is trimmed, since it stands in angle brackets. -/
theorem isTrimmed_of_afterTypeName? {name rest : Text}
    (h : afterTypeName? (name ++ rest) = some rest) : IsTrimmed name := by
  obtain ⟨w, -, rfl⟩ := exists_typeName h
  exact isTrimmed_between (by decide) (by decide) w

/-- A property name is trimmed, since it is a word. -/
theorem isTrimmed_of_afterPropertyName? {name rest : Text}
    (h : afterPropertyName? (name ++ rest) = some rest) : IsTrimmed name := by
  obtain ⟨c, w, hc, hw, hsplit⟩ := exists_of_afterPropertyName? h
  have hname : name = c :: w := (List.append_left_inj rest).1 hsplit
  have hfirst : isPropertyChar c = true := by simp [isPropertyChar, hc]
  have hchars : ∀ d ∈ c :: w, isPropertyChar d = true := List.forall_mem_cons.2 ⟨hfirst, hw⟩
  rw [hname]
  exact isTrimmed_of_forall (List.cons_ne_nil c w) fun d hd =>
    not_isBlank_of_isTargetChar (isTargetChar_of_isPropertyChar (hchars d hd))

/-- The visible text of a label is trimmed if the names that it may have are. -/
theorem isTrimmed_of_label? {afterName? : Text → Option Text} (hend : LeavesEnd afterName?)
    (hname : ∀ name rest, afterName? (name ++ rest) = some rest → IsTrimmed name)
    {t visible behind : Text} (h : label? afterName? t = some (visible, behind)) :
    IsTrimmed visible := by
  obtain ⟨-, opening, name, closing, rest, rfl, hopening, hclosing, -, hfound⟩ :=
    exists_of_label? hend h
  exact (hname name rest hfound).quoted hopening hclosing

theorem isTrimmed_visible_of_typeLink {conv : Conventions} {t rest : Text} {link : Written}
    (h : typeLink conv t = some (link, rest)) : IsTrimmed link.visible := by
  unfold typeLink at h
  split at h
  · cases h
  · next visible behind hlabel =>
    split at h
    · cases h
    · obtain ⟨found, -, he⟩ := Option.map_eq_some_iff.1 h
      cases he
      exact isTrimmed_of_label? leavesEnd_afterTypeName?
        (fun _ _ => isTrimmed_of_afterTypeName?) hlabel

theorem isTrimmed_visible_of_propertyLink {conv : Conventions} {t rest : Text} {link : Written}
    (h : propertyLink conv t = some (link, rest)) : IsTrimmed link.visible := by
  unfold propertyLink at h
  split at h
  · cases h
  · next visible behind hlabel =>
    obtain ⟨found, -, he⟩ := Option.map_eq_some_iff.1 h
    cases he
    exact isTrimmed_of_label? leavesEnd_afterPropertyName?
      (fun _ _ => isTrimmed_of_afterPropertyName?) hlabel

/-- An anchor is trimmed, whatever its address and its visible text are. -/
theorem isTrimmed_anchor (url visible : Text) : IsTrimmed (anchor url visible) := by
  -- The pieces around the address are kept abstract: only their first and last characters count.
  have h : ∀ opening middle closing : Text, opening.head? = some '<' → closing.getLast? = some '>' →
      IsTrimmed (opening ++ url ++ middle ++ visible ++ closing) := by
    intro opening middle closing hopening hclosing
    obtain ⟨opening, rfl⟩ := List.head?_eq_some_iff.1 hopening
    obtain ⟨closing, rfl⟩ := List.getLast?_eq_some_iff.1 hclosing
    rw [← List.append_assoc]
    exact isTrimmed_between (by decide) (by decide) (opening ++ url ++ middle ++ visible ++ closing)
  exact h _ _ _ (by decide) (by decide)

theorem isTrimmed_typeImage (conv : Conventions) (types : TypeCatalog) {link : Written}
    (h : IsTrimmed link.visible) : IsTrimmed (typeImage conv types link) := by
  unfold typeImage
  dsimp only
  split
  · exact isTrimmed_anchor _ _
  · exact h

theorem isTrimmed_propertyImage (conv : Conventions) (properties : PropertyCatalog)
    {link : Written} (h : IsTrimmed link.visible) :
    IsTrimmed (propertyImage conv properties link) := by
  unfold propertyImage
  split
  · exact isTrimmed_anchor _ _
  · exact h

/-- Resolving the links of a trimmed text gives a trimmed text. -/
theorem isTrimmed_resolve (conv : Conventions) (types : TypeCatalog)
    (properties : PropertyCatalog) {t : Text} (h : IsTrimmed t) :
    IsTrimmed (resolve conv types properties t) := by
  have htyped : IsTrimmed (substitute (typeLink conv) (typeImage conv types) t) :=
    isTrimmed_substitute (opensWith_typeLink conv)
      (fun _ _ _ hlink => isTrimmed_typeImage conv types (isTrimmed_visible_of_typeLink hlink)) h
  exact isTrimmed_substitute (opensWith_propertyLink conv)
    (fun _ _ _ hlink =>
      isTrimmed_propertyImage conv properties (isTrimmed_visible_of_propertyLink hlink)) htyped

end StyleDocs.Link
