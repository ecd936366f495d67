import Mathlib.Algebra.Order.BigOperators.Group.List
import Mathlib.Algebra.Order.Group.Nat
import StyleDocs.Proofs.Link.Part
import StyleDocs.Proofs.Markdown.Cleanup

/-!
# Links in a grammar

A grammar is cleaned of anchor tags before its links are resolved. A link to a type shows the name
of the type in angle brackets, and one such name, `a`, makes an anchor tag of it. A link that shows
this name loses it: what is left of the link has no visible name, so neither pass finds a link in
it, and it is published as it is left. Every other link is cleaned of nothing.
-/

namespace StyleDocs.Link

open Text Markdown

/-! ### Characters of a link -/

/-- Whether visible texts are made of this character. -/
def isVisibleChar (c : Char) : Bool := isTargetChar c || c == '<' || c == '>' || c == backquote

/-- Whether what stands behind visible texts is made of this character, fragments aside. -/
def isAddressChar (c : Char) : Bool := isTargetChar c || "](./)".toList.contains c

theorem not_mem_of_all {p : Char → Bool} {t : Text} (h : t.all p = true) {c : Char}
    (hc : p c = false) : c ∉ t := by
  intro hmem
  rw [List.all_eq_true.1 h c hmem] at hc
  cases hc

theorem all_steps (n : Nat) : (steps n).all isAddressChar = true := by
  induction n with
  | zero => rfl
  | succ n ih =>
    rw [steps, List.all_append, ih]
    rfl

namespace Spelling

variable {s : Spelling}

/-- Names are written in the characters of targets. -/
theorem all_name : s.name.all isTargetChar = true := by
  have h := s.isName
  cases hkind : s.kind with
  | type more =>
    rw [hkind] at h
    exact h.2
  | property =>
    rw [hkind] at h
    exact List.all_eq_true.2 fun c hc =>
      isTargetChar_of_isPropertyChar (List.all_eq_true.1 h.2 c hc)

theorem not_mem_name {c : Char} (hc : isTargetChar c = false) : c ∉ s.name :=
  not_mem_of_all all_name hc

theorem shown_ne_nil : s.kind.shown s.name ≠ [] := by
  have h := s.isName
  cases hkind : s.kind with
  | type more => exact List.cons_ne_nil _ _
  | property =>
    rw [hkind] at h
    intro hnil
    have hname : s.name = [] := hnil
    rw [hname] at h
    exact absurd h.1 Bool.false_ne_true

/-- Besides the name, only angle brackets and backquotes are visible. -/
theorem all_visible : s.visible.all isVisibleChar = true := by
  have hquote : ∀ written, (quote written).all isVisibleChar = true := by
    intro written
    cases written <;> rfl
  have hname : s.name.all isVisibleChar = true := by
    refine List.all_eq_true.2 fun c hc => ?_
    rw [isVisibleChar, List.all_eq_true.1 all_name c hc]
    rfl
  have hshown : (s.kind.shown s.name).all isVisibleChar = true := by
    cases s.kind with
    | type more =>
      rw [Kind.shown, List.all_cons, List.all_append, hname]
      rfl
    | property => exact hname
  rw [visible, List.all_append, List.all_append, hquote, hquote, hshown]
  rfl

/-- Without a fragment, only brackets, parentheses, dots and slashes stand behind the visible text
besides the names. -/
theorem all_address (hfragment : s.fragment = none) : (s.address {}).all isAddressChar = true := by
  have hpath : (s.kind.path {}).all isAddressChar = true := by
    cases s.kind with
    | type more =>
      rw [Kind.path, List.all_append, all_steps]
      rfl
    | property => rfl
  have htarget : s.target.all isAddressChar = true := by
    refine List.all_eq_true.2 fun c hc => ?_
    rw [isAddressChar, s.isTargetChar_target c hc]
    rfl
  have htext : s.address {} = ']' :: '(' :: (s.kind.path {} ++ (s.target ++ ".md)".toList)) := by
    rw [address, targetText, hfragment]
    rfl
  rw [htext, List.all_cons, List.all_cons, List.all_append, List.all_append, hpath, htarget]
  rfl

theorem not_mem_address (hfragment : s.fragment = none) {c : Char} (hc : isAddressChar c = false) :
    c ∉ s.address {} :=
  not_mem_of_all (all_address hfragment) hc

end Spelling

/-! ### Names that are tags -/

/-- A name in angle brackets is no anchor tag, unless it is the name of these. -/
theorem anchorTag_name_eq_none {name : Text} (hne : name ≠ [])
    (hname : name.all isTargetChar = true) (htag : name ≠ ['a']) (rest : Text) :
    anchorTag ('<' :: (name ++ '>' :: rest)) = none := by
  obtain ⟨c, w, rfl⟩ := List.exists_cons_of_ne_nil hne
  rw [List.all_eq_true, List.forall_mem_cons] at hname
  have hslash : after? ['/'] (c :: (w ++ '>' :: rest)) = none := by
    have hc : '/' ≠ c := by
      rintro rfl
      exact absurd hname.1 (by decide)
    simp [after?, hc]
  have hend : anchorName? (c :: (w ++ '>' :: rest)) = none := by
    rw [anchorName?, after?]
    split
    · next hc =>
      cases w with
      | nil => exact absurd (by rw [hc]) htag
      | cons d w =>
        have hd := hname.2 d List.mem_cons_self
        have hclose : d ≠ '>' := by
          rintro rfl
          exact absurd hd (by decide)
        simp [after?, tagEnd?, hclose, not_isBlank_of_isTargetChar hd]
    · rfl
  rw [List.cons_append, anchorTag, hslash, Option.getD_none, hend, Option.map_none]

namespace Spelling

variable (conv : Conventions) (types : TypeCatalog) (properties : PropertyCatalog) (s : Spelling)

/-- The link shows an anchor tag. -/
def ShowsTag : Prop := s.kind.shown s.name = "<a>".toList

instance : Decidable s.ShowsTag := inferInstanceAs (Decidable (_ = _))

/-- What is left of a link that shows an anchor tag. -/
def remnant : Text := '[' :: (quote s.opening ++ quote s.closing ++ s.address conv)

/-- The link in a cleaned text. -/
def cleaned : Text := if s.ShowsTag then s.remnant conv else s.text conv

/-- What is published for the link in a grammar. -/
def published : Text :=
  if s.ShowsTag then s.remnant conv else s.image conv types properties

theorem not_mem_quote {c : Char} (hc : c ≠ backquote) (written : Bool) : c ∉ quote written := by
  cases written with
  | true => simpa [quote] using hc
  | false => exact List.not_mem_nil

variable {s}

theorem rewrites_shown (htag : ¬s.ShowsTag) :
    Rewrites anchorTag (fun _ => []) (s.kind.shown s.name) (s.kind.shown s.name) := by
  have hname : '<' ∉ s.name := not_mem_name (by decide)
  have h := s.isName
  unfold ShowsTag at htag
  cases hkind : s.kind with
  | type more =>
    rw [hkind] at h htag
    have hbehind : '<' ∉ s.name ++ ['>'] := by simp [hname]
    refine Rewrites.cons '<' (fun rest => ?_) (opensWith_anchorTag.rewrites_self _ hbehind)
    have hother : s.name ≠ ['a'] := by
      intro heq
      rw [heq] at htag
      exact htag rfl
    simpa using anchorTag_name_eq_none h.1 h.2 hother rest
  | property => exact opensWith_anchorTag.rewrites_self _ hname

/-- Cleaning takes from a link the name that is a tag and nothing else. -/
theorem rewrites_cleaned (hfragment : s.fragment = none) :
    Rewrites anchorTag (fun _ => []) (s.text {}) (s.cleaned {}) := by
  have hopening : '<' ∉ '[' :: quote s.opening := by
    rw [List.mem_cons, not_or]
    exact ⟨by decide, not_mem_quote (by decide) _⟩
  have hclosing : '<' ∉ quote s.closing ++ s.address {} := by
    rw [List.mem_append, not_or]
    exact ⟨not_mem_quote (by decide) _, not_mem_address hfragment (by decide)⟩
  have htext : s.text {} = ('[' :: quote s.opening) ++
      (s.kind.shown s.name ++ (quote s.closing ++ s.address {})) := by simp [text, visible]
  have hshown : ∀ left, Rewrites anchorTag (fun _ => []) (s.kind.shown s.name) left →
      Rewrites anchorTag (fun _ => []) (s.text {})
        (('[' :: quote s.opening) ++ (left ++ (quote s.closing ++ s.address {}))) := by
    intro left hleft
    rw [htext]
    exact (opensWith_anchorTag.rewrites_self _ hopening).append
      (hleft.append (opensWith_anchorTag.rewrites_self _ hclosing))
  rw [cleaned]
  split
  · next htag =>
    have hleft : Rewrites anchorTag (fun _ => []) (s.kind.shown s.name) [] := by
      rw [show s.kind.shown s.name = "<a>".toList from htag]
      exact opensWith_anchorTag.rewrites_found (a := ()) _ fun _ => rfl
    have hremnant : s.remnant {} =
        ('[' :: quote s.opening) ++ ([] ++ (quote s.closing ++ s.address {})) := by simp [remnant]
    rw [hremnant]
    exact hshown [] hleft
  · next htag =>
    have hwhole := hshown _ (rewrites_shown htag)
    rwa [← htext] at hwhole

/-- What is left of a link that shows a tag holds no link. -/
theorem resolves_remnant (hfragment : s.fragment = none) :
    Resolves {} types properties (s.remnant {}) (s.remnant {}) := by
  have hinner : '[' ∉ quote s.opening ++ quote s.closing ++ s.address {} := by
    rw [List.mem_append, List.mem_append, not_or, not_or]
    exact ⟨⟨not_mem_quote (by decide) _, not_mem_quote (by decide) _⟩,
      not_mem_address hfragment (by decide)⟩
  refine ⟨s.remnant {},
    Rewrites.cons '[' (fun rest => ?_) ((opensWith_typeLink {}).rewrites_self _ hinner),
    Rewrites.cons '[' (fun rest => ?_) ((opensWith_propertyLink {}).rewrites_self _ hinner)⟩
  · cases s.opening <;> cases s.closing <;> rfl
  · cases s.opening <;> cases s.closing <;> rfl

/-- What cleaning leaves of a link is resolved to what is published for it. -/
theorem resolves_cleaned (hfragment : s.fragment = none) :
    Resolves {} types properties (s.cleaned {}) (s.published {} types properties) := by
  rw [cleaned, published]
  split
  · exact resolves_remnant types properties hfragment
  · exact s.resolves_text types properties (by decide) (by decide) (by decide)

/-! ### The ends of a link -/

variable {conv}

theorem getLast?_address : (s.address conv).getLast? = some ')' := by
  simp [address, targetText, List.getLast?_cons, List.getLast?_append]

/-- What is left of a link has no white space at its ends. -/
theorem hasBlankEnd_cleaned : hasBlankEnd (s.cleaned conv) = false := by
  have hends : ∀ inner, hasBlankEnd ('[' :: (inner ++ s.address conv)) = false := by
    intro inner
    have hlast : ('[' :: (inner ++ s.address conv)).getLast? = some ')' := by
      rw [List.getLast?_cons, List.getLast?_append, getLast?_address]
      rfl
    exact hasBlankEnd_of_ends rfl hlast (by decide) (by decide)
  rw [cleaned]
  split
  · exact hends _
  · exact hends _

theorem visible_ne_nil : s.visible ≠ [] := by
  simp [visible, shown_ne_nil]

/-- The image of a link is its visible text, or an anchor around it. -/
theorem image_cases (conv : Conventions) (s : Spelling) :
    s.image conv types properties = s.visible ∨
    ∃ url, s.image conv types properties = anchor url s.visible := by
  rw [image]
  split
  · split
    · exact Or.inr ⟨_, rfl⟩
    · exact Or.inl rfl
  · split
    · exact Or.inr ⟨_, rfl⟩
    · exact Or.inl rfl

/-- An anchor stands between angle brackets, around its visible text. -/
theorem exists_anchor_eq (url visible : Text) :
    ∃ u v, anchor url visible = '<' :: (u ++ visible ++ v ++ ['>']) := by
  -- The pieces around the address are kept abstract.
  have h : ∀ opening middle closing : Text, ∃ u v,
      ('<' :: opening) ++ url ++ middle ++ visible ++ (closing ++ ['>']) =
        '<' :: (u ++ visible ++ v ++ ['>']) :=
    fun opening middle closing => ⟨opening ++ url ++ middle, closing, by simp⟩
  exact h "a href=\"".toList "\">".toList "</a".toList

theorem mem_image_of_mem_visible {c : Char} (h : c ∈ s.visible) :
    c ∈ s.image conv types properties := by
  rcases image_cases types properties conv s with himage | ⟨url, himage⟩
  · rwa [himage]
  · obtain ⟨u, v, hanchor⟩ := exists_anchor_eq url s.visible
    rw [himage, hanchor]
    simp [h]

/-- The image of a link has no white space at its ends. -/
theorem image_ends : s.image conv types properties ≠ [] ∧
    hasBlankEnd (s.image conv types properties) = false := by
  rcases image_cases types properties conv s with himage | ⟨url, himage⟩
  · rw [himage]
    refine ⟨visible_ne_nil, hasBlankEnd_of_forall fun c hc => ?_⟩
    have hvisible := List.all_eq_true.1 all_visible c hc
    simp only [isVisibleChar, Bool.or_eq_true, beq_iff_eq] at hvisible
    rcases hvisible with ((htarget | rfl) | rfl) | rfl
    · exact not_isBlank_of_isTargetChar htarget
    · decide
    · decide
    · decide
  · obtain ⟨u, v, hanchor⟩ := exists_anchor_eq url s.visible
    have hlast : ('<' :: (u ++ s.visible ++ v ++ ['>'])).getLast? = some '>' := by
      rw [← List.cons_append, List.getLast?_concat]
    rw [himage, hanchor]
    exact ⟨List.cons_ne_nil _ _, hasBlankEnd_of_ends rfl hlast (by decide) (by decide)⟩

/-! ### What is lost -/

/-- An angle bracket is lost with a name that is a tag. -/
theorem count_published_lt (hfragment : s.fragment = none) (htag : s.ShowsTag) :
    (s.published {} types properties).count '<' < (s.image {} types properties).count '<' := by
  have hremnant : '<' ∉ s.remnant {} := by
    rw [remnant, List.mem_cons, List.mem_append, List.mem_append, not_or, not_or, not_or]
    exact ⟨by decide, ⟨not_mem_quote (by decide) _, not_mem_quote (by decide) _⟩,
      not_mem_address hfragment (by decide)⟩
  have hvisible : '<' ∈ s.visible := by
    rw [visible, show s.kind.shown s.name = "<a>".toList from htag]
    simp
  rw [published, if_pos htag, List.count_eq_zero_of_not_mem hremnant]
  exact List.count_pos_iff.2 (mem_image_of_mem_visible types properties hvisible)

end Spelling

/-! ### Parts of a grammar -/

namespace Part

/-- A part that a grammar on one line may have: text without the marks of tags, fences and lines, or
a link without a fragment. -/
def InGrammar : Part → Prop
  | plain text _ => '<' ∉ text ∧ '~' ∉ text ∧ backquote ∉ text ∧ '\r' ∉ text ∧ '\n' ∉ text
  | link spelling => spelling.fragment = none

instance (part : Part) : Decidable part.InGrammar :=
  match part with
  | plain _ _ => inferInstanceAs (Decidable (_ ∧ _))
  | link _ => inferInstanceAs (Decidable (_ = _))

/-- The part is a link that shows an anchor tag. -/
def ShowsTag : Part → Prop
  | plain _ _ => False
  | link spelling => spelling.ShowsTag

instance (part : Part) : Decidable part.ShowsTag :=
  match part with
  | plain _ _ => inferInstanceAs (Decidable False)
  | link _ => inferInstanceAs (Decidable (_ = _))

/-- The part in a cleaned text. -/
def cleaned (conv : Conventions) : Part → Text
  | plain text _ => text
  | link spelling => spelling.cleaned conv

/-- What is published for the part in a grammar. -/
def published (conv : Conventions) (types : TypeCatalog) (properties : PropertyCatalog) :
    Part → Text
  | plain text _ => text
  | link spelling => spelling.published conv types properties

theorem InGrammar.of_subset {text text' : Text} {noBracket : '[' ∉ text} {noBracket' : '[' ∉ text'}
    (h : (plain text noBracket).InGrammar) (hsub : text' ⊆ text) :
    (plain text' noBracket').InGrammar := by
  obtain ⟨hangle, htilde, hquote, hreturn, hbreak⟩ := h
  exact ⟨fun hmem => hangle (hsub hmem), fun hmem => htilde (hsub hmem),
    fun hmem => hquote (hsub hmem), fun hmem => hreturn (hsub hmem), fun hmem => hbreak (hsub hmem)⟩

variable (types : TypeCatalog) (properties : PropertyCatalog) {part : Part}

/-- Without a tag, the image of a part is published. -/
theorem published_eq_image (conv : Conventions) (h : ¬part.ShowsTag) :
    part.published conv types properties = part.image conv types properties := by
  cases part with
  | plain text noBracket => rfl
  | link spelling => exact if_neg h

theorem rewrites_cleaned (h : part.InGrammar) :
    Rewrites anchorTag (fun _ => []) (part.text {}) (part.cleaned {}) := by
  cases part with
  | plain text noBracket => exact opensWith_anchorTag.rewrites_self _ h.1
  | link spelling => exact Spelling.rewrites_cleaned h

theorem resolves_cleaned (h : part.InGrammar) :
    Resolves {} types properties (part.cleaned {}) (part.published {} types properties) := by
  cases part with
  | plain text noBracket => exact Resolves.plain noBracket
  | link spelling => exact Spelling.resolves_cleaned types properties h

end Part

/-- Parts are blank when they are cleaned exactly if they are blank as they are written. -/
theorem allBlank_flatMap_cleaned (conv : Conventions) (parts : List Part) :
    allBlank (parts.flatMap (Part.cleaned conv)) = allBlank (parts.flatMap (Part.text conv)) := by
  have hpart : ∀ part : Part, allBlank (part.cleaned conv) = allBlank (part.text conv) := by
    intro part
    cases part with
    | plain text noBracket => rfl
    | link spelling =>
      rw [Part.cleaned, Spelling.cleaned]
      split <;> rfl
  simp only [allBlank] at hpart ⊢
  simp only [List.all_flatMap, hpart]

/-- With a link that shows a tag, more angle brackets are lost than with the images of the links. -/
theorem count_flatMap_published_lt (types : TypeCatalog) (properties : PropertyCatalog)
    {parts : List Part} (h : ∀ part ∈ parts, part.InGrammar)
    (htag : ∃ part ∈ parts, part.ShowsTag) :
    (parts.flatMap (Part.published {} types properties)).count '<' <
      (parts.flatMap (Part.image {} types properties)).count '<' := by
  have hlt : ∀ part ∈ parts, part.ShowsTag → (part.published {} types properties).count '<' <
      (part.image {} types properties).count '<' := by
    intro part hpart htag
    cases part with
    | plain text noBracket => cases htag
    | link spelling => exact Spelling.count_published_lt types properties (h _ hpart) htag
  rw [List.count_flatMap, List.count_flatMap]
  refine List.sum_lt_sum _ _ (fun part hpart => ?_) ?_
  · by_cases htag : part.ShowsTag
    · exact Nat.le_of_lt (hlt part hpart htag)
    · rw [Function.comp_apply, Function.comp_apply,
        part.published_eq_image types properties {} htag]
  · obtain ⟨part, hpart, htag⟩ := htag
    exact ⟨part, hpart, hlt part hpart htag⟩

/-! ### Trimming -/

/-- A way to write parts that keeps plain text and has no white space at the ends of links. -/
structure IsFace (face : Part → Text) : Prop where
  /-- Plain text is kept. -/
  plain : ∀ text noBracket, face (.plain text noBracket) = text
  /-- Links begin and end with something visible. -/
  link : ∀ spelling, face (.link spelling) ≠ [] ∧ hasBlankEnd (face (.link spelling)) = false

theorem isFace_cleaned (conv : Conventions) : IsFace (Part.cleaned conv) where
  plain := fun _ _ => rfl
  link := fun spelling => by
    refine ⟨?_, Spelling.hasBlankEnd_cleaned⟩
    rw [Part.cleaned, Spelling.cleaned]
    split
    · exact List.cons_ne_nil _ _
    · exact List.cons_ne_nil _ _

theorem isFace_text (conv : Conventions) : IsFace (Part.text conv) where
  plain := fun _ _ => rfl
  link := fun _ => ⟨List.cons_ne_nil _ _, hasBlankEnd_of_ends rfl Spelling.getLast?_text
    (by decide) (by decide)⟩

theorem isFace_published (conv : Conventions) (types : TypeCatalog)
    (properties : PropertyCatalog) : IsFace (Part.published conv types properties) where
  plain := fun _ _ => rfl
  link := fun spelling => by
    have hcleaned := (isFace_cleaned conv).link spelling
    rw [Part.cleaned, Spelling.cleaned] at hcleaned
    rw [Part.published, Spelling.published]
    split
    · next htag => rwa [if_pos htag] at hcleaned
    · exact Spelling.image_ends types properties

/-- Trimming drops parts and ends of parts, the same for every way to write the parts. -/
theorem exists_trimStart_flatMap {parts : List Part} (h : ∀ part ∈ parts, part.InGrammar) :
    ∃ rest : List Part, (∀ part ∈ rest, part.InGrammar) ∧
      ∀ face, IsFace face → trimStart isBlank (parts.flatMap face) = rest.flatMap face := by
  induction parts with
  | nil => exact ⟨[], h, fun _ _ => rfl⟩
  | cons part parts ih =>
    obtain ⟨hpart, hparts⟩ := List.forall_mem_cons.1 h
    cases part with
    | plain text noBracket =>
      by_cases hall : text.all isBlank = true
      · obtain ⟨rest, hrest, hfaces⟩ := ih hparts
        refine ⟨rest, hrest, fun face hface => ?_⟩
        rw [List.flatMap_cons, hface.plain, trimStart_append, if_pos hall, hfaces face hface]
      · have hsub : trimStart isBlank text ⊆ text := (List.dropWhile_suffix isBlank).subset
        refine ⟨.plain (trimStart isBlank text) (fun hmem => noBracket (hsub hmem)) :: parts,
          List.forall_mem_cons.2 ⟨hpart.of_subset hsub, hparts⟩, fun face hface => ?_⟩
        rw [List.flatMap_cons, List.flatMap_cons, hface.plain, hface.plain, trimStart_append,
          if_neg hall]
    | link spelling =>
      refine ⟨.link spelling :: parts, h, fun face hface => ?_⟩
      obtain ⟨hne, hends⟩ := hface.link spelling
      refine trimStart_eq_self ?_
      rw [List.flatMap_cons, List.head?_append_of_ne_nil _ hne]
      exact (Bool.or_eq_false_iff.1 hends).1

theorem exists_trimEnd_flatMap {parts : List Part} (h : ∀ part ∈ parts, part.InGrammar) :
    ∃ rest : List Part, (∀ part ∈ rest, part.InGrammar) ∧
      ∀ face, IsFace face → trimEnd isBlank (parts.flatMap face) = rest.flatMap face := by
  induction parts using List.reverseRecOn with
  | nil => exact ⟨[], h, fun _ _ => rfl⟩
  | append_singleton parts part ih =>
    obtain ⟨hparts, hpart⟩ := List.forall_mem_append.1 h
    rw [List.forall_mem_singleton] at hpart
    cases part with
    | plain text noBracket =>
      by_cases hall : text.all isBlank = true
      · obtain ⟨rest, hrest, hfaces⟩ := ih hparts
        refine ⟨rest, hrest, fun face hface => ?_⟩
        rw [List.flatMap_append, List.flatMap_singleton, hface.plain, trimEnd_append_eq,
          if_pos hall, hfaces face hface]
      · have hsub : trimEnd isBlank text ⊆ text := (List.rdropWhile_prefix isBlank _).subset
        refine ⟨parts ++ [.plain (trimEnd isBlank text) fun hmem => noBracket (hsub hmem)],
          List.forall_mem_append.2 ⟨hparts, List.forall_mem_singleton.2 (hpart.of_subset hsub)⟩,
          fun face hface => ?_⟩
        rw [List.flatMap_append, List.flatMap_append, List.flatMap_singleton,
          List.flatMap_singleton, hface.plain, hface.plain, trimEnd_append_eq, if_neg hall]
    | link spelling =>
      refine ⟨parts ++ [.link spelling], h, fun face hface => ?_⟩
      obtain ⟨hne, hends⟩ := hface.link spelling
      refine trimEnd_eq_self ?_
      rw [List.flatMap_append, List.flatMap_singleton, List.getLast?_append_of_ne_nil _ hne]
      exact (Bool.or_eq_false_iff.1 hends).2

theorem exists_strip_flatMap {parts : List Part} (h : ∀ part ∈ parts, part.InGrammar) :
    ∃ rest : List Part, (∀ part ∈ rest, part.InGrammar) ∧
      ∀ face, IsFace face → strip (parts.flatMap face) = rest.flatMap face := by
  obtain ⟨front, hfront, hstart⟩ := exists_trimStart_flatMap h
  obtain ⟨rest, hrest, hend⟩ := exists_trimEnd_flatMap hfront
  refine ⟨rest, hrest, fun face hface => ?_⟩
  rw [strip, trimEnds, hstart face hface, hend face hface]

/-! ### A grammar as a line -/

/-- The visible text of a link includes no other file. -/
theorem Spelling.includes_visible (s : Spelling) :
    includes "--8<--".toList s.visible = false := by
  have hmark : '<' ∈ "--8<--".toList := by decide
  have hname : '<' ∉ s.name := not_mem_name (by decide)
  have hquote : ∀ written, ∀ c ∈ quote written, c ∉ "--8<--".toList := by
    intro written c hc hmem
    have hc' : c ≠ backquote := ne_of_mem_of_not_mem hmem (by decide)
    exact not_mem_quote hc' written hc
  rw [visible, includes_append_right (by decide) (hquote s.closing),
    includes_append_left (by decide) (hquote s.opening)]
  cases s.kind with
  | type more =>
    have hstart : startsWith "--8<--".toList ('<' :: (s.name ++ ['>'])) = false := rfl
    have hrest : includes "--8<--".toList (s.name ++ ['>']) = false :=
      includes_eq_false_of_not_mem hmark (by simp [hname])
    rw [Kind.shown, includes, hstart, hrest]
    rfl
  | property => exact includes_eq_false_of_not_mem hmark hname

section Line

variable {parts : List Part} (h : ∀ part ∈ parts, part.InGrammar)
include h

/-- A grammar does not begin with the mark of a fence. -/
theorem head?_flatMap_text {m : Char} (hm : m = '~' ∨ m = backquote) :
    (parts.flatMap (Part.text {})).head? ≠ some m := by
  induction parts with
  | nil => exact fun hhead => absurd hhead (Option.some_ne_none m).symm
  | cons part parts ih =>
    obtain ⟨hpart, hparts⟩ := List.forall_mem_cons.1 h
    rw [List.flatMap_cons]
    cases part with
    | plain text noBracket =>
      cases text with
      | nil => exact ih hparts
      | cons c text =>
        intro hhead
        have hmem : m ∈ c :: text := by
          rw [show c = m from Option.some.inj hhead]
          exact List.mem_cons_self
        rcases hm with rfl | rfl
        · exact hpart.2.1 hmem
        · exact hpart.2.2.1 hmem
    | link spelling =>
      intro hhead
      have hbracket : '[' = m := Option.some.inj hhead
      rcases hm with rfl | rfl
      · exact absurd hbracket (by decide)
      · exact absurd hbracket (by decide)

/-- A grammar is no fence. -/
theorem isFence_flatMap_text : isFence (parts.flatMap (Part.text {})) = false := by
  obtain ⟨rest, hrest, hfaces⟩ := exists_trimStart_flatMap h
  have hword : ∀ (m : Char) (w : Text), m = '~' ∨ m = backquote →
      startsWith (m :: w) (rest.flatMap (Part.text {})) = false := by
    intro m w hm
    cases htext : rest.flatMap (Part.text {}) with
    | nil => rfl
    | cons c text =>
      have hhead := head?_flatMap_text hrest hm
      rw [htext] at hhead
      have hc : m ≠ c := fun heq => hhead (congrArg some heq.symm)
      simp [startsWith, after?, hc]
  rw [isFence, hfaces _ (isFace_text {})]
  exact Bool.or_eq_false_iff.2 ⟨hword _ _ (Or.inr rfl), hword _ _ (Or.inl rfl)⟩

/-- A grammar includes no other file: the bracket in the mark of inclusion stands behind a figure,
and in a grammar behind a square bracket or a backquote. -/
theorem includes_flatMap_text :
    includes "--8<--".toList (parts.flatMap (Part.text {})) = false := by
  have hmark : '<' ∈ "--8<--".toList := by decide
  -- What stands in front of the parts grows by what has no angle bracket.
  suffices hfront : ∀ front : Text, '<' ∉ front →
      includes "--8<--".toList (front ++ parts.flatMap (Part.text {})) = false from
    hfront [] List.not_mem_nil
  induction parts with
  | nil =>
    intro front hfront
    refine includes_eq_false_of_not_mem hmark ?_
    rwa [List.flatMap_nil, List.append_nil]
  | cons part parts ih =>
    obtain ⟨hpart, hparts⟩ := List.forall_mem_cons.1 h
    intro front hfront
    cases part with
    | plain text noBracket =>
      have htext : '<' ∉ text := hpart.1
      have hmore := ih hparts (front ++ text) (by simp [hfront, htext])
      rwa [List.append_assoc] at hmore
    | link s =>
      have haddress : '<' ∉ s.address {} := Spelling.not_mem_address hpart (by decide)
      rw [Spelling.address, List.mem_cons, not_or] at haddress
      have htext : front ++ (Part.link s :: parts).flatMap (Part.text {}) =
          front ++ '[' :: (s.visible ++ ']' :: ((s.address {}).tail ++
            parts.flatMap (Part.text {}))) := by
        rw [List.flatMap_cons, Part.text, Spelling.text, Spelling.address]
        simp only [List.cons_append, List.append_assoc, List.tail_cons]
      have hbehind := ih hparts (s.address {}).tail haddress.2
      rw [htext, includes_append_cons (by decide) (by decide),
        includes_append_cons (by decide) (by decide), s.includes_visible, hbehind,
        includes_eq_false_of_not_mem hmark hfront]
      rfl

/-- A grammar stays on its line. -/
theorem not_mem_flatMap_text {c : Char} (hc : c = '\r' ∨ c = '\n') :
    c ∉ parts.flatMap (Part.text {}) := by
  rw [List.mem_flatMap]
  rintro ⟨part, hpart, hmem⟩
  have hin := h part hpart
  cases part with
  | plain text noBracket =>
    rcases hc with rfl | rfl
    · exact hin.2.2.2.1 hmem
    · exact hin.2.2.2.2 hmem
  | link spelling =>
    have hchars : c ≠ '[' ∧ isVisibleChar c = false ∧ isAddressChar c = false := by
      rcases hc with rfl | rfl <;> decide
    rcases List.mem_cons.1 hmem with heq | hmem
    · exact hchars.1 heq
    · rcases List.mem_append.1 hmem with hmem | hmem
      · exact not_mem_of_all Spelling.all_visible hchars.2.1 hmem
      · exact Spelling.not_mem_address hin hchars.2.2 hmem

end Line

end StyleDocs.Link
