import StyleDocs.Proofs.Link
import StyleDocs.Proofs.Text.Strip

/-!
# Links as documents spell them

A link is spelled with choices that its image does not depend on: how far a path climbs, and which
part of the target document it points into. Whatever the choices are, the recogniser of its kind
finds the link with its visible text and its target, up to its end and not further.
-/

namespace StyleDocs.Link

open Text

/-! ### Names in front of other text -/

theorem afterRun?_append {p : Char → Bool} {w rest : Text} (hne : w ≠ [])
    (hw : ∀ c ∈ w, p c = true) (hrest : rest.head?.any p = false) :
    afterRun? p (w ++ rest) = some rest := by
  cases w with
  | nil => exact absurd rfl hne
  | cons c w =>
    rw [List.forall_mem_cons] at hw
    rw [afterRun?, List.cons_append, afterChar?, if_pos hw.1, Option.map_some,
      List.dropWhile_append_of_pos hw.2]
    exact congrArg some (trimStart_eq_self hrest)

theorem afterTypeName?_append {w : Text} (hne : w ≠ []) (hw : ∀ c ∈ w, isTargetChar c = true)
    (rest : Text) : afterTypeName? ('<' :: (w ++ '>' :: rest)) = some rest := by
  have hopen : after? ['<'] ('<' :: (w ++ '>' :: rest)) = some (w ++ '>' :: rest) := rfl
  have hclose : after? ['>'] ('>' :: rest) = some rest := rfl
  have hrun : afterRun? isTargetChar (w ++ '>' :: rest) = some ('>' :: rest) :=
    afterRun?_append hne hw rfl
  rw [afterTypeName?, hopen, Option.bind_some, hrun, Option.bind_some, hclose]

theorem afterPropertyName?_append {w rest : Text} (hfirst : w.head?.any Char.isLower = true)
    (hw : ∀ c ∈ w, isPropertyChar c = true) (hrest : rest.head?.any isPropertyChar = false) :
    afterPropertyName? (w ++ rest) = some rest := by
  cases w with
  | nil => cases hfirst
  | cons c w =>
    rw [List.forall_mem_cons] at hw
    have hc : c.isLower = true := hfirst
    rw [afterPropertyName?, List.cons_append, afterChar?, if_pos hc, Option.map_some,
      List.dropWhile_append_of_pos hw.2]
    exact congrArg some (trimStart_eq_self hrest)

/-- A backquote or nothing. -/
def quote (written : Bool) : Text := if written then [backquote] else []

theorem skipBackquote_quote (written : Bool) {t : Text} (h : t.head? ≠ some backquote) :
    skipBackquote (quote written ++ t) = t := by
  cases written with
  | true => rfl
  | false =>
    cases t with
    | nil => rfl
    | cons c t =>
      have hc : backquote ≠ c := fun he => h (congrArg some he.symm)
      simp [quote, skipBackquote, after?, hc]

/-- A name between brackets, with a backquote at either end or none, is the visible text. -/
theorem label?_quoted {f : Text → Option Text} {shown : Text} (opening closing : Bool)
    (hne : shown ≠ []) (hfirst : shown.head? ≠ some backquote)
    (hf : ∀ rest, rest.head?.any isPropertyChar = false → f (shown ++ rest) = some rest)
    (rest : Text) :
    label? f ('[' :: (quote opening ++ shown ++ quote closing ++ ']' :: rest)) =
      some (quote opening ++ shown ++ quote closing, rest) := by
  have hopen : after? ['['] ('[' :: (quote opening ++ shown ++ quote closing ++ ']' :: rest)) =
      some (quote opening ++ (shown ++ (quote closing ++ ']' :: rest))) := by
    rw [after?_eq_some_iff]
    simp
  have hinner : skipBackquote (quote opening ++ (shown ++ (quote closing ++ ']' :: rest))) =
      shown ++ (quote closing ++ ']' :: rest) := by
    refine skipBackquote_quote opening ?_
    rwa [List.head?_append_of_ne_nil _ hne]
  have hname : f (shown ++ (quote closing ++ ']' :: rest)) = some (quote closing ++ ']' :: rest) :=
    hf _ (by cases closing <;> rfl)
  have hend : skipBackquote (quote closing ++ ']' :: rest) = ']' :: rest :=
    skipBackquote_quote closing (by simp [backquote])
  have hclose : after? [']'] (']' :: rest) = some rest := rfl
  have hvisible : (quote opening ++ (shown ++ (quote closing ++ ']' :: rest))).take
      ((quote opening ++ (shown ++ (quote closing ++ ']' :: rest))).length -
        (']' :: rest).length) = quote opening ++ shown ++ quote closing := by
    have hsplit : quote opening ++ (shown ++ (quote closing ++ ']' :: rest)) =
        (quote opening ++ shown ++ quote closing) ++ ']' :: rest := by simp
    rw [hsplit, List.length_append, Nat.add_sub_cancel, List.take_left]
  simp only [label?, hopen, hinner, hname, hend, hclose, Option.map_some, hvisible]

/-! ### Targets in front of other text -/

/-- The fragment of a target, or none. -/
def fragmentText : Option Text → Text
  | none => []
  | some written => '#' :: written

/-- A target with its fragment, up to the closing parenthesis. -/
def targetText (extension name : Text) (fragment : Option Text) : Text :=
  name ++ '.' :: (extension ++ fragmentText fragment ++ [')'])

theorem targetEnd?_targetText {extension name : Text} {fragment : Option Text} (hne : name ≠ [])
    (hname : ∀ c ∈ name, isTargetChar c = true)
    (hfragment : ∀ written ∈ fragment, ∀ c ∈ written, c ≠ ')' ∧ isBlank c = false)
    (rest : Text) :
    targetEnd? extension (targetText extension name fragment ++ rest) = some (name, rest) := by
  have htext : targetText extension name fragment ++ rest =
      name ++ '.' :: (extension ++ (fragmentText fragment ++ ')' :: rest)) := by simp [targetText]
  have htake : (name ++ '.' :: (extension ++ (fragmentText fragment ++ ')' :: rest))).takeWhile
      isTargetChar = name := takeWhile_append_cons hname (by decide) _
  have hdrop : (name ++ '.' :: (extension ++ (fragmentText fragment ++ ')' :: rest))).dropWhile
      isTargetChar = '.' :: (extension ++ (fragmentText fragment ++ ')' :: rest)) :=
    dropWhile_append_cons hname (by decide) _
  have hextension : after? ('.' :: extension)
      ('.' :: (extension ++ (fragmentText fragment ++ ')' :: rest))) =
      some (fragmentText fragment ++ ')' :: rest) := after?_eq_some_iff.2 rfl
  have hclose : after? [')'] (')' :: rest) = some rest := rfl
  have hempty : name.isEmpty = false := by simpa using hne
  rw [htext, targetEnd?]
  simp only [htake, hempty, Bool.false_eq_true, if_false, hdrop, hextension]
  cases fragment with
  | none => rfl
  | some written =>
    have hwritten : (written ++ ')' :: rest).dropWhile (fun c => c != ')' && !isBlank c) =
        ')' :: rest := by
      refine dropWhile_append_cons (fun c hc => ?_) (by simp) rest
      obtain ⟨hparen, hblank⟩ := hfragment written rfl c hc
      simp [hparen, hblank]
    simp only [fragmentText, List.cons_append, hwritten, hclose, Option.map_some]

/-- Some steps up. -/
def steps : Nat → Text
  | 0 => []
  | n + 1 => "../".toList ++ steps n

theorem le_length_steps (n : Nat) : n ≤ (steps n).length := by
  induction n with
  | zero => exact Nat.zero_le _
  | succ n ih =>
    rw [steps, List.length_append]
    have hstep : "../".toList.length = 3 := rfl
    omega

/-- What is found behind a climb and nowhere further up is the first find of the climb. -/
theorem findSome?_climbs {β : Type} {f : Text → Option β} {t : Text} {b : β} (hfound : f t = some b)
    (hdeeper : ∀ fuel, ∀ place ∈ climbs fuel t, f place = none) {n fuel : Nat} (hn : n < fuel) :
    (climbs fuel (steps (n + 1) ++ t)).findSome? f = some b := by
  induction n generalizing fuel with
  | zero =>
    obtain ⟨fuel, rfl⟩ := Nat.exists_eq_succ_of_ne_zero (Nat.ne_of_gt hn)
    have hclimb : climbs (fuel + 1) (steps 1 ++ t) = climbs fuel t ++ [t] := rfl
    rw [hclimb, List.findSome?_append, List.findSome?_eq_none_iff.2 (hdeeper fuel)]
    simp [hfound]
  | succ n ih =>
    obtain ⟨fuel, rfl⟩ := Nat.exists_eq_succ_of_ne_zero (Nat.ne_of_gt (Nat.zero_lt_of_lt hn))
    have hclimb : climbs (fuel + 1) (steps (n + 1 + 1) ++ t) =
        climbs fuel (steps (n + 1) ++ t) ++ [steps (n + 1) ++ t] := rfl
    rw [hclimb, List.findSome?_append, ih (Nat.lt_of_succ_lt_succ hn), Option.some_or]

/-- Behind a directory and a text that begins with a character of a target, no climb leads to the
directory once more: the dots and slashes of the climb would have to make up for that character. -/
theorem eq_none_of_mem_climbs {directory target : Text} {extension : Text} {c : Char}
    (hc : isTargetChar c = true) (hfirst : target.head? = some c) {fuel : Nat} {place : Text}
    (hplace : place ∈ climbs fuel (directory ++ target)) :
    (after? directory place).bind (targetEnd? extension) = none := by
  cases hbehind : after? directory place with
  | none => rfl
  | some behind =>
    exfalso
    obtain ⟨u, hne, hu, hsplit⟩ := exists_of_mem_climbs hplace
    rw [after?_eq_some_iff.1 hbehind, ← List.append_assoc] at hsplit
    rcases List.append_eq_append_iff.1 hsplit with ⟨w, hw, hwtarget⟩ | ⟨w, hw, -⟩
    · -- The part of the target that makes up for the climb is a rearrangement of the climb.
      have hperm : (directory ++ w).Perm (directory ++ u) := by
        rw [← hw]
        exact List.perm_append_comm
      have hwu : w.Perm u := (List.perm_append_left_iff directory).1 hperm
      cases w with
      | nil => exact hne hwu.nil_eq.symm
      | cons d w =>
        rw [hwtarget] at hfirst
        have hd : d = c := Option.some.inj hfirst
        rcases hu d (hwu.subset List.mem_cons_self) with rfl | rfl
        · exact absurd hc (by rw [← hd]; decide)
        · exact absurd hc (by rw [← hd]; decide)
    · have hlength := congrArg List.length hw
      rw [List.length_append, List.length_append] at hlength
      have : 0 < u.length := List.length_pos_iff.2 hne
      omega

/-! ### Links -/

/-- What a link leads to. -/
inductive Kind where
  /-- A type: the path climbs one step and some more to the type directory. -/
  | type (more : Nat)
  /-- A property: the path stays in the directory. -/
  | property
  deriving DecidableEq, Repr

namespace Kind

/-- The names that links of a kind show. -/
def IsName : Kind → Text → Prop
  | .type _, name => name ≠ [] ∧ name.all isTargetChar = true
  | .property, name => name.head?.any Char.isLower = true ∧ name.all isPropertyChar = true

instance (kind : Kind) (name : Text) : Decidable (kind.IsName name) :=
  match kind with
  | .type _ => inferInstanceAs (Decidable (_ ∧ _))
  | .property => inferInstanceAs (Decidable (_ ∧ _))

/-- A name as it is shown: names of types stand in angle brackets. -/
def shown : Kind → Text → Text
  | .type _, name => '<' :: (name ++ ['>'])
  | .property, name => name

/-- The path to the directory of the target. -/
def path (conv : Conventions) : Kind → Text
  | .type more => steps (more + 1) ++ (conv.typeDirectory ++ ['/'])
  | .property => "./".toList

end Kind

/-- Whether fragments are made of this character: it stays in the parentheses, is no white space and
opens no other link. -/
def isFragmentChar (c : Char) : Bool := c != ')' && !isBlank c && c != '['

/-- A link with everything that its text says. -/
structure Spelling where
  /-- What it leads to. -/
  kind : Kind
  /-- The name that it shows. -/
  name : Text
  /-- A backquote stands before the name. -/
  opening : Bool := false
  /-- A backquote stands behind the name. -/
  closing : Bool := false
  /-- The name of the target document. -/
  target : Text
  /-- The part of the document that it points into. -/
  fragment : Option Text := none
  /-- The name is one that links of the kind show. -/
  isName : kind.IsName name
  /-- There is a target. -/
  hasTarget : target ≠ []
  /-- The target is written in the characters of targets. -/
  isTarget : target.all isTargetChar = true
  /-- The fragment is written in the characters of fragments. -/
  isFragment : fragment.all (fun written => written.all isFragmentChar) = true

namespace Spelling

variable (conv : Conventions) (s : Spelling)

/-- What stands between the brackets. -/
def visible : Text := quote s.opening ++ s.kind.shown s.name ++ quote s.closing

/-- What follows the visible text. -/
def address : Text :=
  ']' :: '(' :: (s.kind.path conv ++ targetText conv.extension s.target s.fragment)

/-- The link as it is written. -/
def text : Text := '[' :: (s.visible ++ s.address conv)

/-- What the recognisers keep of the link. -/
def toWritten : Written := ⟨s.visible, s.target⟩

theorem isTargetChar_target : ∀ c ∈ s.target, isTargetChar c = true :=
  List.all_eq_true.1 s.isTarget

theorem of_mem_fragment {written : Text} (hwritten : s.fragment = some written) {c : Char}
    (hc : c ∈ written) : (c ≠ ')' ∧ isBlank c = false) ∧ c ≠ '[' := by
  have h := s.isFragment
  rw [hwritten, Option.all_some] at h
  simpa [isFragmentChar] using List.all_eq_true.1 h c hc

theorem targetEnd?_append (rest : Text) :
    targetEnd? conv.extension (targetText conv.extension s.target s.fragment ++ rest) =
      some (s.target, rest) :=
  targetEnd?_targetText s.hasTarget s.isTargetChar_target
    (fun _ hwritten _ hc => (s.of_mem_fragment hwritten hc).1) rest

variable {s}

/-- A link to a type is found as it is written, up to its end. -/
theorem typeLink_text {more : Nat} (hkind : s.kind = .type more) (rest : Text) :
    typeLink conv (s.text conv ++ rest) = some (s.toWritten, rest) := by
  obtain ⟨hname, hchars⟩ : s.name ≠ [] ∧ s.name.all isTargetChar = true := by
    have h := s.isName
    rwa [hkind] at h
  have hshown : s.kind.shown s.name = '<' :: (s.name ++ ['>']) := by rw [hkind]; rfl
  have hpath : s.kind.path conv = steps (more + 1) ++ (conv.typeDirectory ++ ['/']) := by
    rw [hkind]; rfl
  have hlabel : ∀ behind, label? afterTypeName? ('[' :: (s.visible ++ ']' :: behind)) =
      some (s.visible, behind) := by
    refine label?_quoted s.opening s.closing (by simp [hshown]) (by simp [hshown, backquote]) ?_
    intro behind _
    rw [hshown]
    simpa using afterTypeName?_append hname (List.all_eq_true.1 hchars) behind
  -- Behind the parenthesis stand the steps up, the directory and the target.
  have htext : s.text conv ++ rest = '[' :: (s.visible ++ ']' :: '(' :: (steps (more + 1) ++
      ((conv.typeDirectory ++ ['/']) ++
        (targetText conv.extension s.target s.fragment ++ rest)))) := by
    simp only [text, address, hpath, List.cons_append, List.append_assoc]
  have hopen : ∀ behind : Text, after? ['('] ('(' :: behind) = some behind := fun _ => rfl
  obtain ⟨c, target, htarget⟩ := List.exists_cons_of_ne_nil s.hasTarget
  have hfound : (after? (conv.typeDirectory ++ ['/']) ((conv.typeDirectory ++ ['/']) ++
      (targetText conv.extension s.target s.fragment ++ rest))).bind
      (targetEnd? conv.extension) = some (s.target, rest) := by
    rw [after?_eq_some_iff.2 rfl, Option.bind_some, s.targetEnd?_append]
  have hdeeper : ∀ fuel, ∀ place ∈ climbs fuel ((conv.typeDirectory ++ ['/']) ++
      (targetText conv.extension s.target s.fragment ++ rest)),
      (after? (conv.typeDirectory ++ ['/']) place).bind (targetEnd? conv.extension) = none := by
    intro fuel place hplace
    refine eq_none_of_mem_climbs (c := c) (s.isTargetChar_target c ?_) ?_ hplace
    · rw [htarget]
      exact List.mem_cons_self
    · rw [targetText, htarget]
      rfl
  have hfuel := le_length_steps (more + 1)
  rw [htext, typeLink]
  simp only [hlabel, hopen]
  rw [findSome?_climbs hfound hdeeper, Option.map_some]
  · rfl
  · rw [List.length_append]
    omega

/-- A link to a property is found as it is written, up to its end. -/
theorem propertyLink_text (hkind : s.kind = .property) (rest : Text) :
    propertyLink conv (s.text conv ++ rest) = some (s.toWritten, rest) := by
  obtain ⟨hfirst, hchars⟩ :
      s.name.head?.any Char.isLower = true ∧ s.name.all isPropertyChar = true := by
    have h := s.isName
    rwa [hkind] at h
  have hshown : s.kind.shown s.name = s.name := by rw [hkind]; rfl
  have hpath : s.kind.path conv = "./".toList := by rw [hkind]; rfl
  have hlabel : ∀ behind, label? afterPropertyName? ('[' :: (s.visible ++ ']' :: behind)) =
      some (s.visible, behind) := by
    refine label?_quoted s.opening s.closing ?_ ?_ ?_
    · intro he
      rw [hshown] at he
      rw [he] at hfirst
      cases hfirst
    · intro he
      rw [hshown] at he
      rw [he] at hfirst
      exact absurd hfirst (by decide)
    · intro behind hbehind
      rw [hshown]
      exact afterPropertyName?_append hfirst (List.all_eq_true.1 hchars) hbehind
  have htext : s.text conv ++ rest = '[' :: (s.visible ++ ']' :: ("(./".toList ++
      (targetText conv.extension s.target s.fragment ++ rest))) := by
    rw [text, address, hpath]
    simp
  rw [htext, propertyLink]
  simp only [hlabel]
  rw [after?_eq_some_iff.2 rfl, Option.bind_some, s.targetEnd?_append]
  rfl

end Spelling

end StyleDocs.Link
