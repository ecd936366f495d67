import StyleDocs.Proofs.Path.Steps

/-!
# The path of a document taken apart

A name with an extension is its stem, a dot and the extension. The path of a document below the root
keeps the names of the directories and the stem; what leads up is left out, and so is a stem that is
no name.
-/

namespace StyleDocs.Path

open Text

/-- A name has no extension, or it is a stem, a dot and an extension without a dot. -/
theorem splitExtension_cases (name : Text) :
    splitExtension name = (name, none) ∨
      ∃ front extension, splitExtension name = (front, some extension) ∧
        front ≠ [] ∧ name = front ++ '.' :: extension ∧ '.' ∉ extension := by
  have hparts := List.takeWhile_append_dropWhile (p := (· != '.')) (l := name.reverse)
  have hextension : '.' ∉ (name.reverse.takeWhile (· != '.')).reverse := by
    intro hmem
    simpa using List.all_eq_true.1 List.all_takeWhile '.' (List.mem_reverse.1 hmem)
  unfold splitExtension
  cases hdrop : name.reverse.dropWhile (· != '.') with
  | nil => exact Or.inl rfl
  | cons c front =>
    obtain rfl : c = '.' := by
      simpa [hdrop] using List.head_dropWhile_not (l := name.reverse) (· != '.') (by simp [hdrop])
    dsimp only
    split
    · exact Or.inl rfl
    · next hfront =>
      refine Or.inr ⟨_, _, rfl, by simpa using hfront, ?_, hextension⟩
      rw [hdrop] at hparts
      simpa using (congrArg List.reverse hparts).symm

theorem eq_of_extension? {name extension : Text} (h : extension? name = some extension) :
    stem name ≠ [] ∧ name = stem name ++ '.' :: extension ∧ '.' ∉ extension := by
  rw [extension?] at h
  rw [stem]
  rcases splitExtension_cases name with hnone | ⟨front, found, hsome, hfront, hname, hdot⟩
  · rw [hnone] at h
    cases h
  · rw [hsome] at h ⊢
    cases h
    exact ⟨hfront, hname, hdot⟩

theorem stem_of_extension?_eq_none {name : Text} (h : extension? name = none) :
    stem name = name := by
  rw [extension?] at h
  rw [stem]
  rcases splitExtension_cases name with hnone | ⟨front, found, hsome, -⟩
  · rw [hnone]
  · rw [hsome] at h
    cases h

/-- A stem, a dot and an extension without a dot are cut apart again. -/
theorem splitExtension_append {name extension : Text} (hne : name ≠ []) (h : '.' ∉ extension) :
    splitExtension (name ++ '.' :: extension) = (name, some extension) := by
  have hreverse :
      (name ++ '.' :: extension).reverse = extension.reverse ++ '.' :: name.reverse := by simp
  have hdots : ∀ c ∈ extension.reverse, (c != '.') = true := by
    intro c hc
    rw [bne_iff_ne]
    rintro rfl
    exact h (List.mem_reverse.1 hc)
  have hdrop : (name ++ '.' :: extension).reverse.dropWhile (· != '.') = '.' :: name.reverse := by
    rw [hreverse, List.dropWhile_append_of_pos hdots]
    rfl
  have htake : (name ++ '.' :: extension).reverse.takeWhile (· != '.') = extension.reverse := by
    rw [hreverse, List.takeWhile_append_of_pos hdots]
    exact List.append_nil _
  rw [splitExtension, hdrop, htake]
  dsimp only
  rw [if_neg (by simpa using hne), List.reverse_reverse, List.reverse_reverse]

theorem mem_of_mem_stem {name : Text} {c : Char} (h : c ∈ stem name) : c ∈ name := by
  cases hextension : extension? name with
  | none => exact stem_of_extension?_eq_none hextension ▸ h
  | some extension =>
    rw [(eq_of_extension? hextension).2.1]
    exact List.mem_append_left _ h

/-- What stands before a dot of a name stands in front of what stands before its last dot. -/
theorem prefix_of_dot {front behind front' behind' : Text} (hbehind : '.' ∉ behind)
    (h : front ++ '.' :: behind = front' ++ '.' :: behind') : front' <+: front := by
  rcases List.append_eq_append_iff.1 h with ⟨a, rfl, ha⟩ | ⟨a, rfl, -⟩
  · cases a with
    | nil => simp
    | cons c a =>
      obtain ⟨-, rfl⟩ := List.cons.inj ha
      simp at hbehind
  · exact List.prefix_append _ _

theorem dropExtension_append (front : List Component) (name : Text) :
    dropExtension (front ++ [.name name]) = front ++ (inner? (stem name)).toList := by
  induction front with
  | nil => rfl
  | cons c front ih =>
    cases hrest : front ++ [.name name] with
    | nil => simp at hrest
    | cons next rest =>
      rw [List.cons_append, hrest, List.cons_append, ← ih, hrest]
      cases c <;> rfl

theorem documentPath?_eq_some {root path document : Text}
    (h : documentPath? root path = some document) :
    ∃ rest, components path = components root ++ rest ∧ names (dropExtension rest) ≠ [] ∧
      document = joinWith ['/'] (names (dropExtension rest)) := by
  unfold documentPath? at h
  split at h
  · cases h
  · next rest hbelow =>
    split at h
    · cases h
    · next parts hne =>
      exact ⟨rest, below?_eq_some_iff.1 hbelow, hne, (Option.some.inj h).symm⟩

theorem documentPath?_of_components {root path : Text} {rest : List Component}
    (h : components path = components root ++ rest) (hne : names (dropExtension rest) ≠ []) :
    documentPath? root path = some (joinWith ['/'] (names (dropExtension rest))) := by
  rw [documentPath?, below?_eq_some_iff.2 h]
  dsimp only
  cases hnames : names (dropExtension rest) with
  | nil => exact absurd hnames hne
  | cons => rfl

theorem mem_names_iff {components : List Component} {text : Text} :
    text ∈ names components ↔ .name text ∈ components := by
  rw [names, List.mem_filterMap]
  constructor
  · rintro ⟨c, hc, htext⟩
    cases c with
    | name text' => exact Option.some.inj htext ▸ hc
    | root | here | up => cases htext
  · exact fun h => ⟨_, h, rfl⟩

/-- Components are names or lead up or say nothing. -/
theorem length_steps {components : List Component}
    (hnames : ∀ name, .name name ∈ components → name ≠ ['.', '.']) :
    (components.filterMap Component.step?).length =
      (names components).length +
        (components.filterMap Component.step?).count ['.', '.'] := by
  induction components with
  | nil => rfl
  | cons c rest ih =>
    have ih := ih fun name hmem => hnames name (List.mem_cons_of_mem _ hmem)
    cases c with
    | name text =>
      have hne := hnames text List.mem_cons_self
      have hsteps : (Component.name text :: rest).filterMap Component.step? =
          text :: rest.filterMap Component.step? := rfl
      have htext : names (.name text :: rest) = text :: names rest := rfl
      rw [hsteps, htext, List.count_cons_of_ne hne, List.length_cons, List.length_cons, ih]
      omega
    | up =>
      have hsteps : (Component.up :: rest).filterMap Component.step? =
          ['.', '.'] :: rest.filterMap Component.step? := rfl
      have htext : names (.up :: rest) = names rest := rfl
      rw [hsteps, htext, List.count_cons_self, List.length_cons, ih]
      omega
    | root | here => exact ih

theorem steps_eq_names {components : List Component} (h : .up ∉ components) :
    components.filterMap Component.step? = names components := by
  refine List.filterMap_congr fun c hc => ?_
  cases c with
  | up => exact absurd hc h
  | name | root | here => rfl

end StyleDocs.Path
