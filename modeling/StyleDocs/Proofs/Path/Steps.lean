import StyleDocs.Proofs.Path

/-!
# The steps of a path

The empty parts of a path and its dots lead nowhere; what is left of it are its steps, each a name
or two dots. Reading something below a path puts its steps behind those of the path, and the steps
of a path are those of its components.
-/

namespace StyleDocs.Path

open Text

/-- Whether a part of a path leads anywhere. -/
def isStep (part : Text) : Bool := part != [] && part != ['.']

/-- An empty part and a dot lead nowhere. -/
theorem isStep_eq_false_iff {part : Text} : isStep part = false ↔ part = [] ∨ part = ['.'] := by
  simp [isStep, Classical.or_iff_not_imp_left]

/-- The parts of a path that lead anywhere. -/
def steps (path : Text) : List Text := (splitAt '/' path).filter isStep

/-- The step of a component; the root and the dot are none. -/
def Component.step? : Component → Option Text
  | .name text => some text
  | .up => some ['.', '.']
  | _ => none

theorem step?_inner? (part : Text) :
    (inner? part).bind Component.step? = if isStep part then some part else none := by
  unfold inner? isStep
  by_cases hempty : part = []
  · simp [hempty]
  · by_cases hhere : part = ['.']
    · simp [hhere]
    · by_cases hup : part = ['.', '.'] <;> simp [hempty, hhere, hup, Component.step?]

theorem filterMap_inner? (parts : List Text) :
    (parts.filterMap inner?).filterMap Component.step? = parts.filter isStep := by
  rw [List.filterMap_filterMap, ← List.filterMap_eq_filter]
  congr 1
  funext part
  rw [step?_inner?]
  rfl

/-- An absolute path begins with an empty part. -/
theorem head?_splitAt_of_isAbsolute {path : Text} (h : isAbsolute path = true) :
    (splitAt '/' path).head? = some [] := by
  cases path with
  | nil => cases h
  | cons c path =>
    obtain rfl : c = '/' := by simpa [isAbsolute] using h
    simp [splitAt]

/-- Only an absolute path begins with an empty part. -/
theorem isAbsolute_of_splitAt {path : Text} (hne : path ≠ []) {rest : List Text}
    (h : splitAt '/' path = [] :: rest) : isAbsolute path = true := by
  obtain ⟨c, path, rfl⟩ := List.exists_cons_of_ne_nil hne
  by_cases hc : c = '/'
  · simp [isAbsolute, hc]
  · rw [splitAt, if_neg hc] at h
    split at h <;> cases h

/-- A path has the steps of its components. -/
theorem steps_eq (path : Text) : steps path = (components path).filterMap Component.step? := by
  have hfirst : ∀ first : Text,
      (inner? first).toList.filterMap Component.step? = [first].filter isStep := by
    intro first
    rw [← filterMap_inner?]
    cases h : inner? first <;> simp [h]
  cases hsplit : splitAt '/' path with
  | nil => exact absurd hsplit (splitAt_ne_nil '/' path)
  | cons first rest =>
    rw [steps, components, hsplit]
    dsimp only
    split
    · next habs =>
      have hempty := head?_splitAt_of_isAbsolute habs
      rw [hsplit] at hempty
      obtain rfl : first = [] := Option.some.inj hempty
      exact (filterMap_inner? rest).symm
    · split
      · next hhere =>
        subst hhere
        exact (filterMap_inner? rest).symm
      · rw [List.filterMap_append, hfirst first, filterMap_inner?, ← List.filter_append]
        rfl

/-- Reading something below a path puts its parts behind parts with the steps of the path. -/
theorem splitAt_join {sub : Text} (h : isAbsolute sub = false) (root : Text) :
    ∃ front, splitAt '/' (join root sub) = front ++ splitAt '/' sub ∧
      front.filter isStep = steps root := by
  unfold join
  rw [if_neg (by simp [h])]
  split
  · next hlast =>
    rcases List.eq_nil_or_concat root with rfl | ⟨front, c, rfl⟩
    · exact ⟨[], rfl, rfl⟩
    · obtain rfl : c = '/' := by simpa using hlast
      rw [List.concat_eq_append, List.append_assoc]
      refine ⟨splitAt '/' front, splitAt_append_mark '/' front sub, ?_⟩
      rw [steps, splitAt_append_mark, List.filter_append]
      simp [splitAt, isStep]
  · exact ⟨splitAt '/' root, splitAt_append_mark '/' root sub, rfl⟩

/-- A component is the root of an absolute path, a leading dot, or it is read from a part. -/
theorem mem_components {path : Text} {c : Component} (h : c ∈ components path) :
    (c = .root ∧ isAbsolute path = true) ∨ c = .here ∨
      ∃ part ∈ splitAt '/' path, inner? part = some c := by
  cases hsplit : splitAt '/' path with
  | nil => exact absurd hsplit (splitAt_ne_nil '/' path)
  | cons first rest =>
    have hrest : c ∈ rest.filterMap inner? → ∃ part ∈ first :: rest, inner? part = some c := by
      intro hmem
      obtain ⟨part, hpart, hinner⟩ := List.mem_filterMap.1 hmem
      exact ⟨part, List.mem_cons_of_mem _ hpart, hinner⟩
    rw [components, hsplit] at h
    dsimp only at h
    split at h
    · next habs =>
      exact (List.mem_cons.1 h).imp (fun hroot => ⟨hroot, habs⟩) fun hmem => Or.inr (hrest hmem)
    · split at h
      · exact Or.inr ((List.mem_cons.1 h).imp id hrest)
      · refine Or.inr (Or.inr ((List.mem_append.1 h).elim (fun hmem => ?_) hrest))
        exact ⟨first, List.mem_cons_self, Option.mem_toList.1 hmem⟩

/-- The dot is a component in front only. -/
theorem front_eq_nil_of_here {path : Text} {front behind : List Component}
    (h : components path = front ++ .here :: behind) : front = [] := by
  have htail : ∀ {c : Component} {parts : List Text},
      c :: parts.filterMap inner? = front ++ .here :: behind → front = [] := by
    intro c parts hcomponents
    cases front with
    | nil => rfl
    | cons d front =>
      have hmem : .here ∈ parts.filterMap inner? :=
        (List.cons.inj hcomponents).2 ▸ List.mem_append_right _ List.mem_cons_self
      exact absurd hmem (here_not_mem_inner parts)
  unfold components at h
  split at h
  · simp at h
  · next first rest _ =>
    dsimp only at h
    split at h
    · exact htail h
    · split at h
      · exact htail h
      · have hmem : .here ∈ (inner? first).toList ++ rest.filterMap inner? :=
          h ▸ List.mem_append_right _ List.mem_cons_self
        rcases List.mem_append.1 hmem with hmem | hmem
        · exact absurd (Option.mem_toList.1 hmem) (inner?_ne_here first)
        · exact absurd hmem (here_not_mem_inner rest)

/-- The root is a component of the absolute paths only. -/
theorem root_mem_components_iff {path : Text} :
    .root ∈ components path ↔ isAbsolute path = true := by
  constructor
  · intro h
    rcases mem_components h with ⟨-, habs⟩ | hhere | ⟨part, -, hinner⟩
    · exact habs
    · cases hhere
    · unfold inner? at hinner
      split at hinner
      · cases hinner
      · split at hinner <;> cases hinner
  · intro habs
    cases hsplit : splitAt '/' path with
    | nil => exact absurd hsplit (splitAt_ne_nil '/' path)
    | cons first rest =>
      rw [components, hsplit]
      dsimp only
      rw [if_pos habs]
      exact List.mem_cons_self

end StyleDocs.Path
