import StyleDocs.Proofs.FileTree.Steps
import StyleDocs.Proofs.Path.Document

/-!
# Paths of names

A path whose components are names is relative and begins with no dot, and it is told by its steps:
reading a path of names below another puts the names of the one behind those of the other, however
many slashes are written between them. The components of everything that is read below such a path
are told by the steps as well.
-/

namespace StyleDocs.Path

open Text

/-- Whether every component of a path is a name. -/
def IsPlain (path : Text) : Prop := components path = (names (components path)).map .name

instance (path : Text) : Decidable (IsPlain path) :=
  inferInstanceAs (Decidable (components path = (names (components path)).map .name))

variable {path root sub : Text}

theorem IsPlain.exists_name (h : IsPlain path) {c : Component} (hc : c ∈ components path) :
    ∃ text, c = .name text := by
  rw [h] at hc
  obtain ⟨text, -, rfl⟩ := List.mem_map.1 hc
  exact ⟨text, rfl⟩

theorem IsPlain.isAbsolute_eq_false (h : IsPlain path) : isAbsolute path = false := by
  rw [← Bool.not_eq_true, ← root_mem_components_iff]
  intro hroot
  obtain ⟨text, htext⟩ := h.exists_name hroot
  cases htext

/-- A path of names has its names as steps. -/
theorem IsPlain.steps_eq_names (h : IsPlain path) : steps path = names (components path) := by
  rw [steps_eq, Path.steps_eq_names]
  intro hup
  obtain ⟨text, htext⟩ := h.exists_name hup
  cases htext

/-- A path of names that is not empty is settled. -/
theorem IsPlain.settled (h : IsPlain path) (hne : path ≠ []) : Settled path := by
  refine ⟨hne, fun hfirst => ?_⟩
  cases hsplit : splitAt '/' path with
  | nil => exact absurd hsplit (splitAt_ne_nil '/' path)
  | cons first rest =>
    obtain rfl : first = ['.'] := by simpa [hsplit] using hfirst
    have hhere : .here ∈ components path := by
      rw [components, hsplit]
      simp [h.isAbsolute_eq_false]
    obtain ⟨text, htext⟩ := h.exists_name hhere
    cases htext

/-- A component is read from a step only. -/
theorem filterMap_inner?_filter (parts : List Text) :
    (parts.filter isStep).filterMap inner? = parts.filterMap inner? := by
  rw [List.filterMap_filter]
  refine List.filterMap_congr fun part _ => ?_
  by_cases hstep : isStep part = true
  · rw [if_pos hstep]
  · rw [if_neg hstep]
    rcases isStep_eq_false_iff.1 (Bool.not_eq_true _ ▸ hstep) with rfl | rfl <;> rfl

/-- The components of a settled relative path are read from its steps. -/
theorem components_eq_steps (h : isAbsolute path = false) (hsettled : Settled path) :
    components path = (steps path).filterMap inner? := by
  obtain ⟨-, hfirst⟩ := hsettled
  rw [steps, filterMap_inner?_filter]
  cases hsplit : splitAt '/' path with
  | nil => exact absurd hsplit (splitAt_ne_nil '/' path)
  | cons first rest =>
    have hdot : first ≠ ['.'] := by simpa [hsplit] using hfirst
    rw [components, hsplit]
    dsimp only
    rw [if_neg (by simp [h]), if_neg hdot, List.filterMap_cons]
    cases inner? first <;> rfl

/-- Names as steps are names as components. -/
theorem components_eq_names (h : isAbsolute path = false) (hsettled : Settled path)
    (hnames : ∀ step ∈ steps path, FileTree.IsName step) :
    components path = (steps path).map .name := by
  rw [components_eq_steps h hsettled, ← List.filterMap_eq_map]
  refine List.filterMap_congr fun step hstep => ?_
  obtain ⟨hne, hhere, hup, -⟩ := hnames step hstep
  simp [inner?, hne, hhere, hup]

/-- Reading something below a path puts its steps behind those of the path. -/
theorem steps_join (h : isAbsolute sub = false) (root : Text) :
    steps (join root sub) = steps root ++ steps sub := by
  obtain ⟨front, hsplit, hfront⟩ := splitAt_join h root
  rw [steps, hsplit, List.filter_append, hfront]
  rfl

theorem isAbsolute_of_not_mem {part : Text} (h : '/' ∉ part) : isAbsolute part = false := by
  rw [← Bool.not_eq_true]
  intro habs
  have hhead := head?_splitAt_of_isAbsolute habs
  rw [splitAt_of_not_mem h] at hhead
  obtain rfl : part = [] := by simpa using hhead
  cases habs

theorem steps_of_not_mem {part : Text} (h : '/' ∉ part) : steps part = [part].filter isStep := by
  rw [steps, splitAt_of_not_mem h]

/-- The names of a path of names are its components. -/
theorem IsPlain.components_eq (h : IsPlain path) : components path = (steps path).map .name := by
  rw [h.steps_eq_names]
  exact h

theorem IsPlain.isName (h : IsPlain path) {step : Text} (hstep : step ∈ steps path) :
    FileTree.IsName step := by
  rw [h.steps_eq_names, mem_names_iff] at hstep
  exact FileTree.isName_of_mem_components hstep

/-- What is read below a path of names by a path of names has the names of both. -/
theorem IsPlain.components_join (hroot : IsPlain root) (hsub : IsPlain sub) :
    components (join root sub) = components root ++ components sub := by
  by_cases hempty : root = []
  · subst hempty
    have hjoin : join [] sub = sub := by simp [join, hsub.isAbsolute_eq_false]
    rw [hjoin]
    rfl
  · have hsteps := steps_join hsub.isAbsolute_eq_false root
    rw [components_eq_names (isAbsolute_join hroot.isAbsolute_eq_false hsub.isAbsolute_eq_false)
      ((hroot.settled hempty).join sub), hsteps, List.map_append, ← hroot.components_eq,
      ← hsub.components_eq]
    intro step hstep
    rw [hsteps] at hstep
    exact (List.mem_append.1 hstep).elim hroot.isName hsub.isName

theorem names_map_name (texts : List Text) : names (texts.map .name) = texts := by
  rw [names, List.filterMap_map]
  exact List.filterMap_some

theorem names_append (front behind : List Component) :
    names (front ++ behind) = names front ++ names behind := by
  rw [names, List.filterMap_append]
  rfl

/-- What is read below a path of names by a path of names is a path of names. -/
theorem IsPlain.join (hroot : IsPlain root) (hsub : IsPlain sub) : IsPlain (join root sub) := by
  rw [IsPlain, hroot.components_join hsub, hroot.components_eq, hsub.components_eq,
    ← List.map_append, names_map_name]

/-- A path of names that is not empty begins with one. -/
theorem IsPlain.exists_first (h : IsPlain path) (hne : path ≠ []) :
    ∃ first rest, splitAt '/' path = first :: rest ∧ FileTree.IsName first := by
  obtain ⟨first, rest, hsplit⟩ := List.exists_cons_of_ne_nil (splitAt_ne_nil '/' path)
  refine ⟨first, rest, hsplit, h.isName (List.mem_filter.2 ⟨?_, ?_⟩)⟩
  · rw [hsplit]
    exact List.mem_cons_self
  · have hfirst := (h.settled hne).2
    have hempty : first ≠ [] := by
      rintro rfl
      have habsolute := isAbsolute_of_splitAt hne hsplit
      rw [h.isAbsolute_eq_false] at habsolute
      cases habsolute
    rw [hsplit] at hfirst
    simpa [isStep, hempty] using hfirst

end StyleDocs.Path
