import StyleDocs.Path
import StyleDocs.Proofs.Text.Occurrence

/-!
# The leading dot of a path

A `.` in front of a path leads nowhere, but it is a component. A path whose first part is another
one keeps it whatever is read below it, so no document with such a path is below a root that is
written with the dot.
-/

namespace StyleDocs.Path

open Text

/-- A root with a dot in front of it; the empty root is the dot alone. -/
def dotted (root : Text) : Text := '.' :: if root = [] then [] else '/' :: root

theorem dotted_of_ne_nil {root : Text} (h : root ≠ []) : dotted root = '.' :: '/' :: root := by
  rw [dotted, if_neg h]

/-- Reading something below the dotted root is reading it below the root, with the dot in front. -/
theorem join_dotted {sub : Text} (h : isAbsolute sub = false) (root : Text) :
    join (dotted root) sub = '.' :: '/' :: join root sub := by
  by_cases hroot : root = []
  · subst hroot
    simp [dotted, join, h]
  · have hlast : (dotted root).getLast? = root.getLast? := by
      obtain ⟨c, rest, rfl⟩ := List.exists_cons_of_ne_nil hroot
      rw [dotted_of_ne_nil hroot, List.getLast?_cons_cons, List.getLast?_cons_cons]
    rw [join, join, hlast, dotted_of_ne_nil hroot]
    simp only [h, Bool.false_eq_true, if_false]
    split <;> rfl

theorem join_ne_nil {root : Text} (h : root ≠ []) (sub : Text) : join root sub ≠ [] := by
  unfold join
  split
  · next hsub =>
    rintro rfl
    cases hsub
  · split <;> simp [h]

theorem isAbsolute_join {root sub : Text} (hroot : isAbsolute root = false)
    (hsub : isAbsolute sub = false) : isAbsolute (join root sub) = false := by
  cases root with
  | nil => simp [join, hsub]
  | cons c root =>
    have hc : isAbsolute (c :: root) = false := hroot
    rw [join, if_neg (by simp [hsub])]
    split <;> exact hc

/-! ### Settled paths -/

/-- A path is settled when it has a first part that is not the dot. -/
def Settled (path : Text) : Prop := path ≠ [] ∧ (splitAt '/' path).head? ≠ some ['.']

theorem settled_root : Settled ['/'] := by
  constructor <;> decide

/-- A name is settled. -/
theorem settled_name {name : Text} (hne : name ≠ []) (hhere : name ≠ ['.']) (hname : '/' ∉ name) :
    Settled name := by
  refine ⟨hne, ?_⟩
  rw [splitAt_of_not_mem hname]
  simpa using hhere

/-- What is read below a settled path is settled. -/
theorem Settled.join {path : Text} (h : Settled path) (sub : Text) : Settled (join path sub) := by
  obtain ⟨hne, hfirst⟩ := h
  -- Behind a slash, nothing changes the first part.
  have hbelow : ∀ front behind : Text, (splitAt '/' front).head? ≠ some ['.'] →
      Settled (front ++ '/' :: behind) := by
    intro front behind hfront
    refine ⟨by simp, ?_⟩
    rwa [splitAt_append_mark, List.head?_append_of_ne_nil _ (splitAt_ne_nil '/' front)]
  unfold Path.join
  split
  · next habs =>
    cases sub with
    | nil => cases habs
    | cons c rest =>
      have hc : c = '/' := by simpa [isAbsolute] using habs
      subst hc
      exact hbelow [] rest (by simp [splitAt])
  · split
    · next hlast =>
      rw [List.getLast?_eq_some_getLast hne] at hlast
      have hslash : path.getLast hne = '/' := by simpa using hlast
      have hpath := List.dropLast_append_getLast hne
      rw [hslash] at hpath
      rw [← hpath] at hfirst ⊢
      rw [splitAt_append_mark, List.head?_append_of_ne_nil _ (splitAt_ne_nil '/' _)] at hfirst
      rw [List.append_assoc]
      exact hbelow path.dropLast sub hfirst
    · exact hbelow path sub hfirst

theorem inner?_ne_here (part : Text) : inner? part ≠ some .here := by
  unfold inner?
  split
  · simp
  · split <;> simp

/-- The parts behind the first have no dot among their components. -/
theorem here_not_mem_inner (parts : List Text) : .here ∉ parts.filterMap inner? := by
  intro hmem
  obtain ⟨part, -, hpart⟩ := List.mem_filterMap.1 hmem
  exact inner?_ne_here part hpart

/-- A settled path has no dot among its components. -/
theorem Settled.here_not_mem {path : Text} (h : Settled path) : .here ∉ components path := by
  obtain ⟨-, hfirst⟩ := h
  unfold components
  split
  · exact List.not_mem_nil
  · next first rest hsplit =>
    rw [hsplit] at hfirst
    have hne : first ≠ ['.'] := by simpa using hfirst
    dsimp only
    split
    · simpa using here_not_mem_inner rest
    · rw [List.mem_append, not_or]
      exact ⟨by simpa using inner?_ne_here first, here_not_mem_inner rest⟩

/-! ### Documents below a dotted root -/

theorem components_dotted (root : Text) : ∃ rest, components (dotted root) = .here :: rest := by
  by_cases h : root = []
  · subst h
    exact ⟨[], by decide⟩
  · refine ⟨(splitAt '/' root).filterMap inner?, ?_⟩
    have hsplit : splitAt '/' (dotted root) = ['.'] :: splitAt '/' root := by
      rw [dotted_of_ne_nil h]
      exact splitAt_append_mark '/' ['.'] root
    rw [components, hsplit]
    rfl

/-- No document with a settled path is below a dotted root. -/
theorem documentPath?_dotted {path : Text} (h : Settled path) (root : Text) :
    documentPath? (dotted root) path = none := by
  obtain ⟨rest, hroot⟩ := components_dotted root
  cases hbelow : below? (components (dotted root)) (components path) with
  | none => rw [documentPath?, hbelow]
  | some behind =>
    rw [below?_eq_some_iff, hroot] at hbelow
    exact absurd (hbelow ▸ List.mem_cons_self) h.here_not_mem

end StyleDocs.Path
