import StyleDocs.Proofs.FileTree
import StyleDocs.Proofs.Wildcard

/-!
# Paths that are listed

A component leads from a path to paths below it, and the listing goes on from there. Below a settled
path everything is settled. From the working directory, which is written as a dot, names and any
directories lead to settled paths as well: the dot does not appear in what is listed.
-/

namespace StyleDocs.Wildcard

open Text StyleDocs.Path

variable {tree : FileTree}

/-! ### One component -/

/-- What is listed once a component has led to `next`. -/
def arrive (tree : FileTree) (fuel : Nat) (rest : List (List Part)) (next : Text) : List Text :=
  match rest with
  | [] => [next]
  | _ => expand tree fuel rest next

theorem mem_arrive {fuel : Nat} {rest : List (List Part)} {next found : Text}
    (h : found ∈ arrive tree fuel rest next) :
    found = next ∨ ∃ rest, found ∈ expand tree fuel rest next := by
  unfold arrive at h
  split at h
  · exact Or.inl (List.mem_singleton.1 h)
  · exact Or.inr ⟨_, h⟩

/-- What is listed from a child that is compared with the next component. -/
def meet (tree : FileTree) (fuel : Nat) (components : List (List Part)) (child name : Text) :
    List Text :=
  match components with
  | [] => []
  | first :: rest => if accepts first name then arrive tree fuel rest child else []

theorem mem_meet {fuel : Nat} (components : List (List Part)) {child name found : Text}
    (h : found ∈ meet tree fuel components child name) :
    found = child ∨ ∃ rest, found ∈ expand tree fuel rest child := by
  cases components with
  | nil => cases h
  | cons first rest =>
    rw [meet, List.mem_ite_nil_right] at h
    exact mem_arrive h.2

/-- What is listed from one child of a directory. -/
def fromChild (tree : FileTree) (fuel : Nat) (component : List Part) (rest : List (List Part))
    (path name : Text) : List Text :=
  if isDeep component then
    if tree.isDirectory (below path name) then
      expand tree fuel (component :: rest.dropWhile isDeep) (below path name)
        ++ (if (rest.dropWhile isDeep).isEmpty then [below path name]
          else meet tree fuel (rest.dropWhile isDeep) (below path name) name)
    else meet tree fuel (rest.dropWhile isDeep) (below path name) name
  else meet tree fuel (component :: rest) (below path name) name

theorem mem_fromChild {fuel : Nat} {component : List Part} {rest : List (List Part)}
    {path name found : Text} (h : found ∈ fromChild tree fuel component rest path name) :
    found = below path name ∨ ∃ rest, found ∈ expand tree fuel rest (below path name) := by
  unfold fromChild at h
  split at h
  · split at h
    · rcases List.mem_append.1 h with h | h
      · exact Or.inr ⟨_, h⟩
      · split at h
        · exact Or.inl (List.mem_singleton.1 h)
        · exact mem_meet _ h
    · exact mem_meet _ h
  · exact mem_meet _ h

/-- What is listed from the special names. -/
def fromSpecials (tree : FileTree) (fuel : Nat) (component : List Part) (rest : List (List Part))
    (path : Text) : List Text :=
  if component.head? = some (.char '.') then
    ([['.'], ['.', '.']] : List Text).flatMap fun name =>
      if accepts component name then arrive tree fuel rest (Path.join path name) else []
  else []

theorem mem_fromSpecials_iff {fuel : Nat} {component : List Part} {rest : List (List Part)}
    {path found : Text} :
    found ∈ fromSpecials tree fuel component rest path ↔
      component.head? = some (.char '.') ∧ ∃ name, (name = ['.'] ∨ name = ['.', '.']) ∧
        accepts component name = true ∧ found ∈ arrive tree fuel rest (Path.join path name) := by
  rw [fromSpecials, List.mem_ite_nil_right, List.mem_flatMap]
  simp only [List.mem_ite_nil_right, List.mem_cons, List.not_mem_nil, or_false]

theorem expand_literal {fuel : Nat} {component : List Part} {rest : List (List Part)}
    {path name : Text} (hname : literal? component = some name) :
    expand tree (fuel + 1) (component :: rest) path =
      if (if name = ['.'] || name = ['.', '.'] then tree.isDirectory path
          else tree.has (below path name)) then
        arrive tree fuel rest (below path name)
      else [] := by
  have hnext : (if isHere path then name else below path name) = below path name := by
    unfold below
    split <;> rfl
  rw [expand, hname]
  dsimp only
  rw [hnext]
  rfl

theorem expand_search {fuel : Nat} {component : List Part} {rest : List (List Part)} {path : Text}
    {names : List Text} (hname : literal? component = none) (hlist : tree.list path = .ok names) :
    expand tree (fuel + 1) (component :: rest) path =
      names.flatMap (fromChild tree fuel component rest path)
        ++ fromSpecials tree fuel component rest path := by
  rw [expand, hname, hlist]
  rfl

theorem expand_unlisted {fuel : Nat} {component : List Part} {rest : List (List Part)}
    {path : Text} {cause : FileError} (hname : literal? component = none)
    (hlist : tree.list path = .error cause) :
    expand tree (fuel + 1) (component :: rest) path = [] := by
  rw [expand, hname, hlist]

/-- A component without special characters leads to one path at most. -/
theorem mem_expand_literal {fuel : Nat} {component : List Part} {rest : List (List Part)}
    {path name found : Text} (hname : literal? component = some name)
    (h : found ∈ expand tree (fuel + 1) (component :: rest) path) :
    (name ≠ ['.'] → name ≠ ['.', '.'] → tree.has (below path name) = true) ∧
      found ∈ arrive tree fuel rest (below path name) := by
  rw [expand_literal hname, List.mem_ite_nil_right] at h
  refine ⟨fun hhere hup => ?_, h.2⟩
  simpa [hhere, hup] using h.1

/-- A component with special characters leads to children of a directory and, if it begins with a
dot, to the special names. -/
theorem mem_expand_search {fuel : Nat} {component : List Part} {rest : List (List Part)}
    {path found : Text} (hname : literal? component = none)
    (h : found ∈ expand tree (fuel + 1) (component :: rest) path) :
    ∃ next, (found = next ∨ ∃ rest, found ∈ expand tree fuel rest next) ∧
      ((∃ names, tree.list path = .ok names ∧ ∃ name ∈ names, next = below path name) ∨
        ∃ name, (name = ['.'] ∨ name = ['.', '.']) ∧ component.head? = some (.char '.') ∧
          accepts component name = true ∧ next = Path.join path name) := by
  cases hlist : tree.list path with
  | error cause =>
    rw [expand_unlisted hname hlist] at h
    cases h
  | ok names =>
    rw [expand_search hname hlist] at h
    rcases List.mem_append.1 h with h | h
    · obtain ⟨name, hmem, hchild⟩ := List.mem_flatMap.1 h
      exact ⟨below path name, mem_fromChild hchild, Or.inl ⟨names, rfl, name, hmem, rfl⟩⟩
    · obtain ⟨hdot, name, hspecial, haccepts, harrive⟩ := mem_fromSpecials_iff.1 h
      exact ⟨Path.join path name, mem_arrive harrive,
        Or.inr ⟨name, hspecial, hdot, haccepts, rfl⟩⟩

/-! ### Settled paths -/

theorem below_of_settled {path : Text} (h : Settled path) (name : Text) :
    below path name = Path.join path name := by
  have hhere : ¬ isHere path = true := fun heq =>
    h.here_not_mem (beq_iff_eq.1 heq ▸ List.mem_singleton.2 rfl)
  exact if_neg hhere

/-- Below a settled path, everything that is listed is settled. -/
theorem settled_of_mem_expand {fuel : Nat} {components : List (List Part)} {path found : Text}
    (hpath : Settled path) (h : found ∈ expand tree fuel components path) : Settled found := by
  induction fuel generalizing components path with
  | zero => cases h
  | succ fuel ih =>
    -- One component leads to a settled path, and the rest goes on from there.
    have hgoOn : ∀ {next}, Settled next →
        (found = next ∨ ∃ rest, found ∈ expand tree fuel rest next) → Settled found := by
      intro next hnext hfound
      rcases hfound with rfl | ⟨rest, hfound⟩
      · exact hnext
      · exact ih hnext hfound
    cases components with
    | nil => exact (List.mem_singleton.1 h) ▸ hpath
    | cons component rest =>
      cases hname : literal? component with
      | some name =>
        have harrive := (mem_expand_literal hname h).2
        rw [below_of_settled hpath] at harrive
        exact hgoOn (hpath.join name) (mem_arrive harrive)
      | none =>
        obtain ⟨next, hfound, hnext⟩ := mem_expand_search hname h
        refine hgoOn ?_ hfound
        rcases hnext with ⟨names, -, name, -, rfl⟩ | ⟨name, -, -, -, rfl⟩
        · rw [below_of_settled hpath]
          exact hpath.join name
        · exact hpath.join name

/-- From the working directory, names and then any directories lead to settled paths. -/
theorem settled_of_mem_expand_here (htree : tree.WellNamed) {fuel : Nat} {names : List Text}
    (hnames : ∀ name ∈ names, '/' ∉ name) {back : List (List Part)} {found : Text}
    (h : found ∈ expand tree fuel (names.map named ++ [.deep] :: back) ['.']) :
    Settled found := by
  -- What a directory lists is settled, and so is everything below it.
  have hsearch : ∀ {fuel component rest}, literal? component = none →
      (∀ name, component.head? = some (.char '.') → accepts component name = true →
        name ≠ ['.'] ∧ name ≠ ['.', '.']) →
      found ∈ expand tree fuel (component :: rest) ['.'] → Settled found := by
    intro fuel component rest hliteral hspecial h
    cases fuel with
    | zero => cases h
    | succ fuel =>
      obtain ⟨next, hfound, hnext⟩ := mem_expand_search hliteral h
      have hsettled : Settled next := by
        rcases hnext with ⟨names, hlist, name, hmem, rfl⟩ | ⟨name, hname, hdot, haccepts, -⟩
        · obtain ⟨hne, hhere, -, hslash⟩ := htree.isName_of_mem_list hlist hmem
          exact settled_name hne hhere hslash
        · obtain ⟨hhere, hup⟩ := hspecial name hdot haccepts
          exact absurd hname (by simp [hhere, hup])
      rcases hfound with rfl | ⟨rest, hfound⟩
      · exact hsettled
      · exact settled_of_mem_expand hsettled hfound
  induction names generalizing fuel with
  | nil => exact hsearch rfl (fun _ hdot => absurd hdot (by simp)) h
  | cons name names ih =>
    cases hliteral : literal? (named name) with
    | none =>
      refine hsearch hliteral (fun found _ haccepts => ?_) h
      -- The special names have no special characters, so they are not searched for.
      rw [accepts_named_iff.1 haccepts]
      constructor <;> rintro rfl <;> cases hliteral
    | some found' =>
      cases fuel with
      | zero => cases h
      | succ fuel =>
        obtain rfl := eq_of_literal?_named hliteral
        obtain ⟨hhas, harrive⟩ := mem_expand_literal hliteral h
        have hrest : arrive tree fuel (names.map named ++ [.deep] :: back) found' =
            expand tree fuel (names.map named ++ [.deep] :: back) found' := by
          cases names <;> rfl
        change found ∈ arrive tree fuel (names.map named ++ [.deep] :: back) found' at harrive
        rw [hrest] at harrive
        by_cases hhere : found' = ['.']
        · subst hhere
          exact ih (fun name hmem => hnames name (List.mem_cons_of_mem _ hmem)) harrive
        · have hne : found' ≠ [] := by
            rintro rfl
            exact absurd (hhas hhere (by simp)) Bool.false_ne_true
          exact settled_of_mem_expand
            (settled_name hne hhere (hnames found' List.mem_cons_self)) harrive

end StyleDocs.Wildcard
