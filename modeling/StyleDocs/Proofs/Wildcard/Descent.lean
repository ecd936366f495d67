import StyleDocs.Proofs.FileTree.Descent
import StyleDocs.Proofs.Wildcard.Listing

/-!
# What is listed below a path of names

A pattern of names, any directories and the pattern of a file name lists, from the working
directory, exactly the paths that lead through the names and then through any names to a name that
the last pattern accepts. Both directions go component by component: a component adds the step of
its name, two stars add the step of any directory, and on the way to something that is there every
step finds its directory.
-/

namespace StyleDocs.Wildcard

open Text StyleDocs.Path FileTree

variable {tree : FileTree} {ending : List Part}

/-! ### Steps -/

theorem steps_of_isHere {path : Text} (h : isHere path = true) : steps path = [] := by
  rw [steps_eq, beq_iff_eq.1 h]
  rfl

/-- A part of a path adds its step, if it is one. -/
theorem steps_below_part {part : Text} (h : '/' ∉ part) (path : Text) :
    steps (below path part) = steps path ++ [part].filter isStep := by
  unfold below
  split
  · next hhere => rw [steps_of_isHere hhere, steps_of_not_mem h, List.nil_append]
  · rw [steps_join (isAbsolute_of_not_mem h), steps_of_not_mem h]

/-- A name that is found in a directory adds its step. -/
theorem steps_below {name : Text} (h : IsName name) (path : Text) :
    steps (below path name) = steps path ++ [name] := by
  rw [steps_below_part h.2.2.2, List.filter_cons_of_pos h.isStep, List.filter_nil]

/-! ### One component -/

theorem isDeep_named (name : Text) : isDeep (named name) = false := by
  rw [isDeep, beq_eq_false_iff_ne]
  cases name with
  | nil => exact List.cons_ne_nil _ _ ∘ Eq.symm
  | cons c name =>
    rw [named, List.map_cons]
    rcases escapedPart_cases c with h | h <;> rw [h] <;> simp

theorem isDeep_withExtension (extension : Text) : isDeep (withExtension extension) = false := by
  simp [isDeep, withExtension]

theorem arrive_of_ne_nil {rest : List (List Part)} (h : rest ≠ []) (fuel : Nat) (next : Text) :
    arrive tree fuel rest next = expand tree fuel rest next := by
  cases rest with
  | nil => exact absurd rfl h
  | cons component rest => rfl

/-- A searched component is compared with the names of a directory. -/
theorem mem_fromChild_of_not_deep {fuel : Nat} {component : List Part} {rest : List (List Part)}
    {path name found : Text} (h : isDeep component = false) :
    found ∈ fromChild tree fuel component rest path name ↔
      accepts component name = true ∧ found ∈ arrive tree fuel rest (below path name) := by
  rw [fromChild, h, if_neg Bool.false_ne_true, meet, List.mem_ite_nil_right]

/-- Two stars and a file name lead to the accepted names of a directory, and to what they lead to
below the directories in it. -/
theorem mem_expand_deep_iff (hending : isDeep ending = false) {fuel : Nat} {path found : Text} :
    found ∈ expand tree (fuel + 1) [[.deep], ending] path ↔
      ∃ names, tree.list path = .ok names ∧ ∃ name ∈ names,
        accepts ending name = true ∧ found = below path name ∨
          tree.isDirectory (below path name) = true ∧
            found ∈ expand tree fuel [[.deep], ending] (below path name) := by
  have hrest : ([ending] : List (List Part)).dropWhile isDeep = [ending] := by
    rw [List.dropWhile_cons_of_neg (by simp [hending])]
  have hchild : ∀ name, found ∈ fromChild tree fuel [.deep] [ending] path name ↔
      accepts ending name = true ∧ found = below path name ∨
        tree.isDirectory (below path name) = true ∧
          found ∈ expand tree fuel [[.deep], ending] (below path name) := by
    intro name
    rw [fromChild, hrest, if_pos (show isDeep [.deep] = true from rfl), meet, arrive]
    cases tree.isDirectory (below path name) <;> simp [or_comm]
  cases hlist : tree.list path with
  | error cause =>
    rw [expand_unlisted rfl hlist]
    simp
  | ok names =>
    have hspecials : fromSpecials tree fuel [.deep] [ending] path = [] := rfl
    rw [expand_search rfl hlist, hspecials, List.append_nil, List.mem_flatMap]
    simp only [hchild, Except.ok.injEq, exists_eq_left']

/-! ### Everything that is listed -/

/-- What two stars and a file name lead to is below the path behind names, the last of which is
accepted. -/
theorem exists_of_mem_expand_deep (htree : tree.WellNamed) (hending : isDeep ending = false)
    {fuel : Nat} {path found : Text} (h : found ∈ expand tree fuel [[.deep], ending] path) :
    ∃ directories file, (∀ name ∈ directories ++ [file], IsName name) ∧
      accepts ending file = true ∧ steps found = steps path ++ (directories ++ [file]) := by
  induction fuel generalizing path with
  | zero => cases h
  | succ fuel ih =>
    obtain ⟨names, hlist, name, hmem, hfound⟩ := (mem_expand_deep_iff hending).1 h
    have hname : IsName name := htree.isName_of_mem_list hlist hmem
    rcases hfound with ⟨haccepts, rfl⟩ | ⟨-, hdeeper⟩
    · exact ⟨[], name, by simpa using hname, haccepts, steps_below hname path⟩
    · obtain ⟨directories, file, hnames, haccepts, hsteps⟩ := ih hdeeper
      refine ⟨name :: directories, file, List.forall_mem_cons.2 ⟨hname, hnames⟩, haccepts, ?_⟩
      rw [hsteps, steps_below hname, List.append_assoc]
      rfl

/-- A component that stands for a part of a path leads to that part. -/
theorem exists_of_mem_expand_named {part : Text} (hpart : '/' ∉ part) {back : List (List Part)}
    (hback : back ≠ []) {fuel : Nat} {path found : Text}
    (h : found ∈ expand tree (fuel + 1) (named part :: back) path) :
    ∃ next, found ∈ expand tree fuel back next ∧
      steps next = steps path ++ [part].filter isStep := by
  have hbelow := steps_below_part hpart path
  cases hliteral : literal? (named part) with
  | some name =>
    obtain rfl := eq_of_literal?_named hliteral
    have harrive := (mem_expand_literal hliteral h).2
    rw [arrive_of_ne_nil hback] at harrive
    exact ⟨_, harrive, hbelow⟩
  | none =>
    cases hlist : tree.list path with
    | error cause =>
      rw [expand_unlisted hliteral hlist] at h
      cases h
    | ok names =>
      rw [expand_search hliteral hlist] at h
      rcases List.mem_append.1 h with h | h
      · obtain ⟨name, -, hchild⟩ := List.mem_flatMap.1 h
        rw [mem_fromChild_of_not_deep (isDeep_named part), accepts_named_iff,
          arrive_of_ne_nil hback] at hchild
        obtain ⟨rfl, harrive⟩ := hchild
        exact ⟨_, harrive, hbelow⟩
      · -- The special names have no special characters, so they are not searched for.
        obtain ⟨-, name, hspecial, haccepts, -⟩ := mem_fromSpecials_iff.1 h
        rw [accepts_named_iff.1 haccepts] at hspecial
        rcases hspecial with rfl | rfl <;> cases hliteral

/-- What is listed behind the parts of a path is below the path that they make. -/
theorem exists_of_mem_expand_parts {parts : List Text} (hparts : ∀ part ∈ parts, '/' ∉ part)
    {back : List (List Part)} (hback : back ≠ []) {fuel : Nat} {path found : Text}
    (h : found ∈ expand tree fuel (parts.map named ++ back) path) :
    ∃ fuel next, found ∈ expand tree fuel back next ∧
      steps next = steps path ++ parts.filter isStep := by
  induction parts generalizing fuel path with
  | nil => exact ⟨fuel, path, h, by simp⟩
  | cons part parts ih =>
    obtain ⟨hpart, hrest⟩ := List.forall_mem_cons.1 hparts
    cases fuel with
    | zero => cases h
    | succ fuel =>
      obtain ⟨next, hnext, hsteps⟩ := exists_of_mem_expand_named hpart (by simp [hback]) h
      obtain ⟨fuel, last, hlast, hbehind⟩ := ih hrest hnext
      refine ⟨fuel, last, hlast, ?_⟩
      rw [hbehind, hsteps, List.append_assoc, ← List.filter_append, List.singleton_append]

/-! ### Everything that is there -/

/-- A path that leads to a location, and behind which the names below it are written: the working
directory as it is searched, or a settled path. -/
structure LeadsTo (tree : FileTree) (path : Text) (location : Location) : Prop where
  /-- Where the path leads. -/
  resolves : tree.resolve path = .ok (.within location)
  /-- How the path is written. -/
  written : path = ['.'] ∨ Settled path

theorem leadsTo_here : LeadsTo tree ['.'] [] := ⟨rfl, Or.inl rfl⟩

theorem settled_below {path name : Text} (h : path = ['.'] ∨ Settled path) (hname : IsName name) :
    Settled (below path name) := by
  rcases h with rfl | hsettled
  · exact settled_name hname.1 hname.2.1 hname.2.2.2
  · rw [below_of_settled hsettled]
    exact hsettled.join name

namespace LeadsTo

variable {path : Text} {location : Location}

theorem has (h : LeadsTo tree path location) (hsome : (tree.nodeAt? location).isSome) :
    tree.has path = true := by
  obtain ⟨node, hnode⟩ := Option.isSome_iff_exists.1 hsome
  rw [FileTree.has, lookup, h.resolves]
  simp [at?, hnode, Except.isOk, Except.toBool]

theorem isDirectory (h : LeadsTo tree path location)
    (hdirectory : tree.nodeAt? location = some .directory) : tree.isDirectory path = true := by
  rw [FileTree.isDirectory, lookup, h.resolves]
  simp [at?, hdirectory]

theorem list (h : LeadsTo tree path location)
    (hdirectory : tree.nodeAt? location = some .directory) :
    tree.list path = .ok (tree.namesAt (.within location)) := by
  rw [FileTree.list, h.resolves]
  simp [at?, hdirectory]

/-- A name leads one directory down. -/
theorem below (h : LeadsTo tree path location)
    (hdirectory : tree.nodeAt? location = some .directory) {name : Text} (hname : IsName name) :
    LeadsTo tree (Wildcard.below path name) (location ++ [name]) := by
  refine ⟨?_, Or.inr (settled_below h.written hname)⟩
  rcases h.written with rfl | hsettled
  · obtain rfl : location = [] := by
      have hhere := leadsTo_here.resolves.symm.trans h.resolves
      exact (Place.within.inj (Except.ok.inj hhere)).symm
    have hrelative : start name = .within [] := by
      rw [start, isAbsolute_of_not_mem hname.2.2.2]
      rfl
    change tree.resolve name = _
    rw [resolve, if_neg hname.1, splitAt_of_not_mem hname.2.2.2, hrelative, foldlM_singleton,
      follow_name hdirectory hname]
  · rw [below_of_settled hsettled, resolve_join_part h.resolves hname.2.2.2,
      follow_name hdirectory hname]

/-- An empty part or a dot behind a settled path leads nowhere. -/
theorem join (h : LeadsTo tree path location)
    (hdirectory : tree.nodeAt? location = some .directory) (hsettled : Settled path) {part : Text}
    (hpart : '/' ∉ part) (hstep : isStep part = false) :
    LeadsTo tree (Path.join path part) location := by
  refine ⟨?_, Or.inr (hsettled.join part)⟩
  rw [resolve_join_part h.resolves hpart]
  exact follow_of_not_isStep hdirectory hstep

/-- From a directory a component that stands for a name leads to what is there under the name. -/
theorem mem_expand_name (h : LeadsTo tree path location)
    (hdirectory : tree.nodeAt? location = some .directory) {name : Text} (hname : IsName name)
    (hsome : (tree.nodeAt? (location ++ [name])).isSome) {back : List (List Part)}
    (hback : back ≠ []) {fuel : Nat} {found : Text}
    (hfound : found ∈ expand tree fuel back (Wildcard.below path name)) :
    found ∈ expand tree (fuel + 1) (named name :: back) path := by
  have hhas : tree.has (Wildcard.below path name) = true := (h.below hdirectory hname).has hsome
  cases hliteral : literal? (named name) with
  | some literal =>
    obtain rfl := eq_of_literal?_named hliteral
    rw [expand_literal hliteral, arrive_of_ne_nil hback, if_pos]
    · exact hfound
    · simpa [hname.2.1, hname.2.2.1] using hhas
  | none =>
    rw [expand_search hliteral (h.list hdirectory)]
    refine List.mem_append_left _ (List.mem_flatMap.2 ⟨name, mem_namesAt_iff.2 hsome, ?_⟩)
    rw [mem_fromChild_of_not_deep (isDeep_named name), arrive_of_ne_nil hback]
    exact ⟨accepts_named_iff.2 rfl, hfound⟩

/-- From a directory a component that stands for an empty part or a dot leads to the directory. -/
theorem mem_expand_part (h : LeadsTo tree path location)
    (hdirectory : tree.nodeAt? location = some .directory) (hsettled : Settled path) {part : Text}
    (hpart : '/' ∉ part) (hstep : isStep part = false) {back : List (List Part)}
    (hback : back ≠ []) {fuel : Nat} {found : Text}
    (hfound : found ∈ expand tree fuel back (Path.join path part)) :
    found ∈ expand tree (fuel + 1) (named part :: back) path := by
  have hbelow := below_of_settled hsettled part
  have hliteral : literal? (named part) = some part := by
    rcases isStep_eq_false_iff.1 hstep with rfl | rfl <;> rfl
  rw [expand_literal hliteral, hbelow, arrive_of_ne_nil hback, if_pos]
  · exact hfound
  · split
    · exact h.isDirectory hdirectory
    · exact (h.join hdirectory hsettled hpart hstep).has (by rw [hdirectory]; rfl)

/-- From a directory the components of the parts of a path lead to the directory of its steps, if
the first part is a name wherever the path is not settled. -/
theorem exists_expand_parts {parts : List Text}
    (hparts : ∀ part ∈ parts, '/' ∉ part ∧ (isStep part = true → IsName part))
    (h : LeadsTo tree path location)
    (hfirst : Settled path ∨ ∃ name rest, parts = name :: rest ∧ IsName name)
    {first : Text} {behind : List Text}
    (hwalked : tree.Walked (location ++ (parts.filter isStep ++ first :: behind)))
    {back : List (List Part)} (hback : back ≠ []) :
    ∃ next, LeadsTo tree next (location ++ parts.filter isStep) ∧
      steps next = steps path ++ parts.filter isStep ∧
      ∀ {fuel found}, found ∈ expand tree fuel back next →
        found ∈ expand tree (fuel + parts.length) (parts.map named ++ back) path := by
  induction parts generalizing path location with
  | nil => exact ⟨path, by simpa using h, by simp, fun hfound => hfound⟩
  | cons part parts ih =>
    obtain ⟨⟨hslash, hname⟩, hrest⟩ := List.forall_mem_cons.1 hparts
    have hbackNe : parts.map named ++ back ≠ [] := by simp [hback]
    have hdirectory : tree.nodeAt? location = some .directory := hwalked.directory (by simp)
    cases hstep : isStep part with
    | true =>
      have hname : IsName part := hname hstep
      rw [List.filter_cons_of_pos hstep] at hwalked ⊢
      have hbehind : tree.Walked (location ++ [part] ++ (parts.filter isStep ++ first :: behind)) :=
        by simpa using hwalked
      have hthere : tree.nodeAt? (location ++ [part]) = some .directory :=
        hbehind.directory (by simp)
      obtain ⟨next, hnext, hsteps, hlisted⟩ := ih hrest (h.below hdirectory hname)
        (Or.inl (settled_below h.written hname)) hbehind
      refine ⟨next, by simpa using hnext, ?_, fun hfound => ?_⟩
      · rw [hsteps, steps_below hname, List.append_assoc, List.singleton_append]
      · exact h.mem_expand_name hdirectory hname (by rw [hthere]; rfl) hbackNe (hlisted hfound)
    | false =>
      rw [List.filter_cons_of_neg (by simp [hstep])] at hwalked ⊢
      have hsettled : Settled path := by
        rcases hfirst with hsettled | ⟨name, rest, hcons, hname⟩
        · exact hsettled
        · obtain ⟨rfl, -⟩ := List.cons.inj hcons
          rw [hname.isStep] at hstep
          cases hstep
      obtain ⟨next, hnext, hsteps, hlisted⟩ := ih hrest (h.join hdirectory hsettled hslash hstep)
        (Or.inl (hsettled.join part)) hwalked
      refine ⟨next, hnext, ?_, fun hfound => ?_⟩
      · rw [hsteps, steps_join (isAbsolute_of_not_mem hslash), steps_of_not_mem hslash,
          List.filter_cons_of_neg (by simp [hstep]), List.filter_nil, List.append_nil]
      · exact h.mem_expand_part hdirectory hsettled hslash hstep hbackNe (hlisted hfound)

/-- From a directory, two stars and a pattern that accepts the name of something below it lead
there. -/
theorem exists_expand_deep (hending : isDeep ending = false) {directories : List Text}
    {file : Text} (hnames : ∀ name ∈ directories ++ [file], IsName name)
    (haccepts : accepts ending file = true) (h : LeadsTo tree path location)
    (hwalked : tree.Walked (location ++ (directories ++ [file])))
    (hsome : (tree.nodeAt? (location ++ (directories ++ [file]))).isSome) {fuel : Nat}
    (hfuel : directories.length < fuel) :
    ∃ found ∈ expand tree fuel [[.deep], ending] path,
      LeadsTo tree found (location ++ (directories ++ [file])) ∧
        steps found = steps path ++ (directories ++ [file]) := by
  have hdirectory : tree.nodeAt? location = some .directory := hwalked.directory (by simp)
  induction directories generalizing path location fuel with
  | nil =>
    obtain ⟨fuel, rfl⟩ := Nat.exists_eq_add_of_lt hfuel
    have hname : IsName file := hnames file (by simp)
    refine ⟨Wildcard.below path file, ?_, h.below hdirectory hname, steps_below hname path⟩
    exact (mem_expand_deep_iff hending).2 ⟨_, h.list hdirectory, file, mem_namesAt_iff.2 hsome,
      Or.inl ⟨haccepts, rfl⟩⟩
  | cons name directories ih =>
    obtain ⟨hname, hnames⟩ := List.forall_mem_cons.1 hnames
    obtain ⟨fuel, rfl⟩ := Nat.exists_eq_add_of_lt hfuel
    have hchild := h.below hdirectory hname
    have hbehind : tree.Walked (location ++ [name] ++ (directories ++ [file])) := by
      simpa using hwalked
    have hthere : tree.nodeAt? (location ++ [name]) = some .directory :=
      hbehind.directory (by simp)
    have hdeeper : directories.length < directories.length + 1 + fuel := by omega
    obtain ⟨found, hfound, hleads, hsteps⟩ :=
      ih hnames hchild hbehind (by simpa using hsome) hdeeper hthere
    refine ⟨found, ?_, by simpa using hleads, ?_⟩
    · exact (mem_expand_deep_iff hending).2 ⟨_, h.list hdirectory, name,
        mem_namesAt_iff.2 (by rw [hthere]; rfl), Or.inr ⟨hchild.isDirectory hthere, hfound⟩⟩
    · rw [hsteps, steps_below hname, List.append_assoc, List.singleton_append]
      rfl

end LeadsTo

/-! ### Files below a path -/

/-- What the components of a path, two stars and a file name lead to from the working directory is
below the path behind names, the last of which is accepted. -/
theorem exists_of_mem_expand_below (htree : tree.WellNamed) (hending : isDeep ending = false)
    {fuel : Nat} {path found : Text}
    (h : found ∈ expand tree fuel ((splitAt '/' path).map named ++ [[.deep], ending]) ['.']) :
    Settled found ∧ ∃ directories file, (∀ name ∈ directories ++ [file], IsName name) ∧
      accepts ending file = true ∧ steps found = steps path ++ (directories ++ [file]) := by
  have hparts : ∀ part ∈ splitAt '/' path, '/' ∉ part := fun part => not_mem_of_mem_splitAt
  obtain ⟨fuel, next, hnext, hsteps⟩ :=
    exists_of_mem_expand_parts hparts (List.cons_ne_nil _ _) h
  obtain ⟨directories, file, hnames, haccepts, hfound⟩ :=
    exists_of_mem_expand_deep htree hending hnext
  refine ⟨settled_of_mem_expand_here htree hparts h, directories, file, hnames, haccepts, ?_⟩
  rw [hfound, hsteps]
  rfl

/-- The components of a path of names, two stars and a file name lead from the working directory to
everything below the path whose name is accepted. -/
theorem exists_mem_expand_below (hending : isDeep ending = false) {path : Text}
    (hpath : IsPlain path) (hne : path ≠ []) {directories : List Text} {file : Text}
    (hnames : ∀ name ∈ directories ++ [file], IsName name) (haccepts : accepts ending file = true)
    (hwalked : tree.Walked (steps path ++ (directories ++ [file])))
    (hsome : (tree.nodeAt? (steps path ++ (directories ++ [file]))).isSome) {fuel : Nat}
    (hfuel : (splitAt '/' path).length + directories.length < fuel) :
    ∃ found ∈ expand tree fuel ((splitAt '/' path).map named ++ [[.deep], ending]) ['.'],
      LeadsTo tree found (steps path ++ (directories ++ [file])) ∧
        steps found = steps path ++ (directories ++ [file]) := by
  have hparts : ∀ part ∈ splitAt '/' path, '/' ∉ part ∧ (isStep part = true → IsName part) :=
    fun part hpart => ⟨not_mem_of_mem_splitAt hpart,
      fun hstep => hpath.isName (List.mem_filter.2 ⟨hpart, hstep⟩)⟩
  obtain ⟨first, behind, hbehind⟩ : ∃ first behind, directories ++ [file] = first :: behind :=
    List.exists_cons_of_ne_nil (by simp)
  obtain ⟨next, hnext, hsteps, hlisted⟩ := leadsTo_here.exists_expand_parts hparts
    (Or.inr (hpath.exists_first hne)) (hbehind ▸ hwalked) (List.cons_ne_nil [.deep] [ending])
  obtain ⟨fuel, rfl⟩ : ∃ more, fuel = more + (splitAt '/' path).length :=
    ⟨fuel - (splitAt '/' path).length, by omega⟩
  have hdeeper : directories.length < fuel := by omega
  obtain ⟨found, hfound, hleads, hdeep⟩ :=
    hnext.exists_expand_deep hending hnames haccepts hwalked hsome hdeeper
  refine ⟨found, hlisted hfound, hleads, ?_⟩
  rw [hdeep, hsteps]
  rfl

end StyleDocs.Wildcard
