import StyleDocs.Proofs.Scan
import StyleDocs.Proofs.Wildcard.Descent

/-!
# The documents of a tree

Where the paths of the conventions are made of names, the documents of the property catalog are told
by the files of the tree alone: each file below the property root whose name is a stem, a dot and
the extension is listed, and nothing else. Its document is filed under the stem, at the names that
lead from the root to it. Of the files with one stem the last in the order of the lists of names is
catalogued; a file with a reserved stem, a directory with the name of a file and what lies elsewhere
change nothing.
-/

namespace StyleDocs

open Text StyleDocs.Path FileTree

/-- Conventions under which paths are made of names and the extension is a plain one. -/
structure Conventions.Ordinary (conv : Conventions) : Prop where
  /-- The root is a path of names. -/
  root : IsPlain conv.root
  /-- The directory of the property documents is a path of names. -/
  propertyDirectory : IsPlain conv.propertyDirectory
  /-- The extension has no dot, no slash and no character that is special in patterns. -/
  extension : ∀ c ∈ conv.extension, c ≠ '.' ∧ c ≠ '/' ∧ Wildcard.isSpecial c = false

namespace Scan

variable {conv : Conventions} {tree : FileTree} {directories : List Text} {name : Text}

/-- The name of the file of a document. -/
def fileOf (conv : Conventions) (name : Text) : Text := name ++ '.' :: conv.extension

/-- The path of a file in some directories below the property root. -/
def filePath (conv : Conventions) (directories : List Text) (file : Text) : Text :=
  joinWith ['/'] (conv.propertyRoot :: (directories ++ [file]))

/-- Whether the file of a document lies in these directories below the property root. -/
structure Holds (conv : Conventions) (tree : FileTree) (directories : List Text) (name : Text) :
    Prop where
  /-- The directories and the file have names. -/
  names : ∀ part ∈ directories ++ [fileOf conv name], IsName part
  /-- There is such a file. -/
  isFile : tree.isFile (filePath conv directories (fileOf conv name)) = true

/-- Whether the stem of each document has a character other than a dot. -/
def Stemmed (conv : Conventions) (tree : FileTree) : Prop :=
  ∀ directories name, Holds conv tree directories name → ∃ c ∈ name, c ≠ '.'

/-! ### Paths of files -/

theorem filePath_eq (conv : Conventions) (directories : List Text) (file : Text) :
    filePath conv directories file =
      conv.propertyRoot ++ '/' :: joinWith ['/'] (directories ++ [file]) := by
  rw [filePath]
  cases directories with
  | nil => simp [joinWith]
  | cons => simp [joinWith]

theorem splitAt_filePath (conv : Conventions) {file : Text}
    (h : ∀ part ∈ directories ++ [file], IsName part) :
    splitAt '/' (filePath conv directories file) =
      splitAt '/' conv.propertyRoot ++ (directories ++ [file]) := by
  rw [filePath_eq, splitAt_append_mark, splitAt_joinWith (by simp) fun part hpart =>
    (h part hpart).2.2.2]

theorem steps_filePath (conv : Conventions) {file : Text}
    (h : ∀ part ∈ directories ++ [file], IsName part) :
    steps (filePath conv directories file) =
      steps conv.propertyRoot ++ (directories ++ [file]) := by
  rw [steps, splitAt_filePath conv h, List.filter_append, steps,
    List.filter_eq_self.2 fun part hpart => (h part hpart).isStep]

/-! ### What is listed -/

theorem isPlain_propertyRoot (hconv : conv.Ordinary) : IsPlain conv.propertyRoot :=
  hconv.root.join hconv.propertyDirectory

/-- The property root is not empty where there is a document. -/
theorem Holds.propertyRoot_ne_nil (h : Holds conv tree directories name) :
    conv.propertyRoot ≠ [] := by
  intro hempty
  have hrelative := (resolve_of_isFile h.isFile).1
  rw [filePath_eq, hempty] at hrelative
  cases hrelative

theorem isAbsolute_filePath (hconv : conv.Ordinary) (hne : conv.propertyRoot ≠ []) (file : Text) :
    isAbsolute (filePath conv directories file) = false := by
  rw [filePath_eq, isAbsolute, List.head?_append_of_ne_nil _ hne]
  exact (isPlain_propertyRoot hconv).isAbsolute_eq_false

theorem compile_pattern (hconv : conv.Ordinary) :
    Wildcard.compile (pattern conv) =
      .ok ((if conv.propertyRoot = [] then [] else splitAt '/' conv.propertyRoot).map
        Wildcard.named ++ [[.deep], Wildcard.withExtension conv.extension]) :=
  Wildcard.compile_documents (isPlain_propertyRoot hconv).isAbsolute_eq_false
    fun c hc => (hconv.extension c hc).2

theorem getLast?_pattern (hconv : conv.Ordinary) : (pattern conv).getLast? ≠ some '/' := by
  have hpattern : pattern conv =
      Wildcard.escape conv.propertyRoot ++ "/**/*".toList ++ ('.' :: conv.extension) := by
    simp [pattern]
  rw [hpattern, List.getLast?_append_of_ne_nil _ (List.cons_ne_nil _ _)]
  intro hlast
  rcases List.mem_cons.1 (List.mem_of_getLast? hlast) with hdot | hmem
  · exact absurd hdot (by decide)
  · exact (hconv.extension '/' hmem).2.1 rfl

/-- The components that are followed from the working directory. -/
def followed (conv : Conventions) : List (List Wildcard.Part) :=
  (splitAt '/' conv.propertyRoot).map Wildcard.named ++
    [[.deep], Wildcard.withExtension conv.extension]

/-- Below a property root that is not empty, the files among what the components lead to from the
working directory are listed. -/
theorem listed_eq (hconv : conv.Ordinary) (hne : conv.propertyRoot ≠ []) (tree : FileTree) :
    listed conv tree =
      (Wildcard.expand tree (Wildcard.bound tree (followed conv)) (followed conv) ['.']).filter
        tree.isFile := by
  have hrelative : isAbsolute (pattern conv) = false := by
    rw [pattern, List.append_assoc, Wildcard.isAbsolute_escape_append hne]
    exact (isPlain_propertyRoot hconv).isAbsolute_eq_false
  rw [listed, compile_pattern hconv, if_neg hne]
  dsimp only
  rw [Wildcard.listing, hrelative, if_neg Bool.false_ne_true, if_neg (getLast?_pattern hconv)]
  rfl

/-- With an empty property root the pattern begins above the working directory, where the tree
knows of nothing. -/
theorem listed_eq_nil (hconv : conv.Ordinary) (hempty : conv.propertyRoot = []) (tree : FileTree) :
    listed conv tree = [] := by
  have habsolute : isAbsolute (pattern conv) = true := by
    rw [pattern, hempty]
    rfl
  have hlist : tree.list ['/'] = .ok [] := rfl
  rw [listed, compile_pattern hconv, if_pos hempty]
  dsimp only
  rw [Wildcard.listing, habsolute, if_pos rfl, if_neg (getLast?_pattern hconv), List.map_nil,
    List.nil_append, List.eq_nil_iff_forall_not_mem]
  intro path hpath
  have hmem := (List.mem_filter.1 hpath).1
  revert hmem
  cases Wildcard.bound tree [[.deep], Wildcard.withExtension conv.extension] with
  | zero => exact List.not_mem_nil
  | succ fuel =>
    rw [Wildcard.mem_expand_deep_iff (Wildcard.isDeep_withExtension conv.extension), hlist]
    simp

/-- On the way to a file below the property root there are names only. -/
theorem isName_of_mem_way (hconv : conv.Ordinary) {file : Text}
    (h : ∀ part ∈ directories ++ [file], IsName part) :
    ∀ step ∈ steps conv.propertyRoot ++ (directories ++ [file]), IsName step := fun step hstep =>
  (List.mem_append.1 hstep).elim (isPlain_propertyRoot hconv).isName (h step)

/-- A settled path with the steps of a file below the property root has their names behind the
components of the property root. -/
theorem components_of_steps (hconv : conv.Ordinary) {path file : Text}
    (hrelative : isAbsolute path = false) (hsettled : Settled path)
    (hnames : ∀ part ∈ directories ++ [file], IsName part)
    (hsteps : steps path = steps conv.propertyRoot ++ (directories ++ [file])) :
    components path = components conv.propertyRoot ++ (directories ++ [file]).map .name := by
  rw [components_eq_names hrelative hsettled (hsteps ▸ isName_of_mem_way hconv hnames), hsteps,
    List.map_append, (isPlain_propertyRoot hconv).components_eq]

/-- Everything that is listed is the file of a document. -/
theorem exists_of_mem_listed (hconv : conv.Ordinary) (htree : tree.WellNamed) {path : Text}
    (h : path ∈ listed conv tree) :
    ∃ directories name, Holds conv tree directories name ∧ components path =
      components conv.propertyRoot ++ (directories ++ [fileOf conv name]).map .name := by
  by_cases hempty : conv.propertyRoot = []
  · rw [listed_eq_nil hconv hempty] at h
    cases h
  · have hfile := isFile_of_mem_listed h
    rw [listed_eq hconv hempty, List.mem_filter] at h
    obtain ⟨hsettled, directories, file, hnames, haccepts, hsteps⟩ :=
      Wildcard.exists_of_mem_expand_below htree (Wildcard.isDeep_withExtension conv.extension) h.1
    obtain ⟨name, rfl⟩ : ∃ name, file = fileOf conv name :=
      Wildcard.accepts_withExtension_iff.1 haccepts
    refine ⟨directories, name, ⟨hnames, ?_⟩,
      components_of_steps hconv (resolve_of_isFile hfile).1 hsettled hnames hsteps⟩
    refine isFile_of_steps_eq hfile (hsteps.trans (steps_filePath conv hnames).symm)
      (isAbsolute_filePath hconv hempty _) fun last hlast => ?_
    rw [splitAt_filePath conv hnames, ← List.append_assoc, List.getLast?_concat] at hlast
    obtain rfl := Option.some.inj hlast
    exact (hnames _ (by simp)).isStep

/-- The path of the file of a document leads through directories to the names on the way. -/
theorem Holds.walked (hconv : conv.Ordinary) (h : Holds conv tree directories name) :
    let location := steps conv.propertyRoot ++ (directories ++ [fileOf conv name])
    tree.resolve (filePath conv directories (fileOf conv name)) = .ok (.within location) ∧
      tree.Walked location ∧ (tree.nodeAt? location).isSome := by
  intro location
  have hsteps : steps (filePath conv directories (fileOf conv name)) = location :=
    steps_filePath conv h.names
  rw [← hsteps]
  exact walked_of_isFile h.isFile (hsteps ▸ isName_of_mem_way hconv h.names)

/-- The file of every document is a file of the tree. -/
theorem Holds.exists_mem_files (hconv : conv.Ordinary) (h : Holds conv tree directories name) :
    ∃ content, (steps conv.propertyRoot ++ (directories ++ [fileOf conv name]), content) ∈
      tree.files := by
  obtain ⟨location, content, hresolve, hfile⟩ := location_of_isFile h.isFile
  have hlocation := hresolve.symm.trans (h.walked hconv).1
  obtain rfl := Place.within.inj (Except.ok.inj hlocation)
  exact ⟨content, mem_files_of_nodeAt? hfile⟩

/-- The listing of a tree follows more components than there are on the way to anything in it. -/
theorem length_lt_bound {location : List Text} {file : Text}
    (h : (tree.nodeAt? (location ++ (directories ++ [file]))).isSome) (parts : List Text)
    (ending : List Wildcard.Part) :
    parts.length + directories.length <
      Wildcard.bound tree (parts.map Wildcard.named ++ [[.deep], ending]) := by
  have hdepth := length_le_depth h
  simp only [List.length_append, List.length_singleton] at hdepth
  rw [Wildcard.bound_eq, List.length_append, List.length_map]
  calc parts.length + directories.length
      < (parts.length + 2 + 1) * 1 + 1 * (tree.depth + 1) := by omega
    _ ≤ (parts.length + 2 + 1) * 1 + (parts.length + 2 + 1) * (tree.depth + 1) :=
      Nat.add_le_add_left (Nat.mul_le_mul_right _ (by omega)) _
    _ = (parts.length + 2 + 1) * (tree.depth + 2) := by rw [← Nat.mul_add, Nat.add_comm 1]

/-- The file of every document is listed. -/
theorem Holds.exists_mem_listed (hconv : conv.Ordinary) (htree : tree.WellNamed)
    (h : Holds conv tree directories name) :
    ∃ path ∈ listed conv tree, components path =
      components conv.propertyRoot ++ (directories ++ [fileOf conv name]).map .name := by
  have hne := h.propertyRoot_ne_nil
  obtain ⟨hresolve, hwalked, hsome⟩ := h.walked hconv
  obtain ⟨path, hpath, hleads, hbehind⟩ := Wildcard.exists_mem_expand_below
    (Wildcard.isDeep_withExtension conv.extension) (isPlain_propertyRoot hconv) hne h.names
    (Wildcard.accepts_withExtension_iff.2 ⟨name, rfl⟩) hwalked hsome
    (length_lt_bound hsome _ (Wildcard.withExtension conv.extension))
  have hfile : tree.isFile path = true := by
    rw [isFile_congr (hleads.resolves.trans hresolve.symm), h.isFile]
  have hsettled := (Wildcard.exists_of_mem_expand_below htree
    (Wildcard.isDeep_withExtension conv.extension) hpath).1
  refine ⟨path, ?_, components_of_steps hconv (resolve_of_isFile hfile).1 hsettled h.names hbehind⟩
  rw [listed_eq hconv hne, List.mem_filter]
  exact ⟨hpath, hfile⟩

/-! ### Documents -/

/-- The path of a document below the root, without its extension. -/
def documentOf (conv : Conventions) (directories : List Text) (name : Text) : Text :=
  joinWith ['/'] (names (components conv.propertyDirectory) ++ directories ++ [name])

theorem stem_fileOf (hconv : conv.Ordinary) (hne : name ≠ []) : stem (fileOf conv name) = name := by
  have hdot : '.' ∉ conv.extension := fun hmem => (hconv.extension '.' hmem).1 rfl
  rw [stem, fileOf, splitExtension_append hne hdot]

/-- A stem with a character other than a dot is a name. -/
theorem inner?_of_exists_ne_dot (h : ∃ c ∈ name, c ≠ '.') : inner? name = some (.name name) := by
  obtain ⟨c, hmem, hc⟩ := h
  have hother : ∀ dots : Text, (∀ d ∈ dots, d = '.') → name ≠ dots := by
    rintro dots hdots rfl
    exact hc (hdots c hmem)
  have hempty : name ≠ [] := hother _ (by simp)
  have hhere : name ≠ ['.'] := hother _ (by simp)
  have hup : name ≠ ['.', '.'] := hother _ (by simp)
  simp [inner?, hempty, hhere, hup]

/-- The file of a document is filed under its stem, unless it is reserved. -/
theorem document?_eq (hconv : conv.Ordinary) {path : Text} (hname : ∃ c ∈ name, c ≠ '.')
    (h : components path =
      components conv.propertyRoot ++ (directories ++ [fileOf conv name]).map .name) :
    document? conv path =
      if name ∈ conv.reserved then none else some (name, documentOf conv directories name) := by
  have hstem : stem (fileOf conv name) = name := stem_fileOf hconv (by
    obtain ⟨c, hmem, -⟩ := hname
    exact List.ne_nil_of_mem hmem)
  have hfile : fileName? path = some (fileOf conv name) := by
    rw [fileName?, h, List.map_append, List.map_singleton, ← List.append_assoc,
      List.getLast?_concat]
  have hbehind : components path = components conv.root ++
      (components conv.propertyDirectory ++ directories.map .name ++
        [.name (fileOf conv name)]) := by
    rw [h, Conventions.propertyRoot, hconv.root.components_join hconv.propertyDirectory]
    simp
  have hnames : names (dropExtension (components conv.propertyDirectory ++
      directories.map .name ++ [.name (fileOf conv name)])) =
        names (components conv.propertyDirectory) ++ directories ++ [name] := by
    rw [dropExtension_append, hstem, inner?_of_exists_ne_dot hname, names_append, names_append,
      names_map_name]
    rfl
  rw [document?, hfile]
  dsimp only
  rw [hstem, documentPath?_of_components hbehind (by rw [hnames]; simp), hnames]
  by_cases hreserved : name ∈ conv.reserved
  · rw [if_pos hreserved, if_pos (by simpa using hreserved)]
  · rw [if_neg hreserved, if_neg (by simpa using hreserved)]
    rfl

/-! ### The catalog -/

/-- At the file of a document, a name is filed exactly if it is the stem and not reserved. -/
theorem files_iff_of_components (hconv : conv.Ordinary) {path other : Text}
    (hname : ∃ c ∈ name, c ≠ '.') (h : components path =
      components conv.propertyRoot ++ (directories ++ [fileOf conv name]).map .name) :
    files conv other path = true ↔ other = name ∧ name ∉ conv.reserved := by
  rw [files_iff, document?_eq hconv hname h]
  split <;> simp_all [eq_comm]

section

variable (hconv : conv.Ordinary) (htree : tree.WellNamed) (hstems : Stemmed conv tree)

include hconv htree hstems

/-- A name is catalogued exactly if it is the stem of a document and not reserved. -/
theorem mem_keys_properties_iff :
    name ∈ (properties conv tree).1.keys ↔
      name ∉ conv.reserved ∧ ∃ directories, Holds conv tree directories name := by
  rw [Table.mem_keys_iff, properties_fst, has_propertiesAt_iff]
  constructor
  · rintro ⟨path, hpath, hfiles⟩
    obtain ⟨directories, stem, hholds, hcomponents⟩ := exists_of_mem_listed hconv htree hpath
    obtain ⟨rfl, hreserved⟩ :=
      (files_iff_of_components hconv (hstems _ _ hholds) hcomponents).1 hfiles
    exact ⟨hreserved, directories, hholds⟩
  · rintro ⟨hreserved, directories, hholds⟩
    obtain ⟨path, hpath, hcomponents⟩ := hholds.exists_mem_listed hconv htree
    exact ⟨path, hpath, (files_iff_of_components hconv (hstems _ _ hholds) hcomponents).2
      ⟨rfl, hreserved⟩⟩

/-- A document is catalogued exactly if it is filed under a stem that is not reserved and is the
last of the documents with the stem. -/
theorem get?_properties_iff {document : Text} :
    (properties conv tree).1.get? name = some document ↔
      name ∉ conv.reserved ∧ ∃ directories, Holds conv tree directories name ∧
        document = documentOf conv directories name ∧
        ∀ other, Holds conv tree other name → other = directories ∨
          other ++ [fileOf conv name] < directories ++ [fileOf conv name] := by
  rw [properties_fst, get?_propertiesAt_iff]
  constructor
  · rintro ⟨path, hpath, hfiled, hlast⟩
    obtain ⟨directories, stem, hholds, hcomponents⟩ := exists_of_mem_listed hconv htree hpath
    have hstem := hstems _ _ hholds
    obtain ⟨rfl, hreserved⟩ := (files_iff_of_components hconv hstem hcomponents).1
      (files_iff.2 ⟨document, hfiled⟩)
    rw [document?_eq hconv hstem hcomponents, if_neg hreserved] at hfiled
    refine ⟨hreserved, directories, hholds, (Prod.mk.inj (Option.some.inj hfiled)).2.symm, ?_⟩
    -- Every other document is listed too, so the order of the paths decides between the two.
    intro other hother
    obtain ⟨path', hpath', hcomponents'⟩ := hother.exists_mem_listed hconv htree
    have hfiles := (files_iff_of_components hconv hstem hcomponents').2 ⟨rfl, hreserved⟩
    exact ((atMost_iff_of_names hcomponents' hcomponents).1 (hlast path' hpath' hfiles)).imp
      (fun hsame => List.append_cancel_right hsame) id
  · rintro ⟨hreserved, directories, hholds, rfl, hlast⟩
    obtain ⟨path, hpath, hcomponents⟩ := hholds.exists_mem_listed hconv htree
    have hstem := hstems _ _ hholds
    refine ⟨path, hpath, by rw [document?_eq hconv hstem hcomponents, if_neg hreserved], ?_⟩
    -- Whatever is filed under the name is the file of a document with this stem.
    intro path' hpath' hfiles
    obtain ⟨other, stem, hother, hcomponents'⟩ := exists_of_mem_listed hconv htree hpath'
    obtain ⟨rfl, -⟩ := (files_iff_of_components hconv (hstems _ _ hother) hcomponents').1 hfiles
    exact (atMost_iff_of_names hcomponents' hcomponents).2
      ((hlast other hother).imp (fun hsame => by rw [hsame]) id)

end

/-- The property catalog has the stems that are not reserved, each with its last document, and is
the same for every tree with the same documents under such stems: files with a reserved stem,
directories named like files and what lies elsewhere change nothing. -/
theorem catalog_of_documents (hconv : conv.Ordinary) (htree : tree.WellNamed)
    (hstems : Stemmed conv tree) :
    (∀ name, name ∈ (properties conv tree).1.keys ↔
      name ∉ conv.reserved ∧ ∃ directories, Holds conv tree directories name) ∧
    (∀ name document, (properties conv tree).1.get? name = some document ↔
      name ∉ conv.reserved ∧ ∃ directories, Holds conv tree directories name ∧
        document = documentOf conv directories name ∧
        ∀ other, Holds conv tree other name → other = directories ∨
          other ++ [fileOf conv name] < directories ++ [fileOf conv name]) ∧
    ∀ tree' : FileTree, tree'.WellNamed → Stemmed conv tree' →
      (∀ directories name, name ∉ conv.reserved →
        (Holds conv tree' directories name ↔ Holds conv tree directories name)) →
      (properties conv tree').1 = (properties conv tree).1 := by
  refine ⟨fun name => mem_keys_properties_iff hconv htree hstems,
    fun name document => get?_properties_iff hconv htree hstems, ?_⟩
  intro tree' htree' hstems' hsame
  refine Table.eq_of_get?_eq fun name => Option.ext fun document => ?_
  rw [get?_properties_iff hconv htree' hstems', get?_properties_iff hconv htree hstems]
  refine and_congr_right fun hreserved => ?_
  simp only [hsame _ _ hreserved]

theorem ordinary_default : Conventions.Ordinary {} where
  root := by decide
  propertyDirectory := by decide
  extension c hc := by
    have hmember : c = 'm' ∨ c = 'd' := by simpa using hc
    rcases hmember with rfl | rfl <;> decide

/-- Two documents of one stem in directories whose paths are ordered otherwise than their texts, a
reserved stem, a directory with the name of a file and a file elsewhere. -/
def collidingTree : FileTree :=
  ⟨[(["docs".toList, "styles".toList, "z!".toList, "tint.md".toList], .file ⟨#[]⟩),
    (["docs".toList, "styles".toList, "z".toList, "tint.md".toList], .file ⟨#[]⟩),
    (["docs".toList, "styles".toList, "index.md".toList], .file ⟨#[]⟩),
    (["docs".toList, "styles".toList, "box.md".toList], .directory),
    (["docs".toList, "width.md".toList], .file ⟨#[]⟩)]⟩

theorem cases_of_collidingTree (h : Holds {} collidingTree directories name) :
    (directories = ["z!".toList] ∧ name = "tint".toList) ∨
      (directories = ["z".toList] ∧ name = "tint".toList) ∨
      (directories = [] ∧ name = "index".toList) := by
  have hends : ∀ {directories' : List Text} {name' : Text},
      ["docs".toList, "styles".toList] ++ (directories ++ [fileOf {} name]) =
        ["docs".toList, "styles".toList] ++ (directories' ++ [fileOf {} name']) →
      directories = directories' ∧ name = name' := by
    intro directories' name' hlocation
    obtain ⟨hdirectories, hfile⟩ := List.append_inj' (List.append_cancel_left hlocation) rfl
    exact ⟨hdirectories, List.append_cancel_right (List.singleton_inj.1 hfile)⟩
  obtain ⟨content, hmem⟩ := h.exists_mem_files ordinary_default
  have hlocation := List.mem_map_of_mem (f := Prod.fst) hmem
  have hroot : steps (Conventions.propertyRoot {}) = ["docs".toList, "styles".toList] := by decide
  have hfiles : collidingTree.files.map Prod.fst =
      [["docs".toList, "styles".toList] ++ (["z!".toList] ++ [fileOf {} "tint".toList]),
        ["docs".toList, "styles".toList] ++ (["z".toList] ++ [fileOf {} "tint".toList]),
        ["docs".toList, "styles".toList] ++ ([] ++ [fileOf {} "index".toList]),
        ["docs".toList, "width.md".toList]] := by decide
  rw [hfiles, hroot] at hlocation
  simp only [List.mem_cons, List.not_mem_nil, or_false] at hlocation
  rcases hlocation with hlocation | hlocation | hlocation | hlocation
  · exact Or.inl (hends hlocation)
  · exact Or.inr (Or.inl (hends hlocation))
  · exact Or.inr (Or.inr (hends hlocation))
  · exact absurd (List.cons.inj (List.cons.inj hlocation).2).1 (by decide)

/-- Of the two documents the one in the directory with the longer name is catalogued. -/
theorem catalog_of_documents_colliding :
    Conventions.Ordinary {} ∧ collidingTree.WellNamed ∧ Stemmed {} collidingTree ∧
      (∀ name, name ∈ (properties {} collidingTree).1.keys ↔ name = "tint".toList) ∧
      (properties {} collidingTree).1.get? "tint".toList = some "styles/z!/tint".toList := by
  have htree : collidingTree.WellNamed := by decide
  have hstems : Stemmed {} collidingTree := by
    intro directories name hholds
    rcases cases_of_collidingTree hholds with ⟨-, rfl⟩ | ⟨-, rfl⟩ | ⟨-, rfl⟩
    · exact ⟨'t', by decide⟩
    · exact ⟨'t', by decide⟩
    · exact ⟨'i', by decide⟩
  have htint : Holds {} collidingTree ["z!".toList] "tint".toList :=
    ⟨by decide, by decide⟩
  obtain ⟨hkeys, hvalues, -⟩ := catalog_of_documents ordinary_default htree hstems
  refine ⟨ordinary_default, htree, hstems, fun name => (hkeys name).trans ⟨?_, ?_⟩, ?_⟩
  · rintro ⟨hreserved, directories, hholds⟩
    rcases cases_of_collidingTree hholds with ⟨-, rfl⟩ | ⟨-, rfl⟩ | ⟨-, rfl⟩
    · rfl
    · rfl
    · exact absurd hreserved (by decide)
  · rintro rfl
    exact ⟨by decide, _, htint⟩
  · refine (hvalues _ _).2 ⟨by decide, _, htint, by decide, fun other hother => ?_⟩
    rcases cases_of_collidingTree hother with ⟨rfl, -⟩ | ⟨rfl, -⟩ | ⟨-, hname⟩
    · exact Or.inl rfl
    · exact Or.inr (by decide)
    · exact absurd hname (by decide)

end Scan

end StyleDocs
