import StyleDocs.Proofs.Build.Shadow
import StyleDocs.Proofs.Wildcard.Listing

/-!
# Two spellings of a root

A root and the same root behind a dot are one directory, and both spellings find the same type
documents. But the listing of property documents drops the dot that the root keeps, and a document
that is listed without the dot is not below a root that is written with it. So every property
document is lost below a dotted root, and the two references agree exactly when there is no property
document.
-/

namespace StyleDocs

/-- The conventions with another root. -/
def Conventions.rootedAt (conv : Conventions) (root : Text) : Conventions :=
  { conv with root := root }

/-- Inserting something leaves no empty table. -/
theorem Table.insert_ne_empty {α : Type} (t : Table α) (key : Text) (value : α) :
    t.insert key value ≠ .empty := by
  intro h
  have hget := t.get?_insert key key value
  rw [h, if_pos rfl] at hget
  cases hget

namespace Build

variable {conv : Conventions} {tree : FileTree} {root : Text}

/-! ### Property documents -/

/-- The paths that are listed below a dotted root are settled. -/
theorem settled_of_mem_listing (htree : tree.WellNamed) {components : List (List Wildcard.Part)}
    (hcompile :
      Wildcard.compile (Scan.pattern (conv.rootedAt (Path.dotted root))) = .ok components)
    {path : Text}
    (h : path ∈ Wildcard.listing tree (Scan.pattern (conv.rootedAt (Path.dotted root)))
      components) : Path.Settled path := by
  -- A slash at the end of the pattern only leaves the directories of what is listed.
  have hfound : path ∈ Wildcard.expand tree (Wildcard.bound tree components) components
      (if Path.isAbsolute (Scan.pattern (conv.rootedAt (Path.dotted root))) then ['/']
        else ['.']) := by
    rw [Wildcard.listing] at h
    split at h
    · exact (List.mem_filter.1 h).1
    · exact h
  have hpattern : Scan.pattern (conv.rootedAt (Path.dotted root)) =
      Wildcard.escape (Path.join (Path.dotted root) conv.propertyDirectory) ++ "/**/*.".toList ++
        conv.extension := rfl
  cases hdirectory : Path.isAbsolute conv.propertyDirectory with
  | true =>
    have habsolute : Path.isAbsolute (Scan.pattern (conv.rootedAt (Path.dotted root))) = true := by
      rw [hpattern, Path.join, if_pos hdirectory]
      cases hchars : conv.propertyDirectory with
      | nil =>
        rw [hchars] at hdirectory
        cases hdirectory
      | cons c rest =>
        rw [hchars] at hdirectory
        obtain rfl : c = '/' := by simpa [Path.isAbsolute] using hdirectory
        rw [Wildcard.escape_cons_of_not_special rfl]
        rfl
    rw [habsolute, if_pos rfl] at hfound
    exact Wildcard.settled_of_mem_expand Path.settled_root hfound
  | false =>
    rw [Path.join_dotted hdirectory] at hpattern
    have hrelative : Path.isAbsolute (Scan.pattern (conv.rootedAt (Path.dotted root))) = false := by
      rw [hpattern, Wildcard.escape_cons_of_not_special rfl]
      rfl
    rw [hrelative, if_neg Bool.false_ne_true] at hfound
    rw [hpattern] at hcompile
    obtain ⟨names, back, hnames, rfl⟩ := Wildcard.exists_of_compile hcompile
    exact Wildcard.settled_of_mem_expand_here htree hnames hfound

/-- Visiting paths that are not below the root adds nothing. -/
theorem visitAll_of_outside {paths : List Text}
    (h : ∀ path ∈ paths, Path.documentPath? conv.root path = none) (catalog : PropertyCatalog) :
    (Scan.visitAll conv paths catalog).1 = catalog := by
  induction paths generalizing catalog with
  | nil => rfl
  | cons path rest ih =>
    have hvisit : (Scan.visit conv catalog path).1 = catalog := by
      unfold Scan.visit
      split
      · rfl
      · dsimp only
        split
        · rfl
        · rw [h path List.mem_cons_self]
    change (Scan.visitAll conv rest (Scan.visit conv catalog path).1).1 = catalog
    rw [hvisit]
    exact ih (fun later hlater => h later (List.mem_cons_of_mem _ hlater)) catalog

/-- Below a dotted root no property document is found. -/
theorem properties_dotted (htree : tree.WellNamed) (root : Text) :
    (Scan.properties (conv.rootedAt (Path.dotted root)) tree).1 = .empty := by
  unfold Scan.properties
  split
  · rfl
  · next components hcompile =>
    refine visitAll_of_outside (fun path hpath => ?_) .empty
    rw [Path.sort, List.mem_mergeSort, List.mem_filter] at hpath
    exact Path.documentPath?_dotted (settled_of_mem_listing htree hcompile hpath.1) root

/-! ### Type documents -/

/-- Whatever is read below the directory of the types is found under both spellings of the root. -/
theorem resolve_typeRoot_dotted (tree : FileTree) (hroot : Path.isAbsolute root = false)
    (hne : Path.join root conv.typeDirectory ≠ []) :
    tree.resolve (conv.rootedAt (Path.dotted root)).typeRoot =
        tree.resolve (conv.rootedAt root).typeRoot ∧
      ∀ entry, tree.resolve (Path.join (conv.rootedAt (Path.dotted root)).typeRoot entry) =
        tree.resolve (Path.join (conv.rootedAt root).typeRoot entry) := by
  change tree.resolve (Path.join (Path.dotted root) conv.typeDirectory) =
      tree.resolve (Path.join root conv.typeDirectory) ∧
    ∀ entry, tree.resolve (Path.join (Path.join (Path.dotted root) conv.typeDirectory) entry) =
      tree.resolve (Path.join (Path.join root conv.typeDirectory) entry)
  refine ⟨FileTree.resolve_join_dotted hroot hne, fun entry => ?_⟩
  cases hdirectory : Path.isAbsolute conv.typeDirectory with
  | true => simp [Path.join, hdirectory]
  | false =>
    rw [Path.join_dotted hdirectory, ← Path.dotted_of_ne_nil hne]
    refine FileTree.resolve_join_dotted (Path.isAbsolute_join hroot hdirectory) ?_
    exact Path.join_ne_nil hne entry

/-- Both spellings of a root find the same type documents. -/
theorem types_dotted (hroot : Path.isAbsolute root = false)
    (hne : Path.join root conv.typeDirectory ≠ []) :
    (Scan.types (conv.rootedAt (Path.dotted root)) tree).1 =
      (Scan.types (conv.rootedAt root) tree).1 := by
  obtain ⟨hdirectory, hentry⟩ := resolve_typeRoot_dotted tree hroot hne
  have hdocument : Scan.typeDocument? (conv.rootedAt (Path.dotted root)) tree =
      Scan.typeDocument? (conv.rootedAt root) tree := by
    funext entry
    rw [Scan.typeDocument?, FileTree.isFile_congr (hentry entry)]
    rfl
  rw [Scan.types, Scan.types, FileTree.list_congr hdirectory]
  split
  · rfl
  · rw [Scan.typesAmong, Scan.typesAmong, hdocument]

/-! ### References -/

/-- Without property documents a reference holds the pages of the types and no more. -/
theorem reference_of_no_properties (h : (Scan.properties conv tree).1 = .empty) :
    (reference conv tree).1 =
      { baseUrl := conv.baseUrl
        typeUrls := Reference.typePages conv (Scan.types conv tree).1 } := by
  change (ofCatalogs conv (Scan.types conv tree).1 (Scan.properties conv tree).1 tree).1 = _
  rw [h]
  rfl

/-- A reference without paths of property documents comes from a catalog without any. -/
theorem properties_eq_empty_of_propertyFiles
    (h : (reference conv tree).1.propertyFiles = .empty) :
    (Scan.properties conv tree).1 = .empty := by
  have hfiles : (reference conv tree).1.propertyFiles = .ofList
      ((Scan.properties conv tree).1.entries.map fun d => (Text.lower d.1, d.2)) :=
    Reference.propertyFiles_build ..
  rw [hfiles, Table.ofList] at h
  apply Table.eq_of_entries_eq
  cases hentries : (Scan.properties conv tree).1.entries using List.reverseRecOn with
  | nil => rfl
  | append_singleton documents d =>
    rw [hentries, List.map_append, List.foldl_append] at h
    exact absurd h (Table.insert_ne_empty _ _ _)

/-- Below a dotted root the type documents of the root are found and none of the property documents
is: the reference is that of the root without what it says of properties. So the two catalogs are
the same, and the two references are, exactly when there is no property document. -/
theorem properties_lost_below_dotted_root (conv : Conventions) (tree : FileTree) (root : Text)
    (htree : tree.WellNamed) (hroot : Path.isAbsolute root = false)
    (hne : Path.join root conv.typeDirectory ≠ []) :
    let plain := conv.rootedAt root
    let dotted := conv.rootedAt (Path.dotted root)
    (Scan.types dotted tree).1 = (Scan.types plain tree).1 ∧
      (Scan.properties dotted tree).1 = .empty ∧
      (reference dotted tree).1 =
        { (reference plain tree).1 with propertyFiles := .empty, properties := .empty } ∧
      ((Scan.properties dotted tree).1 = (Scan.properties plain tree).1 ↔
        (Scan.properties plain tree).1 = .empty) ∧
      ((reference dotted tree).1 = (reference plain tree).1 ↔
        (Scan.properties plain tree).1 = .empty) := by
  intro plain dotted
  have htypes : (Scan.types dotted tree).1 = (Scan.types plain tree).1 := types_dotted hroot hne
  have hproperties : (Scan.properties dotted tree).1 = .empty :=
    properties_dotted htree root
  have hdotted : (reference dotted tree).1 =
      { baseUrl := conv.baseUrl
        typeUrls := Reference.typePages plain (Scan.types plain tree).1 } := by
    rw [reference_of_no_properties hproperties, htypes]
    rfl
  refine ⟨htypes, hproperties, hdotted, ?_, ?_⟩
  · rw [hproperties, eq_comm]
  · constructor
    · intro hsame
      refine properties_eq_empty_of_propertyFiles ?_
      rw [← hsame, hdotted]
    · intro hempty
      rw [hdotted, reference_of_no_properties hempty]
      rfl

/-- Below `./docs` the document of `docs` is lost. -/
theorem properties_lost_below_dotted_root_docs :
    gridTree.WellNamed ∧
      (Scan.properties (({} : Conventions).rootedAt "docs".toList) gridTree).1 =
        .ofList [("Grid_Rows".toList, "styles/grid/Grid_Rows".toList)] ∧
      (Scan.properties (({} : Conventions).rootedAt "./docs".toList) gridTree).1 = .empty := by
  have htree : gridTree.WellNamed := by decide
  exact ⟨htree, properties_gridTree,
    (properties_lost_below_dotted_root {} gridTree "docs".toList htree (by decide)
      (by decide)).2.1⟩

/-- The two spellings of a root give different catalogs and different references. -/
theorem spelling_of_root_matters :
    (Scan.properties (({} : Conventions).rootedAt "./docs".toList) gridTree).1 ≠
        (Scan.properties (({} : Conventions).rootedAt "docs".toList) gridTree).1 ∧
      (reference (({} : Conventions).rootedAt "./docs".toList) gridTree).1 ≠
        (reference (({} : Conventions).rootedAt "docs".toList) gridTree).1 := by
  have hplain : (Scan.properties (({} : Conventions).rootedAt "docs".toList) gridTree).1 ≠
      .empty := by
    rw [show ({} : Conventions).rootedAt "docs".toList = {} from rfl, properties_gridTree]
    exact Table.insert_ne_empty _ _ _
  have hdotted : (Scan.properties (({} : Conventions).rootedAt "./docs".toList) gridTree).1 =
      .empty := properties_dotted (by decide) "docs".toList
  refine ⟨fun h => hplain (h.symm.trans hdotted), fun h => hplain ?_⟩
  refine properties_eq_empty_of_propertyFiles ?_
  rw [← h, reference_of_no_properties hdotted]

end Build

end StyleDocs
