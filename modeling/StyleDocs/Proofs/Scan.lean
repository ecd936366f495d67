import StyleDocs.Proofs.Path.Order
import StyleDocs.Proofs.Table
import StyleDocs.Proofs.Wildcard.Shape
import StyleDocs.Scan

/-!
# Catalogs of listed documents

A visit files at most one document, and the property catalog is the table of the documents that are
filed in the order of the paths. Of the documents with one name the one with the last path stays.
That document does not depend on how the paths were listed, nor on how often: the catalog is
determined by the set of paths, and the type catalog by the set of directory entries. Nor does a
scan read a file: trees of one shape have the same catalogs.
-/

namespace StyleDocs.Scan

variable {conv : Conventions}

/-! ### Property documents -/

/-- The document that a visit files, with its name and its path below the root. -/
def document? (conv : Conventions) (path : Text) : Option (Text × Text) :=
  match Path.fileName? path with
  | none => none
  | some file =>
    if conv.reserved.contains (Path.stem file) then none
    else (Path.documentPath? conv.root path).map (Path.stem file, ·)

/-- Only the components of a path count. -/
theorem document?_congr {a b : Text} (h : Path.components a = Path.components b) :
    document? conv a = document? conv b := by
  rw [document?, document?, Path.fileName?, Path.fileName?, Path.documentPath?, Path.documentPath?,
    h]

theorem visit_fst (catalog : PropertyCatalog) (path : Text) :
    (visit conv catalog path).1 =
      ((document? conv path).map fun d => catalog.insert d.1 d.2).getD catalog := by
  unfold visit document?
  cases Path.fileName? path with
  | none => rfl
  | some file =>
    dsimp only
    split
    · rfl
    · cases Path.documentPath? conv.root path <;> rfl

theorem visitAll_fst (paths : List Text) (catalog : PropertyCatalog) :
    (visitAll conv paths catalog).1 =
      (paths.filterMap (document? conv)).foldl (fun t d => t.insert d.1 d.2) catalog := by
  induction paths generalizing catalog with
  | nil => rfl
  | cons path rest ih =>
    change (visitAll conv rest (visit conv catalog path).1).1 = _
    rw [ih, visit_fst, List.filterMap_cons]
    cases document? conv path <;> rfl

/-- The catalog is the table of the documents in the order of their paths. -/
theorem propertiesAt_fst (paths : List Text) :
    (propertiesAt conv paths).1 = .ofList ((Path.sort paths).filterMap (document? conv)) :=
  visitAll_fst (Path.sort paths) .empty

/-- Whether a document with the name is filed at the path. -/
def files (conv : Conventions) (name path : Text) : Bool :=
  (document? conv path).any fun d => d.1 = name

theorem files_iff {name path : Text} :
    files conv name path = true ↔ ∃ document, document? conv path = some (name, document) := by
  unfold files
  cases document? conv path with
  | none => simp
  | some d =>
    obtain ⟨found, document⟩ := d
    simp

/-- A name is catalogued exactly when a document with the name is filed at one of the paths. -/
theorem has_propertiesAt_iff {paths : List Text} {name : Text} :
    (propertiesAt conv paths).1.has name = true ↔ ∃ path ∈ paths, files conv name path = true := by
  rw [propertiesAt_fst, Table.has_ofList_iff]
  simp only [List.mem_filterMap, Path.mem_sort, files_iff]
  constructor
  · rintro ⟨document, path, hpath, hdocument⟩
    exact ⟨path, hpath, document, hdocument⟩
  · rintro ⟨path, hpath, document, hdocument⟩
    exact ⟨document, path, hpath, hdocument⟩

/-- The last of the paths at which a document with the name is filed. -/
def last? (conv : Conventions) (paths : List Text) (name : Text) : Option Text :=
  (Path.sort paths).findRev? (files conv name)

theorem mem_of_last? {paths : List Text} {name path : Text}
    (h : last? conv paths name = some path) : path ∈ paths ∧ files conv name path = true :=
  ⟨Path.mem_sort.1 (mem_of_findRev? h), (findRev?_eq_some_iff.1 h).1⟩

theorem atMost_last? {paths : List Text} {name path other : Text}
    (h : last? conv paths name = some path) (hmem : other ∈ paths)
    (hfiles : files conv name other = true) : Path.atMost other path = true := by
  by_cases hsame : other = path
  · exact hsame ▸ Path.atMost_refl other
  · exact rel_of_findRev? (r := fun a b => Path.atMost a b = true) (Path.pairwise_sort paths) h
      (Path.mem_sort.2 hmem) hfiles hsame

theorem last?_isSome {paths : List Text} {name path : Text} (hmem : path ∈ paths)
    (hfiles : files conv name path = true) : (last? conv paths name).isSome := by
  rw [last?, List.findRev?_eq_find?_reverse, List.find?_isSome]
  exact ⟨path, List.mem_reverse.2 (Path.mem_sort.2 hmem), hfiles⟩

/-- Of the documents with one name the one with the last path is catalogued. -/
theorem get?_propertiesAt (paths : List Text) (name : Text) :
    (propertiesAt conv paths).1.get? name =
      ((last? conv paths name).bind (document? conv)).map Prod.snd := by
  rw [propertiesAt_fst, Table.get?_ofList, Table.seek_eq_find?, ← List.findRev?_eq_find?_reverse,
    findRev?_filterMap]
  rfl

/-- A document is catalogued exactly when it is filed at a path behind which no other document with
its name is filed. -/
theorem get?_propertiesAt_iff {paths : List Text} {name document : Text} :
    (propertiesAt conv paths).1.get? name = some document ↔
      ∃ path ∈ paths, document? conv path = some (name, document) ∧
        ∀ other ∈ paths, files conv name other = true → Path.atMost other path = true := by
  rw [get?_propertiesAt]
  constructor
  · intro h
    obtain ⟨⟨found, document⟩, hbind, rfl⟩ := Option.map_eq_some_iff.1 h
    obtain ⟨path, hlast, hdocument⟩ := Option.bind_eq_some_iff.1 hbind
    obtain ⟨hmem, hfiles⟩ := mem_of_last? hlast
    obtain ⟨document', hnamed⟩ := files_iff.1 hfiles
    obtain ⟨rfl, rfl⟩ := Prod.ext_iff.1 (Option.some.inj (hdocument.symm.trans hnamed))
    exact ⟨path, hmem, hdocument, fun other hother hfiles => atMost_last? hlast hother hfiles⟩
  · rintro ⟨path, hmem, hdocument, hbehind⟩
    have hfiles : files conv name path = true := files_iff.2 ⟨document, hdocument⟩
    obtain ⟨last, hlast⟩ := Option.isSome_iff_exists.1 (last?_isSome hmem hfiles)
    obtain ⟨hlastMem, hlastFiles⟩ := mem_of_last? hlast
    -- Neither of the two comes behind the other, so they are one path but for its spelling.
    have hcomponents : Path.components last = Path.components path :=
      Path.components_eq_of_atMost (hbehind last hlastMem hlastFiles)
        (atMost_last? hlast hmem hfiles)
    rw [hlast, Option.bind_some, document?_congr hcomponents, hdocument]
    rfl

/-- The property catalog is determined by the set of paths. -/
theorem propertiesAt_congr {paths paths' : List Text} (h : ∀ path, path ∈ paths ↔ path ∈ paths') :
    (propertiesAt conv paths).1 = (propertiesAt conv paths').1 := by
  refine Table.eq_of_get?_eq fun name => Option.ext fun document => ?_
  rw [get?_propertiesAt_iff, get?_propertiesAt_iff]
  simp only [h]

/-- The files among the paths that are listed. -/
def listed (conv : Conventions) (tree : FileTree) : List Text :=
  match Wildcard.compile (pattern conv) with
  | .error _ => []
  | .ok components => (Wildcard.listing tree (pattern conv) components).filter tree.isFile

theorem properties_fst (tree : FileTree) :
    (properties conv tree).1 = (propertiesAt conv (listed conv tree)).1 := by
  unfold properties listed
  cases Wildcard.compile (pattern conv) with
  | error fault =>
    dsimp only
    rw [propertiesAt_fst, Path.sort, List.mergeSort_nil]
    rfl
  | ok components => rfl

theorem isFile_of_mem_listed {tree : FileTree} {path : Text} (h : path ∈ listed conv tree) :
    tree.isFile path = true := by
  unfold listed at h
  split at h
  · cases h
  · exact (List.mem_filter.1 h).2

/-! ### Type documents -/

/-- A type is catalogued exactly when a document of its name is among the entries. -/
theorem has_typesAmong_iff {tree : FileTree} {entries : List Text} {name : Text} :
    (typesAmong conv tree entries).1.has name = true ↔
      ∃ entry ∈ entries, ∃ found, typeDocument? conv tree entry = some found ∧
        typeName found = name := by
  change (TypeCatalog.ofNames (entries.filterMap (typeDocument? conv tree))).has name = true ↔ _
  rw [TypeCatalog.ofNames, Table.has_ofList_iff]
  simp only [List.mem_map, List.mem_filterMap, Prod.mk.injEq, and_true]
  constructor
  · rintro ⟨-, found, ⟨entry, hentry, hdocument⟩, hname⟩
    exact ⟨entry, hentry, found, hdocument, hname⟩
  · rintro ⟨entry, hentry, found, hdocument, hname⟩
    exact ⟨(), found, ⟨entry, hentry, hdocument⟩, hname⟩

/-- The type catalog is determined by the set of directory entries. -/
theorem typesAmong_congr {tree tree' : FileTree} {entries entries' : List Text}
    (hentries : ∀ entry, entry ∈ entries ↔ entry ∈ entries')
    (hdocument : ∀ entry, typeDocument? conv tree entry = typeDocument? conv tree' entry) :
    (typesAmong conv tree entries).1 = (typesAmong conv tree' entries').1 := by
  refine Table.eq_of_get?_eq fun name => ?_
  have hhas : (typesAmong conv tree entries).1.has name =
      (typesAmong conv tree' entries').1.has name := by
    rw [Bool.eq_iff_iff, has_typesAmong_iff, has_typesAmong_iff]
    simp only [hentries, hdocument]
  rw [Table.has, Table.has] at hhas
  cases h : (typesAmong conv tree entries).1.get? name <;>
    cases h' : (typesAmong conv tree' entries').1.get? name <;> simp [h, h'] at hhas ⊢

/-! ### Trees of one shape -/

theorem typeDocument?_congr {a b : FileTree} (h : a.SameShape b) (entry : Text) :
    typeDocument? conv a entry = typeDocument? conv b entry := by
  rw [typeDocument?, typeDocument?, h.isFile]

/-- Trees of one shape have the same type documents. -/
theorem types_congr {a b : FileTree} (h : a.SameShape b) :
    (types conv a).1 = (types conv b).1 := by
  rcases h.list_cases conv.typeRoot with ⟨cause, ha, hb⟩ | ⟨names, names', ha, hb, hnames⟩
  · rw [types, types, ha, hb]
  · rw [types, types, ha, hb]
    exact typesAmong_congr hnames (typeDocument?_congr h)

/-- The same files are listed in trees of one shape. -/
theorem mem_listed_iff {a b : FileTree} (h : a.SameShape b) {path : Text} :
    path ∈ listed conv a ↔ path ∈ listed conv b := by
  unfold listed
  cases Wildcard.compile (pattern conv) with
  | error fault => rfl
  | ok components =>
    dsimp only
    rw [List.mem_filter, List.mem_filter, Wildcard.mem_listing_iff h, h.isFile]

/-- Trees of one shape have the same property documents. -/
theorem properties_congr {a b : FileTree} (h : a.SameShape b) :
    (properties conv a).1 = (properties conv b).1 := by
  rw [properties_fst, properties_fst]
  exact propertiesAt_congr fun _ => mem_listed_iff h

end StyleDocs.Scan
