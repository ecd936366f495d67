import StyleDocs.OutputFormat
import StyleDocs.Proofs.Build.Shadow
import StyleDocs.Proofs.FileTree.Edit
import StyleDocs.Proofs.Scan

/-!
# What a reference depends on

A reference is made from the set of documents of a tree and from what the catalogued documents say.
The order in which directories enumerate their entries and patterns their paths leaves no trace in
it. A file leaves a trace in the entries of the documents that are read from it and nowhere else:
not in the catalogs, not in the links of other documents and not in another entry.
-/

namespace StyleDocs

open FileTree

namespace Build

section Catalogs

variable {conv : Conventions} {types : TypeCatalog} {properties : PropertyCatalog}
  {a b : FileTree}

/-- What a document says depends on what is read at its path. -/
theorem told?_congr {path : Text}
    (h : a.read (conv.documentFile path) = b.read (conv.documentFile path)) :
    told? conv types properties a path = told? conv types properties b path := by
  rw [told?, told?, h]

theorem properties_ofCatalogs (tree : FileTree) :
    (ofCatalogs conv types properties tree).1.properties =
      .ofList (properties.entries.filterMap fun d =>
        (told? conv types properties tree d.2).map fun r =>
          (Key.property d.1, Entry.ofRecord r)) := by
  change (Reference.build conv types properties
    (readDocuments conv types properties tree properties.entries).1).1.properties = _
  rw [Reference.properties_build, readDocuments_fst, List.map_filterMap]
  simp only [Option.map_map, Function.comp_def]

/-- The entry under a key depends on the documents with the key. -/
theorem get?_properties_congr {key : Text}
    (h : ∀ d ∈ properties.entries, Key.property d.1 = key →
      a.read (conv.documentFile d.2) = b.read (conv.documentFile d.2)) :
    (ofCatalogs conv types properties a).1.properties.get? key =
      (ofCatalogs conv types properties b).1.properties.get? key := by
  rw [properties_ofCatalogs, properties_ofCatalogs]
  refine Table.get?_ofList_filterMap_congr fun d hd => ?_
  by_cases hkey : Key.property d.1 = key
  · rw [told?_congr (h d hd hkey)]
  · simp [Option.filter_map, Function.comp_def, hkey]

/-- The reference of catalogued documents depends on what is read at their paths. -/
theorem ofCatalogs_congr
    (h : ∀ d ∈ properties.entries,
      a.read (conv.documentFile d.2) = b.read (conv.documentFile d.2)) :
    (ofCatalogs conv types properties a).1 = (ofCatalogs conv types properties b).1 := by
  have hproperties : (ofCatalogs conv types properties a).1.properties =
      (ofCatalogs conv types properties b).1.properties :=
    Table.eq_of_get?_eq fun key => get?_properties_congr fun d hd _ => h d hd
  have htables : (ofCatalogs conv types properties a).1 =
      { (ofCatalogs conv types properties b).1 with
        properties := (ofCatalogs conv types properties a).1.properties } := rfl
  rw [htables, hproperties]

end Catalogs

end Build

/-! ### Another order -/

/-- The orders in which a file system enumerates what it finds. -/
structure Enumeration where
  /-- The order of the entries of a directory. -/
  entries : List Text → List Text
  /-- The order of the paths that a pattern stands for. -/
  paths : List Text → List Text
  /-- Each entry is enumerated as often as it is found. -/
  entries_perm : ∀ found, (entries found).Perm found
  /-- Each path is enumerated as often as it is found. -/
  paths_perm : ∀ found, (paths found).Perm found

namespace Enumeration

/-- Everything is enumerated as it is found. -/
def asFound : Enumeration where
  entries := id
  paths := id
  entries_perm := List.Perm.refl
  paths_perm := List.Perm.refl

/-- What is found last is enumerated first. -/
def reversed : Enumeration where
  entries := List.reverse
  paths := List.reverse
  entries_perm := List.reverse_perm
  paths_perm := List.reverse_perm

end Enumeration

namespace Scan

/-- The type documents of a tree whose directories enumerate their entries in some order. -/
def typesIn (order : Enumeration) (conv : Conventions) (tree : FileTree) :
    TypeCatalog × List Event :=
  match tree.list conv.typeRoot with
  | .error cause => (.empty, [.typesUnreadable conv.typeRoot cause])
  | .ok entries => typesAmong conv tree (order.entries entries)

/-- The property documents of a tree whose patterns enumerate their paths in some order. -/
def propertiesIn (order : Enumeration) (conv : Conventions) (tree : FileTree) :
    PropertyCatalog × List Event :=
  match Wildcard.compile (pattern conv) with
  | .error fault => (.empty, [.patternRefused (pattern conv) fault])
  | .ok components =>
    propertiesAt conv
      (order.paths ((Wildcard.listing tree (pattern conv) components).filter tree.isFile))

variable (order : Enumeration) (conv : Conventions) (tree : FileTree)

theorem typesIn_fst : (typesIn order conv tree).1 = (types conv tree).1 := by
  unfold typesIn types
  cases tree.list conv.typeRoot with
  | error cause => rfl
  | ok entries =>
    exact typesAmong_congr (fun _ => (order.entries_perm entries).mem_iff) fun _ => rfl

theorem propertiesIn_fst : (propertiesIn order conv tree).1 = (properties conv tree).1 := by
  unfold propertiesIn properties
  cases Wildcard.compile (pattern conv) with
  | error fault => rfl
  | ok components => exact propertiesAt_congr fun _ => (order.paths_perm _).mem_iff

end Scan

namespace Build

/-- The reference of a tree that is enumerated in some order, with what there is to report. -/
def referenceIn (order : Enumeration) (conv : Conventions) (tree : FileTree) :
    Reference × List Event :=
  let (types, typeEvents) := Scan.typesIn order conv tree
  let (properties, propertyEvents) := Scan.propertiesIn order conv tree
  let (ref, events) := ofCatalogs conv types properties tree
  (ref, typeEvents ++ propertyEvents ++ events)

theorem referenceIn_asFound (conv : Conventions) (tree : FileTree) :
    referenceIn .asFound conv tree = reference conv tree := rfl

/-- A tree with one property document and one type document. -/
def typedTree : FileTree where
  nodes := (["docs".toList, "css_types".toList, "color.md".toList], .file (FileTree.encode [])) ::
    gridTree.nodes

theorem properties_typedTree :
    (Scan.properties {} typedTree).1 =
      .ofList [("Grid_Rows".toList, "styles/grid/Grid_Rows".toList)] := by
  have hpaths : ["docs/styles/grid/Grid_Rows.md".toList].Pairwise
      fun a b => Path.atMost a b = true := List.pairwise_singleton _ _
  rw [properties_of_listing {} typedTree hpaths rfl rfl]
  decide +kernel

end Build

end StyleDocs
