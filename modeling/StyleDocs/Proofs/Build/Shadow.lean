import StyleDocs.Build
import StyleDocs.Proofs.Key
import StyleDocs.Proofs.Reference.Tables

/-!
# Documents that shadow one another

Building the reference of a tree resolves collisions of names twice: the table of paths keeps the
last document of a name, the table of entries the last document that says something. A record is
therefore published with the path of its own document unless another document has taken the place
of one of the two, and then both have one property key.
-/

namespace StyleDocs.Build

section Catalogs

variable (conv : Conventions) (types : TypeCatalog) (properties : PropertyCatalog)
  (tree : FileTree)

/-- What the document with a path below the root says, if it can be read and says anything. -/
def told? (path : Text) : Option PropertyRecord :=
  match tree.read (conv.documentFile path) with
  | .error _ => none
  | .ok doc =>
    let record := Document.record conv types properties doc
    if record.isEmpty then none else some record

/-- The last document of a catalog with the property key of a name that says anything. -/
def described? (name : Text) : Option (Text × Text) :=
  properties.entries.findRev? fun d => Key.property d.1 = Key.property name &&
    (told? conv types properties tree d.2).isSome

/-- Whether the entry is what the document with a path below the root says. -/
def Describes (path : Text) (entry : Entry) : Prop :=
  ∃ doc, tree.read (conv.documentFile path) = .ok doc ∧
    entry = Entry.ofRecord (Document.record conv types properties doc)

theorem readDocument_fst (name path : Text) :
    (readDocument conv types properties tree name path).1 =
      told? conv types properties tree path := by
  unfold readDocument told?
  dsimp only
  cases tree.read (conv.documentFile path) with
  | error cause => rfl
  | ok doc =>
    dsimp only
    split <;> rfl

/-- The records that are read are those of the documents that say something, in their order. -/
theorem readDocuments_fst (documents : List (Text × Text)) :
    (readDocuments conv types properties tree documents).1 =
      documents.filterMap fun d => (told? conv types properties tree d.2).map (d.1, ·) := by
  induction documents with
  | nil => rfl
  | cons d rest ih =>
    rw [List.filterMap_cons]
    change (readDocument conv types properties tree d.1 d.2).1.toList.map (d.1, ·) ++
      (readDocuments conv types properties tree rest).1 = _
    rw [ih, readDocument_fst]
    cases told? conv types properties tree d.2 <;> rfl

/-- A record that is told is published as what its document says. -/
theorem describes_of_told? {path : Text} {record : PropertyRecord}
    (h : told? conv types properties tree path = some record) :
    Describes conv types properties tree path (Entry.ofRecord record) := by
  unfold told? at h
  split at h
  · cases h
  · next doc hdoc =>
    dsimp only at h
    split at h
    · cases h
    · cases h
      exact ⟨doc, hdoc, rfl⟩

/-- The entry of a property is what the last of the documents with its property key says that say
anything. -/
theorem entry?_ofCatalogs (name : Text) :
    Reference.entry? (ofCatalogs conv types properties tree).1 name =
      (described? conv types properties tree name).bind
        fun d => (told? conv types properties tree d.2).map Entry.ofRecord := by
  change Reference.entry? (Reference.build conv types properties
    (readDocuments conv types properties tree properties.entries).1).1 name = _
  rw [Reference.entry?_build, readDocuments_fst, described?, findRev?_filterMap]
  have hkey : ∀ d : Text × Text, ((told? conv types properties tree d.2).map (d.1, ·)).any
      (fun r => decide (Key.property r.1 = Key.property name)) =
        (Key.property d.1 = Key.property name &&
          (told? conv types properties tree d.2).isSome) := by
    intro d
    cases told? conv types properties tree d.2 <;> simp
  simp only [hkey, Option.map_bind, Option.map_map, Function.comp_def]

/-- The path of a property is the path of the last document filed under its file key. -/
theorem propertyFile?_ofCatalogs (name : Text) :
    (ofCatalogs conv types properties tree).1.propertyFile? name =
      (Reference.filed? properties name).map Prod.snd :=
  Reference.propertyFile?_build conv types properties _ name

variable {conv types properties tree}

/-- Of two documents with one property key, the one whose record is published has the later name,
unless the other says nothing. -/
theorem told?_eq_none_or_lt {name : Text} {described filed : Text × Text}
    (hdescribed : described? conv types properties tree name = some described)
    (hfiled : filed ∈ properties.entries) (hkey : Key.property filed.1 = Key.property name)
    (hne : filed ≠ described) :
    told? conv types properties tree filed.2 = none ∨ filed.1 < described.1 := by
  cases htold : told? conv types properties tree filed.2 with
  | none => exact Or.inl rfl
  | some record =>
    have hp : (decide (Key.property filed.1 = Key.property name) &&
        (told? conv types properties tree filed.2).isSome) = true := by
      simp [hkey, htold]
    exact Or.inr (rel_of_findRev? (r := fun a b => a.1 < b.1) properties.ascending hdescribed
      hfiled hp hne)

end Catalogs

/-- Documents that are listed in order are visited as they are listed. -/
theorem properties_of_listing (conv : Conventions) (tree : FileTree)
    {components : List (List Wildcard.Part)} {paths : List Text}
    (hpaths : paths.Pairwise fun a b => Path.atMost a b = true)
    (hpattern : Wildcard.compile (Scan.pattern conv) = .ok components)
    (hlisting : (Wildcard.listing tree (Scan.pattern conv) components).filter tree.isFile =
      paths) :
    (Scan.properties conv tree).1 = (Scan.visitAll conv paths .empty).1 := by
  rw [Scan.properties, hpattern]
  dsimp only
  rw [hlisting]
  dsimp only [Scan.propertiesAt]
  rw [Path.sort, List.mergeSort_of_pairwise hpaths]

/-- A tree with one property document. -/
def gridTree : FileTree where
  nodes := [(["docs".toList, "styles".toList, "grid".toList, "Grid_Rows.md".toList],
    .file (FileTree.encode "a|b".toList))]

theorem properties_gridTree :
    (Scan.properties {} gridTree).1 =
      .ofList [("Grid_Rows".toList, "styles/grid/Grid_Rows".toList)] := by
  have hpaths : ["docs/styles/grid/Grid_Rows.md".toList].Pairwise
      fun a b => Path.atMost a b = true := List.pairwise_singleton _ _
  rw [properties_of_listing {} gridTree hpaths rfl rfl]
  decide +kernel

theorem reference_gridTree :
    (reference {} gridTree).1 = (ofCatalogs {} (Scan.types {} gridTree).1
      (.ofList [("Grid_Rows".toList, "styles/grid/Grid_Rows".toList)]) gridTree).1 := by
  rw [← properties_gridTree]
  rfl

/-- A tree with a document that says something and one that says nothing, named alike but for a
capital letter. -/
def tintTree : FileTree where
  nodes := [
    (["docs".toList, "styles".toList, "Tint.md".toList], .file (FileTree.encode "a|b".toList)),
    (["docs".toList, "styles".toList, "tint.md".toList], .file (FileTree.encode []))]

theorem properties_tintTree :
    (Scan.properties {} tintTree).1 =
      .ofList [("Tint".toList, "styles/Tint".toList), ("tint".toList, "styles/tint".toList)] := by
  have hpaths : ["docs/styles/Tint.md".toList, "docs/styles/tint.md".toList].Pairwise
      fun a b => Path.atMost a b = true := by decide
  rw [properties_of_listing {} tintTree hpaths rfl rfl]
  decide +kernel

end StyleDocs.Build
