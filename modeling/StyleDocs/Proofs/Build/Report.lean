import StyleDocs.Proofs.Build.Shadow
import StyleDocs.Proofs.FileTree.Steps
import StyleDocs.Proofs.Scan

/-!
# What is lost is reported

A document can lose its place to another one three times: in the catalog to a document of its name,
in the table of files to a document whose name has the same lower-case form, and in the table of
entries to one with its property key. Each loss happens in a single insertion, and the insertion
reports it. So what was in a table before a run is in it afterwards or has been reported, and this
holds of the whole way from the listed file to the published reference.
-/

namespace StyleDocs

/-! ### Paths in a table -/

/-- Whether a table has the path of a document, or an event names the path as the one whose place
another has taken. -/
def Accounted (path : Text) (files : Table Text) (events : List Event) : Prop :=
  (∃ key, files.get? key = some path) ∨
    ∃ name winner, .nameCollision name winner path ∈ events

section Accounts

variable {path : Text} {files : Table Text} {events : List Event}

theorem Accounted.of_subset {more : List Event} (h : Accounted path files events)
    (hmore : events ⊆ more) : Accounted path files more := by
  rcases h with hkept | ⟨name, winner, hmem⟩
  · exact Or.inl hkept
  · exact Or.inr ⟨name, winner, hmore hmem⟩

theorem accounted_added (files : Table Text) (name path : Text) (events : List Event) :
    Accounted path (PropertyCatalog.add files name path).1 events :=
  Or.inl ⟨name, by rw [PropertyCatalog.add, Table.get?_insert, if_pos rfl]⟩

/-- An insertion reports the path that it removes. -/
theorem Accounted.add (h : Accounted path files events) (name new : Text) :
    Accounted path (PropertyCatalog.add files name new).1
      (events ++ (PropertyCatalog.add files name new).2) := by
  rcases h with ⟨key, hkey⟩ | ⟨found, winner, hmem⟩
  · by_cases hname : name = key
    · refine Or.inr ⟨name, new, List.mem_append_right _ ?_⟩
      simp [PropertyCatalog.add, hname, hkey]
    · refine Or.inl ⟨key, ?_⟩
      rw [PropertyCatalog.add, Table.get?_insert, if_neg hname, hkey]
  · exact Or.inr ⟨found, winner, List.mem_append_left _ hmem⟩

end Accounts

/-! ### The catalog -/

namespace Scan

variable {conv : Conventions} {document : Text} {catalog : PropertyCatalog} {events : List Event}

theorem visitAll_cons (path : Text) (rest : List Text) (catalog : PropertyCatalog) :
    visitAll conv (path :: rest) catalog =
      ((visitAll conv rest (visit conv catalog path).1).1,
        (visit conv catalog path).2 ++ (visitAll conv rest (visit conv catalog path).1).2) := rfl

/-- A visit leaves the catalog as it is, or it adds the document of its path. -/
theorem visit_cases (conv : Conventions) (catalog : PropertyCatalog) (path : Text) :
    (document? conv path = none ∧ (visit conv catalog path).1 = catalog) ∨
      ∃ d, document? conv path = some d ∧
        visit conv catalog path = PropertyCatalog.add catalog d.1 d.2 := by
  unfold visit document?
  cases Path.fileName? path with
  | none => exact Or.inl ⟨rfl, rfl⟩
  | some file =>
    dsimp only
    split
    · exact Or.inl ⟨rfl, rfl⟩
    · cases Path.documentPath? conv.root path with
      | none => exact Or.inl ⟨rfl, rfl⟩
      | some document => exact Or.inr ⟨(Path.stem file, document), rfl, rfl⟩

/-- A visit reports the path that it removes. -/
theorem accounted_visit (h : Accounted document catalog events) (path : Text) :
    Accounted document (visit conv catalog path).1 (events ++ (visit conv catalog path).2) := by
  rcases visit_cases conv catalog path with ⟨-, hcatalog⟩ | ⟨d, -, hadd⟩
  · rw [hcatalog]
    exact h.of_subset (List.subset_append_left _ _)
  · rw [hadd]
    exact h.add d.1 d.2

/-- Visits report the paths that they remove. -/
theorem accounted_visitAll (h : Accounted document catalog events) (paths : List Text) :
    Accounted document (visitAll conv paths catalog).1
      (events ++ (visitAll conv paths catalog).2) := by
  induction paths generalizing catalog events with
  | nil => exact h.of_subset (List.subset_append_left _ _)
  | cons path rest ih =>
    rw [visitAll_cons, ← List.append_assoc]
    exact ih (accounted_visit h path)

/-- The document of a path that is visited is catalogued at the end or has been reported. -/
theorem accounted_of_visited {paths : List Text} {path name : Text} (hmem : path ∈ paths)
    (hdocument : document? conv path = some (name, document)) (catalog : PropertyCatalog) :
    Accounted document (visitAll conv paths catalog).1 (visitAll conv paths catalog).2 := by
  induction paths generalizing catalog with
  | nil => cases hmem
  | cons first rest ih =>
    rw [visitAll_cons]
    rcases List.mem_cons.1 hmem with rfl | hmem
    · refine accounted_visitAll ?_ rest
      rcases visit_cases conv catalog path with ⟨hnone, -⟩ | ⟨d, hsome, hadd⟩
      · rw [hdocument] at hnone
        cases hnone
      · obtain rfl : (name, document) = d := Option.some.inj (hdocument.symm.trans hsome)
        rw [hadd]
        exact accounted_added catalog name document _
    · exact (ih hmem _).of_subset (List.subset_append_right _ _)

/-- A path that is visited and has no document below the root is reported. -/
theorem outsideRoot_of_visited {paths : List Text} {path file : Text} (hmem : path ∈ paths)
    (hfile : Path.fileName? path = some file) (hreserved : Path.stem file ∉ conv.reserved)
    (hnone : Path.documentPath? conv.root path = none) (catalog : PropertyCatalog) :
    .outsideRoot path ∈ (visitAll conv paths catalog).2 := by
  induction paths generalizing catalog with
  | nil => cases hmem
  | cons first rest ih =>
    rw [visitAll_cons]
    rcases List.mem_cons.1 hmem with rfl | hmem
    · refine List.mem_append_left _ ?_
      simp [visit, hfile, hreserved, hnone]
    · exact List.mem_append_right _ (ih hmem _)

/-- A scan visits the listed files in the order of their paths. -/
theorem properties_eq_visitAll (conv : Conventions) (tree : FileTree) :
    (properties conv tree).1 = (visitAll conv (Path.sort (listed conv tree)) .empty).1 ∧
      (visitAll conv (Path.sort (listed conv tree)) .empty).2 ⊆ (properties conv tree).2 := by
  unfold properties listed
  cases Wildcard.compile (pattern conv) with
  | error fault =>
    dsimp only
    rw [Path.sort, List.mergeSort_nil]
    exact ⟨rfl, List.nil_subset _⟩
  | ok components => exact ⟨rfl, List.subset_append_left _ _⟩

end Scan

/-! ### The reference -/

namespace Reference

/-- Filing a document is adding it under the lower-case form of its name. -/
theorem addFiles_cons (d : Text × Text) (rest : List (Text × Text)) (files : Table Text) :
    addFiles (d :: rest) files =
      ((addFiles rest (PropertyCatalog.add files (Text.lower d.1) d.2).1).1,
        (PropertyCatalog.add files (Text.lower d.1) d.2).2 ++
          (addFiles rest (PropertyCatalog.add files (Text.lower d.1) d.2).1).2) := rfl

/-- Filing documents reports the paths that it removes. -/
theorem accounted_addFiles {path : Text} {files : Table Text} {events : List Event}
    (h : Accounted path files events) (documents : List (Text × Text)) :
    Accounted path (addFiles documents files).1 (events ++ (addFiles documents files).2) := by
  induction documents generalizing files events with
  | nil => exact h.of_subset (List.subset_append_left _ _)
  | cons d rest ih =>
    rw [addFiles_cons, ← List.append_assoc]
    exact ih (h.add (Text.lower d.1) d.2)

/-- A catalogued document is filed at the end or has been reported. -/
theorem accounted_of_catalogued {documents : List (Text × Text)} {d : Text × Text}
    (hmem : d ∈ documents) (files : Table Text) :
    Accounted d.2 (addFiles documents files).1 (addFiles documents files).2 := by
  induction documents generalizing files with
  | nil => cases hmem
  | cons first rest ih =>
    rw [addFiles_cons]
    rcases List.mem_cons.1 hmem with rfl | hmem
    · exact accounted_addFiles (accounted_added files _ _ _) rest
    · exact (ih hmem _).of_subset (List.subset_append_right _ _)

theorem addRecords_cons (r : Text × PropertyRecord) (rest : List (Text × PropertyRecord))
    (entries : Table Entry) :
    addRecords (r :: rest) entries =
      ((addRecords rest (addRecord r.1 r.2 entries).1).1,
        (addRecord r.1 r.2 entries).2 ++ (addRecords rest (addRecord r.1 r.2 entries).1).2) := rfl

/-- An entry is kept or its property is reported to be documented twice. -/
theorem entry_kept_or_reported {key : Text} {entry : Entry} {entries : Table Entry}
    (h : entries.get? key = some entry) (records : List (Text × PropertyRecord)) :
    (addRecords records entries).1.get? key = some entry ∨
      ∃ kept, .documentedTwice key kept ∈ (addRecords records entries).2 := by
  induction records generalizing entries with
  | nil => exact Or.inl h
  | cons r rest ih =>
    rw [addRecords_cons]
    by_cases hkey : Key.property r.1 = key
    · refine Or.inr ⟨r.1, List.mem_append_left _ ?_⟩
      simp [addRecord, hkey, Table.has, h]
    · have hstays : (addRecord r.1 r.2 entries).1.get? key = some entry := by
        rw [addRecord, Table.get?_insert, if_neg hkey, h]
      exact (ih hstays).imp id (Exists.imp fun kept hmem => List.mem_append_right _ hmem)

/-- A record is published at the end or its property is reported to be documented twice. -/
theorem published_or_reported {records : List (Text × PropertyRecord)} {r : Text × PropertyRecord}
    (hmem : r ∈ records) (entries : Table Entry) :
    (addRecords records entries).1.get? (Key.property r.1) = some (.ofRecord r.2) ∨
      ∃ kept, .documentedTwice (Key.property r.1) kept ∈ (addRecords records entries).2 := by
  induction records generalizing entries with
  | nil => cases hmem
  | cons first rest ih =>
    rw [addRecords_cons]
    rcases List.mem_cons.1 hmem with rfl | hmem
    · have hpublished : (addRecord r.1 r.2 entries).1.get? (Key.property r.1) =
          some (.ofRecord r.2) := by
        rw [addRecord, Table.get?_insert, if_pos rfl]
      exact (entry_kept_or_reported hpublished rest).imp id
        (Exists.imp fun kept hmem => List.mem_append_right _ hmem)
    · exact (ih hmem _).imp id (Exists.imp fun kept hmem => List.mem_append_right _ hmem)

end Reference

/-! ### The whole run -/

namespace Build

variable {conv : Conventions} {tree : FileTree}

/-- A run reports what its scan reports. -/
theorem mem_events_of_scan {e : Event} (h : e ∈ (Scan.properties conv tree).2) :
    e ∈ (reference conv tree).2 :=
  List.mem_append_left _ (List.mem_append_right _ h)

/-- A run reports what is reported when the reference is put together. -/
theorem mem_events_of_build {e : Event}
    (h : e ∈ (Reference.build conv (Scan.types conv tree).1 (Scan.properties conv tree).1
      (readDocuments conv (Scan.types conv tree).1 (Scan.properties conv tree).1 tree
        (Scan.properties conv tree).1.entries).1).2) :
    e ∈ (reference conv tree).2 :=
  List.mem_append_right _ (List.mem_append_right _ (List.mem_cons_of_mem _ h))

/-- The path of a catalogued document is in the table of files or has been reported. -/
theorem accounted_reference {name path : Text}
    (h : (Scan.properties conv tree).1.get? name = some path) :
    Accounted path (reference conv tree).1.propertyFiles (reference conv tree).2 :=
  (Reference.accounted_of_catalogued (Table.mem_entries_iff.2 h) .empty).of_subset fun _ hmem =>
    mem_events_of_build (List.mem_append_left _ hmem)

/-- The document of a listed path is in the table of files or has been reported. -/
theorem accounted_of_listed {path name document : Text} (hmem : path ∈ Scan.listed conv tree)
    (hdocument : Scan.document? conv path = some (name, document)) :
    Accounted document (reference conv tree).1.propertyFiles (reference conv tree).2 := by
  obtain ⟨hcatalog, hevents⟩ := Scan.properties_eq_visitAll conv tree
  rcases Scan.accounted_of_visited (Path.mem_sort.2 hmem) hdocument .empty with
    ⟨key, hkey⟩ | ⟨found, winner, hreported⟩
  · exact accounted_reference (hcatalog ▸ hkey)
  · exact Or.inr ⟨found, winner, mem_events_of_scan (hevents hreported)⟩

/-- A document that says something is published or its property is reported to be documented
twice. -/
theorem published_or_documentedTwice {name path doc : Text}
    (h : (Scan.properties conv tree).1.get? name = some path)
    (hread : tree.read (conv.documentFile path) = .ok doc)
    (hspeaks : (Document.record conv (Scan.types conv tree).1 (Scan.properties conv tree).1
      doc).isEmpty = false) :
    (reference conv tree).1.properties.get? (Key.property name) =
        some (.ofRecord (Document.record conv (Scan.types conv tree).1
          (Scan.properties conv tree).1 doc)) ∨
      ∃ kept, .documentedTwice (Key.property name) kept ∈ (reference conv tree).2 := by
  have htold : told? conv (Scan.types conv tree).1 (Scan.properties conv tree).1 tree path =
      some (Document.record conv (Scan.types conv tree).1 (Scan.properties conv tree).1 doc) := by
    rw [told?, hread]
    exact if_neg (by simp [hspeaks])
  have hmem : (name, Document.record conv (Scan.types conv tree).1 (Scan.properties conv tree).1
      doc) ∈ (readDocuments conv (Scan.types conv tree).1 (Scan.properties conv tree).1 tree
        (Scan.properties conv tree).1.entries).1 := by
    rw [readDocuments_fst, List.mem_filterMap]
    exact ⟨(name, path), Table.mem_entries_iff.2 h, by rw [htold]; rfl⟩
  exact (Reference.published_or_reported hmem .empty).imp id fun ⟨kept, hreported⟩ =>
    ⟨kept, mem_events_of_build (List.mem_append_right _ hreported)⟩

end Build

end StyleDocs
