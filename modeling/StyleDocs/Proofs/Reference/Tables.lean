import StyleDocs.Proofs.Table
import StyleDocs.Reference

/-!
# The tables of a built reference

Building a reference fills its tables one entry after the other. Each table is therefore the table
of a list of entries made from the catalogs and the records, and each query answers with the last
item of its list whose key is the key asked for.
-/

namespace StyleDocs.Reference

theorem addFiles_fst (documents : List (Text × Text)) (files : Table Text) :
    (addFiles documents files).1 =
      (documents.map fun d => (Text.lower d.1, d.2)).foldl (fun t e => t.insert e.1 e.2) files := by
  induction documents generalizing files with
  | nil => rfl
  | cons d rest ih => exact ih (addFile d.1 d.2 files).1

theorem addRecords_fst (records : List (Text × PropertyRecord)) (entries : Table Entry) :
    (addRecords records entries).1 =
      (records.map fun r => (Key.property r.1, Entry.ofRecord r.2)).foldl
        (fun t e => t.insert e.1 e.2) entries := by
  induction records generalizing entries with
  | nil => rfl
  | cons r rest ih => exact ih (addRecord r.1 r.2 entries).1

/-- The last document of a catalog that is filed under the file key of a name. -/
def filed? (properties : PropertyCatalog) (name : Text) : Option (Text × Text) :=
  properties.entries.findRev? fun d => Text.lower d.1 = Key.file name

section Build

variable (conv : Conventions) (types : TypeCatalog) (properties : PropertyCatalog)
  (records : List (Text × PropertyRecord))

@[simp] theorem baseUrl_build :
    (build conv types properties records).1.baseUrl = conv.baseUrl := rfl

/-- Documents are filed in the order of their names under the lower-case forms of these. -/
theorem propertyFiles_build :
    (build conv types properties records).1.propertyFiles =
      .ofList (properties.entries.map fun d => (Text.lower d.1, d.2)) :=
  addFiles_fst properties.entries .empty

/-- Records are published in their order under the property keys of their names. -/
theorem properties_build :
    (build conv types properties records).1.properties =
      .ofList (records.map fun r => (Key.property r.1, Entry.ofRecord r.2)) :=
  addRecords_fst records .empty

/-- The path of a property is the path of the last document filed under its file key. -/
theorem propertyFile?_build (name : Text) :
    (build conv types properties records).1.propertyFile? name =
      (filed? properties name).map Prod.snd := by
  rw [propertyFile?, propertyFiles_build, Table.get?_ofList_map]
  rfl

/-- The entry of a property is made from the last record with its property key. -/
theorem entry?_build (name : Text) :
    Reference.entry? (build conv types properties records).1 name =
      (records.findRev? fun r => Key.property r.1 = Key.property name).map
        fun r => Entry.ofRecord r.2 := by
  rw [Reference.entry?, properties_build, Table.get?_ofList_map]

/-- A name whose property key is the lower-case form of a catalogued type has the page under that
form. -/
theorem typeUrl?_build {type name : Text} (htype : type ∈ types.keys)
    (hkey : Key.property name = Text.lower type) :
    (build conv types properties records).1.typeUrl? name =
      some (conv.typeUrl (Text.lower type)) := by
  change (typePages conv types).get? (Key.property name) = _
  rw [typePages, Table.get?_ofList_map, List.findRev?_eq_find?_reverse]
  have hfound : (types.keys.reverse.find? fun t => Text.lower t = Key.property name).isSome := by
    rw [List.find?_isSome]
    exact ⟨type, List.mem_reverse.2 htype, by simp [hkey]⟩
  obtain ⟨t, ht⟩ := Option.isSome_iff_exists.1 hfound
  have hlower : Text.lower t = Key.property name := by simpa using List.find?_some ht
  rw [ht, Option.map_some, hlower, hkey]

end Build

end StyleDocs.Reference
