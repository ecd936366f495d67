import StyleDocs.OutputFormat
import StyleDocs.Proofs.StaticTables.Search
import StyleDocs.Proofs.StaticTables.Source

/-!
# What published tables say

The tables of a reference, read back from the file they are published in, list exactly what the
reference holds, each in ascending order of its keys. A property with nothing to say is in none of
them, and this is all that is lost: references without such properties are published alike only if
they are the same.
-/

namespace StyleDocs.StaticTables

variable {α : Type}

/-! ### What the tables list -/

/-- Whether entries are exactly those of a relation, in ascending order of their keys. -/
def Lists (entries : List (Text × α)) (r : Text → α → Prop) : Prop :=
  entries.Pairwise (fun a b => a.1 < b.1) ∧ ∀ key value, (key, value) ∈ entries ↔ r key value

theorem lists_entries (t : Table α) : Lists t.entries fun key value => t.get? key = some value :=
  ⟨t.ascending, fun _ _ => Table.mem_entries_iff⟩

theorem lists_select {part : Entry → α} {keep : α → Bool} {p : α → Prop}
    (h : ∀ value, keep value = true ↔ p value) (ref : Reference) :
    Lists (select part keep ref) fun key value =>
      p value ∧ ∃ entry, ref.properties.get? key = some entry ∧ part entry = value := by
  refine ⟨pairwise_select part keep ref, fun key value => ?_⟩
  rw [mem_select_iff, h]

theorem any_eq_true_iff (fields : Fields) : fields.any = true ↔
    fields.grammar ≠ none ∨ fields.cssExample ≠ none ∨ fields.secondExample ≠ none := by
  simp [Fields.any, Option.isSome_iff_ne_none, or_assoc]

/-! ### What is lost -/

/-- References with the same tables say the same of every property. -/
theorem getD_eq_of_ofReference_eq {a b : Reference} (h : ofReference a = ofReference b)
    (key : Text) : (a.properties.get? key).getD {} = (b.properties.get? key).getD {} := by
  have hvalues := getD_bisect_values a key
  have hfields := getD_bisect_fields a key
  have hseeAlso := getD_bisect_seeAlso a key
  rw [h] at hvalues hfields hseeAlso
  rw [getD_bisect_values] at hvalues
  rw [getD_bisect_fields] at hfields
  rw [getD_bisect_seeAlso] at hseeAlso
  generalize (a.properties.get? key).getD {} = x at hvalues hfields hseeAlso ⊢
  generalize (b.properties.get? key).getD {} = y at hvalues hfields hseeAlso ⊢
  cases x
  cases y
  cases hvalues
  cases hfields
  cases hseeAlso
  rfl

/-- Answers that never are the default are the same if they are with the default filled in. -/
theorem eq_of_getD_eq {x y : Option α} {d : α} (h : x.getD d = y.getD d) (hx : x ≠ some d)
    (hy : y ≠ some d) : x = y := by
  cases x with
  | none =>
    cases y with
    | none => rfl
    | some b => exact absurd (congrArg some h.symm) hy
  | some a =>
    cases y with
    | none => exact absurd (congrArg some h) hx
    | some b => exact congrArg some h

/-- References without empty entries are the same if their tables are. -/
theorem eq_of_ofReference_eq {a b : Reference} (h : ofReference a = ofReference b)
    (ha : ∀ key, a.properties.get? key ≠ some {}) (hb : ∀ key, b.properties.get? key ≠ some {}) :
    a = b := by
  have hproperties : a.properties = b.properties := by
    refine Table.eq_of_get?_eq fun key => ?_
    exact eq_of_getD_eq (getD_eq_of_ofReference_eq h key) (ha key) (hb key)
  cases a
  cases b
  cases hproperties
  injection h with hbase htypes hfiles
  cases hbase
  cases Table.eq_of_entries_eq htypes
  cases Table.eq_of_entries_eq hfiles
  rfl

/-! ### What is published -/

/-- The file of published tables is read as tables that list exactly what the reference holds: the
address, all pages and paths, and of every property the values, the texts and the related properties
if there are any, as they stand in its entry. Behind the tables stands the same in every file. So no
two references are published alike, unless entries are empty. -/
theorem ofSource?_render : ∃ behind : List Token, ∀ ref : Reference,
    (∃ tables, ofSource? (OutputFormat.tables.render ref) = some (tables, behind) ∧
      tables.baseUrl = ref.baseUrl ∧
      Lists tables.typeUrls (fun name url => ref.typeUrls.get? name = some url) ∧
      Lists tables.propertyFiles (fun name path => ref.propertyFiles.get? name = some path) ∧
      Lists tables.values (fun name values => values ≠ [] ∧
        ∃ entry, ref.properties.get? name = some entry ∧ entry.values = values) ∧
      Lists tables.fields (fun name fields =>
        (fields.grammar ≠ none ∨ fields.cssExample ≠ none ∨ fields.secondExample ≠ none) ∧
        ∃ entry, ref.properties.get? name = some entry ∧
          ⟨entry.grammar, entry.cssExample, entry.secondExample⟩ = fields) ∧
      Lists tables.seeAlso (fun name related => related ≠ [] ∧
        ∃ entry, ref.properties.get? name = some entry ∧ entry.seeAlso = related)) ∧
    ∀ other : Reference,
      (∀ name, ref.properties.get? name ≠ some {}) →
      (∀ name, other.properties.get? name ≠ some {}) →
      OutputFormat.tables.render ref = OutputFormat.tables.render other → ref = other := by
  obtain ⟨behind, hread⟩ := ofSource?_source
  have hnonempty : ∀ {β : Type} (items : List β), (!items.isEmpty) = true ↔ items ≠ [] := by simp
  refine ⟨behind, fun ref => ⟨⟨ofReference ref, hread _, rfl, lists_entries _, lists_entries _,
    ?_, ?_, ?_⟩, ?_⟩⟩
  · exact lists_select hnonempty ref
  · exact lists_select any_eq_true_iff ref
  · exact lists_select hnonempty ref
  · intro other href hother hrender
    have htables : some (ofReference ref, behind) = some (ofReference other, behind) := by
      rw [← hread, ← hread]
      exact congrArg ofSource? hrender
    exact eq_of_ofReference_eq (congrArg Prod.fst (Option.some.inj htables)) href hother

/-- A reference with texts that look like the source around them. -/
def deceiving (entries : List (Text × Entry)) : Reference where
  baseUrl := "\"; // \\".toList
  properties := .ofList entries

/-- A value that would add an entry, a description that is not read alone, and an empty grammar. -/
def deceivingEntries : List (Text × Entry) :=
  [("tint".toList, { values := [("a\"), (\"b\\".toList, "\x000\u0301".toList)] }),
   ("grid".toList, { grammar := some [], seeAlso := ["]".toList, "]".toList] })]

/-- Texts that look like the source around them are read back, and the order in which the properties
were added does not matter. -/
theorem ofSource?_render_deceiving :
    (∃ tables behind, ofSource? (OutputFormat.tables.render (deceiving deceivingEntries)) =
        some (tables, behind) ∧
      ("tint".toList, [("a\"), (\"b\\".toList, "\x000\u0301".toList)]) ∈ tables.values ∧
      ("grid".toList, ⟨some [], none, none⟩) ∈ tables.fields) ∧
    (∀ name, (deceiving deceivingEntries).properties.get? name ≠ some {}) ∧
    (∀ name, (deceiving deceivingEntries.reverse).properties.get? name ≠ some {}) ∧
    OutputFormat.tables.render (deceiving deceivingEntries) =
      OutputFormat.tables.render (deceiving deceivingEntries.reverse) ∧
    deceiving deceivingEntries = deceiving deceivingEntries.reverse := by
  obtain ⟨behind, hread⟩ := ofSource?_render
  obtain ⟨⟨tables, hsource, -, -, -, hvalues, hfields, -⟩, hsame⟩ :=
    hread (deceiving deceivingEntries)
  have hfull : ∀ entries, (∀ e ∈ (deceiving entries).properties.entries, e.2 ≠ {}) →
      ∀ name, (deceiving entries).properties.get? name ≠ some {} :=
    fun _ h name hname => h _ (Table.mem_entries_iff.2 hname) rfl
  have hfirst := hfull deceivingEntries (by decide +kernel)
  have hsecond := hfull deceivingEntries.reverse (by decide +kernel)
  have htables : ofReference (deceiving deceivingEntries) =
      ofReference (deceiving deceivingEntries.reverse) := by decide +kernel
  have hrender := congrArg StaticTables.source htables
  have htint : (deceiving deceivingEntries).properties.get? "tint".toList =
      some { values := [("a\"), (\"b\\".toList, "\x000\u0301".toList)] } := by decide +kernel
  have hgrid : (deceiving deceivingEntries).properties.get? "grid".toList =
      some { grammar := some [], seeAlso := ["]".toList, "]".toList] } := by decide +kernel
  exact ⟨⟨tables, behind, hsource, (hvalues.2 _ _).2 ⟨by simp, _, htint, rfl⟩,
    (hfields.2 _ _).2 ⟨by simp, _, hgrid, rfl⟩⟩, hfirst, hsecond, hrender,
    hsame _ hfirst hsecond hrender⟩

end StyleDocs.StaticTables
