import StyleDocs.Proofs.Table
import StyleDocs.StaticTables

/-!
# Searching static tables

The static tables answer every query as the reference does they were made from. Bisection finds in
ascending entries what a search from the front finds, because the half that is dropped holds only
keys on the other side of the one sought. A table that leaves out the properties with nothing to put
in it answers for them as for properties it never had, and that is what the reference answers too.
-/

namespace StyleDocs

namespace Table

variable {α : Type}

theorem seek_eq_none {key : Text} {entries : List (Text × α)} (h : ∀ e ∈ entries, e.1 ≠ key) :
    seek key entries = none := by
  rw [seek_eq_find?, Option.map_eq_none_iff, List.find?_eq_none]
  intro e he hkey
  exact h e he (by simpa using hkey)

end Table

namespace StaticTables

variable {α : Type}

/-! ### Bisection -/

/-- A key below the first entry behind the cut is not behind the cut. -/
theorem seek_append_of_lt {key : Text} {front back : List (Text × α)} {first : Text × α}
    (h : (front ++ back).Pairwise fun a b => a.1 < b.1) (hfirst : back.head? = some first)
    (hlt : key < first.1) : Table.seek key (front ++ back) = Table.seek key front := by
  obtain ⟨-, hback, -⟩ := List.pairwise_append.1 h
  have habove : ∀ e ∈ back, key < e.1 := by
    cases back with
    | nil => cases hfirst
    | cons e back =>
      obtain rfl : e = first := Option.some.inj hfirst
      intro d hd
      rcases List.mem_cons.1 hd with rfl | hd
      · exact hlt
      · exact List.lt_trans hlt ((List.pairwise_cons.1 hback).1 d hd)
  have hnone : Table.seek key back = none := by
    refine Table.seek_eq_none fun e he heq => ?_
    exact List.lt_irrefl key (heq ▸ habove e he)
  rw [Table.seek_append, hnone, Option.or_none]

/-- A key not below the first entry behind the cut is not in front of the cut. -/
theorem seek_append_of_not_lt {key : Text} {front back : List (Text × α)} {first : Text × α}
    (h : (front ++ back).Pairwise fun a b => a.1 < b.1) (hfirst : back.head? = some first)
    (hlt : ¬ key < first.1) : Table.seek key (front ++ back) = Table.seek key back := by
  obtain ⟨-, -, hcross⟩ := List.pairwise_append.1 h
  have hnone : Table.seek key front = none := by
    refine Table.seek_eq_none fun e he heq => hlt ?_
    rw [← heq]
    exact hcross e he first (List.mem_of_head? hfirst)
  rw [Table.seek_append, hnone, Option.none_or]

/-- Bisection of ascending entries finds what a search from the front finds. -/
theorem bisect_eq_seek (key : Text) {entries : List (Text × α)}
    (h : entries.Pairwise fun a b => a.1 < b.1) : bisect key entries = Table.seek key entries := by
  fun_induction bisect key entries with
  | case1 entries hshort => rfl
  | case2 entries hlong half hbelow ih =>
    have hcut := List.take_append_drop half entries
    rw [ih (h.sublist (List.take_sublist half entries))]
    cases hfirst : (entries.drop half).head? with
    | none => simp [hfirst] at hbelow
    | some first =>
      have hlt : key < first.1 := by simpa [hfirst] using hbelow
      rw [← hcut] at h
      rw [← seek_append_of_lt h hfirst hlt, hcut]
  | case3 entries hlong half hbelow ih =>
    have hcut := List.take_append_drop half entries
    rw [ih (h.sublist (List.drop_sublist half entries))]
    cases hfirst : (entries.drop half).head? with
    | none =>
      -- Two entries or more leave something behind the cut.
      have hlength : entries.length ≤ half := by simpa using hfirst
      omega
    | some first =>
      have hlt : ¬ key < first.1 := by simpa [hfirst] using hbelow
      rw [← hcut] at h
      rw [← seek_append_of_not_lt h hfirst hlt, hcut]

theorem bisect_entries (key : Text) (t : Table α) : bisect key t.entries = t.get? key :=
  bisect_eq_seek key t.ascending

/-! ### Selected entries -/

/-- The selected entries are those of the reference with something in the part. -/
theorem mem_select_iff {part : Entry → α} {keep : α → Bool} {ref : Reference} {key : Text}
    {value : α} :
    (key, value) ∈ select part keep ref ↔
      keep value = true ∧ ∃ entry, ref.properties.get? key = some entry ∧ part entry = value := by
  rw [select, List.mem_filter, List.mem_map, and_comm]
  refine and_congr_right fun _ => ?_
  constructor
  · rintro ⟨⟨k, entry⟩, hmem, heq⟩
    cases heq
    exact ⟨entry, Table.mem_entries_iff.1 hmem, rfl⟩
  · rintro ⟨entry, hentry, rfl⟩
    exact ⟨(key, entry), Table.mem_entries_iff.2 hentry, rfl⟩

/-- The selected entries ascend. -/
theorem pairwise_select (part : Entry → α) (keep : α → Bool) (ref : Reference) :
    (select part keep ref).Pairwise fun a b => a.1 < b.1 := by
  have hparts : (ref.properties.entries.map fun e => (e.1, part e.2)).Pairwise
      fun a b => a.1 < b.1 := List.pairwise_map.2 ref.properties.ascending
  exact hparts.filter _

/-- Searching the selected entries gives the part of the entry, if there is anything in it. -/
theorem bisect_select (part : Entry → α) (keep : α → Bool) (ref : Reference) (key : Text) :
    bisect key (select part keep ref) = ((ref.properties.get? key).map part).filter keep := by
  have hascending := pairwise_select part keep ref
  refine Option.ext fun value => ?_
  rw [bisect_eq_seek key hascending, Table.seek_eq_some_iff (Table.pairwise_ne hascending),
    mem_select_iff, Option.filter_eq_some_iff, Option.map_eq_some_iff, and_comm]

/-- Where the table has no entry, the part of the property is that of an entry that says nothing. -/
theorem getD_bisect_select (part : Entry → α) (keep : α → Bool)
    (h : ∀ entry, keep (part entry) = false → part entry = part {}) (ref : Reference) (key : Text) :
    (bisect key (select part keep ref)).getD (part {}) =
      part ((ref.properties.get? key).getD {}) := by
  rw [bisect_select]
  cases ref.properties.get? key with
  | none => rfl
  | some entry =>
    rw [Option.map_some, Option.getD_some]
    cases hkeep : keep (part entry) with
    | true => rw [Option.filter_some_pos hkeep, Option.getD_some]
    | false => rw [Option.filter_some_neg (by simp [hkeep]), Option.getD_none, h entry hkeep]

theorem getD_bisect_values (ref : Reference) (key : Text) :
    (bisect key (ofReference ref).values).getD [] =
      ((ref.properties.get? key).getD {}).values := by
  refine getD_bisect_select (·.values) (fun values => !values.isEmpty) (fun entry h => ?_) ref key
  simpa using h

theorem getD_bisect_seeAlso (ref : Reference) (key : Text) :
    (bisect key (ofReference ref).seeAlso).getD [] =
      ((ref.properties.get? key).getD {}).seeAlso := by
  refine getD_bisect_select (·.seeAlso) (fun names => !names.isEmpty) (fun entry h => ?_) ref key
  simpa using h

theorem getD_bisect_fields (ref : Reference) (key : Text) :
    (bisect key (ofReference ref).fields).getD ⟨none, none, none⟩ =
      ((ref.properties.get? key).getD {}).fields := by
  refine getD_bisect_select Entry.fields Fields.any (fun entry h => ?_) ref key
  simpa [Entry.fields, Fields.any, and_assoc] using h

/-! ### Queries -/

section Queries

variable (ref : Reference) (property : Text)

theorem valuesOf_ofReference : (ofReference ref).valuesOf property = ref.values property := by
  rw [valuesOf, getD_bisect_values, Reference.values, Reference.entry?]
  cases ref.properties.get? (Key.property property) <;> rfl

theorem related_ofReference : (ofReference ref).related property = ref.seeAlso property := by
  rw [related, getD_bisect_seeAlso, Reference.seeAlso, Reference.entry?]
  cases ref.properties.get? (Key.property property) <;> rfl

/-- A text that is read off the texts of a property is the one of its entry. -/
theorem fields?_bind_ofReference {text : Fields → Option Text}
    (h : text ⟨none, none, none⟩ = none) :
    ((ofReference ref).fields? property).bind text =
      (ref.entry? property).bind fun entry => text entry.fields := by
  have hbind : ∀ fields? : Option Fields,
      fields?.bind text = text (fields?.getD ⟨none, none, none⟩) := by
    intro fields?
    cases fields? with
    | none => exact h.symm
    | some fields => rfl
  rw [hbind, fields?, getD_bisect_fields, Reference.entry?]
  cases ref.properties.get? (Key.property property) with
  | none => exact h
  | some entry => rfl

theorem propertyFile?_ofReference :
    (ofReference ref).propertyFile? property = ref.propertyFile? property :=
  bisect_entries _ ref.propertyFiles

end Queries

/-- The static tables of a reference answer every query as the reference does, for every name. -/
theorem answers_ofReference (ref : Reference) :
    (∀ property value,
      (ofReference ref).describe property value = ref.describe property value) ∧
    (∀ property, (ofReference ref).valuesOf property = ref.values property) ∧
    (∀ property, (ofReference ref).grammar property = ref.grammar property) ∧
    (∀ property, (ofReference ref).cssExample property = ref.cssExample property) ∧
    (∀ property, (ofReference ref).secondExample property = ref.secondExample property) ∧
    (∀ property, (ofReference ref).related property = ref.seeAlso property) ∧
    (∀ name, (ofReference ref).typeUrl? name = ref.typeUrl? name) ∧
    (∀ name, (ofReference ref).propertyFile? name = ref.propertyFile? name) ∧
    (∀ name, (ofReference ref).hasProperty name = ref.hasProperty name) ∧
    ∀ name, (ofReference ref).propertyUrl? name = ref.propertyUrl? name := by
  refine ⟨fun property value => ?_, valuesOf_ofReference ref,
    fun property => fields?_bind_ofReference ref property rfl,
    fun property => fields?_bind_ofReference ref property rfl,
    fun property => fields?_bind_ofReference ref property rfl,
    related_ofReference ref, fun name => bisect_entries _ ref.typeUrls,
    propertyFile?_ofReference ref, fun name => ?_, fun name => ?_⟩
  · rw [describe, valuesOf_ofReference, Reference.values, Reference.describe]
    cases ref.entry? property <;> rfl
  · rw [hasProperty, propertyFile?_ofReference, Reference.hasProperty]
  · rw [propertyUrl?, propertyFile?_ofReference, Reference.propertyUrl?]
    rfl

end StaticTables

end StyleDocs
