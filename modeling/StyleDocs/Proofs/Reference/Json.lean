import StyleDocs.Proofs.Json.RoundTrip
import StyleDocs.Proofs.Table
import StyleDocs.Reference.Json

/-!
# The reference and its JSON text

Whatever a reference holds, the JSON text that is written for it is read as the very same reference.
Each part is written as a value made of texts, so the text is read as this value up to the spelling
of its strings, and each part is read from its respelled value: a table entry by entry, an entry
with the members that were left out restored to what their absence stands for.
-/

namespace StyleDocs.Json

/-! ### What is written -/

theorem textual_optional (name : String) (t : Option Text) :
    ∀ m ∈ optional name t, Textual m.2 := by
  intro m hm
  cases t with
  | none => exact absurd hm List.not_mem_nil
  | some t =>
    rw [List.mem_singleton.1 hm]
    exact .text t

theorem textual_unlessEmpty (name : String) {items : List Value} (h : ∀ v ∈ items, Textual v) :
    ∀ m ∈ unlessEmpty name items, Textual m.2 := by
  intro m hm
  unfold unlessEmpty at hm
  split at hm
  · exact absurd hm List.not_mem_nil
  · rw [List.mem_singleton.1 hm]
    exact .array h

theorem textual_ofPair (pair : Text × Text) : Textual (ofPair pair) := by
  refine .object fun m hm => ?_
  rcases List.mem_cons.1 hm with rfl | hm
  · exact .text pair.1
  · rw [List.mem_singleton.1 hm]
    exact .text pair.2

theorem textual_ofEntry (entry : Entry) : Textual (ofEntry entry) := by
  have hvalues : ∀ v ∈ entry.values.map ofPair, Textual v := by
    intro v hv
    obtain ⟨pair, -, rfl⟩ := List.mem_map.1 hv
    exact textual_ofPair pair
  have hrelated : ∀ v ∈ entry.seeAlso.map Value.ofText, Textual v := by
    intro v hv
    obtain ⟨t, -, rfl⟩ := List.mem_map.1 hv
    exact .text t
  refine .object fun m hm => ?_
  simp only [List.mem_append] at hm
  rcases hm with (((hm | hm) | hm) | hm) | hm
  · exact textual_unlessEmpty _ hvalues m hm
  · exact textual_optional _ _ m hm
  · exact textual_optional _ _ m hm
  · exact textual_optional _ _ m hm
  · exact textual_unlessEmpty _ hrelated m hm

/-- A table is written as an object with a member for each entry. -/
theorem textual_ofMembers_map {α : Type} (write : α → Value) (h : ∀ a, Textual (write a))
    (entries : List (Text × α)) :
    Textual (.ofMembers (entries.map fun e => (e.1, write e.2))) := by
  refine .object fun m hm => ?_
  obtain ⟨e, -, rfl⟩ := List.mem_map.1 hm
  exact h e.2

/-- A reference is written as a value made of texts. -/
theorem textual_ofReference (ref : Reference) : Textual (ofReference ref) := by
  refine .object fun m hm => ?_
  simp only [List.mem_cons, List.not_mem_nil, or_false] at hm
  rcases hm with rfl | rfl | rfl | rfl
  · exact .text ref.baseUrl
  · exact textual_ofMembers_map Value.ofText .text ref.typeUrls.entries
  · exact textual_ofMembers_map Value.ofText .text ref.propertyFiles.entries
  · exact textual_ofMembers_map ofEntry textual_ofEntry ref.properties.entries

/-! ### Lists and tables -/

/-- Items that are each read as what they were written for are read together. -/
theorem mapM_map_eq_some {α β : Type} {write : α → β} {read : β → Option α}
    (h : ∀ a, read (write a) = some a) (items : List α) :
    (items.map write).mapM read = some items := by
  induction items with
  | nil => rfl
  | cons a items ih =>
    rw [List.map_cons, List.mapM_cons, h, ih]
    rfl

theorem text?_reread_ofText (t : Text) : (Value.ofText t).reread.text? = some t := by
  rw [reread_ofText, Value.text?, text?_respell]

theorem list?_reread {α : Type} {write : α → Value} {read : Value → Option α}
    (h : ∀ a, read (write a).reread = some a) (items : List α) :
    Value.list? read (Value.array (items.map write)).reread = some items := by
  rw [reread_array, List.map_map, Value.list?]
  exact mapM_map_eq_some h items

/-- Respelled names denote the names. -/
theorem namedMembers?_respell {α : Type} (name : α → Text) (value : α → Value) (items : List α) :
    namedMembers? (items.map fun a => (respell (name a), value a)) =
      some (items.map fun a => (name a, value a)) := by
  have hnames : ((items.map fun a => (name a, value a)).map fun m => (respell m.1, m.2)).mapM
      (fun m => (text? m.1).map fun name => (name, m.2)) = some (items.map fun a =>
        (name a, value a)) :=
    mapM_map_eq_some (fun m => by rw [text?_respell, Option.map_some]) _
  rwa [List.map_map] at hnames

/-- A table whose values are each read as what they were written for is read as the table. -/
theorem table?_reread {α : Type} {write : α → Value} {read : Value → Option α}
    (h : ∀ a, read (write a).reread = some a) (t : Table α) :
    table? read (Value.ofMembers (t.entries.map fun e => (e.1, write e.2))).reread = some t := by
  have hnamed := namedMembers?_respell Prod.fst (fun e => (write e.2).reread) t.entries
  have hentries : (t.entries.map fun e => (e.1, (write e.2).reread)).mapM
      (fun m => (read m.2).map fun a => (m.1, a)) = some t.entries :=
    mapM_map_eq_some (fun e => by rw [h, Option.map_some]) t.entries
  rw [reread_ofMembers, List.map_map, table?]
  simp only [Function.comp_def]
  rw [hnamed, Option.bind_some, hentries, Option.map_some, Table.ofList_entries]

/-! ### Objects of known members -/

/-- The members of an object that has a value for some of its fields. -/
def present (fields : List (Text × Option Value)) : List (Text × Value) :=
  fields.filterMap fun f => f.2.map (f.1, ·)

theorem present_append (a b : List (Text × Option Value)) :
    present (a ++ b) = present a ++ present b := List.filterMap_append

theorem present_cons (f : Text × Option Value) (fields : List (Text × Option Value)) :
    present (f :: fields) = (f.2.map (f.1, ·)).toList ++ present fields := by
  obtain ⟨name, value⟩ := f
  cases value <;> rfl

theorem sublist_present (fields : List (Text × Option Value)) :
    ((present fields).map Prod.fst).Sublist (fields.map Prod.fst) := by
  induction fields with
  | nil => exact List.Sublist.refl _
  | cons f fields ih =>
    obtain ⟨name, value⟩ := f
    cases value with
    | none => exact ih.cons name
    | some v => exact ih.cons_cons name

/-- A field is found under its name with the value it has. -/
theorem find?_present {fields : List (Text × Option Value)} (h : (fields.map Prod.fst).Nodup)
    {f : Text × Option Value} (hf : f ∈ fields) :
    (present fields).find? (fun m => m.1 == f.1) = f.2.map (f.1, ·) := by
  induction fields with
  | nil => exact absurd hf List.not_mem_nil
  | cons g fields ih =>
    obtain ⟨hhead, hrest⟩ := List.nodup_cons.1 h
    rw [present_cons, List.find?_append]
    rcases List.mem_cons.1 hf with rfl | hf
    · -- No other field has this name.
      have hnone : (present fields).find? (fun m => m.1 == f.1) = none := by
        refine List.find?_eq_none.2 fun m hm heq => hhead ?_
        rw [← eq_of_beq heq]
        exact (sublist_present fields).subset (List.mem_map_of_mem hm)
      rw [hnone, Option.or_none]
      cases f.2 <;> simp
    · have hne : g.1 ≠ f.1 := fun heq => hhead (heq ▸ List.mem_map_of_mem hf)
      rw [ih hrest hf]
      cases g.2 <;> simp [hne]

/-- The fields of a printed object are read under their names, those without a value as missing. -/
theorem fields?_reread (fields : List (Text × Option Value)) (h : (fields.map Prod.fst).Nodup) :
    fields? (fields.map Prod.fst) (Value.ofMembers (present fields)).reread =
      some (fields.map fun f => f.2.map Value.reread) := by
  have hnamed := namedMembers?_respell Prod.fst (fun m => m.2.reread) (present fields)
  have hknown : (((present fields).map fun m => (m.1, m.2.reread)).filter fun m =>
      (fields.map Prod.fst).contains m.1) = (present fields).map fun m => (m.1, m.2.reread) := by
    refine List.filter_eq_self.2 fun e he => ?_
    obtain ⟨m, hm, rfl⟩ := List.mem_map.1 he
    have hmem : m.1 ∈ (present fields).map Prod.fst := List.mem_map_of_mem hm
    exact List.contains_iff_mem.2 ((sublist_present fields).subset hmem)
  have hdistinct : (((present fields).map fun m => (m.1, m.2.reread)).map Prod.fst).Nodup := by
    rw [List.map_map]
    exact (sublist_present fields).nodup h
  rw [reread_ofMembers, Json.fields?, knownMembers?, hnamed]
  dsimp only
  rw [hknown, if_pos hdistinct, Option.map_some, List.map_map]
  congr 1
  refine List.map_congr_left fun f hf => ?_
  rw [Function.comp_apply, List.find?_map]
  change ((((present fields).find? fun m => m.1 == f.1).map fun m => (m.1, m.2.reread)).map
    Prod.snd) = _
  rw [find?_present h hf, Option.map_map, Option.map_map]
  rfl

theorem optional_eq_present (name : String) (t : Option Text) :
    optional name t = present [(name.toList, t.map .ofText)] := by
  cases t <;> rfl

theorem unlessEmpty_eq_present (name : String) (items : List Value) :
    unlessEmpty name items =
      present [(name.toList, if items.isEmpty then none else some (.array items))] := by
  unfold unlessEmpty
  split <;> rfl

/-- A text that was left out because it is absent is read as absent. -/
theorem orElse_text (t : Option Text) :
    orElse none Value.optionalText? ((t.map Value.ofText).map Value.reread) = some t := by
  cases t with
  | none => rfl
  | some t =>
    change ((Value.ofText t).reread.text?).map some = _
    rw [text?_reread_ofText, Option.map_some]

/-- A list that was left out because it is empty is read as empty. -/
theorem orElse_list {α : Type} {write : α → Value} {read : Value → Option α}
    (h : ∀ a, read (write a).reread = some a) (items : List α) :
    orElse [] (Value.list? read)
      ((if (items.map write).isEmpty then none else some (.array (items.map write))).map
        Value.reread) = some items := by
  cases items with
  | nil => rfl
  | cons a items => exact list?_reread h (a :: items)

/-! ### The parts of a reference -/

theorem pair?_reread (pair : Text × Text) : pair? (ofPair pair).reread = some pair := by
  have hnames : ["value".toList, "description".toList].Nodup := by decide
  have hfields := fields?_reread [("value".toList, some (.ofText pair.1)),
    ("description".toList, some (.ofText pair.2))] hnames
  change fields? ["value".toList, "description".toList] (ofPair pair).reread = _ at hfields
  rw [pair?, hfields]
  change (Value.ofText pair.1).reread.text?.bind (fun value =>
    (Value.ofText pair.2).reread.text?.map fun description => (value, description)) = _
  rw [text?_reread_ofText, text?_reread_ofText]
  rfl

/-- The members of an entry and the values they have. -/
def entryFields (entry : Entry) : List (Text × Option Value) :=
  [("values".toList, if (entry.values.map ofPair).isEmpty then none
      else some (.array (entry.values.map ofPair))),
    ("syntax".toList, entry.grammar.map .ofText),
    ("css_example".toList, entry.cssExample.map .ofText),
    ("secondary_example".toList, entry.secondExample.map .ofText),
    ("see_also".toList, if (entry.seeAlso.map Value.ofText).isEmpty then none
      else some (.array (entry.seeAlso.map .ofText)))]

theorem ofEntry_eq_present (entry : Entry) :
    ofEntry entry = .ofMembers (present (entryFields entry)) := by
  rw [ofEntry]
  simp only [optional_eq_present, unlessEmpty_eq_present, ← present_append]
  rfl

/-- What was left out of an entry is restored. -/
theorem entry?_reread (entry : Entry) : entry? (ofEntry entry).reread = some entry := by
  have hnames : entryNames.Nodup := by decide
  have hfields : fields? entryNames (Value.ofMembers (present (entryFields entry))).reread = _ :=
    fields?_reread (entryFields entry) hnames
  rw [ofEntry_eq_present, entry?, hfields]
  simp only [entryFields, List.map_cons, List.map_nil]
  rw [orElse_list pair?_reread, orElse_text, orElse_text, orElse_text,
    orElse_list text?_reread_ofText]
  rfl

/-- Every part of a reference is restored. -/
theorem reference?_reread (ref : Reference) :
    reference? (ofReference ref).reread = some ref := by
  have hnames : referenceNames.Nodup := by decide
  have hfields := fields?_reread
    [("base_url".toList, some (.ofText ref.baseUrl)),
      ("type_urls".toList, some (ofTexts ref.typeUrls)),
      ("property_files".toList, some (ofTexts ref.propertyFiles)),
      ("properties".toList, some (.ofMembers (ref.properties.entries.map fun e =>
        (e.1, ofEntry e.2))))] hnames
  change fields? referenceNames (ofReference ref).reread = _ at hfields
  rw [reference?, hfields]
  simp only [List.map_cons, List.map_nil, Option.map_some, required, Option.bind_some]
  rw [text?_reread_ofText, ofTexts, ofTexts, table?_reread text?_reread_ofText,
    table?_reread text?_reread_ofText, table?_reread entry?_reread]
  rfl

end StyleDocs.Json

namespace StyleDocs.Reference

/-- The text that is written for a reference is read as the value it was written from, up to the
spelling of its strings. -/
theorem parse_toJson (ref : Reference) :
    Json.parse ref.toJson = some (Json.ofReference ref).reread :=
  Json.parse_print (Json.textual_ofReference ref) 0 (List.forall_mem_singleton.2 rfl)

/-- Reading the JSON text of a reference gives the reference: every key and every text whatever its
characters, the order and the repeats of its lists, and an absent text as absent while an empty one
stays. -/
theorem ofJson?_toJson (ref : Reference) : ofJson? ref.toJson = some ref := by
  rw [ofJson?, parse_toJson, Option.bind_some, Json.reference?_reread]

end StyleDocs.Reference
