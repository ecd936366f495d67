import StyleDocs.Proofs.Json.Members
import StyleDocs.Proofs.Json.Spelling
import StyleDocs.Proofs.Table

/-!
# What the reader of a reference tolerates

Three kinds of objects in the JSON text of a reference have known members: the reference itself, its
entries and the values of an entry. Members under other names may be put into each of them, and
their members may be in any order; the reader takes the text for the same reference, or refuses it
as before. It does not tolerate that a known member is repeated. An optional text that is null or
left out is absent.
-/

namespace StyleDocs.Json

/-! ### The objects of known members -/

/-- The names of the members of a value with its description. -/
def pairNames : List Text := ["value".toList, "description".toList]

/-- Whether a value with its description is another with unknown members put in, in any order. -/
inductive PairWidened : Value → Value → Prop
  /-- Nothing is changed. -/
  | same (v : Value) : PairWidened v v
  /-- An object is changed. -/
  | object {members members' : List (Str × Value)} (h : Extended pairNames members members') :
    PairWidened (.object members) (.object members')

/-- Whether a list of values is another in which objects are changed. -/
inductive ValuesWidened : Value → Value → Prop
  /-- Nothing is changed. -/
  | same (v : Value) : ValuesWidened v v
  /-- Items are changed. -/
  | items {items items' : List Value} (h : List.Forall₂ PairWidened items items') :
    ValuesWidened (.array items) (.array items')

/-- Whether an entry is another with unknown members put into it and into its values, in any
order. -/
inductive EntryWidened : Value → Value → Prop
  /-- Nothing is changed. -/
  | same (v : Value) : EntryWidened v v
  /-- An object is changed, and its values may be. -/
  | object {members edited members' : List (Str × Value)}
    (hvalues : List.Forall₂ (EditedMember "values".toList ValuesWidened) members edited)
    (h : Extended entryNames edited members') : EntryWidened (.object members) (.object members')
  /-- An entry that is given as a list has its values first. -/
  | list {v v' : Value} {items : List Value} (h : ValuesWidened v v') :
    EntryWidened (.array (v :: items)) (.array (v' :: items))

/-- Whether a table of entries is another in which entries are changed. -/
inductive EntriesWidened : Value → Value → Prop
  /-- Nothing is changed. -/
  | same (v : Value) : EntriesWidened v v
  /-- Entries are changed under their keys. -/
  | object {members members' : List (Str × Value)}
    (h : List.Forall₂ (fun m m' => m'.1 = m.1 ∧ EntryWidened m.2 m'.2) members members') :
    EntriesWidened (.object members) (.object members')

/-- Whether an object is another with unknown members put into it as a reference, into its entries
and into their values, in any order. -/
inductive Widened : Value → Value → Prop
  /-- The object is changed, and its entries may be. -/
  | object {members edited members' : List (Str × Value)}
    (hentries : List.Forall₂ (EditedMember "properties".toList EntriesWidened) members edited)
    (h : Extended referenceNames edited members') : Widened (.object members) (.object members')

/-! ### What is read from them -/

theorem PairWidened.pair?_eq {v v' : Value} (h : PairWidened v v') : pair? v' = pair? v := by
  cases h with
  | same => rfl
  | object h =>
    have hfields := h.fields?_eq
    rw [pairNames] at hfields
    rw [pair?, pair?, hfields]

theorem mapM_eq_of_forall₂ {α β : Type} {f : α → Option β} {items items' : List α}
    (h : List.Forall₂ (fun a a' => f a' = f a) items items') : items'.mapM f = items.mapM f := by
  induction h with
  | nil => rfl
  | cons hv _ ih => rw [List.mapM_cons, List.mapM_cons, hv, ih]

theorem ValuesWidened.list?_eq {v v' : Value} (h : ValuesWidened v v') :
    Value.list? pair? v' = Value.list? pair? v := by
  cases h with
  | same => rfl
  | items h => exact mapM_eq_of_forall₂ (h.imp fun _ _ => PairWidened.pair?_eq)

theorem orElse_congr {α : Type} {absent : α} {read : Value → Option α} {f f' : Option Value}
    (h : f'.map read = f.map read) : orElse absent read f' = orElse absent read f := by
  cases f <;> cases f' <;> simp_all [orElse]

theorem EntryWidened.entry?_eq {v v' : Value} (h : EntryWidened v v') : entry? v' = entry? v := by
  cases h with
  | same => rfl
  | @object members edited members' hvalues h =>
    have hfields := h.fields?_eq
    rcases fields?_edited hvalues fun _ _ => ValuesWidened.list?_eq with
      ⟨hnone, hnone'⟩ | ⟨values, values', hsome, hsome', hsame, hread⟩
    · rw [ entry?, entry?, hfields, hnone, hnone']
    · rw [ entry?, entry?, hfields, hsome, hsome']
      simp only [entryNames, List.map_cons, List.map_nil]
      rw [orElse_congr hread, hsame "syntax".toList (by decide),
        hsame "css_example".toList (by decide), hsame "secondary_example".toList (by decide),
        hsame "see_also".toList (by decide)]
  | @list v v' items h =>
    have hfields : ∀ v, fields? entryNames (.array (v :: items)) =
        if items.length ≤ 4 then
          some (some v :: (items.map some ++ List.replicate (4 - items.length) none))
        else none := by
      intro v
      have hlength : entryNames.length = 5 := rfl
      simp only [fields?, hlength, List.length_cons, Nat.reduceLeDiff, Nat.reduceSubDiff,
        List.map_cons, List.cons_append]
    rw [ entry?, entry?, hfields, hfields]
    by_cases hlength : items.length ≤ 4
    · rw [if_pos hlength, if_pos hlength]
      have hrest : (items.map some ++ List.replicate (4 - items.length) none).length = 4 := by
        rw [List.length_append, List.length_map, List.length_replicate]
        omega
      obtain ⟨grammar, css, second, related, hrest⟩ := List.length_eq_four.1 hrest
      rw [hrest]
      simp only [orElse, h.list?_eq]
    · rw [if_neg hlength, if_neg hlength]

/-- The names of members denote the same texts when they are the same. -/
theorem namedMembers?_cases {R : Value → Value → Prop} {members members' : List (Str × Value)}
    (h : List.Forall₂ (fun m m' => m'.1 = m.1 ∧ R m.2 m'.2) members members') :
    (namedMembers? members = none ∧ namedMembers? members' = none) ∨
      ∃ named named', namedMembers? members = some named ∧ namedMembers? members' = some named' ∧
        List.Forall₂ (fun n n' => n'.1 = n.1 ∧ R n.2 n'.2) named named' := by
  induction h with
  | nil => exact Or.inr ⟨[], [], rfl, rfl, .nil⟩
  | @cons m m' members members' hm _ ih =>
    obtain ⟨hname, hvalue⟩ := hm
    rw [namedMembers?] at ih ⊢
    rw [namedMembers?] at ih ⊢
    rw [List.mapM_cons, List.mapM_cons, hname]
    cases htext : text? m.1 with
    | none => exact Or.inl ⟨rfl, rfl⟩
    | some name =>
      rcases ih with ⟨hnone, hnone'⟩ | ⟨named, named', hsome, hsome', hnamed⟩
      · rw [hnone, hnone']
        exact Or.inl ⟨rfl, rfl⟩
      · rw [hsome, hsome']
        exact Or.inr ⟨(name, m.2) :: named, (name, m'.2) :: named', rfl, rfl,
          .cons ⟨rfl, hvalue⟩ hnamed⟩

theorem EntriesWidened.table?_eq {v v' : Value} (h : EntriesWidened v v') :
    table? entry? v' = table? entry? v := by
  cases h with
  | same => rfl
  | @object members members' h =>
    rw [table?, table?]
    rcases namedMembers?_cases h with ⟨hnone, hnone'⟩ | ⟨named, named', hsome, hsome', hnamed⟩
    · rw [hnone, hnone']
    · rw [hsome, hsome', Option.bind_some, Option.bind_some]
      congr 1
      refine mapM_eq_of_forall₂ (hnamed.imp fun n n' hn => ?_)
      rw [hn.1, hn.2.entry?_eq]

theorem required_congr {α : Type} {read : Value → Option α} {f f' : Option Value}
    (h : f'.map read = f.map read) : required read f' = required read f := by
  cases f <;> cases f' <;> simp_all [required]

/-- The reader takes an object that is widened for the same reference, or refuses it as before. -/
theorem Widened.reference?_eq {v v' : Value} (h : Widened v v') :
    reference? v' = reference? v := by
  obtain @⟨members, edited, members', hentries, h⟩ := h
  have hfields := h.fields?_eq
  rcases fields?_edited hentries fun _ _ => EntriesWidened.table?_eq with
    ⟨hnone, hnone'⟩ | ⟨values, values', hsome, hsome', hsame, hread⟩
  · rw [reference?, reference?, hfields, hnone, hnone']
  · rw [reference?, reference?, hfields, hsome, hsome']
    simp only [referenceNames, List.map_cons, List.map_nil]
    rw [required_congr hread, hsame "base_url".toList (by decide),
      hsame "type_urls".toList (by decide), hsame "property_files".toList (by decide)]

/-! ### What is refused -/

/-- Whether a value is an object with two members under one known name. -/
def Repeats (names : List Text) (v : Value) : Prop :=
  ∃ members, v = .object members ∧ ∃ name ∈ names, 2 ≤ (valuesNamed name members).length

/-- Whether an object has a value as an entry, under a key of its table of entries. -/
def HasEntry (v : Value) (key : Text) (e : Value) : Prop :=
  ∃ members entries, v = .object members ∧
    .object entries ∈ valuesNamed "properties".toList members ∧ e ∈ valuesNamed key entries

/-- Whether an entry has a value as one of its values with their descriptions. -/
def HasPair (e p : Value) : Prop :=
  (∃ members items, e = .object members ∧ .array items ∈ valuesNamed "values".toList members ∧
    p ∈ items) ∨
  ∃ items rest, e = .array (.array items :: rest) ∧ p ∈ items

/-- Whether one of the objects with known members in a value has a known member twice. -/
def HasRepeat (v : Value) : Prop :=
  Repeats referenceNames v ∨ ∃ key e, HasEntry v key e ∧
    (Repeats entryNames e ∨ ∃ p, HasPair e p ∧ Repeats pairNames p)

theorem fields?_of_repeats {names : List Text} {v : Value} (h : Repeats names v) :
    fields? names v = none := by
  obtain ⟨members, rfl, name, hname, htwice⟩ := h
  refine Option.eq_none_iff_forall_ne_some.2 fun fields hfields => ?_
  have hone := (fields?_object_eq_some_iff.1 hfields).1.2 name hname
  omega

theorem pair?_of_repeats {p : Value} (h : Repeats pairNames p) : pair? p = none := by
  have hfields := fields?_of_repeats h
  rw [pairNames] at hfields
  rw [pair?, hfields]

/-- What is read from a list of items is read from each of them. -/
theorem exists_read_of_mem {α β : Type} {f : α → Option β} {items : List α} {results : List β}
    (h : items.mapM f = some results) {a : α} (ha : a ∈ items) : ∃ b, f a = some b := by
  have hall := mapM_eq_some_iff.1 h
  clear h
  induction hall with
  | nil => cases ha
  | @cons _ b _ _ hfirst _ ih =>
    rcases List.mem_cons.1 ha with rfl | ha
    · exact ⟨b, hfirst⟩
    · exact ih ha

theorem exists_item_of_mem {α β : Type} {f : α → Option β} {items : List α} {results : List β}
    (h : items.mapM f = some results) {b : β} (hb : b ∈ results) : ∃ a ∈ items, f a = some b := by
  have hall := mapM_eq_some_iff.1 h
  clear h
  induction hall with
  | nil => cases hb
  | @cons a _ _ _ hfirst _ ih =>
    rcases List.mem_cons.1 hb with rfl | hb
    · exact ⟨a, List.mem_cons_self, hfirst⟩
    · obtain ⟨a, ha, hread⟩ := ih hb
      exact ⟨a, List.mem_cons_of_mem _ ha, hread⟩

/-- What is read from a table: every value is read, and what the table has under a key is read from
a value under the key. -/
theorem table?_eq_some {α : Type} {read : Value → Option α} {members : List (Str × Value)}
    {table : Table α} (h : table? read (.object members) = some table) (key : Text) :
    (∀ v ∈ valuesNamed key members, ∃ a, read v = some a) ∧
      ∀ a, table.get? key = some a → ∃ v ∈ valuesNamed key members, read v = some a := by
  rw [table?, Option.map_eq_some_iff] at h
  obtain ⟨results, hresults, rfl⟩ := h
  obtain ⟨named, hnamed, hresults⟩ := Option.bind_eq_some_iff.1 hresults
  have hvalues := valuesNamed_eq_of_forall₂ (namedMembers?_eq_some_iff.1 hnamed) key
  rw [hvalues]
  constructor
  · intro v hv
    obtain ⟨n, hn, rfl⟩ := List.mem_map.1 hv
    obtain ⟨b, hb⟩ := exists_read_of_mem hresults (List.mem_filter.1 hn).1
    obtain ⟨a, ha, -⟩ := Option.map_eq_some_iff.1 hb
    exact ⟨a, ha⟩
  · intro a ha
    rw [Table.get?_ofList, Table.seek_eq_find?, Option.map_eq_some_iff] at ha
    obtain ⟨found, hfind, rfl⟩ := ha
    have hkey : found.1 = key := by simpa using List.find?_some hfind
    obtain ⟨n, hn, hread⟩ :=
      exists_item_of_mem hresults (List.mem_reverse.1 (List.mem_of_find?_eq_some hfind))
    obtain ⟨b, hb, rfl⟩ := Option.map_eq_some_iff.1 hread
    exact ⟨n.2, List.mem_map_of_mem (List.mem_filter.2 ⟨hn, by simpa using hkey⟩), hb⟩

/-- The only value under a known name is what is read under it. -/
theorem head?_of_mem {names : List Text} {members : List (Str × Value)}
    (h : Readable names members) {name : Text} (hname : name ∈ names) {v : Value}
    (hv : v ∈ valuesNamed name members) : (valuesNamed name members).head? = some v := by
  have hone := h.2 name hname
  cases hvalues : valuesNamed name members with
  | nil =>
    rw [hvalues] at hv
    cases hv
  | cons w rest =>
    rw [hvalues] at hv hone
    obtain rfl : rest = [] := by simpa using hone
    rw [List.mem_singleton.1 hv, List.head?_cons]

/-- What is read of an entry is read from its fields. -/
theorem entry?_eq_some {v : Value} {entry : Entry} (h : entry? v = some entry) :
    ∃ values grammar css second related,
      fields? entryNames v = some [values, grammar, css, second, related] ∧
      orElse [] (Value.list? pair?) values = some entry.values ∧
      orElse none Value.optionalText? grammar = some entry.grammar ∧
      orElse none Value.optionalText? css = some entry.cssExample ∧
      orElse none Value.optionalText? second = some entry.secondExample := by
  unfold entry? at h
  split at h
  · next values grammar css second related hfields =>
    obtain ⟨valuesRead, hvalues, h⟩ := Option.bind_eq_some_iff.1 h
    obtain ⟨grammarRead, hgrammar, h⟩ := Option.bind_eq_some_iff.1 h
    obtain ⟨cssRead, hcss, h⟩ := Option.bind_eq_some_iff.1 h
    obtain ⟨secondRead, hsecond, h⟩ := Option.bind_eq_some_iff.1 h
    obtain ⟨relatedRead, hrelated, h⟩ := Option.bind_eq_some_iff.1 h
    cases h
    exact ⟨values, grammar, css, second, related, hfields, hvalues, hgrammar, hcss, hsecond⟩
  · cases h

/-- The values of an entry that is read are read. -/
theorem exists_pair?_of_hasPair {e p : Value} {entry : Entry} (h : entry? e = some entry)
    (hpair : HasPair e p) : ∃ pair, pair? p = some pair := by
  obtain ⟨values, grammar, css, second, related, hfields, hvalues, -⟩ := entry?_eq_some h
  rcases hpair with ⟨members, items, rfl, hitems, hp⟩ | ⟨items, rest, rfl, hp⟩
  · obtain ⟨hreadable, hlist⟩ := fields?_object_eq_some_iff.1 hfields
    have hhead := head?_of_mem hreadable (by decide) hitems
    simp only [entryNames, List.map_cons, hhead, List.cons.injEq] at hlist
    rw [hlist.1, orElse, Value.list?] at hvalues
    exact exists_read_of_mem hvalues hp
  · rw [fields?] at hfields
    split at hfields
    · simp only [List.map_cons, List.cons_append, Option.some.injEq, List.cons.injEq] at hfields
      rw [← hfields.1, orElse, Value.list?] at hvalues
      exact exists_read_of_mem hvalues hp
    · cases hfields

theorem entry?_of_repeats {e : Value}
    (h : Repeats entryNames e ∨ ∃ p, HasPair e p ∧ Repeats pairNames p) : entry? e = none := by
  rcases h with h | ⟨p, hp, h⟩
  · rw [ entry?, fields?_of_repeats h]
  · refine Option.eq_none_iff_forall_ne_some.2 fun entry hentry => ?_
    obtain ⟨pair, hpair⟩ := exists_pair?_of_hasPair hentry hp
    rw [pair?_of_repeats h] at hpair
    cases hpair

/-- What is read of the entries is read from the table under the name of the entries. -/
theorem reference?_eq_some {v : Value} {ref : Reference} (h : reference? v = some ref) :
    ∃ baseUrl types files properties,
      fields? referenceNames v = some [baseUrl, types, files, properties] ∧
      required (table? entry?) properties = some ref.properties := by
  unfold reference? at h
  split at h
  · next baseUrl types files properties hfields =>
    obtain ⟨baseUrlRead, -, h⟩ := Option.bind_eq_some_iff.1 h
    obtain ⟨typesRead, -, h⟩ := Option.bind_eq_some_iff.1 h
    obtain ⟨filesRead, -, h⟩ := Option.bind_eq_some_iff.1 h
    obtain ⟨propertiesRead, hproperties, h⟩ := Option.bind_eq_some_iff.1 h
    cases h
    exact ⟨baseUrl, types, files, properties, hfields, hproperties⟩
  · cases h

/-- The entries of an object that is read are read. -/
theorem exists_entry?_of_hasEntry {v : Value} {ref : Reference} (h : reference? v = some ref)
    {key : Text} {e : Value} (hentry : HasEntry v key e) : ∃ entry, entry? e = some entry := by
  obtain ⟨baseUrl, types, files, properties, hfields, hproperties⟩ := reference?_eq_some h
  obtain ⟨members, entries, rfl, hentries, he⟩ := hentry
  obtain ⟨hreadable, hlist⟩ := fields?_object_eq_some_iff.1 hfields
  have hhead := head?_of_mem hreadable (by decide) hentries
  simp only [referenceNames, List.map_cons, List.map_nil, hhead, List.cons.injEq] at hlist
  rw [hlist.2.2.2.1, required, Option.bind_some] at hproperties
  exact (table?_eq_some hproperties key).1 e he

/-- No object with a repeated member is read. -/
theorem reference?_of_hasRepeat {v : Value} (h : HasRepeat v) : reference? v = none := by
  rcases h with h | ⟨key, e, he, h⟩
  · rw [reference?, fields?_of_repeats h]
  · refine Option.eq_none_iff_forall_ne_some.2 fun ref href => ?_
    obtain ⟨entry, hentry⟩ := exists_entry?_of_hasEntry href he
    rw [entry?_of_repeats h] at hentry
    cases hentry

/-! ### What is absent -/

/-- The optional texts of an entry, by the names of their members. -/
def optionalTexts : List (Text × (Entry → Option Text)) :=
  [("syntax".toList, (·.grammar)), ("css_example".toList, (·.cssExample)),
    ("secondary_example".toList, (·.secondExample))]

theorem eq_none_of_null {members : List (Str × Value)} {name : Text} {read : Option Text}
    (h : orElse none Value.optionalText? (valuesNamed name members).head? = some read)
    (hnull : ∀ v ∈ valuesNamed name members, v = .null) : read = none := by
  cases hhead : (valuesNamed name members).head? with
  | none =>
    rw [hhead] at h
    exact (Option.some.inj h).symm
  | some v =>
    rw [hhead, hnull v (List.mem_of_head? hhead)] at h
    exact (Option.some.inj h).symm

/-- An optional text of an entry is absent when its member is left out or null. -/
theorem absent_of_null {members : List (Str × Value)} {entry : Entry}
    (h : entry? (.object members) = some entry) {field : Text × (Entry → Option Text)}
    (hfield : field ∈ optionalTexts) (hnull : ∀ v ∈ valuesNamed field.1 members, v = .null) :
    field.2 entry = none := by
  obtain ⟨values, grammar, css, second, related, hfields, -, hgrammar, hcss, hsecond⟩ :=
    entry?_eq_some h
  obtain ⟨-, hlist⟩ := fields?_object_eq_some_iff.1 hfields
  simp only [entryNames, List.map_cons, List.map_nil, List.cons.injEq, and_true] at hlist
  obtain ⟨-, rfl, rfl, rfl, -⟩ := hlist
  simp only [optionalTexts, List.mem_cons, List.not_mem_nil, or_false] at hfield
  rcases hfield with rfl | rfl | rfl
  · exact eq_none_of_null hgrammar hnull
  · exact eq_none_of_null hcss hnull
  · exact eq_none_of_null hsecond hnull

/-- What the entries of a reference say is read from the entries of the object. -/
theorem exists_hasEntry_of_get? {members : List (Str × Value)} {ref : Reference}
    (h : reference? (.object members) = some ref) {key : Text} {entry : Entry}
    (hget : ref.properties.get? key = some entry) :
    ∃ e, HasEntry (.object members) key e ∧ entry? e = some entry := by
  obtain ⟨baseUrl, types, files, properties, hfields, hproperties⟩ := reference?_eq_some h
  obtain ⟨-, hlist⟩ := fields?_object_eq_some_iff.1 hfields
  simp only [referenceNames, List.map_cons, List.map_nil, List.cons.injEq, and_true] at hlist
  obtain ⟨-, -, -, rfl⟩ := hlist
  obtain ⟨table, htable, hread⟩ := Option.bind_eq_some_iff.1 hproperties
  cases table with
  | object entries =>
    obtain ⟨e, he, hentry⟩ := (table?_eq_some hread key).2 entry hget
    exact ⟨e, ⟨members, entries, rfl, List.mem_of_head? htable, he⟩, hentry⟩
  | null | bool | number | string | array => cases hread

end StyleDocs.Json

namespace StyleDocs.Reference

open Json

/-- The reader is tolerant in one direction. Members that it does not know may be put into the
objects of known members, whose members may be in any order, and the text may have any white space;
it is taken for the same reference, or refused as before. A known member that is repeated is refused
wherever it stands, and what is read of an optional text that is null or left out is that it is
absent. -/
theorem ofJson?_widened {v v' : Value} {t t' : Text} (h : Widened v v') (ht : Written v t)
    (ht' : Written v' t') :
    ofJson? t' = ofJson? t ∧ (HasRepeat v → ofJson? t = none) ∧
      ∀ ref, ofJson? t = some ref → ∀ key entry, ref.properties.get? key = some entry →
        ∃ e, HasEntry v key e ∧ Json.entry? e = some entry ∧
          ∀ members, e = .object members → ∀ field ∈ optionalTexts,
            (∀ w ∈ valuesNamed field.1 members, w = .null) → field.2 entry = none := by
  have hread : ofJson? t = reference? v := by
    rw [ofJson?, ht.parse, Option.bind_some]
  have hread' : ofJson? t' = reference? v' := by
    rw [ofJson?, ht'.parse, Option.bind_some]
  rw [hread, hread']
  refine ⟨h.reference?_eq, reference?_of_hasRepeat, fun ref href key entry hget => ?_⟩
  cases h with
  | object =>
    obtain ⟨e, he, hentry⟩ := exists_hasEntry_of_get? href hget
    refine ⟨e, he, hentry, ?_⟩
    rintro members rfl field hfield hnull
    exact absent_of_null hentry hfield hnull

/-- The members of a reference but for its entries. -/
def tintTables : List (Str × Value) :=
  [(ofText "base_url".toList, .ofText ['u']), (ofText "type_urls".toList, .object []),
    (ofText "property_files".toList, .object [])]

/-- The member of the entries, for a reference with one entry that has some members. -/
def tintEntries (members : List (Str × Value)) : Str × Value :=
  (ofText "properties".toList, .object [(ofText "tint".toList, .object members)])

/-- The members of a reference whose entry has no grammar. -/
def tintMembers : List (Str × Value) :=
  tintTables ++ [tintEntries [(ofText "syntax".toList, .null)]]

/-- The members in another order, with an unknown member in the entry. -/
def widerTintMembers : List (Str × Value) :=
  tintEntries [(ofText "since".toList, .array [.number ['1']]), (ofText "syntax".toList, .null)] ::
    tintTables

/-- The members as they may be written. -/
def tintMembersText : Text :=
  ("\"base_url\":\"u\",\"type_urls\":\x7b\x7d,\"property_files\":\x7b\x7d," ++
    "\"properties\":\x7b\"tint\":\x7b\"syntax\":null\x7d\x7d").toList

/-- The other members as they may be written. -/
def widerTintMembersText : Text :=
  ("\"properties\":\x7b\"tint\":\x7b\"since\":[1],\"syntax\":null\x7d\x7d," ++
    "\"base_url\":\"u\",\"type_urls\":\x7b\x7d,\"property_files\":\x7b\x7d").toList

theorem spells_tintMembers : Spells (.members tintMembers) tintMembersText :=
  .compact (by decide) (.string (Plain.spells (t := ['u']) (by decide)))
    (.compact (by decide) (.noMembers (a := []) (by decide))
      (.compact (by decide) (.noMembers (a := []) (by decide))
        (.lastCompact (by decide) (.object (.lastCompact (by decide)
          (.object (.lastCompact (by decide) .null)))))))

theorem spells_widerTintMembers : Spells (.members widerTintMembers) widerTintMembersText := by
  have hone : Spells (.items [.number ['1']]) ['1'] :=
    .lastItem (a := []) (b := []) (by decide) (.number ⟨[], ['1'], [], [], by decide,
      Or.inr ⟨⟨by decide, by simp⟩, by decide⟩, Or.inl rfl, Or.inl rfl, rfl⟩) (by decide)
  exact .compact (by decide) (.object (.lastCompact (by decide) (.object
      (.compact (by decide) (.array hone) (.lastCompact (by decide) .null)))))
    (.compact (by decide) (.string (Plain.spells (t := ['u']) (by decide)))
      (.compact (by decide) (.noMembers (a := []) (by decide))
        (.lastCompact (by decide) (.noMembers (a := []) (by decide)))))

theorem written_tintMembers :
    Written (.object tintMembers) ('\x7b' :: (tintMembersText ++ ['\x7d'])) :=
  ⟨[], _, [], by decide, .object spells_tintMembers, by decide, by simp⟩

/-- The wider text is taken for the same reference, in which the entry has no grammar. -/
theorem ofJson?_widened_tint :
    let t := '\x7b' :: (tintMembersText ++ ['\x7d'])
    let t' := '\x7b' :: (widerTintMembersText ++ ['\x7d', '\n'])
    ofJson? t' = ofJson? t ∧
      ofJson? t = some { baseUrl := ['u'], properties := .ofList [("tint".toList, {})] } := by
  intro t t'
  have hentry : EntryWidened (.object [(ofText "syntax".toList, .null)])
      (.object [(ofText "since".toList, .array [.number ['1']]),
        (ofText "syntax".toList, .null)]) :=
    .object (.cons ⟨rfl, Or.inl rfl⟩ .nil)
      ⟨[(ofText "since".toList, .array [.number ['1']])],
        List.forall_mem_singleton.2 ⟨"since".toList, by decide, by decide⟩, .refl _⟩
  have hedited : List.Forall₂ (EditedMember "properties".toList EntriesWidened) tintMembers
      (tintTables ++ [tintEntries [(ofText "since".toList, .array [.number ['1']]),
        (ofText "syntax".toList, .null)]]) :=
    .cons ⟨rfl, Or.inl rfl⟩ (.cons ⟨rfl, Or.inl rfl⟩ (.cons ⟨rfl, Or.inl rfl⟩
      (.cons ⟨rfl, Or.inr ⟨by decide, .object (.cons ⟨rfl, hentry⟩ .nil)⟩⟩ .nil)))
  have hwidened : Widened (.object tintMembers) (.object widerTintMembers) := .object hedited
    ⟨[], fun _ h => absurd h List.not_mem_nil, (List.perm_append_singleton _ tintTables).symm⟩
  have hwritten : Written (.object widerTintMembers) t' :=
    ⟨[], _, ['\n'], by decide, .object spells_widerTintMembers, by decide, rfl⟩
  exact ⟨(ofJson?_widened hwidened written_tintMembers hwritten).1, by decide +kernel⟩

/-- A member is not passed over when its name denotes no text, although it has none of the known
names: with a member put in whose name is half of a surrogate pair, a text that is taken for a
reference is refused. -/
theorem surrogate_name_refused :
    let t := '\x7b' :: (tintMembersText ++ ['\x7d'])
    let t' := '\x7b' :: ("\"\\ud800\":0,".toList ++ tintMembersText ++ ['\x7d'])
    Written (.object tintMembers) t ∧
      Written (.object (([.code 0xD800], .number ['0']) :: tintMembers)) t' ∧
      (∀ name ∈ referenceNames, text? [.code 0xD800] ≠ some name) ∧
      (ofJson? t).isSome ∧ ofJson? t' = none := by
  intro t t'
  have hname : SpellsString [.code 0xD800] "\"\\ud800\"".toList :=
    ⟨"\\ud800".toList, .cons (.code (a := 'd') (b := '8') (c := '0') (d := '0') (i := 13) (j := 8)
      (k := 0) (l := 0) rfl rfl rfl rfl) .nil, rfl⟩
  have hzero : Spells (.value (.number ['0'])) ['0'] :=
    .number ⟨[], ['0'], [], [], by decide, Or.inl rfl, Or.inl rfl, Or.inl rfl, rfl⟩
  have hmembers : Spells (.members (([.code 0xD800], .number ['0']) :: tintMembers))
      ("\"\\ud800\":0,".toList ++ tintMembersText) :=
    .member (a := []) (b := []) (c := []) (d := []) (by decide) hname (by decide) (by decide) hzero
      (by decide) spells_tintMembers
  exact ⟨written_tintMembers, ⟨[], _, [], by decide, .object hmembers, by decide, rfl⟩, by decide,
    by decide +kernel, by decide +kernel⟩

end StyleDocs.Reference
