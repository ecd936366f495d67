import StyleDocs.StaticTables.Reader

/-!
# Reading back the tokens of static tables

For each part of the tables the tokens that stand for it are named, and the reading of that part
takes them back to it, whatever tokens follow. The readings of larger parts are made of those of
smaller ones, and so are these laws.
-/

namespace StyleDocs.StaticTables

open Reading

variable {α : Type} {read : Reading α} {write : α → List Token}

/-! ### What stands for the parts of a table -/

/-- The tokens of a text. -/
def textTokens (t : Text) : List Token := [.text t]

/-- The tokens of an entry. -/
def entryTokens (write : α → List Token) (e : Text × α) : List Token :=
  lexed "(" ++ textTokens e.1 ++ lexed "," ++ write e.2 ++ lexed ")"

/-- The tokens of a list with a comma behind each item. -/
def listTokens (write : α → List Token) (items : List α) : List Token :=
  lexed "&[" ++ (items.flatMap fun a => write a ++ lexed ",") ++ lexed "]"

/-- The tokens of a list of texts with commas between them. -/
def textsTokens (texts : List Text) : List Token :=
  lexed "&[" ++ (texts.map Token.text).intersperse (.mark ',') ++ lexed "]"

/-- The tokens of a table. -/
def tableTokens (declaration : String) (write : α → List Token) (entries : List (Text × α)) :
    List Token :=
  lexed declaration ++ listTokens (entryTokens write) entries ++ lexed ";"

/-- The tokens of a text that may be absent. -/
def optionTokens : Option Text → List Token
  | some t => lexed "Some(" ++ textTokens t ++ lexed ")"
  | none => lexed "None"

/-- The tokens of a field. -/
def fieldTokens (name : String) (t : Option Text) : List Token :=
  lexed name ++ lexed ":" ++ optionTokens t ++ lexed ","

/-- The tokens of the texts of a property. -/
def fieldsTokens (fields : Fields) : List Token :=
  lexed "PropertyFields \x7b" ++ fieldTokens "syntax" fields.grammar
    ++ fieldTokens "css_example" fields.cssExample
    ++ fieldTokens "secondary_example" fields.secondExample ++ lexed "\x7d"

/-- The word with which a constant is declared. -/
abbrev const : Token := .word ['c', 'o', 'n', 's', 't']

/-- The tokens from the address of the site to the last table. -/
def tablesTokens (tables : StaticTables) : List Token :=
  lexed "const BASE_URL: &str =" ++ textTokens tables.baseUrl ++ lexed ";"
    ++ tableTokens "pub static TYPE_URLS: &[(&str, &str)] =" textTokens tables.typeUrls
    ++ tableTokens "pub static PROPERTY_FILES: &[(&str, &str)] =" textTokens tables.propertyFiles
    ++ tableTokens "pub static ENUM_VALUES: &[(&str, &[(&str, &str)])] ="
        (listTokens (entryTokens textTokens)) tables.values
    ++ tableTokens "pub static PROPERTY_FIELDS: &[(&str, PropertyFields)] =" fieldsTokens
        tables.fields
    ++ tableTokens "pub static SEE_ALSO: &[(&str, &[&str])] =" textsTokens tables.seeAlso

/-! ### Expected tokens -/

theorem lexed_comma : lexed "," = [.mark ','] := by decide +kernel

theorem lexed_bracket : lexed "]" = [.mark ']'] := by decide +kernel

theorem lexed_parenthesis : lexed "(" = [.mark '('] := by decide +kernel

theorem expect_append (expected rest : List Token) :
    expect expected (expected ++ rest) = some rest := by
  induction expected with
  | nil => rfl
  | cons e expected ih => rw [List.cons_append, expect, if_pos rfl, ih]

/-- What is expected is found behind tokens that cannot begin it. -/
theorem behind_append {e : Token} {expected skipped rest : List Token}
    (h : ∀ t ∈ skipped, t ≠ e) :
    behind (e :: expected) (skipped ++ (e :: expected ++ rest)) = some rest := by
  induction skipped with
  | nil =>
    have hexpect := expect_append (e :: expected) rest
    rw [List.cons_append] at hexpect
    rw [List.nil_append, List.cons_append, behind, hexpect]
  | cons t skipped ih =>
    obtain ⟨ht, hskipped⟩ := List.forall_mem_cons.1 h
    rw [List.cons_append, behind, expect, if_neg (Ne.symm ht)]
    exact ih hskipped

/-! ### The parts of a table are read back -/

/-- Whether a reading takes back what was written, whatever stands behind it. -/
def Recovers (read : Reading α) (write : α → List Token) : Prop :=
  ∀ a rest, read (write a ++ rest) = some (a, rest)

theorem recovers_text : Recovers text textTokens := fun _ _ => rfl

theorem recovers_optionalText : Recovers optionalText optionTokens := by
  intro t rest
  cases t with
  | none => rw [optionTokens, optionalText, expect_append]
  | some t =>
    have hnone : lexed "None" = [.word "None".toList] := by decide +kernel
    have hsome : lexed "Some(" = [.word "Some".toList, .mark '('] := by decide +kernel
    have hother : ∀ rest, expect (lexed "None") (lexed "Some(" ++ rest) = none := by
      intro rest
      have hword : Token.word "None".toList ≠ Token.word "Some".toList := by decide +kernel
      rw [hnone, hsome, List.cons_append, expect, if_neg hword]
    simp only [optionTokens, optionalText, List.append_assoc, hother, expect_append,
      Option.bind_eq_bind, Option.bind_some, recovers_text _ _, pure]

theorem recovers_field (name : String) : Recovers (field name) (fieldTokens name) := by
  intro t rest
  simp only [fieldTokens, field, List.append_assoc, expect_append, Option.bind_eq_bind,
    Option.bind_some, recovers_optionalText _ _, pure]

theorem recovers_fields : Recovers Reading.fields fieldsTokens := by
  intro t rest
  simp only [fieldsTokens, Reading.fields, List.append_assoc, expect_append, Option.bind_eq_bind,
    Option.bind_some, recovers_field _ _ _, pure]

theorem Recovers.entry (h : Recovers read write) :
    Recovers (entry read) (entryTokens write) := by
  intro e rest
  simp only [entryTokens, Reading.entry, List.append_assoc, expect_append, Option.bind_eq_bind,
    Option.bind_some, recovers_text _ _, h _ _, pure]

/-! ### Lists -/

theorem items_end (read : Reading α) (rest : List Token) :
    items read (.mark ']' :: rest) = some ([], rest) := by
  rw [items]

/-- An item and a comma. -/
theorem items_comma {tokens rest : List Token} {a : α}
    (hfirst : tokens.head? ≠ some (.mark ']'))
    (hread : read tokens = some (a, .mark ',' :: rest)) (hshort : rest.length < tokens.length) :
    items read tokens = (items read rest).map fun r => (a :: r.1, r.2) := by
  rw [items.eq_def]
  split
  · simp at hfirst
  · simp only [hread, if_pos hshort]

/-- An item without a comma is the last. -/
theorem items_last {tokens rest : List Token} {a : α}
    (hfirst : tokens.head? ≠ some (.mark ']'))
    (hread : read tokens = some (a, .mark ']' :: rest)) :
    items read tokens = some ([a], rest) := by
  rw [items.eq_def]
  split
  · simp at hfirst
  · simp only [hread]

/-- A first token that is not a bracket stays the first. -/
theorem head?_append_ne {tokens : List Token} (h : tokens.head? ≠ some (.mark ']'))
    (rest : List Token) : (tokens ++ (.mark ',' :: rest)).head? ≠ some (.mark ']') := by
  cases tokens with
  | nil => simp
  | cons t tokens => simpa using h

theorem Recovers.list (h : Recovers read write)
    (hfirst : ∀ a, (write a).head? ≠ some (.mark ']')) :
    Recovers (list read) (listTokens write) := by
  have hitems : ∀ (as : List α) (rest : List Token),
      items read ((as.flatMap fun a => write a ++ [.mark ',']) ++ (.mark ']' :: rest)) =
        some (as, rest) := by
    intro as rest
    induction as with
    | nil => exact items_end read rest
    | cons a as ih =>
      simp only [List.flatMap_cons, List.append_assoc, List.cons_append, List.nil_append]
      rw [items_comma (head?_append_ne (hfirst a) _) (h a _), ih, Option.map_some]
      simp only [List.length_append, List.length_cons]
      omega
  intro as rest
  simp only [listTokens, Reading.list, List.append_assoc, expect_append, Option.bind_eq_bind,
    Option.bind_some, lexed_comma, lexed_bracket, List.cons_append, List.nil_append, hitems]

theorem recovers_texts : Recovers (list text) textsTokens := by
  have hitems : ∀ (texts : List Text) (rest : List Token),
      items text ((texts.map Token.text).intersperse (.mark ',') ++ (.mark ']' :: rest)) =
        some (texts, rest) := by
    intro texts rest
    induction texts with
    | nil => exact items_end text rest
    | cons t texts ih =>
      cases texts with
      | nil => exact items_last (by simp) rfl
      | cons s texts =>
        have hmore : ((t :: s :: texts).map Token.text).intersperse (.mark ',') =
            .text t :: .mark ',' :: ((s :: texts).map Token.text).intersperse (.mark ',') := rfl
        rw [hmore, List.cons_append, List.cons_append, items_comma (by simp) rfl, ih,
          Option.map_some]
        simp only [List.length_cons]
        omega
  intro texts rest
  simp only [textsTokens, Reading.list, List.append_assoc, expect_append, Option.bind_eq_bind,
    Option.bind_some, lexed_bracket, List.cons_append, List.nil_append, hitems]

theorem entryTokens_head? (e : Text × α) : (entryTokens write e).head? ≠ some (.mark ']') := by
  simp [entryTokens, lexed_parenthesis]

theorem Recovers.table (declaration : String) (h : Recovers read write) :
    Recovers (table declaration read) (tableTokens declaration write) := by
  intro entries rest
  simp only [tableTokens, Reading.table, List.append_assoc, expect_append, Option.bind_eq_bind,
    Option.bind_some, h.entry.list entryTokens_head? _ _, pure]

/-- The tables are read back behind tokens among which there is no constant. -/
theorem ofTokens?_append {front : List Token} (h : ∀ t ∈ front, t ≠ const) (tables : StaticTables)
    (rest : List Token) :
    ofTokens? (front ++ (tablesTokens tables ++ rest)) = some (tables, rest) := by
  have hconst : lexed "const BASE_URL: &str =" =
      const :: (lexed "const BASE_URL: &str =").tail := by decide +kernel
  have hbehind : ∀ rest, behind (lexed "const BASE_URL: &str =")
      (front ++ (lexed "const BASE_URL: &str =" ++ rest)) = some rest := by
    intro rest
    rw [hconst]
    exact behind_append h
  have hpairs : Recovers (Reading.list (entry text)) (listTokens (entryTokens textTokens)) :=
    recovers_text.entry.list entryTokens_head?
  simp only [tablesTokens, ofTokens?, List.append_assoc, hbehind, expect_append,
    Option.bind_eq_bind, Option.bind_some, recovers_text _ _, recovers_text.table _ _ _,
    hpairs.table _ _ _, recovers_fields.table _ _ _, recovers_texts.table _ _ _, pure]

end StyleDocs.StaticTables
