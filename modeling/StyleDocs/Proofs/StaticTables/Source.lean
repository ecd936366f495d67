import StyleDocs.Proofs.StaticTables.Reader
import StyleDocs.Proofs.StaticTables.Token
import StyleDocs.StaticTables.Source

/-!
# What the source of static tables declares

The source of static tables is read as the very same tables, whatever texts are in them. Each piece
of the source is read as the tokens that say what it was written for, and the reader of tables takes
these tokens back to it; a text is always a token by itself, so it can neither end the literal it
stands in nor add anything to the table.
-/

namespace StyleDocs.StaticTables

open Token Reading

/-! ### From the source to its tokens -/

theorem lexes_quote (t : Text) : Lexes .between (Text.quote t) (textTokens t) .closed := run_quote t

theorem lexes_comma : Lexes .between ",\n".toList (lexed ",") .between := by decide +kernel

theorem lexes_close : Lexes .closed ")".toList (lexed ")") .between := by decide +kernel

/-- The beginning of an entry that takes more than a line. -/
theorem lexes_key (key : Text) :
    Lexes .between ("    (".toList ++ Text.quote key) (lexed "(" ++ textTokens key) .closed := by
  have hopen : Lexes .between "    (".toList (lexed "(") .between := by decide +kernel
  exact hopen.append (lexes_quote key)

theorem lexes_pairSource (e : Text × Text) :
    Lexes .between (pairSource e.1 e.2) (entryTokens textTokens e) .between := by
  have hopen : Lexes .between "(".toList (lexed "(") .between := by decide +kernel
  have hcomma : Lexes .closed ", ".toList (lexed ",") .between := by decide +kernel
  have hkey := hopen.append (lexes_quote e.1)
  have h := ((hkey.append hcomma).append (lexes_quote e.2)).append lexes_close
  simpa only [pairSource, entryTokens] using h

/-- A pair on a line of its own. -/
theorem lexes_pairLine {indent : Text} (hindent : Lexes .between indent [] .between)
    (e : Text × Text) :
    Lexes .between (indent ++ pairSource e.1 e.2 ++ ",\n".toList)
      (entryTokens textTokens e ++ lexed ",") .between := by
  have h := (hindent.append (lexes_pairSource e)).append lexes_comma
  simpa only [List.nil_append] using h

theorem lexes_valuesEntry (e : Text × List (Text × Text)) :
    Lexes .between (valuesEntry e.1 e.2)
      (entryTokens (listTokens (entryTokens textTokens)) e ++ lexed ",") .between := by
  have hlist : Lexes .closed ", &[\n".toList (lexed "," ++ lexed "&[") .between := by decide +kernel
  have hindent : Lexes .between "        ".toList [] .between := by decide +kernel
  have hclose : Lexes .between "    ]),\n".toList (lexed "]" ++ lexed ")" ++ lexed ",")
      .between := by decide +kernel
  have hvalues := Lexes.flatMap (lexes_pairLine hindent) e.2
  have h := (((lexes_key e.1).append hlist).append hvalues).append hclose
  unfold valuesEntry
  simpa only [entryTokens, listTokens, List.append_assoc] using h

/-- A field on a line of its own. -/
theorem lexes_field {start : Text} {name : String}
    (hstart : Lexes .between start (lexed name ++ lexed ":") .between) (t : Option Text) :
    Lexes .between (start ++ optionSource t ++ ",\n".toList) (fieldTokens name t) .between := by
  have hoption : Lexes .between (optionSource t ++ ",\n".toList) (optionTokens t ++ lexed ",")
      .between := by
    cases t with
    | none => decide +kernel
    | some t =>
      have hopen : Lexes .between "Some(".toList (lexed "Some(") .between := by decide +kernel
      exact ((hopen.append (lexes_quote t)).append lexes_close).append lexes_comma
  have h := hstart.append hoption
  simpa only [fieldTokens, List.append_assoc] using h

theorem lexes_fieldsEntry (e : Text × Fields) :
    Lexes .between (fieldsEntry e.1 e.2) (entryTokens fieldsTokens e ++ lexed ",") .between := by
  have hfields : Lexes .closed ", PropertyFields \x7b\n".toList
      (lexed "," ++ lexed "PropertyFields \x7b") .between := by decide +kernel
  have hgrammar : Lexes .between "        syntax: ".toList (lexed "syntax" ++ lexed ":")
      .between := by decide +kernel
  have hcss : Lexes .between "        css_example: ".toList (lexed "css_example" ++ lexed ":")
      .between := by decide +kernel
  have hsecond : Lexes .between "        secondary_example: ".toList
      (lexed "secondary_example" ++ lexed ":") .between := by decide +kernel
  have hclose : Lexes .between "    \x7d),\n".toList (lexed "\x7d" ++ lexed ")" ++ lexed ",")
      .between := by decide +kernel
  have hexamples := (lexes_field hcss e.2.cssExample).append
    (lexes_field hsecond e.2.secondExample)
  have htexts := (lexes_field hgrammar e.2.grammar).append hexamples
  have h := (((lexes_key e.1).append hfields).append htexts).append hclose
  unfold fieldsEntry
  simpa only [entryTokens, fieldsTokens, List.append_assoc] using h

/-- Literals with commas between them. -/
theorem lexes_related (texts : List Text) :
    Lexes .between (Text.joinWith ", ".toList (texts.map Text.quote) ++ "])".toList)
      ((texts.map Token.text).intersperse (.mark ',') ++ lexed "]" ++ lexed ")") .between := by
  induction texts with
  | nil => decide +kernel
  | cons t texts ih =>
    cases texts with
    | nil =>
      have hclose : Lexes .closed "])".toList (lexed "]" ++ lexed ")") .between := by
        decide +kernel
      have h := (lexes_quote t).append hclose
      simpa only [List.map_cons, List.map_nil, Text.joinWith, List.intersperse, textTokens,
        List.append_assoc] using h
    | cons s texts =>
      have hcomma : Lexes .closed ", ".toList [.mark ','] .between := by decide +kernel
      have h := ((lexes_quote t).append hcomma).append ih
      simpa only [List.map_cons, Text.joinWith, List.intersperse, textTokens, List.append_assoc,
        List.cons_append, List.nil_append] using h

theorem lexes_seeAlsoEntry (e : Text × List Text) :
    Lexes .between (seeAlsoEntry e.1 e.2) (entryTokens textsTokens e ++ lexed ",") .between := by
  have hlist : Lexes .closed ", &[".toList (lexed "," ++ lexed "&[") .between := by decide +kernel
  have hend : "]),\n".toList = "])".toList ++ ",\n".toList := by decide +kernel
  have h := (((lexes_key e.1).append hlist).append (lexes_related e.2)).append lexes_comma
  unfold seeAlsoEntry
  simpa only [entryTokens, textsTokens, hend, List.append_assoc] using h

/-- A table between its declaration and its end. -/
theorem lexes_table {α : Type} {start : Text} {declaration : String} {source : Text × α → Text}
    {write : α → List Token}
    (hstart : Lexes .between start (lexed declaration ++ lexed "&[") .between)
    (hsource : ∀ e, Lexes .between (source e) (entryTokens write e ++ lexed ",") .between)
    (entries : List (Text × α)) :
    Lexes .between (start ++ entries.flatMap source ++ tableEnd)
      (tableTokens declaration write entries) .between := by
  have hend : Lexes .between tableEnd (lexed "]" ++ lexed ";") .between := by decide +kernel
  have h := (hstart.append (Lexes.flatMap hsource entries)).append hend
  simpa only [tableTokens, listTokens, List.append_assoc] using h

/-- A table of texts. -/
theorem lexes_textsSource {name declaration : String}
    (hstart : Lexes .between (tableStart name "&[(&str, &str)]")
      (lexed declaration ++ lexed "&[") .between) (entries : List (Text × Text)) :
    Lexes .between (textsSource name entries) (tableTokens declaration textTokens entries)
      .between := by
  have hindent : Lexes .between "    ".toList [] .between := by decide +kernel
  exact lexes_table hstart (lexes_pairLine hindent) entries

/-! ### The lines around the tables -/

/-- Lines of fixed text: they are whole tokens, and there is no constant among them. -/
structure Fixed (lines : Text) : Prop where
  lexes : ∃ tokens, Lexes .between lines tokens .between ∧ ∀ t ∈ tokens, t ≠ const

theorem fixed_nil : Fixed (fileLines []) := ⟨[], rfl, by simp⟩

/-- One more line. It is given by its characters, because a string is decoded byte by byte when it
is evaluated, and that is slow. -/
theorem fixed_cons {line : Text} {lines : List String}
    (hline : ((run .between (line ++ ['\n'])).any fun read =>
      read.2 = .between && read.1.all fun t => t ≠ const) = true)
    (h : Fixed (fileLines lines)) : Fixed (fileLines (String.ofList line :: lines)) := by
  obtain ⟨tokens, hlexes, htokens⟩ := h
  cases hread : run .between (line ++ ['\n']) with
  | none => simp [hread] at hline
  | some read =>
    simp only [hread, Option.any_some, Bool.and_eq_true, decide_eq_true_eq,
      List.all_eq_true] at hline
    obtain ⟨first, behind⟩ := read
    obtain ⟨rfl, hfirst⟩ := hline
    refine ⟨first ++ tokens, ?_, List.forall_mem_append.2 ⟨hfirst, htokens⟩⟩
    have h := Lexes.append hread hlexes
    simpa only [fileLines, List.flatMap_cons, String.toList_ofList] using h

theorem fixed_header : Fixed header := by
  unfold header
  repeat' first | refine fixed_cons (by decide +kernel) ?_ | exact fixed_nil

theorem fixed_queries : Fixed queries := by
  unfold queries
  repeat' first | refine fixed_cons (by decide +kernel) ?_ | exact fixed_nil

/-! ### The file -/

/-- The source of static tables is read as their tokens between tokens that are always the same,
with no constant in front of them. -/
theorem lexes_source : ∃ front behind : List Token,
    (∀ t ∈ front, t ≠ const) ∧ ∀ tables : StaticTables,
      Lexes .between tables.source (front ++ (tablesTokens tables ++ behind)) .between := by
  obtain ⟨front, hheader, hfront⟩ := fixed_header
  obtain ⟨behind, hqueries, -⟩ := fixed_queries
  have hbase : Lexes .between "pub const BASE_URL: &str = ".toList
      (.word "pub".toList :: lexed "const BASE_URL: &str =") .between := by decide +kernel
  have hend : Lexes .closed ";\n\n".toList (lexed ";") .between := by decide +kernel
  have hline : Lexes .between ['\n'] [] .between := rfl
  refine ⟨front ++ [.word "pub".toList], behind,
    List.forall_mem_append.2 ⟨hfront, by simp⟩, fun tables => ?_⟩
  have htypes := lexes_textsSource (by decide +kernel : Lexes .between
    (tableStart "TYPE_URLS" "&[(&str, &str)]")
    (lexed "pub static TYPE_URLS: &[(&str, &str)] =" ++ lexed "&[") .between) tables.typeUrls
  have hfiles := lexes_textsSource (by decide +kernel : Lexes .between
    (tableStart "PROPERTY_FILES" "&[(&str, &str)]")
    (lexed "pub static PROPERTY_FILES: &[(&str, &str)] =" ++ lexed "&[") .between)
    tables.propertyFiles
  have hvalues := lexes_table (by decide +kernel : Lexes .between
    (tableStart "ENUM_VALUES" "&[(&str, &[(&str, &str)])]")
    (lexed "pub static ENUM_VALUES: &[(&str, &[(&str, &str)])] =" ++ lexed "&[") .between)
    lexes_valuesEntry tables.values
  have hfields := lexes_table (by decide +kernel : Lexes .between
    (tableStart "PROPERTY_FIELDS" "&[(&str, PropertyFields)]")
    (lexed "pub static PROPERTY_FIELDS: &[(&str, PropertyFields)] =" ++ lexed "&[") .between)
    lexes_fieldsEntry tables.fields
  have hrelated := lexes_table (by decide +kernel : Lexes .between
    (tableStart "SEE_ALSO" "&[(&str, &[&str])]")
    (lexed "pub static SEE_ALSO: &[(&str, &[&str])] =" ++ lexed "&[") .between)
    lexes_seeAlsoEntry tables.seeAlso
  have hsite := ((hheader.append hbase).append (lexes_quote tables.baseUrl)).append hend
  have hpages := (((hsite.append htypes).append hline).append hfiles).append hline
  have hrecords := (((hpages.append hvalues).append hline).append hfields).append hline
  have h := (hrecords.append hrelated).append hqueries
  unfold source valuesSource fieldsSource seeAlsoSource
  simpa only [tablesTokens, List.append_assoc, List.cons_append, List.nil_append] using h

/-- The tables are read back from their source, and what stands behind them does not depend on
them. -/
theorem ofSource?_source :
    ∃ behind, ∀ tables : StaticTables, ofSource? tables.source = some (tables, behind) := by
  obtain ⟨front, behind, hfront, hlexes⟩ := lexes_source
  refine ⟨behind, fun tables => ?_⟩
  rw [ofSource?, tokens?_eq_some (hlexes tables), Option.bind_some, ofTokens?_append hfront]

end StyleDocs.StaticTables
