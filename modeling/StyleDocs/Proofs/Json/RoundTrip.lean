import Mathlib.Tactic.SplitIfs
import StyleDocs.Json.Printer
import StyleDocs.Json.Reader

/-!
# Reading what was printed

A value made of texts, lists and objects is read back from its printed form. The strings in it may
come back in another spelling, since most control characters are printed as code units and stay code
units when they are read, but each denotes the text it denoted before. The reader is followed one
piece of the text at a time: a printed value takes it from where a value begins to where the value
is complete, whatever is open around it.
-/

namespace StyleDocs.Json

/-! ### Spellings -/

/-- The element that is read for a printed character: a control without a letter of its own comes
back as a code unit. -/
def rereadChar (c : Char) : Unit16 :=
  if c.toNat < 0x20 ∧ c ∉ ['\n', '\r', '\t', '\x08', '\x0c'] then .code c.toNat else .char c

/-- The element that is read for a printed element. -/
def rereadUnit : Unit16 → Unit16
  | .char c => rereadChar c
  | .code n => .code n

/-- The string that is read for a printed text. -/
def respell (t : Text) : Str := (ofText t).map rereadUnit

theorem text?_code_cons {n : Nat} (hhigh : isHigh n = false) (hlow : isLow n = false) (s : Str) :
    text? (.code n :: s) = (text? s).map (Char.ofNat n :: ·) := by
  rw [text?.eq_def]
  simp [hhigh, hlow]

/-- The string that is read for a printed text denotes the text. -/
@[simp] theorem text?_respell (t : Text) : text? (respell t) = some t := by
  induction t with
  | nil => rfl
  | cons c t ih =>
    change text? (rereadChar c :: respell t) = _
    unfold rereadChar
    split
    · next h =>
      obtain ⟨hcontrol, -⟩ := h
      -- A control character is no half of a surrogate pair.
      have hhigh : isHigh c.toNat = false := by
        simp only [isHigh, Bool.and_eq_false_imp, decide_eq_true_eq, decide_eq_false_iff_not]
        omega
      have hlow : isLow c.toNat = false := by
        simp only [isLow, Bool.and_eq_false_imp, decide_eq_true_eq, decide_eq_false_iff_not]
        omega
      rw [text?_code_cons hhigh hlow, ih, Option.map_some, Char.ofNat_toNat]
    · rw [text?, ih, Option.map_some]

/-! ### Strings -/

theorem hexValue?_digitChar {d : Nat} (h : d < 16) : hexValue? (Nat.digitChar d) = some d := by
  have hall : ∀ d < 16, hexValue? (Nat.digitChar d) = some d := by decide
  exact hall d h

/-- The four digits of a code unit are read as the code unit. -/
theorem run_fourDigits (frames : List Frame) (owner : Owner) (read : Str) {n : Nat}
    (h : n < 0x10000) :
    run ⟨frames, .code owner read 4 0⟩ (fourDigits n) =
      some ⟨frames, .string owner (.code n :: read)⟩ := by
  have hdigit : ∀ k, hexValue? (Nat.digitChar (k % 16)) = some (k % 16) := fun k =>
    hexValue?_digitChar (Nat.mod_lt k (by decide))
  have hvalue : 16 * (16 * (16 * (n / 4096 % 16) + n / 256 % 16) + n / 16 % 16) + n % 16 = n := by
    omega
  simp [run, fourDigits, step, hdigit, hvalue]

/-- A printed character is read as one element of a string. -/
theorem run_escapeChar (frames : List Frame) (owner : Owner) (read : Str) (c : Char) :
    run ⟨frames, .string owner read⟩ (escapeChar c) =
      some ⟨frames, .string owner (rereadChar c :: read)⟩ := by
  unfold escapeChar
  split_ifs with hquote hslash hn hr ht hb hf hcontrol
  · subst hquote
    rfl
  · subst hslash
    rfl
  · subst hn
    rfl
  · subst hr
    rfl
  · subst ht
    rfl
  · subst hb
    rfl
  · subst hf
    rfl
  · have hcode : rereadChar c = .code c.toNat := by
      rw [rereadChar, if_pos ⟨hcontrol, by simp [hn, hr, ht, hb, hf]⟩]
    rw [run_append, hcode]
    exact run_fourDigits frames owner read (by omega)
  · have hchar : rereadChar c = .char c := by
      rw [rereadChar, if_neg fun h => hcontrol h.1]
    simp [run, step, hquote, hslash, hcontrol, hchar]

theorem run_flatMap_escapeUnit (frames : List Frame) (owner : Owner) (read : Str) (t : Text) :
    run ⟨frames, .string owner read⟩ ((ofText t).flatMap escapeUnit) =
      some ⟨frames, .string owner ((respell t).reverse ++ read)⟩ := by
  induction t generalizing read with
  | nil => rfl
  | cons c t ih =>
    change run _ (escapeChar c ++ (ofText t).flatMap escapeUnit) = _
    rw [run_append, run_escapeChar, Option.bind_some, ih]
    simp [respell, ofText, rereadUnit]

/-- A printed text is read to its closing quote. -/
theorem run_printString (frames : List Frame) (owner : Owner) (t : Text) :
    run ⟨frames, .string owner []⟩ ((ofText t).flatMap escapeUnit ++ ['"']) =
      some (endString frames owner (respell t).reverse) := by
  rw [run_append, run_flatMap_escapeUnit, Option.bind_some, List.append_nil]
  rfl

/-! ### Values -/

/-- A value made of texts, lists and objects. -/
inductive Textual : Value → Prop
  /-- A text. -/
  | text (t : Text) : Textual (.ofText t)
  /-- A list of such values. -/
  | array {items : List Value} (h : ∀ v ∈ items, Textual v) : Textual (.array items)
  /-- An object whose members are such values. -/
  | object {members : List (Text × Value)} (h : ∀ m ∈ members, Textual m.2) :
    Textual (.ofMembers members)

mutual

/-- The value that is read for a printed value. -/
def Value.reread : Value → Value
  | .null => .null
  | .bool b => .bool b
  | .number digits => .number digits
  | .string s => .string (s.map rereadUnit)
  | .array items => .array (rereadItems items)
  | .object members => .object (rereadMembers members)

/-- The items that are read for printed items. -/
def rereadItems : List Value → List Value
  | [] => []
  | item :: items => item.reread :: rereadItems items

/-- The members that are read for printed members. -/
def rereadMembers : List (Str × Value) → List (Str × Value)
  | [] => []
  | (name, value) :: members => (name.map rereadUnit, value.reread) :: rereadMembers members

end

@[simp] theorem reread_ofText (t : Text) : (Value.ofText t).reread = .string (respell t) := rfl

@[simp] theorem reread_array (items : List Value) :
    (Value.array items).reread = .array (items.map Value.reread) := by
  have hitems : ∀ items, rereadItems items = items.map Value.reread := by
    intro items
    induction items with
    | nil => rfl
    | cons item items ih => rw [rereadItems, ih, List.map_cons]
  rw [Value.reread, hitems]

@[simp] theorem reread_ofMembers (members : List (Text × Value)) :
    (Value.ofMembers members).reread =
      .object (members.map fun m => (respell m.1, m.2.reread)) := by
  have hmembers : ∀ members : List (Text × Value),
      rereadMembers (members.map fun m => (ofText m.1, m.2)) =
        members.map fun m => (respell m.1, m.2.reread) := by
    intro members
    induction members with
    | nil => rfl
    | cons m members ih =>
      rw [List.map_cons, rereadMembers, ih, List.map_cons]
      rfl
  rw [Value.ofMembers, Value.reread, hmembers]

/-! ### Runs of the reader -/

theorem run_cons (s : State) (c : Char) (t : Text) : run s (c :: t) = (step s c).bind (run · t) :=
  List.foldlM_cons

/-- White space that leaves a state as it is may be passed over. -/
theorem run_newLine {s : State} (hstep : ∀ c, isSpace c = true → step s c = some s) (level : Nat)
    (t : Text) : run s (newLine level ++ t) = run s t := by
  have hblanks : ∀ n, run s (List.replicate n ' ' ++ t) = run s t := by
    intro n
    induction n with
    | zero => rfl
    | succ n ih => rw [List.replicate_succ, List.cons_append, run_cons, hstep ' ' rfl,
        Option.bind_some, ih]
  rw [newLine, List.cons_append, run_cons, hstep '\n' rfl, Option.bind_some, hblanks]

/-- Whether the reader takes the printed form of a value for the value. -/
def Reads (v : Value) : Prop :=
  ∀ level frames, run ⟨frames, .value⟩ (print level v) = some ⟨frames, .done v.reread⟩

theorem Reads.text (t : Text) : Reads (.ofText t) := by
  intro level frames
  change run ⟨frames, .value⟩ ('"' :: ((ofText t).flatMap escapeUnit ++ ['"'])) = _
  rw [run_cons]
  change run ⟨frames, .string .value []⟩ _ = _
  rw [run_printString]
  simp [endString]

/-! #### Lists -/

/-- The printed form of a value opens with a character that is neither white space nor the end of a
list. -/
theorem exists_print_eq_cons {v : Value} (h : Textual v) (level : Nat) :
    ∃ c t, print level v = c :: t ∧ isSpace c = false ∧ c ≠ ']' := by
  cases h with
  | text t => exact ⟨'"', _, rfl, rfl, by decide⟩
  | @array items h =>
    cases items with
    | nil => exact ⟨'[', _, rfl, rfl, by decide⟩
    | cons item items => exact ⟨'[', _, rfl, rfl, by decide⟩
  | @object members h =>
    cases members with
    | nil => exact ⟨'\x7b', _, rfl, rfl, by decide⟩
    | cons member members => exact ⟨'\x7b', _, rfl, rfl, by decide⟩

/-- The first item of a list is read like any value. -/
theorem run_itemOrEnd_print {v : Value} (h : Textual v) (level : Nat) (frames : List Frame)
    (t : Text) :
    run ⟨frames, .itemOrEnd⟩ (print level v ++ t) = run ⟨frames, .value⟩ (print level v ++ t) := by
  obtain ⟨c, s, hprint, hspace, hend⟩ := exists_print_eq_cons h level
  rw [hprint, List.cons_append, run_cons, run_cons]
  simp [step, hspace, hend]

/-- The items behind the first are read to the end of the list. -/
theorem run_printItems {items : List Value} (h : ∀ v ∈ items, Reads v) (level outer : Nat)
    (frames : List Frame) (before : List Value) (v : Value) :
    run ⟨.items before :: frames, .done v⟩ (printItems level items ++ (newLine outer ++ [']'])) =
      some ⟨frames, .done (.array ((v :: before).reverse ++ items.map Value.reread))⟩ := by
  induction items generalizing before v with
  | nil =>
    rw [printItems, List.nil_append, run_newLine (fun c hc => by simp [step, stepDone, hc]),
      List.map_nil, List.append_nil]
    rfl
  | cons item items ih =>
    have hitem := h item List.mem_cons_self level (.items (v :: before) :: frames)
    have hrest := ih (fun v hv => h v (List.mem_cons_of_mem _ hv)) (v :: before) item.reread
    rw [printItems]
    simp only [List.append_assoc, List.cons_append, List.nil_append, run_cons]
    change run ⟨.items (v :: before) :: frames, .value⟩ _ = _
    rw [run_newLine (fun c hc => by simp [step, hc]), run_append, hitem, Option.bind_some, hrest]
    simp

theorem Reads.array {items : List Value} (h : ∀ v ∈ items, Textual v)
    (hreads : ∀ v ∈ items, Reads v) : Reads (.array items) := by
  intro level frames
  cases items with
  | nil => rfl
  | cons item items =>
    have hitem := hreads item List.mem_cons_self (level + 1) (.items [] :: frames)
    have hrest := run_printItems (fun v hv => hreads v (List.mem_cons_of_mem _ hv)) (level + 1)
      level frames [] item.reread
    rw [print]
    simp only [List.append_assoc, List.cons_append, List.nil_append, run_cons]
    change run ⟨.items [] :: frames, .itemOrEnd⟩ _ = _
    rw [run_newLine (fun c hc => by simp [step, hc]),
      run_itemOrEnd_print (h item List.mem_cons_self), run_append, hitem, Option.bind_some, hrest]
    simp

/-! #### Objects -/

/-- A member is read behind the members before it. -/
theorem run_printMember {value : Value} (h : Reads value) (level : Nat) (frames : List Frame)
    (before : List (Str × Value)) (name : Text) :
    run ⟨frames, .name before⟩ (printMember level (ofText name, value)) =
      some ⟨.member before (respell name) :: frames, .done value.reread⟩ := by
  rw [printMember, printString]
  simp only [List.cons_append, run_cons]
  change run ⟨frames, .string (.name before) []⟩ _ = _
  rw [run_append, run_append, run_printString, Option.bind_some, endString, List.reverse_reverse]
  exact h level (.member before (respell name) :: frames)

/-- The first member of an object is read like any other. -/
theorem run_nameOrEnd_printMember (level : Nat) (frames : List Frame) (member : Str × Value)
    (t : Text) :
    run ⟨frames, .nameOrEnd⟩ (printMember level member ++ t) =
      run ⟨frames, .name []⟩ (printMember level member ++ t) := by
  rw [printMember, printString]
  rfl

/-- The members behind the first are read to the end of the object. -/
theorem run_printMembers {members : List (Text × Value)} (h : ∀ m ∈ members, Reads m.2)
    (level outer : Nat) (frames : List Frame) (before : List (Str × Value)) (name : Str)
    (v : Value) :
    run ⟨.member before name :: frames, .done v⟩
        (printMembers level (members.map fun m => (ofText m.1, m.2)) ++
          (newLine outer ++ ['\x7d'])) =
      some ⟨frames, .done (.object (((name, v) :: before).reverse ++
        members.map fun m => (respell m.1, m.2.reread)))⟩ := by
  induction members generalizing before name v with
  | nil =>
    rw [List.map_nil, printMembers, List.nil_append,
      run_newLine (fun c hc => by simp [step, stepDone, hc]), List.map_nil, List.append_nil]
    rfl
  | cons m members ih =>
    have hmember := run_printMember (h m List.mem_cons_self) level frames ((name, v) :: before) m.1
    have hrest := ih (fun m hm => h m (List.mem_cons_of_mem _ hm)) ((name, v) :: before)
      (respell m.1) m.2.reread
    rw [List.map_cons, printMembers]
    simp only [List.append_assoc, List.cons_append, List.nil_append, run_cons]
    change run ⟨frames, .name ((name, v) :: before)⟩ _ = _
    rw [run_newLine (fun c hc => by simp [step, hc]), run_append, hmember, Option.bind_some, hrest]
    simp

theorem Reads.object {members : List (Text × Value)} (h : ∀ m ∈ members, Reads m.2) :
    Reads (.ofMembers members) := by
  intro level frames
  cases members with
  | nil => rfl
  | cons m members =>
    have hmember := run_printMember (h m List.mem_cons_self) (level + 1) frames [] m.1
    have hrest := run_printMembers (fun m hm => h m (List.mem_cons_of_mem _ hm)) (level + 1) level
      frames [] (respell m.1) m.2.reread
    rw [reread_ofMembers, Value.ofMembers, List.map_cons, print]
    simp only [List.append_assoc, List.cons_append, List.nil_append, run_cons]
    change run ⟨frames, .nameOrEnd⟩ _ = _
    rw [run_newLine (fun c hc => by simp [step, hc]), run_nameOrEnd_printMember, run_append,
      hmember, Option.bind_some, hrest]
    rfl

/-- The reader takes the printed form of a value made of texts for the value. -/
theorem Textual.reads {v : Value} (h : Textual v) : Reads v := by
  induction h with
  | text t => exact Reads.text t
  | array h ih => exact Reads.array h ih
  | object _ ih => exact Reads.object ih

/-- A value made of texts is read back from its printed form, white space behind it or not. -/
theorem parse_print {v : Value} (h : Textual v) (level : Nat) {blanks : Text}
    (hblanks : ∀ c ∈ blanks, isSpace c = true) :
    parse (print level v ++ blanks) = some v.reread := by
  have hskip : run ⟨[], .done v.reread⟩ blanks = some ⟨[], .done v.reread⟩ := by
    induction blanks with
    | nil => rfl
    | cons c blanks ih =>
      have hstep : step ⟨[], .done v.reread⟩ c = some ⟨[], .done v.reread⟩ := by
        simp [step, stepDone, hblanks c List.mem_cons_self]
      rw [run_cons, hstep, Option.bind_some, ih fun c hc => hblanks c (List.mem_cons_of_mem _ hc)]
  rw [parse, start, run_append, h.reads, Option.bind_some, hskip]
  rfl

end StyleDocs.Json
