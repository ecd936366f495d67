import StyleDocs.Proofs.Json.RoundTrip

/-!
# The grammar of JSON texts

A value may be written in many ways: with any white space between its parts, with any escape for a
character, with a number in any of its forms. The grammar says which texts are written for which
value, one production for each kind of part. The reader takes every text of the grammar for the
value that it is written for; so no text is written for two values, and no nesting is too deep.
-/

namespace StyleDocs.Json

/-! ### The grammar -/

/-- Whether a text is white space. -/
def Blank (t : Text) : Prop := ∀ c ∈ t, isSpace c = true

instance (t : Text) : Decidable (Blank t) := List.decidableBAll (isSpace · = true) t

/-- The ways to write an element of a string. -/
inductive SpellsUnit : Unit16 → Text → Prop
  /-- A character that is no quote, no backslash and no control character stands for itself. -/
  | plain {c : Char} (hquote : c ≠ '"') (hslash : c ≠ '\\') (hcontrol : ¬ c.toNat < 0x20) :
    SpellsUnit (.char c) [c]
  /-- A letter behind a backslash stands for a character. -/
  | letter {c d : Char} (h : escaped? c = some d) : SpellsUnit (.char d) ['\\', c]
  /-- Four hexadecimal digits behind a backslash and the letter `u` stand for a code unit. -/
  | code {a b c d : Char} {i j k l : Nat} (ha : hexValue? a = some i) (hb : hexValue? b = some j)
    (hc : hexValue? c = some k) (hd : hexValue? d = some l) :
    SpellsUnit (.code (16 * (16 * (16 * i + j) + k) + l)) ['\\', 'u', a, b, c, d]

/-- The ways to write the elements of a string. -/
inductive SpellsUnits : Str → Text → Prop
  /-- Nothing. -/
  | nil : SpellsUnits [] []
  /-- An element and those behind it. -/
  | cons {u : Unit16} {us : Str} {s t : Text} (h : SpellsUnit u s) (hs : SpellsUnits us t) :
    SpellsUnits (u :: us) (s ++ t)

/-- Whether a text is written for a string: its elements between quotes. -/
def SpellsString (s : Str) (t : Text) : Prop :=
  ∃ body, SpellsUnits s body ∧ t = '"' :: (body ++ ['"'])

/-- Whether a text is a row of digits. -/
def AreDigits (t : Text) : Prop := t ≠ [] ∧ ∀ c ∈ t, c.isDigit = true

/-- Whether a text is the part of a number in front of the point: no zero leads other digits. -/
def IsWhole (t : Text) : Prop := t = ['0'] ∨ AreDigits t ∧ t.head? ≠ some '0'

/-- Whether a text is the part of a number from the point on. -/
def IsFraction (t : Text) : Prop := t = [] ∨ ∃ digits, AreDigits digits ∧ t = '.' :: digits

/-- Whether a text is the exponent of a number. -/
def IsExponent (t : Text) : Prop :=
  t = [] ∨ ∃ mark sign digits, mark ∈ ['e', 'E'] ∧ sign ∈ [[], ['+'], ['-']] ∧ AreDigits digits ∧
    t = mark :: (sign ++ digits)

/-- Whether a text is a number. -/
def IsNumber (t : Text) : Prop :=
  ∃ sign whole fraction exponent, sign ∈ [[], ['-']] ∧ IsWhole whole ∧ IsFraction fraction ∧
    IsExponent exponent ∧ t = sign ++ whole ++ fraction ++ exponent

/-- What a text can be written for. -/
inductive Part where
  /-- A value. -/
  | value (v : Value)
  /-- The items of a list. -/
  | items (items : List Value)
  /-- The members of an object. -/
  | members (members : List (Str × Value))

/-- The ways to write a value, the items of a list and the members of an object. A value has no
white space around it; items and members have as much as there may be. -/
inductive Spells : Part → Text → Prop
  /-- Nothing. -/
  | null : Spells (.value .null) "null".toList
  /-- A truth value. -/
  | true : Spells (.value (.bool .true)) "true".toList
  /-- The other truth value. -/
  | false : Spells (.value (.bool .false)) "false".toList
  /-- A number. -/
  | number {t : Text} (h : IsNumber t) : Spells (.value (.number t)) t
  /-- A string. -/
  | string {s : Str} {t : Text} (h : SpellsString s t) : Spells (.value (.string s)) t
  /-- The empty list. -/
  | noItems {a : Text} (ha : Blank a) : Spells (.value (.array [])) ('[' :: (a ++ [']']))
  /-- A list. -/
  | array {items : List Value} {t : Text} (h : Spells (.items items) t) :
    Spells (.value (.array items)) ('[' :: (t ++ [']']))
  /-- The empty object. -/
  | noMembers {a : Text} (ha : Blank a) :
    Spells (.value (.object [])) ('\x7b' :: (a ++ ['\x7d']))
  /-- An object. -/
  | object {members : List (Str × Value)} {t : Text} (h : Spells (.members members) t) :
    Spells (.value (.object members)) ('\x7b' :: (t ++ ['\x7d']))
  /-- The last item. -/
  | lastItem {v : Value} {a t b : Text} (ha : Blank a) (h : Spells (.value v) t) (hb : Blank b) :
    Spells (.items [v]) (a ++ t ++ b)
  /-- An item and those behind it. -/
  | item {v : Value} {items : List Value} {a t b rest : Text} (ha : Blank a)
    (h : Spells (.value v) t) (hb : Blank b) (hrest : Spells (.items items) rest) :
    Spells (.items (v :: items)) (a ++ t ++ b ++ ',' :: rest)
  /-- The last member. -/
  | lastMember {name : Str} {v : Value} {a s b c t d : Text} (ha : Blank a)
    (hs : SpellsString name s) (hb : Blank b) (hc : Blank c) (h : Spells (.value v) t)
    (hd : Blank d) : Spells (.members [(name, v)]) (a ++ s ++ b ++ ':' :: (c ++ t ++ d))
  /-- A member and those behind it. -/
  | member {name : Str} {v : Value} {members : List (Str × Value)} {a s b c t d rest : Text}
    (ha : Blank a) (hs : SpellsString name s) (hb : Blank b) (hc : Blank c)
    (h : Spells (.value v) t) (hd : Blank d) (hrest : Spells (.members members) rest) :
    Spells (.members ((name, v) :: members))
      (a ++ s ++ b ++ ':' :: (c ++ t ++ d ++ ',' :: rest))

/-- Whether a whole text is written for a value. -/
def Written (v : Value) (t : Text) : Prop :=
  ∃ a u b, Blank a ∧ Spells (.value v) u ∧ Blank b ∧ t = a ++ u ++ b

/-! #### Compact texts -/

/-- Whether the characters of a text stand for themselves in a string. -/
def Plain (t : Text) : Prop := ∀ c ∈ t, c ≠ '"' ∧ c ≠ '\\' ∧ ¬ c.toNat < 0x20

instance (t : Text) : Decidable (Plain t) :=
  List.decidableBAll (fun c => c ≠ '"' ∧ c ≠ '\\' ∧ ¬ c.toNat < 0x20) t

/-- Characters that stand for themselves may be written as they are. -/
theorem Plain.spells {t : Text} (h : Plain t) : SpellsString (ofText t) ('"' :: (t ++ ['"'])) := by
  refine ⟨t, ?_, rfl⟩
  induction t with
  | nil => exact .nil
  | cons c t ih =>
    obtain ⟨hquote, hslash, hcontrol⟩ := h c List.mem_cons_self
    exact .cons (.plain hquote hslash hcontrol) (ih fun d hd => h d (List.mem_cons_of_mem _ hd))

/-- The last member may be written without white space. -/
theorem Spells.lastCompact {name t : Text} {v : Value} (hname : Plain name)
    (h : Spells (.value v) t) :
    Spells (.members [(ofText name, v)]) ('"' :: (name ++ '"' :: ':' :: t)) := by
  simpa using Spells.lastMember (a := []) (b := []) (c := []) (d := []) (by decide) hname.spells
    (by decide) (by decide) h (by decide)

/-- A member may be written without white space. -/
theorem Spells.compact {name t rest : Text} {v : Value} {members : List (Str × Value)}
    (hname : Plain name) (h : Spells (.value v) t) (hrest : Spells (.members members) rest) :
    Spells (.members ((ofText name, v) :: members))
      ('"' :: (name ++ '"' :: ':' :: (t ++ ',' :: rest))) := by
  simpa using Spells.member (a := []) (b := []) (c := []) (d := []) (by decide) hname.spells
    (by decide) (by decide) h (by decide) hrest

/-! ### Strings -/

/-- White space that leaves a state as it is may be passed over. -/
theorem run_blank {s : State} (hstep : ∀ c, isSpace c = true → step s c = some s) {a : Text}
    (ha : Blank a) (t : Text) : run s (a ++ t) = run s t := by
  induction a with
  | nil => rfl
  | cons c a ih =>
    rw [List.cons_append, run_cons, hstep c (ha c List.mem_cons_self), Option.bind_some,
      ih fun d hd => ha d (List.mem_cons_of_mem _ hd)]

/-- An element is read from each of the ways to write it. -/
theorem run_unit {u : Unit16} {s : Text} (h : SpellsUnit u s) (frames : List Frame) (owner : Owner)
    (read : Str) :
    run ⟨frames, .string owner read⟩ s = some ⟨frames, .string owner (u :: read)⟩ := by
  cases h with
  | plain hquote hslash hcontrol => simp [run, step, hquote, hslash, hcontrol]
  | @letter c d h =>
    have hu : c ≠ 'u' := by
      rintro rfl
      simp [escaped?] at h
    simp [run, step, hu, h]
  | code ha hb hc hd => simp [run, step, ha, hb, hc, hd]

theorem run_units {us : Str} {t : Text} (h : SpellsUnits us t) (frames : List Frame)
    (owner : Owner) (read : Str) :
    run ⟨frames, .string owner read⟩ t = some ⟨frames, .string owner (us.reverse ++ read)⟩ := by
  induction h generalizing read with
  | nil => rfl
  | cons hu _ ih =>
    rw [run_append, run_unit hu, Option.bind_some, ih, List.reverse_cons, List.append_assoc]
    rfl

/-- A string is read behind its opening quote to its closing one. -/
theorem run_string {s : Str} {body : Text} (h : SpellsUnits s body) (frames : List Frame)
    (owner : Owner) :
    run ⟨frames, .string owner []⟩ (body ++ ['"']) = some (endString frames owner s.reverse) := by
  rw [run_append, run_units h, Option.bind_some, List.append_nil]
  rfl

/-! ### Numbers -/

/-- A number is read on as far as its parts go. -/
theorem run_number {t : Text} {part last : Digits} (h : t.foldlM Digits.next? part = some last)
    (frames : List Frame) (read : Text) :
    run ⟨frames, .number part read⟩ t = some ⟨frames, .number last (t.reverse ++ read)⟩ := by
  induction t generalizing part read with
  | nil =>
    cases h
    rfl
  | cons c t ih =>
    rw [List.foldlM_cons] at h
    obtain ⟨next, hnext, hrest⟩ := Option.bind_eq_some_iff.1 h
    have hstep : step ⟨frames, .number part read⟩ c = some ⟨frames, .number next (c :: read)⟩ := by
      simp [step, hnext]
    rw [run_cons, hstep, Option.bind_some, ih hrest, List.reverse_cons, List.append_assoc]
    rfl

/-- Digits leave a part that goes on with digits. -/
theorem foldlM_all {part : Digits} (hnext : ∀ c, c.isDigit = true → part.next? c = some part)
    {t : Text} (h : ∀ c ∈ t, c.isDigit = true) : t.foldlM Digits.next? part = some part := by
  induction t with
  | nil => rfl
  | cons c t ih =>
    rw [List.foldlM_cons, hnext c (h c List.mem_cons_self)]
    exact ih fun d hd => h d (List.mem_cons_of_mem _ hd)

/-- A row of digits leads to a part that goes on with digits. -/
theorem foldlM_digits {part last : Digits}
    (hfirst : ∀ c, c.isDigit = true → part.next? c = some last)
    (hnext : ∀ c, c.isDigit = true → last.next? c = some last) {t : Text} (h : AreDigits t) :
    t.foldlM Digits.next? part = some last := by
  obtain ⟨hne, hdigits⟩ := h
  cases t with
  | nil => exact absurd rfl hne
  | cons c t =>
    rw [List.foldlM_cons, hfirst c (hdigits c List.mem_cons_self)]
    exact foldlM_all hnext fun d hd => hdigits d (List.mem_cons_of_mem _ hd)

theorem foldlM_whole {t : Text} (h : IsWhole t) :
    ∃ part, t.foldlM Digits.next? .sign = some part ∧ (part = .zero ∨ part = .whole) := by
  rcases h with rfl | ⟨⟨hne, hdigits⟩, hzero⟩
  · exact ⟨.zero, rfl, Or.inl rfl⟩
  · refine ⟨.whole, ?_, Or.inr rfl⟩
    cases t with
    | nil => exact absurd rfl hne
    | cons c t =>
      have hc : c ≠ '0' := fun hc => hzero (congrArg some hc)
      have hfirst : Digits.sign.next? c = some .whole := by
        simp [Digits.next?, hc, hdigits c List.mem_cons_self]
      rw [List.foldlM_cons, hfirst]
      refine foldlM_all (fun c hc => ?_) fun d hd => hdigits d (List.mem_cons_of_mem _ hd)
      simp [Digits.next?, hc]

theorem foldlM_fraction {t : Text} (h : IsFraction t) {part : Digits}
    (hpart : part = .zero ∨ part = .whole) :
    ∃ last, t.foldlM Digits.next? part = some last ∧
      (last = .zero ∨ last = .whole ∨ last = .fraction) := by
  rcases h with rfl | ⟨digits, hdigits, rfl⟩
  · exact ⟨part, rfl, hpart.imp_right Or.inl⟩
  · have hpoint : part.next? '.' = some .point := by
      rcases hpart with rfl | rfl <;> rfl
    refine ⟨.fraction, ?_, Or.inr (Or.inr rfl)⟩
    rw [List.foldlM_cons, hpoint]
    exact foldlM_digits (fun c hc => by simp [Digits.next?, hc])
      (fun c hc => by simp [Digits.next?, hc]) hdigits

theorem foldlM_exponent {t : Text} (h : IsExponent t) {part : Digits}
    (hpart : part = .zero ∨ part = .whole ∨ part = .fraction) :
    ∃ last, t.foldlM Digits.next? part = some last ∧ last.mayEnd = true := by
  rcases h with rfl | ⟨mark, sign, digits, hmark, hsign, hdigits, rfl⟩
  · refine ⟨part, rfl, ?_⟩
    rcases hpart with rfl | rfl | rfl <;> rfl
  · have hnext : part.next? mark = some .mark := by
      simp only [List.mem_cons, List.not_mem_nil, or_false] at hmark
      rcases hpart with rfl | rfl | rfl <;> rcases hmark with rfl | rfl <;> rfl
    have hend : ∀ part : Digits, part = .mark ∨ part = .markSign →
        digits.foldlM Digits.next? part = some .exponent := by
      rintro part (rfl | rfl) <;>
        exact foldlM_digits (fun c hc => by simp [Digits.next?, hc])
          (fun c hc => by simp [Digits.next?, hc]) hdigits
    refine ⟨.exponent, ?_, rfl⟩
    rw [List.foldlM_cons, hnext]
    simp only [List.mem_cons, List.not_mem_nil, or_false] at hsign
    rcases hsign with rfl | rfl | rfl
    · exact hend .mark (Or.inl rfl)
    · exact hend .markSign (Or.inr rfl)
    · exact hend .markSign (Or.inr rfl)

/-- A number takes the reader from its sign to a place where a number may end. -/
theorem foldlM_number {whole fraction exponent : Text} (hwhole : IsWhole whole)
    (hfraction : IsFraction fraction) (hexponent : IsExponent exponent) :
    ∃ last, (whole ++ fraction ++ exponent).foldlM Digits.next? .sign = some last ∧
      last.mayEnd = true := by
  obtain ⟨part, hpart, hcases⟩ := foldlM_whole hwhole
  obtain ⟨next, hnext, hcases⟩ := foldlM_fraction hfraction hcases
  obtain ⟨last, hlast, hend⟩ := foldlM_exponent hexponent hcases
  refine ⟨last, ?_, hend⟩
  rw [List.foldlM_append, List.foldlM_append, hpart, Option.bind_eq_bind, Option.bind_some, hnext]
  exact hlast

/-! ### Values -/

/-- Whether a text begins with a character that is neither white space nor the end of a list. -/
def Opens (t : Text) : Prop := ∃ c rest, t = c :: rest ∧ isSpace c = false ∧ c ≠ ']'

/-- Whether a value has been read. A number goes on until the next character shows that it has
ended. -/
def Completes (frames : List Frame) (v : Value) (s : State) : Prop :=
  s = ⟨frames, .done v⟩ ∨
    ∃ part read, s = ⟨frames, .number part read⟩ ∧ part.mayEnd = true ∧ v = .number read.reverse

/-- No number goes on with what may follow a value. -/
theorem next?_eq_none (part : Digits) {c : Char}
    (hc : isSpace c = true ∨ c ∈ [',', ']', '\x7d']) : part.next? c = none := by
  simp only [isSpace, Bool.or_eq_true, beq_iff_eq, List.mem_cons, List.not_mem_nil, or_false] at hc
  rcases hc with (((rfl | rfl) | rfl) | rfl) | rfl | rfl | rfl <;>
    cases part <;> rfl

/-- Behind a complete value comes what may follow it. -/
theorem Completes.step {frames : List Frame} {v : Value} {s : State} (h : Completes frames v s)
    {c : Char} (hc : isSpace c = true ∨ c ∈ [',', ']', '\x7d']) :
    Json.step s c = stepDone frames v c := by
  rcases h with rfl | ⟨part, read, rfl, hend, rfl⟩
  · rfl
  · simp [Json.step, next?_eq_none part hc, hend]

theorem Completes.finish {v : Value} {s : State} (h : Completes [] v s) :
    Json.finish s = some v := by
  rcases h with rfl | ⟨part, read, rfl, hend, rfl⟩
  · rfl
  · simp [Json.finish, hend]

/-- White space behind a complete value leaves it complete. -/
theorem Completes.run_blank {frames : List Frame} {v : Value} {s : State}
    (h : Completes frames v s) {b : Text} (hb : Blank b) :
    ∃ s', run s b = some s' ∧ Completes frames v s' := by
  cases b with
  | nil => exact ⟨s, rfl, h⟩
  | cons c b =>
    have hc := hb c List.mem_cons_self
    refine ⟨⟨frames, .done v⟩, ?_, Or.inl rfl⟩
    have hstep : Json.step s c = some ⟨frames, .done v⟩ := by
      rw [h.step (Or.inl hc), stepDone, if_pos hc]
    have hrest : run ⟨frames, .done v⟩ (b ++ []) = run ⟨frames, .done v⟩ [] :=
      Json.run_blank (fun d hd => by simp [Json.step, stepDone, hd])
        (fun d hd => hb d (List.mem_cons_of_mem _ hd)) []
    rw [List.append_nil] at hrest
    rw [run_cons, hstep, Option.bind_some, hrest]
    rfl

/-- A mark behind a complete value says how it goes on in the innermost list or object. -/
theorem Completes.run_mark {frames : List Frame} {v : Value} {s : State}
    (h : Completes frames v s) {c : Char} (hc : c ∈ [',', ']', '\x7d']) (t : Text) :
    run s (c :: t) = (afterValue frames v c).bind (run · t) := by
  have hspace : isSpace c = false := by
    simp only [List.mem_cons, List.not_mem_nil, or_false] at hc
    rcases hc with rfl | rfl | rfl <;> rfl
  rw [run_cons, h.step (Or.inr hc), stepDone, hspace, if_neg Bool.false_ne_true]

/-- Whether the reader takes a text for what it is written for: for a value wherever a value
begins, for the items of a list from its opening bracket or from a comma to its closing bracket, and
for the members of an object likewise. -/
def Accepts : Part → Text → Prop
  | .value v, t => Opens t ∧ ∀ frames, ∃ s, run ⟨frames, .value⟩ t = some s ∧ Completes frames v s
  | .items items, t => ∀ frames before mode, mode = .value ∨ mode = .itemOrEnd →
    run ⟨.items before :: frames, mode⟩ (t ++ [']']) =
      some ⟨frames, .done (.array (before.reverse ++ items))⟩
  | .members members, t =>
    ∀ frames before mode, mode = .name before ∨ before = [] ∧ mode = .nameOrEnd →
    run ⟨frames, mode⟩ (t ++ ['\x7d']) =
      some ⟨frames, .done (.object (before.reverse ++ members))⟩

/-- A value is read with the white space around it. -/
theorem Accepts.run_spaced {v : Value} {a t b : Text} (h : Accepts (.value v) t) (ha : Blank a)
    (hb : Blank b) {mode : Mode} (hmode : mode = .value ∨ mode = .itemOrEnd)
    (frames : List Frame) :
    ∃ s, run ⟨frames, mode⟩ (a ++ t ++ b) = some s ∧ Completes frames v s := by
  obtain ⟨⟨c, rest, rfl, hspace, hend⟩, hrun⟩ := h
  obtain ⟨s, hs, hcompletes⟩ := hrun frames
  obtain ⟨s', hs', hcompletes'⟩ := hcompletes.run_blank hb
  refine ⟨s', ?_, hcompletes'⟩
  have hblank : run ⟨frames, mode⟩ (a ++ (c :: rest ++ b)) =
      run ⟨frames, mode⟩ (c :: rest ++ b) := by
    refine run_blank (fun d hd => ?_) ha _
    rcases hmode with rfl | rfl <;> simp [step, hd]
  have hfirst : run ⟨frames, mode⟩ (c :: rest) = run ⟨frames, .value⟩ (c :: rest) := by
    rw [run_cons, run_cons]
    rcases hmode with rfl | rfl <;> simp [step, hspace, hend]
  rw [List.append_assoc, hblank, run_append, hfirst, hs, Option.bind_some, hs']

theorem opens_of_cons {c : Char} {t : Text} (hspace : isSpace c = false) (hend : c ≠ ']') :
    Opens (c :: t) := ⟨c, t, rfl, hspace, hend⟩

/-- The first digit of a number begins a value. -/
theorem step_digit {c : Char} (hc : c.isDigit = true) (frames : List Frame) :
    isSpace c = false ∧ c ≠ ']' ∧ ∃ part, Digits.sign.next? c = some part ∧
      step ⟨frames, .value⟩ c = some ⟨frames, .number part [c]⟩ := by
  have hother : ∀ d : Char, d.isDigit = false → c ≠ d := by
    rintro d hd rfl
    rw [hc] at hd
    cases hd
  have hspace : isSpace c = false := by
    simp [isSpace, hother ' ' rfl, hother '\t' rfl, hother '\n' rfl, hother '\r' rfl]
  refine ⟨hspace, hother ']' rfl, if c = '0' then .zero else .whole, ?_, ?_⟩
  · rw [Digits.next?, apply_ite some, if_pos hc]
  · simp only [step, hspace, beginValue, hother '"' rfl, hother '[' rfl, hother '\x7b' rfl,
      hother '-' rfl, hc]
    by_cases hzero : c = '0' <;> simp [hzero]

/-- A number is read wherever a value begins. -/
theorem accepts_number {t : Text} (h : IsNumber t) : Accepts (.value (.number t)) t := by
  obtain ⟨sign, whole, fraction, exponent, hsign, hwhole, hfraction, hexponent, rfl⟩ := h
  obtain ⟨last, hlast, hend⟩ := foldlM_number hwhole hfraction hexponent
  simp only [List.mem_cons, List.not_mem_nil, or_false] at hsign
  rcases hsign with rfl | rfl
  · obtain ⟨c, rest, hcons, hc⟩ : ∃ c rest, whole ++ fraction ++ exponent = c :: rest ∧
        c.isDigit = true := by
      rcases hwhole with rfl | ⟨⟨hne, hdigits⟩, -⟩
      · exact ⟨'0', _, rfl, rfl⟩
      · cases whole with
        | nil => exact absurd rfl hne
        | cons c rest => exact ⟨c, _, rfl, hdigits c List.mem_cons_self⟩
    rw [List.nil_append, hcons]
    rw [hcons] at hlast
    obtain ⟨hspace, hbracket, -⟩ := step_digit hc []
    refine ⟨opens_of_cons hspace hbracket, fun frames => ?_⟩
    obtain ⟨-, -, part, hpart, hstep⟩ := step_digit hc frames
    rw [List.foldlM_cons, hpart] at hlast
    refine ⟨_, ?_, Or.inr ⟨last, rest.reverse ++ [c], rfl, hend, by simp⟩⟩
    rw [run_cons, hstep, Option.bind_some]
    exact run_number hlast frames [c]
  · rw [List.append_assoc, List.append_assoc, ← List.append_assoc whole]
    refine ⟨opens_of_cons rfl (by decide), fun frames => ?_⟩
    refine ⟨_, run_number hlast frames ['-'], Or.inr ⟨last, _, rfl, hend, by simp⟩⟩

theorem accepts_string {s : Str} {t : Text} (h : SpellsString s t) :
    Accepts (.value (.string s)) t := by
  obtain ⟨body, hbody, rfl⟩ := h
  refine ⟨opens_of_cons rfl (by decide), fun frames => ⟨_, ?_, Or.inl rfl⟩⟩
  rw [run_cons]
  change run ⟨frames, .string .value []⟩ _ = _
  rw [run_string hbody, endString, List.reverse_reverse]

/-- A member is read from its name to its value. -/
theorem run_member {name : Str} {v : Value} {a s b c t d : Text} (ha : Blank a)
    (hs : SpellsString name s) (hb : Blank b) (hc : Blank c) (h : Accepts (.value v) t)
    (hd : Blank d) {frames : List Frame} {before : List (Str × Value)} {mode : Mode}
    (hmode : mode = .name before ∨ before = [] ∧ mode = .nameOrEnd) :
    ∃ state, run ⟨frames, mode⟩ (a ++ s ++ b ++ ':' :: (c ++ t ++ d)) = some state ∧
      Completes (.member before name :: frames) v state := by
  obtain ⟨body, hbody, rfl⟩ := hs
  obtain ⟨state, hstate, hcompletes⟩ :=
    h.run_spaced hc hd (Or.inl rfl) (.member before name :: frames)
  refine ⟨state, ?_, hcompletes⟩
  have hblank : ∀ rest, run ⟨frames, mode⟩ (a ++ rest) = run ⟨frames, mode⟩ rest := by
    refine fun rest => run_blank (fun d hd => ?_) ha rest
    rcases hmode with rfl | ⟨rfl, rfl⟩ <;> simp [step, hd]
  have hquote : step ⟨frames, mode⟩ '"' = some ⟨frames, .string (.name before) []⟩ := by
    rcases hmode with rfl | ⟨rfl, rfl⟩ <;> rfl
  have hcolon : run ⟨frames, .colon before name⟩ (b ++ ':' :: (c ++ t ++ d)) =
      run ⟨.member before name :: frames, .value⟩ (c ++ t ++ d) := by
    rw [run_blank (fun d hd => by simp [step, hd]) hb, run_cons]
    rfl
  rw [List.append_assoc, List.append_assoc, hblank, List.cons_append, run_cons, hquote,
    Option.bind_some, run_append, run_string hbody, Option.bind_some, endString,
    List.reverse_reverse, hcolon, hstate]

/-- The reader takes every text of the grammar for what it is written for. -/
theorem Spells.accepts {part : Part} {t : Text} (h : Spells part t) : Accepts part t := by
  induction h with
  | null | true | false =>
    exact ⟨opens_of_cons rfl (by decide), fun frames => ⟨_, rfl, Or.inl rfl⟩⟩
  | number h => exact accepts_number h
  | string h => exact accepts_string h
  | noItems ha =>
    refine ⟨opens_of_cons rfl (by decide), fun frames => ⟨_, ?_, Or.inl rfl⟩⟩
    rw [run_cons]
    change run ⟨.items [] :: frames, .itemOrEnd⟩ _ = _
    rw [run_blank (fun d hd => by simp [step, hd]) ha]
    rfl
  | array _ ih =>
    exact ⟨opens_of_cons rfl (by decide), fun frames =>
      ⟨_, ih frames [] .itemOrEnd (Or.inr rfl), Or.inl rfl⟩⟩
  | noMembers ha =>
    refine ⟨opens_of_cons rfl (by decide), fun frames => ⟨_, ?_, Or.inl rfl⟩⟩
    rw [run_cons]
    change run ⟨frames, .nameOrEnd⟩ _ = _
    rw [run_blank (fun d hd => by simp [step, hd]) ha]
    rfl
  | object _ ih =>
    exact ⟨opens_of_cons rfl (by decide), fun frames =>
      ⟨_, ih frames [] .nameOrEnd (Or.inr ⟨rfl, rfl⟩), Or.inl rfl⟩⟩
  | @lastItem v a t b ha _ hb ih =>
    intro frames before mode hmode
    obtain ⟨s, hs, hcompletes⟩ := ih.run_spaced ha hb hmode (.items before :: frames)
    rw [run_append, hs, Option.bind_some, hcompletes.run_mark (by decide)]
    simp [afterValue, run]
  | @item v items a t b rest ha _ hb _ ih ihrest =>
    intro frames before mode hmode
    obtain ⟨s, hs, hcompletes⟩ := ih.run_spaced ha hb hmode (.items before :: frames)
    rw [List.append_assoc, run_append, hs, Option.bind_some, List.cons_append,
      hcompletes.run_mark (by decide)]
    change run ⟨.items (v :: before) :: frames, .value⟩ _ = _
    rw [ihrest frames (v :: before) .value (Or.inl rfl)]
    simp
  | @lastMember name v a s b c t d ha hs hb hc _ hd ih =>
    intro frames before mode hmode
    obtain ⟨state, hstate, hcompletes⟩ := run_member ha hs hb hc ih hd hmode
    rw [run_append, hstate, Option.bind_some, hcompletes.run_mark (by decide)]
    simp [afterValue, run]
  | @member name v members a s b c t d rest ha hs hb hc _ hd _ ih ihrest =>
    intro frames before mode hmode
    obtain ⟨state, hstate, hcompletes⟩ := run_member ha hs hb hc ih hd hmode
    have hcut : a ++ s ++ b ++ ':' :: (c ++ t ++ d ++ ',' :: rest) ++ ['\x7d'] =
        a ++ s ++ b ++ ':' :: (c ++ t ++ d) ++ ',' :: (rest ++ ['\x7d']) := by simp
    rw [hcut, run_append, hstate, Option.bind_some, hcompletes.run_mark (by decide)]
    change run ⟨frames, .name ((name, v) :: before)⟩ _ = _
    rw [ihrest frames ((name, v) :: before) _ (Or.inl rfl)]
    simp

/-- A text describes the value that it is written for. -/
theorem Written.parse {v : Value} {t : Text} (h : Written v t) : parse t = some v := by
  obtain ⟨a, u, b, ha, hu, hb, rfl⟩ := h
  obtain ⟨s, hs, hcompletes⟩ := hu.accepts.run_spaced ha hb (Or.inl rfl) []
  rw [Json.parse, start, hs, Option.bind_some, hcompletes.finish]

end StyleDocs.Json
