import StyleDocs.Text.Blank
import StyleDocs.Text.LowerCase

/-!
# What lower case keeps

Lower case maps letters to letters, so a class of characters that no letter enters or leaves, such
as white space or the hyphen, is kept: a text has members of the class where its lower-case form
has them. Whether a class is kept is settled by the ASCII letters and the table of capitals. On
texts of ASCII characters lower case acts character by character.
-/

namespace StyleDocs.Text

/-- What lower case writes for a character with `before` in front of it, the nearest character
first, and `behind` following it. -/
def lowerForm (before : Text) (c : Char) (behind : Text) : Text :=
  if c = 'Σ' then if meetsCased before && !meetsCased behind then ['ς'] else ['σ']
  else lowerChar c

theorem lowerAfter_cons (before : Text) (c : Char) (behind : Text) :
    lowerAfter before (c :: behind) =
      lowerForm before c behind ++ lowerAfter (c :: before) behind := rfl

theorem lowerChar_ne_nil (c : Char) : lowerChar c ≠ [] := by
  unfold lowerChar
  split
  · simp
  · split <;> simp

theorem lowerForm_ne_nil (before : Text) (c : Char) (behind : Text) :
    lowerForm before c behind ≠ [] := by
  unfold lowerForm
  split
  · split <;> simp
  · exact lowerChar_ne_nil c

/-- Lower case keeps a class of characters when the lower-case form of each character lies in the
class exactly when the character does. -/
structure KeptByLower (p : Char → Bool) : Prop where
  /-- Characters that stand alone. -/
  char : ∀ c, ∀ d ∈ lowerChar c, p d = p c
  /-- The sigma at the end of a word. -/
  final : p 'ς' = p 'Σ'
  /-- The sigma elsewhere. -/
  inner : p 'σ' = p 'Σ'

/-- The lower-case code point of a character outside ASCII is its own, or lies as far behind the
target of a run of capitals as the character behind the first of the run. -/
theorem lowerCode_cases (n : Nat) :
    lowerCode n = n ∨ ∃ r ∈ capitalRuns, r.first ≤ n ∧ n ≤ r.last ∧
      lowerCode n = n - r.first + r.target := by
  unfold lowerCode
  split
  · next r hr =>
    have hholds := List.find?_some hr
    simp only [CaseRun.holds, Bool.and_eq_true, decide_eq_true_eq] at hholds
    exact Or.inr ⟨r, List.mem_of_find?_eq_some hr, hholds.1.1, hholds.1.2, rfl⟩
  · exact Or.inl rfl

/-- Reading a code point gives a character with that code point, or the null character. -/
theorem toNat_ofNat_cases (n : Nat) : (Char.ofNat n).toNat = n ∨ (Char.ofNat n).toNat = 0 := by
  by_cases h : n.isValidChar
  · have hchar : Char.ofNat n = Char.ofNatAux n h := dif_pos h
    rw [hchar]
    exact Or.inl rfl
  · exact Or.inr (congrArg Char.toNat (dif_neg h : Char.ofNat n = _))

/-- Whether the code point lies between the capitals of the run or between their lower-case
forms. -/
def CaseRun.spans (r : CaseRun) (n : Nat) : Bool :=
  (r.first ≤ n && n ≤ r.last) || (r.target ≤ n && n ≤ r.target + (r.last - r.first))

/-- A class of a few characters is kept when ASCII letters neither enter nor leave it, no run of
capitals comes near it and the letters with rules of their own are outside. -/
theorem KeptByLower.of_members {p : Char → Bool} (members : List Nat)
    (hmem : ∀ c, p c = true → c.toNat ∈ members) (hnull : 0 ∉ members)
    (hruns : (members.all fun n => capitalRuns.all fun r => !r.spans n) = true)
    (hascii : ∀ n : Fin 128, p (Char.ofNat n).toLower = p (Char.ofNat n))
    (hdotted : p 'i' = p 'İ' ∧ p '\u0307' = p 'İ') (hfinal : p 'ς' = p 'Σ')
    (hinner : p 'σ' = p 'Σ') : KeptByLower p where
  char c d hd := by
    have hfar : ∀ e : Char, ∀ r ∈ capitalRuns, r.spans e.toNat = true → p e = false := by
      intro e r hr hspans
      refine Bool.eq_false_iff.2 fun hp => ?_
      have hall := List.all_eq_true.1 hruns e.toNat (hmem e hp)
      simpa [hspans] using List.all_eq_true.1 hall r hr
    unfold lowerChar at hd
    split at hd
    · next hc =>
      rw [List.mem_singleton.1 hd]
      simpa using hascii ⟨c.toNat, hc⟩
    · split at hd
      · next hc =>
        subst hc
        rcases List.mem_cons.1 hd with rfl | hd
        · exact hdotted.1
        · rw [List.mem_singleton.1 hd]
          exact hdotted.2
      · rw [List.mem_singleton.1 hd]
        rcases lowerCode_cases c.toNat with h | ⟨r, hr, hfirst, hlast, hcode⟩
        · rw [h, Char.ofNat_toNat]
        · have hspans : r.spans c.toNat = true := by simp [CaseRun.spans, hfirst, hlast]
          rw [hfar c r hr hspans, hcode]
          rcases toNat_ofNat_cases (c.toNat - r.first + r.target) with h | h
          · refine hfar _ r hr ?_
            simp only [CaseRun.spans, h, Bool.or_eq_true, Bool.and_eq_true, decide_eq_true_eq]
            omega
          · refine Bool.eq_false_iff.2 fun hp => hnull ?_
            simpa [h] using hmem _ hp
  final := hfinal
  inner := hinner

/-- The characters outside a class that lower case keeps are kept too. -/
theorem KeptByLower.not {p : Char → Bool} (hp : KeptByLower p) : KeptByLower fun c => !p c where
  char c d hd := by rw [hp.char c d hd]
  final := by rw [hp.final]
  inner := by rw [hp.inner]

/-- White space has no case. -/
theorem keptByLower_isBlank : KeptByLower isBlank := by
  refine .of_members [9, 10, 11, 12, 13, 0x20, 0x85, 0xA0, 0x1680, 0x2000, 0x2001, 0x2002, 0x2003,
    0x2004, 0x2005, 0x2006, 0x2007, 0x2008, 0x2009, 0x200A, 0x2028, 0x2029, 0x202F, 0x205F, 0x3000]
    ?_ (by decide) (by decide +kernel) (by decide) (by decide) (by decide) (by decide)
  intro c hc
  simp only [isBlank, Bool.or_eq_true, Bool.and_eq_true, decide_eq_true_eq, beq_iff_eq] at hc
  simp only [List.mem_cons, List.not_mem_nil, or_false]
  omega

/-- The hyphen has no case and is not the lower-case form of anything else. -/
theorem keptByLower_hyphen : KeptByLower (· == '-') := by
  refine .of_members [0x2D] ?_ (by decide) (by decide +kernel) (by decide) (by decide) (by decide)
    (by decide)
  intro c hc
  rw [beq_iff_eq.1 hc]
  decide

namespace KeptByLower

variable {p : Char → Bool}

theorem form (hp : KeptByLower p) {before behind : Text} {c d : Char}
    (hd : d ∈ lowerForm before c behind) : p d = p c := by
  unfold lowerForm at hd
  split at hd
  · next hc =>
    subst hc
    split at hd
    · rw [List.mem_singleton.1 hd]
      exact hp.final
    · rw [List.mem_singleton.1 hd]
      exact hp.inner
  · exact hp.char c d hd

/-- A character whose form begins with one of the class is of the class itself, and conversely. -/
theorem head?_form (hp : KeptByLower p) (before : Text) (c : Char) (behind more : Text) :
    (lowerForm before c behind ++ more).head?.any p = p c := by
  obtain ⟨d, rest, h⟩ := List.exists_cons_of_ne_nil (lowerForm_ne_nil before c behind)
  have hmem : d ∈ lowerForm before c behind := by simp [h]
  simp [h, hp.form hmem]

theorem any_lowerAfter (hp : KeptByLower p) (before t : Text) :
    (lowerAfter before t).any p = t.any p := by
  induction t generalizing before with
  | nil => rfl
  | cons c t ih =>
    have hform : (lowerForm before c t).any p = p c := by
      obtain ⟨d, rest, h⟩ := List.exists_cons_of_ne_nil (lowerForm_ne_nil before c t)
      have hall : ∀ e ∈ lowerForm before c t, p e = p c := fun e he => hp.form he
      cases hc : p c with
      | true => exact List.any_eq_true.2 ⟨d, by simp [h], by rw [hall d (by simp [h]), hc]⟩
      | false => exact List.any_eq_false.2 fun e he => by simp [hall e he, hc]
    rw [lowerAfter_cons, List.any_append, hform, ih, List.any_cons]

/-- A text has a character of the class exactly when its lower-case form has one. -/
theorem any_lower (hp : KeptByLower p) (t : Text) : (lower t).any p = t.any p :=
  hp.any_lowerAfter [] t

/-- A text begins with a character of the class exactly when its lower-case form does. -/
theorem head?_lower (hp : KeptByLower p) (t : Text) : (lower t).head?.any p = t.head?.any p := by
  cases t with
  | nil => rfl
  | cons c t => simpa [lower, lowerAfter_cons] using hp.head?_form [] c t _

theorem getLast?_lowerAfter (hp : KeptByLower p) (before t : Text) :
    (lowerAfter before t).getLast?.any p = t.getLast?.any p := by
  induction t generalizing before with
  | nil => rfl
  | cons c t ih =>
    rw [lowerAfter_cons]
    cases t with
    | nil =>
      have hmem : (lowerForm before c []).getLast (lowerForm_ne_nil before c []) ∈
          lowerForm before c [] := List.getLast_mem _
      simp [lowerAfter, List.getLast?_eq_some_getLast (lowerForm_ne_nil before c []),
        hp.form hmem]
    | cons c' t =>
      have hne : lowerAfter (c :: before) (c' :: t) ≠ [] := by
        rw [lowerAfter_cons]
        simp [lowerForm_ne_nil]
      have hlast := List.getLast?_eq_some_getLast hne
      rw [List.getLast?_append, hlast, Option.some_or, ← hlast, ih, List.getLast?_cons_cons]

/-- A text ends with a character of the class exactly when its lower-case form does. -/
theorem getLast?_lower (hp : KeptByLower p) (t : Text) :
    (lower t).getLast?.any p = t.getLast?.any p := hp.getLast?_lowerAfter [] t

end KeptByLower

/-- A hyphen is in the lower-case form of a text exactly when it is in the text. -/
theorem hyphen_mem_lower_iff {t : Text} : '-' ∈ lower t ↔ '-' ∈ t := by
  have h := keptByLower_hyphen.any_lower t
  rw [Bool.eq_iff_iff] at h
  simpa using h

/-! ### ASCII -/

/-- A character that is no ASCII capital is its own small letter. -/
theorem toLower_eq_self {c : Char} (h : ¬ (65 ≤ c.toNat ∧ c.toNat ≤ 90)) : c.toLower = c :=
  dif_neg h

/-- What holds of the first 128 characters holds of every ASCII character. -/
theorem forall_ascii {P : Char → Prop} (h : ∀ n : Fin 128, P (Char.ofNat n)) {c : Char}
    (hc : c.toNat < 128) : P c := by
  simpa using h ⟨c.toNat, hc⟩

theorem lowerAfter_ascii {t : Text} (ht : ∀ c ∈ t, c.toNat < 128) (before : Text) :
    lowerAfter before t = t.map Char.toLower := by
  induction t generalizing before with
  | nil => rfl
  | cons c t ih =>
    have hc : c.toNat < 128 := ht c List.mem_cons_self
    have hsigma : c ≠ 'Σ' := by
      rintro rfl
      exact absurd hc (by decide)
    rw [lowerAfter_cons, ih fun d hd => ht d (List.mem_cons_of_mem _ hd)]
    simp [lowerForm, hsigma, lowerChar, hc]

/-- Lower case of an ASCII text needs no context. -/
theorem lower_ascii {t : Text} (ht : ∀ c ∈ t, c.toNat < 128) : lower t = t.map Char.toLower :=
  lowerAfter_ascii ht []

end StyleDocs.Text
