import StyleDocs.Proofs.Text.Strip

/-!
# What lower case does not notice

Lower case looks at a character and, for a sigma, at the letters with case around it and the
characters that case rules look through. A change of characters that keeps these two classes and the
sigmas therefore commutes with lower case, wherever in the text it is made. The change of an ASCII
capital to its small letter is of this kind, and so is the choice between hyphen and underscore.
What lower case has written it leaves as it is: no small letter of the table is a capital of it.
-/

namespace StyleDocs.Text

/-! ### Changes of characters -/

/-- A change `before` lower case amounts to the change `behind` it. -/
structure PassesLower (before behind : Char → Char) : Prop where
  /-- Letters with case stay such, and others do not become letters with case. -/
  cased : ∀ c, isCased (before c) = isCased c
  /-- Case rules look through the same characters. -/
  ignorable : ∀ c, isCaseIgnorable (before c) = isCaseIgnorable c
  /-- The sigmas stay where they are. -/
  sigma : ∀ c, before c = 'Σ' ↔ c = 'Σ'
  /-- Characters that stand alone. -/
  char : ∀ c, lowerChar (before c) = (lowerChar c).map behind
  /-- The sigma at the end of a word. -/
  final : behind 'ς' = 'ς'
  /-- The sigma elsewhere. -/
  inner : behind 'σ' = 'σ'

namespace PassesLower

variable {before behind : Char → Char}

theorem meetsCased_map (h : PassesLower before behind) (t : Text) :
    meetsCased (t.map before) = meetsCased t := by
  have hignorable : isCaseIgnorable ∘ before = isCaseIgnorable := funext h.ignorable
  rw [meetsCased, List.dropWhile_map, hignorable, List.head?_map, Option.any_map]
  simp only [h.cased, meetsCased]

theorem lowerForm_map (h : PassesLower before behind) (front : Text) (c : Char) (back : Text) :
    lowerForm (front.map before) (before c) (back.map before) =
      (lowerForm front c back).map behind := by
  unfold lowerForm
  rw [h.meetsCased_map, h.meetsCased_map]
  by_cases hc : c = 'Σ'
  · rw [if_pos ((h.sigma c).2 hc), if_pos hc]
    split
    · rw [List.map_singleton, h.final]
    · rw [List.map_singleton, h.inner]
  · rw [if_neg (mt (h.sigma c).1 hc), if_neg hc]
    exact h.char c

theorem lowerAfter_map (h : PassesLower before behind) (front t : Text) :
    lowerAfter (front.map before) (t.map before) = (lowerAfter front t).map behind := by
  induction t generalizing front with
  | nil => rfl
  | cons c t ih =>
    rw [List.map_cons, lowerAfter_cons, lowerAfter_cons, h.lowerForm_map, List.map_append,
      ← List.map_cons, ih]

/-- The change may be made before or behind lower case. -/
theorem lower_map (h : PassesLower before behind) (t : Text) :
    lower (t.map before) = (lower t).map behind := h.lowerAfter_map [] t

/-- One character may be written for another if neither has case, neither is looked through and no
other character has the first as its lower-case form. -/
theorem replace {a b : Char} (hkept : KeptByLower (· == a)) (ha : lowerChar a = [a])
    (hb : lowerChar b = [b]) (hcased : isCased b = isCased a)
    (hignorable : isCaseIgnorable b = isCaseIgnorable a)
    (hsigma : a ∉ ['Σ', 'ς', 'σ']) (hsigma' : b ≠ 'Σ') :
    PassesLower (fun c => if c = a then b else c) fun c => if c = a then b else c where
  cased c := by
    split
    · next hc => rw [hcased, hc]
    · rfl
  ignorable c := by
    split
    · next hc => rw [hignorable, hc]
    · rfl
  sigma c := by
    have ha : a ≠ 'Σ' := fun heq => hsigma (by simp [heq])
    split
    · next hc => simp [hc, ha, hsigma']
    · rfl
  char c := by
    by_cases hc : c = a
    · simp [hc, ha, hb]
    · have hnot : ∀ d ∈ lowerChar c, (if d = a then b else d) = d := fun d hd =>
        if_neg fun hda => hc (by simpa [hda] using hkept.char c d hd)
      rw [if_neg hc, List.map_congr_left hnot, List.map_id']
  final := if_neg fun heq => hsigma (by simp [heq.symm])
  inner := if_neg fun heq => hsigma (by simp [heq.symm])

end PassesLower

/-- Small letters may be written for the ASCII capitals: lower case does so itself. -/
theorem passesLower_toLower : PassesLower Char.toLower id := by
  have hother : ∀ c : Char, ¬ c.toNat < 128 → c.toLower = c := fun c hc =>
    toLower_eq_self (by omega)
  have hsmall : ∀ c : Char, c.toNat < 128 → lowerChar c.toLower = lowerChar c := fun c hc =>
    forall_ascii (P := fun c => lowerChar c.toLower = lowerChar c) (by decide) hc
  refine ⟨fun c => ?_, fun c => ?_, fun c => ?_, fun c => ?_, rfl, rfl⟩
  · by_cases hc : c.toNat < 128
    · exact forall_ascii (P := fun c => isCased c.toLower = isCased c) (by decide) hc
    · rw [hother c hc]
  · by_cases hc : c.toNat < 128
    · exact forall_ascii (P := fun c => isCaseIgnorable c.toLower = isCaseIgnorable c)
        (by decide) hc
    · rw [hother c hc]
  · by_cases hc : c.toNat < 128
    · exact forall_ascii (P := fun c => c.toLower = 'Σ' ↔ c = 'Σ') (by decide) hc
    · rw [hother c hc]
  · rw [List.map_id]
    by_cases hc : c.toNat < 128
    · exact hsmall c hc
    · rw [hother c hc]

/-- The case of ASCII letters does not matter to lower case. -/
theorem lower_map_toLower (t : Text) : lower (t.map Char.toLower) = lower t := by
  rw [passesLower_toLower.lower_map, List.map_id]

/-- The underscore has no case and is not the lower-case form of anything else. -/
theorem keptByLower_underscore : KeptByLower (· == '_') := by
  refine .of_members [0x5F] ?_ (by decide) (by decide +kernel) (by decide) (by decide) (by decide)
    (by decide)
  intro c hc
  rw [beq_iff_eq.1 hc]
  decide

/-- Hyphens may be written for underscores before or behind lower case. -/
theorem lower_hyphens (t : Text) :
    lower (replaceChar '_' '-' t) = replaceChar '_' '-' (lower t) :=
  (PassesLower.replace keptByLower_underscore (by decide) (by decide) (by decide) (by decide)
    (by decide) (by decide)).lower_map t

/-! ### Lower case twice -/

/-- A small letter, or a character without case: lower case leaves it as it is. -/
def IsSmall (c : Char) : Prop := c ≠ 'Σ' ∧ lowerChar c = [c]

instance (c : Char) : Decidable (IsSmall c) :=
  inferInstanceAs (Decidable (c ≠ 'Σ' ∧ lowerChar c = [c]))

/-- The runs of all capitals: those of the table, the ASCII capitals and the dotted capital I, the
last with the plain letter as its target. -/
def allCapitals : List CaseRun :=
  ⟨0x41, 0x5A, 1, 0x61⟩ :: ⟨0x130, 0x130, 1, 0x69⟩ :: capitalRuns

/-- Whether no small letter of the first run can be a capital of the second: the letters lie in
different places, or they alternate. -/
def CaseRun.misses (r s : CaseRun) : Bool :=
  (r.target + (r.last - r.first)).blt s.first || s.last.blt r.target
    || (r.first == r.last || r.step == 2) && s.step == 2 && (r.target + s.first) % 2 == 1

theorem holds_eq_false_of_misses {r s : CaseRun} (h : r.misses s = true) {n : Nat}
    (hn : r.holds n = true) : s.holds (n - r.first + r.target) = false := by
  rw [← Bool.not_eq_true]
  intro hs
  simp only [CaseRun.holds, Bool.and_eq_true, decide_eq_true_eq, beq_iff_eq] at hn hs
  simp only [CaseRun.misses, Bool.or_eq_true, Bool.and_eq_true, Nat.blt_eq, beq_iff_eq] at h
  rcases h with (hbefore | hbehind) | ⟨⟨hone | hr, hstep⟩, hodd⟩
  · omega
  · omega
  · rw [hstep] at hs
    omega
  · rw [hr] at hn
    rw [hstep] at hs
    omega

/-- No small letter of the table is a capital. -/
theorem misses_capitals :
    (capitalRuns.all fun r => allCapitals.all fun s => r.misses s) = true := by decide +kernel

/-- A character that no run of capitals holds is small. -/
theorem isSmall_of_no_capital {c : Char} (h : ∀ s ∈ allCapitals, s.holds c.toNat = false) :
    IsSmall c := by
  have hcapital : ¬ (65 ≤ c.toNat ∧ c.toNat ≤ 90) := by
    have hascii := h ⟨0x41, 0x5A, 1, 0x61⟩ (by simp [allCapitals])
    simpa [CaseRun.holds, Nat.mod_one] using hascii
  have hdotted : c ≠ 'İ' := by
    rintro rfl
    exact absurd (h ⟨0x130, 0x130, 1, 0x69⟩ (by simp [allCapitals])) (by decide)
  have hcode : lowerCode c.toNat = c.toNat := by
    have hnone : capitalRuns.find? (·.holds c.toNat) = none := by
      refine List.find?_eq_none.2 fun s hs => ?_
      rw [h s (List.mem_cons_of_mem _ (List.mem_cons_of_mem _ hs))]
      exact Bool.false_ne_true
    rw [lowerCode, hnone]
  refine ⟨?_, ?_⟩
  · rintro rfl
    exact absurd hcode (by decide)
  · unfold lowerChar
    split
    · rw [toLower_eq_self hcapital]
    · rw [hcode, Char.ofNat_toNat]

/-- What the table gives for a character outside ASCII is small. -/
theorem isSmall_lowerCode {c : Char} (hsigma : c ≠ 'Σ') (hdotted : c ≠ 'İ')
    (hascii : ¬ c.toNat < 128) : IsSmall (Char.ofNat (lowerCode c.toNat)) := by
  cases hrun : capitalRuns.find? (·.holds c.toNat) with
  | none =>
    have hcode : lowerCode c.toNat = c.toNat := by rw [lowerCode, hrun]
    rw [hcode, Char.ofNat_toNat]
    exact ⟨hsigma, by simp [lowerChar, hascii, hdotted, hcode]⟩
  | some r =>
    have hholds : r.holds c.toNat = true := by simpa using List.find?_some hrun
    have hcode : lowerCode c.toNat = c.toNat - r.first + r.target := by rw [lowerCode, hrun]
    rw [hcode]
    rcases toNat_ofNat_cases (c.toNat - r.first + r.target) with hn | hnull
    · refine isSmall_of_no_capital fun s hs => ?_
      have hmisses := List.all_eq_true.1 misses_capitals r (List.mem_of_find?_eq_some hrun)
      rw [hn]
      exact holds_eq_false_of_misses (List.all_eq_true.1 hmisses s hs) hholds
    · rw [show Char.ofNat (c.toNat - r.first + r.target) = '\x00' from Char.toNat_inj.1 hnull]
      decide

theorem isSmall_of_all {c d : Char} (h : ((lowerChar c).all fun d => decide (IsSmall d)) = true)
    (hd : d ∈ lowerChar c) : IsSmall d := of_decide_eq_true (List.all_eq_true.1 h d hd)

/-- Lower case writes small letters. -/
theorem isSmall_of_mem_lowerForm {front : Text} {c : Char} {back : Text} {d : Char}
    (hd : d ∈ lowerForm front c back) : IsSmall d := by
  unfold lowerForm at hd
  split at hd
  · split at hd <;> rw [List.mem_singleton.1 hd] <;> decide
  · next hsigma =>
    by_cases hascii : c.toNat < 128
    · have hall := forall_ascii
        (P := fun c => ((lowerChar c).all fun d => decide (IsSmall d)) = true) (by decide) hascii
      exact isSmall_of_all hall hd
    · by_cases hdotted : c = 'İ'
      · subst hdotted
        exact isSmall_of_all (by decide) hd
      · have hform : lowerChar c = [Char.ofNat (lowerCode c.toNat)] := by
          simp [lowerChar, hascii, hdotted]
        rw [hform] at hd
        rw [List.mem_singleton.1 hd]
        exact isSmall_lowerCode hsigma hdotted hascii

theorem lowerAfter_eq_self {t : Text} (h : ∀ c ∈ t, IsSmall c) (front : Text) :
    lowerAfter front t = t := by
  induction t generalizing front with
  | nil => rfl
  | cons c t ih =>
    obtain ⟨hsigma, hchar⟩ := h c List.mem_cons_self
    rw [lowerAfter_cons, lowerForm, if_neg hsigma, hchar,
      ih fun d hd => h d (List.mem_cons_of_mem _ hd)]
    rfl

theorem isSmall_of_mem_lowerAfter {front t : Text} {d : Char} (hd : d ∈ lowerAfter front t) :
    IsSmall d := by
  induction t generalizing front with
  | nil => cases hd
  | cons c t ih =>
    rw [lowerAfter_cons] at hd
    rcases List.mem_append.1 hd with hd | hd
    · exact isSmall_of_mem_lowerForm hd
    · exact ih hd

/-- Lower case leaves what it has written as it is. -/
theorem lower_lower (t : Text) : lower (lower t) = lower t :=
  lowerAfter_eq_self (fun _ => isSmall_of_mem_lowerAfter) []

end StyleDocs.Text
