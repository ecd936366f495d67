import Mathlib.Algebra.Ring.Parity
import StyleDocs.Proofs.Markdown.Fence

/-!
# Which fences are partners

Fences are numbered from the top, and a fence with an even number opens code that the next one
closes. A line is fenced exactly when it stands between two such partners or is one of them. Whether
a fence has a partner is known only later, so a scan of the lines from the top marks what stands
behind an open fence and takes the marks back at the end; this gives the same flags.
-/

namespace StyleDocs.Markdown

open Text

/-- How many fences stand above line `i`. -/
def fencesAbove (lines : List Text) (i : Nat) : Nat := (lines.take i).countP isFence

/-- Line `i` is the fence with number `n`; the first fence has number zero. -/
def IsNumbered (lines : List Text) (n i : Nat) : Prop :=
  lines[i]?.any isFence = true ∧ fencesAbove lines i = n

/-! ### Counting fences -/

theorem countP_isFence_cons (line : Text) (lines : List Text) :
    (line :: lines).countP isFence = lines.countP isFence + (isFence line).toNat := by
  rw [List.countP_cons]
  cases isFence line <;> rfl

theorem fencesAbove_cons_succ (line : Text) (lines : List Text) (i : Nat) :
    fencesAbove (line :: lines) (i + 1) = fencesAbove lines i + (isFence line).toNat := by
  rw [fencesAbove, List.take_succ_cons, List.countP_cons, fencesAbove]
  cases isFence line <;> rfl

theorem fencesAbove_succ (lines : List Text) (i : Nat) :
    fencesAbove lines (i + 1) = fencesAbove lines i + (lines[i]?.any isFence).toNat := by
  rw [fencesAbove, List.take_add_one, List.countP_append, fencesAbove]
  cases lines[i]? with
  | none => rfl
  | some line =>
    rw [Option.toList_some, List.countP_singleton, Option.any_some]
    cases isFence line <;> rfl

theorem fencesAbove_mono (lines : List Text) {i j : Nat} (h : i ≤ j) :
    fencesAbove lines i ≤ fencesAbove lines j :=
  (List.take_sublist_take_left h).countP_le

theorem fencesAbove_le (lines : List Text) (i : Nat) :
    fencesAbove lines i ≤ lines.countP isFence :=
  (List.take_sublist i lines).countP_le

/-- Every number below the number of fences belongs to a fence. -/
theorem exists_isNumbered {lines : List Text} {n : Nat} (h : n < lines.countP isFence) :
    ∃ i, IsNumbered lines n i := by
  induction lines generalizing n with
  | nil => simp at h
  | cons line lines ih =>
    have hcount := countP_isFence_cons line lines
    by_cases hfirst : isFence line = true ∧ n = 0
    · refine ⟨0, ?_, hfirst.2.symm⟩
      rw [List.getElem?_cons_zero, Option.any_some, hfirst.1]
    · -- The fence is one of the rest, where its number is lower if the first line is a fence.
      obtain ⟨m, hm⟩ : ∃ m, n = m + (isFence line).toNat := by
        cases hline : isFence line with
        | false => exact ⟨n, rfl⟩
        | true =>
          have hpos : n ≠ 0 := fun hzero => hfirst ⟨hline, hzero⟩
          exact ⟨n - 1, by rw [Bool.toNat_true]; omega⟩
      obtain ⟨i, hfence, habove⟩ := ih (n := m) (by omega)
      refine ⟨i + 1, ?_, ?_⟩
      · rwa [List.getElem?_cons_succ]
      · rw [fencesAbove_cons_succ, habove, hm]

/-- The fence with a number stands at or above line `i` exactly when more fences stand there. -/
theorem exists_isNumbered_le_iff (lines : List Text) (n i : Nat) :
    (∃ j, IsNumbered lines n j ∧ j ≤ i) ↔ n < fencesAbove lines (i + 1) := by
  constructor
  · rintro ⟨j, ⟨hfence, habove⟩, hle⟩
    have hnext := fencesAbove_succ lines j
    have hmono := fencesAbove_mono lines (show j + 1 ≤ i + 1 by omega)
    rw [hfence, Bool.toNat_true] at hnext
    omega
  · intro hlt
    have htotal := fencesAbove_le lines (i + 1)
    have hn : n < lines.countP isFence := by omega
    obtain ⟨j, hfence, habove⟩ := exists_isNumbered hn
    refine ⟨j, ⟨hfence, habove⟩, ?_⟩
    by_contra hlower
    have hmono := fencesAbove_mono lines (show i + 1 ≤ j by omega)
    omega

/-- The fence with a number stands at or below line `i` exactly when there is one and not more
fences stand above the line. -/
theorem exists_isNumbered_ge_iff (lines : List Text) (n i : Nat) :
    (∃ j, IsNumbered lines n j ∧ i ≤ j) ↔
      fencesAbove lines i ≤ n ∧ n < lines.countP isFence := by
  constructor
  · rintro ⟨j, ⟨hfence, habove⟩, hle⟩
    have hnext := fencesAbove_succ lines j
    have hmono := fencesAbove_mono lines hle
    have htotal := fencesAbove_le lines (j + 1)
    rw [hfence, Bool.toNat_true] at hnext
    omega
  · rintro ⟨hle, hlt⟩
    obtain ⟨j, hfence, habove⟩ := exists_isNumbered hlt
    refine ⟨j, ⟨hfence, habove⟩, ?_⟩
    by_contra hupper
    have hnext := fencesAbove_succ lines j
    have hmono := fencesAbove_mono lines (show j + 1 ≤ i by omega)
    rw [hfence, Bool.toNat_true] at hnext
    omega

/-! ### Pairs -/

/-- Line `i` lies between the fence with number `2 * k` and its partner, both included, told by the
numbers of fences. The first argument counts fences above the lines. -/
def Enclosed (above : Nat) (lines : List Text) (i : Nat) : Prop :=
  ∃ k, 2 * k + 1 ≤ above + fencesAbove lines (i + 1) ∧ above + fencesAbove lines i ≤ 2 * k + 1 ∧
    2 * k + 2 ≤ above + lines.countP isFence

theorem enclosed_iff (lines : List Text) (i : Nat) :
    Enclosed 0 lines i ↔ ∃ k first second, IsNumbered lines (2 * k) first ∧
      IsNumbered lines (2 * k + 1) second ∧ first ≤ i ∧ i ≤ second := by
  constructor
  · rintro ⟨k, hfirst, hsecond, htotal⟩
    obtain ⟨a, ha, hle⟩ := (exists_isNumbered_le_iff lines (2 * k) i).2 (by omega)
    obtain ⟨b, hb, hge⟩ := (exists_isNumbered_ge_iff lines (2 * k + 1) i).2 (by omega)
    exact ⟨k, a, b, ha, hb, hle, hge⟩
  · rintro ⟨k, a, b, ha, hb, hle, hge⟩
    have hfirst := (exists_isNumbered_le_iff lines (2 * k) i).1 ⟨a, ha, hle⟩
    have hsecond := (exists_isNumbered_ge_iff lines (2 * k + 1) i).1 ⟨b, hb, hge⟩
    exact ⟨k, by omega, by omega, by omega⟩

/-- A fence in front of the lines is one more above them. -/
theorem enclosed_cons_succ (above : Nat) (line : Text) (lines : List Text) (i : Nat) :
    Enclosed above (line :: lines) (i + 1) ↔ Enclosed (above + (isFence line).toNat) lines i := by
  simp only [Enclosed, fencesAbove_cons_succ, countP_isFence_cons]
  refine exists_congr fun k => ?_
  omega

/-- A whole pair above the lines does not matter. -/
theorem enclosed_add_two (above : Nat) (lines : List Text) (i : Nat) :
    Enclosed (above + 2) lines i ↔ Enclosed above lines i := by
  constructor
  · rintro ⟨k, hfirst, hsecond, htotal⟩
    exact ⟨k - 1, by omega, by omega, by omega⟩
  · rintro ⟨k, hfirst, hsecond, htotal⟩
    exact ⟨k + 1, by omega, by omega, by omega⟩

/-- The first line is enclosed exactly when it ends an open pair or goes on in one that is closed
later, or opens a pair that is closed later. -/
theorem enclosed_cons_zero (inside : Bool) (line : Text) (rest : List Text) :
    Enclosed inside.toNat (line :: rest) 0 ↔
      1 ≤ inside.toNat + (isFence line).toNat ∧
        2 ≤ inside.toNat + (isFence line).toNat + rest.countP isFence := by
  have hzero : fencesAbove rest 0 = 0 := rfl
  have hfront : fencesAbove (line :: rest) 0 = 0 := rfl
  have hone : fencesAbove (line :: rest) (0 + 1) = (isFence line).toNat := by
    rw [fencesAbove_cons_succ, hzero, Nat.zero_add]
  have hinside := Bool.toNat_le inside
  have hline := Bool.toNat_le (isFence line)
  rw [Enclosed, hone, hfront, countP_isFence_cons]
  constructor
  · rintro ⟨k, hfirst, -, htotal⟩
    omega
  · rintro ⟨hfirst, htotal⟩
    exact ⟨0, by omega, by omega, by omega⟩

theorem fencedFrom_nil (inside : Bool) : fencedFrom inside [] = [] := rfl

/-- A fence with a partner, or a line that is no fence, is flagged by itself and hands on whether a
pair is open. -/
theorem fencedFrom_cons {inside : Bool} {line : Text} {rest : List Text}
    (h : isFence line = true → inside = true ∨ 1 ≤ rest.countP isFence) :
    fencedFrom inside (line :: rest) =
      (inside || isFence line) :: fencedFrom (inside ^^ isFence line) rest := by
  cases hline : isFence line with
  | false => simp [fencedFrom, hline]
  | true =>
    cases inside with
    | true => simp [fencedFrom, hline]
    | false =>
      have hpartner : rest.any isFence = true := by
        rw [List.any_eq_true, ← List.countP_pos_iff]
        exact (h hline).resolve_left (by decide)
      simp [fencedFrom, hline, hpartner]

/-- From a fence without a partner on, no line is fenced. -/
theorem fencedFrom_lone {line : Text} {rest : List Text} (hline : isFence line = true)
    (hrest : rest.countP isFence = 0) :
    fencedFrom false (line :: rest) = List.replicate (rest.length + 1) false := by
  have hlone : rest.any isFence = false := by
    rw [List.any_eq_false]
    exact List.countP_eq_zero.1 hrest
  simp [fencedFrom, hline, hlone, List.map_const', List.replicate_succ]

/-- A line is fenced exactly when it is enclosed. Inside a pair a partner is still to come. -/
theorem fencedFrom_eq_true_iff {inside : Bool} {lines : List Text}
    (h : inside = true → 1 ≤ lines.countP isFence) (i : Nat) :
    (fencedFrom inside lines)[i]? = some true ↔
      i < lines.length ∧ Enclosed inside.toNat lines i := by
  induction lines generalizing inside i with
  | nil => simp [fencedFrom_nil]
  | cons line rest ih =>
    rw [countP_isFence_cons] at h
    by_cases hpartner : isFence line = true → inside = true ∨ 1 ≤ rest.countP isFence
    · rw [fencedFrom_cons hpartner]
      cases i with
      | zero =>
        have hfirst := enclosed_cons_zero inside line rest
        rw [List.getElem?_cons_zero, Option.some_inj, hfirst]
        generalize isFence line = fence at h hpartner ⊢
        generalize rest.countP isFence = behind at h hpartner ⊢
        cases inside <;> cases fence <;> simp at h hpartner ⊢ <;> omega
      | succ i =>
        have hbehind : (inside ^^ isFence line) = true → 1 ≤ rest.countP isFence := by
          generalize isFence line = fence at h hpartner ⊢
          generalize rest.countP isFence = behind at h hpartner ⊢
          cases inside <;> cases fence <;> simp at h hpartner ⊢ <;> omega
        have hopen : Enclosed (inside ^^ isFence line).toNat rest i ↔
            Enclosed (inside.toNat + (isFence line).toNat) rest i := by
          cases inside <;> cases isFence line
          · rfl
          · rfl
          · rfl
          · exact (enclosed_add_two 0 rest i).symm
        rw [List.getElem?_cons_succ, ih hbehind, enclosed_cons_succ, hopen, List.length_cons,
          Nat.add_lt_add_iff_right]
    · -- The line is the last fence, and no pair is open.
      have hline : isFence line = true := by
        by_contra hno
        exact hpartner fun hyes => absurd hyes hno
      have hopen : inside = false := by
        rw [← Bool.not_eq_true]
        exact fun hinside => hpartner fun _ => Or.inl hinside
      have hrest : rest.countP isFence = 0 := by
        by_contra hne
        exact hpartner fun _ => Or.inr (Nat.one_le_iff_ne_zero.2 hne)
      subst hopen
      have hnone : ¬Enclosed false.toNat (line :: rest) i := by
        rintro ⟨k, -, -, htotal⟩
        rw [countP_isFence_cons, hline, hrest, Bool.toNat_true, Bool.toNat_false] at htotal
        omega
      rw [fencedFrom_lone hline hrest, List.getElem?_replicate]
      refine iff_of_false ?_ fun henclosed => hnone henclosed.2
      split <;> simp

/-! ### The scan from the top -/

/-- What is known when the lines have been read up to some place: their flags as far as they can be
told, and the place of the fence that is open. -/
structure FenceScan where
  /-- A flag for each line so far. -/
  flags : List Bool
  /-- The place of the open fence. -/
  opened : Option Nat

namespace FenceScan

/-- Read one more line. A fence closes the open one or is open itself, and both are marked, as is
every line behind an open fence. -/
def step (scan : FenceScan) (line : Text) : FenceScan :=
  if isFence line then
    ⟨scan.flags ++ [true], if scan.opened.isSome then none else some scan.flags.length⟩
  else ⟨scan.flags ++ [scan.opened.isSome], scan.opened⟩

/-- The flags at the end. A fence that is still open and the lines behind it lose their marks. -/
def result (scan : FenceScan) : List Bool :=
  match scan.opened with
  | none => scan.flags
  | some place => scan.flags.take place ++ List.replicate (scan.flags.length - place) false

/-- What the flags will be when the lines behind have been read. -/
def expected (scan : FenceScan) (lines : List Text) : List Bool :=
  match scan.opened with
  | none => scan.flags ++ fencedFrom false lines
  | some place =>
    if 1 ≤ lines.countP isFence then scan.flags ++ fencedFrom true lines
    else scan.flags.take place ++ List.replicate (scan.flags.length - place + lines.length) false

theorem expected_none (flags : List Bool) (lines : List Text) :
    expected ⟨flags, none⟩ lines = flags ++ fencedFrom false lines := rfl

theorem expected_some (flags : List Bool) (place : Nat) (lines : List Text) :
    expected ⟨flags, some place⟩ lines =
      if 1 ≤ lines.countP isFence then flags ++ fencedFrom true lines
      else flags.take place ++ List.replicate (flags.length - place + lines.length) false := rfl

/-- An open fence has been read. -/
def Placed (scan : FenceScan) : Prop := ∀ place ∈ scan.opened, place < scan.flags.length

theorem Placed.step {scan : FenceScan} (h : scan.Placed) (line : Text) :
    (scan.step line).Placed := by
  intro place hplace
  unfold FenceScan.step at hplace ⊢
  split at hplace
  · next hline =>
    rw [if_pos hline]
    split at hplace
    · cases hplace
    · rw [Option.mem_some_iff] at hplace
      rw [List.length_append, List.length_singleton]
      omega
  · next hline =>
    have hlt := h place hplace
    rw [if_neg hline, List.length_append, List.length_singleton]
    omega

/-- Reading a line changes nothing about what the flags will be. -/
theorem expected_step {scan : FenceScan} (h : scan.Placed) (line : Text) (lines : List Text) :
    (scan.step line).expected lines = scan.expected (line :: lines) := by
  obtain ⟨flags, opened⟩ := scan
  cases hline : isFence line with
  | false =>
    have hstep : FenceScan.step ⟨flags, opened⟩ line = ⟨flags ++ [opened.isSome], opened⟩ := by
      rw [step, if_neg (by simp [hline])]
    have hfenced : ∀ inside, fencedFrom inside (line :: lines) =
        inside :: fencedFrom inside lines := by
      intro inside
      rw [fencedFrom_cons (by simp [hline]), hline, Bool.or_false, Bool.xor_false]
    rw [hstep]
    cases opened with
    | none =>
      rw [expected_none, expected_none, hfenced, List.append_assoc]
      rfl
    | some place =>
      have hplace : place < flags.length := h place rfl
      have htake : (flags ++ [true]).take place = flags.take place :=
        List.take_append_of_le_length hplace.le
      have hcount : (flags ++ [true]).length - place + lines.length =
          flags.length - place + (line :: lines).length := by
        rw [List.length_append, List.length_singleton, List.length_cons]
        omega
      have hlater : (line :: lines).countP isFence = lines.countP isFence := by
        rw [countP_isFence_cons, hline, Bool.toNat_false, Nat.add_zero]
      rw [expected_some, expected_some, hlater, hfenced, Option.isSome_some, htake, hcount,
        List.append_assoc, List.singleton_append]
  | true =>
    have hstep : FenceScan.step ⟨flags, opened⟩ line =
        ⟨flags ++ [true], if opened.isSome then none else some flags.length⟩ := by
      rw [step, if_pos hline]
    rw [hstep]
    cases opened with
    | none =>
      by_cases hpartner : 1 ≤ lines.countP isFence
      · have hfenced : fencedFrom false (line :: lines) = true :: fencedFrom true lines := by
          rw [fencedFrom_cons fun _ => Or.inr hpartner, hline]
          rfl
        rw [expected_none, hfenced, Option.isSome_none, if_neg Bool.false_ne_true, expected_some,
          if_pos hpartner, List.append_assoc, List.singleton_append]
      · have hlone : lines.countP isFence = 0 := by omega
        have hcount : (flags ++ [true]).length - flags.length + lines.length =
            lines.length + 1 := by
          rw [List.length_append, List.length_singleton]
          omega
        rw [expected_none, fencedFrom_lone hline hlone, Option.isSome_none,
          if_neg Bool.false_ne_true, expected_some, if_neg hpartner, hcount, List.take_left']
        rfl
    | some place =>
      have hfenced : fencedFrom true (line :: lines) = true :: fencedFrom false lines := by
        rw [fencedFrom_cons fun _ => Or.inl rfl, hline]
        rfl
      have hlater : 1 ≤ (line :: lines).countP isFence := by
        rw [countP_isFence_cons, hline, Bool.toNat_true]
        omega
      rw [expected_some, if_pos hlater, hfenced, Option.isSome_some, if_pos rfl, expected_none,
        List.append_assoc, List.singleton_append]

theorem result_foldl_step {scan : FenceScan} (h : scan.Placed) (lines : List Text) :
    (lines.foldl step scan).result = scan.expected lines := by
  induction lines generalizing scan with
  | nil =>
    obtain ⟨flags, opened⟩ := scan
    cases opened with
    | none => rw [expected_none, fencedFrom_nil, List.append_nil, List.foldl_nil, result]
    | some place =>
      rw [expected_some, List.countP_nil, if_neg (by omega), List.length_nil, Nat.add_zero,
        List.foldl_nil, result]
  | cons line lines ih =>
    rw [List.foldl_cons, ih (h.step line), expected_step h]

end FenceScan

/-- The flags that a scan of the lines from the top arrives at. -/
def scannedFences (lines : List Text) : List Bool :=
  (lines.foldl FenceScan.step ⟨[], none⟩).result

/-- The scan flags the lines between partners. -/
theorem scannedFences_eq (lines : List Text) : scannedFences lines = fenced lines := by
  have hplaced : (FenceScan.mk [] none).Placed := by
    intro place hplace
    cases hplace
  exact FenceScan.result_foldl_step hplaced lines

/-! ### Pairs over a whole document -/

/-- The last fence, if their number is odd, and what stands behind it are not fenced, and what
stands above it is fenced as if it were all there is. -/
theorem fenced_append_lone {before after : List Text} {last : Text} (hlast : isFence last = true)
    (hafter : ∀ line ∈ after, isFence line = false)
    (hodd : Odd ((before ++ last :: after).countP isFence)) :
    fenced (before ++ last :: after) =
      fenced before ++ List.replicate (after.length + 1) false := by
  have hnone : after.countP isFence = 0 :=
    List.countP_eq_zero.2 fun line hline => by simp [hafter line hline]
  have heven : Even (before.countP isFence) := by
    rw [List.countP_append, countP_isFence_cons, hnone, hlast, Bool.toNat_true] at hodd
    rw [Nat.odd_iff] at hodd
    rw [Nat.even_iff]
    omega
  have hlone : fenced (last :: after) = List.replicate (after.length + 1) false :=
    fencedFrom_lone hlast hnone
  rw [fenced_append heven, hlone]

/-- There is a flag for each line, and a line is flagged exactly when it lies between fences with
numbers `2 * k` and `2 * k + 1`, both included; the scan from the top gives the same flags. With an
odd number of fences the last one pairs with none: from it on nothing is fenced, and what stands
above it is fenced as if the rest of the document were not there. -/
theorem fenced_pairs (lines : List Text) :
    (fenced lines).length = lines.length ∧
    (∀ i, (fenced lines)[i]? = some true ↔
      ∃ k first second, IsNumbered lines (2 * k) first ∧ IsNumbered lines (2 * k + 1) second ∧
        first ≤ i ∧ i ≤ second) ∧
    scannedFences lines = fenced lines ∧
    (∀ before last after, lines = before ++ last :: after → isFence last = true →
      (∀ line ∈ after, isFence line = false) → Odd (lines.countP isFence) →
      fenced lines = fenced before ++ List.replicate (after.length + 1) false) := by
  refine ⟨length_fenced lines, fun i => ?_, scannedFences_eq lines, ?_⟩
  · have hopen : false = true → 1 ≤ lines.countP isFence := fun h => by cases h
    rw [fenced, fencedFrom_eq_true_iff hopen, ← enclosed_iff, Bool.toNat_false]
    refine and_iff_right_of_imp fun henclosed => ?_
    -- A line between partners is a line of the document, since the lower partner is.
    obtain ⟨k, first, second, -, hsecond, -, hle⟩ := (enclosed_iff lines i).1 henclosed
    obtain ⟨line, hline, -⟩ := (Option.any_eq_true _ _).1 hsecond.1
    have hlt := (List.getElem?_eq_some_iff.1 hline).1
    omega
  · rintro before last after rfl hlast hafter hodd
    exact fenced_append_lone hlast hafter hodd

/-- Five fences of both kinds: the fifth is stray, and the code before it stays fenced. -/
theorem fenced_pairs_stray :
    fenced ["```".toList, "a".toList, "~~~".toList, "b".toList, "~~~".toList, " ```".toList,
        "````".toList, "c".toList] =
      fenced ["```".toList, "a".toList, "~~~".toList, "b".toList, "~~~".toList, " ```".toList] ++
        List.replicate 2 false ∧
    fenced ["```".toList, "a".toList, "~~~".toList, "b".toList, "~~~".toList, " ```".toList] =
      [true, true, true, false, true, true] :=
  ⟨(fenced_pairs _).2.2.2
      ["```".toList, "a".toList, "~~~".toList, "b".toList, "~~~".toList, " ```".toList]
      "````".toList ["c".toList] rfl (by decide) (by decide) (by decide), by decide⟩

end StyleDocs.Markdown
