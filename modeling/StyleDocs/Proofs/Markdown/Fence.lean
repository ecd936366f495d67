import Mathlib.Algebra.Group.Nat.Even
import Mathlib.Data.List.TakeWhile
import StyleDocs.Markdown.Fence
import StyleDocs.Proofs.Text.Lines
import StyleDocs.Proofs.Text.Strip

/-!
# Pairs of fences

Which lines are fenced is told by the whole document: one more fence anywhere turns code into text
and text into code behind it. But lines with an even number of fences leave no fence open. What
comes behind them is fenced as if it stood alone, and so are they.
-/

namespace StyleDocs.Markdown

open Text

/-- White space behind a line does not make it a fence and does not keep it from being one. -/
theorem isFence_append {u : Text} (h : ∀ c ∈ u, isBlank c = true) (t : Text) :
    isFence (t ++ u) = isFence t := by
  have hword : ∀ w : Text, w.any isBlank = false →
      startsWith w (trimStart isBlank (t ++ u)) = startsWith w (trimStart isBlank t) := by
    intro w hw
    rw [trimStart_append]
    split
    · next hall =>
      have hu : trimStart isBlank u = [] := List.dropWhile_eq_nil_iff.2 h
      have ht : trimStart isBlank t = [] :=
        List.dropWhile_eq_nil_iff.2 (List.all_eq_true.1 hall)
      rw [hu, ht]
    · cases u with
      | nil => rw [List.append_nil]
      | cons c u =>
        refine startsWith_append_cons (fun hc => ?_) _ _
        exact List.any_eq_false.1 hw c hc (h c List.mem_cons_self)
  simp only [isFence]
  rw [hword ticks rfl, hword "~~~".toList rfl]

/-- A piece is a fence exactly when its line is. -/
theorem isFence_of_isPieceOf {line piece : Text} (h : IsPieceOf line piece) :
    isFence piece = isFence line := by
  obtain ⟨ending, hending, rfl⟩ := h
  exact isFence_append hending.isBlank line

theorem isFence_chomp (piece : Text) : isFence (chomp piece) = isFence piece :=
  (isFence_of_isPieceOf (isPieceOf_chomp piece)).symm

/-- White space in front of a line does not matter either. -/
theorem isFence_blank_append {u : Text} (h : ∀ c ∈ u, isBlank c = true) (t : Text) :
    isFence (u ++ t) = isFence t := by
  have hstart : trimStart isBlank (u ++ t) = trimStart isBlank t := List.dropWhile_append_of_pos h
  rw [isFence, hstart, ← isFence]

/-- A fence is white space and its sign, and anything behind them. -/
theorem isFence_iff {t : Text} : isFence t = true ↔ ∃ u sign rest,
    (∀ c ∈ u, isBlank c = true) ∧ (sign = ticks ∨ sign = "~~~".toList) ∧
      t = u ++ sign ++ rest := by
  constructor
  · intro h
    obtain ⟨sign, rest, hsign, hrest⟩ : ∃ sign rest, (sign = ticks ∨ sign = "~~~".toList) ∧
        trimStart isBlank t = sign ++ rest := by
      rw [isFence, Bool.or_eq_true, startsWith_iff, startsWith_iff] at h
      rcases h with ⟨rest, hrest⟩ | ⟨rest, hrest⟩
      · exact ⟨ticks, rest, Or.inl rfl, hrest⟩
      · exact ⟨"~~~".toList, rest, Or.inr rfl, hrest⟩
    refine ⟨t.takeWhile isBlank, sign, rest, List.all_eq_true.1 List.all_takeWhile, hsign, ?_⟩
    rw [List.append_assoc, ← hrest, trimStart, List.takeWhile_append_dropWhile]
  · rintro ⟨u, sign, rest, hu, hsign, rfl⟩
    rw [List.append_assoc, isFence_blank_append hu]
    rcases hsign with rfl | rfl <;> rfl

/-- What follows the sign of a fence does not matter. -/
theorem isFence_append_of_isFence {t : Text} (h : isFence t = true) (rest : Text) :
    isFence (t ++ rest) = true := by
  obtain ⟨u, sign, behind, hu, hsign, rfl⟩ := isFence_iff.1 h
  exact isFence_iff.2 ⟨u, sign, behind ++ rest, hu, hsign, List.append_assoc ..⟩

/-! ### Fences in a text -/

/-- A line begins behind a text: the text is empty, or it ends with a line feed. -/
def BeginsLine (before : Text) : Prop := before = [] ∨ ∃ front, before = front ++ ['\n']

theorem exists_fence_of_isFence {t : Text} (h : isFence t = true) :
    ∃ line ∈ lines t, isFence line = true := by
  induction t using line_induction with
  | hlast t ht =>
    have hne : t ≠ [] := by
      rintro rfl
      cases h
    exact ⟨t, by simp [lines_of_not_mem ht hne], h⟩
  | hline line rest hline ih =>
    rw [lines_append_cons hline]
    by_cases hblank : line.all isBlank = true
    · have hall : ∀ c ∈ line ++ ['\n'], isBlank c = true :=
        List.forall_mem_append.2 ⟨List.all_eq_true.1 hblank, List.all_eq_true.1 rfl⟩
      rw [List.append_cons, isFence_blank_append hall] at h
      obtain ⟨found, hfound, hfence⟩ := ih h
      exact ⟨found, List.mem_cons_of_mem _ hfound, hfence⟩
    · refine ⟨_, List.mem_cons_self, ?_⟩
      have hline : isFence line = true := by
        rw [isFence, trimStart_append, if_neg hblank] at h
        rwa [startsWith_append_cons (by decide), startsWith_append_cons (by decide)] at h
      rw [isFence_chomp]
      exact isFence_append_of_isFence hline ['\n']

/-- A text has a fence among its lines exactly when it has one where a line begins. -/
theorem exists_fence_iff {t : Text} : (∃ line ∈ lines t, isFence line = true) ↔
    ∃ before rest, t = before ++ rest ∧ BeginsLine before ∧ isFence rest = true := by
  constructor
  · intro h
    induction t using line_induction with
    | hlast t ht =>
      obtain ⟨line, hline, hfence⟩ := h
      by_cases hne : t = []
      · subst hne
        cases hline
      · rw [lines_of_not_mem ht hne, List.mem_singleton] at hline
        exact ⟨[], t, rfl, Or.inl rfl, hline ▸ hfence⟩
    | hline line rest hline ih =>
      obtain ⟨found, hfound, hfence⟩ := h
      rw [lines_append_cons hline, List.mem_cons] at hfound
      rcases hfound with rfl | hfound
      · rw [isFence_chomp] at hfence
        refine ⟨[], line ++ '\n' :: rest, rfl, Or.inl rfl, ?_⟩
        rw [List.append_cons]
        exact isFence_append_of_isFence hfence rest
      · obtain ⟨before, behind, rfl, hbefore, hbehind⟩ := ih ⟨found, hfound, hfence⟩
        refine ⟨line ++ '\n' :: before, behind, by simp, Or.inr ?_, hbehind⟩
        rcases hbefore with rfl | ⟨front, rfl⟩
        · exact ⟨line, rfl⟩
        · exact ⟨line ++ '\n' :: front, by simp⟩
  · rintro ⟨before, rest, rfl, hbefore, hfence⟩
    obtain ⟨line, hline, hline'⟩ := exists_fence_of_isFence hfence
    refine ⟨line, ?_, hline'⟩
    rcases hbefore with rfl | ⟨front, rfl⟩
    · exact hline
    · rw [lines, pieces_append (openLine_concat_newline front), List.map_append]
      exact List.mem_append_right _ hline

/-- White space around a text does not matter to whether it has a fence. -/
theorem exists_fence_strip_iff {t : Text} :
    (∃ line ∈ lines (strip t), isFence line = true) ↔ ∃ line ∈ lines t, isFence line = true := by
  obtain ⟨a, b, ht, ha, hb⟩ := exists_trimEnds isBlank t
  rw [exists_fence_iff, exists_fence_iff]
  constructor
  · rintro ⟨before, rest, hstrip, hbefore, hfence⟩
    have hfence' := isFence_append_of_isFence hfence b
    rw [show trimEnds isBlank t = strip t from rfl, hstrip] at ht
    rcases hbefore with rfl | ⟨front, rfl⟩
    · exact ⟨[], t, rfl, Or.inl rfl, by rwa [ht, List.append_assoc, isFence_blank_append ha]⟩
    · exact ⟨a ++ front ++ ['\n'], rest ++ b, by rw [ht]; simp, Or.inr ⟨_, rfl⟩, hfence'⟩
  · rintro ⟨before, rest, hwhole, hbefore, hfence⟩
    by_cases hblank : before.all isBlank = true
    · refine ⟨[], strip t, rfl, Or.inl rfl, ?_⟩
      rw [← isFence_blank_append (List.all_eq_true.1 hblank), ← hwhole, ht, List.append_assoc,
        isFence_blank_append ha, isFence_append hb] at hfence
      exact hfence
    · obtain ⟨front, rfl⟩ := hbefore.resolve_left fun hnil => hblank (by simp [hnil])
      have hfront : ¬front.all isBlank = true := by
        intro hall
        rw [List.all_append, hall] at hblank
        exact hblank rfl
      have hstart : trimStart isBlank t = (trimStart isBlank front ++ ['\n']) ++ rest := by
        rw [hwhole, List.append_assoc, trimStart_append, if_neg hfront]
        simp
      have hrest : ¬rest.all isBlank = true := by
        intro hall
        have hnil : trimStart isBlank rest = [] :=
          List.dropWhile_eq_nil_iff.2 (List.all_eq_true.1 hall)
        rw [isFence, hnil] at hfence
        cases hfence
      refine ⟨trimStart isBlank front ++ ['\n'], trimEnd isBlank rest, ?_, Or.inr ⟨_, rfl⟩, ?_⟩
      · rw [strip, trimEnds, hstart, trimEnd_append_eq, if_neg hrest]
      · have hback : trimEnd isBlank rest ++ rest.rtakeWhile isBlank = rest :=
          List.rdropWhile_append_rtakeWhile
        rw [← hback, isFence_append fun c hc => List.mem_rtakeWhile_imp hc] at hfence
        exact hfence

/-- Lines that are fences in the same places are fenced in the same places. -/
theorem fencedFrom_congr {a b : List Text} (h : a.map isFence = b.map isFence) (inside : Bool) :
    fencedFrom inside a = fencedFrom inside b := by
  induction a generalizing b inside with
  | nil => rw [List.map_eq_nil_iff.1 (h.symm.trans List.map_nil)]
  | cons line rest ih =>
    cases b with
    | nil => cases h
    | cons line' rest' =>
      obtain ⟨hline, hrest⟩ := List.cons.inj h
      have hany : rest.any isFence = rest'.any isFence := by
        have hid := congrArg (List.any · id) hrest
        simpa only [List.any_map, Function.id_comp] using hid
      have hflags : rest.map (fun _ => false) = rest'.map fun _ => false := by
        rw [List.map_const', List.map_const']
        simpa using congrArg (fun flags : List Bool => List.replicate flags.length false) hrest
      simp only [fencedFrom, hline, hany, ih hrest, hflags]

theorem fencedFrom_map {f : Text → Text} (h : ∀ line, isFence (f line) = isFence line)
    (inside : Bool) (lines : List Text) :
    fencedFrom inside (lines.map f) = fencedFrom inside lines := by
  refine fencedFrom_congr ?_ inside
  rw [List.map_map]
  exact List.map_congr_left fun line _ => h line

/-- Lines and the pieces that have them in front of their line ends are fenced in the same
places. -/
theorem fenced_eq_of_forall₂ {ls ps : List Text} (h : List.Forall₂ IsPieceOf ls ps) :
    fenced ls = fenced ps := by
  refine fencedFrom_congr ?_ false
  induction h with
  | nil => rfl
  | cons hpiece _ ih => rw [List.map_cons, List.map_cons, ih, isFence_of_isPieceOf hpiece]

/-- The lines of a text are fenced in the same places as its pieces. -/
theorem fenced_lines (t : Text) : fenced (lines t) = fenced (pieces t) :=
  fenced_eq_of_forall₂ (forall₂_lines_pieces t)

/-- Lines that leave no fence open do not matter to the lines behind them. -/
theorem fencedFrom_append {inside : Bool} {a : List Text}
    (h : Even (a.countP isFence + inside.toNat)) (b : List Text) :
    fencedFrom inside (a ++ b) = fencedFrom inside a ++ fencedFrom false b := by
  induction a generalizing inside with
  | nil =>
    cases inside with
    | false => rfl
    | true => simp at h
  | cons line rest ih =>
    rw [Nat.even_iff] at h
    by_cases hfence : isFence line = true
    · rw [List.countP_cons_of_pos hfence] at h
      cases inside with
      | true =>
        have hrest : Even (rest.countP isFence + false.toNat) := by
          rw [Nat.even_iff]
          simp only [Bool.toNat_true, Bool.toNat_false] at h ⊢
          omega
        simp [fencedFrom, hfence, ih hrest]
      | false =>
        have hrest : Even (rest.countP isFence + true.toNat) := by
          rw [Nat.even_iff]
          simp only [Bool.toNat_true, Bool.toNat_false] at h ⊢
          omega
        -- The number of fences behind an opening one is odd, so there is a partner.
        have hpartner : rest.any isFence = true := by
          rw [List.any_eq_true, ← List.countP_pos_iff]
          simp only [Bool.toNat_false] at h
          omega
        simp [fencedFrom, hfence, List.any_append, hpartner, ih hrest]
    · rw [List.countP_cons_of_neg hfence] at h
      simp [fencedFrom, hfence, ih (Nat.even_iff.2 h)]

/-- Lines with an even number of fences are fenced as if they stood alone, and so is what follows
them. -/
theorem fenced_append {a : List Text} (h : Even (a.countP isFence)) (b : List Text) :
    fenced (a ++ b) = fenced a ++ fenced b :=
  fencedFrom_append (by simpa using h) b

/-- A line that is no fence is not fenced at the front. -/
theorem fenced_cons {line : Text} (h : isFence line = false) (lines : List Text) :
    fenced (line :: lines) = false :: fenced lines := by
  simp [fenced, fencedFrom, h]

/-- Lines without a fence leave open what is open and open nothing. -/
theorem fencedFrom_append_of_no_fence {lines : List Text}
    (h : ∀ line ∈ lines, isFence line = false) (inside : Bool) (rest : List Text) :
    fencedFrom inside (lines ++ rest) = (lines.map fun _ => inside) ++ fencedFrom inside rest := by
  induction lines with
  | nil => rfl
  | cons line lines ih =>
    have hlines : ∀ line ∈ lines, isFence line = false := fun l hl =>
      h l (List.mem_cons_of_mem _ hl)
    simp [fencedFrom, h line List.mem_cons_self, ih hlines]

/-- Lines without a fence between two fences are all fenced, and so are the two. -/
theorem fenced_block {start stop : Text} {lines : List Text} (hstart : isFence start = true)
    (hstop : isFence stop = true) (h : ∀ line ∈ lines, isFence line = false) :
    fenced (start :: (lines ++ [stop])) = (start :: (lines ++ [stop])).map fun _ => true := by
  have hpartner : (lines ++ [stop]).any isFence = true := by simp [hstop]
  simp [fenced, fencedFrom, hstart, hstop, hpartner, fencedFrom_append_of_no_fence h]

end StyleDocs.Markdown
