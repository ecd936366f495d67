import Mathlib.Tactic.SplitIfs
import StyleDocs.Proofs.Json.RoundTrip
import StyleDocs.StaticTables.Token
import StyleDocs.Text.Quoted

/-!
# Literals as tokens

The literal of a text is one token, whatever the text: every character of the text is written so
that the reader takes it for this character and stays inside the literal, and only the closing quote
ends it. Which characters are written by their code points does not matter for this.
-/

namespace StyleDocs.StaticTables.Token

/-- Whether a piece of a file is read as these tokens, from a mode to a mode. -/
abbrev Lexes (mode : Mode) (t : Text) (tokens : List Token) (behind : Mode) : Prop :=
  run mode t = some (tokens, behind)

section Lexes

variable {mode middle behind : Mode} {a b : Text} {ts us : List Token}

/-- Pieces in a row are read as their tokens in a row. -/
theorem Lexes.append (ha : Lexes mode a ts middle) (hb : Lexes middle b us behind) :
    Lexes mode (a ++ b) (ts ++ us) behind := by
  rw [Lexes, run_append, ha, Option.bind_some, hb, Option.map_some]

theorem Lexes.flatMap {α : Type} {write : α → Text} {tokens : α → List Token}
    (h : ∀ x, Lexes mode (write x) (tokens x) mode) (items : List α) :
    Lexes mode (items.flatMap write) (items.flatMap tokens) mode := by
  induction items with
  | nil => rfl
  | cons x items ih => exact (h x).append ih

theorem tokens?_eq_some (h : Lexes .between a ts .between) : tokens? a = some ts := by
  rw [tokens?, h, Option.bind_some]
  simp [finish?]

end Lexes

/-! ### Literals -/

/-- One more digit of a code point. -/
theorem step_digitChar (read : Text) {count value d : Nat} (hd : d < 16) (hcount : count < 6) :
    step (.digits read count value) (Nat.digitChar d) =
      some ([], .digits read (count + 1) (16 * value + d)) := by
  have hbrace : ∀ d < 16, Nat.digitChar d ≠ '\x7d' := by decide
  simp [step, hbrace d hd, hcount, Json.hexValue?_digitChar hd]

/-- The digits of a code point are read as the code point. -/
theorem run_toDigits (read : Text) (n : Nat) (h : n < 0x1000000) :
    Lexes (.digits read 0 0) (Nat.toDigits 16 n) []
      (.digits read (Nat.toDigits 16 n).length n) := by
  induction n using Nat.strongRecOn with
  | ind n ih =>
    by_cases hsmall : n < 16
    · rw [Nat.toDigits_of_lt_base hsmall, Lexes, run, step_digitChar read hsmall (by decide)]
      simp [run]
    · -- All digits but the last are those of a sixteenth, and there are five of them at most.
      have hlast := Nat.mod_lt n (show 0 < 16 by decide)
      have hfront := ih (n / 16) (by omega) (by omega)
      have hlength : (Nat.toDigits 16 (n / 16)).length ≤ 5 :=
        (Nat.length_toDigits_le_iff (by decide) (by decide)).2 (by omega)
      have hstep : step (.digits read (Nat.toDigits 16 (n / 16)).length (n / 16))
          (Nat.digitChar (n % 16)) = _ := step_digitChar read hlast (by omega)
      rw [Nat.toDigits_of_base_le (by decide) (by omega), Lexes, run_append, hfront,
        Option.bind_some, run, hstep]
      simp [run, Nat.div_add_mod]

/-- A character of a literal is read as this character, in whatever way it is written. -/
theorem run_quoteChar (read : Text) (c : Char) :
    Lexes (.text read) (Text.quoteChar c) [] (.text (c :: read)) := by
  unfold Text.quoteChar
  split_ifs with hnull htab hr hn hslash hquote hhidden
  · subst hnull
    rfl
  · subst htab
    rfl
  · subst hr
    rfl
  · subst hn
    rfl
  · subst hslash
    rfl
  · subst hquote
    rfl
  · have hvalid : c.toNat.isValidChar := c.valid
    have hbound : c.toNat < 0x1000000 := by
      rcases hvalid with h | h
      · omega
      · omega
    have hopen : Lexes (.text read) "\\u\x7b".toList [] (.digits read 0 0) := rfl
    have hclose : Lexes (.digits read (Nat.toDigits 16 c.toNat).length c.toNat) "\x7d".toList []
        (.text (c :: read)) := by
      have hpositive : 0 < (Nat.toDigits 16 c.toNat).length := Nat.length_toDigits_pos
      simp [Lexes, run, step, hpositive, hvalid]
    exact (hopen.append (run_toDigits read c.toNat hbound)).append hclose
  · simp [Lexes, run, step, hquote, hslash, hr]

/-- The literal of a text is one token. -/
theorem run_quote (t : Text) : Lexes .between (Text.quote t) [.text t] .closed := by
  have hinside : ∀ read : Text, Lexes (.text read) (t.flatMap Text.quoteChar) []
      (.text (t.reverse ++ read)) := by
    induction t with
    | nil => exact fun read => rfl
    | cons c t ih =>
      intro read
      have h := (run_quoteChar read c).append (ih (c :: read))
      rwa [List.reverse_cons, List.append_assoc]
  have hopen : Lexes .between ['"'] [] (.text []) := rfl
  have hclose : Lexes (.text (t.reverse ++ [])) ['"'] [.text t] .closed := by
    simp [Lexes, run, step]
  exact (hopen.append (hinside [])).append hclose

end StyleDocs.StaticTables.Token
