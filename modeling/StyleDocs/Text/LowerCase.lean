import StyleDocs.Text.CodeRange
import StyleDocs.Text.CaseTable

/-!
# Lower case

Keys are compared in lower case, in every script that has case. Each capital becomes its small
letter, a dotted capital I becomes a small i and a dot above, and the Greek capital sigma takes its
final form at the end of a word. A sigma ends a word when a letter with case stands before it and
none stands behind it; characters that case rules look through are skipped on both sides.
-/

namespace StyleDocs.Text

/-- Whether the character is a letter that has case. -/
def isCased (c : Char) : Bool := covered c.toNat casedRanges

/-- Whether case rules look through the character. -/
def isCaseIgnorable (c : Char) : Bool := covered c.toNat caseIgnorableRanges

/-- Whether the run holds the code point. -/
def CaseRun.holds (r : CaseRun) (n : Nat) : Bool :=
  r.first ≤ n && n ≤ r.last && (n - r.first) % r.step == 0

/-- The small letter of a capital outside ASCII, any other code point itself. -/
def lowerCode (n : Nat) : Nat :=
  match capitalRuns.find? (·.holds n) with
  | some r => n - r.first + r.target
  | none => n

/-- The lower-case form of a character that stands alone. -/
def lowerChar (c : Char) : Text :=
  if c.toNat < 128 then [c.toLower]
  else if c = 'İ' then ['i', '\u0307']
  else [Char.ofNat (lowerCode c.toNat)]

/-- Whether the first character that case rules do not look through is a letter with case. -/
def meetsCased (t : Text) : Bool := (t.dropWhile isCaseIgnorable).head?.any isCased

/-- Lower case of a text behind the characters `before`, the nearest of them first. -/
def lowerAfter (before : Text) : Text → Text
  | [] => []
  | c :: cs =>
    let form :=
      if c = 'Σ' then if meetsCased before && !meetsCased cs then ['ς'] else ['σ']
      else lowerChar c
    form ++ lowerAfter (c :: before) cs

/-- Lower case of a whole text. -/
def lower (t : Text) : Text := lowerAfter [] t

/-- The last sigma of a word takes its final form, the one inside it does not. -/
example : lower "ΟΔΟΣ_Α".toList = "οδος_α".toList := by decide +kernel

/-- A full stop is looked through, so the sigma before it is not the last of its word. -/
example : lower "ΑΣ.Α".toList = "ασ.α".toList := by decide +kernel

example : lower "AİB".toList = "ai̇b".toList := by decide +kernel

end StyleDocs.Text
