import StyleDocs.CommandLine.Run
import StyleDocs.Proofs.FileTree.Write

/-!
# What a run does

An accepted command line has one of three outcomes. The refresh fails, and the exit code says so; or
what was asked for cannot be done; or it is done. Only the last one writes anything: one file when
there is a root of documents, and none when a document is read from the standard input.
-/

namespace StyleDocs.CommandLine

variable {given : Given} {conv : Conventions} {input : ByteArray} {tree left : FileTree}
  {git : Nat → Checkout.Outcome}

/-! ### The outcomes -/

/-- Whether a run has failed, but not in its refresh: it has written nothing. -/
def Outcome.Failed (outcome : Outcome) : Prop :=
  outcome.exitCode = failureCode ∧ outcome.written = []

/-- Whether a run has printed what it was asked for: it has written nothing. -/
def Outcome.Printed (outcome : Outcome) : Prop := outcome.exitCode = 0 ∧ outcome.written = []

/-- Whether a run has published the reference of a tree as a command line asks: it has written one
file, in the directory and under the name that the command line stands for. The directory may have
been created before, which changes no file, and the text of the reference is read back from the
path that was written. -/
def Outcome.Published (given : Given) (conv : Conventions) (tree : FileTree) (outcome : Outcome) :
    Prop :=
  ∃ directory format made location,
    given.value? .output = some directory ∧
    OutputFormat.ofName? (given.valueOr .format "rust".toList) = some format ∧
    tree.makeDirectories directory = .ok made ∧ made.files = tree.files ∧
    outcome.written = [(location, format.render (Build.reference conv tree).1)] ∧
    made.target (Path.join directory format.fileName) = .ok location ∧
    (made.put location (.file (FileTree.encode (format.render (Build.reference conv tree).1)))).read
        (Path.join directory format.fileName) =
      .ok (format.render (Build.reference conv tree).1)

theorem failed_failure (reason : Text) (events : List Event) :
    (Outcome.failure reason events).Failed := ⟨rfl, rfl⟩

/-- Reading a document from the standard input fails or prints a record. -/
theorem printRecord_cases (conv : Conventions) (input : ByteArray) :
    (printRecord conv input).Failed ∨ (printRecord conv input).Printed := by
  unfold printRecord
  split
  · exact Or.inl (failed_failure _ _)
  · exact Or.inr ⟨rfl, rfl⟩

/-- What is written into a directory is written to a file of the tree with the directory. -/
theorem writeInto_eq_ok {directory fileName : Text} {location : Location}
    (h : writeInto tree directory fileName = .ok location) :
    ∃ made, tree.makeDirectories directory = .ok made ∧
      made.target (Path.join directory fileName) = .ok location := by
  unfold writeInto at h
  split at h
  · cases h
  · next made hmade =>
    dsimp only at h
    split at h
    · cases h
    · next found htarget =>
      cases h
      exact ⟨made, hmade, htarget⟩

/-- Publishing a reference fails or writes one file. -/
theorem publishIn_cases (given : Given) (conv : Conventions) (tree : FileTree)
    {format : OutputFormat} {directory : Text} (hdirectory : given.value? .output = some directory)
    (hformat : OutputFormat.ofName? (given.valueOr .format "rust".toList) = some format) :
    (publishIn conv tree format directory).Failed ∨
      (publishIn conv tree format directory).exitCode = 0 ∧
        (publishIn conv tree format directory).Published given conv tree := by
  unfold publishIn
  dsimp only
  split
  · exact Or.inl (failed_failure _ _)
  · next location hwritten =>
    obtain ⟨made, hmade, htarget⟩ := writeInto_eq_ok hwritten
    exact Or.inr ⟨rfl, directory, format, made, location, hdirectory, hformat, hmade,
      FileTree.files_makeDirectories hmade, rfl, htarget, FileTree.read_put_target htarget _⟩

theorem publish_cases (given : Given) (conv : Conventions) (tree : FileTree) :
    (publish given conv tree).Failed ∨
      (publish given conv tree).exitCode = 0 ∧
        (publish given conv tree).Published given conv tree := by
  unfold publish
  split
  · exact Or.inl (failed_failure _ _)
  · next directory hdirectory =>
    dsimp only
    split
    · exact Or.inl (failed_failure _ _)
    · next format hformat => exact publishIn_cases given conv tree hdirectory hformat

/-! ### The refresh -/

/-- The refresh that a command line asks for fails. -/
def RefreshFails (given : Given) (tree : FileTree) (git : Nat → Checkout.Outcome) : Prop :=
  given.refresh = true ∧ ∃ checkout failure, given.value? .checkout = some checkout ∧
    (Checkout.refresh (given.refreshSettings checkout) (Checkout.isPresent tree checkout)
      git).result = .error failure

/-- The root of the documents that a command line names: the one that it names itself, or else the
one in the checkout that it refreshes. -/
def Given.root? (given : Given) : Option Text :=
  (given.value? .docs).or
    (if given.refresh then (given.value? .checkout).map Checkout.root else none)

/-- There is no root of documents when none is named and no checkout is refreshed. -/
theorem root?_eq_none_iff
    (haccepted : given.refresh = true → ∃ checkout, given.value? .checkout = some checkout) :
    given.root? = none ↔ given.value? .docs = none ∧ given.refresh = false := by
  rw [Given.root?, Option.or_eq_none_iff]
  refine and_congr_right fun _ => ?_
  cases hrefresh : given.refresh with
  | true =>
    obtain ⟨checkout, hcheckout⟩ := haccepted hrefresh
    simp [hcheckout]
  | false => simp

/-- The tree that is read: the one that git leaves when there is a refresh. -/
def Given.seen (given : Given) (tree left : FileTree) : FileTree :=
  if given.refresh then left else tree

/-- A command line that asks for a refresh is refused when it names no checkout. -/
theorem checkout_of_read {arguments : List Text} (h : read arguments = .ok given)
    (hrefresh : given.refresh = true) : ∃ checkout, given.value? .checkout = some checkout := by
  unfold read at h
  split at h
  · cases h
  · unfold Given.check at h
    split at h
    · cases h
    · next hcheck =>
      split at h
      · cases h
      · cases h
        rw [hrefresh, Bool.true_and, Option.isNone_iff_eq_none] at hcheck
        exact Option.ne_none_iff_exists'.1 hcheck

/-- A run with a refresh ends with the refresh, or it goes on as if the root of its documents had
been named, in the tree that git leaves. -/
theorem refreshFirst_cases (input : ByteArray) (tree left : FileTree)
    (git : Nat → Checkout.Outcome) {checkout : Text} (hrefresh : given.refresh = true)
    (hcheckout : given.value? .checkout = some checkout) :
    (RefreshFails given tree git ∧
      (refreshFirst given checkout input tree left git).exitCode = refreshFailureCode ∧
      (refreshFirst given checkout input tree left git).written = []) ∨
    (¬ RefreshFails given tree git ∧ ∃ root, given.root? = some root ∧
      (refreshFirst given checkout input tree left git).exitCode =
        (publish given { given.conventions with root := root } left).exitCode ∧
      (refreshFirst given checkout input tree left git).written =
        (publish given { given.conventions with root := root } left).written) := by
  unfold refreshFirst
  dsimp only
  split
  · next failure hfailure =>
    exact Or.inl ⟨⟨hrefresh, checkout, failure, hcheckout, hfailure⟩, rfl, rfl⟩
  · next hok =>
    refine Or.inr ⟨?_, given.valueOr .docs (Checkout.root checkout), ?_, rfl, rfl⟩
    · rintro ⟨-, other, failure, hother, hfailure⟩
      obtain rfl : checkout = other := Option.some.inj (hcheckout.symm.trans hother)
      rw [hok] at hfailure
      cases hfailure
    · rw [Given.root?, Given.valueOr, hrefresh, if_pos rfl, hcheckout, Option.map_some]
      cases given.value? .docs <;> rfl

/-! ### A whole run -/

/-- Whether a run does what its documents are for: it publishes the reference of a root, or it
prints the record of a document when there is no root. -/
def Done (given : Given) (tree left : FileTree) (outcome : Outcome) : Prop :=
  (given.root? = none ∧ outcome.Printed) ∨
    ∃ root, given.root? = some root ∧ outcome.exitCode = 0 ∧
      outcome.Published given { given.conventions with root := root } (given.seen tree left)

/-- A run fails in its refresh, fails otherwise, or does what was asked for. -/
theorem carryOut_cases (input : ByteArray) (tree left : FileTree) (git : Nat → Checkout.Outcome)
    (haccepted : given.refresh = true → ∃ checkout, given.value? .checkout = some checkout) :
    (RefreshFails given tree git ∧
      (carryOut given input tree left git).exitCode = refreshFailureCode ∧
      (carryOut given input tree left git).written = []) ∨
    (¬ RefreshFails given tree git ∧ ((carryOut given input tree left git).Failed ∨
      Done given tree left (carryOut given input tree left git))) := by
  cases hrefresh : given.refresh with
  | true =>
    obtain ⟨checkout, hcheckout⟩ := haccepted hrefresh
    have hcarry : carryOut given input tree left git =
        refreshFirst given checkout input tree left git := by
      rw [carryOut, hrefresh, hcheckout]
    rw [hcarry]
    refine (refreshFirst_cases input tree left git hrefresh hcheckout).imp_right ?_
    rintro ⟨hfails, root, hroot, hexit, hwritten⟩
    refine ⟨hfails, ?_⟩
    rcases publish_cases given { given.conventions with root := root } left with
      hfailed | ⟨hzero, hpublished⟩
    · exact Or.inl ⟨hexit.trans hfailed.1, hwritten.trans hfailed.2⟩
    · refine Or.inr (Or.inr ⟨root, hroot, hexit.trans hzero, ?_⟩)
      rw [Given.seen, hrefresh, if_pos rfl, Outcome.Published, hwritten]
      exact hpublished
  | false =>
    have hfails : ¬ RefreshFails given tree git := fun h => by
      rw [RefreshFails, hrefresh] at h
      cases h.1
    have hroot : given.root? = given.value? .docs := by
      rw [Given.root?, hrefresh, if_neg Bool.false_ne_true, Option.or_none]
    have hcarry : carryOut given input tree left git =
        proceed given given.conventions (given.value? .docs) input tree := by
      rw [carryOut, hrefresh]
    rw [hcarry, Done, hroot, Given.seen, hrefresh, if_neg Bool.false_ne_true]
    refine Or.inr ⟨hfails, ?_⟩
    cases given.value? .docs with
    | none => exact (printRecord_cases given.conventions input).imp_right fun h => Or.inl ⟨rfl, h⟩
    | some root =>
      exact (publish_cases given { given.conventions with root := root } tree).imp_right
        fun h => Or.inr ⟨root, rfl, h⟩

/-- A tree as git leaves it: a checkout with one property document. -/
def clonedTree : FileTree where
  nodes := [(["co".toList, "docs".toList, "styles".toList, "tint.md".toList],
    .file (FileTree.encode "a|b".toList))]

end StyleDocs.CommandLine
