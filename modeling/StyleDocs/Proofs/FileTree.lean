import StyleDocs.FileTree
import StyleDocs.Proofs.Path

/-!
# Paths that lead to one place

A dot in front of a path leads to where the path leads without it. So a directory lists the same
names and a file has the same content under both spellings.
-/

namespace StyleDocs.FileTree

open Text

/-- A name that a file or directory can have. -/
def IsName (name : Text) : Prop :=
  name ≠ [] ∧ name ≠ ['.'] ∧ name ≠ ['.', '.'] ∧ '/' ∉ name

instance (name : Text) : Decidable (IsName name) :=
  inferInstanceAs (Decidable (name ≠ [] ∧ name ≠ ['.'] ∧ name ≠ ['.', '.'] ∧ '/' ∉ name))

/-- Whether everything in a tree has a name that a file or directory can have. -/
def WellNamed (tree : FileTree) : Prop := ∀ entry ∈ tree.nodes, ∀ name ∈ entry.1, IsName name

instance (tree : FileTree) : Decidable tree.WellNamed :=
  inferInstanceAs (Decidable (∀ entry ∈ tree.nodes, ∀ name ∈ entry.1, IsName name))

variable {tree : FileTree}

/-- What a well-named tree lists are names. -/
theorem WellNamed.isName_of_mem_list (h : tree.WellNamed) {path name : Text} {names : List Text}
    (hlist : tree.list path = .ok names) (hname : name ∈ names) : IsName name := by
  have hat : ∀ place, name ∈ tree.namesAt place → IsName name := by
    intro place hmem
    cases place with
    | within location =>
      rw [namesAt, List.mem_eraseDups] at hmem
      obtain ⟨entry, hentry, hbelow⟩ := List.mem_filterMap.1 hmem
      unfold nameBelow? at hbelow
      split at hbelow
      · exact h entry hentry name (List.mem_of_mem_drop (List.mem_of_head? hbelow))
      · cases hbelow
    | above | outside => cases hmem
  unfold list at hlist
  split at hlist
  · cases hlist
  · next place _ =>
    split at hlist
    · cases hlist
      exact hat place hname
    · cases hlist
    · cases hlist

/-- The dot leads nowhere. -/
theorem resolve_dotted {path : Text} (hne : path ≠ []) (h : Path.isAbsolute path = false) :
    tree.resolve (Path.dotted path) = tree.resolve path := by
  have hsplit : splitAt '/' (Path.dotted path) = ['.'] :: splitAt '/' path := by
    rw [Path.dotted_of_ne_nil hne]
    exact splitAt_append_mark '/' ['.'] path
  have hstart : start path = .within [] := by rw [start, h]; rfl
  have hdotted : Path.dotted path ≠ [] := List.cons_ne_nil _ _
  rw [resolve, if_neg hdotted, hsplit, resolve, if_neg hne, hstart]
  rfl

/-- Below the dotted root something leads to where it leads below the root. -/
theorem resolve_join_dotted {root sub : Text} (hroot : Path.isAbsolute root = false)
    (hne : Path.join root sub ≠ []) :
    tree.resolve (Path.join (Path.dotted root) sub) = tree.resolve (Path.join root sub) := by
  cases hsub : Path.isAbsolute sub with
  | true => simp [Path.join, hsub]
  | false =>
    rw [Path.join_dotted hsub, ← Path.dotted_of_ne_nil hne]
    exact resolve_dotted hne (Path.isAbsolute_join hroot hsub)

theorem list_congr {a b : Text} (h : tree.resolve a = tree.resolve b) :
    tree.list a = tree.list b := by
  rw [list, list, h]

theorem isFile_congr {a b : Text} (h : tree.resolve a = tree.resolve b) :
    tree.isFile a = tree.isFile b := by
  rw [isFile, isFile, lookup, lookup, h]

end StyleDocs.FileTree
