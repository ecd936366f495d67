import StyleDocs.Proofs.FileTree.Shape
import StyleDocs.Proofs.Wildcard.Listing

/-!
# Listings of trees of one shape

A listing asks a tree only where paths lead, whether files or directories are there and which names
a directory has. So the same paths are listed in trees of one shape, though perhaps in another
order.
-/

namespace StyleDocs.Wildcard

open Text FileTree

variable {a b : FileTree} {fuel : Nat}

theorem append_subset_append {front front' back back' : List Text} (hfront : front ⊆ front')
    (hback : back ⊆ back') : front ++ back ⊆ front' ++ back' :=
  List.append_subset.2 ⟨List.subset_append_of_subset_left _ hfront,
    List.subset_append_of_subset_right _ hback⟩

section Step

variable
  (hexpand : ∀ components path, expand a fuel components path ⊆ expand b fuel components path)

include hexpand

theorem arrive_subset (rest : List (List Part)) (next : Text) :
    arrive a fuel rest next ⊆ arrive b fuel rest next := by
  cases rest with
  | nil => exact List.Subset.refl _
  | cons component rest => exact hexpand (component :: rest) next

theorem meet_subset (components : List (List Part)) (child name : Text) :
    meet a fuel components child name ⊆ meet b fuel components child name := by
  cases components with
  | nil => exact List.Subset.refl _
  | cons first rest =>
    rw [meet, meet]
    split
    · exact arrive_subset hexpand rest child
    · exact List.Subset.refl _

theorem fromChild_subset (h : SameShape a b) (component : List Part) (rest : List (List Part))
    (path name : Text) :
    fromChild a fuel component rest path name ⊆ fromChild b fuel component rest path name := by
  have hmeet := fun components => meet_subset hexpand components (below path name) name
  rw [fromChild, fromChild, h.isDirectory]
  split
  · split
    · refine append_subset_append (hexpand _ _) ?_
      split
      · exact List.Subset.refl _
      · exact hmeet _
    · exact hmeet _
  · exact hmeet _

theorem fromSpecials_subset (component : List Part) (rest : List (List Part)) (path : Text) :
    fromSpecials a fuel component rest path ⊆ fromSpecials b fuel component rest path := by
  intro found hfound
  obtain ⟨hdot, name, hspecial, haccepts, harrive⟩ := mem_fromSpecials_iff.1 hfound
  exact mem_fromSpecials_iff.2
    ⟨hdot, name, hspecial, haccepts, arrive_subset hexpand rest _ harrive⟩

end Step

/-- What is listed in a tree is listed in every tree of its shape. -/
theorem expand_subset (h : SameShape a b) (fuel : Nat) (components : List (List Part))
    (path : Text) : expand a fuel components path ⊆ expand b fuel components path := by
  induction fuel generalizing components path with
  | zero => exact List.Subset.refl _
  | succ fuel ih =>
    cases components with
    | nil => exact List.Subset.refl _
    | cons component rest =>
      cases hname : literal? component with
      | some name =>
        rw [expand_literal hname, expand_literal hname, h.isDirectory, h.has]
        intro found hfound
        rw [List.mem_ite_nil_right] at hfound ⊢
        exact ⟨hfound.1, arrive_subset ih rest _ hfound.2⟩
      | none =>
        rcases h.list_cases path with ⟨cause, ha, hb⟩ | ⟨names, names', ha, hb, hnames⟩
        · rw [expand_unlisted hname ha]
          exact List.nil_subset _
        · rw [expand_search hname ha, expand_search hname hb]
          refine append_subset_append ?_ (fromSpecials_subset ih component rest path)
          intro found hfound
          obtain ⟨name, hmem, hchild⟩ := List.mem_flatMap.1 hfound
          exact List.mem_flatMap.2 ⟨name, (hnames name).1 hmem,
            fromChild_subset ih h component rest path name hchild⟩

theorem bound_eq (tree : FileTree) (components : List (List Part)) :
    bound tree components = (components.length + 1) * (tree.depth + 2) := rfl

/-- The same paths are listed in trees of one shape. -/
theorem mem_listing_iff (h : SameShape a b) {pattern : Text} {components : List (List Part)}
    {path : Text} : path ∈ listing a pattern components ↔ path ∈ listing b pattern components := by
  have hsubset : ∀ {a b : FileTree}, SameShape a b →
      listing a pattern components ⊆ listing b pattern components := by
    intro a b h
    have hdirectory : a.isDirectory = b.isDirectory := funext h.isDirectory
    rw [listing, listing, bound_eq, bound_eq, h.depth, hdirectory]
    split
    · exact List.filter_subset _ (expand_subset h _ _ _)
    · exact expand_subset h _ _ _
  exact ⟨fun hmem => hsubset h hmem, fun hmem => hsubset h.symm hmem⟩

end StyleDocs.Wildcard
