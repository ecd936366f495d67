import StyleDocs.Proofs.FileTree.Shape

/-!
# Trees that differ in one file

Editing a file leaves the shape of the tree as it is, and every path that does not lead to the file
is read as before.
-/

namespace StyleDocs.FileTree

/-- Two trees have the same everywhere but at one location, where each has a file. -/
structure EditedAt (location : Location) (a b : FileTree) : Prop where
  /-- Every other location has the same in both. -/
  elsewhere : ∀ other, other ≠ location → a.nodeAt? other = b.nodeAt? other
  /-- The first tree has a file at the location. -/
  before : (a.nodeAt? location).map Node.isFile = some true
  /-- The second tree has a file at the location. -/
  after : (b.nodeAt? location).map Node.isFile = some true

namespace EditedAt

variable {location : Location} {a b : FileTree} (h : EditedAt location a b)

include h

theorem sameShape : SameShape a b := by
  intro other
  by_cases hother : other = location
  · rw [hother, h.before, h.after]
  · rw [h.elsewhere other hother]

/-- A path that does not lead to the location is read alike. -/
theorem read_congr {path : Text} (hpath : a.resolve path ≠ .ok (.within location)) :
    a.read path = b.read path := by
  refine h.sameShape.read_congr fun place hplace => ?_
  rw [← h.sameShape.resolve] at hplace
  cases place with
  | within other =>
    refine h.elsewhere other ?_
    rintro rfl
    exact hpath hplace
  | above | outside => rfl

end EditedAt

/-- What is put at one location is not found at another. -/
theorem find?_put {tree : FileTree} {location other : Location} {node : Node}
    (hother : other ≠ location) :
    (tree.put location node).nodes.find? (·.1 == other) = tree.nodes.find? (·.1 == other) := by
  rw [put, List.find?_cons_of_neg (by simpa using Ne.symm hother), List.find?_filter]
  congr 1
  funext entry
  by_cases hentry : entry.1 = other <;> simp [hentry, hother]

/-- What goes on behind a location goes on behind it when something is put into the tree. -/
theorem any_isPrefixOf_put {tree : FileTree} {location other : Location} {node : Node}
    (h : tree.nodes.any (fun e => other.isPrefixOf e.1) = true) :
    (tree.put location node).nodes.any (fun e => other.isPrefixOf e.1) = true := by
  obtain ⟨entry, hentry, hbegin⟩ := List.any_eq_true.1 h
  rw [put, List.any_cons, Bool.or_eq_true, List.any_eq_true]
  by_cases hlocation : entry.1 = location
  · exact Or.inl (hlocation ▸ hbegin)
  · exact Or.inr ⟨entry, List.mem_filter.2 ⟨hentry, by simpa using hlocation⟩, hbegin⟩

theorem nodeAt?_put_self {tree : FileTree} {location : Location} (hne : location ≠ [])
    (node : Node) : (tree.put location node).nodeAt? location = some node := by
  rw [nodeAt?, if_neg hne, put, List.find?_cons_of_pos (by simp)]

/-- Writing a file over a file edits the tree at its location. -/
theorem editedAt_put {tree : FileTree} {location : Location} {content content' : ByteArray}
    (hfile : tree.nodeAt? location = some (.file content)) :
    EditedAt location tree (tree.put location (.file content')) := by
  have hne : location ≠ [] := by
    rintro rfl
    cases hfile
  have hmem : ∃ entry ∈ tree.nodes, entry.1 = location := by
    rw [nodeAt?, if_neg hne] at hfile
    split at hfile
    · next found node hfind =>
      exact ⟨_, List.mem_of_find?_eq_some hfind, by simpa using List.find?_some hfind⟩
    · split at hfile <;> cases hfile
  refine ⟨fun other hother => ?_, by rw [hfile]; rfl, ?_⟩
  · have hany : (tree.put location (.file content')).nodes.any (fun e => other.isPrefixOf e.1) =
        tree.nodes.any (fun e => other.isPrefixOf e.1) := by
      rw [Bool.eq_iff_iff]
      refine ⟨fun h => ?_, any_isPrefixOf_put⟩
      rw [put, List.any_cons, Bool.or_eq_true, List.any_eq_true] at h
      rw [List.any_eq_true]
      rcases h with hbegin | ⟨entry, hentry, hbegin⟩
      · obtain ⟨entry, hentry, hlocation⟩ := hmem
        exact ⟨entry, hentry, hlocation ▸ hbegin⟩
      · exact ⟨entry, (List.mem_filter.1 hentry).1, hbegin⟩
    rw [nodeAt?, nodeAt?, find?_put hother, hany]
  · rw [nodeAt?_put_self hne]
    rfl

end StyleDocs.FileTree
