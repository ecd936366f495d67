import StyleDocs.Proofs.FileTree.Edit
import StyleDocs.Proofs.FileTree.Steps

/-!
# Writing into a tree

Creating directories changes no file, and a text that is written to a path is read back from it. On
the way to a file there are only directories, and they stay where they are when the file is written.
-/

namespace StyleDocs.FileTree

variable {tree : FileTree}

/-! ### Directories that are created -/

theorem files_put_directory {location : Location} (h : tree.nodeAt? location = none) :
    (tree.put location .directory).files = tree.files := by
  have hne : location ≠ [] := by
    rintro rfl
    cases h
  have hstays : tree.nodes.filter (·.1 != location) = tree.nodes := by
    refine List.filter_eq_self.2 fun entry hentry => ?_
    have hlocation : entry.1 ≠ location := by
      rintro rfl
      have hsome := (isSome_nodeAt?_iff hne).2
        ⟨entry, hentry, List.isPrefixOf_iff_prefix.2 List.prefix_rfl⟩
      rw [h] at hsome
      cases hsome
    simpa using hlocation
  rw [files, put, hstays]
  rfl

theorem files_makeDirectory {made : FileTree} {path : Text}
    (h : tree.makeDirectory path = .ok made) : made.files = tree.files := by
  unfold makeDirectory at h
  split at h
  · cases h
  · dsimp only at h
    split at h
    · cases h
    · next place hplace =>
      split at h
      · cases h
      · cases h
      · split at h
        · cases h
        · split at h
          · split at h
            · cases h
            · next hfree =>
              cases h
              exact files_put_directory hfree
          · cases h

/-- Creating directories, as far as they are missing, changes no file. -/
theorem files_makeDirectoriesOf {made : FileTree} {path : Text} {upward : List Path.Component}
    (h : tree.makeDirectoriesOf path upward = .ok made) : made.files = tree.files := by
  induction upward generalizing tree path made with
  | nil =>
    cases h
    rfl
  | cons c upward ih =>
    unfold makeDirectoriesOf at h
    split at h
    · next hmade =>
      cases h
      exact files_makeDirectory hmade
    · split at h
      · cases h
      · next above habove =>
        split at h
        · next hmade =>
          cases h
          exact (files_makeDirectory hmade).trans (ih habove)
        · split at h
          · cases h
            exact ih habove
          · cases h
    · split at h
      · cases h
        rfl
      · cases h

theorem files_makeDirectories {made : FileTree} {path : Text}
    (h : tree.makeDirectories path = .ok made) : made.files = tree.files :=
  files_makeDirectoriesOf h

/-! ### The file that is written -/

/-- A directory stays where it is when something is put elsewhere. -/
theorem nodeAt?_put_of_directory {location other : Location} {node : Node}
    (h : tree.nodeAt? other = some .directory) (hother : other ≠ location) :
    (tree.put location node).nodeAt? other = some .directory := by
  by_cases hne : other = []
  · rw [nodeAt?, if_pos hne]
  · rw [nodeAt?, if_neg hne] at h ⊢
    rw [find?_put hother]
    split at h
    · exact h
    · split at h
      · next hany => rw [any_isPrefixOf_put hany, if_pos rfl]
      · cases h

/-- The way to a location leads through the same directories when something is put there. -/
theorem foldlM_follow_put {location : Location} {node : Node} {parts : List Text} {place : Place}
    (hfree : tree.nodeAt? location ≠ some .directory)
    (h : parts.foldlM tree.follow place = .ok (.within location)) :
    parts.foldlM (tree.put location node).follow place = .ok (.within location) := by
  induction parts generalizing place with
  | nil => exact h
  | cons part rest ih =>
    rw [List.foldlM_cons] at h ⊢
    obtain ⟨next, hnext, hrest⟩ := bind_eq_ok_iff.1 h
    have hdirectory : tree.at? place = some .directory := directory_of_follow hnext
    have hstays : (tree.put location node).at? place = some .directory := by
      cases place with
      | within other =>
        refine nodeAt?_put_of_directory hdirectory ?_
        rintro rfl
        exact hfree hdirectory
      | above => rfl
      | outside => cases hdirectory
    have hsame : (tree.put location node).follow place part = tree.follow place part := by
      unfold follow
      rw [hstays, hdirectory]
    rw [hsame, hnext]
    exact ih hrest

/-- A text is decoded from its encoding. -/
theorem decode?_encode (t : Text) : decode? (encode t) = some t := by
  unfold decode? encode String.fromUTF8? String.toUTF8
  rw [dif_pos (String.ofList t).isValidUTF8]
  exact congrArg some String.toList_ofList

/-- What is written to a path is read back from it. -/
theorem read_put_target {location : Location} {path : Text} (h : tree.target path = .ok location)
    (t : Text) : (tree.put location (.file (encode t))).read path = .ok t := by
  unfold target at h
  split at h
  · cases h
  · next found hresolve =>
    split at h
    · cases h
    · next hfree =>
      cases h
      have hne : location ≠ [] := by
        rintro rfl
        exact hfree rfl
      have hpath : (tree.put location (.file (encode t))).resolve path =
          .ok (.within location) := by
        unfold resolve at hresolve ⊢
        split at hresolve
        · cases hresolve
        · next hpath =>
          rw [if_neg hpath]
          exact foldlM_follow_put (fun h => hfree h) hresolve
      rw [read, lookup, hpath]
      dsimp only [at?]
      rw [nodeAt?_put_self hne]
      dsimp only
      rw [decode?_encode]
  · cases h
  · cases h

end StyleDocs.FileTree
