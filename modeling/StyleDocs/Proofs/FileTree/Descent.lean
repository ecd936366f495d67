import StyleDocs.Proofs.FileTree.Shape
import StyleDocs.Proofs.Path.Plain

/-!
# Going down through names

From a location that is a directory each name leads one directory down, whether it is the last part
of a path or is read below one. So a path of names has a file exactly when there is one at the
location of these names and every location in front of it is a directory.
-/

namespace StyleDocs.FileTree

open StyleDocs.Path

variable {tree : FileTree}

theorem follow_name {location : Location} {name : Text}
    (hdirectory : tree.nodeAt? location = some .directory) (hname : IsName name) :
    tree.follow (.within location) name = .ok (.within (location ++ [name])) := by
  obtain ⟨hne, hhere, hup, -⟩ := hname
  unfold follow
  rw [at?, hdirectory]
  simp [hne, hhere, hup]

theorem start_append {path : Text} (hne : path ≠ []) (rest : Text) :
    start (path ++ rest) = start path := by
  rw [start, start, isAbsolute, List.head?_append_of_ne_nil path hne]
  rfl

theorem foldlM_singleton (place : Place) (part : Text) :
    [part].foldlM tree.follow place = tree.follow place part := by
  rw [List.foldlM_cons]
  cases tree.follow place part <;> rfl

/-- A part that is read below a path leads on from where the path leads. -/
theorem resolve_join_part {path part : Text} {place : Place} (hpath : tree.resolve path = .ok place)
    (hpart : '/' ∉ part) : tree.resolve (join path part) = tree.follow place part := by
  have hne : path ≠ [] := by
    rintro rfl
    cases hpath
  rw [resolve, if_neg hne] at hpath
  rw [resolve, if_neg (join_ne_nil hne part), join,
    if_neg (by simp [isAbsolute_of_not_mem hpart])]
  split
  · next hlast =>
    -- Behind the slash at the end there is an empty part, which leads from a directory to itself.
    obtain ⟨front, rfl⟩ : ∃ front, path = front ++ ['/'] := by
      have hdrop := List.dropLast_append_getLast hne
      rw [List.getLast?_eq_some_getLast hne] at hlast
      have hslash : path.getLast hne = '/' := by simpa using hlast
      exact ⟨path.dropLast, by rw [← hslash, hdrop]⟩
    have hempty : Text.splitAt '/' (front ++ ['/']) = Text.splitAt '/' front ++ [[]] :=
      Text.splitAt_append_mark '/' front []
    rw [hempty, List.foldlM_append, bind_eq_ok_iff] at hpath
    obtain ⟨before, hfront, hlast⟩ := hpath
    rw [foldlM_singleton] at hlast
    rw [follow_of_not_isStep (directory_of_follow hlast) (by decide)] at hlast
    obtain rfl := Except.ok.inj hlast
    rw [start_append hne, List.append_assoc, List.singleton_append, Text.splitAt_append_mark,
      Text.splitAt_of_not_mem hpart, List.foldlM_append, hfront]
    exact foldlM_singleton before part
  · rw [start_append hne, Text.splitAt_append_mark, Text.splitAt_of_not_mem hpart,
      List.foldlM_append, hpath]
    exact foldlM_singleton place part

/-- What stands in front of something on the way is a directory. -/
theorem Walked.directory {front behind : Location} (h : tree.Walked (front ++ behind))
    (hne : behind ≠ []) : tree.nodeAt? front = some .directory := by
  obtain ⟨name, rest, rfl⟩ := List.exists_cons_of_ne_nil hne
  exact h front name rest rfl

/-- Where names lead. -/
theorem location_of_names {names : List Text} (hnames : ∀ name ∈ names, IsName name)
    {front location : Location}
    (h : names.foldlM tree.follow (.within front) = .ok (.within location)) :
    location = front ++ names := by
  induction names generalizing front with
  | nil =>
    cases h
    exact (List.append_nil _).symm
  | cons name names ih =>
    obtain ⟨hname, hrest⟩ := List.forall_mem_cons.1 hnames
    rw [List.foldlM_cons, bind_eq_ok_iff] at h
    obtain ⟨next, hfollow, h⟩ := h
    rw [follow_name (directory_of_follow hfollow) hname] at hfollow
    obtain rfl := Except.ok.inj hfollow
    rw [ih hrest h, List.append_assoc, List.singleton_append]

/-- A path of names with a file leads through directories to the location of the names. -/
theorem walked_of_isFile {path : Text} (h : tree.isFile path = true)
    (hnames : ∀ step ∈ steps path, IsName step) :
    tree.resolve path = .ok (.within (steps path)) ∧ tree.Walked (steps path) ∧
      (tree.nodeAt? (steps path)).isSome := by
  obtain ⟨location, content, hresolve, hfile⟩ := location_of_isFile h
  have hfollow := hresolve
  rw [(resolve_of_isFile h).2] at hfollow
  obtain rfl : location = steps path := location_of_names hnames hfollow
  have hsteps : ∀ step ∈ steps path, isStep step = true := fun step hstep =>
    (hnames step hstep).isStep
  exact ⟨hresolve, walked_of_foldlM hsteps walked_nil hfollow, by rw [hfile]; rfl⟩

/-- A file stands where it is listed. -/
theorem mem_files_of_nodeAt? {location : Location} {content : ByteArray}
    (h : tree.nodeAt? location = some (.file content)) : (location, content) ∈ tree.files := by
  unfold nodeAt? at h
  split at h
  · cases h
  · split at h
    · next found node hfind =>
      obtain rfl := Option.some.inj h
      obtain rfl : found = location := by simpa using List.find?_some hfind
      exact List.mem_filterMap.2 ⟨_, List.mem_of_find?_eq_some hfind, rfl⟩
    · split at h <;> cases h

/-- A path with the steps of a file has the file as well, if it is relative and ends in a step. -/
theorem isFile_of_steps_eq {path other : Text} (h : tree.isFile path = true)
    (hsteps : steps path = steps other) (hrelative : isAbsolute other = false)
    (hlast : ∀ last, (Text.splitAt '/' other).getLast? = some last → isStep last = true) :
    tree.isFile other = true := by
  have hresolve : tree.resolve other = tree.resolve path := by
    rw [resolve_eq_steps hlast, (resolve_of_isFile h).2, hsteps, start, hrelative]
    rfl
  rw [isFile_congr hresolve, h]

end StyleDocs.FileTree
