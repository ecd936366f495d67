import Mathlib.Data.List.Nodup
import StyleDocs.FileTree

/-!
# The shape of a file tree

Two trees have one shape when the same locations hold files and the same locations hold directories;
what the files contain is another matter. A path leads to the same place in both, and a directory
lists the same names, though perhaps in another order. Only reading a file tells them apart.
-/

namespace StyleDocs

/-- Whether the node is a file. -/
def Node.isFile : Node → Bool
  | .file _ => true
  | .directory => false

namespace FileTree

variable {a b tree : FileTree}

/-! ### What a tree lists -/

theorem isPrefixOf_append_singleton_iff {location deeper : Location} {name : Text} :
    (location ++ [name]).isPrefixOf deeper = true ↔ nameBelow? location deeper = some name := by
  rw [List.isPrefixOf_iff_prefix, nameBelow?]
  constructor
  · rintro ⟨rest, rfl⟩
    simp
  · intro h
    split at h
    · next hbegin =>
      obtain ⟨rest, rfl⟩ := List.isPrefixOf_iff_prefix.1 hbegin
      cases rest with
      | nil => simp at h
      | cons first rest =>
        obtain rfl : first = name := by simpa using h
        exact ⟨rest, by simp⟩
    · cases h

/-- Something stands below the working directory exactly where an entry is or an entry goes
through. -/
theorem isSome_nodeAt?_iff {location : Location} (hne : location ≠ []) :
    (tree.nodeAt? location).isSome ↔ ∃ entry ∈ tree.nodes, location.isPrefixOf entry.1 = true := by
  rw [nodeAt?, if_neg hne]
  split
  · next found node hfind =>
    have hmem := List.mem_of_find?_eq_some hfind
    have hlocation : found = location := by simpa using List.find?_some hfind
    simp only [Option.isSome_some, true_iff]
    exact ⟨_, hmem, List.isPrefixOf_iff_prefix.2 (hlocation ▸ List.prefix_rfl)⟩
  · split
    · next hany => simpa using hany
    · next hany => simpa using hany

/-- A directory lists the names under which something stands in it. -/
theorem mem_namesAt_iff {location : Location} {name : Text} :
    name ∈ tree.namesAt (.within location) ↔ (tree.nodeAt? (location ++ [name])).isSome := by
  rw [isSome_nodeAt?_iff (by simp), namesAt, List.mem_eraseDups, List.mem_filterMap]
  simp only [isPrefixOf_append_singleton_iff]

/-! ### Trees of one shape -/

/-- The same locations hold files and the same locations hold directories. -/
def SameShape (a b : FileTree) : Prop :=
  ∀ location, (a.nodeAt? location).map Node.isFile = (b.nodeAt? location).map Node.isFile

theorem SameShape.symm (h : SameShape a b) : SameShape b a := fun location => (h location).symm

namespace SameShape

variable (h : SameShape a b)

include h

theorem isSome_nodeAt? (location : Location) :
    (a.nodeAt? location).isSome = (b.nodeAt? location).isSome := by
  simpa using congrArg Option.isSome (h location)

/-- At one place both trees have nothing, or a directory, or a file each. -/
theorem at?_cases (place : Place) :
    (a.at? place = none ∧ b.at? place = none) ∨
      (a.at? place = some .directory ∧ b.at? place = some .directory) ∨
      ∃ content content', a.at? place = some (.file content) ∧
        b.at? place = some (.file content') := by
  have hat : (a.at? place).map Node.isFile = (b.at? place).map Node.isFile := by
    cases place with
    | within location => exact h location
    | above | outside => rfl
  cases ha : a.at? place with
  | none => cases hb : b.at? place with
    | none => exact Or.inl ⟨rfl, rfl⟩
    | some node => rw [ha, hb] at hat; cases hat
  | some node => cases hb : b.at? place with
    | none => rw [ha, hb] at hat; cases hat
    | some node' =>
      rw [ha, hb] at hat
      cases node <;> cases node' <;> cases hat
      · exact Or.inr (Or.inr ⟨_, _, rfl, rfl⟩)
      · exact Or.inr (Or.inl ⟨rfl, rfl⟩)

theorem follow (place : Place) (part : Text) : a.follow place part = b.follow place part := by
  unfold FileTree.follow
  rcases h.at?_cases place with ⟨ha, hb⟩ | ⟨ha, hb⟩ | ⟨_, _, ha, hb⟩ <;> rw [ha, hb]

/-- A path leads to the same place in both trees. -/
theorem resolve (path : Text) : a.resolve path = b.resolve path := by
  have hfollow : a.follow = b.follow := funext fun place => funext (h.follow place)
  rw [FileTree.resolve, FileTree.resolve, hfollow]

/-- A path fails for the same cause in both trees, or it has a directory, or a file in each. -/
theorem lookup_cases (path : Text) :
    (∃ cause, a.lookup path = .error cause ∧ b.lookup path = .error cause) ∨
      (a.lookup path = .ok .directory ∧ b.lookup path = .ok .directory) ∨
      ∃ content content', a.lookup path = .ok (.file content) ∧
        b.lookup path = .ok (.file content') := by
  rw [lookup, lookup, h.resolve]
  cases b.resolve path with
  | error cause => exact Or.inl ⟨cause, rfl, rfl⟩
  | ok place =>
    rcases h.at?_cases place with ⟨ha, hb⟩ | ⟨ha, hb⟩ | ⟨_, _, ha, hb⟩ <;>
      (dsimp only; rw [ha, hb])
    · exact Or.inl ⟨_, rfl, rfl⟩
    · exact Or.inr (Or.inl ⟨rfl, rfl⟩)
    · exact Or.inr (Or.inr ⟨_, _, rfl, rfl⟩)

theorem has (path : Text) : a.has path = b.has path := by
  unfold FileTree.has
  rcases h.lookup_cases path with ⟨_, ha, hb⟩ | ⟨ha, hb⟩ | ⟨_, _, ha, hb⟩ <;>
    simp [ha, hb, Except.isOk, Except.toBool]

theorem isDirectory (path : Text) : a.isDirectory path = b.isDirectory path := by
  unfold FileTree.isDirectory
  rcases h.lookup_cases path with ⟨_, ha, hb⟩ | ⟨ha, hb⟩ | ⟨_, _, ha, hb⟩ <;> rw [ha, hb]

theorem isFile (path : Text) : a.isFile path = b.isFile path := by
  unfold FileTree.isFile
  rcases h.lookup_cases path with ⟨_, ha, hb⟩ | ⟨ha, hb⟩ | ⟨_, _, ha, hb⟩ <;> rw [ha, hb]

/-- A directory cannot be listed in both trees for the same cause, or it lists the same names. -/
theorem list_cases (path : Text) :
    (∃ cause, a.list path = .error cause ∧ b.list path = .error cause) ∨
      ∃ names names', a.list path = .ok names ∧ b.list path = .ok names' ∧
        ∀ name, name ∈ names ↔ name ∈ names' := by
  have hnames : ∀ place name, name ∈ a.namesAt place ↔ name ∈ b.namesAt place := by
    intro place name
    cases place with
    | within location => rw [mem_namesAt_iff, mem_namesAt_iff, h.isSome_nodeAt?]
    | above | outside => rfl
  rw [FileTree.list, FileTree.list, h.resolve]
  cases b.resolve path with
  | error cause => exact Or.inl ⟨cause, rfl, rfl⟩
  | ok place =>
    rcases h.at?_cases place with ⟨ha, hb⟩ | ⟨ha, hb⟩ | ⟨_, _, ha, hb⟩ <;>
      (dsimp only; rw [ha, hb])
    · exact Or.inl ⟨_, rfl, rfl⟩
    · exact Or.inr ⟨_, _, rfl, rfl, hnames place⟩
    · exact Or.inl ⟨_, rfl, rfl⟩

/-- A path can be read alike in both trees when they have the same at the place it leads to. -/
theorem read_congr {path : Text}
    (hat : ∀ place, b.resolve path = .ok place → a.at? place = b.at? place) :
    a.read path = b.read path := by
  have hlookup : a.lookup path = b.lookup path := by
    rw [lookup, lookup, h.resolve]
    cases hplace : b.resolve path with
    | error cause => rfl
    | ok place =>
      dsimp only
      rw [hat place hplace]
  rw [read, read, hlookup]

end SameShape

/-- Trees with the same nodes have the same at every location when no location is listed twice. -/
theorem nodeAt?_congr (hnodes : ∀ entry, entry ∈ a.nodes ↔ entry ∈ b.nodes)
    (hlocations : (a.nodes.map Prod.fst).Nodup) (location : Location) :
    a.nodeAt? location = b.nodeAt? location := by
  have hfind : a.nodes.find? (·.1 == location) = b.nodes.find? (·.1 == location) := by
    cases ha : a.nodes.find? (·.1 == location) with
    | none =>
      refine (List.find?_eq_none.2 fun entry hentry => ?_).symm
      exact List.find?_eq_none.1 ha entry ((hnodes entry).2 hentry)
    | some entry =>
      have hentry := List.mem_of_find?_eq_some ha
      have hlocation : entry.1 = location := by simpa using List.find?_some ha
      have hsome : (b.nodes.find? (·.1 == location)).isSome := by
        rw [List.find?_isSome]
        exact ⟨entry, (hnodes entry).1 hentry, by simpa using hlocation⟩
      obtain ⟨other, hb⟩ := Option.isSome_iff_exists.1 hsome
      have hother : other.1 = location := by simpa using List.find?_some hb
      rw [hb, List.inj_on_of_nodup_map hlocations hentry
        ((hnodes other).2 (List.mem_of_find?_eq_some hb)) (hlocation.trans hother.symm)]
  have hany : a.nodes.any (fun e => location.isPrefixOf e.1) =
      b.nodes.any (fun e => location.isPrefixOf e.1) := by
    rw [Bool.eq_iff_iff, List.any_eq_true, List.any_eq_true]
    simp only [hnodes]
  rw [nodeAt?, nodeAt?, hfind, hany]

/-! ### The depth of a tree -/

/-- The length of the longest location that is listed. -/
def depth (tree : FileTree) : Nat := tree.nodes.foldl (fun m e => max m e.1.length) 0

theorem foldl_max_le_iff {nodes : List (Location × Node)} {start bound : Nat} :
    nodes.foldl (fun m e => max m e.1.length) start ≤ bound ↔
      start ≤ bound ∧ ∀ entry ∈ nodes, entry.1.length ≤ bound := by
  induction nodes generalizing start with
  | nil => simp
  | cons entry rest ih =>
    rw [List.foldl_cons, ih, List.forall_mem_cons, Nat.max_le, and_assoc]

theorem depth_le_iff {bound : Nat} :
    tree.depth ≤ bound ↔ ∀ entry ∈ tree.nodes, entry.1.length ≤ bound := by
  rw [depth, foldl_max_le_iff]
  simp

/-- Nothing stands deeper than the depth of the tree. -/
theorem length_le_depth {location : Location} (h : (tree.nodeAt? location).isSome) :
    location.length ≤ tree.depth := by
  by_cases hne : location = []
  · simp [hne]
  · obtain ⟨deeper, hdeeper, hbegin⟩ := (isSome_nodeAt?_iff hne).1 h
    exact Nat.le_trans (List.isPrefixOf_iff_prefix.1 hbegin).length_le
      (depth_le_iff.1 (Nat.le_refl _) deeper hdeeper)

/-- Trees of one shape are equally deep. -/
theorem SameShape.depth_le (h : SameShape a b) : a.depth ≤ b.depth := by
  refine depth_le_iff.2 fun entry hentry => ?_
  by_cases hne : entry.1 = []
  · simp [hne]
  · have hsome : (a.nodeAt? entry.1).isSome :=
      (isSome_nodeAt?_iff hne).2 ⟨entry, hentry, List.isPrefixOf_iff_prefix.2 List.prefix_rfl⟩
    rw [h.isSome_nodeAt?] at hsome
    exact length_le_depth hsome

theorem SameShape.depth (h : SameShape a b) : a.depth = b.depth :=
  Nat.le_antisymm h.depth_le h.symm.depth_le

end FileTree

end StyleDocs
