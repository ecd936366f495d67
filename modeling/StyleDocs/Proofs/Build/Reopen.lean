import StyleDocs.Proofs.Build.Shadow
import StyleDocs.Proofs.FileTree.Steps
import StyleDocs.Proofs.Path.Document
import StyleDocs.Proofs.Scan

/-!
# The file that is scanned and the file that is read

A scan keeps of the path of a document the names behind the root, and the document is read at the
path that is put together from them. What leads up is not kept, and neither is a stem that is no
name; so the two paths lead to one file exactly when there was nothing of that kind to lose and the
name ended in the extension of documents.
-/

namespace StyleDocs.Build

open StyleDocs.Path FileTree

/-- Whether a path can be put together again from what a scan keeps of it: behind the root it leads
through names to a file whose stem is a name and whose extension is that of documents. -/
def Restorable (conv : Conventions) (path : Text) : Prop :=
  ∃ front file, components path = components conv.root ++ (front ++ [.name file]) ∧
    .up ∉ front ∧ extension? file = some conv.extension ∧
    stem file ≠ ['.'] ∧ stem file ≠ ['.', '.']

variable {conv : Conventions} {tree : FileTree} {path name document : Text}

/-- The names that a scan keeps of a path that leads to a file behind the root. -/
def kept (front : List Component) (file : Text) : List Text :=
  names front ++ names (inner? (stem file)).toList

theorem kept_of_stem (front : List Component) {file : Text} (hne : stem file ≠ [])
    (hhere : stem file ≠ ['.']) (hdots : stem file ≠ ['.', '.']) :
    kept front file = names front ++ [stem file] := by
  have hinner : inner? (stem file) = some (.name (stem file)) := by
    simp [inner?, hne, hhere, hdots]
  rw [kept, hinner]
  rfl

/-- A scan keeps the names of the directories behind the root and the stem of the file. -/
theorem exists_of_document? (h : Scan.document? conv path = some (name, document)) :
    ∃ front file, components path = components conv.root ++ (front ++ [.name file]) ∧
      kept front file ≠ [] ∧ document = Text.joinWith ['/'] (kept front file) := by
  unfold Scan.document? at h
  split at h
  · cases h
  · next file hfile =>
    split at h
    · cases h
    · obtain ⟨document, hdocument, hpair⟩ := Option.map_eq_some_iff.1 h
      cases hpair
      obtain ⟨rest, hpath, hne, rfl⟩ := documentPath?_eq_some hdocument
      rcases List.eq_nil_or_concat rest with rfl | ⟨front, last, rfl⟩
      · exact absurd rfl hne
      · rw [List.concat_eq_append] at hpath hne ⊢
        have hlast : last = .name file := by
          unfold fileName? at hfile
          rw [hpath, ← List.append_assoc, List.getLast?_concat] at hfile
          cases last with
          | name text => rw [Option.some.inj hfile]
          | root | here | up => cases hfile
        subst hlast
        have hnames : names (dropExtension (front ++ [.name file])) = kept front file := by
          rw [dropExtension_append, names, List.filterMap_append]
          rfl
        rw [hnames] at hne ⊢
        exact ⟨front, file, hpath, hne, rfl⟩

theorem isName_of_mem_kept {front : List Component} {file : Text}
    (hpath : components path = components conv.root ++ (front ++ [.name file])) {text : Text}
    (h : text ∈ kept front file) : IsName text := by
  have hmem : ∀ c ∈ front ++ [Component.name file], c ∈ components path := fun c hc =>
    hpath ▸ List.mem_append_right _ hc
  rcases List.mem_append.1 h with h | h
  · exact isName_of_mem_components (hmem _ (List.mem_append_left _ (mem_names_iff.1 h)))
  · have hfile : IsName file :=
      isName_of_mem_components (hmem _ (List.mem_append_right _ List.mem_cons_self))
    exact isName_of_inner? (fun hslash => hfile.2.2.2 (mem_of_mem_stem hslash))
      (Option.mem_toList.1 (mem_names_iff.1 h))

/-- The path at which a document is read leads where its names lead from the root. -/
theorem resolve_documentFile {init : List Text} {last : Text}
    (hnames : ∀ text ∈ init ++ [last], IsName text) (hroot : isAbsolute conv.root = false)
    (hextension : '/' ∉ conv.extension) :
    tree.resolve (conv.documentFile (Text.joinWith ['/'] (init ++ [last]))) =
      (steps conv.root ++ (init ++ [last ++ '.' :: conv.extension])).foldlM tree.follow
        (.within []) := by
  have hlastName : IsName (last ++ '.' :: conv.extension) :=
    (hnames last (by simp)).append_extension hextension
  have hparts : ∀ text ∈ init ++ [last ++ '.' :: conv.extension], IsName text := by
    intro text htext
    rcases List.mem_append.1 htext with htext | htext
    · exact hnames text (List.mem_append_left _ htext)
    · exact List.mem_singleton.1 htext ▸ hlastName
  have hsplit : Text.splitAt '/' (Text.joinWith ['/'] (init ++ [last ++ '.' :: conv.extension])) =
      init ++ [last ++ '.' :: conv.extension] :=
    Text.splitAt_joinWith (by simp) fun text htext => (hparts text htext).2.2.2
  have hfile : conv.documentFile (Text.joinWith ['/'] (init ++ [last])) =
      join conv.root (Text.joinWith ['/'] (init ++ [last ++ '.' :: conv.extension])) := by
    rw [Conventions.documentFile, List.append_assoc, Text.joinWith_append_singleton]
    rfl
  have hrelative : isAbsolute (Text.joinWith ['/'] (init ++ [last ++ '.' :: conv.extension])) =
      false := by
    rw [← Bool.not_eq_true]
    intro habs
    have hhead := head?_splitAt_of_isAbsolute habs
    rw [hsplit] at hhead
    exact (hparts [] (List.mem_of_head? hhead)).1 rfl
  obtain ⟨front, hjoin, hfront⟩ := splitAt_join hrelative conv.root
  have hsteps : steps (conv.documentFile (Text.joinWith ['/'] (init ++ [last]))) =
      steps conv.root ++ (init ++ [last ++ '.' :: conv.extension]) := by
    rw [hfile, steps, hjoin, List.filter_append, hfront, hsplit,
      List.filter_eq_self.2 fun text htext => (hparts text htext).isStep]
  have hlast : ∀ part, (Text.splitAt '/' (conv.documentFile
      (Text.joinWith ['/'] (init ++ [last])))).getLast? = some part → isStep part = true := by
    intro part hpart
    rw [hfile, hjoin, hsplit, ← List.append_assoc, List.getLast?_concat] at hpart
    exact Option.some.inj hpart ▸ hlastName.isStep
  rw [resolve_eq_steps hlast, hsteps, start, hfile, isAbsolute_join hroot hrelative]
  rfl

/-- A path below a root is relative only if the root is. -/
theorem isAbsolute_root {rest : List Component}
    (hpath : components path = components conv.root ++ rest) (h : isAbsolute path = false) :
    isAbsolute conv.root = false := by
  rw [← Bool.not_eq_true, ← root_mem_components_iff] at h ⊢
  exact fun hroot => h (hpath ▸ List.mem_append_left _ hroot)

/-- A file that leads through names from the root is read where it was scanned. -/
theorem resolve_eq_of_restorable (hdocument : Scan.document? conv path = some (name, document))
    (hisFile : tree.isFile path = true) (h : Restorable conv path) :
    tree.resolve (conv.documentFile document) = tree.resolve path := by
  obtain ⟨front, file, hpath, hup, hextension, hhere, hdots⟩ := h
  obtain ⟨front', file', hpath', -, rfl⟩ := exists_of_document? hdocument
  obtain ⟨rfl, hfile⟩ := List.append_inj' (List.append_cancel_left (hpath'.symm.trans hpath)) rfl
  obtain rfl : file' = file := by simpa using hfile
  obtain ⟨hrelative, hresolve⟩ := resolve_of_isFile hisFile
  obtain ⟨hne, hname, -⟩ := eq_of_extension? hextension
  have hmem : .name file' ∈ components path := by simp [hpath]
  have hisName : IsName file' := isName_of_mem_components hmem
  have hkept := kept_of_stem front' hne hhere hdots
  have hslash : '/' ∉ conv.extension := fun hmem =>
    hisName.2.2.2 (hname ▸ List.mem_append_right _ (List.mem_cons_of_mem _ hmem))
  have hsteps : steps path = steps conv.root ++ (names front' ++ [file']) := by
    rw [steps_eq, hpath, List.filterMap_append, List.filterMap_append, steps_eq_names hup,
      ← steps_eq]
    rfl
  rw [hkept, resolve_documentFile (fun text htext => isName_of_mem_kept hpath (hkept ▸ htext))
    (isAbsolute_root hpath hrelative) hslash, hresolve, hsteps, ← hname]

/-- A document that is read where it was scanned has a path that leads through names from the
root. -/
theorem restorable_of_resolve_eq (hdocument : Scan.document? conv path = some (name, document))
    (hisFile : tree.isFile path = true) (hslash : '/' ∉ conv.extension)
    (h : tree.resolve (conv.documentFile document) = tree.resolve path) : Restorable conv path := by
  obtain ⟨front, file, hpath, hne, rfl⟩ := exists_of_document? hdocument
  obtain ⟨hrelative, hresolve⟩ := resolve_of_isFile hisFile
  obtain ⟨location, -, hlocation, -⟩ := location_of_isFile hisFile
  obtain ⟨init, last, hkept⟩ : ∃ init last, kept front file = init ++ [last] := by
    rcases List.eq_nil_or_concat (kept front file) with hnil | ⟨init, last, hconcat⟩
    · exact absurd hnil hne
    · exact ⟨init, last, by rw [hconcat, List.concat_eq_append]⟩
  have hnames : ∀ text ∈ init ++ [last], IsName text := fun text htext =>
    isName_of_mem_kept hpath (hkept ▸ htext)
  have hlast : IsName last := hnames last (by simp)
  have hmem : .name file ∈ components path := by simp [hpath]
  have hisName : IsName file := isName_of_mem_components hmem
  -- Both paths lead to the location: the scanned one up and down, the other only down.
  have hscanned : (steps conv.root ++ front.filterMap Component.step? ++ [file]).foldlM
      tree.follow (.within []) = .ok (.within location) := by
    rw [← hlocation, hresolve, steps_eq path, hpath, List.filterMap_append, List.filterMap_append,
      ← steps_eq, List.append_assoc]
    rfl
  have hread : (steps conv.root ++ init ++ [last ++ '.' :: conv.extension]).foldlM
      tree.follow (.within []) = .ok (.within location) := by
    rw [List.append_assoc, ← resolve_documentFile hnames (isAbsolute_root hpath hrelative) hslash,
      ← hkept, h, hlocation]
  have hsteps : ∀ step ∈ front.filterMap Component.step?, isStep step = true := by
    intro step hstep
    have hmem : step ∈ steps path := by
      rw [steps_eq path, hpath, List.filterMap_append, List.filterMap_append]
      exact List.mem_append_right _ (List.mem_append_left _ hstep)
    exact (List.mem_filter.1 hmem).2
  have hbase : ∀ step ∈ steps conv.root, isStep step = true := fun step hstep =>
    (List.mem_filter.1 hstep).2
  obtain ⟨hfile, hdepth⟩ := eq_of_same_location hbase hsteps
    (fun text htext => hnames text (List.mem_append_left _ htext)) hisName
    (hlast.append_extension hslash) hscanned hread
  have hfront : ∀ text, .name text ∈ front → text ≠ ['.', '.'] := by
    intro text htext
    have hmem : .name text ∈ components path := by simp [hpath, htext]
    exact (isName_of_mem_components hmem).2.2.1
  have hlength := length_steps hfront
  cases hextension : extension? file with
  | none =>
    have hstem := stem_of_extension?_eq_none hextension
    obtain ⟨hne, hhere, hdots, -⟩ := hstem.symm ▸ hisName
    rw [kept_of_stem front hne hhere hdots, hstem] at hkept
    obtain ⟨-, hsame⟩ := List.append_inj' hkept rfl
    have hlength := congrArg List.length hfile
    obtain rfl : file = last := by simpa using hsame
    simp at hlength
  | some extension =>
    obtain ⟨hstem, hname, hdot⟩ := eq_of_extension? hextension
    -- The name that is kept last is in front of the stem, so the stem is no dots.
    have hbegin : last <+: stem file := prefix_of_dot hdot (hname.symm.trans hfile)
    obtain ⟨hhere, hdots⟩ := hlast.not_dots_of_begin hbegin
    rw [kept_of_stem front hstem hhere hdots] at hkept
    obtain ⟨rfl, hlast⟩ := List.append_inj' hkept rfl
    obtain rfl : stem file = last := by simpa using hlast
    refine ⟨front, file, hpath, fun hmem => ?_, ?_, hhere, hdots⟩
    · have hpos : 0 < (front.filterMap Component.step?).count ['.', '.'] :=
        List.count_pos_iff.2 (List.mem_filterMap.2 ⟨.up, hmem, rfl⟩)
      omega
    · have hsame := List.append_cancel_left (hname.symm.trans hfile)
      obtain ⟨-, rfl⟩ := List.cons.inj hsame
      exact hextension

/-- Every catalogued document was found at a listed path of a file, the last of its name. If the
path leads from the root through names to a name with the extension of documents, the document is
read from this very file; and only then, unless the extension has a slash in it. -/
theorem document_read_where_scanned (conv : Conventions) (tree : FileTree) {name document : Text}
    (h : (Scan.properties conv tree).1.get? name = some document) :
    ∃ path ∈ Scan.listed conv tree,
      tree.isFile path = true ∧ Scan.document? conv path = some (name, document) ∧
        (∀ other ∈ Scan.listed conv tree, Scan.files conv name other = true →
          atMost other path = true) ∧
        (Restorable conv path →
          tree.resolve (conv.documentFile document) = tree.resolve path ∧
            tree.isFile (conv.documentFile document) = true) ∧
        ('/' ∉ conv.extension →
          tree.resolve (conv.documentFile document) = tree.resolve path →
            Restorable conv path) := by
  rw [Scan.properties_fst, Scan.get?_propertiesAt_iff] at h
  obtain ⟨path, hmem, hdocument, hbehind⟩ := h
  have hisFile := Scan.isFile_of_mem_listed hmem
  refine ⟨path, hmem, hisFile, hdocument, hbehind, fun hrestorable => ?_, fun hslash hsame =>
    restorable_of_resolve_eq hdocument hisFile hslash hsame⟩
  have hsame := resolve_eq_of_restorable hdocument hisFile hrestorable
  exact ⟨hsame, (isFile_congr hsame).trans hisFile⟩

/-- The only document of the tree is read where it was scanned. -/
theorem document_read_where_scanned_grid_rows :
    (Scan.properties {} gridTree).1.get? "Grid_Rows".toList =
        some "styles/grid/Grid_Rows".toList ∧
      gridTree.resolve (Conventions.documentFile {} "styles/grid/Grid_Rows".toList) =
        gridTree.resolve "docs/styles/grid/Grid_Rows.md".toList := by
  have hget : (Scan.properties {} gridTree).1.get? "Grid_Rows".toList =
      some "styles/grid/Grid_Rows".toList := by
    rw [properties_gridTree]
    rfl
  obtain ⟨path, hmem, -, -, -, hrestorable, -⟩ := document_read_where_scanned {} gridTree hget
  have hpath : path = "docs/styles/grid/Grid_Rows.md".toList := by
    have hlisted : Scan.listed {} gridTree = ["docs/styles/grid/Grid_Rows.md".toList] := rfl
    rw [hlisted] at hmem
    exact List.mem_singleton.1 hmem
  have hnames : Restorable {} path := by
    rw [hpath]
    exact ⟨[.name "styles".toList, .name "grid".toList], "Grid_Rows.md".toList, by decide⟩
  rw [← hpath]
  exact ⟨hget, (hrestorable hnames).1⟩

/-- A tree with two property documents of one name, in two directories of one name. -/
def twinTree : FileTree where
  nodes := [
    (["docs".toList, "styles".toList, "tint.md".toList], .file (encode "a|one".toList)),
    (["docs".toList, "x".toList, "styles".toList, "tint.md".toList], .file (encode "a|two".toList))]

/-- Behind a directory that is left again the document of one file is read from the other. -/
theorem document_read_elsewhere :
    let conv : Conventions := { propertyDirectory := "x/../styles".toList }
    (Scan.properties conv twinTree).1 = .ofList [("tint".toList, "x/styles/tint".toList)] ∧
      Scan.listed conv twinTree = ["docs/x/../styles/tint.md".toList] ∧
      twinTree.resolve "docs/x/../styles/tint.md".toList =
        .ok (.within ["docs".toList, "styles".toList, "tint.md".toList]) ∧
      twinTree.resolve (conv.documentFile "x/styles/tint".toList) =
        .ok (.within ["docs".toList, "x".toList, "styles".toList, "tint.md".toList]) := by
  intro conv
  have hpaths : ["docs/x/../styles/tint.md".toList].Pairwise
      fun a b => Path.atMost a b = true := List.pairwise_singleton _ _
  have hlisted : Scan.listed conv twinTree = ["docs/x/../styles/tint.md".toList] := by
    decide +kernel
  refine ⟨?_, hlisted, rfl, rfl⟩
  rw [properties_of_listing conv twinTree hpaths rfl hlisted]
  decide +kernel

end StyleDocs.Build
