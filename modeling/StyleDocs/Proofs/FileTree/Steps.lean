import StyleDocs.Proofs.FileTree
import StyleDocs.Proofs.Path.Steps

/-!
# Following the steps of a path

A path that ends in a step leads where its steps lead: an empty part or a dot asks for a directory,
and so does the step behind it. A name leads one directory down and two dots lead one up, so the
steps tell the depth of the location, and nothing leads back from above the working directory.
-/

namespace StyleDocs

namespace FileTree

open StyleDocs.Path

variable {tree : FileTree}

/-! ### Names -/

/-- A name that is read from a part without a slash is one that a file or directory can have. -/
theorem isName_of_inner? {part name : Text} (hpart : '/' ∉ part)
    (h : inner? part = some (.name name)) : IsName name := by
  unfold inner? at h
  split at h
  · cases h
  · next hstep =>
    split at h
    · cases h
    · next hup =>
      cases h
      simp only [Bool.or_eq_true, decide_eq_true_eq, not_or] at hstep
      exact ⟨hstep.1, hstep.2, hup, hpart⟩

/-- The names among the components of a path are names that a file or directory can have. -/
theorem isName_of_mem_components {path name : Text} (h : .name name ∈ components path) :
    IsName name := by
  rcases mem_components h with ⟨hroot, -⟩ | hhere | ⟨part, hpart, hinner⟩
  · cases hroot
  · cases hhere
  · exact isName_of_inner? (Text.not_mem_of_mem_splitAt hpart) hinner

theorem IsName.isStep {name : Text} (h : IsName name) : isStep name = true := by
  simp [Path.isStep, h.1, h.2.1]

/-- A name with an extension is a name. -/
theorem IsName.append_extension {name extension : Text} (h : IsName name)
    (hextension : '/' ∉ extension) : IsName (name ++ '.' :: extension) := by
  obtain ⟨hne, hhere, -, hslash⟩ := h
  refine ⟨by simp, by simp [List.append_eq_singleton_iff, hne], fun hup => ?_, ?_⟩
  · -- Two dots are the dot and an empty extension behind it.
    have hlength := congrArg List.length hup
    obtain ⟨c, rfl⟩ : ∃ c, name = [c] := List.length_eq_one_iff.1 (by
      have hpos := List.length_pos_iff.2 hne
      simp at hlength
      omega)
    simp_all
  · rw [List.mem_append, List.mem_cons]
    rintro (hmem | hmem | hmem)
    · exact hslash hmem
    · exact absurd hmem (by decide)
    · exact hextension hmem

/-- What a name begins with is no dots. -/
theorem IsName.not_dots_of_begin {name text : Text} (h : IsName name) (hbegin : name <+: text) :
    text ≠ ['.'] ∧ text ≠ ['.', '.'] := by
  constructor <;> rintro rfl
  · rcases List.prefix_cons_iff.1 hbegin with hnil | ⟨rest, rfl, hrest⟩
    · exact h.1 hnil
    · obtain rfl := List.prefix_nil.1 hrest
      exact h.2.1 rfl
  · rcases List.prefix_cons_iff.1 hbegin with hnil | ⟨rest, rfl, hrest⟩
    · exact h.1 hnil
    · rcases List.prefix_cons_iff.1 hrest with rfl | ⟨rest', rfl, hrest'⟩
      · exact h.2.1 rfl
      · obtain rfl := List.prefix_nil.1 hrest'
        exact h.2.2.1 rfl

/-! ### Parts that lead nowhere -/

/-- From where there is no directory every part fails alike. -/
theorem follow_of_not_directory {place : Place} (h : tree.at? place ≠ some .directory) :
    ∃ cause, ∀ part, tree.follow place part = .error cause := by
  unfold follow
  cases hat : tree.at? place with
  | none => exact ⟨.notFound, fun _ => rfl⟩
  | some node =>
    cases node with
    | file content => exact ⟨.notADirectory, fun _ => rfl⟩
    | directory => exact absurd hat h

theorem follow_of_not_isStep {place : Place} {part : Text} (h : tree.at? place = some .directory)
    (hpart : isStep part = false) : tree.follow place part = .ok place := by
  have hpart' : (part = [] || part = ['.']) = true := by
    simpa using isStep_eq_false_iff.1 hpart
  unfold follow
  rw [h]
  simp only [hpart', if_true]

/-- Parts that lead nowhere may be left out, unless one is the last. -/
theorem foldlM_follow_steps {parts : List Text}
    (hlast : ∀ last, parts.getLast? = some last → isStep last = true) (place : Place) :
    parts.foldlM tree.follow place = (parts.filter isStep).foldlM tree.follow place := by
  induction parts generalizing place with
  | nil => rfl
  | cons part rest ih =>
    have ih := ih fun last hrest => hlast last (by cases rest with
      | nil => cases hrest
      | cons next rest => simpa using hrest)
    by_cases hpart : isStep part = true
    · rw [List.filter_cons_of_pos hpart, List.foldlM_cons, List.foldlM_cons]
      simp only [ih]
    · rw [List.filter_cons_of_neg hpart, List.foldlM_cons]
      simp only [ih]
      by_cases hdirectory : tree.at? place = some .directory
      · rw [follow_of_not_isStep hdirectory (by simpa using hpart)]
        rfl
      · -- The last part is a step, and the first step fails where this part fails.
        obtain ⟨cause, hcause⟩ := follow_of_not_directory hdirectory
        have hne := List.cons_ne_nil part rest
        have hstep := hlast _ (List.getLast?_eq_some_getLast hne)
        have hmem : (part :: rest).getLast hne ∈ rest := by
          rcases List.mem_cons.1 (List.getLast_mem hne) with hsame | hmem
          · exact absurd (hsame ▸ hstep) hpart
          · exact hmem
        obtain ⟨first, others, hsteps⟩ := List.exists_cons_of_ne_nil
          (List.ne_nil_of_mem (List.mem_filter.2 ⟨hmem, hstep⟩))
        rw [hsteps, List.foldlM_cons, hcause, hcause]
        rfl

/-- A path that ends in a step leads where its steps lead. -/
theorem resolve_eq_steps {path : Text}
    (hlast : ∀ last, (Text.splitAt '/' path).getLast? = some last → isStep last = true) :
    tree.resolve path = (steps path).foldlM tree.follow (start path) := by
  rw [resolve, if_neg, foldlM_follow_steps hlast]
  · rfl
  · rintro rfl
    exact absurd (hlast [] rfl) (by decide)

/-! ### The depth of a location -/

/-- From a location below the working directory two dots lead one directory up and a name leads
down. -/
theorem follow_within {location : Location} {step : Text} (hstep : isStep step = true)
    {next : Place} (h : tree.follow (.within location) step = .ok next) :
    (step = ['.', '.'] ∧ location = [] ∧ next = .above) ∨
      (step = ['.', '.'] ∧ location ≠ [] ∧ next = .within location.dropLast) ∨
      (step ≠ ['.', '.'] ∧ next = .within (location ++ [step])) := by
  have hpart : ¬ (step = [] || step = ['.']) = true := by
    simpa [isStep] using hstep
  unfold follow at h
  split at h
  · cases h
  · cases h
  · rw [if_neg hpart] at h
    split at h
    · next hup =>
      dsimp only at h
      split at h
      · next hroot => exact Or.inl ⟨hup, hroot, (Except.ok.inj h).symm⟩
      · next hne => exact Or.inr (Or.inl ⟨hup, hne, (Except.ok.inj h).symm⟩)
    · next hup => exact Or.inr (Or.inr ⟨hup, (Except.ok.inj h).symm⟩)

/-- Nothing outside leads back. -/
theorem follow_outside {place next : Place} (hplace : ∀ location, place ≠ .within location)
    {part : Text} (h : tree.follow place part = .ok next) (location : Location) :
    next ≠ .within location := by
  cases place with
  | within other => exact absurd rfl (hplace other)
  | above =>
    change (if _ then Except.ok _ else if _ then Except.ok _ else Except.ok _) = _ at h
    split at h
    · cases h
      simp
    · split at h <;> cases h <;> simp
  | outside => cases h

/-- A computation that goes on gives a result exactly when both of its parts do. -/
theorem bind_eq_ok_iff {α β : Type} {x : Except FileError α} {f : α → Except FileError β} {b : β} :
    (x >>= f) = .ok b ↔ ∃ a, x = .ok a ∧ f a = .ok b := by
  cases x with
  | error cause => simp [bind, Except.bind]
  | ok a => simp [bind, Except.bind]

theorem foldlM_outside {steps : List Text} {place : Place}
    (hplace : ∀ location, place ≠ .within location) (location : Location) :
    steps.foldlM tree.follow place ≠ .ok (.within location) := by
  induction steps generalizing place with
  | nil =>
    intro h
    exact hplace location (Except.ok.inj h)
  | cons step steps ih =>
    rw [List.foldlM_cons, Ne, bind_eq_ok_iff]
    rintro ⟨next, hfollow, hrest⟩
    exact ih (follow_outside hplace hfollow) hrest

/-- Each name adds a name to the location and each pair of dots takes one away. -/
theorem length_of_foldlM {steps : List Text} (hsteps : ∀ step ∈ steps, isStep step = true)
    {front location : Location}
    (h : steps.foldlM tree.follow (.within front) = .ok (.within location)) :
    location.length + 2 * steps.count ['.', '.'] = front.length + steps.length := by
  induction steps generalizing front with
  | nil =>
    cases h
    rfl
  | cons step steps ih =>
    obtain ⟨hstep, hrest⟩ := List.forall_mem_cons.1 hsteps
    rw [List.foldlM_cons, bind_eq_ok_iff] at h
    obtain ⟨next, hfollow, h⟩ := h
    rcases follow_within hstep hfollow with ⟨-, -, rfl⟩ | ⟨rfl, hne, rfl⟩ | ⟨hname, rfl⟩
    · exact absurd h (foldlM_outside (fun _ => by simp) location)
    · have hlength := ih hrest h
      have hpos := List.length_pos_iff.2 hne
      rw [List.count_cons_self, List.length_cons]
      rw [List.length_dropLast] at hlength
      omega
    · have hlength := ih hrest h
      rw [List.count_cons_of_ne hname, List.length_cons]
      rw [List.length_append, List.length_singleton] at hlength
      omega

/-- A location to which a name leads ends in the name, behind a location of the depth to which the
steps in front of the name lead. -/
theorem location_of_foldlM {steps : List Text} (hsteps : ∀ step ∈ steps, isStep step = true)
    {name : Text} (hname : IsName name) {location : Location}
    (h : (steps ++ [name]).foldlM tree.follow (.within []) = .ok (.within location)) :
    ∃ front, location = front ++ [name] ∧
      front.length + 2 * steps.count ['.', '.'] = steps.length := by
  rw [List.foldlM_append, bind_eq_ok_iff] at h
  obtain ⟨next, hnext, h⟩ := h
  cases next with
  | within front =>
    rw [List.foldlM_cons, bind_eq_ok_iff] at h
    obtain ⟨found, hfollow, hfound⟩ := h
    obtain rfl := Except.ok.inj hfound
    rcases follow_within hname.isStep hfollow with ⟨hup, -⟩ | ⟨hup, -⟩ | ⟨-, hlocation⟩
    · exact absurd hup hname.2.2.1
    · exact absurd hup hname.2.2.1
    · exact ⟨front, Place.within.inj hlocation, by simpa using length_of_foldlM hsteps hnext⟩
  | above | outside => exact absurd h (foldlM_outside (fun _ => by simp) location)

/-- Two ways from the working directory to one location, the second of which goes only down behind
`base`, end in one name, and the first goes down as often as the second and once more each time it
goes up. -/
theorem eq_of_same_location {base steps names : List Text} {name name' : Text}
    {location : Location} (hbase : ∀ step ∈ base, isStep step = true)
    (hsteps : ∀ step ∈ steps, isStep step = true) (hnames : ∀ text ∈ names, IsName text)
    (hname : IsName name) (hname' : IsName name')
    (h : (base ++ steps ++ [name]).foldlM tree.follow (.within []) = .ok (.within location))
    (h' : (base ++ names ++ [name']).foldlM tree.follow (.within []) = .ok (.within location)) :
    name = name' ∧ names.length + 2 * steps.count ['.', '.'] = steps.length := by
  have hbehind : ∀ {behind : List Text}, (∀ step ∈ behind, isStep step = true) →
      ∀ step ∈ base ++ behind, isStep step = true := fun hbehind step hstep =>
    (List.mem_append.1 hstep).elim (hbase step) (hbehind step)
  obtain ⟨front, hfront, hdepth⟩ := location_of_foldlM (hbehind hsteps) hname h
  obtain ⟨front', hfront', hdepth'⟩ :=
    location_of_foldlM (hbehind fun text htext => (hnames text htext).isStep) hname' h'
  obtain ⟨rfl, hends⟩ := List.append_inj' (hfront.symm.trans hfront') rfl
  have hcount : names.count ['.', '.'] = 0 :=
    List.count_eq_zero.2 fun hmem => (hnames _ hmem).2.2.1 rfl
  rw [List.count_append, List.length_append] at hdepth hdepth'
  exact ⟨by simpa using hends, by omega⟩

/-! ### The directories on the way -/

/-- Whether every location in front of this one is a directory. -/
def Walked (tree : FileTree) (location : Location) : Prop :=
  ∀ front name rest, location = front ++ name :: rest → tree.nodeAt? front = some .directory

theorem walked_nil : tree.Walked [] := by
  intro front name rest h
  simp at h

theorem Walked.dropLast {location : Location} (h : tree.Walked location) :
    tree.Walked location.dropLast := by
  intro front name rest hdrop
  have hprefix : location.dropLast <+: location := List.dropLast_prefix location
  obtain ⟨behind, hbehind⟩ := hprefix
  exact h front name (rest ++ behind) (by rw [← hbehind, hdrop]; simp)

theorem Walked.concat {location : Location} (h : tree.Walked location)
    (hdirectory : tree.nodeAt? location = some .directory) (name : Text) :
    tree.Walked (location ++ [name]) := by
  intro front next rest happ
  rcases List.eq_nil_or_concat rest with rfl | ⟨init, last, rfl⟩
  · rw [← (List.append_inj' happ rfl).1]
    exact hdirectory
  · rw [List.concat_eq_append, ← List.cons_append, ← List.append_assoc] at happ
    exact h front next init (List.append_inj' happ rfl).1

/-- Whatever is followed is a directory. -/
theorem directory_of_follow {place next : Place} {part : Text}
    (h : tree.follow place part = .ok next) : tree.at? place = some .directory := by
  by_contra hdirectory
  obtain ⟨cause, hcause⟩ := follow_of_not_directory hdirectory
  rw [hcause] at h
  cases h

/-- Only directories are passed on the way to a location. -/
theorem walked_of_foldlM {steps : List Text} (hsteps : ∀ step ∈ steps, isStep step = true)
    {front location : Location} (hfront : tree.Walked front)
    (h : steps.foldlM tree.follow (.within front) = .ok (.within location)) :
    tree.Walked location := by
  induction steps generalizing front with
  | nil =>
    cases h
    exact hfront
  | cons step steps ih =>
    obtain ⟨hstep, hrest⟩ := List.forall_mem_cons.1 hsteps
    rw [List.foldlM_cons, bind_eq_ok_iff] at h
    obtain ⟨next, hfollow, h⟩ := h
    rcases follow_within hstep hfollow with ⟨-, -, rfl⟩ | ⟨-, -, rfl⟩ | ⟨-, rfl⟩
    · exact absurd h (foldlM_outside (fun _ => by simp) location)
    · exact ih hrest hfront.dropLast h
    · exact ih hrest (hfront.concat (directory_of_follow hfollow) step) h

/-- Steps that lead from the working directory to a file end in its name. -/
theorem getLast?_of_file {steps : List Text} (hsteps : ∀ step ∈ steps, isStep step = true)
    {location : Location} {content : ByteArray}
    (h : steps.foldlM tree.follow (.within []) = .ok (.within location))
    (hfile : tree.nodeAt? location = some (.file content)) :
    ∃ name, steps.getLast? = some name ∧ name ≠ ['.', '.'] := by
  rcases List.eq_nil_or_concat steps with rfl | ⟨init, last, rfl⟩
  · cases h
    cases hfile
  · rw [List.concat_eq_append] at h hsteps ⊢
    refine ⟨last, List.getLast?_concat, ?_⟩
    rintro rfl
    rw [List.foldlM_append, bind_eq_ok_iff] at h
    obtain ⟨place, hinit, h⟩ := h
    rw [List.foldlM_cons, bind_eq_ok_iff] at h
    obtain ⟨next, hfollow, hnext⟩ := h
    obtain rfl := Except.ok.inj hnext
    cases place with
    | within front =>
      have hwalked : tree.Walked front :=
        walked_of_foldlM (fun step hstep => hsteps step (List.mem_append_left _ hstep)) walked_nil
          hinit
      rcases follow_within rfl hfollow with ⟨-, -, hplace⟩ | ⟨-, hne, hplace⟩ | ⟨hup, -⟩
      · cases hplace
      · -- Two dots lead back to a directory that was passed.
        obtain rfl := Place.within.inj hplace
        have hpassed := hwalked front.dropLast (front.getLast hne) []
          (List.dropLast_append_getLast hne).symm
        rw [hpassed] at hfile
        cases hfile
      · exact absurd rfl hup
    | above | outside => exact absurd rfl (follow_outside (fun _ => by simp) hfollow location)

/-! ### Paths of files -/

/-- A path with a file leads to a location below the working directory. -/
theorem location_of_isFile {path : Text} (h : tree.isFile path = true) :
    ∃ location content, tree.resolve path = .ok (.within location) ∧
      tree.nodeAt? location = some (.file content) := by
  have hlookup : ∃ content, tree.lookup path = .ok (.file content) := by
    unfold isFile at h
    split at h
    · exact ⟨_, by assumption⟩
    · cases h
  obtain ⟨content, hlookup⟩ := hlookup
  unfold lookup at hlookup
  split at hlookup
  · cases hlookup
  · next place hresolve =>
    split at hlookup
    · next node hnode =>
      obtain rfl := Except.ok.inj hlookup
      cases place with
      | within location => exact ⟨location, content, hresolve, hnode⟩
      | above | outside => cases hnode
    · cases hlookup

/-- A path with a file is relative and leads from the working directory where its steps lead. -/
theorem resolve_of_isFile {path : Text} (h : tree.isFile path = true) :
    isAbsolute path = false ∧
      tree.resolve path = (steps path).foldlM tree.follow (.within []) := by
  obtain ⟨location, content, hresolve, hnode⟩ := location_of_isFile h
  have hne : path ≠ [] := by
    rintro rfl
    cases hresolve
  have hparts : (Text.splitAt '/' path).foldlM tree.follow (start path) =
      .ok (.within location) := by
    rwa [resolve, if_neg hne] at hresolve
  have hrelative : isAbsolute path = false := by
    rw [← Bool.not_eq_true]
    intro habs
    rw [start, habs] at hparts
    exact foldlM_outside (fun _ => by simp) location hparts
  have hlast : ∀ last, (Text.splitAt '/' path).getLast? = some last → isStep last = true := by
    intro last hlast
    obtain ⟨front, hfront⟩ := List.getLast?_eq_some_iff.1 hlast
    rw [hfront, List.foldlM_append, bind_eq_ok_iff] at hparts
    obtain ⟨place, -, hparts⟩ := hparts
    rw [List.foldlM_cons, bind_eq_ok_iff] at hparts
    obtain ⟨found, hfollow, hfound⟩ := hparts
    obtain rfl := Except.ok.inj hfound
    -- A part that leads nowhere is behind a directory, and there it stays.
    by_cases hdirectory : tree.at? place = some .directory
    · rw [← Bool.not_eq_false]
      intro hpart
      rw [follow_of_not_isStep hdirectory hpart] at hfollow
      obtain rfl := Except.ok.inj hfollow
      rw [at?, hnode] at hdirectory
      cases hdirectory
    · obtain ⟨cause, hcause⟩ := follow_of_not_directory hdirectory
      rw [hcause] at hfollow
      cases hfollow
  refine ⟨hrelative, ?_⟩
  rw [resolve_eq_steps hlast, start, hrelative]
  rfl

/-- A path with a file ends in a name. -/
theorem exists_fileName?_of_isFile {path : Text} (h : tree.isFile path = true) :
    ∃ file, fileName? path = some file := by
  obtain ⟨location, content, hresolve, hfile⟩ := location_of_isFile h
  obtain ⟨hrelative, hsteps⟩ := resolve_of_isFile h
  rw [hsteps] at hresolve
  obtain ⟨name, hlast, hname⟩ :=
    getLast?_of_file (fun step hstep => (List.mem_filter.1 hstep).2) hresolve hfile
  rw [← steps, steps_eq] at hlast
  rcases List.eq_nil_or_concat (components path) with hnil | ⟨front, c, hconcat⟩
  · rw [hnil] at hlast
    cases hlast
  · rw [List.concat_eq_append] at hconcat
    rw [hconcat, List.filterMap_append] at hlast
    cases c with
    | name text => exact ⟨text, by rw [fileName?, hconcat, List.getLast?_concat]⟩
    | up =>
      rw [show [Component.up].filterMap Component.step? = [['.', '.']] from rfl,
        List.getLast?_concat] at hlast
      exact absurd (Option.some.inj hlast).symm hname
    | root =>
      have hroot : .root ∈ components path := hconcat ▸ List.mem_append_right _ List.mem_cons_self
      rw [root_mem_components_iff, hrelative] at hroot
      cases hroot
    | here =>
      obtain rfl := front_eq_nil_of_here hconcat
      cases hlast

end FileTree

end StyleDocs
