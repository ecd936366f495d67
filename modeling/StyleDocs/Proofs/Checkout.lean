import Mathlib.Data.List.Basic
import StyleDocs.Checkout

/-!
# Selections of a checkout

A checkout holds the directories that git was last told to keep. Only the refresh that makes the
checkout tells it, and it does so behind the clone; every later refresh brings up to date what is
there. So a history of refreshes has at most one selection, that of the refresh whose clone
succeeded, and when this refresh succeeded as a whole, its selection stands from then on.
-/

namespace StyleDocs.Checkout

/-! ### The calls of one refresh -/

/-- The steps that succeed when steps are made one after the other until one fails, the first of
them by the call of git with the given place. -/
def achieved (git : Nat → Outcome) : List Step → (place : Nat) → List Step
  | [], _ => []
  | step :: steps, place =>
    if git place = .exited 0 then step :: achieved git steps (place + 1) else []

/-- Those of some calls of git that succeeded; the first call has the given place. -/
def successesFrom (git : Nat → Outcome) (place : Nat) (calls : List (List Text)) :
    List (List Text) :=
  ((calls.zipIdx place).filter fun call => git call.2 = .exited 0).map Prod.fst

theorem successesFrom_cons (git : Nat → Outcome) (place : Nat) (call : List Text)
    (calls : List (List Text)) :
    successesFrom git place (call :: calls) =
      (if git place = .exited 0 then [call] else []) ++ successesFrom git (place + 1) calls := by
  rw [successesFrom, List.zipIdx_cons, List.filter_cons]
  by_cases h : git place = .exited 0 <;> simp [h, successesFrom]

theorem judge_eq_ok_iff (settings : Settings) (step : Step) (outcome : Outcome) :
    settings.judge step outcome = .ok () ↔ outcome = .exited 0 := by
  cases outcome with
  | notStarted cause => simp [Settings.judge]
  | exited code => by_cases h : code = 0 <;> simp [Settings.judge, h]
  | killed number => simp [Settings.judge]

/-- A step that succeeds is followed by the others. -/
theorem perform_of_success (settings : Settings) {git : Nat → Outcome} {place : Nat}
    (h : git place = .exited 0) (step : Step) (steps : List Step) :
    perform settings git (step :: steps) place =
      (settings.arguments step :: (perform settings git steps (place + 1)).1,
        (perform settings git steps (place + 1)).2) := by
  rw [perform, h]
  rfl

/-- A step that does not succeed is the last. -/
theorem perform_of_failure (settings : Settings) {git : Nat → Outcome} {place : Nat}
    (h : git place ≠ .exited 0) (step : Step) (steps : List Step) :
    ∃ failure, perform settings git (step :: steps) place =
      (if (git place).wasStarted then [settings.arguments step] else [], .error failure) := by
  cases hjudge : settings.judge step (git place) with
  | error failure => exact ⟨failure, by rw [perform, hjudge]⟩
  | ok _ => exact absurd ((judge_eq_ok_iff settings step _).1 hjudge) h

/-- The calls that succeed are those of the steps that succeed. -/
theorem successesFrom_perform (settings : Settings) (git : Nat → Outcome) (steps : List Step)
    (place : Nat) :
    successesFrom git place (perform settings git steps place).1 =
      (achieved git steps place).map settings.arguments := by
  induction steps generalizing place with
  | nil => rfl
  | cons step steps ih =>
    by_cases h : git place = .exited 0
    · rw [perform_of_success settings h, successesFrom_cons, ih, achieved, if_pos h, if_pos h]
      rfl
    · obtain ⟨failure, hperform⟩ := perform_of_failure settings h step steps
      rw [hperform, achieved, if_neg h]
      cases (git place).wasStarted with
      | false => rfl
      | true => simp [successesFrom, h]

/-- Making steps succeeds exactly when all of them do. -/
theorem perform_snd_eq_ok_iff (settings : Settings) (git : Nat → Outcome) (steps : List Step)
    (place : Nat) :
    (perform settings git steps place).2 = .ok () ↔ achieved git steps place = steps := by
  induction steps generalizing place with
  | nil => simp [perform, achieved]
  | cons step steps ih =>
    by_cases h : git place = .exited 0
    · rw [perform_of_success settings h, achieved, if_pos h]
      simpa using ih (place + 1)
    · obtain ⟨failure, hperform⟩ := perform_of_failure settings h step steps
      simp [hperform, achieved, h]

/-! ### Histories of refreshes -/

/-- One refresh of a checkout. -/
structure Refresh where
  /-- What it is told. -/
  settings : Settings
  /-- The files that it finds. -/
  tree : FileTree
  /-- How its calls of git turn out. -/
  git : Nat → Outcome

namespace Refresh

/-- Whether the refresh finds a checkout. -/
def isUpdate (r : Refresh) : Bool := isPresent r.tree r.settings.checkout

/-- What the refresh does. -/
def run (r : Refresh) : Run := refresh r.settings r.isUpdate r.git

/-- The arguments of the calls of git that succeed, in order. -/
def successes (r : Refresh) : List (List Text) := successesFrom r.git 0 r.run.calls

/-- Whether a clone succeeds. -/
def hasCloned (r : Refresh) : Bool := r.successes.contains (r.settings.arguments .clone)

theorem successes_eq (r : Refresh) :
    r.successes = (achieved r.git (steps r.isUpdate) 0).map r.settings.arguments :=
  successesFrom_perform r.settings r.git (steps r.isUpdate) 0

theorem result_eq_ok_iff (r : Refresh) :
    r.run.result = .ok () ↔ achieved r.git (steps r.isUpdate) 0 = steps r.isUpdate :=
  perform_snd_eq_ok_iff r.settings r.git (steps r.isUpdate) 0

/-- A refresh that finds a checkout does nothing but bring it up to date. -/
theorem successes_of_isUpdate {r : Refresh} (h : r.isUpdate = true) :
    r.successes = [] ∨ r.successes = [r.settings.arguments .pull] := by
  rw [successes_eq, h]
  by_cases h0 : r.git 0 = .exited 0
  · exact Or.inr (by simp [steps, achieved, h0])
  · exact Or.inl (by simp [steps, achieved, h0])

/-- A refresh that finds no checkout and clones nothing does not succeed in anything. -/
theorem successes_of_not_cloned {r : Refresh} (h : r.isUpdate = false)
    (hclone : r.hasCloned = false) : r.successes = [] ∧ r.run.result ≠ .ok () := by
  have hfirst : r.git 0 ≠ .exited 0 := by
    intro h0
    rw [hasCloned, successes_eq, h] at hclone
    simp [steps, achieved, h0] at hclone
  rw [Ne, result_eq_ok_iff, successes_eq, h]
  simp [steps, achieved, hfirst]

/-- A refresh that finds no checkout and succeeds has cloned and then selected. -/
theorem successes_of_made {r : Refresh} (h : r.isUpdate = false) (hok : r.run.result = .ok ()) :
    r.successes = [r.settings.arguments .clone, r.settings.arguments .sparse] := by
  rw [successes_eq, (result_eq_ok_iff r).1 hok, h]
  rfl

theorem arguments_pull_ne_clone (settings : Settings) :
    settings.arguments .pull ≠ settings.arguments .clone := by
  intro h
  exact absurd (List.cons.inj h).1 (by decide)

/-- A refresh that finds a checkout clones nothing. -/
theorem hasCloned_of_isUpdate {r : Refresh} (h : r.isUpdate = true) : r.hasCloned = false := by
  rw [hasCloned]
  rcases successes_of_isUpdate h with hs | hs
  · rw [hs]
    rfl
  · rw [hs]
    simpa using (arguments_pull_ne_clone r.settings).symm

end Refresh

/-- The refreshes of one checkout, one after the other, up to the files that the last one leaves. At
first there is no checkout. Of git no more is known than that a clone that succeeds makes the
checkout and that nothing else makes or removes it. -/
inductive History (checkout : Text) : List Refresh → FileTree → Prop
  /-- Nothing has been done yet. -/
  | start {tree : FileTree} (habsent : isPresent tree checkout = false) : History checkout [] tree
  /-- One more refresh. -/
  | next {refreshes : List Refresh} {r : Refresh} {tree : FileTree}
      (earlier : History checkout refreshes r.tree) (hcheckout : r.settings.checkout = checkout)
      (hmade : isPresent tree checkout = (r.isUpdate || r.hasCloned)) :
      History checkout (refreshes ++ [r]) tree

/-- All calls of git that succeeded in some refreshes, in order. -/
def log (refreshes : List Refresh) : List (List Text) := refreshes.flatMap Refresh.successes

/-- The directories that a call of git selects for a checkout, if it is a call that selects. -/
def selection? (checkout : Text) (call : List Text) : Option (List Text) :=
  ["-C".toList, checkout, "sparse-checkout".toList, "set".toList].isPrefixOf? call

/-- The selections for a checkout that succeeded in some refreshes, in order. -/
def selections (checkout : Text) (refreshes : List Refresh) : List (List Text) :=
  (log refreshes).filterMap (selection? checkout)

theorem selection?_clone (checkout : Text) (settings : Settings) :
    selection? checkout (settings.arguments .clone) = none := rfl

theorem selection?_pull (checkout : Text) (settings : Settings) :
    selection? checkout (settings.arguments .pull) = none := by
  cases hfound : selection? checkout (settings.arguments .pull) with
  | none => rfl
  | some directories =>
    rw [selection?, List.isPrefixOf?_eq_some_iff_append_eq] at hfound
    simp [Settings.arguments] at hfound

theorem selection?_sparse {checkout : Text} {settings : Settings}
    (h : settings.checkout = checkout) :
    selection? checkout (settings.arguments .sparse) = some settings.directories := by
  rw [selection?, List.isPrefixOf?_eq_some_iff_append_eq]
  simp [Settings.arguments, h]

/-- The refreshes of a checkout that is there, around the one that made it. -/
structure Making (checkout : Text) (refreshes : List Refresh) where
  /-- The refreshes before the one that made the checkout. -/
  before : List Refresh
  /-- The refresh that made the checkout. -/
  maker : Refresh
  /-- The refreshes behind it. -/
  behind : List Refresh
  /-- These are all. -/
  split : refreshes = before ++ maker :: behind
  /-- Before, nothing succeeded. -/
  idle : ∀ r ∈ before, r.successes = []
  /-- The maker is told the checkout. -/
  told : maker.settings.checkout = checkout
  /-- The maker finds no checkout. -/
  fresh : maker.isUpdate = false
  /-- The maker clones. -/
  cloned : maker.hasCloned = true
  /-- Behind it, the checkout is found. -/
  updates : ∀ r ∈ behind, r.isUpdate = true

/-- In every history, either there is no checkout and nothing has succeeded, or there is a checkout
and one refresh that made it. -/
theorem History.idle_or_making {checkout : Text} {refreshes : List Refresh} {tree : FileTree}
    (h : History checkout refreshes tree) :
    (isPresent tree checkout = false ∧
        ∀ r ∈ refreshes, r.successes = [] ∧ r.run.result ≠ .ok ()) ∨
      (isPresent tree checkout = true ∧ Nonempty (Making checkout refreshes)) := by
  induction h with
  | start habsent => exact Or.inl ⟨habsent, by simp⟩
  | @next refreshes r tree earlier hcheckout hmade ih =>
    have hfound : r.isUpdate = isPresent r.tree checkout := by rw [Refresh.isUpdate, hcheckout]
    rcases ih with ⟨habsent, hidle⟩ | ⟨hpresent, ⟨making⟩⟩
    · have hfresh : r.isUpdate = false := hfound.trans habsent
      cases hcloned : r.hasCloned with
      | false =>
        refine Or.inl ⟨by rw [hmade, hfresh, hcloned]; rfl, ?_⟩
        intro r' hr'
        rcases List.mem_append.1 hr' with hr' | hr'
        · exact hidle r' hr'
        · rw [List.mem_singleton.1 hr']
          exact Refresh.successes_of_not_cloned hfresh hcloned
      | true =>
        exact Or.inr ⟨by rw [hmade, hcloned, Bool.or_true], ⟨{
          before := refreshes
          maker := r
          behind := []
          split := rfl
          idle := fun r' hr' => (hidle r' hr').1
          told := hcheckout
          fresh := hfresh
          cloned := hcloned
          updates := by simp }⟩⟩
    · have hupdate : r.isUpdate = true := hfound.trans hpresent
      refine Or.inr ⟨by rw [hmade, hupdate, Bool.true_or], ⟨{ making with
        behind := making.behind ++ [r]
        split := (congrArg (· ++ [r]) making.split).trans (List.append_assoc ..)
        updates := ?_ }⟩⟩
      intro r' hr'
      rcases List.mem_append.1 hr' with hr' | hr'
      · exact making.updates r' hr'
      · rw [List.mem_singleton.1 hr']
        exact hupdate

namespace Making

variable {checkout : Text} {refreshes : List Refresh}

/-- What succeeded in all refreshes succeeded in the maker and behind it. -/
theorem log_eq (making : Making checkout refreshes) :
    log refreshes = making.maker.successes ++ log making.behind := by
  have hidle : log making.before = [] := List.flatMap_eq_nil_iff.2 making.idle
  calc
    log refreshes = log (making.before ++ making.maker :: making.behind) :=
      congrArg log making.split
    _ = log making.before ++ (making.maker.successes ++ log making.behind) := by simp [log]
    _ = making.maker.successes ++ log making.behind := by rw [hidle, List.nil_append]

/-- Only the maker clones. -/
theorem not_cloned (making : Making checkout refreshes) :
    ∀ r ∈ making.before ++ making.behind, r.hasCloned = false := by
  intro r hr
  rcases List.mem_append.1 hr with hr | hr
  · rw [Refresh.hasCloned, making.idle r hr]
    rfl
  · exact Refresh.hasCloned_of_isUpdate (making.updates r hr)

/-- Nothing is selected behind the maker. -/
theorem selections_behind (making : Making checkout refreshes) :
    selections checkout making.behind = [] := by
  rw [selections, List.filterMap_eq_nil_iff]
  intro call hcall
  obtain ⟨r, hr, hmem⟩ := List.mem_flatMap.1 hcall
  rcases Refresh.successes_of_isUpdate (making.updates r hr) with hs | hs
  · rw [hs] at hmem
    contradiction
  · rw [hs] at hmem
    rw [List.mem_singleton.1 hmem]
    exact selection?_pull checkout r.settings

end Making

/-- When a refresh succeeds, exactly one refresh up to then has cloned. If that one succeeded as a
whole, its selection is the only one that has succeeded: it came right behind the clone, and behind
it the checkout was only brought up to date. In particular a refresh that clones and succeeds leaves
its own selection. -/
theorem selection_of_maker {checkout : Text} {refreshes : List Refresh} {tree : FileTree}
    (h : History checkout refreshes tree) {last : Refresh}
    (hlast : refreshes.getLast? = some last) (hok : last.run.result = .ok ()) :
    ∃ before maker behind, refreshes = before ++ maker :: behind ∧
      maker.hasCloned = true ∧ (∀ r ∈ before ++ behind, r.hasCloned = false) ∧
      (maker.run.result = .ok () →
        log refreshes = maker.settings.arguments .clone :: maker.settings.arguments .sparse ::
            log behind ∧
          selections checkout refreshes = [maker.settings.directories]) ∧
      (last.hasCloned = true → selections checkout refreshes = [last.settings.directories]) := by
  have hmem : last ∈ refreshes := List.mem_of_getLast? hlast
  rcases h.idle_or_making with ⟨-, hidle⟩ | ⟨-, ⟨making⟩⟩
  · exact absurd hok (hidle last hmem).2
  · have hselected : making.maker.run.result = .ok () →
        log refreshes = making.maker.settings.arguments .clone ::
            making.maker.settings.arguments .sparse :: log making.behind ∧
          selections checkout refreshes = [making.maker.settings.directories] := by
      intro hmaker
      have hlog := making.log_eq
      rw [Refresh.successes_of_made making.fresh hmaker] at hlog
      refine ⟨hlog, ?_⟩
      rw [selections, hlog, List.filterMap_append, ← selections, making.selections_behind]
      simp [List.filterMap_cons, selection?_clone, selection?_sparse making.told]
    refine ⟨making.before, making.maker, making.behind, making.split, making.cloned,
      making.not_cloned, hselected, ?_⟩
    intro hcloned
    have hsame : last = making.maker := by
      rw [making.split, List.mem_append, List.mem_cons] at hmem
      rcases hmem with hmem | hmem | hmem
      · rw [making.not_cloned last (List.mem_append_left _ hmem)] at hcloned
        contradiction
      · exact hmem
      · rw [making.not_cloned last (List.mem_append_right _ hmem)] at hcloned
        contradiction
    rw [hsame] at hok ⊢
    exact (hselected hok).2

/-! ### Two histories -/

/-- Two refreshes, of which the first finds no checkout. -/
theorem History.pair {checkout : Text} {r s : Refresh} {tree : FileTree}
    (hr : r.settings.checkout = checkout) (hs : s.settings.checkout = checkout)
    (habsent : isPresent r.tree checkout = false)
    (hmade : isPresent s.tree checkout = (r.isUpdate || r.hasCloned))
    (hlast : isPresent tree checkout = (s.isUpdate || s.hasCloned)) :
    History checkout [r, s] tree :=
  ((History.start habsent).next hr hmade).next hs hlast

/-- What a refresh is told that selects one directory. -/
def selecting (directory : String) : Settings where
  repository := "r".toList
  checkout := "co".toList
  directories := [directory.toList]

/-- No files. -/
def bareTree : FileTree := ⟨[]⟩

/-- The files of a fresh checkout. -/
def madeTree : FileTree := ⟨[(["co".toList, ".git".toList], .directory)]⟩

/-- A first refresh that succeeds, and one behind it that names another directory. -/
def renamed : List Refresh :=
  [⟨selecting "a", bareTree, fun _ => .exited 0⟩, ⟨selecting "b", madeTree, fun _ => .exited 0⟩]

/-- A first refresh whose selection fails, and one behind it that names the same directory. -/
def halved : List Refresh :=
  [⟨selecting "a", bareTree, fun place => .exited place⟩,
    ⟨selecting "a", madeTree, fun _ => .exited 0⟩]

theorem history_renamed : History "co".toList renamed madeTree :=
  .pair rfl rfl (by decide) (by decide) (by decide)

theorem history_halved : History "co".toList halved madeTree :=
  .pair rfl rfl (by decide) (by decide) (by decide)

/-- Of two refreshes that succeed, the first has cloned and its selection stands. -/
theorem selection_of_maker_renamed :
    History "co".toList renamed madeTree ∧
      ∃ before maker behind, renamed = before ++ maker :: behind ∧ maker.hasCloned = true ∧
        selections "co".toList renamed = [maker.settings.directories] := by
  refine ⟨history_renamed, ?_⟩
  obtain ⟨before, maker, behind, hsplit, hcloned, -, hselected, -⟩ :=
    selection_of_maker history_renamed rfl rfl
  have hok : ∀ r ∈ renamed, r.run.result = .ok () := by
    intro r hr
    rcases List.mem_cons.1 hr with rfl | hr
    · rfl
    · rw [List.mem_singleton.1 hr]
      rfl
  have hmaker : maker ∈ renamed := by
    rw [hsplit]
    exact List.mem_append_right _ List.mem_cons_self
  exact ⟨before, maker, behind, hsplit, hcloned, (hselected (hok maker hmaker)).2⟩

/-- A refresh may succeed when the last selection that succeeded is another than its own, and when
none has succeeded. -/
theorem success_without_selection :
    (History "co".toList renamed madeTree ∧
        ∃ last, renamed.getLast? = some last ∧ last.run.result = .ok () ∧
          (selections "co".toList renamed).getLast? ≠ some last.settings.directories) ∧
      (History "co".toList halved madeTree ∧
        ∃ last, halved.getLast? = some last ∧ last.run.result = .ok () ∧
          selections "co".toList halved = []) := by
  refine ⟨⟨history_renamed, _, rfl, rfl, ?_⟩, history_halved, _, rfl, rfl, rfl⟩
  decide

end StyleDocs.Checkout
