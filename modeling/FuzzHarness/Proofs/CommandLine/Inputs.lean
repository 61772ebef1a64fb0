import FuzzHarness.CommandLine.Run
import FuzzHarness.Proofs.Demo.Run

/-!
# The inputs of a command line

A directory on the command line stands for the files in it, in the order of their names and in
whatever order they are listed; any other path stands for itself. The files are read one by one
as the run goes on. As long as the run touches none of them, each is read as it was at the
start, and the inputs come to an end in one of three ways: their classes use up the budget, a
file cannot be read, or there are no more.
-/

namespace FuzzHarness.CommandLine

/-- The files that the inputs of a command line stand for. -/
inductive Expands (tree : FileTree) : List String → List String → Prop
  | nil : Expands tree [] []
  | file {path : String} {inputs paths : List String}
      (plain : ∀ place, tree.locate path ≠ .ok (place, .directory))
      (rest : Expands tree inputs paths) : Expands tree (path :: inputs) (path :: paths)
  | directory {path : String} {place : Place} {names inputs paths : List String}
      (leads : tree.locate path = .ok (place, .directory))
      (listed : names.Perm (tree.fileNames place)) (sorted : names.Pairwise (· ≤ ·))
      (rest : Expands tree inputs paths) :
      Expands tree (path :: inputs) ((names.map (Path.join path)).filter tree.isFile ++ paths)

theorem le_iff_lt_or_eq {a b : String} : (a < b || a == b) = true ↔ a ≤ b := by
  rw [Bool.or_eq_true, decide_eq_true_iff, beq_iff_eq]
  constructor
  · rintro (less | rfl)
    · exact (String.le_total a b).resolve_right (String.not_le.mpr less)
    · exact String.le_refl a
  · intro least
    by_cases back : b ≤ a
    · exact .inr (String.le_antisymm least back)
    · exact .inl (String.not_le.mp back)

/-- Names are sorted in one way only. -/
theorem mergeSort_eq_iff {names sorted : List String} :
    sorted = names.mergeSort (fun a b => a < b || a == b) ↔
      sorted.Perm names ∧ sorted.Pairwise (· ≤ ·) := by
  have ordered : (names.mergeSort fun a b => a < b || a == b).Pairwise (· ≤ ·) := by
    refine (List.pairwise_mergeSort ?_ ?_ names).imp le_iff_lt_or_eq.mp
    · intro a b c first second
      rw [le_iff_lt_or_eq] at *
      exact String.le_trans first second
    · intro a b
      rw [Bool.or_eq_true, le_iff_lt_or_eq, le_iff_lt_or_eq]
      exact String.le_total a b
  have permuted := List.mergeSort_perm names fun a b => a < b || a == b
  constructor
  · rintro rfl
    exact ⟨permuted, ordered⟩
  · rintro ⟨perm, sorted⟩
    apply List.Perm.eq_of_pairwise _ sorted ordered (perm.trans permuted.symm)
    intro a b _ _
    exact String.le_antisymm

theorem inputsAt_of_directory {tree : FileTree} {path : String} {place : Place}
    (leads : tree.locate path = .ok (place, .directory)) :
    inputsAt tree path =
      (((tree.fileNames place).mergeSort fun a b => a < b || a == b).map (Path.join path)).filter
        tree.isFile := by
  rw [inputsAt, leads]

theorem inputsAt_of_plain {tree : FileTree} {path : String}
    (plain : ∀ place, tree.locate path ≠ .ok (place, .directory)) :
    inputsAt tree path = [path] := by
  rw [inputsAt]
  split
  · next place leads => exact absurd leads (plain place)
  · rfl

/-- Each path is replaced by the files that it stands for. -/
theorem expands_iff {tree : FileTree} {inputs paths : List String} :
    Expands tree inputs paths ↔ paths = inputs.flatMap (inputsAt tree) := by
  constructor
  · intro expands
    induction expands with
    | nil => rfl
    | file plain _ ih =>
        rw [List.flatMap_cons, inputsAt_of_plain plain, ← ih]
        rfl
    | directory leads listed sorted _ ih =>
        rw [List.flatMap_cons, inputsAt_of_directory leads, ← ih,
          mergeSort_eq_iff.mpr ⟨listed, sorted⟩]
  · rintro rfl
    induction inputs with
    | nil => exact .nil
    | cons path inputs ih =>
        rw [List.flatMap_cons]
        by_cases directory : ∃ place, tree.locate path = .ok (place, .directory)
        · obtain ⟨place, leads⟩ := directory
          obtain ⟨listed, sorted⟩ := mergeSort_eq_iff.mp rfl
          rw [inputsAt_of_directory leads]
          exact .directory leads listed sorted ih
        · have plain := not_exists.mp directory
          rw [inputsAt_of_plain plain]
          exact .file plain ih

/-- What brings the inputs of a run to an end. -/
inductive Finish where
  | spent
  | unreadable (path : String)
  | done
  deriving DecidableEq, Repr

/-- How the inputs of a run of a demo target come to an end, given their paths, the budget and
what each of them is read as at the start: the inputs that are run, and what comes behind. -/
inductive Ending (tree : FileTree) (mode : Mode) (limit : Nat) :
    List String → List Bytes → Finish → Prop
  | spent {before later : List String} {path : String} {ran : List Bytes} {input : Bytes}
      (reads : (before ++ [path]).map tree.content? = (ran ++ [input]).map some)
      (few : (Demo.classes mode ran).card < limit)
      (spent : limit ≤ (Demo.classes mode (ran ++ [input])).card) :
      Ending tree mode limit (before ++ path :: later) (ran ++ [input]) .spent
  | unreadable {before later : List String} {path : String} {ran : List Bytes}
      (reads : before.map tree.content? = ran.map some) (unread : tree.content? path = none)
      (few : (Demo.classes mode ran).card < limit) :
      Ending tree mode limit (before ++ path :: later) ran (.unreadable path)
  | done {paths : List String} {ran : List Bytes}
      (reads : paths.map tree.content? = ran.map some)
      (few : (Demo.classes mode ran).card < limit) :
      Ending tree mode limit paths ran .done

theorem Ending.exists_append {tree : FileTree} {mode : Mode} {limit : Nat} {before : List String}
    {seen : List Bytes} (reads : before.map tree.content? = seen.map some)
    (few : (Demo.classes mode seen).card < limit) (later : List String) :
    ∃ ran finish, Ending tree mode limit (before ++ later) ran finish := by
  induction later generalizing before seen with
  | nil =>
      rw [List.append_nil]
      exact ⟨seen, .done, .done reads few⟩
  | cons path later ih =>
      cases content : tree.content? path with
      | none => exact ⟨seen, _, .unreadable reads content few⟩
      | some input =>
          have reads : (before ++ [path]).map tree.content? = (seen ++ [input]).map some := by
            rw [List.map_append, List.map_append, reads, List.map_singleton, content]
            rfl
          by_cases less : (Demo.classes mode (seen ++ [input])).card < limit
          · rw [← List.singleton_append, ← List.append_assoc]
            exact ih reads less
          · exact ⟨_, _, .spent reads few (Nat.not_lt.mp less)⟩

/-- The inputs of every run come to an end in one of these ways. -/
theorem exists_ending (tree : FileTree) (mode : Mode) {limit : Nat} (positive : 0 < limit)
    (paths : List String) : ∃ ran finish, Ending tree mode limit paths ran finish :=
  @Ending.exists_append tree mode limit [] [] rfl positive paths

/-- No file that a run saves for one of its reports makes a difference to what these paths are
read as. -/
def Untouched (tree : FileTree) (mode : Mode) (settings : Settings) (start : String)
    (paths : List String) (ran : List Bytes) : Prop :=
  ∀ path ∈ paths, ∀ input ∈ Demo.firsts mode ran, ∀ file ∈ Demo.files mode settings start input,
    tree.Withstands path file.1 file.2

section

variable {tree : FileTree} {mode : Mode} {settings : Settings} {start path : String}
  {paths : List String} {seen inputs ran : List Bytes} {runner : Runner Unit} {world : World Unit}

/-- The reports of a shorter run touch nothing that those of a longer one spare. -/
theorem Untouched.of_append (untouched : Untouched tree mode settings start paths (seen ++ inputs))
    {fewer : List String} (among : fewer ⊆ paths) :
    Untouched tree mode settings start fewer seen := by
  intro path mem input first
  apply untouched path (among mem) input
  rw [Demo.firsts_append]
  exact List.mem_append_left _ first

/-- What a path is read as stays as it was at the start. -/
theorem Untouched.content?_eq
    (untouched : Untouched tree mode settings start paths (seen ++ inputs)) (mem : path ∈ paths)
    (shown : Demo.Shows mode settings start tree (Demo.firsts mode seen) world) :
    world.tree.content? path = tree.content? path := by
  have spared := untouched.of_append (List.Subset.refl paths) path mem
  rw [shown.tree, Demo.withFiles]
  apply FileTree.content?_saveAll
  intro file saved
  obtain ⟨input, first, among⟩ := List.mem_flatMap.mp saved
  exact spared input first file among

theorem runInputs_cons_of_returned {input : Bytes} {after : Runner Unit} {left : World Unit}
    (read : world.tree.content? path = some input)
    (returned : runner.runOne input world = (.returned, after, left)) (paths : List String) :
    runInputs (path :: paths) runner world = runInputs paths after left := by
  rw [runInputs, FileTree.content?_eq_some_iff.mp read]
  dsimp only
  rw [returned]
  rfl

theorem runInputs_cons_of_exited {input : Bytes} {after : Runner Unit} {closed : World Unit}
    {code : Nat} (read : world.tree.content? path = some input)
    (exited : runner.runOne input world = (.exited code, after, closed)) (paths : List String) :
    runInputs (path :: paths) runner world = (.ended code, after, closed) := by
  rw [runInputs, FileTree.content?_eq_some_iff.mp read]
  dsimp only
  rw [exited]
  rfl

theorem exists_runInputs_cons_of_unread (unread : world.tree.content? path = none)
    (runner : Runner Unit) (paths : List String) :
    ∃ fault : FileFault, runInputs (path :: paths) runner world =
      (.failed [s!"reading input {Text.quoted path}", fault.message], runner, world) := by
  cases read : world.tree.read path with
  | ok input =>
      rw [FileTree.content?_eq_some_iff.mpr read] at unread
      cases unread
  | error fault =>
      refine ⟨fault, ?_⟩
      rw [runInputs, read]

/-- As long as the classes of the inputs do not use up the budget, the run goes on. -/
theorem exists_passes (apart : Function.Injective Demo.Crash.token)
    (follows : Demo.Follows mode settings start tree seen runner world)
    (untouched : Untouched tree mode settings start paths (seen ++ inputs))
    (reads : paths.map tree.content? = inputs.map some)
    (few : (Demo.classes mode (seen ++ inputs)).card < settings.keepGoing.toNat) :
    ∃ after left, runner.Passes world inputs after left ∧
      Demo.Follows mode settings start tree (seen ++ inputs) after left ∧
      ∀ later, runInputs (paths ++ later) runner world = runInputs later after left := by
  induction paths generalizing seen inputs runner world with
  | nil =>
      obtain rfl : inputs = [] := by simpa using reads.symm
      rw [List.append_nil]
      exact ⟨runner, world, .nil runner world, follows, fun _ => rfl⟩
  | cons path paths ih =>
      cases inputs with
      | nil => cases reads
      | cons input inputs =>
          obtain ⟨first, others⟩ := List.cons.inj reads
          have read : world.tree.content? path = some input :=
            (untouched.content?_eq List.mem_cons_self follows.shown).trans first
          rw [List.append_cons seen input inputs] at untouched few ⊢
          rcases follows.call apart input with ⟨next, between, returned, follows⟩ | ⟨spent, _⟩
          · obtain ⟨after, left, passes, follows, runs⟩ := ih follows
              (fun path mem => untouched path (List.mem_cons_of_mem _ mem)) others few
            refine ⟨after, left, .cons returned passes, follows, ?_⟩
            intro later
            rw [List.cons_append, runInputs_cons_of_returned read returned, runs]
          · have grown := Finset.card_le_card
              (Demo.classes_subset_append mode (seen ++ [input]) inputs)
            exact absurd few (Nat.not_lt.mpr (spent.trans grown))

end

end FuzzHarness.CommandLine
