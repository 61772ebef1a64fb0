import FuzzHarness.Files.Tree
import FuzzHarness.Proofs.Text.Utf8

/-!
# Reading what was written

Where a path leads for writing depends on the directories of a tree only, and writing
changes no directory. A file that was written is read back from there as long as no other
write goes to the same place.
-/

namespace FuzzHarness.FileTree

def isDirectory (tree : FileTree) (place : Place) : Bool :=
  place.isFixed || tree.directories.contains place

variable {tree other : FileTree} {place start : Place} {path name : String}

theorem node?_of_isDirectory (h : tree.isDirectory place = true) :
    tree.node? place = some .directory :=
  if_pos h

theorem node?_of_not_isDirectory (h : tree.isDirectory place = false) :
    tree.node? place = (tree.files.lookup place).map .file :=
  if_neg (Bool.eq_false_iff.mp h)

theorem isDirectory_of_node? (h : tree.node? place = some .directory) :
    tree.isDirectory place = true := by
  cases directory : tree.isDirectory place with
  | true => rfl
  | false =>
      rw [node?_of_not_isDirectory directory] at h
      obtain ⟨_, _, file⟩ := Option.map_eq_some_iff.mp h
      cases file

theorem isDirectory_congr (same : other.directories = tree.directories) (place : Place) :
    other.isDirectory place = tree.isDirectory place := by
  rw [isDirectory, isDirectory, same]

theorem enter_eq_ok_iff {next : Place} :
    tree.enter place name = .ok next ↔
      tree.isDirectory place = true ∧ ¬longestName < name.utf8ByteSize ∧
        next = place.follow name := by
  constructor
  · intro entered
    rw [enter] at entered
    split at entered
    · cases entered
    · cases entered
    · next node =>
      split at entered
      · cases entered
      · next short => exact ⟨isDirectory_of_node? node, short, (Except.ok.inj entered).symm⟩
  · rintro ⟨directory, short, rfl⟩
    rw [enter, node?_of_isDirectory directory]
    exact if_neg short

theorem walk_congr (same : other.directories = tree.directories) {names : List String}
    (walked : tree.walk start names = .ok place) : other.walk start names = .ok place := by
  induction names generalizing start with
  | nil => exact walked
  | cons name names ih =>
      rw [walk] at walked ⊢
      split at walked
      · cases walked
      · next next entered =>
        obtain ⟨directory, short, follows⟩ := enter_eq_ok_iff.mp entered
        have entered' : other.enter start name = .ok next :=
          enter_eq_ok_iff.mpr ⟨isDirectory_congr same start ▸ directory, short, follows⟩
        rw [entered']
        exact ih walked

theorem walk_append {names more : List String} (walked : tree.walk start names = .ok place) :
    tree.walk start (names ++ more) = tree.walk place more := by
  induction names generalizing start with
  | nil =>
      cases walked
      rfl
  | cons name names ih =>
      rw [walk] at walked
      rw [List.cons_append, walk]
      split at walked
      · cases walked
      · exact ih walked

/-- Writing to a path puts the file into a directory, under a name that no directory has. -/
theorem destination_eq_ok_iff :
    tree.destination path = .ok place ↔
      checkPath path = .ok () ∧
      ∃ parent name,
        tree.walk (Place.startOf path) (Path.components path).dropLast = .ok parent ∧
        (Path.components path).getLast? = some name ∧
        (Path.endsInSlash path || name == "." || name == "..") = false ∧
        tree.enter parent name = .ok place ∧
        tree.isDirectory place = false := by
  constructor
  · intro leads
    rw [destination] at leads
    split at leads
    · cases leads
    · next valid =>
      refine ⟨valid, ?_⟩
      dsimp only at leads
      split at leads
      · cases leads
      · next parent walked =>
        split at leads
        · cases leads
        · cases leads
        · split at leads
          · cases leads
          · next name last =>
            split at leads
            · cases leads
            · next plain =>
              split at leads
              · cases leads
              · next place' entered =>
                split at leads
                · cases leads
                · next free =>
                  obtain rfl : place' = place := Except.ok.inj leads
                  refine ⟨parent, name, walked, last, Bool.eq_false_iff.mpr plain, entered, ?_⟩
                  exact Bool.eq_false_iff.mpr fun directory => free (node?_of_isDirectory directory)
  · rintro ⟨valid, parent, name, walked, last, plain, entered, free⟩
    have directory := (enter_eq_ok_iff.mp entered).1
    rw [destination, valid]
    dsimp only
    rw [walked]
    dsimp only
    rw [node?_of_isDirectory directory]
    dsimp only
    rw [last]
    dsimp only
    rw [plain, entered, if_neg Bool.false_ne_true]
    dsimp only
    rw [node?_of_not_isDirectory free]
    cases tree.files.lookup place <;> rfl

/-- A destination stays the same as long as the directories do. -/
theorem destination_congr (same : other.directories = tree.directories)
    (leads : tree.destination path = .ok place) : other.destination path = .ok place := by
  obtain ⟨valid, parent, name, walked, last, plain, entered, free⟩ :=
    destination_eq_ok_iff.mp leads
  obtain ⟨directory, short, follows⟩ := enter_eq_ok_iff.mp entered
  refine destination_eq_ok_iff.mpr
    ⟨valid, parent, name, walk_congr same walked, last, plain, ?_, ?_⟩
  · exact enter_eq_ok_iff.mpr ⟨isDirectory_congr same parent ▸ directory, short, follows⟩
  · rw [isDirectory_congr same, free]

/-- The last component of a path is the last one of its destination. -/
theorem getLast?_of_destination (leads : tree.destination path = .ok place) :
    place.getLast? = (Path.components path).getLast? := by
  obtain ⟨_, parent, name, _, last, plain, entered, _⟩ := destination_eq_ok_iff.mp leads
  obtain ⟨_, _, rfl⟩ := enter_eq_ok_iff.mp entered
  obtain ⟨plain, up⟩ := Bool.or_eq_false_iff.mp plain
  obtain ⟨_, stays⟩ := Bool.or_eq_false_iff.mp plain
  rw [Place.follow, if_neg (beq_eq_false_iff_ne.mp stays), if_neg (beq_eq_false_iff_ne.mp up), last,
    List.getLast?_append]
  rfl

/-- The components of a path lead to its destination. -/
theorem walk_of_destination (leads : tree.destination path = .ok place) :
    tree.walk (Place.startOf path) (Path.components path) = .ok place := by
  obtain ⟨_, parent, name, walked, last, _, entered, _⟩ := destination_eq_ok_iff.mp leads
  have whole : Path.components path = (Path.components path).dropLast ++ [name] := by
    obtain ⟨front, split⟩ := List.getLast?_eq_some_iff.mp last
    rw [split, List.dropLast_concat]
  rw [whole, walk_append walked, walk, entered]
  rfl

/-- Reading looks where writing would put the file. -/
theorem read_of_destination (leads : tree.destination path = .ok place) :
    tree.read path =
      match tree.files.lookup place with
      | some content => .ok content
      | none => .error .notFound := by
  have arrived := walk_of_destination leads
  obtain ⟨valid, parent, name, walked, last, plain, entered, free⟩ :=
    destination_eq_ok_iff.mp leads
  obtain ⟨plain, _⟩ := Bool.or_eq_false_iff.mp plain
  obtain ⟨slash, _⟩ := Bool.or_eq_false_iff.mp plain
  rw [read, locate, valid]
  dsimp only
  rw [arrived]
  dsimp only
  rw [node?_of_not_isDirectory free]
  cases tree.files.lookup place with
  | none => rfl
  | some content =>
      dsimp only [Option.map_some]
      rw [slash]
      rfl

variable {content : Bytes}

theorem put_directories (tree : FileTree) (place : Place) (content : Bytes) :
    (tree.put place content).directories = tree.directories := rfl

/-- A write that succeeds puts the file at the destination. -/
theorem write_eq_ok_iff :
    tree.write path content = .ok other ↔
      ∃ place, tree.destination path = .ok place ∧ other = tree.put place content := by
  rw [write]
  constructor
  · intro wrote
    cases leads : tree.destination path with
    | error fault => rw [leads] at wrote; cases wrote
    | ok place =>
        rw [leads] at wrote
        exact ⟨place, rfl, (Except.ok.inj wrote).symm⟩
  · rintro ⟨place, leads, rfl⟩
    rw [leads]
    rfl

theorem read_put_self (leads : tree.destination path = .ok place) (content : Bytes) :
    (tree.put place content).read path = .ok content := by
  rw [read_of_destination (destination_congr (put_directories tree place content) leads),
    lookup_put_self]

/-- A write to another place leaves a file alone. -/
theorem read_put_of_ne {there : Place} (leads : tree.destination path = .ok place)
    (differs : place ≠ there) (content : Bytes) :
    (tree.put there content).read path = tree.read path := by
  rw [read_of_destination (destination_congr (put_directories tree there content) leads),
    lookup_put_of_ne tree content differs, read_of_destination leads]

/-- Text that was written is read back as text. -/
theorem readText_of_read {text : String}
    (stored : tree.read path = .ok (Text.Utf8.ofString text)) : tree.readText path = .ok text := by
  rw [readText, stored]
  dsimp only
  rw [Text.Utf8.decode_ofString]

end FuzzHarness.FileTree
