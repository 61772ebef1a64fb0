import FuzzHarness.Proofs.Files.Tree

/-!
# Saving files one after the other

A file is saved if its path allows that; if not, nothing happens. Saving changes no directory,
so that where paths lead stays as it was. A path is read as before unless it leads to the place
of a file with another content, and a file holds what was saved unless that happens to it.
-/

namespace FuzzHarness.FileTree

variable {tree other : FileTree} {place : Place} {path file : String} {content : Bytes}

/-- Reading finds a regular file at the end of the path. -/
theorem read_eq_ok_iff :
    tree.read path = .ok content ↔
      checkPath path = .ok () ∧ Path.endsInSlash path = false ∧
      ∃ place, tree.walk (Place.startOf path) (Path.components path) = .ok place ∧
        tree.isDirectory place = false ∧ tree.files.lookup place = some content := by
  constructor
  · intro found
    rw [read, locate] at found
    split at found
    · cases found
    · cases found
    · next place' content' located =>
      obtain rfl : content' = content := Except.ok.inj found
      split at located
      · cases located
      · next valid =>
        split at located
        · cases located
        · next place walked =>
          split at located
          · cases located
          · next node =>
            split at located
            · cases located
            · next slash =>
              cases located
              have plain : tree.isDirectory place' = false := by
                apply Bool.eq_false_iff.mpr
                intro directory
                rw [node?_of_isDirectory directory] at node
                cases node
              rw [node?_of_not_isDirectory plain] at node
              refine ⟨valid, Bool.eq_false_iff.mpr slash, place', walked, plain, ?_⟩
              simpa using node
          · cases located
  · rintro ⟨valid, slash, place, walked, plain, stored⟩
    rw [read, locate, valid]
    dsimp only
    rw [walked]
    dsimp only
    rw [node?_of_not_isDirectory plain, stored, slash]
    rfl

def content? (tree : FileTree) (path : String) : Option Bytes :=
  (tree.read path).toOption

theorem content?_eq_some_iff :
    tree.content? path = some content ↔ tree.read path = .ok content := by
  rw [content?]
  cases tree.read path <;> simp [Except.toOption]

/-- Of what a path is read as, nothing but the files decides where the directories agree. -/
theorem content?_congr (directories : other.directories = tree.directories)
    (files : ∀ place, tree.walk (Place.startOf path) (Path.components path) = .ok place →
      other.files.lookup place = tree.files.lookup place) :
    other.content? path = tree.content? path := by
  apply Option.ext
  intro content
  rw [content?_eq_some_iff, content?_eq_some_iff, read_eq_ok_iff, read_eq_ok_iff]
  apply and_congr_right
  intro _
  apply and_congr_right
  intro _
  constructor
  · rintro ⟨place, walked, plain, stored⟩
    have walked := walk_congr directories.symm walked
    rw [isDirectory_congr directories] at plain
    exact ⟨place, walked, plain, (files place walked).symm.trans stored⟩
  · rintro ⟨place, walked, plain, stored⟩
    rw [← isDirectory_congr directories] at plain
    exact ⟨place, walk_congr directories walked, plain, (files place walked).trans stored⟩

/-- Write a file, if its path allows that. -/
def save (tree : FileTree) (path : String) (content : Bytes) : FileTree :=
  (tree.write path content).toOption.getD tree

theorem save_of_destination (leads : tree.destination path = .ok place) (content : Bytes) :
    tree.save path content = tree.put place content := by
  rw [save, write, leads]
  rfl

theorem save_of_error {fault : FileFault} (leads : tree.destination path = .error fault)
    (content : Bytes) : tree.save path content = tree := by
  rw [save, write, leads]
  rfl

@[simp] theorem save_directories (tree : FileTree) (path : String) (content : Bytes) :
    (tree.save path content).directories = tree.directories := by
  cases leads : tree.destination path with
  | ok place => rw [save_of_destination leads, put_directories]
  | error fault => rw [save_of_error leads]

/-- Saving this file makes no difference to what a path is read as. -/
def Withstands (tree : FileTree) (path file : String) (content : Bytes) : Prop :=
  ∀ place, tree.destination file = .ok place →
    tree.walk (Place.startOf path) (Path.components path) = .ok place →
      tree.content? path = some content

theorem content?_save (withstands : tree.Withstands path file content) :
    (tree.save file content).content? path = tree.content? path := by
  cases leads : tree.destination file with
  | error fault => rw [save_of_error leads]
  | ok there =>
      rw [save_of_destination leads]
      by_cases meets : tree.walk (Place.startOf path) (Path.components path) = .ok there
      · -- The path leads to the file, which holds this content already.
        have held := withstands there leads meets
        obtain ⟨valid, slash, place, walked, plain, _⟩ :=
          read_eq_ok_iff.mp (content?_eq_some_iff.mp held)
        obtain rfl : place = there := Except.ok.inj (walked.symm.trans meets)
        rw [held, content?_eq_some_iff, read_eq_ok_iff]
        exact ⟨valid, slash, place, walk_congr (put_directories ..) walked, plain,
          lookup_put_self tree place content⟩
      · apply content?_congr (put_directories ..)
        intro place walked
        apply lookup_put_of_ne
        rintro rfl
        exact meets walked

def saveAll (tree : FileTree) (writes : List (String × Bytes)) : FileTree :=
  writes.foldl (fun tree write => tree.save write.1 write.2) tree

@[simp] theorem saveAll_nil (tree : FileTree) : tree.saveAll [] = tree := rfl

@[simp] theorem saveAll_cons (tree : FileTree) (write : String × Bytes)
    (writes : List (String × Bytes)) :
    tree.saveAll (write :: writes) = (tree.save write.1 write.2).saveAll writes := rfl

theorem saveAll_append (tree : FileTree) (first second : List (String × Bytes)) :
    tree.saveAll (first ++ second) = (tree.saveAll first).saveAll second :=
  List.foldl_append

@[simp] theorem saveAll_directories (tree : FileTree) (writes : List (String × Bytes)) :
    (tree.saveAll writes).directories = tree.directories := by
  induction writes generalizing tree with
  | nil => rfl
  | cons write writes ih => exact (ih (tree.save write.1 write.2)).trans (save_directories ..)

/-- What is said of the tree before holds of every tree on the way. -/
theorem content?_saveAll {writes : List (String × Bytes)}
    (withstands : ∀ write ∈ writes, tree.Withstands path write.1 write.2) :
    (tree.saveAll writes).content? path = tree.content? path := by
  induction writes generalizing tree with
  | nil => rfl
  | cons write writes ih =>
      obtain ⟨first, others⟩ := List.forall_mem_cons.mp withstands
      have same := content?_save first
      have directories := save_directories tree write.1 write.2
      refine (ih ?_).trans same
      intro other mem place leads walked
      rw [same]
      exact others other mem place (destination_congr directories.symm leads)
        (walk_congr directories.symm walked)

/-- A file that is saved holds what was saved, unless another content is saved to its place. -/
theorem content?_saveAll_of_mem {writes : List (String × Bytes)} (mem : (path, content) ∈ writes)
    (leads : tree.destination path = .ok place)
    (agree : ∀ write ∈ writes, tree.destination write.1 = .ok place → write.2 = content) :
    (tree.saveAll writes).content? path = some content := by
  obtain ⟨before, after, rfl⟩ := List.append_of_mem mem
  have leads' : (tree.saveAll before).destination path = .ok place :=
    destination_congr (saveAll_directories tree before) leads
  have held : ((tree.saveAll before).save path content).content? path = some content := by
    rw [content?_eq_some_iff, save_of_destination leads']
    exact read_put_self leads' content
  rw [saveAll_append]
  change (((tree.saveAll before).save path content).saveAll after).content? path = _
  rw [content?_saveAll, held]
  intro write later there leads'' walked
  have same : ((tree.saveAll before).save path content).directories = tree.directories :=
    (save_directories ..).trans (saveAll_directories tree before)
  obtain rfl : place = there :=
    Except.ok.inj ((walk_of_destination (destination_congr same leads)).symm.trans walked)
  have among : write ∈ before ++ (path, content) :: after :=
    List.mem_append_right _ (List.mem_cons_of_mem _ later)
  rw [held, agree write among (destination_congr same.symm leads'')]

end FuzzHarness.FileTree
