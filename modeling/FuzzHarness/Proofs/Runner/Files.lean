import FuzzHarness.Proofs.Runner.Feeding

/-!
# The files that a runner writes

A runner writes reproducers, the engine writes crashing inputs, and shutdown writes the
coverage sinks. None of them changes a directory, and each spares every file at another
place than its own.
-/

namespace FuzzHarness

/-- A tree has the directories of another and the same file at a path. -/
structure FileTree.Spares (tree other : FileTree) (path : String) : Prop where
  directories : other.directories = tree.directories
  read : other.read path = tree.read path

namespace FileTree.Spares

variable {tree other last : FileTree} {path : String}

theorem refl (tree : FileTree) (path : String) : tree.Spares tree path :=
  ⟨rfl, rfl⟩

theorem trans (first : tree.Spares other path) (second : other.Spares last path) :
    tree.Spares last path :=
  ⟨second.directories.trans first.directories, second.read.trans first.read⟩

/-- Writing to a path that leads elsewhere spares a file. -/
theorem of_write {place : Place} {there : String} {content : Bytes}
    (leads : tree.destination path = .ok place) (apart : tree.destination there ≠ .ok place)
    (wrote : tree.write there content = .ok other) : tree.Spares other path := by
  obtain ⟨place', leads', rfl⟩ := write_eq_ok_iff.mp wrote
  refine ⟨rfl, read_put_of_ne leads ?_ content⟩
  rintro rfl
  exact apart leads'

end FileTree.Spares

namespace Sinks

variable {σ : Type}

def paths (sinks : Sinks) : List String :=
  sinks.dump.toList ++ sinks.report.toList

theorem writeSink_spares {tree : FileTree} {path there : String} {place : Place}
    (leads : tree.destination path = .ok place) (apart : tree.destination there ≠ .ok place)
    (purpose text : String) :
    tree.Spares (CoverageMap.writeSink purpose there text tree).2 path := by
  rw [CoverageMap.writeSink]
  split
  · next wrote => exact .of_write leads apart wrote
  · exact .refl tree path

theorem flushDump_spares (sinks : Sinks) (recorder : CoverageRecorder) (ids : List UInt32)
    (host : Host σ) {tree : FileTree} {path : String} {place : Place}
    (leads : tree.destination path = .ok place)
    (apart : ∀ there ∈ sinks.paths, tree.destination there ≠ .ok place) :
    tree.Spares (sinks.flushDump recorder ids host tree).2 path := by
  rw [flushDump]
  split
  · exact .refl tree path
  · next there set =>
    have mem : there ∈ sinks.paths := by
      rw [paths, set]
      exact List.mem_append_left _ (List.mem_singleton_self there)
    have spared : tree.Spares (askDump recorder ids there host tree).2.2 path := by
      cases recorder with
      | shared => exact writeSink_spares leads (apart there mem) _ _
      | broken _ _ => exact .refl tree path
    rcases asked : askDump recorder ids there host tree with ⟨result, host', tree'⟩
    rw [asked] at spared
    cases result <;> exact spared

theorem flushReport_spares (sinks : Sinks) (recorder : CoverageRecorder) (ids : List UInt32)
    (host : Host σ) {tree : FileTree} {path : String} {place : Place}
    (leads : tree.destination path = .ok place)
    (apart : ∀ there ∈ sinks.paths, tree.destination there ≠ .ok place) :
    tree.Spares (sinks.flushReport recorder ids host tree).2 path := by
  rw [flushReport]
  split
  · exact .refl tree path
  · next there set =>
    have mem : there ∈ sinks.paths := by
      rw [paths, set]
      exact List.mem_append_right _ (List.mem_singleton_self there)
    have spared : tree.Spares (askReport recorder ids there host tree).2.2 path := by
      cases recorder with
      | shared => exact writeSink_spares leads (apart there mem) _ _
      | broken _ _ => exact .refl tree path
    rcases asked : askReport recorder ids there host tree with ⟨result, host', tree'⟩
    rw [asked] at spared
    cases result <;> exact spared

/-- Destinations are told apart in one tree as in another with the same directories. -/
theorem destination_ne_congr {tree other : FileTree} (same : other.directories = tree.directories)
    {place : Place} {path : String} (apart : tree.destination path ≠ .ok place) :
    other.destination path ≠ .ok place := by
  intro leads
  exact apart (FileTree.destination_congr same.symm leads)

/-- Flushing spares every file that no sink leads to. -/
theorem flush_spares (sinks : Sinks) (host : Host σ) {tree : FileTree} {path : String}
    {place : Place} (leads : tree.destination path = .ok place)
    (apart : ∀ there ∈ sinks.paths, tree.destination there ≠ .ok place) :
    tree.Spares (sinks.flush host tree).2 path := by
  rw [flush]
  split
  · exact .refl tree path
  · next recorder _ =>
    have dumped := sinks.flushDump_spares recorder host.coverage.covered host leads apart
    have leads' := FileTree.destination_congr dumped.directories leads
    have apart' : ∀ there ∈ sinks.paths,
        (sinks.flushDump recorder host.coverage.covered host tree).2.destination there ≠
          .ok place :=
      fun there mem => destination_ne_congr dumped.directories (apart there mem)
    exact dumped.trans (sinks.flushReport_spares recorder _ _ leads' apart')

end Sinks

/-- The file for a crashing input has another name than any reproducer. -/
theorem Engine.destination_ne {tree : FileTree} {artifact : Artifact} {directory : String}
    {place : Place} (hashed : ∀ c ∈ artifact.contentHash.toList, c ≠ '/')
    (leads : tree.destination (artifact.pathIn directory) = .ok place) (start : String)
    (input : Bytes) :
    tree.destination s!"{start}crash-{contentHash input}" ≠ .ok place := by
  intro leads'
  obtain ⟨n, small, last⟩ := exists_getLast?_contentHash input
  obtain ⟨_, notS, notSlash⟩ := hexDigit_spec n small
  have ends : (s!"{start}crash-{contentHash input}").toList.getLast? = some (Text.hexDigit n) := by
    have whole : (s!"{start}crash-{contentHash input}").toList =
        (start ++ "crash-").toList ++ (contentHash input).toList := String.toList_append
    rw [whole, List.getLast?_append, last]
    rfl
  obtain ⟨name, component, same⟩ := Path.exists_getLast?_components ends notSlash
  rw [← FileTree.getLast?_of_destination leads', FileTree.getLast?_of_destination leads,
    Artifact.getLast?_components_pathIn hashed] at component
  obtain rfl := Option.some.inj component
  have suffix : ".rs".toList.getLast? = some 's' := by decide +kernel
  rw [Artifact.fileName_toList, List.getLast?_append, suffix] at same
  exact notS (Option.some.inj same).symm

/-- Describing a crashing input spares every reproducer. -/
theorem Engine.describe_spares {σ : Type} (engine : Engine) (input : Bytes) (world : World σ)
    {artifact : Artifact} {directory : String} {place : Place}
    (hashed : ∀ c ∈ artifact.contentHash.toList, c ≠ '/')
    (leads : world.tree.destination (artifact.pathIn directory) = .ok place) :
    world.tree.Spares (engine.describe input world).tree (artifact.pathIn directory) := by
  cases engine with
  | observing => exact .refl _ _
  | standalone start =>
      rw [describe]
      dsimp only
      split
      · next wrote => exact .of_write leads (destination_ne hashed leads start input) wrote
      · exact .refl _ _

namespace Shutdown

variable {σ : Type}

/-- Shutting down writes the sinks and nothing else. -/
theorem run_spares (shutdown : Shutdown σ) (host : Host σ) {tree : FileTree} {path : String}
    {place : Place} (leads : tree.destination path = .ok place)
    (apart : ∀ there ∈ shutdown.sinks.paths, tree.destination there ≠ .ok place) :
    tree.Spares (shutdown.run host tree).2.2.2 path := by
  have flushed := shutdown.sinks.flush_spares host leads apart
  rw [run]
  split
  · exact .refl tree path
  · dsimp only
    split <;> exact flushed

end Shutdown

namespace Runner

variable {σ : Type}

/-- Announcing a finding spares every reproducer. -/
theorem announce_spares (runner : Runner σ) (classified : Classified) (input : Bytes)
    (world : World σ) {artifact : Artifact} {directory : String} {place : Place}
    (hashed : ∀ c ∈ artifact.contentHash.toList, c ≠ '/')
    (leads : world.tree.destination (artifact.pathIn directory) = .ok place) :
    world.tree.Spares (runner.announce classified input world).tree
      (artifact.pathIn directory) := by
  rw [announce]
  cases runner.classifier.dedup with
  | true =>
      exact runner.engine.describe_spares input
        (((world.emit (.finding .iteration classified.finding)).emit
          (.token classified.token)).emit .crashingInput) hashed leads
  | false =>
      exact runner.engine.describe_spares input
        ((world.emit (.finding .iteration classified.finding)).emit .crashingInput) hashed leads

theorem shutDown_spares (runner : Runner σ) (world : World σ) {path : String} {place : Place}
    (leads : world.tree.destination path = .ok place)
    (apart : ∀ there ∈ runner.shutdown.sinks.paths,
      world.tree.destination there ≠ .ok place) :
    world.tree.Spares (runner.shutDown world).2.2.tree path := by
  have ran := runner.shutdown.run_spares
    (world.logged (.shuttingDown runner.distinctFindings)).host leads apart
  rw [shutDown]
  split
  · exact .refl _ path
  · dsimp only
    split <;> exact ran

theorem conclude_spares (runner : Runner σ) (world : World σ) {path : String} {place : Place}
    (leads : world.tree.destination path = .ok place)
    (apart : ∀ there ∈ runner.shutdown.sinks.paths,
      world.tree.destination there ≠ .ok place) :
    world.tree.Spares (runner.conclude world).2.2.tree path := by
  have shut := runner.shutDown_spares world leads apart
  rw [conclude]
  split
  · exact .refl _ path
  · split
    · next same => exact (congrArg (fun run => run.2.2.tree) same) ▸ shut
    · exact shut

end Runner

end FuzzHarness
