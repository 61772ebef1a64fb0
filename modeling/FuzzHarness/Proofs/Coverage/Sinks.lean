import FuzzHarness.Proofs.Coverage.Texts
import FuzzHarness.Proofs.Files.Save
import Mathlib.Data.List.Induction

/-!
# Coverage sinks over a run

Points are marked, startup coverage is recorded and sinks are flushed in any order. The map
always tells what was marked, and what of it before startup was last recorded. A flush leaves
the map alone and saves what it tells to each sink that can be written; of a sink that cannot
be written nothing is left but a line in the log.
-/

namespace FuzzHarness

namespace Sinks

variable {σ : Type}

/-- What can happen to sinks and the map behind them. -/
inductive Step where
  | mark (id : UInt32)
  | recordStartup
  | flush
  deriving DecidableEq

def perform (sinks : Sinks) : Step → Host σ × FileTree → Host σ × FileTree
  | .mark id, (host, tree) => ({ host with coverage := host.coverage.mark id }, tree)
  | .recordStartup, (host, tree) => (sinks.recordStartup host, tree)
  | .flush, (host, tree) => sinks.flush host tree

def performAll (sinks : Sinks) (steps : List Step) (state : Host σ × FileTree) :
    Host σ × FileTree :=
  steps.foldl (fun state step => sinks.perform step state) state

def Step.onMap : Step → CoverageMap → CoverageMap
  | .mark id, map => map.mark id
  | .recordStartup, map => map.recordStartup
  | .flush, map => map

/-- The save that the dump comes to. -/
def dumpWrites (sinks : Sinks) (ids : List UInt32) : List (String × Bytes) :=
  sinks.dump.toList.map fun path => (path, Text.Utf8.ofString (CoverageMap.dumpText ids))

/-- The save that the report comes to. -/
def reportWrites (sinks : Sinks) (map : CoverageMap) (ids : List UInt32) :
    List (String × Bytes) :=
  sinks.report.toList.map fun path => (path, Text.Utf8.ofString (map.reportText ids))

def writes (sinks : Sinks) (map : CoverageMap) : List (String × Bytes) :=
  sinks.dumpWrites map.covered ++ sinks.reportWrites map map.covered

def Step.writes (sinks : Sinks) (map : CoverageMap) : Step → List (String × Bytes)
  | .flush => sinks.writes map
  | _ => []

theorem flushDump_shared (sinks : Sinks) (ids : List UInt32) (host : Host σ) (tree : FileTree) :
    (sinks.flushDump .shared ids host tree).1.coverage = host.coverage ∧
      (sinks.flushDump .shared ids host tree).2 = tree.saveAll (sinks.dumpWrites ids) := by
  cases set : sinks.dump with
  | none => simp [flushDump, dumpWrites, set]
  | some path =>
      simp only [flushDump, dumpWrites, set, askDump, CoverageMap.dump, CoverageMap.writeSink,
        Option.toList_some, List.map_cons, List.map_nil, FileTree.saveAll_cons,
        FileTree.saveAll_nil, FileTree.save]
      cases tree.write path (Text.Utf8.ofString (CoverageMap.dumpText ids)) <;> exact ⟨rfl, rfl⟩

theorem flushReport_shared (sinks : Sinks) (ids : List UInt32) (host : Host σ)
    (tree : FileTree) :
    (sinks.flushReport .shared ids host tree).1.coverage = host.coverage ∧
      (sinks.flushReport .shared ids host tree).2 =
        tree.saveAll (sinks.reportWrites host.coverage ids) := by
  cases set : sinks.report with
  | none => simp [flushReport, reportWrites, set]
  | some path =>
      simp only [flushReport, reportWrites, set, askReport, CoverageMap.report,
        CoverageMap.writeSink, Option.toList_some, List.map_cons, List.map_nil,
        FileTree.saveAll_cons, FileTree.saveAll_nil, FileTree.save]
      cases tree.write path (Text.Utf8.ofString (host.coverage.reportText ids)) <;>
        exact ⟨rfl, rfl⟩

variable {sinks : Sinks}

/-- A flush saves the texts on the map and leaves the map alone. -/
theorem flush_shared (shared : sinks.recorder = some .shared) (host : Host σ) (tree : FileTree) :
    (sinks.flush host tree).1.coverage = host.coverage ∧
      (sinks.flush host tree).2 = tree.saveAll (sinks.writes host.coverage) := by
  obtain ⟨kept, dumped⟩ := sinks.flushDump_shared host.coverage.covered host tree
  have whole : sinks.flush host tree =
      sinks.flushReport .shared host.coverage.covered
        (sinks.flushDump .shared host.coverage.covered host tree).1
        (sinks.flushDump .shared host.coverage.covered host tree).2 := by
    rw [flush, shared]
  obtain ⟨kept', reported⟩ := sinks.flushReport_shared host.coverage.covered
    (sinks.flushDump .shared host.coverage.covered host tree).1
    (sinks.flushDump .shared host.coverage.covered host tree).2
  rw [whole]
  refine ⟨kept'.trans kept, ?_⟩
  rw [reported, dumped, kept, writes, FileTree.saveAll_append]

theorem perform_shared (shared : sinks.recorder = some .shared) (step : Step)
    (state : Host σ × FileTree) :
    (sinks.perform step state).1.coverage = step.onMap state.1.coverage ∧
      (sinks.perform step state).2 = state.2.saveAll (step.writes sinks state.1.coverage) := by
  cases step with
  | mark id => exact ⟨rfl, rfl⟩
  | recordStartup =>
      simp [perform, recordStartup, shared, Step.onMap, Step.writes]
  | flush => exact flush_shared shared state.1 state.2

def mapAfter (steps : List Step) : CoverageMap :=
  steps.foldl (fun map step => step.onMap map) .empty

@[simp] theorem mapAfter_concat (steps : List Step) (step : Step) :
    mapAfter (steps ++ [step]) = step.onMap (mapAfter steps) := by
  simp [mapAfter]

@[simp] theorem performAll_concat (sinks : Sinks) (steps : List Step) (step : Step)
    (state : Host σ × FileTree) :
    sinks.performAll (steps ++ [step]) state =
      sinks.perform step (sinks.performAll steps state) := by
  simp [performAll]

/-- An identifier was marked before startup was recorded for the last time. -/
def MarkedAtStartup (steps : List Step) (id : UInt32) : Prop :=
  ∃ before after, steps = before ++ .recordStartup :: after ∧ .recordStartup ∉ after ∧
    .mark id ∈ before

/-- The last of the steps is the one that was looked for, or comes behind it. -/
private theorem cut_concat {steps before after : List Step} {step found : Step}
    (split : steps ++ [step] = before ++ found :: after) :
    (steps = before ∧ step = found ∧ after = []) ∨
      ∃ front, steps = before ++ found :: front ∧ after = front ++ [step] := by
  rcases List.eq_nil_or_concat after with rfl | ⟨front, last, rfl⟩
  · obtain ⟨rfl, same⟩ := List.append_inj' split rfl
    exact .inl ⟨rfl, (List.cons.inj same).1, rfl⟩
  · rw [List.concat_eq_append, ← List.cons_append, ← List.append_assoc] at split
    obtain ⟨rfl, same⟩ := List.append_inj' split rfl
    rw [(List.cons.inj same).1]
    exact .inr ⟨front, rfl, List.concat_eq_append⟩

theorem markedAtStartup_concat {steps : List Step} {step : Step} (other : step ≠ .recordStartup)
    {id : UInt32} : MarkedAtStartup (steps ++ [step]) id ↔ MarkedAtStartup steps id := by
  constructor
  · rintro ⟨before, after, split, last, mem⟩
    rcases cut_concat split with ⟨_, same, _⟩ | ⟨front, rfl, rfl⟩
    · exact absurd same other
    · exact ⟨before, front, rfl, fun later => last (List.mem_append_left _ later), mem⟩
  · rintro ⟨before, after, rfl, last, mem⟩
    exact ⟨before, after ++ [step], by simp, by simpa [last] using other.symm, mem⟩

theorem markedAtStartup_concat_recordStartup {steps : List Step} {id : UInt32} :
    MarkedAtStartup (steps ++ [.recordStartup]) id ↔ .mark id ∈ steps := by
  constructor
  · rintro ⟨before, after, split, last, mem⟩
    rcases cut_concat split with ⟨rfl, _, _⟩ | ⟨front, _, rfl⟩
    · exact mem
    · exact absurd (List.mem_append_right front List.mem_cons_self) last
  · intro mem
    exact ⟨steps, [], rfl, List.not_mem_nil, mem⟩

/-- A map tells the identifiers that steps marked, ascending and each of them once, and those of
them that were marked before startup was last recorded. -/
structure TellsOf (map : CoverageMap) (steps : List Step) : Prop where
  covered : map.covered.Pairwise (· < ·)
  mem_covered : ∀ id, id ∈ map.covered ↔ .mark id ∈ steps
  startup : map.startup.Pairwise (· < ·)
  mem_startup : ∀ id, id ∈ map.startup ↔ MarkedAtStartup steps id

namespace TellsOf

theorem empty : TellsOf .empty [] := by
  refine ⟨.nil, by simp [CoverageMap.empty], .nil, ?_⟩
  simp [CoverageMap.empty, MarkedAtStartup]

theorem onMap {map : CoverageMap} {steps : List Step} (tells : TellsOf map steps) (step : Step) :
    TellsOf (step.onMap map) (steps ++ [step]) := by
  cases step with
  | mark id =>
      refine ⟨CoverageMap.pairwise_insert tells.covered, ?_, tells.startup, ?_⟩
      · intro other
        have inserted : other ∈ (map.mark id).covered ↔ other = id ∨ other ∈ map.covered :=
          CoverageMap.mem_insert
        simp [Step.onMap, inserted, tells.mem_covered, or_comm]
      · intro other
        rw [markedAtStartup_concat (by simp)]
        exact tells.mem_startup other
  | recordStartup =>
      refine ⟨tells.covered, ?_, tells.covered, ?_⟩
      · intro id
        simp [Step.onMap, CoverageMap.recordStartup, tells.mem_covered]
      · intro id
        rw [markedAtStartup_concat_recordStartup]
        exact tells.mem_covered id
  | flush =>
      refine ⟨tells.covered, ?_, tells.startup, ?_⟩
      · intro id
        simp [Step.onMap, tells.mem_covered]
      · intro id
        rw [markedAtStartup_concat (by simp)]
        exact tells.mem_startup id

theorem nodup_covered {map : CoverageMap} {steps : List Step} (tells : TellsOf map steps) :
    map.covered.Nodup :=
  tells.covered.imp UInt32.ne_of_lt

theorem nodup_startup {map : CoverageMap} {steps : List Step} (tells : TellsOf map steps) :
    map.startup.Nodup :=
  tells.startup.imp UInt32.ne_of_lt

/-- What was marked at startup was marked. -/
theorem startup_subset {map : CoverageMap} {steps : List Step} (tells : TellsOf map steps) :
    ∀ id ∈ map.startup, id ∈ map.covered := by
  intro id mem
  obtain ⟨before, after, rfl, _, marked⟩ := (tells.mem_startup id).mp mem
  exact (tells.mem_covered id).mpr (List.mem_append_left _ marked)

theorem mapAfter (steps : List Step) : TellsOf (mapAfter steps) steps := by
  induction steps using List.reverseRecOn with
  | nil => exact empty
  | append_singleton steps step ih =>
      rw [mapAfter_concat]
      exact ih.onMap step

end TellsOf

/-- With the map of the target, steps change the map in the same way for all sinks, and no
directory. -/
theorem performAll_shared (shared : sinks.recorder = some .shared) {host : Host σ}
    (unmarked : host.coverage = .empty) (tree : FileTree) (steps : List Step) :
    (sinks.performAll steps (host, tree)).1.coverage = mapAfter steps ∧
      (sinks.performAll steps (host, tree)).2.directories = tree.directories := by
  induction steps using List.reverseRecOn with
  | nil => exact ⟨unmarked, rfl⟩
  | append_singleton steps step ih =>
      obtain ⟨changed, saved⟩ := perform_shared shared step (sinks.performAll steps (host, tree))
      rw [performAll_concat, mapAfter_concat]
      exact ⟨by rw [changed, ih.1], by rw [saved, FileTree.saveAll_directories, ih.2]⟩

/-- Sinks that save to the same effect wherever the directories are these leave the same files. -/
theorem performAll_congr {other : Sinks} (shared : sinks.recorder = some .shared)
    (shared' : other.recorder = some .shared) {host : Host σ} (unmarked : host.coverage = .empty)
    {tree : FileTree}
    (same : ∀ (map : CoverageMap) (later : FileTree), later.directories = tree.directories →
      later.saveAll (sinks.writes map) = later.saveAll (other.writes map))
    (steps : List Step) :
    (sinks.performAll steps (host, tree)).2 = (other.performAll steps (host, tree)).2 := by
  induction steps using List.reverseRecOn with
  | nil => rfl
  | append_singleton steps step ih =>
      obtain ⟨first, kept⟩ := performAll_shared shared unmarked tree steps
      obtain ⟨second, _⟩ := performAll_shared shared' unmarked tree steps
      rw [performAll_concat, performAll_concat, (perform_shared shared step _).2,
        (perform_shared shared' step _).2, first, second, ← ih]
      cases step with
      | flush => exact same _ _ kept
      | mark id => rfl
      | recordStartup => rfl

end Sinks

/-- A file can be written at a path. -/
def FileTree.IsWritable (tree : FileTree) (path : String) : Prop :=
  ∃ place, tree.destination path = .ok place

/-- Nothing is saved to a path at which no file can be written. -/
theorem FileTree.save_of_not_isWritable {tree later : FileTree} {path : String}
    (stuck : ¬tree.IsWritable path) (same : later.directories = tree.directories)
    (content : Bytes) : later.save path content = later := by
  cases leads : later.destination path with
  | ok place => exact absurd ⟨place, destination_congr same.symm leads⟩ stuck
  | error fault => exact save_of_error leads content

namespace Sinks

variable {σ : Type} {sinks : Sinks}

/-- The sinks lead to distinct files. -/
def LeadApart (sinks : Sinks) (tree : FileTree) : Prop :=
  ∀ dump ∈ sinks.dump, ∀ report ∈ sinks.report, ∀ place,
    tree.destination dump = .ok place → tree.destination report ≠ .ok place

/-- A file holds the identifiers of a map as an array of numbers. -/
def HoldsDump (tree : FileTree) (path : String) (map : CoverageMap) : Prop :=
  ∃ text, tree.readText path = .ok text ∧
    Text.numbers? text.toList = some (map.covered.map UInt32.toNat)

/-- A file holds the report on a map, in which as many lines are marked as it counts startup
identifiers. -/
def HoldsReport (tree : FileTree) (path : String) (map : CoverageMap) : Prop :=
  ∃ text, tree.readText path = .ok text ∧
    Text.lines text.toList = CoverageMap.reportLines map.covered map.startup ∧
    (Text.lines text.toList).countP (fun line => CoverageMap.startupMark <:+ line) =
      map.startup.length

/-- A text that sinks write is read from the file that its path leads to, unless another of their
texts goes there. -/
theorem readText_saveAll {tree : FileTree} {writes : List (String × Bytes)} {path text : String}
    (mem : (path, Text.Utf8.ofString text) ∈ writes) {place : Place}
    (leads : tree.destination path = .ok place)
    (agree : ∀ write ∈ writes, tree.destination write.1 = .ok place →
      write.2 = Text.Utf8.ofString text) :
    (tree.saveAll writes).readText path = .ok text :=
  FileTree.readText_of_read
    (FileTree.content?_eq_some_iff.mp (FileTree.content?_saveAll_of_mem mem leads agree))

theorem holdsDump_flushed {tree later : FileTree} (same : later.directories = tree.directories)
    (apart : sinks.LeadApart tree) {path : String} (set : sinks.dump = some path)
    (writable : tree.IsWritable path) (map : CoverageMap) :
    HoldsDump (later.saveAll (sinks.writes map)) path map := by
  obtain ⟨place, leads⟩ := writable
  refine ⟨CoverageMap.dumpText map.covered, ?_, CoverageMap.numbers?_dumpText _⟩
  apply readText_saveAll (by simp [writes, dumpWrites, set]) (FileTree.destination_congr same leads)
  intro write mem leads'
  rcases List.mem_append.mp mem with dumped | reported
  · obtain ⟨_, _, rfl⟩ := List.mem_map.mp dumped
    rfl
  · obtain ⟨report, set', rfl⟩ := List.mem_map.mp reported
    exact absurd (FileTree.destination_congr same.symm leads')
      (apart path set report (Option.mem_toList.mp set') place leads)

theorem holdsReport_flushed {tree later : FileTree} (same : later.directories = tree.directories)
    (apart : sinks.LeadApart tree) {path : String} (set : sinks.report = some path)
    (writable : tree.IsWritable path) {map : CoverageMap} {steps : List Step}
    (tells : TellsOf map steps) :
    HoldsReport (later.saveAll (sinks.writes map)) path map := by
  obtain ⟨place, leads⟩ := writable
  have lines := CoverageMap.lines_reportText tells.startup map.covered
  refine ⟨map.reportText map.covered, ?_, lines, ?_⟩
  · apply readText_saveAll (by simp [writes, reportWrites, set])
      (FileTree.destination_congr same leads)
    intro write mem leads'
    rcases List.mem_append.mp mem with dumped | reported
    · obtain ⟨dump, set', rfl⟩ := List.mem_map.mp dumped
      exact absurd leads
        (apart dump (Option.mem_toList.mp set') path set place
          (FileTree.destination_congr same.symm leads'))
    · obtain ⟨_, _, rfl⟩ := List.mem_map.mp reported
      rfl
  · rw [lines]
    exact CoverageMap.countP_reportLines tells.nodup_covered tells.nodup_startup
      tells.startup_subset

/-- A dump that cannot be written makes no difference to the files. -/
theorem saveAll_without_dump {tree later : FileTree} {path : String}
    (set : sinks.dump = some path) (stuck : ¬tree.IsWritable path)
    (same : later.directories = tree.directories) (map : CoverageMap) :
    later.saveAll (sinks.writes map) =
      later.saveAll (writes { sinks with dump := none } map) := by
  have nothing := FileTree.save_of_not_isWritable stuck same
  simp [writes, dumpWrites, reportWrites, set, nothing]

/-- A report that cannot be written makes no difference to the files. -/
theorem saveAll_without_report {tree later : FileTree} {path : String}
    (set : sinks.report = some path) (stuck : ¬tree.IsWritable path)
    (same : later.directories = tree.directories) (map : CoverageMap) :
    later.saveAll (sinks.writes map) =
      later.saveAll (writes { sinks with report := none } map) := by
  have dumped : (later.saveAll (sinks.dumpWrites map.covered)).directories = tree.directories :=
    (FileTree.saveAll_directories ..).trans same
  have nothing := FileTree.save_of_not_isWritable stuck dumped
  have alone : dumpWrites { sinks with report := none } map.covered =
      sinks.dumpWrites map.covered := rfl
  simp [writes, alone, reportWrites, set, nothing, FileTree.saveAll_append]

/-- Sinks tell the truth. After a flush at the end of any steps, the map is as it was before and
tells what was marked; the dump and the report, if their files can be written, hold what it
tells; and if one of them cannot be written, all files are as if the other were set alone. -/
theorem flush_tells_marks (shared : sinks.recorder = some .shared) {tree : FileTree}
    (apart : sinks.LeadApart tree) {host : Host σ} (unmarked : host.coverage = .empty)
    (steps : List Step) :
    let before := sinks.performAll steps (host, tree)
    let after := sinks.performAll (steps ++ [.flush]) (host, tree)
    (after.1.coverage = before.1.coverage ∧ TellsOf after.1.coverage steps) ∧
      (∀ path, sinks.dump = some path → tree.IsWritable path →
        HoldsDump after.2 path after.1.coverage) ∧
      (∀ path, sinks.report = some path → tree.IsWritable path →
        HoldsReport after.2 path after.1.coverage) ∧
      (∀ path, sinks.dump = some path → ¬tree.IsWritable path →
        after.2 =
          (performAll { sinks with dump := none } (steps ++ [.flush]) (host, tree)).2) ∧
      ∀ path, sinks.report = some path → ¬tree.IsWritable path →
        after.2 =
          (performAll { sinks with report := none } (steps ++ [.flush]) (host, tree)).2 := by
  intro before after
  obtain ⟨marked, kept⟩ := performAll_shared shared unmarked tree steps
  have tells := TellsOf.mapAfter steps
  have flushed : after = sinks.perform .flush before := performAll_concat sinks steps .flush _
  obtain ⟨unchanged, saved⟩ := flush_shared shared before.1 before.2
  have unchanged : after.1.coverage = mapAfter steps := by
    rw [flushed]
    exact unchanged.trans marked
  have saved : after.2 = before.2.saveAll (sinks.writes (mapAfter steps)) := by
    rw [flushed, ← marked]
    exact saved
  refine ⟨⟨unchanged.trans marked.symm, unchanged ▸ tells⟩, ?_, ?_, ?_, ?_⟩
  · intro path set writable
    rw [saved, unchanged]
    exact holdsDump_flushed kept apart set writable _
  · intro path set writable
    rw [saved, unchanged]
    exact holdsReport_flushed kept apart set writable tells
  · intro path set stuck
    have shared' : ({ sinks with dump := none } : Sinks).recorder = some .shared := shared
    exact performAll_congr shared shared' unmarked
      (fun map _ same => saveAll_without_dump set stuck same map) _
  · intro path set stuck
    have shared' : ({ sinks with report := none } : Sinks).recorder = some .shared := shared
    exact performAll_congr shared shared' unmarked
      (fun map _ same => saveAll_without_report set stuck same map) _

/-- Of three marks, one before and one after startup is recorded, the dump and the report tell
when they are flushed, and the report alone when no file can be made for the dump. -/
theorem flush_tells_marks_threeMarks :
    let steps : List Step := [.mark 3, .recordStartup, .mark 1, .mark 3]
    let state : Host Unit × FileTree := (.fresh (), .empty)
    let both : Sinks := ⟨some .shared, some "c.json", some "c.txt"⟩
    let torn : Sinks := ⟨some .shared, some "missing/c.json", some "c.txt"⟩
    (performAll both (steps ++ [.flush]) state).1.coverage = ⟨[1, 3], [3]⟩ ∧
      HoldsDump (performAll both (steps ++ [.flush]) state).2 "c.json" ⟨[1, 3], [3]⟩ ∧
      HoldsReport (performAll both (steps ++ [.flush]) state).2 "c.txt" ⟨[1, 3], [3]⟩ ∧
      (performAll torn (steps ++ [.flush]) state).2 =
        (performAll ⟨some .shared, none, some "c.txt"⟩ (steps ++ [.flush]) state).2 := by
  intro steps state both torn
  have dump : FileTree.empty.destination "c.json" = .ok ["c.json"] := by decide +kernel
  have report : FileTree.empty.destination "c.txt" = .ok ["c.txt"] := by decide +kernel
  have missing : FileTree.empty.destination "missing/c.json" = .error .notFound := by
    decide +kernel
  have apart : both.LeadApart .empty := by
    rintro _ ⟨⟩ _ ⟨⟩ place leads
    rw [report, ← leads, dump]
    decide
  have apart' : torn.LeadApart .empty := by
    rintro _ ⟨⟩ _ ⟨⟩ place leads
    rw [missing] at leads
    cases leads
  have stuck : ¬FileTree.empty.IsWritable "missing/c.json" := by
    rintro ⟨place, leads⟩
    rw [missing] at leads
    cases leads
  obtain ⟨⟨kept, _⟩, dumped, reported, _, _⟩ :=
    flush_tells_marks (rfl : both.recorder = some .shared) apart
      (rfl : state.1.coverage = .empty) steps
  obtain ⟨_, _, _, alone, _⟩ :=
    flush_tells_marks (rfl : torn.recorder = some .shared) apart'
      (rfl : state.1.coverage = .empty) steps
  have told : (performAll both (steps ++ [.flush]) state).1.coverage = ⟨[1, 3], [3]⟩ :=
    kept.trans rfl
  rw [told] at dumped reported
  exact ⟨told, dumped "c.json" rfl ⟨_, dump⟩, reported "c.txt" rfl ⟨_, report⟩,
    alone "missing/c.json" rfl stuck⟩

end Sinks

end FuzzHarness
