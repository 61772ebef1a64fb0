import FuzzHarness.Proofs.Execution
import FuzzHarness.Proofs.Files.Path
import FuzzHarness.Proofs.Files.Tree
import FuzzHarness.Proofs.Reproducer.Artifact
import FuzzHarness.Proofs.Text.Base64
import FuzzHarness.Proofs.Text.Hex
import FuzzHarness.Reproducer.Run

/-!
# Reproducers as they are made

A reproducer that the harness makes has a target name, Base64 text and hexadecimal digits
in it, so that its file tells what it was made from. Its file is named after the hash, and
no other file that the harness writes has a name that ends as this one does.
-/

namespace FuzzHarness

theorem mem_contentHash {input : Bytes} {c : Char} (mem : c ∈ (contentHash input).toList) :
    ∃ n < 16, c = Text.hexDigit n := by
  rw [contentHash, Text.hex, String.toList_ofList] at mem
  exact Text.exists_of_mem_hexChars mem

theorem hexDigit_spec : ∀ n < 16, Text.Base64.isEncodingChar (Text.hexDigit n) = true ∧
    Text.hexDigit n ≠ 's' ∧ Text.hexDigit n ≠ '/' := by
  decide

theorem ne_slash_of_mem_contentHash {input : Bytes} {c : Char}
    (mem : c ∈ (contentHash input).toList) : c ≠ '/' := by
  obtain ⟨n, small, rfl⟩ := mem_contentHash mem
  exact (hexDigit_spec n small).2.2

theorem length_digest (input : Bytes) : (Digest.Md5.digest input).length = 16 := by
  simp [Digest.Md5.digest]

/-- The hash ends in a digit. -/
theorem exists_getLast?_contentHash (input : Bytes) :
    ∃ n < 16, (contentHash input).toList.getLast? = some (Text.hexDigit n) := by
  cases last : (contentHash input).toList.getLast? with
  | none =>
      have empty := List.getLast?_eq_none_iff.mp last
      rw [contentHash, Text.hex, String.toList_ofList, Text.hexChars] at empty
      have long := length_digest input
      generalize Digest.Md5.digest input = digest at empty long
      cases digest with
      | nil => cases long
      | cons octet rest => cases empty
  | some c =>
      obtain ⟨n, small, rfl⟩ := mem_contentHash (List.mem_of_getLast? last)
      exact ⟨n, small, rfl⟩

namespace Artifact

theorem isPlainText_of_forall {text : String} {allowed : Char → Bool}
    (all : ∀ c ∈ text.toList, allowed c = true) (percent : allowed '%' = false)
    (feed : allowed '\n' = false) : IsPlainText text :=
  ⟨fun mem => absurd (all _ mem) (Bool.eq_false_iff.mp percent),
    fun mem => absurd (all _ mem) (Bool.eq_false_iff.mp feed)⟩

theorem isBlank_of_isNameChar {c : Char} (named : isNameChar c = true) :
    Text.isBlank c = false := by
  rcases Bool.or_eq_true_iff.mp named with front | colon
  · rcases Bool.or_eq_true_iff.mp front with letter | underscore
    · apply Text.Base64.isBlank_of_isEncodingChar
      rw [Text.Base64.isEncodingChar, letter]
      rfl
    · rw [beq_iff_eq.mp underscore]
      decide
  · rw [beq_iff_eq.mp colon]
    decide

/-- A reproducer made by the harness can be read back. -/
theorem isPlain_made {name : String} (valid : isTargetName name = true) (mode : Mode)
    (payload input : Bytes) :
    (Artifact.mk name mode (Text.Base64.encode payload)
      (FuzzHarness.contentHash input)).IsPlain := by
  have named : ∀ c ∈ name.toList, isNameChar c = true :=
    List.all_eq_true.mp (Bool.and_eq_true_iff.mp valid).2
  have encoded : ∀ c ∈ (Text.Base64.encode payload).toList,
      Text.Base64.isEncodingChar c = true := by
    rw [Text.Base64.encode, String.toList_ofList]
    intro c mem
    exact Text.Base64.isEncodingChar_of_mem_encodeChars mem
  have hashed : ∀ c ∈ (FuzzHarness.contentHash input).toList,
      Text.Base64.isEncodingChar c = true := by
    intro c mem
    obtain ⟨n, small, rfl⟩ := mem_contentHash mem
    exact (hexDigit_spec n small).1
  refine ⟨isPlainText_of_forall named rfl rfl, isPlainText_of_forall hashed rfl rfl,
    isPlainText_of_forall encoded rfl rfl, ?_, ?_⟩
  · exact Text.trim_eq_self fun c mem => isBlank_of_isNameChar (named c mem)
  · exact Text.trim_eq_self fun c mem => Text.Base64.isBlank_of_isEncodingChar (hashed c mem)

theorem fileName_toList (artifact : Artifact) :
    artifact.fileName.toList = "Crash_".toList ++ artifact.contentHash.toList ++ ".rs".toList := by
  rw [fileName, String.toList_append, String.toList_append]
  rfl

/-- The file name is the last component of the path. -/
theorem getLast?_components_pathIn {artifact : Artifact}
    (hashed : ∀ c ∈ artifact.contentHash.toList, c ≠ '/') (directory : String) :
    (Path.components (artifact.pathIn directory)).getLast? = some artifact.fileName := by
  have whole : '/' ∉ artifact.fileName.toList := by
    rw [fileName_toList, List.mem_append, List.mem_append]
    rintro ((mem | mem) | mem)
    · exact absurd mem (by decide +kernel)
    · exact hashed '/' mem rfl
    · exact absurd mem (by decide +kernel)
  refine Path.getLast?_components_join ?_ whole directory
  rw [fileName_toList]
  simp

/-- A stored reproducer is read back. -/
theorem readFrom_of_read {artifact : Artifact} (plain : artifact.IsPlain) {tree : FileTree}
    {path : String} (stored : tree.read path = .ok (Text.Utf8.ofString artifact.render)) :
    readFrom tree path = .ok artifact := by
  rw [readFrom, FileTree.readText_of_read stored]
  exact parse_render plain

/-- Writing a reproducer puts its source at the destination of its path. -/
theorem writeTo_eq_ok_iff {artifact : Artifact} {tree other : FileTree} {directory : String} :
    artifact.writeTo tree directory = .ok other ↔
      ∃ place, tree.destination (artifact.pathIn directory) = .ok place ∧
        other = tree.put place (Text.Utf8.ofString artifact.render) := by
  rw [← FileTree.write_eq_ok_iff]
  unfold writeTo
  dsimp only
  generalize tree.write (artifact.pathIn directory) (Text.Utf8.ofString artifact.render) = wrote
  cases wrote with
  | error fault => exact ⟨nofun, nofun⟩
  | ok tree => rw [Except.ok.injEq, Except.ok.injEq]

/-- A reproducer that was written is read back. -/
theorem readFrom_of_writeTo {artifact : Artifact} (plain : artifact.IsPlain)
    {tree other : FileTree} {directory : String}
    (written : artifact.writeTo tree directory = .ok other) :
    readFrom other (artifact.pathIn directory) = .ok artifact := by
  obtain ⟨place, leads, rfl⟩ := writeTo_eq_ok_iff.mp written
  exact readFrom_of_read plain (FileTree.read_put_self leads _)

variable {σ : Type} {artifact : Artifact} {target : Target σ}

/-- Running a reproducer against its target hands over the input that it holds. -/
theorem replay_bytes (mode : target.mode = artifact.mode) (name : target.name = artifact.target)
    {code : Bytes → Code σ Unit} (entry : target.entry = .bytes code) {input : Bytes}
    (holds : Text.Base64.decode (Text.Utf8.ofString artifact.payload) = .ok input)
    (host : Host σ) :
    (artifact.replay target host).1 =
      .ok (target.iterate (.replay .bytes) (code input)
        (⟨host, none⟩ : Session σ Replay)).1.finding? := by
  rw [replay, if_neg (not_not_intro mode), if_pos name, entry]
  dsimp only
  rw [holds]

/-- Running a reproducer against its target serves the recording that it holds. -/
theorem replay_provider (mode : target.mode = artifact.mode)
    (name : target.name = artifact.target) {code : Code σ Unit}
    (entry : target.entry = .provider code) {recording : Recording}
    (holds : Recording.decode artifact.payload = .ok recording) (host : Host σ) :
    (artifact.replay target host).1 =
      .ok (target.iterate (.replay .provider) code
        ⟨host, some (Replay.mk recording)⟩).1.finding? := by
  rw [replay, if_neg (not_not_intro mode), if_pos name, entry]
  dsimp only
  rw [holds]

end Artifact

/-- What comes of a reproducer that the target's own writer makes. -/
def Generated.ofExit : Exit (Except Failure Unit) → Generated
  | .finished (.ok ()) => .delegated
  | .finished (.error failure) => .failed (.writer failure)
  | .unwound payload => .escaped payload

namespace Executor

variable {σ : Type}

theorem payload_target (executor : Executor σ) (octets : Bytes) (host : Host σ) :
    (executor.payload octets host).2.1.target = executor.target := by
  have kept := executor.record_target host
  rw [payload]
  split
  · next recorded => exact (congrArg (fun run => run.2.1.target) recorded).symm.trans kept
  · next recorded => exact (congrArg (fun run => run.2.1.target) recorded).symm.trans kept

/-- The run for a payload leaves no report pending. -/
theorem payload_reports {executor : Executor σ} {host : Host σ}
    (quiet : host.reports.get executor.target.channel = none) (octets : Bytes) :
    (executor.payload octets host).2.2.reports.get executor.target.channel = none := by
  have left := record_reports quiet
  rw [payload]
  split
  · next recorded =>
    rw [recorded] at left
    dsimp only
    split <;> exact left
  · next recorded => rwa [recorded] at left

/-- Making a reproducer keeps the target. -/
theorem generate_target (executor : Executor σ) (directory : String) (input : Bytes)
    (host : Host σ) (tree : FileTree) :
    (executor.generate directory input host tree).2.1.target = executor.target := by
  have canonical := executor.canonicalBytes_target input
  rw [generate]
  rcases taken : executor.canonicalBytes input with ⟨octets, fed⟩
  rw [taken] at canonical
  have handed := (fed.handOver_target directory (contentHash octets) host).trans canonical
  dsimp only
  split
  · next same => rwa [same] at handed
  · next same => rwa [same] at handed
  · next same => rwa [same] at handed
  · next same =>
    rw [same] at handed
    exact (payload_target _ _ _).trans handed

/-- A log entry apart, writing a reproducer touches files only. -/
theorem writeArtifact_reports (artifact : Artifact) (directory : String) (host : Host σ)
    (tree : FileTree) :
    (writeArtifact artifact directory host tree).1.reports = host.reports := by
  unfold writeArtifact
  split <;> rfl

/-- A reproducer that can be written is put at the destination of its path. -/
theorem writeArtifact_tree {artifact : Artifact} {directory : String} {tree : FileTree}
    {place : Place} (leads : tree.destination (artifact.pathIn directory) = .ok place)
    (host : Host σ) :
    (writeArtifact artifact directory host tree).2 =
      tree.put place (Text.Utf8.ofString artifact.render) := by
  have written := Artifact.writeTo_eq_ok_iff.mpr ⟨place, leads, rfl⟩
  unfold writeArtifact
  rw [written]

/-- Without a writer of its own, a target gets an artifact for the octets that identify
the run. -/
theorem generate_of_writer_none {executor : Executor σ} (none : executor.target.writer = none)
    (directory : String) (input : Bytes) (host : Host σ) (tree : FileTree) :
    executor.generate directory input host tree =
      let taken := executor.canonicalBytes input
      let recorded := taken.2.payload taken.1 host
      let artifact : Artifact := ⟨recorded.2.1.target.name, recorded.2.1.target.mode, recorded.1,
        contentHash taken.1⟩
      let wrote := writeArtifact artifact directory recorded.2.2 tree
      (.artifact artifact, recorded.2.1, wrote.1, wrote.2) := by
  have kept := executor.canonicalBytes_target input
  have refused : (executor.canonicalBytes input).2.handOver directory
      (contentHash (executor.canonicalBytes input).1) host =
        (.none, (executor.canonicalBytes input).2, host) := by
    rw [handOver, kept, none]
  unfold generate
  dsimp only
  rw [refused]

/-- A target with a writer of its own gets what the writer makes, and nothing else runs. -/
theorem generate_of_writer {executor : Executor σ} {writer : ReproducerWriter σ}
    (own : executor.target.writer = some writer) (directory : String) (input : Bytes)
    (host : Host σ) (tree : FileTree) :
    let taken := executor.canonicalBytes input
    let wrote := (writer directory (contentHash taken.1)).run ⟨host, some taken.2.cursor.reset⟩
    let made := executor.generate directory input host tree
    made.1 = .ofExit wrote.1 ∧ made.2.2 = (wrote.2.host, tree) := by
  have kept := executor.canonicalBytes_target input
  rw [generate]
  generalize executor.canonicalBytes input = taken at kept ⊢
  obtain ⟨octets, fed⟩ := taken
  dsimp only at kept ⊢
  rw [handOver, kept, own]
  dsimp only
  rcases (writer directory (contentHash octets)).run ⟨host, some fed.cursor.reset⟩ with
    ⟨exit, session⟩
  cases exit with
  | finished value => cases value <;> exact ⟨rfl, rfl⟩
  | unwound payload => exact ⟨rfl, rfl⟩

/-- Making a reproducer leaves no report pending, unless the target's own writer does. -/
theorem generate_quiet {executor : Executor σ} (silent : executor.target.WriterStaysQuiet)
    {host : Host σ} (quiet : host.reports.get executor.target.channel = none)
    (directory : String) (input : Bytes) (tree : FileTree) :
    (executor.generate directory input host tree).2.2.1.reports.get executor.target.channel =
      none := by
  have kept := executor.canonicalBytes_target input
  rw [generate]
  rcases taken : executor.canonicalBytes input with ⟨octets, fed⟩
  rw [taken] at kept
  rw [← kept] at silent quiet ⊢
  have handed := handOver_reports silent quiet directory (contentHash octets)
  have keeps := fed.handOver_target directory (contentHash octets) host
  dsimp only
  split
  · next same => rwa [same] at handed
  · next same => rwa [same] at handed
  · next same => rwa [same] at handed
  · next same =>
    rw [same] at handed keeps
    rw [writeArtifact_reports, ← keeps]
    exact payload_reports (keeps.symm ▸ handed) _

/-- Unless the target has a writer of its own, making a reproducer leaves no report
pending. -/
theorem generate_reports {executor : Executor σ} (none : executor.target.writer = none)
    {host : Host σ} (quiet : host.reports.get executor.target.channel = Option.none)
    (directory : String) (input : Bytes) (tree : FileTree) :
    (executor.generate directory input host tree).2.2.1.reports.get executor.target.channel =
      Option.none := by
  refine generate_quiet ?_ quiet directory input tree
  intro writer own
  rw [none] at own
  cases own

/-- In bytes mode the artifact holds the input itself. -/
theorem generate_bytes {executor : Executor σ} {code : Bytes → Code σ Unit}
    (entry : executor.target.entry = .bytes code) (none : executor.target.writer = none)
    (directory : String) (input : Bytes) (host : Host σ) (tree : FileTree) :
    executor.generate directory input host tree =
      let artifact : Artifact := ⟨executor.target.name, .bytes, Text.Base64.encode input,
        contentHash input⟩
      let wrote := writeArtifact artifact directory host tree
      (.artifact artifact, executor, wrote.1, wrote.2) := by
  have mode : executor.target.mode = .bytes := congrArg Entry.mode entry
  have canonical : executor.canonicalBytes input = (input, executor) := by
    rw [canonicalBytes, mode]
  have recorded : executor.payload input host = (Text.Base64.encode input, executor, host) := by
    rw [payload, record, entry]
  rw [generate_of_writer_none none, canonical]
  dsimp only
  rw [recorded]
  dsimp only
  rw [mode]

end Executor

end FuzzHarness
