import FuzzHarness.Proofs.Reproducer.Provider

/-!
# Reproducers of unsteady targets

To make a reproducer, a target in provider mode is run once more on the input that was just
run. Nothing obliges it to do again what it did: it may draw other values, fail elsewhere or
not fail at all. Still there is a reproducer, for the input that was run, and it holds the
values that were handed out this time. What can be written where has no part in it; the log
alone tells whether there is a file.
-/

namespace FuzzHarness

variable {σ : Type}

/-- The values that the run for a recording hands out to a target, in order. They end where a
panic ends the run. -/
def Target.handedOut (target : Target σ) (code : Code σ Unit) (host : Host σ) (input : Bytes) :
    Recording :=
  (target.conversation .record code host (Cursor.ofBytes input)).values

namespace Executor

variable {executor : Executor σ} {input : Bytes}

/-- The run for a recording draws from the input of the cursor and does not replace it. -/
theorem record_data (executor : Executor σ) (host : Host σ) :
    (executor.record host).2.1.cursor.data = executor.cursor.data := by
  cases entry : executor.target.entry with
  | bytes code => rw [record, entry]
  | provider code =>
      obtain ⟨left, after, answers, runs⟩ :=
        executor.target.iterate_of_answers .record code host
          (Recorder.start executor.cursor.reset)
      rw [record, entry]
      dsimp only
      rw [runs _ _ _ answers]
      have drawn : Answers executor.cursor.reset _ after.source :=
        (Recorder.answers_iff.mp answers).1
      change after.source.data = executor.cursor.reset.data
      exact Cursor.answers_data drawn

theorem payload_data (executor : Executor σ) (octets : Bytes) (host : Host σ) :
    (executor.payload octets host).2.1.cursor.data = executor.cursor.data := by
  have kept := executor.record_data host
  rw [payload]
  split
  · next recorded => rwa [recorded] at kept
  · next recorded => rwa [recorded] at kept

/-- The executor can tell which octets identify its last run: either the target takes them
as they are, or the cursor was fed them. -/
def Identifies (executor : Executor σ) (input : Bytes) : Prop :=
  executor.target.mode = .provider → executor.cursor.data = input

namespace Identifies

/-- Running an input makes the executor identify it. -/
theorem execute (executor : Executor σ) (input : Bytes) (host : Host σ) :
    (executor.execute input host).2.1.Identifies input := by
  intro mode
  rw [(executor.execute_spec input host).1] at mode
  cases entry : executor.target.entry with
  | bytes code =>
      rw [Target.mode, entry] at mode
      cases mode
  | provider code => exact (execute_provider entry input host).2

theorem canonicalBytes (identifies : executor.Identifies input) :
    (executor.canonicalBytes input).1 = input ∧
      (executor.canonicalBytes input).2.Identifies input := by
  cases entry : executor.target.entry with
  | bytes code =>
      have mode : executor.target.mode = .bytes := congrArg Entry.mode entry
      rw [Executor.canonicalBytes, mode]
      exact ⟨rfl, identifies⟩
  | provider code =>
      obtain ⟨octets, data⟩ :=
        canonicalBytes_provider entry (identifies (congrArg Entry.mode entry))
      exact ⟨octets, fun _ => data⟩

theorem payload (identifies : executor.Identifies input) (octets : Bytes) (host : Host σ) :
    (executor.payload octets host).2.1.Identifies input := by
  intro mode
  rw [payload_target] at mode
  exact (executor.payload_data octets host).trans (identifies mode)

end Identifies

theorem payload_bytes {code : Bytes → Code σ Unit} (entry : executor.target.entry = .bytes code)
    (octets : Bytes) (host : Host σ) :
    executor.payload octets host = (Text.Base64.encode octets, executor, host) := by
  rw [payload, record, entry]

/-- An artifact for the input that the executor identifies, whatever its payload. -/
theorem generate_of_identifies (plain : executor.target.writer = none)
    (identifies : executor.Identifies input) (directory : String) (host : Host σ)
    (tree : FileTree) :
    executor.generate directory input host tree =
      let recorded := (executor.canonicalBytes input).2.payload input host
      let artifact : Artifact := ⟨executor.target.name, executor.target.mode, recorded.1,
        contentHash input⟩
      (.artifact artifact, recorded.2.1, writeArtifact artifact directory recorded.2.2 tree) := by
  rw [generate_of_writer_none plain]
  dsimp only
  rw [identifies.canonicalBytes.1, payload_target, canonicalBytes_target]

/-- After any run on an input, and whatever happened since as long as no report is pending, a
target without a writer of its own gets a reproducer. It names the target, its mode and the
hash of the input, and holds the input itself or what the further run hands out. It is made in
the same way whatever the files: if it cannot be written, the log gets an error in place of
the path and the files stay as they are. Afterwards no report is pending, and the input still
identifies the run. Numbers of values and their sizes are machine words. -/
theorem generate_executed (executor : Executor σ) (plain : executor.target.writer = none)
    (input : Bytes) (before host : Host σ)
    (quiet : host.reports.get executor.target.channel = none) (directory : String) :
    let target := executor.target
    let made := (executor.execute input before).2.1.generate directory input host
    ∃ (artifact : Artifact) (after : Executor σ) (left : Host σ),
      (∀ tree, made tree =
        match artifact.writeTo tree directory with
        | .ok saved =>
          (.artifact artifact, after,
            left.logged (.reproducerWritten (artifact.pathIn directory)), saved)
        | .error fault =>
          (.artifact artifact, after, left.logged (.reproducerFailed fault.message), tree)) ∧
      artifact.contentHash = contentHash input ∧
      artifact.target = target.name ∧
      artifact.mode = target.mode ∧
      (∀ code, target.entry = .bytes code →
        artifact.payload = Text.Base64.encode input) ∧
      (∀ code, target.entry = .provider code →
        artifact.payload = (target.handedOut code host input).encode ∧
          ((target.handedOut code host input).Fits →
            Recording.decode artifact.payload = .ok (target.handedOut code host input))) ∧
      ∀ tree, (made tree).2.2.1.reports.get target.channel = none ∧
        ((made tree).2.1.canonicalBytes input).1 = input := by
  intro target made
  have identifies := Identifies.execute executor input before
  have runs : (executor.execute input before).2.1.target = target :=
    (executor.execute_spec input before).1
  have made_eq (tree : FileTree) : made tree = _ :=
    generate_of_identifies (runs ▸ plain) identifies directory host tree
  generalize (executor.execute input before).2.1 = executed at made_eq runs identifies
  have fed := identifies.canonicalBytes.2
  have keeps := (executed.canonicalBytes_target input).trans runs
  generalize (executed.canonicalBytes input).2 = rewound at made_eq fed keeps
  refine ⟨⟨executed.target.name, executed.target.mode, (rewound.payload input host).1,
    contentHash input⟩, (rewound.payload input host).2.1, (rewound.payload input host).2.2, ?_, rfl,
    congrArg Target.name runs, congrArg Target.mode runs, ?_, ?_, ?_⟩
  · intro tree
    rw [made_eq]
    unfold writeArtifact
    dsimp only
    -- What the artifact holds is of no concern here, and too much to work out.
    generalize Artifact.mk executed.target.name executed.target.mode _ _ = artifact
    cases artifact.writeTo tree directory with
    | ok saved => rfl
    | error fault => rfl
  · intro code entry
    rw [payload_bytes (keeps ▸ entry)]
  · intro code entry
    have entry : rewound.target.entry = .provider code := keeps ▸ entry
    have held : (rewound.payload input host).1 = (target.handedOut code host input).encode := by
      rw [payload_provider entry (fed (congrArg Entry.mode entry)), keeps]
      rfl
    refine ⟨held, ?_⟩
    intro fits
    rw [← Recording.decode_encode fits, ← held]
  · intro tree
    rw [made_eq]
    constructor
    · rw [writeArtifact_reports, ← keeps]
      exact payload_reports (keeps ▸ quiet) input
    · exact (fed.payload input host).canonicalBytes.1

end Executor

/-- Code that draws an octet and fails when it is run for the first time. Later it draws two
octets as they are and then asks for an inverted range. -/
def waveringCode : Code Nat Unit :=
  .load fun runs => .store (runs + 1) (
    if runs = 0 then .draw .u8 fun _ => .panic (.symbolic "first") (.str "first")
    else .draw (.bytes 2) fun _ => .draw (.u64In 5 1) fun _ => .finish ())

def wavering : Target Nat where
  name := "demo::wavering"
  entry := .provider waveringCode
  startup := none
  tearDown := none
  writer := none
  channel := .own

/-- The reproducer holds what was drawn up to the panic of the second run, though there is no
directory to write it to. -/
theorem wavering_generated :
    let run := (Executor.ofTarget wavering).execute [1, 2, 3] (.fresh 0)
    run.1 = .thrown (.capturedAt ((Site.symbolic "first").upon (Way.execute .provider).frames)
        Finding.panicKind "first") ∧
      ∃ artifact after, ∃ left : Host Nat,
        run.2.1.generate "missing" [1, 2, 3] run.2.2 .empty =
          (.artifact artifact, after,
            left.logged (.reproducerFailed
              (ArtifactFault.file (artifact.pathIn "missing") .notFound).message), .empty) ∧
        artifact.contentHash = contentHash [1, 2, 3] ∧
        Recording.decode artifact.payload = .ok [.bytes [1, 2]] ∧
        (after.canonicalBytes [1, 2, 3]).1 = [1, 2, 3] := by
  intro run
  have handedOut : wavering.handedOut waveringCode run.2.2 [1, 2, 3] = [.bytes [1, 2]] := by
    decide +kernel
  obtain ⟨artifact, after, left, saved, hash, _, _, _, held, keeps⟩ :=
    (Executor.ofTarget wavering).generate_executed rfl [1, 2, 3] (.fresh 0) run.2.2
      (Executor.execute_spec _ _ _).2 "missing"
  have decoded : Recording.Fits (wavering.handedOut waveringCode run.2.2 [1, 2, 3]) →
      Recording.decode artifact.payload =
        .ok (wavering.handedOut waveringCode run.2.2 [1, 2, 3]) := (held waveringCode rfl).2
  rw [handedOut] at decoded
  have refused : FileTree.empty.destination (artifact.pathIn "missing") = .error .notFound := by
    rw [Artifact.pathIn, Artifact.fileName, hash]
    decide +kernel
  have wrote : artifact.writeTo .empty "missing" =
      .error (.file (artifact.pathIn "missing") .notFound) := by
    unfold Artifact.writeTo FileTree.write
    simp only [refused, Except.map]
  have made := saved .empty
  have again := (keeps .empty).2
  simp only [wrote] at made
  rw [made] at again
  exact ⟨by decide +kernel, artifact, after, left, made, hash, decoded ⟨by decide, by decide⟩,
    again⟩

end FuzzHarness
