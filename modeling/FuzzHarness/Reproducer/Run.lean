import FuzzHarness.Digest.Md5
import FuzzHarness.Execution
import FuzzHarness.Reproducer.Artifact
import FuzzHarness.Text.Hex

/-!
# Making and running reproducers

A reproducer for the input just run holds the input itself, or the values a target
in provider mode draws when it is run on that input once more. A target with its own
writer makes its own. Running a reproducer hands the target what it holds.
-/

namespace FuzzHarness

/-- The name of an input: its MD5 digest in hexadecimal. -/
def contentHash (input : Bytes) : String :=
  Text.hex (Digest.Md5.digest input)

namespace Artifact

variable {σ : Type}

/-- Run a target on what a reproducer holds. A reproducer of the other mode is refused;
one that names another target is only warned of. -/
def replay (artifact : Artifact) (target : Target σ) (host : Host σ) :
    Except ArtifactFault (Option Finding) × Host σ :=
  if target.mode ≠ artifact.mode then
    (.error (.modeMismatch artifact.mode target.mode), host)
  else
    let host :=
      if target.name = artifact.target then host
      else host.logged (.targetNameDiffers artifact.target target.name)
    match target.entry with
    | .bytes code =>
      match Text.Base64.decode (Text.Utf8.ofString artifact.payload) with
      | .error fault => (.error (.payload fault), host)
      | .ok input =>
        let (outcome, session) :=
          target.iterate (.replay .bytes) (code input) (⟨host, none⟩ : Session σ Replay)
        (.ok outcome.finding?, session.host)
    | .provider code =>
      match Recording.decode artifact.payload with
      | .error fault => (.error (.recording fault), host)
      | .ok recording =>
        let (outcome, session) :=
          target.iterate (.replay .provider) code ⟨host, some (Replay.mk recording)⟩
        (.ok outcome.finding?, session.host)

end Artifact

inductive Generated where
  | artifact (artifact : Artifact)
  /-- The target's own writer made one. -/
  | delegated
  | failed (fault : ArtifactFault)
  /-- The target's own writer panicked. -/
  | escaped (payload : Payload)

namespace Executor

variable {σ : Type}

/-- Write a reproducer file; if that fails, only the log tells. -/
def writeArtifact (artifact : Artifact) (directory : String) (host : Host σ)
    (tree : FileTree) : Host σ × FileTree :=
  match artifact.writeTo tree directory with
  | .ok tree => (host.logged (.reproducerWritten (artifact.pathIn directory)), tree)
  | .error fault => (host.logged (.reproducerFailed fault.message), tree)

/-- The payload of a reproducer for the input just run. -/
def payload (executor : Executor σ) (octets : Bytes) (host : Host σ) :
    String × Executor σ × Host σ :=
  match executor.record host with
  | (some (outcome, recording), executor, host) =>
    (recording.encode, executor,
      if outcome.isFinding then host else host.logged .notReproduced)
  | (none, executor, host) => (Text.Base64.encode octets, executor, host)

/-- Make a reproducer for the input just run, leaving it to the target's own writer if
there is one. -/
def generate (executor : Executor σ) (directory : String) (input : Bytes) (host : Host σ)
    (tree : FileTree) : Generated × Executor σ × Host σ × FileTree :=
  let (octets, executor) := executor.canonicalBytes input
  let hash := contentHash octets
  match executor.handOver directory hash host with
  | (some (.finished (.ok ())), executor, host) => (.delegated, executor, host, tree)
  | (some (.finished (.error failure)), executor, host) =>
    (.failed (.writer failure), executor, host, tree)
  | (some (.unwound payload), executor, host) => (.escaped payload, executor, host, tree)
  | (none, executor, host) =>
    let (payload, executor, host) := executor.payload octets host
    let artifact : Artifact := ⟨executor.target.name, executor.target.mode, payload, hash⟩
    let (host, tree) := writeArtifact artifact directory host tree
    (.artifact artifact, executor, host, tree)

end Executor

end FuzzHarness
