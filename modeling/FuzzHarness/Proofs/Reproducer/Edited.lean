import FuzzHarness.Proofs.Reproducer.Run

/-!
# Reproducers that were edited

A reproducer file is read by its header lines and the line of its payload. It tells what it
was made from also when its line feeds have become carriage returns with line feeds, and
when lines that begin as none of these four were inserted anywhere.
-/

namespace FuzzHarness.Artifact

/-- The beginnings of the lines that a reproducer is read by. -/
def fieldStarts : List String :=
  [targetStart, modeStart, hashStart, payloadStart]

/-- A line that begins as none of the lines that a reproducer is read by. -/
def IsForeign (line : List Char) : Prop :=
  ∀ start ∈ fieldStarts, ¬ start.toList <+: line

instance (line : List Char) : Decidable (IsForeign line) :=
  inferInstanceAs (Decidable (∀ start ∈ fieldStarts, ¬ start.toList <+: line))

/-- Without a carriage return at its end, a line begins as none of them either. -/
theorem IsForeign.of_readsAs {line read : List Char} (foreign : IsForeign line)
    (reads : Text.ReadsAs line read) : IsForeign read := by
  rcases reads with rfl | rfl
  · exact foreign
  · intro start mem begins
    exact foreign start mem (begins.trans (List.prefix_append read _))

theorem IsForeign.dropPrefix?_eq_none {line : List Char} (foreign : IsForeign line)
    {start : String} (mem : start ∈ fieldStarts) :
    Text.dropPrefix? start.toList line = none := by
  apply Option.eq_none_iff_forall_ne_some.mpr
  intro rest same
  exact foreign start mem ⟨rest, (Text.dropPrefix?_eq_some_iff.mp same).symm⟩

/-- Lines that begin as no field line are passed over. -/
theorem ofLines_eq_of_strewn {kept all : List (List Char)}
    (strewn : Text.Strewn IsForeign kept all) : ofLines all = ofLines kept := by
  have headers : ∀ start ∈ fieldStarts, header? start all = header? start kept := by
    intro start mem
    rw [header?, header?,
      strewn.findSome?_eq fun line foreign => foreign.dropPrefix?_eq_none mem]
  have payloads : all.findSome? payloadOf? = kept.findSome? payloadOf? := by
    apply strewn.findSome?_eq
    intro line foreign
    rw [payloadOf?, foreign.dropPrefix?_eq_none (by simp [fieldStarts])]
    rfl
  rw [ofLines, ofLines, headers targetStart (by simp [fieldStarts]),
    headers modeStart (by simp [fieldStarts]), headers hashStart (by simp [fieldStarts]),
    payloads]

/-- An edited reproducer tells what it was made from. -/
theorem parse_edited {artifact : Artifact} (plain : artifact.IsPlain) {inserted text : List Char}
    (insertion : Text.Inserted IsForeign artifact.render.toList inserted)
    (broken : Text.Rebroken inserted text) : parse (String.ofList text) = .ok artifact := by
  have lines := isLine_renderedLines plain
  rw [render_toList plain, unlines] at insertion
  obtain ⟨all, rfl, strewn, whole⟩ :=
    insertion.exists_strewn fun line mem => (lines line mem).1
  have read := strewn.of_forall₂ lines (fun _ _ foreign reads => foreign.of_readsAs reads)
    (Text.lines_rebroken whole broken)
  rw [parse, String.toList_ofList, ofLines_eq_of_strewn read]
  exact ofLines_renderedLines plain

end Artifact

/-- A bound target has a name that a target can have. -/
theorem TargetSpec.isTargetName_of_build {σ : Type} {spec : TargetSpec σ} {target : Target σ}
    (bound : spec.build = .ok target) : isTargetName target.name = true := by
  unfold build at bound
  split at bound
  · cases bound
  · next named =>
    dsimp only at bound
    have valid : isTargetName spec.name = true := by simpa using named
    split at bound
    · cases bound
      exact valid
    · cases bound
      exact valid
    · cases bound

namespace Executor

variable {σ : Type}

/-- The payload of a reproducer is the text of some octets. -/
theorem exists_payload_eq_encode (executor : Executor σ) (octets : Bytes) (host : Host σ) :
    ∃ written, (executor.payload octets host).1 = Text.Base64.encode written := by
  rw [payload]
  split
  · next recording _ _ _ => exact ⟨recording.write, rfl⟩
  · exact ⟨octets, rfl⟩

/-- A target with a writer of its own gets no artifact of the harness. -/
theorem writer_eq_none_of_generate {executor : Executor σ} {directory : String} {input : Bytes}
    {host : Host σ} {tree : FileTree} {artifact : Artifact}
    (made : (executor.generate directory input host tree).1 = .artifact artifact) :
    executor.target.writer = none := by
  have kept := executor.canonicalBytes_target input
  rw [generate] at made
  rcases taken : executor.canonicalBytes input with ⟨octets, fed⟩
  rw [taken] at kept made
  rw [← kept]
  cases own : fed.target.writer with
  | none => rfl
  | some writer =>
      unfold handOver at made
      dsimp only at made
      rw [own] at made
      dsimp only at made
      split at made
      · cases made
      · cases made
      · cases made
      · next refused => cases refused

/-- Whatever the harness makes for a bound target can be read back. -/
theorem isPlain_of_generate {spec : TargetSpec σ} {executor : Executor σ}
    (bound : spec.build = .ok executor.target) {directory : String} {input : Bytes}
    {host : Host σ} {tree : FileTree} {artifact : Artifact}
    (made : (executor.generate directory input host tree).1 = .artifact artifact) :
    artifact.IsPlain := by
  have named := TargetSpec.isTargetName_of_build bound
  have kept := executor.canonicalBytes_target input
  rw [generate_of_writer_none (writer_eq_none_of_generate made)] at made
  cases made
  obtain ⟨written, text⟩ :=
    exists_payload_eq_encode (executor.canonicalBytes input).2
      (executor.canonicalBytes input).1 host
  rw [text, payload_target, kept]
  exact Artifact.isPlain_made named _ written _

end Executor

/-- Reproducers survive edits. Whatever the harness makes for a bound target, and any other
artifact whose texts fit into the lines of a reproducer, is read back from its source: as it
was written, with a carriage return before every line feed, and with lines that begin as no
field line inserted anywhere, whichever of the line feeds are then changed. -/
theorem reproducer_survives_edits :
    (∀ (σ : Type) (spec : TargetSpec σ) (executor : Executor σ) (directory : String)
      (input : Bytes) (host : Host σ) (tree : FileTree) (artifact : Artifact),
      spec.build = .ok executor.target →
      (executor.generate directory input host tree).1 = .artifact artifact →
      artifact.IsPlain) ∧
    ∀ artifact : Artifact, artifact.IsPlain →
      Artifact.parse artifact.render = .ok artifact ∧
      Artifact.parse (String.ofList (Text.crlf artifact.render.toList)) = .ok artifact ∧
      ∀ inserted text : List Char,
        Text.Inserted Artifact.IsForeign artifact.render.toList inserted →
        Text.Rebroken inserted text →
        Artifact.parse (String.ofList text) = .ok artifact := by
  constructor
  · intro σ spec executor directory input host tree artifact bound made
    exact executor.isPlain_of_generate bound made
  · intro artifact plain
    refine ⟨Artifact.parse_render plain, ?_, ?_⟩
    · exact Artifact.parse_edited plain .none (.crlf _)
    · intro inserted text insertion broken
      exact Artifact.parse_edited plain insertion broken

/-- A target that does nothing with its input. -/
def idleSpec : TargetSpec Unit :=
  { TargetSpec.named "app::fuzz" with bytes := some fun _ => .finish () }

def idleExecutor : Executor Unit :=
  .ofTarget ⟨"app::fuzz", .bytes fun _ => .finish (), none, none, none, .shared⟩

/-- The reproducer for the input `1` of this target, with a line of its own at the top and
other line ends, is still read back. -/
theorem idle_reproducer_survives :
    ∃ artifact : Artifact,
      (idleExecutor.generate "out" [1] (.fresh ()) .empty).1 = .artifact artifact ∧
      artifact.payload = "AQ==" ∧
      Artifact.parse (String.ofList
        (Text.crlf ("// seen twice".toList ++ '\n' :: artifact.render.toList))) = .ok artifact := by
  have made : (idleExecutor.generate "out" [1] (.fresh ()) .empty).1 =
      .artifact ⟨"app::fuzz", .bytes, Text.Base64.encode [1], contentHash [1]⟩ := by
    have entry : idleExecutor.target.entry = .bytes fun _ => .finish () := rfl
    rw [Executor.generate_bytes entry rfl]
    rfl
  have bound : idleSpec.build = .ok idleExecutor.target := by rfl
  have plain := reproducer_survives_edits.1 _ _ _ _ _ _ _ _ bound made
  refine ⟨_, made, by decide +kernel, ?_⟩
  refine (reproducer_survives_edits.2 _ plain).2.2 _ _ ?_ (.crlf _)
  exact .first (by decide +kernel) (by decide +kernel)

end FuzzHarness
