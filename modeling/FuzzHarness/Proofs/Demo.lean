import FuzzHarness.Demo
import FuzzHarness.Proofs.Reproducer.Provider

/-!
# The crashes of the demo targets

There are three ways in which a demo target crashes, each at a site of its own, and which one
an input leads to can be told from its first and last octets. The bytes target looks at its
input; the provider target draws a count from the last octet and a name from those before, which
may be cut in the middle of a character. What the targets do depends on nothing else, so that
the reproducer for an input fails as the input does.
-/

namespace FuzzHarness.Demo

/-- The ways in which the demo targets crash. -/
inductive Crash where
  | bad
  | cras
  | record
  deriving DecidableEq, Repr

def badWord : Bytes := [0x42, 0x41, 0x44]

def crasWord : Bytes := [0x43, 0x52, 0x41, 0x53]

/-- The last octet of an input as a number; zero if there is none. -/
def lastOctet (input : Bytes) : Nat :=
  (input.getLast?.map UInt8.toNat).getD 0

def crash? : Mode → Bytes → Option Crash
  | .bytes, input =>
    if badWord <+: input then some .bad else if crasWord <+: input then some .cras else none
  | .provider, input =>
    if 8 < lastOctet input % 17 ∧ badWord <+: input.dropLast then some .record else none

def drawnCount (input : Bytes) : UInt64 :=
  UInt64.ofNat (lastOctet input % 17)

def drawnName (input : Bytes) : String :=
  Text.Utf8.lossy (input.dropLast.take 16)

namespace Crash

def site : Crash → Site
  | .bad => badSite
  | .cras => crashSite
  | .record => recordSite

def message (input : Bytes) : Crash → String
  | .bad => "BAD input detected by harness!"
  | .cras => "CRASH input detected by harness!"
  | .record =>
    s!"record {Text.quoted (drawnName input)} claims {(drawnCount input).toNat} entries"

def finding (input : Bytes) (crash : Crash) : Finding :=
  .capturedAt crash.site Finding.panicKind (crash.message input)

def token (crash : Crash) : UInt64 :=
  crash.site.token

/-- On every stack a crash is the same above the boundary. -/
theorem above_upon (way : Way) (stack : List Frame) (input : Bytes) (crash : Crash) :
    (Finding.capturedAt (crash.site.upon (way.frames ++ stack)) Finding.panicKind
      (crash.message input)).above = crash.finding input := by
  rw [Finding.above_capturedAt_upon]
  cases crash <;> rfl

/-- Neither the input nor what stands beneath the boundary has a part in the identity of a
crash. -/
theorem token_of_above {input : Bytes} {crash : Crash} {raised : Finding}
    (alike : raised.above = crash.finding input) : raised.token = crash.token := by
  rw [← raised.token_above, alike]
  exact Finding.token_capturedAt _ _

end Crash

theorem ofString_bad : Text.Utf8.ofString "BAD" = badWord := by decide +kernel

theorem ofString_cras : Text.Utf8.ofString "CRAS" = crasWord := by decide +kernel

/-- The bytes target crashes as its input begins. -/
theorem iterate_checkBytes {P : Type} [Provider P] (way : Way) (input : Bytes)
    {host : Host Unit} (quiet : host.reports.get .shared = none) (provider : Option P) :
    ((target .bytes).iterate way (checkBytes input) ⟨host, provider⟩).1.finding?.map
      Finding.above = (crash? .bytes input).map (Crash.finding input) := by
  rw [checkBytes, crash?, ofString_bad, ofString_cras]
  by_cases bad : badWord <+: input
  · rw [if_pos (List.isPrefixOf_iff_prefix.mpr bad), if_pos bad, Target.iterate_eq _ rfl,
      Target.settle_of_quiet quiet]
    exact congrArg some (Crash.above_upon way host.stack input .bad)
  · rw [if_neg (mt List.isPrefixOf_iff_prefix.mp bad), if_neg bad]
    by_cases cras : crasWord <+: input
    · rw [if_pos (List.isPrefixOf_iff_prefix.mpr cras), if_pos cras, Target.iterate_eq _ rfl,
        Target.settle_of_quiet quiet]
      exact congrArg some (Crash.above_upon way host.stack input .cras)
    · rw [if_neg (mt List.isPrefixOf_iff_prefix.mp cras), if_neg cras, Target.iterate_eq _ rfl,
        Target.settle_of_quiet quiet]
      rfl

/-- What the provider target is found to do with a count and a name. -/
def recordFinding? (count : UInt64) (name : String) : Option Finding :=
  if Text.startsWith "BAD".toList name.toList ∧ 8 < count.toNat then
    some (.capturedAt recordSite Finding.panicKind
      s!"record {Text.quoted name} claims {count.toNat} entries")
  else none

/-- The calls of the provider target that yield a count and a name. -/
def records (count : UInt64) (name : String) : Conversation :=
  [⟨.u64In 0 16, .ok (.u64 count)⟩, ⟨.string 16, .ok (.str name)⟩]

/-- Once it has its count and its name, the provider target makes no more calls. -/
theorem run_checkRecords {P : Type} [Provider P] {provider after : P} {count : UInt64}
    {name : String} (answers : Answers provider (records count name) after) (host : Host Unit) :
    checkRecords.run ⟨host, some provider⟩ =
      (checkRecord count.toNat name).run
        ⟨{ host with coverage := host.coverage.mark 10 }, some after⟩ := by
  obtain ⟨counted, named, rfl⟩ := answers
  rw [checkRecords, Code.run, Code.run_draw_of_ok (Prod.ext counted rfl)]
  dsimp only
  rw [Code.run_draw_of_ok (Prod.ext named rfl)]

/-- What the provider target does with its count and its name, in a capture scope. -/
theorem run_checkRecord (count : UInt64) (name : String) {host : Host Unit} {way : Way}
    {stack : List Frame} (entered : host.scope = .entered)
    (beneath : host.stack = way.frames ++ stack) :
    ∃ (exit : Exit Unit) (left : Host Unit), left.reports = host.reports ∧
      (exit.outcome left.scope).finding?.map Finding.above = recordFinding? count name ∧
      ∀ (P : Type) [Provider P] (after : P),
        (checkRecord count.toNat name).run ⟨host, some after⟩ = (exit, ⟨left, some after⟩) := by
  rw [checkRecord, recordFinding?]
  by_cases bad : Text.startsWith "BAD".toList name.toList = true
  · by_cases large : 8 < count.toNat
    · rw [if_pos bad, if_pos large, if_pos ⟨bad, large⟩]
      refine ⟨.unwound (.string s!"record {Text.quoted name} claims {count.toNat} entries"),
        { host with
          coverage := (host.coverage.mark 11).mark 12
          scope := host.scope.hooked (recordSite.upon host.stack) }, rfl, ?_, fun _ _ _ => rfl⟩
      rw [entered, beneath]
      exact congrArg some (Finding.above_capturedAt_upon way stack recordSite _ _)
    · rw [if_pos bad, if_neg large, if_neg fun both => large both.2]
      exact ⟨.finished (), { host with coverage := host.coverage.mark 11 }, rfl, rfl,
        fun _ _ _ => rfl⟩
  · rw [if_neg bad, if_neg fun both => bad both.1]
    exact ⟨.finished (), host, rfl, rfl, fun _ _ _ => rfl⟩

/-- The provider target fails by the count and the name that it gets, whoever yields them. -/
theorem iterate_checkRecords (way : Way) (count : UInt64) (name : String) {host : Host Unit}
    (quiet : host.reports.get .shared = none) :
    ∃ outcome left, outcome.finding?.map Finding.above = recordFinding? count name ∧
      ∀ (P : Type) [Provider P] (provider after : P), Answers provider (records count name) after →
        (target .provider).iterate way checkRecords ⟨host, some provider⟩ =
          (outcome, ⟨left, some after⟩) := by
  let marked : Host Unit := { host.via way with coverage := host.coverage.mark 10 }
  have entered : marked.scope = .entered := rfl
  have beneath : marked.stack = way.frames ++ host.stack := rfl
  obtain ⟨exit, left, reports, found, ends⟩ := run_checkRecord count name entered beneath
  have silent : left.reports.get (target .provider).channel = none := reports ▸ quiet
  refine ⟨exit.outcome left.scope, ((target .provider).settle host exit left).2, found, ?_⟩
  intro P _ provider after answers
  have ran := (run_checkRecords answers (host.via way)).trans (ends P after)
  rw [Target.iterate_eq _ ran, Target.settle_of_quiet silent]

theorem lastOctet_concat (front : Bytes) (octet : UInt8) :
    lastOctet (front ++ [octet]) = octet.toNat := by
  simp [lastOctet]

/-- A range of seventeen takes one octet from the back. -/
theorem drawOffset_ofBytes (front : Bytes) (octet : UInt8) :
    (Cursor.ofBytes (front ++ [octet])).drawOffset 16 =
      (drawnCount (front ++ [octet]), ⟨front ++ [octet], 0, front.length⟩) := by
  have taken : (Cursor.ofBytes (front ++ [octet])).takeBack =
      some (octet, ⟨front ++ [octet], 0, front.length⟩) := by
    simp [Cursor.takeBack, Cursor.ofBytes, Cursor.feed, Cursor.reset]
  have width : Cursor.octetsOf 16 = 1 := by decide
  have word : Bytes.bigEndian [octet] = octet.toUInt64 := by
    simp [Bytes.bigEndian]
  have folded : octet.toUInt64 % (16 + 1) = drawnCount (front ++ [octet]) := by
    rw [drawnCount, lastOctet_concat]
    have small := octet.toNat_lt
    have size : UInt64.size = 18446744073709551616 := rfl
    apply UInt64.toNat_inj.mp
    rw [UInt64.toNat_mod, UInt8.toNat_toUInt64, UInt64.toNat_ofNat_of_lt' (by omega)]
    rfl
  rw [Cursor.drawOffset, width, Cursor.drawWord, Cursor.drawBack, taken]
  dsimp only
  rw [Cursor.drawBack]
  dsimp only
  rw [word, if_neg (by decide), folded]

/-- Without octets there is nothing to take. -/
theorem drawOffset_nil : (Cursor.ofBytes []).drawOffset 16 = (drawnCount [], ⟨[], 0, 0⟩) := by
  decide +kernel

/-- On an input the provider target gets its count from the last octet and its name from those
before. -/
theorem answers_records (input : Bytes) :
    ∃ after,
      Answers (Cursor.ofBytes input) (records (drawnCount input) (drawnName input)) after := by
  have drawn : (Cursor.ofBytes input).drawOffset 16 =
      (drawnCount input, ⟨input, 0, input.length - 1⟩) := by
    rcases List.eq_nil_or_concat input with rfl | ⟨front, octet, rfl⟩
    · exact drawOffset_nil
    · rw [List.concat_eq_append, drawOffset_ofBytes]
      simp
  have counted : Provider.call (.u64In 0 16) (Cursor.ofBytes input) =
      (.ok (.u64 (drawnCount input)), ⟨input, 0, input.length - 1⟩) := by
    change Cursor.call _ _ = _
    have range : (16 : UInt64) - 0 = 16 := by decide
    rw [Cursor.call, if_neg (by decide), range, drawn]
    simp
  have named : (Provider.call (.string 16) (Cursor.mk input 0 (input.length - 1))).1 =
      .ok (.str (drawnName input)) := by
    change (Cursor.call _ _).1 = _
    rw [Cursor.call, Cursor.takeFront, Cursor.left, drawnName]
    simp [List.dropLast_eq_take, List.take_take]
  refine ⟨_, ?_, ?_, rfl⟩
  · exact congrArg Prod.fst counted
  · rw [counted]
    exact named

theorem toNat_drawnCount (input : Bytes) : (drawnCount input).toNat = lastOctet input % 17 := by
  have size : UInt64.size = 18446744073709551616 := rfl
  rw [drawnCount, UInt64.toNat_ofNat_of_lt' (by omega)]

/-- A name that was cut still begins as the octets do. -/
theorem startsWith_drawnName (input : Bytes) :
    Text.startsWith "BAD".toList (drawnName input).toList = true ↔ badWord <+: input.dropLast := by
  have word : "BAD".toList = Text.Utf8.asciiText badWord := by decide +kernel
  have ascii : ∀ octet ∈ badWord, 0 < octet ∧ octet < 0x80 := by decide +kernel
  rw [word, drawnName, Text.Utf8.startsWith_lossy ascii, List.prefix_take_iff]
  exact and_iff_left (by decide)

/-- What the provider target is found to do with an input. -/
theorem recordFinding?_drawn (input : Bytes) :
    recordFinding? (drawnCount input) (drawnName input) =
      (crash? .provider input).map (Crash.finding input) := by
  have same : (Text.startsWith "BAD".toList (drawnName input).toList = true ∧
      8 < (drawnCount input).toNat) ↔ 8 < lastOctet input % 17 ∧ badWord <+: input.dropLast := by
    rw [startsWith_drawnName, toNat_drawnCount, and_comm]
  rw [recordFinding?, crash?]
  by_cases crashes : 8 < lastOctet input % 17 ∧ badWord <+: input.dropLast
  · rw [if_pos (same.mpr crashes), if_pos crashes]
    rfl
  · rw [if_neg (mt same.mp crashes), if_neg crashes]
    rfl

def drawn (input : Bytes) : Recording :=
  [.u64 (drawnCount input), .str (drawnName input)]

theorem fits_drawn (input : Bytes) : (drawn input).Fits := by
  have size : UInt64.size = 18446744073709551616 := rfl
  have short : (drawnName input).utf8ByteSize ≤ 3 * 16 := by
    apply (Text.Utf8.utf8ByteSize_lossy_le _).trans
    exact Nat.mul_le_mul_left 3 (List.length_take_le _ _)
  constructor
  · change 2 < UInt64.size
    omega
  · intro value mem
    rcases List.mem_cons.mp mem with rfl | mem
    · change 0 < UInt64.size
      omega
    · obtain rfl := List.mem_singleton.mp mem
      change (drawnName input).utf8ByteSize < UInt64.size
      omega

/-- A replay of these values answers the calls that drew them. -/
theorem answers_replay (input : Bytes) :
    Answers (Replay.mk (drawn input)) (records (drawnCount input) (drawnName input)) ⟨[]⟩ := by
  obtain ⟨after, answers⟩ := answers_records input
  have ordered : ∀ exchange ∈ records (drawnCount input) (drawnName input),
      exchange.call.isOrdered = true := by
    simp [records, Call.isOrdered]
  have served := Replay.answers
    (Cursor.answers_accepted answers ordered (fits_drawn input).2) []
  rwa [List.append_nil] at served

/-- The payload of the reproducer for an input. -/
def payload (input : Bytes) : Mode → String
  | .bytes => Text.Base64.encode input
  | .provider => (drawn input).encode

def artifact (mode : Mode) (input : Bytes) : Artifact where
  target := (target mode).name
  mode := mode
  payload := payload input mode
  contentHash := contentHash input

theorem isPlain_artifact (mode : Mode) (input : Bytes) : (artifact mode input).IsPlain := by
  cases mode with
  | bytes => exact Artifact.isPlain_made (by decide) .bytes input input
  | provider => exact Artifact.isPlain_made (by decide) .provider _ input

variable {mode : Mode} {executor : Executor Unit} {input : Bytes} {host : Host Unit}

/-- The target fails on an input by the class of the input, whatever was run before. -/
theorem finding?_execute (runs : executor.target = target mode)
    (quiet : host.reports.get .shared = none) (input : Bytes) :
    (executor.execute input host).1.finding?.map Finding.above =
      (crash? mode input).map (Crash.finding input) := by
  cases mode with
  | bytes =>
      rw [Executor.execute, runs]
      exact iterate_checkBytes (.execute .bytes) input quiet none
  | provider =>
      have entry : executor.target.entry = .provider checkRecords := congrArg Target.entry runs
      obtain ⟨outcome, left, found, ends⟩ :=
        iterate_checkRecords (.execute .provider) (drawnCount input) (drawnName input) quiet
      obtain ⟨after, answers⟩ := answers_records input
      rw [(Executor.execute_provider entry input host).1, runs, ends _ _ _ answers, found,
        recordFinding?_drawn]

/-- The reproducer for the input that was run last. -/
theorem generate_eq (runs : executor.target = target mode)
    (fed : mode = .provider → executor.cursor.data = input)
    (quiet : host.reports.get .shared = none) (directory : String) (tree : FileTree) :
    (executor.generate directory input host tree).1 = .artifact (artifact mode input) := by
  have plain : executor.target.writer = none := congrArg Target.writer runs
  cases mode with
  | bytes =>
      have entry : executor.target.entry = .bytes checkBytes := congrArg Target.entry runs
      rw [Executor.generate_bytes entry plain, runs]
      rfl
  | provider =>
      have entry : executor.target.entry = .provider checkRecords := congrArg Target.entry runs
      obtain ⟨outcome, left, _, ends⟩ :=
        iterate_checkRecords .record (drawnCount input) (drawnName input) quiet
      obtain ⟨after, answers⟩ := answers_records input
      rw [Executor.generate_provider entry plain (fed rfl), runs,
        Target.conversation_eq answers ends]
      rfl

/-- Running the reproducer for an input makes the target fail as the input does. -/
theorem replay_artifact (mode : Mode) (input : Bytes) (quiet : host.reports.get .shared = none) :
    ∃ again, ((artifact mode input).replay (target mode) host).1 = .ok again ∧
      again.map Finding.above = (crash? mode input).map (Crash.finding input) := by
  cases mode with
  | bytes =>
      rw [@Artifact.replay_bytes _ (artifact .bytes input) _ rfl rfl checkBytes rfl input
        (Text.Base64.decode_encode input)]
      exact ⟨_, rfl, iterate_checkBytes (.replay .bytes) input quiet none⟩
  | provider =>
      obtain ⟨outcome, left, found, ends⟩ :=
        iterate_checkRecords (.replay .provider) (drawnCount input) (drawnName input) quiet
      rw [@Artifact.replay_provider _ (artifact .provider input) _ rfl rfl checkRecords rfl _
        (Recording.decode_encode (fits_drawn input)), ends _ _ _ (answers_replay input)]
      exact ⟨_, rfl, found.trans (recordFinding?_drawn input)⟩

end FuzzHarness.Demo
