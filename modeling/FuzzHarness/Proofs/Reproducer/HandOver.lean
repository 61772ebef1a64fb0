import FuzzHarness.Proofs.Reproducer.Provider
import FuzzHarness.Proofs.Runner.Isolation

/-!
# What a target's own writer is handed

A writer of reproducers is called with the hash of the input just run and with the cursor of
the executor at its start. The hash is taken from the input in either mode, but the cursor is
fed in provider mode only. A writer of a target in bytes mode is told the hash of an input that
it cannot draw: whatever was run, recorded or written before, its cursor is empty.
-/

namespace FuzzHarness

variable {σ ρ : Type}

namespace Cursor

/-- All of an input, and nothing else, is still to be drawn. -/
structure IsAtStart (cursor : Cursor) (input : Bytes) : Prop where
  remaining : (cursor.call .remaining).1 = .ok (.remaining (UInt64.ofNat input.length))
  drained : (cursor.call .restBytes).1 = .ok (.bytes input)

theorem isAtStart_ofBytes (input : Bytes) : (ofBytes input).IsAtStart input := by
  constructor
  · rfl
  · exact congrArg (fun octets => Except.ok (Value.bytes octets)) (takeFront_reset (ofBytes input))

/-- A cursor is at the start of the input that it was fed and of no other. -/
theorem isAtStart_ofBytes_iff {data input : Bytes} :
    (ofBytes data).IsAtStart input ↔ data = input := by
  constructor
  · intro start
    have same := (isAtStart_ofBytes data).drained.symm.trans start.drained
    simpa using same
  · rintro rfl
    exact isAtStart_ofBytes data

theorem reset_eq_ofBytes (cursor : Cursor) : cursor.reset = ofBytes cursor.data := rfl

end Cursor

/-- Code draws from the input of its cursor and does not replace it. -/
theorem Code.run_cursor_data (code : Code σ ρ) (host : Host σ) (cursor : Cursor) :
    ∃ after, (code.run ⟨host, some cursor⟩).2.provider = some after ∧ after.data = cursor.data := by
  obtain ⟨conversation, exit, left, after, answers, holds⟩ := code.exists_holds host cursor
  refine ⟨after, ?_, Cursor.answers_data answers⟩
  rw [holds Cursor cursor after answers]

/-- The octets that a writer can draw when it is asked for a reproducer of an input. -/
def Target.drawable (target : Target σ) (input : Bytes) : Bytes :=
  match target.mode with
  | .bytes => []
  | .provider => input

/-- The executor of a target in bytes mode has a cursor that was never fed. -/
structure Executor.FeedsByMode (target : Target σ) (executor : Executor σ) : Prop where
  runs : executor.target = target
  unfed : target.mode = .bytes → executor.cursor.data = []

namespace Executor.FeedsByMode

variable {target : Target σ} {executor : Executor σ}

/-- What feeds the cursor runs the entry of a target in provider mode. -/
theorem mode_ne_bytes (feeds : executor.FeedsByMode target) {code : Code σ Unit}
    (entry : executor.target.entry = .provider code) : target.mode ≠ .bytes := by
  rw [← feeds.runs, Target.mode, entry]
  exact nofun

theorem execute (feeds : executor.FeedsByMode target) (input : Bytes) (host : Host σ) :
    (executor.execute input host).2.1.FeedsByMode target := by
  refine ⟨(executor.execute_spec input host).1.trans feeds.runs, ?_⟩
  intro mode
  rw [Executor.execute]
  split
  · exact feeds.unfed mode
  · next entry => exact absurd mode (feeds.mode_ne_bytes entry)

theorem canonicalBytes (feeds : executor.FeedsByMode target) (input : Bytes) :
    (executor.canonicalBytes input).2.FeedsByMode target := by
  refine ⟨(executor.canonicalBytes_target input).trans feeds.runs, ?_⟩
  intro mode
  rw [Executor.canonicalBytes]
  split <;> exact feeds.unfed mode

theorem record (feeds : executor.FeedsByMode target) (host : Host σ) :
    (executor.record host).2.1.FeedsByMode target := by
  refine ⟨(executor.record_target host).trans feeds.runs, ?_⟩
  intro mode
  rw [Executor.record]
  split
  · exact feeds.unfed mode
  · next entry => exact absurd mode (feeds.mode_ne_bytes entry)

/-- The writer moves the positions of the cursor and no more. -/
theorem handOver (feeds : executor.FeedsByMode target) (directory hash : String)
    (host : Host σ) : (executor.handOver directory hash host).2.1.FeedsByMode target := by
  refine ⟨(executor.handOver_target directory hash host).trans feeds.runs, ?_⟩
  intro mode
  rw [Executor.handOver]
  split
  · exact feeds.unfed mode
  · next writer _ =>
    obtain ⟨after, left, data⟩ :=
      (writer directory hash).run_cursor_data host executor.cursor.reset
    dsimp only [Executor.after]
    rw [left]
    exact data.trans (feeds.unfed mode)

theorem payload (feeds : executor.FeedsByMode target) (octets : Bytes) (host : Host σ) :
    (executor.payload octets host).2.1.FeedsByMode target := by
  have recorded := feeds.record host
  rw [Executor.payload]
  split
  · next same => rwa [same] at recorded
  · next same => rwa [same] at recorded

theorem generate (feeds : executor.FeedsByMode target) (directory : String) (input : Bytes)
    (host : Host σ) (tree : FileTree) :
    (executor.generate directory input host tree).2.1.FeedsByMode target := by
  have canonical := feeds.canonicalBytes input
  rw [Executor.generate]
  rcases taken : executor.canonicalBytes input with ⟨octets, fed⟩
  rw [taken] at canonical
  have handed := canonical.handOver directory (contentHash octets) host
  dsimp only
  split
  · next same => rwa [same] at handed
  · next same => rwa [same] at handed
  · next same => rwa [same] at handed
  · next same =>
    rw [same] at handed
    exact FeedsByMode.payload handed octets _

end Executor.FeedsByMode

namespace Bench

variable {target : Target σ} {bench : Bench σ}

theorem Starts.feedsByMode (starts : bench.Starts target) :
    bench.executor.FeedsByMode target := by
  cases starts with
  | new host tree quiet => exact ⟨rfl, fun _ => rfl⟩
  | built same built =>
      obtain ⟨_, tokens, _, rfl, _⟩ := RunnerSpec.build_spec built
      subst same
      exact ⟨rfl, fun _ => rfl⟩

theorem feedsByMode_perform (feeds : bench.executor.FeedsByMode target)
    (operation : Operation) : (bench.perform operation).executor.FeedsByMode target := by
  cases operation with
  | execute input => exact feeds.execute input bench.host
  | canonicalBytes input => exact feeds.canonicalBytes input
  | record => exact feeds.record bench.host
  | handOver directory contentHash => exact feeds.handOver directory contentHash bench.host
  | generate directory input => exact feeds.generate directory input bench.host bench.tree

theorem feedsByMode_performAll (feeds : bench.executor.FeedsByMode target)
    (history : List Operation) : (bench.performAll history).executor.FeedsByMode target := by
  induction history generalizing bench with
  | nil => exact feeds
  | cons operation history ih => exact ih (feedsByMode_perform feeds operation)

end Bench

namespace Executor

variable {target : Target σ} {executor : Executor σ}

/-- After a run on an input, its octets identify the run, and the cursor that is handed over is
at the start of those that the mode makes drawable. -/
theorem canonicalBytes_of_executed (feeds : executor.FeedsByMode target) (input : Bytes)
    (host : Host σ) :
    let run := (executor.execute input host).2.1.canonicalBytes input
    run.1 = input ∧ run.2.cursor.reset = Cursor.ofBytes (target.drawable input) := by
  have executed := feeds.execute input host
  have keeps := executed.canonicalBytes input
  dsimp only
  rw [Cursor.reset_eq_ofBytes]
  cases entry : target.entry with
  | bytes code =>
      have mode : target.mode = .bytes := congrArg Entry.mode entry
      refine ⟨?_, congrArg Cursor.ofBytes ?_⟩
      · rw [canonicalBytes, executed.runs, mode]
      · rw [keeps.unfed mode, Target.drawable, mode]
  | provider code =>
      have mode : target.mode = .provider := congrArg Entry.mode entry
      have fed := (execute_provider (feeds.runs ▸ entry) input host).2
      obtain ⟨octets, data⟩ := canonicalBytes_provider (executed.runs ▸ entry) fed
      refine ⟨octets, congrArg Cursor.ofBytes ?_⟩
      rw [data, Target.drawable, mode]

end Executor

namespace Bench

variable {target : Target σ} {bench : Bench σ} {writer : ReproducerWriter σ}

/-- After any history of operations and a run on an input, making a reproducer is one run of the
target's own writer and nothing else: it is told the hash of the input and handed a cursor at the
start of what the mode makes drawable. This is the input in provider mode. In bytes mode it is
nothing, so that the cursor is at the start of the input only if that is empty. -/
theorem writer_handed (starts : bench.Starts target) (own : target.writer = some writer)
    (history : List Operation) (input : Bytes) (directory : String) (host : Host σ)
    (tree : FileTree) :
    let before := bench.performAll history
    let executed := (before.executor.execute input before.host).2.1
    let handed := Cursor.ofBytes (target.drawable input)
    let wrote := (writer directory (contentHash input)).run ⟨host, some handed⟩
    let made := executed.generate directory input host tree
    (made.1 = .ofExit wrote.1 ∧ made.2.2 = (wrote.2.host, tree)) ∧
      (handed.IsAtStart input ↔ target.mode = .provider ∨ input = []) := by
  have feeds := feedsByMode_performAll starts.feedsByMode history
  intro before executed handed wrote made
  have same : executed.target.writer = some writer := by
    rw [(feeds.execute input before.host).runs, own]
  have taken : (executed.canonicalBytes input).1 = input ∧
      (executed.canonicalBytes input).2.cursor.reset = handed :=
    Executor.canonicalBytes_of_executed feeds input before.host
  constructor
  · have called := Executor.generate_of_writer same directory input host tree
    dsimp only at called
    rw [taken.1, taken.2] at called
    exact called
  · rw [Cursor.isAtStart_ofBytes_iff, Target.drawable]
    cases target.mode with
    | bytes => simp [eq_comm]
    | provider => simp

end Bench

/-- A target whose writer notes how much it can draw, and draws it. -/
def inspecting (entry : Entry Unit) : Target Unit where
  name := "demo::inspecting"
  entry := entry
  startup := none
  tearDown := none
  writer := some fun _ hash =>
    .note (.remark hash) (.draw .remaining fun count =>
      .note (.remark ((count.map Value.text).getD "")) (.draw .restBytes fun rest =>
        .note (.remark ((rest.map Value.text).getD "")) (.finish (.ok ()))))
  channel := .own

/-- The writers of a target in bytes mode and of one in provider mode are told the same hash for
the input `[1, 2]`. The first can draw nothing, the second the whole input. -/
theorem inspecting_handed :
    (∃ writer, (inspecting (.bytes fun _ => .finish ())).writer = some writer ∧
      let run := (Executor.ofTarget (inspecting (.bytes fun _ => .finish ()))).execute [1, 2]
        (.fresh ())
      let made := run.2.1.generate "." [1, 2] run.2.2 .empty
      made.1 = .ofExit ((writer "." (contentHash [1, 2])).run
          ⟨run.2.2, some (Cursor.ofBytes [])⟩).1 ∧
        made.2.2.1.notes = [.remark (contentHash [1, 2]), .remark "0", .remark ""] ∧
        ¬(Cursor.ofBytes []).IsAtStart [1, 2]) ∧
      ∃ writer, (inspecting (.provider (.draw .u8 fun _ => .finish ()))).writer = some writer ∧
        let run := (Executor.ofTarget (inspecting
          (.provider (.draw .u8 fun _ => .finish ())))).execute [1, 2] (.fresh ())
        let made := run.2.1.generate "." [1, 2] run.2.2 .empty
        made.1 = .ofExit ((writer "." (contentHash [1, 2])).run
            ⟨run.2.2, some (Cursor.ofBytes [1, 2])⟩).1 ∧
          made.2.2.1.notes = [.remark (contentHash [1, 2]), .remark "2", .remark "0102"] ∧
          (Cursor.ofBytes [1, 2]).IsAtStart [1, 2] := by
  have handed (entry : Entry Unit) {writer : ReproducerWriter Unit}
      (own : (inspecting entry).writer = some writer) (host : Host Unit) :=
    Bench.writer_handed (.new (.fresh ()) .empty rfl) own [] [1, 2] "." host .empty
  constructor
  · obtain ⟨made, start⟩ := handed (.bytes fun _ => .finish ()) rfl _
    refine ⟨_, rfl, made.1, by decide +kernel, ?_⟩
    intro reached
    cases start.mp reached <;> contradiction
  · obtain ⟨made, start⟩ := handed (.provider (.draw .u8 fun _ => .finish ())) rfl _
    exact ⟨_, rfl, made.1, by decide +kernel, start.mpr (.inl rfl)⟩

end FuzzHarness
