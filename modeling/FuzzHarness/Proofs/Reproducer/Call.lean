import FuzzHarness.Proofs.Reproducer.Edited
import FuzzHarness.Proofs.Target.Name

/-!
# The call of the target

A reproducer calls its target by name on the line before its last. The name was checked when
the target was bound, but only for its characters, so that the line calls a path only if the
name is also spelled like one.
-/

namespace FuzzHarness

open TargetName

/-- The statement that calls what has this name, however indented, with some arguments. -/
def IsCallOf (name line : List Char) : Prop :=
  ∃ indent arguments, (∀ c ∈ indent, Text.isBlank c = true) ∧
    line = indent ++ (name ++ '(' :: (arguments ++ [')', ';']))

/-- A statement that calls a path. -/
def IsCall (line : List Char) : Prop :=
  ∃ path, IsPath path ∧ IsCallOf path line

/-- What a statement calls stands before its first parenthesis. -/
theorem IsCallOf.takeWhile_eq {name line : List Char} (composed : IsComposed name)
    (call : IsCallOf name line) :
    (line.dropWhile Text.isBlank).takeWhile (· != '(') = name := by
  obtain ⟨indent, arguments, blank, rfl⟩ := call
  have solid : ∀ c ∈ name, Text.isBlank c = false :=
    fun c mem => Artifact.isBlank_of_isNameChar (isNameChar_iff.mpr (composed.chars c mem))
  have closed : ∀ c ∈ name, (c != '(') = true := by
    intro c mem
    simp only [bne_iff_ne, ne_eq]
    rintro rfl
    exact absurd (isNameChar_iff.mpr (composed.chars '(' mem)) (by decide)
  obtain ⟨first, rest, rfl⟩ := List.exists_cons_of_ne_nil composed.nonempty
  rw [List.dropWhile_append_of_pos blank, List.cons_append,
    List.dropWhile_cons_of_neg (by simp [solid first List.mem_cons_self]), ← List.cons_append,
    List.takeWhile_append_of_pos closed]
  simp

/-- A call of something composed of the right characters is no call of anything else so
composed, and so it calls a path just if it calls something that is one. -/
theorem IsCallOf.isCall_iff {name line : List Char} (composed : IsComposed name)
    (call : IsCallOf name line) : IsCall line ↔ IsPath name := by
  constructor
  · rintro ⟨path, isPath, other⟩
    have same := (call.takeWhile_eq composed).symm.trans (other.takeWhile_eq isPath.composed)
    rwa [same]
  · intro isPath
    exact ⟨name, isPath, call⟩

namespace Artifact

def callLine (artifact : Artifact) : List Char :=
  "    ".toList ++ artifact.target.toList ++ callEnd artifact.mode

theorem exists_callEnd_eq (mode : Mode) :
    ∃ arguments, callEnd mode = '(' :: (arguments ++ [')', ';']) := by
  cases mode
  · refine ⟨['&', 'd', 'a', 't', 'a'], ?_⟩
    unfold callEnd
    exact String.toList_ofList
  · refine ⟨['&', 'm', 'u', 't', ' ', 'p', 'r', 'o', 'v', 'i', 'd', 'e', 'r'], ?_⟩
    unfold callEnd
    exact String.toList_ofList

theorem isCallOf_callLine (artifact : Artifact) :
    IsCallOf artifact.target.toList artifact.callLine := by
  have blank : ∀ c ∈ "    ".toList, Text.isBlank c = true :=
    List.all_eq_true.mp (by decide +kernel)
  obtain ⟨arguments, ends⟩ := exists_callEnd_eq artifact.mode
  refine ⟨_, arguments, blank, ?_⟩
  rw [callLine, ends, List.append_assoc]

/-- The call stands before the brace at the end. -/
theorem exists_lines_render {artifact : Artifact} (plain : artifact.IsPlain) :
    ∃ above, Text.lines artifact.render.toList = above ++ [artifact.callLine, ['\x7d']] := by
  rw [render_toList plain, unlines, Text.lines_flatMap (isLine_renderedLines plain), renderedLines]
  simp only [← List.cons_append, ← List.append_assoc]
  exact ⟨_, rfl⟩

end Artifact

/-- A reproducer of the harness names the target it was made for. -/
theorem Executor.target_of_generate {σ : Type} {executor : Executor σ} {directory : String}
    {input : Bytes} {host : Host σ} {tree : FileTree} {artifact : Artifact}
    (made : (executor.generate directory input host tree).1 = .artifact artifact) :
    artifact.target = executor.target.name := by
  have kept := executor.canonicalBytes_target input
  rw [generate_of_writer_none (writer_eq_none_of_generate made)] at made
  cases made
  rw [payload_target, kept]

/-- A name is checked character by character, before the entry points are looked at: it is
refused just if it is not composed of letters, digits, underscores and colons. A path is so
composed, but a name so composed is a path only if it is spelled like one. So just the names
that are no paths are refused if the name, once composed of the right characters, is well
spelled, and not otherwise; and then and only then does the line before the last of a
reproducer for the target call a path. -/
theorem name_checked_by_character {σ : Type} (spec : TargetSpec σ) :
    (¬IsComposed spec.name.toList → spec.build = .error (.invalidName spec.name)) ∧
    (IsComposed spec.name.toList →
      if spec.bytes.isSome = spec.provider.isSome then spec.build = .error (.entryPoint spec.name)
      else ∃ target, spec.build = .ok target ∧ target.name = spec.name) ∧
    (IsPath spec.name.toList ↔ IsComposed spec.name.toList ∧ IsSpelled spec.name.toList) ∧
    ((spec.build = .error (.invalidName spec.name) ↔ ¬IsPath spec.name.toList) ↔
      (IsComposed spec.name.toList → IsSpelled spec.name.toList)) ∧
    ∀ (executor : Executor σ) (directory : String) (input : Bytes) (host : Host σ)
      (tree : FileTree) (artifact : Artifact),
      spec.build = .ok executor.target →
      (executor.generate directory input host tree).1 = .artifact artifact →
      (∃ above, Text.lines artifact.render.toList = above ++ [artifact.callLine, ['\x7d']]) ∧
      IsCallOf spec.name.toList artifact.callLine ∧
      (IsCall artifact.callLine ↔ IsSpelled spec.name.toList) := by
  have refused := spec.build_eq_invalidName_iff
  refine ⟨refused.mpr, spec.build_of_composed, isPath_iff, ?_, ?_⟩
  · rw [refused, isPath_iff]
    tauto
  · intro executor directory input host tree artifact bound made
    obtain ⟨composed, named⟩ := spec.composed_of_build bound
    have call := artifact.isCallOf_callLine
    rw [Executor.target_of_generate made, named] at call
    refine ⟨Artifact.exists_lines_render (executor.isPlain_of_generate bound made), call, ?_⟩
    exact (call.isCall_iff composed).trans (isPath_iff_isSpelled composed)

/-- A target with a colon missing in its name. -/
def misspelledSpec : TargetSpec Unit :=
  { TargetSpec.named "app:fuzz" with bytes := some fun _ => .finish () }

def misspelledExecutor : Executor Unit :=
  .ofTarget ⟨"app:fuzz", .bytes fun _ => .finish (), none, none, none, .shared⟩

/-- The target is bound, and the reproducer for its input `1` calls no path. -/
theorem misspelled_reproducer_calls_no_path :
    misspelledSpec.build = .ok misspelledExecutor.target ∧
      ∃ artifact : Artifact,
        (misspelledExecutor.generate "out" [1] (.fresh ()) .empty).1 = .artifact artifact ∧
        (∃ above, Text.lines artifact.render.toList = above ++ [artifact.callLine, ['\x7d']]) ∧
        artifact.target = "app:fuzz" ∧ ¬IsCall artifact.callLine := by
  have made : (misspelledExecutor.generate "out" [1] (.fresh ()) .empty).1 =
      .artifact ⟨"app:fuzz", .bytes, Text.Base64.encode [1], contentHash [1]⟩ := by
    have entry : misspelledExecutor.target.entry = .bytes fun _ => .finish () := rfl
    rw [Executor.generate_bytes entry rfl]
    rfl
  have bound : misspelledSpec.build = .ok misspelledExecutor.target := by rfl
  obtain ⟨lines, _, calls⟩ :=
    (name_checked_by_character misspelledSpec).2.2.2.2 _ _ _ _ _ _ bound made
  refine ⟨bound, _, made, lines, rfl, ?_⟩
  intro call
  have cut : misspelledSpec.name.toList = "app".toList ++ ':' :: "fuzz".toList := by
    decide +kernel
  exact absurd ((calls.mp call).paired _ _ cut) (by decide +kernel)

end FuzzHarness
