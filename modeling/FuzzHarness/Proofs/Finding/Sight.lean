import FuzzHarness.Proofs.Finding.Identity
import Mathlib.Logic.Relation

/-!
# What a token does not see

The frames of a link are cut at the first one that enters target code, harness frames are left
out, and only the first few of the others count. Whatever is changed about the frames that do
not count, about their locations, or about a message that is not hashed, leaves the token as
it is. A frame in the place of the one that enters target code does count unless it is a
harness frame: nothing cuts it off any more.
-/

namespace FuzzHarness

namespace Frame

/-- The frames above the first one that enters target code. -/
def aboveEntry (frames : List Frame) : List Frame :=
  frames.takeWhile fun frame => !frame.isBoundary

/-- The functions that do not belong to the harness, in order. -/
def targetFunctions (frames : List Frame) : List String :=
  (frames.filter fun frame => !frame.isHarness).map Frame.function

/-- Frames divided into those above the first one that enters target code and the others. -/
structure Cut (frames above others : List Frame) : Prop where
  frames : frames = above ++ others
  above : ∀ frame ∈ above, frame.isBoundary = false
  others : ∀ frame ∈ others.head?, frame.isBoundary = true

end Frame

namespace Link

/-- A change of a link that has nothing to do with what the target did. -/
inductive Edit : Link → Link → Prop where
  /-- A harness frame that does not enter target code is put anywhere. -/
  | harness (link : Link) (before after : List Frame) (frame : Frame)
      (harness : frame.isHarness = true) (inside : frame.isBoundary = false) :
      Edit { link with frames := before ++ after } { link with frames := before ++ frame :: after }
  /-- The first frame that enters target code and all behind it give way to others. Above the
  first of those that enters target code there are harness frames only. -/
  | entry (link : Link) (above behind others : List Frame) (boundary : Frame)
      (inside : ∀ frame ∈ above, frame.isBoundary = false) (enters : boundary.isBoundary = true)
      (harness : ∀ frame ∈ Frame.aboveEntry others, frame.isHarness = true) :
      Edit { link with frames := above ++ boundary :: behind }
        { link with frames := above ++ others }
  /-- The frames behind as many target frames as can count give way to others. -/
  | surplus (link : Link) (first behind others : List Frame)
      (inside : ∀ frame ∈ first, frame.isBoundary = false)
      (enough : frameLimit ≤ (Frame.targetFunctions first).length) :
      Edit { link with frames := first ++ behind } { link with frames := first ++ others }
  /-- Frames are located elsewhere. -/
  | places (link : Link) (frames : List Frame)
      (same : frames.map Frame.function = link.frames.map Frame.function) :
      Edit link { link with frames := frames }
  /-- The message of a panic that passed the hook is another. -/
  | message (link : Link) (message : String) (hooked : link.unhooked = none) :
      Edit link { link with message := message }

end Link

namespace Frame

variable {above others : List Frame}

theorem aboveEntry_append (inside : ∀ frame ∈ above, frame.isBoundary = false)
    (rest : List Frame) : aboveEntry (above ++ rest) = above ++ aboveEntry rest :=
  List.takeWhile_append_of_pos fun frame mem => by rw [inside frame mem, Bool.not_false]

theorem aboveEntry_cons_of_entry {boundary : Frame} (enters : boundary.isBoundary = true)
    (behind : List Frame) : aboveEntry (boundary :: behind) = [] :=
  List.takeWhile_cons_of_neg (by rw [enters]; decide)

theorem cut_aboveEntry (frames : List Frame) :
    Cut frames (aboveEntry frames) (frames.dropWhile fun frame => !frame.isBoundary) where
  frames := List.takeWhile_append_dropWhile.symm
  above frame mem := by
    have passed := List.all_eq_true.mp List.all_takeWhile frame mem
    simpa using passed
  others frame mem := by
    have stops := List.head?_dropWhile_not (fun frame => !frame.isBoundary) frames
    rw [mem] at stops
    simpa using stops

@[simp] theorem targetFunctions_append (frames others : List Frame) :
    targetFunctions (frames ++ others) = targetFunctions frames ++ targetFunctions others := by
  rw [targetFunctions, List.filter_append, List.map_append]
  rfl

theorem targetFunctions_cons_of_harness {frame : Frame} (harness : frame.isHarness = true)
    (frames : List Frame) : targetFunctions (frame :: frames) = targetFunctions frames := by
  rw [targetFunctions, List.filter_cons_of_neg (by rw [harness]; decide)]
  rfl

theorem targetFunctions_of_harness (harness : ∀ frame ∈ others, frame.isHarness = true) :
    targetFunctions others = [] := by
  rw [targetFunctions, List.map_eq_nil_iff, List.filter_eq_nil_iff]
  intro frame mem
  rw [harness frame mem]
  decide

/-- A harness frame that does not enter target code is seen nowhere. -/
theorem targetFunctions_aboveEntry_insert {frame : Frame} (harness : frame.isHarness = true)
    (inside : frame.isBoundary = false) (before after : List Frame) :
    targetFunctions (aboveEntry (before ++ frame :: after)) =
      targetFunctions (aboveEntry (before ++ after)) := by
  induction before with
  | nil =>
      have kept : aboveEntry ([frame] ++ after) = [frame] ++ aboveEntry after :=
        aboveEntry_append (by simpa using inside) after
      rw [List.singleton_append] at kept
      rw [List.nil_append, kept, List.singleton_append, targetFunctions_cons_of_harness harness]
      rfl
  | cons first before ih =>
      rw [List.cons_append, List.cons_append]
      by_cases enters : first.isBoundary = true
      · rw [aboveEntry_cons_of_entry enters, aboveEntry_cons_of_entry enters]
      · have passed (rest : List Frame) :
            aboveEntry ([first] ++ rest) = [first] ++ aboveEntry rest :=
          aboveEntry_append (by simpa using enters) rest
        simp only [List.singleton_append] at passed
        rw [passed, passed, ← List.singleton_append, targetFunctions_append, ih,
          ← targetFunctions_append, List.singleton_append]

/-- Where frames are located is not seen. -/
theorem targetFunctions_aboveEntry_congr {frames : List Frame}
    (same : frames.map Frame.function = others.map Frame.function) :
    targetFunctions (aboveEntry frames) = targetFunctions (aboveEntry others) := by
  have told (frames : List Frame) : targetFunctions (aboveEntry frames) =
      ((frames.map Frame.function).takeWhile fun function => !isBoundary ⟨function, none⟩).filter
        fun function => !isHarness ⟨function, none⟩ := by
    rw [List.takeWhile_map, List.filter_map]
    rfl
  rw [told, told, same]

end Frame

namespace Link

variable {link other : Link} {above : List Frame}

/-- The functions that count are the first of those that the target has above the first frame
that enters it. -/
theorem functions_eq (link : Link) : link.functions =
    (Frame.targetFunctions (Frame.aboveEntry link.frames)).take frameLimit := by
  rw [functions, Frame.significant, List.map_take]
  rfl

theorem Agrees.refl (link : Link) : link.Agrees link :=
  ⟨rfl, rfl, rfl, rfl, fun _ => rfl⟩

theorem agrees_equivalence : Equivalence Agrees where
  refl := Agrees.refl
  symm agrees := ⟨agrees.kind.symm, agrees.place.symm, agrees.functions.symm,
    agrees.unhooked.symm, fun hashed => (agrees.message (agrees.unhooked ▸ hashed)).symm⟩
  trans first second := ⟨first.kind.trans second.kind, first.place.trans second.place,
    first.functions.trans second.functions, first.unhooked.trans second.unhooked,
    fun hashed => (first.message hashed).trans (second.message (first.unhooked ▸ hashed))⟩

/-- Links that differ in frames only count as the same crash if the same functions count. -/
theorem agrees_of_frames (link : Link) {frames others : List Frame}
    (same : (Frame.targetFunctions (Frame.aboveEntry frames)).take frameLimit =
      (Frame.targetFunctions (Frame.aboveEntry others)).take frameLimit) :
    Agrees { link with frames := frames } { link with frames := others } := by
  refine ⟨rfl, rfl, ?_, rfl, fun _ => rfl⟩
  rw [functions_eq, functions_eq]
  exact same

theorem Edit.agrees (edit : Edit link other) : link.Agrees other := by
  cases edit with
  | harness link before after frame harness inside =>
      apply agrees_of_frames
      rw [Frame.targetFunctions_aboveEntry_insert harness inside]
  | entry link above behind others boundary inside enters harness =>
      apply agrees_of_frames
      rw [Frame.aboveEntry_append inside, Frame.aboveEntry_append inside,
        Frame.aboveEntry_cons_of_entry enters, Frame.targetFunctions_append,
        Frame.targetFunctions_append, Frame.targetFunctions_of_harness harness]
      rfl
  | surplus link first behind others inside enough =>
      apply agrees_of_frames
      rw [Frame.aboveEntry_append inside, Frame.aboveEntry_append inside,
        Frame.targetFunctions_append, Frame.targetFunctions_append,
        List.take_append_of_le_length enough, List.take_append_of_le_length enough]
  | places link frames same =>
      apply agrees_of_frames
      rw [Frame.targetFunctions_aboveEntry_congr same]
  | message link message hooked =>
      exact ⟨rfl, rfl, rfl, rfl, fun hashed => by simp [hooked] at hashed⟩

end Link

namespace Finding

/-- However a finding is changed at any of its links in ways that have nothing to do with what
the target did, or was changed to become what it is, its token stays the same. The functions
that count for a link are the first five, in order, of those above the first frame that enters
target code which do not belong to the harness. -/
theorem token_of_edits (finding : Finding) :
    (∀ other : Finding, List.Forall₂ (Relation.EqvGen Link.Edit) finding.chain other.chain →
        other.token = finding.token) ∧
      ∀ link ∈ finding.chain, ∃ above others, Frame.Cut link.frames above others ∧
        (Frame.significant link.frames).map Frame.function =
          (Frame.targetFunctions above).take 5 := by
  constructor
  · intro other edited
    have agree : List.Forall₂ Link.Agrees finding.chain other.chain := by
      apply edited.imp
      intro link changed edits
      exact Link.agrees_equivalence.eqvGen_iff.mp (edits.mono fun _ _ edit => edit.agrees)
    rw [token, token, preimage, preimage, Link.flatMap_preimage_eq agree]
  · intro link _
    exact ⟨_, _, Frame.cut_aboveEntry link.frames, link.functions_eq⟩

def panicBelow (message : String) (frames : List Frame) : Finding :=
  ⟨⟨panicKind, message, some (.printed "a.rs:1:1"), frames, none⟩, []⟩

/-- A panic in the target is raised without the machinery above it, is entered in another way,
and has another message. -/
theorem token_of_edits_panicBelow :
    (panicBelow "two" [⟨"app::one", none⟩, ⟨"<std::thread", none⟩,
        ⟨"fuzzgate_core::capture::target_boundary_hook", none⟩, ⟨"app::main", none⟩]).token =
      (panicBelow "one" [⟨"core::panicking::panic", some "p.rs:1:1"⟩, ⟨"app::one", none⟩,
        ⟨"fuzzgate_core::capture::target_boundary_bytes", none⟩, ⟨"main", none⟩]).token := by
  have raised := Link.Edit.harness (panicBelow "one" []).top []
    [⟨"app::one", none⟩, ⟨"fuzzgate_core::capture::target_boundary_bytes", none⟩, ⟨"main", none⟩]
    ⟨"core::panicking::panic", some "p.rs:1:1"⟩ (by decide) (by decide)
  have entered := Link.Edit.entry (panicBelow "one" []).top [⟨"app::one", none⟩] [⟨"main", none⟩]
    [⟨"<std::thread", none⟩, ⟨"fuzzgate_core::capture::target_boundary_hook", none⟩,
      ⟨"app::main", none⟩]
    ⟨"fuzzgate_core::capture::target_boundary_bytes", none⟩ (by decide) (by decide) (by decide)
  apply (token_of_edits _).1
  refine .cons (.trans _ _ _ (.symm _ _ (.rel _ _ raised)) ?_) .nil
  refine .trans _ _ _ (.rel _ _ entered) ?_
  exact .rel _ _ (.message _ "two" rfl)

/-- A target frame in the place of the one that enters target code is seen. -/
theorem token_seen_past_entry :
    ¬∀ (link : Link) (above behind others : List Frame) (boundary : Frame),
      (∀ frame ∈ above, frame.isBoundary = false) → boundary.isBoundary = true →
        (Finding.mk { link with frames := above ++ others } []).token =
          (Finding.mk { link with frames := above ++ boundary :: behind } []).token := by
  intro unseen
  have same := unseen (panicBelow "" []).top [⟨"app::one", none⟩] [] [⟨"app::two", none⟩]
    ⟨"fuzzgate_core::capture::target_boundary_bytes", none⟩ (by decide) (by decide)
  exact absurd same (by decide +kernel)

end Finding

end FuzzHarness
