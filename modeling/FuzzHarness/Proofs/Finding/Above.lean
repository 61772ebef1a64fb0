import FuzzHarness.Finding.Outcome
import FuzzHarness.Proofs.Finding.Sight
import FuzzHarness.Proofs.Finding.Stripper
import FuzzHarness.Target.Way
import Mathlib.Data.List.TakeWhile

/-!
# Findings above the boundary

What stands beneath target code depends on who entered it: on the function of the harness and
on whatever called the harness. None of this tells anything about the target. Cut at the
boundary, findings of different runs can be compared, and what is left of a finding has the
token of the whole.
-/

namespace FuzzHarness

namespace Frame

variable {boundary : Frame}

theorem aboveEntry_aboveEntry (frames : List Frame) :
    aboveEntry (aboveEntry frames) = aboveEntry frames := by
  apply List.takeWhile_eq_self_iff.mpr
  intro frame mem
  exact List.all_eq_true.mp List.all_takeWhile frame mem

/-- Whatever stands beneath a frame that enters target code is cut off. -/
theorem aboveEntry_append_entry (enters : boundary.isBoundary = true) (own behind : List Frame) :
    aboveEntry (own ++ boundary :: behind) = aboveEntry own := by
  have stops : aboveEntry (boundary :: behind) = [] := aboveEntry_cons_of_entry enters behind
  rw [aboveEntry] at stops
  rw [aboveEntry, List.takeWhile_append, stops, List.append_nil]
  split
  · next whole => exact ((List.takeWhile_prefix _).eq_of_length whole).symm
  · rfl

theorem significant_aboveEntry (frames : List Frame) :
    significant (aboveEntry frames) = significant frames := by
  have same : (aboveEntry (aboveEntry frames)).filter _ = (aboveEntry frames).filter _ :=
    congrArg (List.filter fun frame => !frame.isHarness) (aboveEntry_aboveEntry frames)
  exact congrArg (List.take frameLimit) same

end Frame

theorem Boundary.isBoundary_function (boundary : Boundary) :
    Frame.isBoundary ⟨boundary.function, none⟩ = true := by
  cases boundary <;> decide

/-- However target code is entered, the frames of its own stand above the boundary. -/
theorem Way.aboveEntry_frames (way : Way) (own stack : List Frame) :
    Frame.aboveEntry (own ++ (way.frames ++ stack)) = Frame.aboveEntry own :=
  Frame.aboveEntry_append_entry way.boundary.isBoundary_function own _

/-- A link without the boundary and what stands beneath it. -/
def Link.above (link : Link) : Link :=
  { link with frames := Frame.aboveEntry link.frames }

namespace Finding

/-- A finding that is cut at the boundary. -/
def above (finding : Finding) : Finding :=
  ⟨finding.top.above, finding.causes.map Link.above⟩

theorem chain_above (finding : Finding) : finding.above.chain = finding.chain.map Link.above :=
  rfl

theorem preimage_above (finding : Finding) : finding.above.preimage = finding.preimage := by
  have links (link : Link) : link.above.preimage = link.preimage := by
    simp only [Link.preimage, Link.above, Frame.significant_aboveEntry]
  rw [preimage, chain_above, List.flatMap_map]
  exact congrArg (List.flatMap · finding.chain) (funext links)

/-- What stands beneath the boundary has no part in the token. -/
theorem token_above (finding : Finding) : finding.above.token = finding.token := by
  rw [token, preimage_above, ← token]

theorem token_eq_of_above {finding other : Finding} (same : finding.above = other.above) :
    finding.token = other.token := by
  rw [← finding.token_above, same, other.token_above]

/-- A panic is the same above the boundary however the target code was entered. -/
theorem above_capturedAt_upon (way : Way) (stack : List Frame) (site : Site)
    (kind message : String) :
    (capturedAt (site.upon (way.frames ++ stack)) kind message).above =
      (capturedAt site kind message).above := by
  have cut := way.aboveEntry_frames site.frames stack
  simp only [above, Link.above, capturedAt, Site.upon, cut]

end Finding

/-- The token of a panic that is raised at a site. Neither the message nor what stands beneath
the boundary has a part in it. -/
def Site.token (site : Site) : UInt64 :=
  (Finding.capturedAt site Finding.panicKind "").token

theorem Finding.token_capturedAt (site : Site) (message : String) :
    (capturedAt site panicKind message).token = site.token := by
  have same : (capturedAt site panicKind message).preimage =
    (capturedAt site panicKind "").preimage := rfl
  rw [Site.token, token, token, same]

theorem Finding.token_capturedAt_upon (way : Way) (stack : List Frame) (site : Site)
    (message : String) :
    (capturedAt (site.upon (way.frames ++ stack)) panicKind message).token = site.token := by
  rw [token_eq_of_above (above_capturedAt_upon way stack site panicKind message),
    token_capturedAt]

/-- An outcome whose finding is cut at the boundary. -/
def Outcome.above : Outcome → Outcome
  | .none => .none
  | .reported finding => .reported finding.above
  | .thrown finding => .thrown finding.above

theorem Outcome.finding?_above (outcome : Outcome) :
    outcome.above.finding? = outcome.finding?.map Finding.above := by
  cases outcome <;> rfl

/-- Findings that are the same above the boundary get one token. -/
def Classifier.SeesAbove (classifier : Classifier) : Prop :=
  ∀ finding other : Finding, finding.above = other.above →
    (classifier.classify finding).token = (classifier.classify other).token

namespace Classifier

variable {classifier : Classifier} {finding other : Finding}

/-- A classifier sees no more than its normalizer does. -/
theorem seesAbove_of_normalizer (respects : ∀ normalize ∈ classifier.normalizer,
    ∀ finding other : Finding, finding.above = other.above →
      (normalize finding).above = (normalize other).above) : classifier.SeesAbove := by
  intro finding other same
  rw [classify, classify]
  cases normalizer : classifier.normalizer with
  | none => simp only [Finding.token_eq_of_above same]
  | some normalize =>
      have kept := respects normalize normalizer finding other same
      simp only [Finding.token_eq_of_above kept]

/-- What comes up again above the boundary is found again, with the token that it has for a
classifier that sees no more. -/
theorem exists_found_again {outcome again : Outcome} (same : again.above = outcome.above)
    {raised : Finding} (found : outcome.finding? = some raised) :
    ∃ finding, again.finding? = some finding ∧ finding.above = raised.above ∧
      (classifier.SeesAbove →
        (classifier.classify finding).token = (classifier.classify raised).token) := by
  have cut : again.finding?.map Finding.above = some raised.above := by
    rw [← Outcome.finding?_above, same, Outcome.finding?_above, found]
    rfl
  obtain ⟨finding, caught, alike⟩ := Option.map_eq_some_iff.mp cut
  exact ⟨finding, caught, alike, fun sees => sees finding raised alike⟩

end Classifier

namespace Stripper

variable {stripper : Stripper}

/-- No frame that enters target code is taken away. -/
def SparesEntry (stripper : Stripper) : Prop :=
  ∀ frame : Frame, frame.isBoundary = true → stripper.isInjected frame = false

/-- The frames of functions are left if none begins as a function that enters target code. -/
theorem sparesEntry_of_starts (apart : ∀ start ∈ stripper.injectedStarts,
    ¬start.toList <+: boundaryStart.toList ∧ ¬boundaryStart.toList <+: start.toList) :
    stripper.SparesEntry := by
  intro frame enters
  rw [Bool.eq_false_iff]
  intro injected
  obtain ⟨start, mem, begins⟩ := isInjected_iff.mp injected
  have enters := Text.startsWith_iff.mp enters
  rcases List.prefix_or_prefix_of_prefix begins enters with shorter | longer
  · exact (apart start mem).1 shorter
  · exact (apart start mem).2 longer

/-- Taking frames away and cutting at the boundary can change places. -/
theorem stripLink_above (spares : stripper.SparesEntry) (link : Link) :
    (stripper.stripLink link).above = stripper.stripLink link.above := by
  have same (frame : Frame) :
      (!!stripper.isInjected frame || !frame.isBoundary) = !frame.isBoundary := by
    cases enters : frame.isBoundary with
    | false => exact Bool.or_true _
    | true =>
        rw [spares frame enters]
        rfl
  simp only [Link.above, stripLink, Frame.aboveEntry, List.takeWhile_filter, same]

theorem unwrap_above (top : Link) (causes : List Link) :
    stripper.unwrap top.above (causes.map Link.above) = (stripper.unwrap top causes).above := by
  induction causes generalizing top with
  | nil => rfl
  | cons cause causes ih =>
      have kind : top.above.kind = top.kind := rfl
      rw [List.map_cons, unwrap, unwrap, kind]
      split
      · exact ih cause
      · rfl

theorem normalize_above (spares : stripper.SparesEntry) (finding : Finding) :
    (stripper.normalize finding).above = stripper.normalize finding.above := by
  have inner := stripper.unwrap_above finding.top finding.causes
  simp only [normalize, Finding.above] at inner ⊢
  rw [inner]
  simp [stripLink_above spares]

end Stripper

/-- A stripper that spares the boundary has no part in what is beneath it. -/
theorem Classifier.seesAbove_of_strips {classifier : Classifier}
    (strips : ∀ normalize ∈ classifier.normalizer,
      ∃ stripper : Stripper, stripper.SparesEntry ∧ stripper.normalize = normalize) :
    classifier.SeesAbove := by
  apply seesAbove_of_normalizer
  intro normalize mem finding other same
  obtain ⟨stripper, spares, rfl⟩ := strips normalize mem
  rw [Stripper.normalize_above spares, same, Stripper.normalize_above spares]

end FuzzHarness
