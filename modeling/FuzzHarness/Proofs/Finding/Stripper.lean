import FuzzHarness.Finding.Identity
import FuzzHarness.Finding.Stripper
import FuzzHarness.Proofs.Text.Pieces
import Mathlib.Data.List.Forall2

/-!
# What a stripper leaves of a finding

A stripper passes over links of wrapper kinds as long as there is a cause behind them, and
takes the injected frames away from all links from there on. Links of wrapper kinds that stand
behind another link stay. So there is nothing left for a second pass, and a finding is
classified in the same way however often it was wrapped.
-/

namespace FuzzHarness

def Finding.wrap (outer : Link) (cause : Finding) : Finding :=
  ⟨outer, cause.chain⟩

namespace Stripper

/-- A chain is passed over up to its first link that is of no wrapper kind or has no cause. -/
structure Unwraps (stripper : Stripper) (chain passed kept : List Link) : Prop where
  chain : chain = passed ++ kept
  passed : ∀ link ∈ passed, link.kind ∈ stripper.wrapperKinds
  kept : ∃ link causes, kept = link :: causes ∧
    (link.kind ∉ stripper.wrapperKinds ∨ causes = [])

/-- A link is kept as it is but for the frames of injected functions. -/
structure Strips (stripper : Stripper) (link kept : Link) : Prop where
  kind : kept.kind = link.kind
  message : kept.message = link.message
  location : kept.location = link.location
  unhooked : kept.unhooked = link.unhooked
  frames : kept.frames = link.frames.filter fun frame =>
    ∀ start ∈ stripper.injectedStarts, ¬start.toList <+: frame.function.toList

theorem isInjected_iff {stripper : Stripper} {frame : Frame} :
    stripper.isInjected frame = true ↔
      ∃ start ∈ stripper.injectedStarts, start.toList <+: frame.function.toList := by
  rw [isInjected, List.any_eq_true]
  simp only [Text.startsWith_iff]

theorem strips_stripLink (stripper : Stripper) (link : Link) :
    stripper.Strips link (stripper.stripLink link) where
  kind := rfl
  message := rfl
  location := rfl
  unhooked := rfl
  frames := by
    apply List.filter_congr
    intro frame _
    rw [Bool.eq_iff_iff, Bool.not_eq_true', ← Bool.not_eq_true, isInjected_iff]
    simp

/-- No injected frame is left. -/
theorem stripLink_stripLink (stripper : Stripper) (link : Link) :
    stripper.stripLink (stripper.stripLink link) = stripper.stripLink link := by
  simp only [stripLink, List.filter_filter, Bool.and_self]

variable {stripper : Stripper}

/-- A link of no wrapper kind, or without a cause, is not passed over. -/
theorem unwrap_eq_self {top : Link} {causes : List Link}
    (stays : top.kind ∉ stripper.wrapperKinds ∨ causes = []) :
    stripper.unwrap top causes = ⟨top, causes⟩ := by
  cases causes with
  | nil => rfl
  | cons cause causes =>
      rw [unwrap, if_neg]
      simpa using stays

/-- A link of a wrapper kind gives way to its cause. -/
theorem unwrap_cons {top : Link} (wraps : top.kind ∈ stripper.wrapperKinds) (cause : Link)
    (causes : List Link) : stripper.unwrap top (cause :: causes) = stripper.unwrap cause causes :=
  if_pos (List.contains_iff_mem.mpr wraps)

theorem exists_unwraps (stripper : Stripper) (top : Link) (causes : List Link) :
    ∃ passed, stripper.Unwraps (top :: causes) passed (stripper.unwrap top causes).chain := by
  induction causes generalizing top with
  | nil => exact ⟨[], rfl, by simp, top, [], rfl, .inr rfl⟩
  | cons cause causes ih =>
      by_cases wraps : top.kind ∈ stripper.wrapperKinds
      · obtain ⟨passed, split, wrapping, stops⟩ := ih cause
        rw [unwrap_cons wraps]
        refine ⟨top :: passed, congrArg (List.cons top) split, ?_, stops⟩
        exact List.forall_mem_cons.mpr ⟨wraps, wrapping⟩
      · rw [unwrap_eq_self (.inl wraps)]
        exact ⟨[], rfl, by simp, top, cause :: causes, rfl, .inl wraps⟩

theorem chain_normalize (stripper : Stripper) (finding : Finding) :
    (stripper.normalize finding).chain =
      (stripper.unwrap finding.top finding.causes).chain.map stripper.stripLink := rfl

/-- Where nothing is passed over, normalizing only strips the links. -/
theorem normalize_of_stays {finding : Finding}
    (stays : finding.top.kind ∉ stripper.wrapperKinds ∨ finding.causes = []) :
    stripper.normalize finding =
      ⟨stripper.stripLink finding.top, finding.causes.map stripper.stripLink⟩ := by
  rw [normalize, unwrap_eq_self stays]

theorem normalize_normalize (stripper : Stripper) (finding : Finding) :
    stripper.normalize (stripper.normalize finding) = stripper.normalize finding := by
  obtain ⟨passed, _, _, top, causes, reached, stays⟩ :=
    stripper.exists_unwraps finding.top finding.causes
  obtain ⟨rfl, rfl⟩ := List.cons.inj reached
  -- The kind of the first link is the one at which unwrapping stopped.
  have staysAgain : (stripper.normalize finding).top.kind ∉ stripper.wrapperKinds ∨
      (stripper.normalize finding).causes = [] :=
    stays.imp id fun alone => List.map_eq_nil_iff.mpr alone
  rw [normalize_of_stays staysAgain]
  simp only [normalize, List.map_map, Finding.mk.injEq]
  refine ⟨stripLink_stripLink stripper _, List.map_congr_left ?_⟩
  intro link _
  exact stripLink_stripLink stripper link

/-- One more link of a wrapper kind makes no difference. -/
theorem normalize_wrap {outer : Link} (wraps : outer.kind ∈ stripper.wrapperKinds)
    (finding : Finding) : stripper.normalize (finding.wrap outer) = stripper.normalize finding := by
  rw [normalize, Finding.wrap, Finding.chain, unwrap_cons wraps, normalize]

theorem normalize_foldr_wrap {wrappers : List Link}
    (wrap : ∀ link ∈ wrappers, link.kind ∈ stripper.wrapperKinds) (finding : Finding) :
    stripper.normalize (wrappers.foldr Finding.wrap finding) = stripper.normalize finding := by
  induction wrappers with
  | nil => rfl
  | cons outer wrappers ih =>
      obtain ⟨first, others⟩ := List.forall_mem_cons.mp wrap
      rw [List.foldr_cons, normalize_wrap first, ih others]

/-- A finding is normalized to the part of its chain that begins with the first link of no
wrapper kind or without a cause. Every link there is kept but for the frames of injected
functions. Normalizing again changes nothing, and however often the finding is wrapped, it is
classified alike and gets the same token. -/
theorem normalized_to_wrapped (stripper : Stripper) (finding : Finding) :
    (∃ passed kept, stripper.Unwraps finding.chain passed kept ∧
        List.Forall₂ stripper.Strips kept (stripper.normalize finding).chain) ∧
      stripper.normalize (stripper.normalize finding) = stripper.normalize finding ∧
      ∀ wrappers : List Link, (∀ link ∈ wrappers, link.kind ∈ stripper.wrapperKinds) →
        ∀ dedup, Classifier.classify ⟨dedup, some stripper.normalize⟩
            (wrappers.foldr Finding.wrap finding) =
          Classifier.classify ⟨dedup, some stripper.normalize⟩ finding := by
  refine ⟨?_, stripper.normalize_normalize finding, ?_⟩
  · obtain ⟨passed, unwraps⟩ := stripper.exists_unwraps finding.top finding.causes
    refine ⟨passed, _, unwraps, ?_⟩
    rw [chain_normalize, List.forall₂_map_right_iff]
    exact List.forall₂_same.mpr fun link _ => stripper.strips_stripLink link
  · intro wrappers wrap dedup
    simp only [Classifier.classify, normalize_foldr_wrap wrap]

def hookLink (message : String) : Link :=
  ⟨"HookWrapper", message, none, [], none⟩

/-- A panic below the frame of a hook, caused by a finding that a hook wrapped around
nothing. -/
def hookedPanic : Finding :=
  ⟨⟨Finding.panicKind, "inner", none,
    [⟨"sanitizers::hooks::check_path", none⟩, ⟨"app::parse::header", none⟩], none⟩,
    [hookLink "last"]⟩

/-- Two hooks around the panic make no difference, but the one that caused it stays. -/
theorem normalized_to_wrapped_hookedPanic :
    let stripper : Stripper := ⟨["HookWrapper"], ["sanitizers::hooks::"]⟩
    stripper.normalize hookedPanic =
        ⟨⟨Finding.panicKind, "inner", none, [⟨"app::parse::header", none⟩], none⟩,
          [hookLink "last"]⟩ ∧
      Classifier.classify ⟨true, some stripper.normalize⟩
          ([hookLink "outer", hookLink "inner"].foldr Finding.wrap hookedPanic) =
        Classifier.classify ⟨true, some stripper.normalize⟩ hookedPanic := by
  intro stripper
  obtain ⟨_, _, classified⟩ := normalized_to_wrapped stripper hookedPanic
  exact ⟨by decide +kernel, classified [hookLink "outer", hookLink "inner"] (by decide) true⟩

end Stripper

end FuzzHarness
