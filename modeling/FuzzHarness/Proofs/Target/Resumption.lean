import FuzzHarness.Proofs.Finding.Identity
import FuzzHarness.Proofs.Target.Moments
import FuzzHarness.Target.Script

/-!
# Unwinds that bypass the hook

An unwind that began without the hook has no site of its own. Where no panic is in sight, its
finding has neither location nor frames, and its payload type and message tell it apart from
others. Where one is in sight, though the code caught it and went on, the finding is located
at that panic instead and its message no longer counts, so different unwinds behind panics of
one site are taken for the same crash.
-/

namespace FuzzHarness

open Text

/-- The finding of an unwind that nothing located. -/
def Finding.unlocated (payload : Payload) : Finding :=
  ⟨⟨panicKind, payload.describe.2, none, [], some payload.describe.1⟩, []⟩

/-- With a panic on record, whatever is no finding becomes one at the site of that panic. -/
theorem Session.findingOf_some {payload : Payload}
    (foreign : ∀ finding, payload ≠ .finding finding) (site : Site) :
    findingOf (some site) payload = .capturedAt site Finding.panicKind payload.describe.2 := by
  cases payload with
  | finding finding => exact absurd rfl (foreign finding)
  | str text => rfl
  | string text => rfl
  | other => rfl

theorem Session.findingOf_none {payload : Payload}
    (foreign : ∀ finding, payload ≠ .finding finding) :
    findingOf none payload = .unlocated payload := by
  cases payload with
  | finding finding => exact absurd rfl (foreign finding)
  | str text => rfl
  | string text => rfl
  | other => rfl

namespace Finding

theorem preimage_unlocated (payload : Payload) :
    (unlocated payload).preimage = terminated panicKind ++ 0 ::
      (terminated payload.describe.1.name ++ (terminated payload.describe.2 ++ [linkEnd])) := by
  have whole := (unlocated payload).top.preimage_append []
  have fields : (unlocated payload).top.functions ++ (unlocated payload).top.unhookedFields =
    [payload.describe.1.name, payload.describe.2] := rfl
  rw [fields, List.flatMap_cons, List.flatMap_singleton, List.append_assoc] at whole
  exact whole

/-- Findings that nothing located are told apart by their messages. -/
theorem message_eq_of_preimage_unlocated {first second : Payload}
    (same : (unlocated first).preimage = (unlocated second).preimage) :
    first.describe.2 = second.describe.2 := by
  rw [preimage_unlocated, preimage_unlocated] at same
  have fields := (List.cons.inj (List.append_cancel_left same)).2
  obtain ⟨_, messages⟩ := terminated_append_inj first.describe.1.nul_not_mem_name
    second.describe.1.nul_not_mem_name fields
  exact Utf8.ofString_injective (List.append_cancel_right (List.append_cancel_right messages))

/-- The message of a panic with a site does not count. -/
theorem preimage_capturedAt (site : Site) (kind first second : String) :
    (capturedAt site kind first).preimage = (capturedAt site kind second).preimage := rfl

end Finding

/-- After these moments of a scope, none of its panics is in sight. -/
def Moment.OutOfSight (moments : List Moment) : Prop :=
  ∀ site, ¬InSight moments site

theorem Moment.sightFrom_none_eq_none_iff {moments : List Moment} :
    sightFrom none moments = none ↔ OutOfSight moments := by
  rw [Option.eq_none_iff_forall_ne_some]
  exact forall_congr' fun site => not_congr sightFrom_none_eq_some_iff

namespace Code

variable {σ P ρ : Type} [Provider P]

/-- The code leaves a capture scope by an unwind that bypassed the hook, with a payload that is
no finding. -/
structure Resumes (code : Code σ ρ) (session : Session σ P) (earlier : List Moment)
    (payload : Payload) : Prop where
  leaves : code.UnwindsAfter session earlier (.resumed payload)
  foreign : ∀ finding, payload ≠ .finding finding

variable {code : Code σ ρ} {session : Session σ P} {earlier : List Moment} {payload : Payload}

theorem Resumes.caught_of_inSight (resumes : code.Resumes session earlier payload) {site : Site}
    (inSight : Moment.InSight earlier site) :
    (code.caught session).1 =
      .error (.capturedAt site Finding.panicKind payload.describe.2) := by
  rw [caught_of_resumed resumes.leaves, Moment.sightFrom_none_eq_some_iff.mpr inSight,
    Session.findingOf_some resumes.foreign]

theorem Resumes.caught_of_outOfSight (resumes : code.Resumes session earlier payload)
    (outOfSight : Moment.OutOfSight earlier) :
    (code.caught session).1 = .error (.unlocated payload) := by
  rw [caught_of_resumed resumes.leaves, Moment.sightFrom_none_eq_none_iff.mpr outOfSight,
    Session.findingOf_none resumes.foreign]

/-- An unwind that bypassed the hook has a finding without location and frames, marked with
its payload type, just if no panic of its scope is in sight. Otherwise the finding is the one
that a panic at the site in sight would have. So two such unwinds with different messages are
told apart if nothing is in sight of either, and never if one site is in sight of both. -/
theorem resumed_unhooked_iff_outOfSight (resumes : code.Resumes session earlier payload) :
    ∃ finding, (code.caught session).1 = .error finding ∧
      finding.top.message = payload.describe.2 ∧ finding.causes = [] ∧
      ((finding.top.location = none ∧ finding.top.frames = [] ∧
          finding.top.unhooked = some payload.describe.1) ↔ Moment.OutOfSight earlier) ∧
      (∀ site, Moment.InSight earlier site →
        finding = .capturedAt site Finding.panicKind payload.describe.2) ∧
      ∀ (next : Code σ ρ) (later : Session σ P) (before : List Moment) (thrown : Payload)
        (found : Finding), next.Resumes later before thrown →
        (next.caught later).1 = .error found →
          (Moment.OutOfSight earlier → Moment.OutOfSight before →
            payload.describe.2 ≠ thrown.describe.2 → finding.preimage ≠ found.preimage) ∧
          ∀ site, Moment.InSight earlier site → Moment.InSight before site →
            finding.preimage = found.preimage := by
  rcases sight : Moment.sightFrom none earlier with _ | site
  · have outOfSight := Moment.sightFrom_none_eq_none_iff.mp sight
    refine ⟨.unlocated payload, resumes.caught_of_outOfSight outOfSight, rfl, rfl,
      ⟨fun _ => outOfSight, fun _ => ⟨rfl, rfl, rfl⟩⟩,
      fun site inSight => absurd inSight (outOfSight site), ?_⟩
    intro next later before thrown found resumes' made
    refine ⟨?_, fun site inSight => absurd inSight (outOfSight site)⟩
    intro _ outOfSight' differ same
    obtain rfl := Except.error.inj ((resumes'.caught_of_outOfSight outOfSight').symm.trans made)
    exact differ (Finding.message_eq_of_preimage_unlocated same)
  · have inSight := Moment.sightFrom_none_eq_some_iff.mp sight
    have only (other : Site) (seen : Moment.InSight earlier other) : other = site :=
      Option.some.inj ((Moment.sightFrom_none_eq_some_iff.mpr seen).symm.trans sight)
    refine ⟨_, resumes.caught_of_inSight inSight, rfl, rfl, ⟨nofun, fun outOfSight =>
      absurd inSight (outOfSight site)⟩, ?_, ?_⟩
    · intro other seen
      rw [only other seen]
    · intro next later before thrown found resumes' made
      refine ⟨fun outOfSight => absurd inSight (outOfSight site), ?_⟩
      intro other seen seen'
      obtain rfl := only other seen
      obtain rfl := Except.error.inj ((resumes'.caught_of_inSight seen').symm.trans made)
      exact Finding.preimage_capturedAt _ _ _ _

end Code

namespace Script

/-- Where the code below panics. -/
def handledSite : Site :=
  ⟨.printed "a.rs:1:1", [⟨"app::one", none⟩]⟩

/-- Catch a panic, then unwind with a text, bypassing the hook. -/
def resumingBehind (text : String) : Code ScriptMemory Unit :=
  code ⟨[], 1, [], .shared⟩ () ()
    [.guard [.panic handledSite (.str "handled")], .resume (.string text)]

def idleThread : Session ScriptMemory Cursor :=
  ⟨.fresh .start, none⟩

theorem resumingBehind_resumes (text : String) :
    (resumingBehind text).Resumes idleThread [.raised handledSite (.str "handled")]
      (.string text) :=
  ⟨⟨⟨.string text, rfl⟩, rfl⟩, nofun⟩

/-- Two different texts, both blamed on the panic that the code handled. -/
theorem resumingBehind_one_two :
    (resumingBehind "one").Resumes idleThread [.raised handledSite (.str "handled")]
        (.string "one") ∧ ∃ finding found,
      ((resumingBehind "one").caught idleThread).1 = .error finding ∧
      ((resumingBehind "two").caught idleThread).1 = .error found ∧
      finding.top.message = "one" ∧ found.top.message = "two" ∧
      finding.top.location = some handledSite.location ∧ finding.preimage = found.preimage := by
  obtain ⟨finding, made, message, _, _, blamed, told⟩ :=
    Code.resumed_unhooked_iff_outOfSight (resumingBehind_resumes "one")
  obtain ⟨found, made', message', _⟩ :=
    Code.resumed_unhooked_iff_outOfSight (resumingBehind_resumes "two")
  have inSight : Moment.InSight [.raised handledSite (.str "handled")] handledSite :=
    .raised [] handledSite _
  refine ⟨resumingBehind_resumes "one", finding, found, made, made', message, message', ?_,
    (told _ _ _ _ _ (resumingBehind_resumes "two") made').2 handledSite inSight inSight⟩
  rw [blamed handledSite inSight]
  rfl

end Script

end FuzzHarness
