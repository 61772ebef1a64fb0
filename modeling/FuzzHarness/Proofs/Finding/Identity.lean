import FuzzHarness.Finding.Identity
import FuzzHarness.Proofs.Text.Pieces
import FuzzHarness.Proofs.Text.Utf8
import Mathlib.Data.List.Forall2

/-!
# What the identity of a finding tells

The hashed octets of a finding hold no lengths. A text without NUL characters is told from
what follows by its zero octet, and a link ends where an octet stands that no text contains.
Only the two fields of a panic that bypassed the hook look like two more functions, so a
function that is named as a payload type has to be left out. Then the octets can be read in
one way only: two findings have the same octets just if their chains agree link by link.
-/

namespace FuzzHarness

open Text

/-- The octet behind a link. -/
def linkEnd : UInt8 := 0xFF

/-- The text of a location, or the name in its place. -/
def Location.text : Location → String
  | .printed text => text
  | .named name => name

namespace Link

/-- The location that is hashed for a link: an absent one counts as an empty one. -/
def place (link : Link) : Location :=
  link.location.getD (.printed "")

def functions (link : Link) : List String :=
  (Frame.significant link.frames).map Frame.function

/-- What is hashed for a panic that bypassed the hook. -/
def unhookedFields (link : Link) : List String :=
  match link.unhooked with
  | some type => [type.name, link.message]
  | none => []

/-- Two links count as the same crash. -/
structure Agrees (link other : Link) : Prop where
  kind : link.kind = other.kind
  place : link.place = other.place
  functions : link.functions = other.functions
  unhooked : link.unhooked = other.unhooked
  message : link.unhooked.isSome = true → link.message = other.message

/-- No hashed text of a link contains a NUL character, and no function that counts is named
as a payload type. -/
structure IsClear (link : Link) : Prop where
  kind : '\x00' ∉ link.kind.toList
  place : '\x00' ∉ link.place.text.toList
  functions : ∀ function ∈ link.functions, '\x00' ∉ function.toList
  payloadTypes : ∀ type : PayloadType, type.name ∉ link.functions
  message : link.unhooked.isSome = true → '\x00' ∉ link.message.toList

instance (link other : Link) : Decidable (link.Agrees other) :=
  decidable_of_iff (link.kind = other.kind ∧ link.place = other.place ∧
      link.functions = other.functions ∧ link.unhooked = other.unhooked ∧
      (link.unhooked.isSome = true → link.message = other.message))
    ⟨fun ⟨kind, place, functions, unhooked, message⟩ =>
      ⟨kind, place, functions, unhooked, message⟩,
    fun ⟨kind, place, functions, unhooked, message⟩ =>
      ⟨kind, place, functions, unhooked, message⟩⟩

instance (link : Link) : Decidable link.IsClear :=
  decidable_of_iff ('\x00' ∉ link.kind.toList ∧ '\x00' ∉ link.place.text.toList ∧
      (∀ function ∈ link.functions, '\x00' ∉ function.toList) ∧
      (∀ type ∈ [PayloadType.str, .string, .unknown], type.name ∉ link.functions) ∧
      (link.unhooked.isSome = true → '\x00' ∉ link.message.toList))
    ⟨fun ⟨kind, place, functions, payloadTypes, message⟩ =>
      ⟨kind, place, functions, fun type => payloadTypes type (by cases type <;> decide), message⟩,
    fun ⟨kind, place, functions, payloadTypes, message⟩ =>
      ⟨kind, place, functions, fun type _ => payloadTypes type, message⟩⟩

end Link

theorem PayloadType.name_injective : Function.Injective PayloadType.name := by
  intro type other same
  cases type <;> cases other <;> simp_all [PayloadType.name]

theorem PayloadType.nul_not_mem_name (type : PayloadType) : '\x00' ∉ type.name.toList := by
  cases type <;> decide +kernel

/-- A field is told from what follows it. -/
theorem terminated_append_inj {text other : String} (clear : '\x00' ∉ text.toList)
    (otherClear : '\x00' ∉ other.toList) {rest otherRest : Bytes}
    (same : terminated text ++ rest = terminated other ++ otherRest) :
    text = other ∧ rest = otherRest := by
  rw [terminated, terminated, List.append_assoc, List.append_assoc] at same
  obtain ⟨texts, rests⟩ := append_mark_inj (Utf8.zero_not_mem_ofString clear)
    (Utf8.zero_not_mem_ofString otherClear) same
  exact ⟨Utf8.ofString_injective texts, rests⟩

/-- No field begins with the end of a link. -/
theorem terminated_append_ne (text : String) (rest otherRest : Bytes) :
    terminated text ++ rest ≠ linkEnd :: otherRest := by
  have absent := Utf8.not_mem_ofString (show 0xF8 ≤ linkEnd.toNat by decide) text
  rw [terminated]
  cases octets : Utf8.ofString text with
  | nil =>
      intro same
      exact absurd (List.cons.inj same).1 (by decide)
  | cons octet tail =>
      intro same
      rw [octets] at absent
      exact absent ((List.cons.inj same).1 ▸ List.mem_cons_self)

/-- Fields up to the end of a link are read in one way only. -/
theorem flatMap_terminated_inj {fields others : List String}
    (clear : ∀ field ∈ fields, '\x00' ∉ field.toList)
    (otherClear : ∀ field ∈ others, '\x00' ∉ field.toList) {rest otherRest : Bytes}
    (same : fields.flatMap terminated ++ linkEnd :: rest =
      others.flatMap terminated ++ linkEnd :: otherRest) :
    fields = others ∧ rest = otherRest := by
  induction fields generalizing others with
  | nil =>
      cases others with
      | nil => exact ⟨rfl, (List.cons.inj same).2⟩
      | cons other others =>
          rw [List.flatMap_cons, List.append_assoc] at same
          exact absurd same.symm (terminated_append_ne other _ _)
  | cons field fields ih =>
      cases others with
      | nil =>
          rw [List.flatMap_cons, List.append_assoc] at same
          exact absurd same (terminated_append_ne field _ _)
      | cons other others =>
          obtain ⟨first, later⟩ := List.forall_mem_cons.mp clear
          obtain ⟨otherFirst, otherLater⟩ := List.forall_mem_cons.mp otherClear
          rw [List.flatMap_cons, List.flatMap_cons, List.append_assoc, List.append_assoc] at same
          obtain ⟨rfl, tails⟩ := terminated_append_inj first otherFirst same
          obtain ⟨rfl, rests⟩ := ih later otherLater tails
          exact ⟨rfl, rests⟩

namespace Location

/-- A name is told from every text by its first octet. -/
theorem preimage_injective : Function.Injective preimage := by
  have apart (name text : String) : preimage (.named name) ≠ preimage (.printed text) := by
    intro same
    apply Utf8.not_mem_ofString (show 0xF8 ≤ (0xFE : UInt8).toNat by decide) text
    change 0xFE :: Utf8.ofString name = Utf8.ofString text at same
    rw [← same]
    exact List.mem_cons_self
  intro location other same
  cases location with
  | printed text =>
      cases other with
      | printed other => rw [Utf8.ofString_injective same]
      | named name => exact absurd same.symm (apart name text)
  | named name =>
      cases other with
      | printed text => exact absurd same (apart name text)
      | named other => rw [Utf8.ofString_injective (List.cons.inj same).2]

theorem zero_not_mem_preimage {location : Location} (clear : '\x00' ∉ location.text.toList) :
    0 ∉ location.preimage := by
  cases location with
  | printed text => exact Utf8.zero_not_mem_ofString clear
  | named name =>
      intro mem
      rcases List.mem_cons.mp mem with zero | mem
      · exact absurd zero (by decide)
      · exact Utf8.zero_not_mem_ofString clear mem

end Location

namespace Link

variable {link other : Link}

/-- The octets of a link are its kind, its location and its fields, each behind the other. -/
theorem preimage_append (link : Link) (rest : Bytes) :
    link.preimage ++ rest = terminated link.kind ++ (link.place.preimage ++ 0 ::
      ((link.functions ++ link.unhookedFields).flatMap terminated ++ linkEnd :: rest)) := by
  have place : (link.location.map Location.preimage).getD [] = link.place.preimage := by
    rw [Link.place]
    cases link.location <;> rfl
  rw [preimage, place, functions, unhookedFields]
  cases link.unhooked with
  | none => simp [List.flatMap_map, linkEnd]
  | some type => simp [List.flatMap_map, linkEnd]

theorem IsClear.fields (clear : link.IsClear) :
    ∀ field ∈ link.functions ++ link.unhookedFields, '\x00' ∉ field.toList := by
  intro field mem
  rcases List.mem_append.mp mem with mem | mem
  · exact clear.functions field mem
  · have told := clear.message
    rw [unhookedFields] at mem
    cases unhooked : link.unhooked with
    | none =>
        rw [unhooked] at mem
        cases mem
    | some type =>
        rw [unhooked] at mem told
        rcases List.mem_cons.mp mem with rfl | mem
        · exact type.nul_not_mem_name
        · obtain rfl := List.mem_singleton.mp mem
          exact told rfl

/-- The two fields of a panic that bypassed the hook are taken for functions of no other
link. -/
theorem functions_ne_of_unhooked (clear : link.IsClear) {type : PayloadType}
    (unhooked : other.unhooked = some type) :
    link.functions ≠ other.functions ++ other.unhookedFields := by
  intro same
  apply clear.payloadTypes type
  rw [same, unhookedFields, unhooked]
  simp

/-- What is behind the location tells functions, payload type and message. -/
theorem fields_inj (clear : link.IsClear) (otherClear : other.IsClear)
    (same : link.functions ++ link.unhookedFields = other.functions ++ other.unhookedFields) :
    link.functions = other.functions ∧ link.unhooked = other.unhooked ∧
      (link.unhooked.isSome = true → link.message = other.message) := by
  cases unhooked : link.unhooked with
  | none =>
      have bare : link.unhookedFields = [] := by rw [unhookedFields, unhooked]
      rw [bare, List.append_nil] at same
      cases otherUnhooked : other.unhooked with
      | none =>
          have otherBare : other.unhookedFields = [] := by rw [unhookedFields, otherUnhooked]
          rw [otherBare, List.append_nil] at same
          exact ⟨same, rfl, nofun⟩
      | some type => exact absurd same (functions_ne_of_unhooked clear otherUnhooked)
  | some type =>
      cases otherUnhooked : other.unhooked with
      | none =>
          have otherBare : other.unhookedFields = [] := by rw [unhookedFields, otherUnhooked]
          rw [otherBare, List.append_nil] at same
          exact absurd same.symm (functions_ne_of_unhooked otherClear unhooked)
      | some otherType =>
          have two : link.unhookedFields = [type.name, link.message] := by
            rw [unhookedFields, unhooked]
          have otherTwo : other.unhookedFields = [otherType.name, other.message] := by
            rw [unhookedFields, otherUnhooked]
          rw [two, otherTwo] at same
          obtain ⟨functions, last⟩ := List.append_inj' same rfl
          obtain ⟨names, messages⟩ := List.cons.inj last
          refine ⟨functions, ?_, ?_⟩
          · rw [PayloadType.name_injective names]
          · intro _
            exact (List.cons.inj messages).1

/-- The octets of a link are told from what follows them, and tell whatever counts. -/
theorem preimage_append_inj (clear : link.IsClear) (otherClear : other.IsClear)
    {rest otherRest : Bytes}
    (same : link.preimage ++ rest = other.preimage ++ otherRest) :
    link.Agrees other ∧ rest = otherRest := by
  rw [preimage_append, preimage_append] at same
  obtain ⟨kind, behindKind⟩ := terminated_append_inj clear.kind otherClear.kind same
  obtain ⟨place, behindPlace⟩ := append_mark_inj (Location.zero_not_mem_preimage clear.place)
    (Location.zero_not_mem_preimage otherClear.place) behindKind
  obtain ⟨fields, rests⟩ := flatMap_terminated_inj clear.fields otherClear.fields behindPlace
  obtain ⟨functions, unhooked, message⟩ := fields_inj clear otherClear fields
  exact ⟨⟨kind, Location.preimage_injective place, functions, unhooked, message⟩, rests⟩

/-- Nothing else is in the octets of a link. -/
theorem Agrees.preimage_eq (agrees : link.Agrees other) : link.preimage = other.preimage := by
  have fields : link.unhookedFields = other.unhookedFields := by
    have same := agrees.message
    rw [unhookedFields, unhookedFields, ← agrees.unhooked]
    cases unhooked : link.unhooked with
    | none => rfl
    | some type =>
        rw [unhooked] at same
        exact congrArg (fun message => [type.name, message]) (same rfl)
  have whole := link.preimage_append []
  rw [agrees.kind, agrees.place, agrees.functions, fields, ← preimage_append] at whole
  simpa using whole

theorem preimage_ne_nil (link : Link) : link.preimage ≠ [] := by
  rw [preimage]
  exact List.append_ne_nil_of_right_ne_nil _ (List.cons_ne_nil _ _)

/-- Chains that agree link by link have the same octets. -/
theorem flatMap_preimage_eq {links others : List Link} (agree : List.Forall₂ Agrees links others) :
    links.flatMap preimage = others.flatMap preimage := by
  induction agree with
  | nil => rfl
  | cons agrees _ ih => rw [List.flatMap_cons, List.flatMap_cons, agrees.preimage_eq, ih]

/-- Chains of any length are told apart by their octets, unless they agree. -/
theorem flatMap_preimage_eq_iff {links others : List Link} (clear : ∀ link ∈ links, link.IsClear)
    (otherClear : ∀ link ∈ others, link.IsClear) :
    links.flatMap preimage = others.flatMap preimage ↔ List.Forall₂ Agrees links others := by
  constructor
  · intro same
    induction links generalizing others with
    | nil =>
        cases others with
        | nil => exact .nil
        | cons other others =>
            exact absurd (List.append_eq_nil_iff.mp same.symm).1 other.preimage_ne_nil
    | cons link links ih =>
        cases others with
        | nil => exact absurd (List.append_eq_nil_iff.mp same).1 link.preimage_ne_nil
        | cons other others =>
            obtain ⟨first, later⟩ := List.forall_mem_cons.mp clear
            obtain ⟨otherFirst, otherLater⟩ := List.forall_mem_cons.mp otherClear
            rw [List.flatMap_cons, List.flatMap_cons] at same
            obtain ⟨agrees, tails⟩ := preimage_append_inj first otherFirst same
            exact .cons agrees (ih later otherLater tails)
  · exact flatMap_preimage_eq

end Link

namespace Finding

/-- Two findings have the same hashed octets just if their chains are of one length and agree
link by link on whatever counts. -/
theorem preimage_eq_iff {finding other : Finding} (clear : ∀ link ∈ finding.chain, link.IsClear)
    (otherClear : ∀ link ∈ other.chain, link.IsClear) :
    finding.preimage = other.preimage ↔
      List.Forall₂ Link.Agrees finding.chain other.chain :=
  Link.flatMap_preimage_eq_iff clear otherClear

/-- A panic in `app::one` below harness frames, caused by one that bypassed the hook. -/
def relayed (message cause : String) (harness : List Frame) : Finding :=
  ⟨⟨panicKind, message, some (.printed "a.rs:1:1"), harness ++ [⟨"app::one", none⟩], none⟩,
    [⟨panicKind, cause, none, [], some .str⟩]⟩

/-- Neither the message nor the harness frames of the first link matter, but the message of
its cause does. -/
theorem relayed_preimage_eq :
    (relayed "one" "lost" []).preimage =
        (relayed "two" "lost" [⟨"core::panicking::panic", some "p.rs:1:1"⟩]).preimage ∧
      (relayed "one" "lost" []).preimage ≠ (relayed "one" "stolen" []).preimage := by
  constructor
  · apply (preimage_eq_iff (by decide +kernel) (by decide +kernel)).mpr
    decide +kernel
  · intro same
    have agree := (preimage_eq_iff (by decide +kernel) (by decide +kernel)).mp same
    exact absurd agree (by decide +kernel)

end Finding

end FuzzHarness
