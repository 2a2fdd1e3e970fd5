import MachineNotebook.Dart.Text

namespace MachineNotebook.Session.Clipboard

open MachineNotebook.Dart.Bindings Dart.Text MachineNotebook.Lib.Utf8

structure Part where
  mime : DartString
  data : Bytes
  deriving DecidableEq

inductive Effect
  | setData (text : DartString)
  | lastError (message : DartString)
  deriving DecidableEq

def asciiLower (u : UInt16) : UInt16 := if 0x41 ≤ u ∧ u ≤ 0x5A then u + 0x20 else u

/-- What is relied on of `toLowerCase`, whose tables are not fixed for the other characters. -/
structure Lowers (toLowerCase : DartString → DartString) : Prop where
  ascii : ∀ s, (∀ u ∈ s, u < 0x80) → toLowerCase s = s.map asciiLower
  ne_nil : ∀ s, s ≠ [] → toLowerCase s ≠ []

def contains (s pattern : DartString) : Bool := s.tails.any pattern.isPrefixOf

def textPlain : DartString := ofChars "text/plain".toList

def textUnits : DartString := ofChars "text".toList

def text (p : Part) : DartString := ofChars (utf8Decode p.data)

section Code

variable (toLowerCase : DartString → DartString)

def preferredPart : Option Part → List Part → Option Part
  | preferred, [] => preferred
  | preferred, p :: parts =>
    let mime := toLowerCase p.mime
    if mime = [] ∨ mime = textPlain ∨ contains mime textUnits then
      if mime = textPlain ∨ mime = [] then some p else preferredPart (some p) parts
    else preferredPart preferred parts

def unsupported (parts : List Part) : DartString :=
  ofChars "clipboard: unsupported MIME (".toList ++
    List.intercalate (ofChars ", ".toList) (parts.map Part.mime) ++ ofChars ")".toList

def applyClipboardWrite (parts : List Part) : Effect :=
  if parts = [] then .setData []
  else
    match preferredPart toLowerCase none parts with
    | none => .lastError (unsupported parts)
    | some p => .setData (text p)

end Code

section Choice

variable (toLowerCase : DartString → DartString)

def isPlain (p : Part) : Bool := toLowerCase p.mime = textPlain

def isUntyped (p : Part) : Bool := p.mime = []

def isText (p : Part) : Bool := isUntyped p || contains (toLowerCase p.mime) textUnits

/-- The first plain text is written, or else some text, or else none is. -/
structure Preferred (parts : List Part) (effect : Effect) : Prop where
  plain : ∀ p, parts.find? (isPlain toLowerCase) = some p → effect = .setData (text p)
  fallback : parts.find? (isPlain toLowerCase) = none → parts.any (isText toLowerCase) →
    ∃ p ∈ parts, isText toLowerCase p ∧ effect = .setData (text p)
  neither : parts.find? (isPlain toLowerCase) = none → ¬parts.any (isText toLowerCase) →
    effect = .lastError (unsupported parts)

/-- The parts before the first plain text. -/
def before (parts : List Part) : List Part := parts.takeWhile fun p ↦ !isPlain toLowerCase p

/-- No part without a type stands before the first plain text, or the first that does has the
same text. -/
def Unmasked (parts : List Part) : Prop :=
  ∀ p, parts.find? (isPlain toLowerCase) = some p →
    ∀ q, (before toLowerCase parts).find? isUntyped = some q → text q = text p

end Choice

variable {toLowerCase : DartString → DartString} {parts : List Part} {p : Part}

theorem lower_nil_iff (hlower : Lowers toLowerCase) {s : DartString} :
    toLowerCase s = [] ↔ s = [] := by
  constructor
  · intro h
    by_contra hne
    exact hlower.ne_nil s hne h
  · intro h
    rw [h, hlower.ascii [] (by simp)]
    rfl

def stops (toLowerCase : DartString → DartString) (p : Part) : Bool :=
  isPlain toLowerCase p || isUntyped p

theorem isText_of_stops (h : stops toLowerCase p) : isText toLowerCase p := by
  rw [stops, Bool.or_eq_true] at h
  rw [isText, Bool.or_eq_true]
  rcases h with hplain | huntyped
  · rw [of_decide_eq_true hplain]
    exact Or.inr (by decide)
  · exact Or.inl huntyped

theorem or_getLast_cons (p : Part) (parts : List Part) (preferred : Option Part) :
    (p :: parts).getLast?.or preferred = parts.getLast?.or (some p) := by
  rw [List.getLast?_cons]
  cases parts.getLast? with
  | none => rfl
  | some q => rfl

theorem takes_iff (hlower : Lowers toLowerCase) :
    (toLowerCase p.mime = [] ∨ toLowerCase p.mime = textPlain ∨
      contains (toLowerCase p.mime) textUnits) ↔ isText toLowerCase p := by
  constructor
  · intro h
    rcases h with hnil | hplain | htext
    · exact isText_of_stops (by simp [stops, isUntyped, (lower_nil_iff hlower).mp hnil])
    · exact isText_of_stops (by simp [stops, isPlain, hplain])
    · simp [isText, htext]
  · intro h
    rw [isText, Bool.or_eq_true] at h
    rcases h with huntyped | htext
    · exact Or.inl ((lower_nil_iff hlower).mpr (of_decide_eq_true huntyped))
    · exact Or.inr (Or.inr htext)

theorem breaks_iff (hlower : Lowers toLowerCase) :
    (toLowerCase p.mime = textPlain ∨ toLowerCase p.mime = []) ↔ stops toLowerCase p := by
  simp [stops, isPlain, isUntyped, lower_nil_iff hlower]

theorem preferredPart_eq (hlower : Lowers toLowerCase) (preferred : Option Part)
    (parts : List Part) :
    preferredPart toLowerCase preferred parts =
      ((parts.find? (stops toLowerCase)).or
        (parts.filter (isText toLowerCase)).getLast?).or preferred := by
  induction parts generalizing preferred with
  | nil => rfl
  | cons p parts ih =>
    simp only [preferredPart, takes_iff hlower, breaks_iff hlower]
    by_cases hstops : stops toLowerCase p
    · rw [if_pos (isText_of_stops hstops), if_pos hstops, List.find?_cons_of_pos hstops]
      rfl
    · rw [List.find?_cons_of_neg hstops]
      by_cases htext : isText toLowerCase p
      · rw [if_pos htext, if_neg hstops, List.filter_cons_of_pos htext, ih, Option.or_assoc,
          Option.or_assoc, or_getLast_cons]
      · rw [if_neg htext, List.filter_cons_of_neg htext, ih]

theorem find_stops (parts : List Part) :
    parts.find? (stops toLowerCase) =
      ((before toLowerCase parts).find? isUntyped).or (parts.find? (isPlain toLowerCase)) := by
  induction parts with
  | nil => rfl
  | cons p parts ih =>
    by_cases hplain : isPlain toLowerCase p
    · simp [before, stops, hplain]
    · by_cases huntyped : isUntyped p
      · simp [before, stops, hplain, huntyped]
      · simpa [before, stops, hplain, huntyped] using ih

/-- The part that the loop leaves. -/
def chosen (toLowerCase : DartString → DartString) (parts : List Part) : Option Part :=
  (parts.find? (stops toLowerCase)).or (parts.filter (isText toLowerCase)).getLast?

theorem chosen_isText (h : chosen toLowerCase parts = some p) :
    p ∈ parts ∧ isText toLowerCase p := by
  rcases Option.or_eq_some_iff.mp h with hstops | ⟨-, hlast⟩
  · exact ⟨List.mem_of_find?_eq_some hstops, isText_of_stops (List.find?_some hstops)⟩
  · exact List.mem_filter.mp (List.mem_of_getLast? hlast)

theorem any_of_chosen (h : chosen toLowerCase parts = some p) :
    parts.any (isText toLowerCase) := by
  obtain ⟨hmem, htext⟩ := chosen_isText h
  exact List.any_eq_true.mpr ⟨p, hmem, htext⟩

theorem not_any_of_chosen (h : chosen toLowerCase parts = none) :
    ¬parts.any (isText toLowerCase) := by
  obtain ⟨-, hlast⟩ := Option.or_eq_none_iff.mp h
  rw [List.getLast?_eq_none_iff, List.filter_eq_nil_iff] at hlast
  intro hany
  obtain ⟨p, hp, htext⟩ := List.any_eq_true.mp hany
  exact hlast p hp htext

theorem applyClipboardWrite_eq (hlower : Lowers toLowerCase) (hne : parts ≠ []) :
    applyClipboardWrite toLowerCase parts =
      match chosen toLowerCase parts with
      | none => .lastError (unsupported parts)
      | some p => .setData (text p) := by
  rw [applyClipboardWrite, if_neg hne, preferredPart_eq hlower, Option.or_none]
  rfl

theorem preferred_of_no_plain (hlower : Lowers toLowerCase) (hne : parts ≠ [])
    (hnone : parts.find? (isPlain toLowerCase) = none) :
    Preferred toLowerCase parts (applyClipboardWrite toLowerCase parts) := by
  rw [applyClipboardWrite_eq hlower hne]
  cases hchosen : chosen toLowerCase parts with
  | none =>
    have hany := not_any_of_chosen hchosen
    exact ⟨fun p hp ↦ by simp [hnone] at hp, fun _ h ↦ absurd h hany, fun _ _ ↦ rfl⟩
  | some p =>
    obtain ⟨hmem, htext⟩ := chosen_isText hchosen
    exact ⟨fun p hp ↦ by simp [hnone] at hp, fun _ _ ↦ ⟨p, hmem, htext, rfl⟩,
      fun _ h ↦ absurd (any_of_chosen hchosen) h⟩

theorem written_of_plain (hlower : Lowers toLowerCase)
    (hp : parts.find? (isPlain toLowerCase) = some p) :
    applyClipboardWrite toLowerCase parts =
      .setData (text (((before toLowerCase parts).find? isUntyped).getD p)) := by
  have hne : parts ≠ [] := by
    intro hnil
    simp [hnil] at hp
  rw [applyClipboardWrite_eq hlower hne, chosen, find_stops, hp]
  cases (before toLowerCase parts).find? isUntyped with
  | none => rfl
  | some q => rfl

theorem preferred_iff (hlower : Lowers toLowerCase) (hne : parts ≠ []) :
    Preferred toLowerCase parts (applyClipboardWrite toLowerCase parts) ↔
      Unmasked toLowerCase parts := by
  cases hplain : parts.find? (isPlain toLowerCase) with
  | none =>
    have hunmasked : Unmasked toLowerCase parts := by
      intro p hp
      simp [hplain] at hp
    exact ⟨fun _ ↦ hunmasked, fun _ ↦ preferred_of_no_plain hlower hne hplain⟩
  | some p =>
    rw [written_of_plain hlower hplain]
    constructor
    · intro h p' hp' q hq
      have hwritten := h.plain p' hp'
      rw [hq, Option.getD_some] at hwritten
      exact Effect.setData.inj hwritten
    · intro h
      have hsame : text (((before toLowerCase parts).find? isUntyped).getD p) = text p := by
        cases hq : (before toLowerCase parts).find? isUntyped with
        | none => rfl
        | some q => exact h p hplain q hq
      refine ⟨?_, fun hnone ↦ ?_, fun hnone ↦ ?_⟩
      · intro p' hp'
        obtain rfl : p = p' := Option.some.inj (hplain.symm.trans hp')
        rw [hsame]
      · simp [hplain] at hnone
      · simp [hplain] at hnone

theorem lowers_ascii : Lowers (List.map asciiLower) where
  ascii _ _ := rfl
  ne_nil s hs := by simpa using hs

def untyped : Part := ⟨[], [0x61]⟩

def plainText : Part := ⟨textPlain, [0x62]⟩

theorem preferred_iff_plainText :
    Preferred (List.map asciiLower) [plainText, untyped]
        (applyClipboardWrite (List.map asciiLower) [plainText, untyped]) ↔
      Unmasked (List.map asciiLower) [plainText, untyped] :=
  preferred_iff lowers_ascii (by simp)

/-- A part without a type in front of the plain text is written instead. -/
theorem not_preferred_untyped : ¬∀ toLowerCase parts, Lowers toLowerCase → parts ≠ [] →
    Preferred toLowerCase parts (applyClipboardWrite toLowerCase parts) := by
  intro h
  have hwritten := (h _ [untyped, plainText] lowers_ascii (by simp)).plain plainText
  revert hwritten
  decide

end MachineNotebook.Session.Clipboard
