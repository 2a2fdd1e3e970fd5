import MachineNotebook.Lib.Binary64
import MachineNotebook.Lib.Json
import MachineNotebook.Lib.Utf8

namespace MachineNotebook.Host.JsonText

open MachineNotebook.Lib MachineNotebook.Lib.Utf8 MachineNotebook.Lib.Json

section Debug

/-- The Unicode tables of the standard library, whatever their version: all agree on ASCII. -/
structure UnicodeTables where
  graphemeExtended : Char → Bool
  printable : Char → Bool
  ascii : ∀ c, c.toNat < 0x7f → graphemeExtended c = false ∧ printable c = decide (' ' ≤ c)

def escapeUnicode (c : Char) : List Char :=
  '\\' :: 'u' :: '\x7b' :: Nat.toDigits 16 c.toNat ++ ['\x7d']

/-- `char::escape_debug` as it stands within a `str`. -/
def escapeDebug (tables : UnicodeTables) (c : Char) : List Char :=
  if c = '\x00' then ['\\', '0']
  else if c = '\t' then ['\\', 't']
  else if c = '\r' then ['\\', 'r']
  else if c = '\n' then ['\\', 'n']
  else if c = '\\' then ['\\', '\\']
  else if c = '"' then ['\\', '"']
  else if tables.graphemeExtended c then escapeUnicode c
  else if tables.printable c then [c]
  else escapeUnicode c

def debugStr (tables : UnicodeTables) (s : String) : List Char :=
  '"' :: s.toList.flatMap (escapeDebug tables) ++ ['"']

end Debug

section Encoders

variable (tables : UnicodeTables)

def pushItems {α : Type} (text : α → List Char) : ℕ → List Char → List α → List Char
  | _, s, [] => s
  | i, s, item :: items =>
    pushItems text (i + 1) ((if i > 0 then s ++ [','] else s) ++ text item) items

structure DirEntry where
  name : String
  isDir : Bool
  isSymlink : Bool

def DirEntry.type (e : DirEntry) : String :=
  if e.isDir then "directory" else if e.isSymlink then "symlink" else "file"

def entryText (e : DirEntry) : List Char :=
  "\x7b\"name\":".toList ++ debugStr tables e.name ++ ",\"type\":".toList ++
    debugStr tables e.type ++ "\x7d".toList

def readdirText (entries : List DirEntry) : List Char :=
  pushItems (entryText tables) 0 "[".toList entries ++ "]".toList

structure AutocompleteItem where
  label : String
  value : String
  kind : String

structure AutocompleteResult where
  replaceStart : UInt32
  replaceEnd : UInt32
  commonPrefix : String
  truncated : Bool
  items : List AutocompleteItem

def itemText (it : AutocompleteItem) : List Char :=
  "\x7b\"label\":".toList ++ debugStr tables it.label ++ ",\"value\":".toList ++
    debugStr tables it.value ++ ",\"kind\":".toList ++ debugStr tables it.kind ++ "\x7d".toList

def autocompleteText (r : AutocompleteResult) : List Char :=
  let s := "\x7b\"replace_start\":".toList ++ Nat.toDigits 10 r.replaceStart.toNat ++
    ",\"replace_end\":".toList ++ Nat.toDigits 10 r.replaceEnd.toNat ++
    ",\"common_prefix\":".toList ++ debugStr tables r.commonPrefix ++ ",\"truncated\":".toList ++
    (if r.truncated then "true" else "false").toList ++ ",\"items\":[".toList
  pushItems (itemText tables) 0 s r.items ++ "]\x7d".toList

def aosVmReaddir (entries : List DirEntry) : Bytes :=
  toUtf8 (String.ofList (readdirText tables entries))

def aosVmAutocomplete (r : AutocompleteResult) : Bytes :=
  toUtf8 (String.ofList (autocompleteText tables r))

structure CatalogApplyStatus where
  generation : UInt64
  digest : String
  tools : UInt64

/-- A number of the `json` crate is a double. -/
def statusObj (s : CatalogApplyStatus) : Value :=
  .obj [("generation".toList, .num (Binary64.ofNat s.generation.toNat)),
    ("digest".toList, .str s.digest.toList), ("tools".toList, .num (Binary64.ofNat s.tools.toNat))]

def encodeStatus (jsonToString : Value → String) (status : Option CatalogApplyStatus) : Bytes :=
  match status with
  | none => []
  | some s => toUtf8 (jsonToString (statusObj s))

end Encoders

section Statements

def decodeBytes (bytes : Bytes) : Option Value := (fromUtf8 bytes).bind fun s ↦ decode s.toList

def entryValue (e : DirEntry) : Value :=
  .obj [("name".toList, .str e.name.toList), ("type".toList, .str e.type.toList)]

def itemValue (it : AutocompleteItem) : Value :=
  .obj [("label".toList, .str it.label.toList), ("value".toList, .str it.value.toList),
    ("kind".toList, .str it.kind.toList)]

def resultValue (r : AutocompleteResult) : Value :=
  .obj [("replace_start".toList, .num r.replaceStart.toNat),
    ("replace_end".toList, .num r.replaceEnd.toNat),
    ("common_prefix".toList, .str r.commonPrefix.toList),
    ("truncated".toList, .bool r.truncated), ("items".toList, .arr (r.items.map itemValue))]

def generationOf (readNum : ℚ → ℚ) : Value → Option ℚ
  | .obj members =>
    match members.find? fun m ↦ m.1 = "generation".toList with
    | some (_, .num q) => some (readNum q)
    | _ => none
  | _ => none

/-- What the `json` crate writes for the status denotes it, to a reader that gets each double back
from the numeral written for it. -/
def StatusRead (readNum : ℚ → ℚ) (jsonToString : Value → String) (s : CatalogApplyStatus) : Prop :=
  ∃ generation tools, decode (jsonToString (statusObj s)).toList =
      some (.obj [("generation".toList, .num generation), ("digest".toList, .str s.digest.toList),
        ("tools".toList, .num tools)]) ∧
    readNum generation = Binary64.ofNat s.generation.toNat ∧
    readNum tools = Binary64.ofNat s.tools.toNat

def Kept (tables : UnicodeTables) (c : Char) : Prop :=
  c ≠ '\x00' ∧ (c ∈ ['\t', '\r', '\n', '\\', '"'] ∨
    tables.graphemeExtended c = false ∧ tables.printable c = true)

instance (tables : UnicodeTables) : DecidablePred (Kept tables) :=
  fun _ ↦ inferInstanceAs (Decidable (_ ∧ (_ ∨ _ ∧ _)))

def KeptChars (tables : UnicodeTables) (s : List Char) : Prop := ∀ c ∈ s, Kept tables c

instance (tables : UnicodeTables) : DecidablePred (KeptChars tables) :=
  List.decidableBAll (Kept tables)

def KeptStr (tables : UnicodeTables) (s : String) : Prop := KeptChars tables s.toList

instance (tables : UnicodeTables) : DecidablePred (KeptStr tables) :=
  fun s ↦ inferInstanceAs (Decidable (KeptChars tables s.toList))

def KeptItem (tables : UnicodeTables) (it : AutocompleteItem) : Prop :=
  KeptStr tables it.label ∧ KeptStr tables it.value ∧ KeptStr tables it.kind

instance (tables : UnicodeTables) : DecidablePred (KeptItem tables) :=
  fun _ ↦ inferInstanceAs (Decidable (_ ∧ _ ∧ _))

def KeptResult (tables : UnicodeTables) (r : AutocompleteResult) : Prop :=
  KeptStr tables r.commonPrefix ∧ ∀ it ∈ r.items, KeptItem tables it

instance (tables : UnicodeTables) : DecidablePred (KeptResult tables) :=
  fun r ↦ inferInstanceAs (Decidable (_ ∧ ∀ it ∈ r.items, KeptItem tables it))

end Statements

section Strings

variable {tables : UnicodeTables} {c : Char}

theorem kept_of_ascii (hc : ' ' ≤ c ∧ c.toNat < 0x7f) : Kept tables c := by
  obtain ⟨hspace, hlt⟩ := hc
  obtain ⟨hextended, hprintable⟩ := tables.ascii c hlt
  refine ⟨?_, .inr ⟨hextended, hprintable.trans (decide_eq_true hspace)⟩⟩
  intro h0
  subst h0
  revert hspace
  decide

theorem space_le_of_printable (hc : tables.printable c = true) : ' ' ≤ c := by
  by_cases hlt : c.toNat < 0x7f
  · rw [(tables.ascii c hlt).2] at hc
    exact of_decide_eq_true hc
  · have hspace : ' '.toNat ≤ c.toNat := by
      have h32 : ' '.toNat = 32 := rfl
      omega
    exact Char.le_def.mpr (UInt32.le_iff_toNat_le.mpr hspace)

theorem chars_escapeUnicode (c : Char) (rest : List Char) :
    chars (escapeUnicode c ++ rest) = none :=
  chars_braces

theorem not_kept_escape (h : c ∉ ['\t', '\r', '\n', '\\', '"'])
    (hu : tables.graphemeExtended c = true ∨ tables.printable c = false) : ¬Kept tables c := by
  intro hk
  obtain ⟨hextended, hprintable⟩ := hk.2.resolve_left h
  rcases hu with hu | hu
  · rw [hextended] at hu
    cases hu
  · rw [hprintable] at hu
    cases hu

/-- The escape of a character is read as that character, or makes the string none of JSON. -/
theorem chars_escapeDebug (c : Char) (rest : List Char) :
    chars (escapeDebug tables c ++ rest) =
      if Kept tables c then (chars rest).map (push c) else none := by
  by_cases h0 : c = '\x00'
  · rw [escapeDebug, if_pos h0, if_neg fun hk ↦ hk.1 h0]
    exact chars_not_escape (by decide) rfl
  by_cases hlisted : c ∈ ['\t', '\r', '\n', '\\', '"']
  · rw [if_pos ⟨h0, .inl hlisted⟩]
    simp only [List.mem_cons, List.not_mem_nil, or_false] at hlisted
    rcases hlisted with rfl | rfl | rfl | rfl | rfl <;> exact chars_escape (by decide) rfl
  · have hlisted' := hlisted
    simp only [List.mem_cons, List.not_mem_nil, or_false, not_or] at hlisted'
    obtain ⟨htab, hcr, hlf, hslash, hquote⟩ := hlisted'
    simp only [escapeDebug, if_neg h0, if_neg htab, if_neg hcr, if_neg hlf, if_neg hslash,
      if_neg hquote]
    by_cases hextended : tables.graphemeExtended c = true
    · rw [if_pos hextended, if_neg (not_kept_escape hlisted (.inl hextended))]
      exact chars_escapeUnicode c rest
    · rw [if_neg hextended]
      by_cases hprintable : tables.printable c = true
      · rw [if_pos hprintable, if_pos ⟨h0, .inr ⟨Bool.not_eq_true _ ▸ hextended, hprintable⟩⟩]
        exact chars_literal ⟨hquote, hslash, space_le_of_printable hprintable⟩
      · rw [if_neg hprintable,
          if_neg (not_kept_escape hlisted (.inr (Bool.not_eq_true _ ▸ hprintable)))]
        exact chars_escapeUnicode c rest

theorem keptChars_cons {s : List Char} :
    KeptChars tables (c :: s) ↔ Kept tables c ∧ KeptChars tables s :=
  List.forall_mem_cons

theorem chars_debug (tables : UnicodeTables) (s rest : List Char) :
    chars (s.flatMap (escapeDebug tables) ++ '"' :: rest) =
      (if KeptChars tables s then some s else none).map fun s ↦ (s, rest) := by
  induction s with
  | nil =>
    have hnil : KeptChars tables [] := List.forall_mem_nil _
    rw [if_pos hnil]
    exact chars_quote rest
  | cons c s ih =>
    rw [List.flatMap_cons, List.append_assoc, chars_escapeDebug, ih]
    by_cases hc : Kept tables c
    · by_cases hs : KeptChars tables s
      · rw [if_pos hc, if_pos hs, if_pos (keptChars_cons.mpr ⟨hc, hs⟩)]
        rfl
      · rw [if_pos hc, if_neg hs, if_neg fun h ↦ hs (keptChars_cons.mp h).2]
        rfl
    · rw [if_neg hc, if_neg fun h ↦ hc (keptChars_cons.mp h).1]
      rfl

theorem gives_debugStr (s : String) :
    Gives 1 (debugStr tables s) (if KeptStr tables s then some (.str s.toList) else none) := by
  have hgives := gives_str (chars_debug tables s.toList)
  rwa [apply_ite (Option.map Value.str)] at hgives

end Strings

section Objects

variable {tables : UnicodeTables}

def fieldsText (tables : UnicodeTables) (fields : List (List Char × String)) : List Char :=
  '\x7b' :: commas (fields.map fun f ↦ memberText f.1 (debugStr tables f.2)) ++ ['\x7d']

def fieldsValue (fields : List (List Char × String)) : Value :=
  .obj (fields.map fun f ↦ (f.1, .str f.2.toList))

theorem gives_fields (tables : UnicodeTables) {fields : List (List Char × String)}
    (hne : fields ≠ []) (hkeys : ∀ f ∈ fields, Literals f.1) :
    Gives (1 + fields.length + 1) (fieldsText tables fields)
      (if ∀ f ∈ fields, KeptStr tables f.2 then some (fieldsValue fields) else none) := by
  let member : List Char × String → Member := fun f ↦
    (f.1, debugStr tables f.2, if KeptStr tables f.2 then some (.str f.2.toList) else none)
  have hmembers : ∀ m ∈ fields.map member, m.Gives 1 := by
    intro m hm
    obtain ⟨f, hf, rfl⟩ := List.mem_map.mp hm
    exact ⟨hkeys f hf, gives_debugStr f.2⟩
  have hgiven : (fields.map member).map Member.given =
      fields.map fun f ↦ if KeptStr tables f.2 then some (f.1, Value.str f.2.toList) else none := by
    rw [List.map_map]
    apply List.map_congr_left
    intro f _
    exact apply_ite (Option.map fun v ↦ (f.1, v)) _ _ _
  have htexts : (fields.map member).map Member.text =
      fields.map fun f ↦ memberText f.1 (debugStr tables f.2) := List.map_map
  have hgives := gives_obj (by simpa using hne : fields.map member ≠ []) hmembers
  rwa [List.length_map, htexts, hgiven, collect_map_ite, apply_ite (Option.map Value.obj)] at hgives

def entryFields (e : DirEntry) : List (List Char × String) :=
  [("name".toList, e.name), ("type".toList, e.type)]

theorem entryText_eq (e : DirEntry) : entryText tables e = fieldsText tables (entryFields e) := by
  have hname : "\x7b\"name\":".toList = '\x7b' :: '"' :: "name".toList ++ ['"', ':'] := rfl
  have htype : ",\"type\":".toList = ',' :: '"' :: "type".toList ++ ['"', ':'] := rfl
  have hbrace : "\x7d".toList = ['\x7d'] := rfl
  unfold entryText
  simp only [fieldsText, entryFields, hname, htype, hbrace, List.map_cons, List.map_nil, commas,
    memberText, List.cons_append, List.append_assoc, List.nil_append]

def itemFields (it : AutocompleteItem) : List (List Char × String) :=
  [("label".toList, it.label), ("value".toList, it.value), ("kind".toList, it.kind)]

theorem itemText_eq (it : AutocompleteItem) :
    itemText tables it = fieldsText tables (itemFields it) := by
  have hlabel : "\x7b\"label\":".toList = '\x7b' :: '"' :: "label".toList ++ ['"', ':'] := rfl
  have hvalue : ",\"value\":".toList = ',' :: '"' :: "value".toList ++ ['"', ':'] := rfl
  have hkind : ",\"kind\":".toList = ',' :: '"' :: "kind".toList ++ ['"', ':'] := rfl
  have hbrace : "\x7d".toList = ['\x7d'] := rfl
  unfold itemText
  simp only [fieldsText, itemFields, hlabel, hvalue, hkind, hbrace, List.map_cons, List.map_nil,
    commas, memberText, List.cons_append, List.append_assoc, List.nil_append]

theorem keptStr_type (e : DirEntry) : KeptStr tables e.type := by
  have hletters : ∀ isDir isSymlink : Bool, (DirEntry.type ⟨"", isDir, isSymlink⟩).toList.all
      fun c ↦ ' ' ≤ c ∧ c.toNat < 0x7f := by
    decide
  intro c hc
  have hletter := List.all_eq_true.mp (hletters e.isDir e.isSymlink) c hc
  exact kept_of_ascii (of_decide_eq_true hletter)

theorem gives_entry (e : DirEntry) :
    Gives 4 (entryText tables e) (if KeptStr tables e.name then some (entryValue e) else none) := by
  have hkeys : ∀ key ∈ ["name".toList, "type".toList], Literals key := by decide
  have hkept : (∀ f ∈ entryFields e, KeptStr tables f.2) ↔ KeptStr tables e.name := by
    simp [entryFields, keptStr_type]
  have hne : entryFields e ≠ [] := List.cons_ne_nil _ _
  have hgives := gives_fields tables hne fun f hf ↦
    hkeys f.1 (List.mem_map_of_mem hf : f.1 ∈ (entryFields e).map Prod.fst)
  rw [entryText_eq, ← if_congr hkept rfl rfl]
  exact hgives

theorem gives_item (it : AutocompleteItem) :
    Gives 5 (itemText tables it) (if KeptItem tables it then some (itemValue it) else none) := by
  have hkeys : ∀ key ∈ ["label".toList, "value".toList, "kind".toList], Literals key := by
    decide
  have hkept : (∀ f ∈ itemFields it, KeptStr tables f.2) ↔ KeptItem tables it := by
    simp [itemFields, KeptItem]
  have hne : itemFields it ≠ [] := List.cons_ne_nil _ _
  have hgives := gives_fields tables hne fun f hf ↦
    hkeys f.1 (List.mem_map_of_mem hf : f.1 ∈ (itemFields it).map Prod.fst)
  rw [itemText_eq, ← if_congr hkept rfl rfl]
  exact hgives

end Objects

section Texts

theorem pushItems_pos (text : α → List Char) {i : ℕ} (hi : 0 < i) (s : List Char)
    (items : List α) :
    pushItems text i s items = s ++ (items.map text).flatMap fun t ↦ ',' :: t := by
  induction items generalizing i s with
  | nil => simp [pushItems]
  | cons item items ih =>
    rw [pushItems, if_pos hi, ih (Nat.succ_pos i)]
    simp

theorem pushItems_zero {α : Type} (text : α → List Char) (s : List Char) (items : List α) :
    pushItems text 0 s items = s ++ commas (items.map text) := by
  cases items with
  | nil => simp [pushItems, commas]
  | cons item items =>
    rw [pushItems, if_neg (Nat.lt_irrefl 0), pushItems_pos text (Nat.succ_pos 0), List.map_cons,
      commas_cons, List.append_assoc]

theorem decodeBytes_toUtf8 (text : List Char) :
    decodeBytes (toUtf8 (String.ofList text)) = decode text := by
  rw [decodeBytes, fromUtf8_toUtf8, Option.bind_some, String.toList_ofList]

theorem decode_readdir (entries : List DirEntry) :
    decodeBytes (aosVmReaddir tables entries) =
      if ∀ e ∈ entries, KeptStr tables e.name then some (.arr (entries.map entryValue))
      else none := by
  have htext : readdirText tables entries =
      '[' :: commas (entries.map (entryText tables)) ++ [']'] := by
    unfold readdirText
    rw [pushItems_zero]
    rfl
  have hlength : entries.length ≤ (commas (entries.map (entryText tables))).length :=
    length_le_commas_map gives_entry entries
  rw [aosVmReaddir, decodeBytes_toUtf8, htext]
  apply (gives_arr_map gives_entry entries).decode
  simp only [List.cons_append, List.length_cons, List.length_append]
  omega

/-- The members of a result, with what each is read as. -/
def resultMembers (tables : UnicodeTables) (r : AutocompleteResult) : List Member :=
  [("replace_start".toList, Nat.toDigits 10 r.replaceStart.toNat,
      some (.num r.replaceStart.toNat)),
    ("replace_end".toList, Nat.toDigits 10 r.replaceEnd.toNat, some (.num r.replaceEnd.toNat)),
    ("common_prefix".toList, debugStr tables r.commonPrefix,
      if KeptStr tables r.commonPrefix then some (.str r.commonPrefix.toList) else none),
    ("truncated".toList,
      if r.truncated then ['t', 'r', 'u', 'e'] else ['f', 'a', 'l', 's', 'e'],
      some (.bool r.truncated)),
    ("items".toList, '[' :: commas (r.items.map (itemText tables)) ++ [']'],
      if ∀ it ∈ r.items, KeptItem tables it then some (.arr (r.items.map itemValue)) else none)]

theorem autocompleteText_eq (r : AutocompleteResult) :
    autocompleteText tables r =
      '\x7b' :: commas ((resultMembers tables r).map Member.text) ++ ['\x7d'] := by
  have hstart : "\x7b\"replace_start\":".toList =
      '\x7b' :: '"' :: "replace_start".toList ++ ['"', ':'] := rfl
  have hend : ",\"replace_end\":".toList = ',' :: '"' :: "replace_end".toList ++ ['"', ':'] := rfl
  have hcommon : ",\"common_prefix\":".toList =
      ',' :: '"' :: "common_prefix".toList ++ ['"', ':'] := rfl
  have htruncated : ",\"truncated\":".toList =
      ',' :: '"' :: "truncated".toList ++ ['"', ':'] := rfl
  have hbool : (if r.truncated then "true" else "false").toList =
      if r.truncated then ['t', 'r', 'u', 'e'] else ['f', 'a', 'l', 's', 'e'] := by
    cases r.truncated <;> rfl
  have hitems : ",\"items\":[".toList = ',' :: '"' :: "items".toList ++ ['"', ':', '['] := rfl
  have hclose : "]\x7d".toList = [']', '\x7d'] := rfl
  unfold autocompleteText
  simp only [pushItems_zero, resultMembers, hstart, hend, hcommon, htruncated, hbool, hitems,
    hclose, List.map_cons, List.map_nil, commas, Member.text, memberText, List.cons_append,
    List.append_assoc, List.nil_append]

theorem gives_result (r : AutocompleteResult) :
    Gives (r.items.length + 12) (autocompleteText tables r)
      (if KeptResult tables r then some (resultValue r) else none) := by
  have hkeys : ∀ key ∈ ["replace_start".toList, "replace_end".toList, "common_prefix".toList,
      "truncated".toList, "items".toList], Literals key := by
    decide
  simp only [List.forall_mem_cons, List.not_mem_nil, false_implies, implies_true, and_true]
    at hkeys
  obtain ⟨hstart, hend, hcommon, htruncated, hitems⟩ := hkeys
  have hone : 1 ≤ 5 + r.items.length + 1 := by omega
  have hmembers : ∀ m ∈ resultMembers tables r, m.Gives (5 + r.items.length + 1) := by
    simp only [resultMembers, List.forall_mem_cons, List.not_mem_nil, false_implies,
      implies_true, and_true]
    exact ⟨⟨hstart, (gives_nat _).mono hone⟩, ⟨hend, (gives_nat _).mono hone⟩,
      ⟨hcommon, (gives_debugStr _).mono hone⟩, ⟨htruncated, (gives_bool _).mono hone⟩,
      ⟨hitems, gives_arr_map gives_item r.items⟩⟩
  have hne : resultMembers tables r ≠ [] := List.cons_ne_nil _ _
  have hgiven : (collect ((resultMembers tables r).map Member.given)).map Value.obj =
      if KeptResult tables r then some (resultValue r) else none := by
    unfold resultMembers
    by_cases hcommon : KeptStr tables r.commonPrefix
    · by_cases hitems : ∀ it ∈ r.items, KeptItem tables it
      · have hkept : KeptResult tables r := ⟨hcommon, hitems⟩
        rw [if_pos hcommon, if_pos hitems, if_pos hkept]
        rfl
      · have hkept : ¬KeptResult tables r := fun h ↦ hitems h.2
        rw [if_pos hcommon, if_neg hitems, if_neg hkept]
        rfl
    · have hkept : ¬KeptResult tables r := fun h ↦ hcommon h.1
      rw [if_neg hcommon, if_neg hkept]
      rfl
  have hgives := gives_obj hne hmembers
  rw [← autocompleteText_eq, hgiven] at hgives
  apply hgives.mono
  simp only [resultMembers, List.length_cons, List.length_nil]
  omega

theorem decode_autocomplete (r : AutocompleteResult) :
    decodeBytes (aosVmAutocomplete tables r) =
      if KeptResult tables r then some (resultValue r) else none := by
  have hlength : r.items.length ≤ (commas (r.items.map (itemText tables))).length :=
    length_le_commas_map gives_item r.items
  rw [aosVmAutocomplete, decodeBytes_toUtf8]
  apply (gives_result r).decode
  rw [autocompleteText_eq]
  simp only [resultMembers, List.map_cons, List.map_nil, commas, Member.text, memberText,
    List.cons_append, List.length_cons, List.length_append]
  omega

end Texts

section Decoding

variable {readNum : ℚ → ℚ} {jsonToString : Value → String} {status : CatalogApplyStatus}

theorem StatusRead.generation (hread : StatusRead readNum jsonToString status) :
    (decodeBytes (encodeStatus jsonToString (some status))).bind (generationOf readNum) =
      some (Binary64.ofNat status.generation.toNat : ℚ) := by
  obtain ⟨generation, tools, hdecode, hgeneration, -⟩ := hread
  rw [encodeStatus, decodeBytes, fromUtf8_toUtf8, Option.bind_some, hdecode, ← hgeneration]
  rfl

/-- The texts are decoded to what was written exactly if the Debug format wrote every string as JSON
does and the generation is a double. -/
theorem texts_decode_iff (tables : UnicodeTables) (entries : List DirEntry) (r : AutocompleteResult)
    (hread : StatusRead readNum jsonToString status) :
    (decodeBytes (aosVmReaddir tables entries) = some (.arr (entries.map entryValue)) ↔
      ∀ e ∈ entries, KeptStr tables e.name) ∧
    (decodeBytes (aosVmAutocomplete tables r) = some (resultValue r) ↔ KeptResult tables r) ∧
    ((decodeBytes (encodeStatus jsonToString (some status))).bind (generationOf readNum) =
        some (status.generation.toNat : ℚ) ↔
      Binary64.ulp status.generation.toNat ∣ status.generation.toNat) := by
  refine ⟨?_, ?_, ?_⟩
  · rw [decode_readdir]
    simp
  · rw [decode_autocomplete]
    simp
  · rw [hread.generation, ← Binary64.ofNat_eq_iff, Option.some_inj, Nat.cast_inj]

def asciiTables : UnicodeTables where
  graphemeExtended _ := false
  printable c := decide (' ' ≤ c ∧ c.toNat ≠ 0x7f)
  ascii c hc := by
    have hne : c.toNat ≠ 0x7f := by omega
    simp [hne]

def sampleStatus : CatalogApplyStatus := ⟨7, "ab", 2⟩

def sampleText : String := "\x7b\"generation\":7,\"digest\":\"ab\",\"tools\":2\x7d"

theorem decode_sampleText :
    decode sampleText.toList = some (.obj [("generation".toList, .num (7 : ℕ)),
      ("digest".toList, .str "ab".toList), ("tools".toList, .num (2 : ℕ))]) := by
  let members : List Member :=
    [("generation".toList, Nat.toDigits 10 7, some (.num (7 : ℕ))),
      ("digest".toList, '"' :: "ab".toList ++ ['"'], some (.str "ab".toList)),
      ("tools".toList, Nat.toDigits 10 2, some (.num (2 : ℕ)))]
  have hdigest : Gives 1 ('"' :: "ab".toList ++ ['"']) (some (.str "ab".toList)) :=
    gives_str (o := some "ab".toList) (chars_literals (by decide))
  have hmembers : ∀ m ∈ members, m.Gives 1 := by
    simp only [members, List.forall_mem_cons, List.not_mem_nil, false_implies, implies_true,
      and_true]
    exact ⟨⟨by decide, gives_nat 7⟩, ⟨by decide, hdigest⟩, ⟨by decide, gives_nat 2⟩⟩
  have htext : sampleText.toList = '\x7b' :: commas (members.map Member.text) ++ ['\x7d'] := by
    decide
  rw [htext]
  exact (gives_obj (List.cons_ne_nil _ _) hmembers).decode (by decide)

theorem statusRead_sample : StatusRead id (fun _ ↦ sampleText) sampleStatus :=
  ⟨(7 : ℕ), (2 : ℕ), decode_sampleText, rfl, rfl⟩

theorem texts_decode_sample :
    decodeBytes (aosVmReaddir asciiTables [⟨"a\nb", true, false⟩]) =
        some (.arr [entryValue ⟨"a\nb", true, false⟩]) ∧
      decodeBytes (aosVmAutocomplete asciiTables ⟨0, 1, "c", false, [⟨"cd", "cd", "command"⟩]⟩) =
        some (resultValue ⟨0, 1, "c", false, [⟨"cd", "cd", "command"⟩]⟩) ∧
      (decodeBytes (encodeStatus (fun _ ↦ sampleText) (some sampleStatus))).bind
        (generationOf id) = some (7 : ℕ) := by
  obtain ⟨hreaddir, hautocomplete, hstatus⟩ := texts_decode_iff asciiTables
    [⟨"a\nb", true, false⟩] ⟨0, 1, "c", false, [⟨"cd", "cd", "command"⟩]⟩ statusRead_sample
  exact ⟨hreaddir.mpr (by decide), hautocomplete.mpr (by decide), hstatus.mpr (by decide)⟩

/-- The escape of U+001B is none of JSON. -/
theorem not_decodes_escape :
    decodeBytes (aosVmReaddir asciiTables [⟨"\x1b", false, false⟩]) ≠
      some (.arr [entryValue ⟨"\x1b", false, false⟩]) := by
  have hnone : decodeBytes (aosVmReaddir asciiTables [⟨"\x1b", false, false⟩]) = none := by
    rw [decode_readdir, if_neg (by decide)]
  rw [hnone]
  exact (Option.some_ne_none _).symm

end Decoding

end MachineNotebook.Host.JsonText
