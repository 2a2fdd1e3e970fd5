import MachineNotebook.Host.Connections
import Mathlib.Data.List.DropRight

namespace MachineNotebook.Host.Catalog

open MachineNotebook.Lib.Utf8 Error MachineNotebook.Host.Connections

abbrev Object := List (String × Json)

inductive JsonError
  | parse
  | shape

structure CatalogLib where
  jsonParse : String → Except JsonError Json
  debugStr : String → String
  debugChar : Char → String

structure HostToolDef where
  address : String
  description : String
  bindingName : String
  argsMode : String
  inputSchema : Option String
  outputSchema : Option String
  annotations : Option String
  deriving DecidableEq

inductive CatalogSpecSource
  | bytes (bytes : Bytes) (format sourceFormat baseUrl endpoint : Option String)
  | path (path : String) (format sourceFormat baseUrl endpoint : Option String)
  | url (url : String) (format sourceFormat baseUrl endpoint : Option String)
  deriving DecidableEq

structure CatalogConnection where
  reference : String
  spec : Option CatalogSpecSource
  tools : List String
  deriving DecidableEq

structure CatalogInjectOptions where
  compilerWasm : Bytes
  connections : List CatalogConnection
  tools : List String
  hostTools : List HostToolDef
  generation : UInt64
  deriving DecidableEq

section Fields

def getField (obj : Object) (key : String) : Option Json := objGet obj key

def optStr (obj : Object) (key : String) : Option String :=
  match getField obj key with
  | none | some .null => none
  | some (.str s) => if s = "" then none else some s
  | some _ => none

def requireStr (debugStr : String → String) (obj : Object) (key ctx : String) :
    Except String String :=
  match getField obj key with
  | some (.str s) => if s ≠ "" then .ok s else .error (ctx ++ "." ++ key ++ " must be a non-empty string")
  | some _ => .error (ctx ++ "." ++ key ++ " must be a string")
  | none => .error (ctx ++ " missing required string field " ++ debugStr key)

def orAbsent {α : Type} (absent : α) (read : Json → Except String α) : Option Json → Except String α
  | none | some .null => .ok absent
  | some v => read v

end Fields

section Hex

def hexNibble (debugChar : Char → String) (b : UInt8) : Except String UInt8 :=
  if 48 ≤ b ∧ b ≤ 57 then .ok (b - 48)
  else if 97 ≤ b ∧ b ≤ 102 then .ok (b - 97 + 10)
  else if 65 ≤ b ∧ b ≤ 70 then .ok (b - 65 + 10)
  else .error ("invalid hex digit " ++ debugChar (Char.ofNat b.toNat))

/-- The loop over the bytes, two at a time. The length is even, so the last one is not alone. -/
def decodePairs (debugChar : Char → String) : Bytes → Except String Bytes
  | [] => .ok []
  | [_] => .error "index out of bounds"
  | b :: c :: rest => do
    let hi ← hexNibble debugChar b
    let lo ← hexNibble debugChar c
    let out ← decodePairs debugChar rest
    return (hi <<< 4 ||| lo) :: out

def isWhitespace (c : Char) : Bool :=
  let v := c.toNat
  (9 ≤ v && v ≤ 13) || v == 0x20 || v == 0x85 || v == 0xA0 || v == 0x1680 ||
    (0x2000 ≤ v && v ≤ 0x200A) || v == 0x2028 || v == 0x2029 || v == 0x202F || v == 0x205F ||
    v == 0x3000

def trim (s : String) : String :=
  String.ofList ((s.toList.dropWhile isWhitespace).rdropWhile isWhitespace)

def decodeHex (debugChar : Char → String) (s : String) : Except String Bytes :=
  let s := toUtf8 (trim s)
  if s.length % 2 ≠ 0 then .error "odd length" else decodePairs debugChar s

end Hex

variable (lib : CatalogLib)

def parseHostTool (i : ℕ) (item : Json) : Except String HostToolDef :=
  let ctx := "host_tools[" ++ toString i ++ "]"
  match item.asObj with
  | none => .error (ctx ++ " must be an object")
  | some o => do
    let address ← requireStr lib.debugStr o "address" ctx
    let description := (optStr o "description").getD ""
    let bindingName ← requireStr lib.debugStr o "binding_name" ctx
    let argsMode := (optStr o "args_mode").getD "json"
    return {
      address, description, bindingName, argsMode
      inputSchema := optStr o "input_schema"
      outputSchema := optStr o "output_schema"
      annotations := optStr o "annotations" }

def parseItems {α : Type} (parse : ℕ → Json → Except String α) : ℕ → List Json → Except String (List α)
  | _, [] => .ok []
  | i, item :: items => do
    let a ← parse i item
    let rest ← parseItems parse (i + 1) items
    return a :: rest

def parseHostTools (v : Json) : Except String (List HostToolDef) :=
  match v.asArr with
  | none => .error "host_tools must be a JSON array"
  | some items => parseItems (parseHostTool lib) 0 items

def payloadBytes (o : Object) (i : ℕ) : Except String Bytes :=
  match optStr o "payload_hex" with
  | some hex =>
    (decodeHex lib.debugChar hex).mapError fun e ↦
      "connections[" ++ toString i ++ "].spec.payload_hex: " ++ e
  | none =>
    match optStr o "payload" with
    | some s => .ok (toUtf8 s)
    | none =>
      .error ("connections[" ++ toString i ++ "].spec kind=bytes requires payload or payload_hex")

def requirePayloadString (o : Object) (i : ℕ) : Except String String :=
  match optStr o "payload" with
  | some s => .ok s
  | none => .error ("connections[" ++ toString i ++ "].spec requires string field \"payload\"")

def parseSpec (v : Json) (i : ℕ) : Except String (Option CatalogSpecSource) :=
  match v.asObj with
  | none => .error ("connections[" ++ toString i ++ "].spec must be an object")
  | some o =>
    let kind := (optStr o "kind").getD "none"
    let format := optStr o "format"
    let sourceFormat := optStr o "source_format"
    let baseUrl := optStr o "base_url"
    let endpoint := optStr o "endpoint"
    if kind = "none" then .ok none
    else if kind = "bytes" then do
      let bytes ← payloadBytes lib o i
      return some (.bytes bytes format sourceFormat baseUrl endpoint)
    else if kind = "path" then do
      let path ← requirePayloadString o i
      return some (.path path format sourceFormat baseUrl endpoint)
    else if kind = "url" then do
      let url ← requirePayloadString o i
      return some (.url url format sourceFormat baseUrl endpoint)
    else
      .error ("connections[" ++ toString i ++ "].spec.kind unknown " ++ lib.debugStr kind ++
        " (want none|bytes|path|url)")

def parseConnection (i : ℕ) (item : Json) : Except String CatalogConnection :=
  let ctx := "connections[" ++ toString i ++ "]"
  match item.asObj with
  | none => .error (ctx ++ " must be an object")
  | some o => do
    let reference ← requireStr lib.debugStr o "reference" ctx
    let tools ← orAbsent [] (fun t ↦ stringArray t (ctx ++ ".tools")) (getField o "tools")
    let spec ← orAbsent none (fun s ↦ parseSpec lib s i) (getField o "spec")
    return { reference, spec, tools }

def parseConnections (v : Json) : Except String (List CatalogConnection) :=
  match v.asArr with
  | none => .error "connections must be a JSON array"
  | some items => parseItems (parseConnection lib) 0 items

def jsonErr (label : String) : JsonError → String
  | .parse => "aos_vm_inject_catalog: " ++ label ++ " is not valid JSON"
  | .shape => "aos_vm_inject_catalog: " ++ label ++ " has unexpected shape"

def parseRoot (compilerWasm : Bytes) (generation : UInt64) (obj : Object) :
    Except String CatalogInjectOptions := do
  let tools ← orAbsent [] (fun v ↦ stringArray v "tools") (getField obj "tools")
  let hostTools ← orAbsent [] (parseHostTools lib) (getField obj "host_tools")
  let connections ← orAbsent [] (parseConnections lib) (getField obj "connections")
  return { compilerWasm, connections, tools, hostTools, generation }

def parseCatalogBlob (catalog compilerWasm : Bytes) (generation : UInt64) :
    Except String CatalogInjectOptions :=
  if catalog = [] then
    .ok { compilerWasm, connections := [], tools := [], hostTools := [], generation }
  else
    match fromUtf8 catalog with
    | none => .error "aos_vm_inject_catalog: catalog_blob must be UTF-8 JSON"
    | some text => do
      let root ← (lib.jsonParse text).mapError (jsonErr "catalog_blob")
      match root.asObj with
      | none => .error "aos_vm_inject_catalog: catalog_blob root must be a JSON object"
      | some obj => parseRoot lib compilerWasm generation obj

section Statements

/-- What an optional field of an object gives: nothing where it is absent or null, the string
where it is one. -/
inductive Given (o : Object) (key : String) : Option String → Prop
  | absent : getField o key = none → Given o key none
  | null : getField o key = some .null → Given o key none
  | str {s : String} : getField o key = some (.str s) → Given o key (some s)

/-- The field as `opt_str` reads it. -/
def OptStr (o : Object) (key : String) (v : Option String) : Prop := optStr o key = v

/-- The items of a list that may be left out. -/
def ListOf {α : Type} (item : Json → α → Prop) (v : Option Json) (as : List α) : Prop :=
  (v = none ∨ v = some .null) ∧ as = [] ∨ ∃ items, v = some (.arr items) ∧ List.Forall₂ item items as

def Strings : Option Json → List String → Prop := ListOf fun item s ↦ item = .str s

def Required (o : Object) (key s : String) : Prop := getField o key = some (.str s) ∧ s ≠ ""

def HexDigit (b : UInt8) (n : ℕ) : Prop :=
  n < 10 ∧ b.toNat = 48 + n ∨ (10 ≤ n ∧ n < 16) ∧ (b.toNat = 87 + n ∨ b.toNat = 55 + n)

inductive HexText : Bytes → Bytes → Prop
  | nil : HexText [] []
  | cons {b c x : UInt8} {hi lo : ℕ} {rest out : Bytes} (hb : HexDigit b hi) (hc : HexDigit c lo)
      (hx : x.toNat = 16 * hi + lo) (hrest : HexText rest out) :
      HexText (b :: c :: rest) (x :: out)

variable (given : Object → String → Option String → Prop)

/-- A tool as its object states it, where `given` says what an optional field gives. -/
structure ToolOf (o : Object) (t : HostToolDef) : Prop where
  address : Required o "address" t.address
  description : ∃ v, given o "description" v ∧ t.description = v.getD ""
  bindingName : Required o "binding_name" t.bindingName
  argsMode : ∃ v, given o "args_mode" v ∧ t.argsMode = v.getD "json"
  inputSchema : given o "input_schema" t.inputSchema
  outputSchema : given o "output_schema" t.outputSchema
  annotations : given o "annotations" t.annotations

structure DocumentOf (o : Object) (format sourceFormat baseUrl endpoint : Option String) : Prop where
  format : given o "format" format
  sourceFormat : given o "source_format" sourceFormat
  baseUrl : given o "base_url" baseUrl
  endpoint : given o "endpoint" endpoint

/-- The payload as it is read: of the two fields, `payload_hex` is taken where it is there. -/
inductive ReadPayload (o : Object) : Bytes → Prop
  | hex {s : String} {bytes : Bytes} (hs : optStr o "payload_hex" = some s)
      (hbytes : HexText (toUtf8 (trim s)) bytes) : ReadPayload o bytes
  | text {s : String} (hnone : optStr o "payload_hex" = none) (hs : optStr o "payload" = some s) :
      ReadPayload o (toUtf8 s)

inductive ReadSource (o : Object) : String → Option CatalogSpecSource → Prop
  | none : ReadSource o "none" none
  | bytes {bytes : Bytes} {format sourceFormat baseUrl endpoint : Option String}
      (hbytes : ReadPayload o bytes)
      (hdoc : DocumentOf OptStr o format sourceFormat baseUrl endpoint) :
      ReadSource o "bytes" (some (.bytes bytes format sourceFormat baseUrl endpoint))
  | path {path : String} {format sourceFormat baseUrl endpoint : Option String}
      (hpath : optStr o "payload" = some path)
      (hdoc : DocumentOf OptStr o format sourceFormat baseUrl endpoint) :
      ReadSource o "path" (some (.path path format sourceFormat baseUrl endpoint))
  | url {url : String} {format sourceFormat baseUrl endpoint : Option String}
      (hurl : optStr o "payload" = some url)
      (hdoc : DocumentOf OptStr o format sourceFormat baseUrl endpoint) :
      ReadSource o "url" (some (.url url format sourceFormat baseUrl endpoint))

def ReadSpec (v : Json) (source : Option CatalogSpecSource) : Prop :=
  ∃ o, v = .obj o ∧ ReadSource o ((optStr o "kind").getD "none") source

/-- Bytes that each payload field which is there spells. -/
structure PayloadOf (o : Object) (bytes : Bytes) : Prop where
  hex : ∃ v, Given o "payload_hex" v ∧ ∀ s ∈ v, HexText (toUtf8 (trim s)) bytes
  text : ∃ v, Given o "payload" v ∧ ∀ s ∈ v, bytes = toUtf8 s

def documentFields : List String := ["format", "source_format", "base_url", "endpoint"]

/-- A source document that carries all that a spec gives: where there is none, or no place for a
field, the spec gives nothing there. -/
inductive SourceOf (o : Object) : Option CatalogSpecSource → Prop
  | none (hkind : Given o "kind" none ∨ Given o "kind" (some "none"))
      (hrest : ∀ key ∈ "payload" :: "payload_hex" :: documentFields, Given o key none) :
      SourceOf o none
  | bytes {bytes : Bytes} {format sourceFormat baseUrl endpoint : Option String}
      (hkind : Given o "kind" (some "bytes")) (hbytes : PayloadOf o bytes)
      (hdoc : DocumentOf Given o format sourceFormat baseUrl endpoint) :
      SourceOf o (some (.bytes bytes format sourceFormat baseUrl endpoint))
  | path {path : String} {format sourceFormat baseUrl endpoint : Option String}
      (hkind : Given o "kind" (some "path")) (hpath : Given o "payload" (some path))
      (hhex : Given o "payload_hex" none)
      (hdoc : DocumentOf Given o format sourceFormat baseUrl endpoint) :
      SourceOf o (some (.path path format sourceFormat baseUrl endpoint))
  | url {url : String} {format sourceFormat baseUrl endpoint : Option String}
      (hkind : Given o "kind" (some "url")) (hurl : Given o "payload" (some url))
      (hhex : Given o "payload_hex" none)
      (hdoc : DocumentOf Given o format sourceFormat baseUrl endpoint) :
      SourceOf o (some (.url url format sourceFormat baseUrl endpoint))

def SpecOf (v : Json) (source : Option CatalogSpecSource) : Prop :=
  ∃ o, v = .obj o ∧ SourceOf o source

variable (tool : Object → HostToolDef → Prop) (spec : Json → Option CatalogSpecSource → Prop)

structure ConnectionOf (o : Object) (c : CatalogConnection) : Prop where
  reference : Required o "reference" c.reference
  tools : Strings (getField o "tools") c.tools
  spec : (getField o "spec" = none ∨ getField o "spec" = some .null) ∧ c.spec = none ∨
    ∃ v, getField o "spec" = some v ∧ v ≠ .null ∧ spec v c.spec

def IsObject {α : Type} (states : Object → α → Prop) (item : Json) (a : α) : Prop :=
  ∃ o, item = .obj o ∧ states o a

structure RootOf (root : Object) (opts : CatalogInjectOptions) : Prop where
  tools : Strings (getField root "tools") opts.tools
  hostTools : ListOf (IsObject tool) (getField root "host_tools") opts.hostTools
  connections : ListOf (IsObject (ConnectionOf spec)) (getField root "connections") opts.connections

def blobRoot (catalog : Bytes) : Option Object := do
  let text ← fromUtf8 catalog
  let root ← (lib.jsonParse text).toOption
  root.asObj

/-- The options hold what the blob states, and what they are given besides. -/
structure OptionsOf (catalog compilerWasm : Bytes) (generation : UInt64)
    (opts : CatalogInjectOptions) : Prop where
  compilerWasm : opts.compilerWasm = compilerWasm
  generation : opts.generation = generation
  empty : catalog = [] → opts.tools = [] ∧ opts.hostTools = [] ∧ opts.connections = []
  root : catalog ≠ [] → ∃ root, blobRoot lib catalog = some root ∧ RootOf tool spec root opts

/-- The parse fails, or its options account for every field of the blob. -/
def Faithful (catalog compilerWasm : Bytes) (generation : UInt64) : Prop :=
  ∀ opts, parseCatalogBlob lib catalog compilerWasm generation = .ok opts →
    OptionsOf lib (ToolOf Given) SpecOf catalog compilerWasm generation opts

end Statements

section Hex

variable {debugChar : Char → String}

theorem hexNibble_ok {b n : UInt8} : hexNibble debugChar b = .ok n ↔ HexDigit b n.toNat := by
  unfold hexNibble HexDigit
  simp only [UInt8.le_iff_toNat_le, UInt8.reduceToNat]
  split_ifs with hdigit hlower hupper
  · rw [Except.ok.injEq, ← UInt8.toNat_inj, UInt8.toNat_sub]
    simp only [UInt8.reduceToNat]
    omega
  · rw [Except.ok.injEq, ← UInt8.toNat_inj, UInt8.toNat_add, UInt8.toNat_sub]
    simp only [UInt8.reduceToNat]
    omega
  · rw [Except.ok.injEq, ← UInt8.toNat_inj, UInt8.toNat_add, UInt8.toNat_sub]
    simp only [UInt8.reduceToNat]
    omega
  · simp only [false_iff]
    omega

theorem HexDigit.lt {b : UInt8} {n : ℕ} (h : HexDigit b n) : n < 16 := by
  unfold HexDigit at h
  omega

theorem toNat_nibbles {hi lo : UInt8} (hhi : hi.toNat < 16) (hlo : lo.toNat < 16) :
    (hi <<< 4 ||| lo).toNat = 16 * hi.toNat + lo.toNat := by
  have hshift : hi.toNat <<< 4 < 256 := by
    rw [Nat.shiftLeft_eq]
    omega
  rw [UInt8.toNat_or, UInt8.toNat_shiftLeft]
  simp only [UInt8.reduceToNat, Nat.reduceMod, Nat.mod_eq_of_lt hshift]
  rw [← Nat.shiftLeft_add_eq_or_of_lt (i := 4) hlo, Nat.shiftLeft_eq]
  omega

theorem decodePairs_ok {text out : Bytes} :
    decodePairs debugChar text = .ok out ↔ HexText text out := by
  induction text using decodePairs.induct generalizing out with
  | case1 =>
    constructor
    · intro h
      obtain rfl := Except.ok.inj h
      exact .nil
    · intro h
      cases h
      rfl
  | case2 b =>
    constructor
    · intro h
      cases h
    · intro h
      cases h
  | case3 b c rest ih =>
    simp only [decodePairs, bind_ok, hexNibble_ok, ih]
    constructor
    · intro hgiven
      obtain ⟨hi, hhi, lo, hlo, out', hrest, hout⟩ := hgiven
      obtain rfl := Except.ok.inj hout
      exact .cons hhi hlo (toNat_nibbles hhi.lt hlo.lt) hrest
    · intro h
      cases h with
      | @cons _ _ x hi lo _ out' hb hc hx hrest =>
        have hhi : (UInt8.ofNat hi).toNat = hi :=
          UInt8.toNat_ofNat_of_lt' (by have := hb.lt; simp only [UInt8.size]; omega)
        have hlo : (UInt8.ofNat lo).toNat = lo :=
          UInt8.toNat_ofNat_of_lt' (by have := hc.lt; simp only [UInt8.size]; omega)
        have hx' : UInt8.ofNat hi <<< 4 ||| UInt8.ofNat lo = x := by
          rw [← UInt8.toNat_inj, toNat_nibbles (hhi.symm ▸ hb.lt) (hlo.symm ▸ hc.lt), hhi, hlo, hx]
        exact ⟨_, hhi.symm ▸ hb, _, hlo.symm ▸ hc, out', hrest, hx' ▸ rfl⟩

theorem HexText.even {text out : Bytes} (h : HexText text out) : text.length % 2 = 0 := by
  induction h with
  | nil => rfl
  | cons _ _ _ _ ih =>
    simp only [List.length_cons]
    omega

theorem HexDigit.unique {b : UInt8} {n m : ℕ} (hn : HexDigit b n) (hm : HexDigit b m) : n = m := by
  unfold HexDigit at hn hm
  omega

theorem HexText.unique {text out out' : Bytes} (h : HexText text out) (h' : HexText text out') :
    out = out' := by
  induction h generalizing out' with
  | nil =>
    cases h'
    rfl
  | cons hb hc hx _ ih =>
    cases h' with
    | cons hb' hc' hx' hrest' =>
      rw [hb.unique hb', hc.unique hc', ← hx'] at hx
      rw [UInt8.toNat_inj.mp hx, ih hrest']

theorem decodeHex_ok {s : String} {out : Bytes} :
    decodeHex debugChar s = .ok out ↔ HexText (toUtf8 (trim s)) out := by
  rw [decodeHex]
  split_ifs with hodd
  · simp only [false_iff]
    exact fun h ↦ hodd h.even
  · exact decodePairs_ok

end Hex

section Read

variable {lib : CatalogLib} {o : Object} {key : String}

theorem requireStr_ok {debugStr : String → String} {ctx s : String} :
    requireStr debugStr o key ctx = .ok s ↔ Required o key s := by
  unfold requireStr Required
  cases getField o key with
  | none => simp
  | some v =>
    cases v with
    | str t =>
      rw [Option.some_inj, Json.str.injEq]
      exact ite_nonEmpty_ok
    | _ => simp

/-- A field that may be left out is read as a list exactly where its items are. -/
theorem orAbsent_ok {α : Type} {read : Json → Except String (List α)} {item : Json → α → Prop}
    (hread : ∀ v as, read v = .ok as ↔ ∃ items, v = .arr items ∧ List.Forall₂ item items as)
    {v : Option Json} {as : List α} : orAbsent [] read v = .ok as ↔ ListOf item v as := by
  unfold ListOf
  cases v with
  | none => simp [orAbsent, eq_comm]
  | some v =>
    cases v with
    | null => simp [orAbsent, eq_comm]
    | _ => simp [orAbsent, hread]

theorem stringArray_ok {label : String} (v : Json) (ss : List String) :
    stringArray v label = .ok ss ↔
      ∃ items, v = .arr items ∧ List.Forall₂ (fun item s ↦ item = .str s) items ss := by
  cases v with
  | arr items =>
    simp only [stringArray, Json.asArr, strings_ok, Json.arr.injEq, exists_eq_left']
    rw [← List.forall₂_map_right_iff, List.forall₂_eq_eq_eq]
  | _ => simp [stringArray, Json.asArr]

theorem parseItems_ok {α : Type} {parse : ℕ → Json → Except String α} {item : Json → α → Prop}
    (hparse : ∀ i v a, parse i v = .ok a ↔ item v a) {i : ℕ} {items : List Json} {as : List α} :
    parseItems parse i items = .ok as ↔ List.Forall₂ item items as := by
  induction items generalizing i as with
  | nil => cases as <;> simp [parseItems]
  | cons v items ih =>
    simp only [parseItems, bind_ok, hparse, ih]
    constructor
    · intro hgiven
      obtain ⟨a, ha, rest, hrest, has⟩ := hgiven
      obtain rfl := Except.ok.inj has
      exact .cons ha hrest
    · intro h
      cases h with
      | cons ha hrest => exact ⟨_, ha, _, hrest, rfl⟩

theorem parseHostTool_ok (i : ℕ) (item : Json) (t : HostToolDef) :
    parseHostTool lib i item = .ok t ↔ IsObject (ToolOf OptStr) item t := by
  cases item with
  | obj o =>
    simp only [parseHostTool, Json.asObj, bind_ok, requireStr_ok]
    constructor
    · intro h
      obtain ⟨address, haddress, bindingName, hbinding, ht⟩ := h
      obtain rfl := Except.ok.inj ht
      exact ⟨o, rfl, haddress, ⟨_, rfl, rfl⟩, hbinding, ⟨_, rfl, rfl⟩, rfl, rfl, rfl⟩
    · rintro ⟨o', ho, haddress, ⟨_, rfl, hdescription⟩, hbinding, ⟨_, rfl, hargs⟩, hinput, houtput,
        hannotations⟩
      obtain rfl := Json.obj.inj ho
      refine ⟨_, haddress, _, hbinding, ?_⟩
      rw [← hdescription, ← hargs, hinput, houtput, hannotations]
      rfl
  | _ =>
    simp only [parseHostTool, Json.asObj, reduceCtorEq, false_iff]
    exact not_exists_obj rfl

theorem payloadBytes_ok {i : ℕ} {bytes : Bytes} :
    payloadBytes lib o i = .ok bytes ↔ ReadPayload o bytes := by
  unfold payloadBytes
  constructor
  · intro h
    split at h
    · rename_i hex hhex
      exact .hex hhex (decodeHex_ok.mp (mapError_ok.mp h))
    · rename_i hnone
      split at h
      · rename_i text htext
        obtain rfl := Except.ok.inj h
        exact .text hnone htext
      · cases h
  · intro h
    cases h with
    | hex hs hbytes =>
      rw [hs]
      exact mapError_ok.mpr (decodeHex_ok.mpr hbytes)
    | text hnone hs => rw [hnone, hs]

theorem requirePayloadString_ok {i : ℕ} {s : String} :
    requirePayloadString o i = .ok s ↔ optStr o "payload" = some s := by
  unfold requirePayloadString
  cases optStr o "payload" <;> simp

theorem parseSpec_ok {i : ℕ} (v : Json) (source : Option CatalogSpecSource) :
    parseSpec lib v i = .ok source ↔ ReadSpec v source := by
  cases v with
  | obj o =>
    simp only [parseSpec, Json.asObj]
    constructor
    · intro h
      refine ⟨o, rfl, ?_⟩
      split_ifs at h with hnone hbytes hpath hurl
      · obtain rfl := Except.ok.inj h
        rw [hnone]
        exact .none
      · obtain ⟨bytes, hpayload, hsource⟩ := bind_ok.mp h
        obtain rfl := Except.ok.inj hsource
        rw [hbytes]
        exact .bytes (payloadBytes_ok.mp hpayload) ⟨rfl, rfl, rfl, rfl⟩
      · obtain ⟨path, hpayload, hsource⟩ := bind_ok.mp h
        obtain rfl := Except.ok.inj hsource
        rw [hpath]
        exact .path (requirePayloadString_ok.mp hpayload) ⟨rfl, rfl, rfl, rfl⟩
      · obtain ⟨url, hpayload, hsource⟩ := bind_ok.mp h
        obtain rfl := Except.ok.inj hsource
        rw [hurl]
        exact .url (requirePayloadString_ok.mp hpayload) ⟨rfl, rfl, rfl, rfl⟩
    · intro hgiven
      obtain ⟨o', ho, hsource⟩ := hgiven
      obtain rfl := Json.obj.inj ho
      generalize (optStr o "kind").getD "none" = kind at hsource
      cases hsource with
      | none => rfl
      | bytes hpayload hdoc =>
        obtain ⟨rfl, rfl, rfl, rfl⟩ := hdoc
        exact bind_ok.mpr ⟨_, payloadBytes_ok.mpr hpayload, rfl⟩
      | path hpayload hdoc =>
        obtain ⟨rfl, rfl, rfl, rfl⟩ := hdoc
        exact bind_ok.mpr ⟨_, requirePayloadString_ok.mpr hpayload, rfl⟩
      | url hpayload hdoc =>
        obtain ⟨rfl, rfl, rfl, rfl⟩ := hdoc
        exact bind_ok.mpr ⟨_, requirePayloadString_ok.mpr hpayload, rfl⟩
  | _ =>
    simp only [parseSpec, Json.asObj, reduceCtorEq, false_iff]
    exact not_exists_obj rfl

theorem orAbsent_spec {i : ℕ} {v : Option Json} {source : Option CatalogSpecSource} :
    orAbsent none (fun s ↦ parseSpec lib s i) v = .ok source ↔
      (v = none ∨ v = some .null) ∧ source = none ∨
        ∃ s, v = some s ∧ s ≠ .null ∧ ReadSpec s source := by
  cases v with
  | none => simp [orAbsent, eq_comm]
  | some v =>
    cases v with
    | null => simp [orAbsent, eq_comm]
    | _ => simp [orAbsent, parseSpec_ok]

theorem parseConnection_ok (i : ℕ) (item : Json) (c : CatalogConnection) :
    parseConnection lib i item = .ok c ↔ IsObject (ConnectionOf ReadSpec) item c := by
  cases item with
  | obj o =>
    simp only [parseConnection, Json.asObj, bind_ok, requireStr_ok, orAbsent_ok stringArray_ok,
      orAbsent_spec]
    constructor
    · intro h
      obtain ⟨reference, href, tools, htools, spec, hspec, hc⟩ := h
      obtain rfl := Except.ok.inj hc
      exact ⟨o, rfl, href, htools, hspec⟩
    · intro h
      obtain ⟨o', ho, href, htools, hspec⟩ := h
      obtain rfl := Json.obj.inj ho
      exact ⟨_, href, _, htools, _, hspec, rfl⟩
  | _ =>
    simp only [parseConnection, Json.asObj, reduceCtorEq, false_iff]
    exact not_exists_obj rfl

theorem parseHostTools_ok (v : Json) (tools : List HostToolDef) :
    parseHostTools lib v = .ok tools ↔
      ∃ items, v = .arr items ∧ List.Forall₂ (IsObject (ToolOf OptStr)) items tools := by
  cases v with
  | arr items => simp [parseHostTools, Json.asArr, parseItems_ok parseHostTool_ok]
  | _ => simp [parseHostTools, Json.asArr]

theorem parseConnections_ok (v : Json) (connections : List CatalogConnection) :
    parseConnections lib v = .ok connections ↔
      ∃ items, v = .arr items ∧ List.Forall₂ (IsObject (ConnectionOf ReadSpec)) items connections := by
  cases v with
  | arr items => simp [parseConnections, Json.asArr, parseItems_ok parseConnection_ok]
  | _ => simp [parseConnections, Json.asArr]

variable {catalog compilerWasm : Bytes} {generation : UInt64} {opts : CatalogInjectOptions}

theorem parseRoot_ok {root : Object} :
    parseRoot lib compilerWasm generation root = .ok opts ↔
      RootOf (ToolOf OptStr) ReadSpec root opts ∧ opts.compilerWasm = compilerWasm ∧ opts.generation = generation := by
  simp only [parseRoot, bind_ok, orAbsent_ok stringArray_ok, orAbsent_ok parseHostTools_ok,
    orAbsent_ok parseConnections_ok]
  constructor
  · intro h
    obtain ⟨tools, htools, hostTools, hhost, connections, hconnections, hopts⟩ := h
    obtain rfl := Except.ok.inj hopts
    exact ⟨⟨htools, hhost, hconnections⟩, rfl, rfl⟩
  · intro h
    obtain ⟨⟨htools, hhost, hconnections⟩, rfl, rfl⟩ := h
    exact ⟨_, htools, _, hhost, _, hconnections, rfl⟩

theorem parseCatalogBlob_root (hne : catalog ≠ []) :
    parseCatalogBlob lib catalog compilerWasm generation = .ok opts ↔
      ∃ root, blobRoot lib catalog = some root ∧
        parseRoot lib compilerWasm generation root = .ok opts := by
  rw [parseCatalogBlob, if_neg hne, blobRoot]
  cases fromUtf8 catalog with
  | none => simp
  | some text =>
    simp only [Option.bind_eq_bind, Option.bind_some]
    cases lib.jsonParse text with
    | error e => simp [bind_ok, Except.mapError, Except.toOption]
    | ok root =>
      simp only [bind_ok, Except.mapError, Except.toOption, Except.ok.injEq, exists_eq_left',
        Option.bind_some]
      cases root.asObj with
      | none => simp
      | some obj => simp

theorem parse_ok :
    parseCatalogBlob lib catalog compilerWasm generation = .ok opts ↔
      OptionsOf lib (ToolOf OptStr) ReadSpec catalog compilerWasm generation opts := by
  by_cases hempty : catalog = []
  · rw [parseCatalogBlob, if_pos hempty]
    constructor
    · intro h
      obtain rfl := Except.ok.inj h
      exact ⟨rfl, rfl, fun _ ↦ ⟨rfl, rfl, rfl⟩, fun hne ↦ absurd hempty hne⟩
    · intro hgiven
      obtain ⟨rfl, rfl, hnil, -⟩ := hgiven
      obtain ⟨htools, hhost, hconnections⟩ := hnil hempty
      rw [← htools, ← hhost, ← hconnections]
  · rw [parseCatalogBlob_root hempty]
    constructor
    · intro hgiven
      obtain ⟨root, hblob, hroot⟩ := hgiven
      obtain ⟨hopts, hcompiler, hgeneration⟩ := parseRoot_ok.mp hroot
      exact ⟨hcompiler, hgeneration, fun h ↦ absurd h hempty, fun _ ↦ ⟨root, hblob, hopts⟩⟩
    · intro hgiven
      obtain ⟨hcompiler, hgeneration, -, hroot⟩ := hgiven
      obtain ⟨root, hblob, hopts⟩ := hroot hempty
      exact ⟨root, hblob, parseRoot_ok.mpr ⟨hopts, hcompiler, hgeneration⟩⟩

end Read

end MachineNotebook.Host.Catalog
