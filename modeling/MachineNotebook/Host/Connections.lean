import MachineNotebook.Host.Error
import Mathlib.Data.List.Forall2

namespace MachineNotebook.Host.Connections

open MachineNotebook.Lib.Utf8 Error

/-- What the json reader gives; a number is kept by its text. -/
inductive Json
  | null
  | bool (b : Bool)
  | num (text : String)
  | str (s : String)
  | arr (items : List Json)
  | obj (members : List (String × Json))

def Json.asArr : Json → Option (List Json)
  | .arr items => some items
  | _ => none

def Json.asObj : Json → Option (List (String × Json))
  | .obj members => some members
  | _ => none

def Json.asStr : Json → Option String
  | .str s => some s
  | _ => none

inductive ConnectionCredential
  | none
  | bearer (token : String)
  | header (name value : String)
  | query (name value : String)
  deriving DecidableEq

/-- The json reader, the connection registry of the host, and how their values are shown in an
error. -/
structure HostLib (R E : Type) where
  jsonParse : String → Option Json
  registryNew : R
  insert : R → String → ConnectionCredential → List String → Except E R
  deriveConnectionOrigins : String → List String
  debugStr : String → String
  debugErr : E → String

section Objects

def objGet (o : List (String × Json)) (key : String) : Option Json :=
  (o.find? fun m ↦ m.1 = key).map Prod.snd

def objOptStr (o : List (String × Json)) (key : String) : Option String :=
  match objGet o key with
  | some (.str s) => if s ≠ "" then some s else none
  | _ => none

def objRequireStr (debugStr : String → String) (o : List (String × Json)) (key : String) (i : ℕ) :
    Except String String :=
  match objGet o key with
  | some (.str s) =>
    if s ≠ "" then .ok s else .error ("item[" ++ toString i ++ "]." ++ key ++ " must be non-empty")
  | some _ => .error ("item[" ++ toString i ++ "]." ++ key ++ " must be a string")
  | none => .error ("item[" ++ toString i ++ "] missing " ++ debugStr key)

def strings (label : String) : ℕ → List Json → Except String (List String)
  | _, [] => .ok []
  | j, item :: items =>
    match item.asStr with
    | none => .error (label ++ "[" ++ toString j ++ "] must be a string")
    | some s => do
      let rest ← strings label (j + 1) items
      return s :: rest

def stringArray (v : Json) (label : String) : Except String (List String) :=
  match v.asArr with
  | none => .error (label ++ " must be a JSON array of strings")
  | some items => strings label 0 items

end Objects

def buildCredential (debugStr : String → String) (kind a b : String) :
    Except String ConnectionCredential :=
  if kind = "none" then .ok .none
  else if kind = "bearer" then .ok (.bearer a)
  else if kind = "header" then .ok (.header a b)
  else if kind = "query" then .ok (.query a b)
  else .error ("unknown credential kind " ++ debugStr kind ++ " (want none|bearer|header|query)")

variable {R E : Type}

def statedOrigins (i : ℕ) (o : List (String × Json)) : Except String (List String) :=
  match objGet o "origins" with
  | none | some .null => .ok []
  | some v => stringArray v ("connections[" ++ toString i ++ "].origins")

/-- The body of the loop over the array. -/
def insertItem (host : HostLib R E) (i : ℕ) (registry : R) (item : Json) : Except String R :=
  let at_ := "connections[" ++ toString i ++ "]"
  match item.asObj with
  | none => .error (at_ ++ " must be an object")
  | some o => do
    let reference ← objRequireStr host.debugStr o "reference" i
    let kind := (objOptStr o "kind").getD "none"
    let a := (objOptStr o "a").getD ""
    let b := (objOptStr o "b").getD ""
    let credential ←
      (buildCredential host.debugStr kind a b).mapError fun e ↦ at_ ++ ": " ++ e
    let origins ← statedOrigins i o
    let origins := if origins.isEmpty then host.deriveConnectionOrigins reference else origins
    (host.insert registry reference credential origins).mapError fun e ↦
      at_ ++ " " ++ host.debugStr reference ++ ": " ++ host.debugErr e

def insertItems (host : HostLib R E) : ℕ → R → List Json → Except String R
  | _, registry, [] => .ok registry
  | i, registry, item :: items => do
    let registry ← insertItem host i registry item
    insertItems host (i + 1) registry items

def parseConnectionsBlob (host : HostLib R E) (blob : Bytes) : Except String R :=
  if blob = [] then .ok host.registryNew
  else
    match fromUtf8 blob with
    | none => .error "connections_blob must be UTF-8 JSON"
    | some text =>
      match host.jsonParse text with
      | none => .error "connections_blob is not valid JSON"
      | some root =>
        match root.asArr with
        | none => .error "connections_blob must be a JSON array"
        | some items => insertItems host 0 host.registryNew items

structure Connection where
  reference : String
  credential : ConnectionCredential
  origins : List String
  deriving DecidableEq

def HostLib.register (host : HostLib R E) (registry : R) (c : Connection) : Except E R :=
  host.insert registry c.reference c.credential c.origins

section Statements

/-- The member of an object, or the value it has when there is none. -/
def IsOptional (o : List (String × Json)) (key absent s : String) : Prop :=
  objGet o key = none ∧ s = absent ∨ objGet o key = some (.str s)

inductive OfKind : String → String → String → ConnectionCredential → Prop
  | none {a b : String} : OfKind "none" a b .none
  | bearer {a b : String} : OfKind "bearer" a b (.bearer a)
  | header {a b : String} : OfKind "header" a b (.header a b)
  | query {a b : String} : OfKind "query" a b (.query a b)

/-- The origins that an object states, or those of its reference. -/
def OriginsOf (host : HostLib R E) (o : List (String × Json)) (c : Connection) : Prop :=
  ∃ stated, (objGet o "origins" = none ∧ stated = [] ∨ objGet o "origins" = some .null ∧ stated = [] ∨
      objGet o "origins" = some (.arr (stated.map .str))) ∧
    c.origins = if stated = [] then host.deriveConnectionOrigins c.reference else stated

/-- An array item that states a connection: the one of its reference, of its kind, with exactly
its secrets. -/
def States (host : HostLib R E) (item : Json) (c : Connection) : Prop :=
  ∃ o, item = .obj o ∧ objGet o "reference" = some (.str c.reference) ∧ c.reference ≠ "" ∧
    (∃ kind a b, IsOptional o "kind" "none" kind ∧ IsOptional o "a" "" a ∧ IsOptional o "b" "" b ∧
      OfKind kind a b c.credential) ∧
    OriginsOf host o c

def blobItems (host : HostLib R E) (blob : Bytes) : Option (List Json) := do
  let text ← fromUtf8 blob
  let root ← host.jsonParse text
  root.asArr

/-- The blob is an array of items that are read, in order, as connections that the registry
takes. -/
def Registers (host : HostLib R E) (reads : Json → Connection → Prop) (blob : Bytes)
    (registry : R) : Prop :=
  ∃ items conns, blobItems host blob = some items ∧ List.Forall₂ reads items conns ∧
    conns.foldlM host.register host.registryNew = .ok registry

/-- The parse succeeds only for an array of items that each state a connection, and gives the
registry that got exactly these. -/
def KeepsCredentials (host : HostLib R E) (blob : Bytes) : Prop :=
  ∀ registry, parseConnectionsBlob host blob = .ok registry →
    Registers host (States host) blob registry

/-- An item as it is read with `obj_opt_str`: a kind, `a` or `b` of a wrong type counts as absent. -/
def Reads (host : HostLib R E) (item : Json) (c : Connection) : Prop :=
  ∃ o, item = .obj o ∧ objGet o "reference" = some (.str c.reference) ∧ c.reference ≠ "" ∧
    OfKind ((objOptStr o "kind").getD "none") ((objOptStr o "a").getD "") ((objOptStr o "b").getD "")
      c.credential ∧
    OriginsOf host o c

def AbsentOrString (o : List (String × Json)) (key : String) : Prop :=
  ∀ v, objGet o key = some v → ∃ s, v = .str s

/-- The kind, `a` and `b` of an object are absent or strings, and the kind is not empty. -/
structure WellTyped (o : List (String × Json)) : Prop where
  kind : AbsentOrString o "kind"
  kindNotEmpty : objGet o "kind" ≠ some (.str "")
  a : AbsentOrString o "a"
  b : AbsentOrString o "b"

/-- What an object has to have whatever the types of its kind, `a` and `b`. -/
structure Passes (o : List (String × Json)) : Prop where
  reference : ∃ s, objGet o "reference" = some (.str s) ∧ s ≠ ""
  kind : ∀ s, objGet o "kind" = some (.str s) → s ∈ ["", "none", "bearer", "header", "query"]
  origins : ∀ v, objGet o "origins" = some v → v = .null ∨ ∃ ss : List String, v = .arr (ss.map .str)

def credentialOf (kind a b : String) : ConnectionCredential :=
  if kind = "bearer" then .bearer a
  else if kind = "header" then .header a b
  else if kind = "query" then .query a b
  else .none

def originsOf (o : List (String × Json)) : List String :=
  match objGet o "origins" with
  | some (.arr items) => items.filterMap Json.asStr
  | _ => []

/-- The connection of an object, with a kind, `a` or `b` of a wrong type as absent. -/
def connectionOf (host : HostLib R E) (o : List (String × Json)) : Connection :=
  let reference := (objOptStr o "reference").getD ""
  let kind := (objOptStr o "kind").getD "none"
  let origins := originsOf o
  { reference
    credential := credentialOf kind ((objOptStr o "a").getD "") ((objOptStr o "b").getD "")
    origins := if origins = [] then host.deriveConnectionOrigins reference else origins }

/-- The registry takes the connections of these objects, one after the other. -/
def Takes (host : HostLib R E) (os : List (List (String × Json))) : Prop :=
  ∃ registry, (os.map (connectionOf host)).foldlM host.register host.registryNew = .ok registry

end Statements

section Parse

variable {host : HostLib R E} {o : List (String × Json)}

theorem not_exists_obj {P : List (String × Json) → Prop} {item : Json} (hitem : item.asObj = none) :
    ¬∃ o, item = .obj o ∧ P o := by
  intro h
  obtain ⟨o, rfl, -⟩ := h
  cases hitem

theorem ite_nonEmpty_ok {s t message : String} :
    (if t ≠ "" then (.ok t : Except String String) else .error message) = .ok s ↔
      t = s ∧ s ≠ "" := by
  by_cases ht : t = ""
  · rw [if_neg (not_not.mpr ht)]
    refine ⟨nofun, ?_⟩
    intro h
    exact absurd (h.1.symm.trans ht) h.2
  · rw [if_pos ht, Except.ok.injEq]
    refine ⟨?_, And.left⟩
    intro h
    exact ⟨h, h ▸ ht⟩

theorem objRequireStr_ok {debugStr : String → String} {key : String} {i : ℕ} {s : String} :
    objRequireStr debugStr o key i = .ok s ↔ objGet o key = some (.str s) ∧ s ≠ "" := by
  unfold objRequireStr
  cases objGet o key with
  | none => simp
  | some v =>
    cases v with
    | str t =>
      rw [Option.some_inj, Json.str.injEq]
      exact ite_nonEmpty_ok
    | _ => simp

theorem buildCredential_ok {debugStr : String → String} {kind a b : String}
    {c : ConnectionCredential} : buildCredential debugStr kind a b = .ok c ↔ OfKind kind a b c := by
  constructor
  · intro h
    unfold buildCredential at h
    split_ifs at h with h₁ h₂ h₃ h₄
    · subst h₁
      cases h
      exact .none
    · subst h₂
      cases h
      exact .bearer
    · subst h₃
      cases h
      exact .header
    · subst h₄
      cases h
      exact .query
  · intro h
    cases h with
    | none => rfl
    | bearer => rfl
    | header => rfl
    | query => rfl

theorem strings_ok {label : String} {j : ℕ} {items : List Json} {ss : List String} :
    strings label j items = .ok ss ↔ items = ss.map .str := by
  induction items generalizing j ss with
  | nil => cases ss <;> simp [strings]
  | cons item items ih =>
    cases item with
    | str s =>
      simp only [strings, Json.asStr, bind_ok, ih]
      constructor
      · intro hgiven
        obtain ⟨rest, rfl, hss⟩ := hgiven
        obtain rfl := Except.ok.inj hss
        rfl
      · intro h
        cases ss with
        | nil => cases h
        | cons t ss =>
          obtain ⟨hst, hitems⟩ := List.cons.inj h
          obtain rfl := Json.str.inj hst
          exact ⟨ss, hitems, rfl⟩
    | _ => cases ss <;> simp [strings, Json.asStr]

theorem statedOrigins_ok {i : ℕ} {stated : List String} :
    statedOrigins i o = .ok stated ↔
      objGet o "origins" = none ∧ stated = [] ∨ objGet o "origins" = some .null ∧ stated = [] ∨
        objGet o "origins" = some (.arr (stated.map .str)) := by
  unfold statedOrigins
  cases objGet o "origins" with
  | none => simp [eq_comm]
  | some v =>
    cases v with
    | null => simp [eq_comm]
    | arr items => simp [stringArray, Json.asArr, strings_ok]
    | _ => simp [stringArray, Json.asArr]

theorem insertItem_ok {i : ℕ} {registry registry' : R} {item : Json} :
    insertItem host i registry item = .ok registry' ↔
      ∃ c, Reads host item c ∧ host.register registry c = .ok registry' := by
  cases item with
  | obj o =>
    simp only [insertItem, Json.asObj, bind_ok, objRequireStr_ok, mapError_ok, buildCredential_ok,
      statedOrigins_ok, List.isEmpty_iff]
    constructor
    · intro h
      obtain ⟨reference, ⟨href, hne⟩, credential, hcred, stated, hstated, hinsert⟩ := h
      exact ⟨⟨reference, credential, _⟩, ⟨o, rfl, href, hne, hcred, stated, hstated, rfl⟩, hinsert⟩
    · intro h
      obtain ⟨c, ⟨o', ho, href, hne, hcred, stated, hstated, horigins⟩, hinsert⟩ := h
      obtain rfl := Json.obj.inj ho
      refine ⟨c.reference, ⟨href, hne⟩, c.credential, hcred, stated, hstated, ?_⟩
      rw [← horigins]
      exact hinsert
  | _ =>
    simp only [insertItem, Json.asObj, reduceCtorEq, false_iff, not_exists, not_and]
    exact fun c hreads ↦ absurd hreads (not_exists_obj rfl)

theorem insertItems_ok {i : ℕ} {registry registry' : R} {items : List Json} :
    insertItems host i registry items = .ok registry' ↔
      ∃ conns, List.Forall₂ (Reads host) items conns ∧
        conns.foldlM host.register registry = .ok registry' := by
  induction items generalizing i registry with
  | nil =>
    constructor
    · intro h
      obtain rfl := Except.ok.inj h
      exact ⟨[], .nil, rfl⟩
    · intro hgiven
      obtain ⟨conns, hnil, h⟩ := hgiven
      cases hnil
      obtain rfl := Except.ok.inj h
      rfl
  | cons item items ih =>
    simp only [insertItems, bind_ok, insertItem_ok, ih]
    constructor
    · intro hgiven
      obtain ⟨next, ⟨c, hc, hnext⟩, conns, hconns, h⟩ := hgiven
      refine ⟨c :: conns, .cons hc hconns, ?_⟩
      rw [List.foldlM_cons, bind_ok]
      exact ⟨next, hnext, h⟩
    · intro hgiven
      obtain ⟨conns, hcons, h⟩ := hgiven
      cases hcons with
      | cons hc hconns =>
        rw [List.foldlM_cons, bind_ok] at h
        obtain ⟨next, hnext, h⟩ := h
        exact ⟨next, ⟨_, hc, hnext⟩, _, hconns, h⟩

theorem parse_ok {blob : Bytes} (hne : blob ≠ []) {registry : R} :
    parseConnectionsBlob host blob = .ok registry ↔ Registers host (Reads host) blob registry := by
  simp only [parseConnectionsBlob, if_neg hne, Registers, blobItems, Option.bind_eq_bind]
  cases fromUtf8 blob with
  | none => simp
  | some text =>
    simp only [Option.bind_some]
    cases host.jsonParse text with
    | none => simp
    | some root =>
      simp only [Option.bind_some]
      cases root.asArr with
      | none => simp
      | some items => simp [insertItems_ok]

theorem optional_getD {key absent : String} (htype : AbsentOrString o key)
    (hempty : objGet o key ≠ some (.str "") ∨ absent = "") :
    IsOptional o key absent ((objOptStr o key).getD absent) := by
  cases h : objGet o key with
  | none => exact Or.inl ⟨h, by simp [objOptStr, h]⟩
  | some v =>
    obtain ⟨s, rfl⟩ := htype v h
    by_cases hs : s = ""
    · subst hs
      rcases hempty with hne | rfl
      · exact absurd h hne
      · exact Or.inr (by simp [objOptStr, h])
    · exact Or.inr (by simp [objOptStr, h, hs])

theorem states_of_reads {c : Connection} (ht : WellTyped o) (h : Reads host (.obj o) c) :
    States host (.obj o) c := by
  obtain ⟨o', ho, href, hne, hcred, horigins⟩ := h
  obtain rfl := Json.obj.inj ho
  exact ⟨o, rfl, href, hne, ⟨_, _, _, optional_getD ht.kind (Or.inl ht.kindNotEmpty),
    optional_getD ht.a (Or.inr rfl), optional_getD ht.b (Or.inr rfl), hcred⟩, horigins⟩

theorem IsOptional.absentOrString {key absent s : String} (h : IsOptional o key absent s) :
    AbsentOrString o key := by
  intro v hv
  rcases h with ⟨hnone, -⟩ | hsome
  · rw [hnone] at hv
    cases hv
  · rw [hsome] at hv
    exact ⟨s, (Option.some.inj hv).symm⟩

theorem OfKind.ne_empty {kind a b : String} {c : ConnectionCredential} (h : OfKind kind a b c) :
    kind ≠ "" := by
  cases h <;> decide

theorem wellTyped_of_states {c : Connection} (h : States host (.obj o) c) : WellTyped o := by
  obtain ⟨o', ho, -, -, ⟨kind, a, b, hkind, ha, hb, hcred⟩, -⟩ := h
  obtain rfl := Json.obj.inj ho
  refine ⟨hkind.absentOrString, fun hempty ↦ ?_, ha.absentOrString, hb.absentOrString⟩
  rcases hkind with ⟨hnone, -⟩ | hsome
  · rw [hnone] at hempty
    cases hempty
  · rw [hsome] at hempty
    obtain rfl := Json.str.inj (Option.some.inj hempty)
    exact hcred.ne_empty rfl

theorem ofKind_iff {kind a b : String} {c : ConnectionCredential} :
    OfKind kind a b c ↔ kind ∈ ["none", "bearer", "header", "query"] ∧ c = credentialOf kind a b := by
  constructor
  · intro h
    cases h <;> exact ⟨by decide, rfl⟩
  · intro h
    obtain ⟨hkind, rfl⟩ := h
    simp only [List.mem_cons, List.not_mem_nil, or_false] at hkind
    rcases hkind with rfl | rfl | rfl | rfl
    · exact .none
    · exact .bearer
    · exact .header
    · exact .query

theorem optStr_kind_iff :
    (objOptStr o "kind").getD "none" ∈ ["none", "bearer", "header", "query"] ↔
      ∀ s, objGet o "kind" = some (.str s) → s ∈ ["", "none", "bearer", "header", "query"] := by
  unfold objOptStr
  cases objGet o "kind" with
  | none => simp
  | some v =>
    cases v with
    | str s => by_cases hs : s = "" <;> simp [hs]
    | _ => simp

theorem originsOf_iff {stated : List String} :
    (objGet o "origins" = none ∧ stated = [] ∨ objGet o "origins" = some .null ∧ stated = [] ∨
        objGet o "origins" = some (.arr (stated.map .str))) ↔
      (∀ v, objGet o "origins" = some v → v = .null ∨ ∃ ss : List String, v = .arr (ss.map .str)) ∧
        stated = originsOf o := by
  unfold originsOf
  cases objGet o "origins" with
  | none => simp
  | some v =>
    cases v with
    | null => simp
    | arr items =>
      simp only [reduceCtorEq, false_and, false_or, Option.some.injEq, forall_eq', Json.arr.injEq]
      constructor
      · intro h
        subst h
        exact ⟨⟨stated, rfl⟩, by simp [List.filterMap_map, Json.asStr, Function.comp_def]⟩
      · intro h
        obtain ⟨⟨ss, rfl⟩, rfl⟩ := h
        simp [List.filterMap_map, Json.asStr, Function.comp_def]
    | _ => simp

theorem objOptStr_of_get {key s : String} (h : objGet o key = some (.str s)) (hne : s ≠ "") :
    objOptStr o key = some s := by
  simp [objOptStr, h, hne]

/-- An object is read as its connection or not at all. -/
theorem reads_iff {c : Connection} :
    Reads host (.obj o) c ↔ Passes o ∧ c = connectionOf host o := by
  constructor
  · intro h
    obtain ⟨o', ho, href, hne, hcred, stated, hstated, horigins⟩ := h
    obtain rfl := Json.obj.inj ho
    obtain ⟨hkind, hcredential⟩ := ofKind_iff.mp hcred
    obtain ⟨hshape, rfl⟩ := originsOf_iff.mp hstated
    refine ⟨⟨⟨_, href, hne⟩, optStr_kind_iff.mp hkind, hshape⟩, ?_⟩
    obtain ⟨reference, credential, origins⟩ := c
    dsimp only at href hne hcredential horigins
    subst hcredential horigins
    simp [connectionOf, objOptStr_of_get href hne]
  · intro h
    obtain ⟨⟨⟨s, href, hne⟩, hkind, hshape⟩, rfl⟩ := h
    have hreference : (connectionOf host o).reference = s := by
      simp [connectionOf, objOptStr_of_get href hne]
    rw [← hreference] at href hne
    exact ⟨o, rfl, href, hne, ofKind_iff.mpr ⟨optStr_kind_iff.mpr hkind, rfl⟩, originsOf o,
      originsOf_iff.mpr ⟨hshape, rfl⟩, rfl⟩

theorem forall₂_reads {items : List Json} {conns : List Connection} :
    List.Forall₂ (Reads host) items conns ↔
      ∃ os : List (List (String × Json)),
        items = os.map .obj ∧ (∀ o ∈ os, Passes o) ∧ conns = os.map (connectionOf host) := by
  constructor
  · intro h
    induction h with
    | nil => exact ⟨[], rfl, by simp, rfl⟩
    | cons hc _ ih =>
      obtain ⟨os, rfl, hpass, rfl⟩ := ih
      obtain ⟨o, rfl, -⟩ := id hc
      obtain ⟨ho, rfl⟩ := reads_iff.mp hc
      exact ⟨o :: os, rfl, List.forall_mem_cons.mpr ⟨ho, hpass⟩, rfl⟩
  · intro h
    obtain ⟨os, rfl, hpass, rfl⟩ := h
    rw [List.forall₂_map_left_iff, List.forall₂_map_right_iff, List.forall₂_same]
    exact fun o ho ↦ reads_iff.mpr ⟨hpass o ho, rfl⟩

end Parse

/-- A blob keeps its credentials exactly when a kind, `a` or `b` of a wrong type only stands
beside something that is refused: an item that is no object or does not pass, or a connection
that the registry does not take. -/
theorem keepsCredentials_iff (host : HostLib R E) {blob : Bytes} (hne : blob ≠ []) :
    KeepsCredentials host blob ↔
      ∀ os, blobItems host blob = some (os.map .obj) → (∀ o ∈ os, Passes o) → Takes host os →
        ∀ o ∈ os, WellTyped o := by
  constructor
  · intro h os hitems hpass htakes
    obtain ⟨registry, hfold⟩ := htakes
    have hreads : List.Forall₂ (Reads host) (os.map .obj) (os.map (connectionOf host)) :=
      forall₂_reads.mpr ⟨os, rfl, hpass, rfl⟩
    obtain ⟨items, conns, hitems', hstates, -⟩ :=
      h registry ((parse_ok hne).mpr ⟨_, _, hitems, hreads, hfold⟩)
    obtain rfl := Option.some.inj (hitems.symm.trans hitems')
    rw [List.forall₂_map_left_iff] at hstates
    intro o ho
    have hall := ((List.forall₂_and_left _ _).mp
      (hstates.imp fun o c hc ↦ ⟨wellTyped_of_states hc, hc⟩)).1
    exact hall o ho
  · intro htyped registry hparse
    obtain ⟨items, conns, hitems, hreads, hfold⟩ := (parse_ok hne).mp hparse
    obtain ⟨os, rfl, hpass, rfl⟩ := forall₂_reads.mp hreads
    refine ⟨_, _, hitems, ?_, hfold⟩
    rw [List.forall₂_map_left_iff, List.forall₂_map_right_iff, List.forall₂_same]
    intro o ho
    have ht := htyped os hitems hpass ⟨registry, hfold⟩ o ho
    exact states_of_reads ht (reads_iff.mpr ⟨hpass o ho, rfl⟩)

def takesAll (jsonParse : String → Option Json) : HostLib (List Connection) Empty where
  jsonParse := jsonParse
  registryNew := []
  insert := fun registry reference credential origins ↦
    .ok (registry ++ [⟨reference, credential, origins⟩])
  deriveConnectionOrigins := fun _ ↦ []
  debugStr := fun s ↦ "\"" ++ s ++ "\""
  debugErr := Empty.elim

def numberedText : String :=
  "[\x7b\"reference\":\"api\",\"kind\":7\x7d,\x7b\"reference\":\"hub\",\"kind\":\"bearer\",\"a\":1\x7d]"

def numbered : List Json :=
  [.obj [("reference", .str "api"), ("kind", .num "7")],
    .obj [("reference", .str "hub"), ("kind", .str "bearer"), ("a", .num "1")]]

def readsNumbered : HostLib (List Connection) Empty :=
  takesAll fun text ↦ if text = numberedText then some (.arr numbered) else none

/-- A kind that is a number is no kind, and a token that is a number is the empty token. -/
theorem numbered_not_kept :
    parseConnectionsBlob readsNumbered (toUtf8 numberedText) =
        .ok [⟨"api", .none, []⟩, ⟨"hub", .bearer "", []⟩] ∧
      ¬KeepsCredentials readsNumbered (toUtf8 numberedText) := by
  have hparse : parseConnectionsBlob readsNumbered (toUtf8 numberedText) =
      .ok [⟨"api", .none, []⟩, ⟨"hub", .bearer "", []⟩] := by
    rw [parseConnectionsBlob, if_neg (by decide), fromUtf8_toUtf8]
    rfl
  refine ⟨hparse, fun h ↦ ?_⟩
  obtain ⟨items, conns, hitems, hstates, -⟩ := h _ hparse
  have hnumbered : blobItems readsNumbered (toUtf8 numberedText) = some numbered := by
    rw [blobItems, fromUtf8_toUtf8]
    rfl
  obtain rfl := Option.some.inj (hnumbered.symm.trans hitems)
  cases hstates with
  | cons hfirst _ =>
    obtain ⟨s, hs⟩ := (wellTyped_of_states hfirst).kind (.num "7") rfl
    cases hs

def bearerText : String := "[\x7b\"reference\":\"api\",\"kind\":\"bearer\",\"a\":\"k\"\x7d]"

def readsBearer : HostLib (List Connection) Empty :=
  takesAll fun text ↦
    if text = bearerText then
      some (.arr [.obj [("reference", .str "api"), ("kind", .str "bearer"), ("a", .str "k")]])
    else none

theorem bearer_iff :
    toUtf8 bearerText ≠ [] ∧
      (KeepsCredentials readsBearer (toUtf8 bearerText) ↔
        ∀ os, blobItems readsBearer (toUtf8 bearerText) = some (os.map .obj) →
          (∀ o ∈ os, Passes o) → Takes readsBearer os → ∀ o ∈ os, WellTyped o) :=
  ⟨by decide, keepsCredentials_iff readsBearer (by decide)⟩

end MachineNotebook.Host.Connections
