import MachineNotebook.Host.Catalog

namespace MachineNotebook.Host.CatalogFaithful

open MachineNotebook.Lib.Utf8 MachineNotebook.Host.Connections MachineNotebook.Host.Catalog

section Conditions

/-- Absent, null or a string. -/
def Typed (o : Object) (key : String) : Prop := ∃ v, Given o key v

/-- Absent, null or a string that is not empty. -/
def Usable (o : Object) (key : String) : Prop := Given o key (optStr o key)

structure UsableTool (o : Object) : Prop where
  description : Typed o "description"
  argsMode : Usable o "args_mode"
  inputSchema : Usable o "input_schema"
  outputSchema : Usable o "output_schema"
  annotations : Usable o "annotations"

/-- The payload fields, where both are there, spell the same bytes. -/
structure SameBytes (o : Object) : Prop where
  payload : Typed o "payload"
  payloadHex : Typed o "payload_hex"
  agree : ∀ h s, Given o "payload_hex" (some h) → Given o "payload" (some s) →
    HexText (toUtf8 (trim h)) (toUtf8 s)

/-- A spec without a source document gives nothing else, and one whose document is no bytes
gives no `payload_hex`. -/
def UsableFor (o : Object) (kind : String) : Prop :=
  if kind = "none" then ∀ key ∈ "payload" :: "payload_hex" :: documentFields, Given o key none
  else (∀ key ∈ documentFields, Usable o key) ∧
    if kind = "bytes" then SameBytes o else Given o "payload_hex" none

structure UsableSpec (o : Object) : Prop where
  kind : Usable o "kind"
  fields : UsableFor o ((optStr o "kind").getD "none")

def UsableConnection (o : Object) : Prop :=
  ∀ spec, getField o "spec" = some (.obj spec) → UsableSpec spec

structure UsableRoot (root : Object) : Prop where
  hostTools : ∀ items, getField root "host_tools" = some (.arr items) →
    ∀ item ∈ items, ∀ o, item = .obj o → UsableTool o
  connections : ∀ items, getField root "connections" = some (.arr items) →
    ∀ item ∈ items, ∀ o, item = .obj o → UsableConnection o

def ArrayOf (fit : Json → Prop) (v : Option Json) : Prop :=
  (v = none ∨ v = some .null) ∨ ∃ items, v = some (.arr items) ∧ ∀ item ∈ items, fit item

def ObjectOf (passes : Object → Prop) (item : Json) : Prop := ∃ o, item = .obj o ∧ passes o

def StringItem (item : Json) : Prop := ∃ s, item = .str s

structure PassesTool (o : Object) : Prop where
  address : ∃ s, Required o "address" s
  bindingName : ∃ s, Required o "binding_name" s

/-- A kind that is a string is one of the four, a payload is there where the kind needs one, and
`payload_hex` is hexadecimal where it is read. -/
structure PassesSpec (o : Object) : Prop where
  kind : ∀ k, Required o "kind" k → k ∈ ["none", "bytes", "path", "url"]
  bytes : Required o "kind" "bytes" → (∃ s, Required o "payload_hex" s) ∨ ∃ s, Required o "payload" s
  hex : Required o "kind" "bytes" → ∀ s, Required o "payload_hex" s →
    ∃ bytes, HexText (toUtf8 (trim s)) bytes
  text : ∀ k ∈ ["path", "url"], Required o "kind" k → ∃ s, Required o "payload" s

structure PassesConnection (o : Object) : Prop where
  reference : ∃ s, Required o "reference" s
  tools : ArrayOf StringItem (getField o "tools")
  spec : ∀ v, getField o "spec" = some v → v ≠ .null → ObjectOf PassesSpec v

/-- What a blob has to have whatever its optional fields are. -/
structure PassesRoot (root : Object) : Prop where
  tools : ArrayOf StringItem (getField root "tools")
  hostTools : ArrayOf (ObjectOf PassesTool) (getField root "host_tools")
  connections : ArrayOf (ObjectOf PassesConnection) (getField root "connections")

end Conditions

section Account

variable {o : Object} {key : String}

theorem given_unique {v w : Option String} (hv : Given o key v) (hw : Given o key w) : v = w := by
  cases hv with
  | absent hv =>
    cases hw with
    | absent _ => rfl
    | null _ => rfl
    | str hw => cases hv.symm.trans hw
  | null hv =>
    cases hw with
    | absent _ => rfl
    | null _ => rfl
    | str hw => cases hv.symm.trans hw
  | str hv =>
    cases hw with
    | absent hw => cases hv.symm.trans hw
    | null hw => cases hv.symm.trans hw
    | str hw => rw [Json.str.inj (Option.some.inj (hv.symm.trans hw))]

theorem optStr_of_given {v : Option String} (hv : Given o key v) (hne : v ≠ some "") :
    optStr o key = v := by
  unfold optStr
  cases hv with
  | absent hv => rw [hv]
  | null hv => rw [hv]
  | @str s hv =>
    rw [hv]
    exact if_neg fun hs ↦ hne (congrArg some hs)

theorem given_iff_usable {v : Option String} (hv : optStr o key = v) :
    Given o key v ↔ Usable o key := by
  rw [Usable, hv]

theorem optStr_of_empty (h : Given o key (some "")) : optStr o key = none := by
  cases h with
  | str h =>
    unfold optStr
    rw [h]
    rfl

theorem given_getD_iff {absent : String} (habsent : absent ≠ "") :
    (∃ v, Given o key v ∧ (optStr o key).getD absent = v.getD absent) ↔ Usable o key := by
  constructor
  · intro hgiven
    obtain ⟨v, hv, hread⟩ := hgiven
    by_cases hempty : v = some ""
    · subst hempty
      rw [optStr_of_empty hv] at hread
      exact absurd hread habsent
    · rw [Usable, optStr_of_given hv hempty]
      exact hv
  · intro h
    exact ⟨_, h, rfl⟩

theorem given_getD_empty_iff :
    (∃ v, Given o key v ∧ (optStr o key).getD "" = v.getD "") ↔ Typed o key := by
  constructor
  · intro h
    obtain ⟨v, hv, -⟩ := h
    exact ⟨v, hv⟩
  · intro h
    obtain ⟨v, hv⟩ := h
    refine ⟨v, hv, ?_⟩
    by_cases hempty : v = some ""
    · subst hempty
      rw [optStr_of_empty hv]
      rfl
    · rw [optStr_of_given hv hempty]

theorem toolOf_iff (o : Object) (t : HostToolDef) (h : ToolOf OptStr o t) :
    ToolOf Given o t ↔ UsableTool o := by
  obtain ⟨haddress, ⟨_, rfl, hdescription⟩, hbinding, ⟨_, rfl, hargs⟩, hinput, houtput,
    hannotations⟩ := h
  constructor
  · intro hgiven
    obtain ⟨-, hd, -, ha, hi, ho, hn⟩ := hgiven
    rw [hdescription] at hd
    rw [hargs] at ha
    exact ⟨given_getD_empty_iff.mp hd, (given_getD_iff (by decide)).mp ha,
      (given_iff_usable hinput).mp hi, (given_iff_usable houtput).mp ho,
      (given_iff_usable hannotations).mp hn⟩
  · intro hgiven
    obtain ⟨hd, ha, hi, ho, hn⟩ := hgiven
    refine ⟨haddress, ?_, hbinding, ?_, (given_iff_usable hinput).mpr hi,
      (given_iff_usable houtput).mpr ho, (given_iff_usable hannotations).mpr hn⟩
    · rw [hdescription]
      exact given_getD_empty_iff.mpr hd
    · rw [hargs]
      exact ⟨_, ha, rfl⟩

theorem given_of_optStr {s : String} (h : optStr o key = some s) : Given o key (some s) := by
  unfold optStr at h
  split at h
  · cases h
  · cases h
  · rename_i hstr
    split_ifs at h with ht
    exact h ▸ .str hstr
  · cases h

theorem documentOf_iff {format sourceFormat baseUrl endpoint : Option String}
    (h : DocumentOf OptStr o format sourceFormat baseUrl endpoint) :
    DocumentOf Given o format sourceFormat baseUrl endpoint ↔
      ∀ key ∈ documentFields, Usable o key := by
  simp only [documentFields, List.forall_mem_cons, List.not_mem_nil, false_implies, implies_true,
    and_true, ← given_iff_usable h.format, ← given_iff_usable h.sourceFormat,
    ← given_iff_usable h.baseUrl, ← given_iff_usable h.endpoint]
  constructor
  · intro hgiven
    obtain ⟨hformat, hsource, hbase, hendpoint⟩ := hgiven
    exact ⟨hformat, hsource, hbase, hendpoint⟩
  · intro hgiven
    obtain ⟨hformat, hsource, hbase, hendpoint⟩ := hgiven
    exact ⟨hformat, hsource, hbase, hendpoint⟩

theorem payloadOf_iff {bytes : Bytes} (h : ReadPayload o bytes) :
    PayloadOf o bytes ↔ SameBytes o := by
  constructor
  · intro hpayload
    obtain ⟨⟨hex, hhex, hread⟩, text, htext, hutf8⟩ := hpayload
    refine ⟨⟨_, htext⟩, ⟨_, hhex⟩, fun h s hh hs ↦ ?_⟩
    rw [← hutf8 s (given_unique htext hs)]
    exact hread h (given_unique hhex hh)
  · intro hsame
    obtain ⟨⟨text, htext⟩, ⟨hex, hhex⟩, hagree⟩ := hsame
    cases h with
    | @hex s _ hs hbytes =>
      have hgiven := given_of_optStr hs
      refine ⟨⟨_, hgiven, fun t ht ↦ ?_⟩, text, htext, fun t ht ↦ ?_⟩
      · rwa [← Option.some.inj ht]
      · exact hbytes.unique (hagree s t hgiven (ht ▸ htext))
    | @text s hnone hs =>
      have hgiven := given_of_optStr hs
      refine ⟨⟨hex, hhex, fun t ht ↦ hagree t s (ht ▸ hhex) hgiven⟩, _, hgiven, fun t ht ↦ ?_⟩
      rw [Option.some.inj ht]

theorem getD_eq {v : Option String} {kind : String} (h : v.getD "none" = kind)
    (hkind : kind ≠ "none") : v = some kind := by
  cases v with
  | none => exact absurd h.symm hkind
  | some k => exact congrArg some h

theorem usable_of_read {s : String} (h : optStr o key = some s) : Usable o key := by
  rw [Usable, h]
  exact given_of_optStr h

theorem sourceOf_iff {source : Option CatalogSpecSource}
    (h : ReadSource o ((optStr o "kind").getD "none") source) :
    SourceOf o source ↔ UsableSpec o := by
  generalize hk : (optStr o "kind").getD "none" = kind at h
  have hspec : UsableSpec o ↔ Usable o "kind" ∧ UsableFor o kind := by
    rw [← hk]
    exact ⟨fun h ↦ ⟨h.kind, h.fields⟩, fun h ↦ ⟨h.1, h.2⟩⟩
  rw [hspec, UsableFor]
  cases h with
  | none =>
    rw [if_pos rfl]
    constructor
    · intro h
      cases h with
      | none hkind hrest =>
        refine ⟨?_, hrest⟩
        rcases hkind with hnone | hsome
        · rwa [Usable, optStr_of_given hnone (by simp)]
        · rwa [Usable, optStr_of_given hsome (by simp)]
    · intro hboth
      obtain ⟨husable, hrest⟩ := hboth
      refine .none ?_ hrest
      rw [Usable] at husable
      cases hread : optStr o "kind" with
      | none => exact Or.inl (hread ▸ husable)
      | some k =>
        obtain rfl : k = "none" := by rw [← hk, hread, Option.getD_some]
        exact Or.inr (hread ▸ husable)
  | bytes hbytes hdoc =>
    have hkind := getD_eq hk (by decide)
    rw [if_neg (by decide), if_pos rfl, ← documentOf_iff hdoc, ← payloadOf_iff hbytes]
    constructor
    · intro h
      cases h with
      | bytes _ hgbytes hgdoc => exact ⟨usable_of_read hkind, hgdoc, hgbytes⟩
    · intro h
      exact .bytes (given_of_optStr hkind) h.2.2 h.2.1
  | path hpath hdoc =>
    have hkind := getD_eq hk (by decide)
    rw [if_neg (by decide), if_neg (by decide), ← documentOf_iff hdoc]
    constructor
    · intro h
      cases h with
      | path _ _ hghex hgdoc => exact ⟨usable_of_read hkind, hgdoc, hghex⟩
    · intro h
      exact .path (given_of_optStr hkind) (given_of_optStr hpath) h.2.2 h.2.1
  | url hurl hdoc =>
    have hkind := getD_eq hk (by decide)
    rw [if_neg (by decide), if_neg (by decide), ← documentOf_iff hdoc]
    constructor
    · intro h
      cases h with
      | url _ _ hghex hgdoc => exact ⟨usable_of_read hkind, hgdoc, hghex⟩
    · intro h
      exact .url (given_of_optStr hkind) (given_of_optStr hurl) h.2.2 h.2.1

theorem specOf_iff {v : Json} {source : Option CatalogSpecSource} (h : ReadSpec v source) :
    SpecOf v source ↔ ∀ o, v = .obj o → UsableSpec o := by
  obtain ⟨o, rfl, hsource⟩ := h
  simp only [SpecOf, Json.obj.injEq, forall_eq', exists_eq_left']
  exact sourceOf_iff hsource

theorem connectionOf_iff (o : Object) (c : CatalogConnection) (h : ConnectionOf ReadSpec o c) :
    ConnectionOf SpecOf o c ↔ UsableConnection o := by
  obtain ⟨href, htools, hspec⟩ := h
  constructor
  · intro hgiven spec hfield
    obtain ⟨-, -, hgspec⟩ := hgiven
    rcases hspec with ⟨hnone | hnull, -⟩ | ⟨v, hv, -, hread⟩
    · cases hnone.symm.trans hfield
    · cases hnull.symm.trans hfield
    · rcases hgspec with ⟨hnone | hnull, -⟩ | ⟨w, hw, -, hg⟩
      · cases hnone.symm.trans hfield
      · cases hnull.symm.trans hfield
      · obtain rfl := Option.some.inj (hv.symm.trans hw)
        exact (specOf_iff hread).mp hg spec (Option.some.inj (hv.symm.trans hfield))
  · intro husable
    refine ⟨href, htools, ?_⟩
    rcases hspec with habsent | ⟨v, hv, hnull, hread⟩
    · exact Or.inl habsent
    · exact Or.inr ⟨v, hv, hnull, (specOf_iff hread).mpr fun spec hobj ↦ husable spec (hobj ▸ hv)⟩

theorem isObject_iff {α : Type} {reads states : Object → α → Prop} {usable : Object → Prop}
    (h : ∀ o a, reads o a → (states o a ↔ usable o)) (item : Json) (a : α)
    (hread : IsObject reads item a) :
    IsObject states item a ↔ ∀ o, item = .obj o → usable o := by
  obtain ⟨o, rfl, ho⟩ := hread
  simp only [IsObject, Json.obj.injEq, exists_eq_left', forall_eq']
  exact h o a ho

/-- Where each item is read as one value, the items state their values exactly if each of them
is fit to. -/
theorem listOf_iff {α : Type} {reads states : Json → α → Prop} {fit : Json → Prop}
    (h : ∀ item a, reads item a → (states item a ↔ fit item)) {v : Option Json} {as : List α}
    (hread : ListOf reads v as) :
    ListOf states v as ↔ ∀ items, v = some (.arr items) → ∀ item ∈ items, fit item := by
  rcases hread with ⟨habsent, rfl⟩ | ⟨items, rfl, hitems⟩
  · constructor
    · rintro - items hv
      rcases habsent with hnone | hnull
      · cases hnone.symm.trans hv
      · cases hnull.symm.trans hv
    · exact fun _ ↦ Or.inl ⟨habsent, rfl⟩
  · have hforall : List.Forall₂ states items as ↔ ∀ item ∈ items, fit item := by
      induction hitems with
      | nil => simp
      | cons ha _ ih => rw [List.forall₂_cons, h _ _ ha, ih, List.forall_mem_cons]
    simp only [ListOf, reduceCtorEq, or_self, false_and, false_or, Option.some.injEq,
      Json.arr.injEq, exists_eq_left', forall_eq', hforall]

theorem rootOf_iff {root : Object} {opts : CatalogInjectOptions}
    (h : RootOf (ToolOf OptStr) ReadSpec root opts) :
    RootOf (ToolOf Given) SpecOf root opts ↔ UsableRoot root := by
  obtain ⟨htools, hhost, hconnections⟩ := h
  have hhosts := listOf_iff (isObject_iff toolOf_iff) hhost
  have hconnects := listOf_iff (isObject_iff connectionOf_iff) hconnections
  constructor
  · intro hgiven
    obtain ⟨-, hghost, hgconnections⟩ := hgiven
    exact ⟨hhosts.mp hghost, hconnects.mp hgconnections⟩
  · intro hboth
    obtain ⟨hghost, hgconnections⟩ := hboth
    exact ⟨htools, hhosts.mpr hghost, hconnects.mpr hgconnections⟩

end Account

section Checks

variable {o : Object} {key : String}

theorem optStr_eq_some {s : String} : optStr o key = some s ↔ Required o key s := by
  unfold optStr Required
  cases getField o key with
  | none => simp
  | some v =>
    cases v with
    | str t =>
      by_cases ht : t = ""
      · simp only [ht, ↓reduceIte, reduceCtorEq, Option.some.injEq, Json.str.injEq, false_iff]
        exact fun h ↦ h.2 h.1.symm
      · simp only [ht, ↓reduceIte, Option.some.injEq, Json.str.injEq, iff_self_and]
        exact fun h ↦ h ▸ ht
    | _ => simp

theorem optStr_eq_none : optStr o key = none ↔ ¬∃ s, Required o key s := by
  simp only [← optStr_eq_some, Option.eq_none_iff_forall_ne_some, not_exists]

theorem exists_readPayload :
    (∃ bytes, ReadPayload o bytes) ↔
      ((∃ s, Required o "payload_hex" s) ∨ ∃ s, Required o "payload" s) ∧
        ∀ s, Required o "payload_hex" s → ∃ bytes, HexText (toUtf8 (trim s)) bytes := by
  constructor
  · intro h
    obtain ⟨bytes, hbytes⟩ := h
    cases hbytes with
    | @hex s _ hs hhex =>
      have hreq := optStr_eq_some.mp hs
      refine ⟨Or.inl ⟨s, hreq⟩, fun t ht ↦ ⟨bytes, ?_⟩⟩
      rwa [← Option.some.inj (hs.symm.trans (optStr_eq_some.mpr ht))]
    | @text s hnone hs =>
      refine ⟨Or.inr ⟨s, optStr_eq_some.mp hs⟩, fun t ht ↦ ?_⟩
      exact absurd ⟨t, ht⟩ (optStr_eq_none.mp hnone)
  · intro h
    obtain ⟨hsome, hhex⟩ := h
    by_cases hex : ∃ s, Required o "payload_hex" s
    · obtain ⟨s, hs⟩ := hex
      obtain ⟨bytes, hbytes⟩ := hhex s hs
      exact ⟨bytes, .hex (optStr_eq_some.mpr hs) hbytes⟩
    · obtain ⟨s, hs⟩ := hsome.resolve_left hex
      exact ⟨_, .text (optStr_eq_none.mpr hex) (optStr_eq_some.mpr hs)⟩

theorem exists_readSource :
    (∃ source, ReadSource o ((optStr o "kind").getD "none") source) ↔ PassesSpec o := by
  constructor
  · intro h
    obtain ⟨source, hsource⟩ := h
    generalize hk : (optStr o "kind").getD "none" = kind at hsource
    have hkind (k : String) (hreq : Required o "kind" k) : k = kind := by
      rw [← hk, optStr_eq_some.mpr hreq, Option.getD_some]
    cases hsource with
    | none =>
      exact ⟨fun k hreq ↦ by simp [hkind k hreq], fun hreq ↦ absurd (hkind _ hreq) (by decide),
        fun hreq ↦ absurd (hkind _ hreq) (by decide),
        fun k hk hreq ↦ absurd (hkind k hreq ▸ hk) (by decide)⟩
    | bytes hbytes _ =>
      obtain ⟨hsome, hhex⟩ := exists_readPayload.mp ⟨_, hbytes⟩
      exact ⟨fun k hreq ↦ by simp [hkind k hreq], fun _ ↦ hsome, fun _ ↦ hhex,
        fun k hk hreq ↦ absurd (hkind k hreq ▸ hk) (by decide)⟩
    | path htext _ | url htext _ =>
      exact ⟨fun k hreq ↦ by simp [hkind k hreq], fun hreq ↦ absurd (hkind _ hreq) (by decide),
        fun hreq ↦ absurd (hkind _ hreq) (by decide), fun _ _ _ ↦ ⟨_, optStr_eq_some.mp htext⟩⟩
  · intro h
    cases hread : optStr o "kind" with
    | none => exact ⟨none, .none⟩
    | some k =>
      have hreq := optStr_eq_some.mp hread
      have hfour := h.kind k hreq
      simp only [List.mem_cons, List.not_mem_nil, or_false] at hfour
      rcases hfour with rfl | rfl | rfl | rfl
      · exact ⟨none, .none⟩
      · obtain ⟨bytes, hbytes⟩ := exists_readPayload.mpr ⟨h.bytes hreq, h.hex hreq⟩
        exact ⟨_, .bytes hbytes ⟨rfl, rfl, rfl, rfl⟩⟩
      · obtain ⟨path, hpath⟩ := h.text "path" (by simp) hreq
        exact ⟨_, .path (optStr_eq_some.mpr hpath) ⟨rfl, rfl, rfl, rfl⟩⟩
      · obtain ⟨url, hurl⟩ := h.text "url" (by simp) hreq
        exact ⟨_, .url (optStr_eq_some.mpr hurl) ⟨rfl, rfl, rfl, rfl⟩⟩

theorem exists_toolOf (o : Object) : (∃ t, ToolOf OptStr o t) ↔ PassesTool o := by
  constructor
  · intro h
    obtain ⟨t, ht⟩ := h
    exact ⟨⟨_, ht.address⟩, ⟨_, ht.bindingName⟩⟩
  · intro h
    obtain ⟨⟨address, haddress⟩, bindingName, hbinding⟩ := h
    exact ⟨⟨address, _, bindingName, _, _, _, _⟩, haddress, ⟨_, rfl, rfl⟩, hbinding, ⟨_, rfl, rfl⟩,
      rfl, rfl, rfl⟩

theorem exists_listOf {α : Type} {reads : Json → α → Prop} {fit : Json → Prop}
    (h : ∀ item, (∃ a, reads item a) ↔ fit item) {v : Option Json} :
    (∃ as, ListOf reads v as) ↔ ArrayOf fit v := by
  have hitems (items : List Json) :
      (∃ as, List.Forall₂ reads items as) ↔ ∀ item ∈ items, fit item := by
    induction items with
    | nil => simp
    | cons item items ih =>
      rw [List.forall_mem_cons, ← h, ← ih]
      constructor
      · intro hcons
        obtain ⟨as, has⟩ := hcons
        cases has with
        | cons ha has => exact ⟨⟨_, ha⟩, _, has⟩
      · intro hboth
        obtain ⟨⟨a, ha⟩, as, has⟩ := hboth
        exact ⟨a :: as, .cons ha has⟩
  constructor
  · intro hlist
    obtain ⟨as, ⟨habsent, -⟩ | ⟨items, hv, has⟩⟩ := hlist
    · exact Or.inl habsent
    · exact Or.inr ⟨items, hv, (hitems items).mp ⟨as, has⟩⟩
  · intro harray
    rcases harray with habsent | ⟨items, hv, hfit⟩
    · exact ⟨[], Or.inl ⟨habsent, rfl⟩⟩
    · obtain ⟨as, has⟩ := (hitems items).mpr hfit
      exact ⟨as, Or.inr ⟨items, hv, has⟩⟩

theorem exists_isObject {α : Type} {reads : Object → α → Prop} {passes : Object → Prop}
    (h : ∀ o, (∃ a, reads o a) ↔ passes o) (item : Json) :
    (∃ a, IsObject reads item a) ↔ ObjectOf passes item := by
  constructor
  · intro hread
    obtain ⟨a, o, hitem, ha⟩ := hread
    exact ⟨o, hitem, (h o).mp ⟨a, ha⟩⟩
  · intro hpasses
    obtain ⟨o, hitem, ho⟩ := hpasses
    obtain ⟨a, ha⟩ := (h o).mpr ho
    exact ⟨a, o, hitem, ha⟩

theorem exists_strings {v : Option Json} : (∃ ss, Strings v ss) ↔ ArrayOf StringItem v :=
  exists_listOf fun _ ↦ Iff.rfl

theorem exists_connectionOf (o : Object) :
    (∃ c, ConnectionOf ReadSpec o c) ↔ PassesConnection o := by
  constructor
  · intro h
    obtain ⟨c, href, htools, hspec⟩ := h
    refine ⟨⟨_, href⟩, exists_strings.mp ⟨_, htools⟩, fun v hv hnull ↦ ?_⟩
    rcases hspec with ⟨hnone | hnull', -⟩ | ⟨w, hw, -, spec, rfl, hread⟩
    · cases hnone.symm.trans hv
    · exact absurd (Option.some.inj (hv.symm.trans hnull')) hnull
    · exact ⟨spec, Option.some.inj (hv.symm.trans hw), exists_readSource.mp ⟨_, hread⟩⟩
  · intro h
    obtain ⟨⟨reference, href⟩, htools, hspec⟩ := h
    obtain ⟨tools, htools⟩ := exists_strings.mpr htools
    by_cases habsent : getField o "spec" = none ∨ getField o "spec" = some .null
    · exact ⟨⟨reference, none, tools⟩, href, htools, Or.inl ⟨habsent, rfl⟩⟩
    · obtain ⟨v, hv⟩ := Option.ne_none_iff_exists'.mp fun hnone ↦ habsent (Or.inl hnone)
      have hnull : v ≠ .null := fun hnull ↦ habsent (Or.inr (hnull ▸ hv))
      obtain ⟨spec, rfl, hpasses⟩ := hspec v hv hnull
      obtain ⟨source, hsource⟩ := exists_readSource.mpr hpasses
      exact ⟨⟨reference, source, tools⟩, href, htools, Or.inr ⟨_, hv, hnull, spec, rfl, hsource⟩⟩

/-- A root that passes the checks is read, and no other. -/
theorem exists_rootOf {root : Object} {compilerWasm : Bytes} {generation : UInt64} :
    (∃ opts, RootOf (ToolOf OptStr) ReadSpec root opts ∧ opts.compilerWasm = compilerWasm ∧
      opts.generation = generation) ↔ PassesRoot root := by
  have htool := exists_listOf (exists_isObject exists_toolOf) (v := getField root "host_tools")
  have hconnection :=
    exists_listOf (exists_isObject exists_connectionOf) (v := getField root "connections")
  constructor
  · intro h
    obtain ⟨opts, ⟨htools, hhost, hconnections⟩, -⟩ := h
    exact ⟨exists_strings.mp ⟨_, htools⟩, htool.mp ⟨_, hhost⟩, hconnection.mp ⟨_, hconnections⟩⟩
  · intro h
    obtain ⟨htools, hhost, hconnections⟩ := h
    obtain ⟨tools, htools⟩ := exists_strings.mpr htools
    obtain ⟨hostTools, hhost⟩ := htool.mpr hhost
    obtain ⟨connections, hconnections⟩ := hconnection.mpr hconnections
    exact ⟨⟨compilerWasm, connections, tools, hostTools, generation⟩,
      ⟨htools, hhost, hconnections⟩, rfl, rfl⟩

end Checks

def numberedText : String :=
  "\x7b\"connections\":[\x7b\"reference\":\"api\",\"spec\":\x7b\"kind\":7,\"payload\":\"openapi\"\x7d\x7d]\x7d"

def numbered : Json :=
  .obj [("connections", .arr [.obj [("reference", .str "api"),
    ("spec", .obj [("kind", .num "7"), ("payload", .str "openapi")])]])]

def readsNumbered : CatalogLib where
  jsonParse := fun text ↦ if text = numberedText then .ok numbered else .error .parse
  debugStr := fun s ↦ "\"" ++ s ++ "\""
  debugChar := fun c ↦ "'" ++ c.toString ++ "'"

end MachineNotebook.Host.CatalogFaithful
