import MachineNotebook.Host.Connections

namespace MachineNotebook.Host.Policies

open MachineNotebook.Lib.Utf8 Error MachineNotebook.Host.Connections

inductive ConnectionPolicyOwner
  | org
  | user
  deriving DecidableEq

inductive ConnectionPolicyAction
  | approve
  | requireApproval
  | block
  deriving DecidableEq

structure ConnectionPolicyRule where
  owner : ConnectionPolicyOwner
  pattern : String
  action : ConnectionPolicyAction
  deriving DecidableEq

variable {R E : Type}

def parseOwner (debugStr : String → String) (i : ℕ) (s : String) :
    Except String ConnectionPolicyOwner :=
  if s = "org" then .ok .org
  else if s = "user" then .ok .user
  else .error ("policies[" ++ toString i ++ "].owner unknown " ++ debugStr s ++ " (want org|user)")

def parseAction (debugStr : String → String) (i : ℕ) (s : String) :
    Except String ConnectionPolicyAction :=
  if s = "approve" then .ok .approve
  else if s = "require_approval" then .ok .requireApproval
  else if s = "block" then .ok .block
  else .error ("policies[" ++ toString i ++ "].action unknown " ++ debugStr s ++
    " (want approve|require_approval|block)")

def parsePolicy (host : HostLib R E) (i : ℕ) (item : Json) : Except String ConnectionPolicyRule :=
  match item.asObj with
  | none => .error ("policies[" ++ toString i ++ "] must be an object")
  | some o => do
    let owner ← objRequireStr host.debugStr o "owner" i
    let owner ← parseOwner host.debugStr i owner
    let pattern ← objRequireStr host.debugStr o "pattern" i
    let action ← objRequireStr host.debugStr o "action" i
    let action ← parseAction host.debugStr i action
    return { owner, pattern, action }

/-- The loop over the array, from its item `i` on, with the rules pushed so far. -/
def parsePolicies (host : HostLib R E) :
    ℕ → List ConnectionPolicyRule → List Json → Except String (List ConnectionPolicyRule)
  | _, out, [] => .ok out
  | i, out, item :: items => do
    let rule ← parsePolicy host i item
    parsePolicies host (i + 1) (out ++ [rule]) items

def parsePoliciesBlob (host : HostLib R E) (blob : Bytes) :
    Except String (List ConnectionPolicyRule) :=
  if blob = [] then .ok []
  else
    match fromUtf8 blob with
    | none => .error "connection_policies_blob must be UTF-8 JSON"
    | some text =>
      match host.jsonParse text with
      | none => .error "connection_policies_blob is not valid JSON"
      | some root =>
        match root.asArr with
        | none => .error "connection_policies_blob must be a JSON array"
        | some items => parsePolicies host 0 [] items

section Statements

inductive OwnerText : String → ConnectionPolicyOwner → Prop
  | org : OwnerText "org" .org
  | user : OwnerText "user" .user

inductive ActionText : String → ConnectionPolicyAction → Prop
  | approve : ActionText "approve" .approve
  | requireApproval : ActionText "require_approval" .requireApproval
  | block : ActionText "block" .block

def StatesRule (item : Json) (rule : ConnectionPolicyRule) : Prop :=
  ∃ o, item = .obj o ∧
    (∃ owner, objGet o "owner" = some (.str owner) ∧ OwnerText owner rule.owner) ∧
    (objGet o "pattern" = some (.str rule.pattern) ∧ rule.pattern ≠ "") ∧
    ∃ action, objGet o "action" = some (.str action) ∧ ActionText action rule.action

/-- The blob is UTF-8 JSON whose root is an array that states these rules, one in each item. -/
def StatesRules (host : HostLib R E) (blob : Bytes) (rules : List ConnectionPolicyRule) : Prop :=
  ∃ text items, fromUtf8 blob = some text ∧ host.jsonParse text = some (.arr items) ∧
    List.Forall₂ StatesRule items rules

end Statements

variable {host : HostLib R E} {debugStr : String → String} {i : ℕ}

theorem parseOwner_ok {s : String} {owner : ConnectionPolicyOwner} :
    parseOwner debugStr i s = .ok owner ↔ OwnerText s owner := by
  constructor
  · intro h
    unfold parseOwner at h
    split_ifs at h with horg huser
    · subst horg
      cases h
      exact .org
    · subst huser
      cases h
      exact .user
  · intro h
    cases h with
    | org => rfl
    | user => rfl

theorem parseAction_ok {s : String} {action : ConnectionPolicyAction} :
    parseAction debugStr i s = .ok action ↔ ActionText s action := by
  constructor
  · intro h
    unfold parseAction at h
    split_ifs at h with happrove hrequire hblock
    · subst happrove
      cases h
      exact .approve
    · subst hrequire
      cases h
      exact .requireApproval
    · subst hblock
      cases h
      exact .block
  · intro h
    cases h with
    | approve => rfl
    | requireApproval => rfl
    | block => rfl

theorem OwnerText.ne_empty {s : String} {owner : ConnectionPolicyOwner} (h : OwnerText s owner) :
    s ≠ "" := by
  cases h <;> decide

theorem ActionText.ne_empty {s : String} {action : ConnectionPolicyAction}
    (h : ActionText s action) : s ≠ "" := by
  cases h <;> decide

theorem parsePolicy_ok {item : Json} {rule : ConnectionPolicyRule} :
    parsePolicy host i item = .ok rule ↔ StatesRule item rule := by
  cases item with
  | obj o =>
    simp only [parsePolicy, Json.asObj, bind_ok, objRequireStr_ok, parseOwner_ok, parseAction_ok]
    constructor
    · rintro ⟨ownerText, ⟨howner, -⟩, owner, hownerText, pattern, hpattern, actionText,
        ⟨haction, -⟩, action, hactionText, hrule⟩
      obtain rfl := Except.ok.inj hrule
      exact ⟨o, rfl, ⟨ownerText, howner, hownerText⟩, hpattern, actionText, haction, hactionText⟩
    · intro h
      obtain ⟨o', ho, ⟨ownerText, howner, hownerText⟩, hpattern, actionText, haction, hactionText⟩ := h
      obtain rfl := Json.obj.inj ho
      exact ⟨ownerText, ⟨howner, hownerText.ne_empty⟩, _, hownerText, _, hpattern, actionText,
        ⟨haction, hactionText.ne_empty⟩, _, hactionText, rfl⟩
  | _ =>
    simp only [parsePolicy, Json.asObj, reduceCtorEq, false_iff]
    exact not_exists_obj rfl

theorem parsePolicies_ok {items : List Json} {out rules : List ConnectionPolicyRule} :
    parsePolicies host i out items = .ok rules ↔
      ∃ more, rules = out ++ more ∧ List.Forall₂ StatesRule items more := by
  induction items generalizing i out with
  | nil =>
    constructor
    · intro h
      obtain rfl := Except.ok.inj h
      exact ⟨[], (List.append_nil out).symm, .nil⟩
    · intro hgiven
      obtain ⟨more, rfl, hnil⟩ := hgiven
      cases hnil
      rw [List.append_nil]
      rfl
  | cons item items ih =>
    simp only [parsePolicies, bind_ok, parsePolicy_ok, ih, List.append_assoc]
    constructor
    · intro hgiven
      obtain ⟨rule, hrule, more, hrules, hmore⟩ := hgiven
      exact ⟨rule :: more, hrules, .cons hrule hmore⟩
    · intro hgiven
      obtain ⟨more, hrules, hmore⟩ := hgiven
      cases hmore with
      | cons hrule hmore => exact ⟨_, hrule, _, hrules, hmore⟩

theorem parse_ok {blob : Bytes} (hne : blob ≠ []) {rules : List ConnectionPolicyRule} :
    parsePoliciesBlob host blob = .ok rules ↔ StatesRules host blob rules := by
  rw [parsePoliciesBlob, if_neg hne, StatesRules]
  cases fromUtf8 blob with
  | none => simp
  | some text =>
    simp only [Option.some.injEq, exists_and_left, exists_eq_left']
    cases host.jsonParse text with
    | none => simp
    | some root =>
      cases root with
      | arr items =>
        simp only [Json.asArr, parsePolicies_ok, List.nil_append, exists_eq_left',
          Option.some.injEq, Json.arr.injEq]
      | _ => simp [Json.asArr]

/-- Policy rules are parsed exactly, all or nothing. -/
theorem parsePoliciesBlob_ok_iff (host : HostLib R E) (blob : Bytes)
    (rules : List ConnectionPolicyRule) :
    parsePoliciesBlob host blob = .ok rules ↔
      blob = [] ∧ rules = [] ∨ blob ≠ [] ∧ StatesRules host blob rules := by
  by_cases hblob : blob = []
  · subst hblob
    constructor
    · intro h
      exact Or.inl ⟨rfl, (Except.ok.inj h).symm⟩
    · rintro (⟨-, rfl⟩ | ⟨hne, -⟩)
      · rfl
      · exact absurd rfl hne
  · simp only [parse_ok hblob, hblob, false_and, false_or, ne_eq, not_false_eq_true, true_and]

end MachineNotebook.Host.Policies
