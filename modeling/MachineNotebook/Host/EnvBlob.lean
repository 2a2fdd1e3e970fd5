import Mathlib.Data.List.Induction
import MachineNotebook.Host.Exec

namespace MachineNotebook.Host.EnvBlob

open MachineNotebook.Lib.Utf8 Buf Error Exec

def NulFree (s : String) : Prop := '\x00' ∉ s.toList

def Clean (pairs : List (String × String)) : Prop := ∀ p ∈ pairs, NulFree p.1 ∧ NulFree p.2

def encodePair (p : String × String) : Bytes := toUtf8 p.1 ++ 0 :: (toUtf8 p.2 ++ [0])

def encodeEnv (pairs : List (String × String)) : Bytes := pairs.flatMap encodePair

def lastValue (pairs : List (String × String)) (key : String) : Option String :=
  pairs.reverse.lookup key

/-- The blob that the options point to. -/
def blobOf (o : AosExecOpts) : Bytes := (o.envBlob.getD []).take o.envBlobLen

variable {blob key rest : Bytes} {k v : String} {p : String × String}
  {pairs tail : List (String × String)}

theorem nulFree_iff {s : String} : NulFree s ↔ 0 ∉ toUtf8 s := by
  rw [NulFree, toUtf8, List.mem_flatMap]
  push Not
  constructor
  · intro h c hc
    apply zero_notMem_utf8EncodeChar
    intro he
    exact h (he ▸ hc)
  · intro h hmem
    exact h _ hmem (by decide)

theorem splitNul_iff : splitNul blob = some (key, rest) ↔ blob = key ++ 0 :: rest ∧ 0 ∉ key := by
  constructor
  · intro h
    obtain ⟨i, hi, hsplit⟩ := Option.map_eq_some_iff.mp h
    obtain ⟨hlt, hzero, hfirst⟩ := List.findIdx?_eq_some_iff_getElem.mp hi
    obtain ⟨rfl, rfl⟩ := Prod.mk.inj hsplit
    constructor
    · have h0 : blob[i] = 0 := eq_of_beq hzero
      rw [← h0, List.getElem_cons_drop, List.take_append_drop]
    · intro hmem
      obtain ⟨j, hj, hjmem⟩ := List.getElem_of_mem hmem
      rw [List.length_take] at hj
      rw [List.getElem_take] at hjmem
      have hne := hfirst j (by omega)
      simp [hjmem] at hne
  · intro h
    obtain ⟨rfl, hkey⟩ := h
    have hfind : (key ++ 0 :: rest).findIdx? (· == 0) = some key.length := by
      rw [List.findIdx?_eq_some_iff_getElem]
      refine ⟨by simp, by simp, ?_⟩
      intro j hj
      rw [List.getElem_append_left hj]
      intro he
      exact hkey (eq_of_beq he ▸ List.getElem_mem hj)
    rw [splitNul, hfind]
    simp

theorem splitNul_text (hk : NulFree k) : splitNul (toUtf8 k ++ 0 :: rest) = some (toUtf8 k, rest) :=
  splitNul_iff.mpr ⟨rfl, nulFree_iff.mp hk⟩

theorem encodePair_append :
    encodePair p ++ rest = toUtf8 p.1 ++ 0 :: (toUtf8 p.2 ++ 0 :: rest) := by
  simp [encodePair]

theorem parse_pair (hk : NulFree p.1) (hv : NulFree p.2) :
    parseEnvBlob (encodePair p ++ rest) = (parseEnvBlob rest).map (p :: ·) := by
  rw [encodePair_append, parseEnvBlob.eq_def, if_neg (by simp)]
  split
  · rename_i hnone
    rw [splitNul_text hk] at hnone
    cases hnone
  · rename_i hsome
    rw [splitNul_text hk] at hsome
    obtain ⟨rfl, rfl⟩ := Prod.mk.inj (Option.some.inj hsome)
    rw [fromUtf8_toUtf8]
    simp only
    rw [if_neg (by simp)]
    split
    · rename_i hnone
      rw [splitNul_text hv] at hnone
      cases hnone
    · rename_i hsome
      rw [splitNul_text hv] at hsome
      obtain ⟨rfl, rfl⟩ := Prod.mk.inj (Option.some.inj hsome)
      rw [fromUtf8_toUtf8]

theorem parse_round (hne : blob ≠ []) (hparse : parseEnvBlob blob = .ok pairs) :
    ∃ p rest tail, NulFree p.1 ∧ NulFree p.2 ∧ blob = encodePair p ++ rest ∧
      parseEnvBlob rest = .ok tail ∧ pairs = p :: tail := by
  rw [parseEnvBlob.eq_def, if_neg hne] at hparse
  split at hparse
  · cases hparse
  · rename_i key rest hkey
    obtain ⟨rfl, hk0⟩ := splitNul_iff.mp hkey
    split at hparse
    · cases hparse
    · rename_i k hk
      obtain rfl := fromUtf8_iff.mp hk
      split at hparse
      · cases hparse
      · split at hparse
        · cases hparse
        · rename_i val rest' hval
          obtain ⟨rfl, hv0⟩ := splitNul_iff.mp hval
          split at hparse
          · cases hparse
          · rename_i v hv
            obtain rfl := fromUtf8_iff.mp hv
            cases htail : parseEnvBlob rest' with
            | error e =>
              rw [htail] at hparse
              cases hparse
            | ok tail =>
              rw [htail] at hparse
              have hblob :
                  toUtf8 k ++ 0 :: (toUtf8 v ++ 0 :: rest') = encodePair (k, v) ++ rest' := by
                rw [encodePair_append]
              exact ⟨(k, v), rest', tail, nulFree_iff.mpr hk0, nulFree_iff.mpr hv0, hblob, htail,
                (Except.ok.inj hparse).symm⟩

theorem parse_nil : parseEnvBlob [] = .ok [] := by rw [parseEnvBlob.eq_def, if_pos rfl]

theorem parse_encodeEnv (hclean : Clean pairs) : parseEnvBlob (encodeEnv pairs) = .ok pairs := by
  induction pairs with
  | nil => exact parse_nil
  | cons p pairs ih =>
    obtain ⟨hk, hv⟩ := hclean p List.mem_cons_self
    have htail : Clean pairs := fun q hq ↦ hclean q (List.mem_cons_of_mem p hq)
    rw [encodeEnv, List.flatMap_cons, parse_pair hk hv, ← encodeEnv, ih htail]
    rfl

theorem parse_ok (hparse : parseEnvBlob blob = .ok pairs) :
    blob = encodeEnv pairs ∧ Clean pairs := by
  induction pairs generalizing blob with
  | nil =>
    by_cases hnil : blob = []
    · exact ⟨hnil, by simp [Clean]⟩
    · obtain ⟨p, rest, tail, -, -, -, -, hcons⟩ := parse_round hnil hparse
      cases hcons
  | cons q pairs ih =>
    have hne : blob ≠ [] := by
      intro hnil
      rw [hnil, parse_nil] at hparse
      cases hparse
    obtain ⟨p, rest, tail, hk, hv, rfl, hrest, hcons⟩ := parse_round hne hparse
    obtain ⟨rfl, rfl⟩ := List.cons.inj hcons
    obtain ⟨rfl, htail⟩ := ih hrest
    exact ⟨List.flatMap_cons.symm, List.forall_mem_cons.mpr ⟨⟨hk, hv⟩, htail⟩⟩

theorem parse_iff : parseEnvBlob blob = .ok pairs ↔ blob = encodeEnv pairs ∧ Clean pairs := by
  constructor
  · exact parse_ok
  · intro h
    obtain ⟨rfl, hclean⟩ := h
    exact parse_encodeEnv hclean

/-- Inserting the pairs one after the other keeps the last value of each key. -/
theorem envOf_eq (pairs : List (String × String)) : envOf pairs = lastValue pairs := by
  induction pairs using List.reverseRecOn with
  | nil => rfl
  | append_singleton pairs p ih =>
    obtain ⟨k, v⟩ := p
    funext key
    have hlast : lastValue (pairs ++ [(k, v)]) key = ((k, v) :: pairs.reverse).lookup key := by
      rw [lastValue, List.reverse_append]
      rfl
    rw [envOf, List.foldl_append, ← envOf, ih, hlast]
    by_cases hkey : key = k
    · simp [hkey]
    · simp [hkey, beq_false_of_ne hkey, List.lookup_cons, lastValue]

theorem readEnv_eq (o : AosExecOpts) (hptr : o.envBlobLen ≠ 0 → o.envBlob ≠ none) :
    readEnv o.envBlob o.envBlobLen = (parseEnvBlob (blobOf o)).map lastValue := by
  unfold readEnv
  by_cases hlen : o.envBlobLen = 0
  · rw [if_pos hlen, blobOf, hlen, List.take_zero, parse_nil]
    rfl
  · obtain ⟨blob, hblob⟩ := Option.ne_none_iff_exists'.mp (hptr hlen)
    rw [if_neg hlen, blobOf, hblob, Option.getD_some, funext envOf_eq]

theorem readExecOpts_env {o : AosExecOpts} {eo : KernelHost.ExecOptions} {ticks : ℕ}
    (h : readExecOpts (some o) = .ok (eo, ticks)) :
    readEnv o.envBlob o.envBlobLen = .ok eo.env := by
  simp only [readExecOpts, bind_ok] at h
  obtain ⟨cwd, -, env, henv, stdin, -, hopts⟩ := h
  obtain ⟨rfl, -⟩ := Prod.mk.inj (Except.ok.inj hopts)
  exact henv

theorem readExecOpts_lastValue {o : AosExecOpts} {eo : KernelHost.ExecOptions} {ticks : ℕ}
    (h : readExecOpts (some o) = .ok (eo, ticks)) :
    ∃ pairs, parseEnvBlob (blobOf o) = .ok pairs ∧ eo.env = lastValue pairs := by
  have henv := readExecOpts_env h
  have hptr : o.envBlobLen ≠ 0 → o.envBlob ≠ none := by
    intro hlen hnull
    rw [hnull, readEnv, if_neg hlen] at henv
    cases henv
  rw [readEnv_eq o hptr] at henv
  cases hparse : parseEnvBlob (blobOf o) with
  | error e =>
    rw [hparse] at henv
    cases henv
  | ok pairs =>
    rw [hparse] at henv
    exact ⟨pairs, rfl, (Except.ok.inj henv).symm⟩

end MachineNotebook.Host.EnvBlob
