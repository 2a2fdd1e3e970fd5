import MachineNotebook.Host.FreshHandles

namespace MachineNotebook.Host.PersistRequests

open MachineNotebook.Lib.Utf8 Table Relay FreshHandles

def toLeBytes : ℕ → ℕ → Bytes
  | 0, _ => []
  | k + 1, n => UInt8.ofNat n :: toLeBytes k (n / 256)

section Statements

/-- The bytes `op ++ key_len ++ key ++ value`. -/
structure IsRequest (req : Bytes) (op : ℕ) (key value : Bytes) : Prop where
  opLt : op < 2 ^ 32
  keyLt : key.length < 2 ^ 32
  bytes : req = toLeBytes 4 op ++ toLeBytes 4 key.length ++ key ++ value

/-- The event that asks the host for an operation. -/
inductive Asks (handle : Int32) (key value : Bytes) : ℕ → EgressRelayEvent → Prop
  | get : Asks handle key value 0 (.persistGet handle key)
  | put : Asks handle key value 1 (.persistPut handle key value)
  | delete : Asks handle key value 2 (.persistDelete handle key)
  | list : Asks handle key value 3 (.persistList handle key)

/-- A positive handle under which nothing stood is handed out, gets a pending slot, and one event
asks for the operation; all else stays. -/
def Started (op : ℕ) (key value : Bytes) (s : RelayState) (answer : Int32 × RelayState) : Prop :=
  ∃ ev, Asks answer.1 key value op ev ∧ 0 < answer.1.toInt ∧ ¬Open answer.1 s ∧
    answer.2 = { s with
      next := s.allocHandle.2.next
      persist := s.persist.insert answer.1 {}
      events := s.events ++ [ev] }

/-- Every request of an operation 0 to 3 starts it, and any other leaves no trace. -/
structure Decodes (req : Bytes) (s : RelayState) : Prop where
  started : ∀ op key value, IsRequest req op key value → op ≤ 3 →
    Started op key value s (persistStart req s)
  refused : (¬∃ op key value, IsRequest req op key value ∧ op ≤ 3) → persistStart req s = (-1, s)

end Statements

section Bytes

theorem fromLeBytes_toLeBytes {k n : ℕ} (hn : n < 256 ^ k) : fromLeBytes (toLeBytes k n) = n := by
  induction k generalizing n with
  | zero =>
    rw [pow_zero] at hn
    rw [toLeBytes, fromLeBytes]
    omega
  | succ k ih =>
    have hdiv : n / 256 < 256 ^ k := by
      rw [pow_succ] at hn
      omega
    rw [toLeBytes, fromLeBytes, ih hdiv, UInt8.toNat_ofNat']
    omega

theorem toLeBytes_fromLeBytes (bs : Bytes) : toLeBytes bs.length (fromLeBytes bs) = bs := by
  induction bs with
  | nil => rfl
  | cons b bs ih =>
    have hb : b.toNat < 256 := b.toNat_lt
    have hhead : UInt8.ofNat (b.toNat + 256 * fromLeBytes bs) = b := by
      rw [← UInt8.toNat_inj, UInt8.toNat_ofNat']
      omega
    have htail : (b.toNat + 256 * fromLeBytes bs) / 256 = fromLeBytes bs := by omega
    rw [List.length_cons, fromLeBytes, toLeBytes, hhead, htail, ih]

theorem fromLeBytes_lt (bs : Bytes) : fromLeBytes bs < 256 ^ bs.length := by
  induction bs with
  | nil => exact Nat.zero_lt_one
  | cons b bs ih =>
    have hb : b.toNat < 256 := b.toNat_lt
    rw [List.length_cons, fromLeBytes, pow_succ]
    omega

theorem length_toLeBytes (k n : ℕ) : (toLeBytes k n).length = k := by
  induction k generalizing n with
  | zero => rfl
  | succ k ih => rw [toLeBytes, List.length_cons, ih]

end Bytes

variable {req key value : Bytes} {op : ℕ} {s : RelayState}

theorem splitPersist_request (h : IsRequest req op key value) :
    splitPersist req = some (op, key, value) := by
  obtain ⟨hop, hkey, rfl⟩ := h
  have hop : op < 256 ^ 4 := hop
  have hkey : key.length < 256 ^ 4 := hkey
  have htake : (toLeBytes 4 op ++ toLeBytes 4 key.length ++ key ++ value).take 4 =
      toLeBytes 4 op := by
    rw [List.append_assoc, List.append_assoc, List.take_left' (length_toLeBytes 4 op)]
  have hdrop : (toLeBytes 4 op ++ toLeBytes 4 key.length ++ key ++ value).drop 4 =
      toLeBytes 4 key.length ++ (key ++ value) := by
    rw [List.append_assoc, List.append_assoc, List.drop_left' (length_toLeBytes 4 op)]
  have hrest : (toLeBytes 4 op ++ toLeBytes 4 key.length ++ key ++ value).drop 8 =
      key ++ value := by
    rw [List.append_assoc, List.drop_left']
    rw [List.length_append, length_toLeBytes, length_toLeBytes]
  have hlen : (toLeBytes 4 op ++ toLeBytes 4 key.length ++ key ++ value).length =
      8 + key.length + value.length := by
    simp only [List.length_append, length_toLeBytes]
  rw [splitPersist, if_neg (by omega), htake, hdrop, List.take_left' (length_toLeBytes 4 _),
    fromLeBytes_toLeBytes hop, fromLeBytes_toLeBytes hkey]
  simp only
  rw [if_neg (by omega), hrest, List.take_left' rfl, ← List.drop_drop, hrest, List.drop_left' rfl]

theorem request_of_splitPersist (h : splitPersist req = some (op, key, value)) :
    IsRequest req op key value := by
  unfold splitPersist at h
  split at h
  · cases h
  · rename_i hshort
    dsimp only at h
    split at h
    · cases h
    · rename_i hlong
      obtain ⟨hop, hkey, hvalue⟩ : _ ∧ _ ∧ _ := by
        simpa only [Option.some.injEq, Prod.mk.injEq] using h
      have hopLen : (req.take 4).length = 4 := by
        rw [List.length_take]
        omega
      have hkeyLen : ((req.drop 4).take 4).length = 4 := by
        rw [List.length_take, List.length_drop]
        omega
      have hlen : key.length = fromLeBytes ((req.drop 4).take 4) := by
        rw [← hkey, List.length_take, List.length_drop]
        omega
      have hfirst : toLeBytes 4 op = req.take 4 := by
        have h := toLeBytes_fromLeBytes (req.take 4)
        rwa [hopLen, hop] at h
      have hsecond : toLeBytes 4 key.length = (req.drop 4).take 4 := by
        have h := toLeBytes_fromLeBytes ((req.drop 4).take 4)
        rwa [hkeyLen, ← hlen] at h
      refine ⟨?_, ?_, ?_⟩
      · have h := fromLeBytes_lt (req.take 4)
        rwa [hopLen, hop] at h
      · have h := fromLeBytes_lt ((req.drop 4).take 4)
        rwa [hkeyLen, ← hlen] at h
      · rw [hfirst, hsecond, ← hkey, ← hvalue, List.append_assoc, List.append_assoc,
          ← List.drop_drop, List.take_append_drop, ← List.drop_drop (l := req) (i := 4) (j := 4),
          List.take_append_drop, List.take_append_drop]

theorem splitPersist_iff : splitPersist req = some (op, key, value) ↔ IsRequest req op key value :=
  ⟨request_of_splitPersist, splitPersist_request⟩

theorem persistEvent_iff {handle : Int32} {ev : EgressRelayEvent} :
    persistEvent op handle key value = some ev ↔ Asks handle key value op ev := by
  constructor
  · intro h
    unfold persistEvent at h
    split at h
    · cases h
      exact .get
    · cases h
      exact .put
    · cases h
      exact .delete
    · cases h
      exact .list
    · cases h
  · intro h
    cases h with
    | get => rfl
    | put => rfl
    | delete => rfl
    | list => rfl

theorem persistEvent_isSome {handle : Int32} :
    (persistEvent op handle key value).isSome ↔ op ≤ 3 := by
  unfold persistEvent
  split
  · simp
  · simp
  · simp
  · simp
  · rename_i hget hput hdelete hlist
    simp only [Option.isSome_none, Bool.false_eq_true, false_iff]
    have hne : op ≠ 0 ∧ op ≠ 1 ∧ op ≠ 2 ∧ op ≠ 3 := ⟨hget, hput, hdelete, hlist⟩
    omega

theorem allocHandle_pos (s : RelayState) : 0 < s.allocHandle.1.toInt := by
  by_cases hnext : s.next ≤ 0
  · simp only [RelayState.allocHandle, if_pos hnext]
    decide
  · simp only [RelayState.allocHandle, if_neg hnext]
    rw [Int32.le_iff_toInt_le, Int32.toInt_zero] at hnext
    omega

theorem allocHandle_ne (s : RelayState) : s.allocHandle.2.next ≠ s.next := by
  by_cases hnext : s.next ≤ 0
  · intro h
    simp only [RelayState.allocHandle, if_pos hnext] at h
    rw [← h] at hnext
    exact absurd hnext (by decide)
  · rw [Int32.le_iff_toInt_le, Int32.toInt_zero] at hnext
    exact RelayState.allocHandle_moves (by omega)

theorem persistStart_event {ev : EgressRelayEvent} (h : IsRequest req op key value)
    (hev : persistEvent op s.allocHandle.1 key value = some ev) :
    persistStart req s = (s.allocHandle.1, { s with
      next := s.allocHandle.2.next
      persist := s.persist.insert s.allocHandle.1 {}
      events := s.events ++ [ev] }) := by
  rw [persistStart, splitPersist_request h]
  simp only [hev]
  rfl

theorem persistStart_unknown (h : IsRequest req op key value)
    (hev : persistEvent op s.allocHandle.1 key value = none) :
    persistStart req s = (-1, { s with
      next := s.allocHandle.2.next
      persist := s.persist.insert s.allocHandle.1 {} }) := by
  rw [persistStart, splitPersist_request h]
  simp only [hev]
  rfl

theorem started_iff (h : IsRequest req op key value) (hop : op ≤ 3) :
    Started op key value s (persistStart req s) ↔ ¬Open s.allocHandle.1 s := by
  have hsome : (persistEvent op s.allocHandle.1 key value).isSome := persistEvent_isSome.mpr hop
  obtain ⟨ev, hev⟩ := Option.isSome_iff_exists.mp hsome
  rw [persistStart_event h hev]
  constructor
  · intro hgiven
    obtain ⟨ev, -, -, hfree, -⟩ := hgiven
    exact hfree
  · intro hfree
    exact ⟨ev, persistEvent_iff.mp hev, allocHandle_pos s, hfree, rfl⟩

theorem unknown_leaves_trace (h : IsRequest req op key value) (hop : ¬op ≤ 3) :
    persistStart req s ≠ (-1, s) := by
  have hev : persistEvent op s.allocHandle.1 key value = none := by
    rw [← Option.not_isSome_iff_eq_none, persistEvent_isSome]
    exact hop
  rw [persistStart_unknown h hev]
  intro hsame
  exact allocHandle_ne s (congrArg (fun answer ↦ answer.2.next) hsame)

theorem persistStart_malformed (h : ¬∃ op key value, IsRequest req op key value) :
    persistStart req s = (-1, s) := by
  have hnone : splitPersist req = none := by
    rw [Option.eq_none_iff_forall_ne_some]
    rintro ⟨op, key, value⟩ hsplit
    exact h ⟨op, key, value, splitPersist_iff.mp hsplit⟩
  rw [persistStart, hnone]

theorem request_unique {op' : ℕ} {key' value' : Bytes} (h : IsRequest req op key value)
    (h' : IsRequest req op' key' value') : op = op' ∧ key = key' ∧ value = value' := by
  have hsplit := (splitPersist_request h).symm.trans (splitPersist_request h')
  simpa only [Option.some.injEq, Prod.mk.injEq] using hsplit

/-- Persist requests are decoded as they should be exactly if none is of an unknown operation, and
the next handle is free where one is started. -/
theorem decodes_iff (req : Bytes) (s : RelayState) :
    Decodes req s ↔
      ∀ op key value, IsRequest req op key value → op ≤ 3 ∧ ¬Open s.allocHandle.1 s := by
  constructor
  · intro h op key value hreq
    have hop : op ≤ 3 := by
      by_contra hop
      refine unknown_leaves_trace hreq hop (h.refused ?_)
      intro hgiven
      obtain ⟨op', key', value', hreq', hop'⟩ := hgiven
      obtain ⟨rfl, -, -⟩ := request_unique hreq hreq'
      exact hop hop'
    exact ⟨hop, (started_iff hreq hop).mp (h.started op key value hreq hop)⟩
  · intro h
    refine ⟨fun op key value hreq hop ↦ ?_, fun hnone ↦ ?_⟩
    · exact (started_iff hreq hop).mpr (h op key value hreq).2
    · apply persistStart_malformed
      intro hgiven
      obtain ⟨op, key, value, hreq⟩ := hgiven
      exact hnone ⟨op, key, value, hreq, (h op key value hreq).1⟩

def unknownRequest : Bytes := [7, 0, 0, 0, 0, 0, 0, 0]

/-- An unknown operation is answered with -1 and leaves its slot behind. -/
theorem unknown_not_decoded :
    (persistStart unknownRequest RelayState.new).1 = -1 ∧
      ((persistStart unknownRequest RelayState.new).2.persist 1).isSome ∧
      ¬Decodes unknownRequest RelayState.new := by
  have hreq : IsRequest unknownRequest 7 [] [] := ⟨by decide, by decide, rfl⟩
  refine ⟨rfl, rfl, fun h ↦ ?_⟩
  exact absurd ((decodes_iff _ _).mp h 7 [] [] hreq).1 (by decide)

end MachineNotebook.Host.PersistRequests
