import MachineNotebook.Host.Catalog
import MachineNotebook.Lib.Utf16

namespace MachineNotebook.Host.HexPayload

open MachineNotebook.Lib MachineNotebook.Lib.Utf8 Connections Catalog

variable (debugChar : Char → String)

/-- The loop of `decode_hex` from index `i` on; `none` is a read past the end. -/
def decodeLoop (bytes : Bytes) (i : ℕ) (out : Bytes) : Option (Except String Bytes) :=
  if i < bytes.length then do
    match hexNibble debugChar (← bytes[i]?) with
    | .error e => return .error e
    | .ok hi =>
      match hexNibble debugChar (← bytes[i + 1]?) with
      | .error e => return .error e
      | .ok lo => decodeLoop bytes (i + 2) (out ++ [hi <<< 4 ||| lo])
  else some (.ok out)
termination_by bytes.length - i

def decodeHexAt (s : String) : Option (Except String Bytes) :=
  let bytes := toUtf8 (trim s)
  if bytes.length % 2 ≠ 0 then some (.error "odd length") else decodeLoop debugChar bytes 0 []

def isHexDigit (c : Char) : Bool :=
  ('0' ≤ c && c ≤ '9') || ('a' ≤ c && c ≤ 'f') || ('A' ≤ c && c ≤ 'F')

def HexString (s : String) : Prop := s.length % 2 = 0 ∧ s.toList.all isHexDigit

variable {debugChar} {c : Char} {s : String} {bytes rest out : Bytes} {b : UInt8} {n : ℕ}

theorem isHexDigit_iff : isHexDigit c ↔
    48 ≤ c.toNat ∧ c.toNat ≤ 57 ∨ 97 ≤ c.toNat ∧ c.toNat ≤ 102 ∨ 65 ≤ c.toNat ∧ c.toNat ≤ 70 := by
  simp [isHexDigit, Char.le_def, UInt32.le_iff_toNat_le, or_assoc]

theorem hexDigit_iff : (∃ n, HexDigit b n) ↔
    48 ≤ b.toNat ∧ b.toNat ≤ 57 ∨ 97 ≤ b.toNat ∧ b.toNat ≤ 102 ∨ 65 ≤ b.toNat ∧ b.toNat ≤ 70 := by
  constructor
  · intro h
    obtain ⟨n, hn⟩ := h
    unfold HexDigit at hn
    omega
  · intro h
    unfold HexDigit
    rcases h with h | h | h
    · exact ⟨b.toNat - 48, by omega⟩
    · exact ⟨b.toNat - 87, by omega⟩
    · exact ⟨b.toNat - 55, by omega⟩

theorem exists_high_byte (hc : 0x80 ≤ c.toNat) :
    ∃ b ∈ String.utf8EncodeChar c, 0x80 ≤ b.toNat := by
  have hmod : ∀ n, (UInt8.ofNat n).toNat = n % 256 := fun _ ↦ rfl
  have hvalid : c.val.toNat < 0xD800 ∨ 0xDFFF < c.val.toNat ∧ c.val.toNat < 0x110000 := c.valid
  have hv : c.val.toNat = c.toNat := rfl
  simp only [String.utf8EncodeChar]
  split
  · omega
  · split
    · exact ⟨_, List.mem_cons_self, by rw [hmod]; omega⟩
    · split
      · exact ⟨_, List.mem_cons_self, by rw [hmod]; omega⟩
      · exact ⟨_, List.mem_cons_self, by rw [hmod]; omega⟩

/-- The bytes of a string are digits exactly if its characters are: a character of more bytes has
one that is none. -/
theorem hexBytes_iff : (∀ b ∈ toUtf8 s, ∃ n, HexDigit b n) ↔ s.toList.all isHexDigit := by
  rw [List.all_eq_true]
  constructor
  · intro h c hc
    have hbytes : ∀ b ∈ String.utf8EncodeChar c, ∃ n, HexDigit b n :=
      fun b hb ↦ h b (List.mem_flatMap.mpr ⟨c, hc, hb⟩)
    by_cases hascii : c.toNat < 0x80
    · rw [Utf16.utf8EncodeChar_ascii hascii] at hbytes
      have hbyte := hexDigit_iff.mp (hbytes _ List.mem_cons_self)
      have hmod : (UInt8.ofNat c.toNat).toNat = c.toNat % 256 := rfl
      rw [hmod, Nat.mod_eq_of_lt (by omega)] at hbyte
      exact isHexDigit_iff.mpr hbyte
    · obtain ⟨b, hb, hhigh⟩ := exists_high_byte (Nat.le_of_not_lt hascii)
      have hbyte := hexDigit_iff.mp (hbytes b hb)
      omega
  · intro h b hb
    obtain ⟨c, hc, hbc⟩ := List.mem_flatMap.mp hb
    have hdigit := isHexDigit_iff.mp (h c hc)
    rw [Utf16.utf8EncodeChar_ascii (by omega), List.mem_singleton] at hbc
    have hmod : (UInt8.ofNat c.toNat).toNat = c.toNat % 256 := rfl
    rw [hbc, hexDigit_iff, hmod, Nat.mod_eq_of_lt (by omega)]
    exact hdigit

theorem ascii_of_digits (h : s.toList.all isHexDigit) : Utf16.Ascii s := by
  intro c hc
  have hdigit := isHexDigit_iff.mp (List.all_eq_true.mp h c hc)
  omega

theorem HexText.digits (h : HexText bytes out) : ∀ b ∈ bytes, ∃ n, HexDigit b n := by
  induction h with
  | nil => simp
  | cons hb hc _ _ ih =>
    exact List.forall_mem_cons.mpr ⟨⟨_, hb⟩, List.forall_mem_cons.mpr ⟨⟨_, hc⟩, ih⟩⟩

theorem exists_hexText (bytes : Bytes) (heven : bytes.length % 2 = 0)
    (h : ∀ b ∈ bytes, ∃ n, HexDigit b n) : ∃ out, HexText bytes out := by
  induction bytes using List.twoStepInduction with
  | nil => exact ⟨[], .nil⟩
  | singleton b => cases heven
  | cons_cons b c rest ih _ =>
    obtain ⟨⟨hi, hb⟩, ⟨lo, hc⟩, hrest⟩ :=
      (List.forall_mem_cons.mp h).imp id List.forall_mem_cons.mp
    obtain ⟨out, hout⟩ := ih (by simp only [List.length_cons] at heven; omega) hrest
    have hx : (UInt8.ofNat (16 * hi + lo)).toNat = 16 * hi + lo := by
      have hhi := hb.lt
      have hlo := hc.lt
      exact UInt8.toNat_ofNat_of_lt' (by simp only [UInt8.size]; omega)
    exact ⟨_, .cons hb hc hx hout⟩

theorem decodeLoop_eq (front rest out : Bytes) (heven : rest.length % 2 = 0) :
    decodeLoop debugChar (front ++ rest) front.length out =
      some ((decodePairs debugChar rest).map (out ++ ·)) := by
  induction rest using List.twoStepInduction generalizing front out with
  | nil =>
    rw [decodeLoop.eq_def, if_neg (by simp)]
    simp [decodePairs, Except.map]
  | singleton b => cases heven
  | cons_cons b c rest ih _ =>
    have hb : (front ++ b :: c :: rest)[front.length]? = some b := by simp
    have hc : (front ++ b :: c :: rest)[front.length + 1]? = some c := by
      rw [List.getElem?_append_right (Nat.le_succ _)]
      simp
    rw [decodeLoop.eq_def, if_pos (by simp), hb, hc]
    simp only [decodePairs, Option.bind_eq_bind, Option.bind_some]
    cases hhi : hexNibble debugChar b with
    | error e => rfl
    | ok hi =>
      cases hlo : hexNibble debugChar c with
      | error e => rfl
      | ok lo =>
        have hrest : rest.length % 2 = 0 := by
          simp only [List.length_cons] at heven
          omega
        have hnext : decodeLoop debugChar (front ++ b :: c :: rest) (front.length + 2)
            (out ++ [hi <<< 4 ||| lo]) =
              some ((decodePairs debugChar rest).map ((out ++ [hi <<< 4 ||| lo]) ++ ·)) := by
          simpa using ih (front ++ [b, c]) (out ++ [hi <<< 4 ||| lo]) hrest
        simp only [hnext, bind, Except.bind]
        cases decodePairs debugChar rest with
        | error e => rfl
        | ok tail => simp [Except.map, pure, Except.pure]

theorem decodeLoop_zero (heven : bytes.length % 2 = 0) :
    decodeLoop debugChar bytes 0 [] = some (decodePairs debugChar bytes) := by
  have hloop : decodeLoop debugChar ([] ++ bytes) [].length [] =
      some ((decodePairs debugChar bytes).map ([] ++ ·)) := decodeLoop_eq [] bytes [] heven
  rw [List.nil_append, List.length_nil] at hloop
  rw [hloop]
  cases decodePairs debugChar bytes with
  | error e => rfl
  | ok out => rfl

/-- No byte is read past the end, whatever the string. -/
theorem decodeHexAt_eq (s : String) : decodeHexAt debugChar s = some (decodeHex debugChar s) := by
  unfold decodeHexAt decodeHex
  by_cases hodd : (toUtf8 (trim s)).length % 2 ≠ 0
  · simp only [if_pos hodd]
  · simp only [if_neg hodd]
    exact decodeLoop_zero (by omega)

theorem decodeHex_iff (s : String) :
    (∃ bytes, decodeHex debugChar s = .ok bytes) ↔ HexString (trim s) := by
  simp only [decodeHex_ok]
  constructor
  · intro h
    obtain ⟨bytes, hbytes⟩ := h
    have hdigits := hexBytes_iff.mp (HexText.digits hbytes)
    have hlen := HexText.even hbytes
    rw [Utf16.toUtf8_ascii (ascii_of_digits hdigits), List.length_map] at hlen
    exact ⟨hlen, hdigits⟩
  · intro h
    obtain ⟨hlen, hdigits⟩ := h
    apply exists_hexText
    · rw [Utf16.toUtf8_ascii (ascii_of_digits hdigits), List.length_map]
      exact hlen
    · exact hexBytes_iff.mpr hdigits

section Payload

variable {lib : CatalogLib} {o : Object} {i : ℕ} {t : String}

theorem trim_of_digits (h : t.toList.all isHexDigit) : trim t = t := by
  have hnone : ∀ c ∈ t.toList, isWhitespace c = false := by
    intro c hc
    have hdigit := isHexDigit_iff.mp (List.all_eq_true.mp h c hc)
    rw [← Bool.not_eq_true]
    simp only [isWhitespace, Bool.or_eq_true, Bool.and_eq_true, decide_eq_true_eq, beq_iff_eq]
    omega
  have hfront : t.toList.dropWhile isWhitespace = t.toList := by
    rw [List.dropWhile_eq_self_iff]
    intro hpos
    rw [hnone _ (List.getElem_mem hpos)]
    exact Bool.false_ne_true
  have hback : t.toList.rdropWhile isWhitespace = t.toList := by
    rw [List.rdropWhile_eq_self_iff]
    intro hnil
    rw [hnone _ (List.getLast_mem hnil)]
    exact Bool.false_ne_true
  rw [trim, hfront, hback, String.ofList_toList]

theorem payloadBytes_hex (hne : bytes ≠ []) (hfield : getField o "payload_hex" = some (.str t))
    (ht : HexText (toUtf8 t) bytes) : payloadBytes lib o i = .ok bytes := by
  have htrim := trim_of_digits (hexBytes_iff.mp (HexText.digits ht))
  have hnonempty : t ≠ "" := by
    intro hnil
    rw [hnil] at ht
    cases ht
    exact hne rfl
  have hopt : optStr o "payload_hex" = some t := by
    unfold optStr
    rw [hfield]
    exact if_neg hnonempty
  unfold payloadBytes
  rw [hopt]
  have hdecode : decodeHex lib.debugChar t = .ok bytes := decodeHex_ok.mpr (htrim.symm ▸ ht)
  simp only [hdecode]
  rfl

/-- An empty text counts as none. -/
theorem payloadBytes_empty (hfield : getField o "payload_hex" = some (.str "")) :
    payloadBytes lib o i =
      match optStr o "payload" with
      | some s => .ok (toUtf8 s)
      | none => .error
        ("connections[" ++ toString i ++ "].spec kind=bytes requires payload or payload_hex") := by
  have hopt : optStr o "payload_hex" = none := by
    unfold optStr
    rw [hfield]
    rfl
  cases hpayload : optStr o "payload" with
  | none => simp only [payloadBytes, hopt, hpayload]
  | some s => simp only [payloadBytes, hopt, hpayload]

end Payload

/-- Hex text is decoded to what it stands for, and nothing but hex text is. -/
theorem hex_payloads :
    (∀ lib o i t bytes, bytes ≠ [] → getField o "payload_hex" = some (.str t) →
      HexText (toUtf8 t) bytes → payloadBytes lib o i = .ok bytes) ∧
    (∀ lib o i, getField o "payload_hex" = some (.str "") →
      payloadBytes lib o i =
        match optStr o "payload" with
        | some s => .ok (toUtf8 s)
        | none => .error
          ("connections[" ++ toString i ++ "].spec kind=bytes requires payload or payload_hex")) ∧
    ∀ debugChar s, decodeHexAt debugChar s = some (decodeHex debugChar s) ∧
      ((∃ bytes, decodeHex debugChar s = .ok bytes) ↔ HexString (trim s)) := by
  refine ⟨?_, ?_, ?_⟩
  · intro lib o i t bytes hne hfield ht
    exact payloadBytes_hex hne hfield ht
  · intro lib o i hfield
    exact payloadBytes_empty hfield
  · intro debugChar s
    exact ⟨decodeHexAt_eq s, decodeHex_iff s⟩

def plainLib : CatalogLib where
  jsonParse := fun _ ↦ .error .parse
  debugStr := fun s ↦ "\"" ++ s ++ "\""
  debugChar := fun c ↦ "'" ++ c.toString ++ "'"

/-- The hex text of no bytes is passed over. -/
theorem empty_not_read : ¬∀ lib o i t bytes, getField o "payload_hex" = some (.str t) →
    HexText (toUtf8 t) bytes → payloadBytes lib o i = .ok bytes := by
  intro h
  have hread := h plainLib [("payload_hex", .str "")] 0 "" [] rfl HexText.nil
  rw [payloadBytes_empty rfl] at hread
  cases hread

end MachineNotebook.Host.HexPayload
