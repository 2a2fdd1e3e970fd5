import Mathlib.Data.List.Basic

namespace MachineNotebook.Lib.Utf8

abbrev Bytes := List UInt8

/-- Where a decoder stands between two bytes: between characters, or inside one with
`more + 1` bytes owed, the next of them in `lo..hi`, and `acc` read so far. -/
inductive State
  | start
  | inside (more : ℕ) (lo hi : UInt8) (acc : ℕ)

def first (b : UInt8) : List Char × State :=
  if b < 0x80 then ([Char.ofNat b.toNat], .start)
  else if 0xC2 ≤ b ∧ b ≤ 0xDF then ([], .inside 0 0x80 0xBF (b.toNat - 0xC0))
  else if b = 0xE0 then ([], .inside 1 0xA0 0xBF 0)
  else if b = 0xED then ([], .inside 1 0x80 0x9F 0xD)
  else if 0xE1 ≤ b ∧ b ≤ 0xEF then ([], .inside 1 0x80 0xBF (b.toNat - 0xE0))
  else if b = 0xF0 then ([], .inside 2 0x90 0xBF 0)
  else if 0xF1 ≤ b ∧ b ≤ 0xF3 then ([], .inside 2 0x80 0xBF (b.toNat - 0xF0))
  else if b = 0xF4 then ([], .inside 2 0x80 0x8F 4)
  else (['\uFFFD'], .start)

/-- A byte that cannot go on ends the character as one replacement and is read again
as a first byte. -/
def feed : State → UInt8 → List Char × State
  | .start, b => first b
  | .inside more lo hi acc, b =>
    if lo ≤ b ∧ b ≤ hi then
      let acc := acc * 64 + (b.toNat - 0x80)
      match more with
      | 0 => ([Char.ofNat acc], .start)
      | more + 1 => ([], .inside more 0x80 0xBF acc)
    else (('\uFFFD') :: (first b).1, (first b).2)

def decodeFrom : State → Bytes → List Char
  | .start, [] => []
  | .inside _ _ _ _, [] => ['\uFFFD']
  | q, b :: bs => (feed q b).1 ++ decodeFrom (feed q b).2 bs

/-- UTF-8 with every maximal ill-formed part replaced by one U+FFFD. -/
def decodeLossy (bs : Bytes) : List Char := decodeFrom .start bs

def fromUtf8Lossy (bs : Bytes) : String := String.ofList (decodeLossy bs)

def fromUtf8 (bs : Bytes) : Option String := String.fromUTF8? ⟨bs.toArray⟩

def toUtf8 (s : String) : Bytes := s.toList.flatMap String.utf8EncodeChar

theorem toUtf8_eq (s : String) : (toUtf8 s).toByteArray = s.toByteArray :=
  String.utf8Encode_toList

theorem mk_toArray (bs : Bytes) : (⟨bs.toArray⟩ : ByteArray) = bs.toByteArray :=
  ByteArray.ext List.data_toByteArray.symm

theorem fromUtf8_toUtf8 (s : String) : fromUtf8 (toUtf8 s) = some s := by
  rw [fromUtf8, mk_toArray, toUtf8_eq, String.fromUTF8?, dif_pos s.isValidUTF8]
  rfl

/-- The bytes that are read as a string are the bytes it is encoded with. -/
theorem fromUtf8_iff {bs : Bytes} {s : String} : fromUtf8 bs = some s ↔ bs = toUtf8 s := by
  constructor
  · intro h
    rw [fromUtf8, mk_toArray, String.fromUTF8?] at h
    split at h
    · have hbytes : bs.toByteArray = s.toByteArray := by
        rw [← Option.some.inj h]
        rfl
      rw [← toUtf8_eq] at hbytes
      have hlist := congrArg (fun b : ByteArray ↦ b.data.toList) hbytes
      simpa using hlist
    · cases h
  · intro h
    rw [h, fromUtf8_toUtf8]

theorem zero_notMem_utf8EncodeChar {c : Char} (hc : c ≠ '\x00') :
    (0 : UInt8) ∉ String.utf8EncodeChar c := by
  have hv : c.val.toNat ≠ 0 := fun h ↦ hc (Char.toNat_inj.mp h)
  have hzero : ∀ n, n % 256 ≠ 0 → (0 : UInt8) ≠ UInt8.ofNat n :=
    fun n hn h ↦ hn (congrArg UInt8.toNat h).symm
  simp only [String.utf8EncodeChar]
  split
  · simp only [List.mem_singleton]
    exact hzero _ (by omega)
  · split
    · simp only [List.mem_cons, List.not_mem_nil, or_false, not_or]
      exact ⟨hzero _ (by omega), hzero _ (by omega)⟩
    · split
      · simp only [List.mem_cons, List.not_mem_nil, or_false, not_or]
        exact ⟨hzero _ (by omega), hzero _ (by omega), hzero _ (by omega)⟩
      · simp only [List.mem_cons, List.not_mem_nil, or_false, not_or]
        exact ⟨hzero _ (by omega), hzero _ (by omega), hzero _ (by omega), hzero _ (by omega)⟩

end MachineNotebook.Lib.Utf8
