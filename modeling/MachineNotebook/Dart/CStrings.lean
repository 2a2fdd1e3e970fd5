import MachineNotebook.Dart.Bindings
import MachineNotebook.Host.Error
import MachineNotebook.Lib.Utf16

namespace MachineNotebook.Dart.CStrings

open MachineNotebook.Lib MachineNotebook.Lib.Utf8 Bindings Host.Error

/-- The text arrives: its bytes are its UTF-8 encoding, and the host reads it back. -/
def Survives (s : DartString) : Prop :=
  ∃ text, Utf16.encode text = s ∧ allocCString s = toUtf8 text ++ [0] ∧
    execCString s = toUtf8 text ++ [0] ∧ cstrToStr (some (allocCString s)) = some text

theorem mask_eq (u : UInt16) : (u &&& 0xff).toUInt8 = u.toUInt8 := by
  rw [UInt16.toUInt8_and]
  exact UInt8.and_neg_one

theorem allocCString_eq (s : DartString) : allocCString s = s.map UInt16.toUInt8 ++ [0] := by
  simp only [allocCString, mask_eq]

theorem execCString_eq (s : DartString) : execCString s = allocCString s := by
  rw [allocCString_eq, execCString, List.map_append]
  rfl

def ofAscii (s : DartString) : String := String.ofList (s.map fun u ↦ Char.ofUInt8 u.toUInt8)

section OfAscii

variable {s : DartString}

theorem toNat_ofUInt8 {u : UInt16} (hu : u < 0x80) : (Char.ofUInt8 u.toUInt8).toNat = u.toNat := by
  have hlt : u.toNat < 128 := UInt16.lt_iff_toNat_lt.mp hu
  have hcast : (Char.ofUInt8 u.toUInt8).toNat = u.toNat % 256 := UInt8.toNat_toUInt32 u.toUInt8
  omega

theorem ascii_ofAscii (hs : ∀ u ∈ s, u < 0x80) : Utf16.Ascii (ofAscii s) := by
  intro c hc
  obtain ⟨u, hu, rfl⟩ : ∃ u ∈ s, Char.ofUInt8 u.toUInt8 = c := by simpa [ofAscii] using hc
  rw [toNat_ofUInt8 (hs u hu)]
  exact UInt16.lt_iff_toNat_lt.mp (hs u hu)

theorem encode_ofAscii (hs : ∀ u ∈ s, u < 0x80) : Utf16.encode (ofAscii s) = s := by
  have hid : ∀ u ∈ s, UInt16.ofNat (Char.ofUInt8 u.toUInt8).toNat = u := by
    intro u hu
    rw [toNat_ofUInt8 (hs u hu), UInt16.ofNat_toNat]
  rw [Utf16.encode_ascii (ascii_ofAscii hs), ofAscii, String.toList_ofList, List.map_map]
  exact (List.map_congr_left hid).trans (List.map_id' s)

theorem toUtf8_ofAscii (hs : ∀ u ∈ s, u < 0x80) : toUtf8 (ofAscii s) = s.map UInt16.toUInt8 := by
  have hbyte : ∀ u ∈ s, UInt8.ofNat (Char.ofUInt8 u.toUInt8).toNat = u.toUInt8 := by
    intro u hu
    rw [toNat_ofUInt8 (hs u hu)]
    rfl
  rw [Utf16.toUtf8_ascii (ascii_ofAscii hs), ofAscii, String.toList_ofList, List.map_map]
  exact List.map_congr_left hbyte

end OfAscii

theorem zero_notMem_bytes {s : DartString} (hs : ∀ u ∈ s, u < 0x80) (hnul : 0 ∉ s) :
    (0 : UInt8) ∉ s.map UInt16.toUInt8 := by
  intro hmem
  obtain ⟨u, hu, hzero⟩ := List.mem_map.mp hmem
  have hlt : u.toNat < 128 := UInt16.lt_iff_toNat_lt.mp (hs u hu)
  have hmod : u.toNat % 256 = 0 := congrArg UInt8.toNat hzero
  have hu0 : u = 0 := UInt16.toNat_inj.mp (show u.toNat = 0 by omega)
  exact hnul (hu0 ▸ hu)

theorem cstrToStr_allocCString {s : DartString} (hs : ∀ u ∈ s, u < 0x80) (hnul : 0 ∉ s) :
    cstrToStr (some (allocCString s)) = some (ofAscii s) := by
  rw [allocCString_eq, cstrToStr, Option.bind_some, cstrBytes_append (zero_notMem_bytes hs hnul),
    ← toUtf8_ofAscii hs, fromUtf8_toUtf8]

theorem units_of_ascii {text : String} (h : Utf16.Ascii text) :
    ∀ u ∈ Utf16.encode text, u < 0x80 := by
  intro u hu
  rw [Utf16.encode_ascii h] at hu
  obtain ⟨c, hc, rfl⟩ := List.mem_map.mp hu
  have hlt := h c hc
  have hmod : (UInt16.ofNat c.toNat).toNat = c.toNat % 65536 := rfl
  rw [UInt16.lt_iff_toNat_lt, hmod]
  exact Nat.lt_of_le_of_lt (Nat.mod_le _ _) hlt

theorem survives_iff {s : DartString} (hnul : 0 ∉ s) : Survives s ↔ ∀ u ∈ s, u < 0x80 := by
  constructor
  · intro hsurvives
    obtain ⟨text, rfl, halloc, -, -⟩ := hsurvives
    have hlen := congrArg List.length halloc
    rw [allocCString_eq, List.length_append, List.length_append, List.length_map] at hlen
    exact units_of_ascii (Utf16.ascii_of_length (Nat.add_right_cancel hlen))
  · intro hs
    refine ⟨ofAscii s, encode_ofAscii hs, ?_, ?_, cstrToStr_allocCString hs hnul⟩
    · rw [allocCString_eq, toUtf8_ofAscii hs]
    · rw [execCString_eq, allocCString_eq, toUtf8_ofAscii hs]

theorem zero_notMem_toUtf8 {text : String} (hnul : '\x00' ∉ text.toList) : 0 ∉ toUtf8 text := by
  intro hmem
  obtain ⟨c, hc, hzero⟩ := List.mem_flatMap.mp hmem
  exact zero_notMem_utf8EncodeChar (fun h ↦ hnul (h ▸ hc)) hzero

theorem cStringToDart_eq {text : String} (hnul : '\x00' ∉ text.toList) :
    cStringToDart (some (toUtf8 text ++ [0])) = (toUtf8 text).map UInt8.toUInt16 :=
  congrArg (List.map UInt8.toUInt16) (cstrBytes_append (zero_notMem_toUtf8 hnul))

theorem cStringToDart_iff {text : String} (hnul : '\x00' ∉ text.toList) :
    cStringToDart (some (toUtf8 text ++ [0])) = Utf16.encode text ↔ Utf16.Ascii text := by
  rw [cStringToDart_eq hnul]
  constructor
  · intro h
    have hlen := congrArg List.length h
    rw [List.length_map] at hlen
    exact Utf16.ascii_of_length hlen.symm
  · intro h
    rw [Utf16.encode_ascii h, Utf16.toUtf8_ascii h, List.map_map]
    refine List.map_congr_left (fun c hc ↦ UInt16.toNat_inj.mp ?_)
    have hlt := h c hc
    change c.toNat % 256 = c.toNat % 65536
    omega

/-- Text crosses to the host as itself exactly when it is ASCII, so that no two such texts
become one, and comes back as itself exactly when it is ASCII. -/
theorem ascii_crosses (s s' : DartString) (text : String) (hs : 0 ∉ s) (hs' : 0 ∉ s')
    (htext : '\x00' ∉ text.toList) :
    (Survives s ↔ ∀ u ∈ s, u < 0x80) ∧
      ((∀ u ∈ s, u < 0x80) → (∀ u ∈ s', u < 0x80) →
        cstrToStr (some (allocCString s)) = cstrToStr (some (allocCString s')) → s = s') ∧
      (cStringToDart (some (toUtf8 text ++ [0])) = Utf16.encode text ↔ Utf16.Ascii text) := by
  refine ⟨survives_iff hs, ?_, cStringToDart_iff htext⟩
  intro hascii hascii' heq
  rw [cstrToStr_allocCString hascii hs, cstrToStr_allocCString hascii' hs'] at heq
  rw [← encode_ofAscii hascii, Option.some_inj.mp heq, encode_ofAscii hascii']

/-- "ls" crosses both ways, and is not taken for "cd". -/
theorem ascii_crosses_command :
    Survives [108, 115] ∧
      cstrToStr (some (allocCString [108, 115])) ≠ cstrToStr (some (allocCString [99, 100])) ∧
      cStringToDart (some (toUtf8 "ls" ++ [0])) = Utf16.encode "ls" := by
  obtain ⟨hsurvives, hdistinct, hback⟩ :=
    ascii_crosses [108, 115] [99, 100] "ls" (by decide) (by decide) (by decide)
  refine ⟨hsurvives.mpr (by simp), ?_, hback.mpr (by decide)⟩
  intro h
  exact absurd (hdistinct (by simp) (by simp) h) (by decide)

/-- "Ł" reaches the host as "A", "é" is rejected, "Ā" ends the string, and "é" comes back
as two characters. -/
theorem non_ascii_lost :
    cstrToStr (some (allocCString [0x141])) = some "A" ∧ Utf16.encode "A" ≠ [0x141] ∧
      ¬Survives [0x141] ∧ cstrToStr (some (allocCString [0xE9])) = none ∧
      cstrToStr (some (allocCString [0x61, 0x100, 0x62])) = some "a" ∧
      cStringToDart (some (toUtf8 "é" ++ [0])) = [0xC3, 0xA9] ∧ Utf16.encode "é" = [0xE9] := by
  have hlost : ¬Survives [0x141] := fun h ↦ absurd ((survives_iff (by decide)).mp h) (by simp)
  refine ⟨by decide, by decide, hlost, by decide, by decide, by decide, by decide⟩

end MachineNotebook.Dart.CStrings
