import MachineNotebook.Lib.Utf8
import Mathlib.Data.List.Basic

namespace MachineNotebook.Lib.Utf16

open Utf8

def encodeChar (c : Char) : List UInt16 :=
  if c.toNat < 0x10000 then [UInt16.ofNat c.toNat]
  else
    let v := c.toNat - 0x10000
    [UInt16.ofNat (0xD800 + v / 1024), UInt16.ofNat (0xDC00 + v % 1024)]

def encode (s : String) : List UInt16 := s.toList.flatMap encodeChar

def Ascii (s : String) : Prop := ∀ c ∈ s.toList, c.toNat < 0x80

instance (s : String) : Decidable (Ascii s) := List.decidableBAll _ s.toList

theorem length_encodeChar (c : Char) :
    (encodeChar c).length ≤ (String.utf8EncodeChar c).length ∧
      ((encodeChar c).length = (String.utf8EncodeChar c).length → c.toNat < 0x80) := by
  have hv : c.val.toNat = c.toNat := rfl
  simp only [encodeChar, String.utf8EncodeChar, hv]
  repeat' split
  all_goals simp only [List.length_cons, List.length_nil]; omega

theorem length_le (cs : List Char) :
    (cs.flatMap encodeChar).length ≤ (cs.flatMap String.utf8EncodeChar).length ∧
      ((cs.flatMap encodeChar).length = (cs.flatMap String.utf8EncodeChar).length →
        ∀ c ∈ cs, c.toNat < 0x80) := by
  induction cs with
  | nil => simp
  | cons c cs ih =>
    have hc := length_encodeChar c
    simp only [List.flatMap_cons, List.length_append, List.forall_mem_cons]
    exact ⟨by omega, fun h ↦ ⟨hc.2 (by omega), ih.2 (by omega)⟩⟩

theorem ascii_of_length {s : String} (h : (encode s).length = (toUtf8 s).length) : Ascii s :=
  (length_le s.toList).2 h

theorem encodeChar_ascii {c : Char} (h : c.toNat < 0x80) :
    encodeChar c = [UInt16.ofNat c.toNat] := if_pos (by omega)

theorem utf8EncodeChar_ascii {c : Char} (h : c.toNat < 0x80) :
    String.utf8EncodeChar c = [UInt8.ofNat c.toNat] := if_pos (Nat.le_of_lt_succ h)

theorem flatMap_singleton {α β : Type*} {f : α → List β} {g : α → β} {l : List α}
    (h : ∀ a ∈ l, f a = [g a]) : l.flatMap f = l.map g := by
  induction l with
  | nil => rfl
  | cons a l ih =>
    rw [List.flatMap_cons, h a List.mem_cons_self, ih (fun b hb ↦ h b (List.mem_cons_of_mem _ hb))]
    rfl

theorem encode_ascii {s : String} (h : Ascii s) :
    encode s = s.toList.map fun c ↦ UInt16.ofNat c.toNat :=
  flatMap_singleton fun c hc ↦ encodeChar_ascii (h c hc)

theorem toUtf8_ascii {s : String} (h : Ascii s) :
    toUtf8 s = s.toList.map fun c ↦ UInt8.ofNat c.toNat :=
  flatMap_singleton fun c hc ↦ utf8EncodeChar_ascii (h c hc)

end MachineNotebook.Lib.Utf16
