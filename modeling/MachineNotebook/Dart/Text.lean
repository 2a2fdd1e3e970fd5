import MachineNotebook.Dart.Bindings
import MachineNotebook.Lib.Utf16
import MachineNotebook.Lib.Utf8Lines
import Mathlib.Data.List.DropRight

namespace MachineNotebook.Dart.Text

open MachineNotebook.Lib MachineNotebook.Lib.Utf8 Bindings

def dropBom : Bytes → Bytes
  | 0xEF :: 0xBB :: 0xBF :: bs => bs
  | bs => bs

/-- `utf8.decode` with `allowMalformed`, by the characters of the string it gives. A byte order
mark in front is dropped. -/
def utf8Decode (bs : Bytes) : List Char := decodeLossy (dropBom bs)

def ofChars (cs : List Char) : DartString := cs.flatMap Utf16.encodeChar

abbrev CodePoint := Fin 0x110000

def fromCharCodes (codes : List CodePoint) : DartString :=
  codes.flatMap fun code ↦
    if code.val < 0x10000 then [UInt16.ofNat code.val]
    else
      let v := code.val - 0x10000
      [UInt16.ofNat (0xD800 + v / 1024), UInt16.ofNat (0xDC00 + v % 1024)]

def isWhitespace (c : Char) : Bool :=
  let v := c.toNat
  (0x09 ≤ v && v ≤ 0x0D) || v == 0x20 || v == 0x85 || v == 0xA0 || v == 0x1680 ||
    (0x2000 ≤ v && v ≤ 0x200A) || v == 0x2028 || v == 0x2029 || v == 0x202F || v == 0x205F ||
    v == 0x3000 || v == 0xFEFF

def trimLeft (cs : List Char) : List Char := cs.dropWhile isWhitespace

/-- White space by its unit: none of it is a surrogate, of which `Char.ofNat` makes a zero. -/
def isTrimmed (u : UInt16) : Bool := isWhitespace (Char.ofNat u.toNat)

def trim (s : DartString) : DartString := (s.dropWhile isTrimmed).rdropWhile isTrimmed

def startsWith (cs : List Char) (head : String) : Bool := head.toList.isPrefixOf cs

def BOM : Bytes := [0xEF, 0xBB, 0xBF]

theorem dropBom_cases (bs : Bytes) : dropBom bs = bs ∨ bs = BOM ++ dropBom bs := by
  unfold dropBom
  split
  · exact Or.inr rfl
  · exact Or.inl rfl

theorem dropBom_BOM_append (bs : Bytes) : dropBom (BOM ++ bs) = bs := rfl

theorem decodeLossy_BOM_append (bs : Bytes) :
    decodeLossy (BOM ++ bs) = '\uFEFF' :: decodeLossy bs :=
  decodeLossy_encode_append ['\uFEFF'] bs

theorem trimLeft_utf8Decode (bs : Bytes) : trimLeft (utf8Decode bs) = trimLeft (decodeLossy bs) := by
  rcases dropBom_cases bs with h | h
  · rw [utf8Decode, h]
  · conv_rhs => rw [h, decodeLossy_BOM_append]
    rfl

/-- A well-formed text that reads back as it is: no byte order mark stands in front. -/
def Plain (bs : Bytes) : Prop := WellFormed bs ∧ dropBom bs = bs

theorem encode_utf8Decode_iff {bs : Bytes} : encode (utf8Decode bs) = bs ↔ Plain bs := by
  constructor
  · intro h
    refine ⟨⟨_, h⟩, ?_⟩
    rcases dropBom_cases bs with hbom | hbom
    · exact hbom
    · -- the text itself would begin with the mark that was dropped
      have hdec : utf8Decode bs = '\uFEFF' :: utf8Decode bs := by
        calc utf8Decode bs = decodeLossy bs := by rw [← decodeLossy_encode (utf8Decode bs), h]
          _ = '\uFEFF' :: utf8Decode bs := by
            conv_lhs => rw [hbom, decodeLossy_BOM_append]
            rfl
      exact absurd (congrArg List.length hdec) (by simp)
  · intro hboth
    obtain ⟨hwf, hbom⟩ := hboth
    rw [utf8Decode, hbom]
    exact wellFormed_iff.mp hwf

theorem trim_trim (s : DartString) : trim (trim s) = trim s := by
  have hfront : (trim s).dropWhile isTrimmed = trim s := by
    apply List.dropWhile_eq_self_iff.mpr
    intro hpos
    obtain ⟨rest, hrest⟩ : trim s <+: s.dropWhile isTrimmed := List.rdropWhile_prefix _ _
    have hne : s.dropWhile isTrimmed ≠ [] := by
      rintro hnil
      simp [trim, hnil] at hpos
    have hhead : (trim s)[0] = (s.dropWhile isTrimmed).head hne := by
      simp only [← hrest, List.head_eq_getElem, List.getElem_append_left hpos]
    rw [hhead, List.head_dropWhile_not isTrimmed hne]
    exact Bool.false_ne_true
  rw [trim, hfront]
  exact List.rdropWhile_idempotent _ _

section Lines

open Lines

theorem dropBom_of_append {bs rest : Bytes} (h : dropBom (bs ++ rest) = bs ++ rest) :
    dropBom bs = bs := by
  rcases dropBom_cases bs with hbs | hbs
  · exact hbs
  · rw [hbs, List.append_assoc, dropBom_BOM_append] at h
    have hlen := congrArg List.length h
    simp only [BOM, List.length_append, List.length_cons, List.length_nil] at hlen
    omega

theorem cut_dropBom (bs : Bytes) :
    cut LF (dropBom bs) =
      match cut LF bs with
      | ([], q) => ([], dropBom q)
      | (l :: ls, q) => (dropBom l :: ls, q) := by
  rcases dropBom_cases bs with h | h
  · have hflat := cut_flatten LF bs
    rw [h]
    split
    · rename_i q hcut
      simp only [hcut, List.flatten_nil, List.nil_append] at hflat
      rw [hcut, hflat, h]
    · rename_i l ls q hcut
      rw [hcut, List.flatten_cons, List.append_assoc] at hflat
      rw [hcut, dropBom_of_append (hflat ▸ h)]
  · generalize dropBom bs = rest at h
    subst h
    have hbom : LF ∉ BOM := by decide
    match hcut : cut LF rest with
    | ([], q) =>
      rw [cut_append_nil hbom hcut]
      rfl
    | (l :: ls, q) =>
      rw [cut_append_cons hbom hcut]
      rfl

theorem cut_utf8Decode (bs : Bytes) :
    cut '\n' (utf8Decode bs) =
      match cut LF bs with
      | ([], q) => ([], utf8Decode q)
      | (l :: ls, q) => (utf8Decode l :: ls.map decodeLossy, decodeLossy q) := by
  rw [utf8Decode, cut_decodeLossy, cut_dropBom]
  split
  · rfl
  · rfl

end Lines

end MachineNotebook.Dart.Text
