import MachineNotebook.Vt.PngSafe
import Mathlib.Algebra.Group.Nat.Defs
import Mathlib.Data.List.MinMax

namespace MachineNotebook.Vt.PngEncoding

open MachineNotebook.Lib.Utf8 (Bytes)
open MachineNotebook.Lib.CheckedList Png PngPixels PngSafe

/-! The format, from its specification. -/

section Format

inductive Filter
  | none
  | sub
  | up
  | average
  | paeth

def Filter.number : Filter → UInt8
  | .none => 0
  | .sub => 1
  | .up => 2
  | .average => 3
  | .paeth => 4

def nearest (left up upLeft : ℕ) : ℕ :=
  ([left, up, upLeft].argmin fun n : ℕ ↦ ((left : ℤ) + up - upLeft - n).natAbs).getD 0

def Filter.predict (left up upLeft : ℕ) : Filter → ℕ
  | .none => 0
  | .sub => left
  | .up => up
  | .average => (left + up) / 2
  | .paeth => nearest left up upLeft

def byteAt (raw : Bytes) (i : ℕ) : ℕ := (raw.getD i 0).toNat

def leftAt (bpp : ℕ) (raw : Bytes) (i : ℕ) : ℕ := if bpp ≤ i then byteAt raw (i - bpp) else 0

def Filter.predictAt (f : Filter) (bpp : ℕ) (prev raw : Bytes) (i : ℕ) : ℕ :=
  f.predict (leftAt bpp raw i) (byteAt prev i) (leftAt bpp prev i)

/-- A filtered line: of each byte what it is predicted from is taken off, modulo 256. -/
def Filter.apply (f : Filter) (bpp : ℕ) (prev raw : Bytes) : Bytes :=
  raw.mapIdx fun i b ↦ b - UInt8.ofNat (f.predictAt bpp prev raw i)

/-- The lines, each behind the number of its filter. -/
def filterLines (bpp : ℕ) : Bytes → List (Filter × Bytes) → Bytes
  | _, [] => []
  | prev, (f, raw) :: rest => f.number :: f.apply bpp prev raw ++ filterLines bpp raw rest

structure Image (t : ColorType) where
  width : ℕ
  rows : List (List (Pixel t))
  widthBounds : 1 ≤ width ∧ width ≤ 65536
  heightBounds : 1 ≤ rows.length ∧ rows.length ≤ 65536
  rowLength : ∀ row ∈ rows, row.length = width

namespace Image

variable {t : ColorType} (image : Image t)

def height : ℕ := image.rows.length

def stride : ℕ := image.width * t.channels

def lines : List Bytes := image.rows.map fun row ↦ row.flatMap (Pixel.bytes t)

def stream (filters : List Filter) : Bytes :=
  filterLines t.channels (List.replicate image.stride 0) (filters.zip image.lines)

def decoded : PngImage where
  width := image.width
  height := image.height
  rgba := image.rows.flatten.flatMap (Pixel.expand t)

end Image

def be32 (n : ℕ) : Bytes :=
  [UInt8.ofNat (n / 2 ^ 24), UInt8.ofNat (n / 2 ^ 16), UInt8.ofNat (n / 2 ^ 8), UInt8.ofNat n]

structure Chunk where
  type : Bytes
  data : Bytes
  typeLength : type.length = 4
  dataLength : data.length < 2 ^ 31

def Chunk.bytes (crc : Bytes → UInt32) (c : Chunk) : Bytes :=
  be32 c.data.length ++ c.type ++ c.data ++ be32 (crc (c.type ++ c.data)).toNat

def ihdr {t : ColorType} (image : Image t) : Chunk where
  type := IHDR
  data := be32 image.width ++ be32 image.height ++ [8, UInt8.ofNat t.number, 0, 0, 0]
  typeLength := rfl
  dataLength := Nat.lt_of_le_of_lt (Nat.le_refl 13) (by decide)

def iend : Chunk where
  type := IEND
  data := []
  typeLength := rfl
  dataLength := Nat.two_pow_pos 31

def idats : List Chunk → Bytes
  | [] => []
  | c :: chunks => if c.type = IDAT then c.data ++ idats chunks else idats chunks

/-- The zlib decoder inverts the zlib encoder, whose streams begin with their header. -/
structure Inverts (inflate : Bytes → Except String Bytes) (deflate : Bytes → Bytes) : Prop where
  inflate : ∀ bs, inflate (deflate bs) = .ok bs
  header : ∀ bs, deflate bs ≠ []

/-- An image with a filter for each row, and its compressed stream split over chunks with any
others between the first and the last. -/
structure Encoding (t : ColorType) (deflate : Bytes → Bytes) where
  image : Image t
  filters : List Filter
  chunks : List Chunk
  filtersLength : filters.length = image.height
  types : ∀ c ∈ chunks, c.type ≠ IHDR ∧ c.type ≠ IEND
  stream : idats chunks = deflate (image.stream filters)

def Encoding.file {t : ColorType} {deflate : Bytes → Bytes} (crc : Bytes → UInt32)
    (e : Encoding t deflate) : Bytes :=
  SIGNATURE ++ (ihdr e.image).bytes crc ++ e.chunks.flatMap (Chunk.bytes crc) ++ iend.bytes crc

end Format

section Row

variable {f : Filter} {bpp i : ℕ} {prev raw : Bytes}

theorem paeth_eq (a b c : ℕ) : Png.paeth a b c = nearest a b c := by
  rw [Png.paeth, nearest, List.argmin_cons, List.argmin_cons, List.argmin_singleton]
  dsimp only
  split_ifs <;> dsimp only <;> split_ifs <;> simp only [Option.getD_some] <;> omega

theorem add_sub_ofNat (b : UInt8) (n : ℕ) :
    UInt8.ofNat ((b - UInt8.ofNat n).toNat + n) = b := by
  rw [← UInt8.toNat_inj, UInt8.toNat_ofNat', UInt8.toNat_sub, UInt8.toNat_ofNat']
  have hb : b.toNat < 256 := b.toNat_lt
  omega

theorem length_apply (f : Filter) (bpp : ℕ) (prev raw : Bytes) :
    (f.apply bpp prev raw).length = raw.length := List.length_mapIdx

theorem getElem_apply (hi : i < (f.apply bpp prev raw).length) (hline : i < raw.length) :
    (f.apply bpp prev raw)[i] = raw[i] - UInt8.ofNat (f.predictAt bpp prev raw i) :=
  List.getElem_mapIdx

theorem byteAt_eq (hi : i < raw.length) : byteAt raw i = raw[i].toNat := by
  rw [byteAt, List.getD_eq_getElem?_getD, List.getElem?_eq_getElem hi, Option.getD_some]

theorem leftOf_eq (hi : i < raw.length) (hbpp : 0 < bpp) :
    Returns (· = leftAt bpp raw i) (leftOf bpp raw i) := by
  unfold leftOf leftAt
  split_ifs with hleft
  · refine (get_returns (by omega)).bind fun b hb ↦ returns_ok ?_
    rw [hb, byteAt_eq (by omega)]
  · exact returns_ok rfl

def Filled (raw : Bytes) (i : ℕ) (recon : Bytes) : Prop :=
  recon = raw.take i ++ List.replicate (raw.length - i) 0

theorem Filled.length {recon : Bytes} (h : Filled raw i recon) (hi : i ≤ raw.length) :
    recon.length = raw.length := by
  rw [h, List.length_append, List.length_take_of_le hi, List.length_replicate]
  omega

theorem Filled.left {recon : Bytes} (h : Filled raw i recon) (hi : i < raw.length)
    (hbpp : 0 < bpp) : leftAt bpp recon i = leftAt bpp raw i := by
  unfold leftAt
  split_ifs
  · have hlt : i - bpp < (raw.take i).length := by
      rw [List.length_take]
      omega
    rw [byteAt, byteAt, h, List.getD_eq_getElem?_getD, List.getD_eq_getElem?_getD,
      List.getElem?_append_left hlt, List.getElem?_take_of_lt (by omega)]
  · rfl

/-- A loop that adds what the filter takes off gives the line back. -/
theorem reconstruct_apply {predict : Bytes → ℕ → Checked String ℕ}
    (hpredict : ∀ recon i, i < raw.length → Filled raw i recon →
      Returns (· = f.predictAt bpp prev raw i) (predict recon i)) :
    Returns (· = raw) (reconstruct (f.apply bpp prev raw) raw.length predict) := by
  have hstart : Filled raw 0 (List.replicate raw.length 0) := by
    rw [Filled, List.take_zero, Nat.sub_zero, List.nil_append]
  refine (@forRange_returns String Bytes raw.length _ (Filled raw) _ hstart ?_).imp fun recon h ↦ ?_
  · intro i hi recon hrecon
    refine (hpredict recon i hi hrecon).bind fun predicted hpredicted ↦ ?_
    have happly : i < (f.apply bpp prev raw).length := length_apply f bpp prev raw ▸ hi
    refine (get_returns happly).bind fun byte hbyte ↦ ?_
    have hb : UInt8.ofNat (byte.toNat + predicted) = raw[i] := by
      rw [hbyte, hpredicted, getElem_apply happly hi, add_sub_ofNat]
    have hmore : raw.length - i = (raw.length - (i + 1)) + 1 := by omega
    rw [hb, hrecon, hmore]
    refine (put_next (List.length_take_of_le (Nat.le_of_lt hi)).symm).imp fun next hnext ↦ ?_
    rw [Filled, hnext, List.take_add_one, List.getElem?_eq_getElem hi]
    rfl
  · rw [h, List.take_length, Nat.sub_self, List.replicate_zero, List.append_nil]

theorem unfilterRow_apply (f : Filter) (hbpp : 0 < bpp) (hprev : prev.length = raw.length) :
    Returns (· = raw)
      (unfilterRow f.number bpp raw.length (f.apply bpp prev raw) prev) := by
  have hleft : ∀ {recon : Bytes} {i}, i < raw.length → Filled raw i recon →
      Returns (· = leftAt bpp raw i) (leftOf bpp recon i) := by
    intro recon i hi hrecon
    rw [← hrecon.left hi hbpp]
    exact leftOf_eq (by rw [hrecon.length (Nat.le_of_lt hi)]; exact hi) hbpp
  have hup : ∀ {i}, i < raw.length →
      Returns (fun b ↦ b.toNat = byteAt prev i) (get prev i : Checked String UInt8) := by
    intro i hi
    refine (get_returns (hprev.symm ▸ hi)).imp fun b hb ↦ ?_
    rw [hb, byteAt_eq]
  cases f with
  | none =>
    have hsame : Filter.none.apply bpp prev raw = raw := by
      refine List.ext_getElem (length_apply ..) fun i happly hi ↦ ?_
      rw [getElem_apply happly hi]
      exact UInt8.sub_zero _
    rw [hsame]
    exact setAll_returns (List.length_replicate ..).symm
  | sub => exact reconstruct_apply fun recon i hi hrecon ↦ hleft hi hrecon
  | up =>
    exact reconstruct_apply fun recon i hi hrecon ↦ (hup hi).bind fun up hu ↦ returns_ok hu
  | average =>
    refine reconstruct_apply fun recon i hi hrecon ↦ ?_
    refine (hleft hi hrecon).bind fun left hl ↦ (hup hi).bind fun up hu ↦ returns_ok ?_
    rw [hl, hu, Nat.shiftRight_eq_div_pow]
    rfl
  | paeth =>
    refine reconstruct_apply fun recon i hi hrecon ↦ ?_
    refine (hleft hi hrecon).bind fun left hl ↦ (hup hi).bind fun up hu ↦ ?_
    refine (leftOf_eq (hprev.symm ▸ hi) hbpp).bind fun upLeft hul ↦ returns_ok ?_
    rw [hl, hu, hul, paeth_eq]
    rfl

end Row

section Stream

variable {bpp stride : ℕ} {prev : Bytes} {lines : List (Filter × Bytes)}

def lastLine (prev : Bytes) (lines : List (Filter × Bytes)) : Bytes :=
  (lines.getLast?.map Prod.snd).getD prev

theorem lastLine_append (prev : Bytes) (lines : List (Filter × Bytes)) (l : Filter × Bytes) :
    lastLine prev (lines ++ [l]) = l.2 := by
  rw [lastLine, List.getLast?_append]
  rfl

theorem filterLines_append (bpp : ℕ) (prev : Bytes) (lines more : List (Filter × Bytes)) :
    filterLines bpp prev (lines ++ more) =
      filterLines bpp prev lines ++ filterLines bpp (lastLine prev lines) more := by
  induction lines generalizing prev with
  | nil => rfl
  | cons l lines ih =>
    have hlast : lastLine l.2 lines = lastLine prev (l :: lines) := by
      cases lines with
      | nil => rfl
      | cons l' lines =>
        rw [lastLine, lastLine, List.getLast?_cons_cons, List.getLast?_cons]
        rfl
    rw [List.cons_append, filterLines, filterLines, ih, hlast, List.append_assoc]

theorem length_filterLines (hlines : ∀ l ∈ lines, l.2.length = stride) :
    (filterLines bpp prev lines).length = (stride + 1) * lines.length := by
  induction lines generalizing prev with
  | nil => rfl
  | cons l lines ih =>
    rw [filterLines, List.length_append, ih fun l' hl' ↦ hlines l' (List.mem_cons_of_mem l hl'),
      List.length_cons, length_apply, hlines l List.mem_cons_self, List.length_cons, Nat.mul_succ,
      Nat.add_comm]

structure Restored (stride : ℕ) (lines : List (Filter × Bytes)) (y : ℕ) (s : Rows) : Prop where
  out : s.out = (lines.take y).flatMap Prod.snd ++ List.replicate (stride * (lines.length - y)) 0
  prev : s.prev = lastLine (List.replicate stride 0) (lines.take y)
  inOff : s.inOff = (stride + 1) * y
  outOff : s.outOff = stride * y

theorem length_lastLine (hprev : prev.length = stride) (hlines : ∀ l ∈ lines, l.2.length = stride) :
    (lastLine prev lines).length = stride := by
  rw [lastLine]
  cases hlast : lines.getLast? with
  | none => exact hprev
  | some l => exact hlines l (List.mem_of_getLast? hlast)

theorem filterLines_split {y : ℕ} (hy : y < lines.length) :
    filterLines bpp prev lines =
      filterLines bpp prev (lines.take y) ++ [lines[y].1.number] ++
        lines[y].1.apply bpp (lastLine prev (lines.take y)) lines[y].2 ++
        filterLines bpp lines[y].2 (lines.drop (y + 1)) := by
  conv_lhs => rw [← List.take_append_drop y lines, filterLines_append, List.drop_eq_getElem_cons hy,
    filterLines]
  simp only [List.append_assoc, List.cons_append, List.nil_append]

theorem unfilterNext_restores {y : ℕ} {s : Rows} (hbpp : 0 < bpp)
    (hlines : ∀ l ∈ lines, l.2.length = stride) (hy : y < lines.length)
    (hs : Restored stride lines y s) :
    Returns (Restored stride lines (y + 1))
      (unfilterNext (filterLines bpp (List.replicate stride 0) lines) bpp stride s y) := by
  obtain ⟨hout, hprev, hin, hoff⟩ := hs
  have htake : ∀ l ∈ lines.take y, l.2.length = stride :=
    fun l hl ↦ hlines l (List.mem_of_mem_take hl)
  have hstride : lines[y].2.length = stride := hlines _ (List.getElem_mem hy)
  have hlast : (lastLine (List.replicate stride 0) (lines.take y)).length = stride :=
    length_lastLine (List.length_replicate ..) htake
  have hbefore : (filterLines bpp (List.replicate stride 0) (lines.take y)).length = s.inOff := by
    rw [length_filterLines htake, List.length_take_of_le (Nat.le_of_lt hy), hin]
  have hdone : ((lines.take y).flatMap Prod.snd).length = s.outOff := by
    rw [length_flatMap_const htake, List.length_take_of_le (Nat.le_of_lt hy), hoff, Nat.mul_comm]
  rw [filterLines_split hy, unfilterNext]
  refine (get_of_getElem? (a := lines[y].1.number) ?_).bind fun filter hfilter ↦ ?_
  · rw [List.append_assoc, List.append_assoc, List.getElem?_append_right (Nat.le_of_eq hbefore),
      hbefore, Nat.sub_self]
    rfl
  refine (sublist_append (by rw [List.length_append, hbefore]; rfl)
    (by rw [length_apply, List.length_append, hbefore, hstride]; rfl)).bind fun row hrow ↦ ?_
  rw [hfilter, hrow, hprev]
  have hrestored := unfilterRow_apply lines[y].1 hbpp (hlast.trans hstride.symm)
  rw [hstride] at hrestored
  refine hrestored.bind fun recon hrecon ↦ ?_
  have hmore : stride * (lines.length - y) = stride + stride * (lines.length - (y + 1)) := by
    rw [show lines.length - y = lines.length - (y + 1) + 1 by omega, Nat.mul_succ, Nat.add_comm]
  refine (setRange_returns ?_ ?_).bind fun out hout' ↦ ?_
  · rw [hout, List.length_append, hdone, List.length_replicate]
    omega
  · rw [hrecon, hstride]
  refine (setAll_returns ?_).bind fun prev hprev' ↦ returns_ok ⟨?_, ?_, ?_, ?_⟩
  · rw [hrecon, hstride, hlast]
  · change out = _
    rw [hout', hout, List.take_left' hdone, ← List.drop_drop, List.drop_left' hdone, hmore,
      List.replicate_add, List.drop_left' (List.length_replicate ..), hrecon, List.take_add_one,
      List.getElem?_eq_getElem hy, List.flatMap_append]
    simp
  · change prev = _
    rw [hprev', hrecon, List.take_add_one, List.getElem?_eq_getElem hy]
    exact (lastLine_append ..).symm
  · change s.inOff + 1 + stride = _
    rw [hin, Nat.mul_succ]
    omega
  · change s.outOff + stride = _
    rw [hoff, Nat.mul_succ]

theorem unfilter_filterLines {width : ℕ} (hbpp : 0 < bpp)
    (hlines : ∀ l ∈ lines, l.2.length = width * bpp) :
    Returns (· = lines.flatMap Prod.snd)
      (unfilter (filterLines bpp (List.replicate (width * bpp) 0) lines) width lines.length bpp) := by
  refine (@forRange_returns String Rows lines.length _ (Restored (width * bpp) lines) _
    ⟨rfl, rfl, rfl, rfl⟩ fun y hy s hs ↦ unfilterNext_restores hbpp hlines hy hs).bind
      fun s hs ↦ returns_ok ?_
  have hout := hs.out
  rwa [Nat.sub_self, Nat.mul_zero, List.replicate_zero, List.append_nil, List.take_length] at hout

end Stream

end MachineNotebook.Vt.PngEncoding
