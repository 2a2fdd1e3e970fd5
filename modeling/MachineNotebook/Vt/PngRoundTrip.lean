import MachineNotebook.Vt.PngEncoding

namespace MachineNotebook.Vt.PngRoundTrip

open MachineNotebook.Lib.Utf8 (Bytes)
open MachineNotebook.Lib.CheckedList Png PngPixels PngSafe PngEncoding

section Chunks

variable {crc : Bytes → UInt32} {pre rest : Bytes} {w : Walk}

theorem be32_value {a b c d : ℕ} (hb : b < 256) (hc : c < 256) (hd : d < 256) :
    a <<< 24 ||| b <<< 16 ||| c <<< 8 ||| d = ((a * 256 + b) * 256 + c) * 256 + d := by
  have hcd : c <<< 8 ||| d = c * 256 + d := by
    rw [← Nat.shiftLeft_add_eq_or_of_lt (i := 8) hd, Nat.shiftLeft_eq]
  have hbcd : b <<< 16 ||| (c * 256 + d) = b * 65536 + (c * 256 + d) := by
    rw [← Nat.shiftLeft_add_eq_or_of_lt (i := 16) (by omega), Nat.shiftLeft_eq]
  have habcd : a <<< 24 ||| (b * 65536 + (c * 256 + d)) =
      a * 16777216 + (b * 65536 + (c * 256 + d)) := by
    rw [← Nat.shiftLeft_add_eq_or_of_lt (i := 24) (by omega), Nat.shiftLeft_eq]
  rw [Nat.or_assoc, Nat.or_assoc, hcd, hbcd, habcd]
  omega

theorem readU32_be32 (pre rest : Bytes) {n : ℕ} (hn : n < 2 ^ 32) :
    readU32 (pre ++ (be32 n ++ rest)) pre.length = .ok n := by
  have hget : ∀ {j b}, (be32 n ++ rest)[j]? = some b →
      Returns (· = b) (get (pre ++ (be32 n ++ rest)) (pre.length + j) : Checked String UInt8) := by
    intro j b hj
    apply get_of_getElem?
    rw [List.getElem?_append_right (Nat.le_add_right _ _), Nat.add_sub_cancel_left, hj]
  apply Returns.eq
  refine (hget (j := 0) rfl).bind fun a ha ↦ (hget (j := 1) rfl).bind fun b hb ↦
    (hget (j := 2) rfl).bind fun c hc ↦ (hget (j := 3) rfl).bind fun d hd ↦ returns_ok ?_
  rw [be32_value b.toNat_lt c.toNat_lt d.toNat_lt, ha, hb, hc, hd]
  simp only [UInt8.toNat_ofNat']
  omega

theorem length_be32 (n : ℕ) : (be32 n).length = 4 := rfl

theorem length_bytes (crc : Bytes → UInt32) (c : Chunk) :
    (c.bytes crc).length = c.data.length + 12 := by
  simp only [Chunk.bytes, List.length_append, length_be32, c.typeLength]
  omega

theorem walk_chunk (crc : Bytes → UInt32) (pre rest : Bytes) (c : Chunk) (hw : w.sawIend = false) :
    walkChunks (pre ++ c.bytes crc ++ rest) pre.length w =
      readChunk c.type c.data c.data.length w >>=
        walkChunks (pre ++ c.bytes crc ++ rest) (pre ++ c.bytes crc).length := by
  have hlen : (pre ++ c.bytes crc ++ rest).length =
      pre.length + (c.data.length + 12) + rest.length := by
    rw [List.length_append, List.length_append, length_bytes]
  have hread : readU32 (pre ++ c.bytes crc ++ rest) pre.length = .ok c.data.length := by
    have hn : c.data.length < 2 ^ 32 := c.dataLength.trans (by decide)
    simp only [Chunk.bytes, List.append_assoc]
    exact readU32_be32 _ _ hn
  have htype : sublist (pre ++ c.bytes crc ++ rest) (pre.length + 4) (pre.length + 8) =
      (.ok c.type : Checked String Bytes) := by
    have hsplit : pre ++ c.bytes crc ++ rest = (pre ++ be32 c.data.length) ++ c.type ++
        (c.data ++ be32 (crc (c.type ++ c.data)).toNat ++ rest) := by
      simp only [Chunk.bytes, List.append_assoc]
    rw [hsplit]
    refine (sublist_append ?_ ?_).eq
    · rw [List.length_append, length_be32]
    · rw [List.length_append, length_be32, c.typeLength]
  have hdata : sublist (pre ++ c.bytes crc ++ rest) (pre.length + 8)
      (pre.length + 8 + c.data.length) = (.ok c.data : Checked String Bytes) := by
    have hsplit : pre ++ c.bytes crc ++ rest = (pre ++ be32 c.data.length ++ c.type) ++ c.data ++
        (be32 (crc (c.type ++ c.data)).toNat ++ rest) := by
      simp only [Chunk.bytes, List.append_assoc]
    have hpre : (pre ++ be32 c.data.length ++ c.type).length = pre.length + 8 := by
      rw [List.length_append, List.length_append, length_be32, c.typeLength]
    rw [hsplit]
    exact (sublist_append hpre.symm (by rw [hpre])).eq
  have hnext : (pre ++ c.bytes crc).length = pre.length + 8 + c.data.length + 4 := by
    rw [List.length_append, length_bytes]
    omega
  rw [walkChunks, if_pos ⟨by omega, hw⟩, hread, hnext]
  change (sublist _ _ _ >>= fun type ↦ _) = _
  rw [htype]
  change (if _ then _ else sublist _ _ _ >>= fun chunk ↦ _) = _
  rw [if_neg (by omega), hdata]
  rfl

theorem readChunk_idat {c : Chunk} (htype : c.type ≠ IHDR ∧ c.type ≠ IEND)
    (hihdr : w.sawIhdr = true) :
    readChunk c.type c.data c.data.length w = .ok { w with idat := w.idat ++ idats [c] } := by
  rw [readChunk, if_neg htype.1, if_pos hihdr, if_neg htype.2, idats, idats]
  split_ifs with hidat
  · rw [List.append_nil]
  · rw [List.append_nil]

theorem idats_cons (c : Chunk) (chunks : List Chunk) :
    idats (c :: chunks) = idats [c] ++ idats chunks := by
  rw [idats, idats]
  split_ifs
  · rw [idats, List.append_nil]
  · rfl

/-- The walk collects what the IDAT chunks hold, and comes by the others. -/
theorem walk_chunks {chunks : List Chunk} (hchunks : ∀ c ∈ chunks, c.type ≠ IHDR ∧ c.type ≠ IEND)
    (hihdr : w.sawIhdr = true) (hiend : w.sawIend = false) :
    walkChunks (pre ++ chunks.flatMap (Chunk.bytes crc) ++ rest) pre.length w =
      walkChunks (pre ++ chunks.flatMap (Chunk.bytes crc) ++ rest)
        (pre ++ chunks.flatMap (Chunk.bytes crc)).length
        { w with idat := w.idat ++ idats chunks } := by
  induction chunks generalizing pre w with
  | nil => rw [List.flatMap_nil, List.append_nil, idats, List.append_nil]
  | cons c chunks ih =>
    have hsplit : pre ++ (c :: chunks).flatMap (Chunk.bytes crc) =
        pre ++ c.bytes crc ++ chunks.flatMap (Chunk.bytes crc) := by
      rw [List.flatMap_cons, List.append_assoc]
    have hwalk := walk_chunk crc pre (chunks.flatMap (Chunk.bytes crc) ++ rest) c hiend
    rw [readChunk_idat (hchunks c List.mem_cons_self) hihdr, ← List.append_assoc] at hwalk
    have hrest : walkChunks (pre ++ c.bytes crc ++ chunks.flatMap (Chunk.bytes crc) ++ rest)
        (pre ++ c.bytes crc).length { w with idat := w.idat ++ idats [c] } = _ :=
      ih (fun c' hc' ↦ hchunks c' (List.mem_cons_of_mem c hc')) hihdr hiend
    have hidats : w.idat ++ idats (c :: chunks) = w.idat ++ idats [c] ++ idats chunks := by
      rw [idats_cons c chunks, List.append_assoc]
    rw [hsplit, hwalk, hidats]
    exact hrest

end Chunks

section Decode

variable {t : ColorType} {deflate : Bytes → Bytes} {crc : Bytes → UInt32} {rest : Bytes}

def afterIhdr (image : Image t) : Walk :=
  { width := some image.width, height := some image.height, colorType := t.number, sawIhdr := true }

theorem readChunk_ihdr (image : Image t) :
    readChunk IHDR (ihdr image).data (ihdr image).data.length {} = .ok (afterIhdr image) := by
  obtain ⟨hw, hw'⟩ := image.widthBounds
  obtain ⟨hh, hh'⟩ : 1 ≤ image.height ∧ image.height ≤ 65536 := image.heightBounds
  have hwidth : readU32 (ihdr image).data 0 = .ok image.width :=
    readU32_be32 [] _ (by omega)
  have hheight : readU32 (ihdr image).data 4 = .ok image.height :=
    readU32_be32 (be32 image.width) _ (by omega)
  have hseen : ¬(({} : Walk).sawIhdr = true ∨ (ihdr image).data.length < 13) := by
    rintro (h | h)
    · cases h
    · exact absurd h (Nat.lt_irrefl 13)
  have hdepth : get (ihdr image).data 8 = (.ok 8 : Checked String UInt8) := rfl
  have hcolor : get (ihdr image).data 9 = (.ok (UInt8.ofNat t.number) : Checked String UInt8) := rfl
  have hzero : ∀ i, 10 ≤ i → i ≤ 12 → get (ihdr image).data i = (.ok 0 : Checked String UInt8) := by
    intro i hi hi'
    obtain rfl | rfl | rfl : i = 10 ∨ i = 11 ∨ i = 12 := by omega
    · rfl
    · rfl
    · rfl
  rw [readChunk, if_pos rfl, readIhdr, if_neg hseen, hwidth, hheight, hdepth, hcolor,
    hzero 10 (by omega) (by omega), hzero 11 (by omega) (by omega), hzero 12 (by omega) (by omega)]
  simp only [ok_bind]
  rw [if_neg (by decide), if_neg (by decide), if_neg (by decide), if_neg (by omega)]
  cases t with
  | gray => rfl
  | rgb => rfl
  | grayAlpha => rfl
  | rgba => rfl

theorem walk_file (e : Encoding t deflate) :
    walkChunks (e.file crc) 8 {} =
      .ok { afterIhdr e.image with
        idat := deflate (e.image.stream e.filters)
        sawIend := true } := by
  have hheader := walk_chunk crc SIGNATURE (e.chunks.flatMap (Chunk.bytes crc) ++ iend.bytes crc)
    (w := {}) (ihdr e.image) rfl
  rw [← List.append_assoc] at hheader
  have hchunks : walkChunks (e.file crc) (SIGNATURE ++ (ihdr e.image).bytes crc).length
      (afterIhdr e.image) = _ := walk_chunks e.types rfl rfl
  have hend := walk_chunk crc (SIGNATURE ++ (ihdr e.image).bytes crc ++
      e.chunks.flatMap (Chunk.bytes crc)) []
    (w := { afterIhdr e.image with idat := deflate (e.image.stream e.filters) }) iend rfl
  rw [List.append_nil] at hend
  have hchunk :
      readChunk (ihdr e.image).type (ihdr e.image).data (ihdr e.image).data.length {} = _ :=
    readChunk_ihdr e.image
  rw [hchunk] at hheader
  rw [e.stream] at hchunks
  refine hheader.trans (hchunks.trans (hend.trans ?_))
  change walkChunks _ _ _ = _
  rw [walkChunks, if_neg]
  · rfl
  · intro hboth
    obtain ⟨-, h⟩ := hboth
    cases h

theorem map_snd_lines (e : Encoding t deflate) :
    (e.filters.zip e.image.lines).map Prod.snd = e.image.lines := by
  apply List.map_snd_zip
  rw [e.filtersLength, Image.lines, List.length_map]
  exact Nat.le_refl _

theorem length_lines (e : Encoding t deflate) : ∀ l ∈ e.filters.zip e.image.lines,
    l.2.length = e.image.width * t.channels := by
  intro l hl
  obtain ⟨row, hrow, hbytes⟩ := List.mem_map.mp (List.of_mem_zip hl).2
  rw [← hbytes, length_flatMap_const fun p _ ↦ Pixel.length_bytes p, e.image.rowLength row hrow]

theorem length_zip (e : Encoding t deflate) :
    (e.filters.zip e.image.lines).length = e.image.height := by
  rw [List.length_zip, e.filtersLength, Image.lines, List.length_map]
  exact Nat.min_self _

/-- The rows, one after the other, are the bytes of the pixels. -/
theorem flatMap_lines (e : Encoding t deflate) :
    (e.filters.zip e.image.lines).flatMap Prod.snd =
      e.image.rows.flatten.flatMap (Pixel.bytes t) := by
  rw [List.flatMap_def, map_snd_lines, Image.lines, ← List.flatMap_def, List.flatten_eq_flatMap]
  exact List.flatMap_assoc.symm

theorem unfilter_stream (e : Encoding t deflate) :
    Returns (· = e.image.rows.flatten.flatMap (Pixel.bytes t))
      (unfilter (e.image.stream e.filters) e.image.width e.image.height t.channels) := by
  have h := unfilter_filterLines (ColorType.channels_pos t) (length_lines e)
  rw [length_zip, flatMap_lines] at h
  exact h

theorem length_pixels (e : Encoding t deflate) :
    e.image.rows.flatten.length = e.image.width * e.image.height := by
  have h := length_flatMap_const (f := id) e.image.rowLength
  rw [List.flatMap_id] at h
  rw [h, Image.height, Nat.mul_comm]

theorem decodeIdat_file {inflate : Bytes → Except String Bytes} (hzlib : Inverts inflate deflate)
    (e : Encoding t deflate) :
    decodeIdat inflate
        { afterIhdr e.image with idat := deflate (e.image.stream e.filters), sawIend := true } =
      .ok e.image.decoded := by
  have hlen : (e.image.stream e.filters).length =
      (e.image.width * t.channels + 1) * e.image.height := by
    rw [Image.stream, length_filterLines (length_lines e), length_zip]
  apply Returns.eq
  rw [decodeIdat]
  simp only [afterIhdr]
  rw [if_neg Bool.noConfusion, if_neg (hzlib.header _), hzlib.inflate]
  refine (bytesPerPixel_returns t).bind fun bpp hbpp ↦ ?_
  subst hbpp
  rw [if_neg (by omega)]
  refine (unfilter_stream e).bind fun raw hraw ↦ ?_
  subst hraw
  exact (toRgba_pixels (length_pixels e)).bind fun rgba hrgba ↦ returns_ok (by rw [hrgba]; rfl)

end Decode

/-- Every conforming encoding of an image is decoded to the image. -/
theorem decodePng_file {t : ColorType} {inflate : Bytes → Except String Bytes}
    {deflate : Bytes → Bytes} (hzlib : Inverts inflate deflate) (crc : Bytes → UInt32)
    (e : Encoding t deflate) : decodePng inflate (e.file crc) = .ok e.image.decoded := by
  have hlong : ¬(e.file crc).length < 8 := by
    simp only [Encoding.file, List.length_append, SIGNATURE, List.length_cons]
    omega
  have hhead : sublist (e.file crc) 0 8 = (.ok SIGNATURE : Checked String Bytes) := by
    rw [Encoding.file, List.append_assoc, List.append_assoc]
    exact Returns.eq (sublist_append List.length_nil.symm rfl)
  rw [decodePng, if_neg hlong, hhead, ok_bind, if_neg (not_not.mpr rfl), walk_file]
  exact decodeIdat_file hzlib e

def adler32 (bs : Bytes) : Bytes :=
  let s := bs.foldl (fun s b ↦ ((s.1 + b.toNat) % 65521, (s.2 + s.1 + b.toNat) % 65521)) (1, 0)
  be32 (s.2 * 65536 + s.1)

def store (bs : Bytes) : Bytes :=
  [0x78, 0x01, 0x01, UInt8.ofNat bs.length, UInt8.ofNat (bs.length / 256),
    UInt8.ofNat (255 - bs.length), UInt8.ofNat (255 - bs.length / 256)] ++ bs ++ adler32 bs

def unstore (stream : Bytes) : Except String Bytes :=
  .ok ((stream.drop 7).take (stream.length - 11))

theorem unstore_store : Inverts unstore store := by
  refine ⟨fun bs ↦ ?_, fun bs ↦ List.cons_ne_nil _ _⟩
  have hlen : (store bs).length - 11 = bs.length := by
    simp only [store, adler32, List.length_append, List.length_cons, List.length_nil, length_be32]
    omega
  rw [unstore, hlen]
  exact congrArg Except.ok (List.take_left' rfl)

/-- Two gray pixels over two others, the second row predicted by Paeth, in two IDAT chunks with a
comment between. -/
def grayEncoding : Encoding .gray store where
  image :=
    { width := 2
      rows := [[(10 : UInt8), (20 : UInt8)], [(12 : UInt8), (250 : UInt8)]]
      widthBounds := by decide
      heightBounds := by decide
      rowLength := by decide }
  filters := [.sub, .paeth]
  chunks :=
    [⟨IDAT, (store [1, 10, 10, 4, 2, 230]).take 5, rfl, by decide⟩,
      ⟨[0x74, 0x45, 0x58, 0x74], [], rfl, by decide⟩,
      ⟨IDAT, (store [1, 10, 10, 4, 2, 230]).drop 5, rfl, by decide⟩]
  filtersLength := rfl
  types := by decide
  stream := by decide

theorem decodePng_gray :
    Inverts unstore store ∧ decodePng unstore (grayEncoding.file fun _ ↦ 0) =
      .ok ⟨2, 2, [10, 10, 10, 255, 20, 20, 20, 255, 12, 12, 12, 255, 250, 250, 250, 255]⟩ :=
  ⟨unstore_store, decodePng_file unstore_store _ grayEncoding⟩

end MachineNotebook.Vt.PngRoundTrip
