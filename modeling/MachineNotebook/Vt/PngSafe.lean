import MachineNotebook.Vt.PngPixels

namespace MachineNotebook.Vt.PngSafe

open MachineNotebook.Lib.Utf8 (Bytes)
open MachineNotebook.Lib.CheckedList Png PngPixels

/-- An image of a size that is allowed, with four bytes for each pixel. -/
structure IsImage (image : PngImage) : Prop where
  width : 1 ≤ image.width ∧ image.width ≤ 65536
  height : 1 ≤ image.height ∧ image.height ≤ 65536
  rgba : image.rgba.length = 4 * image.width * image.height

section Chunks

def Sized (w : Walk) : Prop :=
  w.sawIhdr = true → ∃ width height, ∃ t : ColorType, w.width = some width ∧
    w.height = some height ∧ w.colorType = t.number ∧
    (1 ≤ width ∧ width ≤ 65536) ∧ 1 ≤ height ∧ height ≤ 65536

variable {data chunk : Bytes} {offset : ℕ} {w : Walk}

theorem readU32_returns (h : offset + 4 ≤ data.length) :
    Returns (fun _ ↦ True) (readU32 data offset) :=
  (get_returns (by omega)).bind fun _ _ ↦ (get_returns (by omega)).bind fun _ _ ↦
    (get_returns (by omega)).bind fun _ _ ↦ (get_returns (by omega)).bind fun _ _ ↦
      returns_ok trivial

theorem exists_colorType {n : UInt8} (h : ¬(n ≠ 0 ∧ n ≠ 2 ∧ n ≠ 4 ∧ n ≠ 6)) :
    ∃ t : ColorType, n.toNat = t.number := by
  have hcases : n = 0 ∨ n = 2 ∨ n = 4 ∨ n = 6 := by
    by_contra hnone
    push Not at hnone
    exact h hnone
  rcases hcases with rfl | rfl | rfl | rfl
  · exact ⟨.gray, rfl⟩
  · exact ⟨.rgb, rfl⟩
  · exact ⟨.grayAlpha, rfl⟩
  · exact ⟨.rgba, rfl⟩

theorem readIhdr_within : Within Sized (readIhdr chunk chunk.length w) := by
  unfold readIhdr
  split_ifs with hshort
  · exact within_throwing _ _
  · have hlen : 13 ≤ chunk.length := Nat.le_of_not_lt fun h ↦ hshort (Or.inr h)
    refine (readU32_returns (by omega)).within.bind fun width _ ↦ ?_
    refine (readU32_returns (by omega)).within.bind fun height _ ↦ ?_
    refine (get_returns (by omega)).within.bind fun bitDepth _ ↦ ?_
    refine (get_returns (by omega)).within.bind fun colorType _ ↦ ?_
    refine (get_returns (by omega)).within.bind fun compression _ ↦ ?_
    refine (get_returns (by omega)).within.bind fun filter _ ↦ ?_
    refine (get_returns (by omega)).within.bind fun interlace _ ↦ ?_
    split_ifs with hdepth hmethod hinterlace hsize htype
    · exact within_throwing _ _
    · exact within_throwing _ _
    · exact within_throwing _ _
    · exact within_throwing _ _
    · exact within_throwing _ _
    · obtain ⟨t, ht⟩ := exists_colorType htype
      refine within_ok fun _ ↦ ⟨width, height, t, rfl, rfl, congrArg Nat.cast ht, ?_⟩
      omega

theorem readChunk_within {type : Bytes} (hw : Sized w) :
    Within Sized (readChunk type chunk chunk.length w) := by
  unfold readChunk
  split_ifs with hihdr hidat hsaw hiend
  · exact readIhdr_within
  · exact within_ok hw
  · exact within_throwing _ _
  · exact within_ok hw
  · exact within_ok hw

theorem walkChunks_within (hw : Sized w) : Within Sized (walkChunks data offset w) := by
  induction offset, w using walkChunks.induct data with
  | case1 offset w hcond ih =>
    rw [walkChunks, if_pos hcond]
    refine (readU32_returns (by omega)).within.bind fun length _ ↦ ?_
    refine (sublist_returns (by omega) (by omega)).within.bind fun type _ ↦ ?_
    dsimp only
    split_ifs with htruncated
    · exact within_throwing _ _
    · refine (sublist_returns (by omega) (by omega)).within.bind fun chunk hchunk ↦ ?_
      have hlen : length = chunk.length := by
        rw [hchunk, List.length_take, List.length_drop]
        omega
      subst hlen
      exact (readChunk_within hw).bind fun w hw ↦ ih _ htruncated w hw
  | case2 offset w hcond =>
    rw [walkChunks, if_neg hcond]
    exact within_ok hw

end Chunks

section Unfilter

variable {row prev line : Bytes} {bpp stride i : ℕ} {filter : UInt8}

theorem leftOf_returns (hi : i < line.length) (hbpp : 0 < bpp) :
    Returns (fun _ ↦ True) (leftOf bpp line i) := by
  unfold leftOf
  split_ifs
  · exact (get_returns (by omega)).bind fun _ _ ↦ returns_ok trivial
  · exact returns_ok trivial

theorem reconstruct_returns {predict : Bytes → ℕ → Checked String ℕ} (hrow : row.length = stride)
    (hpredict : ∀ recon i, i < stride → recon.length = stride →
      Returns (fun _ ↦ True) (predict recon i)) :
    Returns (fun recon ↦ recon.length = stride) (reconstruct row stride predict) := by
  refine @forRange_returns String Bytes stride _ (fun _ recon ↦ recon.length = stride) _
    (List.length_replicate ..) fun i hi recon hrecon ↦ ?_
  refine (hpredict recon i hi hrecon).bind fun predicted _ ↦ ?_
  refine (get_returns (hrow.symm ▸ hi)).bind fun byte _ ↦ ?_
  refine (put_returns _ (hrecon.symm ▸ hi)).imp fun next hnext ↦ ?_
  rw [hnext, List.length_set, hrecon]

/-- A row comes out at its length, unless its filter is unknown. -/
theorem unfilterRow_within (hbpp : 0 < bpp) (hrow : row.length = stride)
    (hprev : prev.length = stride) :
    Within (fun recon ↦ recon.length = stride) (unfilterRow filter bpp stride row prev) := by
  have hleft : ∀ {line : Bytes} {i}, i < stride → line.length = stride →
      Returns (fun _ ↦ True) (leftOf bpp line i) :=
    fun hi hline ↦ leftOf_returns (hline.symm ▸ hi) hbpp
  have hup : ∀ {i}, i < stride → Returns (fun _ ↦ True) (get prev i : Checked String UInt8) :=
    fun hi ↦ (get_returns (hprev.symm ▸ hi)).imp fun _ _ ↦ trivial
  unfold unfilterRow
  split
  · refine ((setAll_returns ?_).imp fun recon hrecon ↦ ?_).within
    · rw [hrow, List.length_replicate]
    · rw [hrecon, hrow]
  · exact (reconstruct_returns hrow fun recon i hi hrecon ↦ hleft hi hrecon).within
  · exact (reconstruct_returns hrow fun recon i hi hrecon ↦
      (hup hi).bind fun _ _ ↦ returns_ok trivial).within
  · exact (reconstruct_returns hrow fun recon i hi hrecon ↦
      (hleft hi hrecon).bind fun _ _ ↦ (hup hi).bind fun _ _ ↦ returns_ok trivial).within
  · exact (reconstruct_returns hrow fun recon i hi hrecon ↦
      (hleft hi hrecon).bind fun _ _ ↦ (hup hi).bind fun _ _ ↦
        (hleft hi hprev).bind fun _ _ ↦ returns_ok trivial).within
  · exact within_throwing _ _

/-- Before the row `y`: where the loop stands, with buffers as long as they were made. -/
structure RowsAt (stride height y : ℕ) (s : Rows) : Prop where
  out : s.out.length = stride * height
  prev : s.prev.length = stride
  inOff : s.inOff = (stride + 1) * y
  outOff : s.outOff = stride * y

theorem unfilterNext_within {inflated : Bytes} {height y : ℕ} {s : Rows} (hbpp : 0 < bpp)
    (hlen : (stride + 1) * height ≤ inflated.length) (hy : y < height)
    (hs : RowsAt stride height y s) :
    Within (RowsAt stride height (y + 1)) (unfilterNext inflated bpp stride s y) := by
  obtain ⟨hout, hprev, hin, hoff⟩ := hs
  have hrows : (stride + 1) * (y + 1) ≤ (stride + 1) * height := Nat.mul_le_mul_left _ hy
  have houts : stride * (y + 1) ≤ stride * height := Nat.mul_le_mul_left _ hy
  rw [Nat.mul_succ] at hrows houts
  unfold unfilterNext
  refine (get_returns (by omega)).within.bind fun filter _ ↦ ?_
  refine (sublist_returns (by omega) (by omega)).within.bind fun row hrow ↦ ?_
  have hrowLen : row.length = stride := by
    rw [hrow, List.length_take, List.length_drop]
    omega
  refine (unfilterRow_within hbpp hrowLen hprev).bind fun recon hrecon ↦ ?_
  refine (setRange_returns (by omega) (by rw [hrecon])).within.bind fun out hout' ↦ ?_
  refine (setAll_returns (hrecon.trans hprev.symm)).within.bind fun prev hprev' ↦ ?_
  refine within_ok ⟨?_, ?_, ?_, ?_⟩
  · simp only [hout', List.length_append, List.length_take, List.length_drop, hrecon, hout]
    omega
  · exact hprev' ▸ hrecon
  · change s.inOff + 1 + stride = (stride + 1) * (y + 1)
    rw [Nat.mul_succ, hin]
    omega
  · change s.outOff + stride = stride * (y + 1)
    rw [Nat.mul_succ, hoff]

theorem unfilter_within {inflated : Bytes} {width height : ℕ} (hbpp : 0 < bpp)
    (hlen : (width * bpp + 1) * height ≤ inflated.length) :
    Within (fun raw ↦ raw.length = width * bpp * height) (unfilter inflated width height bpp) := by
  refine (@forRange_within String Rows height _ (RowsAt (width * bpp) height) _
    ⟨List.length_replicate .., List.length_replicate .., rfl, rfl⟩ fun y hy s hs ↦
      unfilterNext_within hbpp hlen hy hs).bind fun s hs ↦ within_ok hs.out

end Unfilter

theorem bytesPerPixel_returns (t : ColorType) :
    Returns (· = t.channels) (bytesPerPixel t.number) := by
  cases t with
  | gray => exact returns_ok rfl
  | rgb => exact returns_ok rfl
  | grayAlpha => exact returns_ok rfl
  | rgba => exact returns_ok rfl

theorem ColorType.channels_pos (t : ColorType) : 0 < t.channels := by
  cases t <;> decide

theorem toRgba_length {t : ColorType} {raw : Bytes} {width height : ℕ}
    (hraw : raw.length = width * t.channels * height) :
    Returns (fun rgba ↦ rgba.length = 4 * width * height) (toRgba raw width height t.number) := by
  have hbytes : raw.length = width * height * t.channels := by
    rw [hraw, Nat.mul_right_comm]
  obtain ⟨pixels, hlen, rfl⟩ := exists_pixels t hbytes
  refine (toRgba_pixels hlen).imp fun rgba hrgba ↦ ?_
  rw [hrgba, length_flatMap_const fun p _ ↦ Pixel.length_expand p, hlen, Nat.mul_comm,
    Nat.mul_assoc]

theorem decodeIdat_within {inflate : Bytes → Except String Bytes} {w : Walk} (hw : Sized w) :
    Within IsImage (decodeIdat inflate w) := by
  unfold decodeIdat
  split
  · rename_i width height hsaw hwidth hheight
    obtain ⟨width', height', t, hw', hh', htype, hwidthBounds, hheightBounds⟩ := hw hsaw
    obtain rfl := Option.some.inj (hwidth.symm.trans hw')
    obtain rfl := Option.some.inj (hheight.symm.trans hh')
    split_ifs with hiend hidat
    · exact within_throwing _ _
    · exact within_throwing _ _
    · cases inflate w.idat with
      | error e => exact within_throwing _ e
      | ok inflated =>
        rw [htype]
        refine (bytesPerPixel_returns t).within.bind fun bpp hbpp ↦ ?_
        subst hbpp
        dsimp only
        split_ifs with hshort
        · exact within_throwing _ _
        · refine (unfilter_within (ColorType.channels_pos t) (by omega)).bind fun raw hraw ↦ ?_
          refine (toRgba_length hraw).within.bind fun rgba hrgba ↦ ?_
          exact within_ok ⟨hwidthBounds, hheightBounds, hrgba⟩
  · exact within_throwing _ _

/-- On any bytes, whatever the zlib decoder makes of them, an image is decoded or a format
exception is thrown: no index is out of range. -/
theorem decodePng_within (inflate : Bytes → Except String Bytes) (data : Bytes) :
    Within IsImage (decodePng inflate data) := by
  unfold decodePng
  split_ifs with hshort
  · exact within_throwing _ _
  · refine (sublist_returns (Nat.zero_le _) (by omega)).within.bind fun head _ ↦ ?_
    split_ifs with hsignature
    · exact within_throwing _ _
    · have hnew : Sized {} := fun h ↦ Bool.noConfusion h
      exact (walkChunks_within hnew).bind fun w hw ↦ decodeIdat_within hw

end MachineNotebook.Vt.PngSafe
