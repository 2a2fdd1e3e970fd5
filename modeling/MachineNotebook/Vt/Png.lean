import MachineNotebook.Lib.CheckedList
import MachineNotebook.Lib.Utf8
import Mathlib.Data.Int.Notation

namespace MachineNotebook.Vt.Png

open MachineNotebook.Lib.Utf8 (Bytes)
open MachineNotebook.Lib.CheckedList

/-! `FormatException` is thrown with its message; an index out of range is the other fault. -/

structure PngImage where
  width : ℕ
  height : ℕ
  rgba : Bytes
  deriving DecidableEq

def SIGNATURE : Bytes := [0x89, 0x50, 0x4E, 0x47, 0x0D, 0x0A, 0x1A, 0x0A]

/-! Chunk types, by their bytes. -/

def IHDR : Bytes := [0x49, 0x48, 0x44, 0x52]
def IDAT : Bytes := [0x49, 0x44, 0x41, 0x54]
def IEND : Bytes := [0x49, 0x45, 0x4E, 0x44]

def readU32 (data : Bytes) (offset : ℕ) : Checked String ℕ := do
  let a ← get data offset
  let b ← get data (offset + 1)
  let c ← get data (offset + 2)
  let d ← get data (offset + 3)
  return a.toNat <<< 24 ||| b.toNat <<< 16 ||| c.toNat <<< 8 ||| d.toNat

def bytesPerPixel (colorType : ℤ) : Checked String ℕ :=
  match colorType with
  | 0 => .ok 1
  | 2 => .ok 3
  | 4 => .ok 2
  | 6 => .ok 4
  | _ => throwing ("Unsupported color type " ++ toString colorType)

section Chunks

structure Walk where
  width : Option ℕ := none
  height : Option ℕ := none
  colorType : ℤ := -1
  idat : Bytes := []
  sawIhdr : Bool := false
  sawIend : Bool := false

def readIhdr (chunk : Bytes) (length : ℕ) (w : Walk) : Checked String Walk :=
  if w.sawIhdr = true ∨ length < 13 then throwing "Invalid IHDR"
  else do
    let width ← readU32 chunk 0
    let height ← readU32 chunk 4
    let bitDepth ← get chunk 8
    let colorType ← get chunk 9
    let compression ← get chunk 10
    let filter ← get chunk 11
    let interlace ← get chunk 12
    if bitDepth ≠ 8 then throwing ("Unsupported PNG bit depth: " ++ toString bitDepth.toNat)
    else if compression ≠ 0 ∨ filter ≠ 0 then
      throwing "Unsupported PNG compression/filter method"
    else if interlace ≠ 0 then throwing "Interlaced PNG not supported"
    else if width = 0 ∨ height = 0 ∨ 65536 < width ∨ 65536 < height then
      throwing ("Invalid PNG dimensions " ++ toString width ++ "x" ++ toString height)
    else if colorType ≠ 0 ∧ colorType ≠ 2 ∧ colorType ≠ 4 ∧ colorType ≠ 6 then
      throwing ("Unsupported PNG color type: " ++ toString colorType.toNat)
    else
      return { w with
        width := some width, height := some height, colorType := colorType.toNat, sawIhdr := true }

def readChunk (type chunk : Bytes) (length : ℕ) (w : Walk) : Checked String Walk :=
  if type = IHDR then readIhdr chunk length w
  else if type = IDAT then
    if w.sawIhdr = true then .ok { w with idat := w.idat ++ chunk } else throwing "IDAT before IHDR"
  else if type = IEND then .ok { w with sawIend := true }
  else .ok w

def walkChunks (data : Bytes) (offset : ℕ) (w : Walk) : Checked String Walk :=
  if offset + 12 ≤ data.length ∧ w.sawIend = false then do
    let length ← readU32 data offset
    let type ← sublist data (offset + 4) (offset + 8)
    let dataStart := offset + 8
    let dataEnd := dataStart + length
    if data.length < dataEnd + 4 then throwing "PNG chunk truncated"
    else
      let chunk ← sublist data dataStart dataEnd
      -- the CRC is skipped
      let w ← readChunk type chunk length w
      walkChunks data (dataEnd + 4) w
  else return w
termination_by data.length - offset

end Chunks

section Unfilter

def paeth (a b c : ℕ) : ℕ :=
  let p : ℤ := a + b - c
  let pa := (p - a).natAbs
  let pb := (p - b).natAbs
  let pc := (p - c).natAbs
  if pa ≤ pb ∧ pa ≤ pc then a
  else if pb ≤ pc then b
  else c

/-- The byte one pixel to the left, and zero in the first pixel. -/
def leftOf (bpp : ℕ) (line : Bytes) (i : ℕ) : Checked String ℕ :=
  if bpp ≤ i then do return (← get line (i - bpp)).toNat else return 0

def reconstruct (row : Bytes) (stride : ℕ) (predict : Bytes → ℕ → Checked String ℕ) :
    Checked String Bytes :=
  forRange stride (fun recon i ↦ do
    let predicted ← predict recon i
    let byte ← get row i
    put recon i (UInt8.ofNat (byte.toNat + predicted))) (List.replicate stride 0)

def unfilterRow (filter : UInt8) (bpp stride : ℕ) (row prev : Bytes) : Checked String Bytes :=
  match filter.toNat with
  | 0 => setAll (List.replicate stride 0) 0 row
  | 1 => reconstruct row stride fun recon i ↦ leftOf bpp recon i
  | 2 => reconstruct row stride fun _ i ↦ do return (← get prev i).toNat
  | 3 =>
    reconstruct row stride fun recon i ↦ do
      let left ← leftOf bpp recon i
      let up ← get prev i
      return (left + up.toNat) >>> 1
  | 4 =>
    reconstruct row stride fun recon i ↦ do
      let left ← leftOf bpp recon i
      let up ← get prev i
      let upLeft ← leftOf bpp prev i
      return paeth left up.toNat upLeft
  | n => throwing ("Unknown PNG filter type: " ++ toString n)

structure Rows where
  out : Bytes
  prev : Bytes
  inOff : ℕ := 0
  outOff : ℕ := 0

def unfilterNext (inflated : Bytes) (bpp stride : ℕ) (s : Rows) (_y : ℕ) : Checked String Rows := do
  let filter ← get inflated s.inOff
  let inOff := s.inOff + 1
  let row ← sublist inflated inOff (inOff + stride)
  let recon ← unfilterRow filter bpp stride row s.prev
  let out ← setRange s.out s.outOff (s.outOff + stride) recon
  let prev ← setAll s.prev 0 recon
  return { out, prev, inOff := inOff + stride, outOff := s.outOff + stride }

def unfilter (inflated : Bytes) (width height bpp : ℕ) : Checked String Bytes := do
  let stride := width * bpp
  let s ← forRange height (unfilterNext inflated bpp stride)
    { out := List.replicate (stride * height) 0, prev := List.replicate stride 0 }
  return s.out

end Unfilter

section Rgba

structure Cursor where
  out : Bytes
  si : ℕ := 0
  di : ℕ := 0

def Cursor.emit (s : Cursor) (b : UInt8) : Checked String Cursor := do
  let out ← put s.out s.di b
  return { s with out, di := s.di + 1 }

def Cursor.read (raw : Bytes) (s : Cursor) : Checked String (UInt8 × Cursor) := do
  let b ← get raw s.si
  return (b, { s with si := s.si + 1 })

def grayPixel (raw : Bytes) (s : Cursor) (_i : ℕ) : Checked String Cursor := do
  let (g, s) ← s.read raw
  let s ← s.emit g
  let s ← s.emit g
  let s ← s.emit g
  s.emit 255

def rgbPixel (raw : Bytes) (s : Cursor) (_i : ℕ) : Checked String Cursor := do
  let (r, s) ← s.read raw
  let s ← s.emit r
  let (g, s) ← s.read raw
  let s ← s.emit g
  let (b, s) ← s.read raw
  let s ← s.emit b
  s.emit 255

def grayAlphaPixel (raw : Bytes) (s : Cursor) (_i : ℕ) : Checked String Cursor := do
  let (g, s) ← s.read raw
  let (a, s) ← s.read raw
  let s ← s.emit g
  let s ← s.emit g
  let s ← s.emit g
  s.emit a

def toRgba (raw : Bytes) (width height : ℕ) (colorType : ℤ) : Checked String Bytes :=
  let n := width * height
  let out : Bytes := List.replicate (n * 4) 0
  match colorType with
  | 0 => do return (← forRange n (grayPixel raw) { out }).out
  | 2 => do return (← forRange n (rgbPixel raw) { out }).out
  | 4 => do return (← forRange n (grayAlphaPixel raw) { out }).out
  | 6 => do setAll out 0 (← sublist raw 0 (n * 4))
  | _ => throwing ("Unsupported color type " ++ toString colorType)

end Rgba

def decodeIdat (inflate : Bytes → Except String Bytes) (w : Walk) : Checked String PngImage :=
  match w.sawIhdr, w.width, w.height with
  | true, some width, some height =>
    if w.sawIend = false then throwing "PNG missing IEND"
    else if w.idat = [] then throwing "PNG has no IDAT"
    else do
      let inflated ← (inflate w.idat).mapError .thrown
      let bpp ← bytesPerPixel w.colorType
      let stride := width * bpp
      let expected := (stride + 1) * height
      if inflated.length < expected then
        throwing ("PNG inflated data short: " ++ toString inflated.length ++ " < " ++ toString expected)
      else
        let raw ← unfilter inflated width height bpp
        let rgba ← toRgba raw width height w.colorType
        return { width, height, rgba }
  | _, _, _ => throwing "PNG missing IHDR"

/-- `decodePng`, where `inflate` is the zlib decoder, which gives bytes or throws. -/
def decodePng (inflate : Bytes → Except String Bytes) (data : Bytes) : Checked String PngImage :=
  if data.length < 8 then throwing "PNG too short for signature"
  else do
    let head ← sublist data 0 8
    if head ≠ SIGNATURE then throwing "Invalid PNG signature"
    else
      let w ← walkChunks data 8 {}
      decodeIdat inflate w

end MachineNotebook.Vt.Png
