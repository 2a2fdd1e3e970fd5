import MachineNotebook.Vt.Png

namespace MachineNotebook.Vt.PngPixels

open MachineNotebook.Lib.Utf8 (Bytes)
open MachineNotebook.Lib.CheckedList Png

inductive ColorType
  | gray
  | rgb
  | grayAlpha
  | rgba

def ColorType.number : ColorType → ℕ
  | .gray => 0
  | .rgb => 2
  | .grayAlpha => 4
  | .rgba => 6

def ColorType.channels : ColorType → ℕ
  | .gray => 1
  | .rgb => 3
  | .grayAlpha => 2
  | .rgba => 4

def Pixel : ColorType → Type
  | .gray => UInt8
  | .rgb => UInt8 × UInt8 × UInt8
  | .grayAlpha => UInt8 × UInt8
  | .rgba => UInt8 × UInt8 × UInt8 × UInt8

namespace Pixel

def bytes : (t : ColorType) → Pixel t → Bytes
  | .gray, g => [g]
  | .rgb, (r, g, b) => [r, g, b]
  | .grayAlpha, (g, a) => [g, a]
  | .rgba, (r, g, b, a) => [r, g, b, a]

def expand : (t : ColorType) → Pixel t → Bytes
  | .gray, g => [g, g, g, 255]
  | .rgb, (r, g, b) => [r, g, b, 255]
  | .grayAlpha, (g, a) => [g, g, g, a]
  | .rgba, (r, g, b, a) => [r, g, b, a]

theorem length_bytes {t : ColorType} (p : Pixel t) : (bytes t p).length = t.channels := by
  cases t with
  | gray => rfl
  | rgb => rfl
  | grayAlpha => rfl
  | rgba => rfl

theorem length_expand {t : ColorType} (p : Pixel t) : (expand t p).length = 4 := by
  cases t with
  | gray => rfl
  | rgb => rfl
  | grayAlpha => rfl
  | rgba => rfl

theorem exists_of_length {t : ColorType} {bs : Bytes} (h : bs.length = t.channels) :
    ∃ p : Pixel t, bytes t p = bs := by
  cases t with
  | gray =>
    obtain ⟨g, rfl⟩ := List.length_eq_one_iff.mp h
    exact ⟨g, rfl⟩
  | rgb =>
    obtain ⟨r, g, b, rfl⟩ := List.length_eq_three.mp h
    exact ⟨(r, g, b), rfl⟩
  | grayAlpha =>
    obtain ⟨g, a, rfl⟩ := List.length_eq_two.mp h
    exact ⟨(g, a), rfl⟩
  | rgba =>
    match bs, h with
    | [r, g, b, a], _ => exact ⟨(r, g, b, a), rfl⟩

end Pixel

variable {t : ColorType}

theorem length_flatMap_const {α β : Type} {f : α → List β} {k : ℕ} {l : List α}
    (hf : ∀ a ∈ l, (f a).length = k) : (l.flatMap f).length = l.length * k := by
  induction l with
  | nil => rw [List.flatMap_nil, List.length_nil, List.length_nil, Nat.zero_mul]
  | cons a l ih =>
    rw [List.flatMap_cons, List.length_append, hf a List.mem_cons_self,
      ih fun b hb ↦ hf b (List.mem_cons_of_mem a hb), List.length_cons, Nat.succ_mul, Nat.add_comm]

theorem exists_pixels (t : ColorType) {n : ℕ} {bs : Bytes} (h : bs.length = n * t.channels) :
    ∃ pixels : List (Pixel t), pixels.length = n ∧ pixels.flatMap (Pixel.bytes t) = bs := by
  induction n generalizing bs with
  | zero =>
    rw [Nat.zero_mul, List.length_eq_zero_iff] at h
    exact ⟨[], rfl, h.symm⟩
  | succ n ih =>
    rw [Nat.succ_mul] at h
    have hfirst : (bs.take t.channels).length = t.channels := by
      rw [List.length_take]
      omega
    have hrest : (bs.drop t.channels).length = n * t.channels := by
      rw [List.length_drop]
      omega
    obtain ⟨p, hp⟩ := Pixel.exists_of_length hfirst
    obtain ⟨pixels, hlen, hpixels⟩ := ih hrest
    refine ⟨p :: pixels, by rw [List.length_cons, hlen], ?_⟩
    rw [List.flatMap_cons, hp, hpixels, List.take_append_drop]

section Cursor

/-- The loop has written `done`, has `k` bytes to write, and reads at `si` next. -/
structure At (done : Bytes) (k si : ℕ) (s : Cursor) : Prop where
  out : s.out = done ++ List.replicate k 0
  di : s.di = done.length
  si : s.si = si

variable {done raw : Bytes} {k si : ℕ} {s : Cursor}

theorem emit_returns (b : UInt8) (h : At done (k + 1) si s) :
    Returns (At (done ++ [b]) k si) (s.emit b) := by
  obtain ⟨hout, hdi, hsi⟩ := h
  refine Returns.bind (hout ▸ put_next hdi) fun out hout ↦ returns_ok ⟨hout, ?_, hsi⟩
  rw [List.length_append, hdi]
  rfl

theorem read_returns {b : UInt8} (hb : raw[si]? = some b) (h : At done k si s) :
    Returns (fun r ↦ r.1 = b ∧ At done k (si + 1) r.2) (s.read raw) := by
  obtain ⟨hout, hdi, hsi⟩ := h
  refine Returns.bind (hsi ▸ get_of_getElem? hb) fun c hc ↦ returns_ok ⟨hc, hout, hdi, ?_⟩
  rw [hsi]

/-- A body of the loop over the pixels that reads one and writes its four bytes. -/
def Expands (t : ColorType) (raw : Bytes) (body : Cursor → ℕ → Checked String Cursor) : Prop :=
  ∀ (p : Pixel t) done k si s i, (∀ j < t.channels, raw[si + j]? = (Pixel.bytes t p)[j]?) →
    At done (k + 4) si s →
    Returns (At (done ++ Pixel.expand t p) k (si + t.channels)) (body s i)

theorem grayPixel_expands (raw : Bytes) : Expands .gray raw (grayPixel raw) := by
  intro g done k si s i hraw h
  refine (read_returns (b := g) (hraw 0 (by decide)) h).bind ?_
  rintro ⟨g, s⟩ ⟨rfl, h⟩
  refine (emit_returns g h).bind fun s h ↦ (emit_returns g h).bind fun s h ↦
    (emit_returns g h).bind fun s h ↦ (emit_returns 255 h).imp fun s h ↦ ?_
  simp only [List.append_assoc, List.cons_append, List.nil_append] at h
  exact h

theorem rgbPixel_expands (raw : Bytes) : Expands .rgb raw (rgbPixel raw) := by
  rintro ⟨r, g, b⟩ done k si s i hraw h
  refine (read_returns (b := r) (hraw 0 (by decide)) h).bind ?_
  rintro ⟨r, s⟩ ⟨rfl, h⟩
  refine (emit_returns r h).bind fun s h ↦ ?_
  refine (read_returns (b := g) (hraw 1 (by decide)) h).bind ?_
  rintro ⟨g, s⟩ ⟨rfl, h⟩
  refine (emit_returns g h).bind fun s h ↦ ?_
  refine (read_returns (b := b) (hraw 2 (by decide)) h).bind ?_
  rintro ⟨b, s⟩ ⟨rfl, h⟩
  refine (emit_returns b h).bind fun s h ↦ (emit_returns 255 h).imp fun s h ↦ ?_
  simp only [List.append_assoc, List.cons_append, List.nil_append] at h
  exact h

theorem grayAlphaPixel_expands (raw : Bytes) : Expands .grayAlpha raw (grayAlphaPixel raw) := by
  rintro ⟨g, a⟩ done k si s i hraw h
  refine (read_returns (b := g) (hraw 0 (by decide)) h).bind ?_
  rintro ⟨g, s⟩ ⟨rfl, h⟩
  refine (read_returns (b := a) (hraw 1 (by decide)) h).bind ?_
  rintro ⟨a, s⟩ ⟨rfl, h⟩
  refine (emit_returns g h).bind fun s h ↦ (emit_returns g h).bind fun s h ↦
    (emit_returns g h).bind fun s h ↦ (emit_returns a h).imp fun s h ↦ ?_
  simp only [List.append_assoc, List.cons_append, List.nil_append] at h
  exact h

def Expanded (pixels : List (Pixel t)) (i : ℕ) : Cursor → Prop :=
  At ((pixels.take i).flatMap (Pixel.expand t)) ((pixels.length - i) * 4) (i * t.channels)

theorem getElem?_pixels {pixels : List (Pixel t)} {i j : ℕ} (hi : i < pixels.length)
    (hj : j < t.channels) :
    (pixels.flatMap (Pixel.bytes t))[i * t.channels + j]? = (Pixel.bytes t pixels[i])[j]? := by
  have hpre : ((pixels.take i).flatMap (Pixel.bytes t)).length = i * t.channels := by
    rw [length_flatMap_const fun p _ ↦ Pixel.length_bytes p,
      List.length_take_of_le (Nat.le_of_lt hi)]
  have hbytes := Pixel.length_bytes pixels[i]
  conv_lhs => rw [← List.take_append_drop i pixels, List.drop_eq_getElem_cons hi]
  rw [List.flatMap_append, List.flatMap_cons, List.getElem?_append_right (by omega), hpre,
    Nat.add_sub_cancel_left, List.getElem?_append_left (by omega)]

theorem loop_expands {pixels : List (Pixel t)} {body : Cursor → ℕ → Checked String Cursor}
    (hbody : Expands t (pixels.flatMap (Pixel.bytes t)) body) :
    Returns (fun s ↦ s.out = pixels.flatMap (Pixel.expand t))
      (forRange pixels.length body { out := List.replicate (pixels.length * 4) 0 }) := by
  have hstart : Expanded pixels 0 { out := List.replicate (pixels.length * 4) 0 } :=
    ⟨rfl, rfl, (Nat.zero_mul _).symm⟩
  have hstep : ∀ i < pixels.length, ∀ s, Expanded pixels i s →
      Returns (Expanded pixels (i + 1)) (body s i) := by
    intro i hi s hs
    have hrest : (pixels.length - i) * 4 = (pixels.length - (i + 1)) * 4 + 4 := by omega
    rw [Expanded, hrest] at hs
    refine (hbody pixels[i] _ _ _ s i (fun j hj ↦ getElem?_pixels hi hj) hs).imp fun s hs ↦ ?_
    rw [Expanded, List.take_add_one, List.getElem?_eq_getElem hi, List.flatMap_append,
      Nat.succ_mul]
    simpa using hs
  refine (@forRange_returns String Cursor _ body (Expanded pixels) _ hstart hstep).imp fun s hs ↦ ?_
  have hout := hs.out
  rwa [Nat.sub_self, Nat.zero_mul, List.replicate_zero, List.append_nil, List.take_length] at hout

theorem toRgba_pixels {pixels : List (Pixel t)} {width height : ℕ}
    (hlen : pixels.length = width * height) :
    Returns (· = pixels.flatMap (Pixel.expand t))
      (toRgba (pixels.flatMap (Pixel.bytes t)) width height t.number) := by
  cases t with
  | gray =>
    have hloop := loop_expands (grayPixel_expands (pixels.flatMap (Pixel.bytes .gray)))
    rw [hlen] at hloop
    exact hloop.bind fun s hs ↦ returns_ok hs
  | rgb =>
    have hloop := loop_expands (rgbPixel_expands (pixels.flatMap (Pixel.bytes .rgb)))
    rw [hlen] at hloop
    exact hloop.bind fun s hs ↦ returns_ok hs
  | grayAlpha =>
    have hloop := loop_expands (grayAlphaPixel_expands (pixels.flatMap (Pixel.bytes .grayAlpha)))
    rw [hlen] at hloop
    exact hloop.bind fun s hs ↦ returns_ok hs
  | rgba =>
    have hbytes : (pixels.flatMap (Pixel.bytes .rgba)).length = width * height * 4 := by
      rw [length_flatMap_const fun p _ ↦ Pixel.length_bytes p, hlen]
      rfl
    refine (sublist_returns (Nat.zero_le _) (Nat.le_of_eq hbytes.symm)).bind fun part hpart ↦ ?_
    rw [List.drop_zero, Nat.sub_zero, ← hbytes, List.take_length] at hpart
    refine (setAll_returns ?_).imp fun out hout ↦ hout.trans hpart
    rw [hpart, hbytes, List.length_replicate]

end Cursor

end MachineNotebook.Vt.PngPixels
