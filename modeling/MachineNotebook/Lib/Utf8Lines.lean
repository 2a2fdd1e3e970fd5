import MachineNotebook.Lib.Utf8
import MachineNotebook.Lib.Lines

namespace MachineNotebook.Lib.Utf8

theorem ofNat_lt_iff {n : ℕ} (hn : n < 256) (b : UInt8) : UInt8.ofNat n < b ↔ n < b.toNat := by
  rw [UInt8.lt_iff_toNat_lt, UInt8.toNat_ofNat_of_lt' hn]

theorem le_ofNat_iff {n : ℕ} (hn : n < 256) (b : UInt8) : b ≤ UInt8.ofNat n ↔ b.toNat ≤ n := by
  rw [UInt8.le_iff_toNat_le, UInt8.toNat_ofNat_of_lt' hn]

theorem ofNat_le_iff {n : ℕ} (hn : n < 256) (b : UInt8) : UInt8.ofNat n ≤ b ↔ n ≤ b.toNat := by
  rw [UInt8.le_iff_toNat_le, UInt8.toNat_ofNat_of_lt' hn]

theorem ofNat_eq_iff {n : ℕ} (hn : n < 256) (b : UInt8) : UInt8.ofNat n = b ↔ n = b.toNat := by
  rw [← UInt8.toNat_inj, UInt8.toNat_ofNat_of_lt' hn]

theorem first_ofNat {n : ℕ} (hn : n < 256) :
    first (UInt8.ofNat n) =
      if n < 0x80 then ([Char.ofNat n], .start)
      else if 0xC2 ≤ n ∧ n ≤ 0xDF then ([], .inside 0 0x80 0xBF (n - 0xC0))
      else if n = 0xE0 then ([], .inside 1 0xA0 0xBF 0)
      else if n = 0xED then ([], .inside 1 0x80 0x9F 0xD)
      else if 0xE1 ≤ n ∧ n ≤ 0xEF then ([], .inside 1 0x80 0xBF (n - 0xE0))
      else if n = 0xF0 then ([], .inside 2 0x90 0xBF 0)
      else if 0xF1 ≤ n ∧ n ≤ 0xF3 then ([], .inside 2 0x80 0xBF (n - 0xF0))
      else if n = 0xF4 then ([], .inside 2 0x80 0x8F 4)
      else (['\uFFFD'], .start) := by
  simp only [first, ofNat_lt_iff hn, le_ofNat_iff hn, ofNat_le_iff hn, ofNat_eq_iff hn,
    UInt8.toNat_ofNat_of_lt' hn, UInt8.reduceToNat]

theorem feed_last {lo hi : UInt8} {acc n : ℕ} (hlo : lo.toNat ≤ n + 0x80)
    (hhi : n + 0x80 ≤ hi.toNat) :
    feed (.inside 0 lo hi acc) (UInt8.ofNat (n + 0x80)) = ([Char.ofNat (acc * 64 + n)], .start) := by
  have hlt : n + 0x80 < 256 := Nat.lt_of_le_of_lt hhi hi.toNat_lt
  rw [feed, if_pos ⟨(le_ofNat_iff hlt lo).mpr hlo, (ofNat_le_iff hlt hi).mpr hhi⟩]
  simp only [UInt8.toNat_ofNat_of_lt' hlt, Nat.add_sub_cancel]

theorem feed_more {more : ℕ} {lo hi : UInt8} {acc n : ℕ} (hlo : lo.toNat ≤ n + 0x80)
    (hhi : n + 0x80 ≤ hi.toNat) :
    feed (.inside (more + 1) lo hi acc) (UInt8.ofNat (n + 0x80)) =
      ([], .inside more 0x80 0xBF (acc * 64 + n)) := by
  have hlt : n + 0x80 < 256 := Nat.lt_of_le_of_lt hhi hi.toNat_lt
  rw [feed, if_pos ⟨(le_ofNat_iff hlt lo).mpr hlo, (ofNat_le_iff hlt hi).mpr hhi⟩]
  simp only [UInt8.toNat_ofNat_of_lt' hlt, Nat.add_sub_cancel]

theorem decodeFrom_cons (q : State) (b : UInt8) (bs : Bytes) :
    decodeFrom q (b :: bs) = (feed q b).1 ++ decodeFrom (feed q b).2 bs := by
  cases q <;> rfl

theorem decodeFrom_last {lo hi : UInt8} {acc n : ℕ} (bs : Bytes) (hlo : lo.toNat ≤ n + 0x80)
    (hhi : n + 0x80 ≤ hi.toNat) :
    decodeFrom (.inside 0 lo hi acc) (UInt8.ofNat (n + 0x80) :: bs) =
      Char.ofNat (acc * 64 + n) :: decodeFrom .start bs := by
  rw [decodeFrom_cons, feed_last hlo hhi, List.singleton_append]

theorem decodeFrom_more {more : ℕ} {lo hi : UInt8} {acc n : ℕ} (bs : Bytes)
    (hlo : lo.toNat ≤ n + 0x80) (hhi : n + 0x80 ≤ hi.toNat) :
    decodeFrom (.inside (more + 1) lo hi acc) (UInt8.ofNat (n + 0x80) :: bs) =
      decodeFrom (.inside more 0x80 0xBF (acc * 64 + n)) bs := by
  rw [decodeFrom_cons, feed_more hlo hhi, List.nil_append]

theorem decodeFrom_first {n : ℕ} {q : State} (bs : Bytes) (h : first (UInt8.ofNat n) = ([], q)) :
    decodeFrom .start (UInt8.ofNat n :: bs) = decodeFrom q bs := by
  rw [decodeFrom_cons, feed, h, List.nil_append]

theorem decodeFrom_two {v : ℕ} (h1 : 0x80 ≤ v) (h2 : v < 0x800) (bs : Bytes) :
    decodeFrom .start
        (UInt8.ofNat (v / 64 % 32 + 0xC0) :: UInt8.ofNat (v % 64 + 0x80) :: bs) =
      Char.ofNat v :: decodeFrom .start bs := by
  have hfirst : first (UInt8.ofNat (v / 64 % 32 + 0xC0)) =
      ([], .inside 0 0x80 0xBF (v / 64)) := by
    have hacc : v / 64 % 32 + 0xC0 - 0xC0 = v / 64 := by omega
    rw [first_ofNat (by omega), if_neg (by omega), if_pos (by omega), hacc]
  have hv : v / 64 * 64 + v % 64 = v := by omega
  rw [decodeFrom_first _ hfirst, decodeFrom_last _ (by simp) (by simp; omega), hv]

theorem decodeFrom_three {v : ℕ} (h1 : 0x800 ≤ v) (h2 : v < 0x10000)
    (hvalid : v < 0xD800 ∨ 0xDFFF < v) (bs : Bytes) :
    decodeFrom .start
        (UInt8.ofNat (v / 4096 % 16 + 0xE0) :: UInt8.ofNat (v / 64 % 64 + 0x80) ::
          UInt8.ofNat (v % 64 + 0x80) :: bs) =
      Char.ofNat v :: decodeFrom .start bs := by
  -- the first byte says which second bytes keep the character out of the surrogates
  obtain ⟨lo, hi, hfirst, hlo, hhi⟩ : ∃ lo hi : UInt8,
      first (UInt8.ofNat (v / 4096 % 16 + 0xE0)) = ([], .inside 1 lo hi (v / 4096)) ∧
        lo.toNat ≤ v / 64 % 64 + 0x80 ∧ v / 64 % 64 + 0x80 ≤ hi.toNat := by
    rw [first_ofNat (by omega), if_neg (by omega), if_neg (by omega)]
    by_cases hE0 : v / 4096 % 16 + 0xE0 = 0xE0
    · refine ⟨0xA0, 0xBF, ?_, ?_, ?_⟩
      · have hacc : v / 4096 = 0 := by omega
        rw [if_pos hE0, hacc]
      · simp only [UInt8.reduceToNat]
        omega
      · simp only [UInt8.reduceToNat]
        omega
    · rw [if_neg hE0]
      by_cases hED : v / 4096 % 16 + 0xE0 = 0xED
      · refine ⟨0x80, 0x9F, ?_, ?_, ?_⟩
        · have hacc : v / 4096 = 0xD := by omega
          rw [if_pos hED, hacc]
        · simp only [UInt8.reduceToNat]
          omega
        · simp only [UInt8.reduceToNat]
          omega
      · refine ⟨0x80, 0xBF, ?_, ?_, ?_⟩
        · have hacc : v / 4096 % 16 + 0xE0 - 0xE0 = v / 4096 := by omega
          rw [if_neg hED, if_pos (by omega), hacc]
        · simp only [UInt8.reduceToNat]
          omega
        · simp only [UInt8.reduceToNat]
          omega
  have hv : (v / 4096 * 64 + v / 64 % 64) * 64 + v % 64 = v := by omega
  rw [decodeFrom_first _ hfirst, decodeFrom_more _ hlo hhi,
    decodeFrom_last _ (by simp) (by simp; omega), hv]

theorem decodeFrom_four {v : ℕ} (h1 : 0x10000 ≤ v) (h2 : v < 0x110000) (bs : Bytes) :
    decodeFrom .start
        (UInt8.ofNat (v / 262144 % 8 + 0xF0) :: UInt8.ofNat (v / 4096 % 64 + 0x80) ::
          UInt8.ofNat (v / 64 % 64 + 0x80) :: UInt8.ofNat (v % 64 + 0x80) :: bs) =
      Char.ofNat v :: decodeFrom .start bs := by
  obtain ⟨lo, hi, hfirst, hlo, hhi⟩ : ∃ lo hi : UInt8,
      first (UInt8.ofNat (v / 262144 % 8 + 0xF0)) = ([], .inside 2 lo hi (v / 262144)) ∧
        lo.toNat ≤ v / 4096 % 64 + 0x80 ∧ v / 4096 % 64 + 0x80 ≤ hi.toNat := by
    rw [first_ofNat (by omega), if_neg (by omega), if_neg (by omega), if_neg (by omega),
      if_neg (by omega), if_neg (by omega)]
    by_cases hF0 : v / 262144 % 8 + 0xF0 = 0xF0
    · refine ⟨0x90, 0xBF, ?_, ?_, ?_⟩
      · have hacc : v / 262144 = 0 := by omega
        rw [if_pos hF0, hacc]
      · simp only [UInt8.reduceToNat]
        omega
      · simp only [UInt8.reduceToNat]
        omega
    · rw [if_neg hF0]
      by_cases hF4 : v / 262144 % 8 + 0xF0 = 0xF4
      · refine ⟨0x80, 0x8F, ?_, ?_, ?_⟩
        · have hacc : v / 262144 = 4 := by omega
          rw [if_neg (by omega), if_pos hF4, hacc]
        · simp only [UInt8.reduceToNat]
          omega
        · simp only [UInt8.reduceToNat]
          omega
      · refine ⟨0x80, 0xBF, ?_, ?_, ?_⟩
        · have hacc : v / 262144 % 8 + 0xF0 - 0xF0 = v / 262144 := by omega
          rw [if_pos (by omega), hacc]
        · simp only [UInt8.reduceToNat]
          omega
        · simp only [UInt8.reduceToNat]
          omega
  have hv : ((v / 262144 * 64 + v / 4096 % 64) * 64 + v / 64 % 64) * 64 + v % 64 = v := by omega
  rw [decodeFrom_first _ hfirst, decodeFrom_more _ hlo hhi,
    decodeFrom_more _ (by simp) (by simp; omega), decodeFrom_last _ (by simp) (by simp; omega), hv]

theorem decodeFrom_utf8EncodeChar (c : Char) (bs : Bytes) :
    decodeFrom .start (String.utf8EncodeChar c ++ bs) = c :: decodeFrom .start bs := by
  have hc : Char.ofNat c.val.toNat = c := Char.ofNat_toNat c
  have hvalid : c.val.toNat < 0xD800 ∨ 0xDFFF < c.val.toNat ∧ c.val.toNat < 0x110000 := c.valid
  simp only [String.utf8EncodeChar]
  generalize c.val.toNat = v at hc hvalid
  by_cases h1 : v ≤ 0x7f
  · rw [if_pos h1, List.singleton_append, decodeFrom_cons, feed, first_ofNat (by omega),
      if_pos (by omega), hc, List.singleton_append]
  · rw [if_neg h1]
    by_cases h2 : v ≤ 0x7ff
    · rw [if_pos h2, ← hc]
      exact decodeFrom_two (by omega) (by omega) bs
    · rw [if_neg h2]
      by_cases h3 : v ≤ 0xffff
      · rw [if_pos h3, ← hc]
        exact decodeFrom_three (by omega) (by omega) (by omega) bs
      · rw [if_neg h3, ← hc]
        exact decodeFrom_four (by omega) (by omega) bs

def encode (cs : List Char) : Bytes := cs.flatMap String.utf8EncodeChar

theorem decodeLossy_encode_append (cs : List Char) (bs : Bytes) :
    decodeLossy (encode cs ++ bs) = cs ++ decodeLossy bs := by
  induction cs with
  | nil => rfl
  | cons c cs ih =>
    rw [encode, List.flatMap_cons, List.append_assoc]
    exact (decodeFrom_utf8EncodeChar c _).trans (congrArg (c :: ·) ih)

theorem decodeLossy_encode (cs : List Char) : decodeLossy (encode cs) = cs := by
  calc decodeLossy (encode cs) = decodeLossy (encode cs ++ []) := by rw [List.append_nil]
    _ = cs ++ [] := decodeLossy_encode_append cs []
    _ = cs := List.append_nil cs

@[simp] theorem encode_nil : encode [] = [] := rfl

theorem encode_eq_nil {cs : List Char} : encode cs = [] ↔ cs = [] := by
  refine ⟨fun h ↦ ?_, fun h ↦ by rw [h, encode_nil]⟩
  rw [← decodeLossy_encode cs, h]
  rfl

theorem encode_append (cs ds : List Char) : encode (cs ++ ds) = encode cs ++ encode ds :=
  List.flatMap_append

theorem encode_flatten (css : List (List Char)) :
    encode css.flatten = (css.map encode).flatten := by
  induction css with
  | nil => rfl
  | cons cs css ih => rw [List.flatten_cons, encode_append, ih, List.map_cons, List.flatten_cons]

def WellFormed (bs : Bytes) : Prop := ∃ cs, encode cs = bs

theorem wellFormed_iff {bs : Bytes} : WellFormed bs ↔ encode (decodeLossy bs) = bs := by
  constructor
  · intro hboth
    obtain ⟨cs, rfl⟩ := hboth
    rw [decodeLossy_encode]
  · intro h
    exact ⟨decodeLossy bs, h⟩

instance (bs : Bytes) : Decidable (WellFormed bs) :=
  decidable_of_iff (encode (decodeLossy bs) = bs) wellFormed_iff.symm

theorem WellFormed.append {bs bs' : Bytes} (h : WellFormed bs) (h' : WellFormed bs') :
    WellFormed (bs ++ bs') := by
  obtain ⟨cs, rfl⟩ := h
  obtain ⟨cs', rfl⟩ := h'
  exact ⟨cs ++ cs', encode_append cs cs'⟩

/-- Text in front of a decoded and re-encoded piece is never made up for. -/
theorem WellFormed.eq_nil_of_append {p bs : Bytes} (hp : WellFormed p)
    (h : p ++ encode (decodeLossy bs) = bs) : p = [] := by
  obtain ⟨cs, rfl⟩ := hp
  rw [← encode_append] at h
  have heq : cs ++ decodeLossy bs = decodeLossy bs := by
    conv_rhs => rw [← h, decodeLossy_encode]
  have hcs : cs = [] := by simpa using heq
  rw [hcs]
  rfl

section LineFeed

def LF : UInt8 := 0x0A

/-- No continuation byte is a line feed, and no character with more than one byte is. -/
def State.Sound : State → Prop
  | .start => True
  | .inside _ lo _ acc => 0x80 ≤ lo.toNat ∧ (0 < acc ∨ 0x8B ≤ lo.toNat)

theorem sound_start : State.Sound .start := trivial

theorem ofNat_ne_newline {n : ℕ} (hn : n ≠ 10) : Char.ofNat n ≠ '\n' := by
  intro h
  by_cases hvalid : n.isValidChar
  · rw [Char.ofNat, dif_pos hvalid] at h
    have hval : (Char.ofNatAux n hvalid).toNat = 10 := congrArg Char.toNat h
    exact hn hval
  · rw [Char.ofNat, dif_neg hvalid] at h
    exact absurd h (by decide)

theorem first_spec {b : UInt8} (hb : b ≠ LF) : '\n' ∉ (first b).1 ∧ (first b).2.Sound := by
  have hn : b.toNat ≠ 10 := fun h ↦ hb (UInt8.toNat_inj.mp h)
  unfold first
  split
  · exact ⟨by simp [Ne.symm (ofNat_ne_newline hn)], trivial⟩
  · split
    · rename_i hlead
      have hge : 0xC2 ≤ b.toNat := UInt8.le_iff_toNat_le.mp hlead.1
      exact ⟨by simp, by simp, Or.inl (by omega)⟩
    · split
      · exact ⟨by simp, by simp, Or.inr (by simp)⟩
      · split
        · exact ⟨by simp, by simp, Or.inl (by simp)⟩
        · split
          · rename_i hlead
            have hge : 0xE1 ≤ b.toNat := UInt8.le_iff_toNat_le.mp hlead.1
            exact ⟨by simp, by simp, Or.inl (by omega)⟩
          · split
            · exact ⟨by simp, by simp, Or.inr (by simp)⟩
            · split
              · rename_i hlead
                have hge : 0xF1 ≤ b.toNat := UInt8.le_iff_toNat_le.mp hlead.1
                exact ⟨by simp, by simp, Or.inl (by omega)⟩
              · split
                · exact ⟨by simp, by simp, Or.inl (by simp)⟩
                · exact ⟨by decide, trivial⟩

theorem feed_spec {q : State} (hq : q.Sound) {b : UInt8} (hb : b ≠ LF) :
    '\n' ∉ (feed q b).1 ∧ (feed q b).2.Sound := by
  cases q with
  | start => exact first_spec hb
  | inside more lo hi acc =>
    obtain ⟨hlo, hacc⟩ := hq
    rw [feed]
    split
    · rename_i hrange
      have hge : lo.toNat ≤ b.toNat := UInt8.le_iff_toNat_le.mp hrange.1
      cases more with
      | zero =>
        have hne : acc * 64 + (b.toNat - 0x80) ≠ 10 := by omega
        exact ⟨by simp [Ne.symm (ofNat_ne_newline hne)], trivial⟩
      | succ more => exact ⟨by simp, by simp, Or.inl (by omega)⟩
    · obtain ⟨hout, hq'⟩ := first_spec hb
      exact ⟨by simp [hout], hq'⟩

theorem feed_LF {q : State} (hq : q.Sound) :
    feed q LF = (decodeFrom q [] ++ ['\n'], .start) := by
  cases q with
  | start => rfl
  | inside more lo hi acc =>
    have hout : ¬(lo ≤ LF ∧ LF ≤ hi) := by
      intro hboth
      obtain ⟨hle, -⟩ := hboth
      have h : lo.toNat ≤ 10 := UInt8.le_iff_toNat_le.mp hle
      have h' : 0x80 ≤ lo.toNat := hq.1
      omega
    rw [feed, if_neg hout]
    rfl

theorem newline_notMem_decodeFrom {q : State} (hq : q.Sound) {bs : Bytes} (hbs : LF ∉ bs) :
    '\n' ∉ decodeFrom q bs := by
  induction bs generalizing q with
  | nil => cases q <;> simp [decodeFrom]
  | cons b bs ih =>
    simp only [List.mem_cons, not_or] at hbs
    obtain ⟨hout, hq'⟩ := feed_spec hq (Ne.symm hbs.1)
    rw [decodeFrom_cons, List.mem_append, not_or]
    exact ⟨hout, ih hq' hbs.2⟩

theorem decodeFrom_line {q : State} (hq : q.Sound) {w : Bytes} (hw : LF ∉ w) (bs : Bytes) :
    decodeFrom q (w ++ LF :: bs) = decodeFrom q w ++ '\n' :: decodeLossy bs := by
  induction w generalizing q with
  | nil =>
    rw [List.nil_append, decodeFrom_cons, feed_LF hq, List.append_assoc]
    rfl
  | cons b w ih =>
    simp only [List.mem_cons, not_or] at hw
    rw [List.cons_append, decodeFrom_cons, decodeFrom_cons,
      ih (feed_spec hq (Ne.symm hw.1)).2 hw.2, List.append_assoc]

theorem newline_mem_decodeLossy {bs : Bytes} : '\n' ∈ decodeLossy bs ↔ LF ∈ bs := by
  constructor
  · intro h
    by_contra hbs
    exact newline_notMem_decodeFrom sound_start hbs h
  · intro h
    obtain ⟨w, rest, rfl, hw⟩ := List.eq_append_cons_of_mem h
    rw [decodeLossy, decodeFrom_line sound_start hw]
    simp

theorem LF_mem_encode {cs : List Char} : LF ∈ encode cs ↔ '\n' ∈ cs := by
  rw [← newline_mem_decodeLossy, decodeLossy_encode]

theorem LF_mem_decoded {bs : Bytes} : LF ∈ encode (decodeLossy bs) ↔ LF ∈ bs :=
  LF_mem_encode.trans newline_mem_decodeLossy

open Lines

theorem decodeLossy_line_append {l : Bytes} (hl : IsLine LF l) (bs : Bytes) :
    decodeLossy (l ++ bs) = decodeLossy l ++ decodeLossy bs := by
  obtain ⟨w, hw, rfl⟩ := hl
  have hline : ∀ bs, decodeLossy (w ++ LF :: bs) = decodeLossy w ++ '\n' :: decodeLossy bs :=
    decodeFrom_line sound_start hw
  rw [List.append_assoc, List.singleton_append, hline, hline, List.append_assoc]
  rfl

theorem isLine_decodeLossy {l : Bytes} (hl : IsLine LF l) : IsLine '\n' (decodeLossy l) := by
  obtain ⟨w, hw, rfl⟩ := hl
  refine ⟨decodeLossy w, fun h ↦ hw (newline_mem_decodeLossy.mp h), ?_⟩
  exact decodeFrom_line sound_start hw []

theorem isLine_encode {l : List Char} (hl : IsLine '\n' l) : IsLine LF (encode l) := by
  obtain ⟨w, hw, rfl⟩ := hl
  refine ⟨encode w, fun h ↦ hw (LF_mem_encode.mp h), ?_⟩
  rw [encode_append]
  rfl

theorem isLine_decoded {l : Bytes} (hl : IsLine LF l) : IsLine LF (encode (decodeLossy l)) :=
  isLine_encode (isLine_decodeLossy hl)

theorem decodeLossy_flatten {ls : List Bytes} (hls : ∀ l ∈ ls, IsLine LF l) (bs : Bytes) :
    decodeLossy (ls.flatten ++ bs) = (ls.map decodeLossy).flatten ++ decodeLossy bs := by
  induction ls with
  | nil => rfl
  | cons l ls ih =>
    rw [List.flatten_cons, List.append_assoc, decodeLossy_line_append (hls l List.mem_cons_self),
      ih (fun l hl ↦ hls l (List.mem_cons_of_mem _ hl)), List.map_cons, List.flatten_cons,
      List.append_assoc]

/-- Decoding goes line by line. -/
theorem cut_decodeLossy (bs : Bytes) :
    cut '\n' (decodeLossy bs) = ((cut LF bs).1.map decodeLossy, decodeLossy (cut LF bs).2) := by
  obtain ⟨hflat, hlines, hrest⟩ := cut_spec LF bs
  conv_lhs => rw [← hflat, decodeLossy_flatten hlines]
  apply cut_eq
  · intro l hl
    obtain ⟨l', hl', rfl⟩ := List.mem_map.mp hl
    exact isLine_decodeLossy (hlines l' hl')
  · exact fun h ↦ hrest (newline_mem_decodeLossy.mp h)

theorem cut_encode (cs : List Char) :
    cut LF (encode cs) = ((cut '\n' cs).1.map encode, encode (cut '\n' cs).2) := by
  obtain ⟨hflat, hlines, hrest⟩ := cut_spec '\n' cs
  conv_lhs => rw [← hflat, encode_append, encode_flatten]
  apply cut_eq
  · intro l hl
    obtain ⟨l', hl', rfl⟩ := List.mem_map.mp hl
    exact isLine_encode (hlines l' hl')
  · exact fun h ↦ hrest (LF_mem_encode.mp h)

end LineFeed

end MachineNotebook.Lib.Utf8
