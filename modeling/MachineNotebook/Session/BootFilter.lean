import MachineNotebook.Dart.Text
import MachineNotebook.Lib.Run
import Mathlib.Data.List.Flatten

namespace MachineNotebook.Session.BootFilter

open MachineNotebook.Lib MachineNotebook.Lib.Utf8 MachineNotebook.Lib.Lines MachineNotebook.Dart.Text

def isBootNoiseLine (line : List Char) : Bool :=
  let t := trimLeft line
  if t.isEmpty then false
  else if startsWith t "memcontainers" then true
  else if startsWith t "Booting" then true
  else if startsWith t "Loading image" then true
  else if startsWith t "Mounting " then true
  else false

def heads : List String := ["memcontainers", "Booting", "Loading image", "Mounting "]

def isIncompleteBootPrefix (line : List Char) : Bool :=
  let t := trimLeft line
  if (ofChars t).length < 6 then false
  else heads.any fun h ↦ t.isPrefixOf h.toList

/-- The loop over the text: what is kept of the lines it completes, and the line it is in. -/
def keepLines (out line : List Char) : List Char → List Char × List Char
  | [] => (out, line)
  | c :: cs =>
    if c ≠ '\n' then keepLines out (line ++ [c]) cs
    else keepLines (if isBootNoiseLine (line ++ [c]) then out else out ++ (line ++ [c])) [] cs

/-- The bytes to paint, and the next `_bootLineCarry`. -/
def stripBootNoise (bootLineCarry : List Char) (raw : Bytes) : Bytes × List Char :=
  let text := bootLineCarry ++ utf8Decode raw
  let (out, rest) := keepLines [] [] text
  if rest = [] then (encode out, [])
  else if isIncompleteBootPrefix rest then (encode out, rest)
  else (encode (out ++ rest), [])

/-- The bytes to paint, and the characters that are lost when the carry is emptied. -/
def flushBootCarry (bootLineCarry : List Char) : Bytes × List Char :=
  if bootLineCarry = [] then ([], [])
  else if isBootNoiseLine bootLineCarry || isIncompleteBootPrefix bootLineCarry then
    ([], bootLineCarry)
  else (encode bootLineCarry, [])

/-- A line of the guest's stream that the filter is there to drop. -/
def isBanner (l : Bytes) : Bool := isBootNoiseLine (decodeLossy l)

def withoutBanners (bs : Bytes) : Bytes :=
  ((cut LF bs).1.filter fun l ↦ !isBanner l).flatten ++ (cut LF bs).2

def isHeld (q : Bytes) : Bool := isIncompleteBootPrefix (decodeLossy q)

/-- A chunk that the filter handles as the stream's lines ask, when it goes on in a line of which
`p` was taken before: it holds nothing back, it reads and writes every byte it keeps as it was,
and the piece of `p`'s line that it brings is judged as the whole line is. -/
def Fair (p c : Bytes) : Prop :=
  isHeld (cut LF c).2 = false ∧
    match cut LF c with
    | ([], q) => Plain q
    | (l :: ls, q) =>
      (p ≠ [] → isBanner l = false ∧ isBanner (p ++ l) = false) ∧
        (isBanner l = false → Plain l) ∧ (∀ k ∈ ls, isBanner k = false → WellFormed k) ∧ WellFormed q

section Filter

theorem keepLines_eq (out : List Char) {line : List Char} (hline : '\n' ∉ line) (text : List Char) :
    keepLines out line text =
      (out ++ ((cut '\n' (line ++ text)).1.filter fun l ↦ !isBootNoiseLine l).flatten,
        (cut '\n' (line ++ text)).2) := by
  induction text generalizing out line with
  | nil => simp [keepLines, cut_of_notMem hline]
  | cons c text ih =>
    by_cases hc : c = '\n'
    · subst hc
      have hl : IsLine '\n' (line ++ ['\n']) := ⟨line, hline, rfl⟩
      have htext : line ++ '\n' :: text = (line ++ ['\n']) ++ text := by simp
      rw [keepLines, if_neg (by simp), ih _ (by simp), htext, cut_line_append hl]
      by_cases hnoise : isBootNoiseLine (line ++ ['\n']) = true
      · simp [hnoise]
      · simp [hnoise]
    · have htext : line ++ c :: text = (line ++ [c]) ++ text := by simp
      rw [keepLines, if_pos hc, ih _ (by simp [hline, Ne.symm hc]), htext]

theorem ne_nil_of_incomplete {cs : List Char} (h : isIncompleteBootPrefix cs = true) : cs ≠ [] := by
  rintro rfl
  exact absurd h (by decide)

theorem isBootNoiseLine_utf8Decode (l : Bytes) : isBootNoiseLine (utf8Decode l) = isBanner l := by
  rw [isBanner, isBootNoiseLine, isBootNoiseLine, trimLeft_utf8Decode]

theorem isIncompleteBootPrefix_utf8Decode (q : Bytes) :
    isIncompleteBootPrefix (utf8Decode q) = isHeld q := by
  rw [isHeld, isIncompleteBootPrefix, isIncompleteBootPrefix, trimLeft_utf8Decode]

def keptChars (text : List Char) : List Char :=
  ((cut '\n' text).1.filter fun l ↦ !isBootNoiseLine l).flatten ++
    if isIncompleteBootPrefix (cut '\n' text).2 then [] else (cut '\n' text).2

def heldChars (text : List Char) : List Char :=
  if isIncompleteBootPrefix (cut '\n' text).2 then (cut '\n' text).2 else []

theorem stripBootNoise_eq (carry : List Char) (raw : Bytes) :
    stripBootNoise carry raw =
      (encode (keptChars (carry ++ utf8Decode raw)), heldChars (carry ++ utf8Decode raw)) := by
  simp only [stripBootNoise, keptChars, heldChars, keepLines_eq [] List.not_mem_nil, List.nil_append]
  by_cases hrest : (cut '\n' (carry ++ utf8Decode raw)).2 = []
  · simp [hrest]
  · by_cases hheld : isIncompleteBootPrefix (cut '\n' (carry ++ utf8Decode raw)).2 = true
    · simp [hrest, hheld]
    · simp [hrest, hheld]

theorem strip_open {c q : Bytes} (hcut : cut LF c = ([], q)) :
    stripBootNoise [] c =
      (encode (if isHeld q then [] else utf8Decode q), if isHeld q then utf8Decode q else []) := by
  rw [stripBootNoise_eq, List.nil_append, keptChars, heldChars, cut_utf8Decode, hcut]
  simp [isIncompleteBootPrefix_utf8Decode]

def keptLines (ls : List Bytes) : List Bytes := ls.filter fun l ↦ !isBanner l

theorem strip_lines {c l q : Bytes} {ls : List Bytes} (hcut : cut LF c = (l :: ls, q)) :
    stripBootNoise [] c =
      (((if isBanner l then [] else [encode (utf8Decode l)]) ++
          (keptLines ls).map fun k ↦ encode (decodeLossy k)).flatten ++
          encode (if isHeld q then [] else decodeLossy q),
        if isHeld q then decodeLossy q else []) := by
  have hkept : ((ls.map decodeLossy).filter fun l ↦ !isBootNoiseLine l) =
      (keptLines ls).map decodeLossy := by
    rw [List.filter_map]
    rfl
  have hheld : isIncompleteBootPrefix (decodeLossy q) = isHeld q := rfl
  rw [stripBootNoise_eq, List.nil_append, keptChars, heldChars, cut_utf8Decode, hcut]
  simp only [List.filter_cons, isBootNoiseLine_utf8Decode, hkept, encode_append, hheld]
  cases isBanner l
  · simp [encode_append, encode_flatten, Function.comp_def]
  · simp [encode_flatten, Function.comp_def]

end Filter

section Exact

theorem keptLines_lines {ls : List Bytes} (hls : ∀ l ∈ ls, IsLine LF l) :
    ∀ l ∈ keptLines ls, IsLine LF l := fun l hl ↦ hls l (List.mem_of_mem_filter hl)

theorem cut_withoutBanners (bs : Bytes) :
    cut LF (withoutBanners bs) = (keptLines (cut LF bs).1, (cut LF bs).2) :=
  cut_eq (keptLines_lines fun _ hl ↦ isLine_of_cut hl) (notMem_cut LF bs)

theorem wellFormed_rest {bs : Bytes} (h : WellFormed (withoutBanners bs)) :
    WellFormed (cut LF bs).2 := by
  obtain ⟨cs, hcs⟩ := h
  have hcut := cut_withoutBanners bs
  rw [← hcs, cut_encode] at hcut
  exact ⟨_, congrArg Prod.snd hcut⟩

theorem withoutBanners_open {bs c q : Bytes} (hcut : cut LF c = ([], q)) :
    withoutBanners (bs ++ c) = withoutBanners bs ++ q := by
  rw [withoutBanners, withoutBanners, cut_append, cut_append_nil (notMem_cut LF bs) hcut,
    List.append_nil, List.append_assoc]

theorem withoutBanners_lines {bs c l q : Bytes} {ls : List Bytes} (hcut : cut LF c = (l :: ls, q)) :
    withoutBanners (bs ++ c) =
      (keptLines (cut LF bs).1).flatten ++ ((keptLines (((cut LF bs).2 ++ l) :: ls)).flatten ++ q) := by
  rw [withoutBanners, cut_append, cut_append_cons (notMem_cut LF bs) hcut, List.filter_append,
    List.flatten_append, List.append_assoc]
  rfl

theorem isLine_utf8Decode {l : Bytes} (hl : IsLine LF l) : IsLine LF (encode (utf8Decode l)) := by
  apply isLine_encode
  have hcut : cut LF l = ([l], []) := by
    have h := cut_line_append hl []
    rwa [List.append_nil] at h
  have hmem : utf8Decode l ∈ (cut '\n' (utf8Decode l)).1 := by
    rw [cut_utf8Decode, hcut]
    exact List.mem_singleton_self _
  exact isLine_of_cut hmem

theorem map_decoded_eq_iff {ls : List Bytes} :
    ls.map (fun k ↦ encode (decodeLossy k)) = ls ↔ ∀ k ∈ ls, WellFormed k := by
  conv_lhs => rhs; rw [← List.map_id ls]
  simp only [List.map_inj_left, id_eq, wellFormed_iff]

variable {p q : Bytes}

theorem decoded_line_of_map {ls : List Bytes} (hls : ∀ l ∈ ls, IsLine LF l) :
    ∀ k ∈ ls.map (fun k ↦ encode (decodeLossy k)), IsLine LF k := by
  intro k hk
  obtain ⟨l, hl, rfl⟩ := List.mem_map.mp hk
  exact isLine_decoded (hls l hl)

theorem front_decoded_iff (hp : WellFormed p) (hp' : LF ∉ p) {ls : List Bytes}
    (hls : ∀ l ∈ ls, IsLine LF l) (hq : LF ∉ q) :
    p ++ ((ls.map fun k ↦ encode (decodeLossy k)).flatten ++ encode (decodeLossy q)) =
        ls.flatten ++ q ↔
      p = [] ∧ (∀ k ∈ ls, WellFormed k) ∧ WellFormed q := by
  constructor
  · intro h
    cases ls with
    | nil =>
      have hnil := hp.eq_nil_of_append h
      subst hnil
      exact ⟨rfl, by simp, wellFormed_iff.mpr h⟩
    | cons l ls =>
      have hmap := decoded_line_of_map fun k hk ↦ hls k (List.mem_cons_of_mem l hk)
      rw [List.map_cons, front_lines_eq_iff hp' (isLine_decoded (hls l List.mem_cons_self)) hmap hls
        (mt LF_mem_decoded.mp hq) hq, List.cons.injEq] at h
      obtain ⟨⟨hl, hrest⟩, hq⟩ := h
      have hnil := hp.eq_nil_of_append hl
      subst hnil
      refine ⟨rfl, ?_, wellFormed_iff.mpr hq⟩
      intro k hk
      rcases List.mem_cons.mp hk with rfl | hk
      · exact wellFormed_iff.mpr hl
      · exact map_decoded_eq_iff.mp hrest k hk
  · intro hgiven
    obtain ⟨rfl, hwf, hwfq⟩ := hgiven
    rw [map_decoded_eq_iff.mpr hwf, wellFormed_iff.mp hwfq]
    rfl

theorem lines_exact_iff (hp : WellFormed p) (hp' : LF ∉ p) {l : Bytes} {ls : List Bytes}
    (hl : IsLine LF l) (hls : ∀ k ∈ ls, IsLine LF k) (hq : LF ∉ q) :
    p ++ (((if isBanner l then [] else [encode (utf8Decode l)]) ++
          (keptLines ls).map fun k ↦ encode (decodeLossy k)).flatten ++ encode (decodeLossy q)) =
        (keptLines ((p ++ l) :: ls)).flatten ++ q ↔
      (p ≠ [] → isBanner l = false ∧ isBanner (p ++ l) = false) ∧
        (isBanner l = false → Plain l) ∧ (∀ k ∈ ls, isBanner k = false → WellFormed k) ∧
          WellFormed q := by
  have hq' : LF ∉ encode (decodeLossy q) := mt LF_mem_decoded.mp hq
  have hkept := keptLines_lines hls
  have hmap := decoded_line_of_map hkept
  have hall : ∀ k ∈ keptLines ((p ++ l) :: ls), IsLine LF k :=
    keptLines_lines (List.forall_mem_cons.mpr ⟨hl.append hp', hls⟩)
  have hwf : (∀ k ∈ keptLines ls, WellFormed k) ↔ ∀ k ∈ ls, isBanner k = false → WellFormed k := by
    simp [keptLines]
  have hcons : keptLines ((p ++ l) :: ls) =
      (if isBanner (p ++ l) then [] else [p ++ l]) ++ keptLines ls := by
    cases hb : isBanner (p ++ l)
    · simp [keptLines, hb]
    · simp [keptLines, hb]
  by_cases hsame : isBanner l = isBanner (p ++ l)
  · rw [hcons] at hall ⊢
    rw [← hsame] at hall ⊢
    cases hb : isBanner l with
    | true =>
      rw [if_pos rfl, if_pos rfl, List.nil_append, List.nil_append,
        front_decoded_iff hp hp' hkept hq, hwf]
      simp
    | false =>
      rw [hb, if_neg Bool.false_ne_true, List.singleton_append] at hall
      rw [if_neg Bool.false_ne_true, if_neg Bool.false_ne_true, List.singleton_append,
        List.singleton_append, front_lines_eq_iff hp' (isLine_utf8Decode hl) hmap hall hq' hq,
        List.cons.injEq, List.append_cancel_left_eq, encode_utf8Decode_iff, map_decoded_eq_iff, hwf,
        ← wellFormed_iff]
      simp [and_assoc]
  · -- one line more or one line less is painted than should be
    have hpiece : ∀ k ∈ (if isBanner l then [] else [encode (utf8Decode l)]) ++
        (keptLines ls).map fun k ↦ encode (decodeLossy k), IsLine LF k := by
      intro k hk
      rcases List.mem_append.mp hk with hk | hk
      · split at hk
        · cases hk
        · rw [List.mem_singleton.mp hk]
          exact isLine_utf8Decode hl
      · exact hmap k hk
    constructor
    · intro h
      have hlen := length_of_front hp' hpiece hall hq' hq h
      rw [hcons, List.length_append, List.length_append, List.length_map, Nat.add_right_cancel_iff]
        at hlen
      cases hb : isBanner l <;> cases hb' : isBanner (p ++ l) <;> simp [hb, hb'] at hlen hsame
    · intro hboth
      obtain ⟨hfront, -⟩ := hboth
      by_cases hnil : p = []
      · exact absurd (by rw [hnil, List.nil_append]) hsame
      · exact absurd ((hfront hnil).1.trans (hfront hnil).2.symm) hsame

end Exact

/-- The filter with the bytes it was given and those it painted. -/
structure Filtered where
  bootLineCarry : List Char := []
  taken : Bytes := []
  written : Bytes := []

def take (raw : Bytes) (s : Filtered) : Unit × Filtered :=
  ((), ⟨(stripBootNoise s.bootLineCarry raw).2, s.taken ++ raw,
    s.written ++ (stripBootNoise s.bootLineCarry raw).1⟩)

def filterAll (chunks : List Bytes) : Filtered := Run.final take chunks {}

/-- The stream without its banners has been painted, and no part of it is held back. -/
def Filtered.Exact (s : Filtered) : Prop :=
  s.bootLineCarry = [] ∧ s.written = withoutBanners s.taken

theorem wellFormed_take (raw : Bytes) (s : Filtered) (h : WellFormed s.written) :
    WellFormed (take raw s).2.written := by
  apply h.append
  rw [stripBootNoise_eq]
  exact ⟨_, rfl⟩

theorem exact_take (c : Bytes) (s : Filtered) (hwf : WellFormed s.written) (hs : s.Exact) :
    (take c s).2.Exact ↔ Fair (cut LF s.taken).2 c := by
  obtain ⟨hcarry, hwritten⟩ := hs
  have hp : WellFormed (cut LF s.taken).2 := wellFormed_rest (hwritten ▸ hwf)
  have hp' := notMem_cut LF s.taken
  simp only [Filtered.Exact, take, hcarry, hwritten, Fair]
  match hcut : cut LF c with
  | ([], q) =>
    rw [strip_open hcut, withoutBanners_open hcut, List.append_cancel_left_eq]
    cases hheld : isHeld q
    · simp [encode_utf8Decode_iff]
    · have hne : utf8Decode q ≠ [] :=
        ne_nil_of_incomplete ((isIncompleteBootPrefix_utf8Decode q).trans hheld)
      simp [hne]
  | (l :: ls, q) =>
    obtain ⟨-, hlines, hq⟩ := cut_spec LF c
    simp only [hcut] at hlines hq
    rw [strip_lines hcut, withoutBanners_lines hcut, withoutBanners, List.append_assoc]
    cases hheld : isHeld q
    · have hiff := lines_exact_iff hp hp' (hlines l List.mem_cons_self)
        (fun k hk ↦ hlines k (List.mem_cons_of_mem l hk)) hq
      simpa [keptLines] using hiff
    · have hne : decodeLossy q ≠ [] := ne_nil_of_incomplete hheld
      simp [hne]

def FairCuts (chunks : List Bytes) : Prop :=
  ∀ pre c post, chunks = pre ++ c :: post → Fair (cut LF pre.flatten).2 c

theorem taken_filterAll (chunks : List Bytes) : (filterAll chunks).taken = chunks.flatten := by
  have h : ∀ s, (Run.final take chunks s).taken = s.taken ++ chunks.flatten := by
    induction chunks with
    | nil => simp
    | cons c chunks ih =>
      intro s
      rw [Run.final_cons, ih, List.flatten_cons, ← List.append_assoc]
      rfl
  exact h {}

theorem exact_iff (chunks : List Bytes) :
    (∀ pre, pre <+: chunks → (filterAll pre).Exact) ↔ FairCuts chunks := by
  have hstart : (({} : Filtered).Exact) := ⟨rfl, rfl⟩
  refine (Run.along_iff_prefixes wellFormed_take exact_take ⟨[], rfl⟩ hstart).trans ?_
  refine Run.along_iff_splits.trans ?_
  simp only [FairCuts, ← taken_filterAll]
  exact Iff.rfl

section Passes

/-- A chunk in which the filter finds nothing to drop, to hold or to replace. -/
def Passes (c : Bytes) : Prop :=
  Plain c ∧ (∀ l ∈ (cut LF c).1, isBanner l = false) ∧ isHeld (cut LF c).2 = false

theorem keptChars_sublist (text : List Char) : (keptChars text).Sublist text := by
  have hrest : (if isIncompleteBootPrefix (cut '\n' text).2 then [] else (cut '\n' text).2).Sublist
      (cut '\n' text).2 := by
    split
    · exact List.nil_sublist _
    · exact List.Sublist.refl _
  have hlines : ((cut '\n' text).1.filter fun l ↦ !isBootNoiseLine l).flatten.Sublist
      (cut '\n' text).1.flatten := List.filter_sublist.flatten
  have h := hlines.append hrest
  rwa [cut_flatten] at h

theorem keptChars_eq_iff (text : List Char) :
    keptChars text = text ↔
      (∀ l ∈ (cut '\n' text).1, isBootNoiseLine l = false) ∧
        isIncompleteBootPrefix (cut '\n' text).2 = false := by
  obtain ⟨hflat, hlines, hrest⟩ := cut_spec '\n' text
  rw [keptChars]
  generalize cut '\n' text = r at *
  obtain ⟨lines, rest⟩ := r
  simp only at hflat hlines hrest ⊢
  have hkept : ∀ l ∈ lines.filter fun l ↦ !isBootNoiseLine l, IsLine '\n' l :=
    fun l hl ↦ hlines l (List.mem_of_mem_filter hl)
  have hrest' : '\n' ∉ (if isIncompleteBootPrefix rest then [] else rest) := by
    split
    · simp
    · exact hrest
  rw [← hflat, lines_eq_iff hkept hlines hrest' hrest, List.filter_eq_self]
  refine and_congr (by simp) ?_
  cases hheld : isIncompleteBootPrefix rest
  · simp
  · simp [Ne.symm (ne_nil_of_incomplete hheld)]

theorem strip_eq_iff (c : Bytes) : (stripBootNoise [] c).1 = c ↔ Passes c := by
  have hbanners (h : dropBom c = c) :
      keptChars (utf8Decode c) = utf8Decode c ↔
        (∀ l ∈ (cut LF c).1, isBanner l = false) ∧ isHeld (cut LF c).2 = false := by
    rw [keptChars_eq_iff, utf8Decode, h, cut_decodeLossy]
    simp [isBanner, isHeld]
  rw [stripBootNoise_eq, List.nil_append]
  constructor
  · intro h
    have hkept : keptChars (utf8Decode c) = decodeLossy c := by
      conv_rhs => rw [← h, decodeLossy_encode]
    have hbom : dropBom c = c := by
      rcases dropBom_cases c with hbom | hbom
      · exact hbom
      · -- the mark that the decoder drops is not painted either
        have hlen := (keptChars_sublist (utf8Decode c)).length_le
        rw [hkept] at hlen
        conv_lhs at hlen => rw [hbom, decodeLossy_BOM_append]
        exact absurd hlen (by simp [utf8Decode])
    refine ⟨⟨⟨_, h⟩, hbom⟩, (hbanners hbom).mp ?_⟩
    rw [hkept, utf8Decode, hbom]
  · intro hboth
    obtain ⟨hplain, hkept⟩ := hboth
    rw [(hbanners hplain.2).mpr hkept]
    exact encode_utf8Decode_iff.mpr hplain

theorem Passes.held {c : Bytes} (h : Passes c) : (stripBootNoise [] c).2 = [] := by
  have hheld : isIncompleteBootPrefix (decodeLossy (cut LF c).2) = false := h.2.2
  rw [stripBootNoise_eq, List.nil_append, heldChars, utf8Decode, h.1.2, cut_decodeLossy, hheld,
    if_neg Bool.false_ne_true]

end Passes

def Carried (carry : List Char) : Prop :=
  carry = [] ∨ isIncompleteBootPrefix carry = true ∧ '\n' ∉ carry

theorem carried_strip (carry : List Char) (raw : Bytes) :
    Carried (stripBootNoise carry raw).2 := by
  rw [stripBootNoise_eq, heldChars]
  by_cases h : isIncompleteBootPrefix (cut '\n' (carry ++ utf8Decode raw)).2 = true
  · exact Or.inr ⟨by simp [h], by simpa [h] using notMem_cut _ _⟩
  · exact Or.inl (by simp [h])

theorem Carried.strip_nil {carry : List Char} (h : Carried carry) :
    stripBootNoise carry [] = ([], carry) := by
  have hdec : utf8Decode [] = [] := rfl
  rw [stripBootNoise_eq, hdec, List.append_nil]
  rcases h with rfl | ⟨hheld, hnl⟩
  · rfl
  · simp [keptChars, heldChars, cut_of_notMem hnl, hheld, encode]

/-- The flush never has anything to paint. -/
theorem Carried.flush {carry : List Char} (h : Carried carry) : flushBootCarry carry = ([], carry) := by
  rcases h with rfl | ⟨hheld, -⟩
  · rfl
  · rw [flushBootCarry, if_neg (ne_nil_of_incomplete hheld), hheld, Bool.or_true, if_pos rfl]

end MachineNotebook.Session.BootFilter
