import MachineNotebook.Session.Segments

namespace MachineNotebook.Session.LastOutput

open MachineNotebook.Lib MachineNotebook.Lib.Utf8 MachineNotebook.Lib.Lines Run
open Dart.Text BootFilter Loop Segments

section Filter

/-- A chunk, cut at its line feeds, that the filter handles as the stream's lines ask, when the line
it goes on in has `p` painted and `carry` held back: the line that it completes is dropped exactly
if it is a banner, and then nothing of it has been painted, and every byte that is kept is read and
written as it was. -/
def FairAfter (p : Bytes) (carry : List Char) : List Bytes × Bytes → Prop
  | ([], q) => Plain q
  | (l :: ls, q) =>
    let dropped := isBootNoiseLine (carry ++ utf8Decode l)
    dropped = isBanner (p ++ (encode carry ++ l)) ∧ (p ≠ [] → dropped = false) ∧
      (dropped = false → Plain l) ∧ (∀ k ∈ ls, isBanner k = false → WellFormed k) ∧ WellFormed q

instance (bs : Bytes) : Decidable (Plain bs) := inferInstanceAs (Decidable (_ ∧ _))

instance (p : Bytes) (carry : List Char) : ∀ r, Decidable (FairAfter p carry r)
  | ([], q) => inferInstanceAs (Decidable (Plain q))
  | (_ :: _, _) => inferInstanceAs (Decidable (_ ∧ (_ → _) ∧ (_ → _) ∧ (∀ _ ∈ _, _ → _) ∧ _))

def holdsAfter (carry : List Char) (c : Bytes) : Bool :=
  isIncompleteBootPrefix (cut '\n' (carry ++ utf8Decode c)).2

variable {base : Bytes} {carry : List Char} {c l q : Bytes} {ls : List Bytes}

theorem strip_fair_open (hcarry : '\n' ∉ carry) (hcut : cut LF c = ([], q)) (hq : Plain q) :
    ∃ base', base ++ encode carry ++ c = base' ++ encode (stripBootNoise carry c).2 ∧
      withoutBanners base ++ (stripBootNoise carry c).1 = withoutBanners base' := by
  obtain ⟨hflat, -, hrest⟩ := cut_spec LF c
  rw [hcut] at hflat hrest
  obtain rfl : q = c := hflat
  have hread : encode (utf8Decode q) = q := encode_utf8Decode_iff.mpr hq
  have htext : cut '\n' (carry ++ utf8Decode q) = ([], carry ++ utf8Decode q) := by
    refine cut_append_nil hcarry ?_
    rw [cut_utf8Decode, hcut]
  have hopen : cut LF (encode carry ++ q) = ([], encode carry ++ q) :=
    cut_append_nil (mt LF_mem_encode.mp hcarry) hcut
  rw [stripBootNoise_eq, keptChars, heldChars, htext]
  cases isIncompleteBootPrefix (carry ++ utf8Decode q) with
  | true => exact ⟨base, by simp [encode_append, hread], by simp⟩
  | false =>
    refine ⟨base ++ (encode carry ++ q), by simp, ?_⟩
    rw [withoutBanners_open hopen]
    simp [encode_append, hread]

theorem strip_fair_lines (hcarry : '\n' ∉ carry) (hcut : cut LF c = (l :: ls, q))
    (hfair : FairAfter (cut LF base).2 carry (cut LF c)) :
    ∃ base', base ++ encode carry ++ c = base' ++ encode (stripBootNoise carry c).2 ∧
      withoutBanners base ++ (stripBootNoise carry c).1 = withoutBanners base' := by
  obtain ⟨hflat, hlines, hrest⟩ := cut_spec LF c
  simp only [hcut] at hflat hlines hrest
  rw [hcut] at hfair
  obtain ⟨hbanner, hpainted, hplain, hkept, hq⟩ := hfair
  have hread : encode (decodeLossy q) = q := wellFormed_iff.mp hq
  have htext : cut '\n' (carry ++ utf8Decode c) =
      ((carry ++ utf8Decode l) :: ls.map decodeLossy, decodeLossy q) := by
    refine cut_append_cons hcarry ?_
    rw [cut_utf8Decode, hcut]
  have hls : encode ((ls.map decodeLossy).filter fun l ↦ !isBootNoiseLine l).flatten =
      (keptLines ls).flatten := by
    have hwf : ∀ k ∈ keptLines ls, WellFormed k := by
      intro k hk
      obtain ⟨hk, hbanner⟩ := List.mem_filter.mp hk
      exact hkept k hk (by simpa using hbanner)
    have hfilter : ((ls.map decodeLossy).filter fun l ↦ !isBootNoiseLine l) =
        (keptLines ls).map decodeLossy := by
      rw [List.filter_map]
      rfl
    rw [hfilter, encode_flatten, List.map_map]
    exact congrArg List.flatten (map_decoded_eq_iff.mpr hwf)
  -- the line that the chunk completes, with what was painted of it before
  have hline : (cut LF base).2 ++ encode
        ([carry ++ utf8Decode l].filter fun l ↦ !isBootNoiseLine l).flatten =
      (keptLines [(cut LF base).2 ++ (encode carry ++ l)]).flatten := by
    cases hdropped : isBootNoiseLine (carry ++ utf8Decode l) with
    | true =>
      rw [hdropped] at hbanner hpainted
      have hnone : (cut LF base).2 = [] := by
        by_contra hne
        cases hpainted hne
      rw [hnone, List.nil_append] at hbanner
      simp [keptLines, hnone, hdropped, ← hbanner]
    | false =>
      rw [hdropped] at hbanner hplain
      have hreadl : encode (utf8Decode l) = l := encode_utf8Decode_iff.mpr (hplain rfl)
      simp [keptLines, hdropped, ← hbanner, encode_append, hreadl]
  have hstep (r : Bytes) (hr : LF ∉ r) :
      withoutBanners base ++ (encode ([carry ++ utf8Decode l].filter fun l ↦
          !isBootNoiseLine l).flatten ++ ((keptLines ls).flatten ++ r)) =
        withoutBanners (base ++ (((encode carry ++ l) :: ls).flatten ++ r)) := by
    have hlines : ∀ k ∈ (encode carry ++ l) :: ls, IsLine LF k :=
      List.forall_mem_cons.mpr ⟨(hlines l List.mem_cons_self).append (mt LF_mem_encode.mp hcarry),
        fun k hk ↦ hlines k (List.mem_cons_of_mem l hk)⟩
    have hcons (k : Bytes) : keptLines (k :: ls) = keptLines [k] ++ keptLines ls :=
      List.filter_append [k] ls
    rw [withoutBanners_lines (cut_eq hlines hr), withoutBanners, List.append_assoc,
      ← List.append_assoc (cut LF base).2, hline, hcons, List.flatten_append, List.append_assoc]
    rfl
  have hsplit : ((carry ++ utf8Decode l) :: ls.map decodeLossy) =
      [carry ++ utf8Decode l] ++ ls.map decodeLossy := rfl
  rw [stripBootNoise_eq, keptChars, heldChars, htext]
  simp only [hsplit, List.filter_append, List.flatten_append, encode_append, hls, List.append_assoc]
  cases isIncompleteBootPrefix (decodeLossy q) with
  | true =>
    refine ⟨base ++ (((encode carry ++ l) :: ls).flatten ++ []), ?_, hstep [] List.not_mem_nil⟩
    simp [← hflat, hread]
  | false =>
    refine ⟨base ++ (((encode carry ++ l) :: ls).flatten ++ q), ?_, ?_⟩
    · simp [← hflat]
    · simp only [Bool.false_eq_true, if_false, hread]
      exact hstep q hrest

/-- What is painted of a fair chunk is what the stream's lines ask, up to the text held back. -/
theorem strip_fair (hcarry : '\n' ∉ carry) (hfair : FairAfter (cut LF base).2 carry (cut LF c)) :
    ∃ base', base ++ encode carry ++ c = base' ++ encode (stripBootNoise carry c).2 ∧
      withoutBanners base ++ (stripBootNoise carry c).1 = withoutBanners base' := by
  match hcut : cut LF c with
  | ([], q) =>
    rw [hcut] at hfair
    exact strip_fair_open hcarry hcut hfair
  | (l :: ls, q) => exact strip_fair_lines hcarry hcut hfair

end Filter

variable {T : Type} {lib : GhosttyTerm T} {s s₁ s' : LiveSession T}

/-- Once the exit of the guest has stopped the loop and no tick is in flight, all that the guest wrote
has been taken, and what the boot filter is not there to drop was given to the terminal. -/
def LastShown (s : LiveSession T) : Prop :=
  s.loop = false → s.ticks = [] →
    s.output = [] ∧ s.bootLineCarry = [] ∧ s.painted.flatten = withoutBanners s.guestWrote

def Undisturbed : LoopOp → Prop
  | .resume _ r => r.ok = true
  | .disposeAsync => False
  | .dispose => False
  | _ => True

def getsReady (s : LiveSession T) : Bool :=
  !s.shellReady && (s.atPrompt || decide (100 ≤ s.readyTicks + 1))

/-- A tick is given output that the filter handles as it should. After the exit the output is all
there is, and text is held back only where another tick will come before the shell gets ready. -/
def TakesFairly : LoopOp → LiveSession T → Prop
  | .resume i _, s =>
    s.ticks[i]? = some .takeOutput →
      (s.loop = false → s.output.length ≤ capacity) ∧
        FairAfter (cut LF s.painted.flatten).2 s.bootLineCarry (cut LF (s.output.take capacity)) ∧
        (holdsAfter s.bootLineCarry (s.output.take capacity) = true →
          s.loop = true ∧ getsReady s = false)
  | _, _ => True

instance (op : LoopOp) : Decidable (Undisturbed op) := by
  cases op with
  | resume i r => exact inferInstanceAs (Decidable (r.ok = true))
  | disposeAsync => exact isFalse id
  | dispose => exact isFalse id
  | _ => exact isTrue trivial

instance (op : LoopOp) (s : LiveSession T) : Decidable (TakesFairly op s) := by
  cases op with
  | resume i r => exact inferInstanceAs (Decidable (_ → (_ → _) ∧ _ ∧ (_ → _)))
  | _ => exact isTrue trivial

/-- The calls that a tick awaits after it has taken its output. -/
def isLate : TickAwait → Bool
  | .ptyReply => true
  | .clipboard _ => true
  | .syncImages => true
  | _ => false

/-- What the guest wrote is what has been shown, what is held back and what waits in the VM, and
after the exit the tick that saw it takes what there is. -/
structure Flowing (s : LiveSession T) : Prop where
  isOpen : s.closed = false
  carried : Carried s.bootLineCarry
  stream : ∃ base, s.guestWrote = base ++ encode s.bootLineCarry ++ s.output ∧
    s.painted.flatten = withoutBanners base
  last : s.loop = false → s.ticks = [.status] ∨ s.ticks = [.takeOutput] ∨
    s.output = [] ∧ s.bootLineCarry = [] ∧ ∀ call ∈ s.ticks, isLate call = true

theorem Flowing.lastShown (hs : Flowing s) : LastShown s := by
  intro hloop hidle
  obtain ⟨base, hwrote, hpainted⟩ := hs.stream
  rcases hs.last hloop with h | h | ⟨houtput, hcarry, -⟩
  · rw [hidle] at h
    cases h
  · rw [hidle] at h
    cases h
  · refine ⟨houtput, hcarry, ?_⟩
    rw [hpainted, hwrote, hcarry, houtput]
    simp

theorem flowing_handled (h : Handled s s') (hs : Flowing s) : Flowing s' where
  isOpen := h.closed.trans hs.isOpen
  carried := h.bootLineCarry ▸ hs.carried
  stream := by
    rw [h.guestWrote, h.bootLineCarry, h.output, h.painted]
    exact hs.stream
  last := by
    rw [h.loop, h.ticks, h.output, h.bootLineCarry]
    exact hs.last

theorem flowing_tail (h : Tail lib s s') (hs : Flowing s) (hnone : s.ticks = []) : Flowing s' := by
  have hlast (hloop : s.loop = false) : s.output = [] ∧ s.bootLineCarry = [] := by
    rcases hs.last hloop with hlast | hlast | ⟨houtput, hcarry, -⟩
    · rw [hnone] at hlast
      cases hlast
    · rw [hnone] at hlast
      cases hlast
    · exact ⟨houtput, hcarry⟩
  have hawaits {call : TickAwait} (hlate : isLate call = true) :
      ∀ call' ∈ s.ticks ++ [call], isLate call' = true := by
    intro call' hmem
    rw [hnone, List.nil_append, List.mem_singleton] at hmem
    rw [hmem, hlate]
  cases h with
  | ends _ => exact ⟨hs.isOpen, hs.carried, hs.stream, hs.last⟩
  | replies _ =>
    refine ⟨hs.isOpen, hs.carried, hs.stream, fun hloop ↦ Or.inr (Or.inr ?_)⟩
    exact ⟨(hlast hloop).1, (hlast hloop).2, hawaits rfl⟩
  | copies _ =>
    refine ⟨hs.isOpen, hs.carried, hs.stream, fun hloop ↦ Or.inr (Or.inr ?_)⟩
    exact ⟨(hlast hloop).1, (hlast hloop).2, hawaits rfl⟩
  | shows _ =>
    refine ⟨hs.isOpen, hs.carried, hs.stream, fun hloop ↦ Or.inr (Or.inr ?_)⟩
    exact ⟨(hlast hloop).1, (hlast hloop).2, hawaits rfl⟩

structure Painted (s s' : LiveSession T) (data : Bytes) (carry : List Char) : Prop where
  closed : s'.closed = s.closed
  loop : s'.loop = s.loop
  ticks : s'.ticks = s.ticks
  output : s'.output = s.output
  guestWrote : s'.guestWrote = s.guestWrote
  bootLineCarry : s'.bootLineCarry = carry
  painted : s'.painted.flatten = s.painted.flatten ++ data

theorem painted_paint (lib : GhosttyTerm T) (data : Bytes) (s : LiveSession T) :
    Painted s (paint lib data s) data s.bootLineCarry := by
  unfold paint
  split
  · next h => exact ⟨rfl, rfl, rfl, rfl, rfl, rfl, by rw [h, List.append_nil]⟩
  · exact ⟨rfl, rfl, rfl, rfl, rfl, rfl, by simp⟩

theorem painted_showOutput (hc : Carried s.bootLineCarry) (out : Bytes) :
    Painted s (showOutput lib out s) (stripBootNoise s.bootLineCarry out).1
      (stripBootNoise s.bootLineCarry out).2 := by
  unfold showOutput
  split
  · next h =>
    rw [h, hc.strip_nil]
    exact ⟨rfl, rfl, rfl, rfl, rfl, rfl, (List.append_nil _).symm⟩
  · have h := painted_paint lib (stripBootNoise s.bootLineCarry out).1
      { s with bootLineCarry := (stripBootNoise s.bootLineCarry out).2 }
    exact ⟨h.closed, h.loop, h.ticks, h.output, h.guestWrote, h.bootLineCarry, h.painted⟩

theorem painted_getReady (hc : Carried s.bootLineCarry) :
    Painted s (getReady lib s) [] (if getsReady s then [] else s.bootLineCarry) := by
  unfold getReady
  dsimp only
  split
  · next h =>
    have hready : getsReady s = true := h
    rw [hready, if_pos rfl, hc.flush]
    have h := painted_paint lib []
      { s with readyTicks := s.readyTicks + 1, bootLineCarry := [], shellReady := true }
    exact ⟨h.closed, h.loop, h.ticks, h.output, h.guestWrote, h.bootLineCarry, h.painted⟩
  · next h =>
    have hready : ¬getsReady s = true := h
    rw [if_neg hready]
    exact ⟨rfl, rfl, rfl, rfl, rfl, rfl, (List.append_nil _).symm⟩

theorem getsReady_showOutput (out : Bytes) (s : LiveSession T) :
    getsReady (showOutput lib out s) = getsReady s := by
  unfold showOutput
  split
  · rfl
  · dsimp only
    unfold paint
    split
    · rfl
    · rfl

theorem not_held {carry : List Char} {c : Bytes} (h : holdsAfter carry c = false) :
    (stripBootNoise carry c).2 = [] := by
  have hheld : isIncompleteBootPrefix (cut '\n' (carry ++ utf8Decode c)).2 = false := h
  rw [stripBootNoise_eq, heldChars, hheld]
  rfl

theorem painted_shown (lib : GhosttyTerm T) (hc : Carried s.bootLineCarry) (out : Bytes)
    (hheld : holdsAfter s.bootLineCarry out = true → getsReady s = false) :
    Painted s (getReady lib (showOutput lib out s)) (stripBootNoise s.bootLineCarry out).1
      (stripBootNoise s.bootLineCarry out).2 := by
  have hshown : Painted s (showOutput lib out s) _ _ := painted_showOutput hc out
  have hcarried : Carried (showOutput lib out s).bootLineCarry := by
    rw [hshown.bootLineCarry]
    exact carried_strip s.bootLineCarry out
  have hready : Painted _ (getReady lib (showOutput lib out s)) _ _ := painted_getReady hcarried
  refine ⟨hready.closed.trans hshown.closed, hready.loop.trans hshown.loop,
    hready.ticks.trans hshown.ticks, hready.output.trans hshown.output,
    hready.guestWrote.trans hshown.guestWrote, ?_, ?_⟩
  · rw [hready.bootLineCarry, getsReady_showOutput, hshown.bootLineCarry]
    split
    · next hgets =>
      refine (not_held (Bool.eq_false_iff.mpr fun hholds ↦ ?_)).symm
      rw [hheld hholds] at hgets
      cases hgets
    · rfl
  · rw [hready.painted, hshown.painted, List.append_nil]

theorem flowing_takeOutput {r : Reply} (hs : Flowing s) (hok : r.ok = true)
    (hlast : s.loop = false → s.output.length ≤ capacity)
    (hfair : FairAfter (cut LF s.painted.flatten).2 s.bootLineCarry (cut LF (s.output.take capacity)))
    (hheld : holdsAfter s.bootLineCarry (s.output.take capacity) = true →
      s.loop = true ∧ getsReady s = false) :
    Flowing (resumeTick lib r .takeOutput { s with ticks := [] }) := by
  obtain ⟨base, hwrote, hpainted⟩ := hs.stream
  have hrun : resumeTick lib r .takeOutput { s with ticks := [] } =
      replyPty lib r (getReady lib (showOutput lib (s.output.take capacity)
        { s with ticks := [], output := s.output.drop capacity })) := by
    simp [resumeTick, hok, hs.isOpen]
  have hshown := painted_shown lib (s := { s with ticks := [], output := s.output.drop capacity })
    hs.carried (s.output.take capacity) fun hholds ↦ (hheld hholds).2
  rw [hrun]
  refine flowing_tail (tail_replyPty _) ⟨?_, ?_, ?_, fun hloop ↦ ?_⟩ hshown.ticks
  · exact hshown.closed.trans hs.isOpen
  · rw [hshown.bootLineCarry]
    exact carried_strip _ _
  · have hline : (cut LF s.painted.flatten).2 = (cut LF base).2 := by
      rw [hpainted, cut_withoutBanners]
    rw [hline] at hfair
    have hcarry : '\n' ∉ s.bootLineCarry := by
      rcases hs.carried with hnil | ⟨-, hnl⟩
      · rw [hnil]
        exact List.not_mem_nil
      · exact hnl
    obtain ⟨base', htaken, hbase'⟩ := strip_fair hcarry hfair
    refine ⟨base', ?_, ?_⟩
    · rw [hshown.guestWrote, hshown.bootLineCarry, hshown.output, ← htaken, hwrote]
      simp
    · rw [hshown.painted, ← hbase', hpainted]
  · have hloop : s.loop = false := hshown.loop.symm.trans hloop
    have hdrained : s.output.drop capacity = [] := List.drop_eq_nil_of_le (hlast hloop)
    refine Or.inr (Or.inr ⟨hshown.output.trans hdrained, ?_, ?_⟩)
    · rw [hshown.bootLineCarry]
      refine not_held (Bool.eq_false_iff.mpr fun hholds ↦ ?_)
      rw [(hheld hholds).1] at hloop
      cases hloop
    · intro call hcall
      rw [hshown.ticks] at hcall
      cases hcall

theorem Flowing.loop (hs : Flowing s) {call : TickAwait} (honly : s.ticks = [call])
    (hlate : isLate call = false) (hstatus : call ≠ .status) (htake : call ≠ .takeOutput) :
    s.loop = true := by
  by_contra hloop
  rcases hs.last (Bool.eq_false_iff.mpr hloop) with h | h | ⟨-, -, h⟩
  · exact hstatus (List.cons.inj (honly.symm.trans h)).1
  · exact htake (List.cons.inj (honly.symm.trans h)).1
  · have hcall := h call (honly ▸ List.mem_singleton_self call)
    rw [hlate] at hcall
    cases hcall

theorem flowing_tickOnce (hs : Flowing s) (hloop : s.loop = true) : Flowing (tickOnce s) := by
  have hlast {P : Prop} : s.loop = false → P := fun h ↦ by
    rw [hloop] at h
    cases h
  rcases tickOnce_cases s with hsame | ⟨-, -, ⟨-, h⟩ | ⟨-, h⟩⟩
  · rw [hsame]
    exact hs
  · rw [h]
    exact ⟨hs.isOpen, hs.carried, hs.stream, hlast⟩
  · rw [h]
    exact ⟨hs.isOpen, hs.carried, hs.stream, hlast⟩

theorem flowing_resume {i : ℕ} {r : Reply} (hs : Flowing s) (hone : OneTick s) (hok : r.ok = true)
    (hfair : TakesFairly (.resume i r) s) : Flowing (runOp lib (.resume i r) s) := by
  rcases hone.resume_cases i r with ⟨-, h⟩ | ⟨call, hcall, honly, -, h⟩
  · rw [h]
    exact hs
  · rw [h]
    have hlate (hl : isLate call = true) : Flowing { s with ticks := [] } := by
      refine ⟨hs.isOpen, hs.carried, hs.stream, fun hloop ↦ Or.inr (Or.inr ?_)⟩
      rcases hs.last hloop with hlast | hlast | ⟨houtput, hcarry, -⟩
      · obtain ⟨rfl, -⟩ := List.cons.inj (honly.symm.trans hlast)
        cases hl
      · obtain ⟨rfl, -⟩ := List.cons.inj (honly.symm.trans hlast)
        cases hl
      · exact ⟨houtput, hcarry, nofun⟩
    cases call with
    | sendInput pending =>
      have hloop : s.loop = true := hs.loop honly rfl nofun nofun
      simp only [resumeTick, hok, hs.isOpen, Bool.not_true, Bool.false_eq_true, if_false]
      refine ⟨rfl, hs.carried, hs.stream, fun hstopped ↦ ?_⟩
      exact absurd (hloop.symm.trans hstopped) Bool.noConfusion
    | tickN =>
      obtain ⟨base, hwrote, hpainted⟩ := hs.stream
      have hstream : s.guestWrote ++ r.wrote =
          base ++ encode s.bootLineCarry ++ (s.output ++ r.wrote) := by
        rw [hwrote, List.append_assoc _ s.output]
      simp only [resumeTick, hok, hs.isOpen, Bool.not_true, Bool.false_eq_true, if_false]
      split
      · exact ⟨rfl, hs.carried, ⟨base, hstream, hpainted⟩, fun _ ↦ Or.inl rfl⟩
      · exact ⟨rfl, hs.carried, ⟨base, hstream, hpainted⟩, fun _ ↦ Or.inl rfl⟩
    | status =>
      simp only [resumeTick, hok, hs.isOpen, Bool.false_eq_true, if_true, if_false]
      exact ⟨rfl, hs.carried, hs.stream, fun _ ↦ Or.inr (Or.inl rfl)⟩
    | takeOutput =>
      obtain ⟨hall, hfair, hheld⟩ := hfair hcall
      exact flowing_takeOutput hs hok hall hfair hheld
    | ptyReply => exact flowing_tail (tail_ptyReply _) (hlate rfl) rfl
    | clipboard rest => exact flowing_tail (tail_clipboard rest _) (hlate rfl) rfl
    | syncImages =>
      have hs' := hlate rfl
      exact ⟨hs'.isOpen, hs'.carried, hs'.stream, hs'.last⟩

theorem flowing_step (op : LoopOp) (s : LiveSession T) (hop : Undisturbed op)
    (hfair : TakesFairly op s) (hone : OneTick s) (hs : Flowing s) : Flowing (runOp lib op s) := by
  cases op with
  | timer =>
    cases hloop : s.loop with
    | false =>
      have hidle : runOp lib .timer s = s := by simp [runOp, hloop]
      rw [hidle]
      exact hs
    | true =>
      have htick : runOp lib .timer s = tickOnce s := by simp [runOp, hloop]
      rw [htick]
      exact flowing_tickOnce hs hloop
  | resume i r => exact flowing_resume hs hone hop hfair
  | disposeAsync => exact absurd hop id
  | dispose => exact absurd hop id
  | _ => exact flowing_handled (handled_handler rfl s) hs

theorem flowing_opened (term : T) : Flowing (opened lib term) :=
  ⟨rfl, Or.inl rfl, ⟨[], rfl, rfl⟩, nofun⟩

def wholeTick (wrote : Bytes) (state : Tick.AgentOsTickState) : List LoopOp :=
  [.timer, .resume 0 { wrote, state }, .resume 0 {}, .resume 0 {}, .resume 0 {}]

end MachineNotebook.Session.LastOutput
