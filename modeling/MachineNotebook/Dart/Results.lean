import MachineNotebook.Dart.Vm

namespace MachineNotebook.Dart.Results

open MachineNotebook.Lib MachineNotebook.Lib.Utf8 Bindings Vm
open Host.Buf Host.VmTable Host.KernelHost Host.Exec

/-- What a caller gets that passed `capacity` and trusts only the length. -/
def received (capacity : Int64) (src : Bytes) (fresh : Fresh) : Bytes :=
  readBuf (fillBuf (some (allocAosBuf capacity fresh)) src).2

/-- Of what the guest made, if it made anything, a call returns a prefix, all of it if there
is room, and never what the region held before. -/
structure Clean {F : Type} (capacity : Int64) (actual : Option Bytes) (returned : F → Option Bytes) :
    Prop where
  pfx : ∀ f bytes, returned f = some bytes → ∃ a ∈ actual, bytes <+: a
  whole : ∀ f bytes, returned f = some bytes → ∀ a ∈ actual, (a.length : ℤ) ≤ capacity.toInt →
    bytes = a
  stable : ∀ f f' bytes bytes', returned f = some bytes → returned f' = some bytes' →
    bytes = bytes'

def Fits (capacity : Int64) (actual : Option Bytes) : Prop :=
  ∀ a ∈ actual, (a.length : ℤ) ≤ capacity.toInt ∨ capacity ≤ 0

section Received

variable {capacity : Int64} {src : Bytes} {fresh : Fresh}

theorem toNat_toUInt64 (h : 0 < capacity) : (capacity.toUInt64.toNat : ℤ) = capacity.toInt := by
  have hpos : 0 < capacity.toBitVec.toInt := Int64.lt_iff_toInt_lt.mp h
  have hcond := BitVec.toInt_eq_toNat_cond capacity.toBitVec
  have hlt := capacity.toBitVec.isLt
  change (capacity.toBitVec.toNat : ℤ) = capacity.toBitVec.toInt
  split at hcond <;> omega

/-- A region is as long as its capacity says, so the copy is what `len` says. -/
theorem copyFromAosBuf_eq (b : AosBuf) : copyFromAosBuf b = b.contents := by
  by_cases hptr : b.ptr = none
  · simp [copyFromAosBuf, AosBuf.contents, hptr]
  · obtain ⟨bytes, hbytes⟩ := Option.ne_none_iff_exists'.mp hptr
    have hlen := b.region bytes hbytes
    simp only [copyFromAosBuf, AosBuf.contents, hbytes, Option.getD_some]
    split
    · rw [List.take_of_length_le (by omega), List.take_of_length_le (by omega)]
    · rfl

theorem room_allocAosBuf (fresh : Fresh) (h : 0 < capacity) :
    ((allocAosBuf capacity fresh).room : ℤ) = capacity.toInt := by
  simp only [AosBuf.room, allocAosBuf, if_pos h, reduceCtorEq, if_false]
  exact toNat_toUInt64 h

theorem received_fits (h : (src.length : ℤ) ≤ capacity.toInt) (hpos : 0 < capacity) :
    received capacity src fresh = src := by
  have hroom := room_allocAosBuf fresh hpos
  have hfits : src.length ≤ (allocAosBuf capacity fresh).room := by omega
  obtain ⟨b, hb, -, hcontents⟩ := fillBuf_fits hfits
  simpa [received, hb, readBuf, copyFromAosBuf_eq] using hcontents

theorem received_null (h : capacity ≤ 0) : received capacity src fresh = [] := by
  have hptr : (allocAosBuf capacity fresh).ptr = none := if_neg (Int64.not_lt.mpr h)
  by_cases hsrc : src = []
  · simp [received, fillBuf, hsrc, readBuf, copyFromAosBuf, hptr]
  · simp [received, fillBuf, hsrc, hptr, readBuf, copyFromAosBuf]

/-- A result that does not fit is not copied at all, and the whole region is taken for it. -/
theorem received_overflow (h : capacity.toInt < src.length) (hpos : 0 < capacity) :
    received capacity src fresh = (List.range capacity.toUInt64.toNat).map fresh := by
  have hroom := room_allocAosBuf fresh hpos
  have hlong : (allocAosBuf capacity fresh).room < src.length := by omega
  have hptr : (allocAosBuf capacity fresh).ptr =
      some ((List.range capacity.toUInt64.toNat).map fresh) := if_pos hpos
  rw [received, fillBuf_overflow hlong, readBuf, Option.map_some, Option.getD_some,
    copyFromAosBuf_eq, contents_overflow hlong, hptr, Option.getD_some]

theorem received_eq (h : (src.length : ℤ) ≤ capacity.toInt ∨ capacity ≤ 0) :
    received capacity src fresh = if capacity ≤ 0 then [] else src := by
  split
  · exact received_null ‹_›
  · rename_i hpos
    exact received_fits (h.resolve_right hpos) (Int64.not_le.mp hpos)

end Received

/-- `part` picks the region among what the call has allocated. -/
theorem clean_iff {F : Type} {capacity : Int64} {actual : Option Bytes}
    {returned : F → Option Bytes} (part : F → Fresh) (hpart : Function.Surjective part)
    (h : ∀ f, returned f = actual.map fun a ↦ received capacity a (part f)) :
    Clean capacity actual returned ↔ Fits capacity actual := by
  constructor
  · intro hclean a ha
    by_contra hlong
    obtain ⟨hlong, hpos⟩ := not_or.mp hlong
    have hpos := Int64.not_le.mp hpos
    obtain ⟨f, hf⟩ := hpart fun _ ↦ 0
    obtain ⟨f', hf'⟩ := hpart fun _ ↦ 1
    have hreturned (f : F) : returned f = some (received capacity a (part f)) := by
      rw [h, ha, Option.map_some]
    have hstable := hclean.stable f f' _ _ (hreturned f) (hreturned f')
    rw [received_overflow (by omega) hpos, received_overflow (by omega) hpos, hf, hf'] at hstable
    have hroom := toNat_toUInt64 hpos
    have hcap : 0 < capacity.toInt := Int64.lt_iff_toInt_lt.mp hpos
    obtain ⟨n, hn⟩ := Nat.exists_eq_succ_of_ne_zero (n := capacity.toUInt64.toNat) (by omega)
    simp [hn, List.replicate_succ] at hstable
  · intro hfits
    have hreturned (f : F) (bytes : Bytes) (hf : returned f = some bytes) :
        ∃ a ∈ actual, bytes = if capacity ≤ 0 then [] else a := by
      rw [h] at hf
      obtain ⟨a, ha, rfl⟩ := Option.map_eq_some_iff.mp hf
      exact ⟨a, ha, received_eq (hfits a ha)⟩
    refine ⟨?_, ?_, ?_⟩
    · intro f bytes hf
      obtain ⟨a, ha, rfl⟩ := hreturned f bytes hf
      refine ⟨a, ha, ?_⟩
      split
      · exact List.nil_prefix
      · exact List.prefix_rfl
    · intro f bytes hf a ha hlen
      obtain ⟨a', ha', rfl⟩ := hreturned f bytes hf
      obtain rfl : a = a' := Option.mem_unique ha ha'
      split
      · rename_i hnull
        have hcap : capacity.toInt ≤ 0 := Int64.le_iff_toInt_le.mp hnull
        exact (List.length_eq_zero_iff.mp (by omega)).symm
      · rfl
    · intro f f' bytes bytes' hf hf'
      obtain ⟨a, ha, rfl⟩ := hreturned f bytes hf
      obtain ⟨a', ha', rfl⟩ := hreturned f' bytes' hf'
      rw [Option.mem_unique ha ha']

section Calls

variable {H : Type} (k : Kernel H) (vm : AgentOsVm)

def answered {R : Type} (request : Except String R × World H) : Option R :=
  if vm.closed then none else request.1.toOption

def execExGuest (cmd : DartString) (opts : Option AgentOsExecOptions) (w : World H) :
    Option ExecResult :=
  answered vm
    (execExRequest k vm.handle (some (allocCString cmd)) (opts.map packExecOpts) w.clearError)

def runGuest (program : DartString) (argv : List DartString) (opts : Option AgentOsExecOptions)
    (w : World H) : Option ExecResult :=
  answered vm
    (runRequest k vm.handle (some (allocCString program)) (some (packArgv argv)) argv.length
      (opts.map packExecOpts) w.clearError)

def execPollGuest (job : Int64) (w : World H) : Option ExecResult :=
  (answered vm (execPollRequest k vm.handle job w.clearError)).join

def svcCallGuest (service : DartString) (request : Bytes) (w : World H) : Option ServiceReply :=
  answered vm
    (svcCallRequest k vm.handle (some (allocCString service)) (allocBytes request) request.length
      w.clearError)

def OutputClean {F : Type} (stdoutCap stderrCap : Int64) (guest : Option ExecResult)
    (returned : F → Option (Bytes × Bytes)) : Prop :=
  Clean stdoutCap (guest.map ExecResult.stdout) (fun f ↦ (returned f).map Prod.fst) ∧
    Clean stderrCap (guest.map ExecResult.stderr) (fun f ↦ (returned f).map Prod.snd)

def OutputFits (stdoutCap stderrCap : Int64) (guest : Option ExecResult) : Prop :=
  Fits stdoutCap (guest.map ExecResult.stdout) ∧ Fits stderrCap (guest.map ExecResult.stderr)

def outputOf (r : AgentOsExecResult) : Bytes × Bytes := (r.stdout, r.stderr)

def pollOutputOf (r : AgentOsExecPollResult) : Option (Bytes × Bytes) :=
  r.stdout.bind fun stdout ↦ r.stderr.map fun stderr ↦ (stdout, stderr)

variable {k vm}

theorem toOption_outcome {R S T : Type} {op : String} {read : S → T} {put : R → S → S} {slots : S}
    (request : World H → Except String R × World H) (w : World H) :
    (ensureOpen vm (fun w ↦ check op read (finish put slots (request w.clearError))) w).1.toOption =
      (answered vm (request w.clearError)).map fun r ↦ read (put r slots) := by
  cases hclosed : vm.closed with
  | true => simp [ensureOpen, answered, hclosed, Except.toOption]
  | false =>
    simp only [ensureOpen, answered, hclosed, Bool.false_eq_true, if_false]
    cases request w.clearError with
    | mk r w => cases r <;> rfl

theorem outputClean_iff {stdoutCap stderrCap : Int64} {guest : Option ExecResult}
    {returned : FreshExec → Option (Bytes × Bytes)}
    (h : ∀ f, returned f = guest.map fun a ↦
      (received stdoutCap a.stdout f.stdoutB, received stderrCap a.stderr f.stderrB)) :
    OutputClean stdoutCap stderrCap guest returned ↔ OutputFits stdoutCap stderrCap guest := by
  have hout : Function.Surjective FreshExec.stdoutB := fun fresh ↦ ⟨⟨0, 0, fresh, fresh⟩, rfl⟩
  have herr : Function.Surjective FreshExec.stderrB := fun fresh ↦ ⟨⟨0, 0, fresh, fresh⟩, rfl⟩
  refine and_congr (clean_iff FreshExec.stdoutB hout fun f ↦ ?_) (clean_iff FreshExec.stderrB herr fun f ↦ ?_)
  · rw [h, Option.map_map, Option.map_map]
    rfl
  · rw [h, Option.map_map, Option.map_map]
    rfl

theorem execEx_clean_iff (cmd : DartString) (opts : Option AgentOsExecOptions)
    (stdoutCap stderrCap : Int64) (w : World H) :
    OutputClean stdoutCap stderrCap (execExGuest k vm cmd opts w)
        (fun f ↦ (execEx k vm cmd opts stdoutCap stderrCap f w).1.toOption.map outputOf) ↔
      OutputFits stdoutCap stderrCap (execExGuest k vm cmd opts w) := by
  apply outputClean_iff
  intro f
  have hcall : (execEx k vm cmd opts stdoutCap stderrCap f w).1.toOption = _ :=
    toOption_outcome (execExRequest k vm.handle (some (allocCString cmd)) (opts.map packExecOpts)) w
  rw [hcall, Option.map_map]
  rfl

theorem run_clean_iff (program : DartString) (argv : List DartString)
    (opts : Option AgentOsExecOptions) (stdoutCap stderrCap : Int64) (w : World H) :
    OutputClean stdoutCap stderrCap (runGuest k vm program argv opts w)
        (fun f ↦ (run k vm program argv opts stdoutCap stderrCap f w).1.toOption.map outputOf) ↔
      OutputFits stdoutCap stderrCap (runGuest k vm program argv opts w) := by
  apply outputClean_iff
  intro f
  have hcall : (run k vm program argv opts stdoutCap stderrCap f w).1.toOption = _ :=
    toOption_outcome (runRequest k vm.handle (some (allocCString program)) (some (packArgv argv))
      argv.length (opts.map packExecOpts)) w
  rw [hcall, Option.map_map]
  rfl

theorem execPoll_clean_iff (job : Int64) (stdoutCap stderrCap : Int64) (w : World H) :
    OutputClean stdoutCap stderrCap (execPollGuest k vm job w)
        (fun f ↦ (execPoll k vm job stdoutCap stderrCap f w).1.toOption.bind pollOutputOf) ↔
      OutputFits stdoutCap stderrCap (execPollGuest k vm job w) := by
  apply outputClean_iff
  intro f
  have hcall : (execPoll k vm job stdoutCap stderrCap f w).1.toOption = _ :=
    toOption_outcome (execPollRequest k vm.handle job) w
  rw [hcall, execPollGuest]
  cases answered vm (execPollRequest k vm.handle job w.clearError) with
  | none => rfl
  | some result => cases result <;> rfl

theorem svcCall_clean_iff (service : DartString) (request : Bytes) (bodyCap : Int64)
    (w : World H) :
    Clean bodyCap ((svcCallGuest k vm service request w).map ServiceReply.body)
        (fun f ↦ (svcCall k vm service request bodyCap f w).1.toOption.map AgentOsSvcResult.body) ↔
      Fits bodyCap ((svcCallGuest k vm service request w).map ServiceReply.body) := by
  apply clean_iff FreshSvc.outBody (fun fresh ↦ ⟨⟨0, fresh⟩, rfl⟩)
  intro f
  have hcall : (svcCall k vm service request bodyCap f w).1.toOption = _ :=
    toOption_outcome (svcCallRequest k vm.handle (some (allocCString service)) (allocBytes request)
      request.length) w
  rw [hcall, Option.map_map, Option.map_map]
  rfl

variable (k vm)

/-- A result handed to Dart is made of the guest's bytes, whatever the regions held, exactly
when it fits the capacity, or when there is no region at all. -/
theorem results_clean_iff (w : World H) :
    (∀ cmd opts stdoutCap stderrCap,
      OutputClean stdoutCap stderrCap (execExGuest k vm cmd opts w)
          (fun f ↦ (execEx k vm cmd opts stdoutCap stderrCap f w).1.toOption.map outputOf) ↔
        OutputFits stdoutCap stderrCap (execExGuest k vm cmd opts w)) ∧
      (∀ program argv opts stdoutCap stderrCap,
        OutputClean stdoutCap stderrCap (runGuest k vm program argv opts w)
            (fun f ↦ (run k vm program argv opts stdoutCap stderrCap f w).1.toOption.map outputOf) ↔
          OutputFits stdoutCap stderrCap (runGuest k vm program argv opts w)) ∧
      (∀ job stdoutCap stderrCap,
        OutputClean stdoutCap stderrCap (execPollGuest k vm job w)
            (fun f ↦ (execPoll k vm job stdoutCap stderrCap f w).1.toOption.bind pollOutputOf) ↔
          OutputFits stdoutCap stderrCap (execPollGuest k vm job w)) ∧
      ∀ service request bodyCap,
        Clean bodyCap ((svcCallGuest k vm service request w).map ServiceReply.body)
            (fun f ↦
              (svcCall k vm service request bodyCap f w).1.toOption.map AgentOsSvcResult.body) ↔
          Fits bodyCap ((svcCallGuest k vm service request w).map ServiceReply.body) := by
  refine ⟨?_, ?_, ?_, ?_⟩
  · exact fun cmd opts stdoutCap stderrCap ↦ execEx_clean_iff cmd opts stdoutCap stderrCap w
  · exact fun program argv opts stdoutCap stderrCap ↦
      run_clean_iff program argv opts stdoutCap stderrCap w
  · exact fun job stdoutCap stderrCap ↦ execPoll_clean_iff job stdoutCap stderrCap w
  · exact fun service request bodyCap ↦ svcCall_clean_iff service request bodyCap w

end Calls

def hiKernel : Kernel Unit where
  exec _ _ _ entry := (.ok ⟨[104, 105], [], 0⟩, entry)
  run _ _ _ _ entry := (.ok ⟨[104, 105], [], 0⟩, entry)
  execPoll _ entry := (.ok (some ⟨[104, 105], [], 0⟩), entry)
  serviceCall _ _ entry := (.ok ⟨0, [104, 105]⟩, entry)
  takeCommandPerf host := (none, host)

def hiWorld : World Unit where
  vms vm := if vm = 1 then some ⟨(), .empty, .new⟩ else none
  lastError := ""

/-- With one byte of room for "hi", `ls` returns the byte that malloc left. -/
theorem execEx_returns_stale_byte :
    execExGuest hiKernel ⟨1, false⟩ [108, 115] none hiWorld = some ⟨[104, 105], [], 0⟩ ∧
      (execEx hiKernel ⟨1, false⟩ [108, 115] none 1 1 ⟨0, 0, fun _ ↦ 255, fun _ ↦ 255⟩
        hiWorld).1 = .ok ⟨0, [255], []⟩ ∧
      ¬OutputClean 1 1 (execExGuest hiKernel ⟨1, false⟩ [108, 115] none hiWorld)
        (fun f ↦ (execEx hiKernel ⟨1, false⟩ [108, 115] none 1 1 f hiWorld).1.toOption.map
          outputOf) := by
  refine ⟨by decide, by rfl, ?_⟩
  rw [execEx_clean_iff]
  intro h
  exact absurd (h.1 [104, 105] (by decide)) (by decide)

end MachineNotebook.Dart.Results
