import MachineNotebook.Host.Buf
import MachineNotebook.Host.Error

namespace MachineNotebook.Dart.Bindings

open MachineNotebook.Lib.Utf8 Host.Buf Host.Error

def kAosOk : Int32 := 0

/-- What a freshly allocated region happens to hold. -/
abbrev Fresh := ℕ → UInt8

def allocAosBuf (capacity : Int64) (fresh : Fresh) : AosBuf where
  ptr := if 0 < capacity then some ((List.range capacity.toUInt64.toNat).map fresh) else none
  cap := capacity.toUInt64.toNat
  len := 0
  region := by
    intro bytes hbytes
    split at hbytes
    · simp [← Option.some.inj hbytes]
    · simp at hbytes

def copyFromAosBuf (p : AosBuf) : Bytes :=
  match p.ptr with
  | none => []
  | some bytes => bytes.take (if p.len > p.cap then p.cap else p.len)

/-- A Dart `String`: its UTF-16 code units, which need not be well formed. -/
abbrev DartString := List UInt16

def allocCString (s : DartString) : Bytes := s.map (fun unit ↦ (unit &&& 0xff).toUInt8) ++ [0]

def allocBytes (data : Bytes) : Option Bytes := if data = [] then none else some data

def cStringToDart (p : Option Bytes) : DartString :=
  match p with
  | none => []
  | some p => (p.takeWhile (· ≠ 0)).map UInt8.toUInt16

/-- The copy that `AgentOsVm.exec` makes itself: a typed list keeps the low byte of what
is stored in it. -/
def execCString (cmd : DartString) : Bytes := (cmd ++ [0]).map UInt16.toUInt8

def errorMessage (lastError : String) : DartString := cStringToDart (some (aosLastError lastError))

end MachineNotebook.Dart.Bindings
