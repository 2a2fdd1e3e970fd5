import MachineNotebook.Host.Error
import MachineNotebook.Host.JsonText
import MachineNotebook.Host.VmTable

namespace MachineNotebook.Host.Files

open MachineNotebook.Lib.Utf8 Error VmTable
open JsonText (DirEntry)

structure FileStat where
  size : UInt64
  isDir : Bool
  isSymlink : Bool
  nlink : UInt32
  mode : UInt32

structure AosStat where
  size : UInt64
  isDir : Int32
  isSymlink : Int32
  nlink : UInt32
  mode : UInt32

def statOf (st : FileStat) : AosStat where
  size := st.size
  isDir := if st.isDir then 1 else 0
  isSymlink := if st.isSymlink then 1 else 0
  nlink := st.nlink
  mode := st.mode

structure FileKernel (H : Type) where
  readFile : String → Vm H → Except String Bytes × Vm H
  writeFile : String → Bytes → Vm H → Except String Unit × Vm H
  readdir : String → Vm H → Except String (List DirEntry) × Vm H
  stat : String → Vm H → Except String FileStat × Vm H
  readlink : String → Vm H → Except String String × Vm H
  mkdir : String → Vm H → Except String Unit × Vm H
  unlink : String → Vm H → Except String Unit × Vm H
  unmount : String → Vm H → Except String Unit × Vm H
  chmod : String → UInt32 → Vm H → Except String Unit × Vm H
  symlink : String → String → Vm H → Except String Unit × Vm H
  mount : String → Bool → Vm H → Except String Unit × Vm H

variable {H R : Type}

def withStr (what : String) (p : Option Bytes) (use : String → World H → Except String R × World H)
    (w : World H) : Except String R × World H :=
  match cstrToStr p with
  | none => (.error (what ++ " not utf8"), w)
  | some s => use s w

/-- A call whose handle is not to be 0, nor any of its pointers null. -/
def withArgs (call : String) (vm : UInt64) (null : Bool)
    (use : World H → Except String R × World H) (w : World H) : Except String R × World H :=
  if vm = 0 ∨ null then (.error (call ++ ": invalid args"), w) else use w

variable (k : FileKernel H) (vm : UInt64) (path : Option Bytes)

def readFileRequest (null : Bool) : World H → Except String Bytes × World H :=
  withArgs "aos_vm_read_file" vm (path.isNone || null) <| withStr "path" path fun path w ↦
    w.withHostMut vm "read_file" (k.readFile path)

def writeFileRequest (data : Option Bytes) (len : ℕ) : World H → Except String Unit × World H :=
  withArgs "aos_vm_write_file" vm path.isNone <| withStr "path" path fun path w ↦
    w.withHostMut vm "write_file" (k.writeFile path ((data.getD []).take len))

def readdirRequest (null : Bool) : World H → Except String (List DirEntry) × World H :=
  withArgs "aos_vm_readdir" vm (path.isNone || null) <| withStr "path" path fun path w ↦
    w.withHostMut vm "readdir" (k.readdir path)

def statRequest (null : Bool) : World H → Except String FileStat × World H :=
  withArgs "aos_vm_stat" vm (path.isNone || null) <| withStr "path" path fun path w ↦
    w.withHostMut vm "stat" (k.stat path)

def readlinkRequest (null : Bool) : World H → Except String String × World H :=
  withArgs "aos_vm_readlink" vm (path.isNone || null) <| withStr "path" path fun path w ↦
    w.withHostMut vm "readlink" (k.readlink path)

def pathVoid (name method : String) (f : String → Vm H → Except String Unit × Vm H) :
    World H → Except String Unit × World H :=
  withArgs name vm path.isNone <| withStr "path" path fun path w ↦
    w.withHostMut vm method (f path)

def mkdirRequest : World H → Except String Unit × World H :=
  pathVoid vm path "aos_vm_mkdir" "mkdir" k.mkdir

def unlinkRequest : World H → Except String Unit × World H :=
  pathVoid vm path "aos_vm_unlink" "unlink" k.unlink

def unmountRequest : World H → Except String Unit × World H :=
  pathVoid vm path "aos_vm_unmount" "unmount" k.unmount

def chmodRequest (mode : UInt32) : World H → Except String Unit × World H :=
  withArgs "aos_vm_chmod" vm path.isNone <| withStr "path" path fun path w ↦
    w.withHostMut vm "chmod" (k.chmod path mode)

def symlinkRequest (target linkPath : Option Bytes) : World H → Except String Unit × World H :=
  withArgs "aos_vm_symlink" vm (target.isNone || linkPath.isNone) <|
    withStr "target" target fun target ↦ withStr "link" linkPath fun linkPath w ↦
      w.withHostMut vm "symlink" (k.symlink target linkPath)

def mountRequest (readOnly : Int32) : World H → Except String Unit × World H :=
  withArgs "aos_vm_mount" vm path.isNone <| withStr "path" path fun path w ↦
    w.withHostMut vm "mount" (k.mount path (readOnly != 0))

end MachineNotebook.Host.Files
