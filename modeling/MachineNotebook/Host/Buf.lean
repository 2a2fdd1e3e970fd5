import MachineNotebook.Lib.Utf8

namespace MachineNotebook.Host.Buf

open MachineNotebook.Lib.Utf8

/-- `aos_buf_t`: a caller's region of `cap` bytes, or a null pointer. -/
structure AosBuf where
  ptr : Option Bytes
  cap : ℕ
  len : ℕ
  region : ∀ bytes ∈ ptr, bytes.length = cap

namespace AosBuf

def room (b : AosBuf) : ℕ := if b.ptr = none then 0 else b.cap

def contents (b : AosBuf) : Bytes := (b.ptr.getD []).take b.len

def write (b : AosBuf) (src : Bytes) (h : src.length ≤ b.cap) : AosBuf where
  ptr := b.ptr.map fun bytes ↦ src ++ bytes.drop src.length
  cap := b.cap
  len := b.len
  region := by
    intro bytes hbytes
    obtain ⟨old, hold, rfl⟩ := Option.map_eq_some_iff.mp hbytes
    have hlen := b.region old hold
    simp only [List.length_append, List.length_drop]
    omega

end AosBuf

def fillBuf (out : Option AosBuf) (src : Bytes) : Int32 × Option AosBuf :=
  match out with
  | none => (-1, none)
  | some b =>
    let b := { b with len := src.length }
    if src = [] then (0, some b)
    else if h : b.cap < src.length ∨ b.ptr = none then (-1, some b)
    else (0, some (b.write src (Nat.le_of_not_lt fun hlt ↦ h (Or.inl hlt))))

section EnvBlob

def splitNul (blob : Bytes) : Option (Bytes × Bytes) :=
  (blob.findIdx? (· == 0)).map fun i ↦ (blob.take i, blob.drop (i + 1))

theorem splitNul_length {blob key rest : Bytes} (h : splitNul blob = some (key, rest)) :
    key.length + rest.length + 1 = blob.length := by
  obtain ⟨i, hi, hsplit⟩ := Option.map_eq_some_iff.mp h
  obtain ⟨hlt, -⟩ := List.findIdx?_eq_some_iff_getElem.mp hi
  obtain ⟨rfl, rfl⟩ := Prod.mk.inj hsplit
  rw [List.length_take, List.length_drop]
  omega

def parseEnvBlob (blob : Bytes) : Except String (List (String × String)) :=
  if blob = [] then .ok []
  else
    match _ : splitNul blob with
    | none => .error "env blob: missing key NUL"
    | some (key, rest) =>
      match fromUtf8 key with
      | none => .error "env blob: key not utf8"
      | some key =>
        if rest = [] then .error "env blob: missing value"
        else
          match _ : splitNul rest with
          | none => .error "env blob: missing value NUL"
          | some (val, rest) =>
            match fromUtf8 val with
            | none => .error "env blob: value not utf8"
            | some val => (parseEnvBlob rest).map ((key, val) :: ·)
termination_by blob.length
decreasing_by
  have hkey := splitNul_length ‹splitNul blob = _›
  have hval := splitNul_length ‹splitNul _ = some (val, _)›
  omega

end EnvBlob

theorem fillBuf_overflow {b : AosBuf} {src : Bytes} (h : b.room < src.length) :
    fillBuf (some b) src = (-1, some { b with len := src.length }) := by
  have hne : src ≠ [] := by
    intro heq
    subst heq
    exact absurd h (Nat.not_lt_zero _)
  have hcap : b.cap < src.length ∨ b.ptr = none := by
    by_cases hptr : b.ptr = none
    · exact Or.inr hptr
    · exact Or.inl (by simpa [AosBuf.room, hptr] using h)
  simp only [fillBuf, if_neg hne, dif_pos hcap]

theorem fillBuf_fits {b : AosBuf} {src : Bytes} (h : src.length ≤ b.room) :
    ∃ b', fillBuf (some b) src = (0, some b') ∧ b'.len = src.length ∧ b'.contents = src := by
  by_cases hne : src = []
  · subst src
    exact ⟨{ b with len := 0 }, rfl, rfl, by simp [AosBuf.contents]⟩
  · have hpos : 0 < src.length := List.length_pos_of_ne_nil hne
    have hptr : b.ptr ≠ none := by
      intro hptr
      simp only [AosBuf.room, hptr, if_true] at h
      omega
    have hroom : b.room = b.cap := if_neg hptr
    have hcap : ¬(b.cap < src.length ∨ b.ptr = none) := by
      intro hfull
      cases hfull with
      | inl hlt => omega
      | inr hnull => exact hptr hnull
    obtain ⟨bytes, hbytes⟩ := Option.ne_none_iff_exists'.mp hptr
    refine ⟨_, by simp only [fillBuf, if_neg hne, dif_neg hcap]; rfl, rfl, ?_⟩
    simp [AosBuf.contents, AosBuf.write, hbytes]

/-- After an overflow the region is as it was, and all of it is read. -/
theorem contents_overflow {b : AosBuf} {n : ℕ} (h : b.room < n) :
    { b with len := n : AosBuf }.contents = b.ptr.getD [] := by
  by_cases hptr : b.ptr = none
  · simp [AosBuf.contents, hptr]
  · obtain ⟨bytes, hbytes⟩ := Option.ne_none_iff_exists'.mp hptr
    have hlen := b.region bytes hbytes
    simp only [AosBuf.room, if_neg hptr] at h
    simp only [AosBuf.contents, hbytes, Option.getD_some]
    exact List.take_of_length_le (by omega)

end MachineNotebook.Host.Buf
