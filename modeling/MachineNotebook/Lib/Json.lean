import Mathlib.Data.Rat.Floor
import Mathlib.Tactic.Linarith

namespace MachineNotebook.Lib.Json

inductive Value
  | null
  | bool (b : Bool)
  | num (q : ℚ)
  | str (s : List Char)
  | arr (items : List Value)
  | obj (members : List (List Char × Value))

section Reader

def isWs (c : Char) : Bool := c == ' ' || c == '\t' || c == '\n' || c == '\r'

def skipWs (input : List Char) : List Char := input.dropWhile isWs

def next (c : Char) : List Char → Option (List Char)
  | [] => none
  | d :: rest => if d = c then some rest else none

def token (c : Char) (input : List Char) : Option (List Char) := next c (skipWs input)

def word (w input : List Char) : Option (List Char) :=
  if w.isPrefixOf input then some (input.drop w.length) else none

def hexDigit (c : Char) : Option ℕ :=
  if '0' ≤ c ∧ c ≤ '9' then some (c.toNat - '0'.toNat)
  else if 'a' ≤ c ∧ c ≤ 'f' then some (c.toNat - 'a'.toNat + 10)
  else if 'A' ≤ c ∧ c ≤ 'F' then some (c.toNat - 'A'.toNat + 10)
  else none

def hex4 (a b c d : Char) : Option ℕ := do
  let a ← hexDigit a
  let b ← hexDigit b
  let c ← hexDigit c
  let d ← hexDigit d
  return ((a * 16 + b) * 16 + c) * 16 + d

def simpleEscape (e : Char) : Option Char :=
  if e = '"' then some '"'
  else if e = '\\' then some '\\'
  else if e = '/' then some '/'
  else if e = 'b' then some '\x08'
  else if e = 'f' then some '\x0c'
  else if e = 'n' then some '\n'
  else if e = 'r' then some '\r'
  else if e = 't' then some '\t'
  else none

def push (c : Char) (r : List Char × List Char) : List Char × List Char := (c :: r.1, r.2)

def chars : List Char → Option (List Char × List Char)
  | [] => none
  | c :: rest =>
    if c = '"' then some ([], rest)
    else if c = '\\' then
      match rest with
      | [] => none
      | e :: rest =>
        if e = 'u' then
          match rest with
          | a :: b :: c :: d :: rest =>
            match hex4 a b c d with
            | none => none
            | some n =>
              if n < 0xD800 ∨ 0xDFFF < n then (chars rest).map (push (Char.ofNat n))
              else
                match rest with
                | s :: u :: a :: b :: c :: d :: rest =>
                  match hex4 a b c d with
                  | none => none
                  | some m =>
                    if s = '\\' ∧ u = 'u' ∧ n < 0xDC00 ∧ 0xDC00 ≤ m ∧ m ≤ 0xDFFF then
                      (chars rest).map
                        (push (Char.ofNat (0x10000 + (n - 0xD800) * 0x400 + (m - 0xDC00))))
                    else none
                | _ => none
          | _ => none
        else
          match simpleEscape e with
          | none => none
          | some c => (chars rest).map (push c)
    else if c < ' ' then none
    else (chars rest).map (push c)

def digits (input : List Char) : List Char × List Char :=
  (input.takeWhile Char.isDigit, input.dropWhile Char.isDigit)

def fraction (input : List Char) : Option (List Char × List Char) :=
  match next '.' input with
  | none => some ([], input)
  | some rest => if (digits rest).1 = [] then none else some (digits rest)

def exponent (input : List Char) : Option (ℤ × List Char) :=
  match (next 'e' input).or (next 'E' input) with
  | none => some (0, input)
  | some rest =>
    let (sign, rest) : ℤ × List Char :=
      match next '-' rest with
      | some rest => (-1, rest)
      | none => (1, (next '+' rest).getD rest)
    if (digits rest).1 = [] then none
    else some (sign * Nat.ofDigitChars 10 (digits rest).1 0, (digits rest).2)

def number (input : List Char) : Option (ℚ × List Char) := do
  let (sign, input) : ℚ × List Char :=
    match next '-' input with
    | some rest => (-1, rest)
    | none => (1, input)
  let (int, rest) := digits input
  if int = [] ∨ int.head? = some '0' ∧ int.length ≠ 1 then none
  else
    let (frac, rest) ← fraction rest
    let (exp, rest) ← exponent rest
    return (sign * Nat.ofDigitChars 10 (int ++ frac) 0 * 10 ^ (exp - frac.length), rest)

mutual

def value : ℕ → List Char → Option (Value × List Char)
  | 0, _ => none
  | fuel + 1, input =>
    match skipWs input with
    | [] => none
    | c :: rest =>
      if c = '"' then (chars rest).map fun r ↦ (.str r.1, r.2)
      else if c = '[' then
        match token ']' rest with
        | some rest => some (.arr [], rest)
        | none => (items fuel rest).map fun r ↦ (.arr r.1, r.2)
      else if c = '\x7b' then
        match token '\x7d' rest with
        | some rest => some (.obj [], rest)
        | none => (members fuel rest).map fun r ↦ (.obj r.1, r.2)
      else if c = 't' then (word ['r', 'u', 'e'] rest).map fun rest ↦ (.bool true, rest)
      else if c = 'f' then (word ['a', 'l', 's', 'e'] rest).map fun rest ↦ (.bool false, rest)
      else if c = 'n' then (word ['u', 'l', 'l'] rest).map fun rest ↦ (.null, rest)
      else (number (c :: rest)).map fun r ↦ (.num r.1, r.2)

def items : ℕ → List Char → Option (List Value × List Char)
  | 0, _ => none
  | fuel + 1, input => do
    let (item, rest) ← value fuel input
    match token ',' rest with
    | some rest =>
      let (others, rest) ← items fuel rest
      return (item :: others, rest)
    | none =>
      let rest ← token ']' rest
      return ([item], rest)

def members : ℕ → List Char → Option (List (List Char × Value) × List Char)
  | 0, _ => none
  | fuel + 1, input => do
    let rest ← token '"' input
    let (key, rest) ← chars rest
    let rest ← token ':' rest
    let (member, rest) ← value fuel rest
    match token ',' rest with
    | some rest =>
      let (others, rest) ← members fuel rest
      return ((key, member) :: others, rest)
    | none =>
      let rest ← token '\x7d' rest
      return ([(key, member)], rest)

end

/-- What a text denotes, where it is JSON as RFC 8259 has it. Each value and each item takes at
least one character, so the fuel is enough for any text. -/
def decode (text : List Char) : Option Value := do
  let (v, rest) ← value (2 * text.length + 1) text
  if skipWs rest = [] then some v else none

end Reader

section Strings

variable {c : Char} {rest : List Char}

def Literal (c : Char) : Prop := c ≠ '"' ∧ c ≠ '\\' ∧ ' ' ≤ c

instance : DecidablePred Literal := fun _ ↦ inferInstanceAs (Decidable (_ ∧ _ ∧ _))

def Literals (s : List Char) : Prop := ∀ c ∈ s, Literal c

instance : DecidablePred Literals := List.decidableBAll Literal

theorem chars_quote (rest : List Char) : chars ('"' :: rest) = some ([], rest) := by
  rw [chars.eq_def]
  rfl

theorem chars_literal (hc : Literal c) : chars (c :: rest) = (chars rest).map (push c) := by
  obtain ⟨hquote, hslash, hspace⟩ := hc
  rw [chars.eq_def]
  simp only [if_neg hquote, if_neg hslash, if_neg (Char.not_lt.mpr hspace)]

theorem chars_escape {e : Char} (he : e ≠ 'u') (hc : simpleEscape e = some c) :
    chars ('\\' :: e :: rest) = (chars rest).map (push c) := by
  have hquote : '\\' ≠ '"' := by decide
  rw [chars.eq_def]
  simp only [if_neg hquote, if_true, if_neg he, hc]

theorem chars_not_escape {e : Char} (he : e ≠ 'u') (hc : simpleEscape e = none) :
    chars ('\\' :: e :: rest) = none := by
  have hquote : '\\' ≠ '"' := by decide
  rw [chars.eq_def]
  simp only [if_neg hquote, if_true, if_neg he, hc]

theorem chars_braces : chars ('\\' :: 'u' :: '\x7b' :: rest) = none := by
  have hquote : '\\' ≠ '"' := by decide
  have hbrace (a b c : Char) : hex4 '\x7b' a b c = none := rfl
  rw [chars.eq_def]
  simp only [if_neg hquote, if_true]
  split
  · rename_i heq
    obtain ⟨rfl, -⟩ := List.cons.inj heq
    simp only [hbrace]
  · rfl

theorem chars_literals {s : List Char} (hs : Literals s) (rest : List Char) :
    chars (s ++ '"' :: rest) = some (s, rest) := by
  induction s with
  | nil => exact chars_quote rest
  | cons c s ih =>
    obtain ⟨hc, hs⟩ := List.forall_mem_cons.mp hs
    rw [List.cons_append, chars_literal hc, ih hs]
    rfl

end Strings

section Numbers

def Ends (rest : List Char) : Prop := ∀ c ∈ rest.head?, c = ',' ∨ c = ']' ∨ c = '\x7d'

variable {rest : List Char}

theorem Ends.next_eq_none {c : Char} (hrest : Ends rest) (hc : c ≠ ',' ∧ c ≠ ']' ∧ c ≠ '\x7d') :
    next c rest = none := by
  cases rest with
  | nil => rfl
  | cons d rest =>
    have hd : d ≠ c := by
      intro he
      subst he
      have hends := hrest d rfl
      tauto
    rw [next, if_neg hd]

theorem Ends.digits_append (hrest : Ends rest) {ds : List Char} (hds : ∀ c ∈ ds, c.isDigit) :
    digits (ds ++ rest) = (ds, rest) := by
  have hstop : rest.takeWhile Char.isDigit = [] ∧ rest.dropWhile Char.isDigit = rest := by
    cases rest with
    | nil => exact ⟨rfl, rfl⟩
    | cons c rest =>
      have hc : c.isDigit = false := by
        rcases hrest c rfl with rfl | rfl | rfl <;> rfl
      simp [hc]
  rw [digits, List.takeWhile_append_of_pos hds, List.dropWhile_append_of_pos hds, hstop.1, hstop.2,
    List.append_nil]

theorem eq_zero_of_head_toDigits {n : ℕ} (hn : (Nat.toDigits 10 n).head? = some '0') : n = 0 := by
  induction n using Nat.strong_induction_on with
  | h n ih =>
    by_cases hlt : n < 10
    · rw [Nat.toDigits_of_lt_base hlt] at hn
      exact Nat.digitChar_eq_zero.mp (Option.some_inj.mp hn)
    · have hdiv : Nat.toDigits 10 n = Nat.toDigits 10 (n / 10) ++ [(n % 10).digitChar] :=
        Nat.toDigits_of_base_le (by decide) (by omega)
      have hhead : (Nat.toDigits 10 (n / 10)).head? = some '0' := by
        rwa [hdiv, List.head?_append_of_ne_nil _ Nat.toDigits_ne_nil] at hn
      have hzero := ih (n / 10) (by omega) hhead
      omega

theorem isDigit_toDigits {n : ℕ} : ∀ c ∈ Nat.toDigits 10 n, c.isDigit :=
  fun _ hc ↦ Nat.isDigit_of_mem_toDigits (by decide) (by decide) hc

theorem number_toDigits (n : ℕ) (hrest : Ends rest) :
    number (Nat.toDigits 10 n ++ rest) = some ((n : ℚ), rest) := by
  have hsign : next '-' (Nat.toDigits 10 n ++ rest) = none := by
    obtain ⟨c, ds, hds⟩ := List.exists_cons_of_ne_nil (Nat.toDigits_ne_nil (n := n) (b := 10))
    have hc : c.isDigit := isDigit_toDigits c (by rw [hds]; exact List.mem_cons_self)
    have hne : c ≠ '-' := by
      intro he
      subst he
      cases hc
    rw [hds, List.cons_append, next, if_neg hne]
  have hint : ¬(Nat.toDigits 10 n = [] ∨
      (Nat.toDigits 10 n).head? = some '0' ∧ (Nat.toDigits 10 n).length ≠ 1) := by
    intro h
    cases h with
    | inl h => exact Nat.toDigits_ne_nil h
    | inr h =>
      rw [eq_zero_of_head_toDigits h.1] at h
      exact h.2 rfl
  have hfraction : fraction rest = some ([], rest) := by
    rw [fraction, hrest.next_eq_none (by decide)]
  have hexponent : exponent rest = some (0, rest) := by
    rw [exponent, hrest.next_eq_none (by decide), hrest.next_eq_none (by decide)]
    rfl
  rw [number, hsign]
  simp only [hrest.digits_append isDigit_toDigits, if_neg hint, hfraction]
  simp [hexponent, Nat.ofDigitChars_ten_toDigits]

end Numbers

section Gives

def commas : List (List Char) → List Char
  | [] => []
  | [text] => text
  | text :: texts => text ++ ',' :: commas texts

def collect {α : Type} : List (Option α) → Option (List α)
  | [] => some []
  | o :: os => do
    let a ← o
    let others ← collect os
    return a :: others

/-- Wherever it stands, the text is read as `o`, given fuel for `n` steps; with `none`, it makes the
text around it none of JSON. -/
structure Gives (n : ℕ) (text : List Char) (o : Option Value) : Prop where
  starts : ∃ c rest, text = c :: rest ∧ isWs c = false ∧ c ≠ ']'
  value : ∀ fuel rest, n ≤ fuel → Ends rest →
    value fuel (text ++ rest) = o.map fun v ↦ (v, rest)

variable {n : ℕ} {c : Char} {rest : List Char}

theorem token_of_next (hc : isWs c = false) : token c (c :: rest) = some rest := by
  simp [token, skipWs, hc, next]

theorem token_of_ne {d : Char} (hc : isWs c = false) (hd : c ≠ d) : token d (c :: rest) = none := by
  simp [token, skipWs, hc, next, hd]

theorem Gives.mono {m : ℕ} {text : List Char} {o : Option Value} (hg : Gives n text o)
    (hm : n ≤ m) : Gives m text o :=
  ⟨hg.starts, fun fuel rest hfuel ↦ hg.value fuel rest (hm.trans hfuel)⟩

theorem ends_comma (rest : List Char) : Ends (',' :: rest) := by
  intro c hc
  cases hc
  exact .inl rfl

theorem ends_bracket (rest : List Char) : Ends (']' :: rest) := by
  intro c hc
  cases hc
  exact .inr (.inl rfl)

theorem ends_brace (rest : List Char) : Ends ('\x7d' :: rest) := by
  intro c hc
  cases hc
  exact .inr (.inr rfl)

theorem skipWs_cons (hc : isWs c = false) (rest : List Char) : skipWs (c :: rest) = c :: rest := by
  simp [skipWs, hc]

theorem gives_str {body : List Char} {o : Option (List Char)}
    (hchars : ∀ rest, chars (body ++ '"' :: rest) = o.map fun s ↦ (s, rest)) :
    Gives 1 ('"' :: body ++ ['"']) (o.map .str) := by
  refine ⟨⟨'"', body ++ ['"'], rfl, rfl, by decide⟩, ?_⟩
  intro fuel rest hfuel _
  obtain ⟨fuel, rfl⟩ := Nat.exists_eq_add_of_le' hfuel
  simp only [List.cons_append, List.append_assoc, List.nil_append]
  rw [value, skipWs_cons rfl]
  simp only [if_true, hchars, Option.map_map]
  rfl

theorem gives_bool (b : Bool) :
    Gives 1 (if b then ['t', 'r', 'u', 'e'] else ['f', 'a', 'l', 's', 'e']) (some (.bool b)) := by
  cases b with
  | true =>
    refine ⟨⟨'t', ['r', 'u', 'e'], rfl, rfl, by decide⟩, ?_⟩
    intro fuel rest hfuel _
    obtain ⟨fuel, rfl⟩ := Nat.exists_eq_add_of_le' hfuel
    simp [value, skipWs, isWs, word]
  | false =>
    refine ⟨⟨'f', ['a', 'l', 's', 'e'], rfl, rfl, by decide⟩, ?_⟩
    intro fuel rest hfuel _
    obtain ⟨fuel, rfl⟩ := Nat.exists_eq_add_of_le' hfuel
    simp [value, skipWs, isWs, word]

theorem gives_nat (k : ℕ) : Gives 1 (Nat.toDigits 10 k) (some (.num k)) := by
  obtain ⟨c, ds, hds⟩ := List.exists_cons_of_ne_nil (Nat.toDigits_ne_nil (n := k) (b := 10))
  have hc : c.isDigit := isDigit_toDigits c (by rw [hds]; exact List.mem_cons_self)
  have hother (d : Char) (hd : d.isDigit = false) : c ≠ d := by
    intro he
    rw [he, hd] at hc
    cases hc
  have hws : isWs c = false := by
    simp only [isWs, Bool.or_eq_false_iff, beq_eq_false_iff_ne]
    exact ⟨⟨⟨hother _ rfl, hother _ rfl⟩, hother _ rfl⟩, hother _ rfl⟩
  refine ⟨⟨c, ds, hds, hws, hother _ rfl⟩, ?_⟩
  intro fuel rest hfuel hrest
  obtain ⟨fuel, rfl⟩ := Nat.exists_eq_add_of_le' hfuel
  have hnumber := number_toDigits k hrest
  rw [hds, List.cons_append] at hnumber ⊢
  rw [value, skipWs_cons hws]
  simp only [hother '"' rfl, hother '[' rfl, hother '\x7b' rfl, hother 't' rfl, hother 'f' rfl,
    hother 'n' rfl, if_false, hnumber, Option.map_some]

theorem commas_cons_cons (text text' : List Char) (texts : List (List Char)) :
    commas (text :: text' :: texts) = text ++ ',' :: commas (text' :: texts) := rfl

theorem commas_cons (text : List Char) (texts : List (List Char)) :
    commas (text :: texts) = text ++ texts.flatMap fun t ↦ ',' :: t := by
  induction texts generalizing text with
  | nil => simp [commas]
  | cons text' texts ih => rw [commas_cons_cons, ih, List.flatMap_cons, List.cons_append]

theorem collect_none {α : Type} (os : List (Option α)) : collect (none :: os) = none := rfl

theorem collect_some {α : Type} (a : α) (os : List (Option α)) :
    collect (some a :: os) = (collect os).map (a :: ·) := by
  rw [collect]
  cases collect os <;> rfl

theorem collect_map_ite {α β : Type} {P : α → Prop} [DecidablePred P] (f : α → β) (l : List α) :
    collect (l.map fun a ↦ if P a then some (f a) else none) =
      if ∀ a ∈ l, P a then some (l.map f) else none := by
  induction l with
  | nil => simp [collect]
  | cons a l ih =>
    by_cases ha : P a
    · rw [List.map_cons, if_pos ha, collect_some, ih]
      by_cases hl : ∀ a ∈ l, P a
      · rw [if_pos hl, if_pos (List.forall_mem_cons.mpr ⟨ha, hl⟩)]
        rfl
      · rw [if_neg hl, if_neg fun h ↦ hl (List.forall_mem_cons.mp h).2]
        rfl
    · rw [List.map_cons, if_neg ha, collect_none, if_neg fun h ↦ ha (List.forall_mem_cons.mp h).1]

theorem length_le_commas {texts : List (List Char)} (hne : ∀ text ∈ texts, text ≠ []) :
    texts.length ≤ (commas texts).length := by
  induction texts with
  | nil => exact Nat.le_refl 0
  | cons text texts ih =>
    obtain ⟨htext, htexts⟩ := List.forall_mem_cons.mp hne
    have hpos := List.length_pos_of_ne_nil htext
    have hrest := ih htexts
    cases texts with
    | nil => exact hpos
    | cons text' texts =>
      simp only [commas_cons_cons, List.length_append, List.length_cons] at hrest ⊢
      omega

theorem items_last {text : List Char} {o : Option Value} (hg : Gives n text o) {fuel : ℕ}
    (hfuel : n ≤ fuel) (rest : List Char) :
    items (fuel + 1) (text ++ ']' :: rest) = o.map fun v ↦ ([v], rest) := by
  have hcomma : token ',' (']' :: rest) = none := token_of_ne rfl (by decide)
  have hbracket : token ']' (']' :: rest) = some rest := token_of_next rfl
  rw [items, hg.value fuel _ hfuel (ends_bracket rest)]
  cases o with
  | none => rfl
  | some v => simp [hcomma, hbracket]

theorem items_next {text : List Char} {o : Option Value} (hg : Gives n text o) {fuel : ℕ}
    (hfuel : n ≤ fuel) {input : List Char} :
    items (fuel + 1) (text ++ ',' :: input) =
      o.bind fun v ↦ (items fuel input).map fun r ↦ (v :: r.1, r.2) := by
  have hcomma : token ',' (',' :: input) = some input := token_of_next rfl
  rw [items, hg.value fuel _ hfuel (ends_comma input)]
  cases o with
  | none => rfl
  | some v =>
    simp only [Option.map_some, Option.bind_eq_bind, Option.bind_some, hcomma]
    cases items fuel input <;> rfl

/-- A reader of one element before a comma and of the last one before the closing character reads
them all. -/
theorem read_commas {α : Type} {read : ℕ → List Char → Option (List α × List Char)} {close : Char}
    {ps : List (List Char × Option α)} (hne : ps ≠ [])
    (hlast : ∀ p ∈ ps, ∀ fuel rest, n ≤ fuel →
      read (fuel + 1) (p.1 ++ close :: rest) = p.2.map fun a ↦ ([a], rest))
    (hnext : ∀ p ∈ ps, ∀ fuel input, n ≤ fuel →
      read (fuel + 1) (p.1 ++ ',' :: input) =
        p.2.bind fun a ↦ (read fuel input).map fun r ↦ (a :: r.1, r.2))
    {fuel : ℕ} (hfuel : n + ps.length ≤ fuel) (rest : List Char) :
    read fuel (commas (ps.map Prod.fst) ++ close :: rest) =
      (collect (ps.map Prod.snd)).map fun as ↦ (as, rest) := by
  induction ps generalizing fuel with
  | nil => exact absurd rfl hne
  | cons p ps ih =>
    obtain ⟨text, o⟩ := p
    obtain ⟨hend, hends⟩ := List.forall_mem_cons.mp hlast
    obtain ⟨hcomma, hcommas⟩ := List.forall_mem_cons.mp hnext
    rw [List.length_cons] at hfuel
    obtain ⟨fuel, rfl⟩ := Nat.exists_eq_add_of_le' (by omega : 1 ≤ fuel)
    cases ps with
    | nil =>
      have hread := hend fuel rest (by omega)
      cases o with
      | none => exact hread
      | some a => exact hread
    | cons q qs =>
      have hrest := ih (List.cons_ne_nil q qs) hends hcommas
        (by omega : n + (q :: qs).length ≤ fuel)
      have hread := hcomma fuel (commas ((q :: qs).map Prod.fst) ++ close :: rest) (by omega)
      rw [hrest] at hread
      simp only [List.map_cons] at hread ⊢
      rw [commas_cons_cons, List.append_assoc, List.cons_append, hread]
      cases o with
      | none => rfl
      | some a =>
        rw [collect_some, Option.bind_some, Option.map_map, Option.map_map]
        rfl

theorem items_commas {ps : List (List Char × Option Value)} (hne : ps ≠ [])
    (hps : ∀ p ∈ ps, Gives n p.1 p.2) {fuel : ℕ} (hfuel : n + ps.length ≤ fuel)
    (rest : List Char) :
    items fuel (commas (ps.map Prod.fst) ++ ']' :: rest) =
      (collect (ps.map Prod.snd)).map fun vs ↦ (vs, rest) := by
  apply read_commas hne _ _ hfuel
  · intro p hp fuel rest hfuel
    exact items_last (hps p hp) hfuel rest
  · intro p hp fuel input hfuel
    exact items_next (hps p hp) hfuel

theorem gives_arr {ps : List (List Char × Option Value)} (hps : ∀ p ∈ ps, Gives n p.1 p.2) :
    Gives (n + ps.length + 1) ('[' :: commas (ps.map Prod.fst) ++ [']'])
      ((collect (ps.map Prod.snd)).map .arr) := by
  refine ⟨⟨'[', _, rfl, rfl, by decide⟩, ?_⟩
  intro fuel rest hfuel _
  obtain ⟨fuel, rfl⟩ := Nat.exists_eq_add_of_le' (by omega : 1 ≤ fuel)
  simp only [List.cons_append, List.append_assoc, List.nil_append]
  rw [value, skipWs_cons rfl]
  simp only [(by decide : '[' ≠ '"'), if_false, if_true]
  cases ps with
  | nil =>
    have hbracket : token ']' (']' :: rest) = some rest := token_of_next rfl
    simp only [List.map_nil, commas, List.nil_append, hbracket]
    rfl
  | cons p ps =>
    have hbracket : token ']' (commas (((p :: ps)).map Prod.fst) ++ ']' :: rest) = none := by
      obtain ⟨c, text, htext, hws, hc⟩ := (hps p List.mem_cons_self).starts
      cases ps with
      | nil =>
        simp only [List.map_cons, List.map_nil, commas, htext, List.cons_append]
        exact token_of_ne hws hc
      | cons q qs =>
        simp only [List.map_cons, commas_cons_cons, htext, List.cons_append]
        exact token_of_ne hws hc
    have hitems := items_commas (List.cons_ne_nil p ps) hps
      (by omega : n + (p :: ps).length ≤ fuel) rest
    simp only [hbracket, hitems, Option.map_map]
    rfl

theorem gives_arr_map {α : Type} {text : α → List Char} {P : α → Prop} [DecidablePred P]
    {f : α → Value} (hgives : ∀ a, Gives n (text a) (if P a then some (f a) else none))
    (l : List α) :
    Gives (n + l.length + 1) ('[' :: commas (l.map text) ++ [']'])
      (if ∀ a ∈ l, P a then some (.arr (l.map f)) else none) := by
  let pair : α → List Char × Option Value := fun a ↦ (text a, if P a then some (f a) else none)
  have hpairs : ∀ p ∈ l.map pair, Gives n p.1 p.2 := by
    intro p hp
    obtain ⟨a, -, rfl⟩ := List.mem_map.mp hp
    exact hgives a
  have hall := gives_arr hpairs
  have htexts : (l.map pair).map Prod.fst = l.map text := List.map_map
  have hvalues : (l.map pair).map Prod.snd = l.map fun a ↦ if P a then some (f a) else none :=
    List.map_map
  rwa [List.length_map, htexts, hvalues, collect_map_ite, apply_ite (Option.map Value.arr)] at hall

theorem length_le_commas_map {α : Type} {text : α → List Char} {o : α → Option Value}
    (hgives : ∀ a, Gives n (text a) (o a)) (l : List α) :
    l.length ≤ (commas (l.map text)).length := by
  have hne : ∀ t ∈ l.map text, t ≠ [] := by
    intro t ht
    obtain ⟨a, -, rfl⟩ := List.mem_map.mp ht
    obtain ⟨c, rest, hstarts, -⟩ := (hgives a).starts
    rw [hstarts]
    exact List.cons_ne_nil c rest
  simpa using length_le_commas hne

def memberText (key text : List Char) : List Char := '"' :: key ++ '"' :: ':' :: text

abbrev Member := List Char × List Char × Option Value

def Member.text (m : Member) : List Char := memberText m.1 m.2.1

def Member.given (m : Member) : Option (List Char × Value) := m.2.2.map fun v ↦ (m.1, v)

def Member.Gives (n : ℕ) (m : Member) : Prop := Literals m.1 ∧ Json.Gives n m.2.1 m.2.2

theorem members_text {m : Member} (hm : m.Gives n) (fuel : ℕ) (input : List Char) :
    members (fuel + 1) (m.text ++ input) =
      (value fuel (m.2.1 ++ input)).bind fun r ↦
        match token ',' r.2 with
        | some rest => (members fuel rest).map fun others ↦ ((m.1, r.1) :: others.1, others.2)
        | none => (token '\x7d' r.2).map fun rest ↦ ([(m.1, r.1)], rest) := by
  obtain ⟨key, text, o⟩ := m
  have hquote : token '"' ('"' :: (key ++ '"' :: ':' :: (text ++ input))) =
      some (key ++ '"' :: ':' :: (text ++ input)) := token_of_next rfl
  have hkey : chars (key ++ '"' :: ':' :: (text ++ input)) = some (key, ':' :: (text ++ input)) :=
    chars_literals hm.1 _
  have hcolon : token ':' (':' :: (text ++ input)) = some (text ++ input) := token_of_next rfl
  simp only [Member.text, memberText, List.cons_append, List.append_assoc]
  rw [members, hquote]
  simp only [Option.bind_eq_bind, Option.bind_some, hkey, hcolon]
  cases value fuel (text ++ input) with
  | none => rfl
  | some r =>
    simp only [Option.bind_some]
    cases token ',' r.2 with
    | none => cases token '\x7d' r.2 <;> rfl
    | some rest =>
      simp only
      cases members fuel rest <;> rfl

theorem members_last {m : Member} (hm : m.Gives n) {fuel : ℕ} (hfuel : n ≤ fuel)
    (rest : List Char) :
    members (fuel + 1) (m.text ++ '\x7d' :: rest) = m.given.map fun v ↦ ([v], rest) := by
  have hcomma : token ',' ('\x7d' :: rest) = none := token_of_ne rfl (by decide)
  have hbrace : token '\x7d' ('\x7d' :: rest) = some rest := token_of_next rfl
  rw [members_text hm, hm.2.value fuel _ hfuel (ends_brace rest), Member.given]
  cases m.2.2 with
  | none => rfl
  | some v => simp only [Option.map_some, Option.bind_some, hcomma, hbrace]

theorem members_next {m : Member} (hm : m.Gives n) {fuel : ℕ} (hfuel : n ≤ fuel)
    (input : List Char) :
    members (fuel + 1) (m.text ++ ',' :: input) =
      m.given.bind fun v ↦ (members fuel input).map fun r ↦ (v :: r.1, r.2) := by
  have hcomma : token ',' (',' :: input) = some input := token_of_next rfl
  rw [members_text hm, hm.2.value fuel _ hfuel (ends_comma input), Member.given]
  cases m.2.2 with
  | none => rfl
  | some v => simp only [Option.map_some, Option.bind_some, hcomma]

theorem members_commas {ms : List Member} (hne : ms ≠ []) (hms : ∀ m ∈ ms, m.Gives n) {fuel : ℕ}
    (hfuel : n + ms.length ≤ fuel) (rest : List Char) :
    members fuel (commas (ms.map Member.text) ++ '\x7d' :: rest) =
      (collect (ms.map Member.given)).map fun vs ↦ (vs, rest) := by
  let pair : Member → List Char × Option (List Char × Value) := fun m ↦ (m.text, m.given)
  have htexts : (ms.map pair).map Prod.fst = ms.map Member.text := List.map_map
  have hgiven : (ms.map pair).map Prod.snd = ms.map Member.given := List.map_map
  rw [← htexts, ← hgiven]
  apply read_commas (by simpa using hne) _ _ (by simpa using hfuel)
  · intro p hp fuel rest hfuel
    obtain ⟨m, hm, rfl⟩ := List.mem_map.mp hp
    exact members_last (hms m hm) hfuel rest
  · intro p hp fuel input hfuel
    obtain ⟨m, hm, rfl⟩ := List.mem_map.mp hp
    exact members_next (hms m hm) hfuel input

theorem gives_obj {ms : List Member} (hne : ms ≠ []) (hms : ∀ m ∈ ms, m.Gives n) :
    Gives (n + ms.length + 1) ('\x7b' :: commas (ms.map Member.text) ++ ['\x7d'])
      ((collect (ms.map Member.given)).map .obj) := by
  refine ⟨⟨'\x7b', _, rfl, rfl, by decide⟩, ?_⟩
  intro fuel rest hfuel _
  obtain ⟨fuel, rfl⟩ := Nat.exists_eq_add_of_le' (by omega : 1 ≤ fuel)
  have hbrace : token '\x7d' (commas (ms.map Member.text) ++ '\x7d' :: rest) = none := by
    cases ms with
    | nil => exact absurd rfl hne
    | cons m ms =>
      cases ms with
      | nil => exact token_of_ne rfl (by decide)
      | cons m' ms => exact token_of_ne rfl (by decide)
  have hmembers := members_commas hne hms (by omega : n + ms.length ≤ fuel) rest
  simp only [List.cons_append, List.append_assoc, List.nil_append]
  rw [value, skipWs_cons rfl]
  simp only [(by decide : '\x7b' ≠ '"'), (by decide : '\x7b' ≠ '['), if_false, if_true, hbrace,
    hmembers, Option.map_map]
  rfl

theorem Gives.decode {text : List Char} {o : Option Value} (hg : Gives n text o)
    (hn : n ≤ 2 * text.length + 1) : decode text = o := by
  have hends : Ends [] := fun c hc ↦ by cases hc
  have hvalue := hg.value _ [] hn hends
  rw [List.append_nil] at hvalue
  rw [Json.decode, hvalue]
  cases o <;> rfl

end Gives

end MachineNotebook.Lib.Json
