/-
The machine interface, read by a cursor that counts bytes.

The cursor knows its line as bytes and takes text out of it in slices.  It goes on byte by byte
in classes and names, character by character in strings, and from one to the other wherever
values nest, so no place of it is known to be the start of a character.  A slice that is not
there is `Halt.outside`.  Each turn of a loop and each value inside another is a step, and the
cursor does not get more of them than it is given.

`read_inside` says that the cursor reads every line as `Mi.read` does.
-/
import CheckScript.Proofs.Record.Grammar
import CheckScript.Proofs.Text.Index
import CheckScript.Proofs.Text.Lines

namespace CheckScript
namespace Mi
namespace Cursor

open Text (Guarded)

variable (line : List Char)

def size : Nat := Text.utf8Length line

/-- The byte at `pos`, as a sign. -/
def peek (pos : Nat) : Option Char := (Text.signs line)[pos]?

def fault {α : Type} (problem : Problem) (pos : Nat) : Guarded LineFault α :=
  throw (.fault ⟨String.ofList line, problem, pos + 1⟩)

def slice (start stop : Nat) : Guarded LineFault (List Char) :=
  .inside (Text.slice? start stop line)

def eat (expected : Char) (pos : Nat) : Guarded LineFault Nat :=
  if peek line pos = some expected then pure (pos + 1)
  else fault line (.expected expected) pos

def classEnd : Nat → Nat → Guarded LineFault Nat
  | 0, _ => .late
  | steps + 1, pos =>
    match peek line pos with
    | none => pure pos
    | some c => if c = ',' then pure pos else classEnd steps (pos + 1)

def recordClass (steps pos : Nat) : Guarded LineFault (String × Nat) := do
  let stop ← classEnd line steps pos
  let text ← slice line pos stop
  pure (String.ofList text, stop)

def nameEnd : Nat → Nat → Guarded LineFault Nat
  | 0, _ => .late
  | steps + 1, pos =>
    match peek line pos with
    | none => pure pos
    | some c =>
      if c = '=' then pure pos
      else if isReserved c then fault line .unnamed pos
      else nameEnd steps (pos + 1)

def name (steps pos : Nat) : Guarded LineFault (String × Nat) := do
  let stop ← nameEnd line steps pos
  if stop = pos then fault line .emptyName stop
  else do
    let text ← slice line pos stop
    pure (String.ofList text, stop)

def named (steps pos : Nat) : Guarded LineFault (String × Nat) := do
  let read ← name line steps pos
  let start ← eat line '=' read.2
  pure (read.1, start)

/-- The text of a string from its opening quote on, and the byte behind the closing one, counted
from `offset`. -/
def decode (offset : Nat) (out : List Char) : List Char → Option (List Char × Nat)
  | [] => none
  | '"' :: _ => some (out, offset + 1)
  | ['\\'] => none
  | '\\' :: c :: rest => decode (offset + 1 + c.utf8Size) (out ++ [unescape c]) rest
  | c :: rest => decode (offset + c.utf8Size) (out ++ [c]) rest

def string (pos : Nat) : Guarded LineFault (String × Nat) := do
  let start ← eat line '"' pos
  let rest ← slice line start (size line)
  match decode 0 [] rest with
  | none => fault line .openString (size line)
  | some (text, offset) => pure (String.ofList text, start + offset)

mutual

def value : Nat → Nat → Guarded LineFault (RecordValue × Nat)
  | 0, _ => .late
  | steps + 1, pos =>
    if peek line pos = some '"' then do
      let text ← string line pos
      pure (.const text.1, text.2)
    else if peek line pos = some '{' then tuple steps pos
    else if peek line pos = some '[' then list steps pos
    else fault line .expectedValue pos

def result : Nat → Nat → Guarded LineFault ((String × RecordValue) × Nat)
  | 0, _ => .late
  | steps + 1, pos => do
    let read ← named line steps pos
    let v ← value steps read.2
    pure ((read.1, v.1), v.2)

def tuple : Nat → Nat → Guarded LineFault (RecordValue × Nat)
  | 0, _ => .late
  | steps + 1, pos => do
    let start ← eat line '{' pos
    if peek line start = some '}' then pure (.tuple [], start + 1)
    else do
      let fs ← fields '}' steps start
      pure (.tuple fs.1, fs.2)

def list : Nat → Nat → Guarded LineFault (RecordValue × Nat)
  | 0, _ => .late
  | steps + 1, pos => do
    let start ← eat line '[' pos
    if peek line start = some ']' then pure (.list [], start + 1)
    else if peek line start = some '"' ∨ peek line start = some '{' ∨
        peek line start = some '[' then do
      let vs ← items steps start
      pure (.list vs.1, vs.2)
    else do
      let fs ← fields ']' steps start
      pure (.list (fs.1.map fun f => .tuple [f]), fs.2)

def fields (closing : Char) : Nat → Nat → Guarded LineFault (List (String × RecordValue) × Nat)
  | 0, _ => .late
  | steps + 1, pos => do
    let field ← result steps pos
    if peek line field.2 = some ',' then do
      let more ← fields closing steps (field.2 + 1)
      pure (field.1 :: more.1, more.2)
    else if peek line field.2 = some closing then pure ([field.1], field.2 + 1)
    else fault line (.unclosed closing) field.2

def items : Nat → Nat → Guarded LineFault (List RecordValue × Nat)
  | 0, _ => .late
  | steps + 1, pos => do
    let item ← value steps pos
    if peek line item.2 = some ',' then do
      let more ← items steps (item.2 + 1)
      pure (item.1 :: more.1, more.2)
    else if peek line item.2 = some ']' then pure ([item.1], item.2 + 1)
    else fault line (.unclosed ']') item.2

end

def results : Nat → Nat → Guarded LineFault (List (String × RecordValue))
  | 0, _ => .late
  | steps + 1, pos =>
    if size line ≤ pos then pure []
    else do
      let start ← eat line ',' pos
      let field ← result line steps start
      let more ← results steps field.2
      pure (field.1 :: more)

def structured (steps : Nat) (token : Option Nat) (kind : RecordKind) (pos : Nat) :
    Guarded LineFault Record := do
  let c ← recordClass line steps pos
  if c.1.isEmpty then fault line .missingClass c.2
  else if kind = .result ∧ c.1 ∉ resultClasses then fault line (.unknownClass c.1) c.2
  else do
    let fs ← results line steps c.2
    pure
      { line := String.ofList line, token, kind, className := c.1, results := .tuple fs,
        text := none }

def streamed (kind : RecordKind) (pos : Nat) : Guarded LineFault Record := do
  let text ← string line pos
  if size line ≤ text.2 then pure (.stream (String.ofList line) kind text.1)
  else fault line .trailingText text.2

/-- The record whose sign is at byte `digits`, behind the digits of its token. -/
def signed (steps : Nat) (token : Option Nat) (digits : Nat) (sign : Option Char) :
    Guarded LineFault Record :=
  match sign with
  | some '^' => structured line steps token .result (digits + 1)
  | some '*' => structured line steps token .exec (digits + 1)
  | some '+' => structured line steps token .status (digits + 1)
  | some '=' => structured line steps token .notify (digits + 1)
  | some '~' =>
    if token.isNone then streamed line .console (digits + 1)
    else pure (.raw (String.ofList line))
  | some '@' =>
    if token.isNone then streamed line .target (digits + 1)
    else pure (.raw (String.ofList line))
  | some '&' =>
    if token.isNone then streamed line .log (digits + 1) else pure (.raw (String.ofList line))
  | _ => pure (.raw (String.ofList line))

/-- The token that the first `digits` bytes spell. -/
def number (digits : Nat) : Guarded LineFault (Option Nat) :=
  if 0 < digits then do
    let text ← slice line 0 digits
    pure (tokenOf text)
  else pure none

def readLine (steps : Nat) : Guarded LineFault Record :=
  if Text.trimChars line = "(gdb)".toList then pure (.prompt (String.ofList line))
  else do
    let digits := ((Text.signs line).takeWhile Text.isDigit).length
    let token ← number line digits
    let rest ← slice line digits (size line)
    signed line steps token digits (Text.signs rest).head?

/-- Read a line in at most so many steps into each loop and each nested value. -/
def read (steps : Nat) (text : String) : Guarded LineFault Record :=
  readLine (Text.dropReturn text.toList) steps

/-! ## The place of a text in its line -/

/-- The byte at which `cs`, an end of the line, begins. -/
def place (cs : List Char) : Nat := byteSize line - byteSize cs

theorem byteSize_eq (cs : List Char) : byteSize cs = Text.utf8Length cs := by
  induction cs with
  | nil => rfl
  | cons c cs ih =>
    rw [Text.utf8Length_cons, ← ih]
    rfl

variable {line} {c sign : Char} {cs rest text : List Char}

theorem byteSize_cons (c : Char) (cs : List Char) : byteSize (c :: cs) = c.utf8Size + byteSize cs :=
  rfl

theorem byteSize_le (h : rest <:+ cs) : byteSize rest ≤ byteSize cs := by
  obtain ⟨front, rfl⟩ := h
  rw [byteSize_eq, byteSize_eq, Text.utf8Length_append]
  omega

/-- Behind a character of the text there are fewer bytes. -/
theorem byteSize_behind (h : c :: rest <:+ cs) : byteSize rest < byteSize cs := by
  have hsize := c.utf8Size_pos
  have hle := byteSize_le h
  rw [byteSize_cons] at hle
  omega

theorem place_append (front cs : List Char) : place (front ++ cs) cs = Text.utf8Length front := by
  rw [place, byteSize_eq, byteSize_eq, Text.utf8Length_append, Nat.add_sub_cancel]

theorem place_nil : place line [] = size line := by
  rw [place, byteSize_eq]
  rfl

theorem place_text (h : text ++ rest <:+ line) :
    place line rest = place line (text ++ rest) + Text.utf8Length text := by
  obtain ⟨front, rfl⟩ := h
  rw [place_append, ← List.append_assoc, place_append, Text.utf8Length_append]

theorem place_cons (h : c :: rest <:+ line) :
    place line rest = place line (c :: rest) + c.utf8Size := by
  have htext : [c] ++ rest <:+ line := h
  rw [place_text htext, Text.utf8Length_cons]
  rfl

theorem place_sign (hc : c.toNat < 128) (h : c :: rest <:+ line) :
    place line (c :: rest) + 1 = place line rest := by
  rw [place_cons h, Text.utf8Size_of_ascii hc]

theorem signs_drop (h : cs <:+ line) : (Text.signs line).drop (place line cs) = Text.signs cs := by
  obtain ⟨front, rfl⟩ := h
  rw [place_append, Text.signs_append]
  exact List.drop_left' (Text.signs_length front)

theorem peek_place (h : cs <:+ line) : peek line (place line cs) = (Text.signs cs).head? := by
  rw [← signs_drop h, List.head?_drop]
  rfl

/-- The cursor sees a sign of one byte where the text goes on with it. -/
theorem peek_eq_some (hsign : sign.toNat < 128) (h : cs <:+ line) :
    peek line (place line cs) = some sign ↔ cs.head? = some sign := by
  rw [peek_place h, Text.head?_signs hsign]

theorem slice_place (h : text ++ rest <:+ line) :
    slice line (place line (text ++ rest)) (place line rest) = pure text := by
  obtain ⟨front, rfl⟩ := h
  rw [slice, place_append, ← List.append_assoc, place_append,
    Text.slice?_eq_some.mpr ⟨front, rest, (List.append_assoc ..).symm, rfl, rfl⟩]
  rfl

theorem slice_rest (h : cs <:+ line) : slice line (place line cs) (size line) = pure cs := by
  have htext : cs ++ [] <:+ line := by rwa [List.append_nil]
  have hslice := slice_place htext
  rwa [List.append_nil, place_nil] at hslice

theorem place_dropWhile (p : Char → Bool) (h : cs <:+ line) :
    place line (cs.dropWhile p) = place line cs + Text.utf8Length (cs.takeWhile p) := by
  have htext : cs.takeWhile p ++ cs.dropWhile p <:+ line := by
    rwa [List.takeWhile_append_dropWhile]
  rw [place_text htext, List.takeWhile_append_dropWhile]

theorem slice_takeWhile (p : Char → Bool) (h : cs <:+ line) :
    slice line (place line cs) (place line (cs.dropWhile p)) = pure (cs.takeWhile p) := by
  have htext : cs.takeWhile p ++ cs.dropWhile p <:+ line := by
    rwa [List.takeWhile_append_dropWhile]
  have hslice := slice_place htext
  rwa [List.takeWhile_append_dropWhile] at hslice

theorem eat_sign (hsign : sign.toNat < 128) (h : sign :: rest <:+ line) :
    eat line sign (place line (sign :: rest)) = pure (place line rest) := by
  rw [eat, if_pos ((peek_eq_some hsign h).mpr rfl), place_sign hsign h]

theorem eat_other (hsign : sign.toNat < 128) (h : cs <:+ line) (hcs : cs.head? ≠ some sign) :
    eat line sign (place line cs) = fault line (.expected sign) (place line cs) :=
  if_neg fun hpeek => hcs ((peek_eq_some hsign h).mp hpeek)

/-! ## What the cursor reads -/

/-- What the reader of a text comes to, with places for the ends of the line. -/
def reached {α : Type} (line : List Char) : Except Fault (α × List Char) →
    Guarded LineFault (α × Nat)
  | .ok (a, rest) => pure (a, place line rest)
  | .error f => throw (.fault (f.inLine line))

theorem drop_succ_of_drop {α : Type} {as bs : List α} {a : α} {n : Nat}
    (h : as.drop n = a :: bs) : as.drop (n + 1) = bs := by
  rw [← List.drop_drop, h]
  rfl

theorem peek_of_drop {pos : Nat} {signs : List Char} (h : (Text.signs line).drop pos = signs) :
    peek line pos = signs.head? := by
  rw [← h, List.head?_drop]
  rfl

theorem classEnd_eq {steps pos : Nat} {signs : List Char}
    (h : (Text.signs line).drop pos = signs) (hsteps : signs.length < steps) :
    classEnd line steps pos = pure (pos + (signs.takeWhile (· != ',')).length) := by
  obtain ⟨steps, rfl⟩ := Text.exists_step hsteps
  induction signs generalizing pos steps with
  | nil =>
    rw [classEnd, peek_of_drop h]
    rfl
  | cons c signs ih =>
    rw [classEnd, peek_of_drop h]
    by_cases hc : c = ','
    · subst hc
      rfl
    · have hne : (c != ',') = true := bne_iff_ne.mpr hc
      have hleft : signs.length < steps := Nat.lt_of_succ_lt_succ hsteps
      obtain ⟨left, rfl⟩ := Text.exists_step hleft
      simp only [List.head?_cons, if_neg hc]
      rw [ih (drop_succ_of_drop h) left hleft, List.takeWhile_cons_of_pos (p := (· != ',')) hne,
        List.length_cons, Nat.add_assoc, Nat.add_comm 1]

theorem nameEnd_eq {steps pos : Nat} {signs : List Char}
    (h : (Text.signs line).drop pos = signs) (hsteps : signs.length < steps) :
    nameEnd line steps pos =
      if (signs.dropWhile isNameChar).head? = none ∨
          (signs.dropWhile isNameChar).head? = some '=' then
        pure (pos + (signs.takeWhile isNameChar).length)
      else fault line .unnamed (pos + (signs.takeWhile isNameChar).length) := by
  obtain ⟨steps, rfl⟩ := Text.exists_step hsteps
  induction signs generalizing pos steps with
  | nil =>
    rw [nameEnd, peek_of_drop h]
    rfl
  | cons c signs ih =>
    rw [nameEnd, peek_of_drop h]
    simp only [List.head?_cons]
    by_cases hname : isNameChar c = true
    · have hsign : c ≠ '=' ∧ isReserved c = false := by simpa [isNameChar] using hname
      have hleft : signs.length < steps := Nat.lt_of_succ_lt_succ hsteps
      obtain ⟨left, rfl⟩ := Text.exists_step hleft
      rw [if_neg hsign.1, hsign.2, if_neg Bool.false_ne_true, ih (drop_succ_of_drop h) left hleft,
        List.dropWhile_cons_of_pos hname, List.takeWhile_cons_of_pos hname, List.length_cons,
        Nat.add_assoc, Nat.add_comm 1]
    · rw [List.dropWhile_cons_of_neg hname, List.takeWhile_cons_of_neg hname]
      by_cases hc : c = '='
      · subst hc
        rfl
      · have hreserved : isReserved c = true := by simpa [isNameChar, hc] using hname
        simp [hc, hreserved]

theorem signs_lt {steps : Nat} (h : byteSize cs < steps) : (Text.signs cs).length < steps := by
  rwa [Text.signs_length, ← byteSize_eq]

theorem ne_of_not_ascii (hc : 128 ≤ c.toNat) (hsign : sign.toNat < 128) : c ≠ sign := by
  rintro rfl
  exact absurd hsign (Nat.not_lt.mpr hc)

theorem isNameChar_of_not_ascii (hc : 128 ≤ c.toNat) : isNameChar c = true := by
  rw [isNameChar_iff]
  simp only [List.mem_cons, List.not_mem_nil, or_false, not_or]
  and_intros <;> exact ne_of_not_ascii hc (by decide)

theorem recordClass_place {steps : Nat} (h : cs <:+ line) (hsteps : byteSize cs < steps) :
    recordClass line steps (place line cs) =
      pure (String.ofList (cs.takeWhile (· != ',')), place line (cs.dropWhile (· != ','))) := by
  have hclass : ∀ c : Char, 128 ≤ c.toNat → (c != ',') = true := fun c hc =>
    bne_iff_ne.mpr (ne_of_not_ascii hc (by decide))
  rw [recordClass, classEnd_eq (signs_drop h) (signs_lt hsteps), pure_bind,
    Text.takeWhile_signs hclass, Text.signs_length, ← place_dropWhile _ h, slice_takeWhile _ h,
    pure_bind]

theorem name_place {steps : Nat} (h : cs <:+ line) (hsteps : byteSize cs < steps) :
    name line steps (place line cs) =
      if cs.dropWhile isNameChar = [] ∨ (cs.dropWhile isNameChar).head? = some '=' then
        if cs.takeWhile isNameChar = [] then
          fault line .emptyName (place line (cs.dropWhile isNameChar))
        else
          pure (String.ofList (cs.takeWhile isNameChar), place line (cs.dropWhile isNameChar))
      else fault line .unnamed (place line (cs.dropWhile isNameChar)) := by
  have hplace := place_dropWhile isNameChar h
  rw [name, nameEnd_eq (signs_drop h) (signs_lt hsteps),
    Text.dropWhile_signs fun _ => isNameChar_of_not_ascii,
    Text.takeWhile_signs fun _ => isNameChar_of_not_ascii, Text.signs_length, ← hplace]
  simp only [Text.head?_signs_eq_none, Text.head?_signs (show '='.toNat < 128 by decide)]
  split
  · rw [pure_bind]
    have hempty : place line (cs.dropWhile isNameChar) = place line cs ↔
        cs.takeWhile isNameChar = [] := by
      rw [hplace, ← Text.utf8Length_eq_zero]
      omega
    simp only [hempty]
    split
    · rfl
    · rw [slice_takeWhile _ h, pure_bind]
  · rfl

theorem named_place {steps : Nat} (h : cs <:+ line) (hsteps : byteSize cs < steps) :
    named line steps (place line cs) = reached line (readName cs) := by
  have hrest : cs.dropWhile isNameChar <:+ line := (List.dropWhile_suffix _).trans h
  rw [named, name_place h hsteps]
  unfold readName
  cases heq : cs.dropWhile isNameChar with
  | nil =>
    rw [heq] at hrest
    simp only [true_or, if_true, List.isEmpty_iff]
    split
    · rfl
    · rw [pure_bind, eat_other (by decide) hrest nofun]
      rfl
  | cons c rest =>
    rw [heq] at hrest
    simp only [List.cons_ne_nil, false_or, List.head?_cons, Option.some.injEq, List.isEmpty_iff]
    split
    · rename_i hc
      subst hc
      split
      · rfl
      · rw [pure_bind, eat_sign (by decide) hrest]
        rfl
    · rfl

theorem decode_eq (offset : Nat) (out cs : List Char) :
    decode offset out cs = (stringRest cs).map fun r =>
      (out ++ r.1, offset + (byteSize cs - byteSize r.2)) := by
  fun_induction decode offset out cs with
  | case1 | case3 => rfl
  | case2 offset out rest =>
    rw [stringRest, byteSize_cons]
    simp
    rfl
  | case4 offset out c rest ih =>
    rw [ih, stringRest, Option.map_map, byteSize_cons, byteSize_cons]
    cases hrest : stringRest rest with
    | none => rfl
    | some r =>
      have hle := byteSize_le (stringRest_suffix hrest)
      have hslash : '\\'.utf8Size = 1 := rfl
      simp only [Option.map_some, Function.comp_apply, List.append_assoc, List.singleton_append]
      congr 2
      omega
  | case5 offset out c rest hquote hlast hpair ih =>
    rw [ih, stringRest.eq_5, Option.map_map, byteSize_cons]
    · cases hrest : stringRest rest with
      | none => rfl
      | some r =>
        have hle := byteSize_le (stringRest_suffix hrest)
        simp only [Option.map_some, Function.comp_apply, List.append_assoc, List.singleton_append]
        congr 2
        omega
    · exact hquote
    · exact hlast
    · exact hpair

theorem string_quote (h : '"' :: cs <:+ line) :
    string line (place line ('"' :: cs)) = reached line
      (match stringRest cs with
      | none => .error ⟨.openString, []⟩
      | some (text, after) => .ok (String.ofList text, after)) := by
  have hcs : cs <:+ line := (List.suffix_cons ..).trans h
  rw [string, eat_sign (by decide) h, pure_bind, slice_rest hcs, pure_bind, decode_eq]
  cases hstring : stringRest cs with
  | none =>
    show fault line .openString (size line) = _
    rw [← place_nil]
    rfl
  | some r =>
    obtain ⟨text, after⟩ := r
    have hafter := byteSize_le (stringRest_suffix hstring)
    have hline := byteSize_le hcs
    have hplace : place line cs + (0 + (byteSize cs - byteSize after)) = place line after := by
      unfold place
      omega
    show pure (String.ofList text, _) = pure (String.ofList text, place line after)
    rw [hplace]

theorem string_other (h : cs <:+ line) (hcs : cs.head? ≠ some '"') :
    string line (place line cs) = fault line (.expected '"') (place line cs) := by
  rw [string, eat_other (by decide) h hcs]
  rfl

/-! ## The cursor reads what the readers read -/

/-- The cursor goes on behind what was read. -/
theorem reached_bind {α β : Type} {r : Except Fault (α × List Char)}
    {f : α × Nat → Guarded LineFault (β × Nat)}
    {g : α × List Char → Except Fault (β × List Char)}
    (h : ∀ a rest, r = .ok (a, rest) → f (a, place line rest) = reached line (g (a, rest))) :
    reached line r >>= f = reached line (r >>= g) := by
  cases r with
  | error f => rfl
  | ok read => exact h read.1 read.2 rfl

/-- A sign of the text pays for the steps to the readers behind it. -/
theorem steps_behind {steps : Nat} (h : 4 * byteSize (c :: rest) < steps + 1) :
    4 * byteSize rest + 3 < steps := by
  have hless := byteSize_behind (List.suffix_refl (c :: rest))
  omega

/- Each reader has a step more than the readers that it calls at the same place.  A call behind a
sign has the steps of four bytes at its disposal. -/
mutual

theorem value_place {steps : Nat} {cs : List Char} (h : cs <:+ line)
    (hsteps : 4 * byteSize cs < steps) :
    value line steps (place line cs) = reached line (readOf (Mi.value cs)) := by
  obtain ⟨steps, rfl⟩ := Text.exists_step hsteps
  rw [value]
  simp only [peek_eq_some (show '"'.toNat < 128 by decide) h,
    peek_eq_some (show '{'.toNat < 128 by decide) h,
    peek_eq_some (show '['.toNat < 128 by decide) h]
  split
  · rename_i hquote
    obtain ⟨rest, rfl⟩ := List.head?_eq_some_iff.mp hquote
    rw [string_quote h, value_string]
    cases stringRest rest <;> rfl
  · split
    · rename_i hbrace
      obtain ⟨rest, rfl⟩ := List.head?_eq_some_iff.mp hbrace
      exact tuple_place h (steps_behind hsteps)
    · split
      · rename_i hbracket
        obtain ⟨rest, rfl⟩ := List.head?_eq_some_iff.mp hbracket
        exact list_place h (steps_behind hsteps)
      · rename_i hquote hbrace hbracket
        have hother : ¬HoldsValues cs := by
          rintro (h | h | h)
          · exact hquote h
          · exact hbrace h
          · exact hbracket h
        rw [value_other hother]
        rfl
termination_by steps

theorem result_place {steps : Nat} {cs : List Char} (h : cs <:+ line)
    (hsteps : 4 * byteSize cs + 1 < steps) :
    result line steps (place line cs) = reached line (readOf (Mi.result cs)) := by
  obtain ⟨steps, rfl⟩ := Text.exists_step hsteps
  rw [result, named_place h (by omega), result_eq]
  refine reached_bind fun variableName rest hname => ?_
  have hrest := readName_suffix hname
  have hle := byteSize_le hrest
  rw [value_place (hrest.trans h) (by omega)]
  exact reached_bind fun _ _ _ => rfl
termination_by steps

theorem tuple_place {steps : Nat} {rest : List Char} (h : '{' :: rest <:+ line)
    (hsteps : 4 * byteSize rest + 3 < steps) :
    tuple line steps (place line ('{' :: rest)) =
      reached line (readOf (Mi.value ('{' :: rest))) := by
  obtain ⟨steps, rfl⟩ := Text.exists_step hsteps
  have hrest : rest <:+ line := (List.suffix_cons ..).trans h
  rw [tuple, eat_sign (by decide) h, pure_bind]
  simp only [peek_eq_some (show '}'.toNat < 128 by decide) hrest]
  split
  · rename_i hclosed
    obtain ⟨after, rfl⟩ := List.head?_eq_some_iff.mp hclosed
    rw [place_sign (by decide) hrest, value_noFields]
    rfl
  · rename_i hopen
    rw [value_fields hopen, fields_place (by decide) hrest (by omega)]
    exact reached_bind fun _ _ _ => rfl
termination_by steps

theorem list_place {steps : Nat} {rest : List Char} (h : '[' :: rest <:+ line)
    (hsteps : 4 * byteSize rest + 3 < steps) :
    list line steps (place line ('[' :: rest)) =
      reached line (readOf (Mi.value ('[' :: rest))) := by
  obtain ⟨steps, rfl⟩ := Text.exists_step hsteps
  have hrest : rest <:+ line := (List.suffix_cons ..).trans h
  rw [list, eat_sign (by decide) h, pure_bind]
  simp only [peek_eq_some (show ']'.toNat < 128 by decide) hrest,
    peek_eq_some (show '"'.toNat < 128 by decide) hrest,
    peek_eq_some (show '{'.toNat < 128 by decide) hrest,
    peek_eq_some (show '['.toNat < 128 by decide) hrest]
  split
  · rename_i hclosed
    obtain ⟨after, rfl⟩ := List.head?_eq_some_iff.mp hclosed
    rw [place_sign (by decide) hrest, value_noItems]
    rfl
  · rename_i hopen
    rw [value_list hopen]
    by_cases hvalues : HoldsValues rest
    · refine (if_pos hvalues).trans ?_
      rw [if_pos hvalues, items_place hrest (by omega)]
      exact reached_bind fun _ _ _ => rfl
    · refine (if_neg hvalues).trans ?_
      rw [if_neg hvalues, fields_place (by decide) hrest (by omega)]
      exact reached_bind fun _ _ _ => rfl
termination_by steps

theorem fields_place {closing : Char} {steps : Nat} {cs : List Char}
    (hclosing : closing.toNat < 128) (h : cs <:+ line) (hsteps : 4 * byteSize cs + 2 < steps) :
    fields line closing steps (place line cs) =
      reached line (readOf (Mi.fields closing cs)) := by
  obtain ⟨steps, rfl⟩ := Text.exists_step hsteps
  rw [fields, result_place h (by omega), fields_eq]
  refine reached_bind fun field after hresult => ?_
  have hsuffix := result_suffix hresult
  have hafter : after <:+ line := hsuffix.trans h
  simp only [peek_eq_some (show ','.toNat < 128 by decide) hafter, peek_eq_some hclosing hafter]
  split
  · rename_i hcomma
    obtain ⟨rest, rfl⟩ := List.head?_eq_some_iff.mp hcomma
    have hless := byteSize_behind hsuffix
    rw [place_sign (by decide) hafter,
      fields_place hclosing ((List.suffix_cons ..).trans hafter) (by omega)]
    exact reached_bind fun _ _ _ => rfl
  · split
    · rename_i hend
      obtain ⟨rest, rfl⟩ := List.head?_eq_some_iff.mp hend
      rw [place_sign hclosing hafter]
      rfl
    · rfl
termination_by steps

theorem items_place {steps : Nat} {cs : List Char} (h : cs <:+ line)
    (hsteps : 4 * byteSize cs + 1 < steps) :
    items line steps (place line cs) = reached line (readOf (Mi.items cs)) := by
  obtain ⟨steps, rfl⟩ := Text.exists_step hsteps
  rw [items, value_place h (by omega), items_eq]
  refine reached_bind fun item after hvalue => ?_
  have hsuffix := value_suffix hvalue
  have hafter : after <:+ line := hsuffix.trans h
  simp only [peek_eq_some (show ','.toNat < 128 by decide) hafter,
    peek_eq_some (show ']'.toNat < 128 by decide) hafter]
  split
  · rename_i hcomma
    obtain ⟨rest, rfl⟩ := List.head?_eq_some_iff.mp hcomma
    have hless := byteSize_behind hsuffix
    rw [place_sign (by decide) hafter,
      items_place ((List.suffix_cons ..).trans hafter) (by omega)]
    exact reached_bind fun _ _ _ => rfl
  · split
    · rename_i hend
      obtain ⟨rest, rfl⟩ := List.head?_eq_some_iff.mp hend
      rw [place_sign (by decide) hafter]
      rfl
    · rfl
termination_by steps

end

/-! ## Lines -/

/-- What a reader comes to, with the line in its fault. -/
def judged {α : Type} (line : List Char) (r : Except Fault α) : Guarded LineFault α :=
  .ofExcept (r.mapError (Fault.inLine line))

theorem judged_bind {α β : Type} {r : Except Fault (α × List Char)}
    {f : α × Nat → Guarded LineFault β} {g : α × List Char → Except Fault β}
    (h : ∀ a rest, r = .ok (a, rest) → f (a, place line rest) = judged line (g (a, rest))) :
    reached line r >>= f = judged line (r >>= g) := by
  cases r with
  | error f => rfl
  | ok read => exact h read.1 read.2 rfl

theorem size_le_place (h : cs <:+ line) : size line ≤ place line cs ↔ cs = [] := by
  have hle := byteSize_le h
  have hsize : size line = byteSize line := (byteSize_eq line).symm
  rw [← Text.utf8Length_eq_zero, ← byteSize_eq, hsize, place]
  omega

theorem results_place {steps : Nat} (h : cs <:+ line) (hsteps : 4 * byteSize cs < steps) :
    results line steps (place line cs) = judged line (Mi.results cs) := by
  induction steps generalizing cs with
  | zero => exact absurd hsteps (Nat.not_lt_zero _)
  | succ steps ih =>
    rw [results, results_eq]
    simp only [size_le_place h]
    split
    · rfl
    · by_cases hcomma : cs.head? = some ','
      · obtain ⟨rest, rfl⟩ := List.head?_eq_some_iff.mp hcomma
        have hrest : rest <:+ line := (List.suffix_cons ..).trans h
        have hleft := steps_behind hsteps
        rw [if_pos hcomma, eat_sign (by decide) h, pure_bind, result_place hrest (by omega)]
        refine judged_bind fun field after hresult => ?_
        have hafter := result_suffix hresult
        have hle := byteSize_le hafter
        rw [ih (hafter.trans hrest) (by omega)]
        cases Mi.results after <;> rfl
      · rw [if_neg hcomma, eat_other (by decide) h hcomma]
        rfl

theorem structured_place {steps : Nat} {token : Option Nat} {kind : RecordKind}
    (h : cs <:+ line) (hsteps : 4 * byteSize cs < steps) :
    structured line steps token kind (place line cs) =
      judged line (Mi.structured line token kind cs) := by
  have hsuffix : cs.dropWhile (· != ',') <:+ cs := List.dropWhile_suffix _
  have hle := byteSize_le hsuffix
  have hempty : ∀ text : List Char, (String.ofList text).isEmpty = text.isEmpty := fun text => by
    rw [Bool.eq_iff_iff, String.isEmpty_iff, List.isEmpty_iff, String.ofList_eq_empty_iff]
  rw [structured, recordClass_place h (by omega), pure_bind,
    results_place (hsuffix.trans h) (by omega), hempty]
  unfold Mi.structured
  simp only
  split
  · rfl
  · split
    · rfl
    · cases Mi.results (cs.dropWhile (· != ',')) <;> rfl

theorem streamed_place {kind : RecordKind} (h : cs <:+ line) :
    streamed line kind (place line cs) = judged line (Mi.streamed line kind cs) := by
  rw [streamed]
  by_cases hquote : cs.head? = some '"'
  · obtain ⟨rest, rfl⟩ := List.head?_eq_some_iff.mp hquote
    have hrest : rest <:+ line := (List.suffix_cons ..).trans h
    rw [string_quote h, Mi.streamed]
    cases hstring : stringRest rest with
    | none => rfl
    | some r =>
      obtain ⟨text, after⟩ := r
      have hafter : after <:+ line := (stringRest_suffix hstring).trans hrest
      show ite (size line ≤ place line after) _ _ = _
      simp only [size_le_place hafter]
      cases after <;> rfl
  · rw [string_other h hquote]
    unfold Mi.streamed
    split
    · exact absurd rfl hquote
    · rfl

theorem isDigit_of_not_ascii (hc : 128 ≤ c.toNat) : Text.isDigit c = false := by
  have hnine : ¬c.toNat ≤ '9'.toNat := fun hle => absurd (Nat.le_trans hc hle) (by decide)
  rw [Text.isDigit, Bool.and_eq_false_iff, decide_eq_false_iff_not, decide_eq_false_iff_not]
  exact .inr hnine

theorem signed_place {steps : Nat} {token : Option Nat} (h : cs <:+ line)
    (hsteps : 4 * byteSize cs < steps) :
    signed line steps token (place line cs) (Text.signs cs).head? = judged line
      (match cs with
      | '^' :: rest => Mi.structured line token .result rest
      | '*' :: rest => Mi.structured line token .exec rest
      | '+' :: rest => Mi.structured line token .status rest
      | '=' :: rest => Mi.structured line token .notify rest
      | '~' :: rest =>
        if token.isNone then Mi.streamed line .console rest else .ok (.raw (String.ofList line))
      | '@' :: rest =>
        if token.isNone then Mi.streamed line .target rest else .ok (.raw (String.ofList line))
      | '&' :: rest =>
        if token.isNone then Mi.streamed line .log rest else .ok (.raw (String.ofList line))
      | _ => .ok (.raw (String.ofList line))) := by
  have hsign : ∀ sign : Char, sign.toNat < 128 → (Text.signs cs).head? = some sign →
      ∃ rest, cs = sign :: rest ∧ rest <:+ line ∧ place line cs + 1 = place line rest ∧
        4 * byteSize rest < steps := by
    intro sign hascii hhead
    obtain ⟨rest, rfl⟩ := List.head?_eq_some_iff.mp ((Text.head?_signs hascii cs).mp hhead)
    have hless := byteSize_behind (List.suffix_refl (sign :: rest))
    exact ⟨rest, rfl, (List.suffix_cons ..).trans h, place_sign hascii h, by omega⟩
  unfold signed
  split
  iterate 4
    rename_i hhead
    obtain ⟨rest, rfl, hrest, hplace, hleft⟩ := hsign _ (by decide) hhead
    rw [hplace, structured_place hrest hleft]
    rfl
  iterate 3
    rename_i hhead
    obtain ⟨rest, rfl, hrest, hplace, -⟩ := hsign _ (by decide) hhead
    rw [hplace, streamed_place hrest]
    cases token <;> rfl
  · rename_i hresult hexec hstatus hnotify hconsole htarget hlog
    split
    · exact absurd ((Text.head?_signs (by decide) _).mpr rfl) hresult
    · exact absurd ((Text.head?_signs (by decide) _).mpr rfl) hexec
    · exact absurd ((Text.head?_signs (by decide) _).mpr rfl) hstatus
    · exact absurd ((Text.head?_signs (by decide) _).mpr rfl) hnotify
    · exact absurd ((Text.head?_signs (by decide) _).mpr rfl) hconsole
    · exact absurd ((Text.head?_signs (by decide) _).mpr rfl) htarget
    · exact absurd ((Text.head?_signs (by decide) _).mpr rfl) hlog
    · rfl

/-- The digits at the start of a line are one slice, and no digits are no number. -/
theorem number_place (line : List Char) :
    number line (place line (line.dropWhile Text.isDigit)) =
      pure (tokenOf (line.takeWhile Text.isDigit)) := by
  have hwhole : line <:+ line := List.suffix_refl line
  have hstart : place line line = 0 := place_append [] line
  unfold number
  split
  · have hslice := slice_takeWhile Text.isDigit hwhole
    rw [hstart] at hslice
    rw [hslice, pure_bind]
  · rename_i hnone
    rw [place_dropWhile _ hwhole, hstart] at hnone
    have hempty : line.takeWhile Text.isDigit = [] :=
      Text.utf8Length_eq_zero.mp (by omega)
    rw [hempty]
    rfl

theorem readLine_eq {steps : Nat} (hsteps : 4 * byteSize line < steps) :
    readLine line steps = judged line (Mi.readLine line) := by
  have hdigits : ((Text.signs line).takeWhile Text.isDigit).length =
      place line (line.dropWhile Text.isDigit) := by
    have hstart : place line line = 0 := place_append [] line
    rw [Text.takeWhile_signs fun _ => isDigit_of_not_ascii, Text.signs_length,
      place_dropWhile _ (List.suffix_refl line), hstart, Nat.zero_add]
  have hrest : line.dropWhile Text.isDigit <:+ line := List.dropWhile_suffix _
  have hle := byteSize_le hrest
  rw [readLine, Mi.readLine]
  split
  · rfl
  · simp only [hdigits]
    rw [number_place, pure_bind, slice_rest hrest, pure_bind, signed_place hrest (by omega)]
    rfl

/-- In four steps for each byte the cursor comes to its end.  It reads the line as the reader
without places does, with the same record or the same fault, and so it has taken no slice that
the line does not have. -/
theorem read_inside {line : String} {steps : Nat} (hsteps : 4 * byteSize line.toList < steps) :
    read steps line = some ((Mi.read line).mapError .fault) ∧
      read steps line ≠ some (.error .outside) := by
  have hle : byteSize (Text.dropReturn line.toList) ≤ byteSize line.toList := by
    obtain ⟨gap, hgap, -⟩ := Text.dropReturn_append line.toList
    rw [← hgap, byteSize_eq, byteSize_eq, Text.utf8Length_append, hgap]
    omega
  have hread : read steps line = some ((Mi.read line).mapError .fault) :=
    readLine_eq (by omega)
  exact ⟨hread, hread ▸ Text.Guarded.ofExcept_ne_outside _⟩

/-- A name, a text and a token behind characters of two bytes. -/
theorem read_inside_accented :
    4 * byteSize "7^done,né=[\"ü\\n\"],m=\"x\"".toList < 160 ∧
      (Mi.read "7^done,né=[\"ü\\n\"],m=\"x\"").toOption.isSome = true ∧
      read 160 "7^done,né=[\"ü\\n\"],m=\"x\"" =
        some ((Mi.read "7^done,né=[\"ü\\n\"],m=\"x\"").mapError .fault) ∧
      read 160 "7^done,né=[\"ü\\n\"],m=\"x\"" ≠ some (.error .outside) :=
  ⟨by decide +kernel, by decide +kernel, read_inside (by decide +kernel)⟩

end Cursor
end Mi
end CheckScript
