/-
Text that is read by index.

A reader that goes by an index can ask for a place that its text does not have: an index at
the end or behind it, or a slice that ends before it starts or cuts a character in two.
`Guarded` is what such a reader comes to, with all that can go wrong: it is refused, it has
read outside of its text, or it is not done when it has taken the steps that it may take.

Slices of encoded text are counted in bytes.  `slice?_eq_some` says which slices there are.
-/

namespace CheckScript
namespace Text

/-- Why a reader stops without a result. -/
inductive Halt (ε : Type) where
  | fault (e : ε)
  | outside
deriving DecidableEq, Repr

/-- What a reader comes to: a result or a halt, and nothing if it is not done in time. -/
abbrev Guarded (ε α : Type) : Type := ExceptT (Halt ε) Option α

namespace Guarded

variable {ε α : Type}

/-- No step is left. -/
def late : Guarded ε α := ExceptT.mk none

/-- What must be there for the reader to go on. -/
def inside : Option α → Guarded ε α
  | none => throw .outside
  | some a => pure a

def ofExcept (r : Except ε α) : Guarded ε α := ExceptT.mk (some (r.mapError .fault))

/-- What is refused or read was read within the text. -/
theorem ofExcept_ne_outside (r : Except ε α) : ofExcept r ≠ some (.error .outside) := by
  cases r <;> exact nofun

end Guarded

theorem exists_step {steps n : Nat} (h : n < steps) : ∃ left, steps = left + 1 :=
  Nat.exists_eq_add_one_of_ne_zero (Nat.ne_zero_of_lt h)

/-! ## Slices of encoded text -/

/-- A text as its UTF-8 encoding. -/
def utf8 (cs : List Char) : List UInt8 := cs.flatMap String.utf8EncodeChar

def utf8Length (cs : List Char) : Nat := (utf8 cs).length

/-- The text in front of byte `n` and the text from there on.  There are none within a
character and behind the end. -/
def splitAt? : Nat → List Char → Option (List Char × List Char)
  | 0, cs => some ([], cs)
  | _ + 1, [] => none
  | n + 1, c :: cs =>
    if c.utf8Size ≤ n + 1 then
      (splitAt? (n + 1 - c.utf8Size) cs).map fun parts => (c :: parts.1, parts.2)
    else none

/-- The text from byte `start` up to byte `stop`. -/
def slice? (start stop : Nat) (cs : List Char) : Option (List Char) :=
  if start ≤ stop then
    (splitAt? stop cs).bind fun parts => (splitAt? start parts.1).map Prod.snd
  else none

variable {cs front back text : List Char}

theorem utf8_cons (c : Char) (cs : List Char) :
    utf8 (c :: cs) = String.utf8EncodeChar c ++ utf8 cs := List.flatMap_cons

theorem utf8_append (front back : List Char) : utf8 (front ++ back) = utf8 front ++ utf8 back :=
  List.flatMap_append

theorem utf8Length_cons (c : Char) (cs : List Char) :
    utf8Length (c :: cs) = c.utf8Size + utf8Length cs := by
  rw [utf8Length, utf8_cons, List.length_append, String.length_utf8EncodeChar]
  rfl

theorem utf8Length_append (front back : List Char) :
    utf8Length (front ++ back) = utf8Length front + utf8Length back := by
  rw [utf8Length, utf8_append, List.length_append]
  rfl

theorem utf8Length_eq_zero : utf8Length cs = 0 ↔ cs = [] := by
  cases cs with
  | nil => exact Iff.intro (fun _ => rfl) fun _ => rfl
  | cons c cs =>
    have hsize := c.utf8Size_pos
    have hlength := utf8Length_cons c cs
    exact Iff.intro (fun h => by omega) nofun

theorem splitAt?_append (front back : List Char) :
    splitAt? (utf8Length front) (front ++ back) = some (front, back) := by
  induction front with
  | nil => cases back <;> rfl
  | cons c front ih =>
    have hsize := c.utf8Size_pos
    obtain ⟨n, hn⟩ : ∃ n, utf8Length (c :: front) = n + 1 :=
      ⟨c.utf8Size + utf8Length front - 1, by rw [utf8Length_cons]; omega⟩
    have hrest : n + 1 - c.utf8Size = utf8Length front := by
      rw [utf8Length_cons] at hn
      omega
    rw [hn, List.cons_append, splitAt?, if_pos (by rw [utf8Length_cons] at hn; omega), hrest, ih]
    rfl

/-- A text is parted where a number of its characters ends. -/
theorem splitAt?_eq_some {n : Nat} :
    splitAt? n cs = some (front, back) ↔ front ++ back = cs ∧ utf8Length front = n := by
  constructor
  · intro h
    fun_induction splitAt? n cs generalizing front with
    | case1 cs =>
      cases h
      exact ⟨rfl, rfl⟩
    | case2 | case4 => cases h
    | case3 n c cs hle ih =>
      obtain ⟨⟨rest, last⟩, hrest, heq⟩ := Option.map_eq_some_iff.mp h
      obtain ⟨rfl, rfl⟩ : c :: rest = front ∧ last = back := Prod.mk.inj heq
      obtain ⟨rfl, hlength⟩ := ih hrest
      exact ⟨rfl, by rw [utf8Length_cons]; omega⟩
  · rintro ⟨rfl, rfl⟩
    exact splitAt?_append front back

/-- A slice is there if it starts and stops where characters begin or end, in this order. -/
theorem slice?_eq_some {start stop : Nat} :
    slice? start stop cs = some text ↔
      ∃ front back, front ++ (text ++ back) = cs ∧ utf8Length front = start ∧
        utf8Length (front ++ text) = stop := by
  unfold slice?
  constructor
  · intro h
    split at h
    · obtain ⟨⟨whole, back⟩, hstop, h⟩ := Option.bind_eq_some_iff.mp h
      obtain ⟨⟨front, inner⟩, hstart, rfl⟩ := Option.map_eq_some_iff.mp h
      obtain ⟨rfl, rfl⟩ := splitAt?_eq_some.mp hstop
      obtain ⟨rfl, rfl⟩ := splitAt?_eq_some.mp hstart
      exact ⟨front, back, (List.append_assoc ..).symm, rfl, rfl⟩
    · cases h
  · rintro ⟨front, back, rfl, rfl, rfl⟩
    rw [if_pos (by rw [utf8Length_append]; omega), ← List.append_assoc, splitAt?_append,
      Option.bind_some, splitAt?_append]
    rfl

example : slice? 1 2 ['é'] = none := by decide

/-- What stands between two texts is a slice from behind the one to in front of the other. -/
theorem slice?_between (front text back : List Char) :
    slice? (utf8Length front) (utf8Length (front ++ (text ++ back)) - utf8Length back)
      (front ++ (text ++ back)) = some text := by
  refine slice?_eq_some.mpr ⟨front, back, rfl, rfl, ?_⟩
  rw [← List.append_assoc, utf8Length_append (front ++ text), Nat.add_sub_cancel]

/-- The places that a text can be parted at are those that the library allows in a string. -/
theorem splitAt?_isSome_iff (n : Nat) (s : String) :
    (splitAt? n s.toList).isSome ↔ String.Pos.Raw.IsValid s ⟨n⟩ := by
  rw [String.Pos.Raw.isValid_iff_exists_append, Option.isSome_iff_exists]
  have hlength : ∀ t : String, t.rawEndPos = ⟨utf8Length t.toList⟩ := by
    intro t
    have hsize : t.utf8ByteSize = utf8Length t.toList := by
      conv => lhs; rw [← String.ofList_toList (s := t)]
      rw [← String.size_toByteArray, String.toByteArray_ofList, List.utf8Encode,
        List.size_toByteArray]
      rfl
    rw [← hsize]
    rfl
  constructor
  · rintro ⟨⟨front, back⟩, h⟩
    obtain ⟨happend, hfront⟩ := splitAt?_eq_some.mp h
    refine ⟨String.ofList front, String.ofList back, ?_, ?_⟩
    · rw [← String.ofList_append, happend, String.ofList_toList]
    · rw [hlength, String.toList_ofList, hfront]
  · rintro ⟨a, b, rfl, h⟩
    refine ⟨(a.toList, b.toList), splitAt?_eq_some.mpr ⟨String.toList_append.symm, ?_⟩⟩
    rw [hlength] at h
    exact (congrArg String.Pos.Raw.byteIdx h).symm

/-! ## Bytes as signs -/

/-- The bytes of a text, each as the character of its number.  Signs of one byte are
themselves there, and the bytes of other characters are no such sign. -/
def signs (cs : List Char) : List Char := (utf8 cs).map Char.ofUInt8

theorem signs_length (cs : List Char) : (signs cs).length = utf8Length cs := List.length_map ..

theorem signs_append (front back : List Char) :
    signs (front ++ back) = signs front ++ signs back := by
  rw [signs, utf8_append, List.map_append]
  rfl

theorem head?_signs_eq_none : (signs cs).head? = none ↔ cs = [] := by
  rw [List.head?_eq_none_iff, ← List.length_eq_zero_iff, signs_length, utf8Length_eq_zero]

theorem signs_ne_nil (c : Char) : signs [c] ≠ [] := fun hnil =>
  List.cons_ne_nil c [] (head?_signs_eq_none.mp (List.head?_eq_none_iff.mpr hnil))

theorem utf8Size_of_ascii {c : Char} (h : c.toNat < 128) : c.utf8Size = 1 :=
  Char.utf8Size_eq_one_iff.mpr (Nat.le_of_lt_succ h)

theorem signs_cons_of_ascii {c : Char} (h : c.toNat < 128) (cs : List Char) :
    signs (c :: cs) = c :: signs cs := by
  have hbytes : String.utf8EncodeChar c = [UInt8.ofNat c.toNat] := if_pos (Nat.le_of_lt_succ h)
  have hsign : Char.ofUInt8 (UInt8.ofNat c.toNat) = c := by
    apply Char.toNat_inj.mp
    show (UInt8.ofNat c.toNat).toNat = c.toNat
    rw [UInt8.toNat_ofNat']
    omega
  rw [signs, utf8_cons, hbytes, List.map_append, List.map_singleton, hsign]
  rfl

theorem signs_cons (c : Char) (cs : List Char) : signs (c :: cs) = signs [c] ++ signs cs :=
  signs_append [c] cs

/-- Characters of more than one byte have bytes from 128 on only. -/
theorem signs_of_not_ascii {c : Char} (h : 128 ≤ c.toNat) : ∀ d ∈ signs [c], 128 ≤ d.toNat := by
  have hbytes : ∀ ns : List Nat, (∀ n ∈ ns, 128 ≤ n ∧ n < 256) →
      ∀ d ∈ (ns.map UInt8.ofNat).map Char.ofUInt8, 128 ≤ d.toNat := by
    intro ns hns d hd
    rw [List.map_map, List.mem_map] at hd
    obtain ⟨n, hn, rfl⟩ := hd
    show 128 ≤ (UInt8.ofNat n).toNat
    rw [UInt8.toNat_ofNat', Nat.mod_eq_of_lt (hns n hn).2]
    exact (hns n hn).1
  have hsize : ¬c.val.toNat ≤ 127 := Nat.not_le.mpr h
  rw [signs, utf8_cons, utf8, List.flatMap_nil, List.append_nil, String.utf8EncodeChar]
  simp only [hsize, if_false]
  split
  · exact hbytes [_, _] (by simp; omega)
  · split
    · exact hbytes [_, _, _] (by simp; omega)
    · exact hbytes [_, _, _, _] (by simp; omega)

/-- Bytes and characters of a class go equally far, if the class does not part a character of
more than one byte from others of the kind. -/
theorem takeWhile_signs {p : Char → Bool} {b : Bool} (hp : ∀ c, 128 ≤ c.toNat → p c = b)
    (cs : List Char) : (signs cs).takeWhile p = signs (cs.takeWhile p) := by
  induction cs with
  | nil => rfl
  | cons c cs ih =>
    by_cases hc : c.toNat < 128
    · rw [signs_cons_of_ascii hc, List.takeWhile_cons, List.takeWhile_cons]
      split
      · rw [ih, signs_cons_of_ascii hc]
      · rfl
    · have hforeign := Nat.not_lt.mp hc
      cases b with
      | true =>
        rw [List.takeWhile_cons_of_pos (hp c hforeign), signs_cons, signs_cons c (cs.takeWhile p),
          List.takeWhile_append_of_pos (fun d hd => hp d (signs_of_not_ascii hforeign d hd)), ih]
      | false =>
        obtain ⟨d, ds, hds⟩ := List.exists_cons_of_ne_nil (signs_ne_nil c)
        have hd : p d = false := hp d (signs_of_not_ascii hforeign d (hds ▸ List.mem_cons_self))
        rw [signs_cons, hds, List.cons_append, List.takeWhile_cons_of_neg (by simp [hd]),
          List.takeWhile_cons_of_neg (by simp [hp c hforeign])]
        rfl

theorem dropWhile_signs {p : Char → Bool} {b : Bool} (hp : ∀ c, 128 ≤ c.toNat → p c = b)
    (cs : List Char) : (signs cs).dropWhile p = signs (cs.dropWhile p) := by
  have hboth : signs (cs.takeWhile p) ++ (signs cs).dropWhile p =
      signs (cs.takeWhile p) ++ signs (cs.dropWhile p) := by
    rw [← signs_append, List.takeWhile_append_dropWhile, ← takeWhile_signs hp,
      List.takeWhile_append_dropWhile]
  exact List.append_cancel_left hboth

/-- The sign that a text begins with: its first character, if that is of one byte. -/
theorem head?_signs {sign : Char} (hsign : sign.toNat < 128) (cs : List Char) :
    (signs cs).head? = some sign ↔ cs.head? = some sign := by
  cases cs with
  | nil => exact Iff.rfl
  | cons c cs =>
    by_cases hc : c.toNat < 128
    · rw [signs_cons_of_ascii hc, List.head?_cons, List.head?_cons]
    · have hforeign := Nat.not_lt.mp hc
      constructor
      · intro h
        rw [signs_cons, List.head?_append] at h
        obtain ⟨d, ds, hds⟩ := List.exists_cons_of_ne_nil (signs_ne_nil c)
        have hd := signs_of_not_ascii hforeign d (hds ▸ List.mem_cons_self)
        rw [hds] at h
        obtain rfl : d = sign := Option.some.inj h
        omega
      · intro h
        obtain rfl : c = sign := Option.some.inj h
        omega

end Text

end CheckScript
