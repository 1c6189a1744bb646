/-
Words of brackets.

`Balanced` and `Leaves` tell by grammar alone which brackets of a word belong together and which
are left open behind it, and `Blames` which bracket is at fault.  `reduce` is what a reader with a
stack makes of the word.  The reader finds what the grammar says (`Leaves.reduce`,
`Misfit.reduce`), and there is nothing else to find: behind any word some brackets are open, or a
closing bracket in it has no match (`leaves_or_misfit`).
-/
import CheckScript.Proofs.Source.Parts
import Mathlib.Data.List.Induction

namespace CheckScript
namespace Source

/-! ## Brackets that belong together -/

def Matches (bracket closing : Char) : Prop := (bracket, closing) ∈ openings.zip closings

instance (bracket closing : Char) : Decidable (Matches bracket closing) :=
  inferInstanceAs (Decidable ((bracket, closing) ∈ openings.zip closings))

/-- A word of brackets, each with its line, in which all belong together. -/
inductive Balanced : List (Char × Nat) → Prop where
  | nil : Balanced []
  | pair {o c : Char × Nat} {inner rest : List (Char × Nat)} (h : Matches o.1 c.1)
    (hinner : Balanced inner) (hrest : Balanced rest) : Balanced (o :: (inner ++ c :: rest))

/-- Behind the word the brackets `opened` are open, the innermost first.  All between them and
behind them is in balance. -/
inductive Leaves : List (Char × Nat) → List (Char × Nat) → Prop where
  | balanced {word : List (Char × Nat)} (h : Balanced word) : Leaves word []
  | opened {o : Char × Nat} {word inner outer : List (Char × Nat)} (h : Leaves word outer)
    (ho : o.1 ∈ openings) (hinner : Balanced inner) : Leaves (word ++ o :: inner) (o :: outer)

/-- The first closing bracket that does not match the innermost open one, or that finds none. -/
inductive Misfit : List (Char × Nat) → SourceFault → Prop where
  | unexpected {before after : List (Char × Nat)} {c : Char} {line : Nat} (hc : c ∈ closings)
    (h : Leaves before []) : Misfit (before ++ (c, line) :: after) ⟨line, .unexpected c⟩
  | mismatched {before after outer : List (Char × Nat)} {o c : Char} {opened line : Nat}
    (hc : c ∈ closings) (h : Leaves before ((o, opened) :: outer)) (hno : ¬Matches o c) :
    Misfit (before ++ (c, line) :: after) ⟨line, .mismatched c o opened⟩

/-- The bracket at fault: the first that does not match, or else the innermost that is open at
the end. -/
inductive Blames (word : List (Char × Nat)) : SourceFault → Prop where
  | misfit {fault : SourceFault} (h : Misfit word fault) : Blames word fault
  | unclosed {o : Char} {line : Nat} {outer : List (Char × Nat)}
    (h : Leaves word ((o, line) :: outer)) : Blames word ⟨line, .unclosed o⟩

theorem Matches.opening {o c : Char} (h : Matches o c) : o ∈ openings :=
  (List.of_mem_zip h).1

theorem Matches.closing {o c : Char} (h : Matches o c) : c ∈ closings :=
  (List.of_mem_zip h).2

theorem not_opening_of_closing {c : Char} (h : c ∈ closings) : c ∉ openings := by
  simp only [closings, List.mem_cons, List.not_mem_nil, or_false] at h
  rcases h with rfl | rfl | rfl <;> decide

/-- The opening bracket that the scanner looks for is the one that matches. -/
theorem matches_iff {o c : Char} (h : c ∈ closings) : Matches o c ↔ o = openingOf c := by
  simp only [closings, List.mem_cons, List.not_mem_nil, or_false] at h
  rcases h with rfl | rfl | rfl <;> simp [Matches, openings, closings, openingOf]

theorem Balanced.append {v w : List (Char × Nat)} (hv : Balanced v) (hw : Balanced w) :
    Balanced (v ++ w) := by
  induction hv with
  | nil => exact hw
  | pair h hinner _ _ ih =>
    rw [List.cons_append, List.append_assoc, List.cons_append]
    exact .pair h hinner ih

theorem Leaves.append {v w opened : List (Char × Nat)} (hv : Leaves v opened) (hw : Balanced w) :
    Leaves (v ++ w) opened := by
  cases hv with
  | balanced hv => exact .balanced (hv.append hw)
  | opened h ho hinner =>
    rw [List.append_assoc]
    exact .opened h ho (hinner.append hw)

theorem leaves_nil {word : List (Char × Nat)} : Leaves word [] ↔ Balanced word := by
  constructor
  · rintro (h | _)
    exact h
  · exact .balanced

/-- A closing bracket takes the innermost open one with it. -/
theorem Leaves.close {word outer : List (Char × Nat)} {o c : Char × Nat}
    (h : Leaves word (o :: outer)) (hc : Matches o.1 c.1) : Leaves (word ++ [c]) outer := by
  cases h with
  | @opened _ word inner _ h _ hinner =>
    rw [List.append_assoc, List.cons_append]
    exact h.append (.pair hc hinner .nil)

theorem Misfit.append {v : List (Char × Nat)} {fault : SourceFault} (h : Misfit v fault)
    (w : List (Char × Nat)) : Misfit (v ++ w) fault := by
  cases h with
  | unexpected hc h =>
    rw [List.append_assoc, List.cons_append]
    exact .unexpected hc h
  | mismatched hc h hno =>
    rw [List.append_assoc, List.cons_append]
    exact .mismatched hc h hno

def IsBracket (b : Char × Nat) : Prop := b.1 ∈ openings ∨ b.1 ∈ closings

theorem leaves_or_misfit {word : List (Char × Nat)} (h : ∀ b ∈ word, IsBracket b) :
    (∃ opened, Leaves word opened) ∨ ∃ fault, Misfit word fault := by
  induction word using List.reverseRecOn with
  | nil => exact .inl ⟨[], .balanced .nil⟩
  | append_singleton word b ih =>
    obtain ⟨hword, hb⟩ := List.forall_mem_append.mp h
    obtain ⟨opened, hopened⟩ | ⟨fault, hfault⟩ := ih hword
    · obtain hb | hb := hb b List.mem_cons_self
      · exact .inl ⟨b :: opened, .opened hopened hb .nil⟩
      · match opened, hopened with
        | [], hopened => exact .inr ⟨_, .unexpected hb hopened⟩
        | o :: outer, hopened =>
          by_cases hmatch : Matches o.1 b.1
          · exact .inl ⟨outer, hopened.close hmatch⟩
          · exact .inr ⟨_, .mismatched hb hopened hmatch⟩
    · exact .inr ⟨fault, hfault.append [b]⟩

/-! ## The stack -/

/-- The brackets that are open behind a word that is read inside the brackets `opened`. -/
def reduce (opened : List (Char × Nat)) :
    List (Char × Nat) → Except SourceFault (List (Char × Nat))
  | [] => .ok opened
  | (b, line) :: word =>
    if b ∈ openings then reduce ((b, line) :: opened) word
    else closeBracket line b opened >>= fun outer => reduce outer word

section

variable {b : Char × Nat} {word opened : List (Char × Nat)}

theorem reduce_opening (h : b.1 ∈ openings) :
    reduce opened (b :: word) = reduce (b :: opened) word := if_pos h

theorem reduce_closing (h : b.1 ∈ closings) :
    reduce opened (b :: word) =
      closeBracket b.2 b.1 opened >>= fun outer => reduce outer word :=
  if_neg (not_opening_of_closing h)

theorem reduce_append (opened v w : List (Char × Nat)) :
    reduce opened (v ++ w) = reduce opened v >>= fun outer => reduce outer w := by
  induction v generalizing opened with
  | nil => rfl
  | cons b v ih =>
    rw [List.cons_append, reduce, reduce]
    split
    · exact ih _
    · cases closeBracket b.2 b.1 opened with
      | error fault => rfl
      | ok outer => exact ih outer

theorem closeBracket_matches {o : Char × Nat} (h : Matches o.1 b.1) :
    closeBracket b.2 b.1 (o :: opened) = .ok opened :=
  if_pos ((matches_iff h.closing).mp h)

theorem closeBracket_mismatched {o : Char × Nat} (hb : b.1 ∈ closings) (h : ¬Matches o.1 b.1) :
    closeBracket b.2 b.1 (o :: opened) = .error ⟨b.2, .mismatched b.1 o.1 o.2⟩ :=
  if_neg fun heq => h ((matches_iff hb).mpr heq)

theorem Balanced.reduce (h : Balanced word) (opened : List (Char × Nat)) :
    reduce opened word = .ok opened := by
  induction h generalizing opened with
  | nil => rfl
  | @pair o c inner rest h _ _ ihinner ihrest =>
    rw [reduce_opening h.opening, reduce_append, ihinner]
    show Source.reduce (o :: opened) (c :: rest) = _
    rw [reduce_closing h.closing, closeBracket_matches h]
    exact ihrest opened

theorem Leaves.reduce (h : Leaves word opened) : reduce [] word = .ok opened := by
  induction h with
  | balanced h => exact h.reduce []
  | @opened o word inner outer _ ho hinner ih =>
    rw [reduce_append, ih]
    show Source.reduce outer (o :: inner) = _
    rw [reduce_opening ho, hinner.reduce]

theorem Misfit.reduce {fault : SourceFault} (h : Misfit word fault) :
    reduce [] word = .error fault := by
  cases h with
  | @unexpected before after c line hc h =>
    rw [reduce_append, h.reduce]
    show Source.reduce [] ((c, line) :: after) = _
    rw [reduce_closing hc]
    rfl
  | @mismatched before after outer o c opened line hc h hno =>
    rw [reduce_append, h.reduce]
    show Source.reduce ((o, opened) :: outer) ((c, line) :: after) = _
    rw [reduce_closing hc, closeBracket_mismatched hc hno]
    rfl

end

end Source
end CheckScript
