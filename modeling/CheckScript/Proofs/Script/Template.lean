/-
Templates that are written segment by segment.

Literal text is written with its braces doubled, and a place for a value as its number in
braces.  A doubled brace is read as one wherever it stands, and a number ends at the next
brace, so what one segment makes does not depend on the next (`fill_written`), and the
text of a value is never read at all.
-/
import CheckScript.Proofs.Text.Runs
import CheckScript.Script.Interpreter

namespace CheckScript
namespace Script

/-- A segment of a template for `n` values: a text that stands for itself, or the place of a
value. -/
inductive Segment (n : Nat) where
  | literal (text : String)
  | place (i : UInt64) (h : i.toNat < n)

namespace Segment

/-- A character of a literal text, as it is written in a template. -/
def doubled (c : Char) : List Char := if c = '{' ∨ c = '}' then [c, c] else [c]

def written {n : Nat} : Segment n → String
  | literal text => String.ofList (text.toList.flatMap doubled)
  | place i _ => "\x7b" ++ toString i.toNat ++ "\x7d"

/-- What becomes of a segment. -/
def shown (args : List Value) : Segment args.length → String
  | literal text => text
  | place i h => (args.get ⟨i.toNat, h⟩).text

end Segment

section Filling

variable {args : List Value} {rest out : List Char}

theorem fill_double {c : Char} (hc : c = '{' ∨ c = '}') (h : fill args rest = .ok out) :
    fill args (c :: c :: rest) = .ok (c :: out) := by
  rcases hc with rfl | rfl
  · rw [fill, h]
    rfl
  · rw [fill, h]
    rfl

theorem fill_plain {c : Char} (hc : ¬(c = '{' ∨ c = '}')) (h : fill args rest = .ok out) :
    fill args (c :: rest) = .ok (c :: out) := by
  obtain ⟨hopening, hclosing⟩ := not_or.mp hc
  rw [fill, h]
  · rfl
  · exact fun _ hcons => absurd hcons hopening
  · exact fun _ hcons => absurd hcons hclosing
  · exact hopening

theorem fill_doubled (c : Char) (h : fill args rest = .ok out) :
    fill args (Segment.doubled c ++ rest) = .ok (c :: out) := by
  unfold Segment.doubled
  split
  · rename_i hbrace
    exact fill_double hbrace h
  · rename_i hplain
    exact fill_plain hplain h

theorem fill_literal (cs : List Char) (h : fill args rest = .ok out) :
    fill args (cs.flatMap Segment.doubled ++ rest) = .ok (cs ++ out) := by
  induction cs with
  | nil => exact h
  | cons c cs ih =>
    rw [List.flatMap_cons, List.append_assoc]
    exact fill_doubled c ih

/-- A number in braces is the place of a value. -/
theorem fill_place {digits : List Char} {text : String}
    (hdigits : ∀ c ∈ digits, Text.isDigit c = true)
    (htext : placeholder args digits = .ok text) (h : fill args rest = .ok out) :
    fill args ('{' :: (digits ++ '}' :: rest)) = .ok (text.toList ++ out) := by
  have hinside : ∀ c ∈ digits, (c != '}') = true := by
    intro c hc
    refine bne_iff_ne.mpr ?_
    rintro rfl
    exact absurd (hdigits _ hc) (by decide)
  have hends : Text.Ends (· != '}') ('}' :: rest) := Text.ends_cons rfl
  rw [fill]
  · split
    · rename_i hnone
      rw [Text.dropWhile_run hinside hends] at hnone
      cases hnone
    · rename_i behind hbehind
      rw [Text.dropWhile_run hinside hends] at hbehind
      obtain ⟨-, rfl⟩ := List.cons.inj hbehind
      rw [Text.takeWhile_run hinside hends, htext]
      simp only
      rw [h]
      rfl
  · intro _ hcons
    cases digits with
    | nil => cases hcons
    | cons c digits =>
      obtain ⟨rfl, -⟩ := List.cons.inj hcons
      exact absurd (hdigits _ List.mem_cons_self) (by decide)

theorem placeholder_toDigits {i : Nat} (hfits : i < Nat.pow 2 64) (h : i < args.length) :
    placeholder args (Nat.toDigits 10 i) = .ok (args.get ⟨i, h⟩).text := by
  have hblank : ∀ c ∈ Nat.toDigits 10 i, Text.isBlank c = false := fun c hc =>
    Text.isBlank_of_isDigit (Integer.isDigit_of_mem_toDigits hc)
  unfold placeholder
  rw [Text.trimChars_of_unblank hblank, Integer.word?_toDigits hfits]
  simp only
  rw [List.getElem?_eq_getElem h]
  rfl

/-- A segment is filled in on its own, whatever stands behind it. -/
theorem fill_written (segment : Segment args.length) (h : fill args rest = .ok out) :
    fill args (segment.written.toList ++ rest) = .ok ((segment.shown args).toList ++ out) := by
  cases segment with
  | literal text =>
    have hwritten : (Segment.literal text : Segment args.length).written.toList =
        text.toList.flatMap Segment.doubled := String.toList_ofList
    rw [hwritten]
    exact fill_literal text.toList h
  | place i hi =>
    have hnumber : (toString i.toNat).toList = Nat.toDigits 10 i.toNat := Nat.toList_repr
    have hwritten : (Segment.place i hi).written.toList ++ rest =
        '{' :: (Nat.toDigits 10 i.toNat ++ '}' :: rest) := by
      show ("\x7b" ++ toString i.toNat ++ "\x7d").toList ++ rest = _
      rw [String.toList_append, String.toList_append, hnumber, List.append_assoc, List.append_assoc]
      rfl
    rw [hwritten]
    exact fill_place (fun _ => Integer.isDigit_of_mem_toDigits) (placeholder_toDigits i.toNat_lt hi)
      h

end Filling

theorem fill_template (args : List Value) (segments : List (Segment args.length)) :
    fill args (String.join (segments.map Segment.written)).toList =
      .ok (String.join (segments.map (Segment.shown args))).toList := by
  rw [String.toList_join, String.toList_join, List.flatMap_map, List.flatMap_map]
  induction segments with
  | nil => rw [List.flatMap_nil, List.flatMap_nil, fill]
  | cons segment segments ih => exact fill_written segment ih

/-- Any texts and places, written one after the other, come out as the texts and the values
in their places, whatever braces the texts and the values hold. -/
theorem format_template (args : List Value) (segments : List (Segment args.length)) :
    let template := String.join (segments.map Segment.written)
    let text := String.join (segments.map (Segment.shown args))
    format template args = .ok text ∧
    ∀ (g : Environment) (line : Nat) (s : Session),
      call g line "format" (.str template :: args) s = (.done (.str text), s) := by
  intro template text
  have hformat : format template args = .ok text := by
    rw [format, fill_template, Except.map, String.ofList_toList]
  refine ⟨hformat, fun g line s => ?_⟩
  show (Run.onLine line (format template args) >>= fun text => pure (Value.str text)) s = _
  rw [hformat]
  rfl

end Script
end CheckScript
