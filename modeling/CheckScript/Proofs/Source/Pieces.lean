/-
Sources written piece by piece.

A source is written down as pieces with blanks and line ends between them.  Whatever signs the
literals among the pieces hold, the scanner finds the pieces that are comments, and no others
(`comments_pieces`).  Each piece is read as one part or a few, which the blanks keep apart from
their neighbours.
-/
import CheckScript.Proofs.Source.Brackets

namespace CheckScript
namespace Source

open Text (Ends IsRun)

/-! ## Pieces -/

inductive Piece where
  | part (p : Part)
  /-- Characters that begin no comment and no literal, as those of `1.5e-3`. -/
  | word (cs : List Char)
  /-- A name behind a mark that makes any word a name. -/
  | marked (mark name : List Char)
  | lifetime (name : List Char)

/-- The signs that may not stand in a word. -/
def wordless : List Char := '/' :: '@' :: '#' :: signs

/-- A quote and a mark need what stands behind them. -/
def Part.Alone : Part → Prop
  | quote => False
  | nameMark _ => False
  | _ => True

namespace Piece

def text : Piece → List Char
  | part p => p.text
  | word cs => cs
  | marked mark name => mark ++ '#' :: name
  | lifetime name => '\'' :: name

def Sound (nested : Bool) : Piece → Prop
  | part p => p.Sound nested ∧ p.Alone
  | word cs => ∀ c ∈ cs, c ∉ wordless
  | marked mark name => isRawMark mark = true ∧ IsRun Text.isNameStart Text.isNameChar name
  | lifetime name => IsRun Text.isNameStart Text.isNameChar name

def comments (line : Nat) : Piece → List Comment
  | part p => p.comments line
  | _ => []

def brackets (line : Nat) : Piece → List (Char × Nat)
  | part p => p.brackets line
  | _ => []

/-- Only a line end ends the comment of a line. -/
def EndsLine : Piece → Prop
  | part (.lineComment _) => True
  | _ => False

end Piece

def IsGap (gap : List Char) : Prop := gap ≠ [] ∧ ∀ c ∈ gap, c = ' ' ∨ c = '\n'

/-- Pieces, each with what stands behind it: blanks and line ends, and nothing behind the
last. -/
inductive Separated (nested : Bool) : List (Piece × List Char) → Prop where
  | nil : Separated nested []
  | last {piece : Piece} (h : piece.Sound nested) : Separated nested [(piece, [])]
  | cons {piece : Piece} {gap : List Char} {rest : List (Piece × List Char)}
    (h : piece.Sound nested) (hgap : IsGap gap) (hline : piece.EndsLine → gap.head? = some '\n')
    (hrest : Separated nested rest) : Separated nested ((piece, gap) :: rest)

/-- The text of a piece and of what stands behind it. -/
def textWithGap (p : Piece × List Char) : List Char := p.1.text ++ p.2

def textOf (pieces : List (Piece × List Char)) : List Char := pieces.flatMap textWithGap

/-- The comments among pieces of which the first begins on line `line`. -/
def commentsOf : Nat → List (Piece × List Char) → List Comment :=
  gather textWithGap fun line p => p.1.comments line

/-- The brackets among pieces of which the first begins on line `line`. -/
def bracketsOf : Nat → List (Piece × List Char) → List (Char × Nat) :=
  gather textWithGap fun line p => p.1.brackets line

theorem commentsOf_cons (line : Nat) (piece : Piece) (gap : List Char)
    (rest : List (Piece × List Char)) :
    commentsOf line ((piece, gap) :: rest) =
      piece.comments line ++ commentsOf (line + Text.newlines (piece.text ++ gap)) rest := rfl

theorem bracketsOf_cons (line : Nat) (piece : Piece) (gap : List Char)
    (rest : List (Piece × List Char)) :
    bracketsOf line ((piece, gap) :: rest) =
      piece.brackets line ++ bracketsOf (line + Text.newlines (piece.text ++ gap)) rest := rfl

/-! ## What the parts of a text show -/

/-- In front of `rest`, the text consists of parts that show these comments and brackets,
wherever the text begins. -/
def Shows (nested : Bool) (text rest : List Char) (comments : Nat → List Comment)
    (brackets : Nat → List (Char × Nat)) : Prop :=
  ∃ parts, Composed nested (text ++ rest) parts rest ∧
    ∀ line, commentsFrom line parts = comments line ∧ bracketsFrom line parts = brackets line

namespace Shows

variable {nested : Bool} {rest : List Char}

theorem append {as bs : List Char} {f g : Nat → List Comment} {u v : Nat → List (Char × Nat)}
    (ha : Shows nested as (bs ++ rest) f u) (hb : Shows nested bs rest g v) :
    Shows nested (as ++ bs) rest (fun line => f line ++ g (line + Text.newlines as))
      fun line => u line ++ v (line + Text.newlines as) := by
  obtain ⟨ps, hps, hf⟩ := ha
  obtain ⟨qs, hqs, hg⟩ := hb
  refine ⟨ps ++ qs, ?_, fun line => ?_⟩
  · rw [List.append_assoc]
    exact hps.append hqs
  · have htext := List.append_cancel_right hps.text_eq
    rw [commentsFrom, bracketsFrom, gather_append, gather_append, ← htext]
    exact ⟨congrArg₂ _ (hf line).1 (hg _).1, congrArg₂ _ (hf line).2 (hg _).2⟩

theorem part {p : Part} (h : p.Stands nested rest) :
    Shows nested p.text rest (p.comments ·) (p.brackets ·) := by
  refine ⟨[p], .cons h (.nil rest), fun line => ?_⟩
  exact ⟨List.append_nil _, List.append_nil _⟩

end Shows

/-! ## Pieces are parts -/

/-- The end of the text, a blank or a line end. -/
def Spaced (rest : List Char) : Prop := ∀ c, rest.head? = some c → c = ' ' ∨ c = '\n'

section

variable {nested : Bool} {rest : List Char}

theorem Spaced.ends (h : Spaced rest) {f : Char → Bool} (hblank : f ' ' = false)
    (hline : f '\n' = false) : Ends f rest := by
  intro c hc
  obtain rfl | rfl := h c hc
  · exact hblank
  · exact hline

theorem Spaced.head_ne (h : Spaced rest) {c : Char} (hblank : c ≠ ' ') (hline : c ≠ '\n') :
    rest.head? ≠ some c := fun hc => (h c hc).elim hblank hline

theorem Spaced.name (h : Spaced rest) {name : List Char}
    (hname : IsRun Text.isNameStart Text.isNameChar name) :
    (Part.name name).Stands nested rest :=
  ⟨hname, h.ends (by decide) (by decide), fun _ =>
    ⟨h.head_ne (by decide) (by decide), h.head_ne (by decide) (by decide)⟩⟩

theorem IsGap.shows {gap : List Char} (h : ∀ c ∈ gap, c = ' ' ∨ c = '\n') :
    Shows nested gap rest (fun _ => []) fun _ => [] := by
  induction gap with
  | nil => exact ⟨[], .nil rest, fun _ => ⟨rfl, rfl⟩⟩
  | cons c gap ih =>
    obtain ⟨hc, hgap⟩ := List.forall_mem_cons.mp h
    have hstands : (Part.other c).Stands nested (gap ++ rest) := by
      obtain rfl | rfl := hc
      · exact ⟨⟨by decide, by decide, by decide⟩, nofun, nofun⟩
      · exact ⟨⟨by decide, by decide, by decide⟩, nofun, nofun⟩
    exact (Shows.part hstands).append (ih hgap)

theorem head_not_wordless {w : List Char} (hw : ∀ c ∈ w, c ∉ wordless) (hrest : Spaced rest)
    {d : Char} (hd : d ∈ wordless) : (w ++ rest).head? ≠ some d := by
  cases w with
  | nil =>
    refine hrest.head_ne ?_ ?_ <;>
    · rintro rfl
      exact absurd hd (by decide)
  | cons c w =>
    intro hc
    obtain rfl := Option.some.inj hc
    exact hw c List.mem_cons_self hd

/-- A word is read as names, numbers and single characters. -/
theorem word_shows {w : List Char} (hw : ∀ c ∈ w, c ∉ wordless) (hrest : Spaced rest) :
    Shows nested w rest (fun _ => []) fun _ => [] := by
  -- on the length, since a name or a number takes many characters along
  induction hn : w.length using Nat.strongRecOn generalizing w with
  | _ n ih =>
    cases w with
    | nil => exact ⟨[], .nil rest, fun _ => ⟨rfl, rfl⟩⟩
    | cons c tail =>
      obtain ⟨hc, htail⟩ := List.forall_mem_cons.mp hw
      have hbehind {ds : List Char} (hds : ds <:+ tail) :
          Shows nested ds rest (fun _ => []) fun _ => [] :=
        ih ds.length (hn ▸ Nat.lt_succ_of_le hds.length_le) (fun d hd => htail d (hds.mem hd)) rfl
      have hends {f : Char → Bool} (hblank : f ' ' = false) (hline : f '\n' = false) :
          Ends f (tail.dropWhile f ++ rest) :=
        (Text.ends_dropWhile f tail).append (hrest.ends hblank hline)
      have hhead {f : Char → Bool} {d : Char} (hd : d ∈ wordless) :
          (tail.dropWhile f ++ rest).head? ≠ some d :=
        head_not_wordless (fun e he => htail e ((List.dropWhile_suffix f).mem he)) hrest hd
      cases hname : Text.isNameStart c with
      | true =>
        have hstands : (Part.name (c :: tail.takeWhile Text.isNameChar)).Stands nested
            (tail.dropWhile Text.isNameChar ++ rest) :=
          ⟨⟨c, _, rfl, hname, List.all_eq_true.mp List.all_takeWhile⟩,
            hends (by decide) (by decide), fun _ => ⟨hhead (by decide), hhead (by decide)⟩⟩
        have hshows := (Shows.part hstands).append (hbehind (List.dropWhile_suffix _))
        rwa [Part.text, List.cons_append, List.takeWhile_append_dropWhile] at hshows
      | false =>
        cases hdigit : Text.isDigit c with
        | true =>
          have hstands : (Part.number (c :: tail.takeWhile isNumberChar)).Stands nested
              (tail.dropWhile isNumberChar ++ rest) :=
            ⟨⟨c, _, rfl, hdigit, List.all_eq_true.mp List.all_takeWhile⟩,
              hends (by decide) (by decide)⟩
          have hshows := (Shows.part hstands).append (hbehind (List.dropWhile_suffix _))
          rwa [Part.text, List.cons_append, List.takeWhile_append_dropWhile] at hshows
        | false =>
          simp only [wordless, List.mem_cons, not_or] at hc
          obtain ⟨hslash, hat, -, hsigns⟩ := hc
          have hstands : (Part.other c).Stands nested (tail ++ rest) :=
            ⟨⟨by simpa only [signs, List.mem_cons, not_or] using hsigns, hname, hdigit⟩,
              fun h => absurd h hslash, fun h => absurd h hat⟩
          exact (Shows.part hstands).append (hbehind (List.suffix_refl tail))

theorem lifetime_shows {name : List Char}
    (hname : IsRun Text.isNameStart Text.isNameChar name) (hrest : Spaced rest) :
    Shows nested ('\'' :: name) rest (fun _ => []) fun _ => [] := by
  obtain ⟨c, tail, rfl, hc, htail⟩ := id hname
  have hslash : c ≠ '\\' := by
    rintro rfl
    exact absurd hc (by decide)
  have hsecond : (tail ++ rest).head? ≠ some '\'' := by
    cases tail with
    | nil => exact hrest.head_ne (by decide) (by decide)
    | cons d tail =>
      intro hd
      obtain rfl := Option.some.inj hd
      exact absurd (htail _ List.mem_cons_self) (by decide)
  have hquote : Part.quote.Stands nested (c :: tail ++ rest) :=
    ⟨trivial, fun hhead => hslash (Option.some.inj hhead), fun hhead => absurd hhead hsecond⟩
  exact (Shows.part hquote).append (Shows.part (hrest.name hname))

theorem marked_shows {mark name : List Char} (hmark : isRawMark mark = true)
    (hname : IsRun Text.isNameStart Text.isNameChar name) (hrest : Spaced rest) :
    Shows nested (mark ++ '#' :: name) rest (fun _ => []) fun _ => [] := by
  obtain ⟨c, tail, rfl, hc, -⟩ := id hname
  have hstands : (Part.nameMark mark).Stands nested (c :: tail ++ rest) := by
    refine ⟨hmark, c, rfl, ?_, ?_⟩
    · rintro rfl
      exact absurd hc (by decide)
    · rintro rfl
      exact absurd hc (by decide)
  have hshows := (Shows.part hstands).append (Shows.part (hrest.name hname))
  rwa [Part.text, List.append_assoc, List.singleton_append] at hshows

/-- In front of a gap a part that needs nothing behind it stands. -/
theorem stands_of_spaced {p : Part} (h : p.Sound nested) (halone : p.Alone) (hrest : Spaced rest)
    (hline : (Piece.part p).EndsLine → Ends (· != '\n') rest) : p.Stands nested rest := by
  refine ⟨h, ?_⟩
  cases p with
  | lineComment => exact hline trivial
  | verbatim => exact hrest.head_ne (by decide) (by decide)
  | quote | nameMark => exact absurd halone id
  | name cs => exact (show (Part.name cs).Stands nested rest from hrest.name h).endsAt
  | number => exact hrest.ends (by decide) (by decide)
  | other =>
    exact ⟨fun _ => ⟨hrest.head_ne (by decide) (by decide), hrest.head_ne (by decide) (by decide)⟩,
      fun _ => hrest.head_ne (by decide) (by decide)⟩
  | _ => trivial

theorem piece_shows {piece : Piece} (h : piece.Sound nested) (hrest : Spaced rest)
    (hline : piece.EndsLine → Ends (· != '\n') rest) :
    Shows nested piece.text rest (piece.comments ·) (piece.brackets ·) := by
  cases piece with
  | part p => exact Shows.part (stands_of_spaced h.1 h.2 hrest hline)
  | word cs => exact word_shows h hrest
  | marked mark name => exact marked_shows h.1 h.2 hrest
  | lifetime name => exact lifetime_shows h hrest

end

theorem IsGap.spaced {gap : List Char} (h : IsGap gap) (rest : List Char) :
    Spaced (gap ++ rest) := by
  obtain ⟨hne, hgap⟩ := h
  obtain ⟨c, gap, rfl⟩ := List.exists_cons_of_ne_nil hne
  intro d hd
  obtain rfl := Option.some.inj hd
  exact hgap _ List.mem_cons_self

theorem pieces_show {nested : Bool} {pieces : List (Piece × List Char)}
    (h : Separated nested pieces) :
    Shows nested (textOf pieces) [] (commentsOf · pieces) (bracketsOf · pieces) := by
  induction h with
  | nil => exact ⟨[], .nil [], fun _ => ⟨rfl, rfl⟩⟩
  | @last piece h =>
    have hshows : Shows nested piece.text [] _ _ := piece_shows h nofun fun _ => Text.ends_nil _
    obtain ⟨parts, hparts, hshown⟩ := hshows
    refine ⟨parts, ?_, fun line => ?_⟩
    · simpa only [textOf, textWithGap, List.flatMap_cons, List.flatMap_nil, List.append_nil]
        using hparts
    · rw [(hshown line).1, (hshown line).2]
      exact ⟨(List.append_nil _).symm, (List.append_nil _).symm⟩
  | @cons piece gap pieces h hgap hline _ ih =>
    have hends (rest : List Char) : piece.EndsLine → Ends (· != '\n') (gap ++ rest) := by
      intro hpiece
      obtain ⟨gap, rfl⟩ := List.head?_eq_some_iff.mp (hline hpiece)
      exact Text.ends_cons (by decide)
    obtain ⟨parts, hparts, hshown⟩ :=
      ((piece_shows h (hgap.spaced _) (hends _)).append (IsGap.shows hgap.2)).append ih
    refine ⟨parts, hparts, fun line => ?_⟩
    simpa only [commentsOf_cons, bracketsOf_cons, List.append_nil] using hshown line

/-- Of pieces with blanks and line ends between them, whose brackets are in balance, the scanner
finds the comments: in their order, with their texts, and on the lines on which they begin and
end. -/
theorem comments_pieces (p : Path) (pieces : List (Piece × List Char))
    (h : Separated (nestsComments p) pieces) (hbalanced : Balanced (bracketsOf 1 pieces)) :
    comments p (String.ofList (textOf pieces)) = .ok (commentsOf 1 pieces) := by
  obtain ⟨parts, hparts, hshown⟩ := pieces_show h
  rw [List.append_nil] at hparts
  have hmet : Met (nestsComments p) (textOf pieces) parts := ⟨[], hparts, .inl rfl⟩
  have hword : bracketsFrom 1 parts = bracketsOf 1 pieces := (hshown 1).2
  have hfound : commentsFrom 1 parts = commentsOf 1 pieces := (hshown 1).1
  rw [comments, String.toList_ofList, ← hfound]
  exact (scanFrom_met hmet).1 (hword ▸ hbalanced)

/-- Every kind of piece, with signs in the literals that mean nothing there. -/
theorem comments_pieces_all_kinds :
    let pieces : List (Piece × List Char) :=
      [(.part (.name ['f', 'n']), [' ']), (.part (.opening '('), ['\n']),
        (.lifetime ['a'], [' ']), (.part (.character '"'), [' ']),
        (.part (.escapedCharacter ['\\', '\'']), [' ']),
        (.part (.string ['/', '*', '\\', '"', '(']), [' ']),
        (.part (.raw ['r'] 1 ['"', '/', '/']), [' ']),
        (.part (.verbatim ['/', '*', '"', '"']), [' ']), (.word ['1', '.', '5'], [' ']),
        (.marked ['r'] ['i', 'f'], [' ']),
        (.part (.blockComment ['/', '*', '*', '/', '}', '\n']), [' ']),
        (.part (.lineComment ['\'', '"', '\r']), ['\n']), (.part (.closing ')'), [])]
    Separated (nestsComments ⟨"main.rs"⟩) pieces ∧ Balanced (bracketsOf 1 pieces) ∧
      textOf pieces = ("fn (\n'a '\"' '\\'' \"/*\\\"(\" r#\"\"//\"# @\"/*\"\"\" 1.5 r#if " ++
        "/*/**/\x7d\n*/ //'\"\r\n)").toList ∧
      comments ⟨"main.rs"⟩ (String.ofList (textOf pieces)) =
        .ok [⟨.block, "/*/**/\x7d\n*/".toList, 2, 3⟩, ⟨.line, "//'\"".toList, 3, 3⟩] := by
  intro pieces
  have hseparated : Separated (nestsComments ⟨"main.rs"⟩) pieces := by
    have hnested : nestsComments ⟨"main.rs"⟩ = true := by decide +kernel
    have hblank : IsGap [' '] := ⟨by decide, List.forall_mem_singleton.mpr (.inl rfl)⟩
    have hnewline : IsGap ['\n'] := ⟨by decide, List.forall_mem_singleton.mpr (.inr rfl)⟩
    have hname (c d : Char) (hc : Text.isNameStart c = true) (hd : Text.isNameChar d = true) :
        IsRun Text.isNameStart Text.isNameChar [c, d] :=
      ⟨c, [d], rfl, hc, List.forall_mem_singleton.mpr hd⟩
    have hlifetime : IsRun Text.isNameStart Text.isNameChar ['a'] :=
      ⟨'a', [], rfl, by decide, nofun⟩
    have hword : (Piece.word ['1', '.', '5']).Sound true :=
      List.forall_mem_cons.mpr ⟨by decide, List.forall_mem_cons.mpr ⟨by decide,
        List.forall_mem_singleton.mpr (by decide)⟩⟩
    have hstring : Escaped InString ['/', '*', '\\', '"', '('] :=
      .plain (show '/' ≠ '"' by decide) (by decide) <|
        .plain (show '*' ≠ '"' by decide) (by decide) <| .escape '"' <|
          .plain (show '(' ≠ '"' by decide) (by decide) .nil
    have houter : Nested ('}' :: '\n' :: blockEnd) :=
      .plain (by decide) (by decide) (.plain (by decide) (by decide) .close)
    have hblock : BlockBody true ['/', '*', '*', '/', '}', '\n'] := Nested.close.inner houter
    rw [hnested]
    refine .cons ⟨hname 'f' 'n' (by decide) (by decide), trivial⟩ hblank nofun ?_
    refine .cons ⟨show '(' ∈ openings by decide, trivial⟩ hnewline nofun ?_
    refine .cons hlifetime hblank nofun ?_
    refine .cons ⟨⟨by decide, by decide⟩, trivial⟩ hblank nofun ?_
    refine .cons ⟨⟨rfl, .escape '\'' .nil⟩, trivial⟩ hblank nofun ?_
    refine .cons ⟨hstring, trivial⟩ hblank nofun ?_
    refine .cons ⟨⟨by decide, by decide⟩, trivial⟩ hblank nofun ?_
    refine .cons ⟨.plain (by decide) (.plain (by decide) (.quotes .nil)), trivial⟩ hblank nofun ?_
    refine .cons hword hblank nofun ?_
    refine .cons ⟨by decide, hname 'i' 'f' (by decide) (by decide)⟩ hblank nofun ?_
    refine .cons ⟨hblock, trivial⟩ hblank nofun ?_
    refine .cons ⟨show '\n' ∉ ['\'', '"', '\r'] by decide, trivial⟩ hnewline (fun _ => rfl) ?_
    refine .last ⟨show ')' ∈ closings by decide, trivial⟩
  have hbalanced : Balanced (bracketsOf 1 pieces) :=
    Balanced.pair (o := ('(', 1)) (c := (')', 4)) (by decide) .nil .nil
  exact ⟨hseparated, hbalanced, by decide +kernel, comments_pieces _ pieces hseparated hbalanced⟩

end Source
end CheckScript
