/-
Words written down and read back.

`spelled` writes words with one blank between them, strings between quotes with the escapes of
the language.  The blank keeps neighbours apart that would make another word together, or the
beginning of a comment.
-/
import CheckScript.Proofs.Text.Runs
import CheckScript.Script.Tokenize
import Mathlib.Data.List.Forall2

namespace CheckScript
namespace Script

/-- The words in front of `rest` are of the given kinds, wherever the text begins. -/
def Spells (cs : List Char) (kinds : List TokenKind) (rest : List Char) : Prop :=
  ∀ p, ∃ q tokens, tokens.map Token.kind = kinds ∧
    tokensFrom p cs = (tokens ++ (tokensFrom q rest).1, (tokensFrom q rest).2)

namespace Spells

theorem trans {cs ds es : List Char} {ks ls : List TokenKind} (h : Spells cs ks ds)
    (h' : Spells ds ls es) : Spells cs (ks ++ ls) es := by
  intro p
  obtain ⟨q, tokens, hkinds, hcs⟩ := h p
  obtain ⟨r, tokens', hkinds', hds⟩ := h' q
  refine ⟨r, tokens ++ tokens', ?_, ?_⟩
  · rw [List.map_append, hkinds, hkinds']
  · rw [hcs, hds, List.append_assoc]

theorem word {c : Char} {cs rest : List Char} {kind : TokenKind}
    (h : ∀ p, ∃ q, stretch p c cs = .word kind p q rest) : Spells (c :: cs) [kind] rest := by
  intro p
  obtain ⟨q, hq⟩ := h p
  refine ⟨q, [⟨kind, p⟩], rfl, ?_⟩
  rw [tokensFrom, hq]
  rfl

theorem blank (ds : List Char) : Spells (' ' :: ds) [] ds := by
  intro p
  refine ⟨p.next ' ', [], rfl, ?_⟩
  rw [tokensFrom]
  rfl

end Spells

/-! ## One word -/

/-- The letters of a string literal that stand for `c`. -/
def escape (c : Char) : List Char :=
  match c with
  | '\n' => ['\\', 'n']
  | '\t' => ['\\', 't']
  | '\r' => ['\\', 'r']
  | '\x00' => ['\\', '0']
  | '"' => ['\\', '"']
  | '\\' => ['\\', '\\']
  | c => [c]

namespace TokenKind

def spelling : TokenKind → List Char
  | ident name => name.toList
  | int n => Nat.toDigits 10 n
  | str s => '"' :: (s.toList.flatMap escape ++ ['"'])
  | letWord => ['l', 'e', 't']
  | ifWord => ['i', 'f']
  | elseWord => ['e', 'l', 's', 'e']
  | whileWord => ['w', 'h', 'i', 'l', 'e']
  | forWord => ['f', 'o', 'r']
  | inWord => ['i', 'n']
  | checkpointWord => ['c', 'h', 'e', 'c', 'k', 'p', 'o', 'i', 'n', 't']
  | trueWord => ['t', 'r', 'u', 'e']
  | falseWord => ['f', 'a', 'l', 's', 'e']
  | nullWord => ['n', 'u', 'l', 'l']
  | leftParen => ['(']
  | rightParen => [')']
  | leftBrace => ['\x7b']
  | rightBrace => ['\x7d']
  | leftBracket => ['[']
  | rightBracket => [']']
  | comma => [',']
  | semicolon => [';']
  | dot => ['.']
  | equal => ['=']
  | equalEqual => ['=', '=']
  | bangEqual => ['!', '=']
  | less => ['<']
  | lessEqual => ['<', '=']
  | greater => ['>']
  | greaterEqual => ['>', '=']
  | plus => ['+']
  | minus => ['-']
  | star => ['*']
  | slash => ['/']
  | percent => ['%']
  | bang => ['!']
  | ampAmp => ['&', '&']
  | pipePipe => ['|', '|']
  | finish => []

end TokenKind

/-- A word of name characters that is no keyword. -/
def isName (name : String) : Bool :=
  match name.toList with
  | [] => false
  | c :: cs =>
    Text.isNameStart c && cs.all Text.isNameChar && TokenKind.ofWord name == .ident name

/-- Every word but the end of a script; names are names, integers in range. -/
def TokenKind.spellable : TokenKind → Bool
  | ident name => isName name
  | int n => Integer.fits n
  | finish => false
  | _ => true

/-- At the end of the text or in front of a blank. -/
def Apart (rest : List Char) : Prop := rest = [] ∨ ∃ ds, rest = ' ' :: ds

theorem Apart.ends {f : Char → Bool} {rest : List Char} (hrest : Apart rest)
    (hblank : f ' ' = false) : Text.Ends f rest := by
  rcases hrest with rfl | ⟨ds, rfl⟩
  · exact Text.ends_nil f
  · exact Text.ends_cons hblank

/-- Whether what begins with `c` is a comment. -/
def OpensComment (c : Char) (cs : List Char) : Prop :=
  c = '/' ∧ (cs.head? = some '/' ∨ cs.head? = some '*')

/-- What is neither a comment nor a literal is told by its first character. -/
theorem stretch_other {c : Char} {cs : List Char} (hquote : c ≠ '"') (hcomment : ¬OpensComment c cs)
    (p : Position) :
    stretch p c cs =
      if isScriptBlank c then .blank (p.next c) cs
      else if Text.isDigit c then readNumber p c cs
      else if Text.isNameStart c then readName p c cs
      else
        match cs.head?.bind (doubleWord c) with
        | some kind => .word kind p ((p.next c).after (cs.take 1)) (cs.drop 1)
        | none =>
          match simpleWord c with
          | some kind => .word kind p (p.next c) cs
          | none => .bad (.unexpectedCharacter c) p (p.next c) cs := by
  have hline : ∀ rest, c = '/' → cs = '/' :: rest → False := by
    rintro rest hc rfl
    exact hcomment ⟨hc, .inl rfl⟩
  have hblock : ∀ rest, c = '/' → cs = '*' :: rest → False := by
    rintro rest hc rfl
    exact hcomment ⟨hc, .inr rfl⟩
  rw [stretch] <;> first | rfl | assumption

/-- A class of characters without blanks, quotes and slashes begins words of its own. -/
theorem plain_of_class {f : Char → Bool} {c : Char} (hc : f c = true)
    (hf : ['/', '"', ' ', '\r', '\t', '\n'].all (!f ·) = true) (cs : List Char) :
    c ≠ '"' ∧ ¬OpensComment c cs ∧ isScriptBlank c = false := by
  have hplain : c ∉ ['/', '"', ' ', '\r', '\t', '\n'] := by
    intro hmem
    have hnot := List.all_eq_true.mp hf c hmem
    rw [hc] at hnot
    cases hnot
  simp only [List.mem_cons, List.not_mem_nil, or_false, not_or] at hplain
  obtain ⟨hslash, hquote, hblanks⟩ := hplain
  exact ⟨hquote, fun h => hslash h.1, by simp [isScriptBlank, hblanks]⟩

theorem readNumber_digits {n : Nat} (hn : Integer.fits n = true) (p : Position) {c : Char}
    {cs rest : List Char} (hdigits : Nat.toDigits 10 n = c :: cs) (hrest : Apart rest) :
    ∃ q, readNumber p c (cs ++ rest) = .word (.int n) p q rest := by
  have hdigit : ∀ d ∈ cs, Text.isDigit d = true := fun d hd =>
    Integer.isDigit_of_mem_toDigits (hdigits ▸ List.mem_cons_of_mem c hd)
  have hgap : ∀ d ∈ cs, isDigitOrGap d = true := fun d hd => by
    rw [isDigitOrGap, hdigit d hd, Bool.true_or]
  have hblank : isDigitOrGap ' ' = false := rfl
  unfold readNumber
  simp only
  rw [Text.takeWhile_run hgap (hrest.ends hblank), Text.dropWhile_run hgap (hrest.ends hblank),
    List.filter_eq_self.mpr hdigit, ← hdigits, Integer.ofDigits_toDigits, if_pos hn]
  exact ⟨_, rfl⟩

theorem readName_name (p : Position) {c : Char} {cs rest : List Char}
    (hall : cs.all Text.isNameChar = true) (hrest : Apart rest) :
    ∃ q, readName p c (cs ++ rest) = .word (.ofWord (String.ofList (c :: cs))) p q rest := by
  have hname : ∀ d ∈ cs, Text.isNameChar d = true := List.all_eq_true.mp hall
  have hblank : Text.isNameChar ' ' = false := rfl
  unfold readName
  simp only
  rw [Text.takeWhile_run hname (hrest.ends hblank), Text.dropWhile_run hname (hrest.ends hblank)]
  exact ⟨_, rfl⟩

theorem stretch_name (p : Position) {c : Char} {cs rest : List Char}
    (hstart : Text.isNameStart c = true) (hall : cs.all Text.isNameChar = true)
    (hrest : Apart rest) :
    ∃ q, stretch p c (cs ++ rest) = .word (.ofWord (String.ofList (c :: cs))) p q rest := by
  obtain ⟨hquote, hcomment, hblank⟩ := plain_of_class hstart rfl (cs ++ rest)
  rw [stretch_other hquote hcomment, hblank, Text.isDigit_of_isNameStart hstart, hstart]
  exact readName_name p hall hrest

theorem stretch_number {n : Nat} (hn : Integer.fits n = true) (p : Position) {c : Char}
    {cs rest : List Char} (hdigits : Nat.toDigits 10 n = c :: cs) (hrest : Apart rest) :
    ∃ q, stretch p c (cs ++ rest) = .word (.int n) p q rest := by
  have hdigit : Text.isDigit c = true :=
    Integer.isDigit_of_mem_toDigits (hdigits ▸ List.mem_cons_self)
  obtain ⟨hquote, hcomment, hblank⟩ := plain_of_class hdigit rfl (cs ++ rest)
  rw [stretch_other hquote hcomment, hblank, hdigit]
  exact readNumber_digits hn p hdigits hrest

theorem readString_escape {c d : Char} (h : unescape c = some d) (p : Position)
    (cs : List Char) :
    readString p ('\\' :: c :: cs) =
      let r := readString ((p.next '\\').next c) cs
      { r with value := d :: r.value } := by
  rw [readString, h]

theorem readString_plain {c : Char} (hline : c ≠ '\n') (hquote : c ≠ '"') (hescape : c ≠ '\\')
    (p : Position) (cs : List Char) :
    readString p (c :: cs) =
      let r := readString (p.next c) cs
      { r with value := c :: r.value } := by
  rw [readString]
  · exact hline
  · exact hquote
  · exact fun h _ => hescape h
  · exact fun _ _ h _ => hescape h

theorem readString_escaped (p : Position) (cs rest : List Char) :
    ∃ q, readString p (cs.flatMap escape ++ '"' :: rest) = ⟨cs, [], true, q, rest⟩ := by
  induction cs generalizing p with
  | nil =>
    refine ⟨p.next '"', ?_⟩
    rw [List.flatMap_nil, List.nil_append, readString]
  | cons c cs ih =>
    rw [List.flatMap_cons, List.append_assoc]
    -- what follows is only read through `ih`
    generalize cs.flatMap escape ++ '"' :: rest = tail at ih ⊢
    have hescaped {a b : Char} (h : unescape a = some b) : ∃ q,
        readString p ('\\' :: a :: tail) = ⟨b :: cs, [], true, q, rest⟩ := by
      obtain ⟨q, hq⟩ := ih ((p.next '\\').next a)
      refine ⟨q, ?_⟩
      rw [readString_escape h, hq]
    unfold escape
    split
    · exact hescaped rfl
    · exact hescaped rfl
    · exact hescaped rfl
    · exact hescaped rfl
    · exact hescaped rfl
    · exact hescaped rfl
    · rename_i hline _ _ _ hquote hescape
      obtain ⟨q, hq⟩ := ih (p.next c)
      refine ⟨q, ?_⟩
      rw [List.singleton_append, readString_plain hline hquote hescape, hq]

theorem stretch_string (p : Position) (s : String) (rest : List Char) :
    ∃ q, stretch p '"' (s.toList.flatMap escape ++ '"' :: rest) = .word (.str s) p q rest := by
  obtain ⟨q, hq⟩ := readString_escaped (p.next '"') s.toList rest
  refine ⟨q, ?_⟩
  have hstretch : stretch p '"' (s.toList.flatMap escape ++ '"' :: rest) =
      readStringWord p (s.toList.flatMap escape ++ '"' :: rest) := rfl
  rw [hstretch, readStringWord, hq]
  simp only [if_true, String.ofList_toList]
  rfl

theorem spelling_spells {k : TokenKind} (hk : k.spellable = true) {rest : List Char}
    (hrest : Apart rest) : Spells (k.spelling ++ rest) [k] rest := by
  have hname {c : Char} {cs : List Char} {kind : TokenKind}
      (hkind : TokenKind.ofWord (String.ofList (c :: cs)) = kind)
      (hstart : Text.isNameStart c = true) (hall : cs.all Text.isNameChar = true) :
      Spells (c :: (cs ++ rest)) [kind] rest :=
    .word fun p => hkind ▸ stretch_name p hstart hall hrest
  cases k with
  | ident name =>
    rw [TokenKind.spellable, isName] at hk
    rw [TokenKind.spelling]
    cases hlist : name.toList with
    | nil =>
      rw [hlist] at hk
      cases hk
    | cons c cs =>
      rw [hlist] at hk
      simp only [Bool.and_eq_true, beq_iff_eq] at hk
      obtain ⟨⟨hstart, hall⟩, hword⟩ := hk
      exact hname (by rw [← hlist, String.ofList_toList, hword]) hstart hall
  | int n =>
    rw [TokenKind.spelling]
    cases hdigits : Nat.toDigits 10 n with
    | nil => exact absurd hdigits Nat.toDigits_ne_nil
    | cons c cs => exact .word fun p => stretch_number hk p hdigits hrest
  | str s =>
    rw [TokenKind.spelling, List.cons_append, List.append_assoc]
    exact .word fun p => stretch_string p s rest
  | finish => cases hk
  | letWord | ifWord | elseWord | whileWord | forWord | inWord | checkpointWord | trueWord
  | falseWord | nullWord => exact hname rfl rfl rfl
  | _ =>
    rcases hrest with rfl | ⟨ds, rfl⟩
    · exact .word fun p => ⟨_, rfl⟩
    · exact .word fun p => ⟨_, rfl⟩

/-! ## Many words -/

/-- The texts of a word.  A declaration of a variable begins with either of two. -/
inductive TokenKind.SpelledAs : TokenKind → List Char → Prop where
  | spelling (k : TokenKind) : SpelledAs k k.spelling
  | var : SpelledAs .letWord ['v', 'a', 'r']

theorem TokenKind.SpelledAs.spells {k : TokenKind} {text : List Char} (h : k.SpelledAs text)
    (hk : k.spellable = true) {rest : List Char} (hrest : Apart rest) :
    Spells (text ++ rest) [k] rest := by
  cases h with
  | spelling => exact spelling_spells hk hrest
  | var =>
    have hvar : TokenKind.ofWord (String.ofList ['v', 'a', 'r']) = .letWord := rfl
    exact .word fun p => hvar ▸ stretch_name p rfl rfl hrest

/-- One blank is enough between any two words. -/
theorem joined_spells {kinds : List TokenKind} {texts : List (List Char)}
    (htexts : List.Forall₂ TokenKind.SpelledAs kinds texts)
    (hkinds : ∀ k ∈ kinds, k.spellable = true) : Spells ([' '].intercalate texts) kinds [] := by
  induction htexts with
  | nil => exact fun p => ⟨p, [], rfl, rfl⟩
  | @cons k text kinds texts htext htexts ih =>
    obtain ⟨hk, hothers⟩ := List.forall_mem_cons.mp hkinds
    have hrest := ih hothers
    cases htexts with
    | nil =>
      have hword := htext.spells hk (.inl rfl)
      rw [List.append_nil] at hword
      rwa [List.intercalate_singleton]
    | @cons l other kinds texts =>
      have hword := htext.spells hk (.inr ⟨[' '].intercalate (other :: texts), rfl⟩)
      exact (hword.trans (.blank _)).trans hrest

theorem Spells.tokenize {cs : List Char} {kinds : List TokenKind} (h : Spells cs kinds []) :
    ∃ tokens finish, tokens.map Token.kind = kinds ∧ finish.kind = .finish ∧
      tokenize (String.ofList cs) = (tokens ++ [finish], []) := by
  obtain ⟨q, tokens, hkinds, htokens⟩ := h .start
  refine ⟨tokens, ⟨.finish, q⟩, hkinds, rfl, ?_⟩
  rw [Script.tokenize, String.toList_ofList, htokens, tokensFrom]

def spelled (kinds : List TokenKind) : List Char :=
  [' '].intercalate (kinds.map TokenKind.spelling)

theorem tokenize_spelled {kinds : List TokenKind} (h : ∀ k ∈ kinds, k.spellable = true) :
    ∃ tokens finish, tokens.map Token.kind = kinds ∧ finish.kind = .finish ∧
      tokenize (String.ofList (spelled kinds)) = (tokens ++ [finish], []) := by
  have htexts : List.Forall₂ TokenKind.SpelledAs kinds (kinds.map TokenKind.spelling) :=
    List.forall₂_map_right_iff.mpr (List.forall₂_same.mpr fun k _ => .spelling k)
  exact (joined_spells htexts h).tokenize

/-- Words of any kinds, written with one blank between each and the next, are read as words of
those kinds, with nothing wrong in the text. -/
theorem tokenize_joined {kinds : List TokenKind} {texts : List (List Char)}
    (hkinds : ∀ k ∈ kinds, k.spellable = true)
    (htexts : List.Forall₂ TokenKind.SpelledAs kinds texts) :
    (tokenize (String.ofList ([' '].intercalate texts))).1.map Token.kind = kinds ++ [.finish] ∧
      (tokenize (String.ofList ([' '].intercalate texts))).2 = [] := by
  obtain ⟨tokens, finish, hall, hfinish, htokenize⟩ := (joined_spells htexts hkinds).tokenize
  rw [htokenize, List.map_append, List.map_singleton, hall, hfinish]
  exact ⟨rfl, rfl⟩

/-- Neighbours that would make another word or a comment, both words for a declaration, the
greatest integer, and a string with every escape. -/
def neighbours : List (TokenKind × List Char) :=
  [(.letWord, "let".toList), (.letWord, "var".toList), (.ident "variable", "variable".toList),
    (.equal, "=".toList), (.equal, "=".toList), (.equalEqual, "==".toList),
    (.slash, "/".toList), (.slash, "/".toList), (.star, "*".toList),
    (.int 9223372036854775807, "9223372036854775807".toList),
    (.str "/*\n\t\r\x00\"\\é", "\"/*\\n\\t\\r\\0\\\"\\\\é\"".toList),
    (.bang, "!".toList), (.bangEqual, "!=".toList)]

theorem tokenize_joined_neighbours :
    (∀ k ∈ neighbours.map Prod.fst, k.spellable = true) ∧
      List.Forall₂ TokenKind.SpelledAs (neighbours.map Prod.fst) (neighbours.map Prod.snd) ∧
      (tokenize (String.ofList ([' '].intercalate (neighbours.map Prod.snd)))).1.map Token.kind =
        neighbours.map Prod.fst ++ [.finish] ∧
      (tokenize (String.ofList ([' '].intercalate (neighbours.map Prod.snd)))).2 = [] := by
  have hkinds : ∀ k ∈ neighbours.map Prod.fst, k.spellable = true :=
    List.all_eq_true.mp (by decide +kernel)
  have htexts :
      List.Forall₂ TokenKind.SpelledAs (neighbours.map Prod.fst) (neighbours.map Prod.snd) := by
    have hself (k : TokenKind) {text : List Char} (h : k.spelling = text) : k.SpelledAs text :=
      h ▸ .spelling k
    refine .cons (hself _ rfl) (.cons .var ?_)
    iterate 11 refine .cons (hself _ (by decide +kernel)) ?_
    exact .nil
  exact ⟨hkinds, htexts, tokenize_joined hkinds htexts⟩

end Script
end CheckScript
