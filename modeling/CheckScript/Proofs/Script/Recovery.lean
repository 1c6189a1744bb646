/-
A problem with one statement leaves the others alone.

A statement that cannot be read is given up in front of its semicolon, and skipping stops behind
it.  What is read there is as if the script began there, since a statement does not look at what
follows it.
-/
import CheckScript.Proofs.Script.Semicolons
import CheckScript.Proofs.Script.Soundness
import Mathlib.Data.List.Forall2

namespace CheckScript
namespace Script
namespace Parser

/-! ## Skipping -/

theorem statementsUntil_skip {closing : Option TokenKind} {p : Parser Stmt} {s t : State}
    (hne : s.rest ≠ []) (hclosing : some s.head.kind ≠ closing) (h : p s = (none, t))
    (hlength : (recover t).rest.length < s.rest.length) :
    statementsUntil closing p s = statementsUntil closing p (recover t) := by
  rw [statementsUntil, dif_neg hne, if_neg hclosing, h]
  simp only [onward_of_lt hlength]

theorem skipStatement_semicolon {ts : List Token} {last : Token} (hlast : last.kind = .semicolon)
    (hts : ∀ t ∈ ts, t.kind ≠ .semicolon ∧ t.kind.stopsSkipping = false) (more : List Token) :
    skipStatement (ts ++ last :: more) = more := by
  induction ts with
  | nil => rw [List.nil_append, skipStatement, hlast]
  | cons t ts ih =>
    obtain ⟨⟨hsemicolon, hstops⟩, hts⟩ := List.forall_mem_cons.mp hts
    rw [List.cons_append, skipStatement]
    split
    · rename_i ht
      exact absurd ht hsemicolon
    iterate 6
      rename_i ht
      rw [ht] at hstops
      cases hstops
    · exact ih hts

end Parser

open CheckScript.Script.Parser

/-- The mark of the end. -/
def mark (place : Position) : Token := ⟨.finish, place⟩

/-- Words that are one statement by themselves.  Where the end is marked is of no importance
(`Whole.statement`). -/
structure Whole (words : List Token) (stmt : Stmt) : Prop where
  marked : ∀ t ∈ words, t.kind ≠ .finish
  read : ∃ place, parse (words ++ [mark place]) = (⟨[stmt]⟩, [])

/-- Words up to a semicolon that are no statement, and among which none can begin. -/
structure Broken (words : List Token) : Prop where
  ends : ∃ front last, words = front ++ [last] ∧ last.kind = .semicolon ∧
    ∀ t ∈ front, t.kind ≠ .semicolon
  plain : ∀ t ∈ words, t.kind ≠ .finish ∧ t.kind ≠ .leftBrace ∧ t.kind ≠ .rightBrace
  first : ∀ t, words.head? = some t → t.kind ≠ .elseWord
  others : ∀ t ∈ words.tail, t.kind.opensStatement = false
  unread : ∃ place, ∀ stmt, parse (words ++ [mark place]) ≠ (⟨[stmt]⟩, [])

/-- A part of a script with a statement, or with a problem. -/
inductive Chunk where
  | whole (words : List Token) (stmt : Stmt) (h : Whole words stmt)
  | broken (words : List Token) (h : Broken words)

namespace Chunk

def words : Chunk → List Token
  | whole words _ _ => words
  | broken words _ => words

def stmt? : Chunk → Option Stmt
  | whole _ stmt _ => some stmt
  | broken _ _ => none

def broken? : Chunk → Option (List Token)
  | whole _ _ _ => none
  | broken words _ => some words

end Chunk

section

variable {place : Position} {words : List Token} {stmt : Stmt}

theorem parse_words (hwords : ∀ t ∈ words, t.kind ≠ .finish) :
    parse (words ++ [mark place]) =
      (⟨(statementsUntil none (statement maxNesting) ⟨words, mark place, []⟩).1⟩,
        (statementsUntil none (statement maxNesting) ⟨words, mark place, []⟩).2.diagnostics) := by
  have hstart : State.ofTokens (words ++ [mark place]) = ⟨words, mark place, []⟩ :=
    ofTokens_append hwords rfl
  unfold parse
  rw [hstart]

theorem statementsUntil_length_le (closing : Option TokenKind) (room : Nat) {s : State}
    (hfinish : s.finish.kind = .finish) :
    s.diagnostics.length ≤ (statementsUntil closing (statement room) s).2.diagnostics.length :=
  (statementsUntil_outcome closing (reads_statement room) hfinish).length_le

/-- A script without a report has its first statement read without one. -/
theorem statement_of_quiet {room : Nat} {s u : State} {ss : List Stmt}
    (hfinish : s.finish.kind = .finish)
    (h : statementsUntil none (statement room) s = (stmt :: ss, u)) (hu : u.diagnostics = []) :
    ∃ t, statement room s = (some stmt, t) ∧ t.finish = s.finish ∧ t.diagnostics = [] ∧
      statementsUntil none (statement room) t = (ss, u) := by
  have hne : s.rest ≠ [] := by
    intro hnil
    rw [statementsUntil_end (.inl hnil)] at h
    cases h
  have hread := reads_statement room s.head s hfinish rfl
  cases hst : statement room s with | mk found t => ?_
  rw [hst] at hread
  have hmark : t.finish.kind = .finish := hread.finish_eq ▸ hfinish
  cases found with
  | none =>
    cases hread with
    | reported _ hmore =>
      rw [statementsUntil, dif_neg hne, if_neg (Option.some_ne_none _), hst] at h
      have hle := statementsUntil_length_le none room (s := onward s (recover t))
        (by rw [onward_finish]; exact hmark)
      simp only at h
      rw [h, onward_diagnostics, hu] at hle
      exact absurd (Nat.lt_of_lt_of_le hmore hle) (Nat.not_lt_zero _)
  | some stmt' =>
    have hshort := statement_passes hfinish hst
    rw [statementsUntil_cons hne (Option.some_ne_none _) hst hshort] at h
    obtain ⟨hss, hend⟩ := Prod.ext_iff.mp h
    obtain ⟨rfl, hothers⟩ := List.cons.inj hss
    refine ⟨t, rfl, hread.finish_eq, ?_, Prod.ext hothers hend⟩
    have hle := statementsUntil_length_le none room hmark
    rw [hend, hu] at hle
    exact List.eq_nil_of_length_eq_zero (Nat.le_zero.mp hle)

/-- A script without a report and without statements has no words. -/
theorem rest_of_quiet {room : Nat} {t u : State} (hfinish : t.finish.kind = .finish)
    (h : statementsUntil none (statement room) t = ([], u)) (hu : u.diagnostics = []) :
    t.rest = [] := by
  have houtcome := statementsUntil_outcome none (reads_statement room) hfinish
  rw [h] at houtcome
  cases houtcome with
  | reported _ hmore =>
    rw [hu] at hmore
    exact absurd hmore (Nat.not_lt_zero _)
  | passed hrest hss =>
    obtain ⟨hss, hend⟩ := hss
    cases hss
    rw [hrest, hend rfl]
    rfl

theorem Whole.statement (h : Whole words stmt) (place : Position) :
    statement maxNesting ⟨words, mark place, []⟩ = (some stmt, ⟨[], mark place, []⟩) := by
  obtain ⟨first, hread⟩ := h.read
  rw [parse_words h.marked] at hread
  obtain ⟨hss, hreports⟩ := Prod.ext_iff.mp hread
  obtain ⟨⟨rest, finish, reports⟩, hst, hfinish, hquiet, hothers⟩ := statement_of_quiet
    (s := ⟨words, mark first, []⟩) rfl (Prod.ext (Program.mk.inj hss) rfl) hreports
  obtain rfl : finish = mark first := hfinish
  obtain rfl : reports = [] := hquiet
  obtain rfl : rest = [] := rest_of_quiet rfl hothers hreports
  -- another mark is nothing but another frame around the same words
  have hnone : NoElse [] := fun u hu => absurd hu.symm (Option.some_ne_none u)
  have hframe := statement_within maxNesting ⟨[], [], mark place, rfl⟩ hnone rfl hst
  unfold State.within at hframe
  rwa [List.append_nil] at hframe

theorem parse_of_statement (hwords : ∀ t ∈ words, t.kind ≠ .finish)
    (h : statement maxNesting ⟨words, mark place, []⟩ = (some stmt, ⟨[], mark place, []⟩)) :
    parse (words ++ [mark place]) = (⟨[stmt]⟩, []) := by
  have hshort := statement_passes rfl h
  have hne : words ≠ [] := List.ne_nil_of_length_pos hshort
  rw [parse_words hwords, statementsUntil_cons hne (Option.some_ne_none _) h hshort,
    statementsUntil_end (.inl rfl)]

theorem Broken.unbraced (h : Broken words) (place : Position) : Unbraced ⟨words, mark place, []⟩ :=
  ⟨rfl, fun t ht => (h.plain t ht).2.1⟩

/-- Skipping goes on to the semicolon. -/
theorem Broken.skips (h : Broken words) {t : State}
    (hst : statement maxNesting ⟨words, mark place, []⟩ = (none, t)) :
    ∀ u ∈ t.rest, u.kind.stopsSkipping = false := by
  have hstops : ∀ u ∈ words, u.kind.opensStatement = false → u.kind.stopsSkipping = false :=
    fun u hu hopens => TokenKind.stopsSkipping_eq_false hopens (h.plain u hu).2.2
  have hbehind := (statement_behind maxNesting ⟨words, mark place, []⟩).1
  rw [hst] at hbehind
  cases words with
  | nil =>
    rw [List.suffix_nil.mp hbehind]
    exact List.forall_mem_nil _
  | cons w ws =>
    have htail : ∀ u ∈ ws, u.kind.stopsSkipping = false := fun u hu =>
      hstops u (List.mem_cons_of_mem w hu) (h.others u hu)
    rcases List.suffix_cons_iff.mp hbehind with hsame | htailSuffix
    · -- no word has been passed, so the first one does not begin a statement of its own
      have hopens : w.kind.opensStatement = false := by
        refine Bool.eq_false_iff.mpr fun hopens => ?_
        have hshort := statement_shorter (s := ⟨w :: ws, mark place, []⟩) maxNesting rfl hopens
        rw [hst, hsame] at hshort
        exact Nat.lt_irrefl _ hshort
      rw [hsame]
      exact List.forall_mem_cons.mpr ⟨hstops w List.mem_cons_self hopens, htail⟩
    · exact fun u hu => htail u (htailSuffix.subset hu)

/-- What is left in front of a last semicolon holds it, or nothing is left. -/
theorem suffix_semicolon {front rest : List Token} {last : Token} (hlast : last.kind = .semicolon)
    (h : rest <:+ front ++ [last]) :
    rest = [] ∨ ∃ us, us <:+ front ∧ rest = us ++ [last] ∧ 0 < semicolons rest := by
  refine (List.suffix_concat_iff.mp h).imp_right fun ⟨us, hus, hfront⟩ => ⟨us, hfront, hus, ?_⟩
  rw [hus, semicolons, List.countP_append, ← semicolons, ← semicolons,
    semicolons_semicolon [] hlast]
  exact Nat.succ_pos _

/-- A statement that cannot be read is given up in front of its semicolon. -/
theorem Broken.statement (h : Broken words) :
    ∃ place t d, statement maxNesting ⟨words, mark place, []⟩ = (none, t) ∧ t.rest ≠ [] ∧
      (∃ u ∈ words, d.place = u.place) ∧
      ∀ frame : Frame,
        recover (t.within frame) = ⟨frame.more, frame.finish, frame.before ++ [d]⟩ := by
  obtain ⟨place, hunread⟩ := h.unread
  obtain ⟨front, last, rfl, hlast, hfront⟩ := h.ends
  have hone : semicolons (front ++ [last]) = 1 := by
    rw [semicolons, List.countP_append, List.countP_eq_zero.mpr, ← semicolons,
      semicolons_semicolon [] hlast]
    · rfl
    · exact fun t ht => mt beq_iff_eq.mp (hfront t ht)
  have hpasses := statement_careful maxNesting _ _ (h.unbraced place) rfl
  cases hst : Parser.statement maxNesting ⟨front ++ [last], mark place, []⟩ with | mk found t => ?_
  rw [hst] at hpasses
  cases hpasses with
  | @value stmt _ hbehind hsemicolons hreports =>
    obtain ⟨rest, finish, reports⟩ := t
    obtain rfl : finish = mark place := hbehind.2
    obtain rfl : reports = [] := hreports
    rw [hone] at hsemicolons
    rcases suffix_semicolon hlast hbehind.1 with hnil | ⟨us, -, -, hpos⟩
    · obtain rfl : rest = [] := hnil
      exact absurd (parse_of_statement (fun t ht => (h.plain t ht).1) hst) (hunread stmt)
    · omega
  | @problem _ problem hbehind hsemicolons hreports =>
    rw [hone] at hsemicolons
    rcases suffix_semicolon hlast hbehind.1 with hnil | ⟨us, hus, hrest, -⟩
    · rw [hnil] at hsemicolons
      cases hsemicolons
    · have hne : t.rest ≠ [] := by
        rw [hrest]
        exact List.append_ne_nil_of_right_ne_nil _ (List.cons_ne_nil _ _)
      have hhead : t.head ∈ t.rest := by
        obtain ⟨u, rest, hcons⟩ := List.exists_cons_of_ne_nil hne
        rw [State.head, hcons]
        exact List.mem_cons_self
      have hskip : ∀ u ∈ us, u.kind ≠ .semicolon ∧ u.kind.stopsSkipping = false := fun u hu =>
        ⟨hfront u (hus.subset hu), h.skips hst u (hrest ▸ List.mem_append_left _ hu)⟩
      refine ⟨place, t, ⟨t.head.place, problem⟩, hst, hne, ⟨t.head, hbehind.1.subset hhead, rfl⟩,
        fun frame => ?_⟩
      unfold recover State.within
      simp only [hrest, hreports, List.append_assoc, List.singleton_append,
        skipStatement_semicolon hlast hskip]
      rfl

/-! ## Chunk by chunk -/

/-- Behind a statement the script goes on as if it began there. -/
theorem Whole.onward (h : Whole words stmt) (frame : Frame) (helse : NoElse frame.more) :
    statementsUntil none (Parser.statement maxNesting)
        ⟨words ++ frame.more, frame.finish, frame.before⟩ =
      (stmt :: (statementsUntil none (Parser.statement maxNesting)
          ⟨frame.more, frame.finish, frame.before⟩).1,
        (statementsUntil none (Parser.statement maxNesting)
          ⟨frame.more, frame.finish, frame.before⟩).2) := by
  have hst := statement_within maxNesting frame helse rfl (h.statement .start)
  unfold State.within at hst
  rw [List.append_nil, List.nil_append] at hst
  have hshort := statement_passes frame.marked hst
  have hne : words ++ frame.more ≠ [] := List.ne_nil_of_length_pos (Nat.zero_lt_of_lt hshort)
  exact statementsUntil_cons hne (Option.some_ne_none _) hst hshort

/-- Behind a problem, too. -/
theorem Broken.onward (h : Broken words) :
    ∃ d, (∃ u ∈ words, d.place = u.place) ∧ ∀ frame : Frame,
      statementsUntil none (Parser.statement maxNesting)
          ⟨words ++ frame.more, frame.finish, frame.before⟩ =
        statementsUntil none (Parser.statement maxNesting)
          ⟨frame.more, frame.finish, frame.before ++ [d]⟩ := by
  obtain ⟨place, t, d, hst, hne, hplace, hrecover⟩ := h.statement
  obtain ⟨front, last, hends, -⟩ := h.ends
  have hwords : 0 < words.length := by
    rw [hends, List.length_append]
    exact Nat.succ_pos _
  refine ⟨d, hplace, fun frame => ?_⟩
  have hlong := (statement_local maxNesting).agree ⟨words, mark place, []⟩ frame (hst ▸ hne)
  rw [hst] at hlong
  unfold State.within at hlong
  rw [List.append_nil] at hlong
  rw [← hrecover frame]
  refine statementsUntil_skip ?_ (Option.some_ne_none _) hlong ?_
  · exact List.append_ne_nil_of_left_ne_nil (List.ne_nil_of_length_pos hwords) _
  · rw [show (recover _).rest = frame.more from congrArg State.rest (hrecover frame),
      List.length_append]
    exact Nat.lt_add_of_pos_left hwords

theorem Chunk.begins (c : Chunk) : ∃ t us, c.words = t :: us ∧ t.kind ≠ .elseWord := by
  cases c with
  | whole words stmt h =>
    obtain ⟨place, hread⟩ := h.read
    have hderives := @derives_of_parse words (mark place) h.marked rfl (by rw [hread])
    rw [hread] at hderives
    cases hderives with
    | @cons ts us _ _ hstmt _ =>
      obtain ⟨t, us, rfl, ht⟩ := hstmt.begins
      refine ⟨t, _, rfl, fun hkind => ?_⟩
      rw [hkind] at ht
      cases ht
  | broken words h =>
    obtain ⟨front, last, hends, -⟩ := h.ends
    cases words with
    | nil => exact absurd hends.symm (List.append_ne_nil_of_right_ne_nil _ (List.cons_ne_nil _ _))
    | cons t us => exact ⟨t, us, rfl, h.first t rfl⟩

theorem Chunk.no_else (chunks : List Chunk) : NoElse (chunks.flatMap Chunk.words) := by
  cases chunks with
  | nil => exact nofun
  | cons c chunks =>
    obtain ⟨t, us, hwords, ht⟩ := c.begins
    intro u hu
    rw [List.flatMap_cons, hwords] at hu
    obtain rfl : t = u := Option.some.inj hu
    exact ht

/-- A problem is with a word of its chunk, and the chunk alone has just this problem. -/
def Blamed (words : List Token) (d : Diagnostic) : Prop :=
  (∀ place, parse (words ++ [mark place]) = (⟨[]⟩, [d])) ∧ ∃ t ∈ words, d.place = t.place

theorem Broken.blamed (h : Broken words) : ∃ d, Blamed words d ∧ ∀ frame : Frame,
    statementsUntil none (Parser.statement maxNesting)
        ⟨words ++ frame.more, frame.finish, frame.before⟩ =
      statementsUntil none (Parser.statement maxNesting)
        ⟨frame.more, frame.finish, frame.before ++ [d]⟩ := by
  obtain ⟨d, hplace, honward⟩ := h.onward
  refine ⟨d, ⟨fun place => ?_, hplace⟩, honward⟩
  have halone := honward ⟨[], [], mark place, rfl⟩
  rw [List.append_nil] at halone
  rw [parse_words fun t ht => (h.plain t ht).1, halone, statementsUntil_end (.inl rfl)]
  rfl

theorem statementsUntil_chunks (place : Position) (chunks : List Chunk)
    (before : List Diagnostic) :
    ∃ after, statementsUntil none (Parser.statement maxNesting)
        ⟨chunks.flatMap Chunk.words, mark place, before⟩ =
      (chunks.filterMap Chunk.stmt?, ⟨[], mark place, before ++ after⟩) ∧
      List.Forall₂ Blamed (chunks.filterMap Chunk.broken?) after := by
  induction chunks generalizing before with
  | nil => exact ⟨[], by rw [List.append_nil]; exact statementsUntil_end (.inl rfl), .nil⟩
  | cons c chunks ih =>
    let frame : Frame := ⟨before, chunks.flatMap Chunk.words, mark place, rfl⟩
    rw [List.flatMap_cons]
    cases c with
    | whole words stmt h =>
      obtain ⟨after, hrest, hblamed⟩ := ih before
      refine ⟨after, ?_, hblamed⟩
      rw [Chunk.words, h.onward frame (Chunk.no_else chunks), hrest]
      rfl
    | broken words h =>
      obtain ⟨d, hd, honward⟩ := h.blamed
      obtain ⟨after, hrest, hblamed⟩ := ih (before ++ [d])
      refine ⟨d :: after, ?_, .cons hd hblamed⟩
      rw [Chunk.words, honward frame, hrest, List.append_assoc]
      rfl

/-- The script of the chunks has the statements of those that are one, and one problem for each
of the others, both in their order.  Each problem is with a word of its chunk. -/
theorem parse_chunks (place : Position) (chunks : List Chunk) :
    (parse (chunks.flatMap Chunk.words ++ [mark place])).1.stmts =
        chunks.filterMap Chunk.stmt? ∧
      List.Forall₂ Blamed (chunks.filterMap Chunk.broken?)
        (parse (chunks.flatMap Chunk.words ++ [mark place])).2 := by
  obtain ⟨after, hread, hblamed⟩ := statementsUntil_chunks place chunks []
  have hwords : ∀ t ∈ chunks.flatMap Chunk.words, t.kind ≠ .finish := by
    intro t ht
    obtain ⟨c, -, ht⟩ := List.mem_flatMap.mp ht
    cases c with
    | whole words stmt h => exact h.marked t ht
    | broken words h => exact (h.plain t ht).1
  rw [parse_words hwords, hread]
  exact ⟨rfl, hblamed⟩

/-- `let = 1;` -/
def namelessLet : List Token :=
  [⟨.letWord, ⟨1, 1⟩⟩, ⟨.equal, ⟨1, 5⟩⟩, ⟨.int 1, ⟨1, 7⟩⟩, ⟨.semicolon, ⟨1, 8⟩⟩]

/-- `log(1);` on the next line. -/
def logOne : List Token :=
  [⟨.ident "log", ⟨2, 1⟩⟩, ⟨.leftParen, ⟨2, 4⟩⟩, ⟨.int 1, ⟨2, 5⟩⟩, ⟨.rightParen, ⟨2, 6⟩⟩,
    ⟨.semicolon, ⟨2, 7⟩⟩]

theorem broken_namelessLet : Broken namelessLet where
  ends := ⟨[_, _, _], _, rfl, rfl, by decide⟩
  plain := by decide
  first := by decide
  others := by decide
  unread := ⟨⟨1, 9⟩, fun _ h => absurd (congrArg (fun r => r.2.length) h : (parse _).2.length = 0)
    (by decide +kernel)⟩

theorem whole_logOne : Whole logOne (.evaluate 2 (.call ⟨2, 1⟩ "log" [.int ⟨2, 5⟩ 1])) where
  marked := by decide
  read := ⟨⟨2, 8⟩, by with_unfolding_all rfl⟩

theorem parse_chunks_namelessLet :
    (parse (namelessLet ++ logOne ++ [mark ⟨2, 8⟩])).1.stmts =
        [.evaluate 2 (.call ⟨2, 1⟩ "log" [.int ⟨2, 5⟩ 1])] ∧
      List.Forall₂ Blamed [namelessLet] (parse (namelessLet ++ logOne ++ [mark ⟨2, 8⟩])).2 :=
  parse_chunks ⟨2, 8⟩ [.broken _ broken_namelessLet, .whole _ _ whole_logOne]

end

end Script
end CheckScript
