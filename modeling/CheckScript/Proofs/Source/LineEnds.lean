/-
Sources with other ends of lines.

The tags of a source are read off its lines, which do not show how they end, and its comments
stand on the same lines whatever ends those (`scanFrom_agree`).  The bodies of the comments make
scripts with the same words, since a carriage return in front of a newline is blank there or
belongs to a comment or to a literal that is not closed.

Bodies are joined, and there a newline can come behind a backslash that was not in front of it
in the source.  That is the one thing to be excluded (`line_ends_irrelevant`), and it has to be
(`line_ends_matter_at_joints`).
-/
import CheckScript.Proofs.Script.Compile
import CheckScript.Proofs.Script.LineEnds
import CheckScript.Proofs.Source.Alignment
import CheckScript.Proofs.Source.Lockstep
import CheckScript.Source.Tags

namespace CheckScript
namespace Source

open Text (Returned)

variable {cs ds : List Char}

/-! ## The script -/

theorem text_of_line {c : Comment} (h : c.Framed) (hk : c.kind = .line) :
    c.text = '/' :: '/' :: c.body := by
  have hopening : c.opening = ['/', '/'] := by rw [Comment.opening, hk]
  have htext := h.text_eq
  rw [hopening] at htext
  have hclosing : c.closing = [] := by
    rw [Comment.closing, ← htext]
    rfl
  rw [hclosing, List.append_nil] at htext
  exact htext.symm

theorem text_of_block {c : Comment} (h : c.Framed) (hk : c.kind = .block) :
    c.text = '/' :: '*' :: (c.body ++ ['*', '/']) := by
  have hopening : c.opening = ['/', '*'] := by rw [Comment.opening, hk]
  have htext := h.text_eq
  rw [hopening] at htext
  have hclosing : c.closing = ['*', '/'] := by
    rw [Comment.closing, ← htext]
    rfl
  rw [hclosing] at htext
  exact htext.symm

theorem Alike.body {c d : Comment} (h : Alike c d) (hc : c.Framed) (hd : d.Framed)
    (hk : c.kind ≠ .doc) : Returned c.body d.body := by
  have htext := h.text
  have hkind := h.kind
  cases hline : c.kind with
  | line =>
    rw [text_of_line hc hline, text_of_line hd (hkind ▸ hline)] at htext
    obtain ⟨_, hslash, hrest⟩ := htext.cons_left (by decide)
    obtain ⟨_, hbody, hreturned⟩ := hrest.cons_left (by decide)
    obtain rfl := (List.cons.inj hslash).2
    exact (List.cons.inj hbody).2 ▸ hreturned
  | block =>
    rw [text_of_block hc hline, text_of_block hd (hkind ▸ hline)] at htext
    obtain ⟨_, hslash, hrest⟩ := htext.cons_left (by decide)
    obtain rfl := (List.cons.inj hslash).2
    obtain ⟨_, hstar, hboth⟩ := hrest.cons_left (by decide)
    obtain rfl := (List.cons.inj hstar).2
    exact hboth.cancel_right (by decide)
  | doc => exact absurd hline hk

/-- In the script, a body that begins with a newline is joined directly behind a backslash. -/
def JoinsEscape (comments : List Comment) : Prop :=
  ∃ earlier c later, comments = earlier ++ c :: later ∧ c.kind ≠ .doc ∧
    c.startLine ≤ lastLine 1 earlier ∧ c.body.head? = some '\n' ∧
    (scriptFrom 1 earlier).getLast? = some '\\'

/-- A body behind its padding. -/
theorem padded_returned (n : Nat) (h : Returned cs ds) :
    Returned (List.replicate n '\n' ++ cs) (List.replicate n '\n' ++ ds) := by
  induction n with
  | zero => exact h
  | succ n ih => exact .cons (by decide) (fun hc => absurd hc (by decide)) ih

/-- A script goes on alike behind `written`, which has been written so far. -/
theorem scriptFrom_returned {comments comments' : List Comment} {line : Nat}
    {written written' : List Char} (h : List.Forall₂ Alike comments comments')
    (hframed : ∀ c ∈ comments, c.Framed) (hframed' : ∀ c ∈ comments', c.Framed)
    (hwritten : Returned written written')
    (hjoint : ∀ earlier c later, comments = earlier ++ c :: later → c.kind ≠ .doc →
      c.startLine ≤ lastLine line earlier → c.body.head? = some '\n' →
      (written ++ scriptFrom line earlier).getLast? ≠ some '\\') :
    Returned (written ++ scriptFrom line comments) (written' ++ scriptFrom line comments') := by
  induction h generalizing line written written' with
  | nil => simpa [scriptFrom] using hwritten
  | @cons c d comments comments' hcd hrest ih =>
    obtain ⟨hc, hcs⟩ := List.forall_mem_cons.mp hframed
    obtain ⟨hd, hds⟩ := List.forall_mem_cons.mp hframed'
    by_cases hk : c.kind = .doc
    · rw [scriptFrom_doc hk, scriptFrom_doc (hcd.kind ▸ hk)]
      refine ih hcs hds hwritten fun earlier e later he hke hline hhead => ?_
      have hhere := hjoint (c :: earlier) e later (by rw [he, List.cons_append]) hke
      rw [lastLine_doc hk, scriptFrom_doc hk] at hhere
      exact hhere hline hhead
    · rw [scriptFrom_cons hk, scriptFrom_cons (hcd.kind ▸ hk), ← hcd.startLine, ← hcd.endLine]
      simp only [← List.append_assoc]
      have hbody := padded_returned (c.startLine - line) (hcd.body hc hd hk)
      refine ih hcs hds ?_ fun earlier e later he hke hline hhead => ?_
      · rw [List.append_assoc, List.append_assoc]
        refine hwritten.append hbody fun hlast hreturn => ?_
        have hnewline := hbody.head_return hreturn
        have hlast' := hwritten.getLast?_eq.symm.trans hlast
        have hhere := hjoint [] c comments rfl hk
        rw [scriptFrom, List.append_nil] at hhere
        cases hpadding : c.startLine - line with
        | zero =>
          rw [hpadding] at hnewline
          exact hhere (Nat.le_of_sub_eq_zero hpadding) hnewline hlast'
        | succ n =>
          rw [hpadding] at hreturn
          exact absurd (Option.some.inj hreturn) (by decide)
      · have hhere := hjoint (c :: earlier) e later (by rw [he, List.cons_append]) hke
        rw [lastLine_cons hk, scriptFrom_cons hk] at hhere
        simp only [← List.append_assoc] at hhere
        exact hhere hline hhead

theorem Placed.framed {line : Nat} {text : List Char} {comments : List Comment}
    (h : Placed line text comments) : ∀ c ∈ comments, c.Framed := by
  induction h with
  | nil => exact List.forall_mem_nil _
  | cons hframed _ _ _ ih => exact List.forall_mem_cons.mpr ⟨hframed, ih⟩

/-! ## Other ends of lines -/

/-- The source with a carriage return in front of every newline. -/
def crlf (text : String) : String := String.ofList (Text.crlf text.toList)

/-- What a comment is and where it stands. -/
def span (c : Comment) : CommentKind × Nat × Nat := (c.kind, c.startLine, c.endLine)

theorem comments_crlf {text : String} (hreturn : '\r' ∉ text.toList)
    (hslash : ¬['\\', '\n'] <:+: text.toList) (p : Path) :
    Agree (List.Forall₂ Alike) (comments p text) (comments p (crlf text)) := by
  have h := Text.returned_crlf hreturn hslash
  rw [comments, comments, crlf, String.toList_ofList]
  exact scanFrom_agree _ 1 [] h

theorem span_alike {cs ds : List Comment} (h : List.Forall₂ Alike cs ds) :
    ds.map span = cs.map span := by
  induction h with
  | nil => rfl
  | cons h _ ih =>
    rw [List.map_cons, List.map_cons, ih, span, span, h.kind, h.startLine, h.endLine]

/-- How the lines of a source end makes no difference, as long as no backslash stands in front of
a newline, neither in the source nor where the bodies of its comments are joined. -/
theorem line_ends_irrelevant {text : String} (hreturn : '\r' ∉ text.toList)
    (hslash : ¬['\\', '\n'] <:+: text.toList) (p : Path) :
    LineTags.ofText (crlf text) = LineTags.ofText text ∧
      (comments p (crlf text)).map (List.map span) = (comments p text).map (List.map span) ∧
      ∀ cs ds, comments p text = .ok cs → comments p (crlf text) = .ok ds → ¬JoinsEscape cs →
        Script.compile (script ds) = Script.compile (script cs) := by
  have hagree := comments_crlf hreturn hslash p
  refine ⟨?_, ?_, fun cs ds hcs hds hjoint => ?_⟩
  · rw [LineTags.ofText, LineTags.ofText, crlf, String.toList_ofList, Text.lineChars_crlf hreturn]
  · generalize comments p text = r at hagree
    generalize comments p (crlf text) = r' at hagree
    cases hagree with
    | error fault => rfl
    | ok h => exact congrArg Except.ok (span_alike h)
  · rw [hcs, hds] at hagree
    cases hagree with
    | ok h =>
      have hscript := scriptFrom_returned h (comments_placed hcs).framed
        (comments_placed hds).framed .nil fun earlier c later he hk hline hhead hlast =>
          hjoint ⟨earlier, c, later, he, hk, hline, hhead, hlast⟩
      refine Script.compile_returned ?_
      rw [script, script, String.toList_ofList, String.toList_ofList]
      exact hscript

/-- A block comment over three lines, a literal over two, and a line comment with a tag. -/
theorem line_ends_irrelevant_mixed :
    LineTags.ofText (crlf "/*\nlog(1);\n*/ f(\"a\nb\"); // @here@\n") =
        LineTags.ofText "/*\nlog(1);\n*/ f(\"a\nb\"); // @here@\n" ∧
      ∃ cs ds, comments ⟨"main.rs"⟩ "/*\nlog(1);\n*/ f(\"a\nb\"); // @here@\n" = .ok cs ∧
        comments ⟨"main.rs"⟩ (crlf "/*\nlog(1);\n*/ f(\"a\nb\"); // @here@\n") = .ok ds ∧
        script ds ≠ script cs ∧ ¬JoinsEscape cs ∧
        Script.compile (script ds) = Script.compile (script cs) := by
  have hreturn : '\r' ∉ "/*\nlog(1);\n*/ f(\"a\nb\"); // @here@\n".toList := by
    decide +kernel
  have hslash : ¬['\\', '\n'] <:+: "/*\nlog(1);\n*/ f(\"a\nb\"); // @here@\n".toList := by
    decide +kernel
  have hcs : comments ⟨"main.rs"⟩ "/*\nlog(1);\n*/ f(\"a\nb\"); // @here@\n" =
      .ok [⟨.block, "/*\nlog(1);\n*/".toList, 1, 3⟩, ⟨.line, "// @here@".toList, 4, 4⟩] := by
    decide +kernel
  have hds : comments ⟨"main.rs"⟩ (crlf "/*\nlog(1);\n*/ f(\"a\nb\"); // @here@\n") =
      .ok [⟨.block, "/*\r\nlog(1);\r\n*/".toList, 1, 3⟩, ⟨.line, "// @here@".toList, 4, 4⟩] := by
    decide +kernel
  have hjoint : ¬JoinsEscape
      [⟨.block, "/*\nlog(1);\n*/".toList, 1, 3⟩, ⟨.line, "// @here@".toList, 4, 4⟩] := by
    rintro ⟨earlier, c, later, hsplit, -, -, hhead, hlast⟩
    match earlier with
    | [] => exact nomatch hlast
    | d :: earlier =>
      -- the body behind the first comment does not begin with a newline
      have hin : c ∈ [(⟨.line, "// @here@".toList, 4, 4⟩ : Comment)] :=
        (List.cons.inj hsplit).2 ▸ List.mem_append_right _ List.mem_cons_self
      obtain rfl := List.mem_singleton.mp hin
      exact absurd hhead (by decide)
  obtain ⟨htags, -, hcompile⟩ := line_ends_irrelevant hreturn hslash ⟨"main.rs"⟩
  exact ⟨htags, _, _, hcs, hds, by decide +kernel, hjoint, hcompile _ _ hcs hds hjoint⟩

/-- A string literal that ends its comment with a backslash, in front of a comment that begins
with a newline: it is the newline that is escaped in the one text, the carriage return in the
other. -/
theorem line_ends_matter_at_joints :
    ¬∀ (p : Path) (text : String), '\r' ∉ text.toList → ¬['\\', '\n'] <:+: text.toList →
      ∀ cs ds, comments p text = .ok cs → comments p (crlf text) = .ok ds →
        Script.compile (script ds) = Script.compile (script cs) := by
  intro h
  let cs : List Comment :=
    [⟨.block, "/* \"\\*/".toList, 1, 1⟩, ⟨.block, "/*\n*/".toList, 1, 2⟩]
  let ds : List Comment :=
    [⟨.block, "/* \"\\*/".toList, 1, 1⟩, ⟨.block, "/*\r\n*/".toList, 1, 2⟩]
  have hcs : comments ⟨"main.rs"⟩ "/* \"\\*/ /*\n*/" = .ok cs := by decide +kernel
  have hds : comments ⟨"main.rs"⟩ (crlf "/* \"\\*/ /*\n*/") = .ok ds := by decide +kernel
  have hsame := h _ _ (by decide +kernel) (by decide +kernel) cs ds hcs hds
  have hescape : ⟨⟨2, 0⟩, .unknownEscape '\n'⟩ ∈ Script.syntaxFaults (script cs) := by
    decide +kernel
  obtain ⟨es, hcompile, hmem⟩ := Script.compile_of_mem hescape
  have hfound := (Script.rejected_of_compile (hsame.trans hcompile)).found
  have hnone : ⟨⟨2, 0⟩, .unknownEscape '\n'⟩ ∉ Script.syntaxFaults (script ds) := by
    decide +kernel
  have hfaulty : Script.syntaxFaults (script ds) ≠ [] := by decide +kernel
  rcases hfound with ⟨-, hperm⟩ | ⟨hclean, -⟩
  · exact hnone (hperm.mem_iff.mp hmem)
  · exact hfaulty hclean

end Source
end CheckScript
