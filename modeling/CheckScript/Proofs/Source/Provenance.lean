/-
Where failures of a script stand in the source.

Padding is made of newlines only, so every other character of a script is a character of a
comment's body, and `scriptFrom_origin` finds it there, on its line of the source.  Words are
read from such characters, and the lines that a run names are lines of words.

A word need not end with the body that it begins in.  Bodies are joined, and where one begins
on the line that the last one ended on, nothing parts them: a word can begin in the one and end
in the other (`joined_word_in_no_body`).
-/
import CheckScript.Proofs.Script.Blame
import CheckScript.Proofs.Script.Diagnosis
import CheckScript.Proofs.Script.Lexeme
import CheckScript.Proofs.Script.Resolution
import CheckScript.Proofs.Source.Alignment

namespace CheckScript
namespace Source

/-! ## Characters of a script -/

/-- A comment stands whole in the source, on the line that it carries. -/
theorem Placed.stands {line : Nat} {text : List Char} {earlier later : List Comment} {c : Comment}
    (h : Placed line text (earlier ++ c :: later)) :
    c.Framed ∧ ∃ front back, front ++ (c.text ++ back) = text ∧
      line + Text.newlines front = c.startLine := by
  induction earlier generalizing line text with
  | nil =>
    cases h with
    | @cons _ before rest _ _ hframed hstart _ _ => exact ⟨hframed, before, rest, rfl, hstart.symm⟩
  | cons d earlier ih =>
    cases h with
    | @cons _ before rest _ _ _ hstart hend hrest =>
      obtain ⟨hframed, front, back, rfl, hline⟩ := ih hrest
      refine ⟨hframed, before ++ (d.text ++ front), back, by simp only [List.append_assoc], ?_⟩
      rw [Text.newlines_append, Text.newlines_append]
      omega

/-- A character of two texts in a row is in the first or in the second. -/
theorem append_eq_append_cons {a b front back : List Char} {d : Char}
    (h : a ++ b = front ++ d :: back) :
    (∃ x, a = front ++ d :: x ∧ back = x ++ b) ∨ ∃ x, front = a ++ x ∧ b = x ++ d :: back := by
  rcases List.append_eq_append_iff.mp h with hsecond | ⟨x, rfl, hx⟩
  · exact .inr hsecond
  · cases x with
    | nil => exact .inr ⟨[], (List.append_nil _).symm.trans (List.append_nil _).symm, hx.symm⟩
    | cons e x =>
      obtain ⟨rfl, rfl⟩ := List.cons.inj hx
      exact .inl ⟨x, rfl, rfl⟩

/-- A character of a script, newlines apart, comes from the body of a comment.  The lines of
script and source agree there, and the script goes on with the rest of that body. -/
theorem scriptFrom_origin {line l : Nat} {text : List Char} {comments : List Comment}
    (h : Placed l text comments) (hle : line ≤ l) {front back : List Char} {d : Char}
    (hd : d ≠ '\n') (hscript : scriptFrom line comments = front ++ d :: back) :
    ∃ earlier c later before behind, comments = earlier ++ c :: later ∧ c.kind ≠ .doc ∧
      c.body = before ++ d :: behind ∧
      line + Text.newlines front = c.startLine + Text.newlines before ∧
      back = behind ++ scriptFrom c.endLine later := by
  induction h generalizing line front with
  | nil => exact absurd hscript.symm (List.append_ne_nil_of_right_ne_nil _ (List.cons_ne_nil _ _))
  | @cons l gap rest c comments hframed hstart hend hrest ih =>
    have further : ∀ {line : Nat} {front : List Char}, line ≤ c.endLine →
        scriptFrom line comments = front ++ d :: back →
        ∃ earlier e later before behind, c :: comments = earlier ++ e :: later ∧ e.kind ≠ .doc ∧
          e.body = before ++ d :: behind ∧
          line + Text.newlines front = e.startLine + Text.newlines before ∧
          back = behind ++ scriptFrom e.endLine later := by
      intro line front hle hscript
      obtain ⟨earlier, e, later, before, behind, rfl, hfound⟩ := ih hle hscript
      exact ⟨c :: earlier, e, later, before, behind, rfl, hfound⟩
    by_cases hk : c.kind = .doc
    · rw [scriptFrom_doc hk] at hscript
      exact further (by omega) hscript
    · rw [scriptFrom_cons hk] at hscript
      rcases append_eq_append_cons hscript with ⟨x, hpadding, -⟩ | ⟨x, rfl, hx⟩
      · -- padding holds nothing but newlines
        have hmem : d ∈ List.replicate (c.startLine - line) '\n' :=
          hpadding ▸ List.mem_append_right _ List.mem_cons_self
        exact absurd (List.eq_of_mem_replicate hmem) hd
      · have hnewlines := hframed.newlines_body
        rw [Text.newlines_append, Text.newlines_replicate]
        rcases append_eq_append_cons hx with ⟨behind, hbody, hback⟩ | ⟨y, rfl, hy⟩
        · exact ⟨[], c, comments, x, behind, rfl, hk, hbody, by omega, hback⟩
        · obtain ⟨earlier, e, later, before, behind, hcs, hke, hbody, hline, hback⟩ :=
            further (Nat.le_refl _) hy
          refine ⟨earlier, e, later, before, behind, hcs, hke, hbody, ?_, hback⟩
          rw [← hline, Text.newlines_append]
          omega

/-- A prefix of two texts in a row goes on into the second behind the first. -/
theorem prefix_append_cases {word a b : List Char} (h : word <+: a ++ b) :
    word <+: a ∨ ∃ w, word = a ++ w ∧ w <+: b := by
  obtain ⟨rest, hrest⟩ := h
  rcases List.append_eq_append_iff.mp hrest with ⟨x, ha, -⟩ | ⟨w, hword, hb⟩
  · exact .inl ⟨x, ha.symm⟩
  · exact .inr ⟨w, hword, rest, hb.symm⟩

/-- What a script shows up to the end of a line are bodies without padding. -/
theorem prefix_scriptFrom {word : List Char} (hword : '\n' ∉ word) {line : Nat}
    {comments : List Comment} (h : word <+: scriptFrom line comments) :
    word <+: (scripted comments).flatMap Comment.body := by
  induction comments generalizing line word with
  | nil => exact h
  | cons c comments ih =>
    by_cases hk : c.kind = .doc
    · rw [scriptFrom_doc hk] at h
      rw [scripted_doc hk]
      exact ih hword h
    · rw [scriptFrom_cons hk] at h
      rw [scripted_cons hk, List.flatMap_cons]
      rcases prefix_append_cases h with hpadding | ⟨w, rfl, hw⟩
      · cases word with
        | nil => exact List.nil_prefix
        | cons d word =>
          have hmem := hpadding.mem List.mem_cons_self
          exact absurd (List.eq_of_mem_replicate hmem ▸ List.mem_cons_self) hword
      · have hnone : c.startLine - line = 0 := by
          by_contra hne
          exact hword (List.mem_append_left _ (List.mem_replicate.mpr ⟨hne, rfl⟩))
        rw [hnone, List.replicate_zero, List.nil_append] at hword ⊢
        rcases prefix_append_cases hw with hbody | ⟨v, rfl, hv⟩
        · exact hbody.trans (List.prefix_append ..)
        · have hv' := ih (fun hmem => hword (List.mem_append_right _ hmem)) hv
          exact (List.prefix_append_right_inj _).mpr hv'

/-! ## Words of a script -/

/-- `behind` is what is left, from a character on line `line` of the source on, of the body of a
comment that is no documentation.  `later` are the comments behind that one. -/
inductive BodyAt (text : List Char) (comments : List Comment) (line : Nat) (behind : List Char)
    (later : List Comment) : Prop where
  | intro {earlier : List Comment} {c : Comment} {front before back : List Char} :
    comments = earlier ++ c :: later → c.kind ≠ .doc → c.body = before ++ behind →
      front ++ (c.opening ++ (before ++ (behind ++ (c.closing ++ back)))) = text →
      Text.newlines (front ++ (c.opening ++ before)) + 1 = line →
      BodyAt text comments line behind later

/-- A word of the script begins in a body, on the line that the script has it on, and goes on
in that body and in those behind it. -/
theorem lexeme_bodyAt {path : Path} {text : String} {cs : List Comment}
    (hsource : comments path text = .ok cs) {t : Script.Token} {before word after : List Char}
    (h : Script.Lexeme (script cs).toList t before word after) :
    ∃ behind later, BodyAt text.toList cs t.place.line behind later ∧ behind ≠ [] ∧
      word <+: behind ++ (scripted later).flatMap Comment.body := by
  have hplaced := comments_placed hsource
  obtain ⟨d, word, rfl⟩ := List.exists_cons_of_ne_nil h.nonempty
  have hd : d ≠ '\n' := fun hd => h.one_line (hd ▸ List.mem_cons_self)
  have hscript : scriptFrom 1 cs = before ++ d :: (word ++ after) := by
    have htext := h.text_eq
    rw [script, String.toList_ofList] at htext
    exact htext.symm
  obtain ⟨earlier, c, later, start, behind, rfl, hk, hbody, hline, hback⟩ :=
    scriptFrom_origin hplaced (Nat.le_refl 1) hd hscript
  obtain ⟨hframed, front, back, htext, hfront⟩ := hplaced.stands
  have hsource : front ++ (c.opening ++ (start ++ (d :: behind ++ (c.closing ++ back)))) =
      text.toList := by
    rw [← htext, ← hframed.text_eq, hbody]
    simp only [List.append_assoc]
  have hplace : Text.newlines (front ++ (c.opening ++ start)) + 1 = t.place.line := by
    have hone : Script.Position.start.line = 1 := rfl
    rw [h.place, Script.Position.after_line, hone, Text.newlines_append, Text.newlines_append,
      Text.newlines_eq_zero hframed.opening_line]
    omega
  refine ⟨d :: behind, later, BodyAt.intro rfl hk hbody hsource hplace, List.cons_ne_nil _ _, ?_⟩
  -- up to the end of its line the script goes on with the rest of the body and with bodies
  have hword : word <+: behind ++ scriptFrom c.endLine later := ⟨after, hback⟩
  have hone : '\n' ∉ word := fun hmem => h.one_line (List.mem_cons_of_mem _ hmem)
  refine List.cons_prefix_cons.mpr ⟨rfl, ?_⟩
  rcases prefix_append_cases hword with hin | ⟨w, rfl, hw⟩
  · exact hin.trans (List.prefix_append ..)
  · have hw' := prefix_scriptFrom (fun hmem => hone (List.mem_append_right _ hmem)) hw
    exact (List.prefix_append_right_inj _).mpr hw'

/-! ## Failures of a run -/

/-- A line that a run of a compiled script names is the line of one of its words. -/
theorem failing_word {text : String} {p : Script.Program} (h : Script.compile text = .ok p)
    {g : Script.Environment} {fuel : Nat} {s t : Script.Session} {f : Failure} {line : Nat}
    (hrun : Script.run g fuel p s = (.failed f, t)) (hline : f.scriptLine? = some line) :
    ∃ token ∈ (Script.tokenize text).1, token.kind ≠ .finish ∧ token.place.line = line := by
  obtain ⟨hclean, -, rfl⟩ := Script.clean_of_compile h
  obtain ⟨words, hwords, hderives⟩ := Script.derives_tree hclean
  obtain ⟨q, hq, rfl⟩ := Script.run_blames hrun hline
  refine hderives.origin (P := fun q => ∃ token ∈ (Script.tokenize text).1, token.kind ≠ .finish ∧
    token.place.line = q.line) (fun token htoken => ?_) q hq
  obtain ⟨hmem, hkind⟩ := hwords token htoken
  exact ⟨⟨token, hmem, hkind, rfl⟩, ⟨token, hmem, hkind, rfl⟩⟩

/-- Faults and assertions of a run name the line of the source on which a word of the script
begins.  It begins in the body of a comment that is no documentation, and every character of it
is in that body or in the bodies joined to it. -/
theorem failure_in_comment {path : Path} {text : String} {cs : List Comment} {p : Script.Program}
    {g : Script.Environment} {fuel : Nat} {s t : Script.Session} {f : Failure} {line : Nat}
    (hsource : comments path text = .ok cs) (hcompile : Script.compile (script cs) = .ok p)
    (hrun : Script.run g fuel p s = (.failed f, t)) (hline : f.scriptLine? = some line) :
    ∃ token before word after behind later,
      token ∈ (Script.tokenize (script cs)).1 ∧ token.place.line = line ∧
      Script.Lexeme (script cs).toList token before word after ∧
      BodyAt text.toList cs line behind later ∧ behind ≠ [] ∧
      word <+: behind ++ (scripted later).flatMap Comment.body := by
  obtain ⟨token, hmem, hkind, rfl⟩ := failing_word hcompile hrun hline
  have hwords := (List.append_eq_nil_iff.mp (Script.clean_of_compile hcompile).1).1
  obtain ⟨before, word, after, hlexeme⟩ := Script.exists_lexeme hwords hmem hkind
  obtain ⟨behind, later, hbody, hne, hword⟩ := lexeme_bodyAt hsource hlexeme
  exact ⟨token, before, word, after, behind, later, hmem, rfl, hlexeme, hbody, hne, hword⟩

/-- A division in the second line of a block comment, in a checkpoint that a line comment
opens, with code between them. -/
theorem failure_in_comment_checkpoint :
    ∃ cs p t, comments ⟨"main.rs"⟩ "\n// checkpoint \"a\" \x7b\ng(); /* let n =\n 1 / 0; \x7d */" =
        .ok cs ∧
      Script.compile (script cs) = .ok p ∧
      Script.run Script.quiet 0 p Script.silent =
        (.failed (.script 4 .divisionByZero ["a"]), t) ∧
      ∃ token before word after behind later,
        token ∈ (Script.tokenize (script cs)).1 ∧ token.place.line = 4 ∧
        Script.Lexeme (script cs).toList token before word after ∧
        BodyAt "\n// checkpoint \"a\" \x7b\ng(); /* let n =\n 1 / 0; \x7d */".toList cs 4 behind
          later ∧
        behind ≠ [] ∧ word <+: behind ++ (scripted later).flatMap Comment.body := by
  have hsource : comments ⟨"main.rs"⟩
      "\n// checkpoint \"a\" \x7b\ng(); /* let n =\n 1 / 0; \x7d */" =
      .ok [⟨.line, "// checkpoint \"a\" \x7b".toList, 2, 2⟩,
        ⟨.block, "/* let n =\n 1 / 0; \x7d */".toList, 3, 4⟩] := by decide +kernel
  let cs : List Comment := [⟨.line, "// checkpoint \"a\" \x7b".toList, 2, 2⟩,
    ⟨.block, "/* let n =\n 1 / 0; \x7d */".toList, 3, 4⟩]
  have hcompile : Script.compile (script cs) = .ok (Script.diagnose (script cs)).1 := by
    unfold Script.compile
    exact if_pos (by decide +kernel)
  have hrun : (Script.run Script.quiet 0 (Script.diagnose (script cs)).1 Script.silent).1 =
      .failed (.script 4 .divisionByZero ["a"]) := by decide +kernel
  exact ⟨cs, _, _, hsource, hcompile, Prod.ext hrun rfl,
    failure_in_comment hsource hcompile (Prod.ext hrun rfl) rfl⟩

/-- A word in two comments, on a line that no comment has a whole word on. -/
theorem joined_word_in_no_body :
    ¬∀ (path : Path) (text : String) (cs : List Comment) (p : Script.Program)
      (g : Script.Environment) (fuel : Nat) (s t : Script.Session) (f : Failure) (line : Nat),
      comments path text = .ok cs → Script.compile (script cs) = .ok p →
      Script.run g fuel p s = (.failed f, t) → f.scriptLine? = some line →
      ∃ token before word after behind later,
        token ∈ (Script.tokenize (script cs)).1 ∧ token.place.line = line ∧
        Script.Lexeme (script cs).toList token before word after ∧
        BodyAt text.toList cs line behind later ∧ word <+: behind := by
  intro h
  let cs : List Comment :=
    [⟨.block, "/*ass*/".toList, 1, 1⟩, ⟨.block, "/*ert\n(false);*/".toList, 1, 2⟩]
  have hsource : comments ⟨"main.rs"⟩ "/*ass*/ /*ert\n(false);*/" = .ok cs := by decide +kernel
  have hcompile : Script.compile (script cs) = .ok (Script.diagnose (script cs)).1 := by
    unfold Script.compile
    exact if_pos (by decide +kernel)
  have hrun : (Script.run Script.quiet 0 (Script.diagnose (script cs)).1 Script.silent).1 =
      .failed (.assertion 1 "condition is false" []) := by decide +kernel
  obtain ⟨token, before, word, after, behind, later, hmem, hline, hlexeme, hbody, hword⟩ :=
    h _ _ cs _ Script.quiet 0 Script.silent _ _ 1 hsource hcompile (Prod.ext hrun rfl) rfl
  -- the first line of the script has one word
  have hfirst : ∀ t ∈ (Script.tokenize (script cs)).1, t.place.line = 1 → t.place = ⟨1, 1⟩ := by
    decide +kernel
  have hplace := hfirst token hmem hline
  have hstart : ∀ n ≤ (script cs).toList.length,
      Script.Position.start.after ((script cs).toList.take n) = ⟨1, 1⟩ → n = 0 := by
    decide +kernel
  have htake : before = (script cs).toList.take before.length :=
    List.prefix_iff_eq_take.mp ⟨_, hlexeme.text_eq⟩
  have hlength : before.length ≤ (script cs).toList.length :=
    hlexeme.text_eq ▸ List.length_append ▸ Nat.le_add_right ..
  have hnil : before = [] := List.length_eq_zero_iff.mp
    (hstart _ hlength (htake ▸ hlexeme.place.symm.trans hplace))
  have hwhole : word ++ after = 'a' :: "ssert\n(false);".toList := by
    have htext := hlexeme.text_eq
    rw [hnil, List.nil_append] at htext
    exact htext.trans (by decide +kernel)
  obtain ⟨c, rest, hread, hstretch⟩ := hlexeme.read
  obtain ⟨rfl, rfl⟩ := List.cons.inj (hread.symm.trans hwhole)
  have hafter : after = "\n(false);".toList := by
    rw [hplace] at hstretch
    exact (congrArg Script.Stretch.rest hstretch).symm.trans (by decide +kernel)
  have hsame : word ++ after = "assert".toList ++ after := by
    rw [hwhole, hafter]
    decide +kernel
  have hassert : word = "assert".toList := List.append_cancel_right hsame
  have hparts : ∀ c ∈ cs, ¬"assert".toList <:+: c.body := by decide +kernel
  cases hbody with
  | @intro earlier c _ start _ hcs _ hbody _ _ =>
    have hin : c ∈ cs := hcs ▸ List.mem_append_right _ List.mem_cons_self
    refine hparts c hin (hbody ▸ hassert ▸ hword.isInfix.trans ?_)
    exact (List.suffix_append start behind).isInfix

end Source
end CheckScript
