/-
Where comments begin and end in their source.

A scan that succeeds has met the source part by part, so what is true of each part that is a
comment is true of the comments that it finds: each is a stretch of the source, at an index that
is behind the comment before it, and the signs around its body are there side by side.  Taking
the body out is then a slice that the text has.  `comments_lie` says all this, and that the
scanner itself stays within the source.
-/
import CheckScript.Proofs.Source.Brackets
import CheckScript.Proofs.Source.Cursor

namespace CheckScript

namespace Comment

/-- The signs around the body, by the kind of the comment. -/
inductive Delimited (c : Comment) : Prop where
  | line (hkind : c.kind = .line) (htext : c.text = '/' :: '/' :: c.body)
  | block (hkind : c.kind = .block) (htext : c.text = '/' :: '*' :: (c.body ++ ['*', '/']))
  | docLine {d : Char} (hkind : c.kind = .doc) (hd : d = '!' ∨ d = '/')
    (htext : c.text = '/' :: '/' :: d :: c.body)
  | docBlock {d : Char} (hkind : c.kind = .doc) (hd : d = '!' ∨ d = '*')
    (htext : c.text = '/' :: '*' :: d :: (c.body ++ ['*', '/']))

/-- The body as a slice of the text, from one number of bytes to another. -/
def bodySlice? (c : Comment) : Option (List Char) :=
  let size := Text.utf8Length c.text
  match c.kind with
  | .line => Text.slice? 2 size c.text
  | .block => Text.slice? 2 (size - 2) c.text
  | .doc =>
    if c.text.take 2 = ['/', '*'] then Text.slice? 3 (size - 2) c.text
    else Text.slice? 3 size c.text

theorem Delimited.bodySlice? {c : Comment} (h : c.Delimited) : c.bodySlice? = some c.body := by
  unfold Comment.bodySlice?
  cases h with
  | line hkind htext =>
    have hslice := Text.slice?_between ['/', '/'] c.body []
    rw [List.append_nil] at hslice
    simp only [hkind]
    rw [htext]
    exact hslice
  | block hkind htext =>
    simp only [hkind]
    rw [htext]
    exact Text.slice?_between ['/', '*'] c.body ['*', '/']
  | @docLine d hkind hd htext =>
    have hslice := Text.slice?_between ['/', '/', d] c.body []
    rw [List.append_nil] at hslice
    simp only [hkind]
    rw [htext, if_neg (by simp)]
    rcases hd with rfl | rfl <;> exact hslice
  | @docBlock d hkind hd htext =>
    have hslice := Text.slice?_between ['/', '*', d] c.body ['*', '/']
    have hsign : c.text.take 2 = ['/', '*'] := by
      rw [htext]
      rfl
    simp only [hkind]
    rw [if_pos hsign, htext]
    rcases hd with rfl | rfl <;> exact hslice

theorem ofLine_delimited (line : Nat) (cs : List Char) :
    (ofLine line ('/' :: '/' :: cs)).Delimited := by
  obtain hkind | ⟨hkind, d, ds, rfl, hd⟩ := lineKind_cases cs
  · exact .line hkind (by simp [ofLine, body, hkind])
  · exact .docLine hkind hd (by simp [ofLine, body, hkind])

theorem ofBlock_delimited (line : Nat) (cs : List Char) :
    (ofBlock line ('/' :: '*' :: (cs ++ ['*', '/']))).Delimited := by
  obtain hkind | ⟨hkind, d, ds, rfl, hd⟩ := blockKind_cases cs
  · exact .block hkind (by simp [ofBlock, body, hkind])
  · rw [List.cons_append] at hkind
    exact .docBlock hkind hd (by simp [ofBlock, body, hkind])

end Comment

namespace Source

open Text (Ends)

/-- The comment is what the text holds from the index `start` on, and its lines are those of the
text.  A line comment goes to the end of its line. -/
structure Lies (text : List Char) (start : Nat) (c : Comment) : Prop where
  bound : start + c.text.length ≤ text.length
  text_eq : (text.drop start).take c.text.length = c.text
  startLine_eq : c.startLine = Text.newlines (text.take start) + 1
  endLine_eq : c.endLine = c.startLine + Text.newlines c.text
  line_end : c.text.take 2 = ['/', '/'] →
    c.text = Text.dropReturn ((text.drop start).takeWhile (· != '\n'))

/-- The first comment ends in front of the second, and on no later line. -/
def Before (a b : Nat × Comment) : Prop :=
  a.1 + a.2.text.length ≤ b.1 ∧ a.2.endLine ≤ b.2.startLine

theorem lies_between {front back : List Char} (c : Comment)
    (hstart : c.startLine = Text.newlines front + 1)
    (hend : c.endLine = c.startLine + Text.newlines c.text)
    (hline : c.text.take 2 = ['/', '/'] →
      c.text = Text.dropReturn ((c.text ++ back).takeWhile (· != '\n'))) :
    Lies (front ++ (c.text ++ back)) front.length c where
  bound := by
    rw [List.length_append, List.length_append]
    omega
  text_eq := by rw [List.drop_left, List.take_left]
  startLine_eq := by rw [List.take_left, hstart]
  endLine_eq := hend
  line_end := by rwa [List.drop_left]

theorem lies_line {front whole back : List Char} {c : Comment} (hwhole : '\n' ∉ whole)
    (hback : Ends (· != '\n') back) (htext : c.text = Text.dropReturn whole)
    (hstart : c.startLine = Text.newlines front + 1) (hend : c.endLine = c.startLine) :
    Lies (front ++ (whole ++ back)) front.length c := by
  obtain ⟨gap, hgap, -⟩ := Text.dropReturn_append whole
  have hsplit : whole ++ back = c.text ++ (gap ++ back) := by
    rw [htext, ← List.append_assoc, hgap]
  have hlines : Text.newlines (Text.dropReturn whole) + Text.newlines gap = 0 := by
    rw [← Text.newlines_append, hgap, Text.newlines_eq_zero hwhole]
  have hline : (whole ++ back).takeWhile (· != '\n') = whole := by
    refine Text.takeWhile_run (fun d hd => ?_) hback
    exact bne_iff_ne.mpr fun hd' => hwhole (hd' ▸ hd)
  rw [hsplit]
  refine lies_between c hstart ?_ fun _ => ?_
  · rw [hend, htext]
    omega
  · rw [← hsplit, hline, htext]

/-- A part that is a comment begins with it, and the comment begins on the line of the part. -/
theorem Part.comments_eq {nested : Bool} {p : Part} {cs : List Char} (hp : p.Stands nested cs)
    (front : List Char) :
    p.comments (Text.newlines front + 1) = [] ∨
      ∃ c, p.comments (Text.newlines front + 1) = [c] ∧
        Lies (front ++ (p.text ++ cs)) front.length c ∧ c.Delimited ∧
        c.text.length ≤ p.text.length ∧
        c.endLine ≤ Text.newlines front + 1 + Text.newlines p.text := by
  cases p with
  | lineComment body =>
    have hbody : '\n' ∉ '/' :: '/' :: body := by
      simpa using (show '\n' ∉ body from hp.sound)
    have hdrop : Text.dropReturn ('/' :: '/' :: body) = '/' :: '/' :: Text.dropReturn body := by
      rw [Text.dropReturn_cons (by decide), Text.dropReturn_cons (by decide)]
    obtain ⟨gap, hgap, -⟩ := Text.dropReturn_append body
    refine .inr ⟨_, rfl, lies_line hbody hp.endsAt hdrop.symm rfl rfl,
      Comment.ofLine_delimited _ _, ?_, Nat.le_add_right ..⟩
    have hlength := congrArg List.length hgap
    rw [List.length_append] at hlength
    show (Text.dropReturn body).length + 2 ≤ body.length + 2
    omega
  | blockComment body =>
    have hsign : ('/' :: '*' :: (body ++ blockEnd)).take 2 ≠ ['/', '/'] := by simp
    exact .inr ⟨_, rfl, lies_between (.ofBlock _ ('/' :: '*' :: (body ++ blockEnd))) rfl rfl
      fun h => absurd h hsign, Comment.ofBlock_delimited _ body, Nat.le_refl _, Nat.le_refl _⟩
  | _ => exact .inl rfl

/-- The comments along the parts of a text, with the indices that they begin at, if `front` is
in front of them. -/
theorem Composed.placed {nested : Bool} {cs rest : List Char} {parts : List Part}
    (h : Composed nested cs parts rest) (front : List Char) :
    ∃ placed : List (Nat × Comment),
      placed.map Prod.snd = commentsFrom (Text.newlines front + 1) parts ∧
      placed.Pairwise Before ∧
      ∀ s ∈ placed, Lies (front ++ cs) s.1 s.2 ∧ s.2.Delimited ∧
        front.length ≤ s.1 ∧ Text.newlines front + 1 ≤ s.2.startLine := by
  induction h generalizing front with
  | nil cs => exact ⟨[], rfl, .nil, nofun⟩
  | @cons p ps cs rest hp _ ih =>
    obtain ⟨placed, hcomments, hordered, hplaced⟩ := ih (front ++ p.text)
    rw [Text.newlines_append, Nat.add_right_comm] at hcomments
    rw [List.append_assoc, List.length_append, Text.newlines_append] at hplaced
    have hlater : ∀ s ∈ placed, Lies (front ++ (p.text ++ cs)) s.1 s.2 ∧ s.2.Delimited ∧
        front.length ≤ s.1 ∧ Text.newlines front + 1 ≤ s.2.startLine := by
      intro s hs
      obtain ⟨hlies, hdelimited, hstart, hline⟩ := hplaced s hs
      exact ⟨hlies, hdelimited, by omega, by omega⟩
    rw [commentsFrom_cons, ← hcomments]
    obtain hnone | ⟨c, hc, hlies, hdelimited, hlength, hend⟩ := Part.comments_eq hp front
    · rw [hnone]
      exact ⟨placed, rfl, hordered, hlater⟩
    · rw [hc]
      refine ⟨(front.length, c) :: placed, rfl, .cons (fun s hs => ?_) hordered, ?_⟩
      · obtain ⟨-, -, hstart, hline⟩ := hplaced s hs
        show front.length + c.text.length ≤ s.1 ∧ c.endLine ≤ s.2.startLine
        omega
      · refine List.forall_mem_cons.mpr ⟨⟨hlies, hdelimited, Nat.le_refl _, ?_⟩, hlater⟩
        exact Nat.le_of_eq (by rw [hlies.startLine_eq, List.take_left])

/-- A scan that succeeds finds the comments of parts that the text begins with. -/
theorem comments_composed {p : Path} {text : String} {found : List Comment}
    (h : comments p text = .ok found) :
    ∃ parts rest, Composed (nestsComments p) text.toList parts rest ∧
      found = commentsFrom 1 parts := by
  obtain ⟨parts, hmet⟩ | ⟨fault, hfault, -⟩ := met_or_endless (nestsComments p) text.toList
  · obtain ⟨hok, herror⟩ := scanFrom_met hmet
    obtain ⟨rest, hcomposed, -⟩ := hmet
    obtain hbalanced | ⟨fault, hblames⟩ := balanced_or_blames (brackets_composed hcomposed 1)
    · exact ⟨parts, rest, hcomposed, Except.ok.inj (h.symm.trans (hok hbalanced))⟩
    · exact nomatch h.symm.trans (herror fault hblames)
  · exact nomatch h.symm.trans hfault

/-- The comments that the scanner finds are stretches of the source, one behind another, with the
lines that the source has there.  The signs around their bodies are there and do not overlap, so
each body is a slice of its comment.  The scanner itself asks for no character behind the end of
the source, whatever the source is. -/
theorem comments_lie {steps : Nat} {text : String} (hsteps : text.toList.length < steps)
    (p : Path) :
    (Cursor.scan steps p text = some ((comments p text).mapError .fault) ∧
      Cursor.scan steps p text ≠ some (.error .outside)) ∧
    ∀ found, comments p text = .ok found →
      (∃ placed : List (Nat × Comment), placed.map Prod.snd = found ∧
        (∀ s ∈ placed, Lies text.toList s.1 s.2) ∧ placed.Pairwise Before) ∧
      ∀ c ∈ found, c.Delimited ∧ c.bodySlice? = some c.body := by
  have hscan : Cursor.scan steps p text = some ((comments p text).mapError .fault) :=
    Cursor.scan_eq hsteps p
  refine ⟨⟨hscan, hscan ▸ Text.Guarded.ofExcept_ne_outside _⟩, fun found hfound => ?_⟩
  obtain ⟨parts, rest, hcomposed, rfl⟩ := comments_composed hfound
  obtain ⟨placed, hplaced, hordered, hall⟩ := hcomposed.placed []
  refine ⟨⟨placed, hplaced, fun s hs => (hall s hs).1, hordered⟩, fun c hc => ?_⟩
  have hmem : c ∈ placed.map Prod.snd := hplaced.symm ▸ hc
  obtain ⟨s, hs, rfl⟩ := List.mem_map.mp hmem
  exact ⟨(hall s hs).2.1, (hall s hs).2.1.bodySlice?⟩

/-- The shortest comment of each form.  In three of them the signs stand side by side, and no
sign of one is a sign of the other. -/
theorem comments_lie_shortest :
    "//\r\n/**/ /***/ /*!*/\n///".toList.length < 25 ∧
      Cursor.scan 25 ⟨"main.rs"⟩ "//\r\n/**/ /***/ /*!*/\n///" ≠ some (.error .outside) ∧
      ∃ found, comments ⟨"main.rs"⟩ "//\r\n/**/ /***/ /*!*/\n///" = .ok found ∧
        found.map Comment.bodySlice? = [some [], some [], some ['*'], some [], some []] ∧
        (∃ placed : List (Nat × Comment), placed.map Prod.snd = found ∧
          (∀ s ∈ placed, Lies "//\r\n/**/ /***/ /*!*/\n///".toList s.1 s.2) ∧
          placed.Pairwise Before) ∧
        ∀ c ∈ found, c.Delimited ∧ c.bodySlice? = some c.body := by
  have hsteps : "//\r\n/**/ /***/ /*!*/\n///".toList.length < 25 := by decide
  have hfound : comments ⟨"main.rs"⟩ "//\r\n/**/ /***/ /*!*/\n///" =
      .ok [⟨.line, "//".toList, 1, 1⟩, ⟨.block, "/**/".toList, 2, 2⟩,
        ⟨.block, "/***/".toList, 2, 2⟩, ⟨.doc, "/*!*/".toList, 2, 2⟩,
        ⟨.doc, "///".toList, 3, 3⟩] := by decide +kernel
  obtain ⟨⟨-, hinside⟩, hlie⟩ := comments_lie hsteps ⟨"main.rs"⟩
  exact ⟨hsteps, hinside, _, hfound, by decide +kernel, hlie _ hfound⟩

end Source
end CheckScript
