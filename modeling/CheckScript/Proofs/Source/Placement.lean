/-
Where the comments of a source stand.

The scanner counts lines itself, reader by reader.  `Passes` says that a reader has
counted right: the line behind what it read is the line before it and one more for
every newline that it read.  `Placed` says the same of a list of comments: they are
stretches of the text, one behind another, and the lines they carry are lines of the
text.  `comments_placed` is what the scanner is proved for here.
-/
import CheckScript.Proofs.Text.Lines
import CheckScript.Source.Scan

namespace CheckScript

namespace Comment

/-- The sign in front of the body.  Documentation has one character more than other
comments. -/
def opening (c : Comment) : List Char :=
  match c.kind with
  | .line => ['/', '/']
  | .block => ['/', '*']
  | .doc => c.text.take 3

/-- The sign behind the body. -/
def closing (c : Comment) : List Char :=
  if c.text.take 2 = ['/', '*'] then ['*', '/'] else []

/-- The body lies between two signs that do not overlap, and it begins on the line of
the comment. -/
structure Framed (c : Comment) : Prop where
  text_eq : c.opening ++ (c.body ++ c.closing) = c.text
  opening_line : '\n' ∉ c.opening

theorem closing_line (c : Comment) : '\n' ∉ c.closing := by
  unfold closing
  split <;> decide

/-- The body of a comment has all the newlines of the comment. -/
theorem Framed.newlines_body {c : Comment} (h : c.Framed) :
    Text.newlines c.body = Text.newlines c.text := by
  rw [← h.text_eq, Text.newlines_append, Text.newlines_append,
    Text.newlines_eq_zero h.opening_line, Text.newlines_eq_zero c.closing_line]
  omega

/-- A line comment is documentation only behind a third sign. -/
theorem lineKind_cases (cs : List Char) :
    lineKind ('/' :: '/' :: cs) = .line ∨
      lineKind ('/' :: '/' :: cs) = .doc ∧ ∃ d ds, cs = d :: ds ∧ (d = '!' ∨ d = '/') := by
  match cs with
  | [] => exact Or.inl rfl
  | d :: ds =>
    by_cases hbang : d = '!'
    · subst hbang
      exact Or.inr ⟨rfl, _, _, rfl, by decide⟩
    · by_cases hslash : d = '/'
      · subst hslash
        unfold lineKind
        split
        · exact Or.inr ⟨rfl, _, _, rfl, by decide⟩
        · exact Or.inl rfl
        · exact Or.inr ⟨rfl, _, _, rfl, by decide⟩
        · exact Or.inl rfl
      · left
        unfold lineKind
        split <;> simp_all

theorem ofLine_framed (line : Nat) (cs : List Char) : (ofLine line ('/' :: '/' :: cs)).Framed := by
  rcases lineKind_cases cs with hk | ⟨hk, d, ds, rfl, hd⟩
  · exact ⟨by simp [opening, closing, body, ofLine, hk], by simp [opening, ofLine, hk]⟩
  · have hline : d ≠ '\n' := by rcases hd with rfl | rfl <;> decide
    exact ⟨by simp [opening, closing, body, ofLine, hk],
      by simpa [opening, ofLine, hk] using hline.symm⟩

/-- A block comment is documentation only behind a third sign that is not part of the
closing one. -/
theorem blockKind_cases (cs : List Char) :
    blockKind ('/' :: '*' :: (cs ++ ['*', '/'])) = .block ∨
      blockKind ('/' :: '*' :: (cs ++ ['*', '/'])) = .doc ∧
        ∃ d ds, cs = d :: ds ∧ (d = '!' ∨ d = '*') := by
  match cs with
  | [] => exact Or.inl rfl
  | d :: ds =>
    rw [List.cons_append]
    unfold blockKind
    split
    · exact Or.inl rfl
    · rename_i h
      simp only [List.cons.injEq] at h
      obtain ⟨-, -, rfl, -⟩ := h
      exact Or.inr ⟨rfl, _, _, rfl, by decide⟩
    · exact Or.inl rfl
    · rename_i h
      simp only [List.cons.injEq] at h
      obtain ⟨-, -, rfl, -⟩ := h
      exact Or.inr ⟨rfl, _, _, rfl, by decide⟩
    · exact Or.inl rfl

theorem ofBlock_framed (line : Nat) (cs : List Char) :
    (ofBlock line ('/' :: '*' :: (cs ++ ['*', '/']))).Framed := by
  rcases blockKind_cases cs with hk | ⟨hk, d, ds, rfl, hd⟩
  · exact ⟨by simp [opening, closing, body, ofBlock, hk], by simp [opening, ofBlock, hk]⟩
  · rw [List.cons_append] at hk
    have hline : d ≠ '\n' := by rcases hd with rfl | rfl <;> decide
    exact ⟨by simp [opening, closing, body, ofBlock, hk],
      by simpa [opening, ofBlock, hk] using hline.symm⟩

end Comment

namespace Source

/-- Behind `rest`, a part of `cs`, the line is counted right: it is `after` there if
`cs` begins on line `line`. -/
def Passes (line : Nat) (cs : List Char) (after : Nat) (rest : List Char) : Prop :=
  ∃ used, used ++ rest = cs ∧ after = line + Text.newlines used

namespace Passes

theorem refl (line : Nat) (cs : List Char) : Passes line cs line cs := ⟨[], rfl, rfl⟩

theorem trans {l m n : Nat} {as bs cs : List Char} (h : Passes l as m bs) (k : Passes m bs n cs) :
    Passes l as n cs := by
  obtain ⟨used, rfl, rfl⟩ := h
  obtain ⟨more, rfl, rfl⟩ := k
  refine ⟨used ++ more, List.append_assoc .., ?_⟩
  rw [Text.newlines_append, Nat.add_assoc]

/-- Text without a newline is passed on one line. -/
theorem skip {line : Nat} {used : List Char} (h : '\n' ∉ used) (rest : List Char) :
    Passes line (used ++ rest) line rest :=
  ⟨used, rfl, by rw [Text.newlines_eq_zero h, Nat.add_zero]⟩

theorem next (line : Nat) (c : Char) (rest : List Char) :
    Passes line (c :: rest) (nextLine line c) rest := by
  refine ⟨[c], rfl, ?_⟩
  unfold nextLine
  split
  · rename_i h
    subst h
    rfl
  · rename_i h
    rw [Text.newlines_cons_of_ne h]
    rfl

theorem one {line : Nat} {c : Char} (h : c ≠ '\n') (rest : List Char) :
    Passes line (c :: rest) line rest := by
  have := next line c rest
  rwa [nextLine, if_neg h] at this

theorem dropWhile {line : Nat} {p : Char → Bool} (h : p '\n' = false) (cs : List Char) :
    Passes line cs line (cs.dropWhile p) :=
  ⟨cs.takeWhile p, List.takeWhile_append_dropWhile, by rw [Text.newlines_takeWhile h, Nat.add_zero]⟩

end Passes

/-! ## Readers count the lines they pass -/

theorem afterString_passes {line after : Nat} {cs rest : List Char}
    (h : afterString line cs = some (after, rest)) : Passes line cs after rest := by
  fun_induction afterString line cs with
  | case1 => simp at h
  | case2 =>
    obtain ⟨rfl, rfl⟩ := Prod.mk.inj (Option.some.inj h)
    exact Passes.one (by decide) _
  | case3 _ _ _ ih => exact (Passes.one (by decide) _).trans ((Passes.next ..).trans (ih h))
  | case4 _ _ _ _ _ ih => exact (Passes.next ..).trans (ih h)

theorem afterVerbatim_passes {line after : Nat} {cs rest : List Char}
    (h : afterVerbatim line cs = some (after, rest)) : Passes line cs after rest := by
  fun_induction afterVerbatim line cs with
  | case1 => simp at h
  | case2 _ _ ih =>
    exact (Passes.one (by decide) _).trans ((Passes.one (by decide) _).trans (ih h))
  | case3 =>
    obtain ⟨rfl, rfl⟩ := Prod.mk.inj (Option.some.inj h)
    exact Passes.one (by decide) _
  | case4 _ _ _ _ _ ih => exact (Passes.next ..).trans (ih h)

theorem newline_not_mem_hashes (n : Nat) : '\n' ∉ List.replicate n '#' :=
  fun hmem => absurd (List.eq_of_mem_replicate hmem) (by decide)

/-- The sign behind the hash signs. -/
theorem drop_hashes (cs : List Char) :
    cs.drop (cs.takeWhile (· == '#')).length = cs.dropWhile (· == '#') := by
  conv => lhs; arg 2; rw [← List.takeWhile_append_dropWhile (p := (· == '#')) (l := cs)]
  exact List.drop_left

/-- The hash signs behind the quote that ends a raw literal hold no newline. -/
theorem hashes_passes {hashes line : Nat} {cs : List Char}
    (h : (List.replicate hashes '#').isPrefixOf cs) : Passes line cs line (cs.drop hashes) := by
  obtain ⟨rest, rfl⟩ := List.isPrefixOf_iff_prefix.mp h
  have hdrop : (List.replicate hashes '#' ++ rest).drop hashes = rest :=
    List.drop_left' List.length_replicate
  rw [hdrop]
  exact Passes.skip (newline_not_mem_hashes hashes) rest

theorem afterRaw_passes {hashes line after : Nat} {cs rest : List Char}
    (h : afterRaw hashes line cs = some (after, rest)) : Passes line cs after rest := by
  fun_induction afterRaw hashes line cs with
  | case1 => simp at h
  | case2 line c cs hclose =>
    obtain ⟨rfl, rfl⟩ := Prod.mk.inj (Option.some.inj h)
    obtain ⟨rfl, hprefix⟩ := hclose
    exact (Passes.one (by decide) _).trans (hashes_passes hprefix)
  | case3 _ _ _ _ ih => exact (Passes.next ..).trans (ih h)

theorem afterCharacter_passes {line after : Nat} {cs rest : List Char}
    (h : afterCharacter line cs = some (after, rest)) : Passes line cs after rest := by
  fun_induction afterCharacter line cs with
  | case1 => simp at h
  | case2 => simp at h
  | case3 =>
    obtain ⟨rfl, rfl⟩ := Prod.mk.inj (Option.some.inj h)
    exact Passes.one (by decide) _
  | case4 _ _ _ ih => exact (Passes.one (by decide) _).trans ((Passes.next ..).trans (ih h))
  | case5 line c cs hnewline _ _ ih => exact (Passes.one hnewline cs).trans (ih h)

/-- What a step of the scanner has read: code, or a comment and what it leaves unread
of the comment's last line. -/
inductive Reads (line : Nat) (cs : List Char) : Step → Prop where
  | code {item : Item} {after : Nat} {rest : List Char} :
    (∀ k, item ≠ .comment k) → Passes line cs after rest → Reads line cs ⟨item, after, rest⟩
  | comment {k : Comment} {behind : List Char} {after : Nat} {rest : List Char} :
    k.Framed → k.startLine = line → k.endLine = line + Text.newlines k.text →
      k.text ++ behind = cs → Passes k.endLine behind after rest →
      Reads line cs ⟨.comment k, after, rest⟩

theorem literal_reads {line after : Nat} {problem : SourceProblem} {cs : List Char}
    {r : Option (Nat × List Char)} {s : Step}
    (hr : ∀ l rest, r = some (l, rest) → Passes line cs l rest)
    (h : literal after problem r = .ok s) : Reads line cs s := by
  unfold literal at h
  split at h
  · cases h
  · rename_i l rest
    obtain rfl := Except.ok.inj h
    exact Reads.code (by simp) (hr l rest rfl)

theorem rawString_reads {line : Nat} {cs rest : List Char} {s : Step}
    (hp : Passes line cs line rest) (h : rawString line rest = .ok s) : Reads line cs s := by
  unfold rawString at h
  simp only at h
  split at h
  · rename_i behind hbehind
    have hhashes : Passes line rest line ('"' :: behind) := by
      rw [← hbehind, drop_hashes]
      exact Passes.dropWhile (by decide) rest
    have hquote : Passes line cs line behind :=
      hp.trans (hhashes.trans (Passes.one (by decide) behind))
    exact literal_reads (fun _ _ e => hquote.trans (afterRaw_passes e)) h
  · cases h

theorem identifier_reads {line : Nat} {c : Char} {cs : List Char} {s : Step} (hc : c ≠ '\n')
    (h : identifier line c cs = .ok s) : Reads line (c :: cs) s := by
  have hname : Passes line (c :: cs) line (cs.dropWhile Text.isNameChar) :=
    (Passes.one hc cs).trans (Passes.dropWhile (by decide) cs)
  unfold identifier at h
  simp only at h
  split at h
  · split at h
    · exact rawString_reads hname h
    · rename_i after hafter
      split at h
      · exact rawString_reads hname h
      · split at h
        · exact rawString_reads hname h
        · obtain rfl := Except.ok.inj h
          rw [hafter] at hname
          exact Reads.code (by simp) (hname.trans (Passes.one (by decide) _))
    · obtain rfl := Except.ok.inj h
      exact Reads.code (by simp) hname
  · obtain rfl := Except.ok.inj h
    exact Reads.code (by simp) hname

theorem characterOrLifetime_reads {line : Nat} {cs : List Char} {s : Step}
    (h : characterOrLifetime line cs = .ok s) : Reads line ('\'' :: cs) s := by
  have hquote : Passes line ('\'' :: cs) line cs := Passes.one (by decide) cs
  unfold characterOrLifetime at h
  split at h
  · exact literal_reads (fun _ _ e => hquote.trans (afterCharacter_passes e)) h
  · split at h
    · obtain rfl := Except.ok.inj h
      exact Reads.code (by simp) hquote
    · rename_i hc
      obtain rfl := Except.ok.inj h
      exact Reads.code (by simp)
        (hquote.trans ((Passes.one hc _).trans (Passes.one (by decide) _)))
  · obtain rfl := Except.ok.inj h
    exact Reads.code (by simp) hquote

/-- A line comment leaves the carriage return at the end of its line unread. -/
theorem lineComment_reads (line : Nat) (cs : List Char) :
    Reads line ('/' :: '/' :: cs) (lineComment line cs) := by
  obtain ⟨gap, hgap, hline⟩ := Text.dropReturn_append (cs.takeWhile (· != '\n'))
  have htext : Text.dropReturn ('/' :: '/' :: cs.takeWhile (· != '\n')) =
      '/' :: '/' :: Text.dropReturn (cs.takeWhile (· != '\n')) := by
    rw [Text.dropReturn_cons (by decide), Text.dropReturn_cons (by decide)]
  have hnone : Text.newlines (Text.dropReturn (cs.takeWhile (· != '\n'))) = 0 := by
    have h := Text.newlines_takeWhile (p := (· != '\n')) (by decide) cs
    rw [← hgap, Text.newlines_append] at h
    omega
  unfold lineComment
  simp only [htext]
  refine Reads.comment (Comment.ofLine_framed line _) rfl ?_ ?_
    (Passes.skip hline (cs.dropWhile (· != '\n')))
  · show line = line + Text.newlines ('/' :: '/' :: _)
    rw [Text.newlines_cons_of_ne (by decide), Text.newlines_cons_of_ne (by decide), hnone]
    rfl
  · show '/' :: '/' :: (Text.dropReturn _ ++ (gap ++ _)) = '/' :: '/' :: cs
    rw [← List.append_assoc, hgap, List.takeWhile_append_dropWhile]

theorem flatBlock_closed {cs text rest : List Char} (h : flatBlock cs = some (text, rest)) :
    ∃ inner, text = inner ++ ['*', '/'] := by
  fun_induction flatBlock cs generalizing text with
  | case1 => simp at h
  | case2 =>
    obtain ⟨rfl, rfl⟩ := Prod.mk.inj (Option.some.inj h)
    exact ⟨[], rfl⟩
  | case3 c _ _ ih =>
    obtain ⟨r, hr, heq⟩ := Option.map_eq_some_iff.mp h
    obtain ⟨rfl, rfl⟩ := Prod.mk.inj heq
    obtain ⟨inner, hinner⟩ := ih hr
    exact ⟨c :: inner, by rw [hinner, List.cons_append]⟩

theorem nestedBlock_closed {depth : Nat} {cs text rest : List Char}
    (h : nestedBlock depth cs = some (text, rest)) : ∃ inner, text = inner ++ ['*', '/'] := by
  fun_induction nestedBlock depth cs generalizing text with
  | case1 => simp at h
  | case2 =>
    obtain ⟨rfl, rfl⟩ := Prod.mk.inj (Option.some.inj h)
    exact ⟨[], rfl⟩
  | case3 _ _ ih | case4 _ _ ih =>
    obtain ⟨r, hr, heq⟩ := Option.map_eq_some_iff.mp h
    obtain ⟨rfl, rfl⟩ := Prod.mk.inj heq
    obtain ⟨inner, hinner⟩ := ih hr
    exact ⟨_ :: _ :: inner, by rw [hinner]; rfl⟩
  | case5 _ _ _ _ _ _ ih =>
    obtain ⟨r, hr, heq⟩ := Option.map_eq_some_iff.mp h
    obtain ⟨rfl, rfl⟩ := Prod.mk.inj heq
    obtain ⟨inner, hinner⟩ := ih hr
    exact ⟨_ :: inner, by rw [hinner, List.cons_append]⟩

theorem blockRest_closed {nested : Bool} {cs text rest : List Char}
    (h : blockRest nested cs = some (text, rest)) : ∃ inner, text = inner ++ ['*', '/'] := by
  unfold blockRest at h
  split at h
  · exact nestedBlock_closed h
  · exact flatBlock_closed h

theorem blockComment_reads {nested : Bool} {line : Nat} {cs : List Char} {s : Step}
    (h : blockComment nested line cs = .ok s) : Reads line ('/' :: '*' :: cs) s := by
  unfold blockComment at h
  split at h
  · cases h
  · rename_i text rest hb
    obtain rfl := Except.ok.inj h
    obtain ⟨inner, rfl⟩ := blockRest_closed hb
    refine Reads.comment (Comment.ofBlock_framed line inner) rfl rfl ?_ (Passes.refl _ rest)
    show '/' :: '*' :: ((inner ++ ['*', '/']) ++ rest) = '/' :: '*' :: cs
    rw [blockRest_append hb]

/-- One step of the scanner, whatever it meets. -/
theorem step_reads {nested : Bool} {line : Nat} {c : Char} {cs : List Char} {s : Step}
    (h : step nested line c cs = .ok s) : Reads line (c :: cs) s := by
  unfold step at h
  split at h
  · obtain rfl := Except.ok.inj h
    exact lineComment_reads line _
  · exact blockComment_reads h
  · exact literal_reads
      (fun _ _ e => (Passes.one (by decide) cs).trans (afterString_passes e)) h
  · exact characterOrLifetime_reads h
  · rename_i rest
    have hsign : Passes line ('@' :: '"' :: rest) line rest :=
      (Passes.one (by decide) _).trans (Passes.one (by decide) rest)
    exact literal_reads (fun _ _ e => hsign.trans (afterVerbatim_passes e)) h
  iterate 6
    obtain rfl := Except.ok.inj h
    exact Reads.code (by simp) (Passes.one (by decide) cs)
  split at h
  · rename_i hstart
    have hc : c ≠ '\n' := by
      intro hc
      subst hc
      exact absurd hstart (by decide)
    exact identifier_reads hc h
  · split at h
    · rename_i hdigit
      have hc : c ≠ '\n' := by
        intro hc
        subst hc
        exact absurd hdigit (by decide)
      obtain rfl := Except.ok.inj h
      exact Reads.code (by simp) ((Passes.one hc cs).trans (Passes.dropWhile (by decide) cs))
    · obtain rfl := Except.ok.inj h
      exact Reads.code (by simp) (Passes.next line c cs)

/-! ## The whole text -/

/-- The comments from a step on that began on line `line` inside the brackets `opened`. -/
def scanBehind (nested : Bool) (line : Nat) (opened : List (Char × Nat)) (s : Step) :
    Except SourceFault (List Comment) :=
  match s.item with
  | .code => scanFrom nested s.line opened s.rest
  | .comment k => (scanFrom nested s.line opened s.rest).map (k :: ·)
  | .opening bracket => scanFrom nested s.line ((bracket, line) :: opened) s.rest
  | .closing bracket => closeBracket line bracket opened >>= fun outer =>
      scanFrom nested s.line outer s.rest

theorem scanFrom_cons (nested : Bool) (line : Nat) (opened : List (Char × Nat)) (c : Char)
    (cs : List Char) :
    scanFrom nested line opened (c :: cs) =
      step nested line c cs >>= scanBehind nested line opened := by
  rw [scanFrom]
  split
  · rename_i h
    rw [h]
    rfl
  · rename_i s h
    have hbehind : step nested line c cs >>= scanBehind nested line opened =
        scanBehind nested line opened s := by
      rw [h]
      rfl
    refine Eq.trans ?_ hbehind.symm
    obtain ⟨item, after, rest⟩ := s
    cases item with
    | code | comment | opening => rfl
    | closing bracket =>
      unfold scanBehind
      simp only
      cases closeBracket line bracket opened <;> rfl

/-- The comments are stretches of the text `cs`, one behind another.  The text begins on
line `line`; each comment begins on the line that its first character stands on and ends
on the line of its last. -/
inductive Placed : Nat → List Char → List Comment → Prop where
  | nil {line : Nat} {cs : List Char} : Placed line cs []
  | cons {line : Nat} {before rest : List Char} {c : Comment} {comments : List Comment} :
    c.Framed → c.startLine = line + Text.newlines before →
      c.endLine = c.startLine + Text.newlines c.text → Placed c.endLine rest comments →
      Placed line (before ++ (c.text ++ rest)) (c :: comments)

/-- Text in front of the comments moves them to later lines. -/
theorem Placed.passes {line after : Nat} {cs rest : List Char} {comments : List Comment}
    (hp : Passes line cs after rest) (h : Placed after rest comments) :
    Placed line cs comments := by
  obtain ⟨used, rfl, rfl⟩ := hp
  cases h with
  | nil => exact Placed.nil
  | @cons _ before rest c comments hframed hstart hend hrest =>
    rw [← List.append_assoc]
    refine Placed.cons hframed ?_ hend hrest
    rw [hstart, Text.newlines_append, Nat.add_assoc]

namespace Reads

theorem passes {line : Nat} {cs : List Char} {s : Step} (h : Reads line cs s)
    (hcode : ∀ k, s.item ≠ .comment k) : Passes line cs s.line s.rest := by
  cases h with
  | code _ hp => exact hp
  | comment => exact absurd rfl (hcode _)

/-- A comment that was read stands in front of the comments behind it. -/
theorem placed {line : Nat} {cs : List Char} {s : Step} {k : Comment} {comments : List Comment}
    (h : Reads line cs s) (hk : s.item = .comment k) (hrest : Placed s.line s.rest comments) :
    Placed line cs (k :: comments) := by
  cases h with
  | code hcode => exact absurd hk (hcode k)
  | @comment c behind after rest hframed hstart hend hcs hp =>
    obtain rfl := Item.comment.inj hk
    rw [← hcs, ← List.nil_append (c.text ++ behind)]
    refine Placed.cons hframed hstart ?_ (hrest.passes hp)
    rw [hend, hstart]

end Reads

theorem scanFrom_placed {nested : Bool} {line : Nat} {opened : List (Char × Nat)}
    {cs : List Char} {comments : List Comment}
    (h : scanFrom nested line opened cs = .ok comments) : Placed line cs comments := by
  fun_induction scanFrom nested line opened cs generalizing comments with
  | case1 =>
    obtain rfl := Except.ok.inj h
    exact Placed.nil
  | case2 => cases h
  | case3 => cases h
  | case4 line opened c cs s hstep hlen hitem ih =>
    exact (ih h).passes ((step_reads hstep).passes (by simp [hitem]))
  | case5 line opened c cs s hstep hlen k hitem ih =>
    cases hrest : scanFrom nested s.line opened s.rest with
    | error fault =>
      rw [hrest] at h
      cases h
    | ok later =>
      rw [hrest] at h
      obtain rfl := Except.ok.inj h
      exact (step_reads hstep).placed hitem (ih hrest)
  | case6 line opened c cs s hstep hlen bracket hitem ih =>
    exact (ih h).passes ((step_reads hstep).passes (by simp [hitem]))
  | case7 => cases h
  | case8 line opened c cs s hstep hlen bracket hitem outer hclose ih =>
    exact (ih h).passes ((step_reads hstep).passes (by simp [hitem]))

/-- The scanner finds every comment where it stands. -/
theorem comments_placed {p : Path} {text : String} {cs : List Comment}
    (h : comments p text = .ok cs) : Placed 1 text.toList cs :=
  scanFrom_placed h

end Source
end CheckScript
