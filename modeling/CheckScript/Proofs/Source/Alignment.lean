/-
The script of a source stands on the lines of the source.

`scriptFrom` writes one comment body behind another and only ever asks whether the
line that it has reached is the line of the next comment.  Line for line the result
is what the source shows if everything but those bodies is erased: `script_aligned`
says so for every source that scans, and that no body is lost, repeated or moved.

The invariant joins three counts.  `Placed` ties the lines of the comments to the
newlines of the source, `Framed.newlines_body` the newlines of a body to those of its
comment, and `lastLine_eq` the newlines written so far to the end of the last comment.
-/
import CheckScript.Proofs.Decision
import CheckScript.Proofs.Source.Placement

namespace CheckScript

/-- The part of the body that stands on line `line` of the source. -/
def Comment.partOn (c : Comment) (line : Nat) : List Char :=
  if c.startLine ≤ line then Text.piece '\n' c.body (line - c.startLine) else []

namespace Source

/-- The comments that may hold a script: all but documentation. -/
def scripted (comments : List Comment) : List Comment :=
  comments.filter fun c => c.kind != .doc

/-- What the bodies of the comments, without documentation, show on line `line` of the
source, in their order. -/
def partsOn (comments : List Comment) (line : Nat) : List Char :=
  (scripted comments).flatMap fun c => c.partOn line

/-- The line that the last of the comments ends on, without documentation, or `line` if
there is none. -/
def lastLine (line : Nat) (comments : List Comment) : Nat :=
  ((scripted comments).getLast?.map Comment.endLine).getD line

/-! ## One comment more -/

theorem scripted_doc {c : Comment} (h : c.kind = .doc) (comments : List Comment) :
    scripted (c :: comments) = scripted comments := by
  rw [scripted, List.filter_cons_of_neg (by simp [h])]
  rfl

theorem scripted_cons {c : Comment} (h : c.kind ≠ .doc) (comments : List Comment) :
    scripted (c :: comments) = c :: scripted comments := by
  rw [scripted, List.filter_cons_of_pos (by simp [h])]
  rfl

theorem partsOn_doc {c : Comment} (h : c.kind = .doc) (comments : List Comment) (line : Nat) :
    partsOn (c :: comments) line = partsOn comments line := by
  rw [partsOn, scripted_doc h]
  rfl

theorem partsOn_cons {c : Comment} (h : c.kind ≠ .doc) (comments : List Comment) (line : Nat) :
    partsOn (c :: comments) line = c.partOn line ++ partsOn comments line := by
  rw [partsOn, scripted_cons h, List.flatMap_cons]
  rfl

theorem lastLine_doc {c : Comment} (h : c.kind = .doc) (line : Nat) (comments : List Comment) :
    lastLine line (c :: comments) = lastLine line comments := by
  rw [lastLine, scripted_doc h]
  rfl

theorem lastLine_cons {c : Comment} (h : c.kind ≠ .doc) (line : Nat) (comments : List Comment) :
    lastLine line (c :: comments) = lastLine c.endLine comments := by
  rw [lastLine, scripted_cons h, lastLine]
  cases scripted comments with
  | nil => rfl
  | cons d ds =>
    rw [List.getLast?_cons_cons]
    cases hlast : (d :: ds).getLast? with
    | none => cases List.getLast?_eq_none_iff.mp hlast
    | some e => rfl

theorem scriptFrom_doc {c : Comment} (h : c.kind = .doc) (line : Nat) (comments : List Comment) :
    scriptFrom line (c :: comments) = scriptFrom line comments := by
  rw [scriptFrom, h]

theorem scriptFrom_cons {c : Comment} (h : c.kind ≠ .doc) (line : Nat)
    (comments : List Comment) :
    scriptFrom line (c :: comments) =
      List.replicate (c.startLine - line) '\n' ++ (c.body ++ scriptFrom c.endLine comments) := by
  rw [scriptFrom]
  split
  · rename_i hdoc
    exact absurd hdoc h
  · rw [List.append_assoc]

/-- A script goes on where the comments before it end. -/
theorem scriptFrom_append (line : Nat) (earlier later : List Comment) :
    scriptFrom line (earlier ++ later) =
      scriptFrom line earlier ++ scriptFrom (lastLine line earlier) later := by
  induction earlier generalizing line with
  | nil => rfl
  | cons c earlier ih =>
    rw [List.cons_append]
    by_cases h : c.kind = .doc
    · rw [scriptFrom_doc h, scriptFrom_doc h, lastLine_doc h, ih]
    · rw [scriptFrom_cons h, scriptFrom_cons h, lastLine_cons h, ih]
      simp only [List.append_assoc]

/-! ## Comments in place -/

/-- No comment has a part on a line above the text that it stands in. -/
theorem partsOn_of_lt {line l : Nat} {cs : List Char} {comments : List Comment}
    (h : Placed l cs comments) (hlt : line < l) : partsOn comments line = [] := by
  induction h with
  | nil => rfl
  | @cons l before rest c comments _ hstart hend _ ih =>
    have hrest : partsOn comments line = [] := ih (by omega)
    by_cases hk : c.kind = .doc
    · rw [partsOn_doc hk, hrest]
    · rw [partsOn_cons hk, hrest, Comment.partOn, if_neg (by omega)]
      rfl

/-- Line `i` of a script that begins on line `line`, counted from there, is what the
bodies show on line `line + i` of the source. -/
theorem piece_scriptFrom {line l : Nat} {cs : List Char} {comments : List Comment}
    (h : Placed l cs comments) (hle : line ≤ l) (i : Nat) :
    Text.piece '\n' (scriptFrom line comments) i = partsOn comments (line + i) := by
  induction h generalizing line i with
  | nil => exact Text.piece_nil '\n' i
  | @cons l before rest c comments hframed hstart hend hrest ih =>
    by_cases hk : c.kind = .doc
    · rw [scriptFrom_doc hk, partsOn_doc hk]
      exact ih (by omega) i
    · have hbody : c.body.count '\n' = c.endLine - c.startLine := by
        have hnew := hframed.newlines_body
        rw [Text.newlines] at hnew
        omega
      rw [scriptFrom_cons hk, partsOn_cons hk, Text.piece_replicate_append, Comment.partOn]
      by_cases hi : c.startLine - line ≤ i
      · rw [if_pos hi, if_pos (by omega), Text.piece_append, hbody]
        have hindex : line + i - c.startLine = i - (c.startLine - line) := by omega
        rw [hindex]
        congr 1
        -- The comments behind `c` show nothing before `c` ends.
        by_cases hj : c.endLine - c.startLine ≤ i - (c.startLine - line)
        · rw [if_pos hj, ih (Nat.le_refl _)]
          congr 1
          omega
        · rw [if_neg hj, partsOn_of_lt hrest (by omega)]
      · rw [if_neg hi, if_neg (by omega), partsOn_of_lt hrest (by omega)]
        rfl

/-- The newlines of a script lead to the end of the last comment. -/
theorem lastLine_eq {line l : Nat} {cs : List Char} {comments : List Comment}
    (h : Placed l cs comments) (hle : line ≤ l) :
    lastLine line comments = line + Text.newlines (scriptFrom line comments) := by
  induction h generalizing line with
  | nil => rfl
  | @cons l before rest c comments hframed hstart hend hrest ih =>
    by_cases hk : c.kind = .doc
    · rw [scriptFrom_doc hk, lastLine_doc hk]
      exact ih (by omega)
    · rw [scriptFrom_cons hk, lastLine_cons hk, Text.newlines_append, Text.newlines_append,
        Text.newlines_replicate, hframed.newlines_body, ih (Nat.le_refl _)]
      omega

/-- Comments behind others stand in what follows those. -/
theorem Placed.behind {line l : Nat} {cs : List Char} {earlier later : List Comment}
    (h : Placed l cs (earlier ++ later)) (hle : line ≤ l) :
    ∃ m rest, Placed m rest later ∧ Placed l cs earlier ∧ lastLine line earlier ≤ m := by
  induction earlier generalizing line l cs with
  | nil => exact ⟨l, cs, h, Placed.nil, hle⟩
  | cons c earlier ih =>
    cases h with
    | @cons _ before rest _ _ hframed hstart hend hrest =>
      by_cases hk : c.kind = .doc
      · have hline : line ≤ c.endLine := by omega
        obtain ⟨m, rest', hlater, hearlier, hm⟩ := ih hrest hline
        exact ⟨m, rest', hlater, Placed.cons hframed hstart hend hearlier, by rwa [lastLine_doc hk]⟩
      · obtain ⟨m, rest', hlater, hearlier, hm⟩ := ih hrest (Nat.le_refl _)
        exact ⟨m, rest', hlater, Placed.cons hframed hstart hend hearlier,
          by rwa [lastLine_cons hk]⟩

/-- Every body stands whole in the script, from the line of its comment on. -/
theorem body_in_scriptFrom {line l : Nat} {cs : List Char} {earlier later : List Comment}
    {c : Comment} (h : Placed l cs (earlier ++ c :: later)) (hle : line ≤ l)
    (hk : c.kind ≠ .doc) :
    ∃ before after, scriptFrom line (earlier ++ c :: later) = before ++ (c.body ++ after) ∧
      line + Text.newlines before = c.startLine := by
  obtain ⟨m, rest, hlater, hearlier, hm⟩ := h.behind hle
  cases hlater with
  | cons _ hstart _ _ =>
    refine ⟨scriptFrom line earlier ++
      List.replicate (c.startLine - lastLine line earlier) '\n', scriptFrom c.endLine later, ?_, ?_⟩
    · rw [scriptFrom_append, scriptFrom_cons hk, List.append_assoc]
    · have hlast := lastLine_eq hearlier hle
      rw [Text.newlines_append, Text.newlines_replicate]
      omega

/-! ## Sources that scan -/

/-- The script of a source is the source, line by line, with nothing left of it but the
bodies of its comments, documentation apart, and it ends with the last of them.

The comments stand in the source where their lines say, so `partsOn` shows what the
bodies have on a line of the source.  Pieces of the script are counted from 0 and lines
from 1; a piece behind the last is empty, as is what the bodies show there. -/
theorem script_aligned {p : Path} {text : String} {cs : List Comment}
    (h : comments p text = .ok cs) :
    Placed 1 text.toList cs ∧
      (Text.cut '\n' (script cs).toList).length = lastLine 1 cs ∧
      (∀ i, Text.piece '\n' (script cs).toList i = partsOn cs (i + 1)) ∧
      ∀ earlier c later, cs = earlier ++ c :: later → c.kind ≠ .doc →
        ∃ before after, (script cs).toList = before ++ (c.body ++ after) ∧
          Text.newlines before + 1 = c.startLine := by
  have hplaced : Placed 1 text.toList cs := comments_placed h
  rw [script, String.toList_ofList]
  refine ⟨hplaced, ?_, fun i => ?_, ?_⟩
  · rw [Text.cut_length, lastLine_eq hplaced (Nat.le_refl 1), Text.newlines, Nat.add_comm]
  · rw [piece_scriptFrom hplaced (Nat.le_refl 1), Nat.add_comm]
  · intro earlier c later hcs hk
    subst hcs
    obtain ⟨before, after, hscript, hline⟩ := body_in_scriptFrom hplaced (Nat.le_refl 1) hk
    exact ⟨before, after, hscript, by omega⟩

/-- A block comment over two lines and a line comment behind it that ends in a carriage
return, then documentation, then two comments on one line. -/
theorem script_aligned_mixed :
    ∃ cs, comments ⟨"main.rs"⟩ "/* a\nb */ x(); // c\r\n/// d\n/* e */ y(); // f" = .ok cs ∧
      Placed 1 "/* a\nb */ x(); // c\r\n/// d\n/* e */ y(); // f".toList cs ∧
      (Text.cut '\n' (script cs).toList).length = 4 ∧
      Text.piece '\n' (script cs).toList 1 = "b  c".toList ∧
      Text.piece '\n' (script cs).toList 3 = " e  f".toList := by
  have h : comments ⟨"main.rs"⟩ "/* a\nb */ x(); // c\r\n/// d\n/* e */ y(); // f" =
      .ok [⟨.block, "/* a\nb */".toList, 1, 2⟩, ⟨.line, "// c".toList, 2, 2⟩,
        ⟨.doc, "/// d".toList, 3, 3⟩, ⟨.block, "/* e */".toList, 4, 4⟩,
        ⟨.line, "// f".toList, 4, 4⟩] := by decide +kernel
  obtain ⟨hplaced, hlength, hpiece, -⟩ := script_aligned h
  exact ⟨_, h, hplaced, hlength.trans (by decide), (hpiece 1).trans (by decide),
    (hpiece 3).trans (by decide)⟩

end Source
end CheckScript
