/-
The diagnostics of scripts that do not compile.

Words note problems at places of the text, the parser reports problems with words at their
places, and names are looked up for places that come from words too.  So all diagnostics stand
at real places of the text, in the order of reading (`diagnostics_placed`), except for one
slip: an escaped newline is reported in column 0 of the next line.
-/
import CheckScript.Proofs.Script.Compile
import CheckScript.Proofs.Script.Derivation
import CheckScript.Proofs.Script.Invariant
import CheckScript.Proofs.Script.Origin
import CheckScript.Proofs.Script.Place
import CheckScript.Proofs.Script.Soundness

namespace CheckScript
namespace Script

/-! ## Where the parser reports -/

namespace Parser

/-- All words are among `ts`, and so are the words that problems were reported with. -/
structure State.Among (ts : List Token) (s : State) : Prop where
  rest : ∀ t ∈ s.rest, t ∈ ts
  finish : s.finish ∈ ts
  diagnostics : ∀ d ∈ s.diagnostics, ∃ t ∈ ts, d.place = t.place

theorem State.Among.head {ts : List Token} {s : State} (h : s.Among ts) : s.head ∈ ts := by
  unfold State.head
  split
  · exact h.finish
  · rename_i t rest hrest
    exact h.rest t (hrest ▸ List.mem_cons_self)

theorem among_stable (ts : List Token) : Stable (State.Among ts) where
  pass hrest h := {
    h with rest := fun t ht => h.rest t (hrest ▸ List.mem_cons_of_mem _ ht) }
  report _ h := { h with
    diagnostics := List.forall_mem_append.mpr
      ⟨h.diagnostics, List.forall_mem_singleton.mpr ⟨_, h.head, rfl⟩⟩ }
  back hs ht := { ht with rest := hs.rest }

end Parser

/-- Problems of the syntax are reported with words of the script, or with the mark of its
end. -/
theorem parse_place {words : List Token} {finish : Token} (hwords : ∀ t ∈ words, t.kind ≠ .finish)
    (hfinish : finish.kind = .finish) {d : Diagnostic} (h : d ∈ (parse (words ++ [finish])).2) :
    ∃ t ∈ words ++ [finish], d.place = t.place := by
  unfold parse at h
  rw [Parser.ofTokens_append hwords hfinish] at h
  have hstart : Parser.State.Among (words ++ [finish]) ⟨words, finish, []⟩ :=
    ⟨fun t ht => List.mem_append_left _ ht,
      List.mem_append_right _ List.mem_cons_self, List.forall_mem_nil _⟩
  have hend := (Parser.among_stable _).statementsUntil none
    ((Parser.among_stable _).statement maxNesting) hstart
  exact hend.diagnostics d h

/-! ## The whole script -/

/-- A script with a clean syntax is derived from its words. -/
theorem derives_tree {text : String} (h : syntaxFaults text = []) :
    ∃ words, (∀ t ∈ words, t ∈ (tokenize text).1 ∧ t.kind ≠ .finish) ∧
      Grammar.Derives words (tree text) := by
  obtain ⟨words, hwords, hkinds⟩ := tokensFrom_finish .start text.toList
  have htokens : (tokenize text).1 = words ++ [⟨.finish, Position.start.after text.toList⟩] :=
    hwords
  have hparse := (List.append_eq_nil_iff.mp h).2
  rw [htokens] at hparse
  refine ⟨words, fun t ht => ⟨htokens ▸ List.mem_append_left _ ht, hkinds t ht⟩, ?_⟩
  rw [tree, htokens]
  exact derives_of_parse hkinds rfl hparse

/-- Every place that the tree of a script with a clean syntax can give is in the script. -/
theorem tree_places {text : String} (h : syntaxFaults text = []) :
    ∀ p ∈ stmtPlaces (tree text).stmts, p.In text.toList := by
  obtain ⟨words, hwords, hderives⟩ := derives_tree h
  refine hderives.origin fun t ht => ?_
  obtain ⟨rest, hreach⟩ := tokensFrom_place (hwords t ht).1
  exact ⟨hreach.place_in, hreach.place_in.line_start⟩

/-- An unknown escape of a newline: the column is that of the place behind the newline, less
one. -/
def Slipped (cs : List Char) (d : Diagnostic) : Prop :=
  d.problem = .unknownEscape '\n' ∧ d.place.column = 0 ∧
    ∃ line, d.place.line = line + 1 ∧ Position.In ⟨line, 1⟩ cs ∧ Position.In ⟨line + 1, 1⟩ cs

theorem place_of_compile {text : String} {ds : List Diagnostic} (h : compile text = .error ds)
    {d : Diagnostic} (hd : d ∈ ds) :
    d.place.In text.toList ∨ d ∈ (tokenize text).2 ∧ Slipped text.toList d := by
  rcases (rejected_of_compile h).found with ⟨-, hperm⟩ | ⟨hclean, hperm⟩
  · rcases List.mem_append.mp (hperm.mem_iff.mp hd) with hd | hd
    · exact (tokensFrom_noted hd).place_in.imp And.right (And.intro hd)
    · obtain ⟨words, hwords, hkinds⟩ := tokensFrom_finish .start text.toList
      have htokens : (tokenize text).1 = words ++ [⟨.finish, Position.start.after text.toList⟩] :=
        hwords
      rw [htokens] at hd
      obtain ⟨t, ht, hplace⟩ := parse_place hkinds rfl hd
      obtain ⟨rest, hreach⟩ := tokensFrom_place (hwords ▸ ht)
      exact .inl (hplace ▸ hreach.place_in)
  · exact .inl (tree_places hclean _ (resolve_places (hperm.mem_iff.mp hd)))

/-- The diagnostics of a script stand in the order of reading.  They stand in the text exactly
if no string literal has an escaped newline.  For such a newline, and for nothing else, the
place is column 0 of the line that begins behind it. -/
theorem diagnostics_placed {text : String} {ds : List Diagnostic} (h : compile text = .error ds) :
    ds.Pairwise (fun a b => a.place.noLater b.place = true) ∧
      ((∀ d ∈ ds, d.place.In text.toList) ↔
        ∀ d ∈ (tokenize text).2, d.problem ≠ .unknownEscape '\n') ∧
      ∀ d ∈ ds, d.place.In text.toList ∨ Slipped text.toList d := by
  refine ⟨(rejected_of_compile h).sorted, ⟨fun hall d hd hproblem => ?_, fun hnone d hd => ?_⟩,
    fun d hd => (place_of_compile h hd).imp_right And.right⟩
  · -- a report of the words is among those of the script, and this one has slipped
    obtain ⟨es, hes, hmem⟩ := compile_of_mem (List.mem_append_left (parse (tokenize text).1).2 hd)
    have hds : d ∈ ds := Except.error.inj (h.symm.trans hes) ▸ hmem
    rcases (tokensFrom_noted hd).place_in with ⟨hother, -⟩ | ⟨-, hcolumn, -⟩
    · exact hother hproblem
    · have hpos : 1 ≤ d.place.column := (hall d hds).2.1
      omega
  · rcases place_of_compile h hd with hplace | ⟨hword, hproblem, -⟩
    · exact hplace
    · exact absurd hproblem (hnone d hword)

/-- Problems of words and of the grammar. -/
theorem diagnostics_placed_mixed :
    ∃ ds, compile "log(\"a\\q\")\nlet = nobody; #" = .error ds ∧
      ⟨⟨2, 5⟩, .expected .variableName .equal⟩ ∈ ds ∧
      (∀ d ∈ (tokenize "log(\"a\\q\")\nlet = nobody; #").2, d.problem ≠ .unknownEscape '\n') ∧
      ∀ d ∈ ds, d.place.In "log(\"a\\q\")\nlet = nobody; #".toList := by
  have hfault : ⟨⟨2, 5⟩, .expected .variableName .equal⟩ ∈
      syntaxFaults "log(\"a\\q\")\nlet = nobody; #" := by decide +kernel
  have hwords : ∀ d ∈ (tokenize "log(\"a\\q\")\nlet = nobody; #").2,
      d.problem ≠ .unknownEscape '\n' := by decide +kernel
  obtain ⟨ds, hcompile, hmem⟩ := compile_of_mem hfault
  exact ⟨ds, hcompile, hmem, hwords, (diagnostics_placed hcompile).2.1.mpr hwords⟩

/-- A newline behind a backslash in a string literal has no place in the script. -/
theorem escaped_newline_misplaced :
    ¬∀ text ds, compile text = .error ds → ∀ d ∈ ds, d.place.In text.toList := by
  intro h
  have hfault : ⟨⟨2, 0⟩, .unknownEscape '\n'⟩ ∈ syntaxFaults "log(\"a\\\nb\");" := by decide +kernel
  obtain ⟨ds, hcompile, hmem⟩ := compile_of_mem hfault
  have hin := h _ _ hcompile _ hmem
  exact absurd hin.2.1 (by decide)

end Script
end CheckScript
