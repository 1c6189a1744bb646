/-
What compiling comes to.

`compile_cases` says once in which ways a script can be turned down; that a script compiles
only with a clean syntax and clean names, and that every problem of the syntax is among the
diagnostics, follow from it.
-/
import CheckScript.Script.Compile

namespace CheckScript
namespace Script

/-- What the parser makes of a script. -/
def tree (text : String) : Program := (parse (tokenize text).1).1

/-- Problems with words and with the grammar, as they are found. -/
def syntaxFaults (text : String) : List Diagnostic :=
  (tokenize text).2 ++ (parse (tokenize text).1).2

theorem Diagnostic.noLater_trans (a b c : Diagnostic) (hab : a.noLater b = true)
    (hbc : b.noLater c = true) : a.noLater c = true := by
  simp only [noLater, Position.noLater, Bool.or_eq_true, Bool.and_eq_true, decide_eq_true_eq,
    beq_iff_eq] at hab hbc ⊢
  omega

theorem Diagnostic.noLater_total (a b : Diagnostic) : (a.noLater b || b.noLater a) = true := by
  simp only [noLater, Position.noLater, Bool.or_eq_true, Bool.and_eq_true, decide_eq_true_eq,
    beq_iff_eq]
  omega

theorem sortDiagnostics_sorted (ds : List Diagnostic) :
    (sortDiagnostics ds).Pairwise fun a b => a.noLater b = true :=
  List.pairwise_mergeSort Diagnostic.noLater_trans Diagnostic.noLater_total ds

theorem sortDiagnostics_perm (ds : List Diagnostic) : (sortDiagnostics ds).Perm ds :=
  List.mergeSort_perm ds _

theorem diagnose_clean {text : String} (h : syntaxFaults text = []) :
    diagnose text = (tree text, sortDiagnostics (resolve (tree text))) := by
  have hempty : (syntaxFaults text).isEmpty = true := List.isEmpty_iff.mpr h
  exact if_pos hempty

theorem diagnose_faulty {text : String} (h : syntaxFaults text ≠ []) :
    diagnose text = (tree text, sortDiagnostics (syntaxFaults text)) := by
  have hempty : ¬(syntaxFaults text).isEmpty = true := fun he => h (List.isEmpty_iff.mp he)
  exact if_neg hempty

theorem compile_of_diagnose {text : String} {p : Program} {ds : List Diagnostic}
    (h : diagnose text = (p, ds)) : compile text = if ds.isEmpty then .ok p else .error ds := by
  unfold compile
  rw [h]

/-- The list of the diagnostics of a script, in the order of reading: its syntax, or its names
if the syntax is clean. -/
structure Rejected (text : String) (ds : List Diagnostic) : Prop where
  nonempty : ds ≠ []
  sorted : ds.Pairwise fun a b => a.noLater b = true
  found : syntaxFaults text ≠ [] ∧ ds.Perm (syntaxFaults text) ∨
    syntaxFaults text = [] ∧ ds.Perm (resolve (tree text))

theorem compile_cases (text : String) :
    syntaxFaults text = [] ∧ resolve (tree text) = [] ∧ compile text = .ok (tree text) ∨
      ∃ ds, compile text = .error ds ∧ Rejected text ds := by
  have herror : ∀ found : List Diagnostic, found ≠ [] →
      diagnose text = (tree text, sortDiagnostics found) →
      sortDiagnostics found ≠ [] ∧ compile text = .error (sortDiagnostics found) := by
    intro found hfound hdiagnose
    have hne : sortDiagnostics found ≠ [] := fun hnil =>
      hfound (List.perm_nil.mp (hnil ▸ (sortDiagnostics_perm found).symm))
    refine ⟨hne, ?_⟩
    rw [compile_of_diagnose hdiagnose, if_neg fun he => hne (List.isEmpty_iff.mp he)]
  by_cases hread : syntaxFaults text = []
  · have hdiagnose := diagnose_clean hread
    by_cases hnames : resolve (tree text) = []
    · have hnone : sortDiagnostics (resolve (tree text)) = [] :=
        List.perm_nil.mp (hnames ▸ sortDiagnostics_perm _)
      rw [hnone] at hdiagnose
      exact .inl ⟨hread, hnames, compile_of_diagnose hdiagnose⟩
    · obtain ⟨hne, hcompile⟩ := herror _ hnames hdiagnose
      exact .inr ⟨_, hcompile, hne, sortDiagnostics_sorted _,
        .inr ⟨hread, sortDiagnostics_perm _⟩⟩
  · obtain ⟨hne, hcompile⟩ := herror _ hread (diagnose_faulty hread)
    exact .inr ⟨_, hcompile, hne, sortDiagnostics_sorted _,
      .inl ⟨hread, sortDiagnostics_perm _⟩⟩

/-- A script that compiles has a clean syntax, so that its names were looked at, and they
were found in order. -/
theorem clean_of_compile {text : String} {p : Program} (h : compile text = .ok p) :
    syntaxFaults text = [] ∧ resolve p = [] ∧ p = tree text := by
  rcases compile_cases text with ⟨hread, hnames, hcompile⟩ | ⟨ds, hcompile, -⟩
  · rw [hcompile] at h
    obtain rfl := Except.ok.inj h
    exact ⟨hread, hnames, rfl⟩
  · rw [hcompile] at h
    exact nomatch h

theorem rejected_of_compile {text : String} {ds : List Diagnostic}
    (h : compile text = .error ds) : Rejected text ds := by
  rcases compile_cases text with ⟨-, -, hcompile⟩ | ⟨es, hcompile, hes⟩
  · rw [hcompile] at h
    exact nomatch h
  · rw [hcompile] at h
    exact Except.error.inj h ▸ hes

/-- A problem of the syntax is among those that the script is turned down for. -/
theorem compile_of_mem {text : String} {d : Diagnostic} (h : d ∈ syntaxFaults text) :
    ∃ ds, compile text = .error ds ∧ d ∈ ds := by
  rcases compile_cases text with ⟨hread, -⟩ | ⟨ds, hcompile, hds⟩
  · rw [hread] at h
    exact nomatch h
  · rcases hds.found with ⟨-, hperm⟩ | ⟨hread, -⟩
    · exact ⟨ds, hcompile, hperm.mem_iff.mpr h⟩
    · rw [hread] at h
      exact nomatch h

end Script
end CheckScript
