/-
Texts with other ends of lines.

`Text.crlf` puts a carriage return in front of every newline.  Readers take such a text apart,
and of two parts of it `Returned` says what is left of that: the one is the other with carriage
returns in front of some of the newlines.  A carriage return behind a backslash would be escaped
in place of the newline, so there is none.
-/
import CheckScript.Proofs.Text.Lines

namespace CheckScript
namespace Text

/-- Every newline with a carriage return in front of it. -/
def crlf (cs : List Char) : List Char := cs.flatMap fun c => if c = '\n' then ['\r', '\n'] else [c]

/-- `ds` is `cs`, which has no carriage return, with carriage returns in front of some newlines,
but of none behind a backslash. -/
inductive Returned : List Char → List Char → Prop where
  | nil : Returned [] []
  | cons {c : Char} {cs ds : List Char} (hc : c ≠ '\r')
    (hslash : c = '\\' → ds.head? ≠ some '\r') (h : Returned cs ds) :
    Returned (c :: cs) (c :: ds)
  | newline {cs ds : List Char} (h : Returned cs ds) : Returned ('\n' :: cs) ('\r' :: '\n' :: ds)

namespace Returned

variable {c : Char} {cs ds es fs : List Char}

/-! ## Taking texts apart -/

theorem nil_left (h : Returned [] ds) : ds = [] := by
  cases h
  rfl

theorem cons_left (h : Returned (c :: cs) ds) (hc : c ≠ '\n') :
    ∃ es, ds = c :: es ∧ Returned cs es := by
  cases h with
  | cons _ _ h => exact ⟨_, rfl, h⟩
  | newline => exact absurd rfl hc

theorem cons_right (h : Returned cs (c :: ds)) (hc : c ≠ '\r') :
    ∃ es, cs = c :: es ∧ Returned es ds := by
  cases h with
  | cons _ _ h => exact ⟨_, rfl, h⟩
  | newline => exact absurd rfl hc

/-- What a backslash escapes is the same character in both texts. -/
theorem escape_left (h : Returned ('\\' :: c :: cs) ds) :
    ∃ es, ds = '\\' :: c :: es ∧ Returned cs es := by
  cases h with
  | cons _ hslash h =>
    cases h with
    | cons _ _ h => exact ⟨_, rfl, h⟩
    | newline => exact absurd rfl (hslash rfl)

/-- Both texts begin with the same character, line ends apart. -/
theorem head_iff (h : Returned cs ds) (hnewline : c ≠ '\n') (hreturn : c ≠ '\r') :
    ds.head? = some c ↔ cs.head? = some c := by
  cases h with
  | nil | cons => exact Iff.rfl
  | newline =>
    exact iff_of_false (fun h => hreturn (Option.some.inj h).symm)
      (fun h => hnewline (Option.some.inj h).symm)

theorem head_return (h : Returned cs ds) (hhead : ds.head? = some '\r') :
    cs.head? = some '\n' := by
  cases h with
  | nil => exact nomatch hhead
  | cons hc => exact absurd (Option.some.inj hhead) hc
  | newline => rfl

/-- A carriage return is never the last character. -/
theorem getLast?_eq (h : Returned cs ds) : ds.getLast? = cs.getLast? := by
  induction h with
  | nil => rfl
  | @cons c cs ds _ _ h ih => rw [List.getLast?_cons, List.getLast?_cons, ih]
  | newline h ih =>
    rw [List.getLast?_cons_cons, List.getLast?_cons, List.getLast?_cons, ih]

theorem length_le (h : Returned cs ds) : cs.length ≤ ds.length := by
  induction h with
  | nil => exact Nat.le_refl _
  | cons _ _ _ ih => exact Nat.succ_le_succ ih
  | newline _ ih => exact Nat.le_succ_of_le (Nat.succ_le_succ ih)

theorem eq_of_one_line (h : Returned cs ds) (hline : '\n' ∉ cs) : ds = cs := by
  induction h with
  | nil => rfl
  | cons _ _ _ ih => rw [ih fun hmem => hline (List.mem_cons_of_mem _ hmem)]
  | newline => exact absurd List.mem_cons_self hline

theorem newlines_eq (h : Returned cs ds) : newlines ds = newlines cs := by
  induction h with
  | nil => rfl
  | @cons c _ _ _ _ _ ih =>
    rw [newlines, newlines, List.count_cons, List.count_cons]
    exact congrArg (· + _) ih
  | newline _ ih =>
    rw [newlines_cons_of_ne (by decide), newlines, newlines, List.count_cons_self,
      List.count_cons_self]
    exact congrArg (· + 1) ih

/-! ## Putting texts together -/

theorem refl (h : '\r' ∉ cs) : Returned cs cs := by
  induction cs with
  | nil => exact nil
  | cons c cs ih =>
    have hcs : '\r' ∉ cs := fun hmem => h (List.mem_cons_of_mem _ hmem)
    refine cons (fun hc => h (hc ▸ List.mem_cons_self)) (fun _ hhead => hcs ?_) (ih hcs)
    exact List.mem_of_mem_head? (Option.mem_def.mpr hhead)

theorem append (h : Returned cs ds) (h' : Returned es fs)
    (hjoint : ds.getLast? = some '\\' → fs.head? ≠ some '\r') :
    Returned (cs ++ es) (ds ++ fs) := by
  induction h with
  | nil => exact h'
  | @cons c cs ds hc hslash h ih =>
    cases ds with
    | nil =>
      obtain rfl : cs = [] := by
        cases h
        rfl
      exact cons hc (fun hc => hjoint (hc ▸ rfl)) h'
    | cons d ds =>
      refine cons hc hslash (ih fun hlast => hjoint ?_)
      rwa [List.getLast?_cons_cons]
  | @newline cs ds h ih =>
    refine newline (ih fun hlast => hjoint ?_)
    cases ds with
    | nil => exact nomatch hlast
    | cons d ds => rwa [List.getLast?_cons_cons, List.getLast?_cons_cons]

/-- An end of both texts without a newline can be left away. -/
theorem cancel_right (h : Returned (cs ++ es) (ds ++ es)) (hline : '\n' ∉ es) :
    Returned cs ds := by
  induction cs generalizing ds with
  | nil =>
    have hds := List.append_left_eq_self.mp (h.eq_of_one_line hline)
    exact hds ▸ nil
  | cons c cs ih =>
    rw [List.cons_append] at h
    generalize hfs : ds ++ es = fs at h
    cases h with
    | @cons _ _ fs hc hslash h =>
      cases ds with
      | nil =>
        have hlength := h.length_le
        rw [← List.nil_append es, hfs, List.length_append, List.length_cons] at hlength
        omega
      | cons d ds =>
        obtain ⟨rfl, rfl⟩ := List.cons.inj hfs
        refine cons hc (fun hc hhead => hslash hc ?_) (ih h)
        rw [List.append_eq, List.head?_append, hhead]
        rfl
    | @newline _ fs h =>
      match ds with
      | [] =>
        have hes : es = '\r' :: '\n' :: fs := hfs
        exact absurd (hes ▸ List.mem_cons_of_mem _ List.mem_cons_self) hline
      | [d] =>
        have hes : es = '\n' :: fs := (List.cons.inj hfs).2
        exact absurd (hes ▸ List.mem_cons_self) hline
      | d :: e :: ds =>
        obtain ⟨hd, hrest⟩ := List.cons.inj hfs
        obtain ⟨he, rfl⟩ := List.cons.inj hrest
        subst hd he
        exact newline (ih h)

/-- A sign without line ends stands at the beginning of both texts or of none. -/
theorem prefix_iff (h : Returned cs ds) (hnewline : '\n' ∉ es) (hreturn : '\r' ∉ es) :
    es <+: ds ↔ es <+: cs := by
  induction es generalizing cs ds with
  | nil => exact iff_of_true List.nil_prefix List.nil_prefix
  | cons e es ih =>
    have hrest {cs ds : List Char} (h : Returned cs ds) : es <+: ds ↔ es <+: cs :=
      ih h (fun hmem => hnewline (List.mem_cons_of_mem _ hmem))
        fun hmem => hreturn (List.mem_cons_of_mem _ hmem)
    cases h with
    | nil => exact Iff.rfl
    | cons _ _ h => rw [List.cons_prefix_cons, List.cons_prefix_cons, hrest h]
    | newline h =>
      rw [List.cons_prefix_cons, List.cons_prefix_cons]
      exact iff_of_false (fun hin => hreturn (hin.1 ▸ List.mem_cons_self))
        (fun hin => hnewline (hin.1 ▸ List.mem_cons_self))

theorem behind_prefix (h : Returned (es ++ cs) ds) (hline : '\n' ∉ es) :
    ∃ fs, ds = es ++ fs ∧ Returned cs fs := by
  induction es generalizing ds with
  | nil => exact ⟨ds, rfl, h⟩
  | cons e es ih =>
    obtain ⟨_, rfl, hrest⟩ := h.cons_left fun he => hline (he ▸ List.mem_cons_self)
    obtain ⟨fs, rfl, hfs⟩ := ih hrest fun hmem => hline (List.mem_cons_of_mem _ hmem)
    exact ⟨fs, rfl, hfs⟩

theorem takeWhile (h : Returned cs ds) {f : Char → Bool} (hnewline : f '\n' = false)
    (hreturn : f '\r' = false) : ds.takeWhile f = cs.takeWhile f := by
  induction h with
  | nil => rfl
  | @cons c _ _ _ _ _ ih => rw [List.takeWhile_cons, List.takeWhile_cons, ih]
  | newline =>
    rw [List.takeWhile_cons_of_neg (by simp [hreturn]),
      List.takeWhile_cons_of_neg (by simp [hnewline])]

theorem dropWhile (h : Returned cs ds) {f : Char → Bool} (hnewline : f '\n' = false)
    (hreturn : f '\r' = false) : Returned (cs.dropWhile f) (ds.dropWhile f) := by
  induction h with
  | nil => exact nil
  | @cons c _ _ hc hslash h ih =>
    rw [List.dropWhile_cons, List.dropWhile_cons]
    split
    · exact ih
    · exact cons hc hslash h
  | newline h =>
    rw [List.dropWhile_cons, List.dropWhile_cons, hnewline, hreturn]
    exact newline h

/-- Up to the end of the line the texts are the same, but for a carriage return that ends it. -/
theorem line (h : Returned cs ds) :
    dropReturn (ds.takeWhile (· != '\n')) = cs.takeWhile (· != '\n') ∧
      '\r' ∉ cs.takeWhile (· != '\n') := by
  induction h with
  | nil => exact ⟨rfl, List.not_mem_nil⟩
  | @cons c cs ds hc _ _ ih =>
    rw [List.takeWhile_cons, List.takeWhile_cons]
    split
    · rw [dropReturn_cons hc, ih.1]
      refine ⟨rfl, fun hmem => ?_⟩
      rcases List.mem_cons.mp hmem with hmem | hmem
      · exact hc hmem.symm
      · exact ih.2 hmem
    · exact ⟨rfl, List.not_mem_nil⟩
  | newline => exact ⟨rfl, List.not_mem_nil⟩

theorem behind_line (h : Returned cs ds) :
    Returned (cs.dropWhile (· != '\n')) (ds.dropWhile (· != '\n')) := by
  induction h with
  | nil => exact nil
  | @cons c _ _ hc hslash h ih =>
    rw [List.dropWhile_cons, List.dropWhile_cons]
    split
    · exact ih
    · exact cons hc hslash h
  | newline h => exact cons (by decide) (fun hc => absurd hc (by decide)) h

end Returned

/-! ## Whole texts -/

theorem crlf_cons (c : Char) (cs : List Char) :
    crlf (c :: cs) = (if c = '\n' then ['\r', '\n'] else [c]) ++ crlf cs := rfl

theorem crlf_head {cs : List Char} (h : (crlf cs).head? = some '\r') (hreturn : '\r' ∉ cs) :
    cs.head? = some '\n' := by
  cases cs with
  | nil => exact nomatch h
  | cons c cs =>
    by_cases hc : c = '\n'
    · rw [hc]
      rfl
    · rw [crlf_cons, if_neg hc] at h
      exact absurd (Option.some.inj h ▸ List.mem_cons_self) hreturn

theorem returned_crlf {cs : List Char} (hreturn : '\r' ∉ cs) (hslash : ¬['\\', '\n'] <:+: cs) :
    Returned cs (crlf cs) := by
  induction cs with
  | nil => exact .nil
  | cons c cs ih =>
    have hrest := ih (fun hmem => hreturn (List.mem_cons_of_mem _ hmem))
      fun hin => hslash (hin.trans (List.suffix_cons ..).isInfix)
    rw [crlf_cons]
    split
    · rename_i hc
      exact hc ▸ .newline hrest
    · refine .cons (fun hc => hreturn (hc ▸ List.mem_cons_self)) (fun hc hhead => hslash ?_) hrest
      obtain ⟨rest, rfl⟩ := List.head?_eq_some_iff.mp
        (crlf_head hhead fun hmem => hreturn (List.mem_cons_of_mem _ hmem))
      exact hc ▸ (List.prefix_append ['\\', '\n'] rest).isInfix

/-! ## Lines -/

/-- Pieces between newlines with a carriage return behind each but the last. -/
def endReturns : List (List Char) → List (List Char)
  | [] => []
  | [last] => [last]
  | p :: q :: ps => (p ++ ['\r']) :: endReturns (q :: ps)

theorem cut_crlf (cs : List Char) : cut '\n' (crlf cs) = endReturns (cut '\n' cs) := by
  induction cs with
  | nil => rfl
  | cons c cs ih =>
    by_cases hc : c = '\n'
    · subst hc
      obtain ⟨p, ps, hcut⟩ := List.exists_cons_of_ne_nil (cut_ne_nil '\n' cs)
      have hreturn : '\r' ≠ '\n' := by decide
      obtain ⟨q, qs, hq, hcons⟩ := cut_cons hreturn ('\n' :: crlf cs)
      rw [cut_sep] at hq
      obtain ⟨rfl, rfl⟩ := List.cons.inj hq
      have hcrlf : cut '\n' (crlf ('\n' :: cs)) = ['\r'] :: cut '\n' (crlf cs) := hcons
      rw [hcrlf, ih, cut_sep, hcut]
      rfl
    · obtain ⟨p, ps, hcut, hcons⟩ := cut_cons hc cs
      obtain ⟨q, qs, hcut', hcons'⟩ := cut_cons hc (crlf cs)
      rw [crlf_cons, if_neg hc, List.singleton_append, hcons, hcons']
      rw [hcut, hcut'] at ih
      cases ps with
      | nil =>
        obtain ⟨rfl, rfl⟩ := List.cons.inj ih
        rfl
      | cons r ps =>
        obtain ⟨rfl, rfl⟩ := List.cons.inj ih
        rfl

theorem mem_of_mem_cut {sep c : Char} {cs p : List Char} (hp : p ∈ cut sep cs) (hc : c ∈ p) :
    c ∈ cs := by
  induction cs generalizing p with
  | nil => exact List.mem_singleton.mp hp ▸ hc
  | cons d cs ih =>
    by_cases hd : d = sep
    · subst hd
      rw [cut_sep] at hp
      rcases List.mem_cons.mp hp with rfl | hp
      · exact nomatch hc
      · exact List.mem_cons_of_mem _ (ih hp hc)
    · obtain ⟨q, qs, hcut, hcons⟩ := cut_cons hd cs
      rw [hcons] at hp
      rcases List.mem_cons.mp hp with rfl | hp
      · exact (List.mem_cons.mp hc).elim (fun hc => hc ▸ List.mem_cons_self)
          fun hc => List.mem_cons_of_mem _ (ih (hcut ▸ List.mem_cons_self) hc)
      · exact List.mem_cons_of_mem _ (ih (hcut ▸ List.mem_cons_of_mem _ hp) hc)

theorem dropReturn_concat (p : List Char) : dropReturn (p ++ ['\r']) = p := by
  rw [dropReturn, if_pos List.getLast?_concat, List.dropLast_concat]

theorem dropReturn_eq_self {p : List Char} (h : '\r' ∉ p) : dropReturn p = p :=
  if_neg fun hlast => h (List.mem_of_getLast? hlast)

theorem endLines_endReturns {ps : List (List Char)} (h : ∀ p ∈ ps, '\r' ∉ p) :
    endLines (endReturns ps) = endLines ps := by
  induction ps with
  | nil => rfl
  | cons p ps ih =>
    obtain ⟨hp, hps⟩ := List.forall_mem_cons.mp h
    cases ps with
    | nil => rfl
    | cons q ps =>
      have hcons : endLines (endReturns (p :: q :: ps)) =
          dropReturn (p ++ ['\r']) :: endLines (endReturns (q :: ps)) := by
        cases ps <;> rfl
      rw [hcons, ih hps, dropReturn_concat, endLines, dropReturn_eq_self hp]

/-- The lines of a text do not show how its lines end. -/
theorem lineChars_crlf {cs : List Char} (h : '\r' ∉ cs) : lineChars (crlf cs) = lineChars cs := by
  rw [lineChars, lineChars, cut_crlf, endLines_endReturns]
  exact fun p hp hmem => h (mem_of_mem_cut hp hmem)

end Text
end CheckScript
