/-
Paths of the files in a directory, and names with their extensions.

The path of a file in a directory, `Path.below`, is the text of the directory, a slash where one is
missing, and the name.  It has one component more than the directory (`components_below`), its name
is the one it was made with (`splitLast_below`), and another extension gives another file of the
directory (`withExtension_below`).
-/
import CheckScript.Path
import CheckScript.Proofs.Text.Lines
import CheckScript.Proofs.Text.Runs

namespace CheckScript
namespace Path

variable {name : List Char} {p : Path}

/-! ## Paths of the files in a directory -/

/-- What can be the name of a file: it has no slash and is not a word for a directory. -/
structure Plain (name : List Char) : Prop where
  slash : '/' ∉ name
  some : name ≠ []
  dot : name ≠ ['.']
  dots : name ≠ ['.', '.']

instance : Decidable (Plain name) :=
  decidable_of_iff ('/' ∉ name ∧ name ≠ [] ∧ name ≠ ['.'] ∧ name ≠ ['.', '.'])
    ⟨fun ⟨hslash, hsome, hdot, hdots⟩ => ⟨hslash, hsome, hdot, hdots⟩,
      fun h => ⟨h.slash, h.some, h.dot, h.dots⟩⟩

theorem Plain.ofPiece (h : Plain name) :
    Path.ofPiece name = Option.some (.name (String.ofList name)) := by
  unfold Path.ofPiece
  split
  · exact absurd rfl h.some
  · exact absurd rfl h.dot
  · exact absurd rfl h.dots
  · rfl

/-- The text in front of the name of a file in the directory. -/
def front (p : Path) : List Char :=
  if p.text.isEmpty || p.text.toList.getLast? == some '/' then p.text.toList
  else p.text.toList ++ ['/']

/-- The path of the file with this name in the directory. -/
def below (p : Path) (name : List Char) : Path := ⟨String.ofList (p.front ++ name)⟩

theorem join_eq_below (p : Path) {n : String} (hslash : '/' ∉ n.toList) :
    p.join ⟨n⟩ = p.below n.toList := by
  have hrelative : (Path.mk n).isAbsolute = false := by
    unfold isAbsolute
    cases hn : n.toList with
    | nil => rfl
    | cons c cs =>
      rw [hn] at hslash
      have hc : c ≠ '/' := fun h => hslash (h ▸ List.mem_cons_self)
      simp [hc]
  unfold join below front
  rw [hrelative, if_neg Bool.false_ne_true]
  split <;>
  · refine congrArg Path.mk (String.toList_inj.mp ?_)
    simp

/-- A directory is named by nothing, by a text that ends with a slash, or by one that does not. -/
theorem front_cases (p : Path) :
    p.text = "" ∧ p.front = [] ∨
      ∃ pieces, p.front = pieces ++ ['/'] ∧ p.text ≠ "" ∧
        (p.text.toList = p.front ∨ p.text.toList = pieces) := by
  unfold front
  by_cases hempty : p.text = ""
  · refine .inl ⟨hempty, ?_⟩
    rw [hempty]
    rfl
  · right
    by_cases hlast : p.text.toList.getLast? = some '/'
    · obtain ⟨pieces, hpieces⟩ := List.getLast?_eq_some_iff.mp hlast
      refine ⟨pieces, ?_, hempty, .inl ?_⟩ <;> simp [hpieces]
    · refine ⟨p.text.toList, ?_, hempty, .inr rfl⟩
      simp [hempty, hlast]

/-- The pieces of the path are those of the directory and then the name; the empty piece behind a
last slash is left out. -/
theorem cut_below (p : Path) (hslash : '/' ∉ name) :
    ∃ pieces, Text.cut '/' (p.front ++ name) = pieces ++ [name] ∧
      (p.text = "" ∧ pieces = [] ∨
        p.text ≠ "" ∧ pieces ≠ [] ∧
          (Text.cut '/' p.text.toList = pieces ∨ Text.cut '/' p.text.toList = pieces ++ [[]])) := by
  rcases p.front_cases with ⟨htext, hfront⟩ | ⟨pieces, hfront, hne, htext⟩
  · refine ⟨[], ?_, .inl ⟨htext, rfl⟩⟩
    rw [hfront, List.nil_append, Text.cut_of_not_mem hslash]
    rfl
  · refine ⟨Text.cut '/' pieces, ?_, .inr ⟨hne, Text.cut_ne_nil '/' pieces, ?_⟩⟩
    · rw [hfront, List.append_assoc, List.singleton_append, Text.cut_append_cons,
        Text.cut_of_not_mem hslash]
    · rcases htext with htext | htext
      · refine .inr ?_
        rw [htext, hfront, Text.cut_append_cons]
        rfl
      · exact .inl (by rw [htext])

theorem isAbsolute_below (p : Path) (hslash : '/' ∉ name) :
    (p.below name).isAbsolute = p.isAbsolute := by
  unfold isAbsolute below
  rw [String.toList_ofList]
  rcases p.front_cases with ⟨htext, hfront⟩ | ⟨pieces, hfront, hne, htext⟩
  · rw [hfront, htext, List.nil_append]
    cases name with
    | nil => rfl
    | cons c cs =>
      have hc : c ≠ '/' := fun h => hslash (h ▸ List.mem_cons_self)
      simp [hc]
  · rcases htext with htext | htext
    · rw [htext, hfront, List.append_assoc]
      cases pieces <;> rfl
    · obtain ⟨c, cs, rfl⟩ := List.exists_cons_of_ne_nil
        (fun h : pieces = [] => hne (String.toList_inj.mp (htext.trans h)))
      rw [htext, hfront]
      rfl

theorem text_below (p : Path) (name : List Char) :
    (p.below name).text.toList = p.front ++ name := String.toList_ofList

theorem text_below_ne (p : Path) (hne : name ≠ []) : (p.below name).text ≠ "" := by
  intro hempty
  have hnil : p.front ++ name = [] := by
    rw [← p.text_below name, hempty]
    rfl
  exact hne (List.append_eq_nil_iff.mp hnil).2

theorem mem_below {p : Path} {c : Char} (hc : c ≠ '/') :
    c ∈ (p.below name).text.toList ↔ c ∈ p.text.toList ∨ c ∈ name := by
  rw [text_below, front]
  split <;> simp [hc]

/-- The path goes one component further than the directory. -/
theorem components_below (p : Path) (hslash : '/' ∉ name) (hdot : name ≠ ['.']) :
    (p.below name).components = p.components ++ (ofPiece name).toList := by
  obtain ⟨pieces, hbelow, hcut⟩ := p.cut_below hslash
  unfold components
  rw [p.isAbsolute_below hslash]
  have hpieces : Text.cut '/' (p.below name).text.toList = pieces ++ [name] := by
    rw [text_below, hbelow]
  have hmap : (Text.cut '/' p.text.toList).filterMap ofPiece = pieces.filterMap ofPiece := by
    rcases hcut with ⟨htext, rfl⟩ | ⟨-, -, hcut | hcut⟩
    · rw [htext]
      rfl
    · rw [hcut]
    · rw [hcut, List.filterMap_append]
      exact List.append_nil _
  have hhead : ((pieces ++ [name]).head? == some ['.']) =
      ((Text.cut '/' p.text.toList).head? == some ['.']) := by
    rcases hcut with ⟨htext, rfl⟩ | ⟨-, hne, hcut⟩
    · rw [htext]
      simp [hdot, Text.cut]
    · obtain ⟨first, rest, rfl⟩ := List.exists_cons_of_ne_nil hne
      rcases hcut with hcut | hcut <;>
      · rw [hcut]
        rfl
  rw [hpieces]
  dsimp only
  rw [hmap, hhead, List.filterMap_append, List.append_assoc]
  congr 2

/-- No plain name is cut off from a path as something that stands for nothing. -/
theorem dropTail_plain (hname : Plain name) (rest : List Char) :
    dropTail (name.reverse ++ rest) = name.reverse ++ rest := by
  have hslash : '/' ∉ name.reverse := fun h => hname.slash (List.mem_reverse.mp h)
  unfold dropTail
  split
  · rename_i cs heq
    cases hback : name.reverse with
    | nil => exact absurd (List.reverse_eq_nil_iff.mp hback) hname.some
    | cons c back =>
      rw [hback] at heq hslash
      exact absurd ((List.cons.inj heq).1 ▸ List.mem_cons_self) hslash
  · rename_i cs heq
    cases hback : name.reverse with
    | nil => exact absurd (List.reverse_eq_nil_iff.mp hback) hname.some
    | cons c back =>
      rw [hback] at heq hslash
      obtain ⟨rfl, htail⟩ := List.cons.inj heq
      cases back with
      | nil => exact absurd (List.reverse_eq_iff.mp hback) hname.dot
      | cons d back =>
        obtain ⟨rfl, -⟩ := List.cons.inj htail
        exact absurd (List.mem_cons_of_mem _ List.mem_cons_self) hslash
  · rfl

/-- The last component of the path of a file in a directory is its name. -/
theorem splitLast_below (p : Path) (hname : Plain name) :
    (p.below name).splitLast = some (p.front, name) := by
  have hfront : Text.Ends (· != '/') p.front.reverse := by
    rcases p.front_cases with ⟨-, hfront⟩ | ⟨pieces, hfront, -⟩
    · rw [hfront]
      exact Text.ends_nil _
    · rw [hfront, List.reverse_append]
      exact Text.ends_cons rfl
  have hrun : ∀ c ∈ name.reverse, (c != '/') = true := fun c hc =>
    bne_iff_ne.mpr fun h => hname.slash (h ▸ List.mem_reverse.mp hc)
  unfold splitLast
  rw [text_below, List.reverse_append, dropTail_plain hname]
  dsimp only
  rw [Text.takeWhile_run hrun hfront, Text.dropWhile_run hrun hfront, List.reverse_reverse,
    List.reverse_reverse, if_neg]
  rintro (h | h | h)
  · exact hname.some h
  · exact hname.dot h
  · exact hname.dots h

/-- The name of a path is plain. -/
theorem plain_of_splitLast {directory : List Char} (h : p.splitLast = some (directory, name)) :
    Plain name := by
  unfold splitLast at h
  dsimp only at h
  split at h
  · cases h
  · rename_i hnot
    obtain ⟨-, rfl⟩ := Prod.mk.inj (Option.some.inj h)
    rw [not_or, not_or] at hnot
    refine ⟨fun hslash => ?_, hnot.1, hnot.2.1, hnot.2.2⟩
    have hall := List.all_eq_true.mp List.all_takeWhile _ (List.mem_reverse.mp hslash)
    exact absurd rfl (bne_iff_ne.mp hall)

/-! ## Names and extensions -/

/-- A name has an extension if a dot stands behind its first character. -/
theorem splitName_cases (name : List Char) :
    splitName name = (name, none) ∧ '.' ∉ name.drop 1 ∨
      ∃ stem ending, splitName name = (stem, some ending) ∧ name = stem ++ '.' :: ending ∧
        stem ≠ [] ∧ '.' ∉ ending := by
  have hback : name.reverse.takeWhile (· != '.') ++ name.reverse.dropWhile (· != '.') =
      name.reverse := List.takeWhile_append_dropWhile
  have hending : '.' ∉ name.reverse.takeWhile (· != '.') := fun h =>
    absurd (List.all_eq_true.mp List.all_takeWhile _ h) (by decide)
  unfold splitName
  dsimp only
  cases hdrop : name.reverse.dropWhile (· != '.') with
  | nil =>
    rw [hdrop, List.append_nil] at hback
    rw [hback, List.mem_reverse] at hending
    exact .inl ⟨rfl, fun h => hending (List.mem_of_mem_drop h)⟩
  | cons dot back =>
    have hdot : dot = '.' := by
      have hhead := List.head?_dropWhile_not (· != '.') name.reverse
      rw [hdrop] at hhead
      simpa using hhead
    have hname : name = back.reverse ++ '.' :: (name.reverse.takeWhile (· != '.')).reverse := by
      rw [hdrop, hdot] at hback
      have hrev := congrArg List.reverse hback
      simpa using hrev.symm
    by_cases hstem : back = []
    · left
      subst hstem
      refine ⟨rfl, fun h => hending ?_⟩
      rw [hname] at h
      exact List.mem_reverse.mp h
    · right
      refine ⟨back.reverse, _, ?_, hname, fun h => hstem (List.reverse_eq_nil_iff.mp h),
        fun h => hending (List.mem_reverse.mp h)⟩
      rw [if_neg]
      · rfl
      · simpa using hstem

theorem splitName_append {stem ending : List Char} (hstem : stem ≠ []) (hending : '.' ∉ ending) :
    splitName (stem ++ '.' :: ending) = (stem, some ending) := by
  have hback : (stem ++ '.' :: ending).reverse = ending.reverse ++ '.' :: stem.reverse := by
    simp
  have hrun : ∀ c ∈ ending.reverse, (c != '.') = true := fun c hc =>
    bne_iff_ne.mpr fun h => hending (h ▸ List.mem_reverse.mp hc)
  have hends : Text.Ends (· != '.') ('.' :: stem.reverse) := Text.ends_cons rfl
  unfold splitName
  dsimp only
  rw [hback, Text.takeWhile_run hrun hends, Text.dropWhile_run hrun hends, List.reverse_reverse,
    if_neg]
  · exact congrArg (Prod.mk · _) (List.reverse_reverse stem)
  · simpa using hstem

theorem stem_ne_nil (hname : name ≠ []) : (splitName name).1 ≠ [] := by
  rcases splitName_cases name with ⟨hsplit, -⟩ | ⟨stem, ending, hsplit, -, hstem, -⟩
  · rw [hsplit]
    exact hname
  · rw [hsplit]
    exact hstem

theorem mem_of_mem_stem {c : Char} (h : c ∈ (splitName name).1) : c ∈ name := by
  rcases splitName_cases name with ⟨hsplit, -⟩ | ⟨stem, ending, hsplit, heq, -⟩
  · rwa [hsplit] at h
  · rw [hsplit] at h
    rw [heq]
    exact List.mem_append_left _ h

/-- The stem is a dot if the name begins with two dots and has no other. -/
theorem stem_eq_dot_iff (hname : Plain name) :
    (splitName name).1 = ['.'] ↔ ∃ rest, name = '.' :: '.' :: rest ∧ '.' ∉ rest := by
  rcases splitName_cases name with ⟨hsplit, hdots⟩ | ⟨stem, ending, hsplit, rfl, -, hending⟩
  · rw [hsplit]
    refine ⟨fun h => absurd h hname.dot, ?_⟩
    rintro ⟨rest, rfl, -⟩
    exact absurd List.mem_cons_self hdots
  · rw [hsplit]
    constructor
    · rintro (rfl : stem = ['.'])
      exact ⟨ending, rfl, hending⟩
    · rintro ⟨rest, heq, hrest⟩
      have hrest : splitName (stem ++ '.' :: ending) = (['.'], some rest) := by
        rw [heq]
        exact splitName_append (List.cons_ne_nil '.' []) hrest
      exact congrArg Prod.fst (hsplit.symm.trans hrest)

/-- The name that a file gets with another extension. -/
def withEnding (name ending : List Char) : List Char :=
  if (splitName name).1 = ['.'] then ['.', '.'] else (splitName name).1 ++ '.' :: ending

/-- With another extension a name is plain, unless nothing but a dot is left of it. -/
theorem plain_withEnding_iff (hname : Plain name) {ending : List Char} (hslash : '/' ∉ ending)
    (hending : ending ≠ []) :
    Plain (withEnding name ending) ↔ (splitName name).1 ≠ ['.'] := by
  unfold withEnding
  split
  · rename_i hstem
    exact ⟨fun h => absurd rfl h.dots, fun h => absurd hstem h⟩
  · rename_i hstem
    refine ⟨fun _ => hstem, fun _ => ?_⟩
    have hlength : 2 < ((splitName name).1 ++ '.' :: ending).length := by
      have hsome := List.length_pos_iff.mpr (stem_ne_nil hname.some)
      have hmore := List.length_pos_iff.mpr hending
      rw [List.length_append, List.length_cons]
      omega
    refine ⟨fun h => ?_, fun h => ?_, fun h => ?_, fun h => ?_⟩
    · rcases List.mem_append.mp h with hleft | hright
      · exact hname.slash (mem_of_mem_stem hleft)
      · exact hslash ((List.mem_cons.mp hright).resolve_left (by decide))
    all_goals
      rw [h] at hlength
      exact absurd hlength (by decide)

/-- A name stays as it is if it has the extension already. -/
theorem withEnding_eq_self_iff (hname : Plain name) (hstem : (splitName name).1 ≠ ['.'])
    {ending : List Char} (hending : '.' ∉ ending) :
    withEnding name ending = name ↔ (splitName name).2 = some ending := by
  rw [withEnding, if_neg hstem]
  constructor
  · intro h
    rw [← h, splitName_append (stem_ne_nil hname.some) hending]
  · intro h
    rcases splitName_cases name with ⟨hsplit, -⟩ | ⟨stem, ending', hsplit, heq, -⟩
    · exact nomatch (congrArg Prod.snd hsplit).symm.trans h
    · obtain rfl := Option.some.inj ((congrArg Prod.snd hsplit).symm.trans h)
      rw [hsplit, heq]

theorem withExtension_below (p : Path) (hname : Plain name) {extension : String}
    (hextension : extension ≠ "") :
    (p.below name).withExtension extension = p.below (withEnding name extension.toList) := by
  unfold withExtension
  rw [p.splitLast_below hname, p.text_below]
  unfold withEnding
  dsimp only
  split
  · rename_i h
    rw [if_pos h.1]
    rfl
  · rename_i h
    rw [if_neg (fun hstem => h ⟨hstem, rfl⟩), if_neg (mt String.isEmpty_iff.mp hextension),
      List.append_assoc]
    rfl

end Path
end CheckScript
