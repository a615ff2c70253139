/-!
# Words of a command line

How a shell takes a line apart in which there is nothing for it to quote, to expand or to
take for an operator: into words between blanks, up to a word that starts a comment.
Arguments that are passed on unquoted are split in the same way once more, which changes
nothing (`unquoted_of_isWord`).
-/

namespace Shell

/-- What words stand between. -/
def isBlank (c : Char) : Bool := c == ' ' || c == '\t'

/-- Quotes and the backslash; the operators, the end of a line among them; and what starts an
expansion: dollar, backquote, star, question mark, opening bracket and brace, tilde. -/
def isSpecial (c : Char) : Bool := "\x27\x22\\|&;()<>\n$\x60*?[\x7b~".toList.contains c

/-- A text with nothing special in it. -/
def plain (s : String) : Bool := s.toList.all fun c => !isSpecial c

/-- The words of a text that is read after the start of a word. -/
def wordsFrom (word : List Char) : List Char → List (List Char)
  | [] => if word = [] then [] else [word]
  | c :: cs =>
    if isBlank c then
      if word = [] then wordsFrom [] cs else word :: wordsFrom [] cs
    else wordsFrom (word ++ [c]) cs

/-- The words of a text. -/
def words (s : String) : List String := (wordsFrom [] s.toList).map String.ofList

/-- A word that starts a comment. -/
def isComment (w : String) : Bool := w.toList.head? == some '#'

/-- The words up to a comment. -/
def uncomment (ws : List String) : List String := ws.takeWhile fun w => !isComment w

/-- A command line taken apart, if splitting is all that the shell does with it. -/
def split (line : String) : Option (List String) :=
  if plain line then some (uncomment (words line)) else none

/-- `$*` without quotes. -/
def unquoted (args : List String) : List String := args.flatMap words

/-- A word: some characters, and no blank among them. -/
structure IsWord (s : String) : Prop where
  nonempty : s ≠ ""
  noBlank : s.toList.any isBlank = false

variable {word a b : List Char} {s t : String} {args : List String}

theorem plain_append (s t : String) : plain (s ++ t) = (plain s && plain t) := by
  unfold plain
  rw [String.toList_append, List.all_append]

theorem wordsFrom_append : wordsFrom word (a ++ ' ' :: b) = wordsFrom word a ++ wordsFrom [] b := by
  induction a generalizing word with
  | nil =>
    have hblank : isBlank ' ' = true := rfl
    rw [List.nil_append, wordsFrom, wordsFrom, if_pos hblank]
    split
    · rfl
    · rfl
  | cons c a ih =>
    rw [List.cons_append, wordsFrom, wordsFrom]
    split
    · split
      · exact ih
      · rw [ih, List.cons_append]
    · exact ih

theorem words_append (s t : String) : words (s ++ " " ++ t) = words s ++ words t := by
  have hlist : (s ++ " " ++ t).toList = s.toList ++ ' ' :: t.toList := by simp
  unfold words
  rw [hlist, wordsFrom_append, List.map_append]

theorem wordsFrom_noBlank (h : a.any isBlank = false) (hne : word ++ a ≠ []) :
    wordsFrom word a = [word ++ a] := by
  induction a generalizing word with
  | nil =>
    rw [List.append_nil] at hne ⊢
    exact if_neg hne
  | cons c a ih =>
    obtain ⟨hc, hrest⟩ := Bool.or_eq_false_iff.mp h
    rw [wordsFrom, hc, if_neg Bool.false_ne_true, ih hrest (by simp), List.append_assoc,
      List.singleton_append]

theorem words_of_isWord (h : IsWord s) : words s = [s] := by
  have hne : [] ++ s.toList ≠ [] := by
    rw [List.nil_append]
    exact fun hnil => h.nonempty (String.toList_eq_nil_iff.mp hnil)
  unfold words
  rw [wordsFrom_noBlank h.noBlank hne]
  simp

theorem mem_wordsFrom (hword : word.any isBlank = false) {w : List Char}
    (hw : w ∈ wordsFrom word a) : w ≠ [] ∧ w.any isBlank = false := by
  induction a generalizing word with
  | nil =>
    rw [wordsFrom] at hw
    split at hw
    · exact absurd hw List.not_mem_nil
    · next hne =>
      obtain rfl := List.mem_singleton.mp hw
      exact ⟨hne, hword⟩
  | cons c a ih =>
    rw [wordsFrom] at hw
    split at hw
    · split at hw
      · exact ih rfl hw
      · next hne =>
        rcases List.mem_cons.mp hw with rfl | hw
        · exact ⟨hne, hword⟩
        · exact ih rfl hw
    · next hblank =>
      apply ih _ hw
      rw [List.any_append, hword]
      simpa using hblank

theorem isWord_of_mem {w : String} (hw : w ∈ words s) : IsWord w := by
  obtain ⟨cs, hcs, rfl⟩ := List.mem_map.mp hw
  obtain ⟨hne, hblank⟩ := mem_wordsFrom rfl hcs
  refine ⟨?_, ?_⟩
  · intro hempty
    exact hne (by simpa using congrArg String.toList hempty)
  · rw [String.toList_ofList]
    exact hblank

/-- Words are not split any further. -/
theorem unquoted_of_isWord (h : ∀ w ∈ args, IsWord w) : unquoted args = args := by
  induction args with
  | nil => rfl
  | cons w args ih =>
    obtain ⟨hw, hrest⟩ := List.forall_mem_cons.mp h
    have hunquoted : unquoted args = args := ih hrest
    unfold unquoted at hunquoted ⊢
    rw [List.flatMap_cons, words_of_isWord hw, hunquoted, List.singleton_append]

end Shell
