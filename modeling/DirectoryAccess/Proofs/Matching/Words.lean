import DirectoryAccess.Matching.Spaces

/-!
# Words and the spaces between them

A text is collapsed in one pass that remembers whether spaces stand right in front
and whether anything has been kept. Without that memory the same is said in two
steps: each run of spaces gives the one space that it begins with, where a run in
front of the whole text may count as begun already (`squeeze`), and at the end that
space may go again (`trimEnd`). So what is kept of a text are its words, one space
between neighbours (`collapseSpaces_whole`), and one at an end where the text has
spaces and its place keeps them (`collapseSpaces_of`).
-/

namespace DirectoryAccess.Matching

/-! ## Words -/

/-- The words of a text, in order: what stands between its spaces, where that is not empty. -/
def words (text : List Char) : List (List Char) :=
  (text.splitOn ' ').filter fun word => !word.isEmpty

/-- Words with one space between neighbours. -/
def joinWords (ws : List (List Char)) : List Char := [' '].intercalate ws

/-- A run of characters that are no spaces. -/
structure IsWord (word : List Char) : Prop where
  /-- There is a character. -/
  ne_nil : word ≠ []
  /-- None of them is a space. -/
  not_mem : ' ' ∉ word

theorem words_space (text : List Char) : words (' ' :: text) = words text := by
  rw [words, List.splitOn_cons_eq_if_modifyHead, if_pos (beq_self_eq_true ' ')]
  exact List.filter_cons_of_neg (by decide)

theorem words_word {word : List Char} (h : IsWord word) : words word = [word] := by
  rw [words, List.splitOn_eq_singleton h.not_mem]
  exact List.filter_cons_of_pos (by simpa using h.ne_nil)

theorem words_word_space {word : List Char} (h : IsWord word) (text : List Char) :
    words (word ++ ' ' :: text) = word :: words text := by
  rw [words, List.splitOn_append_cons_self_of_not_mem h.not_mem]
  exact List.filter_cons_of_pos (by simpa using h.ne_nil)

/-- A text is empty, or begins with a space, or is a word, or begins with a word and a space. -/
theorem induction_words {motive : List Char → Prop} (nil : motive [])
    (space : ∀ text, motive text → motive (' ' :: text))
    (word : ∀ word, IsWord word → motive word)
    (wordSpace : ∀ word text, IsWord word → motive text → motive (word ++ ' ' :: text))
    (text : List Char) : motive text := by
  induction hlength : text.length using Nat.strongRecOn generalizing text with
  | ind n ih =>
      rcases text with _ | ⟨c, text⟩
      · exact nil
      by_cases hc : c = ' '
      · subst hc
        exact space text (ih _ (by rw [← hlength]; exact Nat.lt_succ_self _) text rfl)
      by_cases hmem : ' ' ∈ text
      · obtain ⟨front, rest, rfl, hfront⟩ := List.eq_append_cons_of_mem hmem
        refine wordSpace (c :: front) rest ⟨List.cons_ne_nil _ _, ?_⟩ (ih _ ?_ rest rfl)
        · exact List.not_mem_cons_of_ne_of_not_mem (Ne.symm hc) hfront
        · simp only [← hlength, List.length_cons, List.length_append]
          omega
      · exact word _ ⟨List.cons_ne_nil _ _, List.not_mem_cons_of_ne_of_not_mem (Ne.symm hc) hmem⟩

/-- The words of a text are runs of characters that are no spaces. -/
theorem isWord_of_mem_words {text word : List Char} (h : word ∈ words text) : IsWord word := by
  induction text using induction_words with
  | nil => exact absurd h List.not_mem_nil
  | space text ih => exact ih (by rwa [words_space] at h)
  | word other hother =>
      rw [words_word hother, List.mem_singleton] at h
      exact h ▸ hother
  | wordSpace other text hother ih =>
      rw [words_word_space hother] at h
      rcases List.mem_cons.mp h with rfl | h
      · exact hother
      · exact ih h

theorem joinWords_singleton (word : List Char) : joinWords [word] = word :=
  List.intercalate_singleton

theorem joinWords_cons (word : List Char) {ws : List (List Char)} (h : ws ≠ []) :
    joinWords (word :: ws) = word ++ ' ' :: joinWords ws := by
  rw [joinWords, List.intercalate_cons_of_ne_nil h, List.append_assoc]
  rfl

/-- Words are found again in what they are joined to. -/
theorem words_joinWords {ws : List (List Char)} (h : ∀ word ∈ ws, IsWord word) :
    words (joinWords ws) = ws := by
  induction ws with
  | nil => rfl
  | cons word ws ih =>
      have hword : IsWord word := h word List.mem_cons_self
      by_cases hempty : ws = []
      · rw [hempty, joinWords_singleton, words_word hword]
      · rw [joinWords_cons word hempty, words_word_space hword,
          ih fun other hother => h other (List.mem_cons_of_mem _ hother)]

/-- Joined words are the same exactly if the words are. -/
theorem joinWords_inj {ws vs : List (List Char)} (hws : ∀ word ∈ ws, IsWord word)
    (hvs : ∀ word ∈ vs, IsWord word) : joinWords ws = joinWords vs ↔ ws = vs := by
  constructor
  · intro h
    rw [← words_joinWords hws, h, words_joinWords hvs]
  · rintro rfl
    rfl

/-! ## Runs of spaces -/

/-- A text with each run of spaces made one space. `inRun` says whether a run has begun in front of
the text: then the spaces that the text begins with belong to it. -/
def squeeze (inRun : Bool) : List Char → List Char
  | [] => []
  | c :: text =>
    if c = ' ' then if inRun then squeeze true text else ' ' :: squeeze true text
    else c :: squeeze false text

/-- A text without the space at its end, if it ends with one. -/
def trimEnd (text : List Char) : List Char :=
  if text.getLast? = some ' ' then text.dropLast else text

@[simp] theorem squeeze_nil (inRun : Bool) : squeeze inRun [] = [] := rfl

@[simp] theorem squeeze_true_space (text : List Char) :
    squeeze true (' ' :: text) = squeeze true text := rfl

@[simp] theorem squeeze_false_space (text : List Char) :
    squeeze false (' ' :: text) = ' ' :: squeeze true text := rfl

theorem squeeze_cons {c : Char} (h : c ≠ ' ') (inRun : Bool) (text : List Char) :
    squeeze inRun (c :: text) = c :: squeeze false text := if_neg h

theorem squeeze_word {word : List Char} (h : IsWord word) (inRun : Bool) (text : List Char) :
    squeeze inRun (word ++ text) = word ++ squeeze false text := by
  obtain ⟨hne, hmem⟩ := h
  induction word generalizing inRun with
  | nil => exact absurd rfl hne
  | cons c word ih =>
      obtain ⟨hc, hrest⟩ := List.ne_and_not_mem_of_not_mem_cons hmem
      rw [List.cons_append, squeeze_cons (Ne.symm hc), List.cons_append]
      by_cases hempty : word = []
      · rw [hempty, List.nil_append, List.nil_append]
      · rw [ih false hempty hrest]

/-- Where no run has begun in front, the spaces at the beginning give a space of their own. -/
theorem squeeze_false (text : List Char) :
    squeeze false text =
      (if text.head? = some ' ' then [' '] else []) ++ squeeze true text := by
  cases text with
  | nil => rfl
  | cons c text =>
      by_cases hc : c = ' '
      · subst hc
        rfl
      · rw [squeeze_cons hc, squeeze_cons hc, List.head?_cons, if_neg (mt Option.some.inj hc)]
        rfl

/-- Whether a text leaves a run of spaces open, where one may have begun in front of it. -/
def endsInRun (inRun : Bool) (text : List Char) : Bool := text.foldl (fun _ c => c == ' ') inRun

theorem endsInRun_append (inRun : Bool) (front back : List Char) :
    endsInRun inRun (front ++ back) = endsInRun (endsInRun inRun front) back :=
  List.foldl_append

/-- A run is open behind a text that ends with a space, and behind an empty one if it was open in
front of it. -/
theorem endsInRun_eq (inRun : Bool) (text : List Char) :
    endsInRun inRun text = (text.getLast?.map (· == ' ')).getD inRun := by
  induction text generalizing inRun with
  | nil => rfl
  | cons c text ih =>
      rw [endsInRun, List.foldl_cons, ← endsInRun, ih, List.getLast?_cons]
      cases text.getLast? <;> rfl

/-- A text is squeezed part by part, each part after the run that the one before leaves open. -/
theorem squeeze_append (inRun : Bool) (front back : List Char) :
    squeeze inRun (front ++ back) =
      squeeze inRun front ++ squeeze (endsInRun inRun front) back := by
  induction front generalizing inRun with
  | nil => rfl
  | cons c front ih =>
      rw [List.cons_append]
      by_cases hc : c = ' '
      · subst hc
        cases inRun with
        | false => exact congrArg (' ' :: ·) (ih true)
        | true => exact ih true
      · have hends : endsInRun inRun (c :: front) = endsInRun false front := by
          rw [endsInRun, List.foldl_cons, beq_false_of_ne hc, endsInRun]
        rw [squeeze_cons hc, squeeze_cons hc, ih, hends, List.cons_append]

theorem trimEnd_nil : trimEnd [] = [] := rfl

theorem trimEnd_space : trimEnd [' '] = [] := rfl

/-- Only the last part of a text loses a space, if it is not empty. -/
theorem trimEnd_append (text : List Char) {rest : List Char} (h : rest ≠ []) :
    trimEnd (text ++ rest) = text ++ trimEnd rest := by
  obtain ⟨last, hlast⟩ := Option.ne_none_iff_exists'.mp (mt List.getLast?_eq_none_iff.mp h)
  simp only [trimEnd, List.getLast?_append, hlast, Option.some_or,
    List.dropLast_append_of_ne_nil h]
  exact (apply_ite (text ++ ·) _ _ _).symm

theorem trimEnd_cons {c : Char} (h : c ≠ ' ') (text : List Char) :
    trimEnd (c :: text) = c :: trimEnd text := by
  cases text with
  | nil => exact if_neg (mt Option.some.inj h)
  | cons d text => exact trimEnd_append [c] (List.cons_ne_nil d text)

/-- What is trimmed off the end of a text is a single space. -/
theorem trimEnd_append_last (text : List Char) :
    trimEnd text ++ (if text.getLast? = some ' ' then [' '] else []) = text := by
  by_cases h : text.getLast? = some ' '
  · rw [trimEnd, if_pos h, if_pos h]
    obtain ⟨front, rfl⟩ := List.getLast?_eq_some_iff.mp h
    rw [List.dropLast_concat]
  · rw [trimEnd, if_neg h, if_neg h, List.append_nil]

theorem trimEnd_word {word : List Char} (h : IsWord word) : trimEnd word = word :=
  if_neg fun hlast => h.not_mem (List.mem_of_getLast? hlast)

theorem trimEnd_word_append {word : List Char} (h : IsWord word) (text : List Char) :
    trimEnd (word ++ text) = word ++ trimEnd text := by
  by_cases hempty : text = []
  · rw [hempty, trimEnd_nil, List.append_nil, trimEnd_word h]
  · exact trimEnd_append word hempty

theorem squeeze_eq_self {word : List Char} (h : IsWord word) (inRun : Bool) :
    squeeze inRun word = word := by
  have hword := squeeze_word h inRun []
  rwa [List.append_nil, squeeze_nil, List.append_nil] at hword

/-- A text has no words exactly if it has only spaces. -/
theorem words_eq_nil_iff {text : List Char} : words text = [] ↔ ∀ c ∈ text, c = ' ' := by
  induction text using induction_words with
  | nil => exact iff_of_true rfl nofun
  | space text ih => rw [words_space, ih, List.forall_mem_cons, eq_self, true_and]
  | word word h =>
      refine iff_of_false (by rw [words_word h]; exact List.cons_ne_nil _ _) fun hall => ?_
      obtain ⟨c, hc⟩ := List.exists_mem_of_ne_nil word h.ne_nil
      exact h.not_mem (hall c hc ▸ hc)
  | wordSpace word text h ih =>
      refine iff_of_false (by rw [words_word_space h]; exact List.cons_ne_nil _ _) fun hall => ?_
      obtain ⟨c, hc⟩ := List.exists_mem_of_ne_nil word h.ne_nil
      exact h.not_mem (hall c (List.mem_append_left _ hc) ▸ hc)

/-- Behind an open run, nothing is left of a text exactly if it has no words. -/
theorem squeeze_true_eq_nil_iff {text : List Char} : squeeze true text = [] ↔ words text = [] := by
  induction text using induction_words with
  | nil => exact iff_of_true rfl rfl
  | space text ih => rw [squeeze_true_space, words_space, ih]
  | word word h =>
      rw [squeeze_eq_self h, words_word h]
      exact iff_of_false h.ne_nil (List.cons_ne_nil _ _)
  | wordSpace word text h ih =>
      rw [squeeze_word h, words_word_space h]
      exact iff_of_false (List.append_ne_nil_of_left_ne_nil h.ne_nil _) (List.cons_ne_nil _ _)

/-- Runs of spaces made one space leave the words, joined, and perhaps a space behind them. -/
theorem trimEnd_squeeze (text : List Char) :
    trimEnd (squeeze true text) = joinWords (words text) := by
  induction text using induction_words with
  | nil => rfl
  | space text ih => rw [squeeze_true_space, words_space, ih]
  | word word h => rw [squeeze_eq_self h, words_word h, joinWords_singleton, trimEnd_word h]
  | wordSpace word text h ih =>
      rw [squeeze_word h, squeeze_false_space, trimEnd_append _ (List.cons_ne_nil _ _),
        words_word_space h]
      by_cases hempty : words text = []
      · rw [squeeze_true_eq_nil_iff.mpr hempty, hempty, joinWords_singleton, trimEnd_space,
          List.append_nil]
      · rw [joinWords_cons word hempty, ← ih]
        exact congrArg (word ++ ·) (trimEnd_append [' '] (mt squeeze_true_eq_nil_iff.mp hempty))

/-- A character in front of a text with words is not its last one. -/
theorem getLast?_cons_of_words {text : List Char} (h : words text ≠ []) (c : Char) :
    (c :: text).getLast? = text.getLast? := by
  cases text with
  | nil => exact absurd rfl h
  | cons d text => exact List.getLast?_cons_cons

/-- Runs of spaces made one space end as the text does, where that has a word. -/
theorem getLast?_squeeze {text : List Char} (h : words text ≠ []) :
    (squeeze true text).getLast? = text.getLast? := by
  induction text using induction_words with
  | nil => exact absurd rfl h
  | space text ih =>
      rw [words_space] at h
      rw [squeeze_true_space, ih h, getLast?_cons_of_words h]
  | word word hword => rw [squeeze_eq_self hword]
  | wordSpace word text hword ih =>
      rw [squeeze_word hword, squeeze_false_space, List.getLast?_append, List.getLast?_append]
      congr 1
      by_cases hempty : words text = []
      · rw [squeeze_true_eq_nil_iff.mpr hempty, List.getLast?_singleton, List.getLast?_cons]
        cases hlast : text.getLast? with
        | none => rfl
        | some c => rw [words_eq_nil_iff.mp hempty c (List.mem_of_getLast? hlast)]; rfl
      · have hne : squeeze true text ≠ [] := mt squeeze_true_eq_nil_iff.mp hempty
        obtain ⟨c, rest, hcons⟩ := List.exists_cons_of_ne_nil hne
        rw [getLast?_cons_of_words hempty, ← ih hempty, hcons, List.getLast?_cons_cons]

/-- A text that has a word keeps its words, joined, and a space behind them if it ends with one. -/
theorem squeeze_true {text : List Char} (h : words text ≠ []) :
    squeeze true text =
      joinWords (words text) ++ if text.getLast? = some ' ' then [' '] else [] := by
  rw [← trimEnd_squeeze, ← getLast?_squeeze h, trimEnd_append_last]

/-- Squeezing keeps the last character of a text. -/
theorem getLast?_squeeze_false (text : List Char) :
    (squeeze false text).getLast? = text.getLast? := by
  rw [squeeze_false]
  by_cases hempty : words text = []
  · rw [squeeze_true_eq_nil_iff.mpr hempty, List.append_nil]
    cases text with
    | nil => rfl
    | cons c text =>
        have hblank := words_eq_nil_iff.mp hempty
        have hlast := hblank _ (List.getLast_mem (List.cons_ne_nil c text))
        rw [List.getLast?_eq_some_getLast (List.cons_ne_nil c text), hlast, List.head?_cons,
          hblank c List.mem_cons_self]
        rfl
  · obtain ⟨c, hc⟩ := Option.ne_none_iff_exists'.mp
      (mt List.getLast?_eq_none_iff.mp (mt squeeze_true_eq_nil_iff.mp hempty))
    rw [List.getLast?_append, hc, Option.some_or, ← hc, getLast?_squeeze hempty]

/-- Where the end of a text is kept, a space behind the text takes the place of one at its end. -/
theorem trimEnd_append_space {inRun : Bool} {text : List Char}
    (hlast : (squeeze inRun text).getLast? = text.getLast?) (hrun : inRun = true → text ≠ []) :
    trimEnd (squeeze inRun text) ++ [' '] = squeeze inRun (text ++ [' ']) := by
  rw [squeeze_append, endsInRun_eq]
  by_cases hspace : text.getLast? = some ' '
  · have hkept := trimEnd_append_last (squeeze inRun text)
    rw [hlast, if_pos hspace] at hkept
    rw [hkept, hspace]
    exact (List.append_nil _).symm
  · have hopen : (text.getLast?.map (· == ' ')).getD inRun = false := by
      cases hc : text.getLast? with
      | none => exact Bool.eq_false_iff.mpr fun h => hrun h (List.getLast?_eq_none_iff.mp hc)
      | some c => exact beq_false_of_ne fun h => hspace (h ▸ hc)
    rw [hopen, trimEnd, hlast, if_neg hspace]
    rfl

/-- With a space behind it, a text is squeezed to the squeezed one without its last space, and a
space. -/
theorem trimEnd_squeeze_false (text : List Char) :
    trimEnd (squeeze false text) ++ [' '] = squeeze false (text ++ [' ']) :=
  trimEnd_append_space (getLast?_squeeze_false text) nofun

/-- With a space behind it, a text with words is squeezed to the joined words and a space. -/
theorem joinWords_append_space {text : List Char} (h : words text ≠ []) :
    joinWords (words text) ++ [' '] = squeeze true (text ++ [' ']) := by
  rw [← trimEnd_squeeze]
  exact trimEnd_append_space (getLast?_squeeze h) fun _ hnil => h (hnil ▸ rfl)

/-! ## What is kept of a text -/

/-- A text as it is kept at its end. -/
def Edges.close (edges : Edges) (text : List Char) : List Char :=
  if edges.trailing then text else trimEnd text

theorem Edges.close_nil (edges : Edges) : edges.close [] = [] := by
  rw [close, trimEnd_nil, ite_self]

theorem Edges.close_cons (edges : Edges) {c : Char} (h : c ≠ ' ') (text : List Char) :
    edges.close (c :: text) = c :: edges.close text := by
  rw [close, close, trimEnd_cons h, apply_ite (c :: ·)]

theorem Edges.close_append (edges : Edges) (text : List Char) {rest : List Char} (h : rest ≠ []) :
    edges.close (text ++ rest) = text ++ edges.close rest := by
  rw [close, close, trimEnd_append text h, apply_ite (text ++ ·)]

/-- Once a space in front of the next word is kept, the rest is kept with its runs of spaces made
one space. -/
theorem collapseFrom_of_kept {edges : Edges} {done : List Char}
    (h : (edges.leading || !done.isEmpty) = true) (pending : Bool) (text : List Char) :
    collapseFrom edges done pending text = done.reverse ++
      edges.close (if pending then ' ' :: squeeze true text else squeeze false text) := by
  induction text generalizing done pending with
  | nil =>
      cases pending with
      | false =>
          rw [collapseFrom, Bool.false_and, Bool.false_and, if_neg Bool.false_ne_true,
            if_neg Bool.false_ne_true, squeeze_nil, Edges.close_nil, List.append_nil]
      | true =>
          rw [collapseFrom, h, Bool.true_and, Bool.and_true, if_pos rfl, squeeze_nil,
            Edges.close, trimEnd_space, List.reverse_cons]
          split
          · rfl
          · exact (List.append_nil _).symm
  | cons c text ih =>
      rw [collapseFrom]
      by_cases hc : c = ' '
      · subst hc
        rw [if_pos rfl, ih h true]
        cases pending <;> rfl
      · have hkept (done : List Char) : (edges.leading || !(c :: done).isEmpty) = true := by
          rw [List.isEmpty_cons, Bool.not_false, Bool.or_true]
        rw [if_neg hc, h, Bool.and_true, squeeze_cons hc, squeeze_cons hc]
        cases pending with
        | false =>
            rw [if_neg Bool.false_ne_true, if_neg Bool.false_ne_true, ih (hkept _) false,
              Edges.close_cons edges hc, List.reverse_cons, List.append_assoc]
            rfl
        | true =>
            rw [if_pos rfl, if_pos rfl, ih (hkept _) false, if_neg Bool.false_ne_true,
              List.reverse_cons, List.reverse_cons, List.append_assoc, List.append_assoc,
              show ' ' :: c :: squeeze false text = [' '] ++ (c :: squeeze false text) from rfl,
              Edges.close_append edges [' '] (List.cons_ne_nil _ _), Edges.close_cons edges hc]
            rfl

/-- As long as nothing is kept, spaces in front go. -/
theorem collapseFrom_start {edges : Edges} (h : edges.leading = false) (pending : Bool)
    (text : List Char) :
    collapseFrom edges [] pending text = edges.close (squeeze true text) := by
  induction text generalizing pending with
  | nil =>
      rw [collapseFrom, h, List.isEmpty_nil, Bool.not_true, Bool.or_false, Bool.and_false,
        if_neg Bool.false_ne_true, squeeze_nil, Edges.close_nil, List.reverse_nil]
  | cons c text ih =>
      rw [collapseFrom]
      by_cases hc : c = ' '
      · rw [if_pos hc, ih true, hc, squeeze_true_space]
      · have hkept : (edges.leading || !List.isEmpty [c]) = true := by
          rw [List.isEmpty_cons, Bool.not_false, Bool.or_true]
        rw [if_neg hc, h, List.isEmpty_nil, Bool.not_true, Bool.or_false, Bool.and_false,
          if_neg Bool.false_ne_true, collapseFrom_of_kept hkept, if_neg Bool.false_ne_true,
          squeeze_cons hc, Edges.close_cons edges hc]
        rfl

/-- A text with each run of spaces made one space; where no space is kept in front, those in front
belong to a run begun before, and where none is kept behind, the last one goes. -/
def Edges.keep (edges : Edges) (text : List Char) : List Char :=
  edges.close (squeeze (!edges.leading) text)

/-- Runs of spaces are collapsed to what is kept of the text at its place. -/
theorem collapseSpaces_eq (edges : Edges) (text : String) :
    collapseSpaces edges text = String.ofList (edges.keep text.toList) := by
  rw [collapseSpaces, Edges.keep]
  congr 1
  cases h : edges.leading with
  | false => exact collapseFrom_start h false text.toList
  | true =>
      refine (collapseFrom_of_kept (by rw [h]; rfl) false text.toList).trans ?_
      rw [if_neg Bool.false_ne_true]
      rfl

/-- What is kept of a text that stands at the given place of a value, in terms of its words: a
place with something in front of it keeps a space there, and one with something behind it keeps a
space there; of spaces alone a place keeps one if it has something on both sides. -/
def spacedWords (place : Place) (text : List Char) : List Char :=
  if words text = [] then if place = .any ∧ text ≠ [] then [' '] else []
  else
    (if place ≠ .initial ∧ text.head? = some ' ' then [' '] else []) ++ joinWords (words text) ++
      if place ≠ .final ∧ text.getLast? = some ' ' then [' '] else []

/-- Of a whole value its words are kept, with one space between neighbours. -/
theorem collapseSpaces_whole (text : String) :
    collapseSpaces .whole text = String.ofList (joinWords (words text.toList)) := by
  rw [collapseSpaces_eq, ← trimEnd_squeeze]
  rfl

/-- A part of a value is kept as its words and its place say. -/
theorem collapseSpaces_of (place : Place) (text : String) :
    collapseSpaces (.of place) text = String.ofList (spacedWords place text.toList) := by
  rw [collapseSpaces_eq]
  congr 1
  generalize text.toList = text
  rw [spacedWords]
  by_cases hempty : words text = []
  · have hnil : squeeze true text = [] := squeeze_true_eq_nil_iff.mpr hempty
    rw [if_pos hempty]
    cases place with
    | initial => exact hnil
    | any =>
        change squeeze false text = _
        rw [squeeze_false, hnil, List.append_nil]
        cases text with
        | nil => rfl
        | cons c text =>
            rw [words_eq_nil_iff.mp hempty c List.mem_cons_self, List.head?_cons]
            rfl
    | final =>
        change trimEnd (squeeze false text) = []
        rw [squeeze_false, hnil, List.append_nil]
        split
        · exact trimEnd_space
        · exact trimEnd_nil
  · rw [if_neg hempty]
    cases place with
    | initial =>
        change squeeze true text = _
        rw [squeeze_true hempty]
        simp
    | any =>
        change squeeze false text = _
        rw [squeeze_false, squeeze_true hempty]
        simp
    | final =>
        change trimEnd (squeeze false text) = _
        rw [squeeze_false, trimEnd_append _ (mt squeeze_true_eq_nil_iff.mp hempty),
          trimEnd_squeeze]
        simp

end DirectoryAccess.Matching
