import ExtpiRlsd.Lib.PyText

/-! # Lower case, words and white space

`str.lower`, the patterns `\s+` and `\w+` and what they do to each other.  Lower case goes
character by character, except for the capital sigma, whose lower case depends on the letters
around it; white space ends the look at the letters (`startsCased_space`), so lower case commutes
with stripping (`lower_strip`).  The words of a text do not change when its white space is
collapsed (`words_collapseSpaces`).

The character tables are a parameter (`CharTable`) with what they say about white space. -/

namespace PyText

/-! ### Lower case -/

structure CharTable where
  /-- The lower case of a character other than the capital sigma. -/
  lowerFull : Char → PyStr
  isCased : Char → Bool
  isCaseIgnorable : Char → Bool
  isAlnum : Char → Bool
  lowerFull_space : ∀ c, isSpace c = true → lowerFull c = [c]
  isCased_space : ∀ c, isSpace c = true → isCased c = false
  isCaseIgnorable_space : ∀ c, isSpace c = true → isCaseIgnorable c = false
  isAlnum_space : ∀ c, isSpace c = true → isAlnum c = false

variable (t : CharTable)

/-- The first character that is not case-ignorable is a cased one. -/
def startsCased (s : PyStr) : Bool :=
  match s.dropWhile t.isCaseIgnorable with
  | [] => false
  | c :: _ => t.isCased c

/-- The lower case of one character between the text `before` it (reversed) and that `after`. -/
def lowerAt (before : PyStr) (c : Char) (after : PyStr) : PyStr :=
  if c = 'Σ' then [if startsCased t before && !startsCased t after then 'ς' else 'σ']
  else t.lowerFull c

def lowerFrom (before : PyStr) : PyStr → PyStr
  | [] => []
  | c :: s => lowerAt t before c s ++ lowerFrom (c :: before) s

/-- `s.lower()`. -/
def lower (s : PyStr) : PyStr := lowerFrom t [] s

/-- The text is white space. -/
def AllSpace (s : PyStr) : Prop := ∀ c ∈ s, isSpace c = true

theorem not_isSpace_sigma : isSpace 'Σ' = false := by decide

variable {t}

theorem AllSpace.reverse {s : PyStr} (h : AllSpace s) : AllSpace s.reverse :=
  fun c hc => h c (List.mem_reverse.mp hc)

theorem startsCased_cons {c : Char} {s s' : PyStr} (h : startsCased t s = startsCased t s') :
    startsCased t (c :: s) = startsCased t (c :: s') := by
  unfold startsCased at h ⊢
  rw [List.dropWhile_cons, List.dropWhile_cons]
  cases t.isCaseIgnorable c with
  | true => exact h
  | false => rfl

theorem startsCased_space {c : Char} (hc : isSpace c = true) (s : PyStr) :
    startsCased t (c :: s) = false := by
  unfold startsCased
  rw [List.dropWhile_cons, t.isCaseIgnorable_space c hc]
  exact t.isCased_space c hc

/-- White space hides what is behind it. -/
theorem startsCased_append_space {w : PyStr} (hw : AllSpace w) (s : PyStr) :
    startsCased t (s ++ w) = startsCased t s := by
  induction s with
  | nil => cases w with
    | nil => rfl
    | cons c w => exact startsCased_space (hw c List.mem_cons_self) w
  | cons c s ih => exact startsCased_cons ih

theorem startsCased_space_append {w : PyStr} (hw : AllSpace w) :
    startsCased t w = startsCased t [] := by
  have h := startsCased_append_space (t := t) hw []
  exact h

theorem lowerFrom_congr {before before' : PyStr}
    (h : startsCased t before = startsCased t before') (s : PyStr) :
    lowerFrom t before s = lowerFrom t before' s := by
  induction s generalizing before before' with
  | nil => rfl
  | cons c s ih =>
      unfold lowerFrom lowerAt
      rw [h, ih (startsCased_cons h)]

theorem lowerAt_space {c : Char} (hc : isSpace c = true) (before after : PyStr) :
    lowerAt t before c after = [c] := by
  have hne : c ≠ 'Σ' := by
    intro h
    rw [h, not_isSpace_sigma] at hc
    exact Bool.false_ne_true hc
  rw [lowerAt, if_neg hne]
  exact t.lowerFull_space c hc

theorem lowerFrom_space_append {w : PyStr} (hw : AllSpace w) (before s : PyStr) :
    lowerFrom t before (w ++ s) = w ++ lowerFrom t (w.reverse ++ before) s := by
  induction w generalizing before with
  | nil => rfl
  | cons c w ih =>
      have hc := hw c List.mem_cons_self
      have hrest := ih (fun d hd => hw d (List.mem_cons_of_mem c hd)) (c :: before)
      rw [List.cons_append, lowerFrom, lowerAt_space hc, hrest]
      simp

theorem lowerFrom_append_space {w : PyStr} (hw : AllSpace w) (before s : PyStr) :
    lowerFrom t before (s ++ w) = lowerFrom t before s ++ w := by
  induction s generalizing before with
  | nil =>
      have h := lowerFrom_space_append hw (t := t) before []
      rw [List.append_nil] at h
      rw [List.nil_append, h]
      simp [lowerFrom]
  | cons c s ih =>
      rw [List.cons_append, lowerFrom, lowerFrom, ih, lowerAt, lowerAt,
        startsCased_append_space hw, List.append_assoc]

/-- A text is its stripped text between white space. -/
theorem exists_strip (s : PyStr) :
    ∃ w w', AllSpace w ∧ AllSpace w' ∧ s = w ++ (strip s ++ w') := by
  refine ⟨s.takeWhile isSpace, (s.dropWhile isSpace).rtakeWhile isSpace, ?_, ?_, ?_⟩
  · intro c hc
    exact List.mem_takeWhile_imp hc
  · intro c hc
    exact List.mem_rtakeWhile_imp hc
  · unfold strip
    rw [List.rdropWhile_append_rtakeWhile, List.takeWhile_append_dropWhile]

/-- A text with a character that is no white space is not blank. -/
theorem strip_ne_nil {c : Char} {s : PyStr} (hc : c ∈ s) (hspace : isSpace c = false) :
    strip s ≠ [] := by
  intro hnil
  obtain ⟨w, w', hw, hw', hs⟩ := exists_strip s
  rw [hs, hnil, List.nil_append] at hc
  have htrue : isSpace c = true := by
    rcases List.mem_append.mp hc with hc | hc
    · exact hw c hc
    · exact hw' c hc
  rw [htrue] at hspace
  cases hspace

/-- Lower case commutes with stripping. -/
theorem lower_strip (s : PyStr) :
    ∃ w w', AllSpace w ∧ AllSpace w' ∧ lower t s = w ++ (lower t (strip s) ++ w') := by
  obtain ⟨w, w', hw, hw', hs⟩ := exists_strip s
  refine ⟨w, w', hw, hw', ?_⟩
  have hbefore : startsCased t (w.reverse ++ []) = startsCased t [] := by
    rw [List.append_nil]
    exact startsCased_space_append hw.reverse
  unfold lower
  conv => lhs; rw [hs]
  rw [lowerFrom_space_append hw, lowerFrom_congr hbefore, lowerFrom_append_space hw']

/-! ### White space and words -/

/-- `re.sub(r"\s+", " ", s)`, behind white space or not. -/
def collapseFrom : Bool → PyStr → PyStr
  | _, [] => []
  | inSpace, c :: s =>
      if isSpace c then (if inSpace then collapseFrom true s else ' ' :: collapseFrom true s)
      else c :: collapseFrom false s

/-- `re.sub(r"\s+", " ", s)`. -/
def collapseSpaces (s : PyStr) : PyStr := collapseFrom false s

variable (t) in
/-- The pattern `\w`. -/
def isWord (c : Char) : Bool := t.isAlnum c || c == '_'

/-- The word before its end, if it is one. -/
def endWord (word : PyStr) (rest : List PyStr) : List PyStr :=
  if word.isEmpty then rest else word :: rest

variable (t) in
/-- `re.findall(r"\w+", s)` behind the letters `word`. -/
def wordsFrom (word : PyStr) : PyStr → List PyStr
  | [] => endWord word []
  | c :: s => if isWord t c then wordsFrom (word ++ [c]) s else endWord word (wordsFrom [] s)

variable (t) in
/-- `re.findall(r"\w+", s)`. -/
def words (s : PyStr) : List PyStr := wordsFrom t [] s

theorem isWord_space {c : Char} (hc : isSpace c = true) : isWord t c = false := by
  have hne : c ≠ '_' := by
    rintro rfl
    revert hc
    decide
  rw [isWord, t.isAlnum_space c hc, Bool.false_or, beq_eq_false_iff_ne]
  exact hne

theorem isSpace_blank : isSpace ' ' = true := by decide

theorem wordsFrom_space {c : Char} (hc : isSpace c = true) (word s : PyStr) :
    wordsFrom t word (c :: s) = endWord word (words t s) := by
  rw [wordsFrom, isWord_space hc]
  rfl

/-- Collapsed white space ends a word as the white space did; behind white space no word is
open. -/
theorem wordsFrom_collapseFrom (s : PyStr) :
    (∀ word, wordsFrom t word (collapseFrom false s) = wordsFrom t word s) ∧
      words t (collapseFrom true s) = words t s := by
  induction s with
  | nil => exact ⟨fun _ => rfl, rfl⟩
  | cons c s ih =>
      obtain ⟨ihFalse, ihTrue⟩ := ih
      cases hc : isSpace c with
      | true =>
          constructor
          · intro word
            simp only [collapseFrom, hc, if_true]
            rw [if_neg Bool.false_ne_true, wordsFrom_space isSpace_blank, wordsFrom_space hc,
              ihTrue]
          · simp only [collapseFrom, hc, if_true]
            rw [ihTrue, words, words, wordsFrom_space hc]
            rfl
      | false =>
          have hword : ∀ word, wordsFrom t word (c :: collapseFrom false s) =
              wordsFrom t word (c :: s) := by
            intro word
            rw [wordsFrom, wordsFrom, ihFalse, ihFalse]
          constructor
          · intro word
            simp only [collapseFrom, hc]
            exact hword word
          · simp only [collapseFrom, hc]
            exact hword []

theorem words_collapseSpaces (s : PyStr) : words t (collapseSpaces s) = words t s :=
  (wordsFrom_collapseFrom s).1 []

theorem words_space_append {w : PyStr} (hw : AllSpace w) (s : PyStr) :
    words t (w ++ s) = words t s := by
  induction w with
  | nil => rfl
  | cons c w ih =>
      rw [words, List.cons_append, wordsFrom_space (hw c List.mem_cons_self)]
      exact ih fun d hd => hw d (List.mem_cons_of_mem c hd)

theorem wordsFrom_append_space {w : PyStr} (hw : AllSpace w) (word s : PyStr) :
    wordsFrom t word (s ++ w) = wordsFrom t word s := by
  induction s generalizing word with
  | nil => cases w with
    | nil => rfl
    | cons c w =>
        have hempty : words t w = [] := by
          have h := words_space_append (t := t)
            (fun d hd => hw d (List.mem_cons_of_mem c hd) : AllSpace w) []
          rw [List.append_nil] at h
          exact h
        rw [List.nil_append, wordsFrom_space (hw c List.mem_cons_self), hempty]
        rfl
  | cons c s ih =>
      rw [List.cons_append, wordsFrom, wordsFrom, ih, ih]

/-- The characters of a text that a filter without white space keeps. -/
theorem filter_collapseFrom {p : Char → Bool} (hp : ∀ c, isSpace c = true → p c = false)
    (inSpace : Bool) (s : PyStr) : (collapseFrom inSpace s).filter p = s.filter p := by
  have hblank := hp ' ' isSpace_blank
  induction s generalizing inSpace with
  | nil => rfl
  | cons c s ih => cases hc : isSpace c with
    | true => cases inSpace with
      | true => simp [collapseFrom, hc, ih, hp c hc]
      | false => simp [collapseFrom, hc, ih, hp c hc, hblank]
    | false => simp [collapseFrom, hc, ih, List.filter_cons]

theorem filter_allSpace {p : Char → Bool} (hp : ∀ c, isSpace c = true → p c = false)
    {w : PyStr} (hw : AllSpace w) : w.filter p = [] := by
  apply List.filter_eq_nil_iff.mpr
  intro c hc
  rw [hp c (hw c hc)]
  exact Bool.false_ne_true

/-! ### ASCII -/

theorem isUpper_space {c : Char} (hc : isSpace c = true) : c.isUpper = false := by
  by_contra h
  rw [Bool.not_eq_false] at h
  simp only [Char.isUpper, decide_eq_true_eq, UInt32.le_iff_toNat_le, ge_iff_le] at h
  simp only [isSpace, Bool.or_eq_true, Bool.and_eq_true, decide_eq_true_eq, beq_iff_eq] at hc
  have hval : c.toNat = c.val.toNat := rfl
  have hA : 'A'.val.toNat = 65 := rfl
  have hZ : 'Z'.val.toNat = 90 := rfl
  omega

theorem isAlphanum_space {c : Char} (hc : isSpace c = true) : c.isAlphanum = false := by
  by_contra h
  rw [Bool.not_eq_false] at h
  simp only [Char.isAlphanum, Char.isAlpha, Char.isUpper, Char.isLower, Char.isDigit,
    Bool.or_eq_true, Bool.and_eq_true, decide_eq_true_eq, UInt32.le_iff_toNat_le, ge_iff_le] at h
  simp only [isSpace, Bool.or_eq_true, Bool.and_eq_true, decide_eq_true_eq, beq_iff_eq] at hc
  have hval : c.toNat = c.val.toNat := rfl
  have hA : 'A'.val.toNat = 65 := rfl
  have hZ : 'Z'.val.toNat = 90 := rfl
  have ha : 'a'.val.toNat = 97 := rfl
  have hz : 'z'.val.toNat = 122 := rfl
  have h0 : '0'.val.toNat = 48 := rfl
  have h9 : '9'.val.toNat = 57 := rfl
  omega

theorem isAlpha_space {c : Char} (hc : isSpace c = true) : c.isAlpha = false := by
  have h := isAlphanum_space hc
  rw [Char.isAlphanum, Bool.or_eq_false_iff] at h
  exact h.1

theorem toLower_space (c : Char) (hc : isSpace c = true) : [c.toLower] = [c] := by
  have h := isUpper_space hc
  simp only [Char.isUpper, decide_eq_false_iff_not] at h
  unfold Char.toLower
  rw [dif_neg h]

/-- An ASCII character that case looks through. -/
def asciiCaseIgnorable (c : Char) : Bool := ['\'', '.', ':', '^', '\x60'].contains c

theorem asciiCaseIgnorable_space (c : Char) (hc : isSpace c = true) :
    asciiCaseIgnorable c = false := by
  by_contra h
  rw [Bool.not_eq_false, asciiCaseIgnorable, List.contains_iff_mem] at h
  simp only [List.mem_cons, List.not_mem_nil, or_false] at h
  rcases h with rfl | rfl | rfl | rfl | rfl <;> exact absurd hc (by decide)

/-- The tables as they are for ASCII text. -/
def CharTable.ascii : CharTable where
  lowerFull c := [c.toLower]
  isCased := Char.isAlpha
  isCaseIgnorable := asciiCaseIgnorable
  isAlnum := Char.isAlphanum
  lowerFull_space := toLower_space
  isCased_space _ := isAlpha_space
  isCaseIgnorable_space := asciiCaseIgnorable_space
  isAlnum_space _ := isAlphanum_space

end PyText
