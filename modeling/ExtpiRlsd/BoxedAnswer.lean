import ExtpiRlsd.Lib.Brackets
import ExtpiRlsd.Lib.Windows
import ExtpiRlsd.MathReward

/-! # Which boxes are answers

What `extractBoxedAnswer` accepts, for every text.  `extractBoxedAnswer_eq_some_iff` describes
the scanner: behind the last `\boxed` it skips to the next opening brace, wherever that stands,
and takes the balanced group that the brace opens.

So a boxed text is found again behind any prefix (`extractBoxedAnswer_boxed`), and what is found
is the content of a real box exactly when no other text stands between the last `\boxed` and the
group (`onlyRealBox_iff`). -/

namespace ExtpiRlsd

open PyText PyData Brackets Windows

/-! ### The scanner -/

/-- The text goes on with `rest` behind its last `\boxed`. -/
def AfterLastBox (text rest : PyStr) : Prop :=
  ∃ before, text = before ++ boxedPattern ++ rest ∧ ¬ boxedPattern <:+: rest

theorem fromLast_eq_none_iff {pattern s : PyStr} (hpattern : pattern ≠ []) :
    fromLast pattern s = none ↔ ¬ pattern <:+: s := by
  induction s with
  | nil =>
      rw [List.infix_nil]
      exact iff_of_true rfl hpattern
  | cons c s ih =>
      rw [fromLast, List.infix_cons_iff, ← List.isPrefixOf_iff_prefix, not_or, ← ih]
      cases hrest : fromLast pattern s with
      | some rest => simp
      | none =>
          by_cases hstart : pattern.isPrefixOf (c :: s) = true
          · simp [hstart]
          · simp [hstart]

/-- The last occurrence begins a suffix and none begins behind it. -/
theorem fromLast_eq_some_iff {pattern s rest : PyStr} (hpattern : pattern ≠ []) :
    fromLast pattern s = some rest ↔
      rest <:+ s ∧ pattern <+: rest ∧ ¬ pattern <:+: rest.tail := by
  induction s with
  | nil =>
      constructor
      · intro h
        cases h
      · rintro ⟨hsuffix, hstart, -⟩
        rw [List.suffix_nil.mp hsuffix] at hstart
        exact absurd (List.prefix_nil.mp hstart) hpattern
  | cons c s ih =>
      rw [fromLast, List.suffix_cons_iff]
      cases hlater : fromLast pattern s with
      | some later =>
          -- an occurrence in the tail of the text is later than one at its head
          have hinfix : pattern <:+: s := by
            by_contra hnot
            rw [(fromLast_eq_none_iff hpattern).mpr hnot] at hlater
            cases hlater
          rw [hlater] at ih
          simp only [ih]
          constructor
          · rintro ⟨hsuffix, h⟩
            exact ⟨.inr hsuffix, h⟩
          · rintro ⟨rfl | hsuffix, h⟩
            · exact absurd hinfix h.2
            · exact ⟨hsuffix, h⟩
      | none =>
          have hnot : ¬ pattern <:+: s := (fromLast_eq_none_iff hpattern).mp hlater
          have hhere : ∀ r : PyStr, r <:+ s → ¬ pattern <+: r := by
            intro r hr hstart
            exact hnot (hstart.isInfix.trans hr.isInfix)
          by_cases hstart : pattern.isPrefixOf (c :: s) = true
          · simp only [hstart, if_true, Option.some.injEq]
            constructor
            · rintro rfl
              exact ⟨.inl rfl, List.isPrefixOf_iff_prefix.mp hstart, hnot⟩
            · rintro ⟨rfl | hsuffix, h, -⟩
              · rfl
              · exact absurd h (hhere rest hsuffix)
          · simp only [hstart, Bool.false_eq_true, if_false, reduceCtorEq, false_iff]
            rintro ⟨rfl | hsuffix, h, -⟩
            · exact hstart (List.isPrefixOf_iff_prefix.mpr h)
            · exact hhere rest hsuffix h

theorem boxedPattern_ne_nil : boxedPattern ≠ [] := by decide

/-- The other letters of `\boxed` do not begin it. -/
theorem boxedPattern_tail {rest : PyStr} :
    boxedPattern <:+: (boxedPattern ++ rest).tail ↔ boxedPattern <:+: rest := by
  have hcut : ∀ {c : Char} {s : PyStr}, c ≠ '\\' →
      (boxedPattern <:+: c :: s ↔ boxedPattern <:+: s) := by
    intro c s hc
    rw [List.infix_cons_iff, or_iff_right]
    intro h
    exact hc (List.cons_prefix_cons.mp h).1.symm
  show boxedPattern <:+: 'b' :: 'o' :: 'x' :: 'e' :: 'd' :: rest ↔ _
  rw [hcut (by decide), hcut (by decide), hcut (by decide), hcut (by decide), hcut (by decide)]

theorem afterLastBox_iff {text rest : PyStr} :
    AfterLastBox text rest ↔ fromLast boxedPattern text = some (boxedPattern ++ rest) := by
  rw [fromLast_eq_some_iff boxedPattern_ne_nil, boxedPattern_tail,
    and_iff_right (List.prefix_append _ _)]
  constructor
  · rintro ⟨before, rfl, hlast⟩
    rw [List.append_assoc]
    exact ⟨List.suffix_append _ _, hlast⟩
  · rintro ⟨⟨before, rfl⟩, hlast⟩
    exact ⟨before, (List.append_assoc _ _ _).symm, hlast⟩

/-- A text that leaves no brace open is the group before the next closing brace. -/
theorem closeBrace_append {depth : ℕ} {group : PyStr}
    (h : depthFrom '\x7b' '\x7d' depth group = some 0) (after : PyStr) :
    closeBrace (depth + 1) (group ++ '\x7d' :: after) = some group := by
  induction group generalizing depth with
  | nil =>
      obtain rfl : depth = 0 := Option.some.inj h
      rfl
  | cons c group ih =>
      rw [List.cons_append, closeBrace]
      rw [depthFrom] at h
      by_cases ho : c = '\x7b'
      · rw [if_pos ho] at h ⊢
        rw [ih h, Option.map_some]
      · rw [if_neg ho] at h ⊢
        by_cases hc : c = '\x7d'
        · rw [if_pos hc] at h ⊢
          cases depth with
          | zero => cases h
          | succ depth =>
              have hne : depth + 1 + 1 ≠ 1 := by omega
              rw [if_neg (Nat.succ_ne_zero depth), Nat.add_sub_cancel] at h
              rw [if_neg hne, Nat.add_sub_cancel, ih h, Option.map_some]
        · rw [if_neg hc] at h ⊢
          rw [ih h, Option.map_some]

/-- What is found as the group leaves no brace open and stands before a closing brace. -/
theorem closeBrace_eq_some {depth : ℕ} {s group : PyStr}
    (h : closeBrace (depth + 1) s = some group) :
    depthFrom '\x7b' '\x7d' depth group = some 0 ∧ ∃ after, s = group ++ '\x7d' :: after := by
  induction s generalizing depth group with
  | nil => cases h
  | cons c s ih =>
      rw [closeBrace] at h
      by_cases ho : c = '\x7b'
      · rw [if_pos ho] at h
        obtain ⟨inner, hinner, rfl⟩ := Option.map_eq_some_iff.mp h
        obtain ⟨hdepth, after, rfl⟩ := ih hinner
        exact ⟨by rw [depthFrom, if_pos ho, hdepth], after, rfl⟩
      · rw [if_neg ho] at h
        by_cases hc : c = '\x7d'
        · rw [if_pos hc] at h
          cases depth with
          | zero =>
              obtain rfl := Option.some.inj h
              exact ⟨rfl, s, by rw [hc]; rfl⟩
          | succ depth =>
              have hne : depth + 1 + 1 ≠ 1 := by omega
              rw [if_neg hne, Nat.add_sub_cancel] at h
              obtain ⟨inner, hinner, rfl⟩ := Option.map_eq_some_iff.mp h
              obtain ⟨hdepth, after, rfl⟩ := ih hinner
              refine ⟨?_, after, rfl⟩
              rw [depthFrom, if_neg ho, if_pos hc, if_neg (Nat.succ_ne_zero depth),
                Nat.add_sub_cancel, hdepth]
        · rw [if_neg hc] at h
          obtain ⟨inner, hinner, rfl⟩ := Option.map_eq_some_iff.mp h
          obtain ⟨hdepth, after, rfl⟩ := ih hinner
          exact ⟨by rw [depthFrom, if_neg ho, if_neg hc, hdepth], after, rfl⟩

theorem braces_ne : '\x7b' ≠ '\x7d' := by decide

/-- The group is the balanced text before the first closing brace that it does not open. -/
theorem closeBrace_one_eq_some_iff {s group : PyStr} :
    closeBrace 1 s = some group ↔
      Balanced '\x7b' '\x7d' group ∧ ∃ after, s = group ++ '\x7d' :: after := by
  rw [← depthFrom_zero_iff braces_ne]
  constructor
  · exact closeBrace_eq_some
  · rintro ⟨hdepth, after, rfl⟩
    exact closeBrace_append hdepth after

/-- The text up to the next opening brace, and the text behind that brace. -/
theorem dropWhile_brace_eq_cons_iff {s group : PyStr} {c : Char} :
    s.dropWhile (· ≠ '\x7b') = c :: group ↔
      c = '\x7b' ∧ ∃ gap, '\x7b' ∉ gap ∧ s = gap ++ '\x7b' :: group := by
  induction s with
  | nil => simp
  | cons d s ih =>
      by_cases hd : d = '\x7b'
      · rw [List.dropWhile_cons_of_neg (by simp [hd]), List.cons.injEq]
        constructor
        · rintro ⟨rfl, rfl⟩
          exact ⟨hd, [], List.not_mem_nil, by rw [hd]; rfl⟩
        · rintro ⟨rfl, gap, hgap, hs⟩
          cases gap with
          | nil => exact List.cons.inj hs
          | cons e gap =>
              obtain ⟨rfl, -⟩ := List.cons.inj hs
              exact absurd (hd ▸ List.mem_cons_self) hgap
      · rw [List.dropWhile_cons_of_pos (by simp [hd]), ih]
        constructor
        · rintro ⟨rfl, gap, hgap, rfl⟩
          refine ⟨rfl, d :: gap, ?_, rfl⟩
          rw [List.mem_cons, not_or]
          exact ⟨fun h => hd h.symm, hgap⟩
        · rintro ⟨rfl, gap, hgap, hs⟩
          cases gap with
          | nil => exact absurd (List.cons.inj hs).1 hd
          | cons e gap =>
              obtain ⟨rfl, rfl⟩ := List.cons.inj hs
              exact ⟨rfl, gap, fun h => hgap (List.mem_cons_of_mem _ h), rfl⟩

/-- The last `\boxed` of the text, then `gap`, then the balanced `group` in braces. -/
def BoxWithGap (text gap group : PyStr) : Prop :=
  '\x7b' ∉ gap ∧ Balanced '\x7b' '\x7d' group ∧
    ∃ after, AfterLastBox text (gap ++ '\x7b' :: group ++ '\x7d' :: after)

/-- The answer of a text with a box, read from the text behind its last `\boxed`. -/
theorem extractBoxedAnswer_of_afterLastBox {text rest : PyStr} (h : AfterLastBox text rest) :
    extractBoxedAnswer text = match rest.dropWhile (· ≠ '\x7b') with
      | [] => none
      | _ :: group => (closeBrace 1 group).map strip := by
  have hskip : (boxedPattern ++ rest).dropWhile (· ≠ '\x7b') = rest.dropWhile (· ≠ '\x7b') := rfl
  rw [extractBoxedAnswer, afterLastBox_iff.mp h, ← hskip]
  rfl

theorem exists_afterLastBox {text rest : PyStr} (h : fromLast boxedPattern text = some rest) :
    ∃ behind, AfterLastBox text behind := by
  obtain ⟨-, ⟨behind, rfl⟩, -⟩ := (fromLast_eq_some_iff boxedPattern_ne_nil).mp h
  exact ⟨behind, afterLastBox_iff.mpr h⟩

/-- **The scanner.**  Whatever stands between the last `\boxed` and the next opening brace, the
answer is the balanced group behind that brace. -/
theorem extractBoxedAnswer_eq_some_iff {text answer : PyStr} :
    extractBoxedAnswer text = some answer ↔
      ∃ gap group, BoxWithGap text gap group ∧ answer = strip group := by
  constructor
  · intro h
    obtain ⟨found, hfound, -⟩ := Option.bind_eq_some_iff.mp h
    obtain ⟨rest, hrest⟩ := exists_afterLastBox hfound
    rw [extractBoxedAnswer_of_afterLastBox hrest] at h
    cases hdrop : rest.dropWhile (· ≠ '\x7b') with
    | nil =>
        rw [hdrop] at h
        cases h
    | cons c tail =>
        rw [hdrop] at h
        obtain ⟨group, hgroup, rfl⟩ := Option.map_eq_some_iff.mp h
        obtain ⟨hbalanced, after, rfl⟩ := closeBrace_one_eq_some_iff.mp hgroup
        obtain ⟨-, gap, hgap, rfl⟩ := dropWhile_brace_eq_cons_iff.mp hdrop
        exact ⟨gap, group, ⟨hgap, hbalanced, after, by simpa using hrest⟩, rfl⟩
  · rintro ⟨gap, group, ⟨hgap, hbalanced, after, hrest⟩, rfl⟩
    have hdrop : (gap ++ '\x7b' :: group ++ '\x7d' :: after).dropWhile (· ≠ '\x7b') =
        '\x7b' :: (group ++ '\x7d' :: after) :=
      dropWhile_brace_eq_cons_iff.mpr ⟨rfl, gap, hgap, by simp⟩
    rw [extractBoxedAnswer_of_afterLastBox hrest, hdrop]
    exact congrArg (Option.map strip) (closeBrace_one_eq_some_iff.mpr ⟨hbalanced, after, rfl⟩)

/-! ### Boxing and extracting -/

/-- **Extraction inverts boxing.**  A balanced text without a box of its own, boxed behind any
prefix and before any suffix without a box, is the answer up to the white space around it. -/
theorem extractBoxedAnswer_boxed {p b s : PyStr} (hbalanced : Balanced '\x7b' '\x7d' b)
    (hb : ¬ "\\boxed".toList <:+: b) (hs : ¬ "\\boxed".toList <:+: s) :
    extractBoxedAnswer (p ++ "\\boxed\x7b".toList ++ b ++ "\x7d".toList ++ s) =
      some (strip b) := by
  have hlast : ¬ boxedPattern <:+: [] ++ '\x7b' :: b ++ '\x7d' :: s := by
    intro h
    rcases infix_append_cons (by decide) h with h | h
    · rcases List.infix_cons_iff.mp h with h | h
      · exact absurd (List.cons_prefix_cons.mp h).1 (by decide)
      · exact hb h
    · exact hs h
  have hbox : AfterLastBox (p ++ "\\boxed\x7b".toList ++ b ++ "\x7d".toList ++ s)
      ([] ++ '\x7b' :: b ++ '\x7d' :: s) := by
    refine ⟨p, ?_, hlast⟩
    show p ++ (boxedPattern ++ ['\x7b']) ++ b ++ ['\x7d'] ++ s = _
    simp only [List.append_assoc, List.cons_append, List.nil_append]
  exact extractBoxedAnswer_eq_some_iff.mpr
    ⟨[], b, ⟨List.not_mem_nil, hbalanced, s, hbox⟩, rfl⟩

/-- A fraction in a box, behind an open brace and an earlier box. -/
theorem extractBoxedAnswer_boxed_frac :
    extractBoxedAnswer ("\x7b\\boxed\x7b1\x7d".toList ++ "\\boxed\x7b".toList ++
      " \\frac\x7b1\x7d\x7b2\x7d".toList ++ "\x7d".toList ++ "\x7d.".toList) =
      some "\\frac\x7b1\x7d\x7b2\x7d".toList := by
  have hbalanced : Balanced '\x7b' '\x7d' " \\frac\x7b1\x7d\x7b2\x7d".toList := by
    rw [← depthFrom_zero_iff braces_ne]
    decide
  rw [extractBoxedAnswer_boxed hbalanced (by decide) (by decide)]
  decide

/-! ### Rewarded answers -/

/-- Behind its last `\boxed` the text goes on with white space and a balanced group in braces,
which is the answer up to the white space around it. -/
def RealBox (text answer : PyStr) : Prop :=
  ∃ space group after, AllSpace space ∧ Balanced '\x7b' '\x7d' group ∧
    AfterLastBox text (space ++ '\x7b' :: group ++ '\x7d' :: after) ∧ answer = strip group

section score
variable {v : Verifier} {text : PyStr}

theorem computeScore_of_none (h : extractBoxedAnswer text = none) (groundTruth : Json) :
    computeScore v text groundTruth = ⟨0, 0, 0, []⟩ := by
  rw [computeScore, h]
  rfl

/-- A score or a format above zero needs an answer. -/
theorem exists_answer_of_pos {groundTruth : Json}
    (h : (computeScore v text groundTruth).format = 1 ∨
      0 < (computeScore v text groundTruth).score) :
    ∃ answer, extractBoxedAnswer text = some answer := by
  cases hanswer : extractBoxedAnswer text with
  | some answer => exact ⟨answer, rfl⟩
  | none =>
      rw [computeScore_of_none hanswer] at h
      rcases h with h | h
      · exact absurd h zero_ne_one
      · exact absurd h (lt_irrefl 0)

/-- An answer has format one and a positive score, whatever the ground truth. -/
theorem computeScore_of_some {answer : PyStr} (h : extractBoxedAnswer text = some answer)
    (groundTruth : Json) :
    (computeScore v text groundTruth).format = 1 ∧
      0 < (computeScore v text groundTruth).score := by
  rw [computeScore, h]
  refine ⟨rfl, ?_⟩
  show (0 : ℚ) < if _ then 1 else 5 / 100
  split
  · exact one_pos
  · norm_num

end score

/-- Only real boxes are answers and are rewarded, and all other texts score zero. -/
structure OnlyRealBox (v : Verifier) (text : PyStr) : Prop where
  answer : ∀ c, extractBoxedAnswer text = some c → RealBox text c
  rewarded : ∀ groundTruth, (computeScore v text groundTruth).format = 1 ∨
    0 < (computeScore v text groundTruth).score → ∃ c, RealBox text c
  rejected : (¬ ∃ c, RealBox text c) → extractBoxedAnswer text = none ∧
    ∀ groundTruth, (computeScore v text groundTruth).score = 0

theorem not_mem_of_allSpace {space : PyStr} (h : AllSpace space) : '\x7b' ∉ space := by
  intro hmem
  exact absurd (h _ hmem) (by decide)

/-- The text behind the last `\boxed` is read in one way. -/
theorem BoxWithGap.unique {text gap group space inner after : PyStr}
    (h : BoxWithGap text gap group) (hspace : '\x7b' ∉ space)
    (hrest : AfterLastBox text (space ++ '\x7b' :: inner ++ '\x7d' :: after)) : gap = space := by
  obtain ⟨hgap, -, after', hrest'⟩ := h
  have hsame := Option.some.inj ((afterLastBox_iff.mp hrest').symm.trans (afterLastBox_iff.mp hrest))
  have hsame := List.append_cancel_left hsame
  rw [List.append_assoc, List.append_assoc, List.cons_append, List.cons_append] at hsame
  have htake := congrArg (List.takeWhile (· ≠ '\x7b')) hsame
  have htakes : ∀ {s t : PyStr}, '\x7b' ∉ s → (s ++ '\x7b' :: t).takeWhile (· ≠ '\x7b') = s := by
    intro s t hs
    rw [List.takeWhile_append_of_pos, List.takeWhile_cons_of_neg (by simp), List.append_nil]
    intro c hc
    exact decide_eq_true fun heq => hs (heq ▸ hc)
  rwa [htakes hgap, htakes hspace] at htake

theorem OnlyRealBox.allSpace {v : Verifier} {text gap group : PyStr} (h : OnlyRealBox v text)
    (hbox : BoxWithGap text gap group) : AllSpace gap := by
  have hanswer := extractBoxedAnswer_eq_some_iff.mpr ⟨gap, group, hbox, rfl⟩
  obtain ⟨space, inner, after, hspace, -, hrest, -⟩ := h.answer _ hanswer
  rw [hbox.unique (not_mem_of_allSpace hspace) hrest]
  exact hspace

/-- **When only real boxes are rewarded.**  A text meets the contract exactly when a closed group
behind its last `\boxed` is separated from it by white space only. -/
theorem onlyRealBox_iff (v : Verifier) (text : PyStr) :
    OnlyRealBox v text ↔ ∀ gap group, BoxWithGap text gap group → AllSpace gap := by
  constructor
  · intro h gap group hbox
    exact h.allSpace hbox
  · intro h
    have hreal : ∀ c, extractBoxedAnswer text = some c → RealBox text c := by
      intro c hc
      obtain ⟨gap, group, hbox, rfl⟩ := extractBoxedAnswer_eq_some_iff.mp hc
      have hspace := h gap group hbox
      obtain ⟨-, hbalanced, after, hrest⟩ := hbox
      exact ⟨gap, group, after, hspace, hbalanced, hrest, rfl⟩
    refine ⟨hreal, ?_, ?_⟩
    · intro groundTruth hpos
      obtain ⟨c, hc⟩ := exists_answer_of_pos hpos
      exact ⟨c, hreal c hc⟩
    · intro hnone
      have hanswer : extractBoxedAnswer text = none := by
        apply Option.eq_none_iff_forall_not_mem.mpr
        intro c hc
        exact hnone ⟨c, hreal c hc⟩
      refine ⟨hanswer, ?_⟩
      intro groundTruth
      rw [computeScore_of_none hanswer]

/-- A verifier without `math_verify`, for ASCII text. -/
def Verifier.plain : Verifier where
  mathVerify _ _ := none
  table := .ascii
  printer := ⟨fun _ => true, fun _ => []⟩

/-- **A reward without a box.**  The text names `\boxed` and has a set in braces later on; the
set is taken for the answer and scores one. -/
theorem set_after_boxed :
    ¬ OnlyRealBox .plain "\\boxed is missing: \x7b2\x7d".toList ∧
      (computeScore .plain "\\boxed is missing: \x7b2\x7d".toList (.str ['2'])).score = 1 := by
  have hbox : BoxWithGap "\\boxed is missing: \x7b2\x7d".toList " is missing: ".toList ['2'] := by
    refine ⟨by decide, ?_, [], [], rfl, by decide⟩
    rw [← depthFrom_zero_iff braces_ne]
    rfl
  refine ⟨?_, ?_⟩
  · intro h
    exact absurd (h.allSpace hbox 'i' (by decide)) (by decide)
  · decide +kernel

end ExtpiRlsd
