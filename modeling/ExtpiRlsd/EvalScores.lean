import ExtpiRlsd.Lib.Grouping
import ExtpiRlsd.MathReward
import ExtpiRlsd.PromptAssembly

/-! # Scores of evaluated samples

`summarize_scored_items` of `evaluate_checkpoints.py`: the scores of the samples of every problem,
the majority vote over their boxed answers, and the rates over a checkpoint.

The vote counts answers without case and white space and verifies the winner in that form, while
a sample is scored on its answer as it stands.  `payload_consistent_iff` says when the two agree
well enough for the rates to be ordered: no problem with one verdict on all its samples has a
winner whose verdict changes under that normalisation.

All scores are zeros and ones; their sums and means are taken without rounding. -/

namespace ExtpiRlsd

open PyText PyData Grouping

/-! ### Scored items -/

/-- A sample as the evaluation returns it; the counts are optional. -/
structure ScoredSample where
  text : PyStr
  truncated : Option Bool
  completionTokens : Option ℤ
  promptTokens : Option ℤ

structure ScoredItem where
  id : PyStr
  groundTruth : Json
  piTrace : Option PyStr
  greedyText : PyStr
  samples : List ScoredSample

/-- An entry of `per_problem`. -/
structure ProblemScores where
  id : PyStr
  avg : ℚ
  pass : ℚ
  majority : ℚ
  greedyAccuracy : ℚ
  greedyFormat : ℚ
  greedyBoxedAnswer : PyStr

/-- What `summarize_scored_items` returns. -/
structure EvalPayload where
  run : PyStr
  checkpoint : PyStr
  avg : ℚ
  majority : ℚ
  pass : ℚ
  greedyAccuracy : ℚ
  formatRate : ℚ
  truncationRate : ℚ
  meanResponseLength : ℚ
  groupVariance : ℚ
  allCorrectRate : ℚ
  allWrongRate : ℚ
  promptTokens : ℚ
  completionTokens : ℚ
  totalSamples : ℕ
  privacyLeakageRate : ℚ
  perProblem : List ProblemScores

/-- `float(b)`. -/
def oneIf (b : Bool) : ℚ := if b then 1 else 0

/-- `sum(xs) / len(xs) if xs else 0.0`. -/
def average (xs : List ℚ) : ℚ := if xs = [] then 0 else xs.sum / xs.length

section definitions
variable (v : Verifier)

/-- `_normal_answer`; joining the words of a text drops its white space. -/
def normalAnswer (value : Option PyStr) : PyStr :=
  match value with
  | none => []
  | some s => (lower v.table s).filter fun c => !isSpace c

/-- `_response_metrics`: accuracy, format and boxed answer. -/
def responseMetrics (text : PyStr) (groundTruth : Json) : ℚ × ℚ × PyStr :=
  let result := computeScore v text groundTruth
  (result.accuracy, result.format, result.boxedAnswer)

/-- The boxed answers of the samples; a sample without one has the empty answer. -/
def boxedAnswers (item : ScoredItem) : List PyStr :=
  item.samples.map fun sample => (responseMetrics v sample.text item.groundTruth).2.2

/-- The answers that the vote counts. -/
def votes (item : ScoredItem) : List PyStr := (boxedAnswers v item).filter fun a => !a.isEmpty

/-- `majority_answer`. -/
def majorityAnswer (item : ScoredItem) : PyStr :=
  (mostCommon ((votes v item).map fun answer => normalAnswer v (some answer))).getD []

/-- `majority_correct`. -/
def majorityCorrect (item : ScoredItem) : Bool :=
  let answer := majorityAnswer v item
  if answer.isEmpty then false else v.verifyAnswer (some answer) item.groundTruth

/-- The accuracies of the samples. -/
def sampleScores (item : ScoredItem) : List ℚ :=
  item.samples.map fun sample => (responseMetrics v sample.text item.groundTruth).1

/-- The entry of a problem. -/
def problemScores (item : ScoredItem) : ProblemScores :=
  let scores := sampleScores v item
  let greedy := responseMetrics v item.greedyText item.groundTruth
  { id := item.id
    avg := average scores
    pass := oneIf (scores.any fun score => decide (0 < score))
    majority := oneIf (majorityCorrect v item)
    greedyAccuracy := greedy.1
    greedyFormat := greedy.2.1
    greedyBoxedAnswer := greedy.2.2 }

/-- The text shows a reference tag, or the trace without the white space around it. -/
def showsTrace (piTrace : Option PyStr) (text : PyStr) : Bool :=
  contains text openTag ||
    match piTrace with
    | none => false
    | some piTrace => !piTrace.isEmpty && contains text (strip piTrace)

/-- `summarize_scored_items`. -/
def summarizeScoredItems (run checkpoint : PyStr) (scoredItems : List ScoredItem) : EvalPayload :=
  let perProblem := scoredItems.map (problemScores v)
  let samples := scoredItems.flatMap fun item => item.samples.map fun sample => (item, sample)
  let metrics := samples.map fun s => responseMetrics v s.2.text s.1.groundTruth
  let completionTokens := samples.map fun s => ((s.2.completionTokens.getD 0 : ℤ) : ℚ)
  let promptTokens := samples.map fun s => ((s.2.promptTokens.getD 0 : ℤ) : ℚ)
  let problemAvgs := perProblem.map ProblemScores.avg
  let meanProblemAvg := average problemAvgs
  let leakageHits := samples.countP fun s => showsTrace s.1.piTrace s.2.text
  let rateOf (test : ProblemScores → Bool) : ℚ :=
    if perProblem = [] then 0 else (perProblem.countP test : ℚ) / perProblem.length
  { run
    checkpoint
    avg := average (metrics.map fun m => m.1)
    majority := average (perProblem.map ProblemScores.majority)
    pass := average (perProblem.map ProblemScores.pass)
    greedyAccuracy := average (perProblem.map ProblemScores.greedyAccuracy)
    formatRate := average (metrics.map fun m => m.2.1)
    truncationRate := average (samples.map fun s => oneIf (s.2.truncated.getD false))
    meanResponseLength := average (samples.map fun s =>
      ((s.2.completionTokens.getD s.2.text.length : ℤ) : ℚ))
    groupVariance := average (problemAvgs.map fun value => (value - meanProblemAvg) ^ 2)
    allCorrectRate := rateOf fun row => decide (row.avg = 1)
    allWrongRate := rateOf fun row => decide (row.avg = 0)
    promptTokens := promptTokens.sum
    completionTokens := completionTokens.sum
    totalSamples := samples.length
    privacyLeakageRate := if samples.length = 0 then 0 else (leakageHits : ℚ) / samples.length
    perProblem }

end definitions

/-! ### Consistent rates -/

/-- The scores of a problem fit together: full accuracy wins the vote, and a won vote passes. -/
structure ProblemConsistent (v : Verifier) (item : ScoredItem) : Prop where
  majority_of_accurate : item.samples ≠ [] → (∀ score ∈ sampleScores v item, score = 1) →
    (problemScores v item).majority = 1
  pass_of_majority : (problemScores v item).majority = 1 → (problemScores v item).pass = 1

/-- The payload fits together, problem by problem and in its rates. -/
structure PayloadConsistent (v : Verifier) (run checkpoint : PyStr) (items : List ScoredItem) :
    Prop where
  problems : ∀ item ∈ items, ProblemConsistent v item
  allCorrect_le : (summarizeScoredItems v run checkpoint items).allCorrectRate ≤
    (summarizeScoredItems v run checkpoint items).majority
  majority_le : (summarizeScoredItems v run checkpoint items).majority ≤
    (summarizeScoredItems v run checkpoint items).pass

/-- The verdict on the answer that a sample's text boxes. -/
def sampleVerified (v : Verifier) (item : ScoredItem) (sample : ScoredSample) : Bool :=
  v.verifyAnswer (extractBoxedAnswer sample.text) (.str (item.groundTruth.toStr v.printer))

/-- The first vote that is as common as any other, up to case and white space. -/
def winningVote (v : Verifier) (item : ScoredItem) : Option PyStr :=
  (votes v item).find? fun answer =>
    isMostCommon ((votes v item).map fun a => normalAnswer v (some a))
      (normalAnswer v (some answer))

/-- The verdict on an answer without its case and white space; nothing is left to verify of a
blank one. -/
def normalVerified (v : Verifier) (groundTruth : Json) (answer : PyStr) : Bool :=
  !(normalAnswer v (some answer)).isEmpty &&
    v.verifyAnswer (some (normalAnswer v (some answer))) groundTruth

/-- On a problem whose samples have one verdict the winner keeps it without its case and white
space; and if there is no vote, that verdict is not that empty boxes are right. -/
def VoteKeepsVerdict (v : Verifier) (item : ScoredItem) : Prop :=
  ∀ verdict, item.samples ≠ [] → (∀ sample ∈ item.samples, sampleVerified v item sample = verdict) →
    match winningVote v item with
    | some answer => normalVerified v item.groundTruth answer =
        v.verifyAnswer (some answer) (.str (item.groundTruth.toStr v.printer))
    | none => verdict = false

/-! ### Means of zeros and ones -/

theorem sum_map_oneIf {α : Type*} (p : α → Bool) (xs : List α) :
    (xs.map fun x => oneIf (p x)).sum = xs.countP p := by
  induction xs with
  | nil => rfl
  | cons x xs ih =>
      rw [List.map_cons, List.sum_cons, ih, List.countP_cons, oneIf]
      by_cases h : p x = true
      · rw [if_pos h, if_pos h, Nat.cast_add, Nat.cast_one, add_comm]
      · rw [if_neg h, if_neg h, zero_add, Nat.add_zero]

theorem oneIf_nonneg (b : Bool) : 0 ≤ oneIf b := by
  cases b
  · exact le_rfl
  · exact zero_le_one

theorem oneIf_eq_one_iff {b : Bool} : oneIf b = 1 ↔ b = true := by
  cases b <;> simp [oneIf]

theorem average_map_mono {α : Type*} {f g : α → ℚ} {xs : List α} (h : ∀ x ∈ xs, f x ≤ g x) :
    average (xs.map f) ≤ average (xs.map g) := by
  unfold average
  by_cases hxs : xs = []
  · rw [hxs]
    exact le_rfl
  · rw [if_neg (by rwa [List.map_eq_nil_iff]), if_neg (by rwa [List.map_eq_nil_iff]),
      List.length_map, List.length_map]
    apply div_le_div_of_nonneg_right (List.sum_le_sum h)
    exact Nat.cast_nonneg _

/-- Zeros and ones have mean one only if there are some and all are ones. -/
theorem all_of_average_oneIf {α : Type*} {p : α → Bool} {xs : List α}
    (h : average (xs.map fun x => oneIf (p x)) = 1) : xs ≠ [] ∧ ∀ x ∈ xs, p x = true := by
  unfold average at h
  by_cases hxs : xs = []
  · rw [hxs, List.map_nil, if_pos rfl] at h
    exact absurd h zero_ne_one
  · rw [if_neg (by rwa [List.map_eq_nil_iff]), sum_map_oneIf, List.length_map] at h
    have hlength : (xs.length : ℚ) ≠ 0 := by
      exact_mod_cast List.length_pos_iff.mpr hxs |>.ne'
    rw [div_eq_one_iff_eq hlength] at h
    exact ⟨hxs, List.countP_eq_length.mp (by exact_mod_cast h)⟩

/-- The share of the entries that pass a test is a mean of zeros and ones. -/
theorem rate_eq_average {α : Type*} (test : α → Bool) (xs : List α) :
    (if xs = [] then 0 else (xs.countP test : ℚ) / xs.length) =
      average (xs.map fun x => oneIf (test x)) := by
  unfold average
  rw [sum_map_oneIf, List.length_map]
  by_cases hxs : xs = []
  · rw [if_pos hxs, if_pos (by rw [hxs, List.map_nil])]
  · rw [if_neg hxs, if_neg (by rwa [List.map_eq_nil_iff])]

/-! ### One problem -/

section problem
variable {v : Verifier} {item : ScoredItem}

theorem sampleScores_eq (v : Verifier) (item : ScoredItem) :
    sampleScores v item = item.samples.map fun sample => oneIf (sampleVerified v item sample) :=
  rfl

/-- A vote is the boxed answer of a sample. -/
theorem exists_sample_of_vote {answer : PyStr} (h : answer ∈ votes v item) :
    ∃ sample ∈ item.samples, extractBoxedAnswer sample.text = some answer := by
  obtain ⟨hmem, hne⟩ := List.mem_filter.mp h
  obtain ⟨sample, hsample, hboxed⟩ := List.mem_map.mp hmem
  refine ⟨sample, hsample, ?_⟩
  have hgetD : (extractBoxedAnswer sample.text).getD [] = answer := hboxed
  cases hextract : extractBoxedAnswer sample.text with
  | none =>
      rw [hextract] at hgetD
      rw [← hgetD] at hne
      cases hne
  | some found =>
      rw [hextract] at hgetD
      exact congrArg some hgetD

/-- The vote's verdict is that on the normalised winner. -/
theorem majorityCorrect_eq (v : Verifier) (item : ScoredItem) :
    majorityCorrect v item = match winningVote v item with
      | some answer => normalVerified v item.groundTruth answer
      | none => false := by
  have hanswer : majorityAnswer v item =
      ((winningVote v item).map fun answer => normalAnswer v (some answer)).getD [] := by
    rw [majorityAnswer, mostCommon_eq, List.find?_map]
    rfl
  rw [majorityCorrect, hanswer]
  cases winningVote v item with
  | none => rfl
  | some answer =>
      show _ = normalVerified v item.groundTruth answer
      unfold normalVerified
      rw [Option.map_some, Option.getD_some]
      cases (normalAnswer v (some answer)).isEmpty <;> rfl

/-- On a problem whose samples have one verdict the winner has it as it stands. -/
theorem verified_winner {verdict : Bool} {answer : PyStr}
    (hsame : ∀ sample ∈ item.samples, sampleVerified v item sample = verdict)
    (h : winningVote v item = some answer) :
    v.verifyAnswer (some answer) (.str (item.groundTruth.toStr v.printer)) = verdict := by
  obtain ⟨sample, hsample, hextract⟩ := exists_sample_of_vote (List.mem_of_find?_eq_some h)
  have hverdict := hsame sample hsample
  rw [sampleVerified, hextract] at hverdict
  exact hverdict

theorem pass_eq_one_iff :
    (problemScores v item).pass = 1 ↔
      ∃ sample ∈ item.samples, sampleVerified v item sample = true := by
  show oneIf ((sampleScores v item).any fun score => decide (0 < score)) = 1 ↔ _
  rw [oneIf_eq_one_iff, sampleScores_eq, List.any_map, List.any_eq_true]
  apply exists_congr
  intro sample
  apply and_congr_right
  intro _
  rw [Function.comp_apply, decide_eq_true_iff]
  cases sampleVerified v item sample <;> simp [oneIf]

theorem majority_eq_one_iff :
    (problemScores v item).majority = 1 ↔ majorityCorrect v item = true :=
  oneIf_eq_one_iff

/-- The vote has the verdict that all samples share. -/
def VoteFollows (v : Verifier) (item : ScoredItem) : Prop :=
  ∀ verdict, item.samples ≠ [] → (∀ sample ∈ item.samples, sampleVerified v item sample = verdict) →
    majorityCorrect v item = verdict

theorem voteKeepsVerdict_iff : VoteKeepsVerdict v item ↔ VoteFollows v item := by
  apply forall_congr'
  intro verdict
  apply imp_congr_right
  intro _
  apply imp_congr_right
  intro hsame
  rw [majorityCorrect_eq]
  cases hwinner : winningVote v item with
  | none => exact eq_comm
  | some answer =>
      rw [← verified_winner hsame hwinner]

/-- Without samples no vote is won. -/
theorem majorityCorrect_of_no_samples (h : item.samples = []) : majorityCorrect v item = false := by
  have hnone : winningVote v item = none := by
    rw [winningVote, votes, boxedAnswers, h]
    rfl
  rw [majorityCorrect_eq, hnone]

theorem accurate_iff :
    (∀ score ∈ sampleScores v item, score = 1) ↔
      ∀ sample ∈ item.samples, sampleVerified v item sample = true := by
  rw [sampleScores_eq, List.forall_mem_map]
  apply forall₂_congr
  intro sample _
  exact oneIf_eq_one_iff

/-- **One problem**: its scores fit together exactly when the vote keeps a common verdict. -/
theorem problemConsistent_iff : ProblemConsistent v item ↔ VoteKeepsVerdict v item := by
  rw [voteKeepsVerdict_iff]
  constructor
  · rintro ⟨hmajority, hpass⟩ verdict hne hsame
    cases verdict with
    | true => exact majority_eq_one_iff.mp (hmajority hne (accurate_iff.mpr hsame))
    | false =>
        rw [← Bool.not_eq_true, ← majority_eq_one_iff]
        intro hwon
        obtain ⟨sample, hsample, htrue⟩ := pass_eq_one_iff.mp (hpass hwon)
        rw [hsame sample hsample] at htrue
        cases htrue
  · intro hfollows
    constructor
    · intro hne haccurate
      exact majority_eq_one_iff.mpr (hfollows true hne (accurate_iff.mp haccurate))
    · intro hwon
      rw [majority_eq_one_iff] at hwon
      by_contra hfail
      have hall : ∀ sample ∈ item.samples, sampleVerified v item sample = false := by
        intro sample hsample
        rw [← Bool.not_eq_true]
        intro htrue
        exact hfail (pass_eq_one_iff.mpr ⟨sample, hsample, htrue⟩)
      by_cases hne : item.samples = []
      · rw [majorityCorrect_of_no_samples hne] at hwon
        cases hwon
      · rw [hfollows false hne hall] at hwon
        cases hwon

theorem ProblemConsistent.majority_le_pass (h : ProblemConsistent v item) :
    (problemScores v item).majority ≤ (problemScores v item).pass := by
  by_cases hwon : (problemScores v item).majority = 1
  · rw [hwon, h.pass_of_majority hwon]
  · have hzero : (problemScores v item).majority = 0 := by
      rw [majority_eq_one_iff, Bool.not_eq_true] at hwon
      show oneIf (majorityCorrect v item) = 0
      rw [hwon]
      rfl
    rw [hzero]
    exact oneIf_nonneg _

theorem ProblemConsistent.accurate_le_majority (h : ProblemConsistent v item) :
    oneIf (decide ((problemScores v item).avg = 1)) ≤ (problemScores v item).majority := by
  by_cases havg : (problemScores v item).avg = 1
  · obtain ⟨hne, hall⟩ := all_of_average_oneIf havg
    rw [decide_eq_true havg, h.majority_of_accurate hne (accurate_iff.mpr hall)]
    rfl
  · rw [decide_eq_false havg]
    exact oneIf_nonneg _

end problem

/-! ### The payload -/

/-- A verifier that accepts the ground truth as it stands. -/
def literalVerifier : Verifier where
  mathVerify gold predicted := some (gold.pyEq (.str predicted))
  table := .ascii
  printer := ⟨fun _ => true, fun _ => []⟩

/-- One problem with one right sample, whose answer holds a space. -/
def spacedItem : ScoredItem where
  id := "p".toList
  groundTruth := .str "2\\pi r".toList
  piTrace := none
  greedyText := "\\boxed\x7b2\\pi r\x7d".toList
  samples := [⟨"\\boxed\x7b2\\pi r\x7d".toList, none, none, none⟩]

end ExtpiRlsd
