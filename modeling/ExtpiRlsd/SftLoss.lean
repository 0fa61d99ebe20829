import ExtpiRlsd.SftLengths
import ExtpiRlsd.TrainMiniBatch

/-! # The loss of supervised fine-tuning

`sft_loss` of `losses.py` without padding, on the samples of the multi-turn dataset, behind the
workers of `TrainMiniBatch.lean`.

The samples of a micro-batch are packed.  The model scores every place against the packed ids moved
one place to the left, and the packed loss mask is moved the same way, so a token that is first in
its sample would be scored after the sample before it.  The dataset masks no such token
(`trained_of_getRow`); so the loss is the mean over the masked tokens of all ranks, each scored
after the tokens before it in its own sample (`sftStep_eq_ok`). -/

namespace ExtpiRlsd

open Checked PyData Ragged Reindex Tensors

/-! ### The loss -/

section loss
variable {α : Type} (logProb : List (ℤ × ℕ) → ℤ → α)

namespace SftSample

/-- The ids of a sample with their positions. -/
def entries (s : SftSample) : List (ℤ × ℕ) := s.inputIds.zip (s.positionIds.map Int.toNat)

/-- The loss mask as truth values. -/
def trained (s : SftSample) : List Bool := s.lossMask.map fun m => decide (m ≠ 0)

def lossTokens (s : SftSample) : ℕ := s.trained.count true

end SftSample

/-- `sft_loss` of packed samples: the loss mask is moved one place to the left. -/
def sftLoss [Zero α] [Neg α] [Add α] [Mul α] [Div α] [NatCast α] (batchNumTokens dpSize : ℕ)
    (samples : List SftSample) : α :=
  let logProbs := packedLogProbs logProb (Nested.ofRows (samples.map (·.inputIds)))
    (Nested.ofRows (samples.map fun s => s.positionIds.map Int.toNat))
  let lossMask := (Nested.ofRows (samples.map (·.trained))).values.rotate 1
  (-tokenSum (logProbs.values.zip lossMask)) / (batchNumTokens : α) * (dpSize : α)

/-- The log-probs of the trained tokens of a sample, each after the tokens before it. -/
def trainedLogProb [Zero α] [Add α] (s : SftSample) : α :=
  tokenSum ((scores (fun ctx x => logProb ctx x.1) [] s.entries).zip s.trained)

end loss

/-! ### Samples of the dataset -/

/-- A sample whose lists have one length, and whose first token is not trained on. -/
structure SftSample.Trained (s : SftSample) : Prop where
  positions : s.positionIds.length = s.inputIds.length
  mask : s.lossMask.length = s.inputIds.length
  first : s.lossMask.head? = some 0

theorem head?_flatMap_of_forall {β γ : Type*} {f : β → List γ} {a : γ} {xs : List β}
    (h : ∀ x ∈ xs, f x = [] ∨ (f x).head? = some a) :
    xs.flatMap f = [] ∨ (xs.flatMap f).head? = some a := by
  induction xs with
  | nil => exact .inl rfl
  | cons x xs ih =>
      rw [List.flatMap_cons]
      rcases h x List.mem_cons_self with hx | hx
      · rw [hx]
        exact ih fun y hy => h y (List.mem_cons_of_mem _ hy)
      · rw [List.head?_append, hx]
        exact .inr rfl

section dataset
variable {ds : MultiTurnSFTDataset}

/-- The first token of a message is not trained on: a template that opens answers opens the
answer. -/
theorem head?_maskMessage (hprompt : ds.generationPrompt ≠ []) (index : ℕ) (role : Json)
    (ids : List ℤ) : (ds.maskMessage index role ids).lossMask = [] ∨
      (ds.maskMessage index role ids).lossMask.head? = some 0 := by
  obtain ⟨g, hg⟩ : ∃ g, ds.generationPrompt.length = g + 1 :=
    Nat.exists_eq_succ_of_ne_zero (List.length_pos_of_ne_nil hprompt).ne'
  unfold MultiTurnSFTDataset.maskMessage
  dsimp only
  generalize (List.drop _ (List.replicate ids.length (1 : ℤ))).length = n
  cases n with
  | zero => split <;> exact .inl (by simp [zeroFirst])
  | succ n =>
      right
      split
      · rw [zeroFirst, hg, List.length_replicate, Nat.succ_min_succ, List.replicate_succ]
        rfl
      · rfl

theorem trained_of_tokenized (hprompt : ds.generationPrompt ≠ []) {row : Row}
    {messages : List Row} {tokens : SftTokens} (h : ds.tokenized row = .ok (messages, tokens)) :
    tokens.lossMask.length = tokens.inputIds.length ∧
      (tokens.lossMask = [] ∨ tokens.lossMask.head? = some 0) := by
  simp only [MultiTurnSFTDataset.tokenized, do_eq_ok_iff] at h
  obtain ⟨messages', -, parts, hparts, tokens', hconcat, hmessages⟩ := h
  obtain ⟨-, rfl⟩ := Prod.ext_iff.mp (Except.ok.inj hmessages)
  have hheads : ∀ part ∈ parts, part.lossMask = [] ∨ part.lossMask.head? = some 0 := by
    intro part hpart
    obtain ⟨p, -, hp⟩ := exists_of_forall₂ (mapM_eq_ok_iff.mp hparts).flip hpart
    simp only [MultiTurnSFTDataset.processSingleMessage, do_eq_ok_iff] at hp
    obtain ⟨ids, -, role, -, hp⟩ := hp
    obtain rfl := Except.ok.inj hp
    exact head?_maskMessage hprompt _ _ _
  unfold MultiTurnSFTDataset.concatTokens at hconcat
  dsimp only at hconcat
  split_ifs at hconcat with hnil hshape
  obtain rfl := Except.ok.inj hconcat
  exact ⟨hshape.1.symm, head?_flatMap_of_forall hheads⟩

/-- A slice of a list is as long as the slice of a list of the same length, and has its first
entry. -/
theorem length_sliceTo {β γ : Type*} {xs : List β} {ys : List γ} (h : xs.length = ys.length)
    (k : ℤ) : (sliceTo k xs).length = (sliceTo k ys).length := by
  rw [sliceTo, sliceTo, List.length_take, List.length_take, h]

theorem head?_sliceTo {β : Type*} {xs : List β} {k : ℤ} (h : sliceTo k xs ≠ []) :
    (sliceTo k xs).head? = xs.head? := by
  rw [sliceTo] at h ⊢
  rw [List.head?_take, if_neg]
  intro hzero
  rw [hzero, List.take_zero] at h
  exact h rfl

/-- **The samples of the dataset are trained on behind their first token.** -/
theorem trained_of_getRow (hpad : ds.config.padMode = .noPadding)
    (hprompt : ds.generationPrompt ≠ []) {row : Row} {s : SftSample} (h : ds.getRow row = .ok s)
    (hne : s.inputIds ≠ []) : s.Trained := by
  obtain ⟨tokens, htokens, hsample⟩ := bind_eq_ok_iff.mp h
  obtain ⟨messages, htokenized⟩ := tokenized_of_checkedTokens htokens
  obtain ⟨hlen, hhead⟩ := trained_of_tokenized hprompt htokenized
  have hpositions : ((List.range tokens.inputIds.length).map Int.ofNat).length =
      tokens.inputIds.length := by simp
  unfold MultiTurnSFTDataset.padOrTruncate at hsample
  rw [hpad] at hsample
  dsimp only at hsample
  have hfirst : tokens.inputIds ≠ [] → tokens.lossMask.head? = some 0 := by
    intro hids
    refine hhead.resolve_left fun hnil => hids ?_
    rw [hnil, List.length_nil] at hlen
    exact List.length_eq_zero_iff.mp hlen.symm
  split_ifs at hsample with herror hlong
  · obtain rfl := Except.ok.inj hsample
    have hmask : sliceTo ds.config.maxLength tokens.lossMask ≠ [] := by
      intro hnil
      have hlens := length_sliceTo hlen ds.config.maxLength
      rw [hnil, List.length_nil] at hlens
      exact hne (List.length_eq_zero_iff.mp hlens.symm)
    refine ⟨length_sliceTo hpositions _, length_sliceTo hlen _, ?_⟩
    rw [head?_sliceTo hmask]
    refine hfirst fun hnil => hne ?_
    rw [hnil, sliceTo, List.take_nil]
  · obtain rfl := Except.ok.inj hsample
    exact ⟨hpositions, hlen, hfirst hne⟩

end dataset

/-! ### The loss is a sum over samples -/

section additive
variable {logProb : List (ℤ × ℕ) → ℤ → ℝ}

theorem tokenSum_append (r s : List (ℝ × Bool)) : tokenSum (r ++ s) = tokenSum r + tokenSum s := by
  rw [tokenSum, List.map_append, List.sum_append, tokenSum, tokenSum]

/-- The moved mask of a sample picks the scores of its trained tokens. -/
theorem tokenSum_scoresRow {next : List (ℤ × ℕ) → ℤ × ℕ → ℝ} {r : List (ℤ × ℕ)} {m : List Bool}
    {out : List ℝ} (hlen : m.length = r.length) (hhead : m.head? = some false)
    (h : ScoresRow next r out) :
    tokenSum (out.zip (m.tail ++ [false])) = tokenSum ((scores next [] r).zip m) := by
  obtain ⟨t, rfl⟩ := List.head?_eq_some_iff.mp hhead
  cases r with
  | nil => cases hlen
  | cons x rest =>
      obtain ⟨z, rfl⟩ := h.eq_append
      have hrest : (scores next [x] rest).length = t.length := by
        rw [length_scores]
        exact (Nat.succ.inj hlen).symm
      rw [List.tail_cons, List.zip_append hrest, tokenSum_append, scores, List.nil_append,
        List.zip_cons_cons]
      simp [tokenSum]

/-- The samples as the model packs them. -/
theorem packedLogProbs_samples (logProb : List (ℤ × ℕ) → ℤ → ℝ) {samples : List SftSample}
    (h : ∀ s ∈ samples, s.Trained) :
    ∃ outs, (packedLogProbs logProb (Nested.ofRows (samples.map (·.inputIds)))
      (Nested.ofRows (samples.map fun s => s.positionIds.map Int.toNat))).values = outs.flatten ∧
      List.Forall₂ (fun s out => ScoresRow (fun ctx x => logProb ctx x.1) s.entries out)
        samples outs := by
  have hpositions : ∀ s ∈ samples, s.inputIds.length = (s.positionIds.map Int.toNat).length := by
    intro s hs
    rw [List.length_map, (h s hs).positions]
  have hne : ∀ r ∈ samples.map SftSample.entries, r ≠ [] := by
    intro r hr hnil
    obtain ⟨s, hs, rfl⟩ := List.mem_map.mp hr
    obtain ⟨t, ht⟩ := List.head?_eq_some_iff.mp (h s hs).first
    have hlen := congrArg List.length hnil
    rw [SftSample.entries, List.length_zip, ← hpositions s hs, Nat.min_self, ← (h s hs).mask, ht]
      at hlen
    cases hlen
  obtain ⟨outs, hscores, hrel⟩ :=
    exists_packedScores (fun (ctx : List (ℤ × ℕ)) x => logProb ctx x.1) hne
  refine ⟨outs, ?_, List.forall₂_map_left_iff.mp hrel⟩
  -- the packed labels are the ids of the entries
  have hids : (samples.map (·.inputIds)).flatten =
      (samples.map SftSample.entries).flatten.map Prod.fst := by
    rw [List.map_flatten, List.map_map]
    refine congrArg List.flatten (List.map_congr_left fun s hs => ?_)
    exact (List.map_fst_zip (Nat.le_of_eq (hpositions s hs))).symm
  have hrows : List.zipWith List.zip (samples.map (·.inputIds))
      (samples.map fun s => s.positionIds.map Int.toNat) = samples.map SftSample.entries := by
    rw [List.zipWith_map, List.zipWith_self]
    rfl
  rw [← hscores, packedLogProbs, rows_ofRows, rows_ofRows, hrows]
  show packedScores logProb _ ((samples.map (·.inputIds)).flatten.rotate 1) = _
  rw [hids, ← List.map_rotate, packedScores, packedScores, List.zipWith_map_right]

/-- **The loss of samples that are trained on behind their first token is a sum over them.** -/
theorem sftLoss_eq {samples : List SftSample} (h : ∀ s ∈ samples, s.Trained) (N d : ℕ) :
    sftLoss logProb N d samples =
      (samples.map fun s => -trainedLogProb logProb s / (N : ℝ)).sum * (d : ℝ) := by
  obtain ⟨outs, houts, hrel⟩ := packedLogProbs_samples logProb h
  have hhead : ∀ m ∈ samples.map (·.trained), m.head? = some false := by
    intro m hm
    obtain ⟨s, hs, rfl⟩ := List.mem_map.mp hm
    obtain ⟨t, ht⟩ := List.head?_eq_some_iff.mp (h s hs).first
    rw [SftSample.trained, ht]
    rfl
  have hsum : tokenSum (outs.flatten.zip ((samples.map (·.trained)).map fun m =>
      m.tail ++ [false]).flatten) = (samples.map (trainedLogProb logProb)).sum := by
    clear houts hhead
    induction hrel with
    | nil => rfl
    | @cons s out samples outs hout _ ih =>
        have hs := h s List.mem_cons_self
        have hmask : s.trained.length = s.entries.length := by
          rw [SftSample.trained, List.length_map, SftSample.entries, List.length_zip,
            List.length_map, hs.positions, Nat.min_self, hs.mask]
        have hfirst : s.trained.head? = some false := by
          obtain ⟨t, ht⟩ := List.head?_eq_some_iff.mp hs.first
          rw [SftSample.trained, ht]
          rfl
        have hne : s.entries ≠ [] := by
          obtain ⟨t, ht⟩ := List.head?_eq_some_iff.mp hfirst
          intro hnil
          rw [hnil, ht] at hmask
          cases hmask
        have hlen : out.length = (s.trained.tail ++ [false]).length := by
          have hpos := List.length_pos_of_ne_nil hne
          rw [hout.length_eq hne, List.length_append, List.length_tail, hmask,
            List.length_singleton]
          omega
        rw [List.map_cons, List.map_cons, List.flatten_cons, List.flatten_cons,
          List.zip_append hlen, tokenSum_append, tokenSum_scoresRow hmask hfirst hout,
          ih fun s hs => h s (List.mem_cons_of_mem _ hs), List.map_cons, List.sum_cons]
        rfl
  have hneg : (samples.map fun s => -trainedLogProb logProb s / (N : ℝ)).sum =
      -(samples.map (trainedLogProb logProb)).sum / (N : ℝ) := by
    rw [sum_map_div]
    congr 1
    clear hsum hhead houts hrel h
    induction samples with
    | nil => simp
    | cons s samples ih =>
        rw [List.map_cons, List.sum_cons, ih, List.map_cons, List.sum_cons, neg_add]
  rw [hneg, ← hsum, ← rotate_flatten_of_head hhead, sftLoss, houts]
  rfl

end additive

/-! ### A training step -/

section step
variable {α : Type}

/-- A loss function sees only rows of the ranks. -/
theorem forwardBackwardBatch_congr {ρ ε : Type} {config : MicroBatchConfig} {len lossTokens : ρ → ℕ}
    {lossFunction lossFunction' : ℕ → ℕ → List ρ → Except ε α} {ranks : List (List ρ)}
    (h : ∀ N d rows, (∀ r ∈ rows, r ∈ ranks.flatten) →
      lossFunction N d rows = lossFunction' N d rows) :
    forwardBackwardBatch config len lossTokens lossFunction ranks =
      forwardBackwardBatch config len lossTokens lossFunction' ranks := by
  refine mapM_congr fun rows hrows => ?_
  cases hprepared : prepareMicroBatches config len (peerCounts config len ranks) rows with
  | error e => rfl
  | ok prepared =>
      refine mapM_congr fun microBatch hmicro =>
        congrArg (Except.mapError _) (h _ _ _ fun r hr => ?_)
      exact List.mem_flatten_of_mem hrows
        ((prepareMicroBatches_spec hprepared).1.mem_iff.mp (List.mem_flatten_of_mem hmicro hr))

/-- A step of supervised fine-tuning on the samples of the ranks. -/
def sftStep [Zero α] [Neg α] [Add α] [Mul α] [Div α] [NatCast α] (config : MicroBatchConfig)
    (logProb : List (ℤ × ℕ) → ℤ → α) (ranks : List (List SftSample)) :
    Except (TrainError Empty) (List (List α)) :=
  forwardBackwardBatch config (fun s => s.inputIds.length) SftSample.lossTokens
    (fun N d samples => .ok (sftLoss logProb N d samples)) ranks

/-- **A step of supervised fine-tuning minimises the mean loss of the trained tokens of its
samples.**  On ranks with equally many samples of the dataset, it returns exactly when the samples
can be dispatched; the reported loss is the negative mean, over the trained tokens of all ranks, of
their log-probs after the tokens before them in their own sample. -/
theorem sftStep_eq_ok (ds : MultiTurnSFTDataset) (hpad : ds.config.padMode = .noPadding)
    (hprompt : ds.generationPrompt ≠ []) (config : MicroBatchConfig)
    (logProb : List (ℤ × ℕ) → ℤ → ℝ) (ranks : List (List SftSample)) (size : ℕ) (hne : ranks ≠ [])
    (hsize : ∀ samples ∈ ranks, samples.length = size)
    (hsamples : ∀ s ∈ ranks.flatten, s.inputIds ≠ [] ∧ ∃ row, ds.getRow row = .ok s) :
    let result := sftStep config logProb ranks
    (∀ losses, result = .ok losses → reportedLoss losses =
      (ranks.flatten.map fun s => -trainedLogProb logProb s).sum /
        ((ranks.flatten.map SftSample.lossTokens).sum : ℕ)) ∧
    ((∃ losses, result = .ok losses) ↔
      Dispatchable ranks.length config (fun s => s.inputIds.length) ranks.flatten) := by
  intro result
  have htrained : ∀ s ∈ ranks.flatten, s.Trained := fun s hs => by
    obtain ⟨hids, row, hrow⟩ := hsamples s hs
    exact trained_of_getRow hpad hprompt hrow hids
  -- the loss as a sum over any samples
  let additive : ℕ → ℕ → List SftSample → Except Empty ℝ := fun N d samples =>
    .ok ((samples.map fun s => -trainedLogProb logProb s / (N : ℝ)).sum * (d : ℝ))
  have hadditive : ∀ N, ∃ f, RowAdditive (additive N) f := fun N => ⟨_, fun d rows => rfl⟩
  have hresult : result = forwardBackwardBatch config (fun s => s.inputIds.length)
      SftSample.lossTokens additive ranks :=
    forwardBackwardBatch_congr fun N d rows hrows =>
      congrArg Except.ok (sftLoss_eq (fun s hs => htrained s (hrows s hs)) N d)
  rw [hresult]
  refine ⟨fun losses h => ?_, forwardBackwardBatch_returns_iff hadditive hne hsize⟩
  have hwhole := Except.ok.inj (forwardBackwardBatch_spec hadditive hne hsize h).whole
  rw [← hwhole, sum_map_div, Nat.cast_one, mul_one]

/-- A dataset of questions and answers, cut off at six tokens. -/
def shortDataset : MultiTurnSFTDataset where
  config := { shortConfig .noPadding with truncation := .right }
  tokenizer := charTokenizer
  dataframe := chatFrame
  systemPrompt := [101, 102]
  generationPrompt := [201]

theorem sftStep_chatRow : ∃ s losses, shortDataset.getRow chatRow = .ok s ∧
    sftStep ⟨true, 8, 1, 1, 1⟩ (fun ctx x => -(ctx.length + x : ℝ)) [[s], [s]] = .ok losses ∧
      reportedLoss losses = ([s, s].map fun s => -trainedLogProb (fun ctx x =>
        -(ctx.length + x : ℝ)) s).sum / (([s, s].map SftSample.lossTokens).sum : ℕ) := by
  obtain ⟨s, hs, hlen⟩ : ∃ s, shortDataset.getRow chatRow = .ok s ∧ s.inputIds.length = 6 :=
    ⟨_, rfl, rfl⟩
  have hne : s.inputIds ≠ [] := List.ne_nil_of_length_pos (by omega)
  have hstep := sftStep_eq_ok shortDataset rfl (by decide) ⟨true, 8, 1, 1, 1⟩
    (fun ctx x => -(ctx.length + x : ℝ)) [[s], [s]] 1 (by simp) (by simp)
    (by simpa using ⟨hne, chatRow, hs⟩)
  obtain ⟨losses, hlosses⟩ := hstep.2.mpr ⟨by simp, fun _ => by simp [hlen], fun h => by cases h⟩
  exact ⟨s, losses, hs, hlosses, hstep.1 losses hlosses⟩

end step

end ExtpiRlsd
