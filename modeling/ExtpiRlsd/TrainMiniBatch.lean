import ExtpiRlsd.Lib.Columns
import ExtpiRlsd.PolicyLoss
import ExtpiRlsd.WorkerGroup

/-! # The update of the workers

`train_mini_batch`, `train_batch` and `_postprocess_output` of `engine_workers.py`,
`forward_backward_batch` of the engine, `make_iterator` of `tensordict_utils.py` and the metrics of
`metric/utils.py`.

Every data-parallel rank visits its chunk of the batch in mini-batches, in an order of its own;
the ranks take their mini-batches at the same time and share the numbers of the global mini-batch.
What the current weights make of the rows is an argument of the step.

`trainMiniBatch_ppoLoss` says that such an update is one of a single worker: it passes over the
batch in mini-batches, and the loss of each is that of the mini-batch as a whole. -/

namespace ExtpiRlsd

open Checked Columns Reindex Tensors

/-! ### Metrics -/

inductive AggregationType where
  | mean
  | sum
  | min
  | max
deriving DecidableEq

/-- `Metric`: the values of a metric and how they are put together. -/
structure Metric (α : Type) where
  aggregation : AggregationType
  values : List α

inductive MetricError where
  | empty
  | lengths (lengths : List ℕ)
  | noValues (operation : String)
deriving DecidableEq

/-- The text of a failure. -/
def MetricError.message : MetricError → String
  | empty => "Cannot aggregate an empty list of metrics."
  | lengths ls =>
      "All Metric instances must have the same number of values for dp aggregation: " ++ toString ls
  | noValues operation =>
      "zero-size array to reduction operation " ++ operation ++ " which has no identity"

section metrics
variable {α : Type} [Zero α] [Add α] [Div α] [NatCast α] [LE α] [DecidableLE α] [Min α] [Max α]

/-- `Metric._aggregate`. -/
def aggregateValues (values : List α) : AggregationType → Except MetricError α
  | .mean => .ok (values.sum / (values.length : α))
  | .sum => .ok values.sum
  | .min => values.min?.elim (.error (.noValues "minimum")) .ok
  | .max => values.max?.elim (.error (.noValues "maximum")) .ok

/-- `Metric.aggregate_dp`: the values of the ranks are averaged place by place before they are
added or averaged. -/
def aggregateDp (metricLists : List (Metric α)) : Except MetricError α :=
  match metricLists with
  | [] => .error .empty
  | first :: _ =>
      let valueLists := metricLists.map Metric.values
      if ∀ ls ∈ valueLists, ls.length = first.values.length then
        match first.aggregation with
        | .sum | .mean =>
            aggregateValues ((columns valueLists).map fun vs => vs.sum / (vs.length : α))
              first.aggregation
        | .min | .max => aggregateValues valueLists.flatten first.aggregation
      else .error (.lengths (valueLists.map List.length))

end metrics

/-! ### The update -/

inductive TrainError (ε : Type) where
  | batch (e : MicroBatchError)
  | noMiniBatchSize
  | numMiniBatch (batchSizePerDp numMiniBatch : ℕ)
  | miniBatchSize (miniBatchSize dpSize : ℕ)
  | iterator (rows miniBatchSize : ℕ)
  | loss (e : ε)
deriving DecidableEq

/-- The text of a failure; the missing size has none. -/
def TrainError.message {ε : Type} (loss : ε → String) : TrainError ε → String
  | batch e => e.message
  | noMiniBatchSize => ""
  | numMiniBatch rows n =>
      "Got batch_size_per_dp=" ++ toString rows ++ " and num_mini_batch=" ++ toString n
  | miniBatchSize size dpSize =>
      "Got mini_batch_size=" ++ toString size ++
        " and self.engine.get_data_parallel_size()=" ++ toString dpSize
  | iterator rows size => toString rows ++ " % " ++ toString size ++ " != 0"
  | .loss e => loss e

/-- The options of `train_mini_batch`, and those of its micro-batches. -/
structure TrainConfig where
  miniBatchSize : Option ℕ
  numMiniBatch : Option ℕ
  epochs : ℕ
  micro : MicroBatchConfig

/-- The orders in which the data loaders visit their rows: by rank, epoch and number of rows. -/
structure Sampler where
  order : ℕ → ℕ → ℕ → List ℕ
  perm : ∀ rank epoch rows, (order rank epoch rows).Perm (List.range rows)

/-- The order of a data loader that does not shuffle. -/
def sequentialSampler : Sampler where
  order _ _ rows := List.range rows
  perm _ _ rows := List.Perm.refl (List.range rows)

section update
variable {ρ ε α : Type}

/-- The size of the mini-batches of a rank. -/
def miniBatchSizePerGpu (config : TrainConfig) (dpSize batchSizePerDp : ℕ) :
    Except (TrainError ε) ℕ :=
  match config.miniBatchSize, config.numMiniBatch with
  | some size, _ =>
      if dpSize = 0 then .error (.batch .zeroDivision)
      else if size % dpSize ≠ 0 then .error (.miniBatchSize size dpSize) else .ok (size / dpSize)
  | none, some n =>
      if n = 0 then .error (.batch .zeroDivision)
      else if batchSizePerDp % n ≠ 0 then .error (.numMiniBatch batchSizePerDp n)
      else .ok (batchSizePerDp / n)
  | none, none => .error .noMiniBatchSize

/-- `make_iterator`: the mini-batches of a rank, epoch by epoch. -/
def makeIterator (order : ℕ → ℕ → List ℕ) (miniBatchSize epochs : ℕ) (data : List ρ) :
    Except (TrainError ε) (List (List (List ρ))) := do
  if miniBatchSize = 0 then throw (.batch .zeroDivision)
  if data.length % miniBatchSize ≠ 0 then throw (.iterator data.length miniBatchSize)
  (List.range epochs).mapM fun epoch =>
    (runs (data.length / miniBatchSize) miniBatchSize (order epoch data.length)).mapM fun idx =>
      (gather? data idx).elim (.error (.batch .indexOutOfRange)) .ok

/-- `forward_backward_batch` of the ranks on a mini-batch: the losses of their micro-batches.  The
loss takes the number of tokens of all ranks and the number of ranks. -/
def forwardBackwardBatch (config : MicroBatchConfig) (len lossTokens : ρ → ℕ)
    (lossFunction : ℕ → ℕ → List ρ → Except ε α) (ranks : List (List ρ)) :
    Except (TrainError ε) (List (List α)) :=
  let batchNumTokens := (ranks.map fun rows => (rows.map lossTokens).sum).sum
  ranks.mapM fun rows => do
    let prepared ← (prepareMicroBatches config len (peerCounts config len ranks) rows).mapError
      TrainError.batch
    prepared.1.mapM fun microBatch =>
      (lossFunction batchNumTokens ranks.length microBatch).mapError TrainError.loss

/-- The loss of `_postprocess_output`: the mean over the ranks of the sums of their losses. -/
def reportedLoss [Zero α] [Add α] [Div α] [NatCast α] (losses : List (List α)) : α :=
  (losses.map List.sum).sum / (losses.length : α)

/-- The data loader of a rank on its chunk. -/
def rankDataloader (dpSize : ℕ) (config : TrainConfig) (sampler : Sampler) (p : List ρ × ℕ) :
    Except (TrainError ε) (List (List (List ρ))) := do
  let size ← miniBatchSizePerGpu config dpSize p.1.length
  makeIterator (sampler.order p.2) size config.epochs p.1

/-- `train_mini_batch` on `dpSize` ranks: the losses of every step.  The loss function takes the
number of the step, since the weights change from one step to the next. -/
def trainMiniBatch (dpSize : ℕ) (config : TrainConfig) (sampler : Sampler)
    (len lossTokens : ρ → ℕ) (lossFunction : ℕ → ℕ → ℕ → List ρ → Except ε α) (data : List ρ) :
    Except (TrainError ε) (List (List (List α))) := do
  let chunks ← (chunkTensordict data dpSize).mapError .batch
  let dataloaders ← chunks.zipIdx.mapM (rankDataloader dpSize config sampler)
  -- the ranks go through their epochs together, and through the mini-batches of an epoch
  ((columns dataloaders).flatMap columns).zipIdx.mapM fun p =>
    forwardBackwardBatch config.micro len lossTokens (lossFunction p.2) p.1

end update

/-! ### Metrics of the ranks -/

/-- **The logged sum is the reported loss**: averaging the ranks place by place and adding up is
adding up every rank and averaging. -/
theorem aggregateDp_sum {losses : List (List ℝ)} {k : ℕ} (hne : losses ≠ [])
    (hrect : ∀ ls ∈ losses, ls.length = k) :
    aggregateDp (losses.map (Metric.mk .sum)) = .ok (reportedLoss losses) := by
  have hvalues : (losses.map (Metric.mk .sum)).map Metric.values = losses := by
    rw [List.map_map]
    exact List.map_id losses
  have hcolumns : ((columns losses).map fun vs => vs.sum / (vs.length : ℝ)).sum =
      reportedLoss losses := by
    have hlen : ∀ c ∈ columns losses, c.length = losses.length := fun c hc =>
      (forall₂_of_mem_columns hrect hne hc).length_eq.symm
    rw [List.map_congr_left fun c hc => by rw [hlen c hc], sum_map_div, ← List.sum_flatten,
      (columns_perm hrect hne).sum_eq, List.sum_flatten]
    rfl
  obtain ⟨first, rest, rfl⟩ := List.exists_cons_of_ne_nil hne
  have hfirst := hrect first List.mem_cons_self
  rw [List.map_cons] at hvalues ⊢
  simp only [aggregateDp, hvalues]
  rw [if_pos fun ls hls => (hrect ls hls).trans hfirst.symm]
  exact congrArg Except.ok hcolumns

/-! ### A step of the ranks -/

section step
variable {ρ ε : Type} {config : MicroBatchConfig} {len lossTokens : ρ → ℕ}
  {lossFunction : ℕ → ℕ → List ρ → Except ε ℝ} {ranks : List (List ρ)} {size : ℕ}

/-- The losses of the ranks stand for the loss of a mini-batch on one worker. -/
structure StepLoss (lossFunction : ℕ → ℕ → List ρ → Except ε ℝ) (lossTokens : ρ → ℕ)
    (miniBatch : List ρ) (losses : List (List ℝ)) : Prop where
  whole : lossFunction (miniBatch.map lossTokens).sum 1 miniBatch = .ok (reportedLoss losses)
  logged : aggregateDp (losses.map (Metric.mk .sum)) = .ok (reportedLoss losses)

theorem forwardBackwardBatch_eq_ok_iff {losses : List (List ℝ)} :
    forwardBackwardBatch config len lossTokens lossFunction ranks = .ok losses ↔
      List.Forall₂ (fun rows ls => ∃ prepared,
        prepareMicroBatches config len (peerCounts config len ranks) rows = .ok prepared ∧
        List.Forall₂ (fun microBatch l =>
          lossFunction (ranks.flatten.map lossTokens).sum ranks.length microBatch = .ok l)
          prepared.1 ls) ranks losses := by
  have htokens : (ranks.map fun rows => (rows.map lossTokens).sum).sum =
      (ranks.flatten.map lossTokens).sum := by
    rw [List.map_flatten, List.sum_flatten, List.map_map]
    rfl
  simp only [forwardBackwardBatch, mapM_eq_ok_iff, do_eq_ok_iff, mapError_eq_ok_iff, htokens]

theorem forwardBackwardBatch_spec (hloss : ∀ N, ∃ f, RowAdditive (lossFunction N) f)
    (hne : ranks ≠ []) (hsize : ∀ rows ∈ ranks, rows.length = size) {losses : List (List ℝ)}
    (h : forwardBackwardBatch config len lossTokens lossFunction ranks = .ok losses) :
    StepLoss lossFunction lossTokens ranks.flatten losses := by
  have hranks := forwardBackwardBatch_eq_ok_iff.mp h
  obtain ⟨f, hadditive⟩ := hloss (ranks.flatten.map lossTokens).sum
  -- the micro-batches of the ranks hold their rows, and the ranks have equally many
  obtain ⟨split, hsplit, hlosses⟩ : ∃ split : List (List (List ρ)),
      List.Forall₂ (fun rows microBatches => microBatches.flatten.Perm rows) ranks split ∧
      List.Forall₂ (List.Forall₂ fun rows l => lossFunction (ranks.flatten.map lossTokens).sum
        ranks.length rows = .ok l) split losses := by
    generalize (ranks.flatten.map lossTokens).sum = N at hranks ⊢
    generalize ranks.length = d at hranks ⊢
    generalize peerCounts config len ranks = peers at hranks
    clear h hne hsize hadditive
    induction hranks with
    | nil => exact ⟨[], .nil, .nil⟩
    | cons hrows _ ih =>
        obtain ⟨prepared, hprepared, hls⟩ := hrows
        obtain ⟨split, hsplit, hlosses⟩ := ih
        exact ⟨prepared.1 :: split, .cons (prepareMicroBatches_spec hprepared).1 hsplit,
          .cons hls hlosses⟩
  have hrect : ∃ k, ∀ ls ∈ losses, ls.length = k := by
    obtain ⟨rows, hrows⟩ := List.exists_mem_of_ne_nil _ hne
    refine ⟨if config.useDynamicBsz then numMicroBatches (.nested (rows.map len))
      (config.maxTokenLenPerGpu * config.spSize) (peerCounts config len ranks) none none
      config.forceGroupSize else size / (config.forceGroupSize * config.microBatchSizePerGpu),
      fun ls hls => ?_⟩
    obtain ⟨rows', hrows', prepared, hprepared, hls⟩ := exists_of_forall₂ hranks.flip hls
    rw [← hls.length_eq, (prepareMicroBatches_spec hprepared).2, hsize rows' hrows',
      numMicroBatches_eq config len hrows' hrows]
  have hlen : split.length = ranks.length := hsplit.length_eq.symm
  have hsplitne : split ≠ [] := by
    rintro rfl
    exact hne (List.length_eq_zero_iff.mp hlen.symm)
  rw [← hlen] at hlosses
  obtain ⟨k, hrect⟩ := hrect
  refine ⟨hadditive.mean_parts (flatten_perm hsplit) hsplitne hlosses, aggregateDp_sum ?_ hrect⟩
  rintro rfl
  exact hsplitne (List.forall₂_nil_right_iff.mp hlosses)

/-- A step of the ranks returns exactly when their rows can be dispatched. -/
theorem forwardBackwardBatch_returns_iff (hloss : ∀ N, ∃ f, RowAdditive (lossFunction N) f)
    (hne : ranks ≠ []) (hsize : ∀ rows ∈ ranks, rows.length = size) :
    (∃ losses, forwardBackwardBatch config len lossTokens lossFunction ranks = .ok losses) ↔
      Dispatchable ranks.length config len ranks.flatten := by
  have hpos := List.length_pos_of_ne_nil hne
  have hlen : ranks.flatten.length = ranks.length * size := by
    rw [List.length_flatten, List.map_congr_left hsize, List.map_const', List.sum_replicate,
      smul_eq_mul]
  have hruns : runs ranks.length (ranks.flatten.length / ranks.length) ranks.flatten = ranks := by
    rw [hlen, Nat.mul_div_cancel_left _ hpos, runs_flatten hsize]
  rw [← dispatches_iff hpos, Dispatches, hruns]
  constructor
  · rintro ⟨losses, h⟩
    refine ⟨hlen ▸ Nat.dvd_mul_right _ _, fun rows hrows => ?_⟩
    obtain ⟨_, -, prepared, hprepared, -⟩ :=
      exists_of_forall₂ (forwardBackwardBatch_eq_ok_iff.mp h) hrows
    exact prepares_of_eq_ok hprepared
  · rintro ⟨-, hprepares⟩
    obtain ⟨f, hadditive⟩ := hloss (ranks.flatten.map lossTokens).sum
    have hranks : ∀ rows ∈ ranks, ∃ ls : List ℝ, ∃ prepared,
        prepareMicroBatches config len (peerCounts config len ranks) rows = .ok prepared ∧
        List.Forall₂ (fun microBatch l => lossFunction (ranks.flatten.map lossTokens).sum
          ranks.length microBatch = .ok l) prepared.1 ls := by
      intro rows hrows
      obtain ⟨prepared, hprepared⟩ := exists_prepareMicroBatches (hprepares rows hrows)
      refine ⟨prepared.1.map _, prepared, hprepared, List.forall₂_map_right_iff.mpr
        (List.forall₂_same.mpr fun microBatch _ => hadditive _ _)⟩
    choose! ls hls using hranks
    exact ⟨ranks.map ls, forwardBackwardBatch_eq_ok_iff.mpr
      (List.forall₂_map_right_iff.mpr (List.forall₂_same.mpr hls))⟩

end step

/-! ### The mini-batches of the ranks -/

/-- The size of the mini-batches of a rank with `rows` rows. -/
def TrainConfig.HasSize (config : TrainConfig) (dpSize rows size : ℕ) : Prop :=
  match config.miniBatchSize, config.numMiniBatch with
  | some total, _ => total = size * dpSize
  | none, some n => 0 < n ∧ rows = size * n
  | none, none => False

section iterators
variable {ρ ε : Type} {config : TrainConfig} {dpSize : ℕ}

theorem miniBatchSizePerGpu_eq_ok_iff (hdp : 0 < dpSize) {rows size : ℕ} :
    (miniBatchSizePerGpu config dpSize rows : Except (TrainError ε) ℕ) = .ok size ↔
      config.HasSize dpSize rows size := by
  -- an exact division
  have hdiv : ∀ total n : ℕ, 0 < n → (total % n = 0 ∧ total / n = size ↔ total = size * n) := by
    intro total n hn
    constructor
    · rintro ⟨hmod, rfl⟩
      exact (Nat.div_mul_cancel (Nat.dvd_of_mod_eq_zero hmod)).symm
    · rintro rfl
      exact ⟨Nat.mul_mod_left size n, Nat.mul_div_cancel size hn⟩
  unfold miniBatchSizePerGpu TrainConfig.HasSize
  cases config.miniBatchSize with
  | some total =>
      simp only [if_neg hdp.ne', ← hdiv total dpSize hdp]
      split_ifs with hmod
      · exact ⟨fun h => (by cases h), fun h => absurd h.1 hmod⟩
      · exact ⟨fun h => ⟨not_not.mp hmod, Except.ok.inj h⟩, fun h => congrArg Except.ok h.2⟩
  | none => cases config.numMiniBatch with
    | none => exact ⟨fun h => (by cases h), False.elim⟩
    | some n =>
        simp only
        split_ifs with hn hmod
        · exact ⟨fun h => (by cases h), fun h => absurd h.1 (by omega)⟩
        · refine ⟨fun h => (by cases h), fun h => absurd ?_ hmod⟩
          exact ((hdiv rows n h.1).mpr h.2).1
        · have hn : 0 < n := Nat.pos_of_ne_zero hn
          rw [← hdiv rows n hn]
          exact ⟨fun h => ⟨hn, not_not.mp hmod, Except.ok.inj h⟩, fun h => congrArg Except.ok h.2.2⟩

/-- The mini-batches of one epoch hold the rows of the rank. -/
theorem exists_epoch {data : List ρ} {order : List ℕ} {size : ℕ} (hdvd : size ∣ data.length)
    (hperm : order.Perm (List.range data.length)) : ∃ pass : List (List ρ),
      ((runs (data.length / size) size order).mapM fun idx => (gather? data idx).elim
        (Except.error (TrainError.batch (ε := ε) .indexOutOfRange)) .ok) = .ok pass ∧
      pass.length = data.length / size ∧ pass.flatten.Perm data ∧
        ∀ part ∈ pass, part.length = size := by
  have hlen : order.length = data.length / size * size := by
    rw [hperm.length_eq, List.length_range, Nat.div_mul_cancel hdvd]
  have hflat := flatten_runs hlen
  obtain ⟨pass, hpass, hgather⟩ : ∃ pass : List (List ρ),
      ((runs (data.length / size) size order).mapM fun idx => (gather? data idx).elim
        (Except.error (TrainError.batch (ε := ε) .indexOutOfRange)) .ok) = .ok pass ∧
      List.Forall₂ (fun idx part => gather? data idx = some part)
        (runs (data.length / size) size order) pass :=
    exists_mapM_eq_ok fun idx hidx => by
      obtain ⟨part, hpart⟩ := exists_gather? fun i hi =>
        List.mem_range.mp (hperm.mem_iff.mp (hflat ▸ List.mem_flatten_of_mem hidx hi))
      exact ⟨part, by rw [hpart]; rfl, hpart⟩
  refine ⟨pass, hpass, by rw [← hgather.length_eq, length_runs], ?_, fun part hpart => ?_⟩
  · have hwhole := gather?_flatten hgather
    rw [hflat] at hwhole
    exact gather?_perm hperm hwhole
  · obtain ⟨idx, hidx, hpart⟩ := exists_of_forall₂ hgather.flip hpart
    rw [← (gather?_eq_some_iff.mp hpart).length_eq, length_of_mem_runs hlen hidx]

/-- The iterator of a rank returns exactly on whole mini-batches, and visits the rows once an
epoch. -/
theorem makeIterator_eq_ok {data : List ρ} {order : ℕ → ℕ → List ℕ} {size : ℕ} (epochs : ℕ)
    (hperm : ∀ epoch rows, (order epoch rows).Perm (List.range rows)) :
    (∀ visits, makeIterator (ε := ε) order size epochs data = .ok visits →
      visits.length = epochs ∧ ∀ pass ∈ visits, pass.length = data.length / size ∧
        pass.flatten.Perm data ∧ ∀ part ∈ pass, part.length = size) ∧
    ((∃ visits, makeIterator (ε := ε) order size epochs data = .ok visits) ↔
      0 < size ∧ size ∣ data.length) := by
  simp only [makeIterator, guard_eq_ok_iff]
  constructor
  · rintro visits ⟨hsize, hmod, h⟩
    have hvisits := mapM_eq_ok_iff.mp h
    refine ⟨by rw [← hvisits.length_eq, List.length_range], fun pass hpass => ?_⟩
    obtain ⟨epoch, -, hepoch⟩ := exists_of_forall₂ hvisits.flip hpass
    obtain ⟨pass', hpass', hspec⟩ := exists_epoch (ε := ε)
      (Nat.dvd_of_mod_eq_zero (not_not.mp hmod)) (hperm epoch data.length)
    obtain rfl := Except.ok.inj (hepoch.symm.trans hpass')
    exact hspec
  · constructor
    · rintro ⟨visits, hsize, hmod, -⟩
      exact ⟨Nat.pos_of_ne_zero hsize, Nat.dvd_of_mod_eq_zero (not_not.mp hmod)⟩
    · rintro ⟨hsize, hdvd⟩
      obtain ⟨visits, hvisits, -⟩ := exists_mapM_eq_ok (R := fun _ _ => True)
        fun epoch (_ : epoch ∈ List.range epochs) => by
          obtain ⟨pass, hpass, -⟩ := exists_epoch (ε := ε) hdvd (hperm epoch data.length)
          exact ⟨pass, hpass, trivial⟩
      exact ⟨visits, hsize.ne', by simpa using Nat.mod_eq_zero_of_dvd hdvd, hvisits⟩

/-- The data loaders of the ranks. -/
theorem dataloaders_eq_ok (config : TrainConfig) (hdp : 0 < dpSize) (sampler : Sampler)
    {chunks : List (List ρ)} {n : ℕ}
    (hne : chunks ≠ []) (hlen : ∀ rows ∈ chunks, rows.length = n) :
    let result := chunks.zipIdx.mapM (rankDataloader (ε := ε) dpSize config sampler)
    (∀ dataloaders, result = .ok dataloaders → ∃ size, config.HasSize dpSize n size ∧ 0 < size ∧
      size ∣ n ∧ Visits chunks (n / size) size config.epochs dataloaders) ∧
    ((∃ dataloaders, result = .ok dataloaders) ↔
      ∃ size, config.HasSize dpSize n size ∧ 0 < size ∧ size ∣ n) := by
  intro result
  have hmem : ∀ p ∈ chunks.zipIdx, p.1.length = n := fun p hp =>
    hlen p.1 (List.fst_mem_of_mem_zipIdx hp)
  have hspec : ∀ dataloaders, result = .ok dataloaders → ∃ size, config.HasSize dpSize n size ∧
      0 < size ∧ size ∣ n ∧ Visits chunks (n / size) size config.epochs dataloaders := by
    intro dataloaders h
    have hloaders := mapM_eq_ok_iff.mp h
    simp only [rankDataloader, do_eq_ok_iff] at hloaders
    obtain ⟨p, hp⟩ := List.exists_mem_of_ne_nil chunks.zipIdx (by simpa using hne)
    obtain ⟨_, -, size, hsize, hvisits⟩ := exists_of_forall₂ hloaders hp
    rw [hmem p hp] at hsize
    have hreturns := (makeIterator_eq_ok config.epochs (sampler.perm p.2)).2.mp ⟨_, hvisits⟩
    rw [hmem p hp] at hreturns
    refine ⟨size, (miniBatchSizePerGpu_eq_ok_iff hdp).mp hsize, hreturns.1, hreturns.2, ?_⟩
    have hchunks : chunks.zipIdx.map Prod.fst = chunks := List.zipIdx_map_fst 0 chunks
    rw [← hchunks, Visits, List.forall₂_map_left_iff]
    refine List.forall₂_iff_get.mpr ⟨hloaders.length_eq, fun i h₁ h₂ => ?_⟩
    obtain ⟨size', hsize', hparty⟩ := (List.forall₂_iff_get.mp hloaders).2 i h₁ h₂
    have hi := hmem _ (List.get_mem chunks.zipIdx ⟨i, h₁⟩)
    rw [hi] at hsize'
    obtain rfl := Except.ok.inj (hsize'.symm.trans hsize)
    have hparty := (makeIterator_eq_ok config.epochs (sampler.perm _)).1 _ hparty
    rwa [hi] at hparty
  refine ⟨hspec, ?_, ?_⟩
  · rintro ⟨dataloaders, h⟩
    obtain ⟨size, hsize, hpos, hdvd, -⟩ := hspec dataloaders h
    exact ⟨size, hsize, hpos, hdvd⟩
  · rintro ⟨size, hsize, hpos, hdvd⟩
    obtain ⟨dataloaders, h, -⟩ := exists_mapM_eq_ok (R := fun _ _ => True)
      (f := rankDataloader (ε := ε) dpSize config sampler) fun p (hp : p ∈ chunks.zipIdx) => by
        obtain ⟨visits, hvisits⟩ := (makeIterator_eq_ok (ε := ε) config.epochs
          (sampler.perm p.2)).2.mpr ⟨hpos, (hmem p hp).symm ▸ hdvd⟩
        refine ⟨visits, bind_eq_ok_iff.mpr ⟨size, ?_, hvisits⟩, trivial⟩
        rw [hmem p hp]
        exact (miniBatchSizePerGpu_eq_ok_iff hdp).mpr hsize
    exact ⟨dataloaders, h⟩

end iterators

/-! ### The whole update -/

/-- Rows of which `size` on every rank can be split into micro-batches. -/
structure MicroFits {ρ : Type} (micro : MicroBatchConfig) (len : ρ → ℕ) (rows : List ρ) (size : ℕ) :
    Prop where
  dynamic : micro.useDynamicBsz = true → 0 < micro.forceGroupSize ∧ micro.forceGroupSize ∣ size ∧
    ∀ r ∈ rows, len r ≤ micro.maxTokenLenPerGpu * micro.spSize
  fixed : micro.useDynamicBsz = false → 0 < micro.forceGroupSize * micro.microBatchSizePerGpu ∧
    micro.forceGroupSize * micro.microBatchSizePerGpu ∣ size

/-- The conditions under which the update returns with mini-batches of `size` rows a rank. -/
structure Trainable {ρ : Type} (dpSize : ℕ) (config : TrainConfig) (len : ρ → ℕ) (data : List ρ)
    (size : ℕ) : Prop where
  rows : dpSize ∣ data.length
  hasSize : config.HasSize dpSize (data.length / dpSize) size
  size_pos : 0 < size
  size_dvd : size ∣ data.length / dpSize
  micro : MicroFits config.micro len data size

section whole
variable {ρ ε : Type} {dpSize : ℕ} {config : TrainConfig} {sampler : Sampler}
  {len lossTokens : ρ → ℕ} {lossFunction : ℕ → ℕ → ℕ → List ρ → Except ε ℝ} {data : List ρ}

/-- The steps of the ranks: the chunks they got, and their data loaders. -/
theorem trainMiniBatch_eq_ok_iff {losses : List (List (List ℝ))} :
    trainMiniBatch dpSize config sampler len lossTokens lossFunction data = .ok losses ↔
      (0 < dpSize ∧ dpSize ∣ data.length) ∧ ∃ dataloaders,
        (runs dpSize (data.length / dpSize) data).zipIdx.mapM
          (rankDataloader (ε := ε) dpSize config sampler) = .ok dataloaders ∧
        List.Forall₂ (fun p losses =>
            forwardBackwardBatch config.micro len lossTokens (lossFunction p.2) p.1 = .ok losses)
          ((columns dataloaders).flatMap columns).zipIdx losses := by
  simp only [trainMiniBatch, do_eq_ok_iff, mapError_eq_ok_iff, chunkTensordict_eq_ok,
    mapM_eq_ok_iff]
  constructor
  · rintro ⟨chunks, ⟨hdp, hdvd, rfl⟩, dataloaders, hloaders, hsteps⟩
    exact ⟨⟨hdp, hdvd⟩, dataloaders, hloaders, hsteps⟩
  · rintro ⟨⟨hdp, hdvd⟩, dataloaders, hloaders, hsteps⟩
    exact ⟨_, ⟨hdp, hdvd, rfl⟩, dataloaders, hloaders, hsteps⟩

/-- What the ranks visit, when their data loaders return. -/
theorem visits_of_dataloaders (hdp : 0 < dpSize) (hdvd : dpSize ∣ data.length)
    {dataloaders : List (List (List (List ρ)))}
    (h : (runs dpSize (data.length / dpSize) data).zipIdx.mapM
      (rankDataloader (ε := ε) dpSize config sampler) = .ok dataloaders) :
    ∃ size, config.HasSize dpSize (data.length / dpSize) size ∧ 0 < size ∧
      size ∣ data.length / dpSize ∧
      Passes data (dpSize * size) config.epochs
        (((columns dataloaders).flatMap columns).map List.flatten) ∧
      ∀ ranks ∈ (columns dataloaders).flatMap columns, ranks.length = dpSize ∧
        ∀ rows ∈ ranks, rows.length = size := by
  have hchunks : (runs dpSize (data.length / dpSize) data).length = dpSize := length_runs _ _ _
  have hne : runs dpSize (data.length / dpSize) data ≠ [] :=
    List.ne_nil_of_length_pos (by rwa [hchunks])
  obtain ⟨size, hsize, hpos, hsizes, hvisits⟩ := (dataloaders_eq_ok config hdp sampler hne
    fun rows hrows => length_of_mem_runs_of_dvd hdvd hrows).1 dataloaders h
  have hvisitsne : dataloaders ≠ [] := by
    rintro rfl
    exact hne (List.forall₂_nil_right_iff.mp hvisits)
  have hpasses := Passes.of_columns hvisits hvisitsne
  rw [flatten_runs_of_dvd hdvd, hchunks] at hpasses
  refine ⟨size, hsize, hpos, hsizes, hpasses, fun ranks hranks => ?_⟩
  obtain ⟨hlen, hrows⟩ := hvisits.step hvisitsne hranks
  exact ⟨hlen.trans hchunks, hrows⟩

/-- The losses of an update of one worker: it passes over the batch in mini-batches, and the
losses of every step are those of its mini-batch as a whole. -/
def SingleWorkerUpdate (dpSize : ℕ) (config : TrainConfig) (lossTokens : ρ → ℕ)
    (lossFunction : ℕ → ℕ → ℕ → List ρ → Except ε ℝ) (data : List ρ)
    (losses : List (List (List ℝ))) : Prop :=
  ∃ size miniBatches, config.HasSize dpSize (data.length / dpSize) size ∧
    Passes data (dpSize * size) config.epochs miniBatches ∧
    List.Forall₂ (fun p => StepLoss (lossFunction p.2) lossTokens p.1) miniBatches.zipIdx losses

theorem trainMiniBatch_spec (hloss : ∀ k N, ∃ f, RowAdditive (lossFunction k N) f)
    {losses : List (List (List ℝ))}
    (h : trainMiniBatch dpSize config sampler len lossTokens lossFunction data = .ok losses) :
    SingleWorkerUpdate dpSize config lossTokens lossFunction data losses := by
  obtain ⟨⟨hdp, hdvd⟩, dataloaders, hloaders, hsteps⟩ := trainMiniBatch_eq_ok_iff.mp h
  obtain ⟨size, hsize, -, -, hpasses, hranks⟩ := visits_of_dataloaders hdp hdvd hloaders
  refine ⟨size, _, hsize, hpasses, ?_⟩
  rw [List.zipIdx_map, List.forall₂_map_left_iff]
  refine List.forall₂_iff_get.mpr ⟨hsteps.length_eq, fun i h₁ h₂ => ?_⟩
  have hstep := (List.forall₂_iff_get.mp hsteps).2 i h₁ h₂
  obtain ⟨hlen, hrows⟩ := hranks _ (List.fst_mem_of_mem_zipIdx
    (List.get_mem ((columns dataloaders).flatMap columns).zipIdx ⟨i, h₁⟩))
  exact forwardBackwardBatch_spec (hloss _)
    (List.ne_nil_of_length_pos (by rwa [hlen])) hrows hstep

/-- A mini-batch of rows that are not empty can be dispatched exactly when it fits. -/
theorem dispatchable_iff_microFits {micro : MicroBatchConfig} {ranks : List (List ρ)} {size : ℕ}
    (hne : ranks ≠ []) (hsize : 0 < size) (hrows : ∀ rows ∈ ranks, rows.length = size)
    (hpos : ∀ r ∈ ranks.flatten, 0 < len r) :
    Dispatchable ranks.length micro len ranks.flatten ↔ MicroFits micro len ranks.flatten size := by
  have hranks := List.length_pos_of_ne_nil hne
  have hlen : ranks.flatten.length = ranks.length * size := by
    rw [List.length_flatten, List.map_congr_left hrows, List.map_const', List.sum_replicate,
      smul_eq_mul]
  have hflat : ranks.flatten ≠ [] := List.ne_nil_of_length_pos (hlen ▸ Nat.mul_pos hranks hsize)
  obtain ⟨r, hr⟩ := List.exists_mem_of_ne_nil _ hflat
  constructor
  · rintro ⟨-, hdynamic, hfixed⟩
    rw [hlen] at hdynamic hfixed
    refine ⟨fun h => ?_, fun h => ?_⟩
    · obtain ⟨hgroup, hdvd, hle, -⟩ := hdynamic h
      exact ⟨hgroup, Nat.dvd_of_mul_dvd_mul_left hranks hdvd, hle⟩
    · exact ⟨(hfixed h).1, Nat.dvd_of_mul_dvd_mul_left hranks (hfixed h).2⟩
  · rintro ⟨hdynamic, hfixed⟩
    refine ⟨hflat, fun h => ?_, fun h => ?_⟩
    · obtain ⟨hgroup, hdvd, hle⟩ := hdynamic h
      exact ⟨hgroup, hlen ▸ Nat.mul_dvd_mul_left _ hdvd, hle, r, hr, hpos r hr⟩
    · exact ⟨(hfixed h).1, hlen ▸ Nat.mul_dvd_mul_left _ (hfixed h).2⟩

/-- The ranks of a step. -/
structure StepRanks (dpSize size : ℕ) (data : List ρ) (ranks : List (List ρ)) : Prop where
  length_eq : ranks.length = dpSize
  size_eq : ∀ rows ∈ ranks, rows.length = size
  mem : ∀ r ∈ ranks.flatten, r ∈ data

theorem StepRanks.returns_iff {size : ℕ} {ranks : List (List ρ)}
    (h : StepRanks dpSize size data ranks) (lossTokens : ρ → ℕ) (k : ℕ) (hdp : 0 < dpSize)
    (hsize : 0 < size) (hloss : ∀ k N, ∃ f, RowAdditive (lossFunction k N) f)
    (hpos : ∀ r ∈ data, 0 < len r) :
    (∃ losses, forwardBackwardBatch config.micro len lossTokens (lossFunction k) ranks =
      .ok losses) ↔ MicroFits config.micro len ranks.flatten size := by
  have hne : ranks ≠ [] := List.ne_nil_of_length_pos (by rwa [h.length_eq])
  exact (forwardBackwardBatch_returns_iff (hloss k) hne h.size_eq).trans
    (dispatchable_iff_microFits hne hsize h.size_eq fun r hr => hpos r (h.mem r hr))

/-- The update returns exactly when the batch falls into mini-batches and these into
micro-batches. -/
theorem trainMiniBatch_returns_iff (hloss : ∀ k N, ∃ f, RowAdditive (lossFunction k N) f)
    (hdp : 0 < dpSize) (hepochs : 0 < config.epochs) (hdata : data ≠ [])
    (hpos : ∀ r ∈ data, 0 < len r) :
    (∃ losses, trainMiniBatch dpSize config sampler len lossTokens lossFunction data = .ok losses) ↔
      ∃ size, Trainable dpSize config len data size := by
  constructor
  · rintro ⟨losses, h⟩
    obtain ⟨⟨-, hdvd⟩, dataloaders, hloaders, hsteps⟩ := trainMiniBatch_eq_ok_iff.mp h
    obtain ⟨size, hsize, hsizepos, hsizes, hpasses, hranks⟩ :=
      visits_of_dataloaders hdp hdvd hloaders
    have hfits : ∀ ranks ∈ (columns dataloaders).flatMap columns,
        MicroFits config.micro len ranks.flatten size := by
      intro ranks hmem
      obtain ⟨k, hk⟩ := List.mem_iff_getElem?.mp hmem
      obtain ⟨losses, -, hlosses⟩ := exists_of_forall₂ hsteps
        (List.mem_zipIdx_iff_getElem? (x := (ranks, k)).mpr hk)
      exact (StepRanks.returns_iff ⟨(hranks ranks hmem).1, (hranks ranks hmem).2, fun r hr =>
        hpasses.mem (List.mem_map_of_mem hmem) hr⟩ lossTokens k hdp hsizepos hloss hpos).mp
          ⟨losses, hlosses⟩
    -- every row is visited in the first epoch
    have hvisited : ∀ r ∈ data, ∃ ranks ∈ (columns dataloaders).flatMap columns,
        r ∈ ranks.flatten := by
      intro r hr
      obtain ⟨ps, hlen, hps, hperm⟩ := hpasses.exists_passes
      obtain ⟨p, hp⟩ := List.exists_mem_of_length_pos (l := ps) (by rwa [hlen])
      obtain ⟨part, hpart, hr⟩ := List.mem_flatten.mp ((hperm p hp).mem_iff.mpr hr)
      have hpart := hps ▸ List.mem_flatten_of_mem hp hpart
      obtain ⟨ranks, hmem, rfl⟩ := List.mem_map.mp hpart
      exact ⟨ranks, hmem, hr⟩
    obtain ⟨r, hr⟩ := List.exists_mem_of_ne_nil _ hdata
    obtain ⟨ranks, hmem, -⟩ := hvisited r hr
    refine ⟨size, hdvd, hsize, hsizepos, hsizes, fun hdynamic => ?_, (hfits ranks hmem).fixed⟩
    obtain ⟨hgroup, hgroups, -⟩ := (hfits ranks hmem).dynamic hdynamic
    refine ⟨hgroup, hgroups, fun r hr => ?_⟩
    obtain ⟨ranks, hmem, hr⟩ := hvisited r hr
    exact ((hfits ranks hmem).dynamic hdynamic).2.2 r hr
  · rintro ⟨size, h⟩
    have hchunks : (runs dpSize (data.length / dpSize) data).length = dpSize := length_runs _ _ _
    obtain ⟨dataloaders, hloaders⟩ := (dataloaders_eq_ok (ε := ε) config hdp sampler
      (List.ne_nil_of_length_pos (by rwa [hchunks]))
      fun rows hrows => length_of_mem_runs_of_dvd h.rows hrows).2.mpr
        ⟨size, h.hasSize, h.size_pos, h.size_dvd⟩
    obtain ⟨size', hsize', -, -, hpasses, hranks⟩ := visits_of_dataloaders hdp h.rows hloaders
    obtain rfl : size = size' := Except.ok.inj
      (((miniBatchSizePerGpu_eq_ok_iff (ε := ε) hdp).mpr h.hasSize).symm.trans
        ((miniBatchSizePerGpu_eq_ok_iff hdp).mpr hsize'))
    obtain ⟨losses, hlosses, -⟩ := exists_mapM_eq_ok (R := fun _ _ => True)
      (f := fun p => forwardBackwardBatch config.micro len lossTokens (lossFunction p.2) p.1)
      fun p (hp : p ∈ ((columns dataloaders).flatMap columns).zipIdx) => by
        have hmem := List.fst_mem_of_mem_zipIdx hp
        have hstep : StepRanks dpSize size data p.1 := ⟨(hranks p.1 hmem).1, (hranks p.1 hmem).2,
          fun r hr => hpasses.mem (List.mem_map_of_mem hmem) hr⟩
        have hfits : MicroFits config.micro len p.1.flatten size :=
          ⟨fun hdynamic => (h.micro.dynamic hdynamic).imp_right (And.imp_right fun hle r hr =>
            hle r (hstep.mem r hr)), h.micro.fixed⟩
        obtain ⟨ls, hls⟩ := (hstep.returns_iff lossTokens p.2 hdp h.size_pos hloss
          hpos).mpr hfits
        exact ⟨ls, hls, trivial⟩
    exact ⟨losses, trainMiniBatch_eq_ok_iff.mpr
      ⟨⟨hdp, h.rows⟩, dataloaders, hloaders, mapM_eq_ok_iff.mp hlosses⟩⟩

/-- A loss that is a sum over rows, or always fails, is trained on as by one worker. -/
theorem trainMiniBatch_eq_ok (hloss : AdditiveOrFails fun (i : ℕ × ℕ) d (rows : List ρ) =>
    lossFunction i.1 i.2 d rows) (hdp : 0 < dpSize) (hepochs : 0 < config.epochs)
    (hdata : data ≠ []) (hpos : ∀ r ∈ data, 0 < len r) :
    let result := trainMiniBatch dpSize config sampler len lossTokens lossFunction data
    (∀ losses, result = .ok losses →
      SingleWorkerUpdate dpSize config lossTokens lossFunction data losses) ∧
    ((∃ losses, result = .ok losses) ↔
      (∃ size, Trainable dpSize config len data size) ∧
        ∃ total, lossFunction 0 0 1 [] = .ok total) := by
  rcases hloss with ⟨e, he⟩ | hadditive
  · -- a micro-batch of the first step would have a loss
    have hfails : ¬ ∃ losses,
        trainMiniBatch dpSize config sampler len lossTokens lossFunction data = .ok losses := by
      rintro ⟨losses, h⟩
      obtain ⟨⟨-, hdvd⟩, dataloaders, hloaders, hsteps⟩ := trainMiniBatch_eq_ok_iff.mp h
      obtain ⟨size, -, hsize, -, hpasses, hranks⟩ := visits_of_dataloaders hdp hdvd hloaders
      obtain ⟨ps, hlen, hps, hperm⟩ := hpasses.exists_passes
      obtain ⟨p, hp⟩ := List.exists_mem_of_length_pos (l := ps) (by rwa [hlen])
      obtain ⟨r, hr⟩ := List.exists_mem_of_ne_nil _ hdata
      obtain ⟨part, hpart, hr⟩ := List.mem_flatten.mp ((hperm p hp).mem_iff.mpr hr)
      obtain ⟨ranks, hmem, rfl⟩ := List.mem_map.mp (hps ▸ List.mem_flatten_of_mem hp hpart)
      obtain ⟨rows, hrows, hr⟩ := List.mem_flatten.mp hr
      obtain ⟨k, hk⟩ := List.mem_iff_getElem?.mp hmem
      obtain ⟨stepLosses, -, hstep⟩ := exists_of_forall₂ hsteps
        (List.mem_zipIdx_iff_getElem? (x := (ranks, k)).mpr hk)
      obtain ⟨ls, -, prepared, hprepared, hls⟩ :=
        exists_of_forall₂ (forwardBackwardBatch_eq_ok_iff.mp hstep) hrows
      obtain ⟨microBatch, hmicro, -⟩ := List.mem_flatten.mp
        ((prepareMicroBatches_spec hprepared).1.mem_iff.mpr hr)
      obtain ⟨l, -, hl⟩ := exists_of_forall₂ hls hmicro
      exact absurd ((he (k, _) _ _).symm.trans hl) (by simp)
    refine ⟨fun losses h => absurd ⟨losses, h⟩ hfails, fun h => absurd h hfails, ?_⟩
    rintro ⟨-, total, htotal⟩
    exact absurd ((he (0, 0) 1 []).symm.trans htotal) (by simp)
  · have hrows : ∀ k N, ∃ f, RowAdditive (lossFunction k N) f := fun k N => hadditive (k, N)
    refine ⟨fun losses h => trainMiniBatch_spec hrows h, ?_⟩
    refine (trainMiniBatch_returns_iff hrows hdp hepochs hdata hpos).trans
      (and_iff_left ?_).symm
    obtain ⟨f, hf⟩ := hrows 0 0
    exact ⟨_, hf 1 []⟩

end whole

/-! ### The update of the actor -/

section actor
variable {ρ : Type} {width : ℕ}

/-- The loss of the actor at a step, on rows as the weights of the step make them. -/
def actorLoss {α : Type} [Zero α] [One α] [Neg α] [Add α] [Sub α] [Mul α] [Div α] [NatCast α]
    [LT α] [LE α] [DecidableLT α] [DecidableLE α] [DecidableEq α] [OfScientific α] [Scalar α]
    (actor : ActorLossConfig α) (columns : PolicyColumns) (globalBatchSize : ℕ)
    (lossScaleFactor : Option ℕ) (forward : ℕ → ρ → UpdateRow α width) (step batchNumTokens dpSize : ℕ)
    (rows : List ρ) : Except (LossError α) α :=
  ppoLoss actor columns ⟨dpSize, some batchNumTokens, some globalBatchSize, lossScaleFactor⟩
    (updateTensor (rows.map (forward step)))

theorem actorLoss_additive (actor : ActorLossConfig ℝ) (columns : PolicyColumns)
    (globalBatchSize : ℕ) (lossScaleFactor : Option ℕ) (forward : ℕ → ρ → UpdateRow ℝ width) :
    AdditiveOrFails fun (i : ℕ × ℕ) d (rows : List ρ) =>
      actorLoss actor columns globalBatchSize lossScaleFactor forward i.1 i.2 d rows := by
  have hppo : AdditiveOrFails fun N d (rows : List (UpdateRow ℝ width)) =>
      ppoLoss actor columns ⟨d, some N, some globalBatchSize, lossScaleFactor⟩
        (updateTensor rows) :=
    ppoLoss_additive actor columns globalBatchSize lossScaleFactor
  rcases hppo with ⟨e, he⟩ | hadditive
  · exact .inl ⟨e, fun i d rows => he i.2 d _⟩
  · refine .inr fun i => ?_
    obtain ⟨f, hf⟩ := hadditive i.2
    refine ⟨fun r => f (forward i.1 r), fun d rows => ?_⟩
    have hrows := hf d (rows.map (forward i.1))
    rw [List.map_map] at hrows
    exact hrows

/-- **The actor is updated as by a single worker.**  On ranks of any number, with mini-batches in
any order and micro-batches of either kind, an update returns exactly when the batch falls into
mini-batches and these into micro-batches, and the options of the loss are valid.  It passes over
the batch in mini-batches; the reported and the logged loss of every step is the loss of its
mini-batch as a whole. -/
theorem trainMiniBatch_actorLoss (dpSize : ℕ) (config : TrainConfig) (sampler : Sampler)
    (len lossTokens : ρ → ℕ) (actor : ActorLossConfig ℝ) (columns : PolicyColumns)
    (globalBatchSize : ℕ) (lossScaleFactor : Option ℕ) (forward : ℕ → ρ → UpdateRow ℝ width)
    (data : List ρ) (hdp : 0 < dpSize) (hepochs : 0 < config.epochs) (hdata : data ≠ [])
    (hpos : ∀ r ∈ data, 0 < len r) :
    let loss := actorLoss actor columns globalBatchSize lossScaleFactor forward
    let result := trainMiniBatch dpSize config sampler len lossTokens loss data
    (∀ losses, result = .ok losses →
      SingleWorkerUpdate dpSize config lossTokens loss data losses) ∧
    ((∃ losses, result = .ok losses) ↔
      (∃ size, Trainable dpSize config len data size) ∧ ∃ total, loss 0 0 1 [] = .ok total) :=
  trainMiniBatch_eq_ok (actorLoss_additive actor columns globalBatchSize lossScaleFactor forward)
    hdp hepochs hdata hpos

/-- A plain policy loss. -/
noncomputable def plainActor : ActorLossConfig ℝ where
  clipRatio := 0
  clipRatioLow := none
  clipRatioHigh := none
  clipRatioC := 1 + 1
  lossAggMode := "token-mean"
  entropyCoeff := 0
  useKlLoss := false
  klLossCoef := 0
  klLossType := "low_var_kl"
  rlsdEnabled := false
  rlsdDeltaSource := "current"
  rlsdConfig := ⟨0, 0, false⟩
  opdPgEnabled := false
  opdLogratioClipAbs := 1

/-- Two rows of one response token, on two ranks. -/
theorem trainMiniBatch_actorLoss_two :
    ∃ losses, trainMiniBatch 2 ⟨some 2, none, 1, ⟨false, 8, 1, 1, 1⟩⟩ sequentialSampler id
      (fun _ => 1) (actorLoss plainActor ⟨false, false, false, false⟩ 2 none fun _ (r : ℕ) =>
        (⟨[⟨-1, -r, 0, 0, 1, 1, 0, 0, 0, true⟩], rfl⟩ : UpdateRow ℝ 1)) [3, 8] = .ok losses := by
  refine (trainMiniBatch_actorLoss _ _ _ _ _ _ _ _ _ _ _ (by decide) (by decide) (by decide)
    (by decide)).2.mpr ⟨⟨1, ?_⟩, ?_⟩
  · exact ⟨by decide, rfl, by decide, by decide, ⟨fun h => absurd h (by decide),
      fun _ => by decide⟩⟩
  · have hclip : (1.0 : ℝ) < plainActor.clipRatioC := by norm_num [plainActor]
    simp only [actorLoss, ppoLoss, creditAdvantages, entropyLoss, klLoss, plainActor] at hclip ⊢
    exact ⟨_, by simp [hclip, aggLoss, globalNumber]; rfl⟩

end actor

end ExtpiRlsd
