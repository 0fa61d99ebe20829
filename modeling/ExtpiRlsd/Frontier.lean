import ExtpiRlsd.Lib.Checked
import ExtpiRlsd.Lib.PyData
import ExtpiRlsd.PromptAssembly

/-! # The frontier splits

`build_frontier.py`: the test `eligibleFrontier` of a row, strict or relaxed, and the five splits.
The frontier is the strict one where it is large enough and the relaxed one otherwise; train and
dev are consecutive pieces of its shuffle, and the confirmation splits are consecutive pieces of
a shuffle of the other verified rows.

`buildFrontier_splits` says that the splits of rows with distinct ids are disjoint where they
should be, eligible under the rule written to the manifest, and as large as the pools allow. -/

namespace ExtpiRlsd

open PyText PyData

/-! ### Eligibility -/

/-- `_verified_field`. -/
def verifiedField (traceField : PyStr) : PyStr :=
  if "_trace".toList.isSuffixOf traceField then
    replace "_trace".toList "_verified".toList traceField
  else traceField ++ "_verified".toList

/-- The machine's floats: their rounding and how they are read from a text. -/
structure PyNumbers where
  fmt : FloatFormat
  parseFloat : PyStr → Option PyFloat

/-- The float nearest to `0.1`. -/
def tenth : PyFloat := .fin (3602879701896397 / 36028797018963968)

section eligible
variable (nums : PyNumbers)

/-- `float(v or 0.0)`. -/
def floatOrZero (v : Json) : Except PyError PyFloat :=
  (if v.truthy then v else .float (.fin 0)).toFloat nums.fmt nums.parseFloat

def plainRate (row : Row) : Except PyError PyFloat :=
  floatOrZero nums (row.getD "p_plain".toList (row.getD "pS".toList (.float (.fin 0))))

def piRate (row : Row) : Except PyError PyFloat :=
  floatOrZero nums (row.getD "p_PI".toList
    (row.getD "pPI".toList (row.getD "pTPI".toList (.float (.fin 0)))))

def isVerified (piTraceField : PyStr) (row : Row) : Bool :=
  (row.getD (verifiedField piTraceField)
    (row.getD "pi_trace_verified".toList (.bool false))).truthy

def hasTrace (piTraceField : PyStr) (row : Row) : Bool := (row.get piTraceField).truthy

def isTruncated (row : Row) : Bool :=
  (row.getD "student_completion_truncated".toList (.bool false)).truthy

/-- `eligible_frontier`. -/
def eligibleFrontier (relaxed : Bool) (piTraceField : PyStr) (row : Row) : Except PyError Bool := do
  let pPlain ← plainRate nums row
  let pPi ← piRate nums row
  let uplift := pPi.sub nums.fmt pPlain
  if !isVerified piTraceField row || !hasTrace piTraceField row || isTruncated row then
    return false
  if relaxed then
    return tenth.le pPlain && pPlain.le (.fin (3 / 4)) && (PyFloat.fin 0).lt uplift
  return (pPlain.eq (.fin (1 / 4)) || pPlain.eq (.fin (1 / 2)) || pPlain.eq (.fin (3 / 4))) &&
    (PyFloat.fin (3 / 4)).le pPi && (PyFloat.fin (1 / 4)).le uplift

end eligible

/-! ### The splits -/

structure FrontierArgs where
  smoke : ℕ
  mvpTrain : ℕ
  matchedDev : ℕ
  confirmationTrain : ℕ
  confirmationDev : ℕ
  piTraceField : PyStr
  /-- What the generator does to the frontier and then to the confirmation pool. -/
  shuffleFrontier : ∀ n, Equiv.Perm (Fin n)
  shufflePool : ∀ n, Equiv.Perm (Fin n)

/-- The five files, and the counts and the `frontier_rule` of the manifest. -/
structure FrontierOutput where
  smoke : List Row
  mvpTrain : List Row
  matchedDev : List Row
  confirmationTrain : List Row
  confirmationDev : List Row
  strictFrontierCount : ℕ
  relaxedFrontierCount : ℕ
  relaxedRule : Bool

def idField : PyStr := "id".toList

/-- `row["id"]` as a member of `used_ids`. -/
def usedId (row : Row) : Except PyError Json.HashKey := do
  let id ← row.getItem idField
  id.hashKey

/-- The test of the confirmation pool. -/
def inConfirmationPool (piTraceField : PyStr) (usedIds : List Json.HashKey) (row : Row) :
    Except PyError Bool := do
  let id ← (row.get idField).hashKey
  return !usedIds.contains id && (isVerified piTraceField row && hasTrace piTraceField row &&
    !isTruncated row)

/-- `main`, from the rows read to the splits written. -/
def buildFrontier (nums : PyNumbers) (args : FrontierArgs) (rows : List Row) :
    Except PyError FrontierOutput := do
  let strict ← Checked.keep (eligibleFrontier nums false args.piTraceField) rows
  let relaxed ← Checked.keep (eligibleFrontier nums true args.piTraceField) rows
  let relaxedRule := decide (strict.length < args.mvpTrain + args.matchedDev)
  let frontier := shuffle args.shuffleFrontier (if relaxedRule then relaxed else strict)
  let smoke := frontier.take args.smoke
  let mvpTrain := frontier.take args.mvpTrain
  let matchedDev := (frontier.drop args.mvpTrain).take args.matchedDev
  let usedIds ← (mvpTrain ++ matchedDev).mapM usedId
  let pool ← Checked.keep (inConfirmationPool args.piTraceField usedIds) rows
  let confirmationPool := shuffle args.shufflePool pool
  return {
    smoke, mvpTrain, matchedDev
    confirmationTrain := confirmationPool.take args.confirmationTrain
    confirmationDev := (confirmationPool.drop args.confirmationTrain).take args.confirmationDev
    strictFrontierCount := strict.length
    relaxedFrontierCount := relaxed.length
    relaxedRule }

/-! ### Strict and relaxed -/

section relaxed
variable {nums : PyNumbers} {piTraceField : PyStr} {row : Row}

/-- The rates of the row are numbers. -/
def HasRates (nums : PyNumbers) (row : Row) : Prop :=
  ∃ pPlain pPi, plainRate nums row = .ok pPlain ∧ piRate nums row = .ok pPi

theorem hasRates_of_eligibleFrontier {relaxed b : Bool}
    (h : eligibleFrontier nums relaxed piTraceField row = .ok b) : HasRates nums row := by
  obtain ⟨pPlain, hplain, h⟩ := Checked.bind_eq_ok_iff.mp h
  obtain ⟨pPi, hpi, -⟩ := Checked.bind_eq_ok_iff.mp h
  exact ⟨pPlain, pPi, hplain, hpi⟩

/-- The test on the rates alone. -/
def ratesEligible (fmt : FloatFormat) (relaxed : Bool) (pPlain pPi : PyFloat) : Bool :=
  let uplift := pPi.sub fmt pPlain
  if relaxed then tenth.le pPlain && pPlain.le (.fin (3 / 4)) && (PyFloat.fin 0).lt uplift
  else (pPlain.eq (.fin (1 / 4)) || pPlain.eq (.fin (1 / 2)) || pPlain.eq (.fin (3 / 4))) &&
    (PyFloat.fin (3 / 4)).le pPi && (PyFloat.fin (1 / 4)).le uplift

theorem eligibleFrontier_eq {relaxed : Bool} {pPlain pPi : PyFloat}
    (hplain : plainRate nums row = .ok pPlain) (hpi : piRate nums row = .ok pPi) :
    eligibleFrontier nums relaxed piTraceField row =
      .ok ((isVerified piTraceField row && hasTrace piTraceField row && !isTruncated row) &&
        ratesEligible nums.fmt relaxed pPlain pPi) := by
  unfold eligibleFrontier ratesEligible
  rw [hplain, hpi]
  cases isVerified piTraceField row with
  | false => rfl
  | true => cases hasTrace piTraceField row with
    | false => rfl
    | true => cases isTruncated row with
      | true => rfl
      | false => cases relaxed <;> rfl

theorem eq_of_eq_fin {x : PyFloat} {a : ℚ} (h : x.eq (.fin a) = true) : x = .fin a := by
  cases x with
  | fin q =>
      rw [PyFloat.eq_fin] at h
      rw [of_decide_eq_true h]
  | nan => cases h
  | negInf => cases h
  | posInf => cases h

/-- Rates that pass the strict test pass the relaxed one. -/
theorem ratesEligible_relaxed {fmt : FloatFormat} {pPlain pPi : PyFloat}
    (h : ratesEligible fmt false pPlain pPi = true) : ratesEligible fmt true pPlain pPi = true := by
  unfold ratesEligible at h ⊢
  rw [if_neg Bool.false_ne_true, Bool.and_eq_true, Bool.and_eq_true] at h
  obtain ⟨⟨hplain, -⟩, huplift⟩ := h
  have hpositive : (PyFloat.fin 0).lt (pPi.sub fmt pPlain) = true :=
    PyFloat.lt_trans_le (by norm_num : (PyFloat.fin 0).lt (.fin (1 / 4)) = true) huplift
  rw [if_pos rfl, hpositive, Bool.and_true]
  rw [Bool.or_eq_true, Bool.or_eq_true] at hplain
  rcases hplain with (hplain | hplain) | hplain
  · rw [eq_of_eq_fin hplain]
    norm_num [tenth]
  · rw [eq_of_eq_fin hplain]
    norm_num [tenth]
  · rw [eq_of_eq_fin hplain]
    norm_num [tenth]

theorem eligibleFrontier_relaxed (h : eligibleFrontier nums false piTraceField row = .ok true) :
    eligibleFrontier nums true piTraceField row = .ok true := by
  obtain ⟨pPlain, pPi, hplain, hpi⟩ := hasRates_of_eligibleFrontier h
  rw [eligibleFrontier_eq hplain hpi, Except.ok.injEq, Bool.and_eq_true] at h ⊢
  exact ⟨h.1, ratesEligible_relaxed h.2⟩

end relaxed

/-! ### Consecutive pieces of a shuffle -/

section pieces
variable {α β : Type} {f : α → β}

/-- Consecutive pieces of a list without repetition share nothing. -/
theorem ne_of_consecutive {xs : List α} (h : (xs.map f).Nodup) {m n : ℕ} {x y : α}
    (hx : x ∈ xs.take m) (hy : y ∈ (xs.drop m).take n) : f x ≠ f y := by
  have hdisjoint := List.disjoint_take_drop h (le_refl m)
  intro heq
  refine hdisjoint (a := f x) ?_ ?_
  · rw [← List.map_take]
    exact List.mem_map_of_mem hx
  · rw [← List.map_drop, heq]
    exact List.mem_map_of_mem (List.mem_of_mem_take hy)

theorem mem_of_mem_consecutive {xs : List α} {m n : ℕ} {x : α}
    (h : x ∈ xs.take m ++ (xs.drop m).take n) : x ∈ xs := by
  rcases List.mem_append.mp h with h | h
  · exact List.mem_of_mem_take h
  · exact List.mem_of_mem_drop (List.mem_of_mem_take h)

theorem nodup_shuffle_filter (σ : ∀ n, Equiv.Perm (Fin n)) (p : α → Bool) {xs : List α}
    (h : (xs.map f).Nodup) : ((shuffle σ (xs.filter p)).map f).Nodup := by
  have hfilter : ((xs.filter p).map f).Nodup := h.sublist (List.filter_sublist.map f)
  exact ((shuffle_perm σ (xs.filter p)).map f).nodup_iff.mpr hfilter

theorem mem_filter_of_mem_shuffle {σ : ∀ n, Equiv.Perm (Fin n)} {p : α → Bool} {xs : List α}
    {x : α} (h : x ∈ shuffle σ (xs.filter p)) : x ∈ xs ∧ p x = true :=
  List.mem_filter.mp ((shuffle_perm σ _).mem_iff.mp h)

end pieces

/-! ### The splits of rows with distinct ids -/

/-- The id of a row, or the error of a value that no set can hold. -/
def rowId (row : Row) : Except PyError Json.HashKey := (row.get idField).hashKey

/-- The test under the rule of the manifest. -/
def FrontierEligible (nums : PyNumbers) (args : FrontierArgs) (relaxedRule : Bool) (row : Row) :
    Bool :=
  Checked.Passes (eligibleFrontier nums relaxedRule args.piTraceField) row

/-- Verified, with a trace, and not truncated. -/
def Confirmed (piTraceField : PyStr) (row : Row) : Prop :=
  isVerified piTraceField row = true ∧ hasTrace piTraceField row = true ∧ isTruncated row = false

/-- A row that train and dev leave to the confirmation splits. -/
def LeftForConfirmation (args : FrontierArgs) (out : FrontierOutput) (row : Row) : Prop :=
  Confirmed args.piTraceField row ∧ ∀ used ∈ out.mvpTrain ++ out.matchedDev, rowId used ≠ rowId row

open Classical in
/-- What the splits promise. -/
structure FrontierSplits (nums : PyNumbers) (args : FrontierArgs) (rows : List Row)
    (out : FrontierOutput) : Prop where
  train_dev : ∀ r ∈ out.mvpTrain, ∀ s ∈ out.matchedDev, rowId r ≠ rowId s
  confirmation_train_dev : ∀ r ∈ out.confirmationTrain, ∀ s ∈ out.confirmationDev,
    rowId r ≠ rowId s
  confirmation_fresh : ∀ r ∈ out.confirmationTrain ++ out.confirmationDev,
    ∀ s ∈ out.mvpTrain ++ out.matchedDev, rowId r ≠ rowId s
  smoke_subset : out.smoke ⊆ out.mvpTrain
  eligible : ∀ r ∈ out.mvpTrain ++ out.matchedDev,
    r ∈ rows ∧ FrontierEligible nums args out.relaxedRule r = true
  relaxed_of_strict : ∀ r ∈ rows, FrontierEligible nums args false r = true →
    FrontierEligible nums args true r = true
  confirmed : ∀ r ∈ out.confirmationTrain ++ out.confirmationDev,
    r ∈ rows ∧ Confirmed args.piTraceField r
  size_smoke : out.smoke.length =
    min args.smoke (rows.countP (FrontierEligible nums args out.relaxedRule))
  size_mvpTrain : out.mvpTrain.length =
    min args.mvpTrain (rows.countP (FrontierEligible nums args out.relaxedRule))
  size_matchedDev : out.matchedDev.length = min args.matchedDev
    (rows.countP (FrontierEligible nums args out.relaxedRule) - args.mvpTrain)
  size_confirmationTrain : out.confirmationTrain.length = min args.confirmationTrain
    (rows.countP fun r => decide (LeftForConfirmation args out r))
  size_confirmationDev : out.confirmationDev.length = min args.confirmationDev
    ((rows.countP fun r => decide (LeftForConfirmation args out r)) - args.confirmationTrain)

section splits
variable {nums : PyNumbers} {args : FrontierArgs} {rows : List Row} {out : FrontierOutput}

theorem usedId_eq_ok {row : Row} {id : Json.HashKey} (h : usedId row = .ok id) :
    rowId row = .ok id := by
  unfold usedId Row.getItem at h
  unfold rowId Row.get
  cases hget : row.get? idField with
  | none =>
      rw [hget] at h
      cases h
  | some v =>
      rw [hget] at h
      exact h

/-- The used ids are those of train and dev. -/
theorem mem_usedIds_iff {used : List Row} {usedIds : List Json.HashKey}
    (h : used.mapM usedId = .ok usedIds) {id : Json.HashKey} :
    id ∈ usedIds ↔ ∃ r ∈ used, rowId r = .ok id := by
  have hall := Checked.mapM_eq_ok_iff.mp h
  constructor
  · intro hmem
    obtain ⟨r, hr, hid⟩ := Checked.exists_of_forall₂ hall.flip hmem
    exact ⟨r, hr, usedId_eq_ok hid⟩
  · rintro ⟨r, hr, hid⟩
    obtain ⟨id', hmem, hused⟩ := Checked.exists_of_forall₂ hall hr
    rw [usedId_eq_ok hused] at hid
    rwa [← Except.ok.inj hid]

theorem passes_inConfirmationPool_iff {usedIds : List Json.HashKey} {row : Row}
    {b : Bool} (h : inConfirmationPool args.piTraceField usedIds row = .ok b) :
    ∃ id, rowId row = .ok id ∧ (b = true ↔ id ∉ usedIds ∧ Confirmed args.piTraceField row) := by
  obtain ⟨id, hid, h⟩ := Checked.bind_eq_ok_iff.mp h
  refine ⟨id, hid, ?_⟩
  rw [← Except.ok.inj h]
  simp [Confirmed, and_assoc]

/-- The two pools of a run and the pieces cut from their shuffles. -/
theorem buildFrontier_eq_ok (h : buildFrontier nums args rows = .ok out) :
    ∃ (p : Row → Bool) (frontier pool : List Row),
      (∀ r ∈ rows, p r = true ↔ LeftForConfirmation args out r) ∧
      frontier = shuffle args.shuffleFrontier
        (rows.filter (FrontierEligible nums args out.relaxedRule)) ∧
      pool = shuffle args.shufflePool (rows.filter p) ∧
      out.smoke = frontier.take args.smoke ∧ out.mvpTrain = frontier.take args.mvpTrain ∧
      out.matchedDev = (frontier.drop args.mvpTrain).take args.matchedDev ∧
      out.confirmationTrain = pool.take args.confirmationTrain ∧
      out.confirmationDev = (pool.drop args.confirmationTrain).take args.confirmationDev := by
  obtain ⟨strict, hstrict, h⟩ := Checked.bind_eq_ok_iff.mp h
  obtain ⟨relaxed, hrelaxed, h⟩ := Checked.bind_eq_ok_iff.mp h
  obtain ⟨usedIds, hused, h⟩ := Checked.bind_eq_ok_iff.mp h
  obtain ⟨pool, hpool, h⟩ := Checked.bind_eq_ok_iff.mp h
  obtain ⟨-, rfl⟩ := Checked.keep_eq_ok_iff.mp hstrict
  obtain ⟨-, rfl⟩ := Checked.keep_eq_ok_iff.mp hrelaxed
  obtain ⟨hids, rfl⟩ := Checked.keep_eq_ok_iff.mp hpool
  rw [← Except.ok.inj h]
  clear h
  set relaxedRule := decide ((rows.filter (Checked.Passes
    (eligibleFrontier nums false args.piTraceField))).length < args.mvpTrain + args.matchedDev)
  have hfrontier : (if relaxedRule = true then
      rows.filter (Checked.Passes (eligibleFrontier nums true args.piTraceField))
      else rows.filter (Checked.Passes (eligibleFrontier nums false args.piTraceField))) =
        rows.filter (FrontierEligible nums args relaxedRule) := by
    cases relaxedRule <;> rfl
  rw [hfrontier] at hused ⊢
  refine ⟨_, _, _, ?_, rfl, rfl, rfl, rfl, rfl, rfl, rfl⟩
  intro r hr
  obtain ⟨b, hb⟩ := hids r hr
  obtain ⟨id, hid, hiff⟩ := passes_inConfirmationPool_iff hb
  unfold LeftForConfirmation Checked.Passes
  rw [hb]
  show b = true ↔ _
  rw [hiff, mem_usedIds_iff hused, and_comm]
  refine and_congr_right fun _ => ?_
  constructor
  · intro hnot used hmem heq
    exact hnot ⟨used, hmem, heq.trans hid⟩
  · rintro hne ⟨used, hmem, heq⟩
    exact hne used hmem (heq.trans hid.symm)

/-- What `main` reads of a row: rates that are numbers and an id that a set can hold. -/
def HasSplitFields (nums : PyNumbers) (row : Row) : Prop :=
  HasRates nums row ∧ ∃ id, usedId row = .ok id

theorem exists_buildFrontier (h : ∀ r ∈ rows, HasSplitFields nums r) (args : FrontierArgs) :
    ∃ out, buildFrontier nums args rows = .ok out := by
  have hkeep : ∀ relaxed, ∃ kept,
      Checked.keep (eligibleFrontier nums relaxed args.piTraceField) rows = .ok kept ∧
        kept = rows.filter (FrontierEligible nums args relaxed) := by
    intro relaxed
    refine ⟨_, Checked.keep_eq_ok_iff.mpr ⟨fun r hr => ?_, rfl⟩, rfl⟩
    obtain ⟨⟨pPlain, pPi, hplain, hpi⟩, -⟩ := h r hr
    exact ⟨_, eligibleFrontier_eq hplain hpi⟩
  obtain ⟨strict, hstrict, hs⟩ := hkeep false
  obtain ⟨relaxed, hrelaxed, hr⟩ := hkeep true
  unfold buildFrontier
  rw [hstrict, hrelaxed]
  simp only [bind, Except.bind]
  generalize hfrontier : (if decide (strict.length < args.mvpTrain + args.matchedDev) = true
    then relaxed else strict) = base
  have hbase : ∀ r ∈ shuffle args.shuffleFrontier base, r ∈ rows := by
    intro r hmem
    have hmem := (shuffle_perm args.shuffleFrontier base).mem_iff.mp hmem
    rw [← hfrontier, hs, hr] at hmem
    split at hmem
    · exact (List.mem_filter.mp hmem).1
    · exact (List.mem_filter.mp hmem).1
  have hused : ∀ r ∈ (shuffle args.shuffleFrontier base).take args.mvpTrain ++
      ((shuffle args.shuffleFrontier base).drop args.mvpTrain).take args.matchedDev,
      ∃ id, usedId r = .ok id ∧ True := by
    intro r hmem
    have hrow : r ∈ rows := hbase r (mem_of_mem_consecutive hmem)
    obtain ⟨-, id, hid⟩ := h r hrow
    exact ⟨id, hid, trivial⟩
  obtain ⟨usedIds, hids, -⟩ := Checked.exists_mapM_eq_ok hused
  rw [hids]
  have hpool : ∀ r ∈ rows, ∃ b, inConfirmationPool args.piTraceField usedIds r = .ok b := by
    intro r hrow
    obtain ⟨-, id, hid⟩ := h r hrow
    have hid : (Row.get idField r).hashKey = .ok id := usedId_eq_ok hid
    unfold inConfirmationPool
    rw [hid]
    exact ⟨_, rfl⟩
  simp only [Checked.keep_eq_ok_iff.mpr ⟨hpool, rfl⟩]
  exact ⟨_, rfl⟩

end splits

/-- **Frontier splits are disjoint, eligible and full.**  What is returned for rows with distinct
ids keeps all promises, and rows with the fields that are read are split. -/
theorem buildFrontier_splits (nums : PyNumbers) (args : FrontierArgs) {rows : List Row}
    (hid : (rows.map rowId).Nodup) (hsmoke : args.smoke ≤ args.mvpTrain) :
    (∀ out, buildFrontier nums args rows = .ok out → FrontierSplits nums args rows out) ∧
    ((∀ r ∈ rows, HasSplitFields nums r) → ∃ out, buildFrontier nums args rows = .ok out) := by
  classical
  refine ⟨fun out h => ?_, fun h => exists_buildFrontier h args⟩
  obtain ⟨p, frontier, pool, hp, hfrontier, hpool, h₁, h₂, h₃, h₄, h₅⟩ := buildFrontier_eq_ok h
  have hfrontierIds : (frontier.map rowId).Nodup := by
    rw [hfrontier]
    exact nodup_shuffle_filter _ _ hid
  have hpoolIds : (pool.map rowId).Nodup := by
    rw [hpool]
    exact nodup_shuffle_filter _ _ hid
  have hfrontierMem : ∀ r ∈ out.mvpTrain ++ out.matchedDev, r ∈ frontier := by
    intro r hr
    rw [h₂, h₃] at hr
    exact mem_of_mem_consecutive hr
  have hpoolMem : ∀ r ∈ out.confirmationTrain ++ out.confirmationDev,
      r ∈ rows ∧ LeftForConfirmation args out r := by
    intro r hr
    have hr : r ∈ pool := by
      rw [h₄, h₅] at hr
      exact mem_of_mem_consecutive hr
    rw [hpool] at hr
    obtain ⟨hrow, hpass⟩ := mem_filter_of_mem_shuffle hr
    exact ⟨hrow, (hp r hrow).mp hpass⟩
  have hfrontierLength : frontier.length =
      rows.countP (FrontierEligible nums args out.relaxedRule) := by
    rw [hfrontier, length_shuffle, List.countP_eq_length_filter]
  have hpoolLength : pool.length =
      rows.countP fun r => decide (LeftForConfirmation args out r) := by
    rw [hpool, length_shuffle, ← List.countP_eq_length_filter]
    refine List.countP_congr fun r hr => ?_
    rw [hp r hr, decide_eq_true_iff]
  refine ⟨?_, ?_, ?_, ?_, ?_, ?_, ?_, ?_, ?_, ?_, ?_, ?_⟩
  · intro r hr s hs
    rw [h₂] at hr
    rw [h₃] at hs
    exact ne_of_consecutive hfrontierIds hr hs
  · intro r hr s hs
    rw [h₄] at hr
    rw [h₅] at hs
    exact ne_of_consecutive hpoolIds hr hs
  · intro r hr s hs heq
    exact (hpoolMem r hr).2.2 s hs heq.symm
  · intro r hr
    rw [h₁] at hr
    rw [h₂]
    exact (List.take_sublist_take_left hsmoke).subset hr
  · intro r hr
    have hr := hfrontierMem r hr
    rw [hfrontier] at hr
    exact mem_filter_of_mem_shuffle hr
  · intro r _ hstrict
    have hok := Checked.passes_eq_true_iff.mp hstrict
    exact Checked.passes_eq_true_iff.mpr (eligibleFrontier_relaxed hok)
  · intro r hr
    exact ⟨(hpoolMem r hr).1, (hpoolMem r hr).2.1⟩
  · rw [h₁, List.length_take, hfrontierLength]
  · rw [h₂, List.length_take, hfrontierLength]
  · rw [h₃, List.length_take, List.length_drop, hfrontierLength]
  · rw [h₄, List.length_take, hpoolLength]
  · rw [h₅, List.length_take, List.length_drop, hpoolLength]

/-- A verified row that the student solves once in four runs and with its trace always. -/
def frontierRow (id : String) : Row :=
  [("id".toList, .str id.toList), ("p_plain".toList, .float (.fin (1 / 4))),
    ("p_PI".toList, .float (.fin 1)), ("pi_trace".toList, .str "trace".toList),
    ("pi_verified".toList, .bool true)]

theorem hasSplitFields_frontierRow (nums : PyNumbers) (id : String) :
    HasSplitFields nums (frontierRow id) := by
  refine ⟨⟨.fin (1 / 4), .fin 1, ?_, ?_⟩, .str id.toList, rfl⟩
  · simp [plainRate, floatOrZero, frontierRow, Row.getD, Row.get?, Json.truthy, PyFloat.truthy,
      Json.toFloat]
  · simp [piRate, floatOrZero, frontierRow, Row.getD, Row.get?, Json.truthy, PyFloat.truthy,
      Json.toFloat]

/-- Three rows for a train row, a dev row and a confirmation row. -/
theorem buildFrontier_splits_three :
    let nums : PyNumbers := ⟨.exact, fun _ => none⟩
    let args : FrontierArgs := ⟨1, 1, 1, 1, 1, "pi_trace".toList, fun _ => 1, fun _ => 1⟩
    let rows := [frontierRow "a", frontierRow "b", frontierRow "c"]
    ∃ out, buildFrontier nums args rows = .ok out ∧ FrontierSplits nums args rows out := by
  intro nums args rows
  have hsplits := buildFrontier_splits nums args (show (rows.map rowId).Nodup by decide)
    (show args.smoke ≤ args.mvpTrain from le_refl 1)
  obtain ⟨out, hout⟩ := hsplits.2 (by
    intro r hr
    simp only [rows, List.mem_cons, List.not_mem_nil, or_false] at hr
    rcases hr with rfl | rfl | rfl
    · exact hasSplitFields_frontierRow nums "a"
    · exact hasSplitFields_frontierRow nums "b"
    · exact hasSplitFields_frontierRow nums "c")
  exact ⟨out, hout, hsplits.1 out hout⟩

end ExtpiRlsd
