import ExtpiRlsd.Lib.Ranking
import ExtpiRlsd.MetricLog
import ExtpiRlsd.SummaryCsv

/-! # The best runs of a summary CSV

`cmd_select_top` of `hparam_matrix.py` sorts the clean rows of the summary by their ranking score
and prints the run of each of the first `top_k` rows.  The summary holds a row for every run and
checkpoint, so a run with two good checkpoints is printed twice.  `cmdSelectTop_bestRuns_iff` says
for which summaries the printed ids are the best runs.

`list.sort` is a parameter: a permutation in any case, and a stable descending sort as long as no
key is NaN, since its order is unspecified on keys that do not compare. -/

namespace ExtpiRlsd

open PyText PyData KeyedStore

/-! ### The command -/

/-- `rows.sort(key=.., reverse=True)` on rows with their keys. -/
structure DescendingSort where
  sort : List (PyFloat × Row) → List (PyFloat × Row)
  perm : ∀ xs, (sort xs).Perm xs
  stable : ∀ xs, (∀ x ∈ xs, x.1 ≠ .nan) → sort xs = xs.mergeSort fun a b => b.1.le a.1

def hardGateField : PyStr := "hard_gate_violation".toList
def vetoField : PyStr := "selection_veto".toList
def rankingField : PyStr := "ranking_score".toList
def proxyField : PyStr := "ProxyScore".toList

section command
variable {Text : Type} (fmt : FloatFormat) (parse : PyStr → Option PyFloat) (sort : DescendingSort)
  (codec : CsvCodec Text) (p : Json.Printer)

/-- `not row.get("hard_gate_violation") and not row.get("selection_veto")`. -/
def isEligible (row : Row) : Bool :=
  !(row.get hardGateField).truthy && !(row.get vetoField).truthy

/-- `float(row.get("ranking_score") or row.get("ProxyScore") or 0.0)`. -/
def rankingKey (row : Row) : Except PyError PyFloat :=
  let ranking := row.get rankingField
  let proxy := row.get proxyField
  let score := if ranking.truthy then ranking
    else if proxy.truthy then proxy
    else .float (.fin 0)
  score.toFloat fmt parse

/-- `cmd_select_top` for a non-negative `top_k`: the printed lines. -/
def cmdSelectTop (summaryCsv : Text) (topK : ℕ) : Except PyError (List PyStr) := do
  let rows := dictReader (codec.read summaryCsv)
  let eligible := rows.filter isEligible
  let keyed ← eligible.mapM fun row => do
    let key ← rankingKey fmt parse row
    return (key, row)
  let ranked := sort.sort keyed
  (ranked.take topK).mapM fun entry => do
    let runId ← entry.2.getItem runIdField
    return runId.toStr p

end command

/-! ### The best runs -/

/-- The cell of a field in a row of the file. -/
def cellOf (field : PyStr) (cells : List PyStr) : PyStr :=
  cells.getD (summaryFields.idxOf field) []

def runOf (cells : List PyStr) : PyStr := cellOf runIdField cells

/-- The row has no violation of a hard gate and no veto. -/
def isClean (cells : List PyStr) : Bool :=
  (cellOf hardGateField cells).isEmpty && (cellOf vetoField cells).isEmpty

/-- The clean rows of the file. -/
def cleanRows (table : List (List PyStr)) : List (List PyStr) := table.filter isClean

section scores
variable (parse : PyStr → Option PyFloat)

/-- The ranking score of a row of the file. -/
def scoreOf (cells : List PyStr) : PyFloat := (parse (cellOf rankingField cells)).getD .nan

/-- The score exceeds the best score of a run among some rows. -/
def ExceedsRun (clean : List (List PyStr)) (runId : PyStr) (score : PyFloat) : Prop :=
  ∀ cells ∈ clean, runOf cells = runId → (scoreOf parse cells).lt score = true

/-- The ids are at most `topK` different runs with clean rows: all of them, or the best. -/
structure BestRuns (clean : List (List PyStr)) (topK : ℕ) (ids : List PyStr) : Prop where
  length : ids.length ≤ topK
  nodup : ids.Nodup
  printed : ∀ runId ∈ ids, ∃ cells ∈ clean, runOf cells = runId
  complete : ids.length < topK → ∀ cells ∈ clean, runOf cells ∈ ids
  best : ∀ cells ∈ clean, runOf cells ∉ ids → ∀ runId ∈ ids,
    ¬ ExceedsRun parse clean runId (scoreOf parse cells)

/-- The row is at least as good as the other. -/
def atLeastAsGood (a b : List PyStr) : Bool := (scoreOf parse b).le (scoreOf parse a)

/-- No two clean rows of one run are among the best `topK`: fewer than `topK` rows have a greater
score than the row, or its score at an earlier place. -/
def DistinctBest (clean : List (List PyStr)) (topK : ℕ) : Prop :=
  ∀ a ∈ clean.zipIdx, ∀ b ∈ clean.zipIdx, a.2 ≠ b.2 →
    Ranking.rank (atLeastAsGood parse) clean a < topK →
      Ranking.rank (atLeastAsGood parse) clean b < topK → runOf a.1 ≠ runOf b.1

/-- Every order of the clean rows has good runs in front: no run has two clean rows, and none
exceeds another, as far as `topK` lets that matter. -/
def AnyOrderGood (clean : List (List PyStr)) (topK : ℕ) : Prop :=
  (2 ≤ topK → (clean.map runOf).Nodup) ∧
    (1 ≤ topK → topK < clean.length → ∀ cells ∈ clean, ∀ other ∈ clean,
      runOf other ≠ runOf cells → ¬ ExceedsRun parse clean (runOf other) (scoreOf parse cells))

/-- When the best runs are printed: without a NaN the best `topK` clean rows are of different
runs; with one, any order of the clean rows must do. -/
def SelectsRuns (clean : List (List PyStr)) (topK : ℕ) : Prop :=
  ((∀ cells ∈ clean, scoreOf parse cells ≠ .nan) → DistinctBest parse clean topK) ∧
    ((∃ cells ∈ clean, scoreOf parse cells = .nan) → AnyOrderGood parse clean topK)

end scores

/-! ### Rows of the file -/

theorem get?_zip {fields cells : List PyStr} (hlength : cells.length = fields.length)
    {field : PyStr} (h : field ∈ fields) :
    Row.get? field (fields.zip (cells.map Json.str)) =
      some (.str (cells.getD (fields.idxOf field) [])) := by
  induction fields generalizing cells with
  | nil => cases h
  | cons other fields ih => cases cells with
    | nil => cases hlength
    | cons cell cells =>
        rw [List.map_cons, List.zip_cons_cons, Row.get?]
        by_cases heq : other = field
        · rw [if_pos heq, heq, List.idxOf_cons_self]
          rfl
        · rw [if_neg heq, List.idxOf_cons_ne _ heq,
            ih (Nat.succ.inj hlength) ((List.mem_cons.mp h).resolve_left (Ne.symm heq))]
          rfl

/-- A row of the file as `csv.DictReader` gives it. -/
def storedRow (cells : List PyStr) : Row := summaryFields.zip (cells.map Json.str)

theorem get?_storedRow {cells : List PyStr} (h : IsStored cells) {field : PyStr}
    (hfield : field ∈ summaryFields) :
    Row.get? field (storedRow cells) = some (.str (cellOf field cells)) :=
  get?_zip h hfield

theorem get_storedRow {cells : List PyStr} (h : IsStored cells) {field : PyStr}
    (hfield : field ∈ summaryFields) :
    Row.get field (storedRow cells) = .str (cellOf field cells) :=
  Row.get_of_get? (get?_storedRow h hfield)

theorem isEligible_storedRow {cells : List PyStr} (h : IsStored cells) :
    isEligible (storedRow cells) = isClean cells := by
  rw [isEligible, get_storedRow h (by decide), get_storedRow h (by decide), isClean]
  simp [Json.truthy]

/-- A row whose ranking score is read back as a float. -/
structure Scored (parse : PyStr → Option PyFloat) (cells : List PyStr) : Prop where
  stored : IsStored cells
  score : ∃ x, parse (cellOf rankingField cells) = some x

theorem Scored.parse_eq {parse : PyStr → Option PyFloat} {cells : List PyStr}
    (h : Scored parse cells) : parse (cellOf rankingField cells) = some (scoreOf parse cells) := by
  obtain ⟨x, hx⟩ := h.score
  rw [scoreOf, hx]
  rfl

theorem rankingKey_storedRow {fmt : FloatFormat} {parse : PyStr → Option PyFloat}
    (hempty : parse [] = none) {cells : List PyStr} (h : Scored parse cells) :
    rankingKey fmt parse (storedRow cells) = .ok (scoreOf parse cells) := by
  have hparse := h.parse_eq
  have hne : cellOf rankingField cells ≠ [] := by
    intro hnil
    rw [hnil, hempty] at hparse
    cases hparse
  have htruthy : (Json.str (cellOf rankingField cells)).truthy = true := by
    rw [Json.truthy, Bool.not_eq_true', List.isEmpty_eq_false_iff]
    exact hne
  simp only [rankingKey, get_storedRow h.stored (by decide : rankingField ∈ summaryFields),
    htruthy, if_true, Json.toFloat, hparse]

/-! ### What is printed -/

section printed
variable {Text : Type} {fmt : FloatFormat} {parse : PyStr → Option PyFloat} {codec : CsvCodec Text}
  {p : Json.Printer} {table : List (List PyStr)}

/-- The clean rows with their keys. -/
def keyedRow (parse : PyStr → Option PyFloat) (cells : List PyStr) : PyFloat × Row :=
  (scoreOf parse cells, storedRow cells)

theorem mem_of_mem_cleanRows {cells : List PyStr} (h : cells ∈ cleanRows table) : cells ∈ table :=
  (List.mem_filter.mp h).1

/-- The command prints the runs of the first rows of some order of the clean rows. -/
theorem cmdSelectTop_of_order (hempty : parse [] = none)
    (hscored : ∀ cells ∈ table, Scored parse cells) {sort : DescendingSort}
    {order : List (List PyStr)} (hperm : order.Perm (cleanRows table))
    (horder : sort.sort ((cleanRows table).map (keyedRow parse)) = order.map (keyedRow parse))
    (topK : ℕ) :
    cmdSelectTop fmt parse sort codec p (codec.write (summaryFields :: table)) topK =
      .ok ((order.take topK).map runOf) := by
  have heligible : (table.map storedRow).filter isEligible =
      (cleanRows table).map storedRow := by
    rw [List.filter_map, cleanRows]
    congr 1
    apply List.filter_congr
    intro cells hcells
    exact isEligible_storedRow (hscored cells hcells).stored
  have hkeyed : ((cleanRows table).map storedRow).mapM (fun row => do
      let key ← rankingKey fmt parse row
      return (key, row)) = .ok ((cleanRows table).map (keyedRow parse)) := by
    rw [Checked.mapM_eq_ok_iff, List.forall₂_map_left_iff, List.forall₂_map_right_iff,
      List.forall₂_same]
    intro cells hcells
    rw [rankingKey_storedRow hempty (hscored cells (mem_of_mem_cleanRows hcells))]
    rfl
  have hprinted : ((order.take topK).map (keyedRow parse)).mapM (fun entry => do
      let runId ← entry.2.getItem runIdField
      return runId.toStr p) = (.ok ((order.take topK).map runOf) : Except PyError _) := by
    rw [Checked.mapM_eq_ok_iff, List.forall₂_map_left_iff, List.forall₂_map_right_iff,
      List.forall₂_same]
    intro cells hcells
    have hclean := hperm.mem_iff.mp (List.mem_of_mem_take hcells)
    have hrun : Row.getItem runIdField (keyedRow parse cells).2 = .ok (.str (runOf cells)) :=
      Row.getItem_eq_ok_iff.mpr (get?_storedRow
        (hscored cells (mem_of_mem_cleanRows hclean)).stored (by decide))
    rw [hrun]
    exact congrArg Except.ok (Json.toStr_str p _)
  have hread : dictReader (codec.read (codec.write (summaryFields :: table))) =
      table.map storedRow := by
    rw [codec.read_write]
    rfl
  simp only [cmdSelectTop, hread, heligible, bind, Except.bind] at hkeyed hprinted ⊢
  rw [hkeyed]
  simp only [horder, ← List.map_take, hprinted]

/-- A sort that does what is documented of it, with a given result on one list. -/
theorem exists_sort {xs ys : List (PyFloat × Row)} (hperm : ys.Perm xs)
    (hstable : (∀ x ∈ xs, x.1 ≠ .nan) → ys = xs.mergeSort fun a b => b.1.le a.1) :
    ∃ sort : DescendingSort, sort.sort xs = ys := by
  classical
  refine ⟨⟨fun zs => if zs = xs then ys else if ∀ z ∈ zs, z.1 ≠ .nan then
    zs.mergeSort fun a b => b.1.le a.1 else zs, ?_, ?_⟩, if_pos rfl⟩
  · intro zs
    by_cases hzs : zs = xs
    · rw [if_pos hzs, hzs]
      exact hperm
    · rw [if_neg hzs]
      split
      · exact List.mergeSort_perm _ _
      · exact List.Perm.refl _
  · intro zs hcompare
    by_cases hzs : zs = xs
    · subst hzs
      rw [if_pos rfl]
      exact hstable hcompare
    · rw [if_neg hzs, if_pos hcompare]

/-- Rows sorted with their keys are the rows sorted by their scores. -/
theorem map_keyedRow_mergeSort (clean : List (List PyStr)) :
    (clean.mergeSort (atLeastAsGood parse)).map (keyedRow parse) =
      (clean.map (keyedRow parse)).mergeSort fun a b => b.1.le a.1 := by
  apply List.map_mergeSort
  intro a _ b _
  rfl

/-- Whatever the sort, the clean rows come in some order, without a NaN in the stable one. -/
theorem exists_order (sort : DescendingSort) (clean : List (List PyStr)) :
    ∃ order, order.Perm clean ∧
      sort.sort (clean.map (keyedRow parse)) = order.map (keyedRow parse) ∧
      ((∀ cells ∈ clean, scoreOf parse cells ≠ .nan) →
        order = clean.mergeSort (atLeastAsGood parse)) := by
  by_cases hnan : ∀ cells ∈ clean, scoreOf parse cells ≠ .nan
  · refine ⟨clean.mergeSort (atLeastAsGood parse), List.mergeSort_perm _ _, ?_, fun _ => rfl⟩
    rw [map_keyedRow_mergeSort]
    apply sort.stable
    intro x hx
    obtain ⟨cells, hcells, rfl⟩ := List.mem_map.mp hx
    exact hnan cells hcells
  · have hforall : List.Forall₂ (fun x cells => x = keyedRow parse cells)
        (clean.map (keyedRow parse)) clean := by
      rw [List.forall₂_map_left_iff, List.forall₂_same]
      intro cells _
      rfl
    obtain ⟨order, hsorted, hperm⟩ :=
      List.perm_comp_forall₂ (sort.perm (clean.map (keyedRow parse))) hforall
    refine ⟨order, hperm, ?_, fun h => absurd h hnan⟩
    clear hperm
    generalize sort.sort (clean.map (keyedRow parse)) = sorted at hsorted ⊢
    induction hsorted with
    | nil => rfl
    | cons hx _ ih => rw [hx, ih, List.map_cons]

end printed

/-! ### Comparable scores -/

/-- The order of the floats with NaN at the bottom. -/
def totalLe (x y : PyFloat) : Bool := decide (x = .nan) || x.le y

theorem totalLe_total (x y : PyFloat) : (totalLe x y || totalLe y x) = true := by
  cases x <;> cases y <;> simp [totalLe, PyFloat.le, le_total]

theorem totalLe_trans (x y z : PyFloat) (hxy : totalLe x y = true) (hyz : totalLe y z = true) :
    totalLe x z = true := by
  cases x <;> cases y <;> cases z <;> simp_all [totalLe, PyFloat.le]
  exact le_trans hxy hyz

theorem totalLe_eq_le {x : PyFloat} (h : x ≠ .nan) (y : PyFloat) : totalLe x y = x.le y := by
  rw [totalLe, decide_eq_false h, Bool.false_or]

theorem lt_eq_false_of_le {x y : PyFloat} (h : x.le y = true) : y.lt x = false := by
  cases x <;> cases y <;> simp_all [PyFloat.le, PyFloat.lt]

section comparable
variable {parse : PyStr → Option PyFloat} {clean : List (List PyStr)} {topK : ℕ}

/-- The order of the rows, with NaN at the end. -/
def totalOrder (parse : PyStr → Option PyFloat) (a b : List PyStr) : Bool :=
  totalLe (scoreOf parse b) (scoreOf parse a)

theorem totalOrder_trans (a b c : List PyStr) (hab : totalOrder parse a b = true)
    (hbc : totalOrder parse b c = true) : totalOrder parse a c = true :=
  totalLe_trans _ _ _ hbc hab

theorem totalOrder_total (a b : List PyStr) :
    (totalOrder parse a b || totalOrder parse b a) = true :=
  totalLe_total _ _

theorem mergeSort_totalOrder (h : ∀ cells ∈ clean, scoreOf parse cells ≠ .nan) :
    clean.mergeSort (atLeastAsGood parse) = clean.mergeSort (totalOrder parse) := by
  have hmap := List.map_mergeSort (r := atLeastAsGood parse) (s := totalOrder parse) (f := id)
    (l := clean) (by
      intro a _ b hb
      exact (totalLe_eq_le (h b hb) _).symm)
  rw [List.map_id, List.map_id] at hmap
  exact hmap

theorem rank_totalOrder (h : ∀ cells ∈ clean, scoreOf parse cells ≠ .nan) {x : List PyStr × ℕ}
    (hx : x ∈ clean.zipIdx) :
    Ranking.rank (atLeastAsGood parse) clean x = Ranking.rank (totalOrder parse) clean x := by
  apply List.countP_congr
  intro y hy
  have hscore : ∀ z ∈ clean.zipIdx, scoreOf parse z.1 ≠ .nan := by
    intro z hz
    exact h z.1 (List.fst_mem_of_mem_zipIdx hz)
  rw [Ranking.precedes, Ranking.precedes, totalOrder, totalOrder, totalLe_eq_le (hscore x hx),
    totalLe_eq_le (hscore y hy)]
  rfl

/-- The best rows are of different runs exactly when no two of one run rank below `topK`. -/
theorem nodup_best_iff (h : ∀ cells ∈ clean, scoreOf parse cells ≠ .nan) :
    (((clean.mergeSort (atLeastAsGood parse)).take topK).map runOf).Nodup ↔
      DistinctBest parse clean topK := by
  rw [mergeSort_totalOrder h,
    Ranking.nodup_map_take_mergeSort runOf totalOrder_trans totalOrder_total]
  constructor
  · intro hdistinct a ha b hb hne hrankA hrankB
    rw [rank_totalOrder h ha] at hrankA
    rw [rank_totalOrder h hb] at hrankB
    exact hdistinct a ha b hb hne hrankA hrankB
  · intro hdistinct a ha b hb hne hrankA hrankB
    rw [← rank_totalOrder h ha] at hrankA
    rw [← rank_totalOrder h hb] at hrankB
    exact hdistinct a ha b hb hne hrankA hrankB

/-- The runs of the first rows of an order are the best runs if they are different and no row
behind exceeds one of them. -/
theorem bestRuns_of_nodup {order : List (List PyStr)} (hperm : order.Perm clean)
    (hnodup : ((order.take topK).map runOf).Nodup)
    (hbest : topK < clean.length → ∀ kept ∈ order.take topK, ∀ cells ∈ clean,
      runOf cells ∉ (order.take topK).map runOf →
        ¬ ExceedsRun parse clean (runOf kept) (scoreOf parse cells)) :
    BestRuns parse clean topK ((order.take topK).map runOf) := by
  have hall : clean.length ≤ topK → ∀ cells ∈ clean, runOf cells ∈ (order.take topK).map runOf := by
    intro hle cells hcells
    rw [List.take_of_length_le (hperm.length_eq ▸ hle)]
    exact List.mem_map_of_mem (hperm.mem_iff.mpr hcells)
  refine ⟨?_, hnodup, ?_, ?_, ?_⟩
  · rw [List.length_map]
    exact List.length_take_le _ _
  · intro runId hrun
    obtain ⟨cells, hcells, rfl⟩ := List.mem_map.mp hrun
    exact ⟨cells, hperm.mem_iff.mp (List.mem_of_mem_take hcells), rfl⟩
  · intro hfew
    rw [List.length_map, List.length_take, hperm.length_eq] at hfew
    exact hall (by omega)
  · intro cells hcells hnot runId hrun
    obtain ⟨kept, hkept, rfl⟩ := List.mem_map.mp hrun
    by_cases hle : clean.length ≤ topK
    · exact absurd (hall hle cells hcells) hnot
    · exact hbest (by omega) kept hkept cells hcells hnot

/-- **Comparable scores**: the runs of the best rows are the best runs exactly when they are
different. -/
theorem bestRuns_iff_of_comparable (h : ∀ cells ∈ clean, scoreOf parse cells ≠ .nan) :
    BestRuns parse clean topK
        (((clean.mergeSort (atLeastAsGood parse)).take topK).map runOf) ↔
      DistinctBest parse clean topK := by
  rw [← nodup_best_iff h]
  constructor
  · intro hbest
    exact hbest.nodup
  · intro hnodup
    apply bestRuns_of_nodup (List.mergeSort_perm _ _) hnodup
    intro _ kept hkept cells hcells hnot hexceeds
    have hmem : kept ∈ clean := List.mem_mergeSort.mp (List.mem_of_mem_take hkept)
    have hleft : cells ∉ (clean.mergeSort (atLeastAsGood parse)).take topK := by
      intro hcut
      exact hnot (List.mem_map_of_mem hcut)
    rw [mergeSort_totalOrder h] at hkept hleft
    have hle := Ranking.le_of_not_mem_take_mergeSort totalOrder_trans totalOrder_total hkept
      hcells hleft
    rw [totalOrder, totalLe_eq_le (h cells hcells)] at hle
    have hlt := hexceeds kept hmem rfl
    rw [lt_eq_false_of_le hle] at hlt
    exact Bool.false_ne_true hlt

/-! ### Any order -/

theorem nodup_of_length_le_one {α : Type*} {l : List α} (h : l.length ≤ 1) : l.Nodup := by
  match l, h with
  | [], _ => exact List.nodup_nil
  | [x], _ => exact List.nodup_singleton x

/-- Two clean rows of one run can be put in front. -/
theorem nodup_runs_of_anyOrder (htwo : 2 ≤ topK)
    (h : ∀ order : List (List PyStr), order.Perm clean → ((order.take topK).map runOf).Nodup) :
    (clean.map runOf).Nodup := by
  by_contra hdup
  obtain ⟨runId, hdup⟩ := List.exists_duplicate_iff_not_nodup.mpr hdup
  obtain ⟨pair, hsub, hpair⟩ := List.sublist_map_iff.mp (List.duplicate_iff_sublist.mp hdup)
  obtain ⟨rest, hrest⟩ := hsub.exists_perm_append
  obtain ⟨a, b, rfl⟩ : ∃ a b, pair = [a, b] := by
    match pair, congrArg List.length hpair with
    | [a, b], _ => exact ⟨a, b, rfl⟩
  obtain ⟨k, rfl⟩ : ∃ k, topK = k + 2 := ⟨topK - 2, by omega⟩
  have hnodup := h _ hrest.symm
  rw [List.map_cons, List.map_cons, List.map_nil, List.cons.injEq, List.cons.injEq] at hpair
  rw [List.cons_append, List.cons_append, List.take_succ_cons, List.take_succ_cons, List.map_cons,
    List.map_cons, ← hpair.1, ← hpair.2.1] at hnodup
  exact (List.nodup_cons.mp hnodup).1 List.mem_cons_self

/-- A row that exceeds another run can be left out while that run is kept. -/
theorem not_exceedsRun_of_anyOrder (hruns : 2 ≤ topK → (clean.map runOf).Nodup) (hone : 1 ≤ topK)
    (hmany : topK < clean.length)
    (h : ∀ order : List (List PyStr), order.Perm clean →
      BestRuns parse clean topK ((order.take topK).map runOf))
    {cells other : List PyStr} (hcells : cells ∈ clean) (hother : other ∈ clean)
    (hne : runOf other ≠ runOf cells) :
    ¬ ExceedsRun parse clean (runOf other) (scoreOf parse cells) := by
  have hrow : cells ≠ other := by
    rintro rfl
    exact hne rfl
  obtain ⟨rest, hperm⟩ : ∃ rest, clean.Perm (other :: cells :: rest) :=
    ⟨_, (List.perm_cons_erase hother).trans
      ((List.perm_cons_erase ((List.mem_erase_of_ne hrow).mpr hcells)).cons other)⟩
  have hlength := hperm.length_eq
  rw [List.length_cons, List.length_cons] at hlength
  obtain ⟨k, rfl⟩ : ∃ k, topK = k + 1 := ⟨topK - 1, by omega⟩
  have hbest := h (other :: (rest ++ [cells])) (by
    apply List.Perm.trans _ hperm.symm
    exact (List.perm_append_singleton cells rest).cons other)
  rw [List.take_succ_cons, List.take_append_of_le_length (by omega)] at hbest
  apply hbest.best cells hcells _ _ List.mem_cons_self
  rw [List.map_cons, List.mem_cons, not_or]
  refine ⟨Ne.symm hne, ?_⟩
  intro hrun
  cases k with
  | zero => cases hrun
  | succ k =>
      have hnodup := (hperm.map runOf).nodup_iff.mp (hruns (by omega))
      rw [List.map_cons, List.map_cons, List.nodup_cons, List.nodup_cons] at hnodup
      obtain ⟨kept, hkept, heq⟩ := List.mem_map.mp hrun
      apply hnodup.2.1
      rw [← heq]
      exact List.mem_map_of_mem (List.mem_of_mem_take hkept)

/-- **Any order**: the runs of the first rows are the best runs in every order exactly when no
order can go wrong. -/
theorem bestRuns_iff_of_anyOrder :
    (∀ order : List (List PyStr), order.Perm clean →
      BestRuns parse clean topK ((order.take topK).map runOf)) ↔
      AnyOrderGood parse clean topK := by
  constructor
  · intro h
    have hruns : 2 ≤ topK → (clean.map runOf).Nodup := by
      intro htwo
      exact nodup_runs_of_anyOrder htwo fun order hperm => (h order hperm).nodup
    refine ⟨hruns, ?_⟩
    intro hone hmany cells hcells other hother hne
    exact not_exceedsRun_of_anyOrder hruns hone hmany h hcells hother hne
  · rintro ⟨hruns, hexceeds⟩ order hperm
    apply bestRuns_of_nodup hperm
    · by_cases htwo : 2 ≤ topK
      · rw [List.map_take]
        exact (((hperm.map runOf).nodup_iff.mpr (hruns htwo))).sublist (List.take_sublist _ _)
      · apply nodup_of_length_le_one
        rw [List.length_map, List.length_take]
        omega
    · intro hmany kept hkept cells hcells hnot
      have hone : 1 ≤ topK := by
        by_contra hzero
        obtain rfl : topK = 0 := by omega
        cases hkept
      apply hexceeds hone hmany cells hcells kept (hperm.mem_iff.mp (List.mem_of_mem_take hkept))
      intro heq
      exact hnot (heq ▸ List.mem_map_of_mem hkept)

end comparable

/-! ### Orders of a documented sort -/

section orders
variable {Text : Type} {fmt : FloatFormat} {parse : PyStr → Option PyFloat} {codec : CsvCodec Text}
  {p : Json.Printer}

/-- An order in which a documented sort may leave the rows. -/
structure IsSortedOrder (parse : PyStr → Option PyFloat) (clean order : List (List PyStr)) :
    Prop where
  perm : order.Perm clean
  stable : (∀ cells ∈ clean, scoreOf parse cells ≠ .nan) →
    order = clean.mergeSort (atLeastAsGood parse)

/-- A property of what is printed holds for every documented sort exactly when it holds for every
order that such a sort may leave. -/
theorem forall_sort_iff {table : List (List PyStr)} (hempty : parse [] = none)
    (hscored : ∀ cells ∈ table, Scored parse cells) (topK : ℕ) {P : List PyStr → Prop} :
    (∀ sort : DescendingSort, ∃ ids,
      cmdSelectTop fmt parse sort codec p (codec.write (summaryFields :: table)) topK = .ok ids ∧
        P ids) ↔
      ∀ order, IsSortedOrder parse (cleanRows table) order → P ((order.take topK).map runOf) := by
  constructor
  · intro h order horder
    obtain ⟨sort, hsort⟩ := exists_sort (horder.perm.map (keyedRow parse)) (by
      intro hcompare
      rw [← map_keyedRow_mergeSort, horder.stable]
      intro cells hcells
      exact hcompare _ (List.mem_map_of_mem hcells))
    obtain ⟨ids, hids, hP⟩ := h sort
    rw [cmdSelectTop_of_order hempty hscored horder.perm hsort] at hids
    rw [Except.ok.inj hids]
    exact hP
  · intro h sort
    obtain ⟨order, hperm, hsort, hstable⟩ := exists_order sort (cleanRows table)
    exact ⟨_, cmdSelectTop_of_order hempty hscored hperm hsort topK, h order ⟨hperm, hstable⟩⟩

/-- **The orders that give the best runs.** -/
theorem bestRuns_iff_of_sortedOrder {clean : List (List PyStr)} {topK : ℕ} :
    (∀ order, IsSortedOrder parse clean order →
      BestRuns parse clean topK ((order.take topK).map runOf)) ↔ SelectsRuns parse clean topK := by
  constructor
  · intro h
    refine ⟨?_, ?_⟩
    · intro hcompare
      exact (bestRuns_iff_of_comparable hcompare).mp
        (h _ ⟨List.mergeSort_perm _ _, fun _ => rfl⟩)
    · rintro ⟨cells, hcells, hnan⟩
      apply bestRuns_iff_of_anyOrder.mp
      intro order hperm
      exact h order ⟨hperm, fun hcompare => absurd hnan (hcompare cells hcells)⟩
  · rintro ⟨hcomparable, hany⟩ order horder
    by_cases hnan : ∀ cells ∈ clean, scoreOf parse cells ≠ .nan
    · rw [horder.stable hnan]
      exact (bestRuns_iff_of_comparable hnan).mpr (hcomparable hnan)
    · simp only [not_forall, exists_prop, ne_eq, not_not] at hnan
      exact bestRuns_iff_of_anyOrder.mpr (hany hnan) order horder.perm

end orders

/-! ### Summaries -/

/-- The row is one that `build_summary_row` returns. -/
def IsSummaryRow (ops : FloatOps) (parse : PyStr → Option PyFloat) (p : Json.Printer) (row : Row) :
    Prop :=
  ∃ (Line : Type) (lines : LineCodec Line) (runId : PyStr) (metricsFile : Option (List Line))
    (evalPayload : Row) (baselinePayload : Option Row),
    buildSummaryRow ops parse p lines runId metricsFile evalPayload baselinePayload = .ok row

section summary
variable {Text : Type} {ops : FloatOps} {parse : PyStr → Option PyFloat} {codec : CsvCodec Text}
  {p : Json.Printer} {row : Row}

theorem IsSummaryRow.hasKeys (h : IsSummaryRow ops parse p row) : HasKeys row := by
  obtain ⟨Line, lines, runId, metricsFile, evalPayload, baselinePayload, h⟩ := h
  exact hasKeys_buildSummaryRow h

/-- The ranking score of a summary row is a float. -/
theorem IsSummaryRow.rankingScore (h : IsSummaryRow ops parse p row) :
    ∃ x, Row.get? rankingField row = some (.float x) := by
  obtain ⟨Line, lines, runId, metricsFile, evalPayload, baselinePayload, h⟩ := h
  exact (get?_buildSummaryRow h).2.2

theorem cellOf_render {field : PyStr} (h : field ∈ summaryFields) (row : Row) :
    cellOf field (render p row) = cellText p (row.getD field (.str [])) := by
  have hidx : summaryFields.idxOf field < summaryFields.length := List.idxOf_lt_length_iff.mpr h
  rw [cellOf, render, List.getD_eq_getElem?_getD, List.getElem?_map,
    List.getElem?_eq_getElem hidx, List.getElem_idxOf]
  rfl

/-- The rendering of a summary row has its score as text. -/
theorem scored_render (h : IsSummaryRow ops parse p row)
    (hparse : ∀ x, Row.get? rankingField row = some (.float x) →
      parse (p.floatRepr x) = some x) : Scored parse (render p row) := by
  obtain ⟨x, hx⟩ := h.rankingScore
  refine ⟨isStored_render row, x, ?_⟩
  rw [cellOf_render (by decide), Row.getD_of_get? hx]
  exact hparse x hx

/-- The file after calls with summary rows is a table of scored rows. -/
theorem exists_table {calls : List Row} (hsummary : ∀ row ∈ calls, IsSummaryRow ops parse p row)
    (hparse : ∀ row ∈ calls, ∀ x, Row.get? rankingField row = some (.float x) →
      parse (p.floatRepr x) = some x) {text : Text}
    (hfile : writeCalls codec p calls = .ok (some text)) :
    ∃ table, text = codec.write (summaryFields :: table) ∧
      storedRows codec (some text) = table ∧ ∀ cells ∈ table, Scored parse cells := by
  obtain ⟨file, hwrite, hholds⟩ := holds_writeCalls codec (p := p)
    fun row hrow => (hsummary row hrow).hasKeys
  obtain rfl : some text = file := Except.ok.inj (hfile.symm.trans hwrite)
  refine ⟨_, ?_, hholds.storedRows_eq, ?_⟩
  · rcases hholds.2 with ⟨hnone, -⟩ | htext
    · cases hnone
    · exact Option.some.inj htext
  · intro cells hcells
    obtain ⟨row, hrow, rfl⟩ := List.mem_map.mp (mem_of_mem_foldl_upsert hcells)
    exact scored_render (hsummary row hrow) (hparse row hrow)

/-- **Which summaries give the best runs.**  With every sort that does what is documented of it
the printed ids are the best `topK` different runs, exactly when no two of the best `topK` clean
rows are of one run or, where a score is NaN, any order of the clean rows will do. -/
theorem cmdSelectTop_bestRuns_iff {calls : List Row}
    (hsummary : ∀ row ∈ calls, IsSummaryRow ops parse p row) (hempty : parse [] = none)
    (hparse : ∀ row ∈ calls, ∀ x, Row.get? rankingField row = some (.float x) →
      parse (p.floatRepr x) = some x) {text : Text}
    (hfile : writeCalls codec p calls = .ok (some text)) (topK : ℕ) :
    (∀ sort : DescendingSort, ∃ ids,
      cmdSelectTop ops.fmt parse sort codec p text topK = .ok ids ∧
        BestRuns parse (cleanRows (storedRows codec (some text))) topK ids) ↔
      SelectsRuns parse (cleanRows (storedRows codec (some text))) topK := by
  obtain ⟨table, rfl, htable, hscored⟩ := exists_table hsummary hparse hfile
  rw [htable, forall_sort_iff hempty hscored]
  exact bestRuns_iff_of_sortedOrder

end summary

/-! ### A tuning run with two checkpoints -/

/-- A printer for two scores. -/
def twoScores : Json.Printer := ⟨fun _ => true, fun x => if x = .fin 1 then ['1'] else ['0']⟩

def readScore (s : PyStr) : Option PyFloat :=
  if s = ['1'] then some (.fin 1) else if s = ['0'] then some (.fin 0) else none

/-- There are no metric lines. -/
def noLines : LineCodec Empty where
  dumps _ := .error .typeError
  loads line := nomatch line
  blank line := nomatch line
  loads_dumps _ line := nomatch line
  blank_dumps _ line := nomatch line
  intsFit_dumps _ line := nomatch line

/-- The table itself is the text. -/
def plainTable : CsvCodec (List (List PyStr)) := ⟨id, id, fun _ => rfl⟩

/-- The summary of a checkpoint that is perfect, or worth nothing. -/
def checkpointSummary (runId step : String) (perfect : Bool) : Except PyError Row :=
  let rate : Json := .float (.fin (if perfect then 1 else 0))
  buildSummaryRow exactOps readScore twoScores noLines runId.toList none
    [("checkpoint".toList, .str step.toList), ("avg".toList, rate), ("majority".toList, rate),
      ("pass".toList, rate), ("greedy_accuracy".toList, rate), ("format_rate".toList, rate)] none

def checkpointRow (runId step : String) (perfect : Bool) : Row :=
  (checkpointSummary runId step perfect).toOption.getD []

/-- The score of the row is read back. -/
def readsBack (row : Row) : Bool :=
  match Row.get? rankingField row with
  | some (.float x) => decide (readScore (twoScores.floatRepr x) = some x)
  | _ => true

/-- A summary row with a score that is read back, and its cells in the file. -/
structure IsCheckpoint (row : Row) (cells : List PyStr) : Prop where
  summary : IsSummaryRow exactOps readScore twoScores row
  reads : ∀ x, Row.get? rankingField row = some (.float x) →
    readScore (twoScores.floatRepr x) = some x
  cells : render twoScores row = cells

theorem isCheckpoint_of_check {runId step : String} {perfect : Bool} {cells : List PyStr}
    (hbuilt : (checkpointSummary runId step perfect).toBool = true)
    (hcheck : (readsBack (checkpointRow runId step perfect) = true ∧
      render twoScores (checkpointRow runId step perfect) = cells)) :
    IsCheckpoint (checkpointRow runId step perfect) cells := by
  refine ⟨?_, ?_, hcheck.2⟩
  · unfold checkpointRow
    cases hrow : checkpointSummary runId step perfect with
    | error e =>
        rw [hrow] at hbuilt
        cases hbuilt
    | ok row => exact ⟨Empty, noLines, runId.toList, none, _, none, hrow⟩
  · intro x hx
    have hreads := hcheck.1
    rw [readsBack, hx] at hreads
    exact of_decide_eq_true hreads

/-- The cells of a checkpoint with one rate throughout. -/
def checkpointCells (runId step : String) (rate : Char) : List PyStr :=
  [runId.toList, step.toList, [rate], [rate], [rate], [rate], [rate], ['0'], ['0'], [rate], [rate],
    ['0'], ['0'], ['0'], ['0'], ['0'], [], [], "True".toList]

theorem isCheckpoint_firstOfR1 :
    IsCheckpoint (checkpointRow "R1" "step_25" true) (checkpointCells "R1" "25" '1') :=
  isCheckpoint_of_check (by decide +kernel) (by decide +kernel)

theorem isCheckpoint_secondOfR1 :
    IsCheckpoint (checkpointRow "R1" "step_50" true) (checkpointCells "R1" "50" '1') :=
  isCheckpoint_of_check (by decide +kernel) (by decide +kernel)

theorem isCheckpoint_firstOfR2 :
    IsCheckpoint (checkpointRow "R2" "step_25" false) (checkpointCells "R2" "25" '0') :=
  isCheckpoint_of_check (by decide +kernel) (by decide +kernel)

section checkpoints
variable {calls : List Row} {rows : List (List PyStr)}

theorem exists_isCheckpoint (h : List.Forall₂ IsCheckpoint calls rows) :
    ∀ row ∈ calls, ∃ cells, IsCheckpoint row cells := by
  induction h with
  | nil =>
      intro row hrow
      cases hrow
  | cons hcheckpoint _ ih =>
      intro row hrow
      rcases List.mem_cons.mp hrow with rfl | hrow
      · exact ⟨_, hcheckpoint⟩
      · exact ih row hrow

theorem map_render_checkpoints (h : List.Forall₂ IsCheckpoint calls rows) :
    calls.map (render twoScores) = rows := by
  induction h with
  | nil => rfl
  | cons hcheckpoint _ ih => rw [List.map_cons, hcheckpoint.cells, ih]

/-- The file of checkpoints of different runs or steps. -/
theorem writeCalls_checkpoints (h : List.Forall₂ IsCheckpoint calls rows)
    (hrows : rows.foldl (upsert rowKey) [] = rows) (hne : rows ≠ []) :
    writeCalls plainTable twoScores calls = .ok (some (summaryFields :: rows)) := by
  have hkeys : ∀ row ∈ calls, HasKeys row := by
    intro row hrow
    obtain ⟨cells, hcheckpoint⟩ := exists_isCheckpoint h row hrow
    exact hcheckpoint.summary.hasKeys
  obtain ⟨file, hfile, hholds⟩ := holds_writeCalls plainTable (p := twoScores) hkeys
  rw [map_render_checkpoints h, hrows] at hholds
  rcases hholds.2 with ⟨-, hnil⟩ | rfl
  · exact absurd hnil hne
  · exact hfile

end checkpoints

/-- One checkpoint of each run: both runs are printed. -/
theorem cmdSelectTop_bestRuns_single :
    let rows := [checkpointCells "R1" "25" '1', checkpointCells "R2" "25" '0']
    cleanRows rows = rows ∧ ∀ sort : DescendingSort, ∃ ids,
      cmdSelectTop exactOps.fmt readScore sort plainTable twoScores (summaryFields :: rows) 2 =
        .ok ids ∧ BestRuns readScore rows 2 ids := by
  intro rows
  have hcheckpoints : List.Forall₂ IsCheckpoint
      [checkpointRow "R1" "step_25" true, checkpointRow "R2" "step_25" false] rows :=
    .cons isCheckpoint_firstOfR1 (.cons isCheckpoint_firstOfR2 .nil)
  have hfile := writeCalls_checkpoints hcheckpoints (by decide +kernel) (List.cons_ne_nil _ _)
  have hclean : cleanRows rows = rows := by decide +kernel
  refine ⟨hclean, ?_⟩
  have hselects := cmdSelectTop_bestRuns_iff
    (fun row hrow => (exists_isCheckpoint hcheckpoints row hrow).choose_spec.summary) rfl
    (fun row hrow => (exists_isCheckpoint hcheckpoints row hrow).choose_spec.reads) hfile 2
  have hstored : storedRows plainTable (some (summaryFields :: rows)) = rows := rfl
  rw [hstored, hclean] at hselects
  apply hselects.mpr
  refine ⟨fun _ => ?_, ?_⟩
  · unfold DistinctBest
    decide +kernel
  · rintro ⟨cells, hcells, hnan⟩
    have hscores : ∀ cells ∈ rows, scoreOf readScore cells ≠ .nan := by decide +kernel
    exact absurd hnan (hscores cells hcells)

/-- **A run printed twice.**  Two clean checkpoints of one run rank before the only one of
another run, so the best two runs are not printed. -/
theorem cmdSelectTop_repeats :
    let calls := [checkpointRow "R1" "step_25" true, checkpointRow "R1" "step_50" true,
      checkpointRow "R2" "step_25" false]
    ∃ text, (∀ row ∈ calls, IsSummaryRow exactOps readScore twoScores row) ∧
      writeCalls plainTable twoScores calls = .ok (some text) ∧
      ∀ sort : DescendingSort, ∃ ids,
        cmdSelectTop exactOps.fmt readScore sort plainTable twoScores text 2 = .ok ids ∧
        ids = ["R1".toList, "R1".toList] ∧
        ¬ BestRuns readScore (cleanRows (storedRows plainTable (some text))) 2 ids := by
  intro calls
  have hcheckpoints : List.Forall₂ IsCheckpoint calls [checkpointCells "R1" "25" '1',
      checkpointCells "R1" "50" '1', checkpointCells "R2" "25" '0'] :=
    .cons isCheckpoint_firstOfR1 (.cons isCheckpoint_secondOfR1 (.cons isCheckpoint_firstOfR2 .nil))
  generalize hrows : [checkpointCells "R1" "25" '1', checkpointCells "R1" "50" '1',
    checkpointCells "R2" "25" '0'] = rows at hcheckpoints
  have hclean : cleanRows rows = rows := by
    rw [← hrows]
    decide +kernel
  have hsorted : rows.Pairwise fun a b => atLeastAsGood readScore a b = true := by
    rw [← hrows]
    decide +kernel
  have hcompare : ∀ cells ∈ cleanRows rows, scoreOf readScore cells ≠ .nan := by
    rw [hclean, ← hrows]
    decide +kernel
  have hids : (rows.take 2).map runOf = ["R1".toList, "R1".toList] := by
    rw [← hrows]
    decide +kernel
  have hscored : ∀ cells ∈ rows, Scored readScore cells := by
    intro cells hcells
    rw [← map_render_checkpoints hcheckpoints] at hcells
    obtain ⟨row, hrow, rfl⟩ := List.mem_map.mp hcells
    obtain ⟨cells, hcheckpoint⟩ := exists_isCheckpoint hcheckpoints row hrow
    exact scored_render hcheckpoint.summary hcheckpoint.reads
  have hfile := writeCalls_checkpoints hcheckpoints (by rw [← hrows]; decide +kernel)
    (by rw [← hrows]; exact List.cons_ne_nil _ _)
  refine ⟨_, fun row hrow => (exists_isCheckpoint hcheckpoints row hrow).choose_spec.summary, hfile,
    ?_⟩
  intro sort
  obtain ⟨order, hperm, hsort, hstable⟩ := @exists_order readScore sort (cleanRows rows)
  have horder : order = rows := by
    rw [hstable hcompare, hclean, List.mergeSort_of_pairwise hsorted]
  rw [horder] at hperm hsort
  refine ⟨_, cmdSelectTop_of_order rfl hscored hperm hsort 2, hids, ?_⟩
  rw [hids]
  intro hbest
  exact absurd hbest.nodup (by decide)

end ExtpiRlsd
