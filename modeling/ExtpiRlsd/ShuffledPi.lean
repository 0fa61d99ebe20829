import ExtpiRlsd.Lib.Checked
import ExtpiRlsd.Lib.PyData
import ExtpiRlsd.PromptAssembly

/-! # The shuffled control

`build_shuffled_pi.py` gives every row the trace of another row.  It shuffles the traces once,
and where a row would keep its own trace it moves all of them one place to the front.

The move frees the rows that kept their trace, and it catches every row whose trace the shuffle
had put one place behind it.  `shuffledPi_deranged_iff` says for which shuffles the result is a
control: those that leave no trace in its place, and those that put no trace one place on. -/

namespace ExtpiRlsd

open PyText PyData

def metadataField : PyStr := "metadata".toList

/-- The entry under `shuffled_pi_control`. -/
def shuffledPiControl (seed : ℤ) (source piTraceField : PyStr) : Json :=
  .obj [("seed".toList, .int seed), ("source".toList, .str source),
    ("pi_trace_field".toList, .str piTraceField)]

/-- The new row for a row and a trace. -/
def shuffledRow (seed : ℤ) (source piTraceField : PyStr) (row : Row) (trace : Json) :
    Except PyError Row :=
  let newRow := Row.setItem piTraceField trace row
  let newRow := Row.setDefault metadataField (.obj []) newRow
  Row.setInner metadataField "shuffled_pi_control".toList
    (shuffledPiControl seed source piTraceField) newRow

/-- The traces after the shuffle and its repair. -/
def shuffledTraces (σ : ∀ n, Equiv.Perm (Fin n)) (traces : List Json) : List Json :=
  let shuffled := shuffle σ traces
  if 1 < shuffled.length && (traces.zip shuffled).any fun p => p.1.pyEq p.2 then
    shuffled.drop 1 ++ shuffled.take 1
  else shuffled

/-- `main`, from the rows read to the rows written. -/
def shuffledPi (seed : ℤ) (source piTraceField : PyStr) (σ : ∀ n, Equiv.Perm (Fin n))
    (rows : List Row) : Except PyError (List Row) :=
  let traces := rows.map (Row.get piTraceField)
  (rows.zip (shuffledTraces σ traces)).mapM fun p => shuffledRow seed source piTraceField p.1 p.2

/-! ### One row -/

section row
variable {seed : ℤ} {source piTraceField : PyStr} {row row' : Row} {trace : Json}

/-- The row has no metadata, or an object. -/
def HasMetadataObject (row : Row) : Prop :=
  ∀ v, row.get? metadataField = some v → ∃ fields, v = .obj fields

theorem shuffledRow_eq_ok (hfield : piTraceField ≠ metadataField)
    (h : shuffledRow seed source piTraceField row trace = .ok row') :
    HasMetadataObject row ∧ row'.get? piTraceField = some trace ∧
      ∀ k, k ≠ piTraceField → k ≠ metadataField → row'.get? k = row.get? k := by
  obtain ⟨fields, hmetadata, rfl⟩ := Row.setInner_eq_ok h
  refine ⟨?_, ?_, ?_⟩
  · intro v hv
    rw [Row.get?_setDefault_self, Row.get?_setItem_of_ne hfield.symm, hv] at hmetadata
    exact ⟨fields, Option.some.inj hmetadata⟩
  · rw [Row.get?_setItem_of_ne hfield, Row.get?_setDefault_of_ne hfield, Row.get?_setItem_self]
  · intro k hk hk'
    rw [Row.get?_setItem_of_ne hk', Row.get?_setDefault_of_ne hk', Row.get?_setItem_of_ne hk]

theorem exists_shuffledRow (hfield : piTraceField ≠ metadataField) (h : HasMetadataObject row)
    (seed : ℤ) (source : PyStr) (trace : Json) :
    ∃ row', shuffledRow seed source piTraceField row trace = .ok row' := by
  have hmetadata : ∃ fields, (Row.setDefault metadataField (.obj [])
      (Row.setItem piTraceField trace row)).get? metadataField = some (.obj fields) := by
    rw [Row.get?_setDefault_self, Row.get?_setItem_of_ne hfield.symm]
    cases hget : row.get? metadataField with
    | none => exact ⟨[], rfl⟩
    | some v =>
        obtain ⟨fields, rfl⟩ := h v hget
        exact ⟨fields, rfl⟩
  obtain ⟨fields, hmetadata⟩ := hmetadata
  unfold shuffledRow Row.setInner
  simp only [hmetadata]
  exact ⟨_, rfl⟩

end row

/-! ### The repair -/

section traces
variable {σ : ∀ n, Equiv.Perm (Fin n)} {traces : List Json}

/-- A trace equals itself and no other trace of the list. -/
def DistinctTraces (traces : List Json) : Prop :=
  ∀ i j (hi : i < traces.length) (hj : j < traces.length),
    traces[i].pyEq traces[j] = true ↔ i = j

/-- No row has its own trace. -/
def Deranged (traces shuffled : List Json) : Prop :=
  ∀ i (hi : i < traces.length) (hj : i < shuffled.length), traces[i].pyEq shuffled[i] = false

theorem shuffledTraces_perm (σ : ∀ n, Equiv.Perm (Fin n)) (traces : List Json) :
    (shuffledTraces σ traces).Perm traces := by
  unfold shuffledTraces
  dsimp only
  split
  · have hrotate : ((shuffle σ traces).take 1 ++ (shuffle σ traces).drop 1).Perm
        ((shuffle σ traces).drop 1 ++ (shuffle σ traces).take 1) := List.perm_append_comm
    have hrotate := hrotate.symm
    rw [List.take_append_drop] at hrotate
    exact hrotate.trans (shuffle_perm σ traces)
  · exact shuffle_perm σ traces

/-- The shuffle leaves no trace in its place. -/
def NoneKept (σ : ∀ n, Equiv.Perm (Fin n)) (n : ℕ) : Prop := ∀ i : Fin n, σ n i ≠ i

instance (σ : ∀ n, Equiv.Perm (Fin n)) (n : ℕ) : Decidable (NoneKept σ n) :=
  inferInstanceAs (Decidable (∀ i : Fin n, σ n i ≠ i))

/-- The shuffle puts no trace one place behind its own, the last place being before the first. -/
def NoneOnePlaceOn (σ : ∀ n, Equiv.Perm (Fin n)) (n : ℕ) : Prop :=
  ∀ i j : Fin n, (j : ℕ) = (i + 1) % n → σ n j ≠ i

theorem length_shuffledTraces (σ : ∀ n, Equiv.Perm (Fin n)) (traces : List Json) :
    (shuffledTraces σ traces).length = traces.length :=
  (shuffledTraces_perm σ traces).length_eq

/-- Without the repair a row keeps its trace exactly where the shuffle does. -/
theorem deranged_shuffle_iff (hd : DistinctTraces traces) :
    Deranged traces (shuffle σ traces) ↔ NoneKept σ traces.length := by
  constructor
  · intro h i heq
    have hlt : (i : ℕ) < (shuffle σ traces).length := by rw [length_shuffle]; exact i.isLt
    have hkept := h i i.isLt hlt
    rw [getElem_shuffle, List.get_eq_getElem] at hkept
    have hsame := (hd i (σ traces.length i) i.isLt (σ traces.length i).isLt).mpr
      (congrArg Fin.val heq).symm
    rw [hsame] at hkept
    cases hkept
  · intro h i hi hj
    rw [getElem_shuffle, List.get_eq_getElem, Bool.eq_false_iff]
    intro hkept
    have heq := (hd i _ hi (Fin.isLt _)).mp hkept
    exact h ⟨i, hi⟩ (Fin.ext heq.symm)

/-- After the move a row has its own trace exactly where the shuffle had put it one place on. -/
theorem deranged_rotate_iff (hd : DistinctTraces traces) :
    Deranged traces ((shuffle σ traces).rotate 1) ↔ NoneOnePlaceOn σ traces.length := by
  constructor
  · intro h i j hj heq
    have hlt : (i : ℕ) < ((shuffle σ traces).rotate 1).length := by
      rw [List.length_rotate, length_shuffle]
      exact i.isLt
    have hkept := h i i.isLt hlt
    have hplace : (⟨((i : ℕ) + 1) % (shuffle σ traces).length, by
        rw [length_shuffle]; exact Nat.mod_lt _ i.pos⟩ : Fin traces.length) = j := by
      apply Fin.ext
      show (i + 1) % (shuffle σ traces).length = j
      rw [hj, length_shuffle]
    rw [List.getElem_rotate, getElem_shuffle, List.get_eq_getElem, hplace, heq] at hkept
    rw [(hd i i i.isLt i.isLt).mpr rfl] at hkept
    cases hkept
  · intro h i hi hj
    rw [List.getElem_rotate, getElem_shuffle, List.get_eq_getElem, Bool.eq_false_iff]
    intro hkept
    have heq := (hd i _ hi (Fin.isLt _)).mp hkept
    refine h ⟨i, hi⟩ _ ?_ (Fin.ext heq.symm)
    show (i + 1) % (shuffle σ traces).length = (i + 1) % traces.length
    rw [length_shuffle]

/-- The repair looks for a row that kept its trace. -/
theorem any_kept_iff {traces shuffled : List Json} (hlen : shuffled.length = traces.length) :
    ((traces.zip shuffled).any fun p => p.1.pyEq p.2) = false ↔ Deranged traces shuffled := by
  rw [List.any_eq_false]
  constructor
  · intro h i hi hj
    have hmem : (traces[i], shuffled[i]) ∈ traces.zip shuffled := by
      rw [List.mem_iff_getElem]
      refine ⟨i, ?_, List.getElem_zip⟩
      rw [List.length_zip]
      omega
    exact Bool.eq_false_iff.mpr (h _ hmem)
  · intro h p hp
    obtain ⟨i, hi, rfl⟩ := List.mem_iff_getElem.mp hp
    rw [List.length_zip] at hi
    rw [List.getElem_zip, h i (by omega) (by omega)]
    exact Bool.false_ne_true

theorem deranged_shuffledTraces_iff (hd : DistinctTraces traces) (hn : 2 ≤ traces.length) :
    Deranged traces (shuffledTraces σ traces) ↔
      NoneKept σ traces.length ∨ NoneOnePlaceOn σ traces.length := by
  have hlt : 1 < (shuffle σ traces).length := by
    rw [length_shuffle]
    omega
  have hkept := any_kept_iff (length_shuffle σ traces)
  unfold shuffledTraces
  dsimp only
  cases hany : (traces.zip (shuffle σ traces)).any fun p => p.1.pyEq p.2 with
  | false =>
      have hderanged := hkept.mp hany
      rw [if_neg (by simp)]
      exact iff_of_true hderanged (.inl ((deranged_shuffle_iff hd).mp hderanged))
  | true =>
      have hnot : ¬ NoneKept σ traces.length := by
        intro h
        have := hkept.mpr ((deranged_shuffle_iff hd).mpr h)
        rw [hany] at this
        cases this
      rw [if_pos (by rw [Bool.and_true]; exact decide_eq_true hlt), ← List.rotate_eq_drop_append_take hlt.le, deranged_rotate_iff hd]
      exact (or_iff_right hnot).symm

end traces

/-! ### The output -/

/-- What the control promises: the rows in their order, with all traces, none of them its own, and
with nothing else changed but the metadata. -/
structure ShuffledControl (piTraceField : PyStr) (rows output : List Row) : Prop where
  traces : (output.map (Row.get piTraceField)).Perm (rows.map (Row.get piTraceField))
  deranged : Deranged (rows.map (Row.get piTraceField)) (output.map (Row.get piTraceField))
  others : List.Forall₂ (fun row row' : Row => ∀ k, k ≠ piTraceField → k ≠ metadataField →
    row'.get? k = row.get? k) rows output

section output
variable {seed : ℤ} {source piTraceField : PyStr} {σ : ∀ n, Equiv.Perm (Fin n)}
  {rows output : List Row}

/-- What is returned has the shuffled traces. -/
theorem shuffledPi_eq_ok (hfield : piTraceField ≠ metadataField)
    (h : shuffledPi seed source piTraceField σ rows = .ok output) :
    (∀ row ∈ rows, HasMetadataObject row) ∧
    output.map (Row.get piTraceField) = shuffledTraces σ (rows.map (Row.get piTraceField)) ∧
    List.Forall₂ (fun row row' : Row => ∀ k, k ≠ piTraceField → k ≠ metadataField →
      row'.get? k = row.get? k) rows output := by
  have hrows := Checked.mapM_eq_ok_iff.mp h
  have hlen : (shuffledTraces σ (rows.map (Row.get piTraceField))).length = rows.length := by
    rw [length_shuffledTraces, List.length_map]
  generalize shuffledTraces σ (rows.map (Row.get piTraceField)) = traces at hrows hlen ⊢
  have hall := hrows.imp fun _ _ hrow => shuffledRow_eq_ok hfield hrow
  clear h hrows
  induction rows generalizing traces output with
  | nil =>
      obtain rfl := List.length_eq_zero_iff.mp hlen
      cases hall
      exact ⟨fun row hrow => absurd hrow List.not_mem_nil, rfl, .nil⟩
  | cons row rows ih =>
      cases traces with
      | nil => cases hlen
      | cons trace traces =>
          cases hall with
          | @cons _ row' _ output hrow hall =>
              obtain ⟨hmetadata, htrace, hothers⟩ := hrow
              obtain ⟨ihmetadata, ihtraces, ihothers⟩ := ih traces (Nat.succ.inj hlen) hall
              refine ⟨?_, ?_, .cons hothers ihothers⟩
              · intro r hr
                rcases List.mem_cons.mp hr with rfl | hr
                · exact hmetadata
                · exact ihmetadata r hr
              · rw [List.map_cons, ihtraces]
                show (row'.get? piTraceField).getD .null :: traces = _
                rw [htrace]
                rfl

theorem exists_shuffledPi (hfield : piTraceField ≠ metadataField)
    (h : ∀ row ∈ rows, HasMetadataObject row) (seed : ℤ) (source : PyStr)
    (σ : ∀ n, Equiv.Perm (Fin n)) :
    ∃ output, shuffledPi seed source piTraceField σ rows = .ok output := by
  have hstep : ∀ p ∈ rows.zip (shuffledTraces σ (rows.map (Row.get piTraceField))),
      ∃ row', shuffledRow seed source piTraceField p.1 p.2 = .ok row' ∧ True := by
    intro p hp
    obtain ⟨row', hrow'⟩ := exists_shuffledRow hfield (h p.1 (List.of_mem_zip hp).1) seed source p.2
    exact ⟨row', hrow', trivial⟩
  obtain ⟨output, houtput, -⟩ := Checked.exists_mapM_eq_ok hstep
  exact ⟨output, houtput⟩

end output

/-- **When the shuffled control is a control.**  For rows with distinct traces it is returned with
no trace in its place if and only if no row's metadata is something else than an object, and the
shuffle leaves no trace in its place or puts none one place on. -/
theorem shuffledPi_deranged_iff {piTraceField : PyStr} (hfield : piTraceField ≠ metadataField)
    {rows : List Row} (hn : 2 ≤ rows.length)
    (hd : DistinctTraces (rows.map (Row.get piTraceField))) (seed : ℤ) (source : PyStr)
    (σ : ∀ n, Equiv.Perm (Fin n)) :
    (∃ output, shuffledPi seed source piTraceField σ rows = .ok output ∧
      ShuffledControl piTraceField rows output) ↔
    (∀ row ∈ rows, HasMetadataObject row) ∧
      (NoneKept σ rows.length ∨ NoneOnePlaceOn σ rows.length) := by
  have hlen : (rows.map (Row.get piTraceField)).length = rows.length := List.length_map _
  have hiff := deranged_shuffledTraces_iff (σ := σ) hd (by rw [hlen]; exact hn)
  rw [hlen] at hiff
  constructor
  · rintro ⟨output, hok, hcontrol⟩
    obtain ⟨hmetadata, htraces, -⟩ := shuffledPi_eq_ok hfield hok
    have hderanged := hcontrol.deranged
    rw [htraces] at hderanged
    exact ⟨hmetadata, hiff.mp hderanged⟩
  · rintro ⟨hmetadata, hσ⟩
    obtain ⟨output, hok⟩ := exists_shuffledPi hfield hmetadata seed source σ
    obtain ⟨-, htraces, hothers⟩ := shuffledPi_eq_ok hfield hok
    refine ⟨output, hok, ?_, ?_, hothers⟩
    · rw [htraces]
      exact shuffledTraces_perm σ _
    · rw [htraces]
      exact hiff.mpr hσ

/-- Rows with the traces `a`, `b` and `c`. -/
def threeTraceRows : List Row :=
  [[(defaultPiTraceField, .str ['a'])], [(defaultPiTraceField, .str ['b'])],
    [(defaultPiTraceField, .str ['c'])]]

theorem distinct_threeTraceRows :
    DistinctTraces (threeTraceRows.map (Row.get defaultPiTraceField)) := by
  have htraces : threeTraceRows.map (Row.get defaultPiTraceField) =
      [.str ['a'], .str ['b'], .str ['c']] := by
    simp [threeTraceRows, Row.get, Row.get?]
  rw [htraces]
  intro i j hi hj
  have hi3 : i < 3 := hi
  have hj3 : j < 3 := hj
  interval_cases i <;> interval_cases j <;> simp [Json.pyEq]

theorem metadata_threeTraceRows : ∀ row ∈ threeTraceRows, HasMetadataObject row := by
  intro row hrow v hv
  have hnone : row.get? metadataField = none := by
    fin_cases hrow <;> decide
  rw [hnone] at hv
  cases hv

/-- Every trace moves one place to the front. -/
theorem shuffledPi_deranged_rotation :
    ∃ output, shuffledPi 42 "train".toList defaultPiTraceField (fun n => finRotate n)
        threeTraceRows = .ok output ∧ ShuffledControl defaultPiTraceField threeTraceRows output :=
  (shuffledPi_deranged_iff (by decide) (by decide) distinct_threeTraceRows 42 "train".toList
    fun n => finRotate n).mpr ⟨metadata_threeTraceRows, .inl (by decide)⟩

/-- The shuffle of three rows that leaves the first in its place and swaps the others. -/
def swapLast (n : ℕ) : Equiv.Perm (Fin n) :=
  if h : n = 3 then h ▸ Equiv.swap 1 2 else 1

/-- **The repair catches another row.**  The traces `a`, `b`, `c` are shuffled to `a`, `c`, `b` and
moved to `c`, `b`, `a`: the second row has its own trace. -/
theorem swapLast_keeps_second : ∃ output,
    shuffledPi 42 "train".toList defaultPiTraceField swapLast threeTraceRows = .ok output ∧
      ¬ ShuffledControl defaultPiTraceField threeTraceRows output := by
  have hfield : defaultPiTraceField ≠ metadataField := by decide
  obtain ⟨output, hok⟩ := exists_shuffledPi hfield metadata_threeTraceRows 42 "train".toList
    swapLast
  refine ⟨output, hok, fun hcontrol => ?_⟩
  obtain ⟨-, htraces, -⟩ := shuffledPi_eq_ok hfield hok
  have hderanged := hcontrol.deranged
  rw [htraces] at hderanged
  have hkept := hderanged 1 (by decide) (by rw [length_shuffledTraces]; decide)
  exact absurd hkept (by decide)

end ExtpiRlsd
