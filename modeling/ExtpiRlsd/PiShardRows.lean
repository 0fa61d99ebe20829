import ExtpiRlsd.PiShard

/-! # Rows of a trace shard

What `shardRow` puts into a row: its id and gold answer stay, its attempts are noted, and it is
verified exactly when it has a trace, the text of a shortest verified attempt
(`hasShortestTrace_of_shardRow`). -/

namespace ExtpiRlsd

open PyText PyData

section row
variable {args : ShardArgs}

/-! ### The shortest attempt -/

theorem shortest_eq_none_iff {attempts : List Attempt} : shortest attempts = none ↔ attempts = [] := by
  constructor
  · intro h
    cases attempts with
    | nil => rfl
    | cons a as =>
        rw [shortest] at h
        split at h
        · cases h
        · split at h <;> cases h
  · rintro rfl
    rfl

theorem shortest_eq_some {attempts : List Attempt} {a : Attempt} (h : shortest attempts = some a) :
    a ∈ attempts ∧ ∀ b ∈ attempts, a.tokenCount ≤ b.tokenCount := by
  induction attempts generalizing a with
  | nil => cases h
  | cons x xs ih =>
      rw [shortest] at h
      cases hxs : shortest xs with
      | none =>
          rw [hxs] at h
          obtain rfl := Option.some.inj h
          rw [shortest_eq_none_iff.mp hxs]
          refine ⟨List.mem_cons_self, ?_⟩
          intro b hb
          rw [List.mem_singleton.mp hb]
      | some y =>
          rw [hxs] at h
          obtain ⟨hy, hmin⟩ := ih hxs
          dsimp only at h
          by_cases hlt : y.tokenCount < x.tokenCount
          · rw [if_pos hlt] at h
            obtain rfl := Option.some.inj h
            refine ⟨List.mem_cons_of_mem _ hy, ?_⟩
            intro b hb
            rcases List.mem_cons.mp hb with rfl | hb
            · exact hlt.le
            · exact hmin b hb
          · rw [if_neg hlt] at h
            obtain rfl := Option.some.inj h
            refine ⟨List.mem_cons_self, ?_⟩
            intro b hb
            rcases List.mem_cons.mp hb with rfl | hb
            · exact le_refl _
            · exact (not_lt.mp hlt).trans (hmin b hb)

/-! ### The fields of the new row -/

/-- The attempts noted in the row's metadata. -/
def RecordsAttempts (row : Row) (attempts : List Attempt) : Prop :=
  ∃ fields info, Row.get? shardMetadataKey row = some (.obj fields) ∧
    Row.get? "qwen8b_pi_generation".toList fields = some (.obj info) ∧
    Row.get? "attempts".toList info = some (.arr (attempts.map Attempt.toJson))

/-- The row notes its attempts at its gold answer.  It is verified exactly when it has a trace,
and then the trace is the text of a shortest verified attempt. -/
structure HasShortestTrace (args : ShardArgs) (verified : Bool) (row : Row) (gold : Json)
    (candidates : List Candidate) (trace : Json) : Prop where
  goldAnswer : candidates ≠ [] → Row.get? "gold_answer".toList row = some gold
  recorded : RecordsAttempts row (attemptsOf args gold candidates)
  trace8 : Row.get? "qwen8b_pi_trace".toList row = some trace
  trace32 : Row.get? "qwen32b_pi_trace".toList row = some trace
  verified8 : Row.get? "qwen8b_pi_verified".toList row = some (.bool verified)
  verified32 : Row.get? "qwen32b_pi_verified".toList row = some (.bool verified)
  verified_iff : verified = true ↔ trace ≠ .null
  some_verified : verified = true ↔ ∃ a ∈ attemptsOf args gold candidates, a.verified = true
  shortest : verified = true → ∃ a ∈ attemptsOf args gold candidates, a.verified = true ∧
    trace = .str a.text ∧
    ∀ b ∈ attemptsOf args gold candidates, b.verified = true → a.tokenCount ≤ b.tokenCount

def traceFields : List PyStr := ["qwen8b_pi_trace".toList, "qwen8b_pi_verified".toList,
  "qwen8b_pi_attempts".toList, "qwen32b_pi_trace".toList, "qwen32b_pi_verified".toList]

theorem get?_withTrace_of_notMem {key : PyStr} (h : key ∉ traceFields) (selected : Option Attempt)
    (attempts : List Attempt) (row : Row) :
    Row.get? key (withTrace selected attempts row) = Row.get? key row := by
  simp only [traceFields, List.mem_cons, List.not_mem_nil, or_false, not_or] at h
  obtain ⟨h₁, h₂, h₃, h₄, h₅⟩ := h
  unfold withTrace
  rw [Row.get?_setItem_of_ne h₅, Row.get?_setItem_of_ne h₄, Row.get?_setItem_of_ne h₃,
    Row.get?_setItem_of_ne h₂, Row.get?_setItem_of_ne h₁]

theorem get?_withTrace_trace (selected : Option Attempt) (attempts : List Attempt) (row : Row) :
    Row.get? "qwen8b_pi_trace".toList (withTrace selected attempts row) =
        some (optStr (selected.map (·.text))) ∧
      Row.get? "qwen32b_pi_trace".toList (withTrace selected attempts row) =
        some (optStr (selected.map (·.text))) := by
  unfold withTrace
  simp only [Row.get?_setItem]
  exact ⟨rfl, rfl⟩

theorem get?_withTrace_verified (selected : Option Attempt) (attempts : List Attempt) (row : Row) :
    Row.get? "qwen8b_pi_verified".toList (withTrace selected attempts row) =
        some (.bool selected.isSome) ∧
      Row.get? "qwen32b_pi_verified".toList (withTrace selected attempts row) =
        some (.bool selected.isSome) := by
  unfold withTrace
  simp only [Row.get?_setItem]
  exact ⟨rfl, rfl⟩

/-- The new row in terms of what it was made of. -/
theorem shardRow_eq_ok {workerId : ℕ} {createdAt : PyStr} {row newRow : Row}
    {candidates : List Candidate} {verified : Bool}
    (h : shardRow args workerId createdAt row candidates = .ok (newRow, verified)) :
    ∃ gold, (candidates ≠ [] → Row.get? "gold_answer".toList row = some gold) ∧
      verified = (selectAttempt (attemptsOf args gold candidates)).isSome ∧
      RecordsAttempts newRow (attemptsOf args gold candidates) ∧
      ∀ key, key ≠ shardMetadataKey → Row.get? key newRow =
        Row.get? key (withTrace (selectAttempt (attemptsOf args gold candidates))
          (attemptsOf args gold candidates) row) := by
  obtain ⟨gold, hgold, h⟩ := Checked.bind_eq_ok_iff.mp h
  obtain ⟨first, hfirst, h⟩ := Checked.bind_eq_ok_iff.mp h
  obtain ⟨second, hsecond, h⟩ := Checked.bind_eq_ok_iff.mp h
  obtain ⟨fields, -, hfirst⟩ := Row.setInner_eq_ok hfirst
  obtain ⟨fields', hget, hsecond⟩ := Row.setInner_eq_ok hsecond
  obtain ⟨rfl, rfl⟩ := Prod.mk.inj (Except.ok.inj h)
  refine ⟨gold, ?_, rfl, ?_, ?_⟩
  · intro hne
    cases candidates with
    | nil => exact absurd rfl hne
    | cons candidate candidates =>
        have hitem : row.getItem "gold_answer".toList = .ok gold := hgold
        exact Row.getItem_eq_ok_iff.mp hitem
  · rw [hfirst, Row.get?_setItem_self] at hget
    obtain rfl := Json.obj.inj (Option.some.inj hget)
    have hmetadata := hsecond ▸ Row.get?_setItem_self shardMetadataKey _ first
    refine ⟨_, generationInfo args workerId createdAt (attemptsOf args gold candidates),
      hmetadata, ?_, rfl⟩
    rw [Row.get?_setItem_of_ne (by decide), Row.get?_setItem_self]
  · intro key hkey
    rw [hsecond, Row.get?_setItem_of_ne hkey, hfirst, Row.get?_setItem_of_ne hkey,
      Row.get?_setDefault_of_ne hkey]

theorem get?_id_shardRow {workerId : ℕ} {createdAt : PyStr} {row newRow : Row}
    {candidates : List Candidate} {verified : Bool}
    (h : shardRow args workerId createdAt row candidates = .ok (newRow, verified)) :
    Row.get? "id".toList newRow = Row.get? "id".toList row := by
  obtain ⟨gold, -, -, -, hkeys⟩ := shardRow_eq_ok h
  rw [hkeys _ (by decide), get?_withTrace_of_notMem (by decide)]

/-- A row is appended with the trace of a shortest verified attempt, or with none. -/
theorem hasShortestTrace_of_shardRow {workerId : ℕ} {createdAt : PyStr} {row newRow : Row}
    {candidates : List Candidate} {verified : Bool}
    (h : shardRow args workerId createdAt row candidates = .ok (newRow, verified)) :
    ∃ gold trace, HasShortestTrace args verified newRow gold candidates trace := by
  obtain ⟨gold, hgold, hverified, hrecords, hkeys⟩ := shardRow_eq_ok h
  set attempts := attemptsOf args gold candidates with hattempts
  refine ⟨gold, optStr ((selectAttempt attempts).map (·.text)), ?_⟩
  have hsome : (selectAttempt attempts).isSome = true ↔ ∃ a ∈ attempts, a.verified = true := by
    rw [Option.isSome_iff_ne_none, Ne, selectAttempt, shortest_eq_none_iff,
      List.filter_eq_nil_iff]
    simp
  constructor
  · intro hne
    rw [hkeys _ (by decide), get?_withTrace_of_notMem (by decide)]
    exact hgold hne
  · exact hrecords
  · exact (hkeys _ (by decide)).trans (get?_withTrace_trace _ _ _).1
  · exact (hkeys _ (by decide)).trans (get?_withTrace_trace _ _ _).2
  · rw [hverified]
    exact (hkeys _ (by decide)).trans (get?_withTrace_verified _ _ _).1
  · rw [hverified]
    exact (hkeys _ (by decide)).trans (get?_withTrace_verified _ _ _).2
  · rw [hverified]
    cases selectAttempt attempts with
    | none => exact ⟨fun hfalse => absurd hfalse Bool.false_ne_true, fun hne => absurd rfl hne⟩
    | some a => exact ⟨fun _ => nofun, fun _ => rfl⟩
  · rw [hverified]
    exact hsome
  · intro htrue
    rw [hverified, Option.isSome_iff_exists] at htrue
    obtain ⟨a, ha⟩ := htrue
    obtain ⟨hmem, hmin⟩ := shortest_eq_some ha
    obtain ⟨hattempt, hok⟩ := List.mem_filter.mp hmem
    refine ⟨a, hattempt, hok, ?_, ?_⟩
    · rw [ha]
      rfl
    · intro b hb hbok
      exact hmin b (List.mem_filter.mpr ⟨hb, hbok⟩)

end row

end ExtpiRlsd
