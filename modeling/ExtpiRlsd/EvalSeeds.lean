import ExtpiRlsd.Lib.PyData

/-! # Evaluation seeds

`parse_seeds` of `evaluate_checkpoints.py`: the seeds of a comma-separated list, cut or extended
to the number of samples.  The extension counts on from the last seed of the list, so the seeds
are distinct exactly when no listed seed lies among the integers that are added
(`parseSeeds_distinct_iff`). -/

namespace ExtpiRlsd

open PyText PyData

/-! ### Reading integers -/

section int
variable (digit : Char → Option ℕ)

/-- The digits of an integer, in groups that single underscores separate. -/
def digitsFrom (value : ℕ) (afterDigit : Bool) : PyStr → Option ℕ
  | [] => if afterDigit then some value else none
  | c :: s =>
      if c = '_' then if afterDigit then digitsFrom value false s else none
      else match digit c with
        | some d => digitsFrom (10 * value + d) true s
        | none => none

/-- An integer without the white space around it. -/
def signedDigits : PyStr → Option ℤ
  | [] => none
  | c :: s =>
      if c = '-' then (digitsFrom digit 0 false s).map fun n => -(n : ℤ)
      else if c = '+' then (digitsFrom digit 0 false s).map fun n => (n : ℤ)
      else (digitsFrom digit 0 false (c :: s)).map fun n => (n : ℤ)

/-- `int(s)`; `digit` is the decimal digit that a character stands for. -/
def pyInt (s : PyStr) : Except PyError ℤ :=
  match signedDigits digit (strip s) with
  | some n => .ok n
  | none => .error .valueError

end int

/-- The decimal digits of ASCII. -/
def asciiDigit (c : Char) : Option ℕ := if c.isDigit then some (c.toNat - '0'.toNat) else none

/-! ### The seeds -/

section seeds
variable (digit : Char → Option ℕ)

/-- `[int(item.strip()) for item in value.split(",") if item.strip()]`. -/
def seedItems (value : PyStr) : Except PyError (List ℤ) :=
  ((value.splitOn ',').filter fun item => !(strip item).isEmpty).mapM
    fun item => pyInt digit (strip item)

/-- The seeds of the list, or as many as samples when there is no list. -/
def givenSeeds (numSamples : ℤ) : Option PyStr → Except PyError (List ℤ)
  | some (c :: s) => seedItems digit (c :: s)
  | _ => .ok ((List.range numSamples.toNat).map fun i : ℕ => (i : ℤ))

/-- `range(start, start + k)`. -/
def pyRange (start k : ℤ) : List ℤ := (List.range k.toNat).map fun i : ℕ => start + i

/-- `parse_seeds`. -/
def parseSeeds (value : Option PyStr) (numSamples : ℤ) : Except PyError (List ℤ) := do
  let seeds ← givenSeeds digit numSamples value
  match seeds.getLast? with
  | none => .error .valueError
  | some last => .ok (sliceTo numSamples
      (if (seeds.length : ℤ) < numSamples then
        seeds ++ pyRange (last + 1) (numSamples - seeds.length) else seeds))

end seeds

/-! ### Distinct seeds -/

theorem mem_pyRange {start k x : ℤ} : x ∈ pyRange start k ↔ start ≤ x ∧ x < start + k := by
  rw [pyRange, List.mem_map]
  constructor
  · rintro ⟨i, hi, rfl⟩
    rw [List.mem_range] at hi
    omega
  · rintro ⟨hlow, hhigh⟩
    exact ⟨(x - start).toNat, List.mem_range.mpr (by omega), by omega⟩

theorem nodup_pyRange (start k : ℤ) : (pyRange start k).Nodup := by
  apply List.nodup_range.map
  intro i j h
  have h : start + (i : ℤ) = start + j := h
  omega

theorem length_pyRange (start k : ℤ) : (pyRange start k).length = k.toNat := by
  rw [pyRange, List.length_map, List.length_range]

/-- As many distinct seeds as samples, and first the given ones in order. -/
structure DistinctSeeds (given : List ℤ) (numSamples : ℤ) (seeds : List ℤ) : Prop where
  length : (seeds.length : ℤ) = numSamples
  nodup : seeds.Nodup
  given : seeds.take (min numSamples.toNat given.length) =
    given.take (min numSamples.toNat given.length)

theorem sliceTo_of_nonneg {α : Type*} {k : ℤ} (hk : 0 ≤ k) (xs : List α) :
    sliceTo k xs = xs.take k.toNat := by
  rw [sliceTo, if_neg (not_lt.mpr hk)]

section parse
variable {digit : Char → Option ℕ} {value : Option PyStr} {numSamples last : ℤ} {given : List ℤ}

/-- A long enough list is cut. -/
theorem parseSeeds_cut (hgiven : givenSeeds digit numSamples value = .ok given)
    (hlast : given.getLast? = some last) (hn : 1 ≤ numSamples)
    (hlength : numSamples ≤ given.length) :
    parseSeeds digit value numSamples = .ok (given.take numSamples.toNat) := by
  rw [parseSeeds, hgiven]
  simp only [bind, Except.bind, hlast]
  rw [if_neg (not_lt.mpr hlength), sliceTo_of_nonneg (by omega)]

/-- A shorter list is extended by the integers that follow its last seed. -/
theorem parseSeeds_extend (hgiven : givenSeeds digit numSamples value = .ok given)
    (hlast : given.getLast? = some last) (hlength : given.length < numSamples) :
    parseSeeds digit value numSamples =
      .ok (given ++ pyRange (last + 1) (numSamples - given.length)) := by
  rw [parseSeeds, hgiven]
  simp only [bind, Except.bind, hlast]
  rw [if_pos hlength, sliceTo_of_nonneg (by omega), List.take_of_length_le]
  rw [List.length_append, length_pyRange]
  omega

/-- **When the seeds are distinct.**  For distinct given seeds the parsed ones are as many as
samples, distinct and begin with the given ones exactly when no given seed is one of the
integers that are added behind the last. -/
theorem parseSeeds_distinct_iff (hgiven : givenSeeds digit numSamples value = .ok given)
    (hlast : given.getLast? = some last) (hnodup : given.Nodup) (hn : 1 ≤ numSamples) :
    (∃ seeds, parseSeeds digit value numSamples = .ok seeds ∧
        DistinctSeeds given numSamples seeds) ↔
      ∀ seed ∈ given, ¬ (last < seed ∧ seed ≤ last + (numSamples - given.length)) := by
  by_cases hlength : numSamples ≤ given.length
  · rw [parseSeeds_cut hgiven hlast hn hlength]
    apply iff_of_true
    · refine ⟨_, rfl, ?_, hnodup.sublist (List.take_sublist _ _), ?_⟩
      · rw [List.length_take]
        omega
      · rw [List.take_take]
        congr 1
        omega
    · intro seed _
      omega
  · rw [not_le] at hlength
    rw [parseSeeds_extend hgiven hlast hlength]
    constructor
    · rintro ⟨seeds, hseeds, hdistinct⟩ seed hseed ⟨hlow, hhigh⟩
      have hnodup := hdistinct.nodup
      rw [← Except.ok.inj hseeds] at hnodup
      have hadded : seed ∈ pyRange (last + 1) (numSamples - given.length) :=
        mem_pyRange.mpr ⟨by omega, by omega⟩
      exact List.disjoint_of_nodup_append hnodup hseed hadded
    · intro h
      refine ⟨_, rfl, ?_, ?_, ?_⟩
      · rw [List.length_append, length_pyRange]
        omega
      · apply List.Nodup.append hnodup (nodup_pyRange _ _)
        intro seed hseed hadded
        have hadded := mem_pyRange.mp hadded
        exact h seed hseed ⟨by omega, by omega⟩
      · apply List.take_append_of_le_length
        omega

end parse

/-- Two seeds, and four samples. -/
theorem parseSeeds_distinct_sevenEight :
    ∃ seeds, parseSeeds asciiDigit (some "7,8".toList) 4 = .ok seeds ∧
      DistinctSeeds [7, 8] 4 seeds := by
  have hgiven : givenSeeds asciiDigit 4 (some "7,8".toList) = .ok [7, 8] := by decide
  exact (parseSeeds_distinct_iff hgiven rfl (by decide) (by decide)).mpr (by decide)

/-- **A repeated seed.**  Behind the falling list `5,4` the seed 5 is added again. -/
theorem parseSeeds_repeats :
    parseSeeds asciiDigit (some "5,4".toList) 4 = .ok [5, 4, 5, 6] ∧
      ¬ ∃ seeds, parseSeeds asciiDigit (some "5,4".toList) 4 = .ok seeds ∧
        DistinctSeeds [5, 4] 4 seeds := by
  have hseeds : parseSeeds asciiDigit (some "5,4".toList) 4 = .ok [5, 4, 5, 6] := by decide
  refine ⟨hseeds, ?_⟩
  rintro ⟨seeds, h, hdistinct⟩
  have hnodup := hdistinct.nodup
  rw [← Except.ok.inj (hseeds.symm.trans h)] at hnodup
  exact absurd hnodup (by decide)

end ExtpiRlsd
