import ExtpiRlsd.Lib.PyText

/-! # Python floats, JSON values and dictionaries

What a program gets from `json.loads`, and what it does with it.  A float is a rational, an
infinity or a value that is not a number; comparisons with the latter fail.  Arithmetic rounds,
and the rounding is a parameter (`FloatFormat`), so results that hold for every format hold for
the machine's.

A dictionary is the list of its items.  `get?_setItem_self` and `get?_setItem_of_ne` are the
frame rules of an assignment to one key. -/

namespace PyData

open PyText

/-! ### Floats -/

inductive PyFloat where
  | nan
  | negInf
  | fin (q : ℚ)
  | posInf
deriving DecidableEq

namespace PyFloat

/-- `x < y`. -/
def lt : PyFloat → PyFloat → Bool
  | .nan, _ | _, .nan | _, .negInf | .posInf, _ => false
  | .negInf, _ | _, .posInf => true
  | .fin a, .fin b => decide (a < b)

/-- `x <= y`. -/
def le : PyFloat → PyFloat → Bool
  | .nan, _ | _, .nan => false
  | .negInf, _ | _, .posInf => true
  | _, .negInf | .posInf, _ => false
  | .fin a, .fin b => decide (a ≤ b)

/-- `x == y`. -/
def eq : PyFloat → PyFloat → Bool
  | .nan, _ | _, .nan => false
  | x, y => decide (x = y)

/-- `math.isfinite(x)`. -/
def isFinite : PyFloat → Bool
  | .fin _ => true
  | _ => false

/-- `bool(x)`. -/
def truthy (x : PyFloat) : Bool := decide (x ≠ .fin 0)

/-- `-x`. -/
def neg : PyFloat → PyFloat
  | .nan => .nan
  | .negInf => .posInf
  | .fin q => .fin (-q)
  | .posInf => .negInf

@[simp] theorem eq_fin (a b : ℚ) : (fin a).eq (fin b) = decide (a = b) := by simp [eq]

@[simp] theorem le_fin (a b : ℚ) : (fin a).le (fin b) = decide (a ≤ b) := rfl

@[simp] theorem lt_fin (a b : ℚ) : (fin a).lt (fin b) = decide (a < b) := rfl

theorem lt_trans_le {x y z : PyFloat} (hxy : x.lt y = true) (hyz : y.le z = true) :
    x.lt z = true := by
  cases x <;> cases y <;> cases z <;> simp_all [lt, le]
  exact hxy.trans_le hyz

end PyFloat

/-- A float format: the rounding of an exact result.  It keeps the order and the small integers,
treats both signs alike, and takes machine integers to floats of their sign. -/
structure FloatFormat where
  round : ℚ → PyFloat
  round_mono : ∀ a b, a ≤ b → (round a).le (round b) = true
  round_small : ∀ n : ℕ, n ≤ 2 ^ 53 → round n = .fin n
  round_neg : ∀ q, round (-q) = (round q).neg
  round_pos : ∀ n : ℤ, 0 < n → n < 2 ^ 64 → ∃ q : ℚ, 0 < q ∧ round n = .fin q

/-- Arithmetic without rounding. -/
def FloatFormat.exact : FloatFormat where
  round := .fin
  round_mono _ _ h := decide_eq_true h
  round_small _ _ := rfl
  round_neg _ := rfl
  round_pos n hn _ := ⟨n, Int.cast_pos.mpr hn, rfl⟩

namespace FloatFormat
variable (fmt : FloatFormat)

theorem round_zero : fmt.round 0 = .fin 0 := fmt.round_small 0 (Nat.zero_le _)

/-- The rounding of a number that is not positive is not positive. -/
theorem not_round_pos {q : ℚ} (h : q ≤ 0) : (PyFloat.fin 0).lt (fmt.round q) = false := by
  have hle := fmt.round_mono q 0 h
  rw [round_zero] at hle
  cases hround : fmt.round q with
  | fin a =>
      rw [hround, PyFloat.le_fin, decide_eq_true_iff] at hle
      rw [PyFloat.lt_fin, decide_eq_false_iff_not]
      exact not_lt.mpr hle
  | nan => rfl
  | negInf => rfl
  | posInf =>
      rw [hround] at hle
      cases hle

/-- Machine integers are floats. -/
theorem exists_round_int {n : ℤ} (hlow : -2 ^ 63 ≤ n) (hhigh : n < 2 ^ 64) :
    ∃ q : ℚ, fmt.round n = .fin q := by
  rcases lt_trichotomy n 0 with hn | rfl | hn
  · obtain ⟨q, -, hq⟩ := fmt.round_pos (-n) (by omega) (by omega)
    have hround := fmt.round_neg (-n : ℤ)
    rw [hq] at hround
    refine ⟨-q, ?_⟩
    rw [← Int.cast_neg, neg_neg] at hround
    exact hround
  · refine ⟨0, ?_⟩
    rw [Int.cast_zero]
    exact fmt.round_zero
  · obtain ⟨q, -, hq⟩ := fmt.round_pos n hn hhigh
    exact ⟨q, hq⟩

end FloatFormat

namespace PyFloat
variable (fmt : FloatFormat)

/-- `x + y`. -/
def add : PyFloat → PyFloat → PyFloat
  | .nan, _ | _, .nan | .negInf, .posInf | .posInf, .negInf => .nan
  | .negInf, _ | _, .negInf => .negInf
  | .posInf, _ | _, .posInf => .posInf
  | .fin a, .fin b => fmt.round (a + b)

/-- `x - y`. -/
def sub (x y : PyFloat) : PyFloat := add fmt x y.neg

/-- `x * y`. -/
def mul : PyFloat → PyFloat → PyFloat
  | .nan, _ | _, .nan => .nan
  | .fin a, .fin b => fmt.round (a * b)
  | .fin a, y | y, .fin a => if a = 0 then .nan else if 0 < a then y else y.neg
  | x, y => if x = y then .posInf else .negInf

/-- `x / y` for a positive `y`. -/
def div : PyFloat → PyFloat → PyFloat
  | .nan, _ | _, .nan => .nan
  | .fin a, .fin b => fmt.round (a / b)
  | .fin _, _ => .fin 0
  | x, .fin _ => x
  | _, _ => .nan

/-- `abs(x)`. -/
def abs (x : PyFloat) : PyFloat := if x.lt (.fin 0) then x.neg else x

/-- `x / n` for a positive integer `n`. -/
def divNat (x : PyFloat) (n : ℕ) : PyFloat :=
  match x with
  | .fin q => fmt.round (q / n)
  | x => x

end PyFloat

/-! ### JSON values -/

inductive Json where
  | null
  | bool (b : Bool)
  | int (n : ℤ)
  | float (x : PyFloat)
  | str (s : PyStr)
  | arr (xs : List Json)
  | obj (fields : List (PyStr × Json))

/-- A dictionary of JSON values. -/
abbrev Row := List (PyStr × Json)

/-- The exceptions of the standard library that the programs meet. -/
inductive PyError where
  | keyError (key : PyStr)
  | typeError
  | valueError
  | overflowError
  | attributeError
deriving DecidableEq

namespace Json

/-- `bool(v)`. -/
def truthy : Json → Bool
  | .null => false
  | .bool b => b
  | .int n => n != 0
  | .float x => x.truthy
  | .str s => !s.isEmpty
  | .arr xs => !xs.isEmpty
  | .obj fields => !fields.isEmpty

mutual
/-- The value as Python's `repr` sees it; `floatRepr` prints a float. -/
def toPy (floatRepr : PyFloat → PyStr) : Json → PyVal
  | .null => .none
  | .bool b => .bool b
  | .int n => .int n
  | .float x => .other "<class 'float'>".toList (floatRepr x) (floatRepr x) x.truthy
  | .str s => .str s
  | .arr xs => .list (toPyArr floatRepr xs)
  | .obj fields => .dict (toPyObj floatRepr fields)

def toPyArr (floatRepr : PyFloat → PyStr) : List Json → List PyVal
  | [] => []
  | v :: vs => toPy floatRepr v :: toPyArr floatRepr vs

def toPyObj (floatRepr : PyFloat → PyStr) : List (PyStr × Json) → List (PyStr × PyVal)
  | [] => []
  | (k, v) :: fields => (k, toPy floatRepr v) :: toPyObj floatRepr fields
end

/-- How characters and floats are printed. -/
structure Printer where
  printable : Char → Bool
  floatRepr : PyFloat → PyStr

/-- `str(v)`. -/
def toStr (p : Printer) (v : Json) : PyStr := (v.toPy p.floatRepr).toStr p.printable

@[simp] theorem toStr_str (p : Printer) (s : PyStr) : (Json.str s).toStr p = s := by
  simp [toStr, toPy, PyVal.toStr]

/-- The number behind a number or a truth value. -/
def num? : Json → Option PyFloat
  | .bool b => some (.fin (if b then 1 else 0))
  | .int n => some (.fin n)
  | .float x => some x
  | _ => none

/-- `float(v)`; `parse` reads a float from a string. -/
def toFloat (fmt : FloatFormat) (parse : PyStr → Option PyFloat) : Json → Except PyError PyFloat
  | .bool b => .ok (.fin (if b then 1 else 0))
  | .int n => match fmt.round n with
    | .fin q => .ok (.fin q)
    | _ => .error .overflowError
  | .float x => .ok x
  | .str s => match parse s with
    | some x => .ok x
    | none => .error .valueError
  | .null | .arr _ | .obj _ => .error .typeError

end Json

/-! ### Dictionaries -/

/-- `row.get(k)`, with `none` for an absent key. -/
def Row.get? (k : PyStr) : Row → Option Json
  | [] => none
  | (k', v) :: row => if k' = k then some v else get? k row

namespace Json

mutual
/-- `v == w`. -/
def pyEq : Json → Json → Bool
  | .null, .null => true
  | .str s, .str t => s == t
  | .arr xs, .arr ys => pyEqArr xs ys
  | .obj fs, .obj gs => fs.length == gs.length && pyEqObj fs gs
  | v, w => match v.num?, w.num? with
    | some x, some y => x.eq y
    | _, _ => false

def pyEqArr : List Json → List Json → Bool
  | [], [] => true
  | v :: vs, w :: ws => pyEq v w && pyEqArr vs ws
  | _, _ => false

def pyEqObj : List (PyStr × Json) → List (PyStr × Json) → Bool
  | [], _ => true
  | (k, v) :: fs, gs => (match Row.get? k gs with
      | some w => pyEq v w
      | none => false) && pyEqObj fs gs
end

/-- What two hashable values agree in when they are equal. -/
inductive HashKey where
  | null
  | num (x : PyFloat)
  | str (s : PyStr)
deriving DecidableEq

/-- The value as a member of a set. -/
def hashKey : Json → Except PyError HashKey
  | .null => .ok .null
  | .bool b => .ok (.num (.fin (if b then 1 else 0)))
  | .int n => .ok (.num (.fin n))
  | .float x => .ok (.num x)
  | .str s => .ok (.str s)
  | .arr _ | .obj _ => .error .typeError

end Json

namespace Row
variable {k k' : PyStr} {v : Json} {row : Row}

/-- `row.get(k)`. -/
def get (k : PyStr) (row : Row) : Json := (get? k row).getD .null

/-- `row.get(k, default)`. -/
def getD (k : PyStr) (default : Json) (row : Row) : Json := (get? k row).getD default

/-- `row[k]`. -/
def getItem (k : PyStr) (row : Row) : Except PyError Json :=
  match get? k row with
  | some v => .ok v
  | none => .error (.keyError k)

/-- `row[k] = v`. -/
def setItem (k : PyStr) (v : Json) : Row → Row
  | [] => [(k, v)]
  | (k', v') :: row => if k' = k then (k', v) :: row else (k', v') :: setItem k v row

/-- `row.setdefault(k, v)`. -/
def setDefault (k : PyStr) (v : Json) (row : Row) : Row :=
  if (get? k row).isSome then row else setItem k v row

/-- `row[k][k'] = v`. -/
def setInner (k k' : PyStr) (v : Json) (row : Row) : Except PyError Row :=
  match get? k row with
  | some (.obj fields) => .ok (setItem k (.obj (setItem k' v fields)) row)
  | some _ => .error .typeError
  | none => .error (.keyError k)

theorem getItem_eq_ok_iff : getItem k row = .ok v ↔ get? k row = some v := by
  unfold getItem
  cases get? k row with
  | none => simp
  | some w => simp

theorem get_of_get? (h : get? k row = some v) : get k row = v := by
  unfold get
  rw [h]
  rfl

theorem getD_of_get? {default : Json} (h : get? k row = some v) : getD k default row = v := by
  unfold getD
  rw [h]
  rfl

theorem getD_of_absent {default : Json} (h : get? k row = none) : getD k default row = default := by
  unfold getD
  rw [h]
  rfl

@[simp] theorem get?_setItem_self (k : PyStr) (v : Json) (row : Row) :
    get? k (setItem k v row) = some v := by
  induction row with
  | nil => simp [setItem, get?]
  | cons p row ih =>
      obtain ⟨k', v'⟩ := p
      unfold setItem
      by_cases h : k' = k
      · rw [if_pos h]
        simp [get?, h]
      · rw [if_neg h]
        simp [get?, h, ih]

theorem get?_setItem_of_ne (h : k' ≠ k) (v : Json) (row : Row) :
    get? k' (setItem k v row) = get? k' row := by
  induction row with
  | nil => simp [setItem, get?, Ne.symm h]
  | cons p row ih =>
      obtain ⟨j, w⟩ := p
      unfold setItem
      by_cases hj : j = k
      · rw [if_pos hj]
        simp [get?, hj, Ne.symm h]
      · rw [if_neg hj]
        simp only [get?, ih]

/-- What an assignment leaves under any key. -/
theorem get?_setItem (k k' : PyStr) (v : Json) (row : Row) :
    get? k' (setItem k v row) = if k' = k then some v else get? k' row := by
  by_cases h : k' = k
  · rw [if_pos h, h, get?_setItem_self]
  · rw [if_neg h, get?_setItem_of_ne h]

theorem get?_setDefault_of_ne (h : k' ≠ k) (v : Json) (row : Row) :
    get? k' (setDefault k v row) = get? k' row := by
  unfold setDefault
  split
  · rfl
  · exact get?_setItem_of_ne h v row

/-- What `setdefault` leaves under its key. -/
theorem get?_setDefault_self (k : PyStr) (v : Json) (row : Row) :
    get? k (setDefault k v row) = some ((get? k row).getD v) := by
  unfold setDefault
  cases h : get? k row with
  | none => simp
  | some w => simp [h]

theorem setInner_eq_ok {k₂ : PyStr} {row' : Row} (h : setInner k k₂ v row = .ok row') :
    ∃ fields, get? k row = some (.obj fields) ∧
      row' = setItem k (.obj (setItem k₂ v fields)) row := by
  unfold setInner at h
  split at h
  · next fields hget => exact ⟨fields, hget, (Except.ok.inj h).symm⟩
  · cases h
  · cases h

end Row

/-! ### Slices -/

section slices
variable {α : Type*}

/-- `xs[:k]`. -/
def sliceTo (k : ℤ) (xs : List α) : List α := xs.take (if k < 0 then xs.length + k else k).toNat

/-- `xs[k:]`. -/
def sliceFrom (k : ℤ) (xs : List α) : List α := xs.drop (if k < 0 then xs.length + k else k).toNat

end slices

/-! ### Shuffling -/

section shuffle
variable {α : Type*}

/-- `rng.shuffle(xs)`: a permutation of the positions, for every length. -/
def shuffle (σ : ∀ n, Equiv.Perm (Fin n)) (xs : List α) : List α :=
  List.ofFn fun i => xs.get (σ xs.length i)

@[simp] theorem length_shuffle (σ : ∀ n, Equiv.Perm (Fin n)) (xs : List α) :
    (shuffle σ xs).length = xs.length := by
  simp [shuffle]

theorem shuffle_perm (σ : ∀ n, Equiv.Perm (Fin n)) (xs : List α) : (shuffle σ xs).Perm xs := by
  have h := Equiv.Perm.ofFn_comp_perm (σ xs.length) xs.get
  rw [List.ofFn_get] at h
  exact h

theorem getElem_shuffle (σ : ∀ n, Equiv.Perm (Fin n)) (xs : List α) {i : ℕ}
    (h : i < (shuffle σ xs).length) :
    (shuffle σ xs)[i] = xs.get (σ xs.length ⟨i, length_shuffle σ xs ▸ h⟩) := by
  simp [shuffle]

end shuffle

end PyData
