import ExtpiRlsd.Lib.Checked
import ExtpiRlsd.Lib.PyData

/-! # JSON texts

`Json.dumps` is the text of a value in the standard library's form, which holds no control
character below the space (`Json.noControl_dumps`).  A serialiser that has no text for infinities
and values that are not numbers writes `null` for them (`Json.nullified`) and refuses integers
beyond 64 bits.  `LineCodec` is such a serialiser
with the parser that reads its lines: a line reads back as the nullified value. -/

namespace PyData

open PyText

namespace Json

/-! ### The standard form -/

/-- How `json.dumps` writes a character that it leaves outside ASCII as it is. -/
def escapeJson (c : Char) : PyStr :=
  if c = '"' ∨ c = '\\' then ['\\', c]
  else if c = '\n' then ['\\', 'n']
  else if c = '\r' then ['\\', 'r']
  else if c = '\t' then ['\\', 't']
  else if c = '\x0c' then ['\\', 'f']
  else if c = '\x08' then ['\\', 'b']
  else if c.toNat < 0x20 then '\\' :: 'u' :: hex 4 c.toNat
  else [c]

def quoteJson (s : PyStr) : PyStr := '"' :: s.flatMap escapeJson ++ ['"']

mutual
/-- `json.dumps(v, ensure_ascii=False)`; `floatRepr` prints a finite float. -/
def dumps (floatRepr : PyFloat → PyStr) : Json → PyStr
  | .null => "null".toList
  | .bool true => "true".toList
  | .bool false => "false".toList
  | .int n => (toString n).toList
  | .float .nan => "NaN".toList
  | .float .posInf => "Infinity".toList
  | .float .negInf => "-Infinity".toList
  | .float x => floatRepr x
  | .str s => quoteJson s
  | .arr xs => '[' :: join ", ".toList (dumpsArr floatRepr xs) ++ [']']
  | .obj fields => '\x7b' :: join ", ".toList (dumpsObj floatRepr fields) ++ ['\x7d']

def dumpsArr (floatRepr : PyFloat → PyStr) : List Json → List PyStr
  | [] => []
  | v :: vs => dumps floatRepr v :: dumpsArr floatRepr vs

def dumpsObj (floatRepr : PyFloat → PyStr) : List (PyStr × Json) → List PyStr
  | [] => []
  | (k, v) :: fields => (quoteJson k ++ ": ".toList ++ dumps floatRepr v) :: dumpsObj floatRepr fields
end

theorem dumps_obj (floatRepr : PyFloat → PyStr) (fields : List (PyStr × Json)) :
    dumps floatRepr (.obj fields) =
      '\x7b' :: (join ", ".toList (dumpsObj floatRepr fields) ++ ['\x7d']) := rfl

/-! ### Sorted keys -/

mutual
/-- The value with the keys of every dictionary in order, as `sort_keys=True` writes it. -/
def sortKeys : Json → Json
  | .null => .null
  | .bool b => .bool b
  | .int n => .int n
  | .float x => .float x
  | .str s => .str s
  | .arr xs => .arr (sortKeysArr xs)
  | .obj fields => .obj ((sortKeysObj fields).mergeSort fun a b => decide (a.1 ≤ b.1))

def sortKeysArr : List Json → List Json
  | [] => []
  | v :: vs => sortKeys v :: sortKeysArr vs

def sortKeysObj : List (PyStr × Json) → List (PyStr × Json)
  | [] => []
  | (k, v) :: fields => (k, sortKeys v) :: sortKeysObj fields
end

/-- `v == w`, where the order of the keys does not matter. -/
def Same (v w : Json) : Prop := sortKeys v = sortKeys w

/-! ### Control characters -/

/-- No character is a control character below the space. -/
def NoControl (s : PyStr) : Prop := ∀ c ∈ s, 0x20 ≤ c.toNat

theorem noControl_iff_all (s : PyStr) :
    (s.all fun c => decide (0x20 ≤ c.toNat)) = true ↔ NoControl s := by
  simp [NoControl]

instance (s : PyStr) : Decidable (NoControl s) := decidable_of_iff _ (noControl_iff_all s)

theorem NoControl.append {s t : PyStr} (hs : NoControl s) (ht : NoControl t) : NoControl (s ++ t) := by
  intro c hc
  rcases List.mem_append.mp hc with hc | hc
  · exact hs c hc
  · exact ht c hc

theorem NoControl.cons {c : Char} {s : PyStr} (hc : 0x20 ≤ c.toNat) (hs : NoControl s) :
    NoControl (c :: s) := by
  intro d hd
  rcases List.mem_cons.mp hd with rfl | hd
  · exact hc
  · exact hs d hd

theorem NoControl.join {sep : PyStr} {parts : List PyStr} (hsep : NoControl sep)
    (hparts : ∀ s ∈ parts, NoControl s) : NoControl (PyText.join sep parts) := by
  unfold PyText.join
  induction parts with
  | nil => simp [NoControl]
  | cons s parts ih =>
      have hs := hparts s List.mem_cons_self
      have ih := ih fun t ht => hparts t (List.mem_cons_of_mem s ht)
      cases parts with
      | nil => simpa using hs
      | cons t parts =>
          rw [List.intercalate_cons_cons]
          exact (hs.append hsep).append ih

theorem noControl_hex (width n : ℕ) : NoControl (hex width n) := by
  intro c hc
  obtain ⟨i, -, rfl⟩ := List.mem_map.mp hc
  have hdigit : ∀ d < 16, 0x20 ≤ (Nat.digitChar d).toNat := by decide
  exact hdigit _ (Nat.mod_lt _ (by decide))

theorem noControl_escapeJson (c : Char) : NoControl (escapeJson c) := by
  unfold escapeJson
  split_ifs with hquote hn hr ht hf hb hlow
  · rcases hquote with rfl | rfl <;> decide
  · decide
  · decide
  · decide
  · decide
  · decide
  · exact .cons (by decide) (.cons (by decide) (noControl_hex 4 c.toNat))
  · exact .cons (Nat.not_lt.mp hlow) fun d hd => absurd hd List.not_mem_nil

theorem noControl_quoteJson (s : PyStr) : NoControl (quoteJson s) := by
  have hbody : NoControl (s.flatMap escapeJson) := by
    intro d hd
    obtain ⟨c, -, hc⟩ := List.mem_flatMap.mp hd
    exact noControl_escapeJson c d hc
  exact (NoControl.cons (by decide) hbody).append (by decide)

theorem noControl_int (n : ℤ) : NoControl (toString n).toList := by
  have hnat : ∀ k : ℕ, NoControl k.repr.toList := by
    intro k c hc
    have hdigit : c.isDigit = true := by
      refine Nat.isDigit_of_mem_toDigits (b := 10) (n := k) (by decide) (by decide) ?_
      simpa [Nat.repr] using hc
    have hlow : 0x30 ≤ c.toNat := (Char.isDigit_iff_toNat.mp hdigit).1
    exact Nat.le_trans (by decide) hlow
  rw [Int.toString_eq_repr, Int.repr_eq_if]
  split
  · exact hnat _
  · rw [String.toList_append]
    exact NoControl.append (by decide) (hnat _)

theorem noControl_separator : NoControl ", ".toList := by decide

mutual
/-- **A serialised value holds no control character**, whatever its strings hold. -/
theorem noControl_dumps {floatRepr : PyFloat → PyStr} (hfloat : ∀ x, NoControl (floatRepr x)) :
    ∀ v : Json, NoControl (dumps floatRepr v)
  | .null => (by decide : NoControl "null".toList)
  | .bool true => (by decide : NoControl "true".toList)
  | .bool false => (by decide : NoControl "false".toList)
  | .int n => noControl_int n
  | .float .nan => (by decide : NoControl "NaN".toList)
  | .float .posInf => (by decide : NoControl "Infinity".toList)
  | .float .negInf => (by decide : NoControl "-Infinity".toList)
  | .float (.fin q) => hfloat (.fin q)
  | .str s => noControl_quoteJson s
  | .arr xs => by
      have hparts := NoControl.join noControl_separator (noControl_dumpsArr hfloat xs)
      exact (NoControl.cons (c := '[') (by decide) hparts).append (t := [']']) (by decide)
  | .obj fields => by
      have hparts := NoControl.join noControl_separator (noControl_dumpsObj hfloat fields)
      exact (NoControl.cons (c := '\x7b') (by decide) hparts).append (t := ['\x7d']) (by decide)

theorem noControl_dumpsArr {floatRepr : PyFloat → PyStr} (hfloat : ∀ x, NoControl (floatRepr x)) :
    ∀ xs : List Json, ∀ s ∈ dumpsArr floatRepr xs, NoControl s
  | [], s, hs => absurd hs List.not_mem_nil
  | v :: vs, s, hs => by
      rcases List.mem_cons.mp hs with rfl | hs
      · exact noControl_dumps hfloat v
      · exact noControl_dumpsArr hfloat vs s hs

theorem noControl_dumpsObj {floatRepr : PyFloat → PyStr} (hfloat : ∀ x, NoControl (floatRepr x)) :
    ∀ fields : List (PyStr × Json), ∀ s ∈ dumpsObj floatRepr fields, NoControl s
  | [], s, hs => absurd hs List.not_mem_nil
  | (k, v) :: fields, s, hs => by
      rcases List.mem_cons.mp hs with rfl | hs
      · exact ((noControl_quoteJson k).append (by decide)).append (noControl_dumps hfloat v)
      · exact noControl_dumpsObj hfloat fields s hs
end

/-! ### A form without infinities -/

mutual
/-- The value with `None` for every float that is not finite. -/
def nullified : Json → Json
  | .null => .null
  | .bool b => .bool b
  | .int n => .int n
  | .float x => if x.isFinite then .float x else .null
  | .str s => .str s
  | .arr xs => .arr (nullifiedArr xs)
  | .obj fields => .obj (nullifiedObj fields)

def nullifiedArr : List Json → List Json
  | [] => []
  | v :: vs => nullified v :: nullifiedArr vs

def nullifiedObj : List (PyStr × Json) → List (PyStr × Json)
  | [] => []
  | (k, v) :: fields => (k, nullified v) :: nullifiedObj fields
end

mutual
/-- Every integer in the value has 64 bits. -/
def intsFit : Json → Bool
  | .int n => decide (-2 ^ 63 ≤ n) && decide (n < 2 ^ 64)
  | .arr xs => intsFitArr xs
  | .obj fields => intsFitObj fields
  | _ => true

def intsFitArr : List Json → Bool
  | [] => true
  | v :: vs => intsFit v && intsFitArr vs

def intsFitObj : List (PyStr × Json) → Bool
  | [] => true
  | (_, v) :: fields => intsFit v && intsFitObj fields
end

theorem get?_nullifiedObj (k : PyStr) (row : Row) :
    Row.get? k (nullifiedObj row) = (Row.get? k row).map nullified := by
  induction row with
  | nil => rfl
  | cons p row ih =>
      obtain ⟨k', v⟩ := p
      rw [nullifiedObj, Row.get?, Row.get?]
      by_cases h : k' = k
      · rw [if_pos h, if_pos h]
        rfl
      · rw [if_neg h, if_neg h]
        exact ih

theorem mem_nullifiedObj {k : PyStr} {w : Json} {row : Row} (h : (k, w) ∈ nullifiedObj row) :
    ∃ v, (k, v) ∈ row ∧ w = nullified v := by
  induction row with
  | nil => exact absurd h List.not_mem_nil
  | cons p row ih =>
      obtain ⟨k', v⟩ := p
      rw [nullifiedObj] at h
      rcases List.mem_cons.mp h with heq | h
      · obtain ⟨rfl, rfl⟩ := Prod.mk.inj heq
        exact ⟨v, List.mem_cons_self, rfl⟩
      · obtain ⟨v', hv', hw⟩ := ih h
        exact ⟨v', List.mem_cons_of_mem _ hv', hw⟩

mutual
theorem intsFit_nullified : ∀ v : Json, v.nullified.intsFit = v.intsFit
  | .null => rfl
  | .bool _ => rfl
  | .int _ => rfl
  | .float x => by
      rw [nullified]
      split <;> rfl
  | .str _ => rfl
  | .arr xs => by
      rw [nullified, intsFit, intsFit, intsFitArr_nullified xs]
  | .obj fields => by
      rw [nullified, intsFit, intsFit, intsFitObj_nullified fields]

theorem intsFitArr_nullified : ∀ vs : List Json, intsFitArr (nullifiedArr vs) = intsFitArr vs
  | [] => rfl
  | v :: vs => by
      rw [nullifiedArr, intsFitArr, intsFitArr, intsFit_nullified v, intsFitArr_nullified vs]

theorem intsFitObj_nullified : ∀ fields : List (PyStr × Json),
    intsFitObj (nullifiedObj fields) = intsFitObj fields
  | [] => rfl
  | (k, v) :: fields => by
      rw [nullifiedObj, intsFitObj, intsFitObj, intsFit_nullified v, intsFitObj_nullified fields]
end

theorem intsFit_of_mem {k : PyStr} {v : Json} {row : Row} (hfit : intsFitObj row = true)
    (h : (k, v) ∈ row) : v.intsFit = true := by
  induction row with
  | nil => exact absurd h List.not_mem_nil
  | cons p row ih =>
      obtain ⟨k', v'⟩ := p
      rw [intsFitObj, Bool.and_eq_true] at hfit
      rcases List.mem_cons.mp h with heq | h
      · obtain ⟨rfl, rfl⟩ := Prod.mk.inj heq
        exact hfit.1
      · exact ih hfit.2 h

end Json

theorem Row.mem_of_get? {k : PyStr} {v : Json} {row : Row} (h : Row.get? k row = some v) :
    (k, v) ∈ row := by
  induction row with
  | nil => cases h
  | cons p row ih =>
      obtain ⟨k', v'⟩ := p
      rw [Row.get?] at h
      by_cases hk : k' = k
      · rw [if_pos hk] at h
        obtain rfl := Option.some.inj h
        rw [hk]
        exact List.mem_cons_self
      · rw [if_neg hk] at h
        exact List.mem_cons_of_mem _ (ih h)

/-- A serialiser of one value a line and the parser of its lines. -/
structure LineCodec (Line : Type) where
  dumps : Json → Except PyError Line
  loads : Line → Except PyError Json
  /-- The line is white space. -/
  blank : Line → Bool
  loads_dumps : ∀ v l, dumps v = .ok l → loads l = .ok v.nullified
  blank_dumps : ∀ v l, dumps v = .ok l → blank l = false
  intsFit_dumps : ∀ v l, dumps v = .ok l → v.intsFit = true

/-- The codec that keeps the value as it will be read. -/
def LineCodec.parsed : LineCodec Json where
  dumps v := if v.intsFit then .ok v.nullified else .error .typeError
  loads := .ok
  blank _ := false
  loads_dumps v l h := by
    split at h
    · rw [← Except.ok.inj h]
    · cases h
  blank_dumps _ _ _ := rfl
  intsFit_dumps v l h := by
    split at h
    · assumption
    · cases h

section lines
variable {Line : Type} (codec : LineCodec Line)

/-- The values of the lines that are not blank. -/
def readLines : List Line → Except PyError (List Json)
  | [] => .ok []
  | l :: ls =>
      if codec.blank l then readLines ls
      else do
        let v ← codec.loads l
        let vs ← readLines ls
        return v :: vs

/-- The lines that were written read back as the nullified values. -/
theorem readLines_of_dumps {vs : List Json} {ls : List Line}
    (h : List.Forall₂ (fun v l => codec.dumps v = .ok l) vs ls) :
    readLines codec ls = .ok (vs.map Json.nullified) := by
  induction h with
  | nil => rfl
  | @cons v l vs ls hl _ ih =>
      rw [readLines, codec.blank_dumps v l hl, if_neg Bool.false_ne_true,
        codec.loads_dumps v l hl, ih]
      rfl

end lines

end PyData
