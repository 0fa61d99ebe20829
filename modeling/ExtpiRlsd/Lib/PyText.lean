import Mathlib

/-! # Python text

Strings as lists of characters, with the operations of Python's `str` that programs about
prompts use: `strip`, `join`, the substring test and `repr`.

`repr` puts a string in quotes and writes some characters as escape sequences.  Which quote it
takes depends on the string, the escape of every other character only on that character; a
character that escapes to itself under both quotes is `Plain`.  A substring of plain characters
survives `repr` (`infix_repr`), and a substring that holds an escaped character may not.

`PyVal` is the part of Python's data that such programs print: `str` and `repr` of lists and
dictionaries hold the `repr` of every value inside them. -/

namespace PyText

/-- A Python string. -/
abbrev PyStr := List Char

/-- `c.isspace()`. -/
def isSpace (c : Char) : Bool :=
  let n := c.toNat
  (9 ≤ n && n ≤ 13) || (28 ≤ n && n ≤ 32) || n == 0x85 || n == 0xa0 || n == 0x1680 ||
    (0x2000 ≤ n && n ≤ 0x200a) || n == 0x2028 || n == 0x2029 || n == 0x202f || n == 0x205f ||
    n == 0x3000

/-- `s.strip()`. -/
def strip (s : PyStr) : PyStr := (s.dropWhile isSpace).rdropWhile isSpace

/-- `c.lower()`, as far as the result is ASCII: the letters, and the Kelvin sign, the only other
character whose lower case is one ASCII character. -/
def lowerChar (c : Char) : Char := if c = '\u212a' then 'k' else c.toLower

/-- `s.strip().lower().replace("_", "-")`. -/
def normalizeName (s : PyStr) : PyStr :=
  ((strip s).map lowerChar).map fun c => if c = '_' then '-' else c

/-- `sep.join(parts)`. -/
def join (sep : PyStr) (parts : List PyStr) : PyStr := sep.intercalate parts

/-- `t in s`. -/
def contains (s t : PyStr) : Bool := decide (t <:+: s)

/-- `s.replace(old, new)` for a non-empty `old`, behind `skip` characters that are replaced. -/
def replaceFrom (old new : PyStr) : ℕ → PyStr → PyStr
  | _, [] => []
  | skip + 1, _ :: s => replaceFrom old new skip s
  | 0, c :: s =>
      if old.isPrefixOf (c :: s) then new ++ replaceFrom old new (old.length - 1) s
      else c :: replaceFrom old new 0 s

/-- `s.replace(old, new)` for a non-empty `old`. -/
def replace (old new s : PyStr) : PyStr := replaceFrom old new 0 s

/-- Where the old text occurs the new one does afterwards. -/
theorem infix_replace {old s : PyStr} (hold : old ≠ []) (h : old <:+: s) (new : PyStr) :
    new <:+: replace old new s := by
  unfold replace
  induction s with
  | nil => exact absurd (List.infix_nil.mp h) hold
  | cons c s ih =>
      unfold replaceFrom
      by_cases hprefix : old.isPrefixOf (c :: s) = true
      · rw [if_pos hprefix]
        exact (List.prefix_append new _).isInfix
      · rw [if_neg hprefix]
        rcases List.infix_cons_iff.mp h with h | h
        · exact absurd (List.isPrefixOf_iff_prefix.mpr h) hprefix
        · exact List.infix_cons (ih h)

/-! ### `repr` of a string -/

/-- `n` in lower-case hexadecimal with a fixed number of digits. -/
def hex (width n : ℕ) : PyStr :=
  (List.range width).reverse.map fun i => Nat.digitChar (n / 16 ^ i % 16)

/-- The quote character: the single one, unless the string holds it and not the double one. -/
def quoteOf (s : PyStr) : Char :=
  if '\'' ∈ s ∧ '"' ∉ s then '"' else '\''

/-- How `repr` writes one character; `printable` is `isprintable` beyond ASCII. -/
def escape (printable : Char → Bool) (quote c : Char) : PyStr :=
  let n := c.toNat
  if c = quote ∨ c = '\\' then ['\\', c]
  else if c = '\t' then ['\\', 't']
  else if c = '\n' then ['\\', 'n']
  else if c = '\r' then ['\\', 'r']
  else if n < 0x20 ∨ n = 0x7f then '\\' :: 'x' :: hex 2 n
  else if n < 0x7f then [c]
  else if printable c then [c]
  else if n ≤ 0xff then '\\' :: 'x' :: hex 2 n
  else if n ≤ 0xffff then '\\' :: 'u' :: hex 4 n
  else '\\' :: 'U' :: hex 8 n

/-- `repr` of a string without its quotes. -/
def reprBody (printable : Char → Bool) (s : PyStr) : PyStr :=
  s.flatMap (escape printable (quoteOf s))

/-- `repr(s)`. -/
def reprStr (printable : Char → Bool) (s : PyStr) : PyStr :=
  quoteOf s :: reprBody printable s ++ [quoteOf s]

/-- The character stands for itself in every `repr`. -/
def Plain (printable : Char → Bool) (c : Char) : Prop :=
  escape printable '\'' c = [c] ∧ escape printable '"' c = [c]

instance (printable : Char → Bool) (c : Char) : Decidable (Plain printable c) :=
  inferInstanceAs (Decidable (_ ∧ _))

theorem quoteOf_cases (s : PyStr) : quoteOf s = '\'' ∨ quoteOf s = '"' := by
  unfold quoteOf
  split
  · exact .inr rfl
  · exact .inl rfl

theorem Plain.escape_quoteOf {printable : Char → Bool} {c : Char} (h : Plain printable c)
    (s : PyStr) : escape printable (quoteOf s) c = [c] := by
  rcases quoteOf_cases s with hq | hq
  · rw [hq]; exact h.1
  · rw [hq]; exact h.2

theorem infix_flatMap {α β : Type*} (f : α → List β) {t s : List α} (h : t <:+: s) :
    t.flatMap f <:+: s.flatMap f := by
  obtain ⟨pre, post, rfl⟩ := h
  exact ⟨pre.flatMap f, post.flatMap f, by simp [List.flatMap_append]⟩

theorem infix_reprBody (printable : Char → Bool) (s : PyStr) :
    reprBody printable s <:+: reprStr printable s :=
  ⟨[quoteOf s], [quoteOf s], rfl⟩

/-- Plain text inside a string is inside its `repr`. -/
theorem infix_repr {printable : Char → Bool} {t s : PyStr} (hplain : ∀ c ∈ t, Plain printable c)
    (h : t <:+: s) : t <:+: reprStr printable s := by
  have ht : t.flatMap (escape printable (quoteOf s)) = t := by
    clear h
    induction t with
    | nil => rfl
    | cons c t ih =>
        have hc := (hplain c List.mem_cons_self).escape_quoteOf s
        have ih := ih fun d hd => hplain d (List.mem_cons_of_mem _ hd)
        rw [List.flatMap_cons, hc, ih]
        rfl
  have hbody := infix_flatMap (escape printable (quoteOf s)) h
  rw [ht] at hbody
  exact hbody.trans (infix_reprBody printable s)

/-! ### Joining -/

theorem infix_join (sep : PyStr) {x : PyStr} {parts : List PyStr} (h : x ∈ parts) :
    x <:+: join sep parts := by
  unfold join
  induction parts with
  | nil => cases h
  | cons y parts ih => cases parts with
    | nil =>
        obtain rfl : x = y := by simpa using h
        simp
    | cons z parts =>
        rw [List.intercalate_cons_cons]
        rcases List.mem_cons.mp h with rfl | h
        · exact ⟨[], sep ++ List.intercalate sep (z :: parts), by simp⟩
        · exact (ih h).trans ⟨y ++ sep, [], by simp⟩

/-! ### Values -/

/-- Python values; `other` is a value known by the name of its type and its two texts. -/
inductive PyVal where
  | none
  | bool (b : Bool)
  | int (n : ℤ)
  | str (s : PyStr)
  | list (xs : List PyVal)
  | dict (items : List (PyStr × PyVal))
  | other (type str repr : PyStr) (truthy : Bool)

namespace PyVal
variable (printable : Char → Bool)

mutual
/-- `repr(v)`. -/
def repr : PyVal → PyStr
  | .none => "None".toList
  | .bool true => "True".toList
  | .bool false => "False".toList
  | .int n => (toString n).toList
  | .str s => reprStr printable s
  | .list xs => '[' :: join ", ".toList (reprs xs) ++ [']']
  | .dict items => '\x7b' :: join ", ".toList (reprItems items) ++ ['\x7d']
  | .other _ _ r _ => r

def reprs : List PyVal → List PyStr
  | [] => []
  | v :: vs => repr v :: reprs vs

def reprItems : List (PyStr × PyVal) → List PyStr
  | [] => []
  | (k, v) :: items => (reprStr printable k ++ ": ".toList ++ repr v) :: reprItems items
end

/-- `str(v)`. -/
def toStr : PyVal → PyStr
  | .str s => s
  | .other _ s _ _ => s
  | v => repr printable v

/-- `bool(v)`. -/
def truthy : PyVal → Bool
  | .none => false
  | .bool b => b
  | .int n => n != 0
  | .str s => !s.isEmpty
  | .list xs => !xs.isEmpty
  | .dict items => !items.isEmpty
  | .other _ _ _ t => t

/-- `repr(type(v))`. -/
def typeRepr : PyVal → PyStr
  | .none => "<class 'NoneType'>".toList
  | .bool _ => "<class 'bool'>".toList
  | .int _ => "<class 'int'>".toList
  | .str _ => "<class 'str'>".toList
  | .list _ => "<class 'list'>".toList
  | .dict _ => "<class 'dict'>".toList
  | .other t _ _ _ => t

/-- `d.get(key)` on the items of a dictionary. -/
def get? (key : PyStr) (items : List (PyStr × PyVal)) : Option PyVal :=
  (items.find? fun p => p.1 == key).map Prod.snd

theorem get?_mem {key : PyStr} {items : List (PyStr × PyVal)} {v : PyVal}
    (h : get? key items = some v) : ∃ k, (k, v) ∈ items := by
  obtain ⟨p, hp, rfl⟩ := Option.map_eq_some_iff.mp h
  exact ⟨p.1, List.mem_of_find?_eq_some hp⟩

theorem mem_reprs {v : PyVal} {xs : List PyVal} (h : v ∈ xs) :
    repr printable v ∈ reprs printable xs := by
  induction xs with
  | nil => cases h
  | cons x xs ih =>
      rw [reprs]
      rcases List.mem_cons.mp h with rfl | h
      · exact List.mem_cons_self
      · exact List.mem_cons_of_mem _ (ih h)

theorem repr_infix_list {v : PyVal} {xs : List PyVal} (h : v ∈ xs) :
    repr printable v <:+: repr printable (.list xs) := by
  show repr printable v <:+: '[' :: join ", ".toList (reprs printable xs) ++ [']']
  have hj := infix_join ", ".toList (mem_reprs printable h)
  exact hj.trans ⟨['['], [']'], rfl⟩

theorem repr_infix_dict {k : PyStr} {v : PyVal} {items : List (PyStr × PyVal)}
    (h : (k, v) ∈ items) : repr printable v <:+: repr printable (.dict items) := by
  have hmem : (reprStr printable k ++ ": ".toList ++ repr printable v) ∈
      reprItems printable items := by
    induction items with
    | nil => cases h
    | cons p items ih =>
        rw [reprItems]
        rcases List.mem_cons.mp h with rfl | h
        · exact List.mem_cons_self
        · exact List.mem_cons_of_mem _ (ih h)
  have hv : repr printable v <:+: reprStr printable k ++ ": ".toList ++ repr printable v :=
    ⟨_, [], List.append_nil _⟩
  show repr printable v <:+: '\x7b' :: join ", ".toList (reprItems printable items) ++ ['\x7d']
  exact (hv.trans (infix_join ", ".toList hmem)).trans ⟨['\x7b'], ['\x7d'], rfl⟩

end PyVal

end PyText
