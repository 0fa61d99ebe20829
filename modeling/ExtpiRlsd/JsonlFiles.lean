import ExtpiRlsd.Lib.Checked
import ExtpiRlsd.Lib.JsonLines
import ExtpiRlsd.Lib.PyWords
import ExtpiRlsd.Lib.TextFiles

/-! # JSONL files

`read_jsonl` and `write_jsonl` of `common.py`, through which the tools pass their data.  The writer
serialises the rows that an iterable yields into a temporary file beside the target and then
moves it over the target; the reader parses the lines that are not blank.

Files are kept as decoded texts.  Serialising a row is `json.dumps` followed by the encoding of the
line: a row with a value that has no JSON form, or with a lone surrogate, which has no encoding,
raises.  `json.loads` is a parameter.

A serialised object starts with a brace and holds no control character, so its line is one line
for the reader and not a blank one.  `jsonl_roundTrip_atomic` says that what was written is read
back in order, and that a raising row leaves a file at the path as it was. -/

namespace ExtpiRlsd

open PyText PyData Effects TextFiles Checked

/-- What the two functions raise: an error of the file system, the `ValueError` of `with_suffix`,
or what the iterable, the serialiser or the parser raised. -/
inductive JsonlError where
  | os (e : OSError)
  | suffix
  | row (e : PyError)
deriving DecidableEq

/-- An iterable: it yields rows, then ends or raises. -/
inductive RowIterable (ρ : Type) where
  | done
  | raises (e : PyError)
  | yields (row : ρ) (rest : RowIterable ρ)

namespace RowIterable

variable {ρ : Type} (serialise : ρ → Except PyError PyStr)

def ofList : List ρ → RowIterable ρ
  | [] => .done
  | row :: rows => .yields row (ofList rows)

/-- Iterating or serialising some row raises. -/
def Raises : RowIterable ρ → Prop
  | .done => False
  | .raises _ => True
  | .yields row rest => (∃ e, serialise row = .error e) ∨ Raises rest

/-- The iterable ends, and these are the texts of its rows. -/
inductive Serialised : RowIterable ρ → List PyStr → Prop
  | done : Serialised .done []
  | yields {row : ρ} {rest : RowIterable ρ} {text : PyStr} {texts : List PyStr}
      (hrow : serialise row = .ok text) (hrest : Serialised rest texts) :
      Serialised (.yields row rest) (text :: texts)

variable {serialise}

theorem Serialised.not_raises {rows : RowIterable ρ} {texts : List PyStr}
    (h : rows.Serialised serialise texts) : ¬ rows.Raises serialise := by
  induction h with
  | done => exact id
  | yields hrow _ ih =>
      rintro (⟨e, he⟩ | hrest)
      · rw [hrow] at he
        cases he
      · exact ih hrest

theorem serialised_ofList {rows : List ρ} {texts : List PyStr}
    (h : (ofList rows).Serialised serialise texts) :
    List.Forall₂ (fun row text => serialise row = .ok text) rows texts := by
  induction rows generalizing texts with
  | nil =>
      cases h
      exact .nil
  | cons row rows ih =>
      cases h with
      | yields hrow hrest => exact .cons hrow (ih hrest)

end RowIterable

/-! ### The writer -/

abbrev JsonlM := EStateM JsonlError FileTree

def onDisk {α : Type} (x : FileM α) : JsonlM α := EStateM.adaptExcept .os x

section writer
variable {ρ : Type} (serialise : ρ → Except PyError PyStr)

/-- The loop of `write_jsonl`. -/
def writeRows (tmp : PyPath) : RowIterable ρ → JsonlM Unit
  | .done => pure ()
  | .raises e => throw (.row e)
  | .yields row rest => match serialise row with
    | .error e => throw (.row e)
    | .ok text => do
        onDisk (appendText tmp (text ++ ['\n']))
        writeRows tmp rest

def writeJsonl (path : PyPath) (rows : RowIterable ρ) : JsonlM Unit := do
  onDisk (mkdir path.parent)
  match path.withSuffix (path.suffix ++ ".tmp".toList) with
  | none => throw .suffix
  | some tmp => do
      onDisk (openWrite tmp)
      writeRows serialise tmp rows
      onDisk (replaceFile tmp path)

end writer

/-! ### The reader -/

section reader
variable (loads : PyStr → Except PyError Json)

/-- The values of the lines that are not blank. -/
def parseLines : List PyStr → Except PyError (List Json)
  | [] => .ok []
  | line :: lines =>
      if strip line = [] then parseLines lines
      else do
        let v ← loads line
        let vs ← parseLines lines
        return v :: vs

def readJsonl (tree : FileTree) (path : PyPath) : Except JsonlError (List Json) := do
  let text ← (readText tree path).mapError .os
  (parseLines loads (fileLines text)).mapError .row

end reader

/-! ### What is written -/

section writes
variable {ρ : Type} {serialise : ρ → Except PyError PyStr}

/-- The loop touches the temporary file only; it raises only where a row does, and otherwise every
row stands behind what the file held. -/
theorem wp_writeRows {tmp : PyPath} {tree : FileTree} {old : PyStr} (rows : RowIterable ρ)
    (hfile : tree tmp = some (.file old)) :
    wp (writeRows serialise tmp rows) (fun r tree' => (∀ p, p ≠ tmp → tree' p = tree p) ∧ match r with
      | .ok _ => ∃ texts, rows.Serialised serialise texts ∧
          tree' tmp = some (.file (old ++ TextFiles.written texts))
      | .error _ => rows.Raises serialise) tree := by
  induction rows generalizing tree old with
  | done =>
      refine ⟨fun p _ => rfl, [], .done, ?_⟩
      rw [TextFiles.written, List.flatMap_nil, List.append_nil]
      exact hfile
  | raises e => exact ⟨fun p _ => rfl, trivial⟩
  | yields row rest ih =>
      rw [writeRows]
      cases hrow : serialise row with
      | error e => exact ⟨fun p _ => rfl, .inl ⟨e, hrow⟩⟩
      | ok text =>
          rw [wp_bind, onDisk, wp_adaptExcept, wp_appendText hfile]
          have hline := Function.update_self tmp (some (Node.file (old ++ (text ++ ['\n'])))) tree
          refine wp_mono (ih hline) ?_
          rintro r tree' ⟨hframe, hresult⟩
          refine ⟨fun p hp => (hframe p hp).trans (Function.update_of_ne hp _ _), ?_⟩
          cases r with
          | error e => exact .inr hresult
          | ok _ =>
              obtain ⟨texts, hrest, htmp⟩ := hresult
              refine ⟨text :: texts, .yields hrow hrest, ?_⟩
              rw [htmp, TextFiles.written, TextFiles.written, List.flatMap_cons, List.append_assoc]

variable (serialise) in
/-- **The writer.**  When it returns, the path holds the serialised rows, line by line; when it
raises, a file at the path is as it was. -/
theorem wp_writeJsonl (path : PyPath) (rows : RowIterable ρ) (tree : FileTree) :
    wp (writeJsonl serialise path rows) (fun r tree' => match r with
      | .ok _ => ∃ texts, rows.Serialised serialise texts ∧
          tree' path = some (.file (TextFiles.written texts))
      | .error _ => ∀ old, tree path = some (.file old) → tree' path = some (.file old)) tree := by
  rw [writeJsonl, wp_bind, onDisk, wp_adaptExcept, mkdir]
  refine wp_makeDirs [] path.parent fun r tree₁ hmade => ?_
  cases r with
  | error e => exact fun old hold => hmade path _ hold
  | ok _ =>
      cases hsuffix : path.withSuffix (path.suffix ++ ".tmp".toList) with
      | none => exact fun old hold => hmade path _ hold
      | some tmp =>
          have hne : path ≠ tmp := (PyPath.withSuffix_ne (by decide) hsuffix).symm
          show wp (onDisk (openWrite tmp) >>= fun _ => _) _ tree₁
          rw [wp_bind, onDisk, wp_adaptExcept]
          refine wp_openWrite (fun e old hold => hmade path _ hold) ?_
          have hempty := Function.update_self tmp (some (Node.file [])) tree₁
          show wp (writeRows serialise tmp rows >>= fun _ => _) _ _
          rw [wp_bind]
          refine wp_mono (wp_writeRows rows hempty) ?_
          rintro r tree₂ ⟨hframe, hresult⟩
          have hpath : tree₂ path = tree₁ path :=
            (hframe path hne).trans (Function.update_of_ne hne _ _)
          cases r with
          | error e => exact fun old hold => hpath.trans (hmade path _ hold)
          | ok _ =>
              obtain ⟨texts, hrows, htmp⟩ := hresult
              show wp (onDisk (replaceFile tmp path)) _ tree₂
              rw [onDisk, wp_adaptExcept]
              refine wp_replaceFile htmp ?_ ?_
              · exact fun e old hold => hpath.trans (hmade path _ hold)
              · exact ⟨texts, hrows, Function.update_self path _ _⟩

/-- Where a row raises the writer raises. -/
theorem writeJsonl_raises {path : PyPath} {rows : RowIterable ρ} (h : rows.Raises serialise)
    (tree : FileTree) : ∃ e, outcome (writeJsonl serialise path rows) tree = .error e := by
  have hwp := wp_writeJsonl serialise path rows tree
  unfold wp at hwp
  cases hout : outcome (writeJsonl serialise path rows) tree with
  | error e => exact ⟨e, rfl⟩
  | ok _ =>
      rw [hout] at hwp
      obtain ⟨texts, hrows, -⟩ := hwp
      exact absurd h hrows.not_raises

end writes

/-! ### What is read back -/

/-- `json.dumps(row, ensure_ascii=False, sort_keys=True)`. -/
def dumpsRow (floatRepr : PyFloat → PyStr) (row : Row) : PyStr :=
  Json.dumps floatRepr (Json.sortKeys (.obj row))

/-- What is assumed of the standard library: floats print without control characters, a line feed
behind a JSON text changes nothing, and every row reads back as it was. -/
structure JsonRoundTrips (floatRepr : PyFloat → PyStr) (loads : PyStr → Except PyError Json)
    (rows : List Row) : Prop where
  float : ∀ x, Json.NoControl (floatRepr x)
  lineFeed : ∀ text v, loads text = .ok v → loads (text ++ ['\n']) = .ok v
  row : ∀ row ∈ rows, ∃ v, loads (dumpsRow floatRepr row) = .ok v ∧ v.Same (.obj row)

section reads
variable {floatRepr : PyFloat → PyStr} {loads : PyStr → Except PyError Json}

/-- A serialised row is one line for the reader. -/
theorem oneLine_dumpsRow (hfloat : ∀ x, Json.NoControl (floatRepr x)) (row : Row) :
    OneLine (dumpsRow floatRepr row) := by
  have hcontrol := Json.noControl_dumps hfloat (Json.sortKeys (.obj row))
  constructor
  · intro hmem
    exact absurd (hcontrol _ hmem) (by decide)
  · intro hmem
    exact absurd (hcontrol _ hmem) (by decide)

/-- The line of a serialised row is not blank: it starts with a brace. -/
theorem strip_dumpsRow_ne_nil (row : Row) : strip (dumpsRow floatRepr row ++ ['\n']) ≠ [] := by
  have hbrace : '\x7b' ∈ dumpsRow floatRepr row ++ ['\n'] := by
    rw [dumpsRow, Json.sortKeys, Json.dumps_obj]
    exact List.mem_append_left _ List.mem_cons_self
  exact strip_ne_nil hbrace (by decide)

/-- Every line reads back as its row. -/
theorem parseLines_dumpsRow {rows : List Row} (h : JsonRoundTrips floatRepr loads rows) :
    ∃ vs, parseLines loads (rows.map fun row => dumpsRow floatRepr row ++ ['\n']) = .ok vs ∧
      List.Forall₂ Json.Same vs (rows.map Json.obj) := by
  obtain ⟨hfloat, hline, hrows⟩ := h
  induction rows with
  | nil => exact ⟨[], rfl, .nil⟩
  | cons row rows ih =>
      obtain ⟨v, hv, hsame⟩ := hrows row List.mem_cons_self
      obtain ⟨vs, hvs, hall⟩ := ih fun row hrow => hrows row (List.mem_cons_of_mem _ hrow)
      refine ⟨v :: vs, ?_, .cons hsame hall⟩
      rw [List.map_cons, parseLines, if_neg (strip_dumpsRow_ne_nil row), hline _ v hv, hvs]
      rfl

/-- A file of serialised rows reads back as the rows. -/
theorem readJsonl_written {rows : List Row} (h : JsonRoundTrips floatRepr loads rows)
    {tree : FileTree} {path : PyPath}
    (hfile : tree path = some (.file (TextFiles.written (rows.map (dumpsRow floatRepr))))) :
    ∃ vs, readJsonl loads tree path = .ok vs ∧ List.Forall₂ Json.Same vs (rows.map Json.obj) := by
  obtain ⟨vs, hvs, hall⟩ := parseLines_dumpsRow h
  have hlines : fileLines (TextFiles.written (rows.map (dumpsRow floatRepr))) =
      rows.map fun row => dumpsRow floatRepr row ++ ['\n'] := by
    rw [fileLines_written, List.map_map]
    · rfl
    · intro text htext
      obtain ⟨row, -, rfl⟩ := List.mem_map.mp htext
      exact oneLine_dumpsRow h.float row
  have hread : readText tree path = .ok (TextFiles.written (rows.map (dumpsRow floatRepr))) := by
    rw [readText, hfile]
  refine ⟨vs, ?_, hall⟩
  rw [readJsonl, hread]
  show (parseLines loads (fileLines _)).mapError JsonlError.row = _
  rw [hlines, hvs]
  rfl

/-- Where every row serialises to its text, the texts are those of the rows. -/
theorem texts_eq_map {serialise : Row → Except PyError PyStr}
    (hdumps : ∀ row text, serialise row = .ok text → text = dumpsRow floatRepr row)
    {rows : List Row} {texts : List PyStr}
    (h : List.Forall₂ (fun row text => serialise row = .ok text) rows texts) :
    texts = rows.map (dumpsRow floatRepr) := by
  induction h with
  | nil => rfl
  | cons hrow _ ih => rw [List.map_cons, ← hdumps _ _ hrow, ← ih]

end reads

/-- **JSONL files.**  What `write_jsonl` wrote when it returned, `read_jsonl` reads back in order;
and where iterating or serialising a row raises, `write_jsonl` raises and a file at the path is as
it was. -/
theorem jsonl_roundTrip_atomic :
    (∀ (floatRepr : PyFloat → PyStr) (loads : PyStr → Except PyError Json)
      (serialise : Row → Except PyError PyStr) (path : PyPath) (rows : List Row) (tree : FileTree),
      (∀ row text, serialise row = .ok text → text = dumpsRow floatRepr row) →
      JsonRoundTrips floatRepr loads rows →
      outcome (writeJsonl serialise path (.ofList rows)) tree = .ok () →
      ∃ vs, readJsonl loads (after (writeJsonl serialise path (.ofList rows)) tree) path = .ok vs ∧
        List.Forall₂ Json.Same vs (rows.map Json.obj)) ∧
    ∀ (ρ : Type) (serialise : ρ → Except PyError PyStr) (path : PyPath) (rows : RowIterable ρ)
      (tree : FileTree), rows.Raises serialise →
      (∃ e, outcome (writeJsonl serialise path rows) tree = .error e) ∧
      ∀ old, tree path = some (.file old) →
        after (writeJsonl serialise path rows) tree path = some (.file old) := by
  constructor
  · intro floatRepr loads serialise path rows tree hdumps hround hreturns
    have hwp := wp_writeJsonl serialise path (.ofList rows) tree
    rw [wp, hreturns] at hwp
    obtain ⟨texts, htexts, hfile⟩ := hwp
    rw [texts_eq_map hdumps (RowIterable.serialised_ofList htexts)] at hfile
    exact readJsonl_written hround hfile
  · intro ρ serialise path rows tree hraises
    obtain ⟨e, he⟩ := writeJsonl_raises hraises tree
    have hwp := wp_writeJsonl serialise path rows tree
    rw [wp, he] at hwp
    exact ⟨⟨e, he⟩, hwp⟩

/-- A row whose text holds line breaks of four kinds. -/
def brokenLines : Row := [("text".toList, .str "a\nb\rc\u2028d\u0085".toList)]

/-- A row of empty strings. -/
def emptyStrings : Row := [([], .str [])]

/-- A parser that knows the texts of these two rows. -/
def loadsTwoRows (text : PyStr) : Except PyError Json :=
  let text := text.rdropWhile fun c => decide (c = '\n')
  if text = "\x7b\"text\": \"a\\nb\\rc\u2028d\u0085\"\x7d".toList then .ok (.obj brokenLines)
  else if text = "\x7b\"\": \"\"\x7d".toList then .ok (.obj emptyStrings)
  else .error .valueError

/-- A directory with a file. -/
def oldRows : FileTree := fun path =>
  if path = ["data".toList] then some .dir
  else if path = ["data".toList, "rows.jsonl".toList] then some (.file "old".toList)
  else none

theorem dumpsRow_brokenLines (floatRepr : PyFloat → PyStr) :
    dumpsRow floatRepr brokenLines = "\x7b\"text\": \"a\\nb\\rc\u2028d\u0085\"\x7d".toList := by
  rw [dumpsRow, brokenLines, Json.sortKeys, Json.sortKeysObj, Json.sortKeysObj,
    List.mergeSort_singleton]
  rfl

theorem dumpsRow_emptyStrings (floatRepr : PyFloat → PyStr) :
    dumpsRow floatRepr emptyStrings = "\x7b\"\": \"\"\x7d".toList := by
  rw [dumpsRow, emptyStrings, Json.sortKeys, Json.sortKeysObj, Json.sortKeysObj,
    List.mergeSort_singleton]
  rfl

theorem jsonRoundTrips_two_rows :
    JsonRoundTrips (fun _ => "0.0".toList) loadsTwoRows [brokenLines, emptyStrings] where
  float := fun _ => by decide
  lineFeed := by
    intro text v h
    rw [← h, loadsTwoRows, loadsTwoRows, List.rdropWhile_concat_pos _ _ _ (by decide)]
  row := by
    intro row hrow
    rcases List.mem_pair.mp hrow with rfl | rfl
    · rw [dumpsRow_brokenLines]
      exact ⟨_, rfl, rfl⟩
    · rw [dumpsRow_emptyStrings]
      exact ⟨_, rfl, rfl⟩

/-- The two rows replace the file; with an iterable that raises behind the first the file stays. -/
theorem jsonl_roundTrip_atomic_two_rows :
    (∃ vs, readJsonl loadsTwoRows (after (writeJsonl (fun row =>
          .ok (dumpsRow (fun _ => "0.0".toList) row)) ["data".toList, "rows.jsonl".toList]
          (.ofList [brokenLines, emptyStrings])) oldRows) ["data".toList, "rows.jsonl".toList] = .ok vs ∧
        List.Forall₂ Json.Same vs [.obj brokenLines, .obj emptyStrings]) ∧
      after (writeJsonl (fun row => .ok (dumpsRow (fun _ => "0.0".toList) row))
        ["data".toList, "rows.jsonl".toList] (.yields brokenLines (.raises .valueError))) oldRows
        ["data".toList, "rows.jsonl".toList] = some (.file "old".toList) := by
  constructor
  · exact jsonl_roundTrip_atomic.1 (fun _ => "0.0".toList) loadsTwoRows _ _ _ oldRows
      (fun _ _ h => (Except.ok.inj h).symm) jsonRoundTrips_two_rows rfl
  · exact (jsonl_roundTrip_atomic.2 Row _ _ (.yields brokenLines (.raises .valueError)) oldRows
      (.inr trivial)).2 _ rfl

end ExtpiRlsd
