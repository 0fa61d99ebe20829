import ExtpiRlsd.Lib.Effect
import ExtpiRlsd.Lib.PyText

/-! # Text files

A tree of directories and text files, with the operations of `pathlib` and `os` by which a
program replaces a file: make the directories above it, open another file for writing, append to
that one, and move it over the first.  Each operation has one rule for `wp`; an operation that
raises leaves every file as it was.

Text is written as it is, where the line separator of the system is the line feed.  A file is read
in universal newlines mode: a carriage return, with or without a line feed behind it, reads as a line
feed, and the lines end at the line feeds.  No other character ends a line.  A file written as
lines of texts without either character is read as these lines (`fileLines_written`). -/

namespace TextFiles

open PyText Effects

/-! ### Lines -/

/-- Both line endings with a carriage return read as a line feed. -/
def universalNewlines : PyStr → PyStr
  | '\r' :: '\n' :: s => '\n' :: universalNewlines s
  | '\r' :: s => '\n' :: universalNewlines s
  | c :: s => c :: universalNewlines s
  | [] => []

/-- The lines of a text, each with the line feed that ends it. -/
def splitLines : PyStr → List PyStr
  | [] => []
  | c :: s =>
      if c = '\n' then ['\n'] :: splitLines s
      else match splitLines s with
        | [] => [[c]]
        | line :: lines => (c :: line) :: lines

/-- The lines that a file opened for reading yields. -/
def fileLines (text : PyStr) : List PyStr := splitLines (universalNewlines text)

/-- The text holds neither a line feed nor a carriage return. -/
def OneLine (text : PyStr) : Prop := '\n' ∉ text ∧ '\r' ∉ text

theorem universalNewlines_eq_self {text : PyStr} (h : '\r' ∉ text) :
    universalNewlines text = text := by
  induction text with
  | nil => rfl
  | cons c s ih =>
      have hc : c ≠ '\r' := fun heq => h (heq ▸ List.mem_cons_self)
      have hs : '\r' ∉ s := fun hmem => h (List.mem_cons_of_mem c hmem)
      rw [universalNewlines, ih hs]
      · rintro s' heq
        exact absurd heq hc
      · exact hc

/-- The first line ends at the first line feed. -/
theorem splitLines_append {text : PyStr} (h : '\n' ∉ text) (rest : PyStr) :
    splitLines (text ++ '\n' :: rest) = (text ++ ['\n']) :: splitLines rest := by
  induction text with
  | nil => rfl
  | cons c s ih =>
      have hc : c ≠ '\n' := fun heq => h (heq ▸ List.mem_cons_self)
      have hs : '\n' ∉ s := fun hmem => h (List.mem_cons_of_mem c hmem)
      rw [List.cons_append, splitLines, if_neg hc, ih hs]
      rfl

/-- What a loop has written that ends every text with a line feed. -/
def written (texts : List PyStr) : PyStr := texts.flatMap fun text => text ++ ['\n']

/-- **Lines read as they were written.** -/
theorem fileLines_written {texts : List PyStr} (h : ∀ text ∈ texts, OneLine text) :
    fileLines (written texts) = texts.map fun text => text ++ ['\n'] := by
  have hreturn : '\r' ∉ written texts := by
    intro hmem
    obtain ⟨text, htext, hmem⟩ := List.mem_flatMap.mp hmem
    rcases List.mem_append.mp hmem with hmem | hmem
    · exact (h text htext).2 hmem
    · exact absurd (List.mem_singleton.mp hmem) (by decide)
  rw [fileLines, universalNewlines_eq_self hreturn]
  clear hreturn
  induction texts with
  | nil => rfl
  | cons text texts ih =>
      have hfirst : '\n' ∉ text := (h text List.mem_cons_self).1
      have hrest := ih fun t ht => h t (List.mem_cons_of_mem text ht)
      have hsplit : written (text :: texts) = text ++ '\n' :: written texts := by
        simp [written]
      rw [hsplit, splitLines_append hfirst, hrest, List.map_cons]

/-! ### Paths -/

/-- The parts of a path. -/
abbrev PyPath := List PyStr

/-- `path.parent`. -/
def PyPath.parent (path : PyPath) : PyPath := path.dropLast

/-- `path.name`. -/
def PyPath.name (path : PyPath) : PyStr := path.getLast?.getD []

/-- `path.suffix`: from the last dot on, unless that is the first or the last character. -/
def PyPath.suffix (path : PyPath) : PyStr :=
  let extension := path.name.rtakeWhile fun c => decide (c ≠ '.')
  if extension ≠ [] ∧ extension.length + 1 < path.name.length then '.' :: extension else []

/-- `path.with_suffix(suffix)`; there is none for a path without a name and for a suffix that is
none. -/
def PyPath.withSuffix (path : PyPath) (suffix : PyStr) : Option PyPath :=
  if path.name = [] ∨ '/' ∈ suffix ∨ suffix = ['.'] ∨ (suffix ≠ [] ∧ suffix.head? ≠ some '.') then none
  else some (path.parent ++ [path.name.take (path.name.length - path.suffix.length) ++ suffix])

/-- A longer suffix gives another path. -/
theorem PyPath.withSuffix_ne {path tmp : PyPath} {more : PyStr} (hmore : more ≠ [])
    (h : path.withSuffix (path.suffix ++ more) = some tmp) : tmp ≠ path := by
  unfold PyPath.withSuffix at h
  split at h
  · cases h
  · rintro rfl
    obtain heq := Option.some.inj h
    have hname : tmp.name = tmp.name.take (tmp.name.length - tmp.suffix.length) ++
        (tmp.suffix ++ more) := by
      conv_lhs => rw [← heq, PyPath.name, List.getLast?_concat, Option.getD_some]
    have hlen := congrArg List.length hname
    have hpos := List.length_pos_of_ne_nil hmore
    rw [List.length_append, List.length_append, List.length_take] at hlen
    omega

/-! ### The tree -/

inductive Node where
  | dir
  | file (text : PyStr)
deriving DecidableEq

/-- What stands at each path. -/
abbrev FileTree := PyPath → Option Node

inductive OSError where
  | fileNotFound
  | fileExists
  | notADirectory
  | isADirectory
deriving DecidableEq

abbrev FileM := EStateM OSError FileTree

/-- `os.mkdir` at the parts of a path, one after the other, where there is no directory. -/
def makeDirs (above : PyPath) : PyPath → FileM Unit
  | [] => pure ()
  | part :: rest => fun tree =>
      match tree (above ++ [part]) with
      | some .dir => makeDirs (above ++ [part]) rest tree
      | none => makeDirs (above ++ [part]) rest (Function.update tree (above ++ [part]) (some .dir))
      | some (.file _) => .error (if rest = [] then .fileExists else .notADirectory) tree

/-- `path.mkdir(parents=True, exist_ok=True)`. -/
def mkdir (path : PyPath) : FileM Unit := makeDirs [] path

/-- `path.open("w")`: the file is empty afterwards. -/
def openWrite (path : PyPath) : FileM Unit := fun tree =>
  match tree path.parent, tree path with
  | none, _ => .error .fileNotFound tree
  | some (.file _), _ => .error .notADirectory tree
  | some .dir, some .dir => .error .isADirectory tree
  | some .dir, _ => .ok () (Function.update tree path (some (.file [])))

/-- `handle.write(text)` on a file that is open for writing. -/
def appendText (path : PyPath) (text : PyStr) : FileM Unit := fun tree =>
  match tree path with
  | some (.file old) => .ok () (Function.update tree path (some (.file (old ++ text))))
  | some .dir => .error .isADirectory tree
  | none => .error .fileNotFound tree

/-- `source.replace(target)` for a file. -/
def replaceFile (source target : PyPath) : FileM Unit := fun tree =>
  match tree source, tree target with
  | some (.file _), some .dir => .error .isADirectory tree
  | some (.file text), _ =>
      .ok () (Function.update (Function.update tree source none) target (some (.file text)))
  | some .dir, _ => .error .notADirectory tree
  | none, _ => .error .fileNotFound tree

/-- The text of a file that is opened for reading. -/
def readText (tree : FileTree) (path : PyPath) : Except OSError PyStr :=
  match tree path with
  | some (.file text) => .ok text
  | some .dir => .error .isADirectory
  | none => .error .fileNotFound

/-! ### What the operations do -/

section rules
variable {Q : Except OSError Unit → FileTree → Prop} {tree : FileTree}

/-- Directories are made where nothing was. -/
theorem wp_makeDirs (above path : PyPath)
    (h : ∀ r tree', (∀ p node, tree p = some node → tree' p = some node) → Q r tree') :
    wp (makeDirs above path) Q tree := by
  induction path generalizing above tree with
  | nil => exact h _ _ fun _ _ hp => hp
  | cons part rest ih =>
      cases hnode : tree (above ++ [part]) with
      | none =>
          have hkept : ∀ p node, tree p = some node →
              Function.update tree (above ++ [part]) (some .dir) p = some node := by
            intro p node hp
            rw [Function.update_of_ne, hp]
            rintro rfl
            rw [hnode] at hp
            cases hp
          simp only [wp, outcome, after, EStateM.run, makeDirs, hnode] at ih ⊢
          exact ih (above ++ [part]) fun r tree' hgrows =>
            h r tree' fun p node hp => hgrows p node (hkept p node hp)
      | some node => cases node with
        | dir => simpa only [wp, outcome, after, EStateM.run, makeDirs, hnode] using ih (above ++ [part]) h
        | file text =>
            simp only [wp, outcome, after, EStateM.run, makeDirs, hnode]
            exact h _ _ fun _ _ hp => hp

theorem wp_openWrite {path : PyPath} (herror : ∀ e, Q (.error e) tree)
    (hok : Q (.ok ()) (Function.update tree path (some (.file [])))) :
    wp (openWrite path) Q tree := by
  simp only [wp, outcome, after, EStateM.run, openWrite]
  cases tree path.parent with
  | none => exact herror _
  | some node => cases node with
    | file text => exact herror _
    | dir => cases tree path with
      | none => exact hok
      | some node => cases node with
        | dir => exact herror _
        | file old => exact hok

theorem wp_appendText {path : PyPath} {text old : PyStr} (hfile : tree path = some (.file old)) :
    wp (appendText path text) Q tree ↔
      Q (.ok ()) (Function.update tree path (some (.file (old ++ text)))) := by
  simp only [wp, outcome, after, EStateM.run, appendText, hfile]

theorem wp_replaceFile {source target : PyPath} {text : PyStr} (hfile : tree source = some (.file text))
    (herror : ∀ e, Q (.error e) tree)
    (hok : Q (.ok ()) (Function.update (Function.update tree source none) target (some (.file text)))) :
    wp (replaceFile source target) Q tree := by
  simp only [wp, outcome, after, EStateM.run, replaceFile, hfile]
  cases tree target with
  | none => exact hok
  | some node => cases node with
    | dir => exact herror _
    | file old => exact hok

end rules

end TextFiles
