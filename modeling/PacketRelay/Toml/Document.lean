import PacketRelay.Toml.Scalar

/-!
# TOML documents

A document is read line by line: keys with values, and headers that open tables.  The lines are then
put together.  A table can be opened once; a table that only the path of a header or a dotted key
called for can be opened, or added to, later.
-/

namespace PacketRelay.Toml

/-- A text without the spaces and tabs at its beginning. -/
def skipSpace (cs : List Char) : List Char := cs.dropWhile fun c => c = ' ' || c = '\t'

def isBareKeyChar (c : Char) : Bool := c.isAlphanum || c = '_' || c = '-'

def readKey : List Char → Option (String × List Char)
  | '"' :: rest => readText.readShortText ('"' :: rest)
  | '\'' :: rest => readText.readShortText ('\'' :: rest)
  | cs =>
    let word := cs.takeWhile isBareKeyChar
    if word.isEmpty then none else some (String.ofList word, cs.dropWhile isBareKeyChar)

/-- How deep arrays and inline tables may nest, and how many parts a key may have. -/
def depthLimit : Nat := 79

/-- Reads the parts of a dotted key, at most `depth` of them, and the space after it. -/
def readPath : (depth : Nat) → List Char → Option (List String × List Char)
  | 0, _ => none
  | depth + 1, cs => do
    let (key, rest) ← readKey (skipSpace cs)
    match skipSpace rest with
    | '.' :: more => do
      let (keys, rest) ← readPath depth more
      return (key :: keys, rest)
    | rest => return ([key], rest)

/-- Skips space, line breaks and comments. -/
def skipLines : (inComment : Bool) → List Char → Option (List Char)
  | _, '\r' :: '\n' :: rest => skipLines false rest
  | _, '\n' :: rest => skipLines false rest
  | true, [] => some []
  | true, c :: rest => if isPlainChar c then skipLines true rest else none
  | false, ' ' :: rest => skipLines false rest
  | false, '\t' :: rest => skipLines false rest
  | false, '#' :: rest => skipLines true rest
  | false, cs => some cs

/-- Skips space and a comment up to and including the end of the line. -/
def finishLine : (inComment : Bool) → List Char → Option (List Char)
  | _, [] => some []
  | _, '\r' :: '\n' :: rest => some rest
  | _, '\n' :: rest => some rest
  | true, c :: rest => if isPlainChar c then finishLine true rest else none
  | false, ' ' :: rest => finishLine false rest
  | false, '\t' :: rest => finishLine false rest
  | false, '#' :: rest => finishLine true rest
  | false, _ => none

/-- How a table came to be. -/
inductive Origin where
  /-- Opened by its own header. -/
  | header
  /-- Called for by the path of a header. -/
  | path
  /-- Called for by a dotted key. -/
  | dottedKey
  deriving DecidableEq, Repr

/-- What stands under a key while a document is put together. -/
inductive Node where
  | value (v : Value)
  | table (origin : Origin) (entries : List (String × Node))
  /-- The tables opened one after another under the same header, the last one first. -/
  | tables (elements : List (List (String × Node)))

abbrev Nodes := List (String × Node)

mutual

def Node.toValue : Node → Value
  | .value v => v
  | .table _ entries => .table (Node.toEntries entries)
  | .tables elements => .array (Node.toTables elements).reverse

def Node.toEntries : Nodes → Table
  | [] => []
  | (key, node) :: rest => (key, node.toValue) :: Node.toEntries rest

def Node.toTables : List Nodes → List Value
  | [] => []
  | entries :: rest => .table (Node.toEntries entries) :: Node.toTables rest

end

namespace Nodes

/-- Replaces what stands under a key, or adds it at the end. -/
def put (key : String) (node : Node) : Nodes → Nodes
  | [] => [(key, node)]
  | (k, n) :: rest => if k = key then (key, node) :: rest else (k, n) :: put key node rest

/-- Adds a value under a dotted key.  The table to which it is added must have been called for by
such keys only. -/
def addValue (v : Value) : List String → Nodes → Option Nodes
  | [], _ => none
  | [key], t => if (t.lookup key).isSome then none else some (t.put key (.value v))
  | key :: key' :: keys, t =>
    match t.lookup key with
    | none => do return t.put key (.table .dottedKey (← addValue v (key' :: keys) []))
    | some (.table .dottedKey sub) => do
      return t.put key (.table .dottedKey (← addValue v (key' :: keys) sub))
    | some (.table .path sub) =>
      if keys.isEmpty then none
      else do return t.put key (.table .path (← addValue v (key' :: keys) sub))
    | some (.tables (last :: older)) =>
      if keys.isEmpty then none
      else do return t.put key (.tables ((← addValue v (key' :: keys) last) :: older))
    | some _ => none

/-- Changes the table under the path of a header with `f`, the tables on the way being called for if
they are not there. -/
def within (f : Nodes → Option Nodes) : List String → Nodes → Option Nodes
  | [], t => f t
  | key :: keys, t =>
    match t.lookup key with
    | none => do return t.put key (.table .path (← within f keys []))
    | some (.table origin sub) => do return t.put key (.table origin (← within f keys sub))
    | some (.tables (last :: older)) => do
      return t.put key (.tables ((← within f keys last) :: older))
    | some _ => none

/-- Opens a table, which then is the last one. -/
def openTable (key : String) (t : Nodes) : Option Nodes :=
  match t.lookup key with
  | none => some (t.put key (.table .header []))
  | some (.table .path sub) => some (t.filter (·.1 ≠ key) ++ [(key, .table .header sub)])
  | some _ => none

/-- Opens another table of an array. -/
def openElement (key : String) (t : Nodes) : Option Nodes :=
  match t.lookup key with
  | none => some (t.put key (.tables [[]]))
  | some (.tables elements) => some (t.put key (.tables ([] :: elements)))
  | some _ => none

end Nodes

abbrev ValueReader := List Char → Option (Value × List Char)

/-- Reads the items of an array, at most `fuel` of them, after its bracket or a comma. -/
def readItems (read : ValueReader) : (fuel : Nat) → List Char → Option (List Value × List Char)
  | 0, _ => none
  | fuel + 1, cs => do
    match ← skipLines false cs with
    | ']' :: rest => return ([], rest)
    | cs =>
      let (v, rest) ← read cs
      match ← skipLines false rest with
      | ']' :: rest => return ([v], rest)
      | ',' :: rest => do
        let (vs, rest) ← readItems read fuel rest
        return (v :: vs, rest)
      | _ => none

def readEntry (read : ValueReader) (cs : List Char) :
    Option ((List String × Value) × List Char) := do
  let (path, rest) ← readPath depthLimit cs
  let (v, rest) ← read (skipSpace (← after '=' rest))
  return ((path, v), rest)

/-- Reads the entries of an inline table, at most `fuel` of them, after its brace or a comma. -/
def readEntries (read : ValueReader) : (fuel : Nat) → List Char →
    Option (List (List String × Value) × List Char)
  | 0, _ => none
  | fuel + 1, cs => do
    let (entry, rest) ← readEntry read cs
    match skipSpace rest with
    | '\x7d' :: rest => return ([entry], rest)
    | ',' :: rest => do
      let (entries, rest) ← readEntries read fuel rest
      return (entry :: entries, rest)
    | _ => none

/-- Reads a value in which arrays and inline tables nest at most `depth` deep. -/
def readValue : (depth : Nat) → ValueReader
  | _, '"' :: rest => (readText ('"' :: rest)).map fun (s, rest) => (.text s, rest)
  | _, '\'' :: rest => (readText ('\'' :: rest)).map fun (s, rest) => (.text s, rest)
  | depth + 1, '[' :: rest => do
    let (items, rest) ← readItems (readValue depth) (rest.length + 1) rest
    return (.array items, rest)
  | depth + 1, '\x7b' :: rest => do
    let (entries, rest) ← match skipSpace rest with
      | '\x7d' :: rest => some ([], rest)
      | rest => readEntries (readValue depth) rest.length rest
    let nodes ← entries.foldlM (fun t (path, v) => Nodes.addValue v path t) []
    return (.table (Node.toEntries nodes), rest)
  | _, cs => readScalar cs

/-- A document as far as it has been read: its table, and the path of the table that is open. -/
structure Draft where
  nodes : Nodes
  path : List String

/-- Opens the table that a header names. -/
def Draft.enter (d : Draft) (path : List String) (opening : String → Nodes → Option Nodes) :
    Option Draft := do
  let key ← path.getLast?
  return ⟨← Nodes.within (opening key) path.dropLast d.nodes, path⟩

/-- Reads a header or an entry, which stands at the beginning of a line. -/
def readLine (d : Draft) : List Char → Option (Draft × List Char)
  | '[' :: '[' :: cs => do
    let (path, rest) ← readPath depthLimit cs
    return (← d.enter path Nodes.openElement, ← after ']' (← after ']' rest))
  | '[' :: cs => do
    let (path, rest) ← readPath depthLimit cs
    return (← d.enter path Nodes.openTable, ← after ']' rest)
  | cs => do
    let ((path, v), rest) ← readEntry (readValue depthLimit) cs
    return (⟨← Nodes.within (Nodes.addValue v path) d.path d.nodes, d.path⟩, rest)

def readLines : (fuel : Nat) → Draft → List Char → Option Draft
  | 0, _, _ => none
  | fuel + 1, d, cs => do
    match ← skipLines false cs with
    | [] => return d
    | cs =>
      let (d, rest) ← readLine d cs
      readLines fuel d (← finishLine false rest)

/-- The table that a document denotes.  A byte order mark at its beginning is ignored. -/
def parse? (s : String) : Option Table := do
  let cs := match s.toList with
    | '\uFEFF' :: rest => rest
    | cs => cs
  let d ← readLines (cs.length + 1) ⟨[], []⟩ cs
  return Node.toEntries d.nodes

end PacketRelay.Toml
