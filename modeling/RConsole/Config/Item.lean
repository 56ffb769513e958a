namespace RConsole.Toml

abbrev Name := List Char

/-- A stretch of a text, told by how many characters are left where it starts and where it stops. -/
structure Span where
  start : Nat
  stop : Nat
  deriving DecidableEq, Repr

structure Key where
  name : Name
  span : Span
  deriving DecidableEq, Repr

inductive Origin where
  | header
  | implied
  | dotted
  | braces
  deriving DecidableEq, Repr

inductive Item where
  | text (span : Span) (value : List Char)
  | integer (span : Span) (value : Int)
  | real (span : Span) (bits : UInt64)
  | boolean (span : Span) (value : Bool)
  | date (span : Span)
  | array (span : Span) (items : List Item)
  | table (origin : Origin) (span : Option Span) (entries : List (Key × Item))
  | tables (rows : List (Option Span × List (Key × Item)))

def Item.span? : Item → Option Span
  | text span _ => some span
  | integer span _ => some span
  | real span _ => some span
  | boolean span _ => some span
  | date span => some span
  | array span _ => some span
  | table _ span _ => span
  | tables rows =>
    match rows.head?.bind Prod.fst, rows.getLast?.bind Prod.fst with
    | some first, some last => some ⟨first.start, last.stop⟩
    | _, _ => none

abbrev Entries := List (Key × Item)

structure Table where
  origin : Origin
  span : Option Span := none
  entries : Entries := []

namespace Entries

def find? (es : Entries) (k : Name) : Option Item :=
  (List.find? (fun e => e.1.name = k) es).map Prod.snd

def without (es : Entries) (k : Name) : Entries := es.filter fun e => e.1.name ≠ k

def replace (es : Entries) (k : Name) (item : Item) : Entries :=
  es.map fun e => if e.1.name = k then (e.1, item) else e

end Entries

namespace Table

/-- Changes the table at the end of a path, on which missing tables are made. A header leads
through every table but those in braces; a dotted key also not through one with a header. -/
def update (dotted : Bool) (change : Table → Option Table) : List Key → Table → Option Table
  | [], t => change t
  | k :: path, t =>
    match Entries.find? t.entries k.name with
    | none => do
      let inner ← update dotted change path { origin := if dotted then .dotted else .implied }
      return { t with entries := t.entries ++ [(k, .table inner.origin inner.span inner.entries)] }
    | some (.table origin span entries) =>
      if origin = .braces ∨ (dotted ∧ origin = .header) then none
      else do
        let inner ← update dotted change path ⟨origin, span, entries⟩
        return { t with
          entries := Entries.replace t.entries k.name
            (.table inner.origin inner.span inner.entries) }
    | some (.tables rows) =>
      match rows.getLast? with
      | none => none
      | some last => do
        let inner ← update dotted change path ⟨.header, last.1, last.2⟩
        return { t with
          entries := Entries.replace t.entries k.name
            (.tables (rows.dropLast ++ [(inner.span, inner.entries)])) }
    | some _ => none

def add (k : Key) (item : Item) (t : Table) : Option Table :=
  match Entries.find? t.entries k.name with
  | none => some { t with entries := t.entries ++ [(k, item)] }
  | some _ => none

def assign (path : List Key) (k : Key) (item : Item) (t : Table) : Option Table :=
  t.update true
    (fun inner =>
      if decide (inner.origin = .dotted) = path.isEmpty then none else inner.add k item) path

def ofPairs (pairs : List ((List Key × Key) × Item)) : Option Entries :=
  (pairs.foldlM (fun t p => assign p.1.1 p.1.2 p.2 t) { origin := .braces }).map Table.entries

end Table

structure Document where
  root : Entries := []
  path : List Key := []
  inRow : Bool := false
  current : Table := { origin := .header }

namespace Document

def whole (entries : Entries) : Table := { origin := .header, entries := entries }

def within (d : Document) (path : List Key) (change : Table → Option Table) : Option Entries :=
  (Table.update false change path (whole d.root)).map Table.entries

def append (k : Key) (row : Table) (t : Table) : Option Table :=
  match Entries.find? t.entries k.name with
  | none => some { t with entries := t.entries ++ [(k, .tables [(row.span, row.entries)])] }
  | some (.tables rows) =>
    some { t with
      entries := Entries.replace t.entries k.name (.tables (rows ++ [(row.span, row.entries)])) }
  | some _ => none

def close (d : Document) : Option Entries :=
  let current := d.current
  match d.path.getLast? with
  | none => some current.entries
  | some k =>
    d.within d.path.dropLast
      (if d.inRow then append k current
        else Table.add k (.table current.origin current.span current.entries))

def lookUp : List Key → Key → Table → Option (Option Item)
  | [], k, t => some (Entries.find? t.entries k.name)
  | step :: path, k, t =>
    match Entries.find? t.entries step.name with
    | some (.table origin span entries) => lookUp path k ⟨origin, span, entries⟩
    | some (.tables rows) => (rows.getLast?).bind fun row => lookUp path k ⟨.header, row.1, row.2⟩
    | _ => none

def openTable (span : Span) (path : List Key) (k : Key) (d : Document) : Option Document := do
  let root ← d.close
  let parent ← (Table.update false some path (whole root)).map Table.entries
  let taken ← Table.update false
    (fun t => some { t with entries := Entries.without t.entries k.name }) path (whole parent)
  let opened (root entries : Entries) : Document :=
    { root := root, path := path ++ [k], current := ⟨.header, some span, entries⟩ }
  match ← lookUp path k (whole parent) with
  | none => return opened parent []
  | some (.table .implied _ entries) => return opened taken.entries entries
  | some _ => none

def openRow (span : Span) (path : List Key) (k : Key) (d : Document) : Option Document := do
  let root ← d.close
  let parent ← (Table.update false (fun t =>
    match Entries.find? t.entries k.name with
    | none => some { t with entries := t.entries ++ [(k, .tables [])] }
    | some (.tables _) => some t
    | some _ => none) path (whole root)).map Table.entries
  return { root := parent, path := path ++ [k], inRow := true, current := ⟨.header, some span, []⟩ }

def assign (path : List Key) (k : Key) (item : Item) (d : Document) : Option Document := do
  let current ← d.current.assign path k item
  let reach (span : Span) : Span :=
    match item.span? with
    | some last => ⟨span.start, last.stop⟩
    | none => span
  return { d with current := { current with span := current.span.map reach } }

end Document

end RConsole.Toml
