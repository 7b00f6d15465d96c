import SourceOutline.Keyed

/-
  TOML values, and tables built from the statements of a document.

  A table remembers how it came about, because that decides what may still be added to it: a table
  under a header takes no second header, dotted keys reach only tables that were not given a header,
  and a table in braces is closed.
-/

namespace SourceOutline

inductive TableOrigin where
  /-- Given by a header, as the top of the document is. -/
  | header
  /-- On the way of a header to a table further down. -/
  | implied
  /-- On the way of a dotted key. -/
  | dotted
  /-- Written in braces. -/
  | braced
deriving DecidableEq

inductive Toml where
  | string (s : String)
  | integer (n : Int)
  | boolean (b : Bool)
  /-- A number with a fraction or an exponent, infinity or no number, as its text. -/
  | float (text : String)
  /-- A date or a time, as its text. -/
  | moment (text : String)
  | array (items : List Toml)
  | table (origin : TableOrigin) (entries : List (String × Toml))
  /-- The tables under double-bracketed headers of one name. -/
  | tables (items : List (List (String × Toml)))

namespace Toml

abbrev Entries := List (String × Toml)

def get? (entries : Entries) (key : String) : Option Toml :=
  (Keyed.find? Prod.fst key entries).map Prod.snd

def put (entries : Entries) (key : String) (v : Toml) : Entries :=
  Keyed.put Prod.fst (key, v) entries

/-- Changes the table at the end of a path, making the tables on the way that are missing. A name
    with several tables leads to the last of them. -/
def modifyAt (dotted : Bool) (change : TableOrigin → Entries → Option (TableOrigin × Entries)) :
    List String → TableOrigin → Entries → Option (TableOrigin × Entries)
  | [], origin, entries => change origin entries
  | key :: path, origin, entries =>
    match get? entries key with
    | none => do
      let (o, es) ← modifyAt dotted change path (if dotted then .dotted else .implied) []
      pure (origin, put entries key (.table o es))
    | some (.table o es) =>
      if o = .braced ∨ (dotted = true ∧ o = .header) then none
      else do
        let (o, es) ← modifyAt dotted change path o es
        pure (origin, put entries key (.table o es))
    | some (.tables items) =>
      match items.getLast? with
      | none => none
      | some last => do
        let (_, es) ← modifyAt dotted change path .header last
        pure (origin, put entries key (.tables (items.dropLast ++ [es])))
    | some _ => none

/-- Adds a pair under the last name of a dotted key. A name is given once, and no table takes pairs
    both by its own header and by dotted keys. -/
def addPair (path : List String) (v : Toml) (origin : TableOrigin) (entries : Entries) :
    Option (TableOrigin × Entries) :=
  match path.getLast? with
  | none => none
  | some key =>
    let above := path.dropLast
    modifyAt true (fun o es =>
      if decide (o = .dotted) = above.isEmpty ∨ (get? es key).isSome then none
      else some (o, put es key v)) above origin entries

/-- The table in braces that holds some pairs. -/
def ofPairs? (pairs : List (List String × Toml)) : Option Toml := do
  let (o, es) ← pairs.foldlM (fun t p => addPair p.1 p.2 t.1 t.2) (TableOrigin.braced, [])
  pure (.table o es)

/-! ## Documents -/

inductive Statement where
  | header (path : List String)
  | arrayHeader (path : List String)
  | pair (path : List String) (v : Toml)

/-- Opens the table of a header: new, or so far only on the way of other headers. -/
def openTable (path : List String) (entries : Entries) : Option Entries :=
  match path.getLast? with
  | none => none
  | some key => (modifyAt false (fun o es =>
      match get? es key with
      | none => some (o, put es key (.table .header []))
      | some (.table .implied inner) => some (o, put es key (.table .header inner))
      | some _ => none) path.dropLast .header entries).map Prod.snd

/-- Starts one more table under a double-bracketed header. -/
def openArrayTable (path : List String) (entries : Entries) : Option Entries :=
  match path.getLast? with
  | none => none
  | some key => (modifyAt false (fun o es =>
      match get? es key with
      | none => some (o, put es key (.tables [[]]))
      | some (.tables items) => some (o, put es key (.tables (items ++ [[]])))
      | some _ => none) path.dropLast .header entries).map Prod.snd

/-- One statement after others: the path of the open table, and the top of the document. -/
def step (state : List String × Entries) : Statement → Option (List String × Entries)
  | .header path => do pure (path, ← openTable path state.2)
  | .arrayHeader path => do pure (path, ← openArrayTable path state.2)
  | .pair path v => do
    let (_, es) ← modifyAt false (addPair path v) state.1 .header state.2
    pure (state.1, es)

def ofStatements? (statements : List Statement) : Option Entries :=
  (statements.foldlM step ([], [])).map Prod.snd

end Toml

end SourceOutline
