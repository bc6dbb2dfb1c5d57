/-!
# TOML documents

A document is a list of statements: assignments of values to keys, and headers that open a table
or the next element of an array of tables. A key is a path of names.
-/

namespace BlockMux.Toml

/-- A value. Floats and dates, which no setting of this library takes, are told apart no
further. -/
inductive Value where
  | text (s : String)
  | integer (n : Int)
  | boolean (b : Bool)
  | list (elements : List Value)
  /-- An inline table, with the paths as written. -/
  | table (entries : List (List String × Value))
  | other
  deriving Repr

/-- One statement of a document. -/
inductive Statement where
  | assign (path : List String) (value : Value)
  /-- A header in single brackets. -/
  | table (path : List String)
  /-- A header in double brackets. -/
  | element (path : List String)
  deriving Repr

/-- Whether no path is the start of another, or equal to it: each then has a place of its own in
a table. -/
def prefixFree : List (List String) → Bool
  | [] => true
  | path :: paths =>
    paths.all (fun other => !path.isPrefixOf other && !other.isPrefixOf path) && prefixFree paths

end BlockMux.Toml
