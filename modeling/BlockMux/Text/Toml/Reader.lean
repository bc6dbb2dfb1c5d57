import BlockMux.Text.Toml.DateTime
import BlockMux.Text.Toml.Lexical
import BlockMux.Text.Toml.Number
import BlockMux.Text.Toml.Value

/-!
# Reading TOML

The readers of values call each other, so each call is given a number that bounds the calls below
it; the length of the document is enough. Arrays and inline tables may nest to a fixed depth.
-/

namespace BlockMux.Toml

/-- How deep arrays and inline tables may nest. -/
def maxDepth : Nat := 79

/-- A value that is a single word, with the characters after it. A date may be followed by a
space and a time. -/
def word? (cs : List Char) : Option (Value × List Char) :=
  let word := cs.takeWhile isWordChar
  let rest := cs.dropWhile isWordChar
  if word = ['t', 'r', 'u', 'e'] then some (.boolean true, rest)
  else if word = ['f', 'a', 'l', 's', 'e'] then some (.boolean false, rest)
  else
    match integer? word with
    | some n => some (.integer n, rest)
    | none =>
      if isDate word then
        match rest with
        | ' ' :: time =>
          if isTimeOfDate (time.takeWhile isWordChar) then
            some (.other, time.dropWhile isWordChar)
          else some (.other, rest)
        | _ => some (.other, rest)
      else if isFloat word || isDateTime word then some (.other, rest)
      else none

mutual

/-- A value. -/
def value? (depth : Nat) : (limit : Nat) → List Char → Option (Value × List Char)
  | 0, _ => none
  | limit + 1, cs =>
    match cs with
    | '"' :: _ => (quoted? cs).map fun (text, cs) => (.text (String.ofList text), cs)
    | '\x27' :: _ => (quoted? cs).map fun (text, cs) => (.text (String.ofList text), cs)
    | '[' :: cs =>
      if depth = 0 then none
      else (elements? (depth - 1) limit (skipFiller false cs)).map fun (vs, cs) => (.list vs, cs)
    | '{' :: cs =>
      if depth = 0 then none
      else
        match skipBlanks cs with
        | '}' :: cs => some (.table [], cs)
        | cs => do
          let (entries, cs) ← entries? (depth - 1) limit cs
          if prefixFree (entries.map (·.1)) then some (.table entries, cs) else none
    | cs => word? cs

/-- The elements of an array up to its closing bracket, where an element or the bracket comes
next. -/
def elements? (depth : Nat) : (limit : Nat) → List Char → Option (List Value × List Char)
  | 0, _ => none
  | limit + 1, cs =>
    match cs with
    | ']' :: cs => some ([], cs)
    | cs => do
      let (value, cs) ← value? depth limit cs
      match skipFiller false cs with
      | ']' :: cs => some ([value], cs)
      | ',' :: cs =>
        let (values, cs) ← elements? depth limit (skipFiller false cs)
        some (value :: values, cs)
      | _ => none

/-- The entries of an inline table up to its closing brace. -/
def entries? (depth : Nat) :
    (limit : Nat) → List Char → Option (List (List String × Value) × List Char)
  | 0, _ => none
  | limit + 1, cs => do
    let (path, cs) ← path? maxNames cs
    match cs with
    | '=' :: cs =>
      let (value, cs) ← value? depth limit (skipBlanks cs)
      match skipBlanks cs with
      | '}' :: cs => some ([(path, value)], cs)
      | ',' :: cs =>
        let (entries, cs) ← entries? depth limit cs
        some ((path, value) :: entries, cs)
      | _ => none
    | _ => none

end

/-- A statement, without the end of its line. -/
def statement? (cs : List Char) : Option (Statement × List Char) :=
  match cs with
  | '[' :: '[' :: cs => do
    let (path, cs) ← path? maxNames cs
    match cs with
    | ']' :: ']' :: cs => some (.element path, cs)
    | _ => none
  | '[' :: cs => do
    let (path, cs) ← path? maxNames cs
    match cs with
    | ']' :: cs => some (.table path, cs)
    | _ => none
  | cs => do
    let (path, cs) ← path? maxNames cs
    match cs with
    | '=' :: cs =>
      let (value, cs) ← value? maxDepth (2 * cs.length + 1) (skipBlanks cs)
      some (.assign path value, cs)
    | _ => none

/-- The statements of at most `limit` lines. -/
def statements? : (limit : Nat) → List Char → Option (List Statement)
  | 0, cs => if cs = [] then some [] else none
  | limit + 1, cs =>
    if cs = [] then some []
    else
      match lineEnd? cs with
      | some cs => statements? limit cs
      | none => do
        let (statement, cs) ← statement? (skipBlanks cs)
        let cs ← lineEnd? cs
        let statements ← statements? limit cs
        return statement :: statements

/-- Skips a byte order mark. -/
def skipMark : List Char → List Char
  | c :: cs => if c.toNat = 0xFEFF then cs else c :: cs
  | [] => []

/-- Reads a document. -/
def read? (document : String) : Option (List Statement) :=
  let cs := skipMark document.toList
  statements? (cs.length + 1) cs

end BlockMux.Toml
