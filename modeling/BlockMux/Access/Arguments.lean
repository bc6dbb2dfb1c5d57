import BlockMux.Access.Quantity
import BlockMux.Text.Blank

/-!
# Argument text

A client asks for a session with a text such as `ram_quota=64K, label="fs -> root"`: items
separated by commas, each a key, an equals sign and a value. Commas inside double quotes do not
separate, blank characters around items, keys and values do not count, and one pair of quotes
around a value is taken off.
-/

namespace BlockMux

/-- Why argument text, or one of its values, is refused. -/
inductive ArgumentError where
  /-- An item has no equals sign, or a blank key. -/
  | malformed (item : String)
  /-- The quotes do not pair up. -/
  | unterminatedQuote
  /-- The value of `key` is not of the kind asked for. -/
  | invalidValue (key value : String)
  deriving DecidableEq, Repr

namespace ArgumentError

/-- The text of the error. -/
def message : ArgumentError → String
  | malformed item => s!"malformed session argument '{item}'"
  | unterminatedQuote => "unterminated quote in session arguments"
  | invalidValue key value => s!"invalid value '{value}' for session argument '{key}'"

end ArgumentError

/-- Keys with their values, in the order written; a key may occur twice. -/
structure Arguments where
  pairs : List (String × String)
  deriving DecidableEq, Repr

namespace Arguments

/-! ## Reading -/

/-- Splits at the commas outside quotes into a first item and the others, and tells whether the
text ends inside quotes; `quoted` tells whether it starts there. -/
def splitItems (quoted : Bool) : List Char → List Char × List (List Char) × Bool
  | [] => ([], [], quoted)
  | c :: cs =>
    if c = ',' ∧ quoted = false then
      let (item, items, ends) := splitItems false cs
      ([], item :: items, ends)
    else
      let (item, items, ends) := splitItems (if c = '"' then !quoted else quoted) cs
      (c :: item, items, ends)

/-- The items of a text, blank ones included. -/
def items (cs : List Char) : List (List Char) :=
  let (item, items, _) := splitItems false cs
  item :: items

/-- Whether a text ends inside quotes. -/
def endsQuoted (cs : List Char) : Bool := (splitItems false cs).2.2

/-- Takes one pair of enclosing quotes off. -/
def unquote : List Char → List Char
  -- a lone quote is no pair: after its first character nothing is left to end with one
  | '"' :: cs => if cs.getLast? = some '"' then cs.dropLast else '"' :: cs
  | cs => cs

/-- Reads one trimmed item that is not blank. -/
def readItem (item : List Char) : Except ArgumentError (String × String) :=
  let key := Text.trim (item.takeWhile (· ≠ '='))
  match item.dropWhile (· ≠ '=') with
  | [] => .error (.malformed (String.ofList item))
  | _ :: value =>
    if key = [] then .error (.malformed (String.ofList item))
    else .ok (String.ofList key, String.ofList (unquote (Text.trim value)))

/-- Reads the items in order, up to the first malformed one; blank items are skipped. -/
def readItems : List (List Char) → Except ArgumentError (List (String × String))
  | [] => .ok []
  | item :: items =>
    let item := Text.trim item
    if item = [] then readItems items
    else do
      let pair ← readItem item
      let pairs ← readItems items
      return pair :: pairs

/-- Reads argument text. A missing quote is reported before any malformed item. -/
def parse (s : String) : Except ArgumentError Arguments :=
  if endsQuoted s.toList then .error .unterminatedQuote
  else (readItems (items s.toList)).map Arguments.mk

/-! ## Looking up -/

/-- The value of the first pair with `key`. -/
def get? (args : Arguments) (key : String) : Option String := args.pairs.lookup key

/-- The value of `key` as a quantity, `default` where the key is absent. -/
def quantity (args : Arguments) (key : String) (default : Nat) : Except ArgumentError Nat :=
  match args.get? key with
  | none => .ok default
  | some value =>
    match Quantity.read? value.toList with
    | some n => .ok n
    | none => .error (.invalidValue key value)

/-- The truth value a word stands for. -/
def truth? (word : String) : Option Bool :=
  if word ∈ ["yes", "true", "on", "1"] then some true
  else if word ∈ ["no", "false", "off", "0"] then some false
  else none

/-- The value of `key` as a truth value, `default` where the key is absent. -/
def boolean (args : Arguments) (key : String) (default : Bool) : Except ArgumentError Bool :=
  match args.get? key with
  | none => .ok default
  | some value =>
    match truth? value with
    | some b => .ok b
    | none => .error (.invalidValue key value)

/-- The label of the session asked for, empty where there is none. -/
def label (args : Arguments) : String := (args.get? "label").getD ""

/-! ## Changing and printing -/

/-- Puts `value` at the first pair with `key`, or at the end. -/
def setPairs (key value : String) : List (String × String) → List (String × String)
  | [] => [(key, value)]
  | (k, v) :: pairs => if k = key then (k, value) :: pairs else (k, v) :: setPairs key value pairs

/-- Gives `key` a new value. -/
def set (args : Arguments) (key value : String) : Arguments := ⟨setPairs key value args.pairs⟩

/-- A pair as text; a value with a comma or a space is put in quotes. -/
def printPair (pair : String × String) : String :=
  if pair.2.toList.any (fun c => c = ',' ∨ c = ' ') then
    pair.1 ++ "=\"" ++ pair.2 ++ "\""
  else
    pair.1 ++ "=" ++ pair.2

/-- The pairs as argument text. -/
def print (args : Arguments) : String := String.intercalate ", " (args.pairs.map printPair)

end Arguments
end BlockMux
