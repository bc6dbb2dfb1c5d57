import BlockMux.Access.Rule
import BlockMux.Text.Toml.Reader

/-!
# Configuration text

A configuration is a TOML document with the settings `use_gpt` and `queue_size` and an array
`policy` of rules. Settings that are not known, given twice, or of another type are refused.
-/

namespace BlockMux

/-- Why a configuration is refused. -/
inductive ConfigError where
  /-- There is no text. -/
  | unreadable
  /-- The text is no document, or does not hold the known settings. -/
  | invalid
  /-- Queues of no slots. -/
  | zeroQueueSize
  deriving DecidableEq, Repr

namespace ConfigError

/-- The text of the error. -/
def message : ConfigError → String
  | unreadable => "failed to read configuration"
  | invalid => "invalid configuration"
  | zeroQueueSize => "queue_size must not be zero"

end ConfigError

open Toml (Value Statement)

namespace Toml.Value

/-- The text that a value is. -/
def text? : Value → Option String
  | text s => some s
  | _ => none

/-- The truth value that a value is. -/
def boolean? : Value → Option Bool
  | boolean b => some b
  | _ => none

/-- An integer from 0 up to below `bound`. -/
def natBelow? (bound : Nat) : Value → Option Nat
  | integer n => if 0 ≤ n ∧ n.toNat < bound then some n.toNat else none
  | _ => none

/-- The number of a partition. -/
def partition? (v : Value) : Option Nat := v.natBelow? 4294967296

end Toml.Value

/-- The entries of a table whose keys are single names, each used once. -/
def Toml.fields? (entries : List (List String × Value)) : Option (List (String × Value)) :=
  if Toml.prefixFree (entries.map (·.1)) then
    entries.mapM fun (path, value) =>
      match path with
      | [name] => some (name, value)
      | _ => none
  else none

namespace Rule

/-- A rule with one more setting. -/
def withField? (rule : Rule) (name : String) (value : Value) : Option Rule :=
  if name = "label" then value.text?.map fun s => { rule with label := some s }
  else if name = "label_prefix" then value.text?.map fun s => { rule with labelPrefix := some s }
  else if name = "label_suffix" then value.text?.map fun s => { rule with labelSuffix := some s }
  else if name = "partition" then value.partition?.map fun n => { rule with partition := some n }
  else if name = "readable" then value.boolean?.map fun b => { rule with readable := b }
  else if name = "writeable" then value.boolean?.map fun b => { rule with writeable := b }
  else none

/-- The rule of a table. -/
def ofEntries? (entries : List (List String × Value)) : Option Rule := do
  let fields ← Toml.fields? entries
  fields.foldlM (fun rule (name, value) => rule.withField? name value) {}

/-- The rule of settings in the order label, prefix, suffix, partition, and then, if they are
there, the rights. Further values do not count. -/
def ofList? : List Value → Option Rule
  | label :: pre :: suffix :: partition :: rights => do
    let label ← label.text?
    let pre ← pre.text?
    let suffix ← suffix.text?
    let partition ← partition.partition?
    let readable ← (rights[0]?.map Value.boolean?).getD (some true)
    let writeable ← (rights[1]?.map Value.boolean?).getD (some true)
    return ⟨some label, some pre, some suffix, some partition, readable, writeable⟩
  | _ => none

/-- The rule of a value. -/
def ofValue? : Value → Option Rule
  | .table entries => ofEntries? entries
  | .list values => ofList? values
  | _ => none

end Rule

namespace Config

/-- A configuration with one more setting. -/
def withField? (config : Config) (name : String) (value : Value) : Option Config :=
  if name = "use_gpt" then value.boolean?.map fun b => { config with useGpt := b }
  else if name = "queue_size" then
    (value.natBelow? 9223372036854775808).map fun n => { config with queueSize := n }
  else if name = "policy" then
    match value with
    | .list values => (values.mapM Rule.ofValue?).map fun rules => { config with rules := rules }
    | _ => none
  else none

/-- The entries before the first header, and those after each header. -/
def sections : List Statement →
    List (List String × Value) × List (Statement × List (List String × Value))
  | [] => ([], [])
  | .assign path value :: statements =>
    let (entries, rest) := sections statements
    ((path, value) :: entries, rest)
  | header :: statements =>
    let (entries, rest) := sections statements
    ([], (header, entries) :: rest)

/-- The rule of an element of the array `policy`. -/
def ruleOfSection? : Statement × List (List String × Value) → Option Rule
  -- any other header opens a setting that is not known, or one of another type
  | (.element ["policy"], entries) => Rule.ofEntries? entries
  | _ => none

/-- The configuration of a document. The array is written either as a value or as elements under
headers of their own, not both. -/
def ofStatements? (statements : List Statement) : Option Config := do
  let (entries, elements) := sections statements
  let fields ← Toml.fields? entries
  let config ← fields.foldlM (fun config (name, value) => config.withField? name value) {}
  let rules ← elements.mapM ruleOfSection?
  if rules = [] then return config
  else if fields.any (·.1 == "policy") then none
  else return { config with rules := rules }

/-- Reads a configuration. -/
def ofText (text : String) : Except ConfigError Config :=
  match (Toml.read? text).bind ofStatements? with
  | none => .error .invalid
  | some config => if config.queueSize = 0 then .error .zeroQueueSize else .ok config

/-- Reads the contents of a configuration file, `none` if there is no file. -/
def ofFile (contents : Option ByteArray) : Except ConfigError Config :=
  match contents.bind String.fromUTF8? with
  | none => .error .unreadable
  | some text => ofText text

end Config
end BlockMux
