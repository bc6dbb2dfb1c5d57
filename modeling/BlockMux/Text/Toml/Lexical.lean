import BlockMux.Text.Digits

/-!
# The words of TOML

Blanks and comments, keys and quoted text. Each reader takes characters and yields what it read
with the characters after it.
-/

namespace BlockMux.Toml

/-! ## Blanks, comments and line ends -/

/-- A space or a tab. -/
def isBlank (c : Char) : Bool := c == ' ' || c == '\t'

/-- Characters allowed inside comments and quoted text. -/
def isText (c : Char) : Bool := c == '\t' || (0x20 ≤ c.toNat && c.toNat != 0x7F)

/-- Skips spaces and tabs. -/
def skipBlanks (cs : List Char) : List Char := cs.dropWhile isBlank

/-- Takes a line end. -/
def newline? : List Char → Option (List Char)
  | '\n' :: cs => some cs
  | '\r' :: '\n' :: cs => some cs
  | _ => none

/-- Skips a comment, if there is one. -/
def skipComment : List Char → List Char
  | '#' :: cs => cs.dropWhile isText
  | cs => cs

/-- Takes the end of a line: blanks, a comment, and a line end or the end of the document. -/
def lineEnd? (cs : List Char) : Option (List Char) :=
  match skipComment (skipBlanks cs) with
  | [] => some []
  | cs => newline? cs

/-- Skips blanks, comments and line ends; `inComment` tells whether a comment is open. -/
def skipFiller (inComment : Bool) : List Char → List Char
  | [] => []
  | '\n' :: cs => skipFiller false cs
  | '\r' :: '\n' :: cs => skipFiller false cs
  | c :: cs =>
    if inComment then if isText c then skipFiller true cs else c :: cs
    else if isBlank c then skipFiller false cs
    else if c = '#' then skipFiller true cs
    else c :: cs

/-! ## Quoted text -/

/-- The character of a scalar value, which is no surrogate. -/
def scalar? (digits : List Char) : Option Char :=
  (Digits.digits? 16 digits).bind fun n =>
    if n < 0xD800 ∨ (0xE000 ≤ n ∧ n < 0x110000) then some (Char.ofNat n) else none

/-- The character that a single letter stands for after a backslash. -/
def escaped? (c : Char) : Option Char :=
  if c = 'b' then some (Char.ofNat 8)
  else if c = 't' then some '\t'
  else if c = 'n' then some '\n'
  else if c = 'f' then some (Char.ofNat 12)
  else if c = 'r' then some '\r'
  else if c = '"' then some '"'
  else if c = '\\' then some '\\'
  else none

/-- Puts a character before text that was read. -/
def consText (c : Char) (read : Option (List Char × List Char)) :
    Option (List Char × List Char) :=
  read.map fun (text, rest) => (c :: text, rest)

/-- Text in double quotes, after the opening quote. -/
def basicText? : List Char → Option (List Char × List Char)
  | [] => none
  | '"' :: cs => some ([], cs)
  | '\\' :: 'u' :: a :: b :: c :: d :: cs =>
    (scalar? [a, b, c, d]).bind fun x => consText x (basicText? cs)
  | '\\' :: 'U' :: a :: b :: c :: d :: e :: f :: g :: h :: cs =>
    (scalar? [a, b, c, d, e, f, g, h]).bind fun x => consText x (basicText? cs)
  | '\\' :: c :: cs => (escaped? c).bind fun x => consText x (basicText? cs)
  | c :: cs => if isText c then consText c (basicText? cs) else none

/-- The end of text in three quotes: up to two further quotes belong to the text. -/
def closeQuotes (quote : Char) (cs : List Char) : List Char × List Char :=
  let extra := (cs.take 2).takeWhile (· == quote)
  (extra, cs.drop extra.length)

/-- Text in three double quotes, after the opening quotes. A backslash at the end of a line hides
the line end and the blanks after it; `trimming` tells that this goes on. -/
def basicLines? (trimming : Bool) : List Char → Option (List Char × List Char)
  | [] => none
  | '"' :: '"' :: '"' :: cs => some (closeQuotes '"' cs)
  | '\\' :: 'u' :: a :: b :: c :: d :: cs =>
    (scalar? [a, b, c, d]).bind fun x => consText x (basicLines? false cs)
  | '\\' :: 'U' :: a :: b :: c :: d :: e :: f :: g :: h :: cs =>
    (scalar? [a, b, c, d, e, f, g, h]).bind fun x => consText x (basicLines? false cs)
  | '\\' :: c :: cs =>
    if (newline? (skipBlanks (c :: cs))).isSome then basicLines? true (c :: cs)
    else (escaped? c).bind fun x => consText x (basicLines? false cs)
  | '\r' :: '\n' :: cs =>
    if trimming then basicLines? true cs else consText '\n' (basicLines? false cs)
  | c :: cs =>
    if trimming && (isBlank c || c == '\n') then basicLines? true cs
    else if isText c || c == '\n' then consText c (basicLines? false cs)
    else none

/-- Text in single quotes, after the opening quote. -/
def literalText? : List Char → Option (List Char × List Char)
  | [] => none
  | '\x27' :: cs => some ([], cs)
  | c :: cs => if isText c then consText c (literalText? cs) else none

/-- Text in three single quotes, after the opening quotes. -/
def literalLines? : List Char → Option (List Char × List Char)
  | [] => none
  | '\x27' :: '\x27' :: '\x27' :: cs => some (closeQuotes '\x27' cs)
  | '\r' :: '\n' :: cs => consText '\n' (literalLines? cs)
  | c :: cs => if isText c || c == '\n' then consText c (literalLines? cs) else none

/-- Skips a line end directly after the opening quotes. -/
def skipNewline (cs : List Char) : List Char := (newline? cs).getD cs

/-- Quoted text of any kind. -/
def quoted? : List Char → Option (List Char × List Char)
  | '"' :: '"' :: '"' :: cs => basicLines? false (skipNewline cs)
  | '"' :: cs => basicText? cs
  | '\x27' :: '\x27' :: '\x27' :: cs => literalLines? (skipNewline cs)
  | '\x27' :: cs => literalText? cs
  | _ => none

/-! ## Keys -/

/-- Characters of a name without quotes. -/
def isBare (c : Char) : Bool := c.isAlphanum || c == '_' || c == '-'

/-- One name of a key. -/
def name? : List Char → Option (String × List Char)
  | '"' :: cs => (basicText? cs).map fun (text, rest) => (String.ofList text, rest)
  | '\x27' :: cs => (literalText? cs).map fun (text, rest) => (String.ofList text, rest)
  | cs =>
    let bare := cs.takeWhile isBare
    if bare = [] then none else some (String.ofList bare, cs.dropWhile isBare)

/-- The most names a key may have. -/
def maxNames : Nat := 79

/-- A key: names joined by dots, with blanks around them; of at most `limit` names. -/
def path? : (limit : Nat) → List Char → Option (List String × List Char)
  | 0, _ => none
  | limit + 1, cs => do
    let (name, cs) ← name? (skipBlanks cs)
    match skipBlanks cs with
    | '.' :: cs =>
      let (names, cs) ← path? limit cs
      return (name :: names, cs)
    | cs => return ([name], cs)

/-! ## Words -/

/-- Characters of words. -/
def isWordChar (c : Char) : Bool :=
  c.isAlphanum || c == '_' || c == '+' || c == '-' || c == '.' || c == ':'

end BlockMux.Toml
