/-! The part of TOML 1.0 that can say a setting.
A document that holds anything else, such as a float, a date or a longer path, is refused whether or
not it is well formed: no setting has such a value. -/
namespace Spreadsheet.Toml

abbrev Key := List Char

inductive Value
  | text (s : List Char)
  | integer (n : Int)
  /-- An empty array or an empty inline table. -/
  | nothing
  /-- An inline table with one key, which holds nothing. -/
  | choice (key : Key)
deriving DecidableEq, Repr

/-- A table header or an entry. Their paths have one or two keys. -/
inductive Statement
  | table (path : List Key)
  | entry (path : List Key) (value : Value)
deriving DecidableEq, Repr

abbrev Reader (α : Type) := List Char → Option (α × List Char)

def isSpace (c : Char) : Bool :=
  c = ' ' || c = '\t'

def isPlain (c : Char) : Bool :=
  c = '\t' || (0x20 ≤ c.toNat && c.toNat ≠ 0x7F)

def isBare (c : Char) : Bool :=
  c.isAlphanum || c = '_' || c = '-'

def skipSpace (s : List Char) : List Char :=
  s.dropWhile isSpace

def lineEnd (s : List Char) : Option (List Char) :=
  let rest := match skipSpace s with
    | '#' :: rest => rest.dropWhile isPlain
    | rest => rest
  match rest with
  | [] => some []
  | '\n' :: rest => some rest
  | _ => none

def escaped? : Char → Option Char
  | 'b' => some '\x08'
  | 't' => some '\t'
  | 'n' => some '\n'
  | 'f' => some '\x0c'
  | 'r' => some '\r'
  | '"' => some '"'
  | '\\' => some '\\'
  | _ => none

def hexDigit? (c : Char) : Option Nat :=
  if '0' ≤ c ∧ c ≤ '9' then some (c.toNat - '0'.toNat)
  else if 'a' ≤ c ∧ c ≤ 'f' then some (c.toNat - 'a'.toNat + 10)
  else if 'A' ≤ c ∧ c ≤ 'F' then some (c.toNat - 'A'.toNat + 10)
  else none

def ofDigits? (base : Nat) (digits : List Char) : Option Nat :=
  digits.foldlM (fun n c => (hexDigit? c).bind fun d =>
    if d < base then some (n * base + d) else none) 0

def scalar? (digits : List Char) : Option Char :=
  (ofDigits? 16 digits).bind fun n => if n.isValidChar then some (.ofNat n) else none

private def push (c : Char) : Option (List Char × List Char) → Option (List Char × List Char) :=
  Option.map fun (s, rest) => (c :: s, rest)

/-- The rest of a string in double quotes, or in three of them if it may span lines. In a `gap`,
which a backslash at the end of a line opens, spaces and line ends are skipped. -/
def basicFrom (lines gap : Bool) : Reader (List Char)
  | [] => none
  | '"' :: rest =>
    if lines then
      match rest with
      | '"' :: '"' :: rest => some ([], rest)
      | rest => push '"' (basicFrom lines false rest)
    else some ([], rest)
  | '\\' :: 'u' :: a :: b :: c :: d :: rest =>
    (scalar? [a, b, c, d]).bind (push · (basicFrom lines false rest))
  | '\\' :: 'U' :: a :: b :: c :: d :: e :: f :: g :: h :: rest =>
    (scalar? [a, b, c, d, e, f, g, h]).bind (push · (basicFrom lines false rest))
  | '\\' :: c :: rest =>
    match escaped? c with
    | some e => push e (basicFrom lines false rest)
    | none =>
      if lines && (skipSpace (c :: rest)).head? = some '\n' then basicFrom lines true rest else none
  | c :: rest =>
    if gap && (isSpace c || c = '\n') then basicFrom lines true rest
    else if isPlain c || (lines && c = '\n') then push c (basicFrom lines false rest)
    else none

def literalFrom (lines : Bool) : Reader (List Char)
  | [] => none
  | '\'' :: rest =>
    if lines then
      match rest with
      | '\'' :: '\'' :: rest => some ([], rest)
      | rest => push '\'' (literalFrom lines rest)
    else some ([], rest)
  | c :: rest =>
    if isPlain c || (lines && c = '\n') then push c (literalFrom lines rest) else none

def dropLineEnd : List Char → List Char
  | '\n' :: rest => rest
  | rest => rest

def string : Reader (List Char)
  | '"' :: '"' :: '"' :: rest => basicFrom true false (dropLineEnd rest)
  | '"' :: rest => basicFrom false false rest
  | '\'' :: '\'' :: '\'' :: rest => literalFrom true (dropLineEnd rest)
  | '\'' :: rest => literalFrom false rest
  | _ => none

def key : Reader Key
  | '"' :: rest => basicFrom false false rest
  | '\'' :: rest => literalFrom false rest
  | s => if (s.takeWhile isBare).isEmpty then none else some (s.span isBare)

def path : Reader (List Key) := fun s => do
  let (first, rest) ← key s
  match skipSpace rest with
  | '.' :: rest => do
    let (second, rest) ← key (skipSpace rest)
    some ([first, second], rest)
  | _ => some ([first], rest)

def dropUnderscores : List Char → Option (List Char)
  | [] => none
  | [c] => if c = '_' then none else some [c]
  | c :: '_' :: rest => if c = '_' then none else (dropUnderscores rest).map (c :: ·)
  | c :: rest => if c = '_' then none else (dropUnderscores rest).map (c :: ·)

def natural? (digits : List Char) : Option Nat := do
  let digits ← dropUnderscores digits
  if digits.head? = some '0' ∧ digits.length ≠ 1 then none else ofDigits? 10 digits

/-- The 64-bit integer that a text writes: in base ten with a sign or none, or without a sign in base
sixteen, eight or two. -/
def integer? (s : List Char) : Option Int := do
  let n : Int ← match s with
    | '0' :: 'x' :: digits => (dropUnderscores digits).bind (ofDigits? 16) |>.map Int.ofNat
    | '0' :: 'o' :: digits => (dropUnderscores digits).bind (ofDigits? 8) |>.map Int.ofNat
    | '0' :: 'b' :: digits => (dropUnderscores digits).bind (ofDigits? 2) |>.map Int.ofNat
    | '+' :: digits => (natural? digits).map Int.ofNat
    | '-' :: digits => (natural? digits).map (-Int.ofNat ·)
    | digits => (natural? digits).map Int.ofNat
  if Int64.minValue.toInt ≤ n ∧ n ≤ Int64.maxValue.toInt then some n else none

def emptyArrayFrom (comment : Bool) : List Char → Option (List Char)
  | [] => none
  | c :: rest =>
    if comment then
      if c = '\n' then emptyArrayFrom false rest
      else if isPlain c then emptyArrayFrom true rest
      else none
    else if c = ']' then some rest
    else if c = '#' then emptyArrayFrom true rest
    else if isSpace c || c = '\n' then emptyArrayFrom false rest
    else none

def emptyTableFrom (s : List Char) : Option (List Char) :=
  match skipSpace s with
  | '}' :: rest => some rest
  | _ => none

def nothing : List Char → Option (List Char)
  | '[' :: rest => emptyArrayFrom false rest
  | '{' :: rest => emptyTableFrom rest
  | _ => none

def choice : Reader Key
  | '{' :: rest => do
    let (key, rest) ← key (skipSpace rest)
    match skipSpace rest with
    | '=' :: rest => (nothing (skipSpace rest)).bind emptyTableFrom |>.map (key, ·)
    | _ => none
  | _ => none

def integer : Reader Int := fun s =>
  (integer? (s.takeWhile fun c => isBare c || c = '+')).map
    (·, s.dropWhile fun c => isBare c || c = '+')

def value : Reader Value := fun s =>
  ((string s).map fun (t, rest) => (.text t, rest)) <|>
  ((nothing s).map fun rest => (.nothing, rest)) <|>
  ((choice s).map fun (key, rest) => (.choice key, rest)) <|>
  ((integer s).map fun (n, rest) => (.integer n, rest))

def statement : Reader Statement
  | '[' :: rest => do
    let (path, rest) ← path (skipSpace rest)
    match skipSpace rest with
    | ']' :: rest => some (.table path, rest)
    | _ => none
  | s => do
    let (path, rest) ← path s
    match skipSpace rest with
    | '=' :: rest => (value (skipSpace rest)).map fun (v, rest) => (.entry path v, rest)
    | _ => none

/-- The statements of the lines of a text. The check on the length of the rest cannot fail. -/
def statements (s : List Char) : Option (List Statement) :=
  if s.isEmpty then some []
  else match lineEnd s with
    | some rest => if rest.length < s.length then statements rest else none
    | none => do
      let (first, rest) ← statement (skipSpace s)
      let rest ← lineEnd rest
      if rest.length < s.length then (statements rest).map (first :: ·) else none
termination_by s.length

/-- A text whose lines end in a line feed alone. A carriage return elsewhere stays, and is refused
wherever it stands. -/
def dropReturns : List Char → List Char
  | [] => []
  | '\r' :: '\n' :: rest => '\n' :: dropReturns rest
  | c :: rest => c :: dropReturns rest

def document (s : List Char) : Option (List Statement) :=
  statements <| dropReturns <| match s with
    | '\uFEFF' :: rest => rest
    | s => s

end Spreadsheet.Toml
