import ImagePipeline.Text.Digits

/-! JSON values and their two spellings: on one line, and with a line per member. -/
namespace ImagePipeline.Json

inductive Value where
  | null
  | string (s : String)
  | number (text : String)
  | array (items : List Value)
  | object (members : List (String × Value))
  deriving Repr, Inhabited

def nat (n : Nat) : Value := .number (toString n)

def escapeChar (c : Char) : List Char :=
  match c with
  | '"' => ['\\', '"']
  | '\\' => ['\\', '\\']
  | '\x08' => ['\\', 'b']
  | '\x0c' => ['\\', 'f']
  | '\n' => ['\\', 'n']
  | '\r' => ['\\', 'r']
  | '\t' => ['\\', 't']
  | c => if c.toNat < 0x20 then '\\' :: 'u' :: (Text.padded 16 4 c.toNat).toList else [c]

def quote (s : String) : String := String.ofList ('"' :: s.toList.flatMap escapeChar ++ ['"'])

mutual

def compact : Value → String
  | .null => "null"
  | .string s => quote s
  | .number text => text
  | .array items => "[" ++ ",".intercalate (compactItems items) ++ "]"
  | .object members => "\x7b" ++ ",".intercalate (compactMembers members) ++ "\x7d"

def compactItems : List Value → List String
  | [] => []
  | v :: vs => compact v :: compactItems vs

def compactMembers : List (String × Value) → List String
  | [] => []
  | (name, v) :: rest => (quote name ++ ":" ++ compact v) :: compactMembers rest

end

def indentation (level : Nat) : String := String.ofList (List.replicate (2 * level) ' ')

/-- Puts items between brackets, each on a line of its own. -/
def bracketed (level : Nat) (opening closing : String) (items : List String) : String :=
  if items.isEmpty then opening ++ closing
  else opening ++ "\n" ++
    ",\n".intercalate (items.map fun item => indentation (level + 1) ++ item) ++
    "\n" ++ indentation level ++ closing

mutual

def prettyAt (level : Nat) : Value → String
  | .null => "null"
  | .string s => quote s
  | .number text => text
  | .array items => bracketed level "[" "]" (prettyItems (level + 1) items)
  | .object members => bracketed level "\x7b" "\x7d" (prettyMembers (level + 1) members)

def prettyItems (level : Nat) : List Value → List String
  | [] => []
  | v :: vs => prettyAt level v :: prettyItems level vs

def prettyMembers (level : Nat) : List (String × Value) → List String
  | [] => []
  | (name, v) :: rest => (quote name ++ ": " ++ prettyAt level v) :: prettyMembers level rest

end

def pretty (v : Value) : String := prettyAt 0 v

end ImagePipeline.Json
