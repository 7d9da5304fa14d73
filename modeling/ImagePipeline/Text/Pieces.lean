/-! Cutting a text at a mark. -/
namespace ImagePipeline.Text

/-- What follows `mark` in a text that starts with it. -/
def afterPrefix? : List Char → List Char → Option (List Char)
  | [], s => some s
  | _ :: _, [] => none
  | m :: mark, c :: cs => if m == c then afterPrefix? mark cs else none

/-- What precedes `mark` in a text that ends with it. -/
def beforeSuffix? (mark s : List Char) : Option (List Char) :=
  (afterPrefix? mark.reverse s.reverse).map List.reverse

def startsWith (mark s : List Char) : Bool := (afterPrefix? mark s).isSome

/-- The text before and after the first occurrence of `mark`. -/
def cut (mark : List Char) : List Char → Option (List Char × List Char)
  | [] => if mark.isEmpty then some ([], []) else none
  | c :: cs =>
    match afterPrefix? mark (c :: cs) with
    | some rest => some ([], rest)
    | none => (cut mark cs).map fun (before, after) => (c :: before, after)

def contains (mark s : List Char) : Bool := (cut mark s).isSome

/-- The text before and after the last occurrence of a character. -/
def cutLast (mark : Char) : List Char → Option (List Char × List Char)
  | [] => none
  | c :: cs =>
    match cutLast mark cs with
    | some (before, after) => some (c :: before, after)
    | none => if c == mark then some ([], cs) else none

/-- The pieces between the occurrences of a character; one more piece than
occurrences. -/
def splitAt (mark : Char) : List Char → List (List Char)
  | [] => [[]]
  | c :: cs =>
    if c == mark then [] :: splitAt mark cs
    else match splitAt mark cs with
      | [] => [[c]]
      | piece :: pieces => (c :: piece) :: pieces

def replaceChar (old new : Char) (s : String) : String :=
  String.ofList (s.toList.map fun c => if c == old then new else c)

/-- Letters outside ASCII are left alone. -/
def lowerAscii (s : String) : String := String.ofList (s.toList.map Char.toLower)

def sameIgnoringAsciiCase (a b : String) : Bool := lowerAscii a == lowerAscii b

def commaSeparated (items : List String) : String := ", ".intercalate items

end ImagePipeline.Text
