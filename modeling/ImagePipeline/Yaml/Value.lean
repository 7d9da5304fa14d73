/-! The values that a document is written from. -/
namespace ImagePipeline.Yaml

inductive Value where
  | string (s : String)
  | bool (b : Bool)
  | int (n : Int)
  | sequence (items : List Value)
  | mapping (entries : List (String × Value))
  deriving Repr, BEq, Inhabited

namespace Value

def strings (items : List String) : Value := .sequence (items.map .string)

end Value

end ImagePipeline.Yaml
