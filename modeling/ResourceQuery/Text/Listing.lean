import ResourceQuery.Text.Escaped

namespace ResourceQuery.Listing

def record (name : String) (fields : List (String × String)) : String :=
  let texts := fields.map fun (field, text) => field ++ ": " ++ text
  name ++ " \x7b " ++ String.intercalate ", " texts ++ " \x7d"

def alternative (name : String) (text : String) : String :=
  name ++ "(" ++ text ++ ")"

def option : Option String → String
  | none => "None"
  | some text => alternative "Some" text

def list (texts : List String) : String :=
  "[" ++ String.intercalate ", " texts ++ "]"

end ResourceQuery.Listing
