import ObjectRelay.Toml.Quoted
import ObjectRelay.Toml.Value

namespace ObjectRelay.Toml

def quoted (text : String) : String :=
  String.ofList (Quoted.print text.toList)

def printKey (key : String) : String :=
  if !key.isEmpty && key.toList.all Quoted.isBare then key else quoted key

/-- From two values on, each value of an array has a line of its own. -/
def bracketed (values : List String) : String :=
  match values with
  | [] => "[]"
  | [value] => "[" ++ value ++ "]"
  | _ =>
      "[" ++ String.join (values.map fun value => "\n    " ++ value ++ ",") ++
        "\n]"

def braced (entries : List String) : String :=
  if entries.isEmpty then "\x7b\x7d"
  else "\x7b " ++ ", ".intercalate entries ++ " \x7d"

mutual
def Value.print : Value → String
  | .text text => quoted text
  | .integer value => toString value
  | .decimal text => text
  | .boolean value => if value then "true" else "false"
  | .moment text => text
  | .array values => bracketed (printValues values)
  | .tables tables => bracketed (printTables tables)
  | .table _ entries => braced (printEntries entries)

def printValues : List Value → List String
  | [] => []
  | value :: rest => value.print :: printValues rest

def printEntries : List (String × Value) → List String
  | [] => []
  | (key, value) :: rest =>
    (printKey key ++ " = " ++ value.print) :: printEntries rest

def printTables : List (List (String × Value)) → List String
  | [] => []
  | entries :: rest => braced (printEntries entries) :: printTables rest
end

abbrev Sections := List (String × Entries)

def Sections.print (sections : Sections) : String :=
  "\n".intercalate (sections.map fun (name, entries) =>
    "[" ++ printKey name ++ "]\n" ++
      String.join ((printEntries entries).map (· ++ "\n")))

end ObjectRelay.Toml
