import CloudClient.Text.Quoted

/-!
Values described by a name and their parts, as in `Point \x7b x: 1, y: 2 \x7d`.
-/

namespace CloudClient.Text

/-- What stands for a secret in a description. -/
def redacted : String := "[REDACTED]"

def describeFields (fields : List (String × String)) : String :=
  ", ".intercalate (fields.map fun (name, value) => name ++ ": " ++ value)

def describe (name : String) (fields : List (String × String)) : String :=
  name ++ " \x7b " ++ describeFields fields ++ " \x7d"

/-- A description that says that there is more. -/
def describeOpen (name : String) (fields : List (String × String)) : String :=
  name ++ " \x7b " ++ describeFields fields ++ ", .. \x7d"

def describeOption (value : Option String) : String :=
  match value with
  | some v => "Some(" ++ v ++ ")"
  | none => "None"

end CloudClient.Text
