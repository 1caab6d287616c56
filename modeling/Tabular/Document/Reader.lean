import Tabular.Fault
import Tabular.Json.Reader

/-!
# Reading documents

A text holds documents in JSON or YAML. An object is a document; the objects in a list at the root
are documents too.
-/

namespace Tabular.Document

/-- The documents at a root; what is no object in a list is passed over. -/
def ofRoot? : Json → Option (List Json)
  | .object members => some [.object members]
  | .array items => some (items.filter Json.isObject)
  | .null => some []
  | _ => none

def ofRoot (root : Json) : Except Cause (List Json) :=
  (ofRoot? root).elim (.error .documentRoot) .ok

def readJson (text : String) : Except Cause (List Json) :=
  match Json.read text with
  | .ok root => ofRoot root
  | .error error => .error (.json error)

def readYaml (text : String) : Except Cause (List Json) := do
  let documents ← (Yaml.read text).mapM fun
    | .ok root => ofRoot root
    | .error error => .error (.yaml error)
  return documents.flatten

def readJsonLine? (line : String) : Option (List Json) :=
  match Json.read line with
  | .ok (.object members) => ofRoot? (.object members)
  | .ok (.array items) => ofRoot? (.array items)
  | _ => none

end Tabular.Document
