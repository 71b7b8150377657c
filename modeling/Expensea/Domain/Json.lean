import Expensea.Domain.Time

namespace Expensea

/-!
# Source payloads

The values connectors put into an envelope's `payload` and `locator`: text, lists of
text, integers, aware datetimes and null.  Objects are lists of fields with distinct
keys.
-/

/-- A value of a payload or a locator. -/
inductive Value where
  | null
  | int (n : ℤ)
  | str (s : PyStr)
  | list (items : List PyStr)
  | datetime (d : DateTime)
  deriving DecidableEq, Repr

/-- A JSON object with such values. -/
abbrev Fields := List (String × Value)

/-- `fields.get(key)` -/
def Fields.get (fields : Fields) (key : String) : Option Value :=
  (fields.find? fun f => f.1 == key).map Prod.snd

/-- `value if isinstance(value, str) else None` -/
def Value.text? : Value → Option PyStr
  | .str s => some s
  | _ => none

end Expensea
