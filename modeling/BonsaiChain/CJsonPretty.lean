import BonsaiChain.CJson

/-!
# The formatted printer of cJSON

`cJSON_Print`: one member a line, indented by tabs.
-/

namespace BonsaiChain

namespace CJson

def tabs (depth : ℕ) : Bytes := List.replicate depth 9

/-- The lines of the members of an object, under their printed values. -/
def memberLines (depth : ℕ) : List (CStr × Bytes) → Bytes
  | [] => []
  | [m] => tabs depth ++ printStringPtr m.1 ++ 58 :: 9 :: m.2 ++ [10]
  | m :: ms => tabs depth ++ printStringPtr m.1 ++ 58 :: 9 :: m.2
    ++ 44 :: 10 :: memberLines depth ms

/-- The text of a value at a depth, `depthLeft` levels above the nesting limit. -/
def printValuePretty : ℕ → ℕ → Json → Option Bytes
  | _, _, .null => some (ascii "null")
  | _, _, .bool false => some (ascii "false")
  | _, _, .bool true => some (ascii "true")
  | _, _, .number d => printNumber d
  | _, _, .raw text => some text.val
  | _, _, .string s => some (printStringPtr s)
  | 0, _, .array _ => none
  | depthLeft + 1, depth, .array items => do
    let texts ← items.mapM (printValuePretty depthLeft (depth + 1))
    some (91 :: (texts.intersperse [44, 32]).flatten ++ [93])
  | 0, _, .object _ => none
  | depthLeft + 1, depth, .object members => do
    let texts ← members.mapM fun m => (printValuePretty depthLeft (depth + 1) m.2).map (m.1, ·)
    some (123 :: 10 :: memberLines (depth + 1) texts ++ tabs depth ++ [125])

/-- `cJSON_Print`. -/
def print (item : Json) : Option CStr := (printValuePretty nestingLimit 0 item).map cStr

end CJson

/-- `json_print_pretty2_nl`. -/
def jsonPrintPretty2Nl (item : CJson.Json) : Except Err CStr :=
  match CJson.print item with
  | none => .error .enomem
  | some pretty => .ok (cStr (pretty.val ++ [10]))

end BonsaiChain
