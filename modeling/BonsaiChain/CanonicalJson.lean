import BonsaiChain.CJson
import Mathlib.Data.List.Sort

/-!
# Canonical JSON

The serializer of `json/json.c` for flat objects of strings: members in the byte order of their
names, without blanks.
-/

namespace BonsaiChain

open CJson

/-- What `json_escape_string` writes for one byte. -/
def jsonEscapeByte : UInt8 → Bytes
  | 34 => [92, 34]
  | 92 => [92, 92]
  | 8 => [92, 98]
  | 12 => [92, 102]
  | 10 => [92, 110]
  | 13 => [92, 114]
  | 9 => [92, 116]
  | c => if c < 32 then [92, 117, 48, 48, hexDigit (c >>> 4 &&& 15), hexDigit (c &&& 15)] else [c]

def jsonEscapeString (s : CStr) : Bytes := 34 :: s.val.flatMap jsonEscapeByte ++ [34]

/-- `member_key_cmp` does not order the second name before the first. -/
def memberKeyLe (a b : CStr × CStr) : Prop := a.1.val ≤ b.1.val

instance (a b : CStr × CStr) : Decidable (memberKeyLe a b) :=
  inferInstanceAs (Decidable (a.1.val ≤ b.1.val))

def stringMember : CStr × Json → Option (CStr × CStr)
  | (name, .string s) => some (name, s)
  | _ => none

def canonicalMember (m : CStr × CStr) : Bytes :=
  jsonEscapeString m.1 ++ 58 :: jsonEscapeString m.2

/-- `canonical_json`. The order of members with one name is left open by `qsort`; here they keep
theirs. -/
def canonicalJson : Json → Except Err CString
  | .object members =>
    match members.mapM stringMember with
    | none => .error .einval
    | some members =>
      .ok (123 :: separated ((members.insertionSort memberKeyLe).map canonicalMember) ++ [125])
  | _ => .error .einval

end BonsaiChain
