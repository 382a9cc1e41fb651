import BonsaiChain.CNumber
import Mathlib.Data.Nat.Bitwise

/-!
# cJSON

The parser and the unformatted printer of the vendored cJSON 1.7.19. The parser reads the text with
its terminating NUL as the last byte of the buffer, and takes and hands on the rest of the buffer.
-/

namespace BonsaiChain

open Lib

/-- A C string by itself: the terminating NUL is not one of its bytes. -/
abbrev CStr := { s : CString // 0 ∉ s }

/-- The C string at the start of a buffer. -/
def cStr (buffer : Bytes) : CStr :=
  ⟨buffer.takeWhile (· ≠ 0), fun h => by simpa using List.mem_takeWhile_imp h⟩

namespace CJson

/-- A `cJSON` item. The members of an object are in order and may repeat a name. -/
inductive Json where
  | null
  | bool (b : Bool)
  | number (d : Binary64)
  | raw (text : CStr)
  | string (s : CStr)
  | array (items : List Json)
  | object (members : List (CStr × Json))

/-- `CJSON_NESTING_LIMIT`. -/
def nestingLimit : ℕ := 1000

section Print

/-- `DBL_EPSILON`. -/
def dblEpsilon : ℚ := 2 ^ (-52 : ℤ)

def compareDouble (a b : ℚ) : Bool :=
  |Binary64.round (a - b)| ≤ Binary64.round (max |a| |b| * dblEpsilon)

/-- `valueint`: the number with saturation at `INT_MAX` and `INT_MIN`. -/
def valueInt (q : ℚ) : ℤ := max (-2 ^ 31) (min (2 ^ 31 - 1) (truncate q))

def printNumber : Binary64 → Option Bytes
  | .infinite _ => some (ascii "null")
  | .finite q =>
    let text :=
      if q = valueInt q then decimalInt (valueInt q)
      else
        match strtod (formatG 15 q) with
        | some (.finite test, _) => if compareDouble test q then formatG 15 q else formatG 17 q
        | _ => formatG 17 q
    if 25 < text.length then none else some text

/-- The bytes a byte of a string is printed as. -/
def escapeByte (b : UInt8) : Bytes :=
  if 31 < b ∧ b ≠ 34 ∧ b ≠ 92 then [b]
  else
    92 :: match b with
      | 92 => [92]
      | 34 => [34]
      | 8 => [98]
      | 12 => [102]
      | 10 => [110]
      | 13 => [114]
      | 9 => [116]
      | b => [117, 48, 48, hexDigit (b >>> 4), hexDigit (b &&& 15)]

def printStringPtr (s : CStr) : Bytes := 34 :: s.val.flatMap escapeByte ++ [34]

/-- The members of an object or the items of an array, with commas between. -/
def separated (texts : List Bytes) : Bytes := (texts.intersperse [44]).flatten

/-- The text of a value, `depthLeft` levels above the nesting limit. -/
def printValue : ℕ → Json → Option Bytes
  | _, .null => some (ascii "null")
  | _, .bool false => some (ascii "false")
  | _, .bool true => some (ascii "true")
  | _, .number d => printNumber d
  | _, .raw text => some text.val
  | _, .string s => some (printStringPtr s)
  | 0, .array _ => none
  | depthLeft + 1, .array items => do
    let texts ← items.mapM (printValue depthLeft)
    some (91 :: separated texts ++ [93])
  | 0, .object _ => none
  | depthLeft + 1, .object members => do
    let texts ← members.mapM fun m => do
      let text ← printValue depthLeft m.2
      some (printStringPtr m.1 ++ 58 :: text)
    some (123 :: separated texts ++ [125])

/-- `cJSON_PrintUnformatted`. -/
def printUnformatted (item : Json) : Option Bytes := printValue nestingLimit item

end Print

section Parse

/-- Passes over bytes up to 32, but never over the last byte of the buffer. -/
def skipWhitespace (input : Bytes) : Bytes :=
  match input.dropWhile (· ≤ 32) with
  | [] => input.drop (input.length - 1)
  | rest => rest

def skipUtf8Bom (input : Bytes) : Bytes :=
  if 5 ≤ input.length ∧ [239, 187, 191].isPrefixOf input then input.drop 3 else input

/-- Four hexadecimal digits, or 0 when one of them is not a digit. -/
def parseHex4 (input : Bytes) : ℕ :=
  match (input.take 4).mapM hexNibble with
  | none => 0
  | some digits => digits.foldl (fun h d => 16 * h + d.toNat) 0

/-- The bytes behind the first byte of a code point in UTF-8, and that byte. -/
def encodeUtf8 (firstByteMark : ℕ) : ℕ → ℕ → Bytes
  | 0, codepoint => [UInt8.ofNat ((codepoint ||| firstByteMark) &&& 0xFF)]
  | n + 1, codepoint =>
    encodeUtf8 firstByteMark n (codepoint >>> 6) ++ [UInt8.ofNat ((codepoint ||| 0x80) &&& 0xBF)]

def codepointToUtf8 (codepoint : ℕ) : Option Bytes :=
  if codepoint < 0x80 then some [UInt8.ofNat (codepoint &&& 0x7F)]
  else if codepoint < 0x800 then some (encodeUtf8 0xC0 1 codepoint)
  else if codepoint < 0x10000 then some (encodeUtf8 0xE0 2 codepoint)
  else if codepoint ≤ 0x10FFFF then some (encodeUtf8 0xF0 3 codepoint)
  else none

/-- A `\uXXXX` or a surrogate pair at the start of `content`: how many bytes it takes and what it
stands for. -/
def utf16LiteralToUtf8 (content : Bytes) : Option (ℕ × Bytes) :=
  if content.length < 6 then none
  else
    let first := parseHex4 (content.drop 2)
    if 0xDC00 ≤ first ∧ first ≤ 0xDFFF then none
    else if 0xD800 ≤ first ∧ first ≤ 0xDBFF then
      let second := content.drop 6
      let code := parseHex4 (second.drop 2)
      if second.length < 6 then none
      else if second.take 2 ≠ [92, 117] then none
      else if code < 0xDC00 ∨ 0xDFFF < code then none
      else
        (codepointToUtf8 (0x10000 + ((first &&& 0x3FF) <<< 10 ||| code &&& 0x3FF))).map (12, ·)
    else (codepointToUtf8 first).map (6, ·)

/-- The byte a two-byte escape stands for. -/
def unescapeByte : UInt8 → Option UInt8
  | 98 => some 8
  | 102 => some 12
  | 110 => some 10
  | 114 => some 13
  | 116 => some 9
  | 34 => some 34
  | 92 => some 92
  | 47 => some 47
  | _ => none

/-- The string literal with this content, of which the next `skip` bytes belong to an escape
sequence that has been read. A backslash at its end, which only a malformed `\u` leaves there, takes
the closing quote. -/
def unescape : ℕ → Bytes → Option Bytes
  | _, [] => some []
  | skip + 1, _ :: content => unescape skip content
  | 0, 92 :: content =>
    match content with
    | [] => some [34]
    | 117 :: _ => do
      let (length, bytes) ← utf16LiteralToUtf8 (92 :: content)
      let out ← unescape (length - 1) content
      some (bytes ++ out)
    | c :: _ => do
      let b ← unescapeByte c
      let out ← unescape 1 content
      some (b :: out)
  | 0, b :: content => do
    let out ← unescape 0 content
    some (b :: out)

/-- Up to the closing quote and from behind it. -/
def scanString : Bytes → Option (Bytes × Bytes)
  | [] => none
  | 34 :: rest => some ([], rest)
  | [92] => none
  | 92 :: c :: input => (scanString input).map fun r => (92 :: c :: r.1, r.2)
  | b :: input => (scanString input).map fun r => (b :: r.1, r.2)

def parseString : Bytes → Option (CStr × Bytes)
  | 34 :: input => do
    let (content, rest) ← scanString input
    let out ← unescape 0 content
    some (cStr out, rest)
  | _ => none

def isNumberByte (c : UInt8) : Bool :=
  isDigitByte c || c == 43 || c == 45 || c == 101 || c == 69 || c == 46

def parseNumber (input : Bytes) : Option (Json × Bytes) := do
  let (d, left) ← strtod (input.takeWhile isNumberByte)
  some (.number d, left ++ input.dropWhile isNumberByte)

variable (parseValue : Bytes → Option (Json × Bytes))

/-- The items of an array from behind its bracket or a comma. Every lap reads at least one byte. -/
def parseItems : ℕ → Bytes → Option (List Json × Bytes)
  | 0, _ => none
  | fuel + 1, input => do
    let (item, rest) ← parseValue (skipWhitespace input)
    match skipWhitespace rest with
    | 44 :: rest => do
      let (items, rest) ← parseItems fuel rest
      some (item :: items, rest)
    | 93 :: rest => some ([item], rest)
    | _ => none

def parseArray : Bytes → Option (Json × Bytes)
  | 91 :: input =>
    match skipWhitespace input with
    | [] => none
    | 93 :: rest => some (.array [], rest)
    | input => (parseItems parseValue input.length input).map fun r => (.array r.1, r.2)
  | _ => none

/-- The members of an object from behind its brace or a comma. -/
def parseMembers : ℕ → Bytes → Option (List (CStr × Json) × Bytes)
  | 0, _ => none
  | _ + 1, [] => none
  | fuel + 1, input => do
    let (name, rest) ← parseString (skipWhitespace input)
    match skipWhitespace rest with
    | 58 :: rest => do
      let (value, rest) ← parseValue (skipWhitespace rest)
      match skipWhitespace rest with
      | 44 :: rest => do
        let (members, rest) ← parseMembers fuel rest
        some ((name, value) :: members, rest)
      | 125 :: rest => some ([(name, value)], rest)
      | _ => none
    | _ => none

def parseObject : Bytes → Option (Json × Bytes)
  | 123 :: input =>
    match skipWhitespace input with
    | [] => none
    | 125 :: rest => some (.object [], rest)
    | input => (parseMembers parseValue input.length input).map fun r => (.object r.1, r.2)
  | _ => none

end Parse

/-- A value, `depthLeft` levels above the nesting limit. -/
def parseValue : ℕ → Bytes → Option (Json × Bytes)
  | depthLeft, input =>
    if (ascii "null").isPrefixOf input then some (.null, input.drop 4)
    else if (ascii "false").isPrefixOf input then some (.bool false, input.drop 5)
    else if (ascii "true").isPrefixOf input then some (.bool true, input.drop 4)
    else
      match input with
      | [] => none
      | c :: _ =>
        if c = 34 then (parseString input).map fun r => (.string r.1, r.2)
        else if c = 45 ∨ isDigitByte c then parseNumber input
        else
          match depthLeft with
          | 0 => none
          | depthLeft + 1 =>
            if c = 91 then parseArray (parseValue depthLeft) input
            else if c = 123 then parseObject (parseValue depthLeft) input
            else none

/-- `cJSON_Parse`. Bytes behind the value are ignored. -/
def parse (text : CString) : Option Json :=
  (parseValue nestingLimit (skipWhitespace (skipUtf8Bom (text ++ [0])))).map (·.1)

/-- `cJSON_GetObjectItemCaseSensitive`: the first member of that name. -/
def getObjectItem (name : CString) : Json → Option Json
  | .object members => (members.find? fun m => m.1.val = name).map (·.2)
  | _ => none

/-- `tolower` of the C locale. -/
def tolower (c : UInt8) : UInt8 := if 65 ≤ c ∧ c ≤ 90 then c - 65 + 97 else c

/-- `cJSON_HasObjectItem`: names are compared without their letter case. -/
def hasObjectItem (name : CString) : Json → Bool
  | .object members => members.any fun m => m.1.val.map tolower == name.map tolower
  | _ => false

/-- `valuestring` of a string item. -/
def stringValue : Json → Option CStr
  | .string s => some s
  | _ => none

end CJson

end BonsaiChain
