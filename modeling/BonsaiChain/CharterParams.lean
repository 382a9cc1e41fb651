import BonsaiChain.Bignum
import BonsaiChain.CJson

/-!
# The policy block of a charter

`parse_charter_params` of `ricardian_charter.c`: between two markers the prose lists the five policy
parameters, one a line. A failure carries its code and the message of the error context.
-/

namespace BonsaiChain

structure CharterParams where
  perTxLimit : ℤ
  dailyLimit : ℤ
  windowDuration : ℤ
  graduationThreshold : ℤ
  validatorThreshold : ℤ
  deriving DecidableEq, Repr

/-- `REQUIRED_KEYS`. -/
def requiredKeys : List CString :=
  [ascii "perTxLimit", ascii "dailyLimit", ascii "windowDuration", ascii "graduationThreshold",
    ascii "validatorThreshold"]

def charterBegin : CString := ascii "<!-- ricardian:params:begin -->"

def charterEnd : CString := ascii "<!-- ricardian:params:end -->"

/-- `bns_fail` with `BNS_EPARSE`: the context holds 255 bytes of the message. -/
def charterFail {α : Type} (message : CString) : Except (Err × CString) α :=
  .error (.eparse, (ascii "ricardian charter: " ++ message).take 255)

section Lines

def isIdentStart (c : UInt8) : Bool := 65 ≤ c && c ≤ 90 || 97 ≤ c && c ≤ 122

def isIdentChar (c : UInt8) : Bool := isIdentStart c || isDigitByte c

def isJsWs (c : UInt8) : Bool := c == 32 || c == 9 || c == 10 || c == 13 || c == 12 || c == 11

def trimWs (s : CString) : CString := (s.dropWhile isJsWs).rdropWhile isJsWs

/-- The line before its first code fence. -/
def beforeFence : CString → CString
  | [] => []
  | c :: cs => if [96, 96, 96].isPrefixOf (c :: cs) then [] else c :: beforeFence cs

/-- A line without fence and comment, trimmed, as far as its buffer holds it. -/
def cleanLine (raw : CString) : CString :=
  (trimWs ((beforeFence raw).takeWhile (· ≠ 35))).take 511

def trimRaw (raw : CString) : CString := (trimWs raw).take 511

/-- An optional minus, and the rest. -/
def optionalMinus : CString → CString × CString
  | 45 :: p => ([45], p)
  | p => ([], p)

/-- `match_param_line`: a name of at most 127 bytes, an equals sign and an integer of at most
255. -/
def matchParamLine (line : CString) : Option (CString × CString) :=
  let key := line.takeWhile isIdentChar
  if !line.head?.any isIdentStart || 128 ≤ key.length then none
  else
    match (line.dropWhile isIdentChar).dropWhile isJsWs with
    | 61 :: p =>
      let (minus, digits) := optionalMinus (p.dropWhile isJsWs)
      if digits = [] ∨ ¬digits.all isDigitByte then none
      else if 256 ≤ (minus ++ digits).length then none
      else some (key, minus ++ digits)
    | _ => none

/-- `body_has_key_before`, over the lines before. -/
def linesHaveKey (lines : List CString) (key : CString) : Bool :=
  lines.any fun raw => (matchParamLine (cleanLine raw)).any fun kv => kv.1 == key

end Lines

section Scan

/-- The values found so far under their names, and the first name that is not a parameter. -/
structure ParamScan where
  found : List (CString × ℤ)
  unknownKey : Option CString

/-- A line that declares `key`, after the lines `before`. -/
def scanParam (before : List CString) (cleaned key val : CString) (s : ParamScan) :
    Except (Err × CString) ParamScan :=
  if !requiredKeys.contains key then
    if linesHaveKey before key then
      charterFail (ascii "duplicate parameter \"" ++ key ++ ascii "\"")
    else .ok { s with unknownKey := s.unknownKey <|> some key }
  else if (s.found.lookup key).isSome then
    charterFail (ascii "duplicate parameter \"" ++ key ++ ascii "\"")
  else
    match bnParseDec val with
    | .error _ => charterFail (ascii "unparseable parameter line: \"" ++ cleaned ++ ascii "\"")
    | .ok v => .ok { s with found := (key, v) :: s.found }

def scanLine (before : List CString) (raw : CString) (s : ParamScan) :
    Except (Err × CString) ParamScan :=
  let cleaned := cleanLine raw
  if cleaned = [] then .ok s
  else
    match matchParamLine cleaned with
    | none => charterFail (ascii "unparseable parameter line: \"" ++ trimRaw raw ++ ascii "\"")
    | some (key, val) => scanParam before cleaned key val s

/-- The loop over the lines of the block, behind the lines `before`. -/
def scanLines (before : List CString) (s : ParamScan) :
    List CString → Except (Err × CString) ParamScan
  | [] => .ok s
  | raw :: lines => do
    let s ← scanLine before raw s
    scanLines (before ++ [raw]) s lines

/-- The sweep over the required names, at one of them. -/
def requiredParam (s : ParamScan) (key : CString) : Except (Err × CString) ℤ :=
  match s.found.lookup key with
  | none => charterFail (ascii "prose is missing required parameter \"" ++ key ++ ascii "\"")
  | some v =>
    if v ≤ 0 then
      charterFail (ascii "parameter \"" ++ key ++ ascii "\" must be positive (got " ++ decimalInt v
        ++ ascii ")")
    else .ok v

def rejectUnknown (s : ParamScan) : Except (Err × CString) Unit :=
  match s.unknownKey with
  | none => .ok ()
  | some key => charterFail (ascii "prose declares unknown parameter \"" ++ key
      ++ ascii "\" with no contract field")

end Scan

/-- `strstr`: the text from the first occurrence on. -/
def strstr (needle : CString) : CString → Option CString
  | [] => if needle = [] then some [] else none
  | c :: cs => if needle.isPrefixOf (c :: cs) then some (c :: cs) else strstr needle cs

/-- The text between the markers. -/
def policyBlock (prose : CString) : Option CString := do
  let fromBegin ← strstr charterBegin prose
  let fromEnd ← strstr charterEnd prose
  if fromBegin.length < fromEnd.length then none
  else
    some ((fromBegin.drop charterBegin.length).take
      (fromBegin.length - charterBegin.length - fromEnd.length))

def parseCharterParams (prose : CStr) : Except (Err × CString) CharterParams :=
  match policyBlock prose.val with
  | none => charterFail (ascii
      "missing or malformed parameter block (ricardian:params:begin/end)")
  | some body => do
    let s ← scanLines [] ⟨[], none⟩ (body.splitOn 10)
    let perTxLimit ← requiredParam s (ascii "perTxLimit")
    let dailyLimit ← requiredParam s (ascii "dailyLimit")
    let windowDuration ← requiredParam s (ascii "windowDuration")
    let graduationThreshold ← requiredParam s (ascii "graduationThreshold")
    let validatorThreshold ← requiredParam s (ascii "validatorThreshold")
    rejectUnknown s
    return ⟨perTxLimit, dailyLimit, windowDuration, graduationThreshold, validatorThreshold⟩

end BonsaiChain
