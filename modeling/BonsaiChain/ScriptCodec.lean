import BonsaiChain.Num2bin
import BonsaiChain.ScryptContract

/-!
# Locking scripts of contracts

`scrypt/script_codec.c`: the constructor and state encoders, the template substitution and the
locking script they make. The code part is the substituted template; a stateful contract has
`OP_RETURN` and the state blob after it.
-/

namespace BonsaiChain

open Lib

def pushData (data : Bytes) : Bytes :=
  if data.length = 0 then [0x00]
  else if data.length ≤ 75 then UInt8.ofNat data.length :: data
  else if data.length ≤ 0xff then [0x4c, UInt8.ofNat data.length] ++ data
  else if data.length ≤ 0xffff then 0x4d :: leBytes 2 data.length ++ data
  else 0x4e :: leBytes 4 data.length ++ data

section Encoders

def ctorIntPush (n : ℤ) : Bytes :=
  if n = 0 then [0x00]
  else if n = -1 then [0x4f]
  else if 1 ≤ n ∧ n ≤ 16 then [0x50 + (int2bytestringMinimal n).headD 0]
  else pushData (int2bytestringMinimal n)

/-- `serializer.bytes2hex`. -/
def ctorBytesPush (b : Bytes) : Bytes :=
  match b with
  | [] => [0x00]
  | [v] => if 1 ≤ v ∧ v ≤ 16 then [0x50 + v] else pushData [v]
  | _ => pushData b

/-- `to_script_hex` at the value's own tag. -/
def toScriptHex : ScryptArg → Except Err Bytes
  | .int v | .rabinPubkey v => .ok (ctorIntPush v)
  | .bool v => .ok [if v then 0x51 else 0x00]
  | .bytes v | .pubkey v | .sha256 v | .ripemd160 v => .ok (ctorBytesPush v)
  | .fixedArray _ | .struct _ _ => .error .einval

def stateIntPush (n : ℤ) : Bytes :=
  if n = 0 then pushData [0x00] else pushData (int2bytestringMinimal n)

def stateValuePush (type : ScryptType) (v : ScryptArg) : Except Err Bytes :=
  if v.tag ≠ type then .error .einval
  else
    match v with
    | .int n | .rabinPubkey n => .ok (stateIntPush n)
    | .bool b => .ok [if b then 0x01 else 0x00]
    | .bytes b | .pubkey b | .sha256 b | .ripemd160 b => .ok (pushData b)
    | .fixedArray _ | .struct _ _ => .error .einval

end Encoders

section State

/-- The loop of `build_state`. More values than a stateful artifact has properties is a read past
the end of `state_props`, which no caller makes. -/
def stateValues : List ScryptParam → List ScryptArg → Except Err Bytes
  | _, [] => .ok []
  | [], _ :: _ => .error .einval
  | p :: props, v :: values => do
    let push ← stateValuePush p.type v
    let pushes ← stateValues props values
    return push ++ pushes

def buildState (stateProps : List ScryptParam) (values : List ScryptArg) (isGenesis : Bool) :
    Except Err Bytes := do
  let pushes ← stateValues stateProps values
  let body := (if isGenesis then 0x01 else 0x00) :: pushes
  let stateLen ← int2bytestringSized body.length 4
  return body ++ stateLen ++ [0x00]

/-- The length the trailer of a stateful script gives for its state body. -/
def stateBodyLen (lockingScript : Bytes) : ℕ :=
  leNat ((lockingScript.drop (lockingScript.length - 5)).take 4)

end State

section Template

/-- Copies `src` from left to right, with `repl` for every occurrence of `marker`; `skip` bytes of
an occurrence are still to be passed over. -/
def replaceFrom (marker repl : CString) : ℕ → CString → CString
  | _, [] => []
  | skip + 1, _ :: cs => replaceFrom marker repl skip cs
  | 0, c :: cs =>
    if marker.isPrefixOf (c :: cs) then repl ++ replaceFrom marker repl (marker.length - 1) cs
    else c :: replaceFrom marker repl 0 cs

def hexTemplateReplace (tmpl name repl : CString) : CString :=
  replaceFrom (ascii "<" ++ name ++ ascii ">") repl 0 tmpl

/-- One lap of the substitution loop. -/
def substituteLeaf (tmpl : CString) (leaf : ScryptLeaf) : Except Err CString := do
  let enc ← toScriptHex leaf.value
  return hexTemplateReplace tmpl leaf.name (hexEncode enc)

/-- The first three steps of `reconstruct_locking_script`: the code part. -/
def reconstructCode (artifact : ScryptArtifact) (ctorValues : List ScryptArg) :
    Except Err Bytes := do
  let leaves ← flattenArgs artifact ctorValues
  let tmpl ← leaves.foldlM substituteLeaf artifact.hexTemplate
  hexDecode tmpl

def reconstructLockingScript (artifact : ScryptArtifact) (ctorValues stateVals : List ScryptArg)
    (isGenesis : Bool) : Except Err Bytes := do
  let code ← reconstructCode artifact ctorValues
  if artifact.stateful then
    let state ← buildState artifact.stateProps stateVals isGenesis
    return code ++ [0x6a] ++ state
  else return code

end Template

end BonsaiChain
