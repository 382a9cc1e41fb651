import BonsaiChain.Common

/-!
# Locking scripts

The chunk decoder of `bsv/script.c` and the two templates read off the chain: the pay-to-public-key
-hash output that ends an identity and the data output that carries a receipt.
-/

namespace BonsaiChain

open Lib

/-- One decoded chunk; `data` is absent for an opcode without a payload. -/
structure ScriptChunk where
  opcode : UInt8
  data : Option Bytes
  deriving DecidableEq, Repr

/-- A payload of the announced length. -/
def scriptTake (n : ℕ) (rest : Bytes) : Except Err (Option Bytes × Bytes) :=
  if n > rest.length then .error .eparse else .ok (some (rest.take n), rest.drop n)

/-- A payload whose length stands in the next `w` bytes. -/
def scriptTakeSized (w : ℕ) (rest : Bytes) : Except Err (Option Bytes × Bytes) :=
  if w > rest.length then .error .eparse else scriptTake (leNat (rest.take w)) (rest.drop w)

/-- The payload that follows `opcode`. -/
def scriptPayload (opcode : UInt8) (rest : Bytes) : Except Err (Option Bytes × Bytes) :=
  if opcode = 0x00 then .ok (none, rest)
  else if opcode < 0x4c then scriptTake opcode.toNat rest
  else if opcode = 0x4c then scriptTakeSized 1 rest
  else if opcode = 0x4d then scriptTakeSized 2 rest
  else if opcode = 0x4e then scriptTakeSized 4 rest
  else .ok (none, rest)

/-- The laps of `script_parse`; every lap reads a byte, so `fuel` is the length of the script. -/
def scriptParseFrom (maxChunks : ℕ) : ℕ → ℕ → Bytes → Except Err (List ScriptChunk)
  | 0, _, _ => .ok []
  | _ + 1, _, [] => .ok []
  | fuel + 1, count, opcode :: rest => do
    let (data, rest) ← scriptPayload opcode rest
    if count ≥ maxChunks then throw .erange
    let chunks ← scriptParseFrom maxChunks fuel (count + 1) rest
    return ⟨opcode, data⟩ :: chunks

def scriptParse (script : Bytes) (maxChunks : ℕ) : Except Err (List ScriptChunk) :=
  scriptParseFrom maxChunks script.length 0 script

/-- The canonical 25 bytes `76 a9 14 <20 bytes> 88 ac`. -/
def isP2pkhOut (script : Bytes) : Bool :=
  script.length == 25 && script[0]? == some 0x76 && script[1]? == some 0xa9
    && script[2]? == some 0x14 && script[23]? == some 0x88 && script[24]? == some 0xac

/-- The data pushed after `OP_RETURN`, which comes first or right after an `OP_0`. -/
def parseOpreturn (script : Bytes) : Except Err Bytes :=
  if script[0]? ≠ some 0x6a ∧ (script[0]? ≠ some 0x00 ∨ script[1]? ≠ some 0x6a) then .error .eparse
  else
    let retIdx := if script[0]? = some 0x6a then 0 else 1
    let parsed := match scriptParse script 64 with
      | .error .erange => scriptParse script script.length
      | r => r
    match parsed with
    | .error e => .error e
    | .ok chunks =>
      match chunks[retIdx]? with
      | none => .error .eparse
      | some ret =>
        if ret.opcode ≠ 0x6a then .error .eparse
        else .ok ((chunks.drop (retIdx + 1)).flatMap fun c => c.data.getD [])

def parseReceiptHash (script : Bytes) : Except Err Bytes :=
  if script.length < 2 then .error .eparse
  else if script[0]? ≠ some 0x00 ∨ script[1]? ≠ some 0x6a then .error .eparse
  else
    let parsed := match scriptParse script 64 with
      | .error .erange => scriptParse script script.length
      | r => r
    match parsed with
    | .error e => .error e
    | .ok chunks =>
      match chunks.getLast? with
      | some ⟨_, some data⟩ => if data.length ≠ 32 then .error .eparse else .ok data
      | _ => .error .eparse

end BonsaiChain
