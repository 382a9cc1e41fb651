import BonsaiChain.Common

/-!
# Transactions

The transaction model of `bsv/tx.c`: reading and printing the wire form. An input keeps the
spent txid as display hex; the wire holds its bytes reversed. `write_varint` prints a length in its
shortest form and `read_varint` rejects every other form.
-/

namespace BonsaiChain

open Lib

section Varint

/-- `write_varint`; the argument is the `uint64_t` to write. -/
def writeVarint (n : ℕ) : Bytes :=
  if n < 0xfd then [UInt8.ofNat n]
  else if n ≤ 0xffff then 0xfd :: leBytes 2 n
  else if n ≤ 0xffffffff then 0xfe :: leBytes 4 n
  else 0xff :: leBytes 8 n

/-- How many payload bytes follow a lead byte of at least `0xfd`, and the least value they may
spell. -/
def varintPayload (lead : UInt8) : ℕ × ℕ :=
  if lead = 0xfd then (2, 0xfd) else if lead = 0xfe then (4, 0x10000) else (8, 0x100000000)

def readVarint : Parser Err UInt8 ℕ
  | [] => .error .eparse
  | lead :: rest =>
    if lead < 0xfd then .ok (lead.toNat, rest)
    else
      let nbytes := (varintPayload lead).1
      if nbytes > rest.length then .error .eparse
      else
        let v := leNat (rest.take nbytes)
        if v < (varintPayload lead).2 then .error .eparse else .ok (v, rest.drop nbytes)

end Varint

structure TxIn where
  prevTxidDisplay : CString
  vout : UInt32
  scriptSig : Bytes
  sequence : UInt32
  deriving DecidableEq, Repr

structure TxOut where
  satoshis : UInt64
  script : Bytes
  deriving DecidableEq, Repr

structure Tx where
  version : UInt32
  inputs : List TxIn
  outputs : List TxOut
  locktime : UInt32
  deriving DecidableEq, Repr

def u32le (v : UInt32) : Bytes := leBytes 4 v.toNat

def u64le (v : UInt64) : Bytes := leBytes 8 v.toNat

section Read

def readU32le : Parser Err UInt8 UInt32 :=
  (Parser.take .eparse 4).andThen fun bs => Parser.done (UInt32.ofNat (leNat bs))

def readU64le : Parser Err UInt8 UInt64 :=
  (Parser.take .eparse 8).andThen fun bs => Parser.done (UInt64.ofNat (leNat bs))

/-- A length prefix and that many bytes. -/
def readSized : Parser Err UInt8 Bytes := readVarint.andThen fun slen => Parser.take .eparse slen

def readTxIn : Parser Err UInt8 TxIn :=
  (Parser.take .eparse 32).andThen fun wire =>
  readU32le.andThen fun vout =>
  readSized.andThen fun scriptSig =>
  readU32le.andThen fun sequence =>
  Parser.done ⟨hexEncode wire.reverse, vout, scriptSig, sequence⟩

def readTxOut : Parser Err UInt8 TxOut :=
  readU64le.andThen fun satoshis =>
  readSized.andThen fun script =>
  Parser.done ⟨satoshis, script⟩

/-- A count and that many items, after the check that the bytes left could hold so many items of
at least `size` bytes. -/
def readCounted {α : Type} (size : ℕ) (item : Parser Err UInt8 α) : Parser Err UInt8 (List α) :=
  readVarint.andThen fun n =>
  (Parser.guardLeft .eparse fun left => n ≤ left.length / size).andThen fun _ =>
  item.count n

def readTx : Parser Err UInt8 Tx :=
  readU32le.andThen fun version =>
  (readCounted 41 readTxIn).andThen fun inputs =>
  (readCounted 9 readTxOut).andThen fun outputs =>
  readU32le.andThen fun locktime =>
  Parser.done ⟨version, inputs, outputs, locktime⟩

def txDeserialize (hex : CString) : Except Err Tx :=
  match hexDecode hex with
  | .error _ => .error .eparse
  | .ok raw => readTx.whole .eparse raw

end Read

section Print

/-- A length prefix and the bytes. -/
def printSized (bs : Bytes) : Bytes := writeVarint bs.length ++ bs

/-- The wire bytes of a display txid: its 32 bytes reversed. -/
def wireTxid (display : CString) : Except Err Bytes :=
  match hexDecodeFixed display 32 with
  | .error _ => .error .einval
  | .ok disp => .ok disp.reverse

def printTxIn (i : TxIn) : Except Err Bytes := do
  let wire ← wireTxid i.prevTxidDisplay
  return wire ++ u32le i.vout ++ printSized i.scriptSig ++ u32le i.sequence

def printTxOut (o : TxOut) : Bytes := u64le o.satoshis ++ printSized o.script

def txSerialize (tx : Tx) : Except Err Bytes := do
  let inputs ← tx.inputs.mapM printTxIn
  byteBufAppend [] (u32le tx.version ++ writeVarint tx.inputs.length ++ inputs.flatten
    ++ writeVarint tx.outputs.length ++ tx.outputs.flatMap printTxOut ++ u32le tx.locktime)

/-- `tx_id`: the reversed double hash of the serialized transaction, as display hex. -/
def txId (sha256d : Bytes → Bytes) (tx : Tx) : Except Err CString := do
  let raw ← txSerialize tx
  return hexEncode (sha256d raw).reverse

end Print

end BonsaiChain
