import BonsaiChain.AgentStateFile
import BonsaiChain.ScriptCodec

/-!
# The artifact loader

`scrypt/artifact_loader.c`: the parameters and structs of an artifact with the names of their types,
and the tags that these stand for. What a value of a type looks like is read off the names.
-/

namespace BonsaiChain

open CJson StateFile

namespace ArtifactLoader

/-- `scrypt_param_t`; its `type` is what `resolveType` makes of the name. -/
structure TypedParam where
  name : CStr
  typeName : CStr
  deriving DecidableEq

structure TypedStruct where
  name : CStr
  fields : List TypedParam
  deriving DecidableEq

/-- `scrypt_artifact_t`. -/
structure LoadedArtifact where
  contract : CStr
  hexTemplate : CStr
  structs : List TypedStruct
  ctorParams : List TypedParam
  stateProps : List TypedParam
  deriving DecidableEq

section Types

def typeIsArray (t : CString) : Bool := t.getLast? == some 93

/-- A name that is none of these is a struct's, whether the structs have it or not. -/
def resolveType (t : CString) : ScryptType :=
  if typeIsArray t then .fixedArray
  else if t = ascii "int" then .int
  else if t = ascii "bool" then .bool
  else if t = ascii "bytes" then .bytes
  else if t = ascii "ByteString" then .bytes
  else if t = ascii "PubKey" then .pubkey
  else if t = ascii "Sig" then .bytes
  else if t = ascii "Sha256" then .sha256
  else if t = ascii "Ripemd160" then .ripemd160
  else if t = ascii "PubKeyHash" then .ripemd160
  else if t = ascii "RabinPubKey" then .rabinPubkey
  else if t = ascii "PrivKey" then .int
  else .struct

def TypedParam.param (p : TypedParam) : ScryptParam := ⟨p.name.val, resolveType p.typeName.val⟩

/-- The artifact as the codec takes it. -/
def LoadedArtifact.artifact (a : LoadedArtifact) : ScryptArtifact where
  hexTemplate := a.hexTemplate.val
  ctorParams := a.ctorParams.map TypedParam.param
  structs := a.structs.map fun s => ⟨s.name.val, s.fields.map TypedParam.param⟩
  stateProps := a.stateProps.map TypedParam.param

end Types

section Load

def stringField (name : String) (e : Json) : Except Err CStr :=
  (((getObjectItem (ascii name) e).bind stringValue).elim (.error .eparse) .ok)

/-- The items that a loop up to the size meets. -/
def sizedItems (items : List Json) : List Json := items.take (getArraySize items).toInt.toNat

def parseParam (e : Json) : Except Err TypedParam := do
  let name ← stringField "name" e
  let typeName ← stringField "type" e
  return ⟨name, typeName⟩

def parseParams : Option Json → Except Err (List TypedParam)
  | none => .ok []
  | some (.array items) =>
    if getArraySize items < 0 then .error .eparse else (sizedItems items).mapM parseParam
  | some _ => .error .eparse

def parseStruct (e : Json) : Except Err TypedStruct := do
  let name ← stringField "name" e
  let fields ← parseParams (getObjectItem (ascii "params") e)
  return ⟨name, fields⟩

def parseStructs : Option Json → Except Err (List TypedStruct)
  | none => .ok []
  | some (.array items) =>
    if getArraySize items < 0 then .error .eparse else (sizedItems items).mapM parseStruct
  | some _ => .error .eparse

def isConstructor (e : Json) : Bool :=
  ((getObjectItem (ascii "type") e).bind stringValue).any fun s => s.val == ascii "constructor"

def buildArtifact (root : Json) : Except Err LoadedArtifact := do
  let contract ← stringField "contract" root
  let hexTemplate ← stringField "hex" root
  match getObjectItem (ascii "abi") root with
  | some (.array abi) =>
    let structs ← parseStructs (getObjectItem (ascii "structs") root)
    -- a contract without a constructor has no parameters
    let ctorParams ← parseParams
      (((sizedItems abi).find? isConstructor).bind (getObjectItem (ascii "params")))
    let stateProps ← parseParams (getObjectItem (ascii "stateProps") root)
    return ⟨contract, hexTemplate, structs, ctorParams, stateProps⟩
  | _ => throw .eparse

def loadArtifactFromJson (text : CString) : Except Err LoadedArtifact :=
  (parse text).elim (.error .eparse) buildArtifact

end Load

section Shapes

/-- A dimension of an array type, as its name has it. -/
def subscript (n : ℕ) : CString := ascii "[" ++ decimal n ++ ascii "]"

def IsScalar (v : ScryptArg) : Prop := v.tag ≠ .fixedArray ∧ v.tag ≠ .struct

instance (v : ScryptArg) : Decidable (IsScalar v) := inferInstanceAs (Decidable (_ ∧ _))

/-- The values of a type: scalars of its tag, arrays of its length, and structs of its fields. The
first dimension of an array type is the outer one. -/
inductive HasKind (structs : List TypedStruct) : CString → ScryptArg → Prop
  | scalar {t v} (hscalar : IsScalar v) (htag : v.tag = resolveType t) : HasKind structs t v
  | array {base n dims elems} (hbase : typeIsArray base = false) (hlength : elems.length = n)
      (helems : ∀ v ∈ elems, HasKind structs (base ++ dims.flatMap subscript) v) :
      HasKind structs (base ++ (n :: dims).flatMap subscript) (.fixedArray elems)
  | struct {t sd fields} (htype : resolveType t = .struct)
      (hfind : structs.find? (fun s => s.name.val = t) = some sd)
      (hlength : sd.fields.length = fields.length)
      (hfields : ∀ fv ∈ sd.fields.zip fields, HasKind structs fv.1.typeName.val fv.2) :
      HasKind structs t (.struct t fields)

/-- Every value has the kind that its parameter is declared with. -/
def KindsMatch (structs : List TypedStruct) (params : List TypedParam) (values : List ScryptArg) :
    Prop :=
  ∀ pv ∈ params.zip values, HasKind structs pv.1.typeName.val pv.2

/-- The arguments of a script have the artifact's shape. -/
structure LoadedArtifact.WellShaped (a : LoadedArtifact) (ctorValues stateVals : List ScryptArg) :
    Prop where
  ctorNumber : ctorValues.length = a.ctorParams.length
  ctorKinds : KindsMatch a.structs a.ctorParams ctorValues
  stateNumber : a.artifact.stateful = true → stateVals.length = a.stateProps.length
  stateKinds : a.artifact.stateful = true → KindsMatch a.structs a.stateProps stateVals

end Shapes

end ArtifactLoader

end BonsaiChain
