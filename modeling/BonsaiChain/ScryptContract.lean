import BonsaiChain.Common

/-!
# Compiled artifacts and constructor values

The parsed scrypt artifact, the typed value tree of `scrypt/scrypt_contract.h`, and the flattening
of `scrypt/artifact_loader.c`, which lists the scalar leaves of the constructor values under the
names of the template's placeholders.
-/

namespace BonsaiChain

inductive ScryptType where
  | int | bool | bytes | pubkey | sha256 | ripemd160 | rabinPubkey | fixedArray | struct
  deriving DecidableEq, Repr

/-- `scrypt_arg_t`: the tag and the member of the union it selects. -/
inductive ScryptArg where
  | int (v : ℤ)
  | rabinPubkey (v : ℤ)
  | bool (v : Bool)
  | bytes (v : Bytes)
  | pubkey (v : Bytes)
  | sha256 (v : Bytes)
  | ripemd160 (v : Bytes)
  | fixedArray (elems : List ScryptArg)
  | struct (structName : CString) (fields : List ScryptArg)

def ScryptArg.tag : ScryptArg → ScryptType
  | .int _ => .int
  | .rabinPubkey _ => .rabinPubkey
  | .bool _ => .bool
  | .bytes _ => .bytes
  | .pubkey _ => .pubkey
  | .sha256 _ => .sha256
  | .ripemd160 _ => .ripemd160
  | .fixedArray _ => .fixedArray
  | .struct _ _ => .struct

structure ScryptParam where
  name : CString
  type : ScryptType
  deriving DecidableEq, Repr

structure ScryptStruct where
  name : CString
  fields : List ScryptParam
  deriving DecidableEq, Repr

structure ScryptArtifact where
  hexTemplate : CString
  ctorParams : List ScryptParam
  structs : List ScryptStruct
  stateProps : List ScryptParam
  deriving DecidableEq, Repr

/-- `build_artifact` sets `stateful` from the number of state properties. -/
def ScryptArtifact.stateful (artifact : ScryptArtifact) : Bool := !artifact.stateProps.isEmpty

structure ScryptLeaf where
  name : CString
  value : ScryptArg

def nameDot (base field : CString) : CString := base ++ ascii "." ++ field

def nameIndex (base : CString) (idx : ℕ) : CString := base ++ ascii "[" ++ decimal idx ++ ascii "]"

def findStruct (artifact : ScryptArtifact) (name : CString) : Option ScryptStruct :=
  artifact.structs.find? fun s => s.name == name

/-- The path of field `i` of a struct value: its declared name, or its index where the struct is
not declared or has fewer fields. -/
def fieldPath (sd : Option ScryptStruct) (path : CString) (i : ℕ) : CString :=
  match sd.bind fun s => s.fields[i]? with
  | some field => nameDot path field.name
  | none => nameIndex path i

mutual

def flattenValue (artifact : ScryptArtifact) : ScryptArg → CString → List ScryptLeaf
  | .fixedArray elems, path => flattenElems artifact (nameIndex path) elems 0
  | .struct structName fields, path =>
    flattenElems artifact (fieldPath (findStruct artifact structName) path) fields 0
  | v, path => [⟨path, v⟩]

/-- The loop over the elements of an array or the fields of a struct, from position `i` on. -/
def flattenElems (artifact : ScryptArtifact) (path : ℕ → CString) :
    List ScryptArg → ℕ → List ScryptLeaf
  | [], _ => []
  | v :: vs, i => flattenValue artifact v (path i) ++ flattenElems artifact path vs (i + 1)

end

def flattenArgs (artifact : ScryptArtifact) (values : List ScryptArg) :
    Except Err (List ScryptLeaf) :=
  if values.length ≠ artifact.ctorParams.length then .error .einval
  else .ok ((artifact.ctorParams.zip values).flatMap fun pv => flattenValue artifact pv.2 pv.1.name)

end BonsaiChain
