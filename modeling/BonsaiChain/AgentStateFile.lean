import BonsaiChain.CanonicalJson
import BonsaiChain.Deploy

/-!
# The state file of the resumable agent

`scripts/agent_state.c`: the agent's state printed as JSON with two blanks an indent, counters as
decimal strings, and read back member by member, each with a default where it is missing.
-/

namespace BonsaiChain

open CJson

namespace StateFile

section State

structure AgentParams where
  perTxLimit : Int64
  dailyLimit : Int64
  windowDuration : Int64
  graduationThreshold : Int64
  validatorThreshold : Int64
  recoveryThreshold : Int64
  deriving DecidableEq

def agentParamsDefaults : AgentParams := ⟨100000, 1000000, 86400, 10000, 50000, 2⟩

structure AgentRabinPub where
  guardian : Option CStr
  ownValidator : Option CStr
  recovery : List (Option CStr)
  deriving DecidableEq

structure AgentTip where
  txid : Option CStr
  vout : UInt32
  rawTxHex : Option CStr
  deriving DecidableEq

structure AgentRuntimeState where
  txCount : Int64
  spentInWindow : Int64
  windowStart : Int64
  tier : Int64
  recoveryCount : Int64
  deriving DecidableEq

inductive AgentStatus where
  | deployed
  | actioned
  | revoked
  deriving DecidableEq

structure AgentHistoryEntry where
  op : Option CStr
  txid : Option CStr
  deriving DecidableEq

/-- `agent_state_t`, with the strings that may be NULL. -/
structure AgentState where
  schema : Option CStr
  network : Option CStr
  genesisTxid : Option CStr
  ricardianHash : Option CStr
  owner : Option CStr
  agentPubKey : Option CStr
  counterpartyPubKey : Option CStr
  charter : Option CStr
  params : AgentParams
  rabinPub : AgentRabinPub
  identitySats : Int64
  tip : AgentTip
  state : AgentRuntimeState
  status : AgentStatus
  history : List AgentHistoryEntry
  deriving DecidableEq

end State

/-- A string constant of the source. -/
def key (s : String) : CStr := cStr (ascii s)

def agentStateSchema : CStr := key "bonsai.agentd-state/v1"

def statusStr : AgentStatus → CStr
  | .deployed => key "deployed"
  | .actioned => key "actioned"
  | .revoked => key "revoked"

section Print

def putIndent (level : ℕ) : Bytes := List.replicate (level * 2) 32

def putKey (level : ℕ) (name : CStr) : Bytes :=
  putIndent level ++ jsonEscapeString name ++ [58, 32]

def putStrVal (v : Option CStr) : Bytes := jsonEscapeString (v.getD (cStr []))

def putDecStrVal (v : Int64) : Bytes := 34 :: decimalInt v.toInt ++ [34]

def putNumVal (v : Int64) : Bytes := decimalInt v.toInt

/-- Lines with commas between them. -/
def putLines : List Bytes → Bytes
  | [] => []
  | [line] => line ++ [10]
  | line :: lines => line ++ [44, 10] ++ putLines lines

/-- How each object of the file is laid out: a member a line, one level in. -/
def putObject (level : ℕ) (members : List (CStr × Bytes)) : Bytes :=
  [123, 10] ++ putLines (members.map fun m => putKey (level + 1) m.1 ++ m.2) ++ putIndent level
    ++ [125]

/-- How the two arrays are. -/
def putArray (level : ℕ) (items : List Bytes) : Bytes :=
  if items = [] then [91, 93]
  else
    [91, 10] ++ putLines (items.map fun item => putIndent (level + 1) ++ item) ++ putIndent level
      ++ [93]

def putParams (p : AgentParams) : Bytes :=
  putObject 1
    [(key "perTxLimit", putDecStrVal p.perTxLimit),
      (key "dailyLimit", putDecStrVal p.dailyLimit),
      (key "windowDuration", putDecStrVal p.windowDuration),
      (key "graduationThreshold", putDecStrVal p.graduationThreshold),
      (key "validatorThreshold", putDecStrVal p.validatorThreshold),
      (key "recoveryThreshold", putDecStrVal p.recoveryThreshold)]

def putRabinPub (r : AgentRabinPub) : Bytes :=
  putObject 1
    [(key "guardian", putStrVal r.guardian),
      (key "ownValidator", putStrVal r.ownValidator),
      (key "recovery", putArray 2 (r.recovery.map putStrVal))]

def putTip (t : AgentTip) : Bytes :=
  putObject 1
    [(key "txid", putStrVal t.txid),
      (key "vout", putNumVal (Int64.ofNat t.vout.toNat)),
      (key "rawTxHex", putStrVal t.rawTxHex)]

def putRuntimeState (s : AgentRuntimeState) : Bytes :=
  putObject 1
    [(key "txCount", putDecStrVal s.txCount),
      (key "spentInWindow", putDecStrVal s.spentInWindow),
      (key "windowStart", putDecStrVal s.windowStart),
      (key "tier", putDecStrVal s.tier),
      (key "recoveryCount", putDecStrVal s.recoveryCount)]

def putHistoryEntry (e : AgentHistoryEntry) : Bytes :=
  putObject 2 [(key "op", putStrVal e.op), (key "txid", putStrVal e.txid)]

def agentStateToJson (st : AgentState) : CString :=
  putObject 0
    [(key "schema", putStrVal (some (st.schema.getD agentStateSchema))),
      (key "network", putStrVal st.network),
      (key "genesisTxid", putStrVal st.genesisTxid),
      (key "ricardianHash", putStrVal st.ricardianHash),
      (key "owner", putStrVal st.owner),
      (key "agentPubKey", putStrVal st.agentPubKey),
      (key "counterpartyPubKey", putStrVal st.counterpartyPubKey),
      (key "charter", putStrVal st.charter),
      (key "params", putParams st.params),
      (key "rabinPub", putRabinPub st.rabinPub),
      (key "identitySats", putNumVal st.identitySats),
      (key "tip", putTip st.tip),
      (key "state", putRuntimeState st.state),
      (key "status", putStrVal (some (statusStr st.status))),
      (key "history", putArray 1 (st.history.map putHistoryEntry))]

end Print

section Parse

def getStr (obj : Json) (name : CStr) : Option CStr := (getObjectItem name.val obj).bind stringValue

/-- A decimal string; a number is also taken. -/
def getDec (obj : Json) (name : CStr) : Int64 :=
  match getObjectItem name.val obj with
  | some (.string s) => Deploy.strtoll s.val
  | some (.number d) => int64OfDouble d
  | _ => 0

def getNum (obj : Json) (name : CStr) : Int64 :=
  match getObjectItem name.val obj with
  | some (.number d) => int64OfDouble d
  | some (.string s) => Deploy.strtoll s.val
  | _ => 0

/-- `cJSON_GetArraySize`: the number of items, cast to `int`. -/
def getArraySize (items : List Json) : Int32 := Int32.ofNat items.length

/-- The laps of the loops over an array: one for each item that the size counts. -/
def arrayItems : Option Json → List Json
  | some (.array items) =>
    if 0 < getArraySize items then items.take (getArraySize items).toInt.toNat else []
  | _ => []

def readParams (p : Json) : AgentParams where
  perTxLimit := getDec p (key "perTxLimit")
  dailyLimit := getDec p (key "dailyLimit")
  windowDuration := getDec p (key "windowDuration")
  graduationThreshold := getDec p (key "graduationThreshold")
  validatorThreshold := getDec p (key "validatorThreshold")
  recoveryThreshold := getDec p (key "recoveryThreshold")

/-- A recovery key that is no string counts as empty. -/
def readRabinPub (rp : Json) : AgentRabinPub where
  guardian := getStr rp (key "guardian")
  ownValidator := getStr rp (key "ownValidator")
  recovery := (arrayItems (getObjectItem (key "recovery").val rp)).map fun e =>
    some ((stringValue e).getD (cStr []))

def readTip (tip : Json) : AgentTip where
  txid := getStr tip (key "txid")
  vout := UInt32.ofInt (getNum tip (key "vout")).toInt
  rawTxHex := getStr tip (key "rawTxHex")

def readRuntimeState (s : Json) : AgentRuntimeState where
  txCount := getDec s (key "txCount")
  spentInWindow := getDec s (key "spentInWindow")
  windowStart := getDec s (key "windowStart")
  tier := getDec s (key "tier")
  recoveryCount := getDec s (key "recoveryCount")

def readStatus (v : Option Json) : AgentStatus :=
  let sv := (v.bind stringValue).getD (key "deployed")
  if sv = key "revoked" then .revoked
  else if sv = key "actioned" then .actioned
  else .deployed

def readHistoryEntry (e : Json) : AgentHistoryEntry := ⟨getStr e (key "op"), getStr e (key "txid")⟩

/-- What a state is filled with before it is read. -/
def zeroRabinPub : AgentRabinPub := ⟨none, none, []⟩

def zeroTip : AgentTip := ⟨none, 0, none⟩

def zeroRuntimeState : AgentRuntimeState := ⟨0, 0, 0, 0, 0⟩

def agentStateFromJson (json : CString) : Except Err AgentState :=
  match parse json with
  | none => .error .eparse
  | some root => .ok
    { schema := getStr root (key "schema")
      network := getStr root (key "network")
      genesisTxid := getStr root (key "genesisTxid")
      ricardianHash := getStr root (key "ricardianHash")
      owner := getStr root (key "owner")
      agentPubKey := getStr root (key "agentPubKey")
      counterpartyPubKey := getStr root (key "counterpartyPubKey")
      charter := getStr root (key "charter")
      params := ((getObjectItem (key "params").val root).map readParams).getD agentParamsDefaults
      rabinPub := ((getObjectItem (key "rabinPub").val root).map readRabinPub).getD zeroRabinPub
      identitySats := getNum root (key "identitySats")
      tip := ((getObjectItem (key "tip").val root).map readTip).getD zeroTip
      state := ((getObjectItem (key "state").val root).map readRuntimeState).getD zeroRuntimeState
      status := readStatus (getObjectItem (key "status").val root)
      history := (arrayItems (getObjectItem (key "history").val root)).map readHistoryEntry }

end Parse

end StateFile

end BonsaiChain
