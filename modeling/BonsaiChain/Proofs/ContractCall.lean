import BonsaiChain.ContractCall
import BonsaiChain.Proofs.AgentTea
import BonsaiChain.Proofs.Bignum
import BonsaiChain.Proofs.ScriptPush

/-!
# Unlocking scripts read back

The encoders of a method call push what the state decoder and the script parser read: any payloads
one after another, and the fourteen arguments of an execution in the order of its interface.
-/

namespace BonsaiChain

open Lib

section Push

theorem contractCallPushBytes_eq (data : Bytes) : contractCallPushBytes data = pushData data := rfl

theorem contractCallPushIntI64_eq (value : Int64) :
    contractCallPushIntI64 value = .ok (ctorIntPush value.toInt) := by
  unfold contractCallPushIntI64
  rw [bnParseDec_decimalInt]
  rfl

theorem spells_contractCallPushBytes {data : Bytes} (h : data.length < 2 ^ 32) :
    Spells (contractCallPushBytes data) (pushChunk data) := spells_pushData h

/-- Pushes one after another are read by the script parser as their chunks. -/
theorem scriptParse_pushes {payloads : List Bytes} {maxChunks : ℕ}
    (h : ∀ p ∈ payloads, p.length < 2 ^ 32) (hmax : payloads.length ≤ maxChunks) :
    scriptParse (payloads.flatMap contractCallPushBytes) maxChunks
      = .ok (payloads.map pushChunk) := by
  rw [List.flatMap_def]
  refine scriptParse_of_spells ?_ (by simpa using hmax)
  rw [List.forall₂_map_left_iff, List.forall₂_map_right_iff, List.forall₂_same]
  exact fun p hp => spells_contractCallPushBytes (h p hp)

/-- Pushes one after another are read by the state decoder as their payloads. -/
theorem readPush_count : ∀ {payloads : List Bytes} (rest : Bytes),
    (∀ p ∈ payloads, p.length < 2 ^ 32) →
    readPush.count payloads.length (payloads.flatMap contractCallPushBytes ++ rest)
      = .ok (payloads, rest)
  | [], rest, _ => rfl
  | p :: payloads, rest, h => by
    rw [List.forall_mem_cons] at h
    rw [List.length_cons, Parser.count, List.flatMap_cons, List.append_assoc, Parser.andThen_eq_ok]
    refine ⟨p, _, readPush_pushData h.1, ?_⟩
    rw [Parser.andThen_eq_ok]
    exact ⟨payloads, rest, readPush_count rest h.2, rfl⟩

end Push

section Arguments

/-- An argument of a method call. -/
inductive CallArg where
  | bytes (b : Bytes)
  | int (n : ℤ)

namespace CallArg

/-- The push of the argument. -/
def script : CallArg → Bytes
  | .bytes b => contractCallPushBytes b
  | .int n => ctorIntPush n

/-- The chunk the push is read as. -/
def chunk : CallArg → ScriptChunk
  | .bytes b => pushChunk b
  | .int n => ctorIntChunk n

/-- The bytes that stand for the argument. -/
def body : CallArg → Bytes
  | .bytes b => b
  | .int n => int2bytestringMinimal n

theorem spells {a : CallArg} (h : a.body.length < 2 ^ 32) : Spells a.script a.chunk := by
  cases a with
  | bytes b => exact spells_contractCallPushBytes h
  | int n => exact spells_ctorIntPush h

end CallArg

theorem scriptParse_callArgs {args : List CallArg} {maxChunks : ℕ}
    (h : ∀ a ∈ args, a.body.length < 2 ^ 32) (hmax : args.length ≤ maxChunks) :
    scriptParse (args.flatMap CallArg.script) maxChunks = .ok (args.map CallArg.chunk) := by
  rw [List.flatMap_def]
  refine scriptParse_of_spells ?_ (by simpa using hmax)
  rw [List.forall₂_map_left_iff, List.forall₂_map_right_iff, List.forall₂_same]
  exact fun a ha => CallArg.spells (h a ha)

/-- The arguments of an execution in the order of its interface. -/
def executeArgs (c : ContractSpend) (args : ContractExecuteArgs)
    (preimage agentSig cpSig prevouts : Bytes) : List CallArg :=
  [.bytes agentSig, .bytes cpSig, .bytes args.counterpartyPub33.1, .int args.amount,
    .bytes args.hash32.1, .bytes args.provenanceHash32.1, .int args.attestedLimit, .int args.rabinS,
    .bytes args.rabinPadding, .bytes preimage, .int c.changeAmount.toInt,
    .bytes c.changeHash160.1, .bytes prevouts, .int c.methodSelector.toInt]

theorem contractExecuteScript_eq_ok {P : Prims} {tx : Tx} {c : ContractSpend}
    {args : ContractExecuteArgs} {script : Bytes}
    (h : contractExecuteScript P tx c args = .ok script) :
    ∃ preimage agentSig cpSig prevouts, c.preimage P tx = .ok preimage
      ∧ contractCallSignPreimage P preimage args.agentKey sighashAllForkid = .ok agentSig
      ∧ contractCallSignPreimage P preimage args.counterpartyKey sighashAllForkid = .ok cpSig
      ∧ contractCallPrevouts tx = .ok prevouts
      ∧ script = (executeArgs c args preimage agentSig cpSig prevouts).flatMap CallArg.script := by
  simp only [contractExecuteScript, contractCallPushIntI64_eq, contractCallPushIntBn, toScriptHex,
    ok_bind, bind_eq_ok, pure_eq_ok] at h
  obtain ⟨preimage, hpre, agentSig, hagent, cpSig, hcp, prevouts, hprev, rfl⟩ := h
  refine ⟨preimage, agentSig, cpSig, prevouts, hpre, hagent, hcp, hprev, ?_⟩
  simp only [executeArgs, List.flatMap_cons, List.flatMap_nil, CallArg.script, List.append_assoc,
    List.append_nil]

/-- What the encoders write the decoders read: the two push encoders are one, payloads come back
from both decoders, and the unlocking script of an execution is its fourteen arguments. -/
theorem contractCall_pushes_read :
    (∀ data, contractCallPushBytes data = pushData data)
    ∧ (∀ payloads : List Bytes, (∀ p ∈ payloads, p.length < 2 ^ 32) →
        (∀ maxChunks, payloads.length ≤ maxChunks →
          scriptParse (payloads.flatMap contractCallPushBytes) maxChunks
            = .ok (payloads.map pushChunk))
        ∧ readPush.count payloads.length (payloads.flatMap contractCallPushBytes)
          = .ok (payloads, []))
    ∧ ∀ (P : Prims) (tx : Tx) (c : ContractSpend) (args : ContractExecuteArgs) (script : Bytes),
        contractExecuteScript P tx c args = .ok script →
        ∃ preimage agentSig cpSig prevouts, c.preimage P tx = .ok preimage
          ∧ contractCallSignPreimage P preimage args.agentKey sighashAllForkid = .ok agentSig
          ∧ contractCallSignPreimage P preimage args.counterpartyKey sighashAllForkid = .ok cpSig
          ∧ contractCallPrevouts tx = .ok prevouts
          ∧ ((∀ a ∈ executeArgs c args preimage agentSig cpSig prevouts, a.body.length < 2 ^ 32) →
            ∀ maxChunks ≥ 14, scriptParse script maxChunks
              = .ok ((executeArgs c args preimage agentSig cpSig prevouts).map CallArg.chunk)) := by
  refine ⟨contractCallPushBytes_eq, fun payloads h => ⟨fun maxChunks hmax => ?_, ?_⟩, ?_⟩
  · exact scriptParse_pushes h hmax
  · have hcount := readPush_count [] h
    rwa [List.append_nil] at hcount
  · intro P tx c args script h
    obtain ⟨preimage, agentSig, cpSig, prevouts, hpre, hagent, hcp, hprev, rfl⟩ :=
      contractExecuteScript_eq_ok h
    exact ⟨preimage, agentSig, cpSig, prevouts, hpre, hagent, hcp, hprev,
      fun hlen maxChunks hmax => scriptParse_callArgs hlen hmax⟩

end Arguments

end BonsaiChain
