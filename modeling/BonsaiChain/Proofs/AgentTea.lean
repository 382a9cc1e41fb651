import BonsaiChain.AgentTea
import BonsaiChain.Proofs.Covenant
import BonsaiChain.Proofs.TeaMethod

/-!
# The AgentTea state section reads back

Reading a push gives the pushed data, reading a state integer that is not negative gives the
integer, and so the decoder recovers the state and the agent key of every locking script the program
builds.
-/

namespace BonsaiChain

open Lib

section Pushes

theorem readPushSized_append {w : ℕ} {data rest : Bytes} (h : data.length < 256 ^ w) :
    readPushSized w (leBytes w data.length ++ data ++ rest) = .ok (data, rest) := by
  simp only [readPushSized, Parser.andThen_eq_ok, Parser.take_eq_ok]
  refine ⟨leBytes w data.length, data ++ rest, ⟨leBytes_length w _, by simp⟩, ?_, rfl⟩
  rw [leNat_leBytes_of_lt h]

theorem readPush_pushdata1 {rest : Bytes} : readPush (0x4c :: rest) = readPushSized 1 rest := by
  rw [readPush, if_neg (by decide), if_pos rfl]

theorem readPush_pushdata2 {rest : Bytes} : readPush (0x4d :: rest) = readPushSized 2 rest := by
  rw [readPush, if_neg (by decide), if_neg (by decide), if_pos rfl]

theorem readPush_pushdata4 {rest : Bytes} : readPush (0x4e :: rest) = readPushSized 4 rest := by
  rw [readPush, if_neg (by decide), if_neg (by decide), if_neg (by decide), if_pos rfl]

/-- A push reads back. -/
theorem readPush_pushData {data rest : Bytes} (h : data.length < 2 ^ 32) :
    readPush (pushData data ++ rest) = .ok (data, rest) := by
  unfold pushData
  by_cases h0 : data.length = 0
  · obtain rfl := List.length_eq_zero_iff.mp h0
    rfl
  rw [if_neg h0]
  by_cases h75 : data.length ≤ 75
  · have hop : UInt8.ofNat data.length ≤ 0x4b := by
      rw [UInt8.le_iff_toNat_le, toNat_ofNat_of_lt (by omega)]
      exact h75
    rw [if_pos h75, List.cons_append, readPush, if_pos hop, Parser.take_eq_ok,
      toNat_ofNat_of_lt (by omega)]
    exact ⟨rfl, rfl⟩
  rw [if_neg h75]
  by_cases h255 : data.length ≤ 0xff
  · rw [if_pos h255, List.cons_append, List.cons_append, readPush_pushdata1]
    exact readPushSized_append (w := 1) (by omega)
  rw [if_neg h255]
  by_cases h65535 : data.length ≤ 0xffff
  · rw [if_pos h65535, List.cons_append, List.cons_append, readPush_pushdata2]
    exact readPushSized_append (w := 2) (by omega)
  · rw [if_neg h65535, List.cons_append, List.cons_append, readPush_pushdata4]
    exact readPushSized_append (w := 4) (by omega)

/-- The minimal encoding of a non-negative integer spells the integer, with a zero byte behind it
where the sign bit is taken. -/
theorem leNat_int2bytestringMinimal (n : ℕ) : leNat (int2bytestringMinimal n) = n := by
  unfold int2bytestringMinimal bnMagnitudeLe
  by_cases h0 : (n : ℤ) = 0
  · rw [if_pos h0]
    simp only [leNat]
    omega
  have hneg : ¬(n : ℤ) < 0 := by omega
  rw [if_neg h0]
  simp only [hneg, if_false, Int.natAbs_natCast]
  split_ifs
  · rw [leNat_append, leNat_leBytes_of_lt (bnMagnitude_lt n)]
    simp [leNat]
  · exact leNat_leBytes_of_lt (bnMagnitude_lt n)

theorem readStateInt_stateIntPush {n : ℤ} (hn : 0 ≤ n) {rest : Bytes}
    (h : (stateIntPush n).length < 2 ^ 32) :
    readStateInt (stateIntPush n ++ rest) = .ok (n, rest) := by
  obtain ⟨k, rfl⟩ := Int.eq_ofNat_of_zero_le hn
  have hlen : ∀ data : Bytes, data.length ≤ (pushData data).length := by
    intro data
    unfold pushData
    split_ifs <;> simp [*] <;> omega
  simp only [readStateInt, Parser.andThen_eq_ok, Parser.done_eq_ok]
  unfold stateIntPush at h ⊢
  split_ifs at h ⊢ with h0
  · refine ⟨[0x00], rest, readPush_pushData (by decide), ?_, rfl⟩
    rw [h0]
    rfl
  · refine ⟨_, rest, readPush_pushData ((hlen _).trans_lt h), ?_, rfl⟩
    rw [bnParseLe, leNat_int2bytestringMinimal]

end Pushes

section StateSection

/-- The push of a scalar value. -/
def scalarPush : ScryptArg → Bytes
  | .int n | .rabinPubkey n => stateIntPush n
  | .bool b => [if b then 0x01 else 0x00]
  | .bytes b | .pubkey b | .sha256 b | .ripemd160 b => pushData b
  | .fixedArray _ | .struct _ _ => []

theorem stateValuePush_eq_ok {type : ScryptType} {v : ScryptArg} {push : Bytes}
    (h : stateValuePush type v = .ok push) : push = scalarPush v := by
  unfold stateValuePush at h
  rw [error_ite_eq_ok] at h
  obtain ⟨-, h⟩ := h
  cases v <;> simp_all [scalarPush]

theorem stateValues_eq_ok : ∀ {props : List ScryptParam} {values : List ScryptArg} {pushes : Bytes},
    stateValues props values = .ok pushes → pushes = values.flatMap scalarPush
  | _, [], pushes, h => by
    unfold stateValues at h
    rw [List.flatMap_nil]
    exact (Except.ok.inj h).symm
  | [], _ :: _, _, h => nomatch h
  | p :: props, v :: values, pushes, h => by
    simp only [stateValues, bind_eq_ok, pure_eq_ok] at h
    obtain ⟨push, hpush, rest, hrest, rfl⟩ := h
    rw [stateValuePush_eq_ok hpush, stateValues_eq_ok hrest, List.flatMap_cons]

/-- The state of a contract that was deployed and only acted and recovered. -/
structure AgentTeaState.NonNeg (s : AgentTeaState) : Prop where
  txCount : 0 ≤ s.txCount
  spentInWindow : 0 ≤ s.spentInWindow
  windowStart : 0 ≤ s.windowStart
  tier : 0 ≤ s.tier
  recoveryCount : 0 ≤ s.recoveryCount

theorem readAgentTeaState_pushes {agent : Bytes} {s : AgentTeaState} (hagent : agent.length = 33)
    (hs : s.NonNeg) (h : ((agentTeaStateValues agent s).flatMap scalarPush).length < 2 ^ 32) :
    readAgentTeaState ((agentTeaStateValues agent s).flatMap scalarPush)
      = .ok ((s, agent), []) := by
  simp only [agentTeaStateValues, List.flatMap_cons, List.flatMap_nil, scalarPush,
    List.length_append] at h ⊢
  simp only [readAgentTeaState, Parser.andThen_eq_ok]
  refine ⟨agent, _, readPush_pushData (by omega), ?_⟩
  rw [if_neg (by simp [hagent])]
  simp only [Parser.andThen_eq_ok, Parser.done_eq_ok]
  exact ⟨_, _, readStateInt_stateIntPush hs.txCount (by omega),
    _, _, readStateInt_stateIntPush hs.spentInWindow (by omega),
    _, _, readStateInt_stateIntPush hs.windowStart (by omega),
    _, _, readStateInt_stateIntPush hs.tier (by omega),
    _, _, readStateInt_stateIntPush hs.recoveryCount (by omega), rfl, rfl⟩

/-- The decoder recovers the state section behind whatever code part it stands. -/
theorem agentTeaFromTx_append (front : Bytes) {props : List ScryptParam} {agent state : Bytes}
    {s : AgentTeaState} {isGenesis : Bool} (hagent : agent.length = 33) (hs : s.NonNeg)
    (h : buildState props (agentTeaStateValues agent s) isGenesis = .ok state) :
    agentTeaFromTx (front ++ state) = .ok (s, agent) := by
  obtain ⟨pushes, hpushes, hlt, rfl⟩ := Covenant.buildState_eq_ok h
  obtain rfl := stateValues_eq_ok hpushes
  set pushes := (agentTeaStateValues agent s).flatMap scalarPush with hp
  set body : Bytes := (if isGenesis then 0x01 else 0x00) :: pushes with hbody
  have hlen : pushes.length + 1 = body.length := rfl
  rw [hlen] at hlt ⊢
  have hstateLen := Covenant.stateBodyLen_append front (show body.length < 2 ^ 32 by omega) 0x00
  have hdrop : (front ++ (body ++ leBytes 4 body.length ++ [0x00])).drop
      (front.length + body.length + 5 - 5 - body.length)
      = body ++ leBytes 4 body.length ++ [0x00] := by
    apply List.drop_left'
    omega
  have htake : (body ++ leBytes 4 body.length ++ [0x00]).take body.length = body := by
    rw [List.append_assoc]
    exact List.take_left' rfl
  have hread : readAgentTeaState (body.drop 1) = .ok ((s, agent), []) :=
    readAgentTeaState_pushes hagent hs (by rw [← hp]; omega)
  simp only [agentTeaFromTx, hstateLen, Covenant.length_stateSection]
  rw [if_neg (by omega), if_neg (by omega), hdrop, htake, Parser.whole_eq_ok, hread]

theorem agentTeaFromTx_reconstruct {artifact : ScryptArtifact} {ctor : List ScryptArg}
    {agent : Bytes} {s : AgentTeaState} {isGenesis : Bool} {script : Bytes}
    (hstateful : artifact.stateful = true) (hagent : agent.length = 33) (hs : s.NonNeg)
    (h : reconstructLockingScript artifact ctor (agentTeaStateValues agent s) isGenesis
      = .ok script) : agentTeaFromTx script = .ok (s, agent) := by
  obtain ⟨code, state, -, hstate, rfl⟩ := (Covenant.reconstruct_eq_ok hstateful).mp h
  exact agentTeaFromTx_append (code ++ [0x6a]) hagent hs hstate

end StateSection

section RoundTrip

/-- The state properties of the contract, in the order of its state values. -/
def ScryptArtifact.AgentTeaShaped (artifact : ScryptArtifact) : Prop :=
  artifact.stateProps.map ScryptParam.type = [.pubkey, .int, .int, .int, .int, .int]

theorem ScryptArtifact.AgentTeaShaped.stateful {artifact : ScryptArtifact}
    (h : artifact.AgentTeaShaped) : artifact.stateful = true := by
  unfold ScryptArtifact.AgentTeaShaped at h
  unfold ScryptArtifact.stateful
  rcases hprops : artifact.stateProps with _ | ⟨p, props⟩
  · rw [hprops] at h
    exact nomatch h
  · rfl

variable {c : AgentTea} {isGenesis : Bool} {stateAgent : Option Bytes} {script : Bytes}

/-- What the locking script carries in its state section is what the decoder returns. -/
theorem agentTeaFromTx_lockingScriptEx (hshape : c.artifact.AgentTeaShaped)
    (hagent : c.params.agent.length = 33) (hoverride : ∀ a ∈ stateAgent, a.length = 33)
    (hs : c.state.NonNeg) (h : agentTeaLockingScriptEx c isGenesis stateAgent = .ok script) :
    agentTeaFromTx script = .ok (c.state, stateAgent.getD c.params.agent) := by
  have hlen : (stateAgent.getD c.params.agent).length = 33 := by
    cases stateAgent with
    | none => exact hagent
    | some a => exact hoverride a rfl
  exact agentTeaFromTx_reconstruct hshape.stateful hlen hs h

/-- A contract with a counter of more than 75 bytes and counters that need a sign byte. -/
def wideAgentTea : AgentTea :=
  { TeaMethod.exampleAgentTea with state := ⟨2 ^ 639, 0, 128, 1, 255⟩ }

theorem agentTeaFromTx_lockingScriptEx_wide :
    ∃ script, agentTeaLockingScriptEx wideAgentTea false (some (List.replicate 33 4)) = .ok script
      ∧ agentTeaFromTx script = .ok (wideAgentTea.state, List.replicate 33 4) := by
  obtain ⟨script, hscript, -⟩ : ∃ script,
      agentTeaLockingScriptEx wideAgentTea false (some (List.replicate 33 4)) = .ok script
        ∧ True := by
    decide +kernel
  have hshape : wideAgentTea.artifact.AgentTeaShaped := rfl
  have hagent : wideAgentTea.params.agent.length = 33 := rfl
  have hoverride : ∀ a ∈ some (List.replicate 33 (4 : UInt8)), a.length = 33 := by
    rintro a ⟨⟩
    rfl
  have hs : wideAgentTea.state.NonNeg :=
    ⟨by decide +kernel, by decide, by decide, by decide, by decide⟩
  exact ⟨script, hscript, agentTeaFromTx_lockingScriptEx hshape hagent hoverride hs hscript⟩

end RoundTrip

end BonsaiChain
