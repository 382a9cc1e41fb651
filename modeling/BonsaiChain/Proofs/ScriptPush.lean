import BonsaiChain.Lib.Results
import BonsaiChain.Proofs.Common
import BonsaiChain.Script
import BonsaiChain.ScriptCodec
import Mathlib.Tactic.SplitIfs

/-!
# Pushes and the chunks they are read as

Every push and every constructor integer is one chunk of the script, whatever follows it, and so a
script put together from them is read as their chunks in order.
-/

namespace BonsaiChain

open Lib

section Chunks

/-- The opcode a push starts with. -/
def pushOpcode (data : Bytes) : UInt8 :=
  if data.length ≤ 75 then UInt8.ofNat data.length
  else if data.length ≤ 0xff then 0x4c
  else if data.length ≤ 0xffff then 0x4d
  else 0x4e

/-- The chunk a push is read as; no data at all is `OP_0`. -/
def pushChunk (data : Bytes) : ScriptChunk :=
  ⟨pushOpcode data, if data = [] then none else some data⟩

/-- The chunk a constructor integer is read as: a small one is an opcode. -/
def ctorIntChunk (n : ℤ) : ScriptChunk :=
  if n = 0 then ⟨0x00, none⟩
  else if n = -1 then ⟨0x4f, none⟩
  else if 1 ≤ n ∧ n ≤ 16 then ⟨0x50 + (int2bytestringMinimal n).headD 0, none⟩
  else pushChunk (int2bytestringMinimal n)

/-- Whatever follows the script, it is read as this chunk. -/
def Spells (script : Bytes) (chunk : ScriptChunk) : Prop :=
  ∃ tail, script = chunk.opcode :: tail
    ∧ ∀ rest, scriptPayload chunk.opcode (tail ++ rest) = .ok (chunk.data, rest)

theorem scriptTake_append (data rest : Bytes) :
    scriptTake data.length (data ++ rest) = .ok (some data, rest) := by
  unfold scriptTake
  rw [if_neg (by simp), List.take_left, List.drop_left]

theorem scriptTakeSized_append {w : ℕ} {data : Bytes} (h : data.length < 256 ^ w) (rest : Bytes) :
    scriptTakeSized w (leBytes w data.length ++ data ++ rest) = .ok (some data, rest) := by
  unfold scriptTakeSized
  have hlen : (leBytes w data.length).length = w := leBytes_length _ _
  rw [if_neg (by simp [hlen]), List.append_assoc, List.take_left' hlen, List.drop_left' hlen,
    leNat_leBytes_of_lt h, scriptTake_append]

theorem scriptPayload_pushdata1 {rest : Bytes} :
    scriptPayload 0x4c rest = scriptTakeSized 1 rest := by
  rw [scriptPayload, if_neg (by decide), if_neg (by decide), if_pos rfl]

theorem scriptPayload_pushdata2 {rest : Bytes} :
    scriptPayload 0x4d rest = scriptTakeSized 2 rest := by
  rw [scriptPayload, if_neg (by decide), if_neg (by decide), if_neg (by decide), if_pos rfl]

theorem scriptPayload_pushdata4 {rest : Bytes} :
    scriptPayload 0x4e rest = scriptTakeSized 4 rest := by
  rw [scriptPayload, if_neg (by decide), if_neg (by decide), if_neg (by decide), if_neg (by decide),
    if_pos rfl]

theorem spells_opcode {opcode : UInt8} (h0 : opcode = 0 ∨ ¬opcode < 0x4c) (h1 : opcode ≠ 0x4c)
    (h2 : opcode ≠ 0x4d) (h4 : opcode ≠ 0x4e) : Spells [opcode] ⟨opcode, none⟩ := by
  refine ⟨[], rfl, fun rest => ?_⟩
  unfold scriptPayload
  rcases h0 with rfl | h0
  · rfl
  · by_cases hz : opcode = 0
    · rw [if_pos hz]
      rfl
    · rw [if_neg hz, if_neg h0, if_neg h1, if_neg h2, if_neg h4]
      rfl

/-- A push is one chunk. -/
theorem spells_pushData {data : Bytes} (h : data.length < 2 ^ 32) :
    Spells (pushData data) (pushChunk data) := by
  unfold Spells pushData pushChunk pushOpcode
  by_cases h0 : data.length = 0
  · obtain rfl := List.length_eq_zero_iff.mp h0
    exact ⟨[], rfl, fun rest => rfl⟩
  have hne : data ≠ [] := fun he => h0 (by simp [he])
  rw [if_neg h0, if_neg hne]
  by_cases h75 : data.length ≤ 75
  · rw [if_pos h75, if_pos h75]
    refine ⟨data, rfl, fun rest => ?_⟩
    have hnat : (UInt8.ofNat data.length).toNat = data.length := toNat_ofNat_of_lt (by omega)
    have hz : UInt8.ofNat data.length ≠ 0x00 := by
      rw [← UInt8.toNat_inj.ne, hnat]
      exact h0
    have hlt : UInt8.ofNat data.length < 0x4c := by
      rw [UInt8.lt_iff_toNat_lt, hnat]
      exact Nat.lt_succ_of_le h75
    simp only [scriptPayload, hz, if_false, hlt, if_true, hnat]
    exact scriptTake_append data rest
  rw [if_neg h75, if_neg h75]
  by_cases h255 : data.length ≤ 0xff
  · rw [if_pos h255, if_pos h255]
    refine ⟨leBytes 1 data.length ++ data, rfl, fun rest => ?_⟩
    rw [scriptPayload_pushdata1, scriptTakeSized_append (by omega)]
  rw [if_neg h255, if_neg h255]
  by_cases h65535 : data.length ≤ 0xffff
  · rw [if_pos h65535, if_pos h65535]
    refine ⟨leBytes 2 data.length ++ data, rfl, fun rest => ?_⟩
    rw [scriptPayload_pushdata2, scriptTakeSized_append (by omega)]
  · rw [if_neg h65535, if_neg h65535]
    refine ⟨leBytes 4 data.length ++ data, rfl, fun rest => ?_⟩
    rw [scriptPayload_pushdata4, scriptTakeSized_append (by omega)]

/-- The opcodes of small integers are no pushes. -/
theorem smallInt_opcode : ∀ k ∈ List.range 17,
    ¬0x50 + (int2bytestringMinimal k).headD 0 < 0x4c
      ∧ 0x50 + (int2bytestringMinimal k).headD 0 ≠ 0x4c
      ∧ 0x50 + (int2bytestringMinimal k).headD 0 ≠ 0x4d
      ∧ 0x50 + (int2bytestringMinimal k).headD 0 ≠ 0x4e := by
  decide +kernel

/-- A constructor integer is one chunk. -/
theorem spells_ctorIntPush {n : ℤ} (h : (int2bytestringMinimal n).length < 2 ^ 32) :
    Spells (ctorIntPush n) (ctorIntChunk n) := by
  unfold ctorIntPush ctorIntChunk
  split_ifs with h0 hneg hsmall
  · exact spells_opcode (by decide) (by decide) (by decide) (by decide)
  · exact spells_opcode (by decide) (by decide) (by decide) (by decide)
  · obtain ⟨k, rfl⟩ := Int.eq_ofNat_of_zero_le (show 0 ≤ n by omega)
    obtain ⟨hlo, h1, h2, h4⟩ := smallInt_opcode k (List.mem_range.2 (by omega))
    exact spells_opcode (.inr hlo) h1 h2 h4
  · exact spells_pushData h

end Chunks

section Sequence

variable {maxChunks : ℕ}

theorem scriptParseFrom_of_spells : ∀ {scripts : List Bytes} {chunks : List ScriptChunk},
    List.Forall₂ Spells scripts chunks → ∀ {fuel count : ℕ}, chunks.length ≤ fuel →
    count + chunks.length ≤ maxChunks →
    scriptParseFrom maxChunks fuel count scripts.flatten = .ok chunks
  | _, _, .nil, fuel, count, _, _ => by cases fuel <;> rfl
  | script :: scripts, chunk :: chunks, .cons hs hrest, fuel, count, hfuel, hmax => by
    obtain ⟨tail, rfl, htail⟩ := hs
    obtain ⟨fuel, rfl⟩ : ∃ k, fuel = k + 1 := ⟨fuel - 1, by simp at hfuel; omega⟩
    rw [List.length_cons] at hfuel hmax
    have ih : scriptParseFrom maxChunks fuel (count + 1) scripts.flatten = .ok chunks :=
      scriptParseFrom_of_spells hrest (by omega) (by omega)
    have hcount : ¬count ≥ maxChunks := by omega
    rw [List.flatten_cons, List.cons_append, scriptParseFrom, htail]
    simp only [ok_bind, hcount, if_false, ih]
    rfl

theorem length_le_of_spells : ∀ {scripts : List Bytes} {chunks : List ScriptChunk},
    List.Forall₂ Spells scripts chunks → chunks.length ≤ scripts.flatten.length
  | _, _, .nil => le_rfl
  | _, _, .cons ⟨tail, hs, _⟩ hrest => by
    have ih := length_le_of_spells hrest
    simp only [hs, List.length_cons, List.flatten_cons, List.cons_append, List.length_append]
    omega

/-- A script put together from chunks is read as these chunks. -/
theorem scriptParse_of_spells {scripts : List Bytes} {chunks : List ScriptChunk}
    (h : List.Forall₂ Spells scripts chunks) (hmax : chunks.length ≤ maxChunks) :
    scriptParse scripts.flatten maxChunks = .ok chunks :=
  scriptParseFrom_of_spells h (length_le_of_spells h) (by omega)

end Sequence

end BonsaiChain
