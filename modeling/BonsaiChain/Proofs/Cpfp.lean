import BonsaiChain.Cpfp
import BonsaiChain.Proofs.CJson
import BonsaiChain.Proofs.CharterParams
import BonsaiChain.Proofs.Deploy

/-!
# What a child spends and pays

A child spends the output that `VOUT` names and pays the fee that `FEE` names, when the first fits
in 32 bits and the second is not negative.
-/

namespace BonsaiChain

open Lib

section Written

/-- The text writes the number, in white space and with an optional sign; white space alone is
zero. -/
inductive Writes : CString → ℤ → Prop
  | blank {s : CString} : (∀ c ∈ s, isJsWs c = true) → Writes s 0
  | number {before sign digits after : CString} : (∀ c ∈ before, isJsWs c = true) →
      sign ∈ [[], [43], [45]] → digits ≠ [] → (∀ c ∈ digits, isDigitByte c = true) →
      (∀ c ∈ after, isJsWs c = true) →
      Writes (before ++ (sign ++ (digits ++ after)))
        (if sign = [45] then -digitsValue digits else digitsValue digits)

theorem dropWhile_isJsWs_append {before s : CString} (h : ∀ c ∈ before, isJsWs c = true) :
    (before ++ s).dropWhile isJsWs = s.dropWhile isJsWs := List.dropWhile_append_of_pos h

theorem not_isJsWs_of_digit {c : UInt8} (h : isDigitByte c = true) : isJsWs c = false := by
  by_contra hws
  rw [((charClasses c).2.1 (by simpa using hws)).2.2] at h
  simp at h

/-- Digits end where white space begins. -/
theorem span_digits {digits after : CString} (hdigits : ∀ c ∈ digits, isDigitByte c = true)
    (hafter : ∀ c ∈ after, isJsWs c = true) :
    (digits ++ after).takeWhile isDigitByte = digits
      ∧ (digits ++ after).dropWhile isDigitByte = after := by
  rcases after with _ | ⟨c, after⟩
  · rw [List.append_nil]
    exact ⟨List.takeWhile_eq_self_iff.2 hdigits, List.dropWhile_eq_nil_iff.2 hdigits⟩
  · have hc : isDigitByte c = false := ((charClasses c).2.1 (hafter c (by simp))).2.2
    rw [List.takeWhile_append_of_pos hdigits, List.dropWhile_append_of_pos hdigits]
    simp [hc]

theorem readSign_append {sign digits after : CString} (hsign : sign ∈ [[], [43], [45]])
    (hne : digits ≠ []) (hdigits : ∀ c ∈ digits, isDigitByte c = true) :
    readSign (sign ++ (digits ++ after)) = (decide (sign = [45]), digits ++ after) := by
  simp only [List.mem_cons, List.not_mem_nil, or_false] at hsign
  rcases hsign with rfl | rfl | rfl
  · rcases digits with _ | ⟨c, digits⟩
    · exact absurd rfl hne
    · exact CJson.readSign_digit (hdigits c (by simp))
  · rfl
  · rfl

/-- What is read is what is written. -/
theorem parseLong_eq_of_writes {s : CString} {n : ℤ} {v : Int64} (h : Writes s n)
    (hv : parseLong s = some v) : v.toInt = n := by
  cases h with
  | blank hs =>
    simp only [parseLong, List.dropWhile_eq_nil_iff.2 hs, if_true, Option.some.injEq] at hv
    rw [← hv]
    rfl
  | @number before sign digits after hbefore hsign hne hdigits hafter =>
    have hfirst : (sign ++ (digits ++ after)).dropWhile isJsWs = sign ++ (digits ++ after) := by
      simp only [List.mem_cons, List.not_mem_nil, or_false] at hsign
      rcases hsign with rfl | rfl | rfl
      · rcases digits with _ | ⟨c, digits⟩
        · exact absurd rfl hne
        · simp [not_isJsWs_of_digit (hdigits c (by simp))]
      · rfl
      · rfl
    obtain ⟨htake, hdrop⟩ := span_digits hdigits hafter
    have hnil : sign ++ (digits ++ after) ≠ [] := by simp [hne]
    simp only [parseLong, dropWhile_isJsWs_append hbefore, hfirst, hnil, if_false, strtol,
      readSign_append hsign hne hdigits, htake, hdrop, hne, decide_eq_true_eq] at hv
    split_ifs at hv with hneg hrange hrange
    all_goals
      simp only [List.dropWhile_eq_nil_iff.2 hafter, if_true, Option.some.injEq] at hv
    all_goals
      simp only [hneg, if_true, if_false, not_or, not_lt] at hrange ⊢
      rw [← hv, Int64.toInt_ofInt_of_le hrange.1 (Int.lt_of_le_sub_one hrange.2)]

theorem exists_sign (s : CString) : ∃ sign ∈ [[], [43], [45]],
    s = sign ++ (readSign s).2 ∧ (readSign s).1 = decide (sign = [45]) := by
  unfold readSign
  split
  · next t => exact ⟨[45], by simp, rfl, rfl⟩
  · next t => exact ⟨[43], by simp, rfl, rfl⟩
  · exact ⟨[], by simp, rfl, rfl⟩

/-- The sign, the digits and the rest of what `strtol` reads behind white space. -/
theorem strtol_parts {s rest : CString} {v : Int64} (hs : s.dropWhile isJsWs = s)
    (h : strtol s = some (v, rest)) : ∃ sign ∈ [[], [43], [45]], ∃ digits, digits ≠ []
      ∧ (∀ c ∈ digits, isDigitByte c = true) ∧ s = sign ++ (digits ++ rest)
      ∧ v.toInt = if sign = [45] then -(digitsValue digits : ℤ) else digitsValue digits := by
  obtain ⟨sign, hsign, hparts, hneg⟩ := exists_sign s
  rcases hr : readSign s with ⟨negative, t⟩
  simp only [hr] at hparts hneg
  simp only [strtol, hs, hr, hneg, decide_eq_true_eq] at h
  generalize hn : (if sign = [45] then -(digitsValue (t.takeWhile isDigitByte) : ℤ)
    else digitsValue (t.takeWhile isDigitByte)) = n at h
  split_ifs at h with hne hrange
  rw [Option.some.injEq, Prod.mk.injEq] at h
  rw [not_or, not_lt, not_lt] at hrange
  refine ⟨sign, hsign, t.takeWhile isDigitByte, hne, fun c hc => List.mem_takeWhile_imp hc, ?_, ?_⟩
  · rw [← h.2, List.takeWhile_append_dropWhile]
    exact hparts
  · rw [← h.1, Int64.toInt_ofInt_of_le hrange.1 (Int.lt_of_le_sub_one hrange.2), hn]

/-- What is read has been written. -/
theorem writes_of_parseLong {s : CString} {v : Int64} (hv : parseLong s = some v) :
    Writes s v.toInt := by
  unfold parseLong at hv
  by_cases hnil : s.dropWhile isJsWs = []
  · simp only [hnil, if_true, Option.some.injEq] at hv
    rw [← hv]
    exact .blank (List.dropWhile_eq_nil_iff.1 hnil)
  · simp only [hnil, if_false] at hv
    rcases hr : strtol (s.dropWhile isJsWs) with _ | ⟨w, rest⟩
    · simp [hr] at hv
    · simp only [hr] at hv
      split_ifs at hv with hafter
      obtain rfl : w = v := Option.some.inj hv
      obtain ⟨sign, hsign, digits, hne, hdigits, hs, hvalue⟩ :=
        strtol_parts (List.dropWhile_idempotent _ _) hr
      rw [hvalue, ← List.takeWhile_append_dropWhile (p := isJsWs) (l := s), hs]
      exact .number (fun c hc => List.mem_takeWhile_imp hc) hsign hne hdigits
        (List.dropWhile_eq_nil_iff.1 hafter)

end Written

section Guard

/-- The index after its cast. -/
theorem toNat_vout {v : Int64} (h : 0 ≤ v) :
    (v.toUInt64.toUInt32.toNat : ℤ) = v.toInt % 2 ^ 32 := by
  have hnonneg : 0 ≤ v.toInt := Int64.le_iff_toInt_le.1 h
  rw [UInt64.toNat_toUInt32, Int.natCast_mod, toNat_toUInt64 hnonneg]
  rfl

theorem toInt_toInt64 (value : UInt64) : value.toInt64.toInt = (value.toNat : ℤ).bmod (2 ^ 64) :=
  BitVec.toInt_eq_toNat_bmod _

/-- What the guard lets through: the difference as it fits in a `long`, at least 1000. -/
theorem childOutput_eq_ok {value childOut : UInt64} {fee : Int64}
    (h : childOutput value fee = .ok childOut) : fee.toInt ≤ 50000 ∧ 1000 ≤ childOut.toNat
      ∧ (childOut.toNat : ℤ) = ((value.toNat : ℤ) - fee.toInt).bmod (2 ^ 64) := by
  unfold childOutput at h
  rw [error_ite_eq_ok, not_or, Int64.not_lt, Except.ok.injEq] at h
  obtain ⟨⟨hout, hfee⟩, rfl⟩ := h
  have hle : (1000 : ℤ) ≤ (value.toInt64 - fee).toInt := Int64.le_iff_toInt_le.1 hout
  have hpos : 0 ≤ (value.toInt64 - fee).toInt := by omega
  have hcast : ((value.toInt64 - fee).toUInt64.toNat : ℤ) = (value.toInt64 - fee).toInt :=
    toNat_toUInt64 hpos
  refine ⟨not_lt.1 fun hlt => hfee (Int64.lt_iff_toInt_lt.2 hlt), ?_, ?_⟩
  · exact_mod_cast hcast ▸ hle
  · rw [hcast, Int64.toInt_sub, toInt_toInt64]
    exact Int.bmod_sub_bmod

/-- With a fee that is not negative nothing has wrapped, however large the value is. -/
theorem childOutput_exact {value childOut : UInt64} {fee : Int64} (hfee : 0 ≤ fee.toInt)
    (h : childOutput value fee = .ok childOut) :
    (childOut.toNat : ℤ) = (value.toNat : ℤ) - fee.toInt := by
  obtain ⟨hle, hout, heq⟩ := childOutput_eq_ok h
  have hvalue : (value.toNat : ℤ) < 2 ^ 64 := by exact_mod_cast value.toNat_lt
  have hnat : (0 : ℤ) ≤ value.toNat := Int.natCast_nonneg _
  rw [heq, Int.bmod_def]
  rw [Int.bmod_def] at heq
  split_ifs at heq ⊢ <;> omega

end Guard

section Child

variable {P : Prims} {S : Secp256k1} {E : ScriptEnv} {woc : Except Err CpfpClient}

def WrittenVout (E : ScriptEnv) (v : ℤ) : Prop := ∃ s, E.getenv "VOUT" = some s ∧ Writes s v

/-- The fee of the environment; unset it is 3000. -/
def WrittenFee (E : ScriptEnv) (f : ℤ) : Prop :=
  match E.getenv "FEE" with
  | none => f = 3000
  | some s => Writes s f

/-- The transaction spends output `v` of the parent alone, to one output, for the fee `f`. -/
structure SafeChild (parent : CString) (ptx : Tx) (v f : ℤ) (tx : Tx) : Prop where
  spends : ∃ i, tx.inputs = [i] ∧ i.prevTxidDisplay = hexToLower parent ∧ (i.vout.toNat : ℤ) = v
  pays : ∃ spent paid, ptx.outputs[v.toNat]? = some spent ∧ tx.outputs = [paid]
    ∧ 1000 ≤ paid.satoshis.toNat ∧ paid.satoshis.toNat ≤ spent.satoshis.toNat
    ∧ (spent.satoshis.toNat : ℤ) - paid.satoshis.toNat = f
  fee_nonneg : 0 ≤ f
  fee_le : f ≤ 50000

/-- The transaction is safe for what the environment names. -/
def CpfpSafe (E : ScriptEnv) (woc : Except Err CpfpClient) (tx : Tx) : Prop :=
  ∃ parent client ptx v f, E.envSet "PARENT" = some parent ∧ woc = .ok client
    ∧ fetchParent client parent = .ok ptx ∧ WrittenVout E v ∧ WrittenFee E f
    ∧ SafeChild parent ptx v f tx

theorem parseVout_eq_some {s : Option CString} {v : Int64} :
    parseVout s = some v ↔ ∃ text, s = some text ∧ parseLong text = some v ∧ 0 ≤ v := by
  simp only [parseVout, Option.filter_eq_some_iff, Option.bind_eq_some_iff, decide_eq_true_eq]
  constructor
  · rintro ⟨⟨text, hs, hread⟩, hnonneg⟩
    exact ⟨text, hs, hread, hnonneg⟩
  · rintro ⟨text, hs, hread, hnonneg⟩
    exact ⟨⟨text, hs, hread⟩, hnonneg⟩

theorem cpfpArguments_eq_ok {parent : CString} {vout : UInt32} {fee : Int64} :
    cpfpArguments E = .ok (parent, vout, fee) ↔ E.envSet "PARENT" = some parent
      ∧ (∃ v, parseVout (E.getenv "VOUT") = some v ∧ vout = v.toUInt64.toUInt32)
      ∧ parseFee (E.getenv "FEE") = some fee := by
  unfold cpfpArguments
  rcases E.envSet "PARENT" with _ | p
  · simp
  · rcases parseVout (E.getenv "VOUT") with _ | v
    · simp
    · rcases parseFee (E.getenv "FEE") with _ | f
      · simp
      · simp [eq_comm]

theorem writtenFee_iff {fee : Int64} {f : ℤ} (h : parseFee (E.getenv "FEE") = some fee) :
    WrittenFee E f ↔ f = fee.toInt := by
  unfold WrittenFee
  rcases hs : E.getenv "FEE" with _ | s
  · rw [hs, parseFee, Option.some.injEq] at h
    rw [← h]
    rfl
  · rw [hs, parseFee] at h
    constructor
    · exact fun hf => (parseLong_eq_of_writes hf h).symm
    · rintro rfl
      exact writes_of_parseLong h

theorem writtenVout_iff {v : Int64} {n : ℤ} (h : parseVout (E.getenv "VOUT") = some v) :
    WrittenVout E n ↔ n = v.toInt := by
  obtain ⟨s, hs, hread, -⟩ := parseVout_eq_some.1 h
  constructor
  · rintro ⟨s', hs', hn⟩
    obtain rfl : s = s' := Option.some.inj (hs.symm.trans hs')
    exact (parseLong_eq_of_writes hn hread).symm
  · rintro rfl
    exact ⟨s, hs, writes_of_parseLong hread⟩

theorem parentValue_eq_ok {parent : CString} {ptx : Tx} {vout : UInt32} {value : UInt64} :
    parentValue parent ptx vout = .ok value
      ↔ ∃ spent, ptx.outputs[vout.toNat]? = some spent ∧ spent.satoshis = value := by
  unfold parentValue
  cases ptx.outputs[vout.toNat]? <;> simp

theorem buildChild_eq_ok {key : EcdsaKey} {pub : Block 33} {parent : CString} {vout : UInt32}
    {value childOut : UInt64} {fee : Int64} {child : CpfpChild}
    (h : buildChild P key pub parent vout value fee childOut = .ok child) :
    (∃ script, child.tx.inputs = [⟨hexToLower parent, vout, script, 0xffffffff⟩])
      ∧ child.tx.outputs = [⟨childOut, buildP2pkhScript (P.hash160 pub.1)⟩] := by
  simp only [buildChild, bind_eq_ok, mapError_eq_ok, pure_eq_ok] at h
  obtain ⟨b, hb, digest, -, der, -, raw, -, txid, -, rfl⟩ := h
  unfold txBuilderAddInput at hb
  split_ifs at hb
  rw [Except.ok.injEq] at hb
  rw [← hb]
  exact ⟨⟨_, rfl⟩, rfl⟩

/-- What the run has read and built when there is a child. -/
theorem cpfpChild_eq_ok {child : CpfpChild} (h : cpfpChild P S E woc = .ok child) :
    ∃ parent v fee client ptx spent paid script spk, E.envSet "PARENT" = some parent
      ∧ parseVout (E.getenv "VOUT") = some v ∧ parseFee (E.getenv "FEE") = some fee
      ∧ woc = .ok client ∧ fetchParent client parent = .ok ptx
      ∧ ptx.outputs[v.toUInt64.toUInt32.toNat]? = some spent
      ∧ childOutput spent.satoshis fee = .ok paid
      ∧ child.tx.inputs = [⟨hexToLower parent, v.toUInt64.toUInt32, script, 0xffffffff⟩]
      ∧ child.tx.outputs = [⟨paid, spk⟩] := by
  simp only [cpfpChild, bind_eq_ok, mapError_eq_ok] at h
  obtain ⟨⟨parent, vout, fee⟩, hargs, ⟨key, pub⟩, -, client, hwoc, ptx, hptx, value, hvalue, paid,
    hpaid, hchild⟩ := h
  obtain ⟨hparent, ⟨v, hv, rfl⟩, hfee⟩ := cpfpArguments_eq_ok.1 hargs
  obtain ⟨⟨script, hinputs⟩, houtputs⟩ := buildChild_eq_ok hchild
  obtain ⟨spent, hspent, rfl⟩ := parentValue_eq_ok.1 hvalue
  exact ⟨parent, v, fee, client, ptx, spent, paid, script, _, hparent, hv, hfee, hwoc, hptx, hspent,
    hpaid, hinputs, houtputs⟩

theorem CpfpSafe.argument_bounds {tx : Tx} (h : CpfpSafe E woc tx) :
    ∃ v f, WrittenVout E v ∧ WrittenFee E f ∧ v < 2 ^ 32 ∧ 0 ≤ f := by
  obtain ⟨parent, client, ptx, v, f, -, -, -, hv, hf, hsafe⟩ := h
  obtain ⟨i, -, -, rfl⟩ := hsafe.spends
  exact ⟨_, f, hv, hf, by exact_mod_cast i.vout.toNat_lt, hsafe.fee_nonneg⟩

/-- A child is safe exactly when the index fits in 32 bits and the fee is not negative. -/
theorem cpfpChild_safe_iff {child : CpfpChild} (h : cpfpChild P S E woc = .ok child) :
    CpfpSafe E woc child.tx
      ↔ ∃ v f, WrittenVout E v ∧ WrittenFee E f ∧ v < 2 ^ 32 ∧ 0 ≤ f := by
  refine ⟨CpfpSafe.argument_bounds, ?_⟩
  rintro ⟨n, f, hn, hf, hlt, hnonneg⟩
  obtain ⟨parent, v, fee, client, ptx, spent, paid, script, spk, hparent, hv, hfee, hwoc, hptx,
    hspent, hpaid, hinputs, houtputs⟩ := cpfpChild_eq_ok h
  obtain ⟨-, -, -, hv0⟩ := parseVout_eq_some.1 hv
  obtain rfl := (writtenVout_iff hv).1 hn
  obtain rfl := (writtenFee_iff hfee).1 hf
  have hvnonneg : 0 ≤ v.toInt := Int64.le_iff_toInt_le.1 hv0
  have hindex : (v.toUInt64.toUInt32.toNat : ℤ) = v.toInt := by
    rw [toNat_vout hv0, Int.emod_eq_of_lt hvnonneg hlt]
  obtain ⟨hle, hout, -⟩ := childOutput_eq_ok hpaid
  have hexact := childOutput_exact hnonneg hpaid
  refine ⟨parent, client, ptx, v.toInt, fee.toInt, hparent, hwoc, hptx, hn, hf,
    ⟨_, hinputs, rfl, hindex⟩, ⟨spent, _, ?_, houtputs, hout, ?_, ?_⟩, hnonneg, hle⟩
  · rw [← hindex, Int.toNat_natCast]
    exact hspent
  · show paid.toNat ≤ _
    omega
  · show (spent.satoshis.toNat : ℤ) - paid.toNat = _
    omega

end Child

section Example

open Deploy

/-- The key 1, a parent with an output of 100000 satoshis, and the index and fee given as texts. -/
def cpfpEnv (vout fee : String) : ScriptEnv where
  argv1 := none
  getenv name :=
    [("PARENT", List.replicate 64 50), ("VOUT", ascii vout), ("FEE", ascii fee)].lookup name
  pathExists _ := true
  readFile _ := .ok (ascii (
    "\x7b\"wif\":\"KwDiBf89QgGbjEhKnhXJuH7LrciVrZi3qYjgd9M7rFU73sVHnoWn\"," ++
    "\"address\":\"1BgGZ9tcN4rm9KBzDn7KprQz87SZ26SAMH\"\x7d"))
  loadArtifact _ := .error .epersist

def cpfpWoc : CpfpClient where
  toWocClient := exampleWocClient
  rawTx _ := .ok (some (hexEncode (txBytes
    ⟨1, [⟨List.replicate 64 48, 0, [], 0⟩], [⟨100000, [0x51]⟩], 0⟩)))

/-- What the runs of the examples end with. -/
theorem cpfpChild_cpfpEnv :
    (∃ child, cpfpChild codePrims exampleDeploySecp (cpfpEnv " +00 " "3000") (.ok cpfpWoc)
      = .ok child
      ∧ child.tx.outputs.map (·.satoshis) = [97000])
    ∧ (∃ child, cpfpChild codePrims exampleDeploySecp (cpfpEnv "4294967296" "3000") (.ok cpfpWoc)
        = .ok child ∧ child.tx.inputs.map (·.vout) = [0])
    ∧ ∃ child, cpfpChild codePrims exampleDeploySecp (cpfpEnv "0" "-1000") (.ok cpfpWoc) = .ok child
      ∧ child.tx.outputs.map (·.satoshis) = [101000] := by
  decide +kernel

/-- The arguments of the examples, as they are read. -/
theorem parse_cpfpEnv :
    (parseVout ((cpfpEnv " +00 " "3000").getenv "VOUT") = some 0
      ∧ parseFee ((cpfpEnv " +00 " "3000").getenv "FEE") = some 3000)
    ∧ parseVout ((cpfpEnv "4294967296" "3000").getenv "VOUT") = some 4294967296
    ∧ parseFee ((cpfpEnv "0" "-1000").getenv "FEE") = some (-1000) := by
  decide +kernel

-- the sign of the index is checked
example : parseVout (some (ascii "-1")) = none := by decide +kernel

theorem cpfpChild_safe_iff_zero : ∃ child,
    cpfpChild codePrims exampleDeploySecp (cpfpEnv " +00 " "3000") (.ok cpfpWoc) = .ok child
      ∧ CpfpSafe (cpfpEnv " +00 " "3000") (.ok cpfpWoc) child.tx := by
  obtain ⟨child, h, -⟩ := cpfpChild_cpfpEnv.1
  obtain ⟨⟨hvout, hfee⟩, -⟩ := parse_cpfpEnv
  exact ⟨child, h, (cpfpChild_safe_iff h).2 ⟨0, 3000, (writtenVout_iff hvout).2 rfl,
    (writtenFee_iff hfee).2 rfl, by decide, by decide⟩⟩

/-- An index of 2^32 spends output 0, and a negative fee pays more than the output is worth. -/
theorem cpfpChild_not_safe :
    (∃ child, cpfpChild codePrims exampleDeploySecp (cpfpEnv "4294967296" "3000") (.ok cpfpWoc)
        = .ok child ∧ child.tx.inputs.map (·.vout) = [0]
      ∧ ¬CpfpSafe (cpfpEnv "4294967296" "3000") (.ok cpfpWoc) child.tx)
    ∧ ∃ child, cpfpChild codePrims exampleDeploySecp (cpfpEnv "0" "-1000") (.ok cpfpWoc) = .ok child
      ∧ child.tx.outputs.map (·.satoshis) = [101000]
      ∧ ¬CpfpSafe (cpfpEnv "0" "-1000") (.ok cpfpWoc) child.tx := by
  obtain ⟨-, ⟨child, hrun, hinputs⟩, child', hrun', houtputs⟩ := cpfpChild_cpfpEnv
  obtain ⟨-, hvout, hfee⟩ := parse_cpfpEnv
  refine ⟨⟨child, hrun, hinputs, fun h => ?_⟩, child', hrun', houtputs, fun h => ?_⟩
  · obtain ⟨v, f, hv, -, hlt, -⟩ := h.argument_bounds
    rw [(writtenVout_iff hvout).1 hv] at hlt
    exact absurd hlt (by decide)
  · obtain ⟨v, f, -, hf, -, hnonneg⟩ := h.argument_bounds
    rw [(writtenFee_iff hfee).1 hf] at hnonneg
    exact absurd hnonneg (by decide)

end Example

end BonsaiChain
