import BonsaiChain.Covenant
import BonsaiChain.Lib.SignMagnitude
import BonsaiChain.Proofs.Builders

/-!
# The covenant's functions and the program's

The fixed-width integers, output serializations and state scripts the covenants compute are the ones
the builders write.
-/

namespace BonsaiChain.Covenant

open Lib

section Integers

theorem pow_sign (w : ℕ) : 2 ^ (8 * (w + 1) - 1) = 256 ^ w * 128 := by
  rw [show 8 * (w + 1) - 1 = 8 * w + 7 by omega, pow_add, pow_mul]
  norm_num

theorem getLastD_leBytes {w m : ℕ} (h : m < 256 ^ (w + 1)) :
    ((leBytes (w + 1) m).getLastD 0).toNat = m / 256 ^ w := by
  have hlt : m / 256 ^ w < 256 := Nat.div_lt_of_lt_mul (by rwa [pow_succ] at h)
  rw [leBytes_succ, List.getLastD_concat, UInt8.toNat_ofNat', Nat.mod_eq_of_lt hlt]

theorem setSignBit_leBytes {w m : ℕ} (h : m < 256 ^ w * 128) :
    setSignBit (leBytes (w + 1) m) = leBytes (w + 1) (m + 256 ^ w * 128) := by
  have hpos : 0 < 256 ^ w := pow_pos (by omega) w
  have hlt : m / 256 ^ w < 128 := Nat.div_lt_of_lt_mul h
  have hbyte : (UInt8.ofNat (m / 256 ^ w)).toNat = m / 256 ^ w := by
    rw [UInt8.toNat_ofNat', Nat.mod_eq_of_lt (by omega)]
  have hset := (sign_bit (UInt8.ofNat (m / 256 ^ w))).2 (by omega)
  have hdiv : (m + 256 ^ w * 128) / 256 ^ w = m / 256 ^ w + 128 :=
    Nat.add_mul_div_left m 128 hpos
  rw [leBytes_succ w (m + 256 ^ w * 128), leBytes_add_mul, leBytes_succ w m, setSignBit,
    List.dropLast_concat, List.getLastD_concat, hset, hbyte, hdiv]

/-- The fixed-width encoder is `num2bin`. -/
theorem int2bytestringSized_eq_ok {n : ℤ} {w : ℕ} (hw : 0 < w) {bs : Bytes} :
    int2bytestringSized n w = .ok bs ↔ num2bin n w = some bs := by
  obtain ⟨w, rfl⟩ : ∃ k, w = k + 1 := ⟨w - 1, by omega⟩
  have h256 : (256 : ℕ) ^ (w + 1) = 256 ^ w * 128 * 2 := by
    rw [pow_succ]
    ring
  have hcast : ∀ m : ℕ, (m : ℤ) < 256 ^ (w + 1) ↔ m < 256 ^ (w + 1) := by
    intro m
    rw [← Nat.cast_lt (α := ℤ)]
    push_cast
    rfl
  simp only [int2bytestringSized, num2bin, pow_sign, bind_eq_ok, bnToLeBytes_eq_ok, hw, if_true,
    true_and, Int.toNat_natCast, hcast]
  by_cases hn : n.natAbs < 256 ^ w * 128
  · have hlt : n.natAbs < 256 ^ (w + 1) := by omega
    have htop : (leBytes (w + 1) n.natAbs).getLastD 0 &&& 0x80 = 0 := by
      rw [(sign_bit _).1, getLastD_leBytes hlt]
      exact Nat.div_lt_of_lt_mul hn
    have hset := setSignBit_leBytes hn
    by_cases hneg : n < 0
    · simp [hn, hlt, htop, hneg, hset, -List.getLastD_eq_getLast?]
    · simp [hn, hlt, htop, hneg, -List.getLastD_eq_getLast?]
  · simp only [hn, if_false, reduceCtorEq, iff_false, not_exists, not_and]
    rintro tmp ⟨-, hlt, rfl⟩
    have htop : ¬(leBytes (w + 1) n.natAbs).getLastD 0 &&& 0x80 = 0 := by
      rw [(sign_bit _).1, getLastD_leBytes hlt, not_lt,
        Nat.le_div_iff_mul_le (pow_pos (by omega) w)]
      rw [mul_comm]
      omega
    simp [htop, -List.getLastD_eq_getLast?]

theorem sized_eight {n : ℤ} {bs : Bytes} :
    int2bytestringSized n 8 = .ok bs ↔ num2bin n 8 = some bs :=
  int2bytestringSized_eq_ok (by omega)

theorem sized_four {n : ℤ} {bs : Bytes} :
    int2bytestringSized n 4 = .ok bs ↔ num2bin n 4 = some bs :=
  int2bytestringSized_eq_ok (by omega)

theorem num2bin_eq_some {n : ℤ} {w : ℕ} {bs : Bytes} :
    num2bin n w = some bs ↔ 0 < w ∧ n.natAbs < 2 ^ (8 * w - 1)
      ∧ bs = leBytes w (n.natAbs + if n < 0 then 2 ^ (8 * w - 1) else 0) := by
  unfold num2bin
  by_cases h : 0 < w ∧ n.natAbs < 2 ^ (8 * w - 1)
  · simp [h, eq_comm]
  · simp only [h, if_false, reduceCtorEq, false_iff]
    rintro ⟨h1, h2, -⟩
    exact h ⟨h1, h2⟩

theorem num2bin_length {n : ℤ} {w : ℕ} {bs : Bytes} (h : num2bin n w = some bs) :
    bs.length = w := by
  obtain ⟨-, -, rfl⟩ := num2bin_eq_some.mp h
  exact leBytes_length _ _

/-- Different integers have different encodings. -/
theorem num2bin_inj {m n : ℤ} {w : ℕ} {bs : Bytes} (hm : num2bin m w = some bs)
    (hn : num2bin n w = some bs) : m = n := by
  obtain ⟨hw, hm, rfl⟩ := num2bin_eq_some.mp hm
  obtain ⟨-, hn, heq⟩ := num2bin_eq_some.mp hn
  obtain ⟨w, rfl⟩ : ∃ k, w = k + 1 := ⟨w - 1, by omega⟩
  have h256 : (256 : ℕ) ^ (w + 1) = 256 ^ w * 128 * 2 := by
    rw [pow_succ]
    ring
  rw [pow_sign] at *
  have := leBytes_inj (by split_ifs <;> omega) (by split_ifs <;> omega) heq
  split_ifs at this <;> omega

theorem num2bin_natCast {n w : ℕ} (hw : 0 < w) (h : n < 2 ^ (8 * w - 1)) :
    num2bin n w = some (leBytes w n) := by
  rw [num2bin_eq_some]
  refine ⟨hw, by simpa using h, ?_⟩
  rw [if_neg (by omega)]
  simp

end Integers

section Outputs

theorem buildOutput_toNat (script : Bytes) (v : UInt64) :
    buildOutput script v.toNat = some (printTxOut ⟨v, script⟩) := by
  have h : (0 : ℤ) ≤ v.toNat ∧ (v.toNat : ℤ) < 256 ^ 8 := by
    have := v.toNat_lt
    omega
  simp only [buildOutput, toLEUnsigned, h, and_self, if_true, Int.toNat_natCast, printTxOut,
    printSized, u64le, Option.bind_eq_bind, Option.bind_some, List.append_assoc]
  rfl

theorem buildOpreturnScript_hash (hash : Block 32) :
    buildOpreturnScript hash.1 = receiptScript hash := by
  simp [buildOpreturnScript, pushData, receiptScript, hash.2]

/-- The change output of a request is the covenant's change output. -/
theorem withChange_outputs {ctx : Ctx} {req : ChangeRequest} {change : UInt64} {outputs : Bytes}
    (hamount : ctx.changeAmount = change.toNat) (hunreq : req.hash = none → change = 0)
    (haddr : ∀ h, req.hash = some h → ctx.changeAddress = h) :
    withChange ctx outputs = some (outputs ++ (req.outputs change).flatMap printTxOut) := by
  by_cases hzero : change = 0
  · subst hzero
    have hno : ¬ctx.changeAmount > 0 := by
      rw [hamount]
      simp
    simp [withChange, hno, req.outputs_zero]
  · obtain ⟨h, hreq⟩ : ∃ h, req.hash = some h := by
      rcases hh : req.hash with _ | h
      · exact absurd (hunreq hh) hzero
      · exact ⟨h, rfl⟩
    have hpos : 0 < change.toNat := by
      rw [Nat.pos_iff_ne_zero]
      intro h0
      exact hzero (UInt64.toNat_inj.mp h0)
    have hout := ChangeRequest.outputs_of_ne hreq hzero
    have hyes : ctx.changeAmount > 0 := by
      rw [hamount]
      exact_mod_cast hpos
    have hscript : buildPublicKeyHashScript ctx.changeAddress = buildP2pkhScript h := by
      rw [haddr h hreq]
      rfl
    rw [hout, withChange, if_pos hyes, buildChangeOutput, if_pos hyes, hscript, hamount,
      buildOutput_toNat]
    simp

end Outputs

section StateScripts

theorem buildState_eq_ok {props : List ScryptParam} {values : List ScryptArg} {isGenesis : Bool}
    {state : Bytes} (h : buildState props values isGenesis = .ok state) :
    ∃ pushes, stateValues props values = .ok pushes ∧ pushes.length + 1 < 2 ^ 31
      ∧ state = ((if isGenesis then 0x01 else 0x00) :: pushes) ++ leBytes 4 (pushes.length + 1)
        ++ [0x00] := by
  simp only [buildState, bind_eq_ok, pure_eq_ok, sized_four,
    List.length_cons] at h
  obtain ⟨pushes, hpushes, len, hlen, rfl⟩ := h
  obtain ⟨-, hlt, rfl⟩ := num2bin_eq_some.mp hlen
  refine ⟨pushes, hpushes, hlt, ?_⟩
  rw [if_neg (not_lt.mpr (Int.natCast_nonneg _))]
  rfl

theorem reconstruct_eq_ok {artifact : ScryptArtifact} {ctor values : List ScryptArg}
    {isGenesis : Bool} {script : Bytes} (hstateful : artifact.stateful = true) :
    reconstructLockingScript artifact ctor values isGenesis = .ok script ↔
      ∃ code state, reconstructCode artifact ctor = .ok code
        ∧ buildState artifact.stateProps values isGenesis = .ok state
        ∧ script = code ++ [0x6a] ++ state := by
  simp only [reconstructLockingScript, hstateful, if_true, bind_eq_ok, pure_eq_ok]
  refine ⟨?_, ?_⟩
  · rintro ⟨code, hcode, state, hstate, rfl⟩
    exact ⟨code, state, hcode, hstate, rfl⟩
  · rintro ⟨code, state, hcode, hstate, rfl⟩
    exact ⟨code, hcode, state, hstate, rfl⟩

theorem stateBodyLen_append (front : Bytes) {body : Bytes} (h : body.length < 2 ^ 32)
    (last : UInt8) :
    stateBodyLen (front ++ (body ++ leBytes 4 body.length ++ [last])) = body.length := by
  have hdrop : (front ++ (body ++ leBytes 4 body.length ++ [last])).drop
      ((front ++ (body ++ leBytes 4 body.length ++ [last])).length - 5)
      = leBytes 4 body.length ++ [last] := by
    have hassoc : front ++ (body ++ leBytes 4 body.length ++ [last])
        = (front ++ body) ++ (leBytes 4 body.length ++ [last]) := by simp
    rw [hassoc]
    apply List.drop_left'
    simp only [List.length_append, leBytes_length, List.length_singleton]
    omega
  have htake : (leBytes 4 body.length ++ [last]).take 4 = leBytes 4 body.length :=
    List.take_left' (leBytes_length 4 _)
  rw [stateBodyLen, hdrop, htake, leNat_leBytes_of_lt]
  omega

theorem length_stateSection (front body : Bytes) :
    (front ++ (body ++ leBytes 4 body.length ++ [0x00])).length
      = front.length + body.length + 5 := by
  simp only [List.length_append, List.length_cons, List.length_nil, leBytes_length]
  omega

/-- The code part of a reconstructed script is the substituted template. -/
theorem codePart_reconstruct {artifact : ScryptArtifact} {ctor values : List ScryptArg}
    {isGenesis : Bool} {script : Bytes} (hstateful : artifact.stateful = true)
    (h : reconstructLockingScript artifact ctor values isGenesis = .ok script) :
    ∃ code, reconstructCode artifact ctor = .ok code ∧ codePart script = some code := by
  obtain ⟨code, state, hcode, hstate, rfl⟩ := (reconstruct_eq_ok hstateful).mp h
  obtain ⟨pushes, -, hlt, rfl⟩ := buildState_eq_ok hstate
  refine ⟨code, hcode, ?_⟩
  set body : Bytes := (if isGenesis then 0x01 else 0x00) :: pushes with hbody
  have hlen : pushes.length + 1 = body.length := rfl
  rw [hlen] at hlt
  rw [hlen]
  have hstate := stateBodyLen_append (code ++ [0x6a]) (show body.length < 2 ^ 32 by omega) 0x00
  have htotal : (code ++ [0x6a] ++ (body ++ leBytes 4 body.length ++ [0x00])).length
      = code.length + 1 + body.length + 5 := by
    rw [length_stateSection, List.length_append, List.length_singleton]
  have hroom : body.length + 6 ≤ code.length + 1 + body.length + 5 := by omega
  have hcut : code.length + 1 + body.length + 5 - (body.length + 6) = code.length := by omega
  have hget : (code ++ [0x6a] ++ (body ++ leBytes 4 body.length ++ [0x00]))[code.length]?
      = some 0x6a := by
    simp
  simp only [codePart, hstate, htotal, hroom, hcut, hget, and_self, if_true]
  simp

/-- `getStateScript` over the code part is the reconstructed next script. -/
theorem getStateScript_eq_some {artifact : ScryptArtifact} {ctor values : List ScryptArg}
    {code script : Bytes} (hstateful : artifact.stateful = true)
    (hcode : reconstructCode artifact ctor = .ok code)
    (h : reconstructLockingScript artifact ctor values false = .ok script) :
    getStateScript code artifact.stateProps values = some script := by
  obtain ⟨code', state, hcode', hstate, rfl⟩ := (reconstruct_eq_ok hstateful).mp h
  obtain rfl : code = code' := Except.ok.inj (hcode.symm.trans hcode')
  simp [getStateScript, hstate, Except.toOption]

end StateScripts

end BonsaiChain.Covenant
