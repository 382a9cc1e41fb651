import BonsaiChain.ArtifactLoader
import BonsaiChain.Lib.Results
import BonsaiChain.Proofs.AgentTea
import BonsaiChain.Proofs.Common
import BonsaiChain.Proofs.Covenant

/-!
# Which arguments get a script

The codec compares the numbers of the constructor values and parameters, the tags of the state
values with those of their properties, and reads the filled template as hexadecimal. It does not
compare the constructor values with the declared types, nor the number of the state values.
-/

namespace BonsaiChain

open Lib

namespace ArtifactLoader

section Code

variable {artifact : ScryptArtifact} {ctorValues : List ScryptArg}

/-- The push of a constructor value. -/
def ctorPush (v : ScryptArg) : Bytes := (toScriptHex v).toOption.getD []

theorem toScriptHex_scalar {v : ScryptArg} (h : IsScalar v) : toScriptHex v = .ok (ctorPush v) := by
  rcases v <;> simp_all [IsScalar, ScryptArg.tag, ctorPush, toScriptHex, Except.toOption]

mutual

theorem flattenValue_scalar (artifact : ScryptArtifact) : ∀ (v : ScryptArg) (path : CString),
    ∀ leaf ∈ flattenValue artifact v path, IsScalar leaf.value
  | .fixedArray elems, path => flattenElems_scalar artifact _ elems 0
  | .struct _ fields, path => flattenElems_scalar artifact _ fields 0
  | .int _, _ | .rabinPubkey _, _ | .bool _, _ | .bytes _, _ | .pubkey _, _ | .sha256 _, _
  | .ripemd160 _, _ => by simp [flattenValue, IsScalar, ScryptArg.tag]

theorem flattenElems_scalar (artifact : ScryptArtifact) (path : ℕ → CString) :
    ∀ (vs : List ScryptArg) (i : ℕ), ∀ leaf ∈ flattenElems artifact path vs i, IsScalar leaf.value
  | [], _ => by simp [flattenElems]
  | v :: vs, i => by
    rw [flattenElems, List.forall_mem_append]
    exact ⟨flattenValue_scalar artifact v _, flattenElems_scalar artifact path vs _⟩

end

/-- The leaves of as many constructor values as there are parameters. -/
def ctorLeaves (artifact : ScryptArtifact) (values : List ScryptArg) : List ScryptLeaf :=
  (artifact.ctorParams.zip values).flatMap fun pv => flattenValue artifact pv.2 pv.1.name

/-- The template with the pushes of the leaves for their placeholders. -/
def filledTemplate (artifact : ScryptArtifact) (values : List ScryptArg) : CString :=
  (ctorLeaves artifact values).foldl
    (fun tmpl leaf => hexTemplateReplace tmpl leaf.name (hexEncode (ctorPush leaf.value)))
    artifact.hexTemplate

/-- A text that decodes. -/
def HexText (s : CString) : Prop := s.length % 2 = 0 ∧ ∀ c ∈ s, (hexNibble c).isSome

theorem foldlM_substituteLeaf_scalar : ∀ {leaves : List ScryptLeaf} {tmpl : CString},
    (∀ leaf ∈ leaves, IsScalar leaf.value) → leaves.foldlM substituteLeaf tmpl
      = .ok (leaves.foldl
        (fun tmpl leaf => hexTemplateReplace tmpl leaf.name (hexEncode (ctorPush leaf.value))) tmpl)
  | [], _, _ => rfl
  | leaf :: leaves, tmpl, h => by
    rw [List.forall_mem_cons] at h
    rw [List.foldlM_cons, List.foldl_cons, substituteLeaf, toScriptHex_scalar h.1, ok_bind]
    exact foldlM_substituteLeaf_scalar h.2

theorem reconstructCode_ok_iff : (∃ code, reconstructCode artifact ctorValues = .ok code)
    ↔ ctorValues.length = artifact.ctorParams.length
      ∧ HexText (filledTemplate artifact ctorValues) := by
  have hscalar : ∀ leaf ∈ ctorLeaves artifact ctorValues, IsScalar leaf.value := by
    intro leaf h
    obtain ⟨pv, -, hleaf⟩ := List.mem_flatMap.1 h
    exact flattenValue_scalar artifact _ _ leaf hleaf
  by_cases hlength : ctorValues.length = artifact.ctorParams.length
  · have hflat : flattenArgs artifact ctorValues = .ok (ctorLeaves artifact ctorValues) :=
      if_neg (not_not.2 hlength)
    rw [reconstructCode, hflat, ok_bind, foldlM_substituteLeaf_scalar hscalar, ok_bind,
      hexDecode_ok_iff]
    simp [hlength, HexText, filledTemplate]
  · have hflat : flattenArgs artifact ctorValues = .error .einval := if_pos hlength
    rw [reconstructCode, hflat]
    simp [hlength, bind, Except.bind]

end Code

section State

theorem stateValuePush_ok_iff {type : ScryptType} {v : ScryptArg} :
    (∃ push, stateValuePush type v = .ok push) ↔ IsScalar v ∧ v.tag = type := by
  unfold stateValuePush
  by_cases htag : v.tag = type
  · subst htag
    rcases v <;> simp [IsScalar, ScryptArg.tag]
  · simp [htag]

/-- The tags are compared for as many values as there are. -/
theorem stateValues_ok_iff : ∀ {props : List ScryptParam} {values : List ScryptArg},
    values.length ≤ props.length → ((∃ pushes, stateValues props values = .ok pushes)
      ↔ ∀ pv ∈ props.zip values, IsScalar pv.2 ∧ pv.2.tag = pv.1.type)
  | props, [], _ => by simp [stateValues]
  | p :: props, v :: values, h => by
    have ih := stateValues_ok_iff (Nat.le_of_succ_le_succ h)
    rw [List.zip_cons_cons, List.forall_mem_cons, ← ih, ← stateValuePush_ok_iff]
    simp only [stateValues, bind_eq_ok, pure_eq_ok]
    refine ⟨?_, ?_⟩
    · rintro ⟨_, push, hpush, pushes, hpushes, -⟩
      exact ⟨⟨push, hpush⟩, pushes, hpushes⟩
    · rintro ⟨⟨push, hpush⟩, pushes, hpushes⟩
      exact ⟨_, push, hpush, pushes, hpushes, rfl⟩

theorem buildState_ok_iff {props : List ScryptParam} {values : List ScryptArg} {isGenesis : Bool}
    (h : values.length ≤ props.length) :
    (∃ state, buildState props values isGenesis = .ok state)
      ↔ (∀ pv ∈ props.zip values, IsScalar pv.2 ∧ pv.2.tag = pv.1.type)
        ∧ (values.flatMap scalarPush).length + 1 < 2 ^ 31 := by
  rw [← stateValues_ok_iff h]
  refine ⟨?_, ?_⟩
  · rintro ⟨state, hstate⟩
    obtain ⟨pushes, hpushes, hsize, -⟩ := Covenant.buildState_eq_ok hstate
    rw [← stateValues_eq_ok hpushes]
    exact ⟨⟨pushes, hpushes⟩, hsize⟩
  · rintro ⟨⟨pushes, hpushes⟩, hsize⟩
    rw [← stateValues_eq_ok hpushes] at hsize
    simp only [buildState, hpushes, ok_bind, bind_eq_ok, pure_eq_ok, Covenant.sized_four,
      List.length_cons]
    exact ⟨_, _, Covenant.num2bin_eq_some.2 ⟨by omega, hsize, rfl⟩, rfl⟩

end State

section Shape

variable {a : LoadedArtifact} {ctorValues stateVals : List ScryptArg} {isGenesis : Bool}

/-- The checks that the codec makes of the arguments. -/
structure PassesChecks (a : LoadedArtifact) (ctorValues stateVals : List ScryptArg) : Prop where
  ctorNumber : ctorValues.length = a.ctorParams.length
  template : HexText (filledTemplate a.artifact ctorValues)
  stateTags : a.artifact.stateful = true → ∀ pv ∈ a.stateProps.zip stateVals,
    IsScalar pv.2 ∧ pv.2.tag = resolveType pv.1.typeName.val
  stateSize : a.artifact.stateful = true → (stateVals.flatMap scalarPush).length + 1 < 2 ^ 31

theorem zip_params {q : ScryptParam × ScryptArg → Prop} {params : List TypedParam}
    {values : List ScryptArg} : (∀ pv ∈ (params.map TypedParam.param).zip values, q pv)
      ↔ ∀ pv ∈ params.zip values, q (pv.1.param, pv.2) := by
  rw [List.zip_map_left, List.forall_mem_map]
  rfl

theorem reconstruct_ok_iff
    (hprops : a.artifact.stateful = true → stateVals.length ≤ a.stateProps.length) :
    (∃ script, reconstructLockingScript a.artifact ctorValues stateVals isGenesis = .ok script)
      ↔ PassesChecks a ctorValues stateVals := by
  have hcode : (∃ code, reconstructCode a.artifact ctorValues = .ok code)
      ↔ ctorValues.length = a.ctorParams.length
        ∧ HexText (filledTemplate a.artifact ctorValues) := by
    rw [reconstructCode_ok_iff, LoadedArtifact.artifact, List.length_map]
  by_cases hstateful : a.artifact.stateful = true
  · have hle : stateVals.length ≤ a.artifact.stateProps.length := by
      rw [LoadedArtifact.artifact, List.length_map]
      exact hprops hstateful
    have hzip : (∀ pv ∈ a.artifact.stateProps.zip stateVals,
          IsScalar pv.2 ∧ pv.2.tag = pv.1.type)
        ↔ ∀ pv ∈ a.stateProps.zip stateVals,
          IsScalar pv.2 ∧ pv.2.tag = resolveType pv.1.typeName.val := zip_params
    have hstate : (∃ state, buildState a.artifact.stateProps stateVals isGenesis = .ok state) ↔ _ :=
      buildState_ok_iff hle
    simp only [Covenant.reconstruct_eq_ok hstateful]
    refine ⟨?_, fun h => ?_⟩
    · rintro ⟨_, code, state, hrun, hbuild, -⟩
      obtain ⟨hnumber, htemplate⟩ := hcode.1 ⟨code, hrun⟩
      obtain ⟨htags, hsize⟩ := hstate.1 ⟨state, hbuild⟩
      exact ⟨hnumber, htemplate, fun _ => hzip.1 htags, fun _ => hsize⟩
    · obtain ⟨code, hrun⟩ := hcode.2 ⟨h.ctorNumber, h.template⟩
      obtain ⟨state, hbuild⟩ := hstate.2 ⟨hzip.2 (h.stateTags hstateful), h.stateSize hstateful⟩
      exact ⟨_, code, state, hrun, hbuild, rfl⟩
  · simp only [reconstructLockingScript, hstateful, bind_eq_ok]
    refine ⟨?_, fun h => ?_⟩
    · rintro ⟨_, code, hrun, -⟩
      obtain ⟨hnumber, htemplate⟩ := hcode.1 ⟨code, hrun⟩
      exact ⟨hnumber, htemplate, fun h => absurd h hstateful, fun h => absurd h hstateful⟩
    · obtain ⟨code, hrun⟩ := hcode.2 ⟨h.ctorNumber, h.template⟩
      exact ⟨code, code, hrun, by simp [pure, Except.pure]⟩

/-- Arguments that get a script have the artifact's shape exactly when, where the checks pass, the
constructor values have the declared kinds and there is a state value for every property. Values
beyond the properties are compared with what lies behind the properties in memory. -/
theorem reconstruct_shape_iff
    (hprops : a.artifact.stateful = true → stateVals.length ≤ a.stateProps.length) :
    (∀ script, reconstructLockingScript a.artifact ctorValues stateVals isGenesis = .ok script →
        a.WellShaped ctorValues stateVals)
      ↔ (PassesChecks a ctorValues stateVals → KindsMatch a.structs a.ctorParams ctorValues
        ∧ (a.artifact.stateful = true → stateVals.length = a.stateProps.length)) := by
  refine ⟨fun h hpass => ?_, fun h script hscript => ?_⟩
  · obtain ⟨script, hscript⟩ := (reconstruct_ok_iff hprops).2 hpass
    have hshape := h script hscript
    exact ⟨hshape.ctorKinds, hshape.stateNumber⟩
  · have hpass := (reconstruct_ok_iff hprops).1 ⟨script, hscript⟩
    obtain ⟨hkinds, hnumber⟩ := h hpass
    refine ⟨hpass.ctorNumber, hkinds, hnumber, fun hstateful pv hpv => ?_⟩
    obtain ⟨hscalar, htag⟩ := hpass.stateTags hstateful pv hpv
    exact .scalar hscalar htag

/-- A contract with an integer in its code and one in its state. -/
def counterText : CString :=
  ascii "\x7b\"contract\":\"C\",\"hex\":\"<a>ac\",\"abi\":[\x7b\"type\":\"constructor\",\"params\":"
    ++ ascii "[\x7b\"name\":\"a\",\"type\":\"int\"\x7d]\x7d],"
    ++ ascii "\"stateProps\":[\x7b\"name\":\"n\",\"type\":\"int\"\x7d]\x7d"

def counterArtifact : LoadedArtifact :=
  ⟨cStr (ascii "C"), cStr (ascii "<a>ac"), [], [⟨cStr (ascii "a"), cStr (ascii "int")⟩],
    [⟨cStr (ascii "n"), cStr (ascii "int")⟩]⟩

theorem counterArtifact_facts : loadArtifactFromJson counterText = .ok counterArtifact
    ∧ resolveType (cStr (ascii "int")).val = .int ∧ counterArtifact.artifact.stateful = true
    ∧ reconstructLockingScript counterArtifact.artifact [.bytes [1, 2]] [.int 5] true
      = .ok [2, 1, 2, 0xac, 0x6a, 1, 1, 5, 3, 0, 0, 0, 0]
    ∧ reconstructLockingScript counterArtifact.artifact [.int 5] [] true
      = .ok [0x55, 0xac, 0x6a, 1, 1, 0, 0, 0, 0]
    ∧ reconstructLockingScript counterArtifact.artifact [.int 5] [.int 7] true
      = .ok [0x55, 0xac, 0x6a, 1, 1, 7, 3, 0, 0, 0, 0] := by
  decide +kernel

theorem reconstruct_shape_iff_counter :
    reconstructLockingScript counterArtifact.artifact [.int 5] [.int 7] true
        = .ok [0x55, 0xac, 0x6a, 1, 1, 7, 3, 0, 0, 0, 0]
      ∧ counterArtifact.WellShaped [.int 5] [.int 7] := by
  obtain ⟨-, hint, -, -, -, hscript⟩ := counterArtifact_facts
  refine ⟨hscript, (reconstruct_shape_iff fun _ => le_rfl).2 (fun _ => ⟨fun pv hpv => ?_,
    fun _ => rfl⟩) _ hscript⟩
  rw [List.mem_singleton.1 hpv]
  exact .scalar (by decide) hint.symm

theorem HasKind.tag_eq {structs : List TypedStruct} {t : CString} {v : ScryptArg}
    (h : HasKind structs t v) (hscalar : IsScalar v) : v.tag = resolveType t := by
  rcases h with ⟨-, htag⟩ | _ | _
  · exact htag
  · exact absurd rfl hscalar.1
  · exact absurd rfl hscalar.2

/-- Bytes are taken for the integer in the code, and no value for the one in the state. -/
theorem reconstruct_takes_misshaped : loadArtifactFromJson counterText = .ok counterArtifact
    ∧ (∃ script, reconstructLockingScript counterArtifact.artifact [.bytes [1, 2]] [.int 5] true
      = .ok script)
    ∧ ¬counterArtifact.WellShaped [.bytes [1, 2]] [.int 5]
    ∧ (∃ script, reconstructLockingScript counterArtifact.artifact [.int 5] [] true = .ok script)
    ∧ ¬counterArtifact.WellShaped [.int 5] [] := by
  obtain ⟨hload, hint, hstateful, hbytes, hnone, -⟩ := counterArtifact_facts
  refine ⟨hload, ⟨_, hbytes⟩, fun h => ?_, ⟨_, hnone⟩,
    fun h => absurd (h.stateNumber hstateful) (by simp [counterArtifact])⟩
  have htag := (h.ctorKinds _ (List.mem_singleton_self _)).tag_eq (by decide)
  exact absurd (htag.trans hint) (by decide)

end Shape

end ArtifactLoader

end BonsaiChain
