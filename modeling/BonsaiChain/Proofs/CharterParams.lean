import BonsaiChain.CharterParams
import BonsaiChain.Lib.Results
import Mathlib.Data.List.Nodup
import Mathlib.Data.List.TakeWhile

/-!
# The grammar of the policy block

A line is a comment, or a name, an equals sign and an integer; the names are the five required ones,
each once, and the integers are positive. The parser reads this grammar off lines that its buffers
have cut, which is the grammar itself where every line fits.
-/

namespace BonsaiChain

open Lib

section Grammar

def Identifier (key : CString) : Prop :=
  ∃ c cs, key = c :: cs ∧ isIdentStart c = true ∧ ∀ x ∈ cs, isIdentChar x = true

def IntegerText (val : CString) : Prop :=
  ∃ minus digits, (minus = [] ∨ minus = [45]) ∧ digits ≠ [] ∧ (∀ c ∈ digits, isDigitByte c = true)
    ∧ val = minus ++ digits

/-- A line that gives the parameter `key` the value written `val`. -/
def ParamLine (line key val : CString) : Prop :=
  ∃ before after, line = key ++ (before ++ 61 :: (after ++ val)) ∧ Identifier key ∧ IntegerText val
    ∧ (∀ c ∈ before, isJsWs c = true) ∧ ∀ c ∈ after, isJsWs c = true

/-- The integer that a text writes. -/
def writtenInt : CString → ℤ
  | 45 :: digits => -(digitsValue digits : ℤ)
  | digits => digitsValue digits

/-- The line as the grammar reads it, of any length. -/
def cleanedLine (raw : CString) : CString := trimWs ((beforeFence raw).takeWhile (· ≠ 35))

/-- The parameters that lines declare, in order. -/
inductive Declarations : List CString → List (CString × CString) → Prop
  | nil : Declarations [] []
  | blank {lines decls} : Declarations lines decls → Declarations ([] :: lines) decls
  | param {line key val lines decls} : ParamLine line key val → Declarations lines decls →
      Declarations (line :: lines) ((key, val) :: decls)

/-- The names of the parameters with their values. -/
def CharterParams.entries (p : CharterParams) : List (CString × ℤ) :=
  requiredKeys.zip [p.perTxLimit, p.dailyLimit, p.windowDuration, p.graduationThreshold,
    p.validatorThreshold]

/-- The lines declare the five parameters, each once, with the positive values of `p`. -/
def Declares (lines : List CString) (p : CharterParams) : Prop :=
  ∃ decls, Declarations lines decls ∧ (decls.map (·.1)).Nodup
    ∧ (∀ key, key ∈ decls.map (·.1) ↔ key ∈ requiredKeys)
    ∧ ∀ d ∈ decls, 0 < writtenInt d.2 ∧ (d.1, writtenInt d.2) ∈ p.entries

/-- The prose has a policy block whose lines, of any length, declare the parameters. -/
def InGrammar (prose : CStr) (p : CharterParams) : Prop :=
  ∃ body, policyBlock prose.val = some body ∧ Declares ((body.splitOn 10).map cleanedLine) p

end Grammar

section Lines

variable {line key val : CString}

/-- No character of a name is white space or an equals sign, and none of the value is white
space. -/
theorem charClasses : ∀ c : UInt8, (isIdentChar c = true → isJsWs c = false ∧ c ≠ 61)
    ∧ (isJsWs c = true → c ≠ 61 ∧ c ≠ 45 ∧ isDigitByte c = false)
    ∧ (isDigitByte c = true → c ≠ 45) ∧ (isIdentStart c = true → isIdentChar c = true) := by
  intro c
  simp only [isIdentChar, isIdentStart, isJsWs, isDigitByte, Bool.or_eq_true, Bool.and_eq_true,
    Bool.or_eq_false_iff, Bool.and_eq_false_iff, decide_eq_true_eq, decide_eq_false_iff_not,
    beq_iff_eq, beq_eq_false_iff_ne, ne_eq, UInt8.le_iff_toNat_le, ← UInt8.toNat_inj,
    UInt8.reduceToNat]
  refine ⟨?_, ?_, ?_, ?_⟩ <;> omega

theorem takeWhile_append_cons {α : Type*} {p : α → Bool} {xs ys : List α} {y : α}
    (hxs : ∀ x ∈ xs, p x = true) (hy : p y = false) :
    (xs ++ y :: ys).takeWhile p = xs ∧ (xs ++ y :: ys).dropWhile p = y :: ys := by
  rw [List.takeWhile_append_of_pos hxs, List.dropWhile_append_of_pos hxs,
    List.takeWhile_cons_of_neg (by simp [hy]), List.dropWhile_cons_of_neg (by simp [hy]),
    List.append_nil]
  exact ⟨rfl, rfl⟩

theorem Identifier.chars (h : Identifier key) :
    key.head?.any isIdentStart = true ∧ ∀ c ∈ key, isIdentChar c = true := by
  obtain ⟨c, cs, rfl, hc, hcs⟩ := h
  refine ⟨by simpa using hc, ?_⟩
  simp only [List.mem_cons, forall_eq_or_imp]
  exact ⟨(charClasses c).2.2.2 hc, hcs⟩

/-- A value starts with a minus or a digit. -/
theorem IntegerText.head (h : IntegerText val) : ∃ c cs, val = c :: cs ∧ isJsWs c = false := by
  obtain ⟨minus, digits, rfl | rfl, hne, hdigits, rfl⟩ := h
  · obtain ⟨c, cs, rfl⟩ := List.exists_cons_of_ne_nil hne
    refine ⟨c, cs, rfl, ?_⟩
    by_contra hws
    have hdigit := hdigits c (List.mem_cons_self ..)
    simp [((charClasses c).2.1 (by simpa using hws)).2.2] at hdigit
  · exact ⟨45, digits, rfl, rfl⟩

theorem optionalMinus_append {minus digits : CString} (hminus : minus = [] ∨ minus = [45])
    (hne : digits ≠ []) (hdigits : ∀ c ∈ digits, isDigitByte c = true) :
    optionalMinus (minus ++ digits) = (minus, digits) := by
  rcases hminus with rfl | rfl
  · obtain ⟨c, cs, rfl⟩ := List.exists_cons_of_ne_nil hne
    have hc := (charClasses c).2.2.1 (hdigits c (List.mem_cons_self ..))
    unfold optionalMinus
    simp [hc]
  · rfl

theorem optionalMinus_eq (p : CString) :
    ((optionalMinus p).1 = [] ∨ (optionalMinus p).1 = [45])
      ∧ p = (optionalMinus p).1 ++ (optionalMinus p).2 := by
  unfold optionalMinus
  split
  · exact ⟨.inr rfl, rfl⟩
  · exact ⟨.inl rfl, rfl⟩

theorem ParamLine.integer (h : ParamLine line key val) : IntegerText val := by
  obtain ⟨_, _, -, -, hval, -⟩ := h
  exact hval

/-- How a line splits at its name, its white space and the equals sign. -/
theorem splitLine {before after cs : CString} {c : UInt8} (hkey : Identifier key)
    (hbefore : ∀ c ∈ before, isJsWs c = true) (hafter : ∀ c ∈ after, isJsWs c = true)
    (hc : isJsWs c = false) (hline : line = key ++ (before ++ 61 :: (after ++ c :: cs))) :
    line.takeWhile isIdentChar = key
      ∧ (line.dropWhile isIdentChar).dropWhile isJsWs = 61 :: (after ++ c :: cs)
      ∧ (after ++ c :: cs).dropWhile isJsWs = c :: cs := by
  have hident : (key ++ (before ++ 61 :: (after ++ c :: cs))).takeWhile isIdentChar = key
      ∧ (key ++ (before ++ 61 :: (after ++ c :: cs))).dropWhile isIdentChar
        = before ++ 61 :: (after ++ c :: cs) := by
    rcases before with _ | ⟨b, bs⟩
    · exact takeWhile_append_cons hkey.chars.2 rfl
    · have hb : isIdentChar b = false := by
        by_contra hb
        have hws := hbefore b (List.mem_cons_self ..)
        simp [((charClasses b).1 (by simpa using hb)).1] at hws
      exact takeWhile_append_cons hkey.chars.2 hb
  rw [hline, hident.1, hident.2, (takeWhile_append_cons hbefore rfl).2]
  exact ⟨rfl, rfl, (takeWhile_append_cons hafter hc).2⟩

theorem ParamLine.split (h : ParamLine line key val) :
    line.takeWhile isIdentChar = key ∧ ∃ after,
      (line.dropWhile isIdentChar).dropWhile isJsWs = 61 :: (after ++ val)
        ∧ (after ++ val).dropWhile isJsWs = val := by
  obtain ⟨before, after, hline, hkey, hval, hbefore, hafter⟩ := h
  obtain ⟨c, cs, rfl, hc⟩ := hval.head
  obtain ⟨htake, hdrop, hvalue⟩ := splitLine hkey hbefore hafter hc hline
  exact ⟨htake, after, hdrop, hvalue⟩

theorem matchParamLine_eq_some : matchParamLine line = some (key, val)
    ↔ ParamLine line key val ∧ key.length ≤ 127 ∧ val.length ≤ 255 := by
  refine ⟨fun h => ?_, fun ⟨hline, hkey, hval⟩ => ?_⟩
  · unfold matchParamLine at h
    simp only [] at h
    split_ifs at h with hguard
    rcases hrest : (line.dropWhile isIdentChar).dropWhile isJsWs with _ | ⟨c, p⟩
    · simp [hrest] at h
    by_cases hc : c = 61
    · subst hc
      simp only [hrest] at h
      split_ifs at h with hdigits hlong
      obtain ⟨rfl, rfl⟩ := Prod.mk.inj (Option.some.inj h)
      obtain ⟨hminus, hp⟩ := optionalMinus_eq (p.dropWhile isJsWs)
      simp only [Bool.or_eq_true, Bool.not_eq_true', decide_eq_true_eq, not_or, not_le,
        Bool.not_eq_false] at hguard
      simp only [not_or, not_not, List.all_eq_true] at hdigits
      refine ⟨⟨(line.dropWhile isIdentChar).takeWhile isJsWs, p.takeWhile isJsWs, ?_, ?_, ?_,
        ?_, ?_⟩,
        by omega, by omega⟩
      · rw [← hp, List.takeWhile_append_dropWhile, ← hrest, List.takeWhile_append_dropWhile,
          List.takeWhile_append_dropWhile]
      · obtain ⟨c, cs, rfl⟩ := List.exists_cons_of_ne_nil
          (show line ≠ [] by rintro rfl; simp at hguard)
        have hstart : isIdentStart c = true := by simpa using hguard.1
        exact ⟨c, cs.takeWhile isIdentChar,
          List.takeWhile_cons_of_pos ((charClasses c).2.2.2 hstart), hstart,
          fun x hx => List.mem_takeWhile_imp hx⟩
      · exact ⟨_, _, hminus, hdigits.1, hdigits.2, rfl⟩
      · exact fun c hc => List.mem_takeWhile_imp hc
      · exact fun c hc => List.mem_takeWhile_imp hc
    · simp only [hrest] at h
      split at h
      · exact absurd (List.cons.inj ‹_›).1 hc
      · exact nomatch h
  · obtain ⟨hkey', after, hrest, hval'⟩ := hline.split
    obtain ⟨_, _, hline, hident, ⟨minus, digits, hminus, hne, hdigits, rfl⟩, -⟩ := hline
    have hhead : line.head?.any isIdentStart = true := by
      obtain ⟨c, cs, rfl, hc, -⟩ := hident
      rw [hline]
      simpa using hc
    unfold matchParamLine
    simp only [hkey', hrest, hval', hhead, optionalMinus_append hminus hne hdigits]
    rw [if_neg (by simp; omega), if_neg (by simpa [hne] using hdigits), if_neg (by omega)]

theorem decDigits_eq : ∀ {digits : CString} {n : ℕ}, (∀ c ∈ digits, isDigitByte c = true) →
    decDigits n digits = some (digits.foldl (fun n c => 10 * n + (c.toNat - 48)) n)
  | [], _, _ => rfl
  | c :: cs, n, h => by
    simp only [List.mem_cons, forall_eq_or_imp] at h
    have hc : 48 ≤ c ∧ c ≤ 57 := by simpa [isDigitByte] using h.1
    rw [decDigits, if_pos hc]
    exact decDigits_eq h.2

theorem bnParseDec_integerText (h : IntegerText val) : bnParseDec val = .ok (writtenInt val) := by
  obtain ⟨minus, digits, hminus, hne, hdigits, rfl⟩ := h
  obtain ⟨c, cs, rfl⟩ := List.exists_cons_of_ne_nil hne
  have hvalue := decDigits_eq (n := 0) hdigits
  rcases hminus with rfl | rfl
  · have hc : c ≠ 45 := (charClasses c).2.2.1 (hdigits c (List.mem_cons_self ..))
    simp [bnParseDec, writtenInt, hc, hvalue, digitsValue]
  · simp [bnParseDec, writtenInt, hvalue, digitsValue]

end Lines

section Scan

variable {before lines : List CString} {raw : CString} {s s' : ParamScan}

theorem cleanLine_eq (raw : CString) : cleanLine raw = (cleanedLine raw).take 511 := rfl

theorem requiredKeys_facts : requiredKeys.Nodup ∧ ∀ key ∈ requiredKeys, key.length ≤ 127 := by
  simp [requiredKeys, ascii]

/-- What a line does to a scan that has met no unknown name afterwards. -/
theorem scanLine_eq_ok (h : scanLine before raw s = .ok s') (hknown : s'.unknownKey = none) :
    cleanLine raw = [] ∧ s' = s
      ∨ ∃ key val, ParamLine (cleanLine raw) key val ∧ key ∈ requiredKeys ∧ val.length ≤ 255
        ∧ s.found.lookup key = none
          ∧ s' = { s with found := (key, writtenInt val) :: s.found } := by
  unfold scanLine at h
  simp only [] at h
  by_cases hblank : cleanLine raw = []
  · rw [if_pos hblank] at h
    exact .inl ⟨hblank, (Except.ok.inj h).symm⟩
  rw [if_neg hblank] at h
  rcases hmatch : matchParamLine (cleanLine raw) with _ | ⟨key, val⟩
  · simp [hmatch, charterFail] at h
  obtain ⟨hline, -, hval⟩ := matchParamLine_eq_some.1 hmatch
  simp only [hmatch, scanParam, bnParseDec_integerText hline.integer] at h
  split_ifs at h with hunknown hdup hfound
  · exact absurd h (by simp [charterFail])
  · rw [← Except.ok.inj h] at hknown
    rcases hs : s.unknownKey with _ | k <;> simp [hs] at hknown
  · exact absurd h (by simp [charterFail])
  · refine .inr ⟨key, val, hline, by simpa using hunknown, hval,
      Option.not_isSome_iff_eq_none.1 hfound, ?_⟩
    exact (Except.ok.inj h).symm

theorem scanLine_blank (h : cleanLine raw = []) : scanLine before raw s = .ok s := by
  unfold scanLine
  simp only [h, if_true]

theorem ParamLine.ne_nil {line key val : CString} (h : ParamLine line key val) : line ≠ [] := by
  obtain ⟨_, _, rfl, ⟨c, cs, rfl, -⟩, -⟩ := h
  simp

theorem scanLine_param {key val : CString} (hline : ParamLine (cleanLine raw) key val)
    (hkey : key ∈ requiredKeys) (hval : val.length ≤ 255) (hfound : s.found.lookup key = none) :
    scanLine before raw s = .ok { s with found := (key, writtenInt val) :: s.found } := by
  have hmatch := matchParamLine_eq_some.2 ⟨hline, requiredKeys_facts.2 key hkey, hval⟩
  unfold scanLine
  simp only [if_neg hline.ne_nil, hmatch, scanParam, bnParseDec_integerText hline.integer]
  rw [if_neg (by simpa using hkey), if_neg (by simp [hfound])]

theorem lookup_cons_eq_none {α : Type*} {found : List (CString × α)} {key key' : CString} {v : α} :
    ((key', v) :: found).lookup key = none ↔ key ≠ key' ∧ found.lookup key = none := by
  rw [List.lookup_cons]
  by_cases h : key = key'
  · simp [h]
  · rw [beq_eq_false_iff_ne.2 h]
    exact ⟨fun hfound => ⟨h, hfound⟩, fun hfound => hfound.2⟩

/-- The parameters that are found, with their values, the last one first. -/
def foundBy (decls : List (CString × CString)) : List (CString × ℤ) :=
  (decls.map fun d => (d.1, writtenInt d.2)).reverse

/-- What a scan that met no unknown name has read. -/
theorem scanLines_eq_ok : ∀ {lines before : List CString} {s s' : ParamScan},
    scanLines before s lines = .ok s' → s'.unknownKey = none →
      ∃ decls, Declarations (lines.map cleanLine) decls ∧ (decls.map (·.1)).Nodup
        ∧ (∀ d ∈ decls, d.1 ∈ requiredKeys ∧ d.2.length ≤ 255 ∧ s.found.lookup d.1 = none)
        ∧ s' = { s with found := foundBy decls ++ s.found }
  | [], before, s, s', h, _ => by
    obtain rfl := Except.ok.inj h
    exact ⟨[], .nil, List.nodup_nil, by simp, rfl⟩
  | raw :: lines, before, s, s', h, hknown => by
    simp only [scanLines, bind_eq_ok] at h
    obtain ⟨s₁, hline, hlines⟩ := h
    obtain ⟨decls, hdecls, hnodup, hfresh, rfl⟩ := scanLines_eq_ok hlines hknown
    rcases scanLine_eq_ok hline hknown with ⟨hblank, rfl⟩ | ⟨key, val, hparam, hkey, hval,
      hfound, rfl⟩
    · refine ⟨decls, ?_, hnodup, hfresh, rfl⟩
      rw [List.map_cons, hblank]
      exact hdecls.blank
    · have hne (d : CString × CString) (hd : d ∈ decls) : d.1 ≠ key ∧ s.found.lookup d.1 = none :=
        lookup_cons_eq_none.1 (hfresh d hd).2.2
      refine ⟨(key, val) :: decls, hdecls.param hparam, ?_, ?_, ?_⟩
      · simp only [List.map_cons, List.nodup_cons, List.mem_map, not_exists, not_and]
        exact ⟨fun d hd => (hne d hd).1, hnodup⟩
      · simp only [List.mem_cons, forall_eq_or_imp]
        exact ⟨⟨hkey, hval, hfound⟩, fun d hd =>
          ⟨(hfresh d hd).1, (hfresh d hd).2.1, (hne d hd).2⟩⟩
      · simp [foundBy]

theorem scanLines_of_declarations : ∀ {lines before : List CString} {s : ParamScan}
    {decls : List (CString × CString)}, Declarations (lines.map cleanLine) decls →
      (decls.map (·.1)).Nodup →
      (∀ d ∈ decls, d.1 ∈ requiredKeys ∧ d.2.length ≤ 255 ∧ s.found.lookup d.1 = none) →
      scanLines before s lines = .ok { s with found := foundBy decls ++ s.found }
  | [], before, s, decls, h, _, _ => by
    cases h
    rfl
  | raw :: lines, before, s, decls, h, hnodup, hfresh => by
    rw [List.map_cons] at h
    generalize hclean : cleanLine raw = line at h
    rw [scanLines]
    cases h with
    | blank h =>
      rw [scanLine_blank hclean, ok_bind]
      exact scanLines_of_declarations h hnodup hfresh
    | param hline h =>
      simp only [List.mem_cons, forall_eq_or_imp, List.map_cons, List.nodup_cons] at hfresh hnodup
      rw [← hclean] at hline
      rw [scanLine_param hline hfresh.1.1 hfresh.1.2.1 hfresh.1.2.2, ok_bind,
        scanLines_of_declarations h hnodup.2]
      · simp [foundBy]
      · intro d hd
        obtain ⟨hrequired, hval, hfound⟩ := hfresh.2 d hd
        refine ⟨hrequired, hval, lookup_cons_eq_none.2 ⟨fun hdk => ?_, hfound⟩⟩
        exact hnodup.1 (List.mem_map.2 ⟨d, hd, hdk⟩)

theorem lookup_eq_some_iff {α : Type*} {v : α} {key : CString} : ∀ {found : List (CString × α)},
    (found.map (·.1)).Nodup → (found.lookup key = some v ↔ (key, v) ∈ found)
  | [], _ => by simp
  | (key', v') :: found, h => by
    simp only [List.map_cons, List.nodup_cons] at h
    rw [List.lookup_cons, List.mem_cons, Prod.mk.injEq]
    by_cases hkey : key = key'
    · subst hkey
      have hfresh : (key, v) ∉ found := fun hmem => h.1 (List.mem_map.2 ⟨_, hmem, rfl⟩)
      simp only [BEq.rfl, Option.some.injEq, true_and, hfresh, or_false]
      exact eq_comm
    · rw [beq_eq_false_iff_ne.2 hkey]
      simpa [hkey] using lookup_eq_some_iff h.2

theorem requiredParam_eq_ok {key : CString} {v : ℤ} :
    requiredParam s key = .ok v ↔ s.found.lookup key = some v ∧ 0 < v := by
  unfold requiredParam
  rcases s.found.lookup key with _ | w
  · simp [charterFail]
  · simp only [Option.some.injEq]
    split_ifs with hw
    · simp only [charterFail, reduceCtorEq, false_iff, not_and]
      omega
    · rw [Except.ok.injEq]
      constructor
      · rintro rfl
        exact ⟨rfl, by omega⟩
      · exact fun h => h.1

theorem rejectUnknown_eq_ok {u : Unit} : rejectUnknown s = .ok u ↔ s.unknownKey = none := by
  unfold rejectUnknown
  rcases s.unknownKey with _ | key <;> simp [charterFail]

/-- The sweep takes every parameter out of what was found. -/
theorem parseCharterParams_eq_ok {prose : CStr} {p : CharterParams} :
    parseCharterParams prose = .ok p ↔ ∃ body, policyBlock prose.val = some body
      ∧ ∃ s, scanLines [] ⟨[], none⟩ (body.splitOn 10) = .ok s ∧ s.unknownKey = none
        ∧ ∀ e ∈ p.entries, s.found.lookup e.1 = some e.2 ∧ 0 < e.2 := by
  unfold parseCharterParams
  rcases policyBlock prose.val with _ | body
  · simp [charterFail]
  simp only [bind_eq_ok, pure_eq_ok, requiredParam_eq_ok, rejectUnknown_eq_ok, Option.some.injEq,
    exists_eq_left', CharterParams.entries, requiredKeys, List.zip_cons_cons, List.zip_nil_right,
    List.mem_cons, List.not_mem_nil, or_false, forall_eq_or_imp, forall_eq]
  constructor
  · rintro ⟨s, hs, _, h₁, _, h₂, _, h₃, _, h₄, _, h₅, _, hknown, rfl⟩
    exact ⟨s, hs, hknown, h₁, h₂, h₃, h₄, h₅⟩
  · rintro ⟨s, hs, hknown, h₁, h₂, h₃, h₄, h₅⟩
    exact ⟨s, hs, _, h₁, _, h₂, _, h₃, _, h₄, _, h₅, (), hknown, rfl⟩

end Scan

section Parse

variable {prose : CStr} {p : CharterParams}

theorem entries_keys (p : CharterParams) : p.entries.map (·.1) = requiredKeys := rfl

theorem ParamLine.unique {line key key' val val' : CString} (h : ParamLine line key val)
    (h' : ParamLine line key' val') : key = key' ∧ val = val' := by
  obtain ⟨hkey, after, hrest, hval⟩ := h.split
  obtain ⟨hkey', after', hrest', hval'⟩ := h'.split
  have htail := (List.cons.inj (hrest.symm.trans hrest')).2
  exact ⟨hkey.symm.trans hkey', by rw [← hval, htail, hval']⟩

theorem Declarations.mem {lines : List CString} {decls : List (CString × CString)}
    (h : Declarations lines decls) {line key val : CString} (hmem : line ∈ lines)
    (hline : ParamLine line key val) : (key, val) ∈ decls := by
  induction h with
  | nil => simp at hmem
  | blank h ih =>
    rcases List.mem_cons.1 hmem with rfl | hmem
    · exact absurd rfl hline.ne_nil
    · exact ih hmem
  | param hline' h ih =>
    rcases List.mem_cons.1 hmem with rfl | hmem
    · obtain ⟨rfl, rfl⟩ := hline.unique hline'
      exact List.mem_cons_self ..
    · exact List.mem_cons_of_mem _ (ih hmem)

theorem Declarations.line {lines : List CString} {decls : List (CString × CString)}
    (h : Declarations lines decls) : ∀ d ∈ decls, ∃ line ∈ lines, ParamLine line d.1 d.2 := by
  induction h with
  | nil => simp
  | blank h ih =>
    intro d hd
    obtain ⟨line, hmem, hline⟩ := ih d hd
    exact ⟨line, List.mem_cons_of_mem _ hmem, hline⟩
  | param hline h ih =>
    simp only [List.mem_cons, forall_eq_or_imp, exists_eq_or_imp]
    exact ⟨.inl hline, fun d hd => .inr (ih d hd)⟩

theorem mem_foundBy {decls : List (CString × CString)} {e : CString × ℤ} :
    e ∈ foundBy decls ↔ ∃ d ∈ decls, (d.1, writtenInt d.2) = e := by
  simp [foundBy]

theorem foundBy_nodup {decls : List (CString × CString)} (h : (decls.map (·.1)).Nodup) :
    ((foundBy decls).map (·.1)).Nodup := by
  rw [foundBy, List.map_reverse, List.nodup_reverse, List.map_map]
  exact h

/-- The lines as the buffers cut them are in the grammar, with values that fit. -/
def InCutGrammar (prose : CStr) (p : CharterParams) : Prop :=
  ∃ body, policyBlock prose.val = some body ∧ Declares ((body.splitOn 10).map cleanLine) p
    ∧ ∀ line ∈ (body.splitOn 10).map cleanLine, ∀ key val, ParamLine line key val →
      val.length ≤ 255

/-- The parser accepts what the grammar makes of the lines as its buffers cut them. -/
theorem parse_eq_ok_iff_cut : parseCharterParams prose = .ok p ↔ InCutGrammar prose p := by
  have hentries : (p.entries.map (·.1)).Nodup := by
    rw [entries_keys]
    exact requiredKeys_facts.1
  have hrequired {key : CString} (hkey : key ∈ requiredKeys) : ∃ v, (key, v) ∈ p.entries := by
    rw [← entries_keys p] at hkey
    obtain ⟨e, he, rfl⟩ := List.mem_map.1 hkey
    exact ⟨e.2, he⟩
  rw [parseCharterParams_eq_ok, InCutGrammar]
  constructor
  · rintro ⟨body, hbody, s, hscan, hknown, hfound⟩
    obtain ⟨decls, hdecls, hnodup, hfresh, rfl⟩ := scanLines_eq_ok hscan hknown
    simp only [List.append_nil, lookup_eq_some_iff (foundBy_nodup hnodup)] at hfound
    refine ⟨body, hbody,
      ⟨decls, hdecls, hnodup, fun key => ⟨fun hkey => ?_, fun hkey => ?_⟩, ?_⟩, ?_⟩
    · obtain ⟨d, hd, rfl⟩ := List.mem_map.1 hkey
      exact (hfresh d hd).1
    · obtain ⟨v, hv⟩ := hrequired hkey
      obtain ⟨d, hd, heq⟩ := mem_foundBy.1 (hfound _ hv).1
      exact List.mem_map.2 ⟨d, hd, (Prod.mk.inj heq).1⟩
    · intro d hd
      obtain ⟨v, hv⟩ := hrequired (hfresh d hd).1
      obtain ⟨hmem, hpos⟩ := hfound _ hv
      have hd' : (d.1, writtenInt d.2) ∈ foundBy decls := mem_foundBy.2 ⟨d, hd, rfl⟩
      rw [← lookup_eq_some_iff (foundBy_nodup hnodup)] at hmem hd'
      obtain rfl := Option.some.inj (hmem.symm.trans hd')
      exact ⟨hpos, hv⟩
    · intro line hmem key val hline
      exact (hfresh _ (hdecls.mem hmem hline)).2.1
  · rintro ⟨body, hbody, ⟨decls, hdecls, hnodup, hkeys, hvalues⟩, hlength⟩
    have hscan : scanLines [] ⟨[], none⟩ (body.splitOn 10) = .ok ⟨foundBy decls ++ [], none⟩ := by
      refine scanLines_of_declarations hdecls hnodup fun d hd => ?_
      obtain ⟨line, hmem, hline⟩ := hdecls.line d hd
      exact ⟨(hkeys d.1).1 (List.mem_map.2 ⟨d, hd, rfl⟩), hlength line hmem _ _ hline, rfl⟩
    refine ⟨body, hbody, _, hscan, rfl, fun e he => ?_⟩
    have hkey : e.1 ∈ requiredKeys := by
      rw [← entries_keys p]
      exact List.mem_map.2 ⟨e, he, rfl⟩
    obtain ⟨d, hd, hde⟩ := List.mem_map.1 ((hkeys e.1).2 hkey)
    obtain ⟨hpos, hmem⟩ := hvalues d hd
    rw [hde, ← lookup_eq_some_iff hentries, (lookup_eq_some_iff hentries).2 he] at hmem
    rw [List.append_nil, lookup_eq_some_iff (foundBy_nodup hnodup), mem_foundBy,
      Option.some.inj hmem]
    exact ⟨⟨d, hd, by rw [hde]⟩, hpos⟩

end Parse

section Buffers

/-- The line fits in the buffers: 511 bytes of it without its comment, and 255 of its value. -/
def LineFits (raw : CString) : Prop :=
  (cleanedLine raw).length ≤ 511
    ∧ ∀ key val, ParamLine (cleanedLine raw) key val → val.length ≤ 255

def BlockFits (prose : CStr) : Prop :=
  ∀ body, policyBlock prose.val = some body → ∀ raw ∈ body.splitOn 10, LineFits raw

/-- The prose parses exactly when it is in the grammar, to the values that are written. -/
def ParsesGrammar (prose : CStr) : Prop :=
  ∀ p, parseCharterParams prose = .ok p ↔ InGrammar prose p

variable {prose : CStr} {p : CharterParams}

theorem le_foldl_digits : ∀ (cs : CString) (n : ℕ),
    n ≤ cs.foldl (fun n c => 10 * n + (c.toNat - 48)) n
  | [], n => le_rfl
  | c :: cs, n => by
    rw [List.foldl_cons]
    exact (by omega : n ≤ 10 * n + (c.toNat - 48)).trans (le_foldl_digits cs _)

/-- More digits make a larger number. -/
theorem digitsValue_append_lt {ds rest : CString} (hpos : 0 < digitsValue ds) (hrest : rest ≠ []) :
    digitsValue ds < digitsValue (ds ++ rest) := by
  obtain ⟨c, cs, rfl⟩ := List.exists_cons_of_ne_nil hrest
  unfold digitsValue at hpos ⊢
  rw [List.foldl_append, List.foldl_cons]
  exact (by omega : _ <
    10 * ds.foldl (fun n c => 10 * n + (c.toNat - 48)) 0 + (c.toNat - 48)).trans_le
    (le_foldl_digits cs _)

/-- A positive integer text is its digits. -/
theorem IntegerText.written_of_pos {val : CString} (h : IntegerText val)
    (hpos : 0 < writtenInt val) : writtenInt val = digitsValue val := by
  obtain ⟨minus, digits, rfl | rfl, hne, hdigits, rfl⟩ := h
  · obtain ⟨c, cs, rfl⟩ := List.exists_cons_of_ne_nil hne
    have hc : c ≠ 45 := (charClasses c).2.2.1 (hdigits c (List.mem_cons_self ..))
    simp [writtenInt, hc]
  · simp only [writtenInt, List.singleton_append] at hpos
    omega

/-- A line that is cut and still declares a parameter declares a shorter value for it. -/
theorem ParamLine.cut {line key key' val val' : CString} {n : ℕ} (h : ParamLine line key val)
    (h' : ParamLine (line.take n) key' val') (hn : n < line.length) :
    key' = key ∧ ∃ rest, rest ≠ [] ∧ val = val' ++ rest := by
  obtain ⟨before, after, hcut, hkey, hval, hbefore, hafter⟩ := h'
  obtain ⟨c, cs, rfl, hc⟩ := hval.head
  have hline : line = key' ++ (before ++ 61 :: (after ++ c :: (cs ++ line.drop n))) := by
    have happ := (List.take_append_drop n line).symm
    rw [hcut] at happ
    simpa using happ
  obtain ⟨htake, hdrop, hvalue⟩ := splitLine hkey hbefore hafter hc hline
  obtain ⟨htake', after', hdrop', hvalue'⟩ := h.split
  have htail := (List.cons.inj (hdrop'.symm.trans hdrop)).2
  refine ⟨htake.symm.trans htake', line.drop n, ?_, ?_⟩
  · rw [ne_eq, List.drop_eq_nil_iff]
    omega
  · rw [← hvalue', htail, hvalue]
    rfl

/-- A line of a declaration is blank or declares a parameter. -/
theorem Declarations.blank_or {lines : List CString} {decls : List (CString × CString)}
    (h : Declarations lines decls) :
    ∀ line ∈ lines, line = [] ∨ ∃ key val, ParamLine line key val := by
  induction h with
  | nil => simp
  | blank h ih => simpa using ih
  | param hline h ih =>
    simp only [List.mem_cons, forall_eq_or_imp]
    exact ⟨.inr ⟨_, _, hline⟩, ih⟩

/-- What the parser accepts and the grammar has with the same values was not cut. -/
theorem blockFits_of_accepted (hcut : InCutGrammar prose p) (hfull : InGrammar prose p) :
    BlockFits prose := by
  intro body hbody raw hraw
  obtain ⟨_, hbody', ⟨decls, hdecls, -, -, hvalues⟩, hlength⟩ := hcut
  obtain rfl := Option.some.inj (hbody.symm.trans hbody')
  obtain ⟨_, hbody', decls', hdecls', -, -, hvalues'⟩ := hfull
  obtain rfl := Option.some.inj (hbody.symm.trans hbody')
  have hmem : cleanLine raw ∈ (body.splitOn 10).map cleanLine := List.mem_map_of_mem hraw
  have hmem' : cleanedLine raw ∈ (body.splitOn 10).map cleanedLine := List.mem_map_of_mem hraw
  have hentries : (p.entries.map (·.1)).Nodup := by
    rw [entries_keys]
    exact requiredKeys_facts.1
  by_cases hlong : (cleanedLine raw).length ≤ 511
  · refine ⟨hlong, fun key val hline => hlength _ hmem key val ?_⟩
    rwa [cleanLine_eq, List.take_of_length_le hlong]
  · exfalso
    rcases hdecls.blank_or _ hmem with hblank | ⟨key', val', hline'⟩
    · rw [cleanLine_eq, List.take_eq_nil_iff] at hblank
      rcases hblank with hzero | hnil
      · omega
      · simp [hnil] at hlong
    rcases hdecls'.blank_or _ hmem' with hblank | ⟨key, val, hline⟩
    · simp [hblank] at hlong
    have hint := hline'.integer
    have hint' := hline.integer
    obtain ⟨rfl, rest, hrest, rfl⟩ := hline.cut hline' (by omega)
    obtain ⟨hpos, hentry⟩ := hvalues _ (hdecls.mem hmem hline')
    obtain ⟨hpos', hentry'⟩ := hvalues' _ (hdecls'.mem hmem' hline)
    rw [← lookup_eq_some_iff hentries] at hentry hentry'
    have heq := Option.some.inj (hentry.symm.trans hentry')
    have hvalue := hint.written_of_pos hpos
    have hvalue' := hint'.written_of_pos hpos'
    simp only [hvalue, hvalue'] at hpos heq
    have hlt : digitsValue val' < digitsValue (val' ++ rest) :=
      digitsValue_append_lt (by omega) hrest
    omega

theorem inCutGrammar_iff_of_fits (hfits : BlockFits prose) :
    InCutGrammar prose p ↔ InGrammar prose p := by
  have hclean {body : CString} (hbody : policyBlock prose.val = some body) :
      (body.splitOn 10).map cleanLine = (body.splitOn 10).map cleanedLine :=
    List.map_congr_left fun raw hraw =>
      List.take_of_length_le (hfits body hbody raw hraw).1
  constructor
  · rintro ⟨body, hbody, hdeclares, -⟩
    rw [hclean hbody] at hdeclares
    exact ⟨body, hbody, hdeclares⟩
  · rintro ⟨body, hbody, hdeclares⟩
    refine ⟨body, hbody, by rwa [hclean hbody], ?_⟩
    rw [hclean hbody]
    intro line hmem
    obtain ⟨raw, hraw, rfl⟩ := List.mem_map.1 hmem
    exact (hfits body hbody raw hraw).2

/-- The parser follows the grammar exactly when every line fits in its buffers, or neither the lines
nor the lines as they are cut are in the grammar. -/
theorem charterParams_grammar_iff (prose : CStr) : ParsesGrammar prose ↔
    BlockFits prose ∨ (¬∃ p, InGrammar prose p) ∧ ¬∃ p, InCutGrammar prose p := by
  unfold ParsesGrammar
  simp only [parse_eq_ok_iff_cut]
  constructor
  · intro hgrammar
    by_cases hin : ∃ p, InGrammar prose p
    · obtain ⟨p, hp⟩ := hin
      exact .inl (blockFits_of_accepted ((hgrammar p).2 hp) hp)
    · exact .inr ⟨hin, fun ⟨p, hp⟩ => hin ⟨p, (hgrammar p).1 hp⟩⟩
  · rintro (hfits | ⟨hnot, hnot'⟩) p
    · exact inCutGrammar_iff_of_fits hfits
    · exact ⟨fun hp => absurd ⟨p, hp⟩ hnot', fun hp => absurd ⟨p, hp⟩ hnot⟩

/-- A policy block with 498 spaces in front of a limit of 5000. -/
def exampleCutProse : CStr :=
  cStr (charterBegin ++ ascii "\nperTxLimit" ++ List.replicate 498 32 ++ ascii "= 5000\n"
    ++ ascii "dailyLimit = 9\n" ++ ascii "windowDuration = 60\n"
      ++ ascii "graduationThreshold = 3\n"
    ++ ascii "validatorThreshold = 4\n" ++ charterEnd)

/-- The limit of 5000 is cut to 5. -/
theorem charterParams_cut : parseCharterParams exampleCutProse = .ok ⟨5, 9, 60, 3, 4⟩
    ∧ ¬ParsesGrammar exampleCutProse := by
  have hparse : parseCharterParams exampleCutProse = .ok ⟨5, 9, 60, 3, 4⟩ := by decide +kernel
  have hlong : (policyBlock exampleCutProse.val).any (fun body =>
      (body.splitOn 10).any fun raw => 511 < (cleanedLine raw).length) = true := by
    decide +kernel
  refine ⟨hparse, fun hgrammar => ?_⟩
  have hfits := blockFits_of_accepted (parse_eq_ok_iff_cut.1 hparse) ((hgrammar _).1 hparse)
  obtain ⟨body, hbody, hany⟩ := (Option.any_eq_true _ _).1 hlong
  obtain ⟨raw, hraw, hcut⟩ := List.any_eq_true.1 hany
  exact absurd (hfits body hbody raw hraw).1 (by simpa using hcut)

end Buffers

end BonsaiChain
