import BonsaiChain.AgentStateFile
import BonsaiChain.Proofs.CJsonPretty
import BonsaiChain.Proofs.ManifestRegistry
import BonsaiChain.Proofs.RicardianCharter

/-!
# The state file is read back

Whatever blanks stand between the members of an object or the items of an array, they are read one
by one, so the laid-out state is parsed as an object with the members in their order. The counters
are read from decimal strings and are exact; the numbers are doubles and exact up to `2 ^ 53`. The
arrays are read up to the size the library counts in an `int`.
-/

namespace BonsaiChain.StateFile

open CJson Lib

section Layout

/-- Text that is read as a value with `depthLeft` levels left. -/
structure ValueText (depthLeft : ℕ) (text : Bytes) (v : Json) : Prop where
  start : ∃ c T, text = c :: T ∧ ¬c ≤ 32 ∧ c ≠ 93
  reads : ∀ X, (∀ c ∈ X.head?, ¬isNumberByte c) → parseValue depthLeft (text ++ X) = some (v, X)

/-- A member of an object: its name and its value with the text of it. -/
structure Field (depthLeft : ℕ) where
  name : CStr
  text : Bytes
  value : Json
  isText : ValueText depthLeft text value

variable {depthLeft level fuel : ℕ} {X ws tail : Bytes}

def Field.line (f : Field depthLeft) : CStr × Bytes := (f.name, f.text)

def Field.member (f : Field depthLeft) : CStr × Json := (f.name, f.value)

theorem putIndent_blank : ∀ b ∈ putIndent level, b ≤ 32 := fun b hb => by
  rw [List.eq_of_mem_replicate hb]
  decide

theorem blank_append {a b : Bytes} (ha : ∀ x ∈ a, x ≤ 32) (hb : ∀ x ∈ b, x ≤ 32) :
    ∀ x ∈ a ++ b, x ≤ 32 := fun x hx => (List.mem_append.mp hx).elim (ha x) (hb x)

theorem skip_value {text : Bytes} {v : Json} (h : ValueText depthLeft text v)
    (hws : ∀ b ∈ ws, b ≤ 32) : skipWhitespace (ws ++ (text ++ X)) = text ++ X := by
  obtain ⟨c, T, hT, hc, -⟩ := h.start
  rw [hT]
  exact skipWhitespace_blanks hws hc

theorem parseMembers_field {f : Field depthLeft} (hws : ∀ b ∈ ws, b ≤ 32)
    (hX : ∀ c ∈ X.head?, ¬isNumberByte c) :
    parseMembers (parseValue depthLeft) (fuel + 1) (ws ++ (putKey level f.name ++ f.text ++ X))
      = afterValue depthLeft fuel f.name f.value X := by
  have hinput : ws ++ (putKey level f.name ++ f.text ++ X)
      = (ws ++ putIndent level) ++ (printStringPtr f.name ++ 58 :: ([32] ++ (f.text ++ X))) := by
    simp [putKey, jsonEscapeString_eq]
  have hname : skipWhitespace ((ws ++ putIndent level)
      ++ (printStringPtr f.name ++ 58 :: ([32] ++ (f.text ++ X))))
        = printStringPtr f.name ++ 58 :: ([32] ++ (f.text ++ X)) :=
    skipWhitespace_blanks (blank_append hws putIndent_blank) (by decide)
  have hvalue : skipWhitespace ([32] ++ (f.text ++ X)) = f.text ++ X :=
    skip_value f.isText (by simp)
  rw [hinput, parseMembers_eq (by simp [printStringPtr]), hname, parseString_printStringPtr]
  show afterName depthLeft fuel f.name (58 :: ([32] ++ (f.text ++ X))) = _
  unfold afterName
  rw [skipWhitespace_cons (by decide)]
  show (parseValue depthLeft (skipWhitespace ([32] ++ (f.text ++ X)))).bind _ = _
  rw [hvalue, f.isText.reads X hX]
  rfl

/-- The lines of an object are read back from behind any blanks. -/
theorem parseMembers_putLines (htail : ∀ b ∈ tail, b ≤ 32) :
    ∀ {fs : List (Field depthLeft)} {f : Field depthLeft} {fuel : ℕ} {ws : Bytes},
    (∀ b ∈ ws, b ≤ 32) → fs.length < fuel →
    parseMembers (parseValue depthLeft) fuel
        (ws ++ (putLines ((f :: fs).map fun f => putKey level f.name ++ f.text)
          ++ (tail ++ 125 :: X)))
      = some ((f :: fs).map Field.member, X)
  | [], f, fuel + 1, ws, hws, _ => by
    have hclose : skipWhitespace (([10] ++ tail) ++ 125 :: X) = 125 :: X :=
      skipWhitespace_blanks (blank_append (by simp) htail) (by decide)
    have hinput : putLines ([f].map fun f => putKey level f.name ++ f.text) ++ (tail ++ 125 :: X)
        = putKey level f.name ++ f.text ++ (([10] ++ tail) ++ 125 :: X) := by simp [putLines]
    rw [hinput, parseMembers_field hws (by simp; decide), afterValue, hclose]
    rfl
  | f' :: fs, f, fuel + 1, ws, hws, h => by
    have hnewline : ∀ b ∈ ([10] : Bytes), b ≤ 32 := by simp
    have ih := parseMembers_putLines htail (f := f') hnewline (Nat.lt_of_succ_lt_succ h)
    have hinput : putLines ((f :: f' :: fs).map fun f => putKey level f.name ++ f.text)
          ++ (tail ++ 125 :: X)
        = putKey level f.name ++ f.text ++ (44 :: ([10] ++ (putLines
          ((f' :: fs).map fun f => putKey level f.name ++ f.text) ++ (tail ++ 125 :: X)))) := by
      simp [putLines]
    rw [hinput, parseMembers_field hws (by simp; decide), afterValue,
      skipWhitespace_cons (by decide)]
    show (parseMembers (parseValue depthLeft) fuel ([10] ++ _)).map _ = _
    rw [ih]
    rfl

theorem length_le_putLines : ∀ {lines : List Bytes}, lines.length ≤ (putLines lines).length
  | [] => le_rfl
  | [line] => by simp [putLines]
  | line :: line' :: lines => by
    have ih : (line' :: lines).length ≤ (putLines (line' :: lines)).length := length_le_putLines
    simp only [putLines, List.length_append, List.length_cons] at ih ⊢
    omega

/-- What the lines start with, behind the indent of the first. -/
theorem putLines_start {indent T : Bytes} {c : UInt8} : ∀ lines : List Bytes,
    ∃ U, putLines ((indent ++ c :: T) :: lines) = indent ++ c :: U ∧ lines.length < U.length
  | [] => ⟨T ++ [10], by simp [putLines]⟩
  | line :: lines => by
    have hlen : (line :: lines).length ≤ (putLines (line :: lines)).length := length_le_putLines
    refine ⟨T ++ 44 :: 10 :: putLines (line :: lines), by simp [putLines], ?_⟩
    simp only [List.length_append, List.length_cons] at hlen ⊢
    omega

theorem valueText_object (level : ℕ) (f : Field depthLeft) (fs : List (Field depthLeft)) :
    ValueText (depthLeft + 1) (putObject level ((f :: fs).map Field.line))
      (.object ((f :: fs).map Field.member)) := by
  have hlines : ((f :: fs).map Field.line).map (fun m => putKey (level + 1) m.1 ++ m.2)
      = (f :: fs).map fun f => putKey (level + 1) f.name ++ f.text := by
    rw [List.map_map]
    rfl
  refine ⟨⟨123, _, by rw [putObject]; rfl, by decide, by decide⟩, fun X _ => ?_⟩
  have hinput : putObject level ((f :: fs).map Field.line) ++ X
      = 123 :: ([10] ++ (putLines ((f :: fs).map fun f => putKey (level + 1) f.name ++ f.text)
        ++ (putIndent level ++ 125 :: X))) := by
    unfold putObject
    rw [hlines]
    simp
  have hkey : putKey (level + 1) f.name ++ f.text = putIndent (level + 1)
      ++ 34 :: (f.name.val.flatMap escapeByte ++ [34] ++ [58, 32] ++ f.text) := by
    simp [putKey, jsonEscapeString_eq, printStringPtr]
  obtain ⟨U, hU, hlen⟩ : ∃ U, putLines ((f :: fs).map fun f => putKey (level + 1) f.name ++ f.text)
      = putIndent (level + 1) ++ 34 :: U ∧ fs.length < U.length := by
    rw [List.map_cons, hkey]
    simpa using putLines_start (fs.map fun f => putKey (level + 1) f.name ++ f.text)
  have hskip : skipWhitespace ([10] ++ (putLines
        ((f :: fs).map fun f => putKey (level + 1) f.name ++ f.text)
          ++ (putIndent level ++ 125 :: X))) = 34 :: (U ++ (putIndent level ++ 125 :: X)) := by
    have hsplit : [10] ++ (putIndent (level + 1) ++ 34 :: U ++ (putIndent level ++ 125 :: X))
        = ([10] ++ putIndent (level + 1)) ++ 34 :: (U ++ (putIndent level ++ 125 :: X)) := by simp
    rw [hU, hsplit]
    exact skipWhitespace_blanks (blank_append (by simp) putIndent_blank) (by decide)
  have hmembers : ∀ fuel, fs.length < fuel → parseMembers (parseValue depthLeft) fuel
      (34 :: (U ++ (putIndent level ++ 125 :: X))) = some ((f :: fs).map Field.member, X) := by
    intro fuel hfuel
    rcases fuel with _ | fuel
    · exact absurd hfuel (Nat.not_lt_zero _)
    · rw [parseMembers_skip hskip (by decide)]
      exact parseMembers_putLines putIndent_blank (by simp) hfuel
  rw [hinput, parseValue_object, parseObject, hskip]
  show (parseMembers (parseValue depthLeft) _
    (34 :: (U ++ (putIndent level ++ 125 :: X)))).map _ = _
  rw [hmembers _ (by simp; omega)]
  rfl

end Layout

section Items

variable {depthLeft level fuel : ℕ} {X ws tail : Bytes}

/-- An item of an array. -/
structure Item (depthLeft : ℕ) where
  text : Bytes
  value : Json
  isText : ValueText depthLeft text value

/-- The loop over the items from behind one. -/
def afterItem (depthLeft fuel : ℕ) (value : Json) (rest : Bytes) : Option (List Json × Bytes) :=
  match skipWhitespace rest with
  | 44 :: rest => (parseItems (parseValue depthLeft) fuel rest).map fun r => (value :: r.1, r.2)
  | 93 :: rest => some ([value], rest)
  | _ => none

theorem parseItems_eq {input : Bytes} :
    parseItems (parseValue depthLeft) (fuel + 1) input
      = (parseValue depthLeft (skipWhitespace input)).bind fun r =>
        afterItem depthLeft fuel r.1 r.2 := by
  unfold afterItem
  simp only [Option.map_eq_bind]
  rfl

theorem parseItems_item {i : Item depthLeft} (hws : ∀ b ∈ ws, b ≤ 32)
    (hX : ∀ c ∈ X.head?, ¬isNumberByte c) :
    parseItems (parseValue depthLeft) (fuel + 1) (ws ++ (putIndent level ++ i.text ++ X))
      = afterItem depthLeft fuel i.value X := by
  have hskip : skipWhitespace (ws ++ (putIndent level ++ i.text ++ X)) = i.text ++ X := by
    rw [List.append_assoc, ← List.append_assoc ws]
    exact skip_value i.isText (blank_append hws putIndent_blank)
  rw [parseItems_eq, hskip, i.isText.reads X hX]
  rfl

theorem parseItems_putLines (htail : ∀ b ∈ tail, b ≤ 32) :
    ∀ {is : List (Item depthLeft)} {i : Item depthLeft} {fuel : ℕ} {ws : Bytes},
    (∀ b ∈ ws, b ≤ 32) → is.length < fuel →
    parseItems (parseValue depthLeft) fuel
        (ws ++ (putLines ((i :: is).map fun i => putIndent level ++ i.text) ++ (tail ++ 93 :: X)))
      = some ((i :: is).map Item.value, X)
  | [], i, fuel + 1, ws, hws, _ => by
    have hclose : skipWhitespace (([10] ++ tail) ++ 93 :: X) = 93 :: X :=
      skipWhitespace_blanks (blank_append (by simp) htail) (by decide)
    have hinput : putLines ([i].map fun i => putIndent level ++ i.text) ++ (tail ++ 93 :: X)
        = putIndent level ++ i.text ++ (([10] ++ tail) ++ 93 :: X) := by simp [putLines]
    rw [hinput, parseItems_item hws (by simp; decide), afterItem, hclose]
    rfl
  | i' :: is, i, fuel + 1, ws, hws, h => by
    have hnewline : ∀ b ∈ ([10] : Bytes), b ≤ 32 := by simp
    have ih := parseItems_putLines htail (i := i') hnewline (Nat.lt_of_succ_lt_succ h)
    have hinput : putLines ((i :: i' :: is).map fun i => putIndent level ++ i.text)
          ++ (tail ++ 93 :: X)
        = putIndent level ++ i.text ++ (44 :: ([10] ++ (putLines
          ((i' :: is).map fun i => putIndent level ++ i.text) ++ (tail ++ 93 :: X)))) := by
      simp [putLines]
    rw [hinput, parseItems_item hws (by simp; decide), afterItem,
      skipWhitespace_cons (by decide)]
    show (parseItems (parseValue depthLeft) fuel ([10] ++ _)).map _ = _
    rw [ih]
    rfl

theorem parseValue_array : 
    parseValue (depthLeft + 1) (91 :: X) = parseArray (parseValue depthLeft) (91 :: X) := by
  rw [parseValue.eq_def]
  rfl

theorem valueText_array {is : List (Item depthLeft)} :
    ValueText (depthLeft + 1) (putArray level (is.map Item.text)) (.array (is.map Item.value)) := by
  rcases is with _ | ⟨i, is⟩
  · refine ⟨⟨91, [93], rfl, by decide, by decide⟩, fun X _ => ?_⟩
    show parseValue (depthLeft + 1) (91 :: 93 :: X) = _
    rw [parseValue_array, parseArray, skipWhitespace_cons (by decide)]
    rfl
  have hlines : ((i :: is).map Item.text).map (putIndent (level + 1) ++ ·)
      = (i :: is).map fun i => putIndent (level + 1) ++ i.text := by
    rw [List.map_map]
    rfl
  refine ⟨⟨91, _, by rw [putArray, if_neg (by simp)]; rfl, by decide, by decide⟩, fun X _ => ?_⟩
  have hinput : putArray level ((i :: is).map Item.text) ++ X
      = 91 :: ([10] ++ (putLines ((i :: is).map fun i => putIndent (level + 1) ++ i.text)
        ++ (putIndent level ++ 93 :: X))) := by
    unfold putArray
    rw [if_neg (by simp), hlines]
    simp
  obtain ⟨c, T, hT, hc, h93⟩ := i.isText.start
  obtain ⟨U, hU, hlen⟩ : ∃ U, putLines ((i :: is).map fun i => putIndent (level + 1) ++ i.text)
      = putIndent (level + 1) ++ c :: U ∧ is.length < U.length := by
    rw [List.map_cons, hT]
    simpa using putLines_start (is.map fun i => putIndent (level + 1) ++ i.text)
  have hskip : skipWhitespace ([10] ++ (putLines
        ((i :: is).map fun i => putIndent (level + 1) ++ i.text)
          ++ (putIndent level ++ 93 :: X))) = c :: (U ++ (putIndent level ++ 93 :: X)) := by
    have hsplit : [10] ++ (putIndent (level + 1) ++ c :: U ++ (putIndent level ++ 93 :: X))
        = ([10] ++ putIndent (level + 1)) ++ c :: (U ++ (putIndent level ++ 93 :: X)) := by simp
    rw [hU, hsplit]
    exact skipWhitespace_blanks (blank_append (by simp) putIndent_blank) hc
  have hitems : ∀ fuel, is.length < fuel → parseItems (parseValue depthLeft) fuel
      (c :: (U ++ (putIndent level ++ 93 :: X))) = some ((i :: is).map Item.value, X)
    | fuel + 1, hfuel => by
      have hsame : parseItems (parseValue depthLeft) (fuel + 1)
          (c :: (U ++ (putIndent level ++ 93 :: X))) = parseItems (parseValue depthLeft) (fuel + 1)
            ([10] ++ (putLines ((i :: is).map fun i => putIndent (level + 1) ++ i.text)
              ++ (putIndent level ++ 93 :: X))) := by
        rw [parseItems_eq, parseItems_eq, skipWhitespace_cons hc, hskip]
      rw [hsame]
      exact parseItems_putLines putIndent_blank (by simp) hfuel
  rw [hinput, parseValue_array, parseArray, hskip]
  split
  · next heq => exact nomatch heq
  · next heq => exact absurd (List.cons.inj heq).1 h93
  · rw [hitems _ (by simp; omega)]
    rfl

end Items

section Values

variable {depthLeft : ℕ}

theorem valueText_string {s : CStr} : ValueText depthLeft (jsonEscapeString s) (.string s) where
  start := ⟨34, _, rfl, by decide, by decide⟩
  reads X hX := by
    rw [jsonEscapeString_eq]
    exact (scalarText_string s).reads depthLeft X hX

theorem valueText_int {n : ℤ} : ValueText depthLeft (decimalInt n) (.number (.ofRat n)) where
  start := by
    obtain ⟨c, s, hcs, hc⟩ := decimalInt_head n
    refine ⟨c, s, hcs, ?_⟩
    rcases hc with rfl | hc
    · decide
    · simp only [isDigitByte, Bool.and_eq_true, decide_eq_true_eq] at hc
      refine ⟨UInt8.not_le.mpr (UInt8.lt_of_lt_of_le (by decide) hc.1), ?_⟩
      rintro rfl
      exact absurd hc.2 (by decide)
  reads X hX := (scalarText_int n).reads depthLeft X hX

/-- The bytes of a decimal text stand for themselves in a string. -/
theorem jsonEscapeByte_decimalInt {n : ℤ} {c : UInt8} (h : c ∈ decimalInt n) :
    jsonEscapeByte c = [c] := by
  have hvisible := decimalInt_visible c h
  have hnumber := isNumberByte_decimalInt h
  unfold jsonEscapeByte
  split
  case h_8 =>
    simp only [UInt8.lt_iff_toNat_lt, UInt8.reduceToNat] at hvisible ⊢
    exact if_neg (by omega)
  all_goals simp [isNumberByte, isDigitByte] at hnumber

theorem notNul_decimalInt {n : ℤ} : 0 ∉ decimalInt n := fun h =>
  absurd (decimalInt_visible 0 h) (by decide)

/-- The text of a counter. -/
def decStr (v : Int64) : CStr := ⟨decimalInt v.toInt, notNul_decimalInt⟩

theorem putDecStrVal_eq (v : Int64) : putDecStrVal v = jsonEscapeString (decStr v) := by
  have hplain : ∀ T : Bytes, (∀ c ∈ T, jsonEscapeByte c = [c]) → T.flatMap jsonEscapeByte = T := by
    intro T h
    induction T with
    | nil => rfl
    | cons c T ih =>
      rw [List.forall_mem_cons] at h
      rw [List.flatMap_cons, h.1, ih h.2]
      rfl
  unfold putDecStrVal jsonEscapeString decStr
  rw [hplain _ fun c hc => jsonEscapeByte_decimalInt hc]

/-- A counter is read back exactly, whatever its value. -/
theorem strtoll_decStr (v : Int64) : Deploy.strtoll (decStr v).val = v := by
  have hws : (decimalInt v.toInt).dropWhile isJsWs = decimalInt v.toInt := by
    obtain ⟨c, s, hcs, hc⟩ := decimalInt_head v.toInt
    have hblank : ∀ c, (c = 45 ∨ isDigitByte c = true) → isJsWs c = false := by
      intro c h
      simp only [isJsWs, isDigitByte, Bool.or_eq_false_iff, Bool.and_eq_true, decide_eq_true_eq,
        beq_eq_false_iff_ne, UInt8.le_iff_toNat_le, ne_eq, ← UInt8.toNat_inj,
        UInt8.reduceToNat] at h ⊢
      omega
    rw [hcs, List.dropWhile_cons_of_neg (by simp [hblank c hc])]
  have htake : (decimal v.toInt.natAbs).takeWhile isDigitByte = decimal v.toInt.natAbs :=
    List.takeWhile_eq_self_iff.mpr fun c hc => isDigitByte_decimal hc
  have hvalue : (if v.toInt < 0 then -(v.toInt.natAbs : ℤ) else v.toInt.natAbs) = v.toInt := by
    split_ifs with h
    · omega
    · omega
  have hlo := v.minValue_le_toInt
  have hhi := v.toInt_le
  unfold Deploy.strtoll decStr
  rw [hws, readSign_decimalInt]
  simp only [htake, digitsValue_decimal, decide_eq_true_eq]
  rw [hvalue, min_eq_right hhi, max_eq_right hlo, Int64.ofInt_toInt]

end Values

section Fields

variable {depthLeft : ℕ}

def strField (name : String) (v : Option CStr) : Field depthLeft :=
  ⟨key name, putStrVal v, .string (v.getD (cStr [])), valueText_string⟩

def decField (name : String) (v : Int64) : Field depthLeft where
  name := key name
  text := putDecStrVal v
  value := .string (decStr v)
  isText := by
    rw [putDecStrVal_eq]
    exact valueText_string

def numField (name : String) (v : Int64) : Field depthLeft :=
  ⟨key name, putNumVal v, .number (.ofRat v.toInt), valueText_int⟩

def arrayField (name : String) (level : ℕ) (is : List (Item depthLeft)) : Field (depthLeft + 1) :=
  ⟨key name, putArray level (is.map Item.text), .array (is.map Item.value), valueText_array⟩

variable {fs : List (Field depthLeft)} {name : String}

/-- The first member of a name is the only one where the names differ. -/
theorem getObjectItem_of_mem : ∀ {fs : List (Field depthLeft)}, (fs.map Field.name).Nodup →
    ∀ {f : Field depthLeft}, f ∈ fs →
      getObjectItem f.name.val (.object (fs.map Field.member)) = some f.value
  | g :: fs, hnodup, f, hf => by
    rw [List.map_cons, List.nodup_cons] at hnodup
    rcases List.mem_cons.mp hf with rfl | hf
    · simp [getObjectItem, Field.member]
    · have ih := getObjectItem_of_mem hnodup.2 hf
      have hne : g.name ≠ f.name := by
        intro h
        exact hnodup.1 (h ▸ List.mem_map_of_mem hf)
      have hval : g.name.val ≠ f.name.val := fun h => hne (Subtype.ext h)
      simpa [getObjectItem, Field.member, hval] using ih

theorem getStr_field (hnodup : (fs.map Field.name).Nodup) {v : Option CStr}
    (h : strField name v ∈ fs) :
    getStr (.object (fs.map Field.member)) (key name) = some (v.getD (cStr [])) := by
  unfold getStr
  rw [show key name = (strField name v : Field depthLeft).name from rfl,
    getObjectItem_of_mem hnodup h]
  rfl

theorem getDec_field (hnodup : (fs.map Field.name).Nodup) {v : Int64} (h : decField name v ∈ fs) :
    getDec (.object (fs.map Field.member)) (key name) = v := by
  unfold getDec
  rw [show key name = (decField name v : Field depthLeft).name from rfl,
    getObjectItem_of_mem hnodup h]
  exact strtoll_decStr v

theorem getNum_field (hnodup : (fs.map Field.name).Nodup) {v : Int64} (h : numField name v ∈ fs) :
    getNum (.object (fs.map Field.member)) (key name) = int64OfDouble (.ofRat v.toInt) := by
  unfold getNum
  rw [show key name = (numField name v : Field depthLeft).name from rfl,
    getObjectItem_of_mem hnodup h]
  rfl

end Fields

section Parts

def paramsKeys : List CStr :=
  [key "perTxLimit", key "dailyLimit", key "windowDuration", key "graduationThreshold",
    key "validatorThreshold", key "recoveryThreshold"]

def rabinPubKeys : List CStr := [key "guardian", key "ownValidator", key "recovery"]

def tipKeys : List CStr := [key "txid", key "vout", key "rawTxHex"]

def runtimeStateKeys : List CStr :=
  [key "txCount", key "spentInWindow", key "windowStart", key "tier", key "recoveryCount"]

def historyKeys : List CStr := [key "op", key "txid"]

def stateKeys : List CStr :=
  [key "schema", key "network", key "genesisTxid", key "ricardianHash", key "owner",
    key "agentPubKey", key "counterpartyPubKey", key "charter", key "params", key "rabinPub",
    key "identitySats", key "tip", key "state", key "status", key "history"]

/-- No object of the file has two members of one name, and the words for the statuses differ. -/
theorem keys_nodup : paramsKeys.Nodup ∧ rabinPubKeys.Nodup ∧ tipKeys.Nodup
    ∧ runtimeStateKeys.Nodup ∧ historyKeys.Nodup ∧ stateKeys.Nodup
    ∧ [key "deployed", key "actioned", key "revoked"].Nodup := by
  decide +kernel

variable (depthLeft : ℕ)

def paramsFields (p : AgentParams) : List (Field depthLeft) :=
  [decField "perTxLimit" p.perTxLimit, decField "dailyLimit" p.dailyLimit,
    decField "windowDuration" p.windowDuration,
    decField "graduationThreshold" p.graduationThreshold,
    decField "validatorThreshold" p.validatorThreshold,
    decField "recoveryThreshold" p.recoveryThreshold]

theorem readParams_fields (p : AgentParams) :
    readParams (.object ((paramsFields depthLeft p).map Field.member)) = p := by
  have hnodup : ((paramsFields depthLeft p).map Field.name).Nodup := keys_nodup.1
  unfold readParams
  rw [getDec_field hnodup (v := p.perTxLimit) (by simp [paramsFields]),
    getDec_field hnodup (v := p.dailyLimit) (by simp [paramsFields]),
    getDec_field hnodup (v := p.windowDuration) (by simp [paramsFields]),
    getDec_field hnodup (v := p.graduationThreshold) (by simp [paramsFields]),
    getDec_field hnodup (v := p.validatorThreshold) (by simp [paramsFields]),
    getDec_field hnodup (v := p.recoveryThreshold) (by simp [paramsFields])]

/-- What the reader's loop takes of a list: as many items as the size says. -/
def counted {α : Type} (l : List α) : List α :=
  if 0 < Int32.ofNat l.length then l.take (Int32.ofNat l.length).toInt.toNat else []

theorem arrayItems_map {α : Type} (value : α → Json) (l : List α) :
    arrayItems (some (.array (l.map value))) = (counted l).map value := by
  simp only [arrayItems, counted, getArraySize, List.length_map]
  split_ifs
  · rw [List.map_take]
  · rfl

/-- The size is cast to `int`: from `2 ^ 31` items on it is not theirs. -/
theorem counted_eq_iff {α : Type} {l : List α} : counted l = l ↔ l.length < 2 ^ 31 := by
  have hsize : (Int32.ofNat l.length).toInt = Int.bmod l.length (2 ^ 32) := by
    rw [Int32.toInt_ofNat']
    rfl
  have hpos : 0 < Int32.ofNat l.length ↔ 0 < Int.bmod l.length (2 ^ 32) := by
    rw [Int32.lt_iff_toInt_lt, hsize]
    rfl
  have hlt : Int.bmod l.length (2 ^ 32) < 2 ^ 31 := by
    have := Int.bmod_lt (x := l.length) (m := 2 ^ 32) (by norm_num)
    omega
  unfold counted
  by_cases h : 0 < Int32.ofNat l.length
  · rw [if_pos h, List.take_eq_self_iff, hsize]
    rw [hpos] at h
    constructor
    · intro hle
      omega
    · intro hshort
      rw [Int.bmod_eq_of_le (by omega) (by omega)]
      omega
  · rw [if_neg h]
    rw [hpos] at h
    constructor
    · rintro hnil
      simp [← hnil]
    · intro hshort
      rw [Int.bmod_eq_of_le (by omega) (by omega)] at h
      exact (List.length_eq_zero_iff.mp (by omega)).symm

def strItem (v : Option CStr) : Item depthLeft :=
  ⟨putStrVal v, .string (v.getD (cStr [])), valueText_string⟩

def rabinPubFields (r : AgentRabinPub) : List (Field (depthLeft + 1)) :=
  [strField "guardian" r.guardian, strField "ownValidator" r.ownValidator,
    arrayField "recovery" 2 (r.recovery.map (strItem depthLeft))]

/-- The keys as they are read back. -/
def AgentRabinPub.reread (r : AgentRabinPub) : AgentRabinPub where
  guardian := some (r.guardian.getD (cStr []))
  ownValidator := some (r.ownValidator.getD (cStr []))
  recovery := (counted r.recovery).map fun v => some (v.getD (cStr []))

theorem readRabinPub_fields (r : AgentRabinPub) :
    readRabinPub (.object ((rabinPubFields depthLeft r).map Field.member))
      = r.reread := by
  have hnodup : ((rabinPubFields depthLeft r).map Field.name).Nodup :=
    keys_nodup.2.1
  have hrecovery := getObjectItem_of_mem hnodup
    (f := arrayField "recovery" 2 (r.recovery.map (strItem depthLeft)))
    (by simp [rabinPubFields])
  have hitems : arrayItems (some (arrayField "recovery" 2
      (r.recovery.map (strItem depthLeft))).value)
        = (counted r.recovery).map fun v => .string (v.getD (cStr [])) := by
    rw [← arrayItems_map]
    simp only [arrayField, List.map_map]
    rfl
  unfold readRabinPub AgentRabinPub.reread
  rw [getStr_field hnodup (v := r.guardian) (by simp [rabinPubFields]),
    getStr_field hnodup (v := r.ownValidator) (by simp [rabinPubFields])]
  rw [show (key "recovery").val = (arrayField "recovery" 2
    (r.recovery.map (strItem depthLeft))).name.val from rfl, hrecovery, hitems, List.map_map]
  rfl

def tipFields (t : AgentTip) : List (Field depthLeft) :=
  [strField "txid" t.txid, numField "vout" (Int64.ofNat t.vout.toNat),
    strField "rawTxHex" t.rawTxHex]

def AgentTip.reread (t : AgentTip) : AgentTip :=
  ⟨some (t.txid.getD (cStr [])), t.vout, some (t.rawTxHex.getD (cStr []))⟩

theorem readTip_fields (t : AgentTip) :
    readTip (.object ((tipFields depthLeft t).map Field.member)) = t.reread := by
  have hnodup : ((tipFields depthLeft t).map Field.name).Nodup := keys_nodup.2.2.1
  have hlt := t.vout.toNat_lt
  have hint : (Int64.ofNat t.vout.toNat).toInt = t.vout.toNat :=
    Int64.toInt_ofNat_of_lt (by omega)
  have hvout : UInt32.ofInt (int64OfDouble (.ofRat (Int64.ofNat t.vout.toNat).toInt)).toInt
      = t.vout := by
    rw [int64OfDouble_toInt (by rw [hint, abs_of_nonneg (by omega)]; omega), hint]
    show UInt32.ofNat ((t.vout.toNat : ℤ) % 2 ^ 32).toNat = t.vout
    rw [Int.emod_eq_of_lt (by omega) (by omega), Int.toNat_natCast, UInt32.ofNat_toNat]
  unfold readTip AgentTip.reread
  rw [getStr_field hnodup (v := t.txid) (by simp [tipFields]),
    getStr_field hnodup (v := t.rawTxHex) (by simp [tipFields]),
    getNum_field hnodup (v := Int64.ofNat t.vout.toNat) (by simp [tipFields]), hvout]

def runtimeStateFields (s : AgentRuntimeState) : List (Field depthLeft) :=
  [decField "txCount" s.txCount, decField "spentInWindow" s.spentInWindow,
    decField "windowStart" s.windowStart, decField "tier" s.tier,
    decField "recoveryCount" s.recoveryCount]

theorem readRuntimeState_fields (s : AgentRuntimeState) :
    readRuntimeState (.object ((runtimeStateFields depthLeft s).map Field.member))
      = s := by
  have hnodup : ((runtimeStateFields depthLeft s).map Field.name).Nodup :=
    keys_nodup.2.2.2.1
  unfold readRuntimeState
  rw [getDec_field hnodup (v := s.txCount) (by simp [runtimeStateFields]),
    getDec_field hnodup (v := s.spentInWindow) (by simp [runtimeStateFields]),
    getDec_field hnodup (v := s.windowStart) (by simp [runtimeStateFields]),
    getDec_field hnodup (v := s.tier) (by simp [runtimeStateFields]),
    getDec_field hnodup (v := s.recoveryCount) (by simp [runtimeStateFields])]

def historyFields (e : AgentHistoryEntry) : List (Field depthLeft) :=
  [strField "op" e.op, strField "txid" e.txid]

def AgentHistoryEntry.reread (e : AgentHistoryEntry) : AgentHistoryEntry :=
  ⟨some (e.op.getD (cStr [])), some (e.txid.getD (cStr []))⟩

theorem readHistoryEntry_fields (e : AgentHistoryEntry) :
    readHistoryEntry (.object ((historyFields depthLeft e).map Field.member))
      = e.reread := by
  have hnodup : ((historyFields depthLeft e).map Field.name).Nodup :=
    keys_nodup.2.2.2.2.1
  unfold readHistoryEntry AgentHistoryEntry.reread
  rw [getStr_field hnodup (v := e.op) (by simp [historyFields]),
    getStr_field hnodup (v := e.txid) (by simp [historyFields])]

def historyItem (e : AgentHistoryEntry) : Item (depthLeft + 1) :=
  ⟨putHistoryEntry e, .object ((historyFields depthLeft e).map Field.member),
    valueText_object 2 (strField "op" e.op) [strField "txid" e.txid]⟩

theorem readStatus_statusStr (s : AgentStatus) :
    readStatus (some (.string (statusStr s))) = s := by
  have hnodup := keys_nodup.2.2.2.2.2.2
  simp only [List.nodup_cons, List.mem_cons, List.not_mem_nil, not_or, or_false] at hnodup
  obtain ⟨⟨hda, hdr⟩, har, -⟩ := hnodup
  cases s with
  | deployed => simp [readStatus, stringValue, statusStr, hda, hdr]
  | actioned => simp [readStatus, stringValue, statusStr, har]
  | revoked => simp [readStatus, stringValue, statusStr]

end Parts

section RoundTrip

variable (depthLeft : ℕ)

theorem valueText_params (p : AgentParams) : ValueText (depthLeft + 1) (putParams p)
    (.object ((paramsFields depthLeft p).map Field.member)) :=
  valueText_object 1 (decField "perTxLimit" p.perTxLimit)
    [decField "dailyLimit" p.dailyLimit, decField "windowDuration" p.windowDuration,
      decField "graduationThreshold" p.graduationThreshold,
      decField "validatorThreshold" p.validatorThreshold,
      decField "recoveryThreshold" p.recoveryThreshold]

theorem valueText_rabinPub (r : AgentRabinPub) : ValueText (depthLeft + 2) (putRabinPub r)
    (.object ((rabinPubFields depthLeft r).map Field.member)) := by
  have hrecovery : (r.recovery.map (strItem depthLeft)).map Item.text
      = r.recovery.map putStrVal := by
    rw [List.map_map]
    rfl
  have h := valueText_object 1 (strField "guardian" r.guardian)
    [strField "ownValidator" r.ownValidator,
      arrayField "recovery" 2 (r.recovery.map (strItem depthLeft))]
  unfold putRabinPub
  rw [← hrecovery]
  exact h

theorem valueText_tip (t : AgentTip) : ValueText (depthLeft + 1) (putTip t)
    (.object ((tipFields depthLeft t).map Field.member)) :=
  valueText_object 1 (strField "txid" t.txid)
    [numField "vout" (Int64.ofNat t.vout.toNat), strField "rawTxHex" t.rawTxHex]

theorem valueText_runtimeState (s : AgentRuntimeState) :
    ValueText (depthLeft + 1) (putRuntimeState s)
      (.object ((runtimeStateFields depthLeft s).map Field.member)) :=
  valueText_object 1 (decField "txCount" s.txCount)
    [decField "spentInWindow" s.spentInWindow, decField "windowStart" s.windowStart,
      decField "tier" s.tier, decField "recoveryCount" s.recoveryCount]

def stateFields (st : AgentState) : List (Field (depthLeft + 3)) :=
  [strField "schema" (some (st.schema.getD agentStateSchema)), strField "network" st.network,
    strField "genesisTxid" st.genesisTxid, strField "ricardianHash" st.ricardianHash,
    strField "owner" st.owner, strField "agentPubKey" st.agentPubKey,
    strField "counterpartyPubKey" st.counterpartyPubKey, strField "charter" st.charter,
    ⟨key "params", putParams st.params, _, valueText_params (depthLeft + 2) st.params⟩,
    ⟨key "rabinPub", putRabinPub st.rabinPub, _, valueText_rabinPub (depthLeft + 1) st.rabinPub⟩,
    numField "identitySats" st.identitySats,
    ⟨key "tip", putTip st.tip, _, valueText_tip (depthLeft + 2) st.tip⟩,
    ⟨key "state", putRuntimeState st.state, _, valueText_runtimeState (depthLeft + 2) st.state⟩,
    strField "status" (some (statusStr st.status)),
    arrayField "history" 1 (st.history.map (historyItem (depthLeft + 1)))]

theorem parse_agentStateToJson (st : AgentState) :
    parse (agentStateToJson st) = some (.object ((stateFields 996 st).map Field.member)) := by
  have htext : agentStateToJson st = putObject 0 ((stateFields 996 st).map Field.line) := by
    have hhistory : (st.history.map (historyItem 997)).map Item.text
        = st.history.map putHistoryEntry := by
      rw [List.map_map]
      rfl
    unfold agentStateToJson
    rw [← hhistory]
    rfl
  have hreads : ∀ X, (∀ c ∈ X.head?, ¬isNumberByte c) →
      parseValue 1000 (putObject 0 ((stateFields 996 st).map Field.line) ++ X)
        = some (.object ((stateFields 996 st).map Field.member), X) := by
    intro X hX
    unfold stateFields
    exact (valueText_object 0 _ _).reads X hX
  have hbom : skipUtf8Bom (agentStateToJson st ++ [0]) = agentStateToJson st ++ [0] := by
    simp [skipUtf8Bom, agentStateToJson, putObject]
  have hskip : skipWhitespace (agentStateToJson st ++ [0]) = agentStateToJson st ++ [0] :=
    skipWhitespace_append rfl (by decide)
  unfold parse
  rw [hbom, hskip, htext]
  show (parseValue 1000 _).map _ = _
  rw [hreads [0] (by simp; decide)]
  rfl

/-- What a state is read back as: no string is NULL, the number is a double, and of the two lists
only the counted items are there. -/
def AgentState.reread (st : AgentState) : AgentState where
  schema := some (st.schema.getD agentStateSchema)
  network := some (st.network.getD (cStr []))
  genesisTxid := some (st.genesisTxid.getD (cStr []))
  ricardianHash := some (st.ricardianHash.getD (cStr []))
  owner := some (st.owner.getD (cStr []))
  agentPubKey := some (st.agentPubKey.getD (cStr []))
  counterpartyPubKey := some (st.counterpartyPubKey.getD (cStr []))
  charter := some (st.charter.getD (cStr []))
  params := st.params
  rabinPub := st.rabinPub.reread
  identitySats := int64OfDouble (.ofRat st.identitySats.toInt)
  tip := st.tip.reread
  state := st.state
  status := st.status
  history := (counted st.history).map AgentHistoryEntry.reread

theorem stateFields_nodup {st : AgentState} : ((stateFields depthLeft st).map Field.name).Nodup :=
  keys_nodup.2.2.2.2.2.1

theorem readHistory_fields (l : List AgentHistoryEntry) :
    (arrayItems (some (arrayField "history" 1 (l.map (historyItem depthLeft))).value)).map
      readHistoryEntry = (counted l).map AgentHistoryEntry.reread := by
  have hitems : arrayItems (some (arrayField "history" 1 (l.map (historyItem depthLeft))).value)
      = (counted l).map fun e => .object ((historyFields depthLeft e).map Field.member) := by
    rw [← arrayItems_map]
    simp only [arrayField, List.map_map]
    rfl
  rw [hitems, List.map_map]
  exact List.map_congr_left fun e _ => readHistoryEntry_fields depthLeft e

theorem agentStateFromJson_agentStateToJson (st : AgentState) :
    agentStateFromJson (agentStateToJson st) = .ok st.reread := by
  have hnodup : ((stateFields 996 st).map Field.name).Nodup := stateFields_nodup 996
  have hitem : ∀ f ∈ stateFields 996 st,
      getObjectItem f.name.val (.object ((stateFields 996 st).map Field.member)) = some f.value :=
    fun f hf => getObjectItem_of_mem hnodup hf
  have hparams := hitem ⟨key "params", putParams st.params, _, valueText_params 998 st.params⟩
    (by simp [stateFields])
  have hrabin := hitem
    ⟨key "rabinPub", putRabinPub st.rabinPub, _, valueText_rabinPub 997 st.rabinPub⟩
    (by simp [stateFields])
  have htip := hitem ⟨key "tip", putTip st.tip, _, valueText_tip 998 st.tip⟩
    (by simp [stateFields])
  have hstate := hitem
    ⟨key "state", putRuntimeState st.state, _, valueText_runtimeState 998 st.state⟩
    (by simp [stateFields])
  have hstatus : getObjectItem (key "status").val
      (.object ((stateFields 996 st).map Field.member)) = some (.string (statusStr st.status)) :=
    hitem (strField "status" (some (statusStr st.status))) (by simp [stateFields])
  have hhistory : getObjectItem (key "history").val
      (.object ((stateFields 996 st).map Field.member))
        = some (arrayField "history" 1 (st.history.map (historyItem 997))).value :=
    hitem (arrayField "history" 1 (st.history.map (historyItem 997))) (by simp [stateFields])
  unfold agentStateFromJson AgentState.reread
  rw [parse_agentStateToJson]
  simp only [hparams, hrabin, htip, hstate, hstatus, hhistory, Option.map_some, Option.getD_some,
    readParams_fields, readRabinPub_fields, readTip_fields, readRuntimeState_fields,
    readStatus_statusStr, readHistory_fields]
  rw [getStr_field hnodup (v := some (st.schema.getD agentStateSchema)) (by simp [stateFields]),
    getStr_field hnodup (v := st.network) (by simp [stateFields]),
    getStr_field hnodup (v := st.genesisTxid) (by simp [stateFields]),
    getStr_field hnodup (v := st.ricardianHash) (by simp [stateFields]),
    getStr_field hnodup (v := st.owner) (by simp [stateFields]),
    getStr_field hnodup (v := st.agentPubKey) (by simp [stateFields]),
    getStr_field hnodup (v := st.counterpartyPubKey) (by simp [stateFields]),
    getStr_field hnodup (v := st.charter) (by simp [stateFields]),
    getNum_field hnodup (v := st.identitySats) (by simp [stateFields])]
  rfl

/-- All the strings of a state. -/
def AgentState.strings (st : AgentState) : List (Option CStr) :=
  [st.schema, st.network, st.genesisTxid, st.ricardianHash, st.owner, st.agentPubKey,
    st.counterpartyPubKey, st.charter, st.rabinPub.guardian, st.rabinPub.ownValidator,
    st.tip.txid, st.tip.rawTxHex]
  ++ st.rabinPub.recovery ++ st.history.flatMap fun e => [e.op, e.txid]

/-- No string is NULL. -/
def AgentState.Complete (st : AgentState) : Prop := ∀ s ∈ st.strings, s ≠ none

theorem some_getD {s : Option CStr} {d : CStr} (h : s ≠ none) : some (s.getD d) = s := by
  rcases s with _ | s
  · exact absurd rfl h
  · rfl

theorem mem_of_mem_counted {α : Type} {l : List α} {a : α} (h : a ∈ counted l) : a ∈ l := by
  unfold counted at h
  split_ifs at h
  · exact List.mem_of_mem_take h
  · exact nomatch h

/-- A state without NULLs is read back as it was, but for the length of the lists. -/
theorem AgentState.Complete.reread_eq {st : AgentState} (h : st.Complete)
    (hsats : |st.identitySats.toInt| ≤ 2 ^ 53) :
    st.reread = { st with
      rabinPub := { st.rabinPub with recovery := counted st.rabinPub.recovery }
      history := counted st.history } := by
  have hrecovery : (counted st.rabinPub.recovery).map (fun v => some (v.getD (cStr [])))
      = counted st.rabinPub.recovery := by
    refine (List.map_congr_left fun v hv => some_getD (h v ?_)).trans (List.map_id' _)
    simp [strings, mem_of_mem_counted hv]
  have hhistory : (counted st.history).map AgentHistoryEntry.reread = counted st.history := by
    refine (List.map_congr_left fun e he => ?_).trans (List.map_id' _)
    have hmem := mem_of_mem_counted he
    have hop : e.op ≠ none := h e.op
      (List.mem_append_right _ (List.mem_flatMap.mpr ⟨e, hmem, by simp⟩))
    have htxid : e.txid ≠ none := h e.txid
      (List.mem_append_right _ (List.mem_flatMap.mpr ⟨e, hmem, by simp⟩))
    unfold AgentHistoryEntry.reread
    rw [some_getD hop, some_getD htxid]
  have hne : ∀ s ∈ st.strings.take 12, s ≠ none := fun s hs => h s (List.mem_of_mem_take hs)
  simp only [strings, List.cons_append, List.take_succ_cons, List.take_zero,
    List.forall_mem_cons] at hne
  obtain ⟨h1, h2, h3, h4, h5, h6, h7, h8, h9, h10, h11, h12, -⟩ := hne
  unfold reread AgentRabinPub.reread AgentTip.reread
  rw [some_getD h1, some_getD h2, some_getD h3, some_getD h4, some_getD h5, some_getD h6,
    some_getD h7, some_getD h8, some_getD h9, some_getD h10, some_getD h11, some_getD h12,
    hrecovery, hhistory, int64OfDouble_toInt hsats]

/-- The lists of a state that is read back unchanged are counted whole. -/
theorem AgentState.Complete.fromJson_eq_iff {st : AgentState} (h : st.Complete)
    (hsats : |st.identitySats.toInt| ≤ 2 ^ 53) :
    agentStateFromJson (agentStateToJson st) = .ok st
      ↔ counted st.rabinPub.recovery = st.rabinPub.recovery ∧ counted st.history = st.history := by
  rw [agentStateFromJson_agentStateToJson, h.reread_eq hsats, Except.ok.injEq]
  constructor
  · intro heq
    exact ⟨congrArg (fun s => s.rabinPub.recovery) heq, congrArg AgentState.history heq⟩
  · rintro ⟨hrecovery, hhistory⟩
    rw [hrecovery, hhistory]

/-- A state is read back from its file exactly when the library can count its lists. -/
theorem agentState_roundTrip_iff {st : AgentState} (hcomplete : st.Complete)
    (hsats : |st.identitySats.toInt| ≤ 2 ^ 53) :
    agentStateFromJson (agentStateToJson st) = .ok st
      ↔ st.rabinPub.recovery.length < 2 ^ 31 ∧ st.history.length < 2 ^ 31 := by
  rw [hcomplete.fromJson_eq_iff hsats, counted_eq_iff, counted_eq_iff]

/-- A state with one name for all its strings and so many entries in its history. -/
def longState (entries : ℕ) : AgentState where
  schema := some agentStateSchema
  network := some (key "testnet")
  genesisTxid := some (key "00")
  ricardianHash := some (key "00")
  owner := some (key "00")
  agentPubKey := some (key "00")
  counterpartyPubKey := some (key "00")
  charter := some (key "a \"quoted\" charter")
  params := agentParamsDefaults
  rabinPub := ⟨some (key "35"), some (key "77"), [some (key "1081")]⟩
  identitySats := 1000
  tip := ⟨some (key "00"), 1, some (key "00")⟩
  state := ⟨1, 0, -1, 0, 0⟩
  status := .actioned
  history := List.replicate entries ⟨some (key "action"), some (key "00")⟩

theorem longState_complete {entries : ℕ} : (longState entries).Complete := by
  intro s hs
  unfold AgentState.strings longState at hs
  simp only [List.mem_append, List.mem_cons, List.mem_flatMap, List.mem_replicate,
    List.not_mem_nil, or_false] at hs
  rintro rfl
  simp only [reduceCtorEq, or_self, false_or] at hs
  obtain ⟨e, ⟨-, rfl⟩, h⟩ := hs
  simp at h

theorem agentState_roundTrip_iff_long :
    agentStateFromJson (agentStateToJson (longState 3)) = .ok (longState 3)
      ↔ (longState 3).rabinPub.recovery.length < 2 ^ 31
        ∧ (longState 3).history.length < 2 ^ 31 :=
  agentState_roundTrip_iff longState_complete (by decide)

/-- A history of `2 ^ 31` entries is lost. -/
theorem agentState_loses_history :
    (longState (2 ^ 31)).Complete ∧ |(longState (2 ^ 31)).identitySats.toInt| ≤ 2 ^ 53
      ∧ agentStateFromJson (agentStateToJson (longState (2 ^ 31))) ≠ .ok (longState (2 ^ 31)) := by
  have hsats : ∀ n, |(longState n).identitySats.toInt| ≤ 2 ^ 53 := fun n => by
    show |(1000 : Int64).toInt| ≤ 2 ^ 53
    decide
  have hlong : ∀ n, 2 ^ 31 ≤ n →
      agentStateFromJson (agentStateToJson (longState n)) ≠ .ok (longState n) := by
    intro n hn
    rw [ne_eq, longState_complete.fromJson_eq_iff (hsats n), not_and, counted_eq_iff]
    intro _ hcounted
    have hlength : (longState n).history.length = n := List.length_replicate
    rw [counted_eq_iff] at hcounted
    omega
  exact ⟨longState_complete, hsats _, hlong _ le_rfl⟩

end RoundTrip

end BonsaiChain.StateFile
