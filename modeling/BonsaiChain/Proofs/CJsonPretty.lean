import BonsaiChain.CJsonPretty
import BonsaiChain.Proofs.CJson

/-!
# Formatted text is read back

The parser passes over the blanks that the formatted printer adds, so an object of values that are
read back is read back itself.
-/

namespace BonsaiChain.CJson

section Blanks

theorem skipWhitespace_blanks {ws X : Bytes} {c : UInt8} (hws : ∀ b ∈ ws, b ≤ 32) (hc : ¬c ≤ 32) :
    skipWhitespace (ws ++ c :: X) = c :: X := by
  have hdrop : (ws ++ c :: X).dropWhile (· ≤ 32) = c :: X := by
    rw [List.dropWhile_append_of_pos (by simpa using hws)]
    simp [hc]
  unfold skipWhitespace
  rw [hdrop]

theorem tabs_blank {depth : ℕ} : ∀ b ∈ tabs depth, b ≤ 32 := fun b hb => by
  rw [List.eq_of_mem_replicate hb]
  decide

end Blanks

section Entries

/-- A member at a depth: its value, as it is printed there and read back in front of anything. -/
structure Entry (depthLeft depth : ℕ) where
  name : CStr
  value : Json
  text : Bytes
  printed : printValuePretty depthLeft depth value = some text
  notNul : 0 ∉ text
  start : ∃ c T, text = c :: T ∧ ¬c ≤ 32
  reads : ∀ X, parseValue depthLeft (text ++ X) = some (value, X)

variable {depthLeft depth fuel : ℕ}

theorem notNul_printStringPtr {s : CStr} : 0 ∉ printStringPtr s := fun h =>
  absurd (printStringPtr_visible 0 h) (by decide)

def Entry.string (name s : CStr) : Entry depthLeft depth where
  name := name
  value := .string s
  text := printStringPtr s
  printed := by cases depthLeft <;> rfl
  notNul := notNul_printStringPtr
  start := ⟨34, _, rfl, by decide⟩
  reads X := by
    show parseValue depthLeft (34 :: _) = _
    rw [parseValue_string]
    show (parseString (printStringPtr s ++ X)).map _ = _
    rw [parseString_printStringPtr]
    rfl

def Entry.line (e : Entry depthLeft depth) : CStr × Bytes := (e.name, e.text)

def Entry.member (e : Entry depthLeft depth) : CStr × Json := (e.name, e.value)

theorem parseMembers_line {e : Entry depthLeft depth} {ws X : Bytes} (hws : ∀ b ∈ ws, b ≤ 32) :
    parseMembers (parseValue depthLeft) (fuel + 1)
        (ws ++ (printStringPtr e.name ++ 58 :: 9 :: (e.text ++ X)))
      = afterValue depthLeft fuel e.name e.value X := by
  obtain ⟨c, T, hT, hc⟩ := e.start
  have hname : skipWhitespace (ws ++ (printStringPtr e.name ++ 58 :: 9 :: (e.text ++ X)))
      = printStringPtr e.name ++ 58 :: 9 :: (e.text ++ X) :=
    skipWhitespace_blanks hws (by decide)
  have hvalue : skipWhitespace (9 :: (e.text ++ X)) = e.text ++ X := by
    rw [hT]
    show skipWhitespace ([9] ++ c :: (T ++ X)) = _
    exact skipWhitespace_blanks (by simp) hc
  rw [parseMembers_eq (by simp [printStringPtr]), hname, parseString_printStringPtr]
  show afterName depthLeft fuel e.name (58 :: 9 :: (e.text ++ X)) = _
  unfold afterName
  rw [skipWhitespace_cons (by decide)]
  show (parseValue depthLeft (skipWhitespace (9 :: (e.text ++ X)))).bind _ = _
  rw [hvalue, e.reads X]
  rfl

/-- The lines of an object are read back from behind any blanks. -/
theorem parseMembers_memberLines {j : ℕ} {X : Bytes} :
    ∀ {es : List (Entry depthLeft depth)} {e : Entry depthLeft depth} {fuel : ℕ} {ws : Bytes},
    (∀ b ∈ ws, b ≤ 32) → es.length < fuel →
    parseMembers (parseValue depthLeft) fuel
        (ws ++ (memberLines depth ((e :: es).map Entry.line) ++ (tabs j ++ 125 :: X)))
      = some ((e :: es).map Entry.member, X)
  | [], e, fuel + 1, ws, hws, _ => by
    have hclose : skipWhitespace ((10 :: tabs j) ++ 125 :: X) = 125 :: X :=
      skipWhitespace_blanks (by simpa using fun b hb => tabs_blank b hb) (by decide)
    have hlines : ws ++ (memberLines depth ([e].map Entry.line) ++ (tabs j ++ 125 :: X))
        = (ws ++ tabs depth) ++ (printStringPtr e.name
          ++ 58 :: 9 :: (e.text ++ ((10 :: tabs j) ++ 125 :: X))) := by
      simp [memberLines, Entry.line]
    have hblank : ∀ b ∈ ws ++ tabs depth, b ≤ 32 := by
      simpa [or_imp, forall_and] using ⟨hws, fun b hb => tabs_blank b hb⟩
    rw [hlines, parseMembers_line hblank, afterValue, hclose]
    rfl
  | e' :: es, e, fuel + 1, ws, hws, h => by
    have ih : parseMembers (parseValue depthLeft) fuel
        ([10] ++ (memberLines depth ((e' :: es).map Entry.line) ++ (tabs j ++ 125 :: X)))
          = some ((e' :: es).map Entry.member, X) :=
      parseMembers_memberLines (by simp) (Nat.lt_of_succ_lt_succ h)
    have hlines : ws ++ (memberLines depth ((e :: e' :: es).map Entry.line) ++ (tabs j ++ 125 :: X))
        = (ws ++ tabs depth) ++ (printStringPtr e.name ++ 58 :: 9 :: (e.text ++ 44 ::
          ([10] ++ (memberLines depth ((e' :: es).map Entry.line) ++ (tabs j ++ 125 :: X))))) := by
      simp [memberLines, Entry.line]
    have hblank : ∀ b ∈ ws ++ tabs depth, b ≤ 32 := by
      simpa [or_imp, forall_and] using ⟨hws, fun b hb => tabs_blank b hb⟩
    rw [hlines, parseMembers_line hblank, afterValue, skipWhitespace_cons (by decide)]
    show (parseMembers (parseValue depthLeft) fuel ([10] ++ _)).map _ = _
    rw [ih]
    rfl

/-- The lines start with the quote of the first name behind its tabs. -/
theorem memberLines_start : ∀ {es : List (Entry depthLeft depth)} {e : Entry depthLeft depth},
    ∃ T, memberLines depth ((e :: es).map Entry.line) = tabs depth ++ 34 :: T ∧ es.length < T.length
  | [], e => by
    refine ⟨_, by simp [memberLines, printStringPtr]; rfl, ?_⟩
    simp
  | e' :: es, e => by
    obtain ⟨T, hT, hlen⟩ : ∃ T, memberLines depth ((e' :: es).map Entry.line)
      = tabs depth ++ 34 :: T ∧ es.length < T.length := memberLines_start
    have hlines : memberLines depth ((e :: e' :: es).map Entry.line) = tabs depth ++ 34 ::
        ((e.name.val.flatMap escapeByte ++ [34]) ++ 58 :: 9 :: e.text
          ++ 44 :: 10 :: memberLines depth ((e' :: es).map Entry.line)) := by
      simp [memberLines, Entry.line, printStringPtr]
    refine ⟨_, hlines, ?_⟩
    rw [hT]
    simp
    omega

/-- The loop over the members passes over blanks before the first. -/
theorem parseMembers_skip {input Y : Bytes} {c : UInt8} (h : skipWhitespace input = c :: Y)
    (hc : ¬c ≤ 32) :
    parseMembers (parseValue depthLeft) (fuel + 1) (c :: Y)
      = parseMembers (parseValue depthLeft) (fuel + 1) input := by
  have hne : input ≠ [] := by
    rintro rfl
    simp [skipWhitespace] at h
  rw [parseMembers_eq (List.cons_ne_nil c Y), parseMembers_eq hne, skipWhitespace_cons hc, h]

/-- The text of an object of entries. -/
def prettyObject (es : List (Entry depthLeft (depth + 1))) : Bytes :=
  123 :: 10 :: memberLines (depth + 1) (es.map Entry.line) ++ tabs depth ++ [125]

theorem printValuePretty_object {es : List (Entry depthLeft (depth + 1))} :
    printValuePretty (depthLeft + 1) depth (.object (es.map Entry.member))
      = some (prettyObject es) := by
  have hlines : ∀ es : List (Entry depthLeft (depth + 1)),
      (es.map Entry.member).mapM
          (fun m => (printValuePretty depthLeft (depth + 1) m.2).map (m.1, ·))
        = some (es.map Entry.line) := by
    intro es
    induction es with
    | nil => rfl
    | cons e es ih =>
      rw [List.map_cons, List.mapM_cons, ih]
      show ((printValuePretty depthLeft (depth + 1) e.value).map (e.name, ·)).bind _ = _
      rw [e.printed]
      rfl
  rw [printValuePretty, hlines]
  rfl

theorem notNul_memberLines : ∀ {es : List (Entry depthLeft depth)},
    0 ∉ memberLines depth (es.map Entry.line)
  | [] => by simp [memberLines]
  | [e] => by
    simp [memberLines, Entry.line, tabs, notNul_printStringPtr, e.notNul, List.mem_replicate]
  | e :: e' :: es => by
    have ih : 0 ∉ memberLines depth ((e' :: es).map Entry.line) := notNul_memberLines
    have hlines : memberLines depth ((e :: e' :: es).map Entry.line)
        = tabs depth ++ printStringPtr e.name ++ 58 :: 9 :: e.text
          ++ 44 :: 10 :: memberLines depth ((e' :: es).map Entry.line) := rfl
    rw [hlines]
    simp [tabs, notNul_printStringPtr, e.notNul, List.mem_replicate, -List.map_cons, ih]

theorem notNul_prettyObject {es : List (Entry depthLeft (depth + 1))} : 0 ∉ prettyObject es := by
  simp [prettyObject, notNul_memberLines, tabs, List.mem_replicate]

theorem parseValue_prettyObject {e : Entry depthLeft (depth + 1)}
    {es : List (Entry depthLeft (depth + 1))} {X : Bytes} :
    parseValue (depthLeft + 1) (prettyObject (e :: es) ++ X)
      = some (.object ((e :: es).map Entry.member), X) := by
  obtain ⟨T, hT, hlen⟩ : ∃ T, memberLines (depth + 1) ((e :: es).map Entry.line)
    = tabs (depth + 1) ++ 34 :: T ∧ es.length < T.length := memberLines_start
  have hinput : prettyObject (e :: es) ++ X
      = 123 :: ([10] ++ (memberLines (depth + 1) ((e :: es).map Entry.line)
        ++ (tabs depth ++ 125 :: X))) := by
    simp [prettyObject]
  have hskip : skipWhitespace ([10] ++ (memberLines (depth + 1) ((e :: es).map Entry.line)
      ++ (tabs depth ++ 125 :: X))) = 34 :: (T ++ (tabs depth ++ 125 :: X)) := by
    rw [hT]
    have hblank : ∀ b ∈ [10] ++ tabs (depth + 1), b ≤ 32 := by
      simpa using fun b hb => tabs_blank b hb
    have hsplit : [10] ++ (tabs (depth + 1) ++ 34 :: T ++ (tabs depth ++ 125 :: X))
        = ([10] ++ tabs (depth + 1)) ++ 34 :: (T ++ (tabs depth ++ 125 :: X)) := by simp
    rw [hsplit]
    exact skipWhitespace_blanks hblank (by decide)
  have hmembers : ∀ fuel, es.length < fuel → parseMembers (parseValue depthLeft) fuel
      (34 :: (T ++ (tabs depth ++ 125 :: X))) = some ((e :: es).map Entry.member, X)
    | fuel + 1, hfuel => by
      rw [parseMembers_skip hskip (by decide)]
      exact parseMembers_memberLines (by simp) hfuel
  rw [hinput, parseValue_object, parseObject, hskip]
  show (parseMembers (parseValue depthLeft) _ (34 :: (T ++ (tabs depth ++ 125 :: X)))).map _ = _
  rw [hmembers _ (by simp; omega)]
  rfl

def Entry.object (name : CStr) (e : Entry depthLeft (depth + 1))
    (es : List (Entry depthLeft (depth + 1))) : Entry (depthLeft + 1) depth where
  name := name
  value := .object ((e :: es).map Entry.member)
  text := prettyObject (e :: es)
  printed := printValuePretty_object
  notNul := notNul_prettyObject
  start := ⟨123, _, rfl, by decide⟩
  reads _ := parseValue_prettyObject

/-- What the formatted printer writes for an object of entries, with the newline behind it, is
parsed as the object. -/
theorem parse_jsonPrintPretty2Nl (e : Entry 999 1) (es : List (Entry 999 1)) {text : CStr}
    (h : jsonPrintPretty2Nl (.object ((e :: es).map Entry.member)) = .ok text) :
    parse text.val = some (.object ((e :: es).map Entry.member)) := by
  have hprint : print (.object ((e :: es).map Entry.member))
      = some ⟨prettyObject (e :: es), notNul_prettyObject⟩ := by
    show (printValuePretty (999 + 1) 0 _).map cStr = _
    rw [printValuePretty_object]
    exact congrArg some (cStr_val ⟨prettyObject (e :: es), notNul_prettyObject⟩)
  have htext : text.val = prettyObject (e :: es) ++ [10] := by
    unfold jsonPrintPretty2Nl at h
    rw [hprint] at h
    have hval := cStr_val ⟨prettyObject (e :: es) ++ [10], by simp [notNul_prettyObject]⟩
    rw [← Except.ok.inj h]
    exact congrArg Subtype.val hval
  have hbom : skipUtf8Bom (text.val ++ [0]) = prettyObject (e :: es) ++ [10, 0] := by
    rw [htext]
    simp [skipUtf8Bom, prettyObject]
  have hskip : skipWhitespace (prettyObject (e :: es) ++ [10, 0])
    = prettyObject (e :: es) ++ [10, 0] :=
    skipWhitespace_append rfl (by decide)
  unfold parse
  rw [hbom, hskip]
  show (parseValue (999 + 1) _).map _ = _
  rw [parseValue_prettyObject]
  rfl

end Entries

end BonsaiChain.CJson
