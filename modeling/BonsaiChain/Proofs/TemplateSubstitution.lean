import BonsaiChain.Proofs.CharterParams
import BonsaiChain.Proofs.Common
import BonsaiChain.ScriptCodec

/-!
# Template substitution

A template is text with holes. One lap of the substitution loop fills the holes of one name, as no
bracket stands in a text or in a name, and so the loop fills each hole from the first leaf of its
name. With distinct names that is the only one, whatever the order of the leaves.
-/

namespace BonsaiChain

open Lib

/-- A piece of a template: text or a placeholder. -/
inductive TemplatePiece where
  | text (s : CString)
  | hole (name : CString)
  deriving DecidableEq

/-- No angle brackets. -/
def Unbracketed (s : CString) : Prop := 60 ∉ s ∧ 62 ∉ s

instance (s : CString) : Decidable (Unbracketed s) := inferInstanceAs (Decidable (_ ∧ _))

namespace TemplatePiece

/-- The text itself or the name. -/
def content : TemplatePiece → CString
  | text s => s
  | hole name => name

def print : TemplatePiece → CString
  | text s => s
  | hole name => 60 :: name ++ [62]

/-- A hole with a value becomes text. -/
def fill (value : CString → Option CString) : TemplatePiece → TemplatePiece
  | text s => text s
  | hole name =>
    match value name with
    | some s => text s
    | none => hole name

end TemplatePiece

open TemplatePiece

/-- What of a piece is not a placeholder. -/
def TemplatePiece.plain : TemplatePiece → CString
  | text s => s
  | hole _ => []

def templateText (pieces : List TemplatePiece) : CString := pieces.flatMap print

def plainText (pieces : List TemplatePiece) : CString := pieces.flatMap plain

/-- The template with the holes of all names filled at once. -/
def fillAtOnce (value : CString → Option CString) (pieces : List TemplatePiece) :
    List TemplatePiece := pieces.map (fill value)

section Replace

variable {name repl s rest : CString} {pieces : List TemplatePiece}

/-- The value of one name. -/
def only (name repl : CString) : CString → Option CString :=
  fun n => if n = name then some repl else none

theorem replaceFrom_copy : ∀ {s : CString}, 60 ∉ s →
    replaceFrom (60 :: name) repl 0 (s ++ rest) = s ++ replaceFrom (60 :: name) repl 0 rest
  | [], _ => rfl
  | c :: s, h => by
    rw [List.mem_cons, not_or] at h
    have hc : (60 :: name).isPrefixOf (c :: (s ++ rest)) = false := by
      simp [List.isPrefixOf, h.1]
    rw [List.cons_append, replaceFrom, hc, replaceFrom_copy h.2]
    rfl

theorem replaceFrom_skip {marker : CString} : ∀ s : CString,
    replaceFrom marker repl s.length (s ++ rest) = replaceFrom marker repl 0 rest
  | [] => rfl
  | c :: s => by
    rw [List.length_cons, List.cons_append, replaceFrom, replaceFrom_skip s]

theorem takeWhile_name {s : CString} (h : Unbracketed s) (rest : CString) :
    (s ++ 62 :: rest).takeWhile (· ≠ 62) = s := by
  refine (takeWhile_append_cons (fun c hc => ?_) (by decide)).1
  have hne : c ≠ 62 := by
    rintro rfl
    exact h.2 hc
  simpa using hne

/-- A marker stands in front of a hole only where the names are the same. -/
theorem marker_prefix_iff {n : CString} (hname : Unbracketed name) (hn : Unbracketed n) :
    (60 :: (name ++ [62])).isPrefixOf (60 :: (n ++ 62 :: rest)) = true ↔ n = name := by
  rw [List.isPrefixOf_iff_prefix, List.cons_prefix_cons]
  constructor
  · rintro ⟨-, t, ht⟩
    rw [← takeWhile_name hn rest, ← takeWhile_name hname t, ← ht, List.append_assoc]
    rfl
  · rintro rfl
    exact ⟨rfl, rest, by simp⟩

theorem replaceFrom_hole {n : CString} (hname : Unbracketed name) (hn : Unbracketed n) :
    replaceFrom (60 :: (name ++ [62])) repl 0 ((hole n).print ++ rest)
      = ((hole n).fill (only name repl)).print
        ++ replaceFrom (60 :: (name ++ [62])) repl 0 rest := by
  have hinput : (hole n).print ++ rest = 60 :: ((n ++ [62]) ++ rest) := by simp [print]
  have hmark : (60 :: (name ++ [62])).isPrefixOf (60 :: ((n ++ [62]) ++ rest)) = true
      ↔ n = name := by
    rw [List.append_assoc]
    exact marker_prefix_iff hname hn
  rw [hinput, replaceFrom]
  by_cases h : n = name
  · have hlen : (60 :: (name ++ [62])).length - 1 = (n ++ [62]).length := by simp [h]
    rw [if_pos (hmark.mpr h), hlen, replaceFrom_skip]
    simp [fill, only, h, print]
  · have hplain : 60 ∉ n ++ [62] := by
      rw [List.mem_append, not_or]
      exact ⟨hn.1, by decide⟩
    rw [if_neg (by rw [hmark]; exact h), replaceFrom_copy hplain]
    simp [fill, only, h, print]

/-- One lap fills the holes of its name. -/
theorem hexTemplateReplace_templateText (hname : Unbracketed name) :
    ∀ {pieces : List TemplatePiece}, (∀ p ∈ pieces, Unbracketed p.content) →
    hexTemplateReplace (templateText pieces) name repl
      = templateText (fillAtOnce (only name repl) pieces) := by
  have hmarker : ascii "<" ++ name ++ ascii ">" = 60 :: (name ++ [62]) := rfl
  unfold hexTemplateReplace
  rw [hmarker]
  intro pieces
  induction pieces with
  | nil => intro _; rfl
  | cons p pieces ih =>
    intro hpieces
    rw [List.forall_mem_cons] at hpieces
    have hrest := ih hpieces.2
    show replaceFrom _ repl 0 (p.print ++ templateText pieces)
      = (p.fill (only name repl)).print ++ templateText (fillAtOnce (only name repl) pieces)
    cases p with
    | text s =>
      rw [← hrest]
      exact replaceFrom_copy hpieces.1.1
    | hole n =>
      have hn : Unbracketed n := hpieces.1
      rw [replaceFrom_hole hname hn, hrest]

end Replace

section Loop

variable {enc : ScryptLeaf → Bytes} {leaves order : List ScryptLeaf}
  {pieces : List TemplatePiece}

/-- The hexadecimal encoding of the first leaf of a name. -/
def leafValue (enc : ScryptLeaf → Bytes) (leaves : List ScryptLeaf) (name : CString) :
    Option CString := (leaves.map fun l => (l.name, hexEncode (enc l))).lookup name

theorem unbracketed_hexEncode {bs : Bytes} : Unbracketed (hexEncode bs) := by
  constructor
  · intro h
    exact absurd (hexEncode_digit 60 h) (by decide)
  · intro h
    exact absurd (hexEncode_digit 62 h) (by decide)

theorem unbracketed_fill {value : CString → Option CString}
    (hvalue : ∀ n s, value n = some s → Unbracketed s) {p : TemplatePiece}
    (h : Unbracketed p.content) : Unbracketed (p.fill value).content := by
  cases p with
  | text s => exact h
  | hole n =>
    rcases hn : value n with _ | s
    · simpa [fill, hn] using h
    · simpa [fill, hn, content] using hvalue n s hn

theorem fill_only_fill {l : ScryptLeaf} {p : TemplatePiece} :
    (p.fill (only l.name (hexEncode (enc l)))).fill (leafValue enc leaves)
      = p.fill (leafValue enc (l :: leaves)) := by
  cases p with
  | text s => rfl
  | hole n =>
    unfold leafValue
    rw [List.map_cons]
    by_cases h : n = l.name
    · simp [fill, only, h]
    · have hbeq : (n == l.name) = false := by simpa using h
      simp [fill, only, h, List.lookup_cons, hbeq]

/-- The loop fills every hole from the first leaf of its name. -/
theorem foldlM_substituteLeaf : ∀ {leaves : List ScryptLeaf} {pieces : List TemplatePiece},
    (∀ l ∈ leaves, toScriptHex l.value = .ok (enc l)) → (∀ l ∈ leaves, Unbracketed l.name) →
    (∀ p ∈ pieces, Unbracketed p.content) →
    leaves.foldlM substituteLeaf (templateText pieces)
      = .ok (templateText (fillAtOnce (leafValue enc leaves) pieces))
  | [], pieces, _, _, _ => by
    have hnone : fillAtOnce (leafValue enc []) pieces = pieces := by
      refine (List.map_congr_left fun p _ => ?_).trans (List.map_id' _)
      cases p <;> rfl
    rw [hnone]
    rfl
  | l :: leaves, pieces, henc, hnames, hpieces => by
    rw [List.forall_mem_cons] at henc hnames
    have hlap : substituteLeaf (templateText pieces) l
        = .ok (templateText (fillAtOnce (only l.name (hexEncode (enc l))) pieces)) := by
      unfold substituteLeaf
      rw [henc.1, ok_bind, hexTemplateReplace_templateText hnames.1 hpieces]
      rfl
    have hfilled : ∀ p ∈ fillAtOnce (only l.name (hexEncode (enc l))) pieces,
        Unbracketed p.content := by
      intro p hp
      obtain ⟨q, hq, rfl⟩ := List.mem_map.mp hp
      refine unbracketed_fill (fun n s hs => ?_) (hpieces q hq)
      unfold only at hs
      split_ifs at hs
      rw [← Option.some.inj hs]
      exact unbracketed_hexEncode
    have hfills : fillAtOnce (leafValue enc leaves)
        (fillAtOnce (only l.name (hexEncode (enc l))) pieces)
          = fillAtOnce (leafValue enc (l :: leaves)) pieces := by
      unfold fillAtOnce
      rw [List.map_map]
      exact List.map_congr_left fun p _ => fill_only_fill
    rw [List.foldlM_cons, hlap, ok_bind, foldlM_substituteLeaf henc.2 hnames.2 hfilled, hfills]

/-- With distinct names the order of the leaves does not matter. -/
theorem leafValue_perm (hperm : order.Perm leaves) (hdistinct : (leaves.map (·.name)).Nodup) :
    leafValue enc order = leafValue enc leaves := by
  have hnodup : ∀ {ls : List ScryptLeaf}, (ls.map (·.name)).Nodup →
      ((ls.map fun l => (l.name, hexEncode (enc l))).map (·.1)).Nodup := by
    intro ls h
    rw [List.map_map]
    exact h
  funext name
  apply Option.ext
  intro s
  have horder : (order.map (·.name)).Nodup := (hperm.map _).nodup_iff.mpr hdistinct
  unfold leafValue
  rw [lookup_eq_some_iff (hnodup horder), lookup_eq_some_iff (hnodup hdistinct)]
  exact (hperm.map _).mem_iff

end Loop

section Decoding

variable {value : CString → Option CString} {pieces : List TemplatePiece} {s : CString}

theorem hexDecode_error : ∀ {s : CString} {e : Err}, hexDecode s = .error e → e = .eparse
  | [], _, h => by simp [hexDecode] at h
  | [_], _, h => (Except.error.inj h).symm
  | hi :: lo :: rest, e, h => by
    simp only [hexDecode] at h
    split at h
    · simp at h
    · exact (Except.error.inj h).symm

theorem hexDecode_eparse_iff :
    hexDecode s = .error .eparse ↔ ¬∃ bs, hexDecode s = .ok bs := by
  rcases h : hexDecode s with e | bs
  · simp [hexDecode_error h]
  · simp

/-- Values that are whole bytes in hexadecimal. -/
def HexValues (value : CString → Option CString) : Prop :=
  ∀ n s, value n = some s → s.length % 2 = 0 ∧ ∀ c ∈ s, (hexNibble c).isSome

theorem hexValues_leafValue {enc : ScryptLeaf → Bytes} {leaves : List ScryptLeaf} :
    HexValues (leafValue enc leaves) := by
  intro n s hs
  obtain ⟨before, after, hsplit, -⟩ := List.lookup_eq_some_iff.mp hs
  have hmem : (n, s) ∈ leaves.map fun l => (l.name, hexEncode (enc l)) := by simp [hsplit]
  obtain ⟨l, -, h⟩ := List.mem_map.mp hmem
  rw [← (Prod.mk.inj h).2, ← hexDecode_ok_iff]
  exact ⟨_, hexDecode_hexEncode _⟩

theorem digits_fill_iff (hvalue : HexValues value) : ∀ pieces : List TemplatePiece,
    (∀ c ∈ templateText (fillAtOnce value pieces), (hexNibble c).isSome)
      ↔ (∀ n, hole n ∈ pieces → value n ≠ none) ∧ ∀ c ∈ plainText pieces, (hexNibble c).isSome
  | [] => by simp [templateText, fillAtOnce, plainText]
  | p :: pieces => by
    have ih := digits_fill_iff hvalue pieces
    have htext : templateText (fillAtOnce value (p :: pieces))
        = (p.fill value).print ++ templateText (fillAtOnce value pieces) := rfl
    have hplain : plainText (p :: pieces) = p.plain ++ plainText pieces := rfl
    rw [htext, hplain, List.forall_mem_append, List.forall_mem_append, ih]
    cases p with
    | text s =>
      simp only [fill, print, plain, List.mem_cons, reduceCtorEq, false_or]
      tauto
    | hole n =>
      rcases hn : value n with _ | s
      · have hbracket : ¬(hexNibble 60).isSome := by decide
        simp [fill, hn, print, hbracket]
      · have hdigits := (hvalue n s hn).2
        simp [fill, hn, print, plain]
        tauto

theorem length_fill (hvalue : HexValues value) : ∀ {pieces : List TemplatePiece},
    (∀ n, hole n ∈ pieces → value n ≠ none) →
    (templateText (fillAtOnce value pieces)).length % 2 = (plainText pieces).length % 2
  | [], _ => rfl
  | p :: pieces, h => by
    have ih := length_fill hvalue fun n hn => h n (List.mem_cons_of_mem p hn)
    have htext : templateText (fillAtOnce value (p :: pieces))
        = (p.fill value).print ++ templateText (fillAtOnce value pieces) := rfl
    have hplain : plainText (p :: pieces) = p.plain ++ plainText pieces := rfl
    have hpiece : (p.fill value).print.length % 2 = p.plain.length % 2 := by
      cases p with
      | text s => rfl
      | hole n =>
        rcases hn : value n with _ | s
        · exact absurd hn (h n List.mem_cons_self)
        · simpa [fill, hn, print, plain] using (hvalue n s hn).1
    rw [htext, hplain, List.length_append, List.length_append]
    omega

/-- A filled template is no byte string where a hole is left or the text around the holes is
none. -/
theorem hexDecode_fill (hvalue : HexValues value) :
    hexDecode (templateText (fillAtOnce value pieces)) = .error .eparse
      ↔ (∃ n, hole n ∈ pieces ∧ value n = none)
        ∨ hexDecode (plainText pieces) = .error .eparse := by
  rw [hexDecode_eparse_iff, hexDecode_eparse_iff, hexDecode_ok_iff, hexDecode_ok_iff,
    digits_fill_iff hvalue]
  by_cases h : ∀ n, hole n ∈ pieces → value n ≠ none
  · have hnone : ¬∃ n, hole n ∈ pieces ∧ value n = none := fun ⟨n, hn, hv⟩ => h n hn hv
    rw [length_fill hvalue h]
    tauto
  · have hsome : ∃ n, hole n ∈ pieces ∧ value n = none := by
      push Not at h
      exact h
    exact iff_of_true (fun hdecodes => h hdecodes.2.1) (.inl hsome)

end Decoding

section Reconstruction

variable {artifact : ScryptArtifact} {ctorValues : List ScryptArg} {leaves : List ScryptLeaf}
  {enc : ScryptLeaf → Bytes} {pieces : List TemplatePiece}

theorem leafValue_eq_none_iff {n : CString} :
    leafValue enc leaves n = none ↔ ∀ l ∈ leaves, l.name ≠ n := by
  unfold leafValue
  rw [List.lookup_eq_none_iff]
  constructor
  · intro h l hl hn
    simpa [hn] using h _ (List.mem_map_of_mem hl)
  · intro h q hq
    obtain ⟨l, hl, rfl⟩ := List.mem_map.mp hq
    simpa using fun hn => h l hl hn.symm

theorem reconstructCode_eq (hflat : flattenArgs artifact ctorValues = .ok leaves)
    (htemplate : artifact.hexTemplate = templateText pieces)
    (hpieces : ∀ p ∈ pieces, Unbracketed p.content)
    (henc : ∀ l ∈ leaves, toScriptHex l.value = .ok (enc l))
    (hnames : ∀ l ∈ leaves, Unbracketed l.name) :
    reconstructCode artifact ctorValues
      = hexDecode (templateText (fillAtOnce (leafValue enc leaves) pieces)) := by
  unfold reconstructCode
  rw [hflat, ok_bind, htemplate, foldlM_substituteLeaf henc hnames hpieces, ok_bind]

theorem reconstructLockingScript_eparse_iff {stateVals : List ScryptArg} {isGenesis : Bool}
    (hstate : artifact.stateful = true →
      ∃ state, buildState artifact.stateProps stateVals isGenesis = .ok state) :
    reconstructLockingScript artifact ctorValues stateVals isGenesis = .error .eparse
      ↔ reconstructCode artifact ctorValues = .error .eparse := by
  unfold reconstructLockingScript
  rcases hcode : reconstructCode artifact ctorValues with e | code
  · rfl
  · rw [ok_bind]
    split_ifs with h
    · obtain ⟨state, hs⟩ := hstate h
      rw [hs]
      simp [ok_bind, pure, Except.pure]
    · simp [pure, Except.pure]

/-- The substitution loop fills all holes at once, in any order of the leaves, and the call fails
to parse exactly where a hole has no leaf or the text around the holes is no byte string. -/
theorem substitution_simultaneous (hflat : flattenArgs artifact ctorValues = .ok leaves)
    (htemplate : artifact.hexTemplate = templateText pieces)
    (hpieces : ∀ p ∈ pieces, Unbracketed p.content)
    (hdistinct : (leaves.map (·.name)).Nodup) (hnames : ∀ l ∈ leaves, Unbracketed l.name)
    (henc : ∀ l ∈ leaves, toScriptHex l.value = .ok (enc l)) :
    reconstructCode artifact ctorValues
        = hexDecode (templateText (fillAtOnce (leafValue enc leaves) pieces))
      ∧ (∀ order : List ScryptLeaf, order.Perm leaves →
        order.foldlM substituteLeaf artifact.hexTemplate
        = .ok (templateText (fillAtOnce (leafValue enc leaves) pieces)))
      ∧ ∀ stateVals isGenesis, (artifact.stateful = true →
          ∃ state, buildState artifact.stateProps stateVals isGenesis = .ok state) →
        (reconstructLockingScript artifact ctorValues stateVals isGenesis = .error .eparse
          ↔ (∃ n, hole n ∈ pieces ∧ ∀ l ∈ leaves, l.name ≠ n)
            ∨ hexDecode (plainText pieces) = .error .eparse) := by
  have hcode := reconstructCode_eq hflat htemplate hpieces henc hnames
  refine ⟨hcode, fun order hperm => ?_, fun stateVals isGenesis hstate => ?_⟩
  · have henc' : ∀ l ∈ order, toScriptHex l.value = .ok (enc l) :=
      fun l hl => henc l (hperm.mem_iff.mp hl)
    have hnames' : ∀ l ∈ order, Unbracketed l.name := fun l hl => hnames l (hperm.mem_iff.mp hl)
    rw [htemplate, foldlM_substituteLeaf henc' hnames' hpieces, leafValue_perm hperm hdistinct]
  · rw [reconstructLockingScript_eparse_iff hstate, hcode, hexDecode_fill hexValues_leafValue]
    simp only [leafValue_eq_none_iff]

/-- Two holes of which one name is a prefix of the other, one of them twice, and a leaf without a
hole. -/
def samplePieces : List TemplatePiece :=
  [.text (ascii "51"), .hole (ascii "ab"), .text (ascii "5"), .hole (ascii "a"), .text (ascii "1"),
    .hole (ascii "ab")]

def sampleArtifact (pieces : List TemplatePiece) (names : List CString) : ScryptArtifact :=
  ⟨templateText pieces, names.map fun name => ⟨name, .int⟩, [], []⟩

def sampleEnc (l : ScryptLeaf) : Bytes := (toScriptHex l.value).toOption.getD []

theorem substitution_simultaneous_prefix :
    reconstructCode (sampleArtifact samplePieces [ascii "a", ascii "ab", ascii "c"])
        [.int 1, .int 2, .int 3] = .ok [0x51, 0x52, 0x55, 0x11, 0x52] := by
  have hflat : flattenArgs (sampleArtifact samplePieces [ascii "a", ascii "ab", ascii "c"])
      [.int 1, .int 2, .int 3]
        = .ok [⟨ascii "a", .int 1⟩, ⟨ascii "ab", .int 2⟩, ⟨ascii "c", .int 3⟩] := rfl
  have htemplate : (sampleArtifact samplePieces [ascii "a", ascii "ab", ascii "c"]).hexTemplate
      = templateText samplePieces := rfl
  have h := substitution_simultaneous hflat htemplate (by decide) (by decide) (by decide)
    (show ∀ l ∈ _, toScriptHex l.value = .ok (sampleEnc l) by
      simp [toScriptHex, sampleEnc, Except.toOption])
  rw [h.1]
  rfl

/-- A leaf whose name spans two holes is filled into both at once. -/
theorem substitution_spans_holes :
    let pieces : List TemplatePiece := [.hole (ascii "a"), .hole (ascii "b")]
    let artifact := sampleArtifact pieces [ascii "a><b", ascii "a", ascii "b"]
    ∃ leaves, flattenArgs artifact [.int 1, .int 2, .int 3] = .ok leaves
      ∧ (leaves.map (·.name)).Nodup ∧ (∀ p ∈ pieces, Unbracketed p.content)
      ∧ reconstructCode artifact [.int 1, .int 2, .int 3] = .ok [0x51]
      ∧ hexDecode (templateText (fillAtOnce (leafValue sampleEnc leaves) pieces))
        = .ok [0x52, 0x53] := by
  exact ⟨_, rfl, by decide, by decide, rfl, rfl⟩

end Reconstruction

end BonsaiChain
