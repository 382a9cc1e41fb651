import BonsaiChain.CJson
import BonsaiChain.Proofs.Common

/-!
# Reading printed objects

The parser inverts the printer on strings, on integers and on the objects made of them, and finds
no value in an object that breaks off and is followed by another one.
-/

namespace BonsaiChain

open Lib

theorem cStr_val (s : CStr) : cStr s.val = s := by
  refine Subtype.ext (List.takeWhile_eq_self_iff.mpr fun c hc => ?_)
  simpa using fun h : c = 0 => s.2 (h ▸ hc)

namespace CJson

section Whitespace

@[simp] theorem skipWhitespace_cons {c : UInt8} {X : Bytes} (h : ¬c ≤ 32) :
    skipWhitespace (c :: X) = c :: X := by
  simp [skipWhitespace, h]

@[simp] theorem skipWhitespace_nul : skipWhitespace [0] = [0] := by decide

theorem skipWhitespace_append {T X : Bytes} {c : UInt8} (hT : T.head? = some c) (h : ¬c ≤ 32) :
    skipWhitespace (T ++ X) = T ++ X := by
  obtain ⟨T, rfl⟩ := List.head?_eq_some_iff.mp hT
  exact skipWhitespace_cons h

end Whitespace

section Strings

variable {b c : UInt8} {X : Bytes}

theorem scanString_cons (h34 : b ≠ 34) (h92 : b ≠ 92) :
    scanString (b :: X) = (scanString X).map fun r => (b :: r.1, r.2) := by
  rw [scanString.eq_def]
  split
  · simp_all
  · simp_all
  · simp_all
  · simp_all
  · next heq =>
    obtain ⟨rfl, rfl⟩ := List.cons.inj heq
    rfl

theorem scanString_escape :
    scanString (92 :: c :: X) = (scanString X).map fun r => (92 :: c :: r.1, r.2) := rfl

/-- Bytes that the scan for the closing quote passes over one by one. -/
theorem scanString_append : ∀ {T : Bytes}, (∀ c ∈ T, c ≠ 34 ∧ c ≠ 92) →
    scanString (T ++ X) = (scanString X).map fun r => (T ++ r.1, r.2)
  | [], _ => by simp
  | c :: T, h => by
    rw [List.forall_mem_cons] at h
    rw [List.cons_append, scanString_cons h.1.1 h.1.2, scanString_append h.2, Option.map_map]
    rfl

/-- A byte is printed as itself, with a backslash, or as its code point. -/
theorem escapeByte_cases (b : UInt8) :
    (escapeByte b = [b] ∧ b ≠ 34 ∧ b ≠ 92) ∨
      (∃ c, escapeByte b = [92, c] ∧ c ≠ 117 ∧ unescapeByte c = some b) ∨
      ∃ hi lo, escapeByte b = [92, 117, 48, 48, hi, lo] ∧ parseHex4 [48, 48, hi, lo] = b.toNat ∧
        codepointToUtf8 b.toNat = some [b] ∧ ∀ x ∈ [48, 48, hi, lo], x ≠ 34 ∧ x ≠ 92 := by
  have h : (escapeByte b = [b] ∧ b ≠ 34 ∧ b ≠ 92) ∨
      (escapeByte b = [92, (escapeByte b)[1]?.getD 0] ∧ (escapeByte b)[1]?.getD 0 ≠ 117 ∧
        unescapeByte ((escapeByte b)[1]?.getD 0) = some b) ∨
      escapeByte b = [92, 117, 48, 48, hexDigit (b >>> 4), hexDigit (b &&& 15)] ∧
        parseHex4 [48, 48, hexDigit (b >>> 4), hexDigit (b &&& 15)] = b.toNat ∧
        codepointToUtf8 b.toNat = some [b] ∧
        ([48, 48, hexDigit (b >>> 4), hexDigit (b &&& 15)].all fun x => x ≠ 34 ∧ x ≠ 92) := by
    revert b
    apply Lib.forall_byte
    decide +kernel
  simp only [List.all_eq_true, decide_eq_true_eq] at h
  exact h.imp_right (Or.imp (fun h => ⟨_, h⟩) fun h => ⟨_, _, h⟩)

theorem scanString_escapeByte (b : UInt8) :
    scanString (escapeByte b ++ X) = (scanString X).map fun r => (escapeByte b ++ r.1, r.2) := by
  rcases escapeByte_cases b with ⟨hb, h34, h92⟩ | ⟨c, hb, -⟩ | ⟨hi, lo, hb, -, -, hT⟩
  · rw [hb]
    exact scanString_cons h34 h92
  · rw [hb]
    exact scanString_escape
  · rw [hb]
    show scanString (92 :: 117 :: ([48, 48, hi, lo] ++ X)) = _
    rw [scanString_escape, scanString_append hT, Option.map_map]
    rfl

theorem scanString_flatMap : ∀ s : Bytes,
    scanString (s.flatMap escapeByte ++ X)
      = (scanString X).map fun r => (s.flatMap escapeByte ++ r.1, r.2)
  | [] => by simp
  | b :: s => by
    rw [List.flatMap_cons, List.append_assoc, scanString_escapeByte, scanString_flatMap s,
      Option.map_map]
    simp [Function.comp_def]

theorem unescape_cons (h92 : b ≠ 92) : unescape 0 (b :: X) = (unescape 0 X).map (b :: ·) := by
  rw [unescape.eq_def]
  split
  · simp_all
  · simp_all
  · simp_all
  · next heq =>
    obtain ⟨rfl, rfl⟩ := List.cons.inj heq
    rw [Option.map_eq_bind]
    rfl

theorem unescape_escape (h117 : c ≠ 117) :
    unescape 0 (92 :: c :: X) = (unescapeByte c).bind fun b => (unescape 0 X).map (b :: ·) := by
  rw [unescape.eq_def]
  split
  · simp_all
  · simp_all
  · next heq =>
    obtain rfl := (List.cons.inj heq).2
    split
    · simp_all
    · simp_all
    · next heq =>
      obtain ⟨rfl, rfl⟩ := List.cons.inj heq
      simp only [Option.map_eq_bind]
      rfl
  · simp_all

theorem unescape_utf16 {n : ℕ} {out : Bytes}
    (h : utf16LiteralToUtf8 (92 :: 117 :: X) = some (n, out)) :
    unescape 0 (92 :: 117 :: X) = (unescape (n - 1) (117 :: X)).map (out ++ ·) := by
  rw [unescape, h, Option.map_eq_bind]
  rfl

/-- The printed form of a byte reads back as the byte. -/
theorem unescape_escapeByte (b : UInt8) :
    unescape 0 (escapeByte b ++ X) = (unescape 0 X).map (b :: ·) := by
  rcases escapeByte_cases b with ⟨hb, -, h92⟩ | ⟨c, hb, h117, hc⟩ | ⟨hi, lo, hb, hhex, hutf, -⟩
  · rw [hb]
    exact unescape_cons h92
  · rw [hb, List.cons_append, List.cons_append, unescape_escape h117, hc]
    rfl
  · have hcode : b.toNat < 256 := b.toNat_lt
    have hlit : utf16LiteralToUtf8 (92 :: 117 :: 48 :: 48 :: hi :: lo :: X) = some (6, [b]) := by
      have hfirst : parseHex4 (48 :: 48 :: hi :: lo :: X) = b.toNat := hhex
      simp only [utf16LiteralToUtf8, List.length_cons, List.drop_succ_cons, List.drop_zero, hfirst]
      rw [if_neg (by omega), if_neg (by omega), if_neg (by omega), hutf]
      rfl
    rw [hb]
    exact unescape_utf16 hlit

theorem unescape_flatMap : ∀ s : Bytes, unescape 0 (s.flatMap escapeByte) = some s
  | [] => rfl
  | b :: s => by
    rw [List.flatMap_cons, unescape_escapeByte, unescape_flatMap s]
    rfl

/-- A printed string is read back from in front of anything. -/
theorem parseString_printStringPtr (s : CStr) :
    parseString (printStringPtr s ++ X) = some (s, X) := by
  have hscan : scanString (s.val.flatMap escapeByte ++ [34] ++ X)
      = some (s.val.flatMap escapeByte, X) := by
    rw [List.append_assoc, scanString_flatMap]
    simp [scanString]
  unfold printStringPtr
  rw [List.cons_append, List.cons_append, parseString, hscan]
  simp [unescape_flatMap, cStr_val]

end Strings

section Numbers

theorem digitsValue_decimal (n : ℕ) : digitsValue (decimal n) = n := by
  have hmap : ∀ (cs : List Char) (m : ℕ), (∀ c ∈ cs, c.isDigit) →
      (cs.map fun c => UInt8.ofNat c.toNat).foldl (fun n c => 10 * n + (c.toNat - 48)) m
        = Nat.ofDigitChars 10 cs m := by
    intro cs
    induction cs with
    | nil => simp
    | cons c cs ih =>
      intro m h
      rw [List.forall_mem_cons] at h
      have hlt : c.toNat < 256 := (isDigit_toNat h.1).2.trans_lt (by norm_num)
      rw [List.map_cons, List.foldl_cons, ih _ h.2, Nat.ofDigitChars_cons, toNat_ofNat_of_lt hlt]
      rfl
  unfold digitsValue decimal
  rw [hmap _ _ fun c hc => Nat.isDigit_of_mem_toDigits (by omega) (by omega) hc]
  exact Nat.ofDigitChars_ten_toDigits

theorem isDigitByte_decimal {n : ℕ} {c : UInt8} (h : c ∈ decimal n) : isDigitByte c := by
  simpa [isDigitByte] using decimal_digit h

theorem readSign_digit {c : UInt8} {s : CString} (h : isDigitByte c) :
    readSign (c :: s) = (false, c :: s) := by
  unfold readSign
  split
  · next heq =>
    rw [(List.cons.inj heq).1] at h
    exact absurd h (by decide)
  · next heq =>
    rw [(List.cons.inj heq).1] at h
    exact absurd h (by decide)
  · rfl

theorem readSign_decimalInt (n : ℤ) :
    readSign (decimalInt n) = (decide (n < 0), decimal n.natAbs) := by
  unfold decimalInt
  split_ifs with h
  · simp [readSign, h]
  · rcases hd : decimal n.natAbs with _ | ⟨c, s⟩
    · exact absurd hd decimal_ne_nil
    · rw [readSign_digit (isDigitByte_decimal (n := n.natAbs) (by simp [hd]))]
      simp [h]

/-- A printed integer is read back, rounded to a double. -/
theorem strtod_decimalInt (n : ℤ) : strtod (decimalInt n) = some (.ofRat n, []) := by
  have hall : ∀ c ∈ decimal n.natAbs, isDigitByte c := fun c hc => isDigitByte_decimal hc
  have htake : (decimal n.natAbs).takeWhile isDigitByte = decimal n.natAbs :=
    List.takeWhile_eq_self_iff.mpr hall
  have hdrop : (decimal n.natAbs).dropWhile isDigitByte = [] :=
    List.dropWhile_eq_nil_iff.mpr hall
  have habs : (n.natAbs : ℚ) = |(n : ℚ)| := by rw [Nat.cast_natAbs, Int.cast_abs]
  simp only [strtod, readSign_decimalInt, htake, hdrop, readFraction, readExponent,
    decimal_ne_nil, false_and, if_false, List.append_nil, digitsValue_decimal, List.length_nil,
    Nat.cast_zero, sub_zero, zpow_zero, mul_one, habs, decide_eq_true_eq]
  split_ifs with h
  · have hneg : (n : ℚ) < 0 := by exact_mod_cast h
    rw [abs_of_neg hneg, neg_neg]
  · have hnonneg : (0 : ℚ) ≤ n := by exact_mod_cast not_lt.mp h
    rw [abs_of_nonneg hnonneg]

theorem readSign_suffix (s : CString) : (readSign s).2 <:+ s := by
  unfold readSign
  split
  · exact List.suffix_cons ..
  · exact List.suffix_cons ..
  · exact List.suffix_rfl

theorem readFraction_suffix (s : CString) : (readFraction s).2 <:+ s := by
  unfold readFraction
  split
  · exact (List.dropWhile_suffix _).trans (List.suffix_cons ..)
  · exact List.suffix_rfl

theorem readExponent_suffix (s : CString) : (readExponent s).2 <:+ s := by
  unfold readExponent
  split
  · next c s =>
    have hdigits := ((List.dropWhile_suffix isDigitByte).trans (readSign_suffix s)).trans
      (List.suffix_cons c s)
    dsimp only
    split_ifs
    · exact hdigits
    · exact hdigits
    · exact List.suffix_rfl
  · exact List.suffix_rfl

/-- What `strtod` leaves is the end of the text. -/
theorem strtod_suffix {text left : CString} {d : Binary64} (h : strtod text = some (d, left)) :
    left <:+ text := by
  simp only [strtod] at h
  split_ifs at h
  all_goals
    obtain ⟨-, rfl⟩ := Prod.mk.inj (Option.some.inj h)
    exact (readExponent_suffix _).trans ((readFraction_suffix _).trans
      ((List.dropWhile_suffix _).trans (readSign_suffix _)))

theorem isNumberByte_decimalInt {n : ℤ} {c : UInt8} (h : c ∈ decimalInt n) : isNumberByte c := by
  have hdigit : ∀ c ∈ decimal n.natAbs, isNumberByte c := fun c hc => by
    simp [isNumberByte, isDigitByte_decimal hc]
  unfold decimalInt at h
  split_ifs at h
  · rcases List.mem_cons.mp h with rfl | h
    · rfl
    · exact hdigit c h
  · exact hdigit c h

variable {T X : Bytes}

/-- A number ends in front of a byte that is not part of one. -/
theorem parseNumber_append (hT : ∀ c ∈ T, isNumberByte c) (hX : ∀ c ∈ X.head?, ¬isNumberByte c) :
    parseNumber (T ++ X) = (strtod T).map fun r => (.number r.1, r.2 ++ X) := by
  have hnil : X.takeWhile isNumberByte = [] ∧ X.dropWhile isNumberByte = X := by
    rcases X with _ | ⟨c, X⟩
    · simp
    · simp [hX c rfl]
  rw [parseNumber, List.takeWhile_append_of_pos hT, List.dropWhile_append_of_pos hT, hnil.1,
    hnil.2, List.append_nil, Option.map_eq_bind]
  rfl

end Numbers

section Values

variable {depthLeft : ℕ} {X : Bytes}

theorem parseValue_string :
    parseValue depthLeft (34 :: X) = (parseString (34 :: X)).map fun r => (.string r.1, r.2) := by
  rw [parseValue.eq_def]
  rfl

theorem parseValue_number {c : UInt8} (h : c = 45 ∨ isDigitByte c) :
    parseValue depthLeft (c :: X) = parseNumber (c :: X) := by
  have hne : c ≠ 110 ∧ c ≠ 102 ∧ c ≠ 116 ∧ c ≠ 34 := by
    rcases h with rfl | h
    · decide
    · refine ⟨?_, ?_, ?_, ?_⟩ <;> rintro rfl <;> exact absurd h (by decide)
  have hliteral : ∀ {a : UInt8} {l : Bytes}, a ≠ c → (a :: l).isPrefixOf (c :: X) = false := by
    intro a l h
    simp [List.isPrefixOf, h]
  rw [parseValue.eq_def]
  show (if (110 :: _ : Bytes).isPrefixOf (c :: X) = true then _
    else if (102 :: _ : Bytes).isPrefixOf (c :: X) = true then _
    else if (116 :: _ : Bytes).isPrefixOf (c :: X) = true then _ else _) = _
  simp [hliteral hne.1.symm, hliteral hne.2.1.symm, hliteral hne.2.2.1.symm, hne.2.2.2, h]

theorem parseValue_object :
    parseValue (depthLeft + 1) (123 :: X) = parseObject (parseValue depthLeft) (123 :: X) := by
  rw [parseValue.eq_def]
  rfl

theorem parseValue_zero_object : parseValue 0 (123 :: X) = none := by
  rw [parseValue.eq_def]
  rfl

theorem parseValue_nul : parseValue depthLeft [0] = none := by
  cases depthLeft <;> rfl

end Values

section Torn

/-- No byte that goes on with an object comes next. -/
def Stuck (rest : Bytes) : Prop := ∀ c ∈ (skipWhitespace rest).head?, c ≠ 44 ∧ c ≠ 58 ∧ c ≠ 125

/-- What ends an object that breaks off in front of it: the end of the buffer or another object. -/
structure Severs (X : Bytes) : Prop where
  head : X = [0] ∨ ∃ Y, X = 123 :: Y
  string : ∀ content rest, scanString X = some (content, rest) → Stuck rest
  value : ∀ depthLeft v rest, parseValue depthLeft X = some (v, rest) → Stuck rest

namespace Severs

variable {X : Bytes} (h : Severs X)

include h

theorem skipWhitespace_eq : skipWhitespace X = X := by
  rcases h.head with rfl | ⟨Y, rfl⟩
  · exact skipWhitespace_nul
  · exact skipWhitespace_cons (by decide)

theorem ne_nil : X ≠ [] := by
  rcases h.head with rfl | ⟨Y, rfl⟩ <;> simp

theorem stuck : Stuck X := by
  unfold Stuck
  rw [h.skipWhitespace_eq]
  rcases h.head with rfl | ⟨Y, rfl⟩ <;> simp

theorem not_number : ∀ c ∈ X.head?, ¬isNumberByte c := by
  rcases h.head with rfl | ⟨Y, rfl⟩ <;> simp <;> decide

theorem parseString_eq_none : parseString X = none := by
  rcases h.head with rfl | ⟨Y, rfl⟩ <;> rfl

/-- The quote that closes a torn string is the same with the next byte escaped. -/
theorem string_tail {content rest : Bytes} (hr : scanString X.tail = some (content, rest)) :
    Stuck rest := by
  rcases h.head with rfl | ⟨Y, rfl⟩
  · simp [scanString] at hr
  · have hscan : scanString (123 :: Y) = some (123 :: content, rest) := by
      rw [scanString_cons (by decide) (by decide)]
      simp [show scanString Y = some (content, rest) from hr]
    exact h.string _ _ hscan

end Severs

theorem prefix_append_cases {α : Type*} {T a b : List α} (h : T <+: a ++ b) :
    (T <+: a ∧ T ≠ a) ∨ ∃ T', T = a ++ T' ∧ T' <+: b := by
  obtain ⟨u, hu⟩ := h
  rcases List.append_eq_append_iff.mp hu with ⟨a', ha, -⟩ | ⟨c, hc, hb⟩
  · rcases a' with _ | ⟨x, a'⟩
    · exact .inr ⟨[], by simpa using ha.symm, List.nil_prefix⟩
    · refine .inl ⟨⟨_, ha.symm⟩, ?_⟩
      rintro rfl
      simp at ha
  · exact .inr ⟨c, hc, ⟨u, hb.symm⟩⟩

variable {T X : Bytes}

/-- The same for a string that breaks off within an escape sequence. -/
theorem scanString_torn_escape (hX : Severs X) {c : UInt8} {P T content rest : Bytes}
    (hP : ∀ x ∈ P, x ≠ 34 ∧ x ≠ 92) (hT : T <+: 92 :: c :: P)
    (hr : scanString (T ++ X) = some (content, rest)) : Stuck rest := by
  rcases T with _ | ⟨x, _ | ⟨y, T⟩⟩
  · exact hX.string _ _ hr
  · obtain ⟨rfl, -⟩ := List.cons_prefix_cons.mp hT
    obtain ⟨d, Y, rfl⟩ := List.exists_cons_of_ne_nil hX.ne_nil
    rw [List.singleton_append, scanString_escape] at hr
    obtain ⟨r, htail, heq⟩ := Option.map_eq_some_iff.mp hr
    obtain ⟨-, rfl⟩ := Prod.mk.inj heq
    exact hX.string_tail htail
  · obtain ⟨rfl, hTc⟩ := List.cons_prefix_cons.mp hT
    obtain ⟨rfl, hTP⟩ := List.cons_prefix_cons.mp hTc
    rw [List.cons_append, List.cons_append, scanString_escape,
      scanString_append fun x hx => hP x (hTP.subset hx), Option.map_map] at hr
    obtain ⟨r, hscan, heq⟩ := Option.map_eq_some_iff.mp hr
    obtain ⟨-, rfl⟩ := Prod.mk.inj heq
    exact hX.string _ _ hscan

/-- A string that breaks off ends where what follows closes it. -/
theorem scanString_torn (hX : Severs X) : ∀ {s T content rest : Bytes},
    T <+: s.flatMap escapeByte → scanString (T ++ X) = some (content, rest) → Stuck rest
  | [], T, content, rest, hT, hr => by
    obtain rfl := List.prefix_nil.mp hT
    exact hX.string _ _ hr
  | b :: s, T, content, rest, hT, hr => by
    rcases prefix_append_cases hT with ⟨hTb, hne⟩ | ⟨T', rfl, hTs⟩
    · rcases escapeByte_cases b with ⟨hb, -, -⟩ | ⟨c, hb, -⟩ | ⟨hi, lo, hb, -, -, hlo⟩
      · rw [hb] at hTb hne
        have hnil : T = [] ∨ T = [b] := by simpa [List.prefix_cons_iff] using hTb
        obtain rfl := hnil.resolve_right hne
        exact hX.string _ _ hr
      · rw [hb] at hTb
        exact scanString_torn_escape hX (P := []) (by simp) hTb hr
      · rw [hb] at hTb
        exact scanString_torn_escape hX hlo hTb hr
    · rw [List.append_assoc, scanString_escapeByte] at hr
      obtain ⟨r, hscan, heq⟩ := Option.map_eq_some_iff.mp hr
      obtain ⟨-, rfl⟩ := Prod.mk.inj heq
      exact scanString_torn hX hTs hscan

theorem parseString_torn (hX : Severs X) {s v : CStr} {rest : Bytes}
    (hT : T <+: printStringPtr s) (hne : T ≠ printStringPtr s)
    (h : parseString (T ++ X) = some (v, rest)) : Stuck rest := by
  rcases T with _ | ⟨c, T⟩
  · rw [List.nil_append, hX.parseString_eq_none] at h
    contradiction
  obtain ⟨rfl, hTs⟩ := List.cons_prefix_cons.mp hT
  have hbody : T <+: s.val.flatMap escapeByte := by
    rcases List.prefix_concat_iff.mp hTs with rfl | hTs
    · exact absurd rfl hne
    · exact hTs
  rw [List.cons_append, parseString] at h
  obtain ⟨⟨content, rest'⟩, hscan, h⟩ := Option.bind_eq_some_iff.mp h
  obtain ⟨out, -, h⟩ := Option.bind_eq_some_iff.mp h
  obtain ⟨-, rfl⟩ := Prod.mk.inj (Option.some.inj h)
  exact scanString_torn hX hbody hscan

/-- A number that breaks off ends there or, when what is left is none, at one of its bytes. -/
theorem parseNumber_torn (hX : Severs X) {v : Json} {rest : Bytes} (hT : ∀ c ∈ T, isNumberByte c)
    (h : parseNumber (T ++ X) = some (v, rest)) : Stuck rest := by
  rw [parseNumber_append hT hX.not_number] at h
  obtain ⟨⟨d, left⟩, hd, heq⟩ := Option.map_eq_some_iff.mp h
  obtain ⟨-, rfl⟩ := Prod.mk.inj heq
  rcases left with _ | ⟨c, left⟩
  · exact hX.stuck
  · have hc := hT c ((strtod_suffix hd).subset (List.mem_cons_self ..))
    have hplain : ∀ c, isNumberByte c = true → ¬c ≤ 32 ∧ c ≠ 44 ∧ c ≠ 58 ∧ c ≠ 125 := by
      intro c h
      simp only [isNumberByte, isDigitByte, Bool.or_eq_true, Bool.and_eq_true, decide_eq_true_eq,
        beq_iff_eq, UInt8.le_iff_toNat_le, ne_eq, ← UInt8.toNat_inj, UInt8.reduceToNat] at h ⊢
      omega
    obtain ⟨h32, hc⟩ := hplain c hc
    unfold Stuck
    rw [List.cons_append, skipWhitespace_cons h32]
    simpa using hc

end Torn

section Scalars

/-- The text is that of a string or a number: read in front of any byte that does not go on with it,
and stuck behind any part of it that what follows severs. -/
structure ScalarText (text : Bytes) (v : Json) : Prop where
  start : ∃ c ∈ text.head?, ¬c ≤ 32
  reads : ∀ depthLeft X, (∀ c ∈ X.head?, ¬isNumberByte c) →
    parseValue depthLeft (text ++ X) = some (v, X)
  torn : ∀ depthLeft T X, Severs X → T <+: text → T ≠ text → T ≠ [] →
    ∀ w rest, parseValue depthLeft (T ++ X) = some (w, rest) → Stuck rest

theorem scalarText_string (s : CStr) : ScalarText (printStringPtr s) (.string s) where
  start := ⟨34, rfl, by decide⟩
  reads depthLeft X _ := by
    have h := parseString_printStringPtr (X := X) s
    unfold printStringPtr at h ⊢
    rw [List.cons_append, List.cons_append] at h ⊢
    rw [parseValue_string, h]
    rfl
  torn depthLeft T X hX hT hne hnil w rest h := by
    obtain ⟨c, T, rfl⟩ := List.exists_cons_of_ne_nil hnil
    obtain ⟨rfl, -⟩ := List.cons_prefix_cons.mp hT
    rw [List.cons_append, parseValue_string] at h
    obtain ⟨r, hr, heq⟩ := Option.map_eq_some_iff.mp h
    obtain ⟨-, rfl⟩ := Prod.mk.inj heq
    exact parseString_torn hX hT hne hr

theorem decimalInt_head (n : ℤ) : ∃ c s, decimalInt n = c :: s ∧ (c = 45 ∨ isDigitByte c) := by
  unfold decimalInt
  split_ifs
  · exact ⟨45, _, rfl, .inl rfl⟩
  · obtain ⟨c, s, hcs⟩ := List.exists_cons_of_ne_nil (decimal_ne_nil (n := n.natAbs))
    exact ⟨c, s, hcs, .inr (isDigitByte_decimal (n := n.natAbs) (by simp [hcs]))⟩

theorem scalarText_int (n : ℤ) : ScalarText (decimalInt n) (.number (.ofRat n)) where
  start := by
    obtain ⟨c, s, hcs, hc⟩ := decimalInt_head n
    refine ⟨c, by simp [hcs], ?_⟩
    rcases hc with rfl | hc
    · decide
    · simp only [isDigitByte, Bool.and_eq_true, decide_eq_true_eq] at hc
      exact UInt8.not_le.mpr (UInt8.lt_of_lt_of_le (by decide) hc.1)
  reads depthLeft X hX := by
    obtain ⟨c, s, hcs, hc⟩ := decimalInt_head n
    have h := parseNumber_append (fun _ => isNumberByte_decimalInt (n := n)) hX
    rw [strtod_decimalInt] at h
    rw [hcs, List.cons_append] at h ⊢
    rw [parseValue_number hc, h]
    rfl
  torn depthLeft T X hX hT hne hnil w rest h := by
    obtain ⟨c, s, hcs, hc⟩ := decimalInt_head n
    obtain ⟨d, T, rfl⟩ := List.exists_cons_of_ne_nil hnil
    have hbytes : ∀ x ∈ d :: T, isNumberByte x := fun x hx =>
      isNumberByte_decimalInt (hT.subset hx)
    rw [hcs] at hT
    obtain ⟨rfl, -⟩ := List.cons_prefix_cons.mp hT
    rw [List.cons_append, parseValue_number hc] at h
    exact parseNumber_torn hX hbytes h

end Scalars

section Visible

theorem printStringPtr_visible {s : CStr} : ∀ c ∈ printStringPtr s, 31 < c := by
  have hescape : ∀ b, (escapeByte b).all fun c => 31 < c := by
    apply Lib.forall_byte
    decide +kernel
  simp only [List.all_eq_true, decide_eq_true_eq] at hescape
  simp only [printStringPtr, List.mem_append, List.mem_cons, List.mem_flatMap, List.not_mem_nil]
  rintro c ((rfl | ⟨b, -, hb⟩) | rfl | h)
  · decide
  · exact hescape b c hb
  · decide
  · exact h.elim

theorem decimalInt_visible {n : ℤ} : ∀ c ∈ decimalInt n, 31 < c := by
  have hnumber : ∀ c, isNumberByte c = true → 31 < c := by
    intro c h
    simp only [isNumberByte, isDigitByte, Bool.or_eq_true, Bool.and_eq_true, decide_eq_true_eq,
      beq_iff_eq, UInt8.le_iff_toNat_le, UInt8.lt_iff_toNat_lt, ← UInt8.toNat_inj,
      UInt8.reduceToNat] at h ⊢
    omega
  exact fun c hc => hnumber c (isNumberByte_decimalInt hc)

end Visible

section Objects

/-- A member of an object of scalars: what is printed, its text and what is read back. -/
structure Member where
  name : CStr
  item : Json
  text : Bytes
  value : Json
  prints : ∀ depthLeft, printValue depthLeft item = some text
  scalar : ScalarText text value
  visible : ∀ c ∈ text, 31 < c

def Member.print (m : Member) : Bytes := printStringPtr m.name ++ 58 :: m.text

/-- The text of the members, one at least, from behind the brace. -/
def membersText : Member → List Member → Bytes
  | m, [] => m.print ++ [125]
  | m, m' :: ms => m.print ++ 44 :: membersText m' ms

def objectText (m : Member) (ms : List Member) : Bytes := 123 :: membersText m ms

def Member.string (name s : CStr) : Member where
  name := name
  item := .string s
  text := printStringPtr s
  value := .string s
  prints depthLeft := by cases depthLeft <;> rfl
  scalar := scalarText_string s
  visible := printStringPtr_visible

def Member.int (name : CStr) (n : ℤ) : Member where
  name := name
  item := .raw (cStr (decimalInt n))
  text := decimalInt n
  value := .number (.ofRat n)
  prints depthLeft := by
    have hval : (cStr (decimalInt n)).val = decimalInt n :=
      List.takeWhile_eq_self_iff.mpr fun c hc => by
        have := decimalInt_visible c hc
        simp only [ne_eq, decide_not, Bool.not_eq_true', decide_eq_false_iff_not]
        rintro rfl
        exact absurd this (by decide)
    cases depthLeft <;> exact congrArg some hval
  scalar := scalarText_int n
  visible := decimalInt_visible

theorem separated_print : ∀ {ms : List Member} {m : Member},
    separated ((m :: ms).map Member.print) ++ [125] = membersText m ms
  | [], m => by simp [separated, membersText]
  | m' :: ms, m => by
    rw [membersText, ← separated_print]
    simp [separated]

/-- Objects of scalars are printed as such a text. -/
theorem printValue_object {depthLeft : ℕ} {m : Member} {ms : List Member} :
    printValue (depthLeft + 1) (.object ((m :: ms).map fun m => (m.name, m.item)))
      = some (objectText m ms) := by
  have hmembers : ∀ ms : List Member,
      (ms.map fun m => (m.name, m.item)).mapM (fun m => do
        let text ← printValue depthLeft m.2
        some (printStringPtr m.1 ++ 58 :: text)) = some (ms.map Member.print) := by
    intro ms
    induction ms with
    | nil => rfl
    | cons m ms ih =>
      rw [List.map_cons, List.mapM_cons, ih, m.prints]
      rfl
  rw [printValue, hmembers, objectText, ← separated_print]
  rfl

theorem objectText_visible : ∀ {ms : List Member} {m : Member}, ∀ c ∈ objectText m ms, 31 < c := by
  have hmember : ∀ m : Member, ∀ c ∈ m.print, 31 < c := by
    intro m c hc
    rcases List.mem_append.mp hc with hc | hc
    · exact printStringPtr_visible c hc
    · rcases List.mem_cons.mp hc with rfl | hc
      · decide
      · exact m.visible c hc
  have hmembers : ∀ (ms : List Member) (m : Member), ∀ c ∈ membersText m ms, 31 < c := by
    intro ms
    induction ms with
    | nil =>
      intro m c hc
      rcases List.mem_append.mp hc with hc | hc
      · exact hmember m c hc
      · obtain rfl := List.mem_singleton.mp hc
        decide
    | cons m' ms ih =>
      intro m c hc
      rcases List.mem_append.mp hc with hc | hc
      · exact hmember m c hc
      · rcases List.mem_cons.mp hc with rfl | hc
        · decide
        · exact ih m' c hc
  intro ms m c hc
  rcases List.mem_cons.mp hc with rfl | hc
  · decide
  · exact hmembers ms m c hc

section Lap

variable (depthLeft fuel : ℕ)

/-- The loop over the members from behind the value of one. -/
def afterValue (name : CStr) (value : Json) (rest : Bytes) : Option (List (CStr × Json) × Bytes) :=
  match skipWhitespace rest with
  | 44 :: rest =>
    (parseMembers (parseValue depthLeft) fuel rest).map fun r => ((name, value) :: r.1, r.2)
  | 125 :: rest => some ([(name, value)], rest)
  | _ => none

/-- The same from behind the name. -/
def afterName (name : CStr) (rest : Bytes) : Option (List (CStr × Json) × Bytes) :=
  match skipWhitespace rest with
  | 58 :: rest =>
    (parseValue depthLeft (skipWhitespace rest)).bind fun r =>
      afterValue depthLeft fuel name r.1 r.2
  | _ => none

variable {depthLeft fuel} {name : CStr} {value : Json} {m : Member} {input rest X : Bytes}

theorem parseMembers_eq (h : input ≠ []) :
    parseMembers (parseValue depthLeft) (fuel + 1) input
      = (parseString (skipWhitespace input)).bind fun r => afterName depthLeft fuel r.1 r.2 := by
  obtain ⟨c, input, rfl⟩ := List.exists_cons_of_ne_nil h
  unfold afterName afterValue
  simp only [Option.map_eq_bind]
  rfl

theorem Stuck.afterValue (h : Stuck rest) : afterValue depthLeft fuel name value rest = none := by
  unfold CJson.afterValue
  split
  · next heq => exact absurd rfl (h 44 (by simp [heq])).1
  · next heq => exact absurd rfl (h 125 (by simp [heq])).2.2
  · rfl

theorem Stuck.afterName (h : Stuck rest) : afterName depthLeft fuel name rest = none := by
  unfold CJson.afterName
  split
  · next heq => exact absurd rfl (h 58 (by simp [heq])).2.1
  · rfl

theorem parseMembers_name : 
    parseMembers (parseValue depthLeft) (fuel + 1) (printStringPtr name ++ X)
      = afterName depthLeft fuel name X := by
  have hskip : skipWhitespace (printStringPtr name ++ X) = printStringPtr name ++ X :=
    skipWhitespace_append (c := 34) rfl (by decide)
  rw [parseMembers_eq (by simp [printStringPtr]), hskip, parseString_printStringPtr]
  rfl

theorem afterName_value (hX : ∀ c ∈ X.head?, ¬isNumberByte c) :
    afterName depthLeft fuel name (58 :: m.text ++ X)
      = afterValue depthLeft fuel name m.value X := by
  obtain ⟨c, hc, h32⟩ := m.scalar.start
  unfold afterName
  rw [List.cons_append, skipWhitespace_cons (by decide)]
  show (parseValue depthLeft (skipWhitespace (m.text ++ X))).bind _ = _
  rw [skipWhitespace_append hc h32, m.scalar.reads depthLeft X hX]
  rfl

theorem parseMembers_print (hX : ∀ c ∈ X.head?, ¬isNumberByte c) :
    parseMembers (parseValue depthLeft) (fuel + 1) (m.print ++ X)
      = afterValue depthLeft fuel m.name m.value X := by
  unfold Member.print
  rw [List.append_assoc, parseMembers_name, afterName_value hX]

end Lap

variable {depthLeft fuel : ℕ} {m : Member} {ms : List Member} {T X : Bytes}

/-- The printed members are read back. -/
theorem parseMembers_membersText : ∀ {ms : List Member} {m : Member} {fuel : ℕ}, ms.length < fuel →
    parseMembers (parseValue depthLeft) fuel (membersText m ms ++ X)
      = some ((m :: ms).map fun m => (m.name, m.value), X)
  | [], m, fuel + 1, _ => by
    rw [membersText, List.append_assoc, parseMembers_print (by simp; decide)]
    rfl
  | m' :: ms, m, fuel + 1, h => by
    have ih := parseMembers_membersText (m := m') (Nat.lt_of_succ_lt_succ h)
    rw [membersText, List.append_assoc, List.cons_append, parseMembers_print (by simp; decide)]
    show (parseMembers (parseValue depthLeft) fuel (membersText m' ms ++ X)).map _ = _
    rw [ih]
    rfl

/-- A member that breaks off is not read, and what breaks off behind it is left to the loop. -/
theorem parseMembers_torn_print (hX : Severs X) {rest : Bytes} (hT : T <+: m.print ++ rest)
    (hne : T ≠ m.print ++ rest) (hrest : ∀ c ∈ rest.head?, ¬isNumberByte c)
    (hloop : ∀ R, R <+: rest → R ≠ rest →
      afterValue depthLeft fuel m.name m.value (R ++ X) = none) :
    parseMembers (parseValue depthLeft) (fuel + 1) (T ++ X) = none := by
  unfold Member.print at hT hne
  rw [List.append_assoc] at hT hne
  rcases prefix_append_cases hT with ⟨hTn, hTne⟩ | ⟨U, rfl, hU⟩
  · -- within the name
    have hskip : skipWhitespace (T ++ X) = T ++ X := by
      rcases T with _ | ⟨c, T⟩
      · exact hX.skipWhitespace_eq
      · obtain ⟨rfl, -⟩ := List.cons_prefix_cons.mp hTn
        exact skipWhitespace_cons (by decide)
    rw [parseMembers_eq (by simp [hX.ne_nil]), hskip]
    cases h : parseString (T ++ X) with
    | none => rfl
    | some r => exact (parseString_torn hX hTn hTne h).afterName
  rw [List.append_assoc, parseMembers_name]
  rcases U with _ | ⟨c, U⟩
  · exact hX.stuck.afterName
  obtain ⟨rfl, hUr⟩ := List.cons_prefix_cons.mp hU
  rcases prefix_append_cases hUr with ⟨hUt, hUne⟩ | ⟨R, rfl, hR⟩
  · -- within the value
    have hstuck : ∀ v rest, parseValue depthLeft (U ++ X) = some (v, rest) → Stuck rest := by
      rcases U with _ | ⟨c, U⟩
      · exact hX.value depthLeft
      · exact m.scalar.torn depthLeft _ X hX hUt hUne (by simp)
    have hskip : skipWhitespace (U ++ X) = U ++ X := by
      rcases U with _ | ⟨c, U⟩
      · exact hX.skipWhitespace_eq
      · obtain ⟨c', hc', h32⟩ := m.scalar.start
        obtain ⟨Y, hY⟩ := List.head?_eq_some_iff.mp hc'
        rw [hY] at hUt
        obtain ⟨rfl, -⟩ := List.cons_prefix_cons.mp hUt
        exact skipWhitespace_cons h32
    rw [List.cons_append, afterName, skipWhitespace_cons (by decide)]
    show (parseValue depthLeft (skipWhitespace (U ++ X))).bind _ = none
    rw [hskip]
    cases h : parseValue depthLeft (U ++ X) with
    | none => rfl
    | some r => exact (hstuck _ _ h).afterValue
  · have hhead : ∀ c ∈ (R ++ X).head?, ¬isNumberByte c := by
      rcases R with _ | ⟨c, R⟩
      · exact hX.not_number
      · obtain ⟨Y, hY⟩ := hR
        rw [← hY] at hrest
        exact hrest
    rw [← List.cons_append, List.append_assoc, afterName_value hhead]
    refine hloop R hR ?_
    rintro rfl
    exact hne rfl

/-- Members that break off are not read. -/
theorem parseMembers_torn (hX : Severs X) :
    ∀ {ms : List Member} {m : Member} {fuel : ℕ} {T : Bytes},
    T <+: membersText m ms → T ≠ membersText m ms →
    parseMembers (parseValue depthLeft) fuel (T ++ X) = none
  | _, _, 0, _, _, _ => rfl
  | [], m, fuel + 1, T, hT, hne => by
    refine parseMembers_torn_print hX hT hne (by simp; decide) fun R hR hRne => ?_
    have hnil : R = [] ∨ R = [125] := by simpa [List.prefix_cons_iff] using hR
    obtain rfl := hnil.resolve_right hRne
    exact hX.stuck.afterValue
  | m' :: ms, m, fuel + 1, T, hT, hne => by
    refine parseMembers_torn_print hX hT hne (by simp; decide) fun R hR hRne => ?_
    rcases R with _ | ⟨c, R⟩
    · exact hX.stuck.afterValue
    · obtain ⟨rfl, hRm⟩ := List.cons_prefix_cons.mp hR
      rw [List.cons_append, afterValue, skipWhitespace_cons (by decide)]
      show (parseMembers (parseValue depthLeft) fuel (R ++ X)).map _ = none
      rw [parseMembers_torn hX hRm (by rintro rfl; exact hRne rfl)]
      rfl

theorem membersText_head (m : Member) (ms : List Member) : (membersText m ms).head? = some 34 := by
  cases ms <;> rfl

theorem length_lt_membersText :
    ∀ {ms : List Member} {m : Member}, ms.length < (membersText m ms).length
  | [], m => by simp [membersText]
  | m' :: ms, m => by
    have ih : ms.length < (membersText m' ms).length := length_lt_membersText
    simp only [membersText, List.length_append, List.length_cons]
    omega

theorem parseObject_eq {input : Bytes} (hskip : skipWhitespace input = input) (hne : input ≠ [])
    (h125 : input.head? ≠ some 125) :
    parseObject (parseValue depthLeft) (123 :: input)
      = (parseMembers (parseValue depthLeft) input.length input).map fun r =>
        (.object r.1, r.2) := by
  simp only [parseObject, hskip]
  split
  · contradiction
  · exact absurd rfl h125
  · rfl

/-- The text of an object is read back in front of anything. -/
theorem parseValue_objectText :
    parseValue (depthLeft + 1) (objectText m ms ++ X)
      = some (.object ((m :: ms).map fun m => (m.name, m.value)), X) := by
  have hhead : (membersText m ms ++ X).head? = some 34 := by
    simp [List.head?_append, membersText_head]
  have hfuel : ms.length < (membersText m ms ++ X).length := by
    rw [List.length_append]
    exact Nat.lt_add_right _ length_lt_membersText
  unfold objectText
  rw [List.cons_append, parseValue_object, parseObject_eq
    (skipWhitespace_append (membersText_head m ms) (by decide)) (by rintro h; simp [h] at hhead)
    (by simp [hhead]), parseMembers_membersText hfuel]
  rfl

/-- An object that breaks off is no value. -/
theorem parseValue_torn (hX : Severs X) (hT : T <+: objectText m ms) (hne : T ≠ objectText m ms)
    (hnil : T ≠ []) : parseValue depthLeft (T ++ X) = none := by
  obtain ⟨c, T, rfl⟩ := List.exists_cons_of_ne_nil hnil
  obtain ⟨rfl, hTm⟩ := List.cons_prefix_cons.mp hT
  have hTne : T ≠ membersText m ms := by
    rintro rfl
    exact hne rfl
  rw [List.cons_append]
  rcases depthLeft with _ | depthLeft
  · exact parseValue_zero_object
  have hskip : skipWhitespace (T ++ X) = T ++ X ∧ (T ++ X).head? ≠ some 125 := by
    rcases T with _ | ⟨c, T⟩
    · refine ⟨hX.skipWhitespace_eq, ?_⟩
      rcases hX.head with rfl | ⟨Y, rfl⟩ <;> simp
    · obtain ⟨Y, hY⟩ := List.head?_eq_some_iff.mp (membersText_head m ms)
      obtain ⟨rfl, -⟩ := List.cons_prefix_cons.mp (hY ▸ hTm)
      exact ⟨skipWhitespace_cons (by decide), by simp⟩
  rw [parseValue_object, parseObject_eq hskip.1 (by simp [hX.ne_nil]) hskip.2,
    parseMembers_torn hX hTm hTne]
  rfl

theorem severs_nul : Severs [0] where
  head := .inl rfl
  string content rest h := by simp [scanString] at h
  value depthLeft v rest h := by simp [parseValue_nul] at h

/-- An object, or a part of one, severs as what follows it does, when the name of its first member
does not start with a byte an object goes on with. -/
theorem Severs.append (hX : Severs X) (hT : T <+: objectText m ms) (hnil : T ≠ []) {c : UInt8}
    {Y : Bytes} (hname : printStringPtr m.name = 34 :: c :: Y) (h32 : ¬c ≤ 32)
    (hc : c ≠ 44 ∧ c ≠ 58 ∧ c ≠ 125) : Severs (T ++ X) := by
  obtain ⟨U, hU⟩ : ∃ U, membersText m ms = 34 :: c :: U := by
    cases ms <;> exact ⟨_, by rw [membersText, Member.print, hname]; rfl⟩
  obtain ⟨d, T, rfl⟩ := List.exists_cons_of_ne_nil hnil
  have hT' := hT
  unfold objectText at hT'
  rw [hU] at hT'
  obtain ⟨rfl, hTm⟩ := List.cons_prefix_cons.mp hT'
  refine ⟨.inr ⟨T ++ X, rfl⟩, fun content rest h => ?_, fun depthLeft v rest h => ?_⟩
  · rw [List.cons_append, scanString_cons (by decide) (by decide)] at h
    obtain ⟨r, hr, heq⟩ := Option.map_eq_some_iff.mp h
    obtain ⟨-, rfl⟩ := Prod.mk.inj heq
    rcases T with _ | ⟨x, _ | ⟨y, T⟩⟩
    · exact hX.string _ _ hr
    · obtain ⟨rfl, -⟩ := List.cons_prefix_cons.mp hTm
      obtain rfl := Option.some.inj hr
      exact hX.stuck
    · obtain ⟨rfl, hTc⟩ := List.cons_prefix_cons.mp hTm
      obtain ⟨rfl, -⟩ := List.cons_prefix_cons.mp hTc
      obtain rfl := Option.some.inj hr
      show ∀ x ∈ (skipWhitespace (y :: (T ++ X))).head?, _
      rw [skipWhitespace_cons h32]
      simpa using hc
  · by_cases hne : 123 :: T = objectText m ms
    · rw [hne] at h
      rcases depthLeft with _ | depthLeft
      · rw [objectText, List.cons_append, parseValue_zero_object] at h
        contradiction
      · rw [parseValue_objectText] at h
        obtain ⟨-, rfl⟩ := Prod.mk.inj (Option.some.inj h)
        exact hX.stuck
    · rw [parseValue_torn hX hT hne hnil] at h
      contradiction

end Objects

end CJson

end BonsaiChain
