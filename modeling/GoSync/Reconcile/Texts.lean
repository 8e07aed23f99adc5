import GoSync.Reconcile.Digest
import Mathlib.Data.List.Infix

/-!
# Texts of exact values

How the source engines and the target print timestamps, identifiers and byte strings, and what `normalize`
makes of the two texts of a value. Timestamps differ in the zeros at the end of a fraction, identifiers in
the case of their letters; neither is evened out.
-/

namespace GoSync.Reconcile

section TypeNames

variable {rt : Runtime} {typeName value : String}

def typeText (typeName : String) : List Char :=
  (trimSpace typeName).map lowerChar

def Unforced (type : List Char) : Prop :=
  isBinary type = false ∧ type ∉ ["boolean", "bool", "bit", "json", "jsonb"].map String.toList
    ∧ "decimal".toList.isPrefixOf type = false ∧ "numeric".toList.isPrefixOf type = false

instance (type : List Char) : Decidable (Unforced type) :=
  inferInstanceAs (Decidable (_ ∧ _))

/-- A type without a rule of its own is only normalized as a time. -/
theorem normalize_unforced (h : Unforced (typeText typeName)) :
    normalize rt typeName value = normalizeTime (typeText typeName) value := by
  obtain ⟨hbinary, hnames, hdecimal, hnumeric⟩ := h
  simp only [List.map_cons, List.map_nil, List.mem_cons, List.not_mem_nil, or_false, not_or] at hnames
  obtain ⟨hboolean, hbool, hbit, hjson, hjsonb⟩ := hnames
  change (normalizeBinary (typeText typeName) value <|> normalizeBool (typeText typeName) value
    <|> normalizeDecimal rt (typeText typeName) value
    <|> normalizeJson rt (typeText typeName) value).getD _ = _
  have hforms : normalizeBinary (typeText typeName) value = none
      ∧ normalizeBool (typeText typeName) value = none
      ∧ normalizeDecimal rt (typeText typeName) value = none
      ∧ normalizeJson rt (typeText typeName) value = none := by
    refine ⟨?_, ?_, ?_, ?_⟩
    · rw [normalizeBinary, hbinary]
      rfl
    · rw [normalizeBool, if_neg]
      simp only [List.map_cons, List.map_nil, List.mem_cons, List.not_mem_nil, or_false, not_or]
      exact ⟨hboolean, hbool, hbit⟩
    · rw [normalizeDecimal, hdecimal, hnumeric]
      rfl
    · rw [normalizeJson, if_neg]
      simp only [List.map_cons, List.map_nil, List.mem_cons, List.not_mem_nil, or_false, not_or]
      exact ⟨hjson, hjsonb⟩
  rw [hforms.1, hforms.2.1, hforms.2.2.1, hforms.2.2.2]
  rfl

def Timed (type : List Char) : Prop :=
  contains "datetime" type = true ∨ "timestamp".toList.isPrefixOf type = true

instance (type : List Char) : Decidable (Timed type) :=
  inferInstanceAs (Decidable (_ ∨ _))

theorem normalize_timed (hplain : Unforced (typeText typeName)) (h : Timed (typeText typeName)) :
    normalize rt typeName value = String.ofList (replaceFirst 'T' ' ' value.toList) := by
  rw [normalize_unforced hplain, normalizeTime]
  exact if_pos h

theorem normalize_other (hplain : Unforced (typeText typeName)) (h : ¬Timed (typeText typeName)) :
    normalize rt typeName value = value := by
  rw [normalize_unforced hplain, normalizeTime]
  exact if_neg h

theorem replaceFirst_eq_self {old new : Char} {text : List Char} (h : old ∉ text) :
    replaceFirst old new text = text := by
  induction text with
  | nil => rfl
  | cons c rest ih =>
      rw [List.mem_cons, not_or] at h
      rw [replaceFirst, if_neg (Ne.symm h.1), ih h.2]

theorem replaceFirst_append {old new : Char} {front : List Char} (h : old ∉ front) (back : List Char) :
    replaceFirst old new (front ++ old :: back) = front ++ new :: back := by
  induction front with
  | nil => exact if_pos rfl
  | cons c rest ih =>
      rw [List.mem_cons, not_or] at h
      rw [List.cons_append, replaceFirst, if_neg (Ne.symm h.1), ih h.2, List.cons_append]

theorem contains_append (part : String) (front back : List Char) :
    contains part (front ++ part.toList ++ back) = true := by
  rw [contains, List.any_eq_true]
  refine ⟨part.toList ++ back, ?_, ?_⟩
  · rw [List.mem_tails]
    exact ⟨front, (List.append_assoc _ _ _).symm⟩
  · rw [List.isPrefixOf_iff_prefix]
    exact List.prefix_append _ _

theorem trimSpace_eq {text : String} {first last : Char} {middle : List Char}
    (htext : text.toList = first :: (middle ++ [last])) (hfirst : isSpace first = false)
    (hlast : isSpace last = false) : trimSpace text = text.toList := by
  rw [trimSpace, htext, List.dropWhile_cons_of_neg (by simp [hfirst]), List.reverse_cons,
    List.reverse_append, List.reverse_singleton, List.singleton_append, List.cons_append,
    List.dropWhile_cons_of_neg (by simp [hlast])]
  simp

theorem isBinary_sized (front : String) (hfront : front = "" ∨ front = "var") (length : String) :
    isBinary (typeText (front ++ "binary(" ++ length ++ ")")) = true := by
  obtain ⟨first, rest, hfirst, hspace⟩ : ∃ first rest, (front ++ "binary(").toList = first :: rest
      ∧ isSpace first = false := by
    rcases hfront with rfl | rfl
    · exact ⟨'b', "inary(".toList, rfl, by decide⟩
    · exact ⟨'v', "arbinary(".toList, rfl, by decide⟩
  have htext : (front ++ "binary(" ++ length ++ ")").toList = first :: (rest ++ length.toList ++ [')']) := by
    rw [String.toList_append, String.toList_append, hfirst]
    rfl
  have hlower : front.toList.map lowerChar = front.toList := by
    rcases hfront with rfl | rfl <;> decide
  have hbinary : "binary(".toList.map lowerChar = "binary".toList ++ ['('] := by decide
  have hparts : typeText (front ++ "binary(" ++ length ++ ")")
      = front.toList ++ "binary".toList ++ (['('] ++ length.toList.map lowerChar ++ [')']) := by
    rw [typeText, trimSpace_eq htext hspace (by decide)]
    simp only [String.toList_append, List.map_append, hlower, hbinary, List.append_assoc]
    rfl
  rw [isBinary, hparts, contains_append]
  simp

end TypeNames

section Bytes

variable {rt : Runtime} {typeName : String}

theorem normalize_hex (hbinary : isBinary (typeText typeName) = true) {text digits : String}
    {raw : List UInt8} (hdigits : hexDigits text = digits) (hraw : hexDecode digits = some raw) :
    normalize rt typeName text = "hex:" ++ hexEncode raw := by
  change (normalizeBinary (typeText typeName) text <|> _).getD _ = _
  rw [normalizeBinary, if_pos hbinary, hdigits, hraw]
  rfl

/-- All texts of a binary value become one. -/
theorem normalize_bytes (hbinary : isBinary (typeText typeName) = true) (raw : List UInt8) :
    normalize rt typeName ("0x" ++ hexEncode raw) = "hex:" ++ hexEncode raw
      ∧ normalize rt typeName ("0x" ++ hexUpper raw) = "hex:" ++ hexEncode raw
      ∧ normalize rt typeName ("\\x" ++ hexEncode raw) = "hex:" ++ hexEncode raw := by
  have hmarked : ∀ text : String, hexDigits ("0x" ++ text) = text
      ∧ hexDigits ("\\x" ++ text) = text := by
    intro text
    constructor
    · rw [hexDigits, if_pos]
      · rw [String.toList_append]
        exact String.ofList_toList
      · right
        rw [lower, String.toList_append, List.map_append, List.isPrefixOf_iff_prefix]
        exact List.prefix_append _ _
    · rw [hexDigits, if_pos]
      · rw [String.toList_append]
        exact String.ofList_toList
      · left
        rw [String.toList_append, List.isPrefixOf_iff_prefix]
        exact List.prefix_append _ _
  exact ⟨normalize_hex hbinary (hmarked _).1 (hexDecode_hexEncode raw),
    normalize_hex hbinary (hmarked _).1 (hexDecode_hexUpper raw),
    normalize_hex hbinary (hmarked _).2 (hexDecode_hexEncode raw)⟩

end Bytes

section Moments

structure Date where
  year : Nat
  month : Nat
  day : Nat
  deriving DecidableEq, Repr

structure Moment (scale : Nat) where
  date : Date
  hour : Nat
  minute : Nat
  second : Nat
  fraction : Fin (10 ^ scale)
  deriving DecidableEq, Repr

def Date.text (d : Date) : List Char :=
  decimal 4 d.year ++ '-' :: decimal 2 d.month ++ '-' :: decimal 2 d.day

variable {scale : Nat}

def Moment.seconds (separator : Char) (m : Moment scale) : List Char :=
  m.date.text ++ separator :: (decimal 2 m.hour ++ ':' :: decimal 2 m.minute ++ ':' :: decimal 2 m.second)

def fullFraction (scale fraction : Nat) : List Char :=
  if scale = 0 then [] else '.' :: decimal scale fraction

def stripZeros (digits : List Char) : List Char :=
  (digits.reverse.dropWhile (· = '0')).reverse

def shortFraction (micros : Nat) : List Char :=
  if stripZeros (decimal 6 micros) = [] then [] else '.' :: stripZeros (decimal 6 micros)

def Moment.sourceText (separator : Char) (m : Moment scale) : String :=
  String.ofList (m.seconds separator ++ fullFraction scale m.fraction.val)

def Moment.storedText (m : Moment 6) : String :=
  String.ofList (m.seconds ' ' ++ shortFraction m.fraction.val)

def Moment.store (round : (scale : Nat) → Moment scale → Moment 6) (m : Moment scale) : Moment 6 :=
  if h : scale ≤ 6 then
    { m with
      fraction := ⟨m.fraction.val * 10 ^ (6 - scale), by
        have hlt := Nat.mul_lt_mul_of_pos_right m.fraction.isLt (Nat.pow_pos (n := 6 - scale) (by decide : 0 < 10))
        rwa [← Nat.pow_add, Nat.add_sub_cancel' h] at hlt⟩ }
  else
    round scale m

/-- The timestamps whose text has no zero at the end of its fraction and no more digits than the target
keeps. -/
def Moment.Short (m : Moment scale) : Prop :=
  scale = 0 ∨ scale ≤ 6 ∧ m.fraction.val % 10 ≠ 0

instance (m : Moment scale) : Decidable m.Short :=
  inferInstanceAs (Decidable (_ ∨ _))

theorem length_decimal (width value : Nat) : (decimal width value).length = width := by
  induction width generalizing value with
  | zero => rfl
  | succ width ih => rw [decimal, List.length_append, ih, List.length_singleton]

theorem Moment.length_seconds (separator : Char) (m : Moment scale) : (m.seconds separator).length = 19 := by
  simp [Moment.seconds, Date.text, length_decimal]

theorem not_mem_decimal {c : Char} (hc : c.isDigit = false) (width value : Nat) :
    c ∉ decimal width value := by
  intro hmem
  have hdigit := List.all_eq_true.mp (decimal_digits width value) c hmem
  rw [hc] at hdigit
  cases hdigit

theorem T_not_mem_date (d : Date) : 'T' ∉ d.text := by
  have hdigits : ∀ width value, 'T' ∉ decimal width value := not_mem_decimal (by decide)
  simp [Date.text, hdigits]

theorem T_not_mem_clock (m : Moment scale) :
    'T' ∉ decimal 2 m.hour ++ ':' :: decimal 2 m.minute ++ ':' :: decimal 2 m.second := by
  have hdigits : ∀ width value, 'T' ∉ decimal width value := not_mem_decimal (by decide)
  simp [hdigits]

theorem mem_stripZeros {digits : List Char} {c : Char} (h : c ∈ stripZeros digits) : c ∈ digits := by
  rw [stripZeros, List.mem_reverse] at h
  exact List.mem_reverse.mp ((List.dropWhile_sublist _).subset h)

theorem T_not_mem_fractions (scale fraction micros : Nat) :
    'T' ∉ fullFraction scale fraction ∧ 'T' ∉ shortFraction micros := by
  have hdigits : ∀ width value, 'T' ∉ decimal width value := not_mem_decimal (by decide)
  constructor
  · rw [fullFraction]
    split_ifs
    · exact List.not_mem_nil
    · simp [hdigits]
  · rw [shortFraction]
    split_ifs
    · exact List.not_mem_nil
    · intro hmem
      rcases List.mem_cons.mp hmem with heq | hmem
      · exact absurd heq (by decide)
      · exact hdigits _ _ (mem_stripZeros hmem)

theorem T_not_mem_spaced (m : Moment scale) {fraction : List Char} (hfraction : 'T' ∉ fraction) :
    'T' ∉ m.seconds ' ' ++ fraction := by
  rw [Moment.seconds, List.append_assoc, List.cons_append, List.mem_append, List.mem_cons, List.mem_append]
  rintro (hmem | heq | hmem | hmem)
  · exact T_not_mem_date m.date hmem
  · exact absurd heq (by decide)
  · exact T_not_mem_clock m hmem
  · exact hfraction hmem

variable {separator : Char}

section Normal

variable {rt : Runtime} {typeName : String} (hplain : Unforced (typeText typeName))
  (htimed : Timed (typeText typeName))
include hplain htimed

theorem normalize_sourceText (hseparator : separator = 'T' ∨ separator = ' ') (m : Moment scale) :
    normalize rt typeName (m.sourceText separator)
      = String.ofList (m.seconds ' ' ++ fullFraction scale m.fraction.val) := by
  rw [normalize_timed hplain htimed, Moment.sourceText, String.toList_ofList]
  apply congrArg String.ofList
  rcases hseparator with rfl | rfl
  · rw [Moment.seconds, Moment.seconds, List.append_assoc, List.append_assoc, List.cons_append,
      List.cons_append]
    exact replaceFirst_append (T_not_mem_date m.date) _
  · exact replaceFirst_eq_self (T_not_mem_spaced m (T_not_mem_fractions scale m.fraction.val 0).1)

theorem normalize_storedText (m : Moment 6) : normalize rt typeName m.storedText = m.storedText := by
  rw [normalize_timed hplain htimed, Moment.storedText, String.toList_ofList]
  exact congrArg String.ofList
    (replaceFirst_eq_self (T_not_mem_spaced m (T_not_mem_fractions 0 0 m.fraction.val).2))

end Normal

theorem stripZeros_append_zeros (digits : List Char) (count : Nat) :
    stripZeros (digits ++ List.replicate count '0') = stripZeros digits := by
  rw [stripZeros, List.reverse_append, List.reverse_replicate]
  induction count with
  | zero => rfl
  | succ count ih =>
      rw [List.replicate_succ, List.cons_append, List.dropWhile_cons_of_pos (by decide)]
      exact ih

theorem stripZeros_snoc {digit : Char} (h : digit ≠ '0') (digits : List Char) :
    stripZeros (digits ++ [digit]) = digits ++ [digit] := by
  rw [stripZeros, List.reverse_append, List.reverse_singleton, List.singleton_append,
    List.dropWhile_cons_of_neg (by simpa using h), List.reverse_cons, List.reverse_reverse]

theorem stripZeros_ne_snoc_zero (digits rest : List Char) : stripZeros digits ≠ rest ++ ['0'] := by
  induction digits using List.reverseRecOn with
  | nil => exact fun h => List.append_ne_nil_of_right_ne_nil rest (List.cons_ne_nil _ _) h.symm
  | append_singleton digits digit ih =>
      by_cases hzero : digit = '0'
      · have hstrip := stripZeros_append_zeros digits 1
        rw [hzero]
        intro h
        exact ih (hstrip.symm.trans h)
      · rw [stripZeros_snoc hzero]
        intro h
        exact hzero (List.append_inj_right' h rfl |> List.singleton_inj.mp)

theorem length_stripZeros_le (digits : List Char) : (stripZeros digits).length ≤ digits.length := by
  have hle : (digits.reverse.dropWhile (· = '0')).length ≤ digits.reverse.length :=
    (List.dropWhile_sublist _).length_le
  rw [List.length_reverse] at hle
  rwa [stripZeros, List.length_reverse]

theorem decimal_mul_pow (width value count : Nat) :
    decimal (width + count) (value * 10 ^ count) = decimal width value ++ List.replicate count '0' := by
  induction count with
  | zero => rw [Nat.pow_zero, Nat.mul_one, List.replicate_zero, List.append_nil, Nat.add_zero]
  | succ count ih =>
      have hdiv : value * 10 ^ (count + 1) / 10 = value * 10 ^ count := by
        rw [Nat.pow_succ, ← Nat.mul_assoc, Nat.mul_div_cancel _ (by decide)]
      have hmod : value * 10 ^ (count + 1) % 10 = 0 := by
        rw [Nat.pow_succ, ← Nat.mul_assoc, Nat.mul_mod_left]
      rw [← Nat.add_assoc, decimal, hdiv, hmod, ih, List.replicate_succ', List.append_assoc]
      rfl

theorem digitChar_ne_zero : ∀ digit < 10, digit ≠ 0 → Char.ofNat ('0'.toNat + digit) ≠ '0' := by
  decide

theorem short_of_fraction_eq {scale fraction micros : Nat}
    (h : fullFraction scale fraction = shortFraction micros) : scale = 0 ∨ scale ≤ 6 ∧ fraction % 10 ≠ 0 := by
  cases scale with
  | zero => exact .inl rfl
  | succ scale =>
      rw [fullFraction, if_neg (Nat.succ_ne_zero scale), shortFraction] at h
      split_ifs at h with hempty
      · have hdigits : decimal (scale + 1) fraction = stripZeros (decimal 6 micros) := (List.cons.inj h).2
        have hlength := length_stripZeros_le (decimal 6 micros)
        rw [← hdigits, length_decimal, length_decimal] at hlength
        refine .inr ⟨hlength, ?_⟩
        intro hzero
        rw [decimal, hzero] at hdigits
        exact stripZeros_ne_snoc_zero _ _ hdigits.symm

theorem fraction_eq_of_short {scale fraction : Nat} (h : scale = 0 ∨ scale ≤ 6 ∧ fraction % 10 ≠ 0)
    (hlt : fraction < 10 ^ scale) :
    fullFraction scale fraction = shortFraction (fraction * 10 ^ (6 - scale)) := by
  rcases h with rfl | ⟨hscale, hdigit⟩
  · obtain rfl : fraction = 0 := Nat.lt_one_iff.mp hlt
    decide
  · obtain _ | scale := scale
    · rw [Nat.lt_one_iff.mp hlt] at hdigit
      exact absurd rfl hdigit
    have hsplit : decimal 6 (fraction * 10 ^ (6 - (scale + 1)))
        = decimal (scale + 1) fraction ++ List.replicate (6 - (scale + 1)) '0' := by
      have hpadded := decimal_mul_pow (scale + 1) fraction (6 - (scale + 1))
      rwa [Nat.add_sub_cancel' hscale] at hpadded
    have hstrip : stripZeros (decimal 6 (fraction * 10 ^ (6 - (scale + 1))))
        = decimal (scale + 1) fraction := by
      rw [hsplit, stripZeros_append_zeros, decimal]
      exact stripZeros_snoc (digitChar_ne_zero _ (Nat.mod_lt _ (by decide)) hdigit) _
    rw [fullFraction, if_neg (Nat.succ_ne_zero scale), shortFraction, hstrip, if_neg]
    rw [decimal]
    exact List.append_ne_nil_of_right_ne_nil _ (List.cons_ne_nil _ _)

variable {rt : Runtime} {typeName : String} {round : (scale : Nat) → Moment scale → Moment 6}

theorem Moment.short_of_normalize_eq (hplain : Unforced (typeText typeName))
    (htimed : Timed (typeText typeName)) (hseparator : separator = 'T' ∨ separator = ' ')
    {m : Moment scale} {stored : Moment 6}
    (h : normalize rt typeName (m.sourceText separator) = normalize rt typeName stored.storedText) :
    m.Short := by
  rw [normalize_sourceText hplain htimed hseparator, normalize_storedText hplain htimed,
    Moment.storedText, String.ofList_inj] at h
  have hlength : (m.seconds ' ').length = (stored.seconds ' ').length := by
    rw [Moment.length_seconds, Moment.length_seconds]
  exact short_of_fraction_eq (List.append_inj_right h hlength)

theorem Moment.normalize_eq_of_short (hplain : Unforced (typeText typeName))
    (htimed : Timed (typeText typeName)) (hseparator : separator = 'T' ∨ separator = ' ')
    {m : Moment scale} (h : m.Short) :
    normalize rt typeName (m.sourceText separator) = normalize rt typeName (m.store round).storedText := by
  have hscale : scale ≤ 6 := by
    rcases h with hzero | ⟨hscale, -⟩
    · exact hzero.trans_le (Nat.zero_le 6)
    · exact hscale
  rw [normalize_sourceText hplain htimed hseparator, normalize_storedText hplain htimed,
    Moment.storedText, Moment.store, dif_pos hscale, fraction_eq_of_short h m.fraction.isLt]
  rfl

end Moments

section Identifiers

structure Identifier where
  digits : List (Fin 16)
  length_digits : digits.length = 32
  deriving DecidableEq, Repr

def hyphenate : List Nat → List Char → List Char
  | [], text => text
  | size :: sizes, text => text.take size ++ '-' :: hyphenate sizes (text.drop size)

def Identifier.text (identifier : Identifier) : List Char :=
  hyphenate [8, 4, 4, 4] (identifier.digits.map fun digit => hexDigitChar digit.val)

def Identifier.storedText (identifier : Identifier) : String :=
  String.ofList identifier.text

def Identifier.sourceText (identifier : Identifier) : String :=
  String.ofList (identifier.text.map upperChar)

def Identifier.Letterless (identifier : Identifier) : Prop :=
  ∀ digit ∈ identifier.digits, digit.val < 10

instance (identifier : Identifier) : Decidable identifier.Letterless :=
  inferInstanceAs (Decidable (∀ _ ∈ _, _))

theorem mem_hyphenate {sizes : List Nat} {text : List Char} {c : Char} :
    (c ∈ text → c ∈ hyphenate sizes text) ∧ (c ∈ hyphenate sizes text → c = '-' ∨ c ∈ text) := by
  induction sizes generalizing text with
  | nil => exact ⟨id, .inr⟩
  | cons size sizes ih =>
      constructor
      · intro hmem
        rw [← List.take_append_drop size text, List.mem_append] at hmem
        rw [hyphenate, List.mem_append, List.mem_cons]
        rcases hmem with hmem | hmem
        · exact .inl hmem
        · exact .inr (.inr (ih.1 hmem))
      · rw [hyphenate, List.mem_append, List.mem_cons]
        rintro (hmem | heq | hmem)
        · exact .inr (List.mem_of_mem_take hmem)
        · exact .inl heq
        · rcases ih.2 hmem with heq | hmem
          · exact .inl heq
          · exact .inr (List.mem_of_mem_drop hmem)

theorem upperChar_hexDigitChar : ∀ digit < 16,
    (digit < 10 → upperChar (hexDigitChar digit) = hexDigitChar digit)
      ∧ (10 ≤ digit → upperChar (hexDigitChar digit) ≠ '-'
        ∧ ∀ other < 16, upperChar (hexDigitChar digit) ≠ hexDigitChar other) := by
  decide

theorem Identifier.letterless_of_text_eq {identifier stored : Identifier}
    (h : identifier.sourceText = stored.storedText) : identifier.Letterless := by
  have h : identifier.text.map upperChar = stored.text := String.ofList_inj.mp h
  intro digit hdigit
  by_contra hletter
  obtain ⟨hhyphen, hother⟩ := (upperChar_hexDigitChar digit.val digit.isLt).2 (Nat.le_of_not_lt hletter)
  have hmem : hexDigitChar digit.val ∈ identifier.text := mem_hyphenate.1 (List.mem_map_of_mem hdigit)
  have hstored : upperChar (hexDigitChar digit.val) ∈ stored.text := h ▸ List.mem_map_of_mem hmem
  rcases mem_hyphenate.2 hstored with heq | hmem
  · exact hhyphen heq
  · obtain ⟨other, -, heq⟩ := List.mem_map.mp hmem
    exact hother other.val other.isLt heq.symm

theorem Identifier.text_eq_of_letterless {identifier : Identifier} (h : identifier.Letterless) :
    identifier.sourceText = identifier.storedText := by
  apply congrArg String.ofList
  refine (List.map_congr_left ?_).trans (List.map_id _)
  intro c hc
  rcases mem_hyphenate.2 hc with rfl | hmem
  · decide
  · obtain ⟨digit, hdigit, rfl⟩ := List.mem_map.mp hmem
    exact (upperChar_hexDigitChar digit.val digit.isLt).1 (h digit hdigit)

end Identifiers

end GoSync.Reconcile
