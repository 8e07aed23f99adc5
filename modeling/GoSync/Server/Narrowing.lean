import GoSync.Server.ColumnType
import GoSync.SourceTypes
import Mathlib.Algebra.Order.Ring.Int
import Mathlib.Tactic.NormNum
import Mathlib.Tactic.Positivity

/-!
# Values of automatic columns

The types a source catalog can report for numbers and texts, the values a column of such a type can hold,
and the values that the type of an automatic target column can represent. A description is the text that
the catalog reports; the mapping sees nothing else.
-/

namespace GoSync

namespace Server.Narrowing

/-- A character, or half of a surrogate pair without the other one. -/
inductive Symbol where
  | char (c : Char)
  | surrogate (unit : Fin 2048)
  deriving DecidableEq, Repr

inductive Value where
  | integer (value : Int)
  /-- `unscaled / 10 ^ scale`. -/
  | decimal (unscaled : Int) (scale : Nat)
  | text (symbols : List Symbol)
  deriving DecidableEq, Repr

def Symbol.size : Symbol → Nat
  | .char c => c.utf8Size
  | .surrogate _ => 0

/-- What a PostgreSQL text can be: characters other than `NUL`, in at most one gigabyte with its header. -/
def Storable (symbols : List Symbol) : Prop :=
  (∀ symbol ∈ symbols, ∃ c, symbol = .char c ∧ c ≠ '\x00')
    ∧ (symbols.map Symbol.size).sum ≤ 1073741819

inductive PgType where
  | smallint
  | integer
  | bigint
  | boolean
  | numeric (precision scale : Nat)
  | character (length : Nat)
  | varying (length : Nat)
  | text
  | bytea
  | date
  | timestamp
  | uuid
  deriving DecidableEq, Repr

def PgType.name : PgType → String
  | .smallint => "smallint"
  | .integer => "integer"
  | .bigint => "bigint"
  | .boolean => "boolean"
  | .numeric precision scale => s!"numeric({precision},{scale})"
  | .character length => s!"character({length})"
  | .varying length => s!"character varying({length})"
  | .text => "text"
  | .bytea => "bytea"
  | .date => "date"
  | .timestamp => "timestamp without time zone"
  | .uuid => "uuid"

def Signed (bits : Nat) (value : Int) : Prop :=
  -2 ^ (bits - 1) ≤ value ∧ value < 2 ^ (bits - 1)

def Unsigned (bits : Nat) (value : Int) : Prop :=
  0 ≤ value ∧ value < 2 ^ bits

/-- A value is kept without loss. A `character(n)` does not keep spaces at the end. -/
def PgType.Represents : PgType → Value → Prop
  | .smallint, .integer value => Signed 16 value
  | .integer, .integer value => Signed 32 value
  | .bigint, .integer value => Signed 64 value
  | .boolean, .integer value => value = 0 ∨ value = 1
  | .numeric precision scale, .decimal unscaled places =>
      places ≤ scale ∧ unscaled.natAbs * 10 ^ (scale - places) < 10 ^ precision
  | .character length, .text symbols =>
      Storable symbols ∧ symbols.length ≤ length ∧ symbols.getLast? ≠ some (.char ' ')
  | .varying length, .text symbols => Storable symbols ∧ symbols.length ≤ length
  | .text, .text symbols => Storable symbols
  | _, _ => False

def Fits (precision scale : Nat) (unsigned : Bool) : Value → Prop
  | .decimal unscaled places =>
      places = scale ∧ unscaled.natAbs < 10 ^ precision ∧ (unsigned = true → 0 ≤ unscaled)
  | _ => False

def Characters (limit : Nat) (symbols : List Symbol) : Prop :=
  symbols.length ≤ limit ∧ ∀ symbol ∈ symbols, ∃ c, symbol = .char c

end Server.Narrowing

namespace MySql.ColumnType

open Server Server.Narrowing

def Describes (type : ColumnType) (column : SchemaColumn) : Prop :=
  lower column.type = type.dataType.toList
    ∧ (lower column.columnType = type.typeName.toList
      ∨ lower column.columnType = type.typeName.toList ++ " zerofill".toList)

/-- The values of a column, if it is one of numbers or texts. A `CHAR` is read without spaces at its end. -/
def Holds : ColumnType → Narrowing.Value → Prop
  | .integer name _ unsigned, .integer value =>
      if unsigned then Unsigned name.bits value else Signed name.bits value
  | .decimal _ precision scale unsigned, value => Narrowing.Fits precision scale unsigned value
  | .char length, .text symbols => Characters length symbols ∧ symbols.getLast? ≠ some (.char ' ')
  | .varchar length, .text symbols => Characters length symbols
  | .text size, .text symbols => Characters size.bytes symbols
  | _, _ => False

def target : ColumnType → PgType
  | .integer .tinyint _ _ | .integer .smallint _ _ => .smallint
  | .integer .bigint _ _ => .bigint
  | .integer .. => .integer
  | .decimal _ precision scale _ => .numeric precision scale
  | .char length => .character length
  | .varchar length => .varying length
  | .text _ => .text
  | .binary .. | .blob _ => .bytea
  | .date => .date
  | .datetime _ | .timestamp _ => .timestamp

def Keeps : ColumnType → Narrowing.Value → Prop
  | .integer name _ _, .integer value =>
      name = .tinyint ∨ name = .mediumint ∨ value < 2 ^ (name.bits - 1)
  | _, .text symbols => Storable symbols
  | _, _ => True

end MySql.ColumnType

namespace SqlServer.ColumnType

open Server Server.Narrowing

def Describes (type : ColumnType) (column : SchemaColumn) : Prop :=
  lower column.baseType = type.baseType.toList
    ∧ ∀ name precision scale, type = .decimal name precision scale → lower column.type = type.typeName.toList

/-- The values of a column, if it is one of numbers or texts. The texts of the `n` types are any code units. -/
def Holds : ColumnType → Narrowing.Value → Prop
  | .integer .tinyint, .integer value => Unsigned 8 value
  | .integer .smallint, .integer value => Signed 16 value
  | .integer .int, .integer value => Signed 32 value
  | .integer .bigint, .integer value => Signed 64 value
  | .bit, .integer value => value = 0 ∨ value = 1
  | .decimal _ precision scale, value => Narrowing.Fits precision scale false value
  | .money, .decimal unscaled places => places = 4 ∧ Signed 64 unscaled
  | .smallmoney, .decimal unscaled places => places = 4 ∧ Signed 32 unscaled
  | .character name limit, .text symbols =>
      (∀ length ∈ limit, symbols.length ≤ length)
        ∧ (name = .char ∨ name = .varchar → ∀ symbol ∈ symbols, ∃ c, symbol = .char c)
  | .text wide, .text symbols => wide = false → ∀ symbol ∈ symbols, ∃ c, symbol = .char c
  | _, _ => False

def target : ColumnType → PgType
  | .integer .tinyint | .integer .smallint => .smallint
  | .integer .int => .integer
  | .integer .bigint => .bigint
  | .bit => .boolean
  | .decimal _ precision scale => .numeric precision scale
  | .money => .numeric 19 4
  | .smallmoney => .numeric 10 4
  | .character .. | .text _ => .text
  | .binary .. | .image | .timestamp => .bytea
  | .uniqueidentifier => .uuid
  | .date => .date
  | .datetime | .datetime2 _ => .timestamp

def Keeps : ColumnType → Narrowing.Value → Prop
  | _, .text symbols => Storable symbols
  | _, _ => True

end SqlServer.ColumnType

namespace Server.Narrowing

variable {parts : List Char × List Char} {precision scale : Nat} {name : String}

section Texts

theorem atoi_toDigits (value : Nat) : atoi (Nat.toDigits 10 value) = value := by
  have hsame : atoi (Nat.toDigits 10 value) = Nat.ofDigitChars 10 (Nat.toDigits 10 value) 0 := by
    unfold atoi Nat.ofDigitChars
    congr 1
    funext sofar c
    rw [Nat.mul_comm]
  rw [hsame, Nat.ofDigitChars_toDigits (by decide) (by decide)]

theorem comma_notMem_toDigits (value : Nat) : ',' ∉ Nat.toDigits 10 value := by
  intro hmem
  exact absurd (Nat.isDigit_of_mem_toDigits (by decide) (by decide) hmem) (by decide)

theorem toList_sized (size : Nat) : (sized size).toList = '(' :: Nat.toDigits 10 size ++ [')'] := by
  have hdigits : (toString size).toList = Nat.toDigits 10 size := String.toList_ofList
  rw [sized, String.toList_append, String.toList_append, hdigits]
  rfl

theorem toList_scaled (size scale : Nat) :
    (scaled size scale).toList
      = '(' :: (Nat.toDigits 10 size ++ ',' :: Nat.toDigits 10 scale) ++ [')'] := by
  have hdigits (value : Nat) : (toString value).toList = Nat.toDigits 10 value := String.toList_ofList
  rw [scaled, String.toList_append, String.toList_append, String.toList_append, String.toList_append, hdigits,
    hdigits]
  simp

theorem sizedType_eq {name : List Char} (hname : name ≠ []) (hletters : ∀ c ∈ name, 'a' ≤ c ∧ c ≤ 'z')
    (rest : List Char) :
    sizedType (name ++ '(' :: rest) = (between "(" ")" ('(' :: rest)).bind (sizeAndScale 7) := by
  have htake : (name ++ '(' :: rest).takeWhile (fun c => decide ('a' ≤ c ∧ c ≤ 'z')) = name := by
    rw [List.takeWhile_append_of_pos (by simpa using hletters), List.takeWhile_cons_of_neg (by decide),
      List.append_nil]
  unfold sizedType
  simp only [htake, if_neg hname, List.drop_left]

theorem between_parentheses (body : List Char) : between "(" ")" ('(' :: body ++ [')']) = some body := by
  have hfront : "(".toList = ['('] := by decide
  have hback : ")".toList = [')'] := by decide
  simp only [between, hfront, hback]
  simp [show "(".length = 1 by decide, show ")".length = 1 by decide, List.isSuffixOf]

theorem sizeAndScale_toDigits {size : Nat}
    (h : sizeAndScale 7 (Nat.toDigits 10 size) = some parts) : parts = (Nat.toDigits 10 size, []) := by
  have hsplit : (Nat.toDigits 10 size).splitOn ',' = [Nat.toDigits 10 size] := by
    have hjoined : [','].intercalate [Nat.toDigits 10 size] = Nat.toDigits 10 size := by
      simp [List.intercalate]
    conv_lhs => rw [← hjoined]
    apply List.splitOn_intercalate
    · simpa using comma_notMem_toDigits size
    · simp
  unfold sizeAndScale at h
  rw [hsplit] at h
  dsimp only at h
  split_ifs at h
  exact (Option.some.inj h).symm

theorem sizeAndScale_scaled {size scale : Nat}
    (h : sizeAndScale 7 (Nat.toDigits 10 size ++ ',' :: Nat.toDigits 10 scale) = some parts) :
    parts = (Nat.toDigits 10 size, Nat.toDigits 10 scale) := by
  have hsplit : (Nat.toDigits 10 size ++ ',' :: Nat.toDigits 10 scale).splitOn ','
      = [Nat.toDigits 10 size, Nat.toDigits 10 scale] := by
    have hjoined : [','].intercalate [Nat.toDigits 10 size, Nat.toDigits 10 scale]
        = Nat.toDigits 10 size ++ ',' :: Nat.toDigits 10 scale := by
      simp [List.intercalate]
    rw [← hjoined]
    apply List.splitOn_intercalate
    · intro part hpart
      simp only [List.mem_cons, List.not_mem_nil, or_false] at hpart
      rcases hpart with rfl | rfl
      · exact comma_notMem_toDigits size
      · exact comma_notMem_toDigits scale
    · simp
  unfold sizeAndScale at h
  rw [hsplit] at h
  dsimp only at h
  split_ifs at h
  exact (Option.some.inj h).symm

theorem decimal_letters (name : DecimalName) :
    name.name.toList ≠ [] ∧ ∀ c ∈ name.name.toList, 'a' ≤ c ∧ c ≤ 'z' := by
  have hall : (name.name.toList.all fun c => 'a' ≤ c ∧ c ≤ 'z') = true := by
    cases name <;> decide
  refine ⟨?_, fun c hc => of_decide_eq_true (List.all_eq_true.mp hall c hc)⟩
  cases name <;> decide

theorem numericTargetType_eq {name : DecimalName} {source text : String}
    (hsource : lower source = name.name.toList ++ (scaled precision scale).toList)
    (h : numericTargetType source = .ok text) : text = (PgType.numeric precision scale).name := by
  unfold numericTargetType at h
  rw [hsource, toList_scaled, List.cons_append, sizedType_eq (decimal_letters name).1 (decimal_letters name).2,
    ← List.cons_append, between_parentheses, Option.bind_some] at h
  split at h
  · cases h
  · rename_i size places hparts
    obtain ⟨rfl, rfl⟩ := Prod.mk.inj (sizeAndScale_scaled hparts)
    split_ifs at h
    rw [atoi_toDigits, atoi_toDigits] at h
    exact (Except.ok.inj h).symm

/-- There is no room for attributes behind the parentheses. -/
theorem sizedType_eq_none {text : List Char} (h : text.getLast? ≠ some ')') : sizedType text = none := by
  have hback : ")".toList = [')'] := by decide
  unfold sizedType
  dsimp only
  split_ifs
  · rfl
  generalize (text.takeWhile _).length = count
  have hnone : between "(" ")" (text.drop count) = none := by
    rw [between, if_neg]
    rw [hback, List.isSuffixOf_iff_suffix, List.drop_drop]
    rintro ⟨-, front, hfront⟩
    apply h
    rw [← List.take_append_drop (count + "(".length) text, ← hfront, ← List.append_assoc]
    exact List.getLast?_concat
  rw [hnone]
  rfl

theorem base_eq {text : String} (h : lower text = name.toList) :
    String.ofList (lower text) = name := by
  rw [h, String.ofList_toList]

end Texts

variable {type : MySql.ColumnType} {unsigned : Bool}

section Targets

variable {column : SchemaColumn} {text : String}

theorem sizedType_sized {length : Nat}
    (hname : name.toList ≠ []) (hall : (name.toList.all fun c => 'a' ≤ c ∧ c ≤ 'z') = true)
    (h : sizedType (name ++ sized length).toList = some parts) : atoi parts.1 = length := by
  have hletters : ∀ c ∈ name.toList, 'a' ≤ c ∧ c ≤ 'z' := fun c hc =>
    of_decide_eq_true (List.all_eq_true.mp hall c hc)
  rw [String.toList_append, toList_sized, List.cons_append, sizedType_eq hname hletters, ← List.cons_append,
    between_parentheses, Option.bind_some] at h
  rw [sizeAndScale_toDigits h]
  exact atoi_toDigits length

theorem mysql_numeric {name : DecimalName}
    (hdescribes : type.Describes column) (htype : type = .decimal name precision scale unsigned)
    (h : numericTargetType column.columnType = .ok text) : text = (PgType.numeric precision scale).name := by
  subst htype
  have haccepted : sizedType (lower column.columnType) ≠ none := by
    intro hnone
    rw [numericTargetType, hnone] at h
    cases h
  rcases hdescribes.2 with hcolumn | hcolumn
  · rw [MySql.ColumnType.typeName, String.toList_append] at hcolumn
    cases unsigned with
    | true =>
        refine absurd (hcolumn ▸ sizedType_eq_none ?_) haccepted
        rw [List.getLast?_append_of_ne_nil _ (by decide)]
        decide
    | false =>
        rw [String.toList_append] at hcolumn
        exact numericTargetType_eq (hcolumn.trans (List.append_nil _)) h
  · refine absurd (hcolumn ▸ sizedType_eq_none ?_) haccepted
    rw [List.getLast?_append_of_ne_nil _ (by decide)]
    decide

theorem mysql_length {length : Nat}
    (hdescribes : type.Describes column) (htype : type.typeName = name ++ sized length)
    (hname : name.toList ≠ []) (hall : (name.toList.all fun c => 'a' ≤ c ∧ c ≤ 'z') = true)
    (h : sizedType (lower column.columnType) = some parts) : atoi parts.1 = length := by
  rcases hdescribes.2 with hcolumn | hcolumn
  · rw [hcolumn, htype] at h
    exact sizedType_sized hname hall h
  · rw [hcolumn, sizedType_eq_none] at h
    · cases h
    · rw [List.getLast?_append_of_ne_nil _ (by decide)]
      decide

theorem mysql_accepted (hdescribes : type.Describes column)
    (h : mysqlTargetType column = .ok text) : type.target.name = text := by
  unfold mysqlTargetType at h
  rw [base_eq hdescribes.1] at h
  cases type with
  | integer name display unsigned => cases name <;> exact Except.ok.inj h
  | decimal name precision scale unsigned =>
      cases name <;> exact (mysql_numeric hdescribes rfl h).symm
  | char length =>
      cases hparts : sizedType (lower column.columnType) with
      | none =>
          rw [hparts] at h
          cases (show Except.error (TypeError.mysqlCharacter column.columnType) = Except.ok text from h)
      | some parts =>
          rw [hparts] at h
          rw [← mysql_length hdescribes rfl (by decide) (by decide) hparts]
          exact Except.ok.inj h
  | varchar length =>
      cases hparts : sizedType (lower column.columnType) with
      | none =>
          rw [hparts] at h
          cases (show Except.error (TypeError.mysqlCharacter column.columnType) = Except.ok text from h)
      | some parts =>
          rw [hparts] at h
          rw [← mysql_length hdescribes rfl (by decide) (by decide) hparts]
          exact Except.ok.inj h
  | text size | blob size => cases size <;> exact Except.ok.inj h
  | binary varying length => cases varying <;> exact Except.ok.inj h
  | date | datetime digits | timestamp digits => exact Except.ok.inj h

theorem sqlServer_accepted {type : SqlServer.ColumnType} (hdescribes : type.Describes column)
    (h : sqlServerTargetType column = .ok text) : type.target.name = text := by
  obtain ⟨hbase, htype⟩ := hdescribes
  unfold sqlServerTargetType at h
  rw [base_eq hbase] at h
  cases type with
  | integer name | character name length => cases name <;> exact Except.ok.inj h
  | decimal name precision scale =>
      have hsource := htype name precision scale rfl
      rw [SqlServer.ColumnType.typeName, String.toList_append] at hsource
      cases name <;> exact (numericTargetType_eq hsource h).symm
  | money =>
      have hname : (PgType.numeric 19 4).name = "numeric(19,4)" := by decide
      exact hname.trans (Except.ok.inj h)
  | smallmoney =>
      have hname : (PgType.numeric 10 4).name = "numeric(10,4)" := by decide
      exact hname.trans (Except.ok.inj h)
  | text wide => cases wide <;> exact Except.ok.inj h
  | binary varying length => cases varying <;> exact Except.ok.inj h
  | _ => exact Except.ok.inj h

end Targets

section Values

variable {value : Value}

theorem Fits.represents
    (h : Fits precision scale unsigned value) : (PgType.numeric precision scale).Represents value := by
  cases value with
  | decimal unscaled places =>
      obtain ⟨rfl, hdigits, -⟩ := h
      refine ⟨le_rfl, ?_⟩
      rwa [Nat.sub_self, Nat.pow_zero, Nat.mul_one]
  | integer value => cases h
  | text symbols => cases h

theorem mysql_integer_represents {name : MySql.IntegerName} {display : Option Nat}
    {value : Int} (h : if unsigned then Unsigned name.bits value else Signed name.bits value) :
    (MySql.ColumnType.integer name display unsigned).target.Represents (.integer value)
      ↔ name = .tinyint ∨ name = .mediumint ∨ value < 2 ^ (name.bits - 1) := by
  have hlow : -2 ^ (name.bits - 1) ≤ value := by
    split_ifs at h
    · exact (Int.neg_nonpos_of_nonneg (by positivity)).trans h.1
    · exact h.1
  have hhigh : value < 2 ^ name.bits := by
    split_ifs at h
    · exact h.2
    · refine h.2.trans_le ?_
      exact pow_le_pow_right₀ (by decide) (Nat.sub_le _ _)
  cases name with
  | tinyint =>
      simp only [MySql.IntegerName.bits] at hlow hhigh
      simp only [MySql.ColumnType.target, PgType.Represents, Signed, true_or, iff_true]
      norm_num at hlow hhigh ⊢
      omega
  | mediumint =>
      simp only [MySql.IntegerName.bits] at hlow hhigh
      simp only [MySql.ColumnType.target, PgType.Represents, Signed, true_or, or_true, iff_true]
      norm_num at hlow hhigh ⊢
      omega
  | smallint | int | integer | bigint =>
      simp only [MySql.ColumnType.target, PgType.Represents, Signed, reduceCtorEq, false_or]
      exact and_iff_right hlow

/-- What the target can hold of a MySQL value. -/
theorem mysql_represents_iff (h : type.Holds value) :
    type.target.Represents value ↔ type.Keeps value := by
  cases type with
  | integer name display unsigned =>
      cases value with
      | integer value => exact mysql_integer_represents h
      | decimal unscaled places => cases h
      | text symbols => cases h
  | decimal name precision scale unsigned =>
      have hfits : Fits precision scale unsigned value := h
      cases value with
      | decimal unscaled places => exact iff_of_true hfits.represents trivial
      | integer value => cases hfits
      | text symbols => cases hfits
  | char length =>
      cases value with
      | text symbols => exact and_iff_left ⟨h.1.1, h.2⟩
      | integer value => cases h
      | decimal unscaled places => cases h
  | varchar length =>
      cases value with
      | text symbols => exact and_iff_left h.1
      | integer value => cases h
      | decimal unscaled places => cases h
  | text size =>
      cases value with
      | text symbols => exact Iff.rfl
      | integer value => cases h
      | decimal unscaled places => cases h
  | _ => cases value <;> cases h

theorem signed_represents {bits precision : Nat} {unscaled : Int} (h : Signed bits unscaled)
    (hdigits : 2 ^ (bits - 1) < 10 ^ precision) :
    (PgType.numeric precision 4).Represents (.decimal unscaled 4) := by
  refine ⟨le_rfl, ?_⟩
  rw [Nat.sub_self, Nat.pow_zero, Nat.mul_one]
  refine lt_of_le_of_lt ?_ hdigits
  have hcast : ((2 ^ (bits - 1) : Nat) : Int) = 2 ^ (bits - 1) := by push_cast; rfl
  obtain ⟨hlow, hhigh⟩ := h
  omega

/-- What the target can hold of a SQL Server value. -/
theorem sqlServer_represents_iff {type : SqlServer.ColumnType} (h : type.Holds value) :
    type.target.Represents value ↔ type.Keeps value := by
  cases type with
  | integer name =>
      cases value with
      | integer value =>
          refine iff_of_true ?_ trivial
          cases name with
          | tinyint =>
              obtain ⟨hlow, hhigh⟩ : Unsigned 8 value := h
              refine ⟨?_, ?_⟩
              · norm_num
                omega
              · norm_num at hhigh ⊢
                omega
          | smallint | int | bigint => exact h
      | decimal unscaled places => cases name <;> cases h
      | text symbols => cases name <;> cases h
  | bit =>
      cases value with
      | integer value => exact iff_of_true h trivial
      | decimal unscaled places => cases h
      | text symbols => cases h
  | decimal name precision scale =>
      have hfits : Fits precision scale false value := h
      cases value with
      | decimal unscaled places => exact iff_of_true hfits.represents trivial
      | integer value => cases hfits
      | text symbols => cases hfits
  | money | smallmoney =>
      cases value with
      | decimal unscaled places =>
          obtain ⟨rfl, hsigned⟩ := h
          exact iff_of_true (signed_represents hsigned (by decide)) trivial
      | integer value => cases h
      | text symbols => cases h
  | character name limit | text wide =>
      cases value with
      | text symbols => exact Iff.rfl
      | integer value => cases h
      | decimal unscaled places => cases h
  | _ => cases value <;> cases h

end Values

/-- **Automatic types.** The type of an automatic column represents a value of the source column exactly
if the value is not above the signed range of an integer type of the same width, and a text is one that
PostgreSQL can store. -/
theorem automatic_types_keep_iff (mysqlType : MySql.ColumnType) (sqlServerType : SqlServer.ColumnType)
    (column : SchemaColumn) (text : String) :
    (mysqlType.Describes column → mysqlTargetType column = .ok text →
      ∃ target : PgType, target.name = text
        ∧ ∀ value, mysqlType.Holds value → (target.Represents value ↔ mysqlType.Keeps value))
    ∧ (sqlServerType.Describes column → sqlServerTargetType column = .ok text →
      ∃ target : PgType, target.name = text
        ∧ ∀ value, sqlServerType.Holds value → (target.Represents value ↔ sqlServerType.Keeps value)) :=
  ⟨fun hdescribes h => ⟨_, mysql_accepted hdescribes h, fun _ => mysql_represents_iff⟩,
    fun hdescribes h => ⟨_, sqlServer_accepted hdescribes h, fun _ => sqlServer_represents_iff⟩⟩

def unsignedColumn : SchemaColumn where
  name := "n"
  type := "int"
  columnType := "int(10) unsigned"

theorem unsigned_describes :
    (MySql.ColumnType.integer .int (some 10) true).Describes unsignedColumn := by
  constructor
  · decide
  · exact .inl (by decide +kernel)

theorem automatic_types_keep_small :
    ∃ target : PgType, target.name = "integer" ∧ target.Represents (.integer 7) := by
  obtain ⟨target, hname, hvalues⟩ := (automatic_types_keep_iff _ (.character .nvarchar none) unsignedColumn
    "integer").1 unsigned_describes (by decide)
  refine ⟨target, hname, (hvalues (.integer 7) ?_).mpr ?_⟩
  · exact ⟨by decide, by decide⟩
  · exact .inr (.inr (by decide))

/-- Three thousand million fits into an unsigned `int` and not into the `integer` that it becomes; a text
with a `NUL` fits into no text of the target. -/
theorem automatic_types_narrow :
    ((MySql.ColumnType.integer .int (some 10) true).Describes unsignedColumn
      ∧ mysqlTargetType unsignedColumn = .ok PgType.integer.name
      ∧ (MySql.ColumnType.integer .int (some 10) true).Holds (.integer 3000000000)
      ∧ ¬ PgType.integer.Represents (.integer 3000000000))
    ∧ (SqlServer.ColumnType.character .nvarchar (some 10)).Holds (.text [.char '\x00'])
      ∧ sqlServerTargetType { name := "t", baseType := "nvarchar" } = .ok PgType.text.name
      ∧ ¬ PgType.text.Represents (.text [.char '\x00']) := by
  refine ⟨⟨unsigned_describes, by decide, ⟨by decide, by decide⟩, ?_⟩, ⟨by decide, by simp⟩, by decide, ?_⟩
  · rintro ⟨-, hhigh⟩
    exact absurd hhigh (by decide)
  · rintro ⟨hsymbols, -⟩
    obtain ⟨c, hc, hne⟩ := hsymbols (.char '\x00') (by simp)
    cases hc
    exact hne rfl

end Server.Narrowing

end GoSync
