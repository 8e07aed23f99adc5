import GoSync.Reconcile.Dialect
import GoSync.Reconcile.Texts
import GoSync.Server.ColumnType
import GoSync.SourceTypes

/-!
# Exact types

The exact types of SQL Server and MySQL: what their catalogs call them, the texts of their values in the
rows that a source hashes, and the texts of what the target stores. Identifiers with a letter, timestamps
whose fraction ends in a zero or has a seventh digit, and row versions have two normal forms.
-/

namespace GoSync

namespace Reconcile

def decimalText (scale : Nat) (unscaled : Int) : String :=
  let digits := unscaled.natAbs
  (if unscaled < 0 then "-" else "") ++ toString (digits / 10 ^ scale)
    ++ if scale = 0 then "" else "." ++ String.ofList (decimal scale (digits % 10 ^ scale))

def integerText (value : Int) : String :=
  toString value

def boolText (value : Bool) : String :=
  cond value "true" "false"

end Reconcile

variable {rt : Reconcile.Runtime} {kind : ColumnType}

namespace SqlServer.ColumnType

open Reconcile

def Mapped (kind : ColumnType) : Prop :=
  (Server.sqlServerTargetType { name := "", type := kind.typeName, baseType := kind.baseType }).isOk = true

def Content : ColumnType → Type
  | .integer _ | .decimal _ _ _ | .money | .smallmoney => Int
  | .bit => Bool
  | .character _ _ | .text _ => String
  | .binary _ _ | .image | .timestamp => List UInt8
  | .uniqueidentifier => Identifier
  | .date => Date
  | .datetime => Moment 3
  | .datetime2 scale => Moment scale.val

def projected : (kind : ColumnType) → kind.Content → String
  | .integer _, value => integerText value
  | .decimal _ _ scale, value => decimalText scale value
  | .money, value | .smallmoney, value => decimalText 4 value
  | .bit, value => cond value "1" "0"
  | .character _ _, value | .text _, value => value
  | .binary _ _, raw | .image, raw | .timestamp, raw => hexUpper raw
  | .uniqueidentifier, value => Identifier.sourceText value
  | .date, value => String.ofList (Date.text value)
  | .datetime, value => Moment.sourceText 'T' value
  | .datetime2 _, value => Moment.sourceText 'T' value

def sourceText : (kind : ColumnType) → kind.Content → String
  | .bit, value => boolText value
  | .binary _ _, raw | .image, raw | .timestamp, raw => "0x" ++ hexEncode raw
  | kind, value => kind.projected value

def Legacy : ColumnType → Prop
  | .date | .datetime2 _ => False
  | .character _ length | .binary _ length => length ≠ none
  | _ => True

def raw : (kind : ColumnType) → kind.Content → List UInt8
  | .binary _ _, raw | .image, raw | .timestamp, raw => raw
  | kind, content => utf8 (kind.projected content)

def storedText (round : (scale : Nat) → Moment scale → Moment 6) :
    (kind : ColumnType) → kind.Content → String
  | .integer _, value => integerText value
  | .decimal _ _ scale, value => decimalText scale value
  | .money, value | .smallmoney, value => decimalText 4 value
  | .bit, value => boolText value
  | .character _ _, value | .text _, value => value
  | .binary _ _, raw | .image, raw | .timestamp, raw => "\\x" ++ hexEncode raw
  | .uniqueidentifier, value => Identifier.storedText value
  | .date, value => String.ofList (Date.text value)
  | .datetime, value => (Moment.store round value).storedText
  | .datetime2 _, value => (Moment.store round value).storedText

def Settled : (kind : ColumnType) → kind.Content → Prop
  | .timestamp, _ => False
  | .uniqueidentifier, value => Identifier.Letterless value
  | .datetime, value => Moment.Short value
  | .datetime2 _, value => Moment.Short value
  | _, _ => True

theorem isBinary_bytes (varying : Bool) (length : Option Nat) :
    isBinary (typeText (typeName (.binary varying length))) = true := by
  apply isBinary_sized
  cases varying
  · exact .inl rfl
  · exact .inr rfl

theorem datetime_timed : ∀ kind ∈ .datetime :: (List.finRange 8).map datetime2,
    Unforced (typeText (typeName kind)) ∧ Timed (typeText (typeName kind)) := by
  decide

theorem datetime2_timed (scale : Fin 8) :
    Unforced (typeText (typeName (.datetime2 scale))) ∧ Timed (typeText (typeName (.datetime2 scale))) :=
  datetime_timed _ (List.mem_cons_of_mem _ (List.mem_map_of_mem (List.mem_finRange scale)))

/-- A row version is printed behind another mark on each side, and `normalize` takes its type for a kind of
timestamp. -/
theorem timestamp_ne (raw stored : List UInt8) :
    normalize rt (typeName .timestamp) ("0x" ++ hexEncode raw)
      ≠ normalize rt (typeName .timestamp) ("\\x" ++ hexEncode stored) := by
  have hplain : Unforced (typeText (typeName .timestamp)) := by decide
  have htimed : Timed (typeText (typeName .timestamp)) := by decide
  rw [normalize_timed hplain htimed, normalize_timed hplain htimed, String.toList_append,
    String.toList_append]
  intro h
  have hmark : some '0' = some '\\' := congrArg List.head? (String.ofList_inj.mp h)
  exact absurd hmark (by decide)

theorem settled_of_eq {round : (scale : Nat) → Moment scale → Moment 6} {content stored : kind.Content}
    (h : normalize rt kind.typeName (kind.sourceText content)
      = normalize rt kind.typeName (kind.storedText round stored)) :
    kind.Settled content := by
  cases kind with
  | timestamp => exact timestamp_ne content stored h
  | uniqueidentifier =>
      have hplain : Unforced (typeText (typeName .uniqueidentifier)) := by decide
      have hother : ¬Timed (typeText (typeName .uniqueidentifier)) := by decide
      rw [normalize_other hplain hother, normalize_other hplain hother] at h
      exact Identifier.letterless_of_text_eq h
  | datetime =>
      have htimed := datetime_timed .datetime List.mem_cons_self
      exact Moment.short_of_normalize_eq htimed.1 htimed.2 (.inl rfl) h
  | datetime2 scale =>
      have htimed := datetime2_timed scale
      exact Moment.short_of_normalize_eq htimed.1 htimed.2 (.inl rfl) h
  | _ => trivial

theorem eq_of_settled {round : (scale : Nat) → Moment scale → Moment 6}
    {content : kind.Content} (h : kind.Settled content) :
    normalize rt kind.typeName (kind.sourceText content)
      = normalize rt kind.typeName (kind.storedText round content) := by
  cases kind with
  | binary varying length =>
      obtain ⟨hsource, -, hstored⟩ := normalize_bytes (isBinary_bytes varying length) content
      exact hsource.trans hstored.symm
  | image =>
      have hbinary : isBinary (typeText (typeName .image)) = true := by decide
      obtain ⟨hsource, -, hstored⟩ := normalize_bytes hbinary content
      exact hsource.trans hstored.symm
  | timestamp => exact h.elim
  | uniqueidentifier => exact congrArg (normalize rt _) (Identifier.text_eq_of_letterless h)
  | datetime =>
      have htimed := datetime_timed .datetime List.mem_cons_self
      exact Moment.normalize_eq_of_short htimed.1 htimed.2 (.inl rfl) h
  | datetime2 scale =>
      have htimed := datetime2_timed scale
      exact Moment.normalize_eq_of_short htimed.1 htimed.2 (.inl rfl) h
  | _ => rfl

end SqlServer.ColumnType

namespace Reconcile

/-- SQL Server and PostgreSQL; `round` is what the latter does with a seventh digit of a fraction. -/
def sqlServer (round : (scale : Nat) → Moment scale → Moment 6) : Dialect where
  Kind := SqlServer.ColumnType
  typeName := SqlServer.ColumnType.typeName
  Mapped := SqlServer.ColumnType.Mapped
  Content := SqlServer.ColumnType.Content
  sourceText := SqlServer.ColumnType.sourceText
  storedText := SqlServer.ColumnType.storedText round
  Settled := SqlServer.ColumnType.Settled
  settled_of_eq := SqlServer.ColumnType.settled_of_eq
  eq_of_settled := SqlServer.ColumnType.eq_of_settled

end Reconcile

namespace MySql.ColumnType

open Reconcile

def Mapped (kind : ColumnType) : Prop :=
  (Server.mysqlTargetType { name := "", type := kind.dataType, columnType := kind.typeName }).isOk = true

def trimRight (text : String) : String :=
  String.ofList (text.toList.reverse.dropWhile (· = ' ')).reverse

def Content : ColumnType → Type
  | .integer _ _ _ | .decimal _ _ _ _ => Int
  | .char _ => { text : String // trimRight text = text }
  | .varchar _ | .text _ => String
  | .binary _ _ | .blob _ => List UInt8
  | .date => Date
  | .datetime digits | .timestamp digits => Moment digits.val

def sourceText : (kind : ColumnType) → kind.Content → String
  | .integer _ _ _, value => integerText value
  | .decimal _ _ scale _, value => decimalText scale value
  | .char _, value => value.val
  | .varchar _, value | .text _, value => value
  | .binary _ _, raw | .blob _, raw => "0x" ++ hexUpper raw
  | .date, value => String.ofList (Date.text value)
  | .datetime _, value | .timestamp _, value => Moment.sourceText ' ' value

def storedText (round : (scale : Nat) → Moment scale → Moment 6) :
    (kind : ColumnType) → kind.Content → String
  | .integer _ _ _, value => integerText value
  | .decimal _ _ scale _, value => decimalText scale value
  | .char _, value => trimRight value.val
  | .varchar _, value | .text _, value => value
  | .binary _ _, raw | .blob _, raw => "\\x" ++ hexEncode raw
  | .date, value => String.ofList (Date.text value)
  | .datetime _, value | .timestamp _, value => (Moment.store round value).storedText

def Settled : (kind : ColumnType) → kind.Content → Prop
  | .datetime _, value | .timestamp _, value => Moment.Short value
  | _, _ => True

theorem isBinary_bytes (varying : Bool) (length : Nat) :
    isBinary (typeText (typeName (.binary varying length))) = true := by
  apply isBinary_sized
  cases varying
  · exact .inl rfl
  · exact .inr rfl

theorem isBinary_blob (size : Size) : isBinary (typeText (typeName (.blob size))) = true := by
  cases size <;> decide

theorem times_timed : ∀ kind ∈ (List.finRange 7).map datetime ++ (List.finRange 7).map timestamp,
    Unforced (typeText (typeName kind)) ∧ Timed (typeText (typeName kind)) := by
  decide

theorem datetime_timed (digits : Fin 7) :
    Unforced (typeText (typeName (.datetime digits))) ∧ Timed (typeText (typeName (.datetime digits))) :=
  times_timed _ (List.mem_append_left _ (List.mem_map_of_mem (List.mem_finRange digits)))

theorem timestamp_timed (digits : Fin 7) :
    Unforced (typeText (typeName (.timestamp digits))) ∧ Timed (typeText (typeName (.timestamp digits))) :=
  times_timed _ (List.mem_append_right _ (List.mem_map_of_mem (List.mem_finRange digits)))

theorem settled_of_eq {round : (scale : Nat) → Moment scale → Moment 6} {content stored : kind.Content}
    (h : normalize rt kind.typeName (kind.sourceText content)
      = normalize rt kind.typeName (kind.storedText round stored)) :
    kind.Settled content := by
  cases kind with
  | datetime digits =>
      have htimed := datetime_timed digits
      exact Moment.short_of_normalize_eq htimed.1 htimed.2 (.inr rfl) h
  | timestamp digits =>
      have htimed := timestamp_timed digits
      exact Moment.short_of_normalize_eq htimed.1 htimed.2 (.inr rfl) h
  | _ => trivial

theorem eq_of_settled {round : (scale : Nat) → Moment scale → Moment 6}
    {content : kind.Content} (h : kind.Settled content) :
    normalize rt kind.typeName (kind.sourceText content)
      = normalize rt kind.typeName (kind.storedText round content) := by
  cases kind with
  | char length => exact congrArg (normalize rt _) content.property.symm
  | binary varying length =>
      obtain ⟨-, hsource, hstored⟩ := normalize_bytes (isBinary_bytes varying length) content
      exact hsource.trans hstored.symm
  | blob size =>
      obtain ⟨-, hsource, hstored⟩ := normalize_bytes (isBinary_blob size) content
      exact hsource.trans hstored.symm
  | datetime digits =>
      have htimed := datetime_timed digits
      exact Moment.normalize_eq_of_short htimed.1 htimed.2 (.inr rfl) h
  | timestamp digits =>
      have htimed := timestamp_timed digits
      exact Moment.normalize_eq_of_short htimed.1 htimed.2 (.inr rfl) h
  | _ => rfl

end MySql.ColumnType

namespace Reconcile

def mySql (round : (scale : Nat) → Moment scale → Moment 6) : Dialect where
  Kind := MySql.ColumnType
  typeName := MySql.ColumnType.typeName
  Mapped := MySql.ColumnType.Mapped
  Content := MySql.ColumnType.Content
  sourceText := MySql.ColumnType.sourceText
  storedText := MySql.ColumnType.storedText round
  Settled := MySql.ColumnType.Settled
  settled_of_eq := MySql.ColumnType.settled_of_eq
  eq_of_settled := MySql.ColumnType.eq_of_settled

end Reconcile

end GoSync
