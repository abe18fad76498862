import HttpContract.Declaration.Basic

/-!
# Schemas

What a body or a header may be read as. A schema is a declared type with everything resolved that
reading needs: the fields of records, the members of enumerations, the labels of choices.
-/

namespace HttpContract

/-- What values of a type look like as JSON. -/
inductive Schema
  | any
  | nothing
  | bool
  | int
  | float
  | text
  | bytes
  | date
  | dateTime
  | uuid
  | decimal
  | list (item : Schema)
  | set (item : Schema)
  | dict (key value : Schema)
  | tuple (items : List Schema)
  | tupleOf (item : Schema)
  | nullable (inner : Schema)
  /-- A choice; each member has the label that its issues are reported under. -/
  | union (members : List (String × Schema))
  | literal (values : List Value)
  | enumeration (cls : ClassName) (kind : EnumKind) (members : List (String × Value))
  | record (cls : ClassName) (kind : RecordKind) (fields : List (String × Schema × Option Value))
deriving Inhabited, Repr

/-- Why a value does not fit. -/
inductive IssueKind
  | jsonInvalid
  | missing
  | intParsing
  | intParsingSize
  | intFromFloat
  | intType
  | finiteNumber
  | floatParsing
  | floatType
  | boolParsing
  | boolType
  | stringType
  | bytesType
  | noneRequired
  | dateType
  | dateParsing
  | dateFromDateTimeParsing
  | dateFromDateTimeInexact
  | dateTimeType
  | dateTimeParsing
  | dateTimeFromDateParsing
  | uuidType
  | uuidParsing
  | decimalType
  | decimalParsing
  | listType
  | setType
  | dictType
  | tupleType
  | tooLong
  | literalError
  | enumError
  | modelType
  | dataclassType
  | greaterThanEqual
  | lessThanEqual
  | stringUnicode
  | frozenInstance
deriving DecidableEq, Repr, Inhabited

namespace IssueKind

/-- The name of the problem in outputs. -/
def name : IssueKind → String
  | jsonInvalid => "json_invalid"
  | missing => "missing"
  | intParsing => "int_parsing"
  | intParsingSize => "int_parsing_size"
  | intFromFloat => "int_from_float"
  | intType => "int_type"
  | finiteNumber => "finite_number"
  | floatParsing => "float_parsing"
  | floatType => "float_type"
  | boolParsing => "bool_parsing"
  | boolType => "bool_type"
  | stringType => "string_type"
  | bytesType => "bytes_type"
  | noneRequired => "none_required"
  | dateType => "date_type"
  | dateParsing => "date_parsing"
  | dateFromDateTimeParsing => "date_from_datetime_parsing"
  | dateFromDateTimeInexact => "date_from_datetime_inexact"
  | dateTimeType => "datetime_type"
  | dateTimeParsing => "datetime_parsing"
  | dateTimeFromDateParsing => "datetime_from_date_parsing"
  | uuidType => "uuid_type"
  | uuidParsing => "uuid_parsing"
  | decimalType => "decimal_type"
  | decimalParsing => "decimal_parsing"
  | listType => "list_type"
  | setType => "set_type"
  | dictType => "dict_type"
  | tupleType => "tuple_type"
  | tooLong => "too_long"
  | literalError => "literal_error"
  | enumError => "enum"
  | modelType => "model_type"
  | dataclassType => "dataclass_type"
  | greaterThanEqual => "greater_than_equal"
  | lessThanEqual => "less_than_equal"
  | stringUnicode => "string_unicode"
  | frozenInstance => "frozen_instance"

end IssueKind

/-- A step from a value to one inside it. -/
inductive PathPart
  | key (s : String)
  | index (n : Nat)
deriving DecidableEq, Repr, Inhabited

/-- A problem with a value, and the way to where it is. -/
structure Issue where
  kind : IssueKind
  path : List PathPart := []
deriving DecidableEq, Repr, Inhabited

namespace Issue

/-- The issue seen from one level further out. -/
def under (part : PathPart) (i : Issue) : Issue := { i with path := part :: i.path }

end Issue

/-- How closely a value fits: not at all changed, of a narrower kind, or converted. -/
inductive Exactness
  | lax
  | strict
  | exact_
deriving DecidableEq, Repr, Inhabited

namespace Exactness

/-- The order of exactness. -/
def rank : Exactness → Nat
  | lax => 0
  | strict => 1
  | exact_ => 2

/-- The less exact of the two. -/
def min (a b : Exactness) : Exactness := if a.rank ≤ b.rank then a else b

end Exactness

/-- A value that was read, how closely it fits, and how many record fields were given for it. -/
structure Accepted where
  value : Value
  exactness : Exactness := .exact_
  fields : Option Nat := none
deriving Repr, Inhabited

/-- A value with how well it fits, or all problems with it. -/
abbrev Reading := Except (List Issue) Accepted

end HttpContract
