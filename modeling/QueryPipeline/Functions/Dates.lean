import QueryPipeline.Functions.Basic

/-!
# Parts of dates

The current time and the parts of a date. SQL Server has a function for the parts; SQLite keeps dates
as texts, so a part is cut out by a format and made a number.
-/

set_option autoImplicit false

namespace QueryPipeline

open Sql

/-- The parts of a date that SQL Server names. -/
def datePartNames : List String := ["year", "month", "day", "hour", "minute", "second"]

/-- The dates of SQL Server. -/
def datePartMembers : FunctionProvider := .ofMember fun catalog receiver name =>
  if name.owner? != some "datetime" then .unknown
  else match receiver with
    | none =>
      match name.name with
      | "now" => .given (catalog.function "GETDATE" [] (.of .dateTime))
      | "utc_now" => .given (catalog.function "GETUTCDATE" [] (.of .dateTime))
      | _ => .unknown
    | some date =>
      if datePartNames.contains name.name then
        .given (catalog.function "DATEPART" [.fragment name.name .text, date] (integerLike date))
      else .unknown

/-- The formats that SQLite cuts the parts of a date out with. -/
def datePartFormats : List (String × String) :=
  [("year", "%Y"), ("month", "%m"), ("day", "%d"), ("hour", "%H"), ("minute", "%M"), ("second", "%S")]

/-- The current time as SQLite writes it, changed by some modifiers. -/
def formattedNow (catalog : Catalog) (modifiers : List String) : Scalar :=
  catalog.function "strftime" (.text "%Y-%m-%d %H:%M:%f" :: modifiers.map .text) (.of .dateTime)

/-- The dates of SQLite. -/
def formattedDateMembers : FunctionProvider := .ofMember fun catalog receiver name =>
  if name.owner? != some "datetime" then .unknown
  else match receiver with
    | none =>
      match name.name with
      | "now" => .given (formattedNow catalog ["now", "localtime"])
      | "utc_now" => .given (formattedNow catalog ["now"])
      | _ => .unknown
    | some date =>
      match datePartFormats.lookup name.name with
      | some format =>
        .ok (catalog.cast? (catalog.function "strftime" [.text format, date] .text)
          (integerLike date))
      | none => .unknown

end QueryPipeline
