import VersionInfo.Json.Number
import VersionInfo.Json.Structure
import VersionInfo.NameMap

/-!
# Values of JSON text

A value keeps the members of an object as they stand, repeated keys included. `canonical` orders
the members of every object by key and keeps the last of a repeated key; `text` writes a value
without spaces. The two together are the canonical text, which does not depend on the order that
members arrived in.

* `Value.canonical`, `Value.canonicalText`: `sort_value` and `canonical_json`.
* `Value.reader` reads a value nested at most `Value.depthLimit` deep.
-/

namespace VersionInfo.Json

open Decimal (Binary64)

/-- A JSON value. -/
inductive Value where
  | null
  | boolean (b : Bool)
  | integer (n : Int)
  | float (x : Binary64)
  | string (s : String)
  | array (elements : List Value)
  | object (members : List (String × Value))

namespace Value

/-! ## Writing -/

mutual

/-- The text of a value, without spaces. -/
def text : Value → List Char
  | null => "null".toList
  | boolean true => "true".toList
  | boolean false => "false".toList
  | integer n => Text.writeInt n
  | float x => numberFormat.text x
  | string s => stringText s
  | array [] => ['[', ']']
  | array (v :: rest) => '[' :: v.text ++ moreElements rest
  | object [] => ['\x7b', '\x7d']
  | object ((k, v) :: rest) => '\x7b' :: stringText k ++ ':' :: v.text ++ moreMembers rest

/-- Further elements, each after a comma, and the closing bracket. -/
def moreElements : List Value → List Char
  | [] => [']']
  | v :: rest => ',' :: v.text ++ moreElements rest

/-- Further members, each after a comma, and the closing brace. -/
def moreMembers : List (String × Value) → List Char
  | [] => ['\x7d']
  | (k, v) :: rest => ',' :: stringText k ++ ':' :: v.text ++ moreMembers rest

end

mutual

/-- The value with the members of every object in ascending order of keys, each key once. -/
def canonical : Value → Value
  | array vs => array (canonicalElements vs)
  | object ms => object (NameMap.ofList (canonicalMembers ms))
  | v => v

/-- The canonical elements of an array. -/
def canonicalElements : List Value → List Value
  | [] => []
  | v :: rest => v.canonical :: canonicalElements rest

/-- The members with canonical values, as they stand. -/
def canonicalMembers : List (String × Value) → List (String × Value)
  | [] => []
  | (k, v) :: rest => (k, v.canonical) :: canonicalMembers rest

end

/-- The canonical text of a value. -/
def canonicalText (v : Value) : String := String.ofList v.canonical.text

/-! ## Reading -/

/-- A number as a value. -/
def ofNumber : Number → Value
  | .integer n => integer n
  | .float x => float x

/-- How deep arrays and objects may be nested. -/
def depthLimit : Nat := 127

/-- Reads an array whose elements `element` reads. -/
def arrayOf (element : Reader Value) : Reader Value :=
  (elements (fun done => element.map (· :: done)) []).map fun done => array done.reverse

/-- Reads an object whose values `value` reads. -/
def objectOf (value : Reader Value) : Reader Value :=
  (members (fun done k => colon.andThen fun _ => value.map fun v => (k, v) :: done) []).map
    fun done => object done.reverse

/-- Reads a value, given how arrays and objects are read. -/
def byFirst (arrays objects : Reader Value) : Reader Value := atValue fun c =>
  if c = 'n' then literal "ull".toList null
  else if c = 't' then literal "rue".toList (boolean true)
  else if c = 'f' then literal "alse".toList (boolean false)
  else if startsNumber c then number.map ofNumber
  else if c = '"' then stringBody.map string
  else if c = '[' then arrays
  else if c = '\x7b' then objects
  else .fail .expectedValue

/-- Reads a value in which arrays and objects are nested at most `depth` deep. -/
def within : (depth : Nat) → Reader Value
  | 0 => byFirst (.fail .recursionLimit) (.fail .recursionLimit)
  | depth + 1 => byFirst (arrayOf (within depth)) (objectOf (within depth))

/-- Reads a value. -/
def reader : Reader Value := within depthLimit

end Value

end VersionInfo.Json
